import Mathlib.Data.Nat.Digits.Lemmas

/-! # Numerals

A number written in a base, with a symbol for each digit, the highest digit first.

* `divisions` is the usual way to get the digits, by division until nothing is
  left; `divisions_eq_digits` says how many rounds are enough.
* `read_numeral` reads a numeral back, so that no two numbers share one.
* `grouped` sets a separator in front of every third digit from the right.
-/

namespace Numeral

variable {α : Type} {base : Nat}

/-- The digits of a number, the lowest first, as far as `rounds` divisions give them. -/
def divisions (base : Nat) : Nat → Nat → List Nat
  | 0, _ => []
  | rounds + 1, number =>
    if number = 0 then [] else number % base :: divisions base rounds (number / base)

def numeral (base : Nat) (symbol : Nat → α) (number : Nat) : List α :=
  if number = 0 then [symbol 0] else (Nat.digits base number).reverse.map symbol

/-- The number that symbols stand for. -/
def read (base : Nat) (value : α → Nat) (symbols : List α) : Nat :=
  Nat.ofDigits base (symbols.reverse.map value)

theorem divisions_eq_digits (atLeastTwo : 1 < base) {rounds number : Nat}
    (enough : number < base ^ rounds) :
    divisions base rounds number = Nat.digits base number := by
  induction rounds generalizing number with
  | zero =>
    rw [Nat.lt_one_iff.mp enough, Nat.digits_zero]
    rfl
  | succ rounds inductionHypothesis =>
    by_cases zero : number = 0
    · rw [zero, Nat.digits_zero]
      rfl
    · rw [divisions, if_neg zero, Nat.digits_eq_cons_digits_div atLeastTwo zero]
      congr 1
      apply inductionHypothesis
      rw [pow_succ] at enough
      exact Nat.div_lt_of_lt_mul (by rwa [Nat.mul_comm])

section Symbols

variable {symbol : Nat → α}

theorem map_numeral {β : Type} (translate : α → β) (number : Nat) :
    (numeral base symbol number).map translate =
      numeral base (fun digit => translate (symbol digit)) number := by
  by_cases zero : number = 0
  · simp [numeral, zero]
  · simp [numeral, zero]

/-- The last symbol is the digit that a division takes off. -/
theorem numeral_eq_append (atLeastTwo : 1 < base) {number : Nat} (large : base ≤ number) :
    numeral base symbol number =
      numeral base symbol (number / base) ++ [symbol (number % base)] := by
  have quotient : number / base ≠ 0 := by
    have positive := Nat.div_pos large (by omega)
    omega
  rw [numeral, if_neg (by omega), numeral, if_neg quotient,
    Nat.digits_eq_cons_digits_div atLeastTwo (by omega)]
  simp

theorem numeral_of_lt {number : Nat} (small : number < base) :
    numeral base symbol number = [symbol number] := by
  by_cases zero : number = 0
  · simp [numeral, zero]
  · simp [numeral, zero, Nat.digits_of_lt base number zero small]

theorem numeral_ne_nil (number : Nat) : numeral base symbol number ≠ [] := by
  by_cases zero : number = 0
  · simp [numeral, zero]
  · simpa [numeral, zero] using Nat.digits_ne_nil_iff_ne_zero.mpr zero

/-- A number below `base ^ count` has at most `count` digits. -/
theorem numeral_length_le (atLeastTwo : 1 < base) {number count : Nat} (positive : 0 < count)
    (below : number < base ^ count) : (numeral base symbol number).length ≤ count := by
  by_cases zero : number = 0
  · rw [numeral, if_pos zero]
    exact positive
  · simpa [numeral, zero] using (Nat.digits_length_le_iff atLeastTwo number).mpr below

/-- Every symbol of a numeral stands for a digit. -/
theorem mem_numeral (atLeastTwo : 1 < base) {number : Nat} {char : α}
    (member : char ∈ numeral base symbol number) : ∃ digit < base, char = symbol digit := by
  by_cases zero : number = 0
  · rw [numeral, if_pos zero, List.mem_singleton] at member
    exact ⟨0, by omega, member⟩
  · rw [numeral, if_neg zero] at member
    obtain ⟨digit, isDigit, rfl⟩ := List.mem_map.mp member
    exact ⟨digit, Nat.digits_lt_base atLeastTwo (List.mem_reverse.mp isDigit), rfl⟩

theorem read_numeral {value : α → Nat} (atLeastTwo : 1 < base)
    (inverse : ∀ digit < base, value (symbol digit) = digit) (number : Nat) :
    read base value (numeral base symbol number) = number := by
  by_cases zero : number = 0
  · simp [read, numeral, zero, inverse 0 (by omega)]
  · have digits : ((Nat.digits base number).map symbol).map value = Nat.digits base number := by
      rw [List.map_map]
      apply (List.map_congr_left fun digit isDigit => _).trans (List.map_id _)
      exact fun digit isDigit => inverse digit (Nat.digits_lt_base atLeastTwo isDigit)
    rw [read, numeral, if_neg zero, ← List.map_reverse, List.reverse_reverse, digits,
      Nat.ofDigits_digits]

end Symbols

/-- The digits of `Nat.repr`. -/
theorem numeral_ten (number : Nat) :
    numeral 10 Nat.digitChar number = (toString number).toList := by
  rw [Nat.toString_eq_ofList_toDigits, String.toList_ofList]
  induction number using Nat.strongRecOn with
  | ind number inductionHypothesis =>
    by_cases small : number < 10
    · rw [Nat.toDigits_of_lt_base small, numeral_of_lt small]
    · have upper := inductionHypothesis (number / 10) (by omega)
      rw [Nat.toDigits_of_base_le (by decide) (by omega), ← upper,
        numeral_eq_append (by decide) (by omega)]

/-! ## Groups of three -/

/-- The digits with a separator in front of each group of three. -/
def grouped (separator : α) : List α → List α
  | [] => []
  | digit :: rest =>
    if rest ≠ [] ∧ rest.length % 3 = 0 then digit :: separator :: grouped separator rest
    else digit :: grouped separator rest

/-- The groups: one of up to three digits in front, and behind each separator three. -/
theorem grouped_eq_groups (separator : α) {digits : List α} (nonempty : digits ≠ []) :
    ∃ (first : List α) (groups : List (List α)), digits = first ++ groups.flatten ∧
      grouped separator digits = first ++ groups.flatMap (fun group => separator :: group) ∧
      0 < first.length ∧ first.length ≤ 3 ∧ ∀ group ∈ groups, group.length = 3 := by
  induction digits with
  | nil => exact absurd rfl nonempty
  | cons digit rest inductionHypothesis =>
    by_cases last : rest = []
    · exact ⟨[digit], [], by simp [last, grouped]⟩
    · obtain ⟨first, groups, split, shown, positive, upTo, full⟩ := inductionHypothesis last
      have behind : groups.flatten.length = 3 * groups.length := by
        rw [List.length_flatten, List.map_congr_left full]
        simp [Nat.mul_comm]
      have count : rest.length = first.length + 3 * groups.length := by
        rw [split, List.length_append, behind]
      by_cases boundary : rest.length % 3 = 0
      · have three : first.length = 3 := by omega
        exact ⟨[digit], first :: groups, by simp [split], by
          rw [grouped, if_pos ⟨last, boundary⟩, shown]
          rfl, by simp, by simp, by simpa [three] using full⟩
      · have room : first.length + 1 ≤ 3 := by omega
        exact ⟨digit :: first, groups, by simp [split], by
          rw [grouped, if_neg fun both => boundary both.2, shown]
          rfl, by simp, by simpa using room, full⟩

theorem grouped_length_le (separator : α) (digits : List α) :
    3 * (grouped separator digits).length ≤ 4 * digits.length := by
  have bound : (grouped separator digits).length = digits.length + (digits.length - 1) / 3 := by
    induction digits with
    | nil => simp [grouped]
    | cons digit rest inductionHypothesis =>
      rw [grouped]
      cases rest with
      | nil => simp [grouped]
      | cons next others =>
        split
        · simp only [List.length_cons, inductionHypothesis] at *
          omega
        · simp only [List.length_cons, inductionHypothesis, ne_eq, reduceCtorEq, not_false_eq_true,
            true_and] at *
          omega
  omega

end Numeral
