import HvisorUefiPacker.Print

/-! # The numbers of the formatted output

`ValueToHex` and `ValueToString` take a number apart from its lowest digit on,
in a loop over machine words, and put the digits out in the other order.  What
they write are the numerals of the number: in base 16 of the number without a
sign, in base 10 of the number as an `INT64`, with or without commas.
-/

namespace HvisorUefiPacker.GnuEfi

open Numeral

/-! ## Hexadecimal -/

def hexSymbol (digit : Nat) : CHAR16 := (wide "0123456789ABCDEF").getD digit 0

def hexValue (c : CHAR16) : Nat := (wide "0123456789ABCDEF").idxOf c

theorem hexValue_hexSymbol : ∀ digit < 16, hexValue (hexSymbol digit) = digit := by
  decide

theorem toNat_and_hex_mask (v : UINTN) : (v &&& 0xf).toNat = v.toNat % 16 := by
  rw [BitVec.toNat_and]
  exact Nat.and_two_pow_sub_one_eq_mod v.toNat 4

theorem toNat_ushiftRight_four (v : UINTN) : (v >>> 4).toNat = v.toNat / 16 := by
  rw [BitVec.toNat_ushiftRight, Nat.shiftRight_eq_div_pow]

theorem hexDigits_eq (rounds : Nat) (v : UINTN) :
    hexDigits rounds v = (divisions 16 rounds v.toNat).map hexSymbol := by
  induction rounds generalizing v with
  | zero => rfl
  | succ rounds inductionHypothesis =>
    by_cases zero : v = 0
    · simp [hexDigits, divisions, zero]
    · have number : v.toNat ≠ 0 := fun none => zero (BitVec.eq_of_toNat_eq none)
      rw [hexDigits, if_neg zero, divisions, if_neg number, List.map_cons, inductionHypothesis,
        toNat_ushiftRight_four]
      congr 1
      rw [hexChar, toNat_and_hex_mask]
      rfl

theorem valueToHex_eq (v : UINTN) : valueToHex v = numeral 16 hexSymbol v.toNat := by
  by_cases zero : v = 0
  · rw [zero]
    rfl
  · have number : v.toNat ≠ 0 := fun none => zero (BitVec.eq_of_toNat_eq none)
    have enough : v.toNat < 16 ^ 16 := v.isLt
    rw [valueToHex, if_neg zero, numeral, if_neg number, hexDigits_eq,
      divisions_eq_digits (by decide) enough, List.map_reverse]

/-! ## Decimal -/

def decimalSymbol (digit : Nat) : CHAR16 := char16 (Nat.digitChar digit)

theorem decimalSymbol_eq : ∀ digit < 10,
    ((BitVec.ofNat 64 digit).setWidth 8 + (char16 '0').setWidth 8).setWidth 16 =
      decimalSymbol digit := by
  decide

theorem decimalSymbol_ne_minus : ∀ digit < 10, decimalSymbol digit ≠ char16 '-' := by
  decide

theorem decimalDigits_eq (rounds : Nat) (v : UINTN) :
    decimalDigits rounds v = (divisions 10 rounds v.toNat).map decimalSymbol := by
  induction rounds generalizing v with
  | zero => rfl
  | succ rounds inductionHypothesis =>
    by_cases zero : v = 0
    · simp [decimalDigits, divisions, zero]
    · have number : v.toNat ≠ 0 := fun none => zero (BitVec.eq_of_toNat_eq none)
      rw [decimalDigits, if_neg zero, divisions, if_neg number, List.map_cons, inductionHypothesis,
        BitVec.toNat_udiv]
      congr 1
      rw [← decimalSymbol_eq (v.toNat % 10) (Nat.mod_lt _ (by decide))]
      congr 3
      apply BitVec.eq_of_toNat_eq
      have small : v.toNat % 10 < 2 ^ 64 := by omega
      rw [BitVec.toNat_umod, BitVec.toNat_ofNat, Nat.mod_eq_of_lt small]
      rfl

/-- The digits in `str` once the loop is through. -/
theorem reverse_decimalDigits {v : UINTN} (nonzero : v ≠ 0) :
    (decimalDigits 20 v).reverse = numeral 10 decimalSymbol v.toNat := by
  have number : v.toNat ≠ 0 := fun none => nonzero (BitVec.eq_of_toNat_eq none)
  have enough : v.toNat < 10 ^ 20 := by omega
  rw [decimalDigits_eq, divisions_eq_digits (by decide) enough, numeral, if_neg number,
    List.map_reverse]

theorem numeral_decimalSymbol (number : Nat) :
    numeral 10 decimalSymbol number = wide (toString number) := by
  rw [wide, ← numeral_ten, map_numeral]
  rfl

/-! ### Commas -/

/-- A counter that starts high enough never gets to a comma. -/
theorem putDigits_of_length_lt {c : Nat} {digits : List CHAR16} (far : digits.length < c) :
    putDigits c digits = digits := by
  induction digits generalizing c with
  | nil => rfl
  | cons digit rest inductionHypothesis =>
    rw [List.length_cons] at far
    rw [putDigits, if_neg (by omega), inductionHypothesis (by omega)]

/-- Behind the first digit the counter says how far it is to the next comma, which is
    where the number of digits left is a multiple of three. -/
theorem putDigits_untilComma (digit : CHAR16) (rest : List CHAR16) :
    digit :: putDigits (if rest.length % 3 = 0 then 1 else rest.length % 3 + 1) rest =
      grouped (char16 ',') (digit :: rest) := by
  induction rest generalizing digit with
  | nil => rfl
  | cons next others inductionHypothesis =>
    have step := inductionHypothesis next
    by_cases comma : (next :: others).length % 3 = 0
    · have left : others.length % 3 = 2 := by
        rw [List.length_cons] at comma
        omega
      rw [left] at step
      rw [if_pos comma, putDigits, if_pos rfl, grouped, if_pos ⟨List.cons_ne_nil _ _, comma⟩]
      exact congrArg (digit :: char16 ',' :: ·) step
    · rw [if_neg comma, putDigits, if_neg (by omega), Nat.add_sub_cancel, grouped,
        if_neg fun both => comma both.2]
      congr 1
      rw [← step]
      congr 2
      rw [List.length_cons] at comma ⊢
      split
      · omega
      · omega

/-- `ca` holds where the first comma is. -/
theorem putDigits_eq_grouped (digits : List CHAR16) :
    putDigits ([3, 1, 2].getD (digits.length % 3) 0 + 1) digits = grouped (char16 ',') digits := by
  cases digits with
  | nil => rfl
  | cons digit rest =>
    rw [← putDigits_untilComma]
    have cases : rest.length % 3 = 0 ∨ rest.length % 3 = 1 ∨ rest.length % 3 = 2 := by omega
    rcases cases with left | left | left
    · have first : (digit :: rest).length % 3 = 1 := by
        rw [List.length_cons]
        omega
      rw [first, left]
      rfl
    · have first : (digit :: rest).length % 3 = 2 := by
        rw [List.length_cons]
        omega
      rw [first, left]
      rfl
    · have first : (digit :: rest).length % 3 = 0 := by
        rw [List.length_cons]
        omega
      rw [first, left]
      rfl

/-! ### The sign -/

/-- `-v` of a negative number is its magnitude, also for the least `INT64`. -/
theorem toNat_magnitude (v : UINTN) :
    (if v.msb then -v else v).toNat = v.toInt.natAbs := by
  have bound := v.isLt
  rw [BitVec.toInt_eq_msb_cond]
  by_cases negative : v.msb = true
  · rw [if_pos negative, if_pos negative, BitVec.toNat_neg]
    have half := BitVec.msb_eq_true_iff_two_mul_ge.mp negative
    omega
  · rw [if_neg negative, if_neg negative]
    rfl

theorem wide_append (first second : String) : wide (first ++ second) = wide first ++ wide second := by
  simp [wide]

theorem wide_toString_int (number : Int) :
    wide (toString number) =
      (if number < 0 then [char16 '-'] else []) ++ wide (toString number.natAbs) := by
  cases number with
  | ofNat number => rfl
  | negSucc number =>
    rw [if_pos (Int.negSucc_lt_zero number)]
    exact wide_append "-" (toString (number + 1))

theorem valueToString_eq (comma : Bool) (v : UINTN) :
    valueToString comma v =
      (if v.toInt < 0 then [char16 '-'] else []) ++
        (if comma then grouped (char16 ',') (wide (toString v.toInt.natAbs))
          else wide (toString v.toInt.natAbs)) := by
  by_cases zero : v = 0
  · rw [zero]
    cases comma with
    | false => decide
    | true => decide
  · have nonzero : (if v.msb then -v else v) ≠ 0 := by
      split
      · exact fun none => zero (BitVec.neg_eq_zero_iff.mp none)
      · exact zero
    have sign : v.msb = decide (v.toInt < 0) := BitVec.msb_eq_toInt
    have digits := reverse_decimalDigits nonzero
    rw [toNat_magnitude, numeral_decimalSymbol] at digits
    have count : (decimalDigits 20 (if v.msb then -v else v)).length =
        (wide (toString v.toInt.natAbs)).length := by
      rw [← digits, List.length_reverse]
    have short : (wide (toString v.toInt.natAbs)).length < 1000 := by
      rw [← numeral_decimalSymbol]
      have bound : v.toInt.natAbs < 10 ^ 20 := by
        rw [← toNat_magnitude]
        omega
      have count : (numeral 10 decimalSymbol v.toInt.natAbs).length ≤ 20 :=
        numeral_length_le (by decide) (by decide) bound
      omega
    rw [valueToString, if_neg zero]
    dsimp only
    rw [digits, count, sign]
    simp only [decide_eq_true_eq]
    congr 1
    cases comma with
    | false => exact putDigits_of_length_lt short
    | true => exact putDigits_eq_grouped _

theorem valueToString_plain (v : UINTN) : valueToString false v = wide (toString v.toInt) := by
  rw [valueToString_eq, wide_toString_int]
  rfl

/-! ## What the numbers say -/

theorem wide_toString_eq (number : Nat) :
    wide (toString number) = numeral 10 decimalSymbol number :=
  (numeral_decimalSymbol number).symm

theorem minus_not_mem_wide_toString (number : Nat) : char16 '-' ∉ wide (toString number) := by
  intro member
  rw [wide_toString_eq] at member
  obtain ⟨digit, small, same⟩ := mem_numeral (by decide) member
  exact decimalSymbol_ne_minus digit small same.symm

theorem wide_toString_length_le {number : Nat} (below : number < 10 ^ 19) :
    (wide (toString number)).length ≤ 19 := by
  rw [wide_toString_eq]
  exact numeral_length_le (by decide) (by decide) below

theorem natAbs_toInt_lt (v : UINTN) : v.toInt.natAbs < 10 ^ 19 := by
  have bound := v.isLt
  rw [BitVec.toInt_eq_toNat_cond]
  split
  · omega
  · omega

/-- `%lx` loses nothing: the digits are those of the table, they read back as the number,
    and they fit into `str` and `Scratch`. -/
theorem valueToHex_reads_back (v : UINTN) :
    Numeral.read 16 hexValue (valueToHex v) = v.toNat ∧
      (valueToHex v).length ≤ 16 ∧ valueToHex v ≠ [] ∧
      ∀ c ∈ valueToHex v, c ∈ wide "0123456789ABCDEF" := by
  rw [valueToHex_eq]
  refine ⟨read_numeral (by decide) hexValue_hexSymbol v.toNat,
    numeral_length_le (by decide) (by decide) v.isLt, numeral_ne_nil v.toNat, fun c member => ?_⟩
  obtain ⟨digit, small, rfl⟩ := mem_numeral (by decide) member
  have inTable : ∀ digit < 16, hexSymbol digit ∈ wide "0123456789ABCDEF" := by decide
  exact inTable digit small

theorem mem_wide_toString {number : Nat} {c : CHAR16} (member : c ∈ wide (toString number)) :
    c ∈ wide "0123456789" := by
  rw [wide_toString_eq] at member
  obtain ⟨digit, small, rfl⟩ := mem_numeral (by decide) member
  have inTable : ∀ digit < 10, decimalSymbol digit ∈ wide "0123456789" := by decide
  exact inTable digit small

/-- `%ld` prints the number as an `INT64`.  With commas it prints, behind the same sign, the
    same digits in groups: up to three in the first, and three in each of the others, which
    have a comma in front.  Either way there are no more than 26 characters. -/
theorem valueToString_signed (v : UINTN) :
    valueToString false v = wide (toString v.toInt) ∧
      (∃ (sign first : List CHAR16) (groups : List (List CHAR16)),
        sign = (if v.toInt < 0 then [char16 '-'] else []) ∧
        valueToString false v = sign ++ first ++ groups.flatten ∧
        valueToString true v =
          sign ++ first ++ groups.flatMap (fun group => char16 ',' :: group) ∧
        (∀ c ∈ first ++ groups.flatten, c ∈ wide "0123456789") ∧
        0 < first.length ∧ first.length ≤ 3 ∧ ∀ group ∈ groups, group.length = 3) ∧
      ∀ comma, (valueToString comma v).length ≤ 26 := by
  have count := wide_toString_length_le (natAbs_toInt_lt v)
  have nonempty : wide (toString v.toInt.natAbs) ≠ [] := by
    rw [wide_toString_eq]
    exact numeral_ne_nil _
  refine ⟨valueToString_plain v, ?_, ?_⟩
  · obtain ⟨first, groups, split, shown, positive, upTo, full⟩ :=
      grouped_eq_groups (char16 ',') nonempty
    refine ⟨_, first, groups, rfl, ?_, ?_, ?_, positive, upTo, full⟩
    · rw [valueToString_eq, if_neg Bool.false_ne_true, split, List.append_assoc]
    · rw [valueToString_eq, if_pos rfl, shown, List.append_assoc]
    · intro c member
      rw [← split] at member
      exact mem_wide_toString member
  · intro comma
    have sign : (if v.toInt < 0 then [char16 '-'] else []).length ≤ 1 := by
      split
      · simp
      · simp
    have commas := grouped_length_le (char16 ',') (wide (toString v.toInt.natAbs))
    rw [valueToString_eq, List.length_append]
    cases comma with
    | false =>
      simp only [Bool.false_eq_true, if_false]
      omega
    | true =>
      simp only [if_true]
      omega

example : valueToString true 1234567 = wide "1,234,567" := by decide

/-- `%u` goes through the same function: a value is printed without a sign exactly when it
    is below 2^63, which `%lu` does not ask for and `%u` of 32 bits always has. -/
theorem unsignedValue_prints_iff (item : PrintItem) (value : UINTN) :
    (valueToString false (item.unsignedValue value) =
        wide (toString (item.unsignedValue value).toNat) ↔
      (item.unsignedValue value).toNat < 2 ^ 63) ∧
    (item.long = false → (item.unsignedValue value).toNat = value.toNat % 2 ^ 32) := by
  constructor
  · rw [valueToString_plain]
    generalize item.unsignedValue value = v
    have bound := v.isLt
    constructor
    · intro same
      by_contra large
      have negative : v.toInt < 0 := by
        rw [BitVec.toInt_eq_toNat_cond]
        split
        · omega
        · omega
      apply minus_not_mem_wide_toString v.toNat
      rw [← same, wide_toString_int, if_pos negative]
      exact List.mem_cons_self
    · intro small
      have number : v.toInt = Int.ofNat v.toNat := by
        rw [BitVec.toInt_eq_toNat_cond]
        exact if_pos (by omega)
      rw [number]
      rfl
  · intro short
    rw [PrintItem.unsignedValue, if_neg (by simp [short]), BitVec.toNat_setWidth,
      BitVec.toNat_setWidth]
    omega

end HvisorUefiPacker.GnuEfi
