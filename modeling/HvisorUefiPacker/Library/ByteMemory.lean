import Mathlib.Data.BitVec
import Mathlib.Data.Set.BooleanAlgebra
import Mathlib.Data.Set.Function
import Mathlib.Order.CompletePartialOrder
import Mathlib.Tactic.Abel
import Mathlib.Tactic.Common

/-! # Flat memories

A memory is a function from `w`-bit addresses to cells.  Addresses wrap, so a
write of up to `2 ^ w` cells touches every address at most once.

* `writeBytes` / `readBytes` move lists of cells, `writeBytes_apply` says what
  every address holds afterwards.
* `copyUp` / `copyDown` copy cell by cell in either direction; where the
  direction suits the overlap of the two ranges they move the original cells.
* `moveAll` is a list of moves one after the other; the last move onto an
  address decides what it holds.
* `replay` rebuilds a memory from the log of its stores.
* `littleEndian` serialises values, `Holds` says that memory has a serialised one.
-/

namespace ByteMemory

abbrev Memory (w : Nat) (β : Type) := BitVec w → β

variable {w : Nat} {β : Type}

/-- The addresses of `[base, base + length)`, cut off at the top of memory. -/
def range (base : BitVec w) (length : Nat) : Set (BitVec w) :=
  { address | base.toNat ≤ address.toNat ∧ address.toNat < base.toNat + length }

theorem mem_range {address base : BitVec w} {length : Nat} :
    address ∈ range base length ↔
      base.toNat ≤ address.toNat ∧ address.toNat < base.toNat + length := Iff.rfl

instance (address base : BitVec w) (length : Nat) : Decidable (address ∈ range base length) :=
  inferInstanceAs (Decidable (_ ∧ _))

theorem mem_range_iff_sub {address base : BitVec w} {length : Nat}
    (fits : base.toNat + length ≤ 2 ^ w) :
    address ∈ range base length ↔ (address - base).toNat < length := by
  have addressBound := address.isLt
  have baseBound := base.isLt
  rw [mem_range, BitVec.toNat_sub]
  by_cases above : base.toNat ≤ address.toNat
  · have offset : (2 ^ w - base.toNat + address.toNat) % 2 ^ w = address.toNat - base.toNat := by
      rw [show 2 ^ w - base.toNat + address.toNat = address.toNat - base.toNat + 2 ^ w by omega,
        Nat.add_mod_right, Nat.mod_eq_of_lt (by omega)]
    omega
  · have offset : (2 ^ w - base.toNat + address.toNat) % 2 ^ w =
        2 ^ w - base.toNat + address.toNat := Nat.mod_eq_of_lt (by omega)
    omega

/-- Two ranges are disjoint exactly when one is empty or they lie one below the other. -/
theorem disjoint_range {first second : BitVec w} {firstLength secondLength : Nat} :
    Disjoint (range first firstLength) (range second secondLength) ↔
      firstLength = 0 ∨ secondLength = 0 ∨ first.toNat + firstLength ≤ second.toNat ∨
        second.toNat + secondLength ≤ first.toNat := by
  rw [Set.disjoint_left]
  constructor
  · intro apart
    have atFirst := apart (a := first)
    have atSecond := apart (a := second)
    simp only [mem_range] at atFirst atSecond
    omega
  · intro apart address inFirst inSecond
    rw [mem_range] at inFirst inSecond
    omega

instance (first second : BitVec w) (firstLength secondLength : Nat) :
    Decidable (Disjoint (range first firstLength) (range second secondLength)) :=
  decidable_of_iff _ disjoint_range.symm

/-! ## Reading and writing lists of cells -/

def readBytes (memory : Memory w β) (base : BitVec w) (length : Nat) : List β :=
  (List.range length).map fun index => memory (base + BitVec.ofNat w index)

def writeBytes (memory : Memory w β) (base : BitVec w) : List β → Memory w β
  | [] => memory
  | byte :: bytes => writeBytes (Function.update memory base byte) (base + 1) bytes

theorem writeBytes_append (memory : Memory w β) (base : BitVec w) (first second : List β) :
    writeBytes memory base (first ++ second) =
      writeBytes (writeBytes memory base first) (base + BitVec.ofNat w first.length) second := by
  induction first generalizing memory base with
  | nil => simp [writeBytes]
  | cons byte rest inductionHypothesis =>
    have behind : base + 1 + BitVec.ofNat w rest.length =
        base + BitVec.ofNat w (rest.length + 1) := by
      rw [Nat.add_comm, BitVec.ofNat_add, BitVec.add_assoc]
      rfl
    rw [List.cons_append, writeBytes, inductionHypothesis, List.length_cons, behind, writeBytes]

/-- What is written over does not matter. -/
theorem writeBytes_update {memory : Memory w β} {base : BitVec w} {bytes : List β}
    (nonempty : bytes ≠ []) (byte : β) :
    writeBytes (Function.update memory base byte) base bytes = writeBytes memory base bytes := by
  cases bytes with
  | nil => exact absurd rfl nonempty
  | cons first rest => rw [writeBytes, writeBytes, Function.update_idem]

@[simp] theorem readBytes_length (memory : Memory w β) (base : BitVec w) (length : Nat) :
    (readBytes memory base length).length = length := by
  simp [readBytes]

theorem readBytes_getElem? (memory : Memory w β) (base : BitVec w) (length index : Nat) :
    (readBytes memory base length)[index]? =
      if index < length then some (memory (base + BitVec.ofNat w index)) else none := by
  unfold readBytes
  rw [List.getElem?_map]
  split
  · next inside => rw [List.getElem?_range inside]; rfl
  · next outside => rw [List.getElem?_eq_none (by simpa using outside)]; rfl

theorem readBytes_succ (memory : Memory w β) (base : BitVec w) (length : Nat) :
    readBytes memory base (length + 1) = memory base :: readBytes memory (base + 1) length := by
  unfold readBytes
  rw [List.range_succ_eq_map, List.map_cons, List.map_map, BitVec.add_zero]
  congr 1
  apply List.map_congr_left
  intro index _
  change memory (base + BitVec.ofNat w (index + 1)) = memory (base + 1 + BitVec.ofNat w index)
  rw [BitVec.ofNat_add, BitVec.add_comm (BitVec.ofNat w index), ← BitVec.add_assoc]
  rfl

theorem toNat_sub_one {distance : BitVec w} (nonzero : distance ≠ 0) :
    (distance - 1).toNat = distance.toNat - 1 := by
  have positive : distance.toNat ≠ 0 := fun zero => nonzero (BitVec.eq_of_toNat_eq (by simpa using zero))
  have bound := distance.isLt
  have one : (1 : BitVec w).toNat = 1 := Nat.mod_eq_of_lt (show 1 < 2 ^ w by omega)
  rw [BitVec.toNat_sub, one,
    show 2 ^ w - 1 + distance.toNat = distance.toNat - 1 + 2 ^ w by omega, Nat.add_mod_right,
    Nat.mod_eq_of_lt (by omega)]

/-- The distance from the cell after `base` is one less than from `base`. -/
theorem toNat_sub_succ {address base : BitVec w} (distinct : address ≠ base) :
    (address - base).toNat = (address - (base + 1)).toNat + 1 := by
  have nonzero : address - base ≠ 0 := sub_ne_zero.mpr distinct
  have positive : (address - base).toNat ≠ 0 := fun zero =>
    nonzero (BitVec.eq_of_toNat_eq (by simpa using zero))
  rw [show address - (base + 1) = address - base - 1 by abel, toNat_sub_one nonzero]
  omega

theorem toNat_sub_succ_self (base : BitVec w) : (base - (base + 1)).toNat = 2 ^ w - 1 := by
  have wrapped : base - (base + 1) = -(1 : BitVec w) := by abel
  rw [wrapped, show -(1 : BitVec w) = BitVec.allOnes w from BitVec.neg_one_eq_allOnes,
    BitVec.toNat_allOnes]

theorem writeBytes_apply (memory : Memory w β) (base : BitVec w) (bytes : List β)
    (fits : bytes.length ≤ 2 ^ w) (address : BitVec w) :
    writeBytes memory base bytes address =
      (bytes[(address - base).toNat]?).getD (memory address) := by
  induction bytes generalizing memory base with
  | nil => rfl
  | cons byte bytes inductionHypothesis =>
    simp only [List.length_cons] at fits
    rw [writeBytes, inductionHypothesis _ _ (by omega)]
    by_cases here : address = base
    · subst here
      rw [toNat_sub_succ_self, List.getElem?_eq_none (by omega)]
      simp
    · rw [toNat_sub_succ here, List.getElem?_cons_succ, Function.update_of_ne here]

theorem writeBytes_outside {memory : Memory w β} {base : BitVec w} {bytes : List β}
    {address : BitVec w} (fits : base.toNat + bytes.length ≤ 2 ^ w)
    (outside : address ∉ range base bytes.length) :
    writeBytes memory base bytes address = memory address := by
  rw [mem_range_iff_sub fits, Nat.not_lt] at outside
  rw [writeBytes_apply _ _ _ (by omega), List.getElem?_eq_none outside]
  rfl

theorem readBytes_writeBytes (memory : Memory w β) (base : BitVec w) (bytes : List β)
    (fits : bytes.length ≤ 2 ^ w) :
    readBytes (writeBytes memory base bytes) base bytes.length = bytes := by
  apply List.ext_getElem?
  intro index
  rw [readBytes_getElem?]
  by_cases bound : index < bytes.length
  · have offset : base + BitVec.ofNat w index - base = BitVec.ofNat w index := by abel
    rw [if_pos bound, writeBytes_apply _ _ _ fits, offset, BitVec.toNat_ofNat,
      Nat.mod_eq_of_lt (by omega), List.getElem?_eq_getElem bound]
    rfl
  · rw [if_neg bound, List.getElem?_eq_none (by omega)]

theorem readBytes_congr {first second : Memory w β} {base : BitVec w} {length : Nat}
    (fits : base.toNat + length ≤ 2 ^ w) (agree : Set.EqOn first second (range base length)) :
    readBytes first base length = readBytes second base length := by
  unfold readBytes
  apply List.map_congr_left
  intro index member
  have bound := List.mem_range.mp member
  have baseBound := base.isLt
  apply agree
  rw [mem_range, BitVec.toNat_add, BitVec.toNat_ofNat, Nat.add_mod_mod,
    Nat.mod_eq_of_lt (by omega)]
  omega

/-! ## Copying cell by cell -/

/-- Copy `length` cells upwards from the first. -/
def copyUp (memory : Memory w β) (dest src : BitVec w) : Nat → Memory w β
  | 0 => memory
  | length + 1 => copyUp (Function.update memory dest (memory src)) (dest + 1) (src + 1) length

/-- Copy `length` cells downwards, `dest` and `src` being one past the last. -/
def copyDown (memory : Memory w β) (dest src : BitVec w) : Nat → Memory w β
  | 0 => memory
  | length + 1 =>
    copyDown (Function.update memory (dest - 1) (memory (src - 1))) (dest - 1) (src - 1) length

/-- Copying upwards moves the original cells unless the destination starts
    strictly inside the source. -/
theorem copyUp_apply (memory : Memory w β) (dest src : BitVec w) (length : Nat)
    (fits : length ≤ 2 ^ w)
    (clear : (dest - src).toNat = 0 ∨ length ≤ (dest - src).toNat) (address : BitVec w) :
    copyUp memory dest src length address =
      if (address - dest).toNat < length then memory (src + (address - dest)) else memory address := by
  induction length generalizing memory dest src with
  | zero => simp [copyUp]
  | succ length inductionHypothesis =>
    have sameDistance : dest + 1 - (src + 1) = dest - src := by abel
    rw [copyUp, inductionHypothesis _ _ _ (by omega) (by rw [sameDistance]; omega)]
    by_cases here : address = dest
    · subst here
      rw [toNat_sub_succ_self, if_neg (by omega)]
      simp
    · have distance := toNat_sub_succ here
      have shifted : src + 1 + (address - (dest + 1)) = src + (address - dest) := by abel
      have unread : (address - dest).toNat < length + 1 → src + (address - dest) ≠ dest := by
        intro bound overlap
        have equal : address - dest = dest - src := eq_sub_of_add_eq' overlap
        rw [equal] at bound distance
        omega
      by_cases inside : (address - dest).toNat < length + 1
      · rw [if_pos (by omega), if_pos inside, shifted, Function.update_of_ne (unread inside)]
      · rw [if_neg (by omega), if_neg inside, Function.update_of_ne here]

/-- Copying downwards moves the original cells unless the source starts
    strictly inside the destination. -/
theorem copyDown_apply (memory : Memory w β) (dest src : BitVec w) (length : Nat)
    (fits : length ≤ 2 ^ w)
    (clear : (src - dest).toNat = 0 ∨ length ≤ (src - dest).toNat) (address : BitVec w) :
    copyDown memory (dest + BitVec.ofNat w length) (src + BitVec.ofNat w length) length address =
      if (address - dest).toNat < length then memory (src + (address - dest)) else memory address := by
  induction length generalizing memory with
  | zero => simp [copyDown]
  | succ length inductionHypothesis =>
    have oneBelow : ∀ base : BitVec w,
        base + BitVec.ofNat w (length + 1) - 1 = base + BitVec.ofNat w length := by
      intro base
      rw [BitVec.ofNat_add]
      change base + (BitVec.ofNat w length + 1) - 1 = _
      abel
    rw [copyDown, oneBelow, oneBelow, inductionHypothesis _ (by omega) (by omega)]
    have lengthToNat : (BitVec.ofNat w length).toNat = length :=
      Nat.mod_eq_of_lt (show length < 2 ^ w by omega)
    by_cases below : (address - dest).toNat < length
    · have unread : src + (address - dest) ≠ dest + BitVec.ofNat w length := by
        intro overlap
        have equal : src - dest = BitVec.ofNat w length - (address - dest) := by
          rw [eq_sub_iff_add_eq, ← add_left_cancel_iff (a := dest), ← overlap]
          abel
        have distance : (src - dest).toNat = length - (address - dest).toNat := by
          rw [equal, BitVec.toNat_sub_of_le (by rw [BitVec.le_def, lengthToNat]; omega), lengthToNat]
        omega
      rw [if_pos below, if_pos (by omega), Function.update_of_ne unread]
    · rw [if_neg below]
      by_cases here : address = dest + BitVec.ofNat w length
      · subst here
        have offset : dest + BitVec.ofNat w length - dest = BitVec.ofNat w length := by abel
        rw [Function.update_self, offset, lengthToNat, if_pos (Nat.lt_succ_self length)]
      · have beyond : (address - dest).toNat ≠ length := by
          intro equal
          apply here
          rw [← sub_eq_iff_eq_add']
          apply BitVec.eq_of_toNat_eq
          rw [equal, lengthToNat]
        rw [Function.update_of_ne here, if_neg (by omega)]

theorem writeBytes_readBytes_apply (memory source : Memory w β) (dest src : BitVec w) (length : Nat)
    (fits : length ≤ 2 ^ w) (address : BitVec w) :
    writeBytes memory dest (readBytes source src length) address =
      if (address - dest).toNat < length then source (src + (address - dest)) else memory address := by
  rw [writeBytes_apply _ _ _ (by simpa using fits), readBytes_getElem?]
  split
  · rw [BitVec.ofNat_toNat, BitVec.setWidth_eq]
    rfl
  · rfl

theorem copyUp_eq_writeBytes {memory : Memory w β} {dest src : BitVec w} {length : Nat}
    (fits : length ≤ 2 ^ w) (clear : (dest - src).toNat = 0 ∨ length ≤ (dest - src).toNat) :
    copyUp memory dest src length = writeBytes memory dest (readBytes memory src length) := by
  funext address
  rw [copyUp_apply _ _ _ _ fits clear, writeBytes_readBytes_apply _ _ _ _ _ fits]

theorem copyDown_eq_writeBytes {memory : Memory w β} {dest src : BitVec w} {length : Nat}
    (fits : length ≤ 2 ^ w) (clear : (src - dest).toNat = 0 ∨ length ≤ (src - dest).toNat) :
    copyDown memory (dest + BitVec.ofNat w length) (src + BitVec.ofNat w length) length =
      writeBytes memory dest (readBytes memory src length) := by
  funext address
  rw [copyDown_apply _ _ _ _ fits clear, writeBytes_readBytes_apply _ _ _ _ _ fits]

/-! ## Moves

A move copies a run of cells as if through a buffer.  Where the sources of a
list of moves stay clear of all its destinations, the last move onto an address
decides what it holds, and it holds a cell of the original memory. -/

structure Move (w : Nat) where
  dest : BitVec w
  src : BitVec w
  length : Nat

namespace Move

def target (move : Move w) : Set (BitVec w) := range move.dest move.length

def source (move : Move w) : Set (BitVec w) := range move.src move.length

instance (address : BitVec w) (move : Move w) : Decidable (address ∈ move.target) :=
  inferInstanceAs (Decidable (address ∈ range _ _))

instance (first second : Move w) : Decidable (Disjoint first.target second.target) :=
  inferInstanceAs (Decidable (Disjoint (range _ _) (range _ _)))

instance (first second : Move w) : Decidable (Disjoint first.target second.source) :=
  inferInstanceAs (Decidable (Disjoint (range _ _) (range _ _)))

/-- Neither range wraps. -/
structure Fits (move : Move w) : Prop where
  dest : move.dest.toNat + move.length ≤ 2 ^ w
  src : move.src.toNat + move.length ≤ 2 ^ w

instance (move : Move w) : Decidable move.Fits :=
  decidable_of_iff (_ ∧ _) ⟨fun both => ⟨both.1, both.2⟩, fun fits => ⟨fits.dest, fits.src⟩⟩

def apply (memory : Memory w β) (move : Move w) : Memory w β :=
  writeBytes memory move.dest (readBytes memory move.src move.length)

theorem apply_outside {memory : Memory w β} {move : Move w} (fits : move.Fits)
    {address : BitVec w} (outside : address ∉ move.target) :
    move.apply memory address = memory address := by
  apply writeBytes_outside
  · rw [readBytes_length]
    exact fits.dest
  · rwa [readBytes_length]

theorem apply_inside {memory : Memory w β} {move : Move w} (fits : move.Fits)
    {address : BitVec w} (inside : address ∈ move.target) :
    move.apply memory address = memory (move.src + (address - move.dest)) := by
  have bound : move.length ≤ 2 ^ w := by
    have := fits.dest
    omega
  rw [apply, writeBytes_readBytes_apply _ _ _ _ _ bound]
  exact if_pos ((mem_range_iff_sub fits.dest).mp inside)

/-- The cell a move brings to `address` comes from its source. -/
theorem source_of_target {move : Move w} (fits : move.Fits) {address : BitVec w}
    (inside : address ∈ move.target) : move.src + (address - move.dest) ∈ move.source := by
  rw [source, mem_range_iff_sub fits.src, add_sub_cancel_left]
  exact (mem_range_iff_sub fits.dest).mp inside

/-- Two memories that agree on the source, and elsewhere, still do so. -/
theorem apply_eqOn {first second : Memory w β} {move : Move w} (fits : move.Fits)
    {cells : Set (BitVec w)} (sources : move.source ⊆ cells)
    (agree : Set.EqOn first second cells) :
    Set.EqOn (move.apply first) (move.apply second) cells := by
  intro address inside
  by_cases written : address ∈ move.target
  · rw [apply_inside fits written, apply_inside fits written]
    exact agree (sources (source_of_target fits written))
  · rw [apply_outside fits written, apply_outside fits written]
    exact agree inside

/-- Copying upwards is a move unless the target starts strictly inside the source. -/
theorem copyUp_eq_apply_of_outside {memory : Memory w β} {move : Move w} (fits : move.Fits)
    (outside : ¬ (move.src.toNat < move.dest.toNat ∧
      move.dest.toNat < move.src.toNat + move.length)) :
    copyUp memory move.dest move.src move.length = move.apply memory := by
  have destFits := fits.dest
  apply copyUp_eq_writeBytes (by omega)
  by_contra overlaps
  obtain ⟨shifted, near⟩ := not_or.mp overlaps
  obtain ⟨lower, upper⟩ := (mem_range_iff_sub fits.src).mpr (Nat.not_le.mp near)
  apply outside
  refine ⟨lt_of_le_of_ne lower fun same => shifted ?_, upper⟩
  rw [BitVec.eq_of_toNat_eq same, BitVec.sub_self, BitVec.toNat_zero]

/-- In particular when the two ranges are apart. -/
theorem copyUp_eq_apply {memory : Memory w β} {move : Move w} (fits : move.Fits)
    (clear : Disjoint move.target move.source) :
    copyUp memory move.dest move.src move.length = move.apply memory := by
  apply copyUp_eq_apply_of_outside fits
  rintro ⟨above, below⟩
  have inSource : move.dest ∈ move.source := mem_range.mpr ⟨above.le, below⟩
  have inTarget : move.dest ∈ move.target := mem_range.mpr ⟨le_rfl, by omega⟩
  exact Set.disjoint_left.mp clear inTarget inSource

end Move

def moveAll (memory : Memory w β) (moves : List (Move w)) : Memory w β :=
  moves.foldl (fun current move => move.apply current) memory

@[simp] theorem moveAll_nil (memory : Memory w β) : moveAll memory [] = memory := rfl

@[simp] theorem moveAll_cons (memory : Memory w β) (move : Move w) (moves : List (Move w)) :
    moveAll memory (move :: moves) = moveAll (move.apply memory) moves := rfl

theorem moveAll_append (memory : Memory w β) (first second : List (Move w)) :
    moveAll memory (first ++ second) = moveAll (moveAll memory first) second :=
  List.foldl_append

theorem moveAll_outside {memory : Memory w β} {moves : List (Move w)} {address : BitVec w}
    (fits : ∀ move ∈ moves, move.Fits) (outside : ∀ move ∈ moves, address ∉ move.target) :
    moveAll memory moves address = memory address := by
  induction moves generalizing memory with
  | nil => rfl
  | cons move moves inductionHypothesis =>
    rw [moveAll_cons, inductionHypothesis (fun other member => fits other (by simp [member]))
      (fun other member => outside other (by simp [member]))]
    exact Move.apply_outside (fits move (by simp)) (outside move (by simp))

theorem moveAll_eqOn {first second : Memory w β} {moves : List (Move w)} {cells : Set (BitVec w)}
    (fits : ∀ move ∈ moves, move.Fits) (sources : ∀ move ∈ moves, move.source ⊆ cells)
    (agree : Set.EqOn first second cells) :
    Set.EqOn (moveAll first moves) (moveAll second moves) cells := by
  induction moves generalizing first second with
  | nil => exact agree
  | cons move moves inductionHypothesis =>
    rw [moveAll_cons, moveAll_cons]
    apply inductionHypothesis (fun other member => fits other (by simp [member]))
      (fun other member => sources other (by simp [member]))
    exact Move.apply_eqOn (fits move (by simp)) (sources move (by simp)) agree

/-- The last move onto an address decides, and it brings an original cell. -/
theorem moveAll_last {memory : Memory w β} {before after : List (Move w)} {move : Move w}
    (fits : ∀ other ∈ before ++ move :: after, other.Fits)
    (clear : ∀ earlier ∈ before, Disjoint earlier.target move.source)
    {address : BitVec w} (inside : address ∈ move.target)
    (last : ∀ later ∈ after, address ∉ later.target) :
    moveAll memory (before ++ move :: after) address =
      memory (move.src + (address - move.dest)) := by
  have moveFits : move.Fits := fits move (by simp)
  rw [moveAll_append, moveAll_cons,
    moveAll_outside (fun later member => fits later (by simp [member])) last,
    Move.apply_inside moveFits inside]
  apply moveAll_outside (fun earlier member => fits earlier (by simp [member]))
  intro earlier member written
  exact Set.disjoint_left.mp (clear earlier member) written
    (Move.source_of_target moveFits inside)

/-- The same for moves that are numbered. -/
theorem moveAll_range_last {memory : Memory w β} {moves : Nat → Move w} {count i : Nat}
    (bound : i < count) (fits : ∀ j < count, (moves j).Fits)
    (clear : ∀ j < i, Disjoint (moves j).target (moves i).source) {address : BitVec w}
    (inside : address ∈ (moves i).target)
    (last : ∀ j < count, i < j → address ∉ (moves j).target) :
    moveAll memory ((List.range count).map moves) address =
      memory ((moves i).src + (address - (moves i).dest)) := by
  have split : List.range count = List.range i ++ i :: List.range' (i + 1) (count - (i + 1)) := by
    rw [List.range_eq_range', List.range_eq_range', ← List.range'_succ,
      show count - (i + 1) + 1 = count - i by omega]
    have glued := List.range'_append_1 (s := 0) (m := i) (n := count - i)
    rw [Nat.zero_add, Nat.add_sub_cancel' bound.le] at glued
    exact glued.symm
  rw [split, List.map_append, List.map_cons]
  apply moveAll_last _ _ inside
  · intro later member
    obtain ⟨j, inRest, rfl⟩ := List.mem_map.mp member
    have limits := List.mem_range'_1.mp inRest
    exact last j (by omega) (by omega)
  · rw [← List.map_cons, ← List.map_append, ← split]
    intro move member
    obtain ⟨j, below, rfl⟩ := List.mem_map.mp member
    exact fits j (List.mem_range.mp below)
  · intro earlier member
    obtain ⟨j, below, rfl⟩ := List.mem_map.mp member
    exact clear j (List.mem_range.mp below)

/-- An address some move writes has a last move that does. -/
theorem exists_last_move {moves : List (Move w)} {address : BitVec w}
    (written : ∃ move ∈ moves, address ∈ move.target) :
    ∃ before move after, moves = before ++ move :: after ∧ address ∈ move.target ∧
      ∀ later ∈ after, address ∉ later.target := by
  induction moves with
  | nil =>
    obtain ⟨_, member, _⟩ := written
    cases member
  | cons first rest inductionHypothesis =>
    by_cases later : ∃ move ∈ rest, address ∈ move.target
    · obtain ⟨before, move, after, split, inside, last⟩ := inductionHypothesis later
      exact ⟨first :: before, move, after, by rw [split, List.cons_append], inside, last⟩
    · obtain ⟨move, member, inside⟩ := written
      cases member with
      | head =>
        exact ⟨[], first, rest, rfl, inside, fun move member inside => later ⟨move, member, inside⟩⟩
      | tail _ inRest => exact absurd ⟨move, inRest, inside⟩ later

/-- Where the sources agree, two memories get the same cells, whatever they held. -/
theorem moveAll_congr {first second : Memory w β} {moves : List (Move w)}
    (fits : ∀ move ∈ moves, move.Fits)
    (clear : ∀ move ∈ moves, ∀ other ∈ moves, Disjoint move.target other.source)
    (agree : ∀ move ∈ moves, Set.EqOn first second move.source) {address : BitVec w}
    (written : ∃ move ∈ moves, address ∈ move.target) :
    moveAll first moves address = moveAll second moves address := by
  obtain ⟨before, move, after, rfl, inside, last⟩ := exists_last_move written
  have unread : ∀ earlier ∈ before, Disjoint earlier.target move.source :=
    fun earlier member => clear earlier (by simp [member]) move (by simp)
  rw [moveAll_last fits unread inside last, moveAll_last fits unread inside last]
  exact agree move (by simp) (Move.source_of_target (fits move (by simp)) inside)

section Apart

variable {memory first second : Memory w β} {moves : List (Move w)}
  (fits : ∀ move ∈ moves, move.Fits)
  (apart : moves.Pairwise fun first second => Disjoint first.target second.target)
  (clear : ∀ move ∈ moves, ∀ other ∈ moves, Disjoint move.target other.source)

include fits apart clear

/-- Moves onto disjoint ranges that stay clear of every source: each address gets its
    cell from the one move onto it. -/
theorem moveAll_inside {move : Move w} (member : move ∈ moves) {address : BitVec w}
    (inside : address ∈ move.target) :
    moveAll memory moves address = memory (move.src + (address - move.dest)) := by
  obtain ⟨before, after, rfl⟩ := List.append_of_mem member
  have lastOnto : ∀ later ∈ after, Disjoint move.target later.target := by
    have ordered := (List.pairwise_append.mp apart).2.1
    exact (List.pairwise_cons.mp ordered).1
  apply moveAll_last fits _ inside
  · intro later laterMember onto
    exact Set.disjoint_left.mp (lastOnto later laterMember) inside onto
  · intro earlier earlierMember
    exact clear earlier (by simp [earlierMember]) move (by simp)

/-- They all deliver. -/
theorem moveAll_delivers {move : Move w} (member : move ∈ moves) :
    readBytes (moveAll memory moves) move.dest move.length =
      readBytes memory move.src move.length := by
  unfold readBytes
  apply List.map_congr_left
  intro index inRange
  have bound := List.mem_range.mp inRange
  have destFits := (fits move member).dest
  have offset : move.dest + BitVec.ofNat w index - move.dest = BitVec.ofNat w index := by abel
  have inside : move.dest + BitVec.ofNat w index ∈ move.target := by
    rw [Move.target, mem_range_iff_sub destFits, offset, BitVec.toNat_ofNat,
      Nat.mod_eq_of_lt (by omega)]
    exact bound
  rw [moveAll_inside fits apart clear member inside, offset]

/-- Their order does not matter, nor what is in memory besides the sources and the
    address looked at. -/
theorem moveAll_perm {permuted : List (Move w)} (reordered : moves.Perm permuted)
    (agree : ∀ move ∈ moves, Set.EqOn first second move.source) {address : BitVec w}
    (same : first address = second address) :
    moveAll first moves address = moveAll second permuted address := by
  have permutedFits : ∀ move ∈ permuted, move.Fits :=
    fun move member => fits move (reordered.mem_iff.mpr member)
  by_cases written : ∃ move ∈ moves, address ∈ move.target
  · obtain ⟨move, member, inside⟩ := written
    have permutedApart := (reordered.pairwise_iff fun disjoint => disjoint.symm).mp apart
    have permutedClear : ∀ move ∈ permuted, ∀ other ∈ permuted,
        Disjoint move.target other.source := fun move member other otherMember =>
      clear move (reordered.mem_iff.mpr member) other (reordered.mem_iff.mpr otherMember)
    rw [moveAll_inside fits apart clear member inside,
      moveAll_inside permutedFits permutedApart permutedClear (reordered.mem_iff.mp member) inside]
    exact agree move member (Move.source_of_target (fits move member) inside)
  · have outside : ∀ move ∈ moves, address ∉ move.target :=
      fun move member inside => written ⟨move, member, inside⟩
    rw [moveAll_outside fits outside, same]
    exact (moveAll_outside permutedFits fun move member =>
      outside move (reordered.mem_iff.mpr member)).symm

end Apart

/-! ## Store logs -/

/-- The memory a list of stores leaves, oldest first. -/
def replay (memory : Memory w β) (stores : List (BitVec w × β)) : Memory w β :=
  stores.foldl (fun current store => Function.update current store.1 store.2) memory

theorem replay_append (memory : Memory w β) (first second : List (BitVec w × β)) :
    replay memory (first ++ second) = replay (replay memory first) second :=
  List.foldl_append

/-- One log leaves the same cell over two memories that held the same cell. -/
theorem replay_congr {first second : Memory w β} (stores : List (BitVec w × β))
    {address : BitVec w} (same : first address = second address) :
    replay first stores address = replay second stores address := by
  induction stores generalizing first second with
  | nil => exact same
  | cons store stores inductionHypothesis =>
    apply inductionHypothesis
    by_cases here : address = store.1
    · subst here
      simp
    · simp [Function.update_of_ne here, same]

/-- The stores of `writeBytes`, of `copyUp` and of `copyDown`. -/
def writeLog (base : BitVec w) : List β → List (BitVec w × β)
  | [] => []
  | byte :: bytes => (base, byte) :: writeLog (base + 1) bytes

def copyUpLog (memory : Memory w β) (dest src : BitVec w) : Nat → List (BitVec w × β)
  | 0 => []
  | length + 1 =>
    (dest, memory src) ::
      copyUpLog (Function.update memory dest (memory src)) (dest + 1) (src + 1) length

def copyDownLog (memory : Memory w β) (dest src : BitVec w) : Nat → List (BitVec w × β)
  | 0 => []
  | length + 1 =>
    (dest - 1, memory (src - 1)) ::
      copyDownLog (Function.update memory (dest - 1) (memory (src - 1))) (dest - 1) (src - 1) length

theorem replay_writeLog (memory : Memory w β) (base : BitVec w) (bytes : List β) :
    replay memory (writeLog base bytes) = writeBytes memory base bytes := by
  induction bytes generalizing memory base with
  | nil => rfl
  | cons byte bytes inductionHypothesis => exact inductionHypothesis _ _

theorem replay_copyUpLog (memory : Memory w β) (dest src : BitVec w) (length : Nat) :
    replay memory (copyUpLog memory dest src length) = copyUp memory dest src length := by
  induction length generalizing memory dest src with
  | zero => rfl
  | succ length inductionHypothesis => exact inductionHypothesis _ _ _

theorem replay_copyDownLog (memory : Memory w β) (dest src : BitVec w) (length : Nat) :
    replay memory (copyDownLog memory dest src length) = copyDown memory dest src length := by
  induction length generalizing memory dest src with
  | zero => rfl
  | succ length inductionHypothesis => exact inductionHypothesis _ _ _

theorem replay_outside {memory : Memory w β} {stores : List (BitVec w × β)} {address : BitVec w}
    (outside : ∀ store ∈ stores, store.1 ≠ address) :
    replay memory stores address = memory address := by
  induction stores generalizing memory with
  | nil => rfl
  | cons store stores inductionHypothesis =>
    rw [replay, List.foldl_cons, ← replay,
      inductionHypothesis fun other member => outside other (by simp [member])]
    exact Function.update_of_ne (outside store (by simp)).symm _ _

theorem copyUpLog_address {memory : Memory w β} {dest src : BitVec w} {length : Nat}
    {store : BitVec w × β} (member : store ∈ copyUpLog memory dest src length) :
    ∃ index < length, store.1 = dest + BitVec.ofNat w index := by
  induction length generalizing memory dest src with
  | zero => cases member
  | succ length inductionHypothesis =>
    rcases List.mem_cons.mp member with rfl | later
    · exact ⟨0, by omega, by simp⟩
    · obtain ⟨index, bound, equal⟩ := inductionHypothesis later
      refine ⟨index + 1, by omega, ?_⟩
      rw [equal, BitVec.ofNat_add]
      change dest + 1 + BitVec.ofNat w index = dest + (BitVec.ofNat w index + 1)
      abel

theorem copyUpLog_length (memory : Memory w β) (dest src : BitVec w) (length : Nat) :
    (copyUpLog memory dest src length).length = length := by
  induction length generalizing memory dest src with
  | zero => rfl
  | succ length inductionHypothesis =>
    rw [copyUpLog, List.length_cons, inductionHypothesis]

theorem copyDownLog_length (memory : Memory w β) (dest src : BitVec w) (length : Nat) :
    (copyDownLog memory dest src length).length = length := by
  induction length generalizing memory dest src with
  | zero => rfl
  | succ length inductionHypothesis =>
    rw [copyDownLog, List.length_cons, inductionHypothesis]

theorem copyDownLog_address {memory : Memory w β} {dest src : BitVec w} {length : Nat}
    {store : BitVec w × β}
    (member : store ∈ copyDownLog memory (dest + BitVec.ofNat w length) src length) :
    ∃ index < length, store.1 = dest + BitVec.ofNat w index := by
  induction length generalizing memory src with
  | zero => cases member
  | succ length inductionHypothesis =>
    have oneBelow : dest + BitVec.ofNat w (length + 1) - 1 = dest + BitVec.ofNat w length := by
      rw [BitVec.ofNat_add]
      change dest + (BitVec.ofNat w length + 1) - 1 = _
      abel
    rw [copyDownLog, oneBelow] at member
    rcases List.mem_cons.mp member with rfl | later
    · exact ⟨length, by omega, rfl⟩
    · obtain ⟨index, bound, equal⟩ := inductionHypothesis later
      exact ⟨index, by omega, equal⟩

/-! ### Two memories

The log of a copy is decided by the cells it reads: over two memories that agree
on the source it is the same log, even where the destination overlaps it. -/

theorem copyUpLog_congr {first second : Memory w β} {dest src : BitVec w} {length : Nat}
    (agree : ∀ index < length,
      first (src + BitVec.ofNat w index) = second (src + BitVec.ofNat w index)) :
    copyUpLog first dest src length = copyUpLog second dest src length := by
  induction length generalizing first second dest src with
  | zero => rfl
  | succ length inductionHypothesis =>
    have here : first src = second src := by simpa using agree 0 (by omega)
    rw [copyUpLog, copyUpLog, here]
    congr 1
    apply inductionHypothesis
    intro index bound
    have shifted : src + 1 + BitVec.ofNat w index = src + BitVec.ofNat w (index + 1) := by
      rw [BitVec.ofNat_add]
      change src + 1 + BitVec.ofNat w index = src + (BitVec.ofNat w index + 1)
      abel
    rw [shifted]
    by_cases overwritten : src + BitVec.ofNat w (index + 1) = dest
    · rw [overwritten, Function.update_self, Function.update_self]
    · rw [Function.update_of_ne overwritten, Function.update_of_ne overwritten]
      exact agree (index + 1) (by omega)

theorem copyDownLog_congr {first second : Memory w β} {dest src : BitVec w} {length : Nat}
    (agree : ∀ index < length,
      first (src + BitVec.ofNat w index) = second (src + BitVec.ofNat w index)) :
    copyDownLog first dest (src + BitVec.ofNat w length) length =
      copyDownLog second dest (src + BitVec.ofNat w length) length := by
  induction length generalizing first second dest with
  | zero => rfl
  | succ length inductionHypothesis =>
    have oneBelow : src + BitVec.ofNat w (length + 1) - 1 = src + BitVec.ofNat w length := by
      rw [BitVec.ofNat_add]
      change src + (BitVec.ofNat w length + 1) - 1 = _
      abel
    have here := agree length (by omega)
    rw [copyDownLog, copyDownLog, oneBelow, here]
    congr 1
    apply inductionHypothesis
    intro index bound
    by_cases overwritten : src + BitVec.ofNat w index = dest - 1
    · rw [overwritten, Function.update_self, Function.update_self]
    · rw [Function.update_of_ne overwritten, Function.update_of_ne overwritten]
      exact agree index (by omega)

/-- Over memories with the same destination, the same log means the same source. -/
theorem eq_of_copyUpLog_eq {first second : Memory w β} {dest src : BitVec w} {length index : Nat}
    (fits : length ≤ 2 ^ w) (clear : length ≤ (dest - src).toNat)
    (same : copyUpLog first dest src length = copyUpLog second dest src length)
    (bound : index < length)
    (agree : first (dest + BitVec.ofNat w index) = second (dest + BitVec.ofNat w index)) :
    first (src + BitVec.ofNat w index) = second (src + BitVec.ofNat w index) := by
  have offset : dest + BitVec.ofNat w index - dest = BitVec.ofNat w index := by abel
  have small : (BitVec.ofNat w index).toNat = index := Nat.mod_eq_of_lt (by omega)
  have copied : ∀ memory : Memory w β,
      replay memory (copyUpLog memory dest src length) (dest + BitVec.ofNat w index) =
        memory (src + BitVec.ofNat w index) := by
    intro memory
    rw [replay_copyUpLog, copyUp_apply _ _ _ _ fits (Or.inr clear), offset, small, if_pos bound]
  rw [← copied first, ← copied second, same]
  exact replay_congr _ agree

/-! ## Little-endian words -/

theorem toNat_add_ofNat {address : BitVec w} {offset : Nat}
    (fits : address.toNat + offset < 2 ^ w) :
    (address + BitVec.ofNat w offset).toNat = address.toNat + offset := by
  rw [BitVec.toNat_add, BitVec.toNat_ofNat, Nat.add_mod_mod, Nat.mod_eq_of_lt fits]

/-- The `count` cells from `address` on lie in `cells`. -/
def Inside (cells : Set (BitVec w)) (address : BitVec w) (count : Nat) : Prop :=
  ∀ index < count, address + BitVec.ofNat w index ∈ cells

theorem inside_range {base address : BitVec w} {length count : Nat}
    (fits : base.toNat + length ≤ 2 ^ w) (lower : base.toNat ≤ address.toNat)
    (upper : address.toNat + count ≤ base.toNat + length) :
    Inside (range base length) address count := by
  intro index bound
  rw [mem_range, toNat_add_ofNat (by omega)]
  omega

/-- A field of a structure inside is inside. -/
theorem Inside.field {cells : Set (BitVec w)} {address : BitVec w} {size : Nat}
    (inside : Inside cells address size) {offset count : Nat} (bound : offset + count ≤ size) :
    Inside cells (address + BitVec.ofNat w offset) count := by
  intro index below
  rw [BitVec.add_assoc, ← BitVec.ofNat_add]
  exact inside (offset + index) (by omega)

section Words

variable (memory : Memory w (BitVec 8)) (address : BitVec w)

def word16 : BitVec 16 := memory (address + 1) ++ memory address

def word32 : BitVec 32 :=
  memory (address + 3) ++ memory (address + 2) ++ memory (address + 1) ++ memory address

def word64 : BitVec 64 := word32 memory (address + 4) ++ word32 memory address

end Words

theorem append_inj {m n : Nat} {high high' : BitVec m} {low low' : BitVec n}
    (same : high ++ low = high' ++ low') : high = high' ∧ low = low' := by
  constructor
  · rw [← BitVec.extractLsb'_append_eq_left (a := high) (b := low), same,
      BitVec.extractLsb'_append_eq_left]
  · rw [← BitVec.extractLsb'_append_eq_right (a := high) (b := low), same,
      BitVec.extractLsb'_append_eq_right]

section WordCells

variable {memory first second : Memory w (BitVec 8)} {cells : Set (BitVec w)} {address : BitVec w}

theorem word16_of_cells (bytes : Nat → BitVec 8)
    (holds : ∀ index < 2, memory (address + BitVec.ofNat w index) = bytes index) :
    word16 memory address = bytes 1 ++ bytes 0 := by
  have cell0 := holds 0 (by omega)
  have cell1 := holds 1 (by omega)
  rw [BitVec.add_zero] at cell0
  unfold word16
  rw [cell0]
  exact congrArg (· ++ _) cell1

theorem word32_of_cells (bytes : Nat → BitVec 8)
    (holds : ∀ index < 4, memory (address + BitVec.ofNat w index) = bytes index) :
    word32 memory address = bytes 3 ++ bytes 2 ++ bytes 1 ++ bytes 0 := by
  have cell0 := holds 0 (by omega)
  have cell1 := holds 1 (by omega)
  have cell2 := holds 2 (by omega)
  have cell3 := holds 3 (by omega)
  rw [BitVec.add_zero] at cell0
  unfold word32
  rw [cell0]
  exact congrArg (· ++ _) (congrArg₂ (· ++ ·) (congrArg₂ (· ++ ·) cell3 cell2) cell1)

theorem word16_congr (agree : Set.EqOn first second cells) (inside : Inside cells address 2) :
    word16 first address = word16 second address := by
  rw [word16_of_cells _ fun index bound => agree (inside index bound),
    word16_of_cells _ fun _ _ => rfl]

theorem word32_congr (agree : Set.EqOn first second cells) (inside : Inside cells address 4) :
    word32 first address = word32 second address := by
  rw [word32_of_cells _ fun index bound => agree (inside index bound),
    word32_of_cells _ fun _ _ => rfl]

theorem word32_cells (same : word32 first address = word32 second address) {index : Nat}
    (bound : index < 4) :
    first (address + BitVec.ofNat w index) = second (address + BitVec.ofNat w index) := by
  obtain ⟨high, cell0⟩ := append_inj same
  obtain ⟨high, cell1⟩ := append_inj high
  obtain ⟨cell3, cell2⟩ := append_inj high
  match index, bound with
  | 0, _ => rwa [BitVec.add_zero]
  | 1, _ => exact cell1
  | 2, _ => exact cell2
  | 3, _ => exact cell3

theorem word64_cells (same : word64 first address = word64 second address) {index : Nat}
    (bound : index < 8) :
    first (address + BitVec.ofNat w index) = second (address + BitVec.ofNat w index) := by
  obtain ⟨high, low⟩ := append_inj same
  by_cases inLow : index < 4
  · exact word32_cells low inLow
  · have behind : address + BitVec.ofNat w index = address + 4 + BitVec.ofNat w (index - 4) := by
      rw [BitVec.add_assoc]
      change _ = address + (BitVec.ofNat w 4 + BitVec.ofNat w (index - 4))
      rw [← BitVec.ofNat_add]
      congr 2
      omega
    rw [behind]
    exact word32_cells high (by omega)

end WordCells

/-! ## Serialised values -/

/-- The cells of `bytes` are in memory from `address` on. -/
def Holds (memory : Memory w β) (address : BitVec w) (bytes : List β) : Prop :=
  readBytes memory address bytes.length = bytes

theorem readBytes_append (memory : Memory w β) (base : BitVec w) (first second : Nat) :
    readBytes memory base (first + second) =
      readBytes memory base first ++ readBytes memory (base + BitVec.ofNat w first) second := by
  induction first generalizing base with
  | zero => simp [readBytes]
  | succ first inductionHypothesis =>
    have shifted : base + 1 + BitVec.ofNat w first = base + BitVec.ofNat w (first + 1) := by
      rw [BitVec.ofNat_add]
      change base + 1 + BitVec.ofNat w first = base + (BitVec.ofNat w first + 1)
      abel
    rw [Nat.add_right_comm, readBytes_succ, inductionHypothesis, readBytes_succ, shifted]
    rfl

theorem holds_append {memory : Memory w β} {address : BitVec w} {first second : List β} :
    Holds memory address (first ++ second) ↔
      Holds memory address first ∧ Holds memory (address + BitVec.ofNat w first.length) second := by
  unfold Holds
  rw [List.length_append, readBytes_append]
  constructor
  · intro same
    exact List.append_inj same (readBytes_length _ _ _)
  · rintro ⟨sameFirst, sameSecond⟩
    rw [sameFirst, sameSecond]

theorem Holds.cell {memory : Memory w β} {address : BitVec w} {bytes : List β}
    (holds : Holds memory address bytes) {index : Nat} {cell : β}
    (found : bytes[index]? = some cell) : memory (address + BitVec.ofNat w index) = cell := by
  have read := readBytes_getElem? memory address bytes.length index
  rw [holds, found] at read
  split at read
  · exact (Option.some.inj read).symm
  · cases read

/-- Records of one size lie in memory as an array does. -/
theorem Holds.record {ρ : Type} {encode : ρ → List β} {size : Nat}
    (sized : ∀ record, (encode record).length = size) {memory : Memory w β} {address : BitVec w}
    {records : List ρ} (holds : Holds memory address (records.flatMap encode)) {index : Nat}
    {record : ρ} (found : records[index]? = some record) :
    Holds memory (address + BitVec.ofNat w (size * index)) (encode record) := by
  induction records generalizing address index with
  | nil => cases found
  | cons first records inductionHypothesis =>
    rw [List.flatMap_cons, holds_append, sized] at holds
    cases index with
    | zero =>
      cases found
      simpa using holds.1
    | succ index =>
      have rest := inductionHypothesis holds.2 found
      rwa [BitVec.add_assoc, ← BitVec.ofNat_add, Nat.add_comm, ← Nat.mul_succ] at rest

/-- The memory with the given cells from `start` on. -/
def fileMemory (start : BitVec w) (bytes : List (BitVec 8)) : Memory w (BitVec 8) :=
  fun address => bytes.getD (address - start).toNat 0

theorem holds_fileMemory (start : BitVec w) {bytes : List (BitVec 8)} (fits : bytes.length ≤ 2 ^ w) :
    Holds (fileMemory start bytes) start bytes := by
  apply List.ext_getElem?
  intro index
  rw [readBytes_getElem?]
  by_cases bound : index < bytes.length
  · have offset : start + BitVec.ofNat w index - start = BitVec.ofNat w index := by abel
    rw [if_pos bound, fileMemory, offset, BitVec.toNat_ofNat, Nat.mod_eq_of_lt (by omega),
      List.getD_eq_getElem?_getD, List.getElem?_eq_getElem bound]
    rfl
  · rw [if_neg bound, List.getElem?_eq_none (by omega)]

/-- The low `count` bytes of a value, the lowest first. -/
def littleEndian (count value : Nat) : List (BitVec 8) :=
  (List.range count).map fun index => BitVec.ofNat 8 (value >>> (8 * index))

@[simp] theorem littleEndian_length (count value : Nat) :
    (littleEndian count value).length = count := by
  simp [littleEndian]

theorem littleEndian_add (low high value : Nat) :
    littleEndian (low + high) value =
      littleEndian low value ++ littleEndian high (value >>> (8 * low)) := by
  unfold littleEndian
  rw [List.range_add, List.map_append, List.map_map]
  congr 1
  apply List.map_congr_left
  intro index _
  rw [← Nat.shiftRight_add, ← Nat.mul_add]
  rfl

/-- A value is its high bits before its low ones. -/
theorem ofNat_shiftRight_append (m n value : Nat) :
    BitVec.ofNat m (value >>> n) ++ BitVec.ofNat n value = BitVec.ofNat (m + n) value := by
  apply BitVec.eq_of_getLsbD_eq
  intro index bound
  rw [BitVec.getLsbD_append, BitVec.getLsbD_ofNat, BitVec.getLsbD_ofNat, BitVec.getLsbD_ofNat]
  by_cases low : index < n
  · simp [low, bound]
  · rw [if_neg low, Nat.testBit_shiftRight, show n + (index - n) = index by omega]
    simp [bound, show index - n < m by omega]

section HeldWords

variable {memory : Memory w (BitVec 8)} {address : BitVec w} {value : Nat}

theorem Holds.littleEndian_cell {count index : Nat}
    (holds : Holds memory address (littleEndian count value)) (bound : index < count) :
    memory (address + BitVec.ofNat w index) = BitVec.ofNat 8 (value >>> (8 * index)) := by
  apply holds.cell
  rw [littleEndian, List.getElem?_map, List.getElem?_range bound]
  rfl

theorem word16_of_holds (holds : Holds memory address (littleEndian 2 value)) :
    word16 memory address = BitVec.ofNat 16 value := by
  rw [word16_of_cells _ fun index bound => holds.littleEndian_cell bound]
  exact ofNat_shiftRight_append 8 8 value

theorem word32_of_holds (holds : Holds memory address (littleEndian 4 value)) :
    word32 memory address = BitVec.ofNat 32 value := by
  have byte3 : value >>> 24 = value >>> 16 >>> 8 := Nat.shiftRight_add value 16 8
  have byte2 : value >>> 16 = value >>> 8 >>> 8 := Nat.shiftRight_add value 8 8
  have high : BitVec.ofNat 8 (value >>> 24) ++ BitVec.ofNat 8 (value >>> 16) =
      BitVec.ofNat 16 (value >>> 16) := by
    rw [byte3]
    exact ofNat_shiftRight_append 8 8 _
  have middle : BitVec.ofNat 16 (value >>> 16) ++ BitVec.ofNat 8 (value >>> 8) =
      BitVec.ofNat 24 (value >>> 8) := by
    rw [byte2]
    exact ofNat_shiftRight_append 16 8 _
  rw [word32_of_cells _ fun index bound => holds.littleEndian_cell bound]
  change BitVec.ofNat 8 (value >>> 24) ++ BitVec.ofNat 8 (value >>> 16) ++
    BitVec.ofNat 8 (value >>> 8) ++ BitVec.ofNat 8 value = BitVec.ofNat 32 value
  rw [high, middle]
  exact ofNat_shiftRight_append 24 8 value

end HeldWords

end ByteMemory
