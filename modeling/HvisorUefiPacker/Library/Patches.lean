import HvisorUefiPacker.Library.ByteMemory

/-! # Words written into memory

* `setWord64` writes a word to the eight cells of a `block`.
* A patch is an address and the word for it; `patchAll` writes a list of them,
  of which the last one to touch a cell decides.
* `window base` is memory as seen from an address: what is loaded somewhere,
  with the addresses it would have at 0.

All of it wraps around at the top of memory, as the addresses do.
-/

namespace ByteMemory

variable {w : Nat} {memory first second : Memory w (BitVec 8)} {address : BitVec w}
  {value : BitVec 64}

/-! ## Blocks of cells -/

/-- The `length` cells from `address` on. -/
def block (address : BitVec w) (length : Nat) : Set (BitVec w) :=
  { cell | (cell - address).toNat < length }

theorem mem_block {cell : BitVec w} {length : Nat} :
    cell ∈ block address length ↔ (cell - address).toNat < length := Iff.rfl

instance (cell : BitVec w) (length : Nat) : Decidable (cell ∈ block address length) :=
  inferInstanceAs (Decidable ((cell - address).toNat < length))

/-- From the start of either block, the other one begins behind its end. -/
theorem disjoint_block {other : BitVec w} {length otherLength : Nat}
    (behind : length ≤ (other - address).toNat)
    (before : otherLength ≤ (address - other).toNat) :
    Disjoint (block address length) (block other otherLength) := by
  rw [Set.disjoint_left]
  intro cell inFirst inSecond
  rw [mem_block] at inFirst inSecond
  have fromOther : cell - other = (cell - address) - (other - address) := by abel
  have back : address - other = -(other - address) := by abel
  rw [fromOther, BitVec.toNat_sub] at inSecond
  rw [back, BitVec.toNat_neg] at before
  have bound := (other - address).isLt
  rw [Nat.mod_eq_of_lt (by omega)] at inSecond before
  omega

theorem inside_block (address : BitVec w) (length : Nat) :
    Inside (block address length) address length := by
  intro index bound
  have offset : address + BitVec.ofNat w index - address = BitVec.ofNat w index := by abel
  rw [mem_block, offset, BitVec.toNat_ofNat]
  exact Nat.lt_of_le_of_lt (Nat.mod_le _ _) bound

/-! ## Words of eight cells -/

theorem word64_congr {cells : Set (BitVec w)} (agree : Set.EqOn first second cells)
    (inside : Inside cells address 8) : word64 first address = word64 second address := by
  have low : Inside cells address 4 := fun index bound => inside index (by omega)
  have high : Inside cells (address + 4) 4 := fun index bound => by
    have cell := inside (4 + index) (by omega)
    rwa [BitVec.ofNat_add, ← BitVec.add_assoc] at cell
  rw [word64, word64, word32_congr agree low, word32_congr agree high]

theorem word64_of_holds {number : Nat} (holds : Holds memory address (littleEndian 8 number)) :
    word64 memory address = BitVec.ofNat 64 number := by
  rw [littleEndian_add 4 4, holds_append, littleEndian_length] at holds
  have low : word32 memory address = BitVec.ofNat 32 number := word32_of_holds holds.1
  have high : word32 memory (address + 4) = BitVec.ofNat 32 (number >>> 32) :=
    word32_of_holds holds.2
  rw [word64, low, high]
  exact ofNat_shiftRight_append 32 32 number

def setWord64 (memory : Memory w (BitVec 8)) (address : BitVec w) (value : BitVec 64) :
    Memory w (BitVec 8) :=
  writeBytes memory address (littleEndian 8 value.toNat)

theorem setWord64_apply (wide : 8 ≤ 2 ^ w) (memory : Memory w (BitVec 8)) (address : BitVec w)
    (value : BitVec 64) (cell : BitVec w) :
    setWord64 memory address value cell =
      if cell ∈ block address 8 then BitVec.ofNat 8 (value.toNat >>> (8 * (cell - address).toNat))
      else memory cell := by
  rw [setWord64, writeBytes_apply _ _ _ (by simpa using wide), littleEndian, List.getElem?_map]
  by_cases inside : cell ∈ block address 8
  · rw [if_pos inside, List.getElem?_range (mem_block.mp inside)]
    rfl
  · rw [if_neg inside, List.getElem?_eq_none]
    · rfl
    · rw [List.length_range]
      exact Nat.le_of_not_lt inside

theorem setWord64_outside (wide : 8 ≤ 2 ^ w) {cell : BitVec w} (outside : cell ∉ block address 8) :
    setWord64 memory address value cell = memory cell := by
  rw [setWord64_apply wide, if_neg outside]

theorem word64_setWord64 (wide : 8 ≤ 2 ^ w) :
    word64 (setWord64 memory address value) address = value := by
  have holds : Holds (setWord64 memory address value) address (littleEndian 8 value.toNat) :=
    readBytes_writeBytes _ _ _ (by simpa using wide)
  rw [word64_of_holds holds, BitVec.ofNat_toNat, BitVec.setWidth_eq]

theorem word64_setWord64_of_apart (wide : 8 ≤ 2 ^ w) {other : BitVec w}
    (apart : Disjoint (block address 8) (block other 8)) :
    word64 (setWord64 memory address value) other = word64 memory other := by
  apply word64_congr _ (inside_block other 8)
  intro cell inside
  exact setWord64_outside wide fun both => Set.disjoint_left.mp apart both inside

/-- A word that is written where it already stands. -/
theorem setWord64_word64 (wide : 8 ≤ 2 ^ w) (memory : Memory w (BitVec 8)) (address : BitVec w) :
    setWord64 memory address (word64 memory address) = memory := by
  funext cell
  by_cases inside : cell ∈ block address 8
  · have same : word64 (setWord64 memory address (word64 memory address)) address =
        word64 memory address := word64_setWord64 wide
    have cells := word64_cells same (mem_block.mp inside)
    rwa [BitVec.ofNat_toNat, BitVec.setWidth_eq, add_sub_cancel] at cells
  · exact setWord64_outside wide inside

/-! ## Patches -/

/-- A word, and where it goes. -/
structure Patch (w : Nat) where
  address : BitVec w
  value : BitVec 64
deriving DecidableEq

def Patch.cells (patch : Patch w) : Set (BitVec w) := block patch.address 8

def patchAll (memory : Memory w (BitVec 8)) (patches : List (Patch w)) : Memory w (BitVec 8) :=
  patches.foldl (fun memory patch => setWord64 memory patch.address patch.value) memory

@[simp] theorem patchAll_nil (memory : Memory w (BitVec 8)) : patchAll memory [] = memory := by
  rw [patchAll, List.foldl_nil]

@[simp] theorem patchAll_cons (memory : Memory w (BitVec 8)) (patch : Patch w) (rest : List (Patch w)) :
    patchAll memory (patch :: rest) =
      patchAll (setWord64 memory patch.address patch.value) rest := by
  rw [patchAll, patchAll, List.foldl_cons]

/-- No two of the patches touch one cell. -/
def Apart (patches : List (Patch w)) : Prop :=
  patches.Pairwise fun one other => Disjoint one.cells other.cells

section Patches

variable {patches : List (Patch w)}

theorem patchAll_outside (wide : 8 ≤ 2 ^ w) {cell : BitVec w}
    (outside : ∀ patch ∈ patches, cell ∉ patch.cells) :
    patchAll memory patches cell = memory cell := by
  induction patches generalizing memory with
  | nil => rfl
  | cons patch rest inductionHypothesis =>
    rw [patchAll_cons,
      inductionHypothesis fun other member => outside other (List.mem_cons_of_mem _ member)]
    exact setWord64_outside wide (outside patch List.mem_cons_self)

/-- A cell either keeps its byte, or gets one that does not depend on memory. -/
theorem patchAll_cell (wide : 8 ≤ 2 ^ w) (patches : List (Patch w)) (cell : BitVec w) :
    (∀ memory, patchAll memory patches cell = memory cell) ∨
      ∃ byte, ∀ memory, patchAll memory patches cell = byte := by
  induction patches with
  | nil => exact .inl fun _ => rfl
  | cons patch rest inductionHypothesis =>
    rcases inductionHypothesis with kept | ⟨byte, written⟩
    · by_cases inside : cell ∈ patch.cells
      · refine .inr ⟨BitVec.ofNat 8 (patch.value.toNat >>> (8 * (cell - patch.address).toNat)),
          fun memory => ?_⟩
        rw [patchAll_cons, kept, setWord64_apply wide]
        exact if_pos inside
      · refine .inl fun memory => ?_
        rw [patchAll_cons, kept, setWord64_outside wide inside]
    · exact .inr ⟨byte, fun memory => by rw [patchAll_cons, written]⟩

theorem patchAll_congr (wide : 8 ≤ 2 ^ w) {cell : BitVec w} (same : first cell = second cell) :
    patchAll first patches cell = patchAll second patches cell := by
  rcases patchAll_cell wide patches cell with kept | ⟨byte, written⟩
  · rw [kept, kept, same]
  · rw [written, written]

theorem word64_patchAll_of_apart (wide : 8 ≤ 2 ^ w) {address : BitVec w}
    (apart : ∀ patch ∈ patches, Disjoint patch.cells (block address 8)) :
    word64 (patchAll memory patches) address = word64 memory address := by
  apply word64_congr _ (inside_block address 8)
  intro cell inside
  exact patchAll_outside wide fun patch member touched =>
    Set.disjoint_left.mp (apart patch member) touched inside

theorem word64_patchAll (wide : 8 ≤ 2 ^ w) (apart : Apart patches) {patch : Patch w}
    (member : patch ∈ patches) :
    word64 (patchAll memory patches) patch.address = patch.value := by
  induction patches generalizing memory with
  | nil => cases member
  | cons first rest inductionHypothesis =>
    obtain ⟨fromRest, apartRest⟩ := List.pairwise_cons.mp apart
    rw [patchAll_cons]
    rcases List.mem_cons.mp member with same | inRest
    · subst same
      rw [word64_patchAll_of_apart wide fun other isOther => (fromRest other isOther).symm]
      exact word64_setWord64 wide
    · exact inductionHypothesis apartRest inRest

end Patches

/-! ### Words changed in place -/

/-- Each word at one of the addresses is replaced by its value under `change`. -/
def changeWords (change : BitVec 64 → BitVec 64) (memory : Memory w (BitVec 8))
    (addresses : List (BitVec w)) : Memory w (BitVec 8) :=
  addresses.foldl
    (fun memory address => setWord64 memory address (change (word64 memory address))) memory

/-- Where the words do not overlap, the order in which they change does not matter: each
    changes as it was found. -/
theorem changeWords_eq_patchAll (wide : 8 ≤ 2 ^ w) (change : BitVec 64 → BitVec 64)
    {addresses : List (BitVec w)}
    (apart : addresses.Pairwise fun one other => Disjoint (block one 8) (block other 8)) :
    changeWords change memory addresses =
      patchAll memory
        (addresses.map fun address => ⟨address, change (word64 memory address)⟩) := by
  induction addresses generalizing memory with
  | nil => rfl
  | cons first rest inductionHypothesis =>
    obtain ⟨fromRest, apartRest⟩ := List.pairwise_cons.mp apart
    have others : rest.map (fun address => (⟨address, change (word64
          (setWord64 memory first (change (word64 memory first))) address)⟩ : Patch w)) =
        rest.map fun address => ⟨address, change (word64 memory address)⟩ := by
      apply List.map_congr_left
      intro address member
      rw [word64_setWord64_of_apart wide (fromRest address member)]
    rw [List.map_cons, patchAll_cons, ← others]
    exact inductionHypothesis apartRest

/-! ## Windows -/

/-- Memory from `base` on. -/
def window (base : BitVec w) (memory : Memory w (BitVec 8)) : Memory w (BitVec 8) :=
  fun offset => memory (base + offset)

theorem word64_window (base offset : BitVec w) (memory : Memory w (BitVec 8)) :
    word64 (window base memory) offset = word64 memory (base + offset) := by
  simp only [word64, word32, window, BitVec.add_assoc]

theorem window_setWord64 (wide : 8 ≤ 2 ^ w) (base offset : BitVec w)
    (memory : Memory w (BitVec 8)) (value : BitVec 64) :
    window base (setWord64 memory (base + offset) value) =
      setWord64 (window base memory) offset value := by
  funext cell
  have shifted : base + cell - (base + offset) = cell - offset := by abel
  rw [window, setWord64_apply wide, setWord64_apply wide]
  simp only [mem_block, shifted, window]

theorem window_patchAll (wide : 8 ≤ 2 ^ w) (base : BitVec w) (memory : Memory w (BitVec 8))
    (patches : List (Patch w)) :
    window base (patchAll memory (patches.map fun patch => ⟨base + patch.address, patch.value⟩)) =
      patchAll (window base memory) patches := by
  induction patches generalizing memory with
  | nil => rfl
  | cons patch rest inductionHypothesis =>
    rw [List.map_cons, patchAll_cons, inductionHypothesis, window_setWord64 wide]
    rfl

end ByteMemory
