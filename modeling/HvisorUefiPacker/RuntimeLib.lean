import HvisorUefiPacker.Machine

/-! # The runtime library of gnu-efi

What the packer uses of `efirtlib.c`: `RtCopyMem`, which copies in the direction
that suits the overlap, `RtCompareMem` and `RtCompareGuid`.
-/

namespace HvisorUefiPacker

open Interaction ByteMemory

/-! ## RtCopyMem -/

/-- `while (len--) *d++ = *s++;` -/
def copyForward : Nat → UINTN → UINTN → Packer Unit
  | 0, _, _ => pure ()
  | len + 1, d, s => do
    let byte ← load s
    store d byte
    copyForward len (d + 1) (s + 1)

/-- `while (len--) *--d = *--s;` -/
def copyBackward : Nat → UINTN → UINTN → Packer Unit
  | 0, _, _ => pure ()
  | len + 1, d, s => do
    let byte ← load (s - 1)
    store (d - 1) byte
    copyBackward len (d - 1) (s - 1)

def rtCopyMem (dest src len : UINTN) : Packer Unit :=
  if dest = 0 ∨ src = 0 ∨ src = dest then
    pure ()
  else if src < dest ∧ dest < src + len then
    copyBackward len.toNat (dest + len) (src + len)
  else
    copyForward len.toNat dest src

/-- `CopyMem` of `misc.c`. -/
def copyMem (dest src len : UINTN) : Packer Unit := rtCopyMem dest src len

/-- The stores `rtCopyMem` makes. -/
def copyLog (memory : Mem) (dest src len : UINTN) : List (UINTN × Byte) :=
  if dest = 0 ∨ src = 0 ∨ src = dest then
    []
  else if src < dest ∧ dest < src + len then
    copyDownLog memory (dest + len) (src + len) len.toNat
  else
    copyUpLog memory dest src len.toNat

variable {σ : Type} {firmware : Firmware σ}

@[simp] theorem wp_copyForward (len : Nat) (d s : UINTN) (post : Unit → World σ → Prop)
    (world : World σ) :
    wp (machine firmware) (copyForward len d s) post world ↔
      post () (world.storeAll (copyUpLog world.memory d s len)) := by
  induction len generalizing world d s with
  | zero => simp [copyForward, copyUpLog]
  | succ len inductionHypothesis =>
    simp only [copyForward, wp_bind, wp_load, wp_store, inductionHypothesis, copyUpLog,
      World.store_storeAll, World.store_memory]

@[simp] theorem wp_copyBackward (len : Nat) (d s : UINTN) (post : Unit → World σ → Prop)
    (world : World σ) :
    wp (machine firmware) (copyBackward len d s) post world ↔
      post () (world.storeAll (copyDownLog world.memory d s len)) := by
  induction len generalizing world d s with
  | zero => simp [copyBackward, copyDownLog]
  | succ len inductionHypothesis =>
    simp only [copyBackward, wp_bind, wp_load, wp_store, inductionHypothesis, copyDownLog,
      World.store_storeAll, World.store_memory]

@[simp] theorem wp_copyMem (dest src len : UINTN) (post : Unit → World σ → Prop)
    (world : World σ) :
    wp (machine firmware) (copyMem dest src len) post world ↔
      post () (world.storeAll (copyLog world.memory dest src len)) := by
  unfold copyMem rtCopyMem copyLog
  split
  · simp
  · split
    · exact wp_copyBackward _ _ _ _ _
    · exact wp_copyForward _ _ _ _ _

/-- What makes `RtCopyMem` store nothing. -/
theorem copyLog_eq_nil {memory : Mem} {dest src len : UINTN} :
    copyLog memory dest src len = [] ↔ len = 0 ∨ dest = 0 ∨ src = 0 ∨ src = dest := by
  have empty : len.toNat = 0 ↔ len = 0 := by
    rw [← BitVec.toNat_inj]
    rfl
  unfold copyLog
  split
  · next trivially => exact iff_of_true rfl (Or.inr trivially)
  · next valid =>
    rw [or_iff_left valid, ← empty]
    split
    · rw [← List.length_eq_zero_iff, copyDownLog_length]
    · rw [← List.length_eq_zero_iff, copyUpLog_length]

theorem copyLog_zero (memory : Mem) (dest src : UINTN) : copyLog memory dest src 0 = [] :=
  copyLog_eq_nil.mpr (Or.inl rfl)

/-- One byte is the same store in both directions. -/
theorem copyLog_one {memory : Mem} {dest src : UINTN} (destValid : dest ≠ 0) (srcValid : src ≠ 0)
    (distinct : src ≠ dest) : copyLog memory dest src 1 = [(dest, memory src)] := by
  have valid : ¬ (dest = 0 ∨ src = 0 ∨ src = dest) :=
    not_or.mpr ⟨destValid, not_or.mpr ⟨srcValid, distinct⟩⟩
  rw [copyLog, if_neg valid]
  split
  · change [(dest + 1 - 1, memory (src + 1 - 1))] = _
    rw [add_sub_cancel_right, add_sub_cancel_right]
  · rfl

theorem copyLog_up {memory : Mem} {dest src len : UINTN} (destValid : dest ≠ 0)
    (above : dest < src) : copyLog memory dest src len = copyUpLog memory dest src len.toNat := by
  have valid : ¬ (dest = 0 ∨ src = 0 ∨ src = dest) := by
    rintro (null | null | same)
    · exact destValid null
    · rw [null] at above
      exact BitVec.not_lt_zero above
    · rw [same] at above
      exact BitVec.lt_irrefl _ above
  rw [copyLog, if_neg valid, if_neg fun overlap => BitVec.lt_asymm above overlap.1]

/-- Whatever the arguments, only `len` cells from `dest` on are stored to. -/
theorem copyLog_address {memory : Mem} {dest src len : UINTN} {store : UINTN × Byte}
    (member : store ∈ copyLog memory dest src len) :
    ∃ index < len.toNat, store.1 = dest + BitVec.ofNat 64 index := by
  unfold copyLog at member
  split at member
  · cases member
  · split at member
    · apply copyDownLog_address
      rwa [BitVec.ofNat_toNat, BitVec.setWidth_eq]
    · exact copyUpLog_address member

theorem replay_copyLog_outside {memory : Mem} {dest src len address : UINTN}
    (outside : len.toNat ≤ (address - dest).toNat) :
    replay memory (copyLog memory dest src len) address = memory address := by
  apply replay_outside
  intro store member equal
  obtain ⟨index, bound, place⟩ := copyLog_address member
  rw [← equal, place] at outside
  have lenBound := len.isLt
  bv_omega

/-- `RtCopyMem` is a move: with both pointers valid and neither range wrapping,
    the destination gets the original bytes of the source, however they overlap. -/
theorem replay_copyLog {memory : Mem} {dest src len : UINTN} (destValid : dest ≠ 0)
    (srcValid : src ≠ 0) (destFits : dest.toNat + len.toNat ≤ 2 ^ 64)
    (srcFits : src.toNat + len.toNat ≤ 2 ^ 64) :
    replay memory (copyLog memory dest src len) =
      writeBytes memory dest (readBytes memory src len.toNat) := by
  have lenFits : len.toNat ≤ 2 ^ 64 := by omega
  unfold copyLog
  split
  · next trivially =>
    obtain rfl : src = dest := by
      rcases trivially with zero | zero | same
      · exact absurd zero destValid
      · exact absurd zero srcValid
      · exact same
    funext address
    rw [writeBytes_readBytes_apply _ _ _ _ _ lenFits]
    simp [replay]
  · split
    · next overlaps =>
      rw [replay_copyDownLog, ← copyDown_eq_writeBytes lenFits, BitVec.ofNat_toNat,
        BitVec.setWidth_eq]
      bv_omega
    · next apart =>
      rw [replay_copyUpLog, ← copyUp_eq_writeBytes lenFits]
      bv_omega

/-- The log depends on memory only through the source bytes. -/
theorem copyLog_congr {first second : Mem} {dest src len : UINTN}
    (agree : ∀ index < len.toNat,
      first (src + BitVec.ofNat 64 index) = second (src + BitVec.ofNat 64 index)) :
    copyLog first dest src len = copyLog second dest src len := by
  unfold copyLog
  split
  · rfl
  · split
    · have whole : src + len = src + BitVec.ofNat 64 len.toNat := by
        rw [BitVec.ofNat_toNat, BitVec.setWidth_eq]
      rw [whole]
      exact copyDownLog_congr agree
    · exact copyUpLog_congr agree

/-! ## RtCompareMem -/

/-- `RtCompareMem` against the bytes of a string literal. -/
def rtCompareMem : UINTN → List Byte → Packer Int
  | _, [] => pure 0
  | d, s :: rest => do
    let byte ← load d
    if byte ≠ s then
      pure ((byte.toNat : Int) - s.toNat)
    else
      rtCompareMem (d + 1) rest

/-- `CompareMem` of `misc.c`. -/
def compareMem (dest : UINTN) (literal : List Byte) : Packer Int := rtCompareMem dest literal

/-- What `RtCompareMem` returns. -/
def memOrder (memory : Mem) : UINTN → List Byte → Int
  | _, [] => 0
  | d, s :: rest =>
    if memory d ≠ s then (memory d).toNat - s.toNat else memOrder memory (d + 1) rest

@[simp] theorem wp_compareMem (dest : UINTN) (literal : List Byte) (post : Int → World σ → Prop)
    (world : World σ) :
    wp (machine firmware) (compareMem dest literal) post world ↔
      post (memOrder world.memory dest literal) world := by
  unfold compareMem
  induction literal generalizing dest with
  | nil => rfl
  | cons s rest inductionHypothesis =>
    rw [rtCompareMem, wp_bind, wp_load, memOrder]
    split
    · rfl
    · exact inductionHypothesis (dest + 1)

theorem memOrder_eq_zero {memory : Mem} {dest : UINTN} {literal : List Byte} :
    memOrder memory dest literal = 0 ↔ readBytes memory dest literal.length = literal := by
  induction literal generalizing dest with
  | nil => simp [memOrder, readBytes]
  | cons s rest inductionHypothesis =>
    rw [memOrder, List.length_cons, readBytes_succ, List.cons.injEq]
    by_cases differ : memory dest ≠ s
    · have apart : (memory dest).toNat ≠ s.toNat := fun same => differ (BitVec.eq_of_toNat_eq same)
      rw [if_pos differ]
      constructor
      · intro zero
        omega
      · rintro ⟨same, _⟩
        exact absurd same differ
    · rw [if_neg differ, inductionHypothesis]
      exact (and_iff_right (not_not.mp differ)).symm

/-- It reads no further than the literal is long. -/
theorem compareMem_issues {allowed : Op → Prop} {dest : UINTN} {literal : List Byte}
    (loads : ∀ index < literal.length, allowed (.load (dest + BitVec.ofNat 64 index))) :
    Issues allowed (compareMem dest literal) := by
  unfold compareMem
  induction literal generalizing dest with
  | nil => trivial
  | cons s rest inductionHypothesis =>
    have first := loads 0 (by simp)
    rw [BitVec.add_zero] at first
    refine issues_bind (issues_load.mpr first) fun byte => ?_
    split
    · trivial
    · apply inductionHypothesis
      intro index bound
      have next := loads (index + 1) (by simpa using bound)
      rwa [Nat.add_comm, BitVec.ofNat_add, ← BitVec.add_assoc] at next

/-! ## RtCompareGuid -/

/-- `(INT32 *) Guid`: the sixteen bytes as four little-endian words. -/
def EfiGuid.words (guid : EfiGuid) : UINT32 × UINT32 × UINT32 × UINT32 :=
  (guid.data1, guid.data3 ++ guid.data2,
    guid.data4[3] ++ guid.data4[2] ++ guid.data4[1] ++ guid.data4[0],
    guid.data4[7] ++ guid.data4[6] ++ guid.data4[5] ++ guid.data4[4])

def rtCompareGuid (guid1 guid2 : EfiGuid) : UINTN :=
  let g1 := guid1.words
  let g2 := guid2.words
  let r : UINT32 := g1.1 - g2.1
  let r := r ||| (g1.2.1 - g2.2.1)
  let r := r ||| (g1.2.2.1 - g2.2.2.1)
  let r := r ||| (g1.2.2.2 - g2.2.2.2)
  r.signExtend 64

/-- `CompareGuid` of `guid.c`. -/
def compareGuid (guid1 guid2 : EfiGuid) : UINTN := rtCompareGuid guid1 guid2

/-- The four words hold the whole GUID. -/
theorem EfiGuid.words_injective {guid1 guid2 : EfiGuid} (same : guid1.words = guid2.words) :
    guid1 = guid2 := by
  obtain ⟨first, second, third, fourth⟩ := guid1
  obtain ⟨first', second', third', fourth'⟩ := guid2
  simp only [words, Prod.mk.injEq] at same
  obtain ⟨data1, data23, low, high⟩ := same
  obtain ⟨data3, data2⟩ := append_inj data23
  obtain ⟨low, byte0⟩ := append_inj low
  obtain ⟨low, byte1⟩ := append_inj low
  obtain ⟨byte3, byte2⟩ := append_inj low
  obtain ⟨high, byte4⟩ := append_inj high
  obtain ⟨high, byte5⟩ := append_inj high
  obtain ⟨byte7, byte6⟩ := append_inj high
  have data4 : fourth = fourth' := by
    apply Vector.ext
    intro i bound
    match i, bound with
    | 0, _ => exact byte0
    | 1, _ => exact byte1
    | 2, _ => exact byte2
    | 3, _ => exact byte3
    | 4, _ => exact byte4
    | 5, _ => exact byte5
    | 6, _ => exact byte6
    | 7, _ => exact byte7
  rw [data1, data2, data3, data4]

theorem signExtend_eq_zero {value : UINT32} : value.signExtend 64 = (0 : UINTN) ↔ value = 0 := by
  constructor
  · intro zero
    have extended := congrArg BitVec.toInt zero
    rw [BitVec.toInt_signExtend_of_le (by omega)] at extended
    exact BitVec.eq_of_toInt_eq extended
  · rintro rfl
    decide

/-- `RtCompareGuid` finds exactly the equal GUIDs equal.  The differences are or-ed, so
    each of them has to be 0. -/
theorem compareGuid_eq_zero {guid1 guid2 : EfiGuid} :
    compareGuid guid1 guid2 = 0 ↔ guid1 = guid2 := by
  constructor
  · intro zero
    have combined := signExtend_eq_zero.mp zero
    obtain ⟨first3, fourth⟩ := BitVec.or_eq_zero_iff.mp combined
    obtain ⟨first2, third⟩ := BitVec.or_eq_zero_iff.mp first3
    obtain ⟨first, second⟩ := BitVec.or_eq_zero_iff.mp first2
    apply EfiGuid.words_injective
    exact Prod.ext (sub_eq_zero.mp first) (Prod.ext (sub_eq_zero.mp second)
      (Prod.ext (sub_eq_zero.mp third) (sub_eq_zero.mp fourth)))
  · rintro rfl
    apply signExtend_eq_zero.mpr
    simp

end HvisorUefiPacker
