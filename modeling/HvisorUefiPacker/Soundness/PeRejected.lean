import HvisorUefiPacker.Soundness.PeImage

/-! # What a rejected image leaves behind

`load_section` checks a section and copies it in the same round, so a section that
fails its check is refused only after the sections before it have been written.

* `RefusedFirst` is an image that is refused before anything is written.
* `parsePe_rejects_cleanly_iff`: among the images that `parse_pe` rejects, exactly
  those leave memory as it was.
-/

namespace HvisorUefiPacker

open Interaction ByteMemory

variable {memory : Mem} {ntHeader table start load size : UINTN}

/-- `CopyMem` has nothing to do for the section. -/
def SectionHeader.Idle (header : SectionHeader) (start load : UINTN) : Prop :=
  header.sizeOfRawData = 0 ∨ (header.move start load).dest = 0 ∨
    (header.move start load).src = 0 ∨ (header.move start load).src = (header.move start load).dest

instance (header : SectionHeader) (start load : UINTN) : Decidable (header.Idle start load) :=
  inferInstanceAs (Decidable (_ ∨ _ ∨ _ ∨ _))

/-- From section `i` on, some section fails its check, and `CopyMem` has nothing to do
    for the sections that pass before it. -/
def RefusedFrom (memory : Mem) (ntHeader table start load size : UINTN) (i : Nat) : Prop :=
  ∃ k, i ≤ k ∧ k < numberOfSectionsAt memory ntHeader ∧
    ¬ (sectionHeader memory (sectionHeaderAt table k)).Accepted start size ∧
    ∀ j, i ≤ j → j < k →
      (sectionHeader memory (sectionHeaderAt table j)).Accepted start size ∧
        (sectionHeader memory (sectionHeaderAt table j)).Idle start load

/-- The image is refused before anything is written: for a signature, or for a section
    with nothing to copy before it. -/
def RefusedFirst (start load size : UINTN) (memory : Mem) : Prop :=
  word16 memory start ≠ imageDosSignature ∨
    word32 memory (ntHeaderOf memory start) ≠ imageNtSignature ∨
    RefusedFrom memory (ntHeaderOf memory start) (sectionTableOf memory start) start load size 0

theorem SectionHeader.log_eq_nil {header : SectionHeader} :
    header.log start load memory = [] ↔ header.Idle start load := by
  have empty : (header.sizeOfRawData.setWidth 64 : UINTN) = 0 ↔ header.sizeOfRawData = 0 := by
    rw [← BitVec.toNat_inj, ← BitVec.toNat_inj, toNat_widen (by omega)]
    rfl
  rw [SectionHeader.log, copyLog_eq_nil, empty, SectionHeader.Idle]

/-- The section loop ends at a refused section and has stored nothing.  An idle section
    leaves the memory that the later rounds read their headers from. -/
theorem sectionsRunFuel_unwritten (fuel i : Nat)
    (enough : numberOfSectionsAt memory ntHeader ≤ fuel + i) :
    ((sectionsRunFuel ntHeader table start load size fuel i memory).1 = false ∧
        (sectionsRunFuel ntHeader table start load size fuel i memory).2 = []) ↔
      RefusedFrom memory ntHeader table start load size i := by
  induction fuel generalizing i with
  | zero =>
    constructor
    · rintro ⟨ended, _⟩
      cases ended
    · rintro ⟨k, ahead, bound, _⟩
      omega
  | succ fuel inductionHypothesis =>
    have later := inductionHypothesis (i + 1) (by omega)
    rw [sectionsRunFuel]
    by_cases more : i < numberOfSectionsAt memory ntHeader
    · by_cases accepted : (sectionHeader memory (sectionHeaderAt table i)).Accepted start size
      · simp only [if_pos more, if_pos accepted, List.append_eq_nil_iff, SectionHeader.log_eq_nil]
        constructor
        · rintro ⟨ended, idle, nothing⟩
          rw [SectionHeader.log_eq_nil.mpr idle] at ended nothing
          obtain ⟨k, ahead, bound, refused, before⟩ := later.mp ⟨ended, nothing⟩
          refine ⟨k, by omega, bound, refused, fun j lower below => ?_⟩
          by_cases here : j = i
          · rw [here]
            exact ⟨accepted, idle⟩
          · exact before j (by omega) below
        · rintro ⟨k, ahead, bound, refused, before⟩
          have beyond : i ≠ k := by
            rintro rfl
            exact refused accepted
          obtain ⟨_, idle⟩ := before i (le_refl i) (by omega)
          rw [SectionHeader.log_eq_nil.mpr idle]
          obtain ⟨ended, nothing⟩ := later.mpr ⟨k, by omega, bound, refused,
            fun j lower below => before j (by omega) below⟩
          exact ⟨ended, idle, nothing⟩
      · dsimp only
        rw [if_pos more, if_neg accepted]
        exact iff_of_true ⟨rfl, rfl⟩ ⟨i, le_refl i, more, accepted, fun j _ below => by omega⟩
    · simp only [if_neg more]
      constructor
      · rintro ⟨ended, _⟩
        cases ended
      · rintro ⟨k, ahead, bound, _⟩
        omega

theorem parsePeRun_unwritten :
    (¬ PePasses start load size memory ∧ (parsePeRun start load size memory).2 = []) ↔
      RefusedFirst start load size memory := by
  have sections : _ ↔ RefusedFrom memory (ntHeaderOf memory start) (sectionTableOf memory start)
      start load size 0 :=
    sectionsRunFuel_unwritten 65536 0 (by have := peSectionCount_lt memory start; exact this.le)
  unfold PePasses parsePeRun RefusedFirst
  by_cases magic : word16 memory start = imageDosSignature
  · by_cases signed : word32 memory (ntHeaderOf memory start) = imageNtSignature
    · rw [if_pos ⟨magic, signed⟩, and_iff_right magic, and_iff_right signed, Bool.not_eq_true,
        or_iff_right (not_not.mpr magic), or_iff_right (not_not.mpr signed)]
      exact sections
    · rw [if_neg fun both => signed both.2]
      exact iff_of_true ⟨fun passes => signed passes.2.1, rfl⟩ (Or.inr (Or.inl signed))
  · rw [if_neg fun both => magic both.1]
    exact iff_of_true ⟨fun passes => magic passes.1, rfl⟩ (Or.inl magic)

theorem parsePeRun_refused (refused : ¬ PePasses start load size memory) :
    (parsePeRun start load size memory).1 = 0 := by
  unfold parsePeRun
  by_cases signatures : word16 memory start = imageDosSignature ∧
      word32 memory (ntHeaderOf memory start) = imageNtSignature
  · rw [if_pos signatures]
    exact if_neg fun ended => refused ⟨signatures.1, signatures.2, ended⟩
  · rw [if_neg signatures]

/-! ## The result -/

variable {σ : Type} {firmware : Firmware σ}

/-- `parse_pe` returned 0 and has reported a validation that failed. -/
def PeRejected (value : UINTN) (trace : List Event) : Prop :=
  value = 0 ∧ peComplained trace = true

/-- A rejection is a validation that fails: an entry point that happens to be 0 is none. -/
theorem wp_parsePe_rejects (keeps : PrintKeepsMemory firmware) (state : σ)
    (start load size : UINTN) (memory : Mem) :
    wp (machine firmware) (parsePe start load size)
      (fun value after =>
        (PeRejected value after.trace ↔ ¬ PePasses start load size memory) ∧
          after.memory = replay memory (parsePeRun start load size memory).2 ∧
          after.stores = (parsePeRun start load size memory).2)
      (World.initial memory state) := by
  apply wp_mono (wp_parsePe_verdict keeps start load size (World.initial memory state))
  rintro value after ⟨rfl, judged⟩
  refine ⟨?_, judged.stored.1, judged.stored.2⟩
  have complained : peComplained after.trace = !decide (PePasses start load size memory) :=
    judged.complained
  rw [PeRejected, complained, Bool.not_eq_true', decide_eq_false_iff_not]
  exact and_iff_right_of_imp parsePeRun_refused

/-- A rejected image leaves memory as it was, with no section written, exactly when it is
    refused before anything is written. -/
theorem parsePe_rejects_cleanly_iff (keeps : PrintKeepsMemory firmware) (state : σ)
    (start load size : UINTN) (memory : Mem) :
    wp (machine firmware) (parsePe start load size)
      (fun value after =>
        PeRejected value after.trace →
          ((after.memory = memory ∧ after.stores = []) ↔ RefusedFirst start load size memory))
      (World.initial memory state) := by
  apply wp_mono (wp_parsePe_rejects keeps state start load size memory)
  rintro value after ⟨rejects, left, stored⟩ rejected
  have refused := rejects.mp rejected
  rw [left, stored, ← parsePeRun_unwritten]
  constructor
  · rintro ⟨_, nothing⟩
    exact ⟨refused, nothing⟩
  · rintro ⟨_, nothing⟩
    rw [nothing]
    exact ⟨rfl, rfl⟩

/-- The small image with a first section that reaches beyond the file. -/
def refusedImage : List (Nat × Byte) := (329, 1) :: smallImage

theorem parsePe_rejects_refused :
    wp (machine (plainFirmware 0 efiSuccess)) (parsePe 0x1000 0x100000 400)
      (fun value after =>
        PeRejected value after.trace ∧ after.memory = sparseMemory 0x1000 refusedImage)
      (World.initial (sparseMemory 0x1000 refusedImage) ()) := by
  have keeps := (plainFirmware_keeps 0 efiSuccess).print
  have first : RefusedFirst 0x1000 0x100000 400 (sparseMemory 0x1000 refusedImage) :=
    Or.inr (Or.inr ⟨0, le_refl 0, by decide, by decide, fun j _ below => by omega⟩)
  generalize sparseMemory 0x1000 refusedImage = memory at first ⊢
  apply wp_mono (wp_and (wp_parsePe_rejects keeps () 0x1000 0x100000 400 memory)
    (parsePe_rejects_cleanly_iff keeps () 0x1000 0x100000 400 memory))
  rintro value after ⟨⟨rejects, _⟩, cleanly⟩
  have rejected := rejects.mpr (parsePeRun_unwritten.mpr first).1
  exact ⟨rejected, ((cleanly rejected).mpr first).1⟩

/-- The small image with a second section that reaches beyond the file. -/
def lateImage : List (Nat × Byte) := (369, 1) :: smallImage

theorem lateImage_layout : PeLayout (sparseMemory 0x1000 lateImage) 0x1000 0x100000 400 := by
  decide

/-- The second section is refused when the first has been written. -/
theorem parsePe_writes_rejected :
    wp (machine (plainFirmware 0 efiSuccess)) (parsePe 0x1000 0x100000 400)
      (fun value after =>
        PeRejected value after.trace ∧ after.memory ≠ sparseMemory 0x1000 lateImage)
      (World.initial (sparseMemory 0x1000 lateImage) ()) := by
  have keeps := (plainFirmware_keeps 0 efiSuccess).print
  have run : sectionsRun (ntHeaderOf (sparseMemory 0x1000 lateImage) 0x1000)
      (sectionTableOf (sparseMemory 0x1000 lateImage) 0x1000) 0x1000 0x100000 400 0
      (sparseMemory 0x1000 lateImage) = _ :=
    sectionsRun_eq_loadAll lateImage_layout.placed (Set.eqOn_refl _ _)
  have refused : ¬ PePasses 0x1000 0x100000 400 (sparseMemory 0x1000 lateImage) := by
    rw [PePasses, run]
    decide
  have written : replay (sparseMemory 0x1000 lateImage)
      (parsePeRun 0x1000 0x100000 400 (sparseMemory 0x1000 lateImage)).2 ≠
        sparseMemory 0x1000 lateImage := by
    rw [parsePeRun, if_pos (by decide), run]
    intro same
    have cell := congrFun same 0x101000
    revert cell
    decide
  generalize sparseMemory 0x1000 lateImage = memory at refused written ⊢
  apply wp_mono (wp_parsePe_rejects keeps () 0x1000 0x100000 400 memory)
  rintro value after ⟨rejects, left, _⟩
  refine ⟨rejects.mpr refused, ?_⟩
  rwa [left]

end HvisorUefiPacker
