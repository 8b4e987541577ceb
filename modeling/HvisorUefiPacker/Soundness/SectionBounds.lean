import HvisorUefiPacker.Soundness.PeImage

/-! # The bounds check of load_section

`load_section` compares two 64-bit sums, `section_end` and the end of the file.

* `wp_loadSection_status`: the comparison alone decides the status, whatever the
  firmware does to memory while the section is printed.
* `loadSection_bounds_iff`: for a file that fits the address space the status says
  whether the raw data lies in it exactly when `section_end` does not wrap.
-/

namespace HvisorUefiPacker

open Interaction Interaction.Program ByteMemory

variable {σ : Type} {firmware : Firmware σ}

theorem wp_sectionNameFrom_returns (rounds : Nat) (name : UINTN) (world : World σ) :
    wp (machine firmware) (sectionNameFrom rounds name) (fun _ _ => True) world := by
  induction rounds generalizing name with
  | zero => trivial
  | succ rounds inductionHypothesis =>
    rw [sectionNameFrom, wp_bind, wp_load]
    by_cases ends : world.memory name = 0
    · rw [if_pos ends]
      trivial
    · rw [if_neg ends, wp_bind]
      exact wp_mono (inductionHypothesis (name + 1)) fun _ _ _ => trivial

theorem wp_printSectionInfo_returns
    (sectionHeader sectionIndex sectionStart sectionSize sectionEnd sectionLoadAddr : UINTN)
    (world : World σ) :
    wp (machine firmware) (printSectionInfo sectionHeader sectionIndex sectionStart sectionSize
      sectionEnd sectionLoadAddr) (fun _ _ => True) world := by
  simp [printSectionInfo, parseSectionName, printField, wp_sectionNameFrom_returns]

/-- The header is read once for the check, before anything is printed. -/
theorem wp_loadSection_status (address start load size index : UINTN) (world : World σ) :
    wp (machine firmware) (loadSection address start load size index)
      (fun status _ => status =
        if (sectionHeader world.memory address).Accepted start size then efiSuccess
        else efiInvalidParameter) world := by
  unfold loadSection
  simp only [wp_bind, wp_load32, pointerToRawData_field, sizeOfRawData_field,
    virtualAddress_field]
  apply wp_mono (wp_printSectionInfo_returns _ _ _ _ _ _ world)
  intro _ after _
  split
  · next beyond =>
    have refused : ¬ (sectionHeader world.memory address).Accepted start size :=
      BitVec.not_le.mpr beyond
    rw [if_neg refused, wp_bind, wp_print]
    rfl
  · next within =>
    have accepted : (sectionHeader world.memory address).Accepted start size :=
      BitVec.not_lt.mp within
    rw [if_pos accepted, wp_bind, wp_copyMem, wp_bind, wp_print]
    rfl

/-- `load_section` returns `EFI_SUCCESS`. -/
def LoadsSection (firmware : Firmware σ) (world : World σ) (address start load size index : UINTN) :
    Prop :=
  wp (machine firmware) (loadSection address start load size index)
    (fun status _ => status = efiSuccess) world

theorem loadsSection_iff {address start load size index : UINTN} {world : World σ} :
    LoadsSection firmware world address start load size index ↔
      (sectionHeader world.memory address).Accepted start size := by
  obtain ⟨status, after, returned, decided⟩ :=
    wp_iff_exec.mp (@wp_loadSection_status σ firmware address start load size index world)
  constructor
  · intro loads
    by_contra refused
    rw [if_neg refused] at decided
    have success := post_of_returned loads returned
    rw [decided] at success
    exact absurd success (by decide)
  · intro accepted
    rw [if_pos accepted] at decided
    exact wp_of_returned returned decided

/-- A `section_end` that wraps is small, and so accepted. -/
theorem SectionHeader.accepted_of_wraps {header : SectionHeader} {start size : UINTN}
    (fileFits : start.toNat + size.toNat < 2 ^ 64)
    (wraps : ¬ start.toNat + header.pointerToRawData.toNat + header.sizeOfRawData.toNat < 2 ^ 64) :
    header.Accepted start size := by
  have pointer := header.pointerToRawData.isLt
  have length := header.sizeOfRawData.isLt
  rw [SectionHeader.Accepted, BitVec.le_def]
  simp only [BitVec.toNat_add, BitVec.toNat_setWidth]
  omega

/-- For a file that fits the address space, the check says whether the raw data lies in
    the file exactly when the end of the raw data fits it too. -/
theorem loadSection_bounds_iff (firmware : Firmware σ) (world : World σ)
    (address start load size index : UINTN) (fileFits : start.toNat + size.toNat < 2 ^ 64) :
    (LoadsSection firmware world address start load size index ↔
        (sectionHeader world.memory address).pointerToRawData.toNat +
          (sectionHeader world.memory address).sizeOfRawData.toNat ≤ size.toNat) ↔
      start.toNat + (sectionHeader world.memory address).pointerToRawData.toNat +
        (sectionHeader world.memory address).sizeOfRawData.toNat < 2 ^ 64 := by
  rw [loadsSection_iff]
  constructor
  · intro meansIt
    by_contra wraps
    have inFile := meansIt.mp (SectionHeader.accepted_of_wraps fileFits wraps)
    omega
  · exact SectionHeader.accepted_iff _ fileFits

/-- A section header at 0x2000 with 8 bytes of raw data at offset 392. -/
def endingSection : Mem := sparseMemory 0x2000 [(16, 8), (20, 0x88), (21, 1)]

/-- Raw data that ends where the file ends. -/
theorem loadSection_bounds_last :
    (sectionHeader endingSection 0x2000).pointerToRawData = 392 ∧
      (sectionHeader endingSection 0x2000).sizeOfRawData = 8 ∧
      (LoadsSection (plainFirmware 0 efiSuccess) (World.initial endingSection ()) 0x2000 0x1000
        0x100000 400 0 ↔ 392 + 8 ≤ 400) :=
  ⟨by decide, by decide,
    (loadSection_bounds_iff (plainFirmware 0 efiSuccess) (World.initial endingSection ()) 0x2000
      0x1000 0x100000 400 0 (by decide)).mpr (by decide)⟩

/-- A section header at 0x2000 with 16 bytes of raw data at offset 0x1008. -/
def highSection : Mem := sparseMemory 0x2000 [(16, 0x10), (20, 0x08), (21, 0x10)]

/-- A file of 0xE00 bytes in the last page of the address space: raw data that would lie
    at the bottom of the address space is accepted. -/
theorem loadSection_accepts_wrapped :
    (0xFFFFFFFFFFFFF000 : UINTN).toNat + (0xE00 : UINTN).toNat < 2 ^ 64 ∧
      LoadsSection (plainFirmware 0 efiSuccess) (World.initial highSection ()) 0x2000
        0xFFFFFFFFFFFFF000 0x100000 0xE00 0 ∧
      ¬ (sectionHeader highSection 0x2000).pointerToRawData.toNat +
        (sectionHeader highSection 0x2000).sizeOfRawData.toNat ≤ (0xE00 : UINTN).toNat :=
  ⟨by decide, loadsSection_iff.mpr (by decide), by decide⟩

end HvisorUefiPacker
