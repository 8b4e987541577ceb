import HvisorUefiPacker.Soundness.PeImage

/-! # What a loaded image leaves of old memory

A section has two sizes: `SizeOfRawData` bytes come from the file, and the image
has `VirtualSize` bytes of memory.  `load_section` copies the former and clears
nothing.

* `Filled` is a file whose sections get every byte of their memory from the file.
* `parsePe_residue_free_iff`: exactly those are loaded without a trace of what
  memory held before.
-/

namespace HvisorUefiPacker

open Interaction ByteMemory

variable {file first second : Mem} {start load size : UINTN}

/-! ## Two memories with the same file -/

namespace PeLayout

variable (layout : PeLayout file start load size) (dosHeader : 64 ≤ size.toNat)
  (agree : Set.EqOn second file (range start size.toNat))

include layout dosHeader agree

theorem lfanew_congr : word32 second (start + 60) = word32 file (start + 60) := by
  have fits := layout.fileFits
  have inside : Inside (range start size.toNat) start 64 :=
    inside_range (by omega) (le_refl _) (by omega)
  exact word32_congr agree (inside.field (show 60 + 4 ≤ 64 by omega))

theorem ntHeaderOf_congr : ntHeaderOf second start = ntHeaderOf file start := by
  rw [ntHeaderOf, ntHeaderOf, layout.lfanew_congr dosHeader agree]

omit dosHeader agree in
theorem ntInside : Inside (range start size.toNat) (ntHeaderOf file start) 24 := by
  have fits := layout.fileFits
  have table := layout.table
  have offset := lfanew_le_tableOffset file start
  have place := toNat_ntHeaderOf file
    (show start.toNat + (word32 file (start + 60)).toNat < 2 ^ 64 by omega)
  apply inside_range
  · omega
  · omega
  · omega

theorem optional_congr :
    word16 second (ntHeaderOf second start + 20) = word16 file (ntHeaderOf file start + 20) := by
  rw [layout.ntHeaderOf_congr dosHeader agree]
  exact word16_congr agree (layout.ntInside.field (show 20 + 2 ≤ 24 by omega))

theorem count_congr : peSectionCount second start = peSectionCount file start := by
  rw [peSectionCount, peSectionCount, layout.ntHeaderOf_congr dosHeader agree,
    numberOfSectionsAt_congr agree layout.placed.countInside]

theorem section_congr {i : Nat} (bound : i < peSectionCount file start) :
    peSection second start i = peSection file start i := by
  have table : sectionTableOf second start = sectionTableOf file start := by
    rw [sectionTableOf, sectionTableOf, layout.optional_congr dosHeader agree,
      layout.ntHeaderOf_congr dosHeader agree]
  rw [peSection, peSection, table, sectionHeader_congr agree (layout.placed.headerInside bound)]

theorem sections_congr : peSections second start = peSections file start := by
  rw [peSections, peSections, layout.count_congr dosHeader agree]
  apply List.map_congr_left
  intro i member
  exact layout.section_congr dosHeader agree (List.mem_range.mp member)

theorem congr : PeLayout second start load size where
  fileFits := layout.fileFits
  loadValid := layout.loadValid
  loadFits := layout.loadFits
  table := by
    rw [tableOffset, layout.lfanew_congr dosHeader agree, layout.optional_congr dosHeader agree,
      layout.count_congr dosHeader agree]
    exact layout.table
  clear := by
    rw [layout.sections_congr dosHeader agree]
    exact layout.clear

theorem valid_congr (valid : PeValid file start size) : PeValid second start size where
  magic := by
    have fits := layout.fileFits
    have inside : Inside (range start size.toNat) start 2 :=
      inside_range (by omega) (le_refl _) (by omega)
    rw [word16_congr agree inside]
    exact valid.magic
  signature := by
    rw [layout.ntHeaderOf_congr dosHeader agree,
      word32_congr agree fun index bound => layout.ntInside index (by omega)]
    exact valid.signature
  sectionData := by
    rw [layout.count_congr dosHeader agree]
    intro i bound
    rw [layout.section_congr dosHeader agree bound]
    exact valid.sectionData i bound

end PeLayout

/-! ## Residue -/

/-- Some section is copied onto this address. -/
def Loaded (file : Mem) (start load address : UINTN) : Prop :=
  ∃ move ∈ copies start load (peSections file start), address ∈ move.target

instance (file : Mem) (start load address : UINTN) : Decidable (Loaded file start load address) :=
  inferInstanceAs (Decidable (∃ move ∈ copies start load (peSections file start),
    address ∈ move.target))

/-- Every byte of every section's memory is in the file or loaded from it. -/
def Filled (file : Mem) (start load size : UINTN) : Prop :=
  ∀ i < peSectionCount file start, ∀ address ∈ (peSection file start i).inMemory load,
    address ∈ range start size.toNat ∨ Loaded file start load address

/-- If the image is accepted, both runs leave the same bytes in every section. -/
def SameSections (file : Mem) (start load : UINTN) (left right : PeResult) : Prop :=
  left.value ≠ 0 → ∀ i < peSectionCount file start,
    Set.EqOn left.memory right.memory ((peSection file start i).inMemory load)

theorem copies_source {move : Move 64} (layout : PeLayout file start load size)
    (valid : PeValid file start size) (member : move ∈ copies start load (peSections file start)) :
    move.source ⊆ range start size.toNat := by
  have fits := layout.fileFits
  obtain ⟨mapped, _⟩ := List.mem_filter.mp member
  obtain ⟨header, inTable, rfl⟩ := List.mem_map.mp mapped
  obtain ⟨i, bound, rfl⟩ := List.mem_map.mp inTable
  have inFile := valid.sectionData i (List.mem_range.mp bound)
  have src := (peSection file start i).toNat_src load
    (show start.toNat + (peSection file start i).pointerToRawData.toNat < 2 ^ 64 by omega)
  have length : ((peSection file start i).move start load).length =
      (peSection file start i).sizeOfRawData.toNat := rfl
  intro address inSource
  rw [Move.source, mem_range] at inSource
  rw [mem_range]
  omega

theorem copies_clear (layout : PeLayout file start load size) (valid : PeValid file start size) :
    ∀ move ∈ copies start load (peSections file start),
      ∀ other ∈ copies start load (peSections file start), Disjoint move.target other.source := by
  intro move member other otherMember
  obtain ⟨mapped, _⟩ := List.mem_filter.mp member
  obtain ⟨header, inTable, rfl⟩ := List.mem_map.mp mapped
  exact (layout.clear header inTable).mono_right (copies_source layout valid otherMember)

/-- What two runs on the same file leave is the same where sections are loaded, and
    is what memory held before everywhere else. -/
theorem result_memory (layout : PeLayout file start load size) (dosHeader : 64 ≤ size.toNat)
    (valid : PeValid file start size) (agree : Set.EqOn second file (range start size.toNat))
    (address : UINTN) :
    (Loaded file start load address ∧
        (parsePeResult start load size file).memory address =
          (parsePeResult start load size second).memory address) ∨
      (¬ Loaded file start load address ∧
        (parsePeResult start load size file).memory address = file address ∧
        (parsePeResult start load size second).memory address = second address) := by
  have fits := layout.fileFits
  have secondValid := layout.valid_congr dosHeader agree valid
  have moveFits := copies_fits (show start.toNat + 2 ^ 33 < 2 ^ 64 by omega) layout.loadFits
    (peSections file start)
  unfold parsePeResult
  simp only
  rw [layout.run_memory valid, (layout.congr dosHeader agree).run_memory secondValid,
    layout.sections_congr dosHeader agree]
  by_cases loaded : Loaded file start load address
  · left
    refine ⟨loaded, moveAll_congr moveFits (copies_clear layout valid) ?_ loaded⟩
    intro move member
    exact (agree.mono (copies_source layout valid member)).symm
  · right
    have outside : ∀ move ∈ copies start load (peSections file start), address ∉ move.target :=
      fun move member inside => loaded ⟨move, member, inside⟩
    exact ⟨loaded, moveAll_outside moveFits outside, moveAll_outside moveFits outside⟩

/-- A byte that is neither in the file nor loaded shows what memory held. -/
theorem residue_shows (layout : PeLayout file start load size) (dosHeader : 64 ≤ size.toNat)
    (valid : PeValid file start size) {i : Nat} (bound : i < peSectionCount file start)
    {address : UINTN} (inSection : address ∈ (peSection file start i).inMemory load)
    (outside : address ∉ range start size.toNat) (unloaded : ¬ Loaded file start load address) :
    Set.EqOn file (Function.update file address (file address + 1)) (range start size.toNat) ∧
      ¬ SameSections file start load (parsePeResult start load size file)
        (parsePeResult start load size (Function.update file address (file address + 1))) := by
  have agree : Set.EqOn (Function.update file address (file address + 1)) file
      (range start size.toNat) := by
    intro other inFile
    have beside : other ≠ address := by
      rintro rfl
      exact outside inFile
    exact Function.update_of_ne beside _ _
  refine ⟨agree.symm, fun same => ?_⟩
  have sections := same (layout.accepts_iff.mpr valid) i bound inSection
  rcases result_memory layout dosHeader valid agree address with ⟨loaded, _⟩ | ⟨_, left, right⟩
  · exact unloaded loaded
  · rw [left, right, Function.update_self] at sections
    exact absurd (left_eq_add.mp sections) (by decide)

/-- A file without uninitialised data is filled. -/
theorem filled_of_raw (layout : PeLayout file start load size) (startValid : 1 ≤ start.toNat)
    (initialised : ∀ i < peSectionCount file start,
      (peSection file start i).virtualSize ≤ (peSection file start i).sizeOfRawData) :
    Filled file start load size := by
  have fits := layout.fileFits
  intro i bound address inSection
  right
  refine ⟨peMove file start load i, ?_, ?_⟩
  · rw [copies_of_startValid (by omega) startValid]
    exact List.mem_map.mpr ⟨i, List.mem_range.mpr bound, rfl⟩
  · obtain ⟨lower, upper⟩ := mem_range.mp inSection
    have sizes := BitVec.le_def.mp (initialised i bound)
    exact mem_range.mpr ⟨lower, upper.trans_le (Nat.add_le_add_left sizes _)⟩

variable {σ : Type} {firmware : Firmware σ}

/-- A valid image is loaded without residue exactly when its sections are filled. -/
theorem parsePe_residue_free_iff (keeps : PrintKeepsMemory firmware) (state : σ)
    (layout : PeLayout first start load size) (dosHeader : 64 ≤ size.toNat)
    (valid : PeValid first start size) :
    (∀ second, Set.EqOn first second (range start size.toNat) →
        PeRuns firmware state start load size first second (SameSections first start load)) ↔
      Filled first start load size := by
  simp only [peRuns_iff keeps]
  constructor
  · intro residueFree i bound address inSection
    by_contra unfilled
    obtain ⟨outside, unloaded⟩ := not_or.mp unfilled
    obtain ⟨agree, differ⟩ :=
      residue_shows layout dosHeader valid bound inSection outside unloaded
    exact differ (residueFree _ agree)
  · intro filled second agree _ i bound address inSection
    rcases result_memory layout dosHeader valid agree.symm address with
      ⟨_, same⟩ | ⟨unloaded, left, right⟩
    · exact same
    · rcases filled i bound address inSection with inFile | loaded
      · rw [left, right]
        exact agree inFile
      · exact absurd loaded unloaded

/-- The small image without its uninitialised data. -/
def filledImage : List (Nat × Byte) := (320, 8) :: (360, 2) :: smallImage

theorem parsePe_residue_free_filled :
    PeRuns (plainFirmware 0 efiSuccess) () 0x1000 0x100000 400 (sparseMemory 0x1000 filledImage)
      (Function.update (sparseMemory 0x1000 filledImage) 0x101000 0xFF)
      (SameSections (sparseMemory 0x1000 filledImage) 0x1000 0x100000) := by
  have keeps := (plainFirmware_keeps 0 efiSuccess).print
  have layout : PeLayout (sparseMemory 0x1000 filledImage) 0x1000 0x100000 400 := by decide
  have valid : PeValid (sparseMemory 0x1000 filledImage) 0x1000 400 := by decide
  have agree : Set.EqOn (sparseMemory 0x1000 filledImage)
      (Function.update (sparseMemory 0x1000 filledImage) 0x101000 0xFF)
      (range 0x1000 (400 : UINTN).toNat) := by
    intro address inFile
    have beyond : address ≠ 0x101000 := by
      rintro rfl
      exact absurd inFile (by decide)
    exact (Function.update_of_ne beyond _ _).symm
  exact (parsePe_residue_free_iff keeps () layout (by decide) valid).mpr
    (filled_of_raw layout (by decide) (by decide)) _ agree

/-- The first section of the small image has eight bytes of raw data and sixteen of
    memory. -/
theorem parsePe_leaves_residue :
    PeLayout (sparseMemory 0x1000 smallImage) 0x1000 0x100000 400 ∧
      PeValid (sparseMemory 0x1000 smallImage) 0x1000 400 ∧
      ∃ second, Set.EqOn (sparseMemory 0x1000 smallImage) second
          (range 0x1000 (400 : UINTN).toNat) ∧
        ¬ PeRuns (plainFirmware 0 efiSuccess) () 0x1000 0x100000 400
          (sparseMemory 0x1000 smallImage) second
          (SameSections (sparseMemory 0x1000 smallImage) 0x1000 0x100000) := by
  have keeps := (plainFirmware_keeps 0 efiSuccess).print
  obtain ⟨agree, differ⟩ := residue_shows smallImage_layout (by decide) smallImage_valid
    (show 0 < _ by decide) (show 0x101008 ∈ _ by decide) (by decide) (by decide)
  refine ⟨smallImage_layout, smallImage_valid, _, agree, ?_⟩
  rw [peRuns_iff keeps]
  exact differ

end HvisorUefiPacker
