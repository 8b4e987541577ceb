import HvisorUefiPacker.Soundness.PeRun

/-! # Loading a PE image

`parse_pe` reads the section count and every section header again from the
memory it is copying sections into.

* `PeLayout` is what keeps that harmless: nothing wraps, the section table lies
  in the file, and no section is loaded over the file.
* `sectionsRun_eq_loadAll`: under it the loop loads the sections of the original
  file, one after the other.
* `parsePe_accepts` and `parsePe_loads` say which images are accepted and what
  memory holds after an accepted one.
-/

namespace HvisorUefiPacker

open Interaction ByteMemory

/-! ## The file -/

section File

variable (file : Mem) (start load size : UINTN)

/-- `section_header[i]`, as the file has it. -/
def peSection (i : Nat) : SectionHeader :=
  sectionHeader file (sectionHeaderAt (sectionTableOf file start) i)

/-- `file_header->NumberOfSections` -/
def peSectionCount : Nat := numberOfSectionsAt file (ntHeaderOf file start)

/-- The section table of the file. -/
def peSections : List SectionHeader :=
  (List.range (peSectionCount file start)).map (peSection file start)

/-- The offset of the section table in the file. -/
def tableOffset : Nat :=
  (word32 file (start + 60)).toNat + 24 + (word16 file (ntHeaderOf file start + 20)).toNat

/-- Nothing wraps, the section table lies in the file, and no section is loaded
    over the file. -/
structure PeLayout : Prop where
  fileFits : start.toNat + size.toNat + 2 ^ 33 < 2 ^ 64
  loadValid : 1 ≤ load.toNat
  loadFits : load.toNat + 2 ^ 33 < 2 ^ 64
  table : tableOffset file start + 40 * peSectionCount file start ≤ size.toNat
  clear : ∀ header ∈ peSections file start,
    Disjoint (header.move start load).target (range start size.toNat)

instance : Decidable (PeLayout file start load size) :=
  decidable_of_iff (_ ∧ _ ∧ _ ∧ _ ∧ ∀ header ∈ peSections file start,
      Disjoint (range (header.move start load).dest (header.move start load).length)
        (range start size.toNat))
    ⟨fun ⟨fileFits, loadValid, loadFits, table, clear⟩ =>
      ⟨fileFits, loadValid, loadFits, table, clear⟩,
    fun layout =>
      ⟨layout.fileFits, layout.loadValid, layout.loadFits, layout.table, layout.clear⟩⟩

/-- What of it the section loop needs: the section table lies in the file, and no
    section is loaded over the file. -/
structure PePlaced : Prop where
  fileFits : start.toNat + size.toNat ≤ 2 ^ 64
  table : tableOffset file start + 40 * peSectionCount file start ≤ size.toNat
  destFits : ∀ header ∈ peSections file start,
    (header.move start load).dest.toNat + (header.move start load).length ≤ 2 ^ 64
  clear : ∀ header ∈ peSections file start,
    Disjoint (header.move start load).target (range start size.toNat)

end File

variable {file memory : Mem} {start load size : UINTN}

theorem peSections_length : (peSections file start).length = peSectionCount file start := by
  simp [peSections]

theorem peSectionCount_lt (file : Mem) (start : UINTN) : peSectionCount file start < 65536 := BitVec.isLt _

theorem peSections_drop {i : Nat} (bound : i < peSectionCount file start) :
    (peSections file start).drop i = peSection file start i :: (peSections file start).drop (i + 1) := by
  rw [List.drop_eq_getElem_cons (by rwa [peSections_length])]
  simp [peSections]

theorem toNat_widen {w : Nat} (narrow : w ≤ 64) (field : BitVec w) :
    (field.setWidth 64).toNat = field.toNat := by
  have bound := field.isLt
  have wide : 2 ^ w ≤ 2 ^ 64 := Nat.pow_le_pow_right (by omega) narrow
  rw [BitVec.toNat_setWidth, Nat.mod_eq_of_lt (by omega)]

theorem toNat_ntHeaderOf (file : Mem) {start : UINTN}
    (fits : start.toNat + (word32 file (start + 60)).toNat < 2 ^ 64) :
    (ntHeaderOf file start).toNat = start.toNat + (word32 file (start + 60)).toNat := by
  have offset := toNat_widen (by omega) (word32 file (start + 60))
  rw [ntHeaderOf, BitVec.toNat_add_of_lt (by omega), offset]

theorem toNat_sectionHeaderAt (file : Mem) {start : UINTN} {i : Nat}
    (fits : start.toNat + tableOffset file start + 40 * i < 2 ^ 64) :
    (sectionHeaderAt (sectionTableOf file start) i).toNat =
      start.toNat + tableOffset file start + 40 * i := by
  rw [tableOffset] at fits ⊢
  have ntHeader := toNat_ntHeaderOf file
    (show start.toNat + (word32 file (start + 60)).toNat < 2 ^ 64 by omega)
  have optional := toNat_widen (by omega) (word16 file (ntHeaderOf file start + 20))
  have headers : (ntHeaderOf file start + 24).toNat = (ntHeaderOf file start).toNat + 24 :=
    @toNat_add_ofNat 64 _ 24 (by omega)
  have table : (sectionTableOf file start).toNat = (ntHeaderOf file start).toNat + 24 +
      (word16 file (ntHeaderOf file start + 20)).toNat := by
    rw [sectionTableOf, BitVec.toNat_add_of_lt (by omega), headers, optional]
  rw [sectionHeaderAt, imageSectionHeader_size, toNat_add_ofNat (by omega), table, ntHeader]
  omega

theorem lfanew_le_tableOffset (file : Mem) (start : UINTN) :
    (word32 file (start + 60)).toNat + 24 ≤ tableOffset file start := by
  rw [tableOffset]
  omega

/-! ### The headers read again -/

section Agree

variable {cells : Set UINTN}

theorem numberOfSectionsAt_congr {ntHeader : UINTN} (agree : Set.EqOn memory file cells)
    (inside : Inside cells (ntHeader + 6) 2) :
    numberOfSectionsAt memory ntHeader = numberOfSectionsAt file ntHeader :=
  congrArg BitVec.toNat (word16_congr agree inside)

theorem sectionHeader_congr {address : UINTN} (agree : Set.EqOn memory file cells)
    (inside : Inside cells address 24) :
    sectionHeader memory address = sectionHeader file address := by
  have field : ∀ offset : Nat, offset + 4 ≤ 24 →
      word32 memory (address + BitVec.ofNat 64 offset) =
        word32 file (address + BitVec.ofNat 64 offset) :=
    fun _ bound => word32_congr agree (inside.field bound)
  unfold sectionHeader
  rw [SectionHeader.mk.injEq]
  exact ⟨field 8 (by omega), field 12 (by omega), field 16 (by omega), field 20 (by omega)⟩

end Agree

namespace PePlaced

variable (placed : PePlaced file start load size)

include placed

theorem countInside : Inside (range start size.toNat) (ntHeaderOf file start + 6) 2 := by
  have fits := placed.fileFits
  have table := placed.table
  have offset := lfanew_le_tableOffset file start
  have ntHeader := toNat_ntHeaderOf file
    (show start.toNat + (word32 file (start + 60)).toNat < 2 ^ 64 by omega)
  have place : (ntHeaderOf file start + 6).toNat = (ntHeaderOf file start).toNat + 6 :=
    @toNat_add_ofNat 64 _ 6 (by omega)
  apply inside_range
  · omega
  · omega
  · omega

theorem headerInside {i : Nat} (bound : i < peSectionCount file start) :
    Inside (range start size.toNat) (sectionHeaderAt (sectionTableOf file start) i) 24 := by
  have fits := placed.fileFits
  have table := placed.table
  have place := toNat_sectionHeaderAt file
    (show start.toNat + tableOffset file start + 40 * i < 2 ^ 64 by omega)
  apply inside_range
  · omega
  · omega
  · omega

end PePlaced

/-! ## The sections, one after the other -/

/-- The section loop with the headers known beforehand. -/
def loadAll (start load size : UINTN) : List SectionHeader → Mem → Bool × List (UINTN × Byte)
  | [], _ => (true, [])
  | header :: rest, memory =>
    if header.Accepted start size then
      let log := header.log start load memory
      let later := loadAll start load size rest (replay memory log)
      (later.1, log ++ later.2)
    else
      (false, [])

theorem SectionHeader.toNat_dest (header : SectionHeader) (start : UINTN) {load : UINTN}
    (fits : load.toNat + header.virtualAddress.toNat < 2 ^ 64) :
    (header.move start load).dest.toNat = load.toNat + header.virtualAddress.toNat := by
  have offset := toNat_widen (by omega) header.virtualAddress
  rw [SectionHeader.move, BitVec.toNat_add_of_lt (by omega), offset]

theorem SectionHeader.toNat_src (header : SectionHeader) {start : UINTN} (load : UINTN)
    (fits : start.toNat + header.pointerToRawData.toNat < 2 ^ 64) :
    (header.move start load).src.toNat = start.toNat + header.pointerToRawData.toNat := by
  have offset := toNat_widen (by omega) header.pointerToRawData
  rw [SectionHeader.move, BitVec.toNat_add_of_lt (by omega), offset]

theorem SectionHeader.move_fits (header : SectionHeader)
    (fileFits : start.toNat + 2 ^ 33 < 2 ^ 64) (loadFits : load.toNat + 2 ^ 33 < 2 ^ 64) :
    (header.move start load).Fits := by
  have address := header.virtualAddress.isLt
  have pointer := header.pointerToRawData.isLt
  have dest := header.toNat_dest start
    (show load.toNat + header.virtualAddress.toNat < 2 ^ 64 by omega)
  have src := header.toNat_src load
    (show start.toNat + header.pointerToRawData.toNat < 2 ^ 64 by omega)
  have length : (header.move start load).length < 2 ^ 32 := header.sizeOfRawData.isLt
  constructor
  · omega
  · omega

theorem SectionHeader.toNat_length (header : SectionHeader) (start load : UINTN) :
    (header.sizeOfRawData.setWidth 64).toNat = (header.move start load).length :=
  toNat_widen (by omega) header.sizeOfRawData

/-- Without a wrap, the check of `load_section` is the check over the integers. -/
theorem SectionHeader.accepted_iff (header : SectionHeader)
    (fileFits : start.toNat + size.toNat < 2 ^ 64)
    (sourceFits : start.toNat + header.pointerToRawData.toNat + header.sizeOfRawData.toNat <
      2 ^ 64) :
    header.Accepted start size ↔
      header.pointerToRawData.toNat + header.sizeOfRawData.toNat ≤ size.toNat := by
  rw [SectionHeader.Accepted, BitVec.le_def]
  simp only [BitVec.toNat_add, BitVec.toNat_setWidth]
  omega

/-- Without a wrap at the file, no section wraps. -/
theorem SectionHeader.source_fits (header : SectionHeader) (fileFits : start.toNat + 2 ^ 33 < 2 ^ 64) :
    start.toNat + header.pointerToRawData.toNat + header.sizeOfRawData.toNat < 2 ^ 64 := by
  have pointer := header.pointerToRawData.isLt
  have length := header.sizeOfRawData.isLt
  omega

/-- The copy of a section leaves everything but its destination alone. -/
theorem SectionHeader.replay_log_outside {header : SectionHeader} {address : UINTN}
    (fits : (header.move start load).dest.toNat + (header.move start load).length ≤ 2 ^ 64)
    (outside : address ∉ (header.move start load).target) :
    replay memory (header.log start load memory) address = memory address := by
  apply replay_copyLog_outside
  rw [Move.target, mem_range_iff_sub fits] at outside
  rw [header.toNat_length start load]
  omega

/-- The copy of a section does not touch the file, so the next round finds it as it was. -/
theorem PePlaced.agree_after (placed : PePlaced file start load size)
    (agree : Set.EqOn memory file (range start size.toNat)) {i : Nat}
    (bound : i < peSectionCount file start) :
    Set.EqOn (replay memory ((peSection file start i).log start load memory)) file
      (range start size.toNat) := by
  have member : peSection file start i ∈ peSections file start :=
    List.mem_map.mpr ⟨i, List.mem_range.mpr bound, rfl⟩
  intro address inFile
  have outside : address ∉ ((peSection file start i).move start load).target :=
    fun inTarget => Set.disjoint_left.mp (placed.clear _ member) inTarget inFile
  rw [SectionHeader.replay_log_outside (placed.destFits _ member) outside]
  exact agree inFile

theorem PeLayout.placed (layout : PeLayout file start load size) :
    PePlaced file start load size where
  fileFits := by
    have fits := layout.fileFits
    omega
  table := layout.table
  destFits := by
    have fits := layout.fileFits
    exact fun header _ => (header.move_fits (by omega) layout.loadFits).dest
  clear := layout.clear

/-- The loop reads the headers of the original file in every round.  No copy before it
    has touched them. -/
theorem sectionsRun_eq_loadAll (placed : PePlaced file start load size)
    (agree : Set.EqOn memory file (range start size.toNat)) :
    sectionsRun (ntHeaderOf file start) (sectionTableOf file start) start load size 0 memory =
      loadAll start load size (peSections file start) memory := by
  have rounds : ∀ fuel i memory, peSectionCount file start ≤ fuel + i →
      Set.EqOn memory file (range start size.toNat) →
      sectionsRunFuel (ntHeaderOf file start) (sectionTableOf file start) start load size fuel i
          memory =
        loadAll start load size ((peSections file start).drop i) memory := by
    intro fuel
    induction fuel with
    | zero =>
      intro i memory enough _
      rw [List.drop_eq_nil_of_le (by rw [peSections_length]; omega)]
      rfl
    | succ fuel inductionHypothesis =>
      intro i memory enough agree
      rw [sectionsRunFuel, numberOfSectionsAt_congr agree placed.countInside]
      by_cases more : i < peSectionCount file start
      · have header : sectionHeader memory (sectionHeaderAt (sectionTableOf file start) i) =
            peSection file start i :=
          sectionHeader_congr agree (placed.headerInside more)
        have kept := placed.agree_after agree more
        rw [← peSectionCount, if_pos more, peSections_drop more, loadAll, header]
        simp only [inductionHypothesis (i + 1) _ (by omega) kept]
      · rw [← peSectionCount, if_neg more,
          List.drop_eq_nil_of_le (by rw [peSections_length]; omega)]
        rfl
  exact rounds 65536 0 memory (by have := peSectionCount_lt file start; omega)
    agree

theorem loadAll_accepts (headers : List SectionHeader) (memory : Mem) :
    (loadAll start load size headers memory).1 = true ↔
      ∀ header ∈ headers, header.Accepted start size := by
  induction headers generalizing memory with
  | nil => simp [loadAll]
  | cons header rest inductionHypothesis =>
    rw [loadAll, List.forall_mem_cons]
    by_cases accepted : header.Accepted start size
    · rw [if_pos accepted, inductionHypothesis]
      simp [accepted]
    · rw [if_neg accepted]
      simp [accepted]

/-- The moves that loading a list of sections amounts to; `RtCopyMem` takes a null
    source for an empty copy. -/
def copies (start load : UINTN) (headers : List SectionHeader) : List (Move 64) :=
  (headers.map (SectionHeader.move · start load)).filter fun move => move.src ≠ 0

theorem copies_singleton (header : SectionHeader) :
    copies start load [header] =
      if (header.move start load).src = 0 then [] else [header.move start load] := by
  by_cases null : (header.move start load).src = 0
  · rw [if_pos null]
    simpa [copies] using null
  · rw [if_neg null]
    simpa [copies] using null

theorem copies_cons (header : SectionHeader) (rest : List SectionHeader) :
    copies start load (header :: rest) = copies start load [header] ++ copies start load rest := by
  unfold copies
  rw [← List.filter_append, ← List.map_append, List.singleton_append]

theorem copies_fits (fileFits : start.toNat + 2 ^ 33 < 2 ^ 64)
    (loadFits : load.toNat + 2 ^ 33 < 2 ^ 64) (headers : List SectionHeader) :
    ∀ move ∈ copies start load headers, move.Fits := by
  intro move member
  obtain ⟨mapped, _⟩ := List.mem_filter.mp member
  obtain ⟨header, _, rfl⟩ := List.mem_map.mp mapped
  exact header.move_fits fileFits loadFits

/-- An accepted section with a valid source is moved. -/
theorem SectionHeader.replay_log (header : SectionHeader) (memory : Mem)
    (fits : (header.move start load).Fits) (destValid : (header.move start load).dest ≠ 0) :
    replay memory (header.log start load memory) =
      moveAll memory (copies start load [header]) := by
  have length := header.toNat_length start load
  unfold SectionHeader.log
  by_cases null : (header.move start load).src = 0
  · rw [copies_singleton, if_pos null, copyLog, if_pos (Or.inr (Or.inl null))]
    rfl
  · rw [copies_singleton, if_neg null, replay_copyLog destValid null
      (by rw [length]; exact fits.dest) (by rw [length]; exact fits.src), length]
    rfl

/-- Loading a list of accepted sections is moving them in order. -/
theorem loadAll_moves (headers : List SectionHeader) (memory : Mem)
    (fits : ∀ header ∈ headers, (header.move start load).Fits)
    (destValid : ∀ header ∈ headers, (header.move start load).dest ≠ 0)
    (accepted : ∀ header ∈ headers, header.Accepted start size) :
    replay memory (loadAll start load size headers memory).2 =
      moveAll memory (copies start load headers) := by
  induction headers generalizing memory with
  | nil => rfl
  | cons header rest inductionHypothesis =>
    obtain ⟨first, later⟩ := List.forall_mem_cons.mp accepted
    obtain ⟨firstFits, laterFit⟩ := List.forall_mem_cons.mp fits
    obtain ⟨firstValid, laterValid⟩ := List.forall_mem_cons.mp destValid
    have moved := header.replay_log memory firstFits firstValid
    rw [loadAll, if_pos first, copies_cons, moveAll_append, ← moved, replay_append]
    exact inductionHypothesis _ laterFit laterValid later

theorem SectionHeader.dest_ne_zero (header : SectionHeader) (start : UINTN)
    (loadValid : 1 ≤ load.toNat)
    (destValid : load.toNat + header.virtualAddress.toNat < 2 ^ 64) :
    (header.move start load).dest ≠ 0 := by
  intro null
  have dest := header.toNat_dest start destValid
  have zero : (0 : UINTN).toNat = 0 := rfl
  rw [null, zero] at dest
  omega

/-! ## parse_pe on an image -/

/-- A PE file whose sections have their raw data in the file. -/
structure PeValid (file : Mem) (start size : UINTN) : Prop where
  magic : word16 file start = imageDosSignature
  signature : word32 file (ntHeaderOf file start) = imageNtSignature
  sectionData : ∀ i < peSectionCount file start,
    (peSection file start i).pointerToRawData.toNat +
      (peSection file start i).sizeOfRawData.toNat ≤ size.toNat

instance (file : Mem) (start size : UINTN) : Decidable (PeValid file start size) :=
  decidable_of_iff (_ ∧ _ ∧ _)
    ⟨fun ⟨magic, signature, sectionData⟩ => ⟨magic, signature, sectionData⟩,
    fun valid => ⟨valid.magic, valid.signature, valid.sectionData⟩⟩

/-- `AddressOfEntryPoint`, as the file has it. -/
def entryPointField (file : Mem) (start : UINTN) : UINT32 :=
  word32 file (ntHeaderOf file start + 40)

theorem toNat_entryOf (file : Mem) (start : UINTN) {load : UINTN} (loadFits : load.toNat + 2 ^ 33 < 2 ^ 64) :
    (entryOf file start load).toNat = load.toNat + (entryPointField file start).toNat := by
  have entry := (entryPointField file start).isLt
  have offset := toNat_widen (by omega) (entryPointField file start)
  rw [entryOf, ← entryPointField, BitVec.toNat_add_of_lt (by omega), offset, Nat.add_comm]

theorem forall_peSections {holds : SectionHeader → Prop} :
    (∀ header ∈ peSections file start, holds header) ↔
      ∀ i < peSectionCount file start, holds (peSection file start i) := by
  simp [peSections]

namespace PeLayout

variable (layout : PeLayout file start load size)

include layout

/-- Loading the sections comes to its end exactly when all of them are in the file. -/
theorem accepts_sections :
    (loadAll start load size (peSections file start) file).1 = true ↔
      ∀ i < peSectionCount file start,
        (peSection file start i).pointerToRawData.toNat +
          (peSection file start i).sizeOfRawData.toNat ≤ size.toNat := by
  have fits := layout.fileFits
  have inFile : ∀ header : SectionHeader, header.Accepted start size ↔ _ := fun header =>
    header.accepted_iff (by omega) (header.source_fits (by omega))
  rw [loadAll_accepts, forall_peSections]
  exact forall₂_congr fun i _ => inFile _

theorem entry_ne_zero : entryOf file start load ≠ 0 := by
  intro null
  have entry := toNat_entryOf file start layout.loadFits
  have zero : (0 : UINTN).toNat = 0 := rfl
  have valid := layout.loadValid
  rw [null, zero] at entry
  omega

theorem run_valid (valid : PeValid file start size) :
    parsePeRun start load size file =
      (entryOf file start load, (loadAll start load size (peSections file start) file).2) := by
  have finished := layout.accepts_sections.mpr valid.sectionData
  rw [parsePeRun, if_pos ⟨valid.magic, valid.signature⟩,
    sectionsRun_eq_loadAll layout.placed (Set.eqOn_refl _ _)]
  simp only [if_pos finished]

theorem run_invalid (invalid : ¬ PeValid file start size) :
    (parsePeRun start load size file).1 = 0 := by
  rw [parsePeRun]
  by_cases headers : word16 file start = imageDosSignature ∧
      word32 file (ntHeaderOf file start) = imageNtSignature
  · have refused : ¬ (loadAll start load size (peSections file start) file).1 = true :=
      fun accepted => invalid ⟨headers.1, headers.2, layout.accepts_sections.mp accepted⟩
    rw [if_pos headers, sectionsRun_eq_loadAll layout.placed (Set.eqOn_refl _ _)]
    exact if_neg refused
  · rw [if_neg headers]

theorem accepts_iff : (parsePeRun start load size file).1 ≠ 0 ↔ PeValid file start size := by
  constructor
  · intro accepted
    by_contra invalid
    exact accepted (layout.run_invalid invalid)
  · intro valid
    rw [layout.run_valid valid]
    exact layout.entry_ne_zero

/-- What memory holds after an accepted image. -/
theorem run_memory (valid : PeValid file start size) :
    replay file (parsePeRun start load size file).2 =
      moveAll file (copies start load (peSections file start)) := by
  have fits := layout.fileFits
  have loadFits := layout.loadFits
  rw [layout.run_valid valid]
  apply loadAll_moves
  · exact fun header _ => header.move_fits (by omega) loadFits
  · intro header _
    have address := header.virtualAddress.isLt
    exact header.dest_ne_zero start layout.loadValid (by omega)
  · exact (loadAll_accepts _ _).mp (layout.accepts_sections.mpr valid.sectionData)

end PeLayout

/-! ### A small image -/

/-- Two sections, the second over the first: headers at 312, raw data at 392. -/
def smallImage : List (Nat × Byte) :=
  [(0, 0x4D), (1, 0x5A), (60, 64), (64, 0x50), (65, 0x45), (70, 2), (84, 0xE0), (105, 0x10),
    (320, 16), (325, 0x10), (328, 8), (332, 0x88), (333, 0x01),
    (360, 16), (364, 4), (365, 0x10), (368, 2), (372, 0x8E), (373, 0x01),
    (392, 0x11), (393, 0x22), (394, 0x33), (395, 0x44), (396, 0x55), (397, 0x66), (398, 0x77),
    (399, 0x88)]

theorem smallImage_layout : PeLayout (sparseMemory 0x1000 smallImage) 0x1000 0x100000 400 := by
  decide

theorem smallImage_valid : PeValid (sparseMemory 0x1000 smallImage) 0x1000 400 := by
  decide

theorem smallImage_accepted :
    (parsePeRun 0x1000 0x100000 400 (sparseMemory 0x1000 smallImage)).1 ≠ 0 :=
  smallImage_layout.accepts_iff.mpr smallImage_valid

/-! ### The results -/

variable {σ : Type} {firmware : Firmware σ}

/-- `parse_pe` accepts exactly the valid images, and returns the entry point of
    those: 0 is never one. -/
theorem parsePe_accepts (keeps : PrintKeepsMemory firmware) (world : World σ)
    (layout : PeLayout world.memory start load size) :
    wp (machine firmware) (parsePe start load size)
      (fun value _ =>
        (value ≠ 0 ↔ PeValid world.memory start size) ∧
          (value ≠ 0 →
            value.toNat = load.toNat + (entryPointField world.memory start).toNat))
      world := by
  apply wp_mono (wp_parsePe keeps start load size world)
  rintro value after ⟨rfl, _⟩
  refine ⟨layout.accepts_iff, fun accepted => ?_⟩
  rw [layout.run_valid (layout.accepts_iff.mp accepted)]
  exact toNat_entryOf world.memory start layout.loadFits

theorem parsePe_accepts_small :
    wp (machine (plainFirmware 0 efiSuccess)) (parsePe 0x1000 0x100000 400)
      (fun value _ => value = 0x101000) (World.initial (sparseMemory 0x1000 smallImage) ()) := by
  have keeps := (plainFirmware_keeps 0 efiSuccess).print
  generalize started : World.initial (sparseMemory 0x1000 smallImage) () = world
  have memory : world.memory = sparseMemory 0x1000 smallImage := by rw [← started, World.initial]
  have layout : PeLayout world.memory 0x1000 0x100000 400 := by
    rw [memory]
    exact smallImage_layout
  apply wp_mono (parsePe_accepts keeps world layout)
  rintro value after ⟨accepts, entry⟩
  rw [memory] at accepts entry
  apply BitVec.eq_of_toNat_eq
  rw [entry (accepts.mpr smallImage_valid)]
  decide

/-- The copy of section `i`. -/
def peMove (file : Mem) (start load : UINTN) (i : Nat) : Move 64 :=
  (peSection file start i).move start load

theorem copies_of_startValid (fileFits : start.toNat + 2 ^ 33 < 2 ^ 64)
    (startValid : 1 ≤ start.toNat) :
    copies start load (peSections file start) =
      (List.range (peSectionCount file start)).map (peMove file start load) := by
  unfold copies peSections
  rw [List.map_map]
  apply List.filter_eq_self.mpr
  intro move member
  obtain ⟨i, _, rfl⟩ := List.mem_map.mp member
  apply decide_eq_true
  intro null
  have pointer := (peSection file start i).pointerToRawData.isLt
  have src := (peSection file start i).toNat_src load
    (show start.toNat + (peSection file start i).pointerToRawData.toNat < 2 ^ 64 by omega)
  have zero : (0 : UINTN).toNat = 0 := rfl
  change (peSection file start i |>.move start load).src = 0 at null
  rw [null, zero] at src
  omega

theorem PeLayout.peMove_clear (layout : PeLayout file start load size)
    (valid : PeValid file start size) {i j : Nat} (iBound : i < peSectionCount file start)
    (jBound : j < peSectionCount file start) :
    Disjoint (peMove file start load j).target (peMove file start load i).source := by
  have fits := layout.fileFits
  have clear := forall_peSections.mp layout.clear j jBound
  have sectionData := valid.sectionData i iBound
  have src := (peSection file start i).toNat_src load
    (show start.toNat + (peSection file start i).pointerToRawData.toNat < 2 ^ 64 by omega)
  apply clear.mono_right
  intro address inSource
  obtain ⟨lower, upper⟩ := mem_range.mp inSource
  have length : (peMove file start load i).length = (peSection file start i).sizeOfRawData.toNat :=
    rfl
  rw [peMove] at lower upper length
  rw [mem_range]
  omega

/-- After an accepted image every address holds what the last section loaded over it
    has there, and every other address what it held before. -/
theorem parsePe_loads (keeps : PrintKeepsMemory firmware) (world : World σ)
    (startValid : 1 ≤ start.toNat) (layout : PeLayout world.memory start load size) :
    wp (machine firmware) (parsePe start load size)
      (fun value after =>
        value ≠ 0 →
          (∀ i < peSectionCount world.memory start,
            ∀ address ∈ (peMove world.memory start load i).target,
              (∀ j < peSectionCount world.memory start, i < j →
                address ∉ (peMove world.memory start load j).target) →
              after.memory address =
                world.memory (start + (peSection world.memory start i).pointerToRawData.setWidth 64 +
                  (address - load -
                    (peSection world.memory start i).virtualAddress.setWidth 64))) ∧
            (∀ address,
              (∀ i < peSectionCount world.memory start,
                address ∉ (peMove world.memory start load i).target) →
              after.memory address = world.memory address))
      world := by
  have fits := layout.fileFits
  apply wp_mono (wp_parsePe keeps start load size world)
  rintro value after ⟨rfl, stored⟩ accepted
  have valid := layout.accepts_iff.mp accepted
  have moveFits : ∀ i < peSectionCount world.memory start,
      (peMove world.memory start load i).Fits :=
    fun i _ => SectionHeader.move_fits _ (by omega) layout.loadFits
  rw [stored.1, layout.run_memory valid, copies_of_startValid (by omega) startValid]
  constructor
  · intro i bound address inside last
    rw [moveAll_range_last bound moveFits
      (fun j below => layout.peMove_clear valid bound (by omega)) inside last, sub_sub]
    rfl
  · intro address outside
    apply moveAll_outside
    · intro move member
      obtain ⟨i, below, rfl⟩ := List.mem_map.mp member
      exact moveFits i (List.mem_range.mp below)
    · intro move member
      obtain ⟨i, below, rfl⟩ := List.mem_map.mp member
      exact outside i (List.mem_range.mp below)

theorem parsePe_loads_small :
    wp (machine (plainFirmware 0 efiSuccess)) (parsePe 0x1000 0x100000 400)
      (fun _ after =>
        after.memory 0x101002 = 0x33 ∧ after.memory 0x101004 = 0x77 ∧ after.memory 0x1000 = 0x4D)
      (World.initial (sparseMemory 0x1000 smallImage) ()) := by
  have keeps := (plainFirmware_keeps 0 efiSuccess).print
  generalize started : World.initial (sparseMemory 0x1000 smallImage) () = world
  have memory : world.memory = sparseMemory 0x1000 smallImage := by rw [← started, World.initial]
  have layout : PeLayout world.memory 0x1000 0x100000 400 := by
    rw [memory]
    exact smallImage_layout
  have loads := parsePe_loads keeps world (by decide) layout
  obtain ⟨value, after, returned, moved⟩ := wp_iff_exec.mp loads
  obtain ⟨accepted, _⟩ := post_of_returned (wp_parsePe keeps _ _ _ _) returned
  rw [memory] at moved accepted
  obtain ⟨inSection, outside⟩ := moved (accepted ▸ smallImage_accepted)
  apply wp_of_returned returned
  refine ⟨?_, ?_, ?_⟩
  · rw [inSection 0 (by decide) 0x101002 (by decide) (by decide)]
    decide
  · rw [inSection 1 (by decide) 0x101004 (by decide) (by decide)]
    decide
  · rw [outside 0x1000 (by decide)]
    decide

end HvisorUefiPacker
