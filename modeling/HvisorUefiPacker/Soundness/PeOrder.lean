import HvisorUefiPacker.Soundness.PeImage

/-! # The order of the section table

`parse_pe` loads the sections in the order of the table.  Where no section is loaded
over another, over the file, or from the table itself, that order cannot be told from
the result.

* `Reordered` are two memories that differ in the order of one section table.
* `OrderFree` is the layout under which order does not matter.
* `parsePe_order_free`: both give the same value and, outside the table, the same memory.
-/

namespace HvisorUefiPacker

open Interaction ByteMemory

/-! ## The section table as a list of entries -/

section Table

variable (file : Mem) (start : UINTN)

/-- `section_header[i]`, byte by byte. -/
def peEntry (i : Nat) : List Byte :=
  readBytes file (sectionHeaderAt (sectionTableOf file start) i) imageSectionHeader.size

def peEntries : List (List Byte) := (List.range (peSectionCount file start)).map (peEntry file start)

def peTable : Set UINTN :=
  range (sectionTableOf file start) (imageSectionHeader.size * peSectionCount file start)

instance (address : UINTN) : Decidable (address ∈ peTable file start) :=
  inferInstanceAs (Decidable (address ∈ range _ _))

end Table

/-- The same but for the order of the entries of the section table. -/
structure Reordered (first second : Mem) (start : UINTN) : Prop where
  elsewhere : Set.EqOn first second (peTable first start)ᶜ
  entries : (peEntries first start).Perm (peEntries second start)

/-- A 32-bit field of an entry. -/
def entryWord (entry : List Byte) (offset : Nat) : UINT32 :=
  entry.getD (offset + 3) 0 ++ entry.getD (offset + 2) 0 ++ entry.getD (offset + 1) 0 ++
    entry.getD offset 0

def SectionHeader.ofEntry (entry : List Byte) : SectionHeader where
  virtualSize := entryWord entry 8
  virtualAddress := entryWord entry 12
  sizeOfRawData := entryWord entry 16
  pointerToRawData := entryWord entry 20

theorem entryWord_readBytes (memory : Mem) (address : UINTN) {length offset : Nat}
    (bound : offset + 4 ≤ length) :
    entryWord (readBytes memory address length) offset =
      word32 memory (address + BitVec.ofNat 64 offset) := by
  symm
  apply word32_of_cells fun index => (readBytes memory address length).getD (offset + index) 0
  intro index below
  rw [List.getD_eq_getElem?_getD, readBytes_getElem?, if_pos (by omega), BitVec.add_assoc,
    ← BitVec.ofNat_add]
  rfl

theorem sectionHeader_eq_ofEntry (memory : Mem) (address : UINTN) :
    sectionHeader memory address =
      SectionHeader.ofEntry (readBytes memory address imageSectionHeader.size) := by
  have size := imageSectionHeader_size
  have field : ∀ {offset : Nat}, offset + 4 ≤ 40 →
      entryWord (readBytes memory address imageSectionHeader.size) offset =
        word32 memory (address + BitVec.ofNat 64 offset) := fun bound =>
    entryWord_readBytes memory address (size ▸ bound)
  rw [SectionHeader.ofEntry, field (by decide), field (by decide), field (by decide),
    field (by decide)]
  rfl

theorem peSections_eq_ofEntry (file : Mem) (start : UINTN) :
    peSections file start = (peEntries file start).map SectionHeader.ofEntry := by
  rw [peSections, peEntries, List.map_map]
  apply List.map_congr_left
  intro i _
  exact sectionHeader_eq_ofEntry file _

/-! ## The layout -/

/-- The headers are in the file and the table is behind all fields `parse_pe` uses;
    nothing wraps; every section is loaded clear of the file and of every other; no
    section is loaded from the table. -/
structure OrderFree (file : Mem) (start load size : UINTN) : Prop where
  fileFits : start.toNat + size.toNat < 2 ^ 64
  loadValid : 1 ≤ load.toNat
  lfanew : 64 ≤ (word32 file (start + 60)).toNat
  optional : 20 ≤ (word16 file (ntHeaderOf file start + 20)).toNat
  table : tableOffset file start + 40 * peSectionCount file start ≤ size.toNat
  sourceFits : ∀ header ∈ peSections file start,
    start.toNat + header.pointerToRawData.toNat + header.sizeOfRawData.toNat < 2 ^ 64
  destValid : ∀ header ∈ peSections file start,
    load.toNat + header.virtualAddress.toNat < 2 ^ 64
  destFits : ∀ header ∈ peSections file start,
    load.toNat + header.virtualAddress.toNat + header.sizeOfRawData.toNat ≤ 2 ^ 64
  clear : ∀ header ∈ peSections file start,
    Disjoint (header.move start load).target (range start size.toNat)
  apart : (peSections file start).Pairwise fun header other =>
    Disjoint (header.move start load).target (other.move start load).target
  unread : ∀ header ∈ peSections file start,
    Disjoint (header.move start load).source (peTable file start)

instance (file : Mem) (start load size : UINTN) : Decidable (OrderFree file start load size) :=
  decidable_of_iff (_ ∧ _ ∧ _ ∧ _ ∧ _ ∧
      (∀ header ∈ peSections file start, _) ∧ (∀ header ∈ peSections file start, _) ∧
      (∀ header ∈ peSections file start, _) ∧
      (∀ header ∈ peSections file start, Disjoint
        (range (header.move start load).dest (header.move start load).length)
        (range start size.toNat)) ∧
      ((peSections file start).Pairwise fun header other =>
        Disjoint (header.move start load).target (other.move start load).target) ∧
      ∀ header ∈ peSections file start, Disjoint
        (range (header.move start load).src (header.move start load).length)
        (range (sectionTableOf file start)
          (imageSectionHeader.size * peSectionCount file start)))
    ⟨fun ⟨fileFits, loadValid, lfanew, optional, table, sourceFits, destValid, destFits, clear,
        apart, unread⟩ => ⟨fileFits, loadValid, lfanew, optional, table, sourceFits, destValid,
          destFits, clear, apart, unread⟩,
    fun orderFree => ⟨orderFree.fileFits, orderFree.loadValid, orderFree.lfanew,
      orderFree.optional, orderFree.table, orderFree.sourceFits, orderFree.destValid,
      orderFree.destFits, orderFree.clear, orderFree.apart, orderFree.unread⟩⟩

variable {file first second : Mem} {start load size : UINTN}

namespace OrderFree

variable (orderFree : OrderFree file start load size)

include orderFree

theorem toNat_sectionTableOf :
    (sectionTableOf file start).toNat = start.toNat + tableOffset file start := by
  have fits := orderFree.fileFits
  have table := orderFree.table
  have place := toNat_sectionHeaderAt file
    (show start.toNat + tableOffset file start + 40 * 0 < 2 ^ 64 by omega)
  simpa [sectionHeaderAt] using place

theorem move_fits {header : SectionHeader} (member : header ∈ peSections file start) :
    (header.move start load).Fits := by
  have destFits := orderFree.destFits header member
  have sourceFits := orderFree.sourceFits header member
  have dest := header.toNat_dest start (orderFree.destValid header member)
  have src := header.toNat_src load
    (show start.toNat + header.pointerToRawData.toNat < 2 ^ 64 by omega)
  have length : (header.move start load).length = header.sizeOfRawData.toNat := rfl
  constructor
  · omega
  · omega

theorem placed : PePlaced file start load size where
  fileFits := orderFree.fileFits.le
  table := orderFree.table
  destFits := fun _ member => (orderFree.move_fits member).dest
  clear := orderFree.clear

/-- The fields before the table are not in it. -/
theorem above {address : UINTN} {count : Nat}
    (upper : address.toNat + count ≤ start.toNat + tableOffset file start) :
    Inside (peTable file start)ᶜ address count := by
  have fits := orderFree.fileFits
  have table := orderFree.table
  intro index bound inTable
  have place := orderFree.toNat_sectionTableOf
  rw [peTable, mem_range, toNat_add_ofNat (by omega)] at inTable
  omega

/-- An accepted section has its raw data in the file. -/
theorem source_inFile {header : SectionHeader} (member : header ∈ peSections file start)
    (accepted : header.Accepted start size) :
    (header.move start load).source ⊆ range start size.toNat := by
  have sourceFits := orderFree.sourceFits header member
  have inFile := (header.accepted_iff orderFree.fileFits sourceFits).mp accepted
  have src := header.toNat_src load
    (show start.toNat + header.pointerToRawData.toNat < 2 ^ 64 by omega)
  have length : (header.move start load).length = header.sizeOfRawData.toNat := rfl
  intro address inSource
  rw [Move.source, mem_range] at inSource
  rw [mem_range]
  omega

end OrderFree

/-! ## Reordering the table -/

section Reordering

variable (orderFree : OrderFree first start load size) (reordered : Reordered first second start)

include orderFree reordered

/-- Whatever is read before the table is read from both files alike. -/
theorem OrderFree.word16_eq {address : UINTN}
    (upper : address.toNat + 2 ≤ start.toNat + tableOffset first start) :
    word16 second address = word16 first address :=
  word16_congr reordered.elsewhere.symm (orderFree.above upper)

theorem OrderFree.word32_eq {address : UINTN}
    (upper : address.toNat + 4 ≤ start.toNat + tableOffset first start) :
    word32 second address = word32 first address :=
  word32_congr reordered.elsewhere.symm (orderFree.above upper)

theorem OrderFree.ntHeader_eq : ntHeaderOf second start = ntHeaderOf first start := by
  have fits := orderFree.fileFits
  have table := orderFree.table
  have lfanew := orderFree.lfanew
  have offset := lfanew_le_tableOffset first start
  have place : (start + 60).toNat = start.toNat + 60 := @toNat_add_ofNat 64 _ 60 (by omega)
  rw [ntHeaderOf, ntHeaderOf, orderFree.word32_eq reordered (by omega)]

/-- The fields of the NT header that `parse_pe` uses. -/
theorem OrderFree.fields_eq :
    word32 second (ntHeaderOf first start) = word32 first (ntHeaderOf first start) ∧
      word16 second (ntHeaderOf first start + 6) = word16 first (ntHeaderOf first start + 6) ∧
      word16 second (ntHeaderOf first start + 20) = word16 first (ntHeaderOf first start + 20) ∧
      word32 second (ntHeaderOf first start + 40) = word32 first (ntHeaderOf first start + 40) := by
  have fits := orderFree.fileFits
  have table := orderFree.table
  have optional := orderFree.optional
  have offset : tableOffset first start = (word32 first (start + 60)).toNat + 24 +
    (word16 first (ntHeaderOf first start + 20)).toNat := rfl
  have ntHeader := toNat_ntHeaderOf first
    (show start.toNat + (word32 first (start + 60)).toNat < 2 ^ 64 by omega)
  have field : ∀ k : Nat, k ≤ 40 →
      (ntHeaderOf first start + BitVec.ofNat 64 k).toNat = (ntHeaderOf first start).toNat + k :=
    fun k bound => toNat_add_ofNat (by omega)
  have count : (ntHeaderOf first start + 6).toNat = _ := field 6 (by omega)
  have sizeOfOptionalHeader : (ntHeaderOf first start + 20).toNat = _ := field 20 (by omega)
  have entry : (ntHeaderOf first start + 40).toNat = _ := field 40 (by omega)
  refine ⟨?_, ?_, ?_, ?_⟩
  · exact orderFree.word32_eq reordered (by omega)
  · exact orderFree.word16_eq reordered (by omega)
  · exact orderFree.word16_eq reordered (by omega)
  · exact orderFree.word32_eq reordered (by omega)

theorem OrderFree.count_eq : peSectionCount second start = peSectionCount first start := by
  rw [peSectionCount, peSectionCount, orderFree.ntHeader_eq reordered, numberOfSectionsAt,
    numberOfSectionsAt, (orderFree.fields_eq reordered).2.1]

theorem OrderFree.sectionTable_eq : sectionTableOf second start = sectionTableOf first start := by
  rw [sectionTableOf, sectionTableOf, orderFree.ntHeader_eq reordered,
    (orderFree.fields_eq reordered).2.2.1]

omit orderFree in
theorem Reordered.sections : (peSections first start).Perm (peSections second start) := by
  rw [peSections_eq_ofEntry, peSections_eq_ofEntry]
  exact reordered.entries.map _

/-- The reordered file is laid out as the original is. -/
theorem OrderFree.reordered_layout : OrderFree second start load size where
  fileFits := orderFree.fileFits
  loadValid := orderFree.loadValid
  lfanew := by
    have lfanew := orderFree.lfanew
    have fits := orderFree.fileFits
    have table := orderFree.table
    have offset := lfanew_le_tableOffset first start
    have place : (start + 60).toNat = start.toNat + 60 := @toNat_add_ofNat 64 _ 60 (by omega)
    rw [orderFree.word32_eq reordered (by omega)]
    exact lfanew
  optional := by
    rw [orderFree.ntHeader_eq reordered, (orderFree.fields_eq reordered).2.2.1]
    exact orderFree.optional
  table := by
    have fits := orderFree.fileFits
    have table := orderFree.table
    have lfanew := orderFree.lfanew
    have offset := lfanew_le_tableOffset first start
    have place : (start + 60).toNat = start.toNat + 60 := @toNat_add_ofNat 64 _ 60 (by omega)
    rw [tableOffset, orderFree.word32_eq reordered (by omega),
      orderFree.ntHeader_eq reordered, (orderFree.fields_eq reordered).2.2.1,
      orderFree.count_eq reordered]
    exact table
  sourceFits := fun header member =>
    orderFree.sourceFits header (reordered.sections.mem_iff.mpr member)
  destValid := fun header member =>
    orderFree.destValid header (reordered.sections.mem_iff.mpr member)
  destFits := fun header member =>
    orderFree.destFits header (reordered.sections.mem_iff.mpr member)
  clear := fun header member => orderFree.clear header (reordered.sections.mem_iff.mpr member)
  apart := (reordered.sections.pairwise_iff fun disjoint => disjoint.symm).mp orderFree.apart
  unread := fun header member => by
    rw [peTable, orderFree.sectionTable_eq reordered, orderFree.count_eq reordered]
    exact orderFree.unread header (reordered.sections.mem_iff.mpr member)

omit orderFree in
/-- Both runs load all sections, or neither does. -/
theorem Reordered.loads_eq :
    (loadAll start load size (peSections first start) first).1 =
      (loadAll start load size (peSections second start) second).1 := by
  rw [Bool.eq_iff_iff, loadAll_accepts, loadAll_accepts]
  exact ⟨fun accepted header member => accepted header (reordered.sections.mem_iff.mpr member),
    fun accepted header member => accepted header (reordered.sections.mem_iff.mp member)⟩

end Reordering

/-- What memory holds after all sections of a file were accepted. -/
theorem OrderFree.loadAll_memory (orderFree : OrderFree file start load size)
    (accepted : ∀ header ∈ peSections file start, header.Accepted start size) :
    replay file (loadAll start load size (peSections file start) file).2 =
      moveAll file (copies start load (peSections file start)) :=
  loadAll_moves _ _ (fun _ member => orderFree.move_fits member)
    (fun header member =>
      header.dest_ne_zero start orderFree.loadValid (orderFree.destValid header member))
    accepted

/-- The two files leave the same memory outside the table. -/
theorem OrderFree.memory_eq (orderFree : OrderFree first start load size)
    (reordered : Reordered first second start)
    (accepted : ∀ header ∈ peSections first start, header.Accepted start size) {address : UINTN}
    (outside : address ∉ peTable first start) :
    moveAll first (copies start load (peSections first start)) address =
      moveAll second (copies start load (peSections second start)) address := by
  have member : ∀ move ∈ copies start load (peSections first start),
      ∃ header ∈ peSections first start, move = header.move start load := by
    intro move inCopies
    obtain ⟨header, inTable, same⟩ := List.mem_map.mp (List.mem_filter.mp inCopies).1
    exact ⟨header, inTable, same.symm⟩
  have fits : ∀ move ∈ copies start load (peSections first start), move.Fits := by
    intro move inCopies
    obtain ⟨header, inTable, rfl⟩ := member move inCopies
    exact orderFree.move_fits inTable
  have apart : (copies start load (peSections first start)).Pairwise
      fun move other => Disjoint move.target other.target := by
    apply List.Pairwise.filter
    rw [List.pairwise_map]
    exact orderFree.apart
  have clear : ∀ move ∈ copies start load (peSections first start),
      ∀ other ∈ copies start load (peSections first start),
        Disjoint move.target other.source := by
    intro move inCopies other otherInCopies
    obtain ⟨header, inTable, rfl⟩ := member move inCopies
    obtain ⟨otherHeader, otherInTable, rfl⟩ := member other otherInCopies
    exact (orderFree.clear header inTable).mono_right
      (orderFree.source_inFile otherInTable (accepted otherHeader otherInTable))
  have permuted : (copies start load (peSections first start)).Perm
      (copies start load (peSections second start)) :=
    (reordered.sections.map _).filter _
  apply moveAll_perm fits apart clear permuted _ (reordered.elsewhere outside)
  intro move inCopies
  obtain ⟨header, inTable, rfl⟩ := member move inCopies
  exact reordered.elsewhere.mono fun cell inSource inPeTable =>
    Set.disjoint_left.mp (orderFree.unread header inTable) inSource inPeTable

/-! ## The result -/

/-- The same value and, if it is an entry point, the same memory outside the table. -/
def SameOutside (table : Set UINTN) (left right : PeResult) : Prop :=
  left.value = right.value ∧
    (left.value ≠ 0 → ∀ address ∉ table, left.memory address = right.memory address)

variable {σ : Type} {firmware : Firmware σ}

/-- The order of the section table does not matter. -/
theorem parsePe_order_free (keeps : PrintKeepsMemory firmware) (state : σ)
    (orderFree : OrderFree first start load size) (reordered : Reordered first second start) :
    PeRuns firmware state start load size first second
      (SameOutside (peTable first start)) := by
  have fits := orderFree.fileFits
  have offset := lfanew_le_tableOffset first start
  have table := orderFree.table
  obtain ⟨signature, _, _, entryPoint⟩ := orderFree.fields_eq reordered
  have magic : word16 second start = word16 first start :=
    orderFree.word16_eq reordered (by omega)
  have entry : entryOf second start load = entryOf first start load := by
    rw [entryOf, entryOf, orderFree.ntHeader_eq reordered, entryPoint]
  have firstRun : sectionsRun (ntHeaderOf first start) (sectionTableOf first start) start load size
      0 first = loadAll start load size (peSections first start) first :=
    sectionsRun_eq_loadAll orderFree.placed (Set.eqOn_refl _ _)
  have secondRun : sectionsRun (ntHeaderOf second start) (sectionTableOf second start) start load
      size 0 second = loadAll start load size (peSections second start) second :=
    sectionsRun_eq_loadAll (orderFree.reordered_layout reordered).placed (Set.eqOn_refl _ _)
  rw [peRuns_iff keeps, SameOutside, parsePeResult, parsePeResult, parsePeRun, parsePeRun,
    firstRun, secondRun, magic, orderFree.ntHeader_eq reordered, signature]
  by_cases signatures : word16 first start = imageDosSignature ∧
      word32 first (ntHeaderOf first start) = imageNtSignature
  · rw [if_pos signatures, if_pos signatures]
    dsimp only
    rw [← reordered.loads_eq, entry]
    refine ⟨rfl, fun loaded address outside => ?_⟩
    have ended : (loadAll start load size (peSections first start) first).1 = true := by
      by_contra refused
      exact loaded (if_neg refused)
    have accepted := (loadAll_accepts _ _).mp ended
    have secondAccepted : ∀ header ∈ peSections second start, header.Accepted start size :=
      fun header member => accepted header (reordered.sections.mem_iff.mpr member)
    rw [orderFree.loadAll_memory accepted,
      (orderFree.reordered_layout reordered).loadAll_memory secondAccepted]
    exact orderFree.memory_eq reordered accepted outside
  · rw [if_neg signatures, if_neg signatures]
    exact ⟨rfl, fun accepted => absurd rfl accepted⟩

/-- The small image with its second section moved off the first. -/
def apartImage : List (Nat × Byte) := (365, 0x20) :: smallImage

/-- Its two entries, the other way round. -/
def swappedMemory : Mem :=
  writeBytes (sparseMemory 0x1000 apartImage) 0x1138
    (peEntry (sparseMemory 0x1000 apartImage) 0x1000 1 ++
      peEntry (sparseMemory 0x1000 apartImage) 0x1000 0)

/-- Both files are accepted, and the first byte of the first section has been loaded. -/
theorem parsePe_order_free_swapped :
    PeRuns (plainFirmware 0 efiSuccess) () 0x1000 0x100000 400 (sparseMemory 0x1000 apartImage)
      swappedMemory (fun left right =>
        SameOutside (peTable (sparseMemory 0x1000 apartImage) 0x1000) left right ∧
          right.value = 0x101000 ∧ right.memory 0x101002 = 0x33) := by
  have keeps := (plainFirmware_keeps 0 efiSuccess).print
  have table : peTable (sparseMemory 0x1000 apartImage) 0x1000 = range 0x1138 80 := by
    have place : sectionTableOf (sparseMemory 0x1000 apartImage) 0x1000 = 0x1138 := by decide
    have count : peSectionCount (sparseMemory 0x1000 apartImage) 0x1000 = 2 := by decide
    rw [peTable, place, count, imageSectionHeader_size]
  have reordered : Reordered (sparseMemory 0x1000 apartImage) swappedMemory 0x1000 := by
    constructor
    · intro address outside
      rw [table] at outside
      have length : (peEntry (sparseMemory 0x1000 apartImage) 0x1000 1 ++
          peEntry (sparseMemory 0x1000 apartImage) 0x1000 0).length = 80 := by
        rw [List.length_append, peEntry, peEntry, readBytes_length, readBytes_length,
          imageSectionHeader_size]
      have fits : (0x1138 : UINTN).toNat + 80 ≤ 2 ^ 64 := by decide
      rw [← length] at outside fits
      rw [swappedMemory, writeBytes_outside fits outside]
    · have entries : peEntries (sparseMemory 0x1000 apartImage) 0x1000 =
          [peEntry (sparseMemory 0x1000 apartImage) 0x1000 0,
            peEntry (sparseMemory 0x1000 apartImage) 0x1000 1] := by
        decide +kernel
      have swapped : peEntries swappedMemory 0x1000 =
          [peEntry (sparseMemory 0x1000 apartImage) 0x1000 1,
            peEntry (sparseMemory 0x1000 apartImage) 0x1000 0] := by
        decide +kernel
      rw [entries, swapped]
      exact List.Perm.swap _ _ []
  have orderFree : OrderFree (sparseMemory 0x1000 apartImage) 0x1000 0x100000 400 := by decide
  have loaded : (parsePeResult 0x1000 0x100000 400 (sparseMemory 0x1000 apartImage)).value =
      0x101000 ∧
      (parsePeResult 0x1000 0x100000 400 (sparseMemory 0x1000 apartImage)).memory 0x101002 =
        0x33 := by
    decide +kernel
  generalize swappedMemory = second at reordered ⊢
  have same := parsePe_order_free keeps () orderFree reordered
  rw [peRuns_iff keeps] at same ⊢
  have outside : (0x101002 : UINTN) ∉ peTable (sparseMemory 0x1000 apartImage) 0x1000 := by
    rw [table]
    decide
  have accepted : (parsePeResult 0x1000 0x100000 400 (sparseMemory 0x1000 apartImage)).value ≠ 0 := by
    rw [loaded.1]
    decide
  exact ⟨same, same.1.symm.trans loaded.1, (same.2 accepted _ outside).symm.trans loaded.2⟩

end HvisorUefiPacker
