import HvisorUefiPacker.Soundness.PeImage

/-! # What parse_pe reads

No offset that `parse_pe` takes from the file is compared with the size of the
file, so a short file sends it beyond its end.

* `PeConfined` is a run that stays in the file: every field and every byte of raw
  data it reads lies there.
* `parsePeRun_congr`: such a run is decided by the file.
* The rest shows that nothing less will do for all files of a size: below
  `peReach` bytes, or where the bounds check can wrap, some file has a second run
  that ends differently.
-/

namespace HvisorUefiPacker

open Interaction ByteMemory

/-! ## Runs that stay in the file -/

/-- From round `i` on, every count, header and byte of raw data the section loop
    reads lies in the file. -/
def SectionsConfined (ntHeader table start load size : UINTN) : Nat → Nat → Mem → Prop
  | 0, _, _ => True
  | fuel + 1, i, memory =>
    Inside (range start size.toNat) (ntHeader + 6) 2 ∧
      (i < numberOfSectionsAt memory ntHeader →
        let header := sectionHeader memory (sectionHeaderAt table i)
        Inside (range start size.toNat) (sectionHeaderAt table i) 24 ∧
          (header.Accepted start size →
            Inside (range start size.toNat) (header.move start load).src
                (header.move start load).length ∧
              SectionsConfined ntHeader table start load size fuel (i + 1)
                (replay memory (header.log start load memory))))

/-- Every read `parse_pe` makes for its result lies in the file. -/
structure PeConfined (memory : Mem) (start load size : UINTN) : Prop where
  magic : Inside (range start size.toNat) start 2
  lfanew : word16 memory start = imageDosSignature →
    Inside (range start size.toNat) (start + 60) 4
  signature : word16 memory start = imageDosSignature →
    Inside (range start size.toNat) (ntHeaderOf memory start) 4
  headers : word16 memory start = imageDosSignature →
    word32 memory (ntHeaderOf memory start) = imageNtSignature →
    Inside (range start size.toNat) (ntHeaderOf memory start + 20) 2 ∧
      Inside (range start size.toNat) (ntHeaderOf memory start + 40) 4
  sections : word16 memory start = imageDosSignature →
    word32 memory (ntHeaderOf memory start) = imageNtSignature →
    SectionsConfined (ntHeaderOf memory start) (sectionTableOf memory start) start load size 65536
      0 memory

variable {first second : Mem} {start load size : UINTN}

theorem SectionHeader.log_congr {header : SectionHeader} {cells : Set UINTN}
    (agree : Set.EqOn first second cells)
    (inside : Inside cells (header.move start load).src (header.move start load).length) :
    header.log start load first = header.log start load second := by
  apply copyLog_congr
  intro index bound
  rw [header.toNat_length start load] at bound
  exact agree (inside index bound)

/-- A section loop that stays in the file makes the stores the file tells it to. -/
theorem sectionsRunFuel_congr {ntHeader table : UINTN} (fuel i : Nat)
    (agree : Set.EqOn first second (range start size.toNat))
    (confined : SectionsConfined ntHeader table start load size fuel i first) :
    sectionsRunFuel ntHeader table start load size fuel i first =
      sectionsRunFuel ntHeader table start load size fuel i second := by
  induction fuel generalizing i first second with
  | zero => rfl
  | succ fuel inductionHypothesis =>
    obtain ⟨countInside, round⟩ := confined
    rw [sectionsRunFuel, sectionsRunFuel, ← numberOfSectionsAt_congr agree countInside]
    by_cases more : i < numberOfSectionsAt first ntHeader
    · obtain ⟨headerInside, rest⟩ := round more
      rw [if_pos more, if_pos more, ← sectionHeader_congr agree headerInside]
      by_cases accepted : (sectionHeader first (sectionHeaderAt table i)).Accepted start size
      · obtain ⟨dataInside, later⟩ := rest accepted
        simp only [if_pos accepted]
        rw [← SectionHeader.log_congr agree dataInside]
        rw [inductionHypothesis (i + 1) (fun address inFile => replay_congr _ (agree inFile)) later]
      · simp only [if_neg accepted]
    · rw [if_neg more, if_neg more]

/-- A run that stays in the file is decided by the file. -/
theorem parsePeRun_congr (agree : Set.EqOn first second (range start size.toNat))
    (confined : PeConfined first start load size) :
    parsePeRun start load size first = parsePeRun start load size second := by
  rw [parsePeRun, parsePeRun, ← word16_congr agree confined.magic]
  by_cases magic : word16 first start = imageDosSignature
  · have ntHeader : ntHeaderOf second start = ntHeaderOf first start := by
      rw [ntHeaderOf, ntHeaderOf, word32_congr agree (confined.lfanew magic)]
    rw [ntHeader, ← word32_congr agree (confined.signature magic)]
    by_cases signature : word32 first (ntHeaderOf first start) = imageNtSignature
    · obtain ⟨optionalInside, entryInside⟩ := confined.headers magic signature
      have table : sectionTableOf second start = sectionTableOf first start := by
        rw [sectionTableOf, sectionTableOf, ntHeader, word16_congr agree optionalInside]
      have entry : entryOf second start load = entryOf first start load := by
        rw [entryOf, entryOf, ntHeader, word32_congr agree entryInside]
      have sections :
          sectionsRun (ntHeaderOf first start) (sectionTableOf first start) start load size 0 first =
            sectionsRun (ntHeaderOf first start) (sectionTableOf first start) start load size 0
              second :=
        sectionsRunFuel_congr 65536 0 agree (confined.sections magic signature)
      rw [if_pos ⟨magic, signature⟩, if_pos ⟨magic, signature⟩, table, entry, sections]
    · rw [if_neg fun both => signature both.2, if_neg fun both => signature both.2]
  · rw [if_neg fun both => magic both.1, if_neg fun both => magic both.1]

/-! ## Well-formed files -/

/-- The section loop of a file that keeps to `PeLayout` stays in it. -/
theorem PeLayout.sectionsConfined {file : Mem} (layout : PeLayout file start load size)
    (fuel i : Nat) {memory : Mem} (agree : Set.EqOn memory file (range start size.toNat)) :
    SectionsConfined (ntHeaderOf file start) (sectionTableOf file start) start load size fuel i
      memory := by
  have fits := layout.fileFits
  induction fuel generalizing i memory with
  | zero => trivial
  | succ fuel inductionHypothesis =>
    refine ⟨layout.placed.countInside, fun more => ?_⟩
    rw [numberOfSectionsAt_congr agree layout.placed.countInside, ← peSectionCount] at more
    have header : sectionHeader memory (sectionHeaderAt (sectionTableOf file start) i) =
        peSection file start i := sectionHeader_congr agree (layout.placed.headerInside more)
    refine ⟨layout.placed.headerInside more, ?_⟩
    rw [header]
    intro accepted
    refine ⟨?_, inductionHypothesis (i + 1) (layout.placed.agree_after agree more)⟩
    have inFile := ((peSection file start i).accepted_iff (by omega)
      ((peSection file start i).source_fits (by omega))).mp accepted
    have src := (peSection file start i).toNat_src load
      (show start.toNat + (peSection file start i).pointerToRawData.toNat < 2 ^ 64 by omega)
    have length : ((peSection file start i).move start load).length =
        (peSection file start i).sizeOfRawData.toNat := rfl
    apply inside_range
    · omega
    · omega
    · omega

/-- With the fixed headers in the file as well, the whole run stays in it. -/
theorem PeLayout.confined {file : Mem} (layout : PeLayout file start load size)
    (dosHeader : 64 ≤ size.toNat)
    (ntHeader : (word32 file (start + 60)).toNat + 44 ≤ size.toNat) :
    PeConfined file start load size := by
  have fits := layout.fileFits
  have place := toNat_ntHeaderOf file
    (show start.toNat + (word32 file (start + 60)).toNat < 2 ^ 64 by omega)
  have dosInside : Inside (range start size.toNat) start 64 :=
    inside_range (by omega) (le_refl _) (by omega)
  have ntInside : Inside (range start size.toNat) (ntHeaderOf file start) 44 :=
    inside_range (by omega) (by omega) (by omega)
  constructor
  · exact fun index bound => dosInside index (by omega)
  · exact fun _ => dosInside.field (show 60 + 4 ≤ 64 by omega)
  · exact fun _ index bound => ntInside index (by omega)
  · exact fun _ _ => ⟨ntInside.field (show 20 + 2 ≤ 44 by omega),
      ntInside.field (show 40 + 4 ≤ 44 by omega)⟩
  · exact fun _ _ => layout.sectionsConfined _ _ (Set.eqOn_refl _ _)

/-! ## Large files -/

/-- No offset in a file leads the headers farther than this: `e_lfanew`, the NT
    headers, `SizeOfOptionalHeader` and 65534 section headers before the last, each
    field at its largest. -/
def peReach : Nat := (2 ^ 32 - 1) + 24 + 65535 + 40 * 65534 + 24

/-- The sum in the bounds check of a section cannot wrap. -/
def SumsFit (start : UINTN) : Prop := start.toNat + (2 ^ 33 - 2) < 2 ^ 64

theorem tableOffset_le (memory : Mem) (start : UINTN) {i : Nat} (bound : i < 65535) :
    tableOffset memory start + 40 * i + 24 ≤ peReach := by
  have lfanew := (word32 memory (start + 60)).isLt
  have optional := (word16 memory (ntHeaderOf memory start + 20)).isLt
  rw [tableOffset, peReach]
  omega

theorem ntHeader_inside (memory : Mem) (fits : start.toNat + size.toNat < 2 ^ 64)
    (large : peReach ≤ size.toNat) : Inside (range start size.toNat) (ntHeaderOf memory start) 44 := by
  have lfanew := (word32 memory (start + 60)).isLt
  rw [peReach] at large
  have ntHeader := toNat_ntHeaderOf memory
    (show start.toNat + (word32 memory (start + 60)).toNat < 2 ^ 64 by omega)
  apply inside_range
  · omega
  · omega
  · omega

theorem data_inside (header : SectionHeader) (fits : start.toNat + size.toNat < 2 ^ 64)
    (sums : SumsFit start) (accepted : header.Accepted start size) :
    Inside (range start size.toNat) (header.move start load).src
      (header.move start load).length := by
  have pointer := header.pointerToRawData.isLt
  have length := header.sizeOfRawData.isLt
  rw [SumsFit] at sums
  rw [SectionHeader.Accepted, BitVec.le_def] at accepted
  simp only [BitVec.toNat_add, BitVec.toNat_setWidth] at accepted
  apply inside_range
  · omega
  · simp only [SectionHeader.move, BitVec.toNat_add, BitVec.toNat_setWidth]
    omega
  · simp only [SectionHeader.move, BitVec.toNat_add, BitVec.toNat_setWidth]
    omega

theorem sectionsConfined_of_large (file : Mem) (fits : start.toNat + size.toNat < 2 ^ 64)
    (large : peReach ≤ size.toNat) (sums : SumsFit start) (fuel i : Nat) (memory : Mem) :
    SectionsConfined (ntHeaderOf file start) (sectionTableOf file start) start load size fuel i
      memory := by
  induction fuel generalizing i memory with
  | zero => trivial
  | succ fuel inductionHypothesis =>
    refine ⟨(ntHeader_inside file fits large).field (show 6 + 2 ≤ 44 by omega), fun more => ?_⟩
    have count : numberOfSectionsAt memory (ntHeaderOf file start) < 65536 := BitVec.isLt _
    have offset := tableOffset_le file start (show i < 65535 by omega)
    have place := toNat_sectionHeaderAt file
      (show start.toNat + tableOffset file start + 40 * i < 2 ^ 64 by omega)
    refine ⟨inside_range (by omega) (by omega) (by omega), fun accepted => ?_⟩
    exact ⟨data_inside _ fits sums accepted, inductionHypothesis _ _⟩

/-- In a file that large every run stays in the file. -/
theorem peConfined_of_large (memory : Mem) (fits : start.toNat + size.toNat < 2 ^ 64)
    (large : peReach ≤ size.toNat) (sums : SumsFit start) :
    PeConfined memory start load size := by
  have ntHeader := ntHeader_inside memory fits large
  have enough : 64 ≤ size.toNat := by
    rw [peReach] at large
    omega
  have dosHeader : Inside (range start size.toNat) start 64 :=
    inside_range (by omega) (le_refl _) (by omega)
  constructor
  · exact fun index bound => dosHeader index (by omega)
  · exact fun _ => dosHeader.field (show 60 + 4 ≤ 64 by omega)
  · exact fun _ index bound => ntHeader index (by omega)
  · exact fun _ _ => ⟨ntHeader.field (show 20 + 2 ≤ 44 by omega),
      ntHeader.field (show 40 + 4 ≤ 44 by omega)⟩
  · exact fun _ _ => sectionsConfined_of_large memory fits large sums _ _ _

/-! ## Files that lead the run out

A file is given by `e_lfanew` and what follows from there on. -/

/-- The byte at an offset: a DOS header up to `lfanew`, then `tail`. -/
def peBytes (lfanew : UINT32) (tail : Nat → Byte) (offset : Nat) : Byte :=
  if lfanew.toNat ≤ offset then tail (offset - lfanew.toNat)
  else if offset = 0 then 0x4D
  else if offset = 1 then 0x5A
  else if 60 ≤ offset ∧ offset < 64 then lfanew.extractLsb' (8 * (offset - 60)) 8
  else 0

def peMemory (start : UINTN) (lfanew : UINT32) (tail : Nat → Byte) : Mem :=
  fun address => peBytes lfanew tail (address - start).toNat

section Files

variable {lfanew : UINT32} {tail : Nat → Byte}

theorem peMemory_offset {offset : Nat} (fits : offset < 2 ^ 64) :
    peMemory start lfanew tail (start + BitVec.ofNat 64 offset) = peBytes lfanew tail offset := by
  have distance : start + BitVec.ofNat 64 offset - start = BitVec.ofNat 64 offset := by
    rw [BitVec.add_comm, BitVec.add_sub_cancel]
  rw [peMemory, distance, BitVec.toNat_ofNat, Nat.mod_eq_of_lt fits]

theorem peMemory_tail {offset : Nat} (fits : offset < 2 ^ 63) :
    peMemory start lfanew tail (start + lfanew.setWidth 64 + BitVec.ofNat 64 offset) =
      tail offset := by
  have bound := lfanew.isLt
  have wide : lfanew.setWidth 64 = BitVec.ofNat 64 lfanew.toNat := by
    rw [BitVec.ofNat_toNat]
  rw [wide, BitVec.add_assoc, ← BitVec.ofNat_add, peMemory_offset (by omega), peBytes,
    if_pos (by omega), Nat.add_sub_cancel_left]

theorem word16_tail {offset : Nat} (fits : offset + 2 ≤ 2 ^ 63) :
    word16 (peMemory start lfanew tail) (start + lfanew.setWidth 64 + BitVec.ofNat 64 offset) =
      tail (offset + 1) ++ tail offset := by
  refine word16_of_cells (fun index => tail (offset + index)) fun index bound => ?_
  rw [BitVec.add_assoc _ (BitVec.ofNat 64 offset), ← BitVec.ofNat_add, peMemory_tail (by omega)]

theorem word32_tail {offset : Nat} (fits : offset + 4 ≤ 2 ^ 63) :
    word32 (peMemory start lfanew tail) (start + lfanew.setWidth 64 + BitVec.ofNat 64 offset) =
      tail (offset + 3) ++ tail (offset + 2) ++ tail (offset + 1) ++ tail offset := by
  refine word32_of_cells (fun index => tail (offset + index)) fun index bound => ?_
  rw [BitVec.add_assoc _ (BitVec.ofNat 64 offset), ← BitVec.ofNat_add, peMemory_tail (by omega)]

theorem peMemory_magic (clear : 64 ≤ lfanew.toNat) :
    word16 (peMemory start lfanew tail) start = imageDosSignature := by
  have cells : word16 (peMemory start lfanew tail) start = _ :=
    word16_of_cells (peBytes lfanew tail) fun index bound => peMemory_offset (by omega)
  have first : peBytes lfanew tail 0 = 0x4D := by rw [peBytes, if_neg (by omega), if_pos rfl]
  have second : peBytes lfanew tail 1 = 0x5A := by
    rw [peBytes, if_neg (by omega), if_neg (by omega), if_pos rfl]
  rw [cells, first, second]
  rfl

theorem peMemory_lfanew (clear : 64 ≤ lfanew.toNat) :
    word32 (peMemory start lfanew tail) (start + 60) = lfanew := by
  have cells : word32 (peMemory start lfanew tail) (start + BitVec.ofNat 64 60) = _ :=
    word32_of_cells (fun index => lfanew.extractLsb' (8 * index) 8) fun index bound => by
      rw [BitVec.add_assoc, ← BitVec.ofNat_add, peMemory_offset (by omega), peBytes,
        if_neg (by omega), if_neg (by omega), if_neg (by omega), if_pos (by omega),
        Nat.add_sub_cancel_left]
  apply cells.trans
  rw [BitVec.extractLsb'_append_extractLsb'_eq_extractLsb' (by omega),
    BitVec.extractLsb'_append_extractLsb'_eq_extractLsb' (by omega),
    BitVec.extractLsb'_append_extractLsb'_eq_extractLsb' (by omega)]
  exact BitVec.extractLsb'_eq_self

theorem peMemory_ntHeader (clear : 64 ≤ lfanew.toNat) :
    ntHeaderOf (peMemory start lfanew tail) start = start + lfanew.setWidth 64 := by
  rw [ntHeaderOf, peMemory_lfanew clear]

/-- Tails that only differ beyond the end of the file give memories that agree on it. -/
theorem peMemory_eqOn {other : Nat → Byte} (fits : start.toNat + size.toNat < 2 ^ 64)
    (same : ∀ offset, lfanew.toNat + offset < size.toNat → tail offset = other offset) :
    Set.EqOn (peMemory start lfanew tail) (peMemory start lfanew other)
      (range start size.toNat) := by
  intro address inFile
  rw [mem_range_iff_sub (by omega)] at inFile
  unfold peMemory peBytes
  by_cases beyond : lfanew.toNat ≤ (address - start).toNat
  · rw [if_pos beyond, if_pos beyond]
    exact same _ (by omega)
  · rw [if_neg beyond, if_neg beyond]

theorem peMemory_signature (clear : 64 ≤ lfanew.toNat) (first : tail 0 = 0x50)
    (second : tail 1 = 0x45) (third : tail 2 = 0) (fourth : tail 3 = 0) :
    word32 (peMemory start lfanew tail) (ntHeaderOf (peMemory start lfanew tail) start) =
      imageNtSignature := by
  have field := @word32_tail start lfanew tail 0 (by omega)
  rw [BitVec.add_zero] at field
  rw [peMemory_ntHeader clear, field, first, second, third, fourth]
  decide

/-- The 32-bit field at an offset of the tail. -/
def tailWord (tail : Nat → Byte) (offset : Nat) : UINT32 :=
  tail (offset + 3) ++ tail (offset + 2) ++ tail (offset + 1) ++ tail offset

theorem sectionHeader_tail {offset : Nat} (fits : offset + 24 ≤ 2 ^ 63) :
    sectionHeader (peMemory start lfanew tail)
        (start + lfanew.setWidth 64 + BitVec.ofNat 64 offset) =
      ⟨tailWord tail (offset + 8), tailWord tail (offset + 12), tailWord tail (offset + 16),
        tailWord tail (offset + 20)⟩ := by
  have field : ∀ inner, inner + 4 ≤ 24 →
      word32 (peMemory start lfanew tail)
          (start + lfanew.setWidth 64 + BitVec.ofNat 64 offset + BitVec.ofNat 64 inner) =
        tailWord tail (offset + inner) := by
    intro inner bound
    rw [BitVec.add_assoc _ (BitVec.ofNat 64 offset), ← BitVec.ofNat_add]
    exact word32_tail (by omega)
  unfold sectionHeader
  rw [SectionHeader.mk.injEq]
  exact ⟨field 8 (by omega), field 12 (by omega), field 16 (by omega), field 20 (by omega)⟩

theorem sectionHeaderAt_tail (clear : 64 ≤ lfanew.toNat) (i : Nat) :
    sectionHeaderAt (sectionTableOf (peMemory start lfanew tail) start) i =
      start + lfanew.setWidth 64 +
        BitVec.ofNat 64 (24 + (tail 21 ++ tail 20).toNat + 40 * i) := by
  have optional : word16 (peMemory start lfanew tail) (start + lfanew.setWidth 64 + 20) =
      tail 21 ++ tail 20 := @word16_tail start lfanew tail 20 (by omega)
  have wide : (tail 21 ++ tail 20).setWidth 64 = BitVec.ofNat 64 (tail 21 ++ tail 20).toNat := by
    rw [BitVec.ofNat_toNat]
  rw [sectionHeaderAt, sectionTableOf, imageSectionHeader_size, peMemory_ntHeader clear, optional,
    wide, BitVec.ofNat_add, BitVec.ofNat_add, ← BitVec.add_assoc, ← BitVec.add_assoc]
  rfl

theorem numberOfSections_tail (clear : 64 ≤ lfanew.toNat) :
    numberOfSectionsAt (peMemory start lfanew tail)
        (ntHeaderOf (peMemory start lfanew tail) start) = (tail 7 ++ tail 6).toNat := by
  have count : word16 (peMemory start lfanew tail) (start + lfanew.setWidth 64 + 6) =
      tail 7 ++ tail 6 := @word16_tail start lfanew tail 6 (by omega)
  rw [numberOfSectionsAt, peMemory_ntHeader clear, count]

end Files

theorem parsePeRun_headers {memory : Mem} (magic : word16 memory start = imageDosSignature)
    (signature : word32 memory (ntHeaderOf memory start) = imageNtSignature) :
    parsePeRun start load size memory =
      (let sections := sectionsRun (ntHeaderOf memory start) (sectionTableOf memory start) start
        load size 0 memory
      (if sections.1 then entryOf memory start load else 0, sections.2)) :=
  if_pos ⟨magic, signature⟩

/-! ### The entry point beyond the end -/

/-- No sections, and `AddressOfEntryPoint` is `value`. -/
def entryTail (value : Byte) (offset : Nat) : Byte :=
  if offset = 0 then 0x50
  else if offset = 1 then 0x45
  else if offset = 40 then value
  else 0

theorem parsePeRun_entryTail {lfanew : UINT32} (clear : 64 ≤ lfanew.toNat) (value : Byte) :
    parsePeRun start load size (peMemory start lfanew (entryTail value)) =
      ((tailWord (entryTail value) 40).setWidth 64 + load, []) := by
  have count : numberOfSectionsAt (peMemory start lfanew (entryTail value))
      (ntHeaderOf (peMemory start lfanew (entryTail value)) start) = 0 := by
    have low : entryTail value 6 = 0 := rfl
    have high : entryTail value 7 = 0 := rfl
    rw [numberOfSections_tail clear, low, high]
    decide
  have entry : entryOf (peMemory start lfanew (entryTail value)) start load =
      (tailWord (entryTail value) 40).setWidth 64 + load := by
    rw [entryOf, peMemory_ntHeader clear]
    exact congrArg (fun field => BitVec.setWidth 64 field + load)
      (@word32_tail start lfanew (entryTail value) 40 (by omega))
  have sections : sectionsRun (ntHeaderOf (peMemory start lfanew (entryTail value)) start)
      (sectionTableOf (peMemory start lfanew (entryTail value)) start) start load size 0
      (peMemory start lfanew (entryTail value)) = (true, []) := by
    rw [sectionsRun, sectionsRunFuel, count]
    rfl
  rw [parsePeRun_headers (peMemory_magic clear) (peMemory_signature clear rfl rfl rfl rfl),
    sections, entry]
  rfl

/-- The two files differ in the first byte of the entry point. -/
theorem escapes_by_entry (fits : start.toNat + size.toNat < 2 ^ 64)
    (small : size.toNat < 2 ^ 32 + 40) :
    ∃ load first second, Set.EqOn first second (range start size.toNat) ∧
      parsePeRun start load size first ≠ parsePeRun start load size second := by
  let lfanew : UINT32 := BitVec.ofNat 32 (max 64 (size.toNat - 40))
  have place : lfanew.toNat = max 64 (size.toNat - 40) :=
    Nat.mod_eq_of_lt (show max 64 (size.toNat - 40) < 2 ^ 32 by omega)
  refine ⟨1, peMemory start lfanew (entryTail 0), peMemory start lfanew (entryTail 1), ?_, ?_⟩
  · apply peMemory_eqOn fits
    intro offset inFile
    have elsewhere : offset ≠ 40 := by omega
    simp only [entryTail, if_neg elsewhere]
  · rw [parsePeRun_entryTail (by omega), parsePeRun_entryTail (by omega)]
    intro same
    exact absurd (congrArg Prod.fst same) (by decide)

/-! ### The last section header beyond the end -/

/-- The section header whose fields are all 0. -/
def emptySection : SectionHeader := ⟨0, 0, 0, 0⟩

theorem accepted_empty (start size : UINTN) (fits : start.toNat + size.toNat < 2 ^ 64) :
    emptySection.Accepted start size := by
  have zero : (0 : UINT32).setWidth 64 = (0 : UINTN) := rfl
  rw [SectionHeader.Accepted, emptySection, BitVec.le_def, BitVec.toNat_add_of_lt fits, zero,
    add_zero, add_zero]
  exact Nat.le_add_right _ _

/-- Empty sections are passed over. -/
theorem sectionsRunFuel_skip {ntHeader table : UINTN} {memory : Mem}
    (fits : start.toNat + size.toNat < 2 ^ 64) (rounds fuel i : Nat)
    (empty : ∀ j, i ≤ j → j < i + rounds →
      j < numberOfSectionsAt memory ntHeader ∧
        sectionHeader memory (sectionHeaderAt table j) = emptySection) :
    sectionsRunFuel ntHeader table start load size (fuel + rounds) i memory =
      sectionsRunFuel ntHeader table start load size fuel (i + rounds) memory := by
  induction rounds generalizing i with
  | zero => rfl
  | succ rounds inductionHypothesis =>
    obtain ⟨more, header⟩ := empty i (le_refl i) (by omega)
    have log : emptySection.log start load memory = [] := copyLog_zero memory _ _
    rw [← Nat.add_assoc, sectionsRunFuel, if_pos more]
    simp only [header, if_pos (accepted_empty start size fits), log]
    rw [show i + (rounds + 1) = i + 1 + rounds by omega]
    exact inductionHypothesis (i + 1) fun j lower upper => empty j (by omega) (by omega)

/-- The first section with raw data makes the first stores. -/
theorem stores_of_first {ntHeader table : UINTN} {memory : Mem} {header : SectionHeader}
    (fits : start.toNat + size.toNat < 2 ^ 64) {rounds : Nat}
    (more : rounds < numberOfSectionsAt memory ntHeader)
    (empty : ∀ i < rounds, sectionHeader memory (sectionHeaderAt table i) = emptySection)
    (first : sectionHeader memory (sectionHeaderAt table rounds) = header)
    (accepted : header.Accepted start size) :
    ∃ rest, (sectionsRun ntHeader table start load size 0 memory).2 =
      header.log start load memory ++ rest := by
  have count : numberOfSectionsAt memory ntHeader < 65536 := BitVec.isLt _
  obtain ⟨fuel, enough⟩ : ∃ fuel, 65536 - 0 = fuel + 1 + rounds := ⟨65535 - rounds, by omega⟩
  rw [sectionsRun, enough, sectionsRunFuel_skip fits rounds (fuel + 1) 0
    fun j _ below => ⟨by omega, empty j (by omega)⟩, Nat.zero_add, sectionsRunFuel, if_pos more,
    first, if_pos accepted]
  exact ⟨_, rfl⟩

/-- The offset of the last section header from the NT headers, at its largest. -/
def lastHeader : Nat := 24 + 65535 + 40 * 65534

/-- 65535 sections, all empty but the last: one byte, from the offset whose top
    byte is `value`. -/
def lastTail (value : Byte) (offset : Nat) : Byte :=
  if offset = 0 then 0x50
  else if offset = 1 then 0x45
  else if offset = 6 ∨ offset = 7 ∨ offset = 20 ∨ offset = 21 then 0xFF
  else if offset = lastHeader + 16 ∨ offset = lastHeader + 20 then 1
  else if offset = lastHeader + 23 then value
  else 0

theorem lastTail_zero (value : Byte) {offset : Nat} (lower : 65559 ≤ offset)
    (upper : offset < lastHeader + 16) : lastTail value offset = 0 := by
  rw [lastTail, if_neg (by omega), if_neg (by omega), if_neg (by omega), if_neg (by omega),
    if_neg (by omega)]

/-- The one section with raw data. -/
def lastSection (value : Byte) : SectionHeader where
  virtualSize := 0
  virtualAddress := 0
  sizeOfRawData := 1
  pointerToRawData := value ++ (1 : BitVec 24)

theorem lastTail_word (value : Byte) {offset : Nat} (lower : 65559 ≤ offset)
    (upper : offset + 3 < lastHeader + 16) : tailWord (lastTail value) offset = 0 := by
  rw [tailWord, lastTail_zero value (by omega) (by omega), lastTail_zero value (by omega) (by omega),
    lastTail_zero value (by omega) (by omega), lastTail_zero value (by omega) (by omega)]
  decide

theorem sectionHeader_lastTail (value : Byte) :
    sectionHeader (peMemory start 0xFFFFFFFF (lastTail value))
        (start + (0xFFFFFFFF : UINT32).setWidth 64 + BitVec.ofNat 64 lastHeader) =
      lastSection value := by
  rw [sectionHeader_tail (by decide), lastTail_word value (by decide) (by decide),
    lastTail_word value (by decide) (by decide)]
  have size : tailWord (lastTail value) (lastHeader + 16) = 1 := by decide +revert
  have pointer : tailWord (lastTail value) (lastHeader + 20) = value ++ (1 : BitVec 24) := by
    decide +revert
  rw [size, pointer]
  rfl

section LastTail

variable (value : Byte)

theorem lastTail_clear : 64 ≤ (0xFFFFFFFF : UINT32).toNat := by decide

theorem numberOfSections_lastTail :
    numberOfSectionsAt (peMemory start 0xFFFFFFFF (lastTail value))
      (ntHeaderOf (peMemory start 0xFFFFFFFF (lastTail value)) start) = 65535 := by
  have low : lastTail value 6 = 0xFF := rfl
  have high : lastTail value 7 = 0xFF := rfl
  rw [numberOfSections_tail lastTail_clear, low, high]
  decide

theorem sectionHeaderAt_lastTail (i : Nat) :
    sectionHeaderAt (sectionTableOf (peMemory start 0xFFFFFFFF (lastTail value)) start) i =
      start + (0xFFFFFFFF : UINT32).setWidth 64 + BitVec.ofNat 64 (65559 + 40 * i) := by
  have low : lastTail value 20 = 0xFF := rfl
  have high : lastTail value 21 = 0xFF := rfl
  have optional : ((0xFF : Byte) ++ (0xFF : Byte)).toNat = 65535 := by decide
  rw [sectionHeaderAt_tail lastTail_clear, low, high, optional]

/-- The first stores are those of the last section. -/
theorem stores_lastTail (load : UINTN) (fits : start.toNat + size.toNat < 2 ^ 64)
    (accepted : (lastSection value).Accepted start size) :
    ∃ rest, (parsePeRun start load size (peMemory start 0xFFFFFFFF (lastTail value))).2 =
      (lastSection value).log start load (peMemory start 0xFFFFFFFF (lastTail value)) ++ rest := by
  have last : lastHeader = 2686919 := rfl
  rw [parsePeRun_headers (peMemory_magic lastTail_clear)
    (peMemory_signature lastTail_clear rfl rfl rfl rfl)]
  apply stores_of_first fits (show 65534 < _ by rw [numberOfSections_lastTail]; omega) _ _ accepted
  · intro i bound
    rw [sectionHeaderAt_lastTail, sectionHeader_tail (by omega),
      lastTail_word value (by omega) (by omega), lastTail_word value (by omega) (by omega),
      lastTail_word value (by omega) (by omega), lastTail_word value (by omega) (by omega)]
    rfl
  · rw [sectionHeaderAt_lastTail]
    exact sectionHeader_lastTail value

end LastTail

theorem SectionHeader.accepted_of_le {header : SectionHeader}
    (fits : start.toNat + size.toNat < 2 ^ 64)
    (inFile : header.pointerToRawData.toNat + header.sizeOfRawData.toNat ≤ size.toNat) :
    header.Accepted start size := by
  have pointer := toNat_widen (by omega) header.pointerToRawData
  have length := toNat_widen (by omega) header.sizeOfRawData
  have sectionStart : (start + header.pointerToRawData.setWidth 64).toNat =
      start.toNat + header.pointerToRawData.toNat := by
    rw [BitVec.toNat_add_of_lt (by omega), pointer]
  rw [SectionHeader.Accepted, BitVec.le_def, BitVec.toNat_add_of_lt fits,
    BitVec.toNat_add_of_lt (by omega), sectionStart, length]
  omega

/-- The one byte, loaded two bytes into the file. -/
theorem log_lastSection (value : Byte) (memory : Mem) (fits : start.toNat + 2 ^ 32 < 2 ^ 64) :
    (lastSection value).log start (start + 2) memory =
      [(start + 2, memory (start + BitVec.ofNat 64 (value ++ (1 : BitVec 24)).toNat))] := by
  have pointer : (value ++ (1 : BitVec 24)).setWidth 64 =
      BitVec.ofNat 64 (value ++ (1 : BitVec 24)).toNat := by
    rw [BitVec.ofNat_toNat]
  have bound : (value ++ (1 : BitVec 24)).toNat < 2 ^ 32 := BitVec.isLt _
  have odd : (value ++ (1 : BitVec 24)).toNat % 2 = 1 := by decide +revert
  have src : (start + BitVec.ofNat 64 (value ++ (1 : BitVec 24)).toNat).toNat =
      start.toNat + (value ++ (1 : BitVec 24)).toNat := toNat_add_ofNat (by omega)
  have dest : (start + 2).toNat = start.toNat + 2 := @toNat_add_ofNat 64 start 2 (by omega)
  have zero : (0 : UINTN).toNat = 0 := rfl
  have noOffset : (0 : UINT32).setWidth 64 = (0 : UINTN) := rfl
  rw [SectionHeader.log, SectionHeader.move]
  simp only [lastSection, pointer, noOffset, add_zero]
  apply copyLog_one
  · intro null
    rw [null, zero] at dest
    omega
  · intro null
    rw [null, zero] at src
    omega
  · intro same
    rw [same] at src
    omega

/-- The two files differ in the top byte of the last `PointerToRawData`. -/
theorem escapes_by_section (fits : start.toNat + size.toNat < 2 ^ 64)
    (large : 2 ^ 32 ≤ size.toNat) (small : size.toNat < peReach) :
    ∃ load first second, Set.EqOn first second (range start size.toNat) ∧
      parsePeRun start load size first ≠ parsePeRun start load size second := by
  refine ⟨start + 2, peMemory start 0xFFFFFFFF (lastTail 0),
    peMemory start 0xFFFFFFFF (lastTail 0xFF), ?_, ?_⟩
  · apply peMemory_eqOn fits
    intro offset inFile
    have reach : (0xFFFFFFFF : UINT32).toNat + (lastHeader + 23) + 1 = peReach := by decide
    have elsewhere : offset ≠ lastHeader + 23 := by omega
    simp only [lastTail, if_neg elsewhere]
  · intro same
    have inFile : ∀ value : Byte,
        (lastSection value).pointerToRawData.toNat + (lastSection value).sizeOfRawData.toNat ≤
          size.toNat := by
      intro value
      have bound : (value ++ (1 : BitVec 24)).toNat < 2 ^ 32 := BitVec.isLt _
      have one : (1 : UINT32).toNat = 1 := rfl
      simp only [lastSection, one]
      omega
    obtain ⟨firstRest, firstStores⟩ := stores_lastTail 0 (start + 2) fits
      (SectionHeader.accepted_of_le fits (inFile 0))
    obtain ⟨secondRest, secondStores⟩ := stores_lastTail 0xFF (start + 2) fits
      (SectionHeader.accepted_of_le fits (inFile 0xFF))
    rw [same, secondStores, log_lastSection _ _ (by omega), log_lastSection _ _ (by omega),
      peMemory_offset (by omega), peMemory_offset (by omega)] at firstStores
    have bytes := (Prod.mk.inj (List.cons.inj firstStores).1).2
    exact absurd bytes (by decide)

/-! ### Raw data beyond the end -/

/-- One section, whose raw data starts at the largest offset and has the largest
    size; the byte at `mark` is `value`. -/
def wrapTail (mark : Nat) (value : Byte) (offset : Nat) : Byte :=
  if offset = 0 then 0x50
  else if offset = 1 then 0x45
  else if offset = 6 then 1
  else if 40 ≤ offset ∧ offset < 48 then 0xFF
  else if offset = mark then value
  else 0

/-- The section of such a file. -/
def wrapSection : SectionHeader where
  virtualSize := 0
  virtualAddress := 0
  sizeOfRawData := 0xFFFFFFFF
  pointerToRawData := 0xFFFFFFFF

section WrapTail

variable {mark : Nat} (value : Byte)

theorem wrapTail_near (far : 64 ≤ mark) {offset : Nat} (near : offset < 64) :
    wrapTail mark value offset = wrapTail 64 0 offset := by
  simp only [wrapTail, if_neg (show offset ≠ mark by omega), if_neg (show offset ≠ 64 by omega)]

theorem wrapTail_word (far : 64 ≤ mark) {offset : Nat} (near : offset + 3 < 64) :
    tailWord (wrapTail mark value) offset = tailWord (wrapTail 64 0) offset := by
  rw [tailWord, tailWord, wrapTail_near value far (by omega), wrapTail_near value far (by omega),
    wrapTail_near value far (by omega), wrapTail_near value far (by omega)]

theorem wrapTail_mark (far : 64 ≤ mark) : wrapTail mark value mark = value := by
  rw [wrapTail, if_neg (by omega), if_neg (by omega), if_neg (by omega), if_neg (by omega),
    if_pos rfl]

theorem wrapTail_clear : 64 ≤ (64 : UINT32).toNat := by decide

/-- The first stores are those of the section. -/
theorem stores_wrapTail (load : UINTN) (far : 64 ≤ mark) (fits : start.toNat + size.toNat < 2 ^ 64)
    (accepted : wrapSection.Accepted start size) :
    ∃ rest, (parsePeRun start load size (peMemory start 64 (wrapTail mark value))).2 =
      wrapSection.log start load (peMemory start 64 (wrapTail mark value)) ++ rest := by
  have near := @wrapTail_near mark value far
  have count : (wrapTail mark value 7 ++ wrapTail mark value 6).toNat = 1 := by
    rw [near (by omega), near (by omega)]
    decide
  have optional : (wrapTail mark value 21 ++ wrapTail mark value 20).toNat = 0 := by
    rw [near (by omega), near (by omega)]
    decide
  rw [parsePeRun_headers (peMemory_magic wrapTail_clear)
    (peMemory_signature wrapTail_clear rfl rfl (near (by omega)) (near (by omega)))]
  apply stores_of_first fits (show 0 < _ by rw [numberOfSections_tail wrapTail_clear, count]; omega)
    (fun i bound => absurd bound (Nat.not_lt_zero i)) _ accepted
  rw [sectionHeaderAt_tail wrapTail_clear, optional, sectionHeader_tail (by omega),
    wrapTail_word value far (by omega), wrapTail_word value far (by omega),
    wrapTail_word value far (by omega), wrapTail_word value far (by omega)]
  decide

end WrapTail

theorem peMemory_wrapTail {address : UINTN} (elsewhere : (address - start).toNat ≠ size.toNat)
    (large : 64 ≤ size.toNat) {first second : Byte} :
    peMemory start 64 (wrapTail (size.toNat - 64) first) address =
      peMemory start 64 (wrapTail (size.toNat - 64) second) address := by
  have lfanew : (64 : UINT32).toNat = 64 := rfl
  rw [peMemory, peMemory, peBytes, peBytes]
  by_cases beyond : (64 : UINT32).toNat ≤ (address - start).toNat
  · have unmarked : (address - start).toNat - (64 : UINT32).toNat ≠ size.toNat - 64 := by omega
    rw [if_pos beyond, if_pos beyond]
    simp only [wrapTail, if_neg unmarked]
  · rw [if_neg beyond, if_neg beyond]

theorem wrapSection_pointer :
    (wrapSection.pointerToRawData.setWidth 64).toNat = 2 ^ 32 - 1 := by decide

theorem wrapSection_size : (wrapSection.sizeOfRawData.setWidth 64).toNat = 2 ^ 32 - 1 := by decide

/-- Where the sum wraps, the check accepts the section. -/
theorem accepted_wrapSection (fits : start.toNat + size.toNat < 2 ^ 64) (wraps : ¬ SumsFit start) :
    wrapSection.Accepted start size := by
  have bound := start.isLt
  rw [SumsFit] at wraps
  rw [SectionHeader.Accepted, BitVec.le_def, BitVec.toNat_add_of_lt fits, BitVec.toNat_add,
    BitVec.toNat_add, wrapSection_pointer, wrapSection_size]
  omega

/-- Halfway up the address space: far below such a file. -/
def farLoad : UINTN := 0x8000000000000000

theorem farLoad_toNat : farLoad.toNat = 2 ^ 63 := by decide

theorem farLoad_valid : farLoad ≠ 0 := by decide

/-- The raw data lies above its destination, so it is copied upwards. -/
theorem log_wrapSection (memory : Mem) (above : farLoad < start + BitVec.ofNat 64 (2 ^ 32 - 1)) :
    wrapSection.log start farLoad memory =
      copyUpLog memory farLoad (start + BitVec.ofNat 64 (2 ^ 32 - 1))
        (wrapSection.sizeOfRawData.setWidth 64).toNat := by
  have dest : (wrapSection.move start farLoad).dest = farLoad := by
    change farLoad + wrapSection.virtualAddress.setWidth 64 = farLoad
    decide
  have src : (wrapSection.move start farLoad).src = start + BitVec.ofNat 64 (2 ^ 32 - 1) := by
    rw [SectionHeader.move,
      show wrapSection.pointerToRawData.setWidth 64 = BitVec.ofNat 64 (2 ^ 32 - 1) by decide]
  rw [SectionHeader.log, dest, src]
  exact copyLog_up farLoad_valid above

/-- The two memories differ in the first byte behind the file. -/
theorem escapes_by_wrap (fits : start.toNat + size.toNat < 2 ^ 64) (large : 2 ^ 32 ≤ size.toNat)
    (wraps : ¬ SumsFit start) :
    ∃ load first second, Set.EqOn first second (range start size.toNat) ∧
      parsePeRun start load size first ≠ parsePeRun start load size second := by
  have far : 64 ≤ size.toNat - 64 := by omega
  have high := wraps
  rw [SumsFit] at high
  refine ⟨farLoad, peMemory start 64 (wrapTail (size.toNat - 64) 0),
    peMemory start 64 (wrapTail (size.toNat - 64) 1), ?_, ?_⟩
  · apply peMemory_eqOn fits
    intro offset inFile
    have lfanew : (64 : UINT32).toNat = 64 := rfl
    have elsewhere : offset ≠ size.toNat - 64 := by omega
    simp only [wrapTail, if_neg elsewhere]
  · intro same
    have accepted := accepted_wrapSection fits wraps
    have src : (start + BitVec.ofNat 64 (2 ^ 32 - 1)).toNat = start.toNat + (2 ^ 32 - 1) :=
      toNat_add_ofNat (by omega)
    have dest := farLoad_toNat
    have above : farLoad < start + BitVec.ofNat 64 (2 ^ 32 - 1) := by
      rw [BitVec.lt_def]
      omega
    obtain ⟨firstRest, firstStores⟩ := stores_wrapTail 0 farLoad far fits accepted
    obtain ⟨secondRest, secondStores⟩ := stores_wrapTail 1 farLoad far fits accepted
    rw [same, secondStores, log_wrapSection _ above, log_wrapSection _ above] at firstStores
    have logs := List.append_inj_left firstStores (by rw [copyUpLog_length, copyUpLog_length])
    have distance : (farLoad - (start + BitVec.ofNat 64 (2 ^ 32 - 1))).toNat =
        2 ^ 64 - (start.toNat + (2 ^ 32 - 1)) + 2 ^ 63 := by
      rw [BitVec.toNat_sub, src, dest]
      omega
    have mark : start + BitVec.ofNat 64 (2 ^ 32 - 1) +
        BitVec.ofNat 64 (size.toNat - (2 ^ 32 - 1)) = start + BitVec.ofNat 64 size.toNat := by
      rw [BitVec.add_assoc, ← BitVec.ofNat_add, Nat.add_sub_cancel' (by omega)]
    have bytes := eq_of_copyUpLog_eq (by rw [wrapSection_size]; omega)
      (by rw [wrapSection_size]; omega) logs
      (show size.toNat - (2 ^ 32 - 1) < _ by rw [wrapSection_size]; omega) ?_
    · have lfanew : (64 : UINT32).toNat = 64 := rfl
      rw [mark, peMemory_offset (by omega), peMemory_offset (by omega), peBytes, peBytes,
        if_pos (by omega), if_pos (by omega), lfanew, wrapTail_mark _ far,
        wrapTail_mark _ far] at bytes
      exact absurd bytes (by decide)
    · have place : (farLoad + BitVec.ofNat 64 (size.toNat - (2 ^ 32 - 1))).toNat =
          2 ^ 63 + (size.toNat - (2 ^ 32 - 1)) := by
        rw [toNat_add_ofNat (by omega), dest]
      have offset : (farLoad + BitVec.ofNat 64 (size.toNat - (2 ^ 32 - 1)) - start).toNat ≠
          size.toNat := by
        rw [BitVec.toNat_sub, place]
        omega
      exact peMemory_wrapTail offset (by omega)

/-! ## The result -/

/-- All files of this place and size are enough for their own result. -/
theorem parsePeRun_congr_iff (fits : start.toNat + size.toNat < 2 ^ 64) :
    (∀ load first second, Set.EqOn first second (range start size.toNat) →
        parsePeRun start load size first = parsePeRun start load size second) ↔
      peReach ≤ size.toNat ∧ SumsFit start := by
  constructor
  · intro sufficient
    by_contra escapes
    have escape : ∃ load first second, Set.EqOn first second (range start size.toNat) ∧
        parsePeRun start load size first ≠ parsePeRun start load size second := by
      by_cases small : size.toNat < 2 ^ 32 + 40
      · exact escapes_by_entry fits small
      · by_cases reached : peReach ≤ size.toNat
        · exact escapes_by_wrap fits (by omega) fun sums => escapes ⟨reached, sums⟩
        · exact escapes_by_section fits (by omega) (by omega)
    obtain ⟨load, first, second, agree, differ⟩ := escape
    exact differ (sufficient load first second agree)
  · rintro ⟨large, sums⟩ load first second agree
    exact parsePeRun_congr agree (peConfined_of_large first fits large sums)

/-- Both runs return the same value and make the same stores. -/
def SameResult (first second : PeResult) : Prop :=
  first.value = second.value ∧ first.stores = second.stores

theorem sameResult_iff {first second : Mem} :
    SameResult (parsePeResult start load size first) (parsePeResult start load size second) ↔
      parsePeRun start load size first = parsePeRun start load size second := by
  constructor
  · rintro ⟨value, stores⟩
    exact Prod.ext value stores
  · intro same
    exact ⟨congrArg Prod.fst same, congrArg Prod.snd same⟩

variable {σ : Type} {firmware : Firmware σ}

/-- A run that stays in its file is decided by the file.  For all files of a place and
    size together that takes `peReach` bytes and a place low enough for the sums. -/
theorem parsePe_decided_by_file_iff (keeps : PrintKeepsMemory firmware) (state : σ)
    (start size : UINTN) (fits : start.toNat + size.toNat < 2 ^ 64) :
    (∀ load first, PeConfined first start load size →
        ∀ second, Set.EqOn first second (range start size.toNat) →
          PeRuns firmware state start load size first second SameResult) ∧
      ((∀ load first second, Set.EqOn first second (range start size.toNat) →
          PeRuns firmware state start load size first second SameResult) ↔
        peReach ≤ size.toNat ∧ SumsFit start) := by
  constructor
  · intro load first confined second agree
    rw [peRuns_iff keeps, sameResult_iff]
    exact parsePeRun_congr agree confined
  · rw [← parsePeRun_congr_iff fits]
    simp only [peRuns_iff keeps, sameResult_iff]

theorem parsePe_decided_by_file_small :
    PeRuns (plainFirmware 0 efiSuccess) () 0x1000 0x100000 400 (sparseMemory 0x1000 smallImage)
      (Function.update (sparseMemory 0x1000 smallImage) 0x2000 0xFF) SameResult := by
  have keeps := (plainFirmware_keeps 0 efiSuccess).print
  have agree : Set.EqOn (sparseMemory 0x1000 smallImage)
      (Function.update (sparseMemory 0x1000 smallImage) 0x2000 0xFF)
      (range 0x1000 (400 : UINTN).toNat) := by
    intro address inFile
    have beyond : address ≠ 0x2000 := by
      rintro rfl
      exact absurd inFile (by decide)
    exact (Function.update_of_ne beyond _ _).symm
  exact (parsePe_decided_by_file_iff keeps () 0x1000 400 (by decide)).1 0x100000 _
    (smallImage_layout.confined (by decide) (by decide)) _ agree

/-- A file of 64 bytes that puts its NT header right behind itself. -/
theorem parsePe_reads_beyond_file :
    Set.EqOn (peMemory 0x1000 64 (entryTail 0)) (peMemory 0x1000 64 (entryTail 1))
        (range 0x1000 (64 : UINTN).toNat) ∧
      ¬ PeRuns (plainFirmware 0 efiSuccess) () 0x1000 0x100000 64
        (peMemory 0x1000 64 (entryTail 0)) (peMemory 0x1000 64 (entryTail 1)) SameResult := by
  have keeps := (plainFirmware_keeps 0 efiSuccess).print
  have lfanew : (64 : UINT32).toNat = 64 := rfl
  have whole : (64 : UINTN).toNat = 64 := rfl
  constructor
  · apply peMemory_eqOn (by decide)
    intro offset inFile
    omega
  · rw [peRuns_iff keeps, sameResult_iff, parsePeRun_entryTail (by decide),
      parsePeRun_entryTail (by decide)]
    intro same
    exact absurd (congrArg Prod.fst same) (by decide)

end HvisorUefiPacker
