import HvisorUefiPacker.Soundness.PeImage

/-! # Reading PE32+ headers

`parse_pe` reads a PE32+ file through the structures of pe.h.

* `Layout.encode` serialises a structure; `word16_field` and `word32_field` read a
  field of it back.
* `Pe32PlusHeaders` is what the headers of a PE32+ file hold, `EncodedAt` that they
  are in memory, and `fields` the values the packer asks for.
* `peFields` reads these values as the packer does.  `peFields_eq` says what it
  gets: the encoded values, but for `ImageBase` its upper half.
* `Prints` and `Opens` are about the lines of a run.  `parse_pe` prints the values
  of `peFields` before its section loop, `load_section` those of its header.
-/

namespace HvisorUefiPacker

open Interaction Interaction.Program ByteMemory

/-! ## Structures as bytes -/

/-- A value for every field of a structure, as wide as the field. -/
abbrev FieldValues := ∀ field : String × Nat, BitVec (8 * field.2)

/-- The fields one after the other, each in little-endian order. -/
def Layout.encode (layout : Layout) (values : FieldValues) : List Byte :=
  layout.flatMap fun field => littleEndian field.2 (values field).toNat

@[simp] theorem Layout.encode_cons (field : String × Nat) (layout : Layout) (values : FieldValues) :
    Layout.encode (field :: layout) values =
      littleEndian field.2 (values field).toNat ++ layout.encode values := rfl

@[simp] theorem Layout.encode_length (layout : Layout) (values : FieldValues) :
    (layout.encode values).length = layout.size := by
  induction layout with
  | nil => rfl
  | cons field layout inductionHypothesis => simp [inductionHypothesis, Layout.size]

theorem Layout.offset_cons (field : String × Nat) (layout : Layout) (name : String) :
    Layout.offset (field :: layout) name =
      if field.1 = name then 0 else BitVec.ofNat 64 field.2 + layout.offset name := by
  by_cases named : field.1 = name
  · simp [Layout.offset, Layout.size, named]
  · simp [Layout.offset, Layout.size, named, BitVec.ofNat_add]

section Fields

variable {memory : Mem} {address : UINTN} {layout : Layout} {values : FieldValues} {name : String}

/-- The bytes of a field are at its offset. -/
theorem holds_field {size : Nat} (holds : Holds memory address (layout.encode values))
    (found : layout.find? (fun field => field.1 = name) = some (name, size)) :
    Holds memory (address + layout.offset name) (littleEndian size (values (name, size)).toNat) := by
  induction layout generalizing address with
  | nil => cases found
  | cons field layout inductionHypothesis =>
    rw [Layout.encode_cons, holds_append, littleEndian_length] at holds
    rw [Layout.offset_cons]
    by_cases named : field.1 = name
    · rw [List.find?_cons_of_pos (by simpa using named)] at found
      cases found
      rw [if_pos rfl]
      simpa using holds.1
    · rw [List.find?_cons_of_neg (by simpa using named)] at found
      rw [if_neg named, ← BitVec.add_assoc]
      exact inductionHypothesis holds.2 found

theorem word16_field (holds : Holds memory address (layout.encode values))
    (found : layout.find? (fun field => field.1 = name) = some (name, 2)) :
    word16 memory (address + layout.offset name) = values (name, 2) := by
  rw [word16_of_holds (holds_field holds found)]
  exact BitVec.ofNat_toNat 16 (values (name, 2)) |>.trans (BitVec.setWidth_eq _)

theorem word32_field (holds : Holds memory address (layout.encode values))
    (found : layout.find? (fun field => field.1 = name) = some (name, 4)) :
    word32 memory (address + layout.offset name) = values (name, 4) := by
  rw [word32_of_holds (holds_field holds found)]
  exact BitVec.ofNat_toNat 32 (values (name, 4)) |>.trans (BitVec.setWidth_eq _)

/-- The four bytes behind the lower half of a 64-bit field are its upper half. -/
theorem word32_upper_field (holds : Holds memory address (layout.encode values))
    (found : layout.find? (fun field => field.1 = name) = some (name, 8)) :
    word32 memory (address + layout.offset name + 4) =
      BitVec.ofNat 32 ((values (name, 8)).toNat >>> 32) := by
  have bytes := holds_field holds found
  rw [littleEndian_add 4 4, holds_append, littleEndian_length] at bytes
  exact word32_of_holds bytes.2

end Fields

/-! ## The PE32+ format -/

/-- The optional header of a PE32+ file: no `BaseOfData`, and 64-bit values for
    `ImageBase` and the sizes of the stack and the heap. -/
def pe32PlusOptionalHeader : Layout :=
  [("Magic", 2), ("MajorLinkerVersion", 1), ("MinorLinkerVersion", 1), ("SizeOfCode", 4),
    ("SizeOfInitializedData", 4), ("SizeOfUninitializedData", 4), ("AddressOfEntryPoint", 4),
    ("BaseOfCode", 4), ("ImageBase", 8), ("SectionAlignment", 4), ("FileAlignment", 4),
    ("MajorOperatingSystemVersion", 2), ("MinorOperatingSystemVersion", 2),
    ("MajorImageVersion", 2), ("MinorImageVersion", 2), ("MajorSubsystemVersion", 2),
    ("MinorSubsystemVersion", 2), ("Reserved1", 4), ("SizeOfImage", 4), ("SizeOfHeaders", 4),
    ("CheckSum", 4), ("Subsystem", 2), ("DllCharacteristics", 2), ("SizeOfStackReserve", 8),
    ("SizeOfStackCommit", 8), ("SizeOfHeapReserve", 8), ("SizeOfHeapCommit", 8),
    ("LoaderFlags", 4), ("NumberOfRvaAndSizes", 4)]

def imageDataDirectory : Layout := [("VirtualAddress", 4), ("Size", 4)]

/-- The values a PE32+ file encodes in its headers. -/
structure Pe32PlusHeaders where
  dosHeader : FieldValues
  signature : UINT32
  fileHeader : FieldValues
  optionalHeader : FieldValues
  dataDirectory : List FieldValues
  sections : List FieldValues
  sizeOfOptionalHeader : (fileHeader ("SizeOfOptionalHeader", 2)).toNat =
    pe32PlusOptionalHeader.size + imageDataDirectory.size * dataDirectory.length
  numberOfSections : (fileHeader ("NumberOfSections", 2)).toNat = sections.length

/-- The values the packer reads from the headers, `ImageBase` in full. -/
structure PeFields where
  eMagic : UINT16
  eLfanew : UINT32
  signature : UINT32
  numberOfSections : UINT16
  sizeOfOptionalHeader : UINT16
  sizeOfCode : UINT32
  sizeOfInitializedData : UINT32
  sizeOfUninitializedData : UINT32
  addressOfEntryPoint : UINT32
  baseOfCode : UINT32
  imageBase : UINTN
  sections : List SectionHeader
deriving DecidableEq

namespace Pe32PlusHeaders

variable (headers : Pe32PlusHeaders)

/-- `e_lfanew` -/
def eLfanew : UINT32 := headers.dosHeader ("e_lfanew", 4)

def imageBase : UINTN := headers.optionalHeader ("ImageBase", 8)

/-- From the signature to the end of the optional header. -/
def ntHeadersBytes : List Byte :=
  littleEndian 4 headers.signature.toNat ++
    (imageFileHeader.encode headers.fileHeader ++
      (pe32PlusOptionalHeader.encode headers.optionalHeader ++
        headers.dataDirectory.flatMap imageDataDirectory.encode))

def sectionTableBytes : List Byte := headers.sections.flatMap imageSectionHeader.encode

/-- The start of the file, with `stub` between the DOS header and the signature. -/
def bytes (stub : List Byte) : List Byte :=
  imageDosHeader.encode headers.dosHeader ++ stub ++
    (headers.ntHeadersBytes ++ headers.sectionTableBytes)

/-- The headers are in memory, in a file that starts at `start`. -/
structure EncodedAt (memory : Mem) (start : UINTN) : Prop where
  dosHeader : Holds memory start (imageDosHeader.encode headers.dosHeader)
  ntHeaders : Holds memory (start + headers.eLfanew.setWidth 64)
    (headers.ntHeadersBytes ++ headers.sectionTableBytes)

/-- The values that were encoded. -/
def fields : PeFields where
  eMagic := headers.dosHeader ("e_magic", 2)
  eLfanew := headers.eLfanew
  signature := headers.signature
  numberOfSections := headers.fileHeader ("NumberOfSections", 2)
  sizeOfOptionalHeader := headers.fileHeader ("SizeOfOptionalHeader", 2)
  sizeOfCode := headers.optionalHeader ("SizeOfCode", 4)
  sizeOfInitializedData := headers.optionalHeader ("SizeOfInitializedData", 4)
  sizeOfUninitializedData := headers.optionalHeader ("SizeOfUninitializedData", 4)
  addressOfEntryPoint := headers.optionalHeader ("AddressOfEntryPoint", 4)
  baseOfCode := headers.optionalHeader ("BaseOfCode", 4)
  imageBase := headers.imageBase
  sections := headers.sections.map fun values =>
    { virtualSize := values ("VirtualSize", 4)
      virtualAddress := values ("VirtualAddress", 4)
      sizeOfRawData := values ("SizeOfRawData", 4)
      pointerToRawData := values ("PointerToRawData", 4) }

end Pe32PlusHeaders

/-! ## What the packer reads -/

/-- The fields as `parse_pe` and `print_optional_header_info` read them. -/
def peFields (memory : Mem) (start : UINTN) : PeFields :=
  let ntHeader := ntHeaderOf memory start
  { eMagic := word16 memory (start + imageDosHeader.offset "e_magic")
    eLfanew := word32 memory (start + imageDosHeader.offset "e_lfanew")
    signature := word32 memory (ntHeader + imageNtHeaders.offset "Signature")
    numberOfSections := word16 memory (fileHeaderField ntHeader "NumberOfSections")
    sizeOfOptionalHeader := word16 memory (fileHeaderField ntHeader "SizeOfOptionalHeader")
    sizeOfCode := word32 memory (optionalHeaderField ntHeader "SizeOfCode")
    sizeOfInitializedData := word32 memory (optionalHeaderField ntHeader "SizeOfInitializedData")
    sizeOfUninitializedData :=
      word32 memory (optionalHeaderField ntHeader "SizeOfUninitializedData")
    addressOfEntryPoint := word32 memory (optionalHeaderField ntHeader "AddressOfEntryPoint")
    baseOfCode := word32 memory (optionalHeaderField ntHeader "BaseOfCode")
    imageBase := (word32 memory (optionalHeaderField ntHeader "ImageBase")).setWidth 64
    sections := peSections memory start }

section Encoded

variable {headers : Pe32PlusHeaders} {memory : Mem} {start : UINTN}

/-- A file that starts with the headers has them where the packer looks for them. -/
theorem Pe32PlusHeaders.encodedAt_of_bytes {stub : List Byte}
    (lfanew : headers.eLfanew.toNat = imageDosHeader.size + stub.length)
    (holds : Holds memory start (headers.bytes stub)) : headers.EncodedAt memory start := by
  rw [Pe32PlusHeaders.bytes, holds_append, holds_append] at holds
  obtain ⟨⟨dosHeader, _⟩, ntHeaders⟩ := holds
  have skipped : (imageDosHeader.encode headers.dosHeader ++ stub).length =
      headers.eLfanew.toNat := by
    rw [List.length_append, Layout.encode_length, lfanew]
  rw [skipped, BitVec.ofNat_toNat] at ntHeaders
  exact ⟨dosHeader, ntHeaders⟩

variable (encoded : headers.EncodedAt memory start)

include encoded

namespace Pe32PlusHeaders.EncodedAt

theorem eLfanew_eq : word32 memory (start + 60) = headers.eLfanew := by
  rw [← eLfanew_offset]
  exact word32_field encoded.dosHeader rfl

theorem ntHeaderOf_eq : ntHeaderOf memory start = start + headers.eLfanew.setWidth 64 := by
  rw [ntHeaderOf, encoded.eLfanew_eq]

/-- The four parts behind the DOS header, each at the place the packer computes. -/
theorem parts :
    Holds memory (ntHeaderOf memory start) (littleEndian 4 headers.signature.toNat) ∧
    Holds memory (ntHeaderOf memory start + imageNtHeaders.offset "FileHeader")
      (imageFileHeader.encode headers.fileHeader) ∧
    Holds memory (ntHeaderOf memory start + imageNtHeaders.offset "OptionalHeader")
      (pe32PlusOptionalHeader.encode headers.optionalHeader) ∧
    Holds memory (ntHeaderOf memory start + imageNtHeaders.offset "OptionalHeader" +
      (headers.fileHeader ("SizeOfOptionalHeader", 2)).setWidth 64) headers.sectionTableBytes := by
  have optionalHeaderOffset : imageNtHeaders.offset "FileHeader" +
      BitVec.ofNat 64 imageFileHeader.size = imageNtHeaders.offset "OptionalHeader" := by decide
  have directoryLength : (headers.dataDirectory.flatMap imageDataDirectory.encode).length =
      imageDataDirectory.size * headers.dataDirectory.length := by
    simp [List.length_flatMap, Nat.mul_comm]
  have tableOffset : BitVec.ofNat 64 pe32PlusOptionalHeader.size +
      BitVec.ofNat 64 (headers.dataDirectory.flatMap imageDataDirectory.encode).length =
        (headers.fileHeader ("SizeOfOptionalHeader", 2)).setWidth 64 := by
    rw [directoryLength, ← BitVec.ofNat_add, ← headers.sizeOfOptionalHeader, BitVec.ofNat_toNat]
  have nt := encoded.ntHeaders
  rw [← encoded.ntHeaderOf_eq, ntHeadersBytes] at nt
  simp only [holds_append, List.append_assoc, littleEndian_length, Layout.encode_length] at nt
  obtain ⟨signature, fileHeader, optionalHeader, _, sections⟩ := nt
  rw [BitVec.add_assoc _ _ (BitVec.ofNat 64 imageFileHeader.size)] at optionalHeader sections
  rw [BitVec.add_assoc _ _ (BitVec.ofNat 64 (List.length _)), tableOffset] at sections
  rw [← optionalHeaderOffset]
  exact ⟨signature, fileHeader, optionalHeader, sections⟩

theorem fileHeader_eq {name : String}
    (found : imageFileHeader.find? (fun field => field.1 = name) = some (name, 2)) :
    word16 memory (fileHeaderField (ntHeaderOf memory start) name) =
      headers.fileHeader (name, 2) := by
  rw [fileHeaderField, ← BitVec.add_assoc]
  exact word16_field encoded.parts.2.1 found

theorem sectionTable_held : Holds memory (sectionTableOf memory start) headers.sectionTableBytes := by
  have size := encoded.fileHeader_eq (show _ = some ("SizeOfOptionalHeader", 2) from rfl)
  rw [sizeOfOptionalHeader_field] at size
  rw [sectionTableOf, size]
  exact encoded.parts.2.2.2

/-- The fields both formats have at the same place. -/
theorem optionalHeader_eq {name : String}
    (found : pe32PlusOptionalHeader.find? (fun field => field.1 = name) = some (name, 4))
    (same : imageOptionalHeader.offset name = pe32PlusOptionalHeader.offset name) :
    word32 memory (optionalHeaderField (ntHeaderOf memory start) name) =
      headers.optionalHeader (name, 4) := by
  rw [optionalHeaderField, same, ← BitVec.add_assoc]
  exact word32_field encoded.parts.2.2.1 found

/-- Where pe.h has `ImageBase`, the file has the upper half of it. -/
theorem imageBase_eq :
    word32 memory (optionalHeaderField (ntHeaderOf memory start) "ImageBase") =
      BitVec.ofNat 32 (headers.imageBase.toNat >>> 32) := by
  have shifted :
      imageOptionalHeader.offset "ImageBase" = pe32PlusOptionalHeader.offset "ImageBase" + 4 := by
    decide
  rw [optionalHeaderField, shifted, ← BitVec.add_assoc, ← BitVec.add_assoc]
  exact word32_upper_field encoded.parts.2.2.1 rfl

/-- Every section header is read as it was encoded. -/
theorem sections_eq : peSections memory start = headers.fields.sections := by
  have count : peSectionCount memory start = headers.sections.length := by
    rw [← headers.numberOfSections, peSectionCount, numberOfSectionsAt, ← numberOfSections_field]
    exact congrArg BitVec.toNat (encoded.fileHeader_eq rfl)
  rw [peSections, count]
  apply List.ext_getElem?
  intro index
  rw [List.getElem?_map, fields, List.getElem?_map]
  by_cases bound : index < headers.sections.length
  · rw [List.getElem?_range bound, List.getElem?_eq_getElem bound]
    have held : Holds memory (sectionHeaderAt (sectionTableOf memory start) index)
        (imageSectionHeader.encode headers.sections[index]) := by
      apply encoded.sectionTable_held.record (Layout.encode_length imageSectionHeader)
      exact List.getElem?_eq_getElem bound
    simp only [Option.map_some, peSection, sectionHeader]
    rw [← virtualSize_field, ← virtualAddress_field, ← sizeOfRawData_field,
      ← pointerToRawData_field]
    rw [Option.some.injEq, SectionHeader.mk.injEq]
    exact ⟨word32_field held rfl, word32_field held rfl, word32_field held rfl,
      word32_field held rfl⟩
  · rw [List.getElem?_eq_none (by simpa using bound), List.getElem?_eq_none (by simpa using bound)]
    rfl

end Pe32PlusHeaders.EncodedAt

/-- The packer reads the encoded values, but for `ImageBase` its upper half. -/
theorem peFields_eq :
    peFields memory start =
      { headers.fields with
        imageBase := (BitVec.ofNat 32 (headers.imageBase.toNat >>> 32)).setWidth 64 } := by
  have signature := word32_of_holds encoded.parts.1
  rw [BitVec.ofNat_toNat, BitVec.setWidth_eq] at signature
  simp only [peFields, Pe32PlusHeaders.fields, signature_offset]
  rw [encoded.imageBase_eq, encoded.sections_eq]
  rw [PeFields.mk.injEq]
  refine ⟨?_, ?_, ?_, ?_, ?_, ?_, ?_, ?_, ?_, ?_, rfl, rfl⟩
  · exact word16_field encoded.dosHeader rfl
  · exact word32_field encoded.dosHeader rfl
  · simpa using signature
  · exact encoded.fileHeader_eq rfl
  · exact encoded.fileHeader_eq rfl
  · exact encoded.optionalHeader_eq rfl (by decide)
  · exact encoded.optionalHeader_eq rfl (by decide)
  · exact encoded.optionalHeader_eq rfl (by decide)
  · exact encoded.optionalHeader_eq rfl (by decide)
  · exact encoded.optionalHeader_eq rfl (by decide)

end Encoded

/-! ### What parse_pe does with the fields -/

/-- `parse_pe` decides by these fields and by the section headers alone. -/
theorem parsePeRun_fields (memory : Mem) (start load size : UINTN) :
    parsePeRun start load size memory =
      let fields := peFields memory start
      let ntHeader := start + fields.eLfanew.setWidth 64
      if fields.eMagic = imageDosSignature ∧ fields.signature = imageNtSignature then
        let sections := sectionsRun ntHeader
          (ntHeader + 24 + fields.sizeOfOptionalHeader.setWidth 64) start load size 0 memory
        (if sections.1 then fields.addressOfEntryPoint.setWidth 64 + load else 0, sections.2)
      else
        (0, []) := by
  simp only [parsePeRun, peFields, entryOf, sectionTableOf, ntHeaderOf, eMagic_offset,
    eLfanew_offset, signature_offset, sizeOfOptionalHeader_field, addressOfEntryPoint_field,
    add_zero]
  rfl

/-- A call of `Print`: the format and its arguments. -/
abbrev Line := String × List PrintArg

def printed (line : Line) : Event := .service (.print line.1 line.2) ()

theorem printed_injective : Function.Injective printed := by
  rintro ⟨format, args⟩ ⟨otherFormat, otherArgs⟩ same
  cases same
  rfl

namespace PeFields

variable (fields : PeFields)

/-- The lines about the optional header. -/
def optionalHeaderInfo : List Line :=
  [("[INFO] parse_pe: optional header:\n", []),
    ("[INFO] parse_pe:   SizeOfCode = %d\n", [.widen fields.sizeOfCode]),
    ("[INFO] parse_pe:   SizeOfInitializedData = %d\n", [.widen fields.sizeOfInitializedData]),
    ("[INFO] parse_pe:   SizeOfUninitializedData = %d\n",
      [.widen fields.sizeOfUninitializedData]),
    ("[INFO] parse_pe:   AddressOfEntryPoint = 0x%lx\n", [.widen fields.addressOfEntryPoint]),
    ("[INFO] parse_pe:   BaseOfCode = 0x%lx\n", [.widen fields.baseOfCode]),
    ("[INFO] parse_pe:   ImageBase = 0x%lx\n", [.number fields.imageBase])]

/-- The line about `e_magic`. -/
def dosHeaderLine : Line :=
  (if fields.eMagic ≠ imageDosSignature then
    "[ERROR] parse_pe: invalid dos header: e_magic = 0x%x\n"
  else
    "[INFO] parse_pe: dos header is ok: e_magic = 0x%x\n", [.widen fields.eMagic])

/-- The line about the signature. -/
def ntHeaderLine : Line :=
  (if fields.signature ≠ imageNtSignature then
    "[ERROR] parse_pe: invalid nt header: Signature = 0x%x\n"
  else
    "[INFO] parse_pe: nt header is ok: Signature = 0x%x\n", [.widen fields.signature])

/-- The lines of `parse_pe` up to its section loop. -/
def opening (start load size : UINTN) : List Line :=
  [("[INFO] parse_pe: efi_file_start_addr = 0x%lx\n", [.number start]),
    ("[INFO] parse_pe: efi_load_addr = 0x%lx\n", [.number load]),
    ("[INFO] parse_pe: efi_size = %llu (%s)\n", [.number size, .text (convertSizeToStr size)]),
    fields.dosHeaderLine] ++
  if fields.eMagic ≠ imageDosSignature then
    []
  else
    fields.ntHeaderLine ::
      if fields.signature ≠ imageNtSignature then
        []
      else
        fields.optionalHeaderInfo ++
          [("[INFO] parse_pe: section header@ 0x%lx:\n",
            [.number (start + fields.eLfanew.setWidth 64 + imageNtHeaders.offset "OptionalHeader" +
              fields.sizeOfOptionalHeader.setWidth 64)])]

end PeFields

/-- The lines `load_section` prints before its check. -/
def SectionHeader.info (header : SectionHeader) (name : List Byte) (index start load : UINTN) :
    List Line :=
  let sectionStart := start + header.pointerToRawData.setWidth 64
  [("[INFO] parse_pe:   Section %d:\n", [.number index]),
    ("[INFO] parse_pe:     Name = %s\n", [.text name]),
    ("[INFO] parse_pe:     VirtualSize = %d\n", [.widen header.virtualSize]),
    ("[INFO] parse_pe:     VirtualAddress = 0x%lx\n", [.widen header.virtualAddress]),
    ("[INFO] parse_pe:     SizeOfRawData = %d\n", [.widen header.sizeOfRawData]),
    ("[INFO] parse_pe:   section_start = 0x%lx\n", [.number sectionStart]),
    ("[INFO] parse_pe:   section_size = %d\n", [.widen header.sizeOfRawData]),
    ("[INFO] parse_pe:   section_end = 0x%lx\n",
      [.number (sectionStart + header.sizeOfRawData.setWidth 64)]),
    ("[INFO] parse_pe:   section_load_addr = 0x%lx\n",
      [.number (load + header.virtualAddress.setWidth 64)])]

/-- The characters of a name up to its NUL. -/
def nameAt (memory : Mem) : Nat → UINTN → List Byte
  | 0, _ => []
  | rounds + 1, name =>
    if memory name = 0 then [] else memory name :: nameAt memory rounds (name + 1)

section Prints

variable {σ : Type} {firmware : Firmware σ} {memory : Mem} {α β : Type}

/-- On this memory the program returns the value, prints the lines and leaves memory as
    it is. -/
def Prints (firmware : Firmware σ) (memory : Mem) (program : Packer α) (value : α)
    (lines : List Line) : Prop :=
  ∀ world, world.memory = memory → wp (machine firmware) program
    (fun result after => result = value ∧ after.memory = memory ∧
      after.trace = world.trace ++ lines.map printed) world

/-- On this memory the program returns, and prints the lines before any other. -/
def Opens (firmware : Firmware σ) (memory : Mem) (program : Packer α) (lines : List Line) : Prop :=
  ∀ world, world.memory = memory → wp (machine firmware) program
    (fun _ after => world.trace ++ lines.map printed <+: after.trace) world

section Rules

variable {first : Packer α} {next : α → Packer β} {value : α} {early late : List Line}

theorem Prints.bind {later : β} (left : Prints firmware memory first value early)
    (right : Prints firmware memory (next value) later late) :
    Prints firmware memory (first >>= next) later (early ++ late) := by
  intro world same
  rw [wp_bind]
  apply wp_mono (left world same)
  rintro _ middle ⟨rfl, kept, earlyTrace⟩
  apply wp_mono (right middle kept)
  rintro _ after ⟨rfl, lateKept, lateTrace⟩
  refine ⟨rfl, lateKept, ?_⟩
  rw [lateTrace, earlyTrace, List.map_append, List.append_assoc]

theorem Prints.opens (left : Prints firmware memory first value early)
    (right : Opens firmware memory (next value) late) :
    Opens firmware memory (first >>= next) (early ++ late) := by
  intro world same
  rw [wp_bind]
  apply wp_mono (left world same)
  rintro _ middle ⟨rfl, kept, earlyTrace⟩
  apply wp_mono (right middle kept)
  intro _ after opened
  rwa [earlyTrace, List.append_assoc, ← List.map_append] at opened

/-- A program that returns only adds to the trace. -/
theorem opens_nothing {program : Packer α}
    (returns : ∀ world, wp (machine firmware) program (fun _ _ => True) world) :
    Opens firmware memory program [] := by
  intro world _
  obtain ⟨result, after, returned, -⟩ := wp_iff_exec.mp (returns world)
  obtain ⟨events, trace, -⟩ :=
    extends_of_issues firmware (issues_of_forall Op.emits_any program) world
  apply wp_of_returned returned
  rw [returned] at trace
  rw [List.map_nil, List.append_nil]
  exact ⟨events, trace.symm⟩

end Rules

theorem prints_pure (value : α) : Prints firmware memory (pure value) value [] :=
  fun _ same => ⟨rfl, same, (List.append_nil _).symm⟩

theorem prints_load (address : UINTN) :
    Prints firmware memory (load address) (memory address) [] := by
  rintro world rfl
  exact ⟨rfl, rfl, (List.append_nil _).symm⟩

theorem prints_load16 (address : UINTN) :
    Prints firmware memory (load16 address) (word16 memory address) [] := by
  rintro world rfl
  exact ⟨rfl, rfl, (List.append_nil _).symm⟩

theorem prints_load32 (address : UINTN) :
    Prints firmware memory (load32 address) (word32 memory address) [] := by
  rintro world rfl
  exact ⟨rfl, rfl, (List.append_nil _).symm⟩

theorem prints_sectionName (rounds : Nat) (name : UINTN) :
    Prints firmware memory (sectionNameFrom rounds name) (nameAt memory rounds name) [] := by
  induction rounds generalizing name with
  | zero => exact prints_pure []
  | succ rounds inductionHypothesis =>
    apply (prints_load name).bind
    rw [nameAt]
    split
    · exact prints_pure []
    · exact (inductionHypothesis (name + 1)).bind (prints_pure _)

variable (keeps : PrintKeepsMemory firmware)

include keeps

theorem prints_print (format : String) (args : List PrintArg) :
    Prints firmware memory (print format args) () [(format, args)] := by
  rintro world rfl
  rw [wp_print]
  exact ⟨rfl, serve_print_memory keeps _ _ _, rfl⟩

theorem prints_printField (format : String) (field : UINTN) :
    Prints firmware memory (printField format field) ()
      [(format, [.widen (word32 memory field)])] :=
  (prints_load32 field).bind (prints_print keeps format _)

theorem prints_validateValue {w : Nat} (value expected : BitVec w) (invalid ok : String) :
    Prints firmware memory (validateValue value expected invalid ok)
      (if value ≠ expected then efiInvalidParameter else efiSuccess)
      [(if value ≠ expected then invalid else ok, [.widen value])] := by
  rw [validateValue]
  split
  · exact (prints_print keeps _ _).bind (prints_pure _)
  · exact (prints_print keeps _ _).bind (prints_pure _)

variable (start : UINTN)

/-- `print_optional_header_info` prints the fields that `peFields` reads. -/
theorem prints_printOptionalHeaderInfo :
    Prints firmware memory (printOptionalHeaderInfo (ntHeaderOf memory start)) ()
      (peFields memory start).optionalHeaderInfo := by
  have field := @prints_printField σ firmware memory keeps
  apply (prints_print keeps _ _).bind
  apply (field _ _).bind
  apply (field _ _).bind
  apply (field _ _).bind
  apply (field _ _).bind
  apply (field _ _).bind
  exact field _ _

/-- What `load_section` prints of a header is what the header holds. -/
theorem prints_printSectionInfo (address index load : UINTN) :
    let header := sectionHeader memory address
    let sectionStart := start + header.pointerToRawData.setWidth 64
    Prints firmware memory
      (printSectionInfo address index sectionStart (header.sizeOfRawData.setWidth 64)
        (sectionStart + header.sizeOfRawData.setWidth 64)
        (load + header.virtualAddress.setWidth 64)) ()
      (header.info (nameAt memory 8 (sectionHeaderField address "Name")) index start load) := by
  have field := @prints_printField σ firmware memory keeps
  simp only [sectionHeader, ← virtualSize_field, ← virtualAddress_field, ← sizeOfRawData_field]
  apply (prints_print keeps _ _).bind
  apply (prints_sectionName _ _).bind
  apply (prints_print keeps _ _).bind
  apply (field _ _).bind
  apply (field _ _).bind
  apply (field _ _).bind
  apply (prints_print keeps _ _).bind
  apply (prints_print keeps _ _).bind
  apply (prints_print keeps _ _).bind
  exact prints_print keeps _ _

/-- `load_section` starts with these lines, whether it takes the section or not. -/
theorem opens_loadSection (address load size index : UINTN) :
    Opens firmware memory (loadSection address start load size index)
      ((sectionHeader memory address).info (nameAt memory 8 (sectionHeaderField address "Name"))
        index start load) := by
  rw [← List.append_nil (SectionHeader.info _ _ _ _ _)]
  apply (prints_load32 _).opens
  apply (prints_load32 _).opens
  apply (prints_load32 _).opens
  rw [pointerToRawData_field, sizeOfRawData_field, virtualAddress_field]
  apply (prints_printSectionInfo keeps start address index load).opens
  apply opens_nothing
  intro world
  split
  · exact wp_complain keeps (by decide) fun _ _ => trivial
  · rw [wp_bind, wp_copyMem]
    exact wp_print_then keeps (by decide) fun _ _ => trivial

theorem opens_loadImage (load size : UINTN) :
    Opens firmware memory (loadImage (ntHeaderOf memory start) start load size)
      ((peFields memory start).optionalHeaderInfo ++
        [("[INFO] parse_pe: section header@ 0x%lx:\n",
          [.number (sectionTableOf memory start)])]) := by
  apply (prints_printOptionalHeaderInfo keeps start).opens
  apply (prints_load32 _).opens
  apply (prints_load16 _).opens
  rw [sizeOfOptionalHeader_field, optionalHeader_offset]
  apply (prints_print keeps _ _).opens
  apply opens_nothing
  intro world
  rw [wp_bind]
  apply wp_mono (wp_loadSections keeps _ _ start load size 0 world)
  intro loaded after _
  cases loaded with
  | false => trivial
  | true =>
    refine wp_print_then keeps (by decide) fun _ _ => ?_
    exact wp_print_then keeps (by decide) fun _ _ => trivial

theorem prints_validateDosHeader :
    Prints firmware memory (validateDosHeader start)
      (if (peFields memory start).eMagic ≠ imageDosSignature then efiInvalidParameter
        else efiSuccess)
      [(peFields memory start).dosHeaderLine] :=
  (prints_load16 _).bind (prints_validateValue keeps _ _ _ _)

theorem prints_validateNtHeader :
    Prints firmware memory (validateNtHeader (ntHeaderOf memory start))
      (if (peFields memory start).signature ≠ imageNtSignature then efiInvalidParameter
        else efiSuccess)
      [(peFields memory start).ntHeaderLine] :=
  (prints_load32 _).bind (prints_validateValue keeps _ _ _ _)

/-- Before its section loop `parse_pe` prints what it has read. -/
theorem opens_parsePe (load size : UINTN) :
    Opens firmware memory (parsePe start load size)
      ((peFields memory start).opening start load size) := by
  apply (prints_print keeps _ _).opens
  apply (prints_print keeps _ _).opens
  apply (prints_print keeps _ _).opens
  apply (prints_validateDosHeader keeps start).opens
  by_cases magic : (peFields memory start).eMagic ≠ imageDosSignature
  · rw [if_pos magic, if_pos magic]
    exact opens_nothing fun _ => trivial
  · rw [if_neg magic, if_neg magic]
    apply (prints_load32 _).opens
    rw [eLfanew_offset]
    by_cases signed : (peFields memory start).signature ≠ imageNtSignature
    · rw [if_pos signed]
      apply (prints_validateNtHeader keeps start).opens
      rw [if_pos signed]
      exact opens_nothing fun _ => trivial
    · rw [if_neg signed]
      apply (prints_validateNtHeader keeps start).opens
      rw [if_neg signed]
      exact opens_loadImage keeps start load size

end Prints

/-! ## The round trip -/

/-- A value is its own upper half only if it is 0. -/
theorem upperHalf_eq_self {value : UINTN} :
    (BitVec.ofNat 32 (value.toNat >>> 32)).setWidth 64 = value ↔ value = 0 := by
  constructor
  · intro same
    have bound := value.isLt
    have half := congrArg BitVec.toNat same
    rw [toNat_widen (by omega), BitVec.toNat_ofNat, Nat.shiftRight_eq_div_pow] at half
    apply BitVec.eq_of_toNat_eq
    change value.toNat = 0
    omega
  · rintro rfl
    rfl

/-- Decoding undoes the PE32+ encoding exactly when `ImageBase` is 0. -/
theorem peHeaders_decode_iff (headers : Pe32PlusHeaders) (memory : Mem) (start : UINTN)
    (encoded : headers.EncodedAt memory start) :
    peFields memory start = headers.fields ↔ headers.imageBase = 0 := by
  rw [peFields_eq encoded, ← upperHalf_eq_self]
  constructor
  · intro same
    exact congrArg PeFields.imageBase same
  · intro half
    rw [half]
    rfl

section Runs

variable {σ : Type} {firmware : Firmware σ} {headers : Pe32PlusHeaders} {memory : Mem}
  {start : UINTN} (encoded : headers.EncodedAt memory start)

include encoded

/-- The value and the stores of `parse_pe` depend on no field that is misread. -/
theorem Pe32PlusHeaders.EncodedAt.parsePeRun_eq (load size : UINTN) :
    parsePeRun start load size memory =
      let fields := headers.fields
      let ntHeader := start + fields.eLfanew.setWidth 64
      if fields.eMagic = imageDosSignature ∧ fields.signature = imageNtSignature then
        let sections := sectionsRun ntHeader
          (ntHeader + 24 + fields.sizeOfOptionalHeader.setWidth 64) start load size 0 memory
        (if sections.1 then fields.addressOfEntryPoint.setWidth 64 + load else 0, sections.2)
      else
        (0, []) := by
  rw [parsePeRun_fields, peFields_eq encoded]

variable (keeps : PrintKeepsMemory firmware)

include keeps

/-- `load_section` on the headers as they are encoded prints what is encoded. -/
theorem Pe32PlusHeaders.EncodedAt.opens_loadSection {index : Nat} {header : SectionHeader}
    (listed : headers.fields.sections[index]? = some header) (load size : UINTN) :
    let address := sectionHeaderAt (sectionTableOf memory start) index
    Opens firmware memory (loadSection address start load size (BitVec.ofNat 64 index))
      (header.info (nameAt memory 8 (sectionHeaderField address "Name")) (BitVec.ofNat 64 index)
        start load) := by
  rw [← encoded.sections_eq, peSections, List.getElem?_map, Option.map_eq_some_iff] at listed
  obtain ⟨position, inRange, rfl⟩ := listed
  obtain ⟨bound, rfl⟩ := List.getElem?_eq_some_iff.mp inRange
  rw [List.getElem_range]
  exact HvisorUefiPacker.opens_loadSection keeps start _ load size _

/-- A run of `parse_pe` on a file with both signatures prints the encoded values exactly
    when `ImageBase` is 0. -/
theorem Pe32PlusHeaders.EncodedAt.opens_parsePe_iff (state : σ) (load size : UINTN)
    (magic : headers.fields.eMagic = imageDosSignature)
    (signed : headers.fields.signature = imageNtSignature) :
    Opens firmware memory (parsePe start load size) (headers.fields.opening start load size) ↔
      headers.imageBase = 0 := by
  have reads := @opens_parsePe σ firmware memory keeps start load size
  rw [← upperHalf_eq_self]
  constructor
  · intro prints
    obtain ⟨_, after, returned, actual⟩ := wp_iff_exec.mp (reads (World.initial memory state) rfl)
    have claimed := post_of_returned (prints (World.initial memory state) rfl) returned
    rw [peFields_eq encoded] at actual
    have same := (List.prefix_of_prefix_length_le actual claimed
      (by simp [PeFields.opening, magic, signed, PeFields.optionalHeaderInfo])).eq_of_length
      (by simp [PeFields.opening, magic, signed, PeFields.optionalHeaderInfo])
    have lines := List.map_injective_iff.mpr printed_injective (List.append_cancel_left same)
    simp only [PeFields.opening, magic, signed, PeFields.optionalHeaderInfo, ne_eq,
      not_true_eq_false, if_false, List.append_cancel_left_eq, List.cons.injEq, List.cons_append,
      Prod.mk.injEq, PrintArg.number.injEq, and_true, true_and] at lines
    exact lines.2.2
  · intro half
    rw [peFields_eq encoded, half] at reads
    exact reads

end Runs

/-- Values by name; a field that is not listed is 0. -/
def fieldValues (values : List (String × Nat)) : FieldValues :=
  fun field => BitVec.ofNat _ ((values.lookup field.1).getD 0)

/-- The headers of a file with one section. -/
def smallHeaders (imageBase : Nat) : Pe32PlusHeaders where
  dosHeader := fieldValues [("e_magic", 0x5A4D), ("e_lfanew", 64)]
  signature := imageNtSignature
  fileHeader := fieldValues [("NumberOfSections", 1), ("SizeOfOptionalHeader", 112)]
  optionalHeader := fieldValues
    [("Magic", 0x20B), ("SizeOfCode", 16), ("AddressOfEntryPoint", 0x1000),
      ("BaseOfCode", 0x1000), ("ImageBase", imageBase), ("SizeOfStackReserve", 0x100000)]
  dataDirectory := []
  sections := [fieldValues [("VirtualSize", 16), ("VirtualAddress", 0x1000),
    ("SizeOfRawData", 16), ("PointerToRawData", 240)]]
  sizeOfOptionalHeader := by decide
  numberOfSections := by decide

theorem smallHeaders_encoded (imageBase : Nat) :
    (smallHeaders imageBase).EncodedAt
      (fileMemory 0x1000 ((smallHeaders imageBase).bytes [])) 0x1000 := by
  apply @Pe32PlusHeaders.encodedAt_of_bytes _ _ _ []
  · rfl
  · apply holds_fileMemory
    simp [Pe32PlusHeaders.bytes, Pe32PlusHeaders.ntHeadersBytes,
      Pe32PlusHeaders.sectionTableBytes, smallHeaders, Layout.size, imageDosHeader,
      imageFileHeader, imageSectionHeader, pe32PlusOptionalHeader]

theorem peHeaders_decode_zero :
    peFields (fileMemory 0x1000 ((smallHeaders 0).bytes [])) 0x1000 = (smallHeaders 0).fields :=
  (peHeaders_decode_iff _ _ _ (smallHeaders_encoded 0)).mpr rfl

/-- The usual `ImageBase` of a 64-bit image is read as 1. -/
theorem peHeaders_misread :
    (smallHeaders 0x140000000).EncodedAt
      (fileMemory 0x1000 ((smallHeaders 0x140000000).bytes [])) 0x1000 ∧
    (peFields (fileMemory 0x1000 ((smallHeaders 0x140000000).bytes [])) 0x1000).imageBase = 1 ∧
    (smallHeaders 0x140000000).fields.imageBase = 0x140000000 ∧
    peFields (fileMemory 0x1000 ((smallHeaders 0x140000000).bytes [])) 0x1000 ≠
      (smallHeaders 0x140000000).fields := by
  have decoded := peFields_eq (smallHeaders_encoded 0x140000000)
  refine ⟨smallHeaders_encoded _, ?_, rfl, ?_⟩
  · rw [decoded]
    rfl
  · rw [decoded]
    intro same
    exact absurd (congrArg PeFields.imageBase same) (by decide)

end HvisorUefiPacker
