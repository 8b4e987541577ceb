import HvisorUefiPacker.PeHeader

/-! # parse.c

`parse_pe` and its helpers.  Every field is read from memory where the C code
reads it, the section count again before every round of the section loop.
-/

namespace HvisorUefiPacker

open Interaction Interaction.Program ByteMemory

def convertSizeToStr (size : UINTN) : List Byte :=
  if size.toNat < 1024 then
    ascii (toString size.toNat ++ " B")
  else if size.toNat < 1024 * 1024 then
    ascii (toString (size.toNat / 1024) ++ " KB")
  else if size.toNat < 1024 * 1024 * 1024 then
    ascii (toString (size.toNat / (1024 * 1024)) ++ " MB")
  else
    ascii (toString (size.toNat / (1024 * 1024 * 1024)) ++ " GB")

/-- The loop of `parse_section_name`, over the rounds that are left. -/
def sectionNameFrom : Nat → UINTN → Packer (List Byte)
  | 0, _ => pure []
  | rounds + 1, name => do
    let char ← load name
    if char = 0 then
      pure []
    else do
      let rest ← sectionNameFrom rounds (name + 1)
      pure (char :: rest)

/-- The string `parse_section_name` leaves in its static buffer. -/
def parseSectionName (name size : UINTN) : Packer (List Byte) :=
  sectionNameFrom (min size.toNat imageSizeofShortName.toNat) name

/-- The check the two header validations make of a value they have read. -/
def validateValue {w : Nat} (value expected : BitVec w) (invalid ok : String) :
    Packer EfiStatus :=
  if value ≠ expected then do
    print invalid [.widen value]
    pure efiInvalidParameter
  else do
    print ok [.widen value]
    pure efiSuccess

def validateDosHeader (dosHeader : UINTN) : Packer EfiStatus := do
  let eMagic ← load16 (dosHeader + imageDosHeader.offset "e_magic")
  validateValue eMagic imageDosSignature
    "[ERROR] parse_pe: invalid dos header: e_magic = 0x%x\n"
    "[INFO] parse_pe: dos header is ok: e_magic = 0x%x\n"

def validateNtHeader (ntHeader : UINTN) : Packer EfiStatus := do
  let signature ← load32 (ntHeader + imageNtHeaders.offset "Signature")
  validateValue signature imageNtSignature
    "[ERROR] parse_pe: invalid nt header: Signature = 0x%x\n"
    "[INFO] parse_pe: nt header is ok: Signature = 0x%x\n"

/-- One line of a header dump: a 32-bit field, read and printed. -/
def printField (format : String) (field : UINTN) : Packer Unit := do
  let value ← load32 field
  print format [.widen value]

def printOptionalHeaderInfo (ntHeader : UINTN) : Packer Unit := do
  print "[INFO] parse_pe: optional header:\n" []
  printField "[INFO] parse_pe:   SizeOfCode = %d\n" (optionalHeaderField ntHeader "SizeOfCode")
  printField "[INFO] parse_pe:   SizeOfInitializedData = %d\n"
    (optionalHeaderField ntHeader "SizeOfInitializedData")
  printField "[INFO] parse_pe:   SizeOfUninitializedData = %d\n"
    (optionalHeaderField ntHeader "SizeOfUninitializedData")
  printField "[INFO] parse_pe:   AddressOfEntryPoint = 0x%lx\n"
    (optionalHeaderField ntHeader "AddressOfEntryPoint")
  printField "[INFO] parse_pe:   BaseOfCode = 0x%lx\n" (optionalHeaderField ntHeader "BaseOfCode")
  printField "[INFO] parse_pe:   ImageBase = 0x%lx\n" (optionalHeaderField ntHeader "ImageBase")

/-- The lines `load_section` prints before its check. -/
def printSectionInfo (sectionHeader sectionIndex sectionStart sectionSize sectionEnd
    sectionLoadAddr : UINTN) : Packer Unit := do
  print "[INFO] parse_pe:   Section %d:\n" [.number sectionIndex]
  let name ← parseSectionName (sectionHeaderField sectionHeader "Name") imageSizeofShortName
  print "[INFO] parse_pe:     Name = %s\n" [.text name]
  printField "[INFO] parse_pe:     VirtualSize = %d\n"
    (sectionHeaderField sectionHeader "VirtualSize")
  printField "[INFO] parse_pe:     VirtualAddress = 0x%lx\n"
    (sectionHeaderField sectionHeader "VirtualAddress")
  printField "[INFO] parse_pe:     SizeOfRawData = %d\n"
    (sectionHeaderField sectionHeader "SizeOfRawData")
  print "[INFO] parse_pe:   section_start = 0x%lx\n" [.number sectionStart]
  print "[INFO] parse_pe:   section_size = %d\n" [.number sectionSize]
  print "[INFO] parse_pe:   section_end = 0x%lx\n" [.number sectionEnd]
  print "[INFO] parse_pe:   section_load_addr = 0x%lx\n" [.number sectionLoadAddr]

/-- `sectionEnd` may have wrapped, and the name and the sizes are printed before the
    check. -/
def loadSection (sectionHeader efiFileStartAddr efiLoadAddr efiSize sectionIndex : UINTN) :
    Packer EfiStatus := do
  let pointerToRawData ← load32 (sectionHeaderField sectionHeader "PointerToRawData")
  let sectionStart := efiFileStartAddr + pointerToRawData.setWidth 64
  let sizeOfRawData ← load32 (sectionHeaderField sectionHeader "SizeOfRawData")
  let sectionSize : UINTN := sizeOfRawData.setWidth 64
  let sectionEnd := sectionStart + sectionSize
  let virtualAddress ← load32 (sectionHeaderField sectionHeader "VirtualAddress")
  let sectionLoadAddr := efiLoadAddr + virtualAddress.setWidth 64
  printSectionInfo sectionHeader sectionIndex sectionStart sectionSize sectionEnd sectionLoadAddr
  if sectionEnd > efiFileStartAddr + efiSize then do
    print "[ERROR] parse_pe: section end out of range\n" []
    pure efiInvalidParameter
  else do
    copyMem sectionLoadAddr sectionStart sectionSize
    print "[INFO] parse_pe:   memcpy2 done: from 0x%lx to 0x%lx, size = %d\n"
      [.number sectionStart, .number sectionLoadAddr, .number sectionSize]
    pure efiSuccess

/-- The section loop from round `i` on; `false` is the `return 0` inside it.  The count
    is 16 bits wide, so 65536 rounds are more than the loop ever makes.  It is read in
    every round, as a section may have been loaded over it. -/
def loadSectionsFuel (ntHeader sectionHeader efiFileStartAddr efiLoadAddr efiSize : UINTN) :
    Nat → Nat → Packer Bool
  | 0, _ => pure true
  | fuel + 1, i => do
    let numberOfSections ← load16 (fileHeaderField ntHeader "NumberOfSections")
    if i < numberOfSections.toNat then do
      let status ← loadSection (sectionHeaderAt sectionHeader i) efiFileStartAddr efiLoadAddr
        efiSize (BitVec.ofNat 64 i)
      if efiError status then
        pure false
      else
        loadSectionsFuel ntHeader sectionHeader efiFileStartAddr efiLoadAddr efiSize fuel (i + 1)
    else
      pure true

def loadSections (ntHeader sectionHeader efiFileStartAddr efiLoadAddr efiSize : UINTN) (i : Nat) :
    Packer Bool :=
  loadSectionsFuel ntHeader sectionHeader efiFileStartAddr efiLoadAddr efiSize (65536 - i) i

/-- The fuel is never what ends the loop. -/
theorem loadSections_eq (ntHeader sectionHeader efiFileStartAddr efiLoadAddr efiSize : UINTN)
    {i : Nat} (reached : i < 65536) :
    loadSections ntHeader sectionHeader efiFileStartAddr efiLoadAddr efiSize i = (do
      let numberOfSections ← load16 (fileHeaderField ntHeader "NumberOfSections")
      if i < numberOfSections.toNat then do
        let status ← loadSection (sectionHeaderAt sectionHeader i) efiFileStartAddr efiLoadAddr
          efiSize (BitVec.ofNat 64 i)
        if efiError status then
          pure false
        else
          loadSections ntHeader sectionHeader efiFileStartAddr efiLoadAddr efiSize (i + 1)
      else
        pure true) := by
  obtain ⟨fuel, remaining⟩ : ∃ fuel, 65536 - i = fuel + 1 := ⟨65535 - i, by omega⟩
  have next : 65536 - (i + 1) = fuel := by omega
  rw [loadSections, remaining, loadSectionsFuel]
  simp only [loadSections, next]

/-- `parse_pe` once both headers are validated. -/
def loadImage (ntHeader efiFileStartAddr efiLoadAddr efiSize : UINTN) : Packer UINTN := do
  printOptionalHeaderInfo ntHeader
  let addressOfEntryPoint ← load32 (optionalHeaderField ntHeader "AddressOfEntryPoint")
  let entry := addressOfEntryPoint.setWidth 64 + efiLoadAddr
  let sizeOfOptionalHeader ← load16 (fileHeaderField ntHeader "SizeOfOptionalHeader")
  let sectionHeader :=
    ntHeader + imageNtHeaders.offset "OptionalHeader" + sizeOfOptionalHeader.setWidth 64
  print "[INFO] parse_pe: section header@ 0x%lx:\n" [.number sectionHeader]
  let loaded ← loadSections ntHeader sectionHeader efiFileStartAddr efiLoadAddr efiSize 0
  if loaded then do
    print "[INFO] parse_pe: section header end\n" []
    print "[INFO] parse_pe: entry point = 0x%lx\n" [.number entry]
    return entry
  else
    return 0

/-- `return 0` anywhere means that something was wrong.  Nothing asks whether the header
    that `e_lfanew` leads to is in the file. -/
def parsePe (efiFileStartAddr efiLoadAddr efiSize : UINTN) : Packer UINTN := do
  print "[INFO] parse_pe: efi_file_start_addr = 0x%lx\n" [.number efiFileStartAddr]
  print "[INFO] parse_pe: efi_load_addr = 0x%lx\n" [.number efiLoadAddr]
  print "[INFO] parse_pe: efi_size = %llu (%s)\n"
    [.number efiSize, .text (convertSizeToStr efiSize)]
  let status ← validateDosHeader efiFileStartAddr
  if efiError status then
    return 0
  else do
    let eLfanew ← load32 (efiFileStartAddr + imageDosHeader.offset "e_lfanew")
    let ntHeader := efiFileStartAddr + eLfanew.setWidth 64
    let status ← validateNtHeader ntHeader
    if efiError status then
      return 0
    else
      loadImage ntHeader efiFileStartAddr efiLoadAddr efiSize

end HvisorUefiPacker
