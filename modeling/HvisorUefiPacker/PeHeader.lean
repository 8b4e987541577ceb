import HvisorUefiPacker.RuntimeLib

/-! # pe.h

The structures of pe.h that `parse_pe` reads through pointers.  Every field of
these is naturally aligned, so none is padded.
-/

namespace HvisorUefiPacker

open Interaction ByteMemory

def imageDosHeader : Layout :=
  [("e_magic", 2), ("e_cblp", 2), ("e_cp", 2), ("e_crlc", 2), ("e_cparhdr", 2),
    ("e_minalloc", 2), ("e_maxalloc", 2), ("e_ss", 2), ("e_sp", 2), ("e_csum", 2), ("e_ip", 2),
    ("e_cs", 2), ("e_lfarlc", 2), ("e_ovno", 2), ("e_res", 8), ("e_oemid", 2), ("e_oeminfo", 2),
    ("e_res2", 20), ("e_lfanew", 4)]

def imageFileHeader : Layout :=
  [("Machine", 2), ("NumberOfSections", 2), ("TimeDateStamp", 4), ("PointerToSymbolTable", 4),
    ("NumberOfSymbols", 4), ("SizeOfOptionalHeader", 2), ("Characteristics", 2)]

/-- `IMAGE_OPTIONAL_HEADER` as far as `parse_pe` reads it. -/
def imageOptionalHeader : Layout :=
  [("Magic", 2), ("MajorLinkerVersion", 1), ("MinorLinkerVersion", 1), ("SizeOfCode", 4),
    ("SizeOfInitializedData", 4), ("SizeOfUninitializedData", 4), ("AddressOfEntryPoint", 4),
    ("BaseOfCode", 4), ("BaseOfData", 4), ("ImageBase", 4)]

/-- `IMAGE_NT_HEADERS`: the signature, then the two headers. -/
def imageNtHeaders : Layout :=
  [("Signature", 4), ("FileHeader", imageFileHeader.size),
    ("OptionalHeader", imageOptionalHeader.size)]

def imageSectionHeader : Layout :=
  [("Name", 8), ("VirtualSize", 4), ("VirtualAddress", 4), ("SizeOfRawData", 4),
    ("PointerToRawData", 4), ("PointerToRelocations", 4), ("PointerToLinenumbers", 4),
    ("NumberOfRelocations", 2), ("NumberOfLinenumbers", 2), ("Characteristics", 4)]

theorem imageSectionHeader_size : imageSectionHeader.size = 40 := by decide

def imageDosSignature : UINT16 := 0x5A4D
def imageNtSignature : UINT32 := 0x00004550
def imageSizeofShortName : UINTN := 8

/-! ## Field addresses -/

/-- `&nt_header->FileHeader.field` -/
def fileHeaderField (ntHeader : UINTN) (field : String) : UINTN :=
  ntHeader + (imageNtHeaders.offset "FileHeader" + imageFileHeader.offset field)

/-- `&nt_header->OptionalHeader.field` -/
def optionalHeaderField (ntHeader : UINTN) (field : String) : UINTN :=
  ntHeader + (imageNtHeaders.offset "OptionalHeader" + imageOptionalHeader.offset field)

/-- `&section_header->field` -/
def sectionHeaderField (sectionHeader : UINTN) (field : String) : UINTN :=
  sectionHeader + imageSectionHeader.offset field

/-- `&section_header[i]` -/
def sectionHeaderAt (sectionHeader : UINTN) (i : Nat) : UINTN :=
  sectionHeader + BitVec.ofNat 64 (imageSectionHeader.size * i)

section Offsets

variable (base : UINTN)

@[simp] theorem eMagic_offset : imageDosHeader.offset "e_magic" = 0 := by decide
@[simp] theorem eLfanew_offset : imageDosHeader.offset "e_lfanew" = 60 := by decide
@[simp] theorem signature_offset : imageNtHeaders.offset "Signature" = 0 := by decide
@[simp] theorem optionalHeader_offset : imageNtHeaders.offset "OptionalHeader" = 24 := by decide

@[simp] theorem numberOfSections_field : fileHeaderField base "NumberOfSections" = base + 6 := by
  rw [fileHeaderField, show imageNtHeaders.offset "FileHeader" +
    imageFileHeader.offset "NumberOfSections" = 6 by decide]

@[simp] theorem sizeOfOptionalHeader_field :
    fileHeaderField base "SizeOfOptionalHeader" = base + 20 := by
  rw [fileHeaderField, show imageNtHeaders.offset "FileHeader" +
    imageFileHeader.offset "SizeOfOptionalHeader" = 20 by decide]

@[simp] theorem addressOfEntryPoint_field :
    optionalHeaderField base "AddressOfEntryPoint" = base + 40 := by
  rw [optionalHeaderField, show imageNtHeaders.offset "OptionalHeader" +
    imageOptionalHeader.offset "AddressOfEntryPoint" = 40 by decide]

@[simp] theorem virtualSize_field : sectionHeaderField base "VirtualSize" = base + 8 := by
  rw [sectionHeaderField, show imageSectionHeader.offset "VirtualSize" = 8 by decide]

@[simp] theorem virtualAddress_field : sectionHeaderField base "VirtualAddress" = base + 12 := by
  rw [sectionHeaderField, show imageSectionHeader.offset "VirtualAddress" = 12 by decide]

@[simp] theorem sizeOfRawData_field : sectionHeaderField base "SizeOfRawData" = base + 16 := by
  rw [sectionHeaderField, show imageSectionHeader.offset "SizeOfRawData" = 16 by decide]

@[simp] theorem pointerToRawData_field :
    sectionHeaderField base "PointerToRawData" = base + 20 := by
  rw [sectionHeaderField, show imageSectionHeader.offset "PointerToRawData" = 20 by decide]

end Offsets

end HvisorUefiPacker
