import HvisorUefiPacker.Core

/-! # acpi.c

`acpi_dump` and its helpers, over the packed structures of acpi.h.  The
configuration table is the list of its entries; the ACPI tables are in memory,
and every field is read where the C code reads it.
-/

namespace HvisorUefiPacker

open Interaction Interaction.Program ByteMemory

/-! ## acpi.h -/

def acpiRsdp : Layout :=
  [("Signature", 8), ("Checksum", 1), ("OemId", 6), ("Revision", 1), ("RsdtAddress", 4),
    ("Length", 4), ("XsdtAddress", 8), ("ExtendedChecksum", 1), ("Reserved", 3)]

def acpiTableHeader : Layout :=
  [("Signature", 4), ("Length", 4), ("Revision", 1), ("Checksum", 1), ("OemId", 6),
    ("OemTableId", 8), ("OemRevision", 4), ("CreatorId", 4), ("CreatorRevision", 4)]

/-- `ACPI_FADT` up to its two fields for the DSDT. -/
def acpiFadt : Layout :=
  [("Header", acpiTableHeader.size), ("FirmwareCtrl", 4), ("Dsdt", 4), ("Reserved", 1),
    ("PreferredPmProfile", 1), ("SciInt", 2), ("SmiCmd", 4), ("AcpiEnable", 1),
    ("AcpiDisable", 1), ("S4BiosReq", 1), ("PstateCnt", 1), ("Pm1aEvtBlk", 4),
    ("Pm1bEvtBlk", 4), ("Pm1aCntBlk", 4), ("Pm1bCntBlk", 4), ("Pm2CntBlk", 4), ("PmTmrBlk", 4),
    ("Gpe0Blk", 4), ("Gpe1Blk", 4), ("Pm1EvtLen", 1), ("Pm1CntLen", 1), ("Pm2CntLen", 1),
    ("PmTmrLen", 1), ("Gpe0BlkLen", 1), ("Gpe1BlkLen", 1), ("Gpe1Base", 1), ("CstCnt", 1),
    ("PLvl2Lat", 2), ("PLvl3Lat", 2), ("FlushSize", 2), ("FlushStride", 2), ("DutyOffset", 1),
    ("DutyWidth", 1), ("DayAlrm", 1), ("MonAlrm", 1), ("Century", 1), ("IaPcBootArch", 2),
    ("Reserved2", 1), ("Flags", 4), ("ResetReg", 12), ("ResetValue", 1), ("Reserved3", 3),
    ("X_FirmwareCtrl", 8), ("X_Dsdt", 8)]

theorem acpiTableHeader_size : acpiTableHeader.size = 36 := by decide

section Offsets

@[simp] theorem revision_offset : acpiRsdp.offset "Revision" = 15 := by decide
@[simp] theorem rsdtAddress_offset : acpiRsdp.offset "RsdtAddress" = 16 := by decide
@[simp] theorem xsdtAddress_offset : acpiRsdp.offset "XsdtAddress" = 24 := by decide
@[simp] theorem length_offset : acpiTableHeader.offset "Length" = 4 := by decide
@[simp] theorem dsdt_offset : acpiFadt.offset "Dsdt" = 40 := by decide
@[simp] theorem xDsdt_offset : acpiFadt.offset "X_Dsdt" = 140 := by decide

end Offsets

structure EfiConfigurationTable where
  vendorGuid : EfiGuid
  vendorTable : UINTN
deriving DecidableEq

def acpi20TableGuid : EfiGuid :=
  ⟨0x8868e871, 0xe4f1, 0x11d3, #v[0xbc, 0x22, 0x00, 0x80, 0xc7, 0x3c, 0x88, 0x81]⟩

def acpiTableGuid : EfiGuid :=
  ⟨0xeb9d2d30, 0x2d88, 0x11d3, #v[0x9a, 0x16, 0x00, 0x90, 0x27, 0x3f, 0xc1, 0x4d]⟩

def efiDtbTableGuid : EfiGuid :=
  ⟨0xb1b621d5, 0xf19c, 0x41a5, #v[0x83, 0x0b, 0xd9, 0x15, 0x2c, 0x69, 0xaa, 0xe0]⟩

def devicePathProtocol : EfiGuid :=
  ⟨0x09576e91, 0x6d3f, 0x11d2, #v[0x8e, 0x39, 0x00, 0xa0, 0xc9, 0x69, 0x72, 0x3b]⟩

/-! ## parse_aml -/

/-- A full line is ended in the loop, a partial one behind it. -/
def parseAml (archOps : Option Arch) (aml : UINTN) (size : Int32) : Packer Unit := do
  enter (.parseAml aml size)
  if aml = 0 ∨ size.toInt ≤ 0 then
    pure ()
  else do
    printStr archOps (ascii "[INFO] parse_aml: dumping AML code to UART:\n")
    forInt size fun i => do
      let byte ← load (aml + BitVec.ofNat 64 i)
      printHex archOps byte
      if (i + 1) % 32 = 0 then
        printStr archOps (ascii "\n\r")
      else
        pure ()
    if size.toInt % 32 ≠ 0 then
      printStr archOps (ascii "\n\r")
    else
      pure ()

/-! ## Finding the tables -/

/-- What `find_acpi_table` returns, and the two variables it sets. -/
structure FoundAcpiTable where
  status : EfiStatus
  acpiTable : UINTN
  version : Int32

/-- The loop of `find_acpi_table`, over the entries that are left; the two variables
    keep the values they come with unless a table is found.  An ACPI 1.0 entry is taken
    at once, also when an ACPI 2.0 entry follows. -/
def findAcpiTable (acpiTable : UINTN) (version : Int32) :
    List EfiConfigurationTable → Packer FoundAcpiTable
  | [] => pure ⟨efiNotFound, acpiTable, version⟩
  | ect :: rest =>
    if compareGuid ect.vendorGuid acpi20TableGuid = 0 then do
      print "[INFO] acpi_dump: ACPI table found, version=2\n" []
      pure ⟨efiSuccess, ect.vendorTable, 2⟩
    else if compareGuid ect.vendorGuid acpiTableGuid = 0 then do
      print "[INFO] acpi_dump: ACPI table found, version=1\n" []
      pure ⟨efiSuccess, ect.vendorTable, 1⟩
    else
      findAcpiTable acpiTable version rest

def dumpTableSignature (table : UINTN) (tableName : String) : Packer Unit := do
  print "[INFO] acpi_dump: %a address: 0x%lx, signature: "
    [.text (ascii tableName), .number table]
  repeatFrom (fun j => do
    let c ← load (table + BitVec.ofNat 64 j)
    print "%c" [.widen (printable c)]) 8 0
  print "\n" []

/-- What `find_rsdp_tables` returns, and the three pointers it sets. -/
structure RsdpTables where
  status : EfiStatus
  rsdp : UINTN
  rsdt : UINTN
  xsdt : UINTN

def findRsdpTables (acpiTable : UINTN) : Packer RsdpTables := do
  let order ← compareMem acpiTable (ascii "RSD PTR ")
  if order = 0 then do
    print "[INFO] acpi_dump: RSDP found\n" []
    print "[INFO] acpi_dump: RSDP address: 0x%lx\n" [.number acpiTable]
    let revision ← load (acpiTable + acpiRsdp.offset "Revision")
    if 2 ≤ revision then do
      let shown ← load64 (acpiTable + acpiRsdp.offset "XsdtAddress")
      print "[INFO] acpi_dump: XSDT address: 0x%lx\n" [.number shown]
      let xsdt ← load64 (acpiTable + acpiRsdp.offset "XsdtAddress")
      pure ⟨efiSuccess, acpiTable, 0, xsdt⟩
    else do
      let shown ← load32 (acpiTable + acpiRsdp.offset "RsdtAddress")
      print "[INFO] acpi_dump: RSDT address: 0x%lx\n" [.widen shown]
      let rsdt ← load32 (acpiTable + acpiRsdp.offset "RsdtAddress")
      pure ⟨efiSuccess, acpiTable, rsdt.setWidth 64, 0⟩
  else
    pure ⟨efiNotFound, 0, 0, 0⟩

/-- The check for a DTB table; `CompareGuid` is 0 for equal GUIDs, so it stops at the
    first entry that is none. -/
def checkDtbTable : List EfiConfigurationTable → Packer Unit
  | [] => pure ()
  | ect :: rest =>
    if compareGuid ect.vendorGuid efiDtbTableGuid ≠ 0 then do
      print "[INFO] acpi_dump: EFI DTB table found\n" []
      print "[INFO] acpi_dump: EFI DTB table address: 0x%lx\n" [.number ect.vendorTable]
    else
      checkDtbTable rest

/-! ## Dumping headers -/

/-- `for (int j = 0; j < count; j++) Print(L"%c", field[j]);` -/
def dumpChars (field : UINTN) (count : Nat) : Packer Unit :=
  repeatFrom (fun j => do
    let c ← load (field + BitVec.ofNat 64 j)
    print "%c" [.widen c]) count 0

def dumpByte (format : String) (field : UINTN) : Packer Unit := do
  let value ← load field
  print format [.widen value]

def dumpWord (format : String) (field : UINTN) : Packer Unit := do
  let value ← load32 field
  print format [.widen value]

def dumpXsdtInfo (xsdt : UINTN) : Packer Unit := do
  print "[INFO] acpi_dump: XSDT found\n" []
  print "[INFO] acpi_dump: XSDT address: 0x%lx\n" [.number xsdt]
  print "[INFO] acpi_dump: XSDT signature: " []
  dumpChars (xsdt + acpiTableHeader.offset "Signature") 4
  print "\n" []
  dumpWord "[INFO] acpi_dump: XSDT length: %d\n" (xsdt + acpiTableHeader.offset "Length")
  dumpByte "[INFO] acpi_dump: XSDT revision: %d\n" (xsdt + acpiTableHeader.offset "Revision")
  dumpByte "[INFO] acpi_dump: XSDT checksum: %d\n" (xsdt + acpiTableHeader.offset "Checksum")
  print "[INFO] acpi_dump: XSDT OEM ID: " []
  dumpChars (xsdt + acpiTableHeader.offset "OemId") 6
  print "\n" []
  print "[INFO] acpi_dump: XSDT OEM Table ID: " []
  dumpChars (xsdt + acpiTableHeader.offset "OemTableId") 8
  print "\n" []
  dumpWord "[INFO] acpi_dump: XSDT OEM Revision: %d\n"
    (xsdt + acpiTableHeader.offset "OemRevision")
  dumpWord "[INFO] acpi_dump: XSDT Creator ID: %d\n" (xsdt + acpiTableHeader.offset "CreatorId")
  dumpWord "[INFO] acpi_dump: XSDT Creator Revision: %d\n"
    (xsdt + acpiTableHeader.offset "CreatorRevision")

/-- `dump_dsdt_info`, which returns at once for a null pointer. -/
def dumpDsdtInfo (dsdt : UINTN) : Packer Unit :=
  if dsdt = 0 then
    pure ()
  else do
    print "[INFO] acpi_dump: DSDT signature: " []
    dumpChars (dsdt + acpiTableHeader.offset "Signature") 4
    print "\n" []
    dumpWord "[INFO] acpi_dump: DSDT length: %d\n" (dsdt + acpiTableHeader.offset "Length")
    dumpByte "[INFO] acpi_dump: DSDT revision: %d\n" (dsdt + acpiTableHeader.offset "Revision")
    dumpByte "[INFO] acpi_dump: DSDT checksum: %d\n" (dsdt + acpiTableHeader.offset "Checksum")
    let length ← load32 (dsdt + acpiTableHeader.offset "Length")
    let codeSize := length - BitVec.ofNat 32 acpiTableHeader.size
    print "[INFO] acpi_dump: DSDT code size: %d\n" [.widen codeSize]

/-! ## find_fadt_in_xsdt -/

/-- The bound of the loop, a `size_t` that wraps for a length below the header's. -/
def xsdtEntryCount (length : UINT32) : Nat :=
  (length.setWidth 64 - BitVec.ofNat 64 acpiTableHeader.size : UINTN).toNat / 8

/-- `xsdt->TableEntries[i]` -/
def xsdtEntryAt (xsdt : UINTN) (i : Nat) : UINTN :=
  xsdt + BitVec.ofNat 64 acpiTableHeader.size + BitVec.ofNat 64 (8 * i)

/-- The loop of `find_fadt_in_xsdt` from round `i` on.  It makes fewer than `2 ^ 61`
    rounds, since that many entries do not fit an address space.  Every round reads the
    length again. -/
def findFadtFuel (xsdt : UINTN) : Nat → Nat → Packer UINTN
  | 0, _ => pure 0
  | fuel + 1, i => do
    let length ← load32 (xsdt + acpiTableHeader.offset "Length")
    if i < xsdtEntryCount length then do
      let entry ← load64 (xsdtEntryAt xsdt i)
      print "[INFO] acpi_dump: XSDT entry %d: 0x%lx\n"
        [.number (BitVec.ofNat 64 i), .number entry]
      print "[INFO] acpi_dump: XSDT entry %d signature: " [.number (BitVec.ofNat 64 i)]
      printChars entry 4
      print "\n" []
      let order ← compareMem entry (ascii "FACP")
      if order = 0 then do
        print "[INFO] acpi_dump: FADT found\n" []
        print "[INFO] acpi_dump: FADT address: 0x%lx\n" [.number entry]
        pure entry
      else
        findFadtFuel xsdt fuel (i + 1)
    else
      pure 0

def findFadtInXsdt (xsdt : UINTN) : Packer UINTN := findFadtFuel xsdt (2 ^ 61) 0

/-! ## acpi_dump -/

/-- `fadt`, which stays null without an XSDT. -/
def fadtOf (xsdt : UINTN) : Packer UINTN :=
  if xsdt ≠ 0 then do
    dumpXsdtInfo xsdt
    findFadtInXsdt xsdt
  else
    pure 0

/-- `dsdt`, which stays null without a FADT. -/
def dsdtOf (fadt : UINTN) : Packer UINTN :=
  if fadt ≠ 0 then do
    let shown ← load32 (fadt + acpiFadt.offset "Dsdt")
    print "[INFO] acpi_dump: DSDT address: 0x%lx\n" [.widen shown]
    let dsdt ← load32 (fadt + acpiFadt.offset "Dsdt")
    pure (dsdt.setWidth 64)
  else
    pure 0

def dumpDsdt (archOps : Option Arch) (dsdt : UINTN) : Packer Unit := do
  dumpDsdtInfo dsdt
  if dsdt ≠ 0 then do
    let length ← load32 (dsdt + acpiTableHeader.offset "Length")
    parseAml archOps dsdt length
  else
    pure ()

/-- `acpi_dump` once the RSDP has named its tables; the code never looks at an RSDT. -/
def dumpTables (archOps : Option Arch) (xsdt : UINTN) : Packer EfiStatus := do
  let fadt ← fadtOf xsdt
  let dsdt ← dsdtOf fadt
  dumpDsdt archOps dsdt
  pure efiSuccess

/-- `dp_protocol` is never read, and uninitialised when its address is passed. -/
def acpiDump (archOps : Option Arch) (configurationTable : List EfiConfigurationTable) :
    Packer EfiStatus := do
  let (status, _) ← call (.locateProtocol devicePathProtocol 0)
  if efiError status then do
    print "[ERROR] acpi_dump: LocateProtocol failed\n" []
    halt
  else do
    let found ← findAcpiTable 0 0 configurationTable
    if efiError found.status then do
      print "[ERROR] acpi_dump: ACPI table not found\n" []
      pure found.status
    else do
      dumpTableSignature found.acpiTable "ACPI table"
      let tables ← findRsdpTables found.acpiTable
      if efiError tables.status then do
        print "[ERROR] acpi_dump: RSDP not found\n" []
        pure tables.status
      else do
        checkDtbTable configurationTable
        dumpTables archOps tables.xsdt

end HvisorUefiPacker
