import HvisorUefiPacker.Soundness.AcpiRun

/-! # Which DSDT acpi_dump finds

* `AcpiTables` is a well-formed ACPI table set: an RSDP of either kind, its root
  table with one FADT among the entries, and the DSDT the FADT names.
* `wp_acpiDump` says what `acpi_dump` dumps on such a set.
* `acpiDump_reaches_dsdt_iff`: it is the DSDT exactly for an XSDT whose FADT has the
  DSDT in its 32-bit field.
-/

namespace HvisorUefiPacker

open Interaction Interaction.Program ByteMemory

variable {σ : Type} {firmware : Firmware σ}

/-! ## A table set -/

/-- `fadt->Dsdt`, zero-extended. -/
def fadtDsdt32 (memory : Mem) (fadt : UINTN) : UINTN := (word32 memory (fadt + 40)).setWidth 64

/-- The DSDT a FADT names: in `X_Dsdt` if the table reaches that far and the field is
    not zero, and in `Dsdt` otherwise. -/
def fadtDsdt (memory : Mem) (fadt : UINTN) : UINTN :=
  if 148 ≤ (tableLength memory fadt).toNat ∧ word64 memory (fadt + 140) ≠ 0 then
    word64 memory (fadt + 140)
  else
    fadtDsdt32 memory fadt

/-- A root table: behind its header `entry 0`, `entry 1`, … of `width` bytes each, one
    of which is the FADT. -/
structure RootTable (memory : Mem) (root : UINTN) (width : Nat) (entry : Nat → UINTN)
    (fadt : UINTN) : Prop where
  valid : root ≠ 0
  header : 36 ≤ (tableLength memory root).toNat
  named : ∃ i < ((tableLength memory root).toNat - 36) / width, entry i = fadt
  only : ∀ i < ((tableLength memory root).toNat - 36) / width,
    HasSignature memory (entry i) "FACP" → entry i = fadt

/-- An RSDP of either kind whose root table has this FADT. -/
structure AcpiRoot (memory : Mem) (rsdp fadt : UINTN) : Prop where
  signature : HasSignature memory rsdp "RSD PTR "
  root :
    (rsdpRevision memory rsdp = 0 ∧
      let rsdt := (word32 memory (rsdp + 16)).setWidth 64
      RootTable memory rsdt 4 (fun i =>
        (word32 memory (rsdt + 36 + BitVec.ofNat 64 (4 * i))).setWidth 64) fadt) ∨
    (2 ≤ rsdpRevision memory rsdp ∧
      let xsdt := word64 memory (rsdp + 24)
      RootTable memory xsdt 8 (fun i => word64 memory (xsdt + 36 + BitVec.ofNat 64 (8 * i))) fadt)

/-- The configuration table names the RSDP (in its first ACPI entry), and the tables
    lead from there to a FADT and its DSDT. -/
structure AcpiTables (memory : Mem) (configurationTable : List EfiConfigurationTable)
    (rsdp fadt : UINTN) : Prop where
  named : ∃ guid, configurationTable.find? (IsAcpiTable ·) = some ⟨guid, rsdp⟩
  root : AcpiRoot memory rsdp fadt
  fadtValid : fadt ≠ 0
  fadtSignature : HasSignature memory fadt "FACP"
  dsdtValid : fadtDsdt memory fadt ≠ 0

/-- The first match is the FADT, since no other table has its signature. -/
theorem RootTable.firstFadt_eq {memory : Mem} {xsdt fadt : UINTN}
    (root : RootTable memory xsdt 8
      (fun i => word64 memory (xsdt + 36 + BitVec.ofNat 64 (8 * i))) fadt)
    (signature : HasSignature memory fadt "FACP") :
    firstFadt memory (xsdtEntries memory xsdt) = fadt := by
  have entry : ∀ i, word64 memory (xsdtEntryAt xsdt i) =
      word64 memory (xsdt + 36 + BitVec.ofNat 64 (8 * i)) := by
    intro i
    rw [xsdtEntryAt, acpiTableHeader_size]
    rfl
  obtain ⟨k, bound, atFadt⟩ := root.named
  have member : fadt ∈ xsdtEntries memory xsdt := by
    apply List.mem_map.mpr
    exact ⟨k, List.mem_range.mpr bound, (entry k).trans atFadt⟩
  obtain ⟨first, found⟩ : ∃ first,
      (xsdtEntries memory xsdt).find? (HasSignature memory · "FACP") = some first := by
    apply Option.isSome_iff_exists.mp
    exact List.find?_isSome.mpr ⟨fadt, member, decide_eq_true signature⟩
  rw [firstFadt, found]
  obtain ⟨i, inside, named⟩ := List.mem_map.mp (List.mem_of_find?_eq_some found)
  have isFadt : HasSignature memory first "FACP" := by simpa using List.find?_some found
  rw [entry] at named
  rw [← named] at isFadt ⊢
  exact root.only i (List.mem_range.mp inside) isFadt

/-! ## What the program dumps -/

section Dumps

variable (keeps : PrintKeepsMemory firmware)

include keeps

/-- What is dumped for a DSDT pointer. -/
def dumpOf (memory : Mem) (dsdt : UINTN) : List (UINTN × Int32) :=
  if dsdt ≠ 0 then [(dsdt, tableLength memory dsdt)] else []

theorem wp_dsdtOf {fadt : UINTN} (fadtValid : fadt ≠ 0) (world : World σ) :
    wp (machine firmware) (dsdtOf fadt)
      (fun dsdt after => dsdt = fadtDsdt32 world.memory fadt ∧ world.Dumped after []) world := by
  rw [dsdtOf, if_pos fadtValid, wp_bind, wp_load32]
  refine wp_after_plain keeps (plain_print (by decide) _) fun _ after passed => ?_
  rw [wp_bind, wp_load32, dsdt_offset, passed.memory]
  exact ⟨rfl, passed.dumped⟩

theorem wp_dumpDsdt (archOps : Option Arch) (dsdt : UINTN) (world : World σ) :
    wp (machine firmware) (dumpDsdt archOps dsdt)
      (fun _ after => world.Dumped after (dumpOf world.memory dsdt)) world := by
  refine wp_after_plain keeps (plain_dumpDsdtInfo _) fun _ middle passed => ?_
  by_cases valid : dsdt ≠ 0
  · rw [dumpOf, if_pos valid, if_pos valid, wp_bind, wp_load32, length_offset, passed.memory]
    apply wp_mono (wp_parseAml keeps archOps dsdt _ middle)
    intro _ after dumped
    exact passed.dumped.trans dumped
  · rw [dumpOf, if_neg valid, if_neg valid]
    exact passed.dumped

/-- Without an XSDT nothing is dumped. -/
theorem wp_dumpTables_null (archOps : Option Arch) (world : World σ) :
    wp (machine firmware) (dumpTables archOps 0)
      (fun status after => status = efiSuccess ∧ world.Dumped after []) world := by
  have noFadt : fadtOf 0 = pure 0 := rfl
  have noDsdt : dsdtOf 0 = pure 0 := rfl
  rw [dumpTables, noFadt, pure_eq, done_bind, noDsdt, pure_eq, done_bind, wp_bind]
  apply wp_mono (wp_dumpDsdt keeps archOps 0 world)
  intro _ after dumped
  exact ⟨rfl, dumped⟩

/-- With one, the table behind the 32-bit field of its FADT is. -/
theorem wp_dumpTables (archOps : Option Arch) {xsdt fadt : UINTN} (world : World σ)
    (root : RootTable world.memory xsdt 8
      (fun i => word64 world.memory (xsdt + 36 + BitVec.ofNat 64 (8 * i))) fadt)
    (fadtValid : fadt ≠ 0) (signature : HasSignature world.memory fadt "FACP") :
    wp (machine firmware) (dumpTables archOps xsdt)
      (fun status after =>
        status = efiSuccess ∧
          world.Dumped after (dumpOf world.memory (fadtDsdt32 world.memory fadt))) world := by
  rw [dumpTables, fadtOf, if_pos root.valid, Program.bind_assoc]
  refine wp_after_plain keeps (plain_dumpXsdtInfo _) fun _ first firstPassed => ?_
  rw [wp_bind]
  rw [← firstPassed.memory] at root signature ⊢
  apply wp_mono (wp_findFadtInXsdt keeps root.header)
  rw [root.firstFadt_eq signature]
  rintro found second ⟨rfl, scanned⟩
  rw [wp_bind]
  apply wp_mono (wp_dsdtOf keeps fadtValid second)
  rintro dsdt third ⟨rfl, thirdLooked⟩
  have looked : world.Dumped third [] :=
    (firstPassed.dumped.trans scanned.dumped).trans thirdLooked
  rw [wp_bind]
  apply wp_mono (wp_dumpDsdt keeps archOps _ third)
  intro _ after dumped
  rw [looked.memory, scanned.dumped.memory, ← firstPassed.memory] at dumped
  exact ⟨rfl, looked.trans dumped⟩

end Dumps

/-! ## acpi_dump on a table set -/

/-- With its protocol refused, `acpi_dump` halts. -/
theorem wp_acpiDump_refused (archOps : Option Arch) (entries : List EfiConfigurationTable)
    (memory : Mem) (state : σ) (refused : efiError (locateStatus firmware state memory) = true)
    (post : EfiStatus → World σ → Prop) :
    ¬ wp (machine firmware) (acpiDump archOps entries) post (World.initial memory state) := by
  rw [acpiDump, wp_bind, wp_call]
  change ¬ wp _ (if efiError (locateStatus firmware state memory) = true then _ else _) _ _
  rw [if_pos refused, wp_bind, wp_print, wp_halt]
  exact not_false

/-- What `acpi_dump` dumps: nothing for an RSDP without an XSDT, and otherwise the table
    behind the FADT's 32-bit field. -/
theorem wp_acpiDump (keeps : KeepsMemory firmware) (archOps : Option Arch)
    {entries : List EfiConfigurationTable} {memory : Mem} {rsdp fadt : UINTN} (state : σ)
    (tables : AcpiTables memory entries rsdp fadt)
    (located : efiError (locateStatus firmware state memory) = false) :
    wp (machine firmware) (acpiDump archOps entries)
      (fun status after =>
        status = efiSuccess ∧
          amlDumps after.trace =
            if 2 ≤ rsdpRevision memory rsdp then dumpOf memory (fadtDsdt32 memory fadt) else [])
      (World.initial memory state) := by
  have found : AcpiFound firmware state memory entries rsdp :=
    ⟨located, tables.named, tables.root.signature⟩
  apply wp_acpiDump_found keeps archOps found
  intro start passed
  refine wp_after_looks keeps.print (looks_checkDtbTable _) fun _ middle checked => ?_
  have late : (World.initial memory state).Dumped middle [] := passed.dumped.trans checked
  have kept : middle.memory = memory := late.memory
  rw [rsdpXsdt]
  rcases tables.root.root with ⟨original, _⟩ | ⟨modern, root⟩
  · have noXsdt : ¬ 2 ≤ rsdpRevision memory rsdp := by
      rw [original]
      decide
    rw [if_neg noXsdt, if_neg noXsdt]
    apply wp_mono (wp_dumpTables_null keeps.print archOps middle)
    rintro status after ⟨success, dumped⟩
    exact ⟨success, (late.trans dumped).dumps⟩
  · rw [if_pos modern, if_pos modern, ← kept]
    have signature := tables.fadtSignature
    rw [← kept] at root signature
    apply wp_mono (wp_dumpTables keeps.print archOps middle root tables.fadtValid signature)
    rintro status after ⟨success, dumped⟩
    exact ⟨success, (late.trans dumped).dumps⟩

/-- `acpi_dump` returns success, having called `parse_aml` once: for this table. -/
def DumpsTable (firmware : Firmware σ) (state : σ) (archOps : Option Arch)
    (entries : List EfiConfigurationTable) (memory : Mem) (dsdt : UINTN) : Prop :=
  wp (machine firmware) (acpiDump archOps entries)
    (fun status after =>
      status = efiSuccess ∧ amlDumps after.trace = [(dsdt, tableLength memory dsdt)])
    (World.initial memory state)

/-- On a well-formed table set, `acpi_dump` reaches the DSDT exactly when its protocol is
    there, the RSDP has an XSDT, and the 32-bit field of the FADT holds the DSDT's address. -/
theorem acpiDump_reaches_dsdt_iff (keeps : KeepsMemory firmware) (archOps : Option Arch)
    (state : σ) {memory : Mem} {entries : List EfiConfigurationTable} {rsdp fadt : UINTN}
    (tables : AcpiTables memory entries rsdp fadt) :
    DumpsTable firmware state archOps entries memory (fadtDsdt memory fadt) ↔
      efiError (locateStatus firmware state memory) = false ∧
        2 ≤ rsdpRevision memory rsdp ∧ fadtDsdt32 memory fadt = fadtDsdt memory fadt := by
  constructor
  · intro dumps
    have located : efiError (locateStatus firmware state memory) = false :=
      Bool.eq_false_iff.mpr fun refused =>
        wp_acpiDump_refused archOps entries memory state refused _ dumps
    refine ⟨located, ?_⟩
    obtain ⟨status, after, returned, _, reached⟩ := wp_iff_exec.mp dumps
    obtain ⟨_, dumped⟩ :=
      post_of_returned (wp_acpiDump keeps archOps state tables located) returned
    rw [reached] at dumped
    by_cases modern : 2 ≤ rsdpRevision memory rsdp
    · rw [if_pos modern, dumpOf] at dumped
      by_cases valid : fadtDsdt32 memory fadt ≠ 0
      · rw [if_pos valid] at dumped
        exact ⟨modern, (Prod.mk.inj (List.cons.inj dumped).1).1.symm⟩
      · rw [if_neg valid] at dumped
        cases dumped
    · rw [if_neg modern] at dumped
      cases dumped
  · rintro ⟨located, modern, same⟩
    apply wp_mono (wp_acpiDump keeps archOps state tables located)
    rintro status after ⟨success, dumped⟩
    rw [if_pos modern, same, dumpOf, if_pos tables.dsdtValid] at dumped
    exact ⟨success, dumped⟩

/-! ### Two table sets -/

/-- The bytes of a table add up to 0. -/
def SumsToZero (memory : Mem) (table : UINTN) (length : Nat) : Prop :=
  (readBytes memory table length).sum = 0

instance (memory : Mem) (table : UINTN) (length : Nat) :
    Decidable (SumsToZero memory table length) := inferInstanceAs (Decidable (_ = _))

/-- An RSDP of revision 2 at 0x1000, an XSDT with one entry at 0x2000, a FADT of 276
    bytes at 0x3000, and a DSDT without code, by its address and the fields that name it. -/
def smallTables (dsdt : Nat) (fields : List (Nat × Byte)) : Mem :=
  sparseMemory 0
    ([(0x1000, 0x52), (0x1001, 0x53), (0x1002, 0x44), (0x1003, 0x20), (0x1004, 0x50),
      (0x1005, 0x54), (0x1006, 0x52), (0x1007, 0x20), (0x1008, 0xDF), (0x100F, 2), (0x1014, 36),
      (0x1019, 0x20), (0x1020, 0xBC),
      (0x2000, 0x58), (0x2001, 0x53), (0x2002, 0x44), (0x2003, 0x54), (0x2004, 44), (0x2008, 1),
      (0x2009, 0x60), (0x2025, 0x30),
      (0x3000, 0x46), (0x3001, 0x41), (0x3002, 0x43), (0x3003, 0x50), (0x3004, 0x14), (0x3005, 1),
      (0x3008, 6),
      (dsdt, 0x44), (dsdt + 1, 0x53), (dsdt + 2, 0x44), (dsdt + 3, 0x54), (dsdt + 4, 36),
      (dsdt + 8, 2), (dsdt + 9, 0xAB)] ++ fields)

/-- The DSDT at 0x4000, in both fields. -/
def lowTables : Mem := smallTables 0x4000 [(0x3009, 0x4B), (0x3029, 0x40), (0x308D, 0x40)]

/-- The DSDT at 4 GiB, which only `X_Dsdt` can hold. -/
def highTables : Mem := smallTables 0x100000000 [(0x3009, 0xCA), (0x3090, 1)]

theorem lowTables_valid : AcpiTables lowTables [⟨acpi20TableGuid, 0x1000⟩] 0x1000 0x3000 where
  named := ⟨acpi20TableGuid, by decide⟩
  root := ⟨by decide, Or.inr ⟨by decide, by decide, by decide, ⟨0, by decide, by decide⟩, by decide⟩⟩
  fadtValid := by decide
  fadtSignature := by decide
  dsdtValid := by decide

theorem acpiDump_reaches_low_dsdt :
    DumpsTable (plainFirmware 0 efiSuccess) () none [⟨acpi20TableGuid, 0x1000⟩] lowTables 0x4000 := by
  have names : fadtDsdt lowTables 0x3000 = 0x4000 := by decide
  rw [← names]
  exact (acpiDump_reaches_dsdt_iff (plainFirmware_keeps 0 efiSuccess) none () lowTables_valid).mpr
    ⟨by decide, by decide, by decide⟩

theorem highTables_valid : AcpiTables highTables [⟨acpi20TableGuid, 0x1000⟩] 0x1000 0x3000 where
  named := ⟨acpi20TableGuid, by decide⟩
  root := ⟨by decide, Or.inr ⟨by decide, by decide, by decide, ⟨0, by decide, by decide⟩, by decide⟩⟩
  fadtValid := by decide
  fadtSignature := by decide
  dsdtValid := by decide

/-- Every checksum of the set is right, the RSDP's two included. -/
theorem highTables_sums :
    SumsToZero highTables 0x1000 20 ∧ SumsToZero highTables 0x1000 36 ∧
      SumsToZero highTables 0x2000 44 ∧ SumsToZero highTables 0x3000 276 ∧
      SumsToZero highTables 0x100000000 36 :=
  ⟨by decide, by decide, by decide, by decide +kernel, by decide⟩

/-- A DSDT at 4 GiB is not dumped, although every table is valid. -/
theorem acpiDump_misses_high_dsdt :
    AcpiTables highTables [⟨acpi20TableGuid, 0x1000⟩] 0x1000 0x3000 ∧
      (SumsToZero highTables 0x1000 20 ∧ SumsToZero highTables 0x1000 36 ∧
        SumsToZero highTables 0x2000 44 ∧ SumsToZero highTables 0x3000 276 ∧
        SumsToZero highTables 0x100000000 36) ∧
      fadtDsdt highTables 0x3000 = 0x100000000 ∧
      ¬ DumpsTable (plainFirmware 0 efiSuccess) () none [⟨acpi20TableGuid, 0x1000⟩] highTables
        0x100000000 := by
  refine ⟨highTables_valid, highTables_sums, by decide, fun dumps => ?_⟩
  obtain ⟨status, after, returned, _, reached⟩ := wp_iff_exec.mp dumps
  obtain ⟨_, dumped⟩ := post_of_returned
    (wp_acpiDump (plainFirmware_keeps 0 efiSuccess) none () highTables_valid (by decide)) returned
  have nothing : (if 2 ≤ rsdpRevision highTables 0x1000 then
      dumpOf highTables (fadtDsdt32 highTables 0x3000) else []) = [] := by decide
  rw [reached, nothing] at dumped
  cases dumped

end HvisorUefiPacker
