import HvisorUefiPacker.Acpi

/-! # What acpi.c does to the world

Nothing but look at memory, print, and call `parse_aml`.

* `Op.Plain` are the requests of its helpers: they print no line of `acpiReports`,
  which the lookups print when they find something.
* `World.Passed` is what a plain program leaves behind, `World.Dumped` what it leaves
  of calls to `parse_aml`.
* `wp_findAcpiTable`, `wp_findRsdpTables` and `wp_findFadtInXsdt` say what the lookups
  find, the last one also how far it looks.
-/

namespace HvisorUefiPacker

open Interaction Interaction.Program ByteMemory

variable {σ : Type} {firmware : Firmware σ}

/-! ## Looking at memory -/

def amlDump : Event → Option (UINTN × Int32)
  | .enter (.parseAml aml size) => some (aml, size)
  | _ => none

/-- The calls of `parse_aml` in a trace. -/
def amlDumps (trace : List Event) : List (UINTN × Int32) := trace.filterMap amlDump

/-- Memory is as it was, and `parse_aml` has been called for `dumped` in between. -/
structure World.Dumped (before after : World σ) (dumped : List (UINTN × Int32)) : Prop where
  memory : after.memory = before.memory
  dumps : amlDumps after.trace = amlDumps before.trace ++ dumped

theorem World.Dumped.refl (world : World σ) : world.Dumped world [] := ⟨rfl, by simp⟩

theorem World.Dumped.trans {first second third : World σ} {early late : List (UINTN × Int32)}
    (left : first.Dumped second early) (right : second.Dumped third late) :
    first.Dumped third (early ++ late) := by
  constructor
  · rw [right.memory, left.memory]
  · rw [right.dumps, left.dumps, List.append_assoc]

theorem World.dumped_of_event {before after : World σ} {event : Event}
    (memory : after.memory = before.memory) (trace : after.trace = before.trace ++ [event])
    (other : amlDump event = none) : before.Dumped after [] := by
  refine ⟨memory, ?_⟩
  rw [trace, amlDumps, List.filterMap_append, List.filterMap_cons_none other]
  rfl

/-- Requests that only look: loads, and prints on either console. -/
def Op.Looks : Op → Prop
  | .load _ | .putChar _ | .service (.print _ _) => True
  | _ => False

/-- The lines that the lookups in the configuration table and in the XSDT print. -/
def acpiReports : List String :=
  ["[INFO] acpi_dump: EFI DTB table found\n", "[INFO] acpi_dump: EFI DTB table address: 0x%lx\n",
    "[INFO] acpi_dump: XSDT entry %d: 0x%lx\n"]

/-- Neither a report nor the call of another function. -/
def Event.Plain : Event → Prop
  | .service (.print format _) _ => format ∉ acpiReports
  | .enter _ => False
  | _ => True

/-- Requests that only look and report nothing. -/
def Op.Plain : Op → Prop
  | .load _ | .putChar _ => True
  | .service (.print format _) => format ∉ acpiReports
  | _ => False

/-- Memory is as it was, and nothing has been reported in between. -/
structure World.Passed (before after : World σ) : Prop where
  memory : after.memory = before.memory
  events : before.Extends Event.Plain after

theorem World.Passed.refl (world : World σ) : world.Passed world := ⟨rfl, .refl world⟩

theorem World.Passed.trans {first second third : World σ} (left : first.Passed second)
    (right : second.Passed third) : first.Passed third :=
  ⟨right.memory.trans left.memory, left.events.trans right.events⟩

theorem World.Passed.dumped {before after : World σ} (passed : before.Passed after) :
    before.Dumped after [] := by
  obtain ⟨events, trace, plain⟩ := passed.events
  refine ⟨passed.memory, ?_⟩
  have none : events.filterMap amlDump = [] := by
    apply List.filterMap_eq_nil_iff.mpr
    intro event member
    cases event with
    | enter callee => exact (plain _ member).elim
    | _ => rfl
  rw [trace, amlDumps, List.filterMap_append, none]
  rfl

section Plain

theorem Op.Plain.looks {op : Op} (plain : op.Plain) : op.Looks := by
  cases op with
  | service request => cases request <;> trivial
  | _ => exact plain

theorem plain_load (address : UINTN) : Issues Op.Plain (load address) := issues_load.mpr trivial

theorem plain_load32 (address : UINTN) : Issues Op.Plain (load32 address) :=
  load32_issues fun _ _ => trivial

theorem plain_load64 (address : UINTN) : Issues Op.Plain (load64 address) :=
  load64_issues fun _ _ => trivial

theorem plain_print {format : String} (other : format ∉ acpiReports) (args : List PrintArg) :
    Issues Op.Plain (print format args) := issues_print.mpr other

theorem plain_dumpChars (field : UINTN) (count : Nat) : Issues Op.Plain (dumpChars field count) :=
  issues_repeatFrom fun _ _ _ => issues_bind (plain_load _) fun _ => plain_print (by decide) _

theorem plain_printChars (c : UINTN) (n : Int32) : Issues Op.Plain (printChars c n) :=
  printChars_issues (fun _ _ => trivial) fun _ => show "%c" ∉ acpiReports by decide

theorem plain_dumpByte {format : String} (other : format ∉ acpiReports) (field : UINTN) :
    Issues Op.Plain (dumpByte format field) :=
  issues_bind (plain_load _) fun _ => plain_print other _

theorem plain_dumpWord {format : String} (other : format ∉ acpiReports) (field : UINTN) :
    Issues Op.Plain (dumpWord format field) :=
  issues_bind (plain_load32 _) fun _ => plain_print other _

theorem plain_findAcpiTable (acpiTable : UINTN) (version : Int32)
    (entries : List EfiConfigurationTable) :
    Issues Op.Plain (findAcpiTable acpiTable version entries) := by
  induction entries with
  | nil => trivial
  | cons ect rest inductionHypothesis =>
    rw [findAcpiTable]
    split
    · exact issues_bind (plain_print (by decide) _) fun _ => trivial
    · split
      · exact issues_bind (plain_print (by decide) _) fun _ => trivial
      · exact inductionHypothesis

theorem plain_dumpTableSignature (table : UINTN) (tableName : String) :
    Issues Op.Plain (dumpTableSignature table tableName) := by
  refine issues_bind (plain_print (by decide) _) fun _ => ?_
  refine issues_bind ?_ fun _ => plain_print (by decide) _
  exact issues_repeatFrom fun _ _ _ => issues_bind (plain_load _) fun _ => plain_print (by decide) _

theorem looks_checkDtbTable (entries : List EfiConfigurationTable) :
    Issues Op.Looks (checkDtbTable entries) := by
  induction entries with
  | nil => trivial
  | cons ect rest inductionHypothesis =>
    rw [checkDtbTable]
    split
    · exact issues_bind (issues_print.mpr trivial) fun _ => issues_print.mpr trivial
    · exact inductionHypothesis

theorem plain_compareMem (dest : UINTN) (literal : List Byte) :
    Issues Op.Plain (compareMem dest literal) := compareMem_issues fun _ _ => trivial

theorem plain_dumpXsdtInfo (xsdt : UINTN) : Issues Op.Plain (dumpXsdtInfo xsdt) := by
  iterate 3 refine issues_bind (plain_print (by decide) _) fun _ => ?_
  refine issues_bind (plain_dumpChars _ _) fun _ => ?_
  refine issues_bind (plain_print (by decide) _) fun _ => ?_
  refine issues_bind (plain_dumpWord (by decide) _) fun _ => ?_
  iterate 2 refine issues_bind (plain_dumpByte (by decide) _) fun _ => ?_
  iterate 2
    refine issues_bind (plain_print (by decide) _) fun _ => ?_
    refine issues_bind (plain_dumpChars _ _) fun _ => ?_
    refine issues_bind (plain_print (by decide) _) fun _ => ?_
  iterate 2 refine issues_bind (plain_dumpWord (by decide) _) fun _ => ?_
  exact plain_dumpWord (by decide) _

theorem plain_dsdtOf (fadt : UINTN) : Issues Op.Plain (dsdtOf fadt) := by
  unfold dsdtOf
  split
  · refine issues_bind (plain_load32 _) fun _ => ?_
    refine issues_bind (plain_print (by decide) _) fun _ => ?_
    exact issues_bind (plain_load32 _) fun _ => trivial
  · trivial

theorem plain_dumpDsdtInfo (dsdt : UINTN) : Issues Op.Plain (dumpDsdtInfo dsdt) := by
  unfold dumpDsdtInfo
  split
  · trivial
  · refine issues_bind (plain_print (by decide) _) fun _ => ?_
    refine issues_bind (plain_dumpChars _ _) fun _ => ?_
    refine issues_bind (plain_print (by decide) _) fun _ => ?_
    refine issues_bind (plain_dumpWord (by decide) _) fun _ => ?_
    iterate 2 refine issues_bind (plain_dumpByte (by decide) _) fun _ => ?_
    exact issues_bind (plain_load32 _) fun _ => plain_print (by decide) _

theorem plain_printStr (archOps : Option Arch) (str : List Byte) :
    Issues Op.Plain (printStr archOps str) := printStr_issues (fun _ => trivial) archOps str

theorem plain_printChar (archOps : Option Arch) (c : Byte) :
    Issues Op.Plain (printChar archOps c) := by
  cases archOps with
  | none => trivial
  | some arch => exact issues_putChar.mpr trivial

theorem plain_printHex (archOps : Option Arch) (n : UINT8) :
    Issues Op.Plain (printHex archOps n) :=
  issues_bind (plain_printChar _ _) fun _ => plain_printChar _ _

/-- `parse_aml` announces itself, and is plain from there on. -/
theorem parseAml_parts (archOps : Option Arch) (aml : UINTN) (size : Int32) :
    ∃ rest, parseAml archOps aml size = (enter (.parseAml aml size) >>= fun _ => rest) ∧
      Issues Op.Plain rest := by
  refine ⟨_, rfl, ?_⟩
  split
  · trivial
  · refine issues_bind (plain_printStr _ _) fun _ => ?_
    refine issues_bind (forInt_issues fun i _ => ?_) fun _ => ?_
    · refine issues_bind (plain_load _) fun _ => ?_
      refine issues_bind (plain_printHex _ _) fun _ => ?_
      split
      · exact plain_printStr _ _
      · trivial
    · split
      · exact plain_printStr _ _
      · trivial

end Plain

section Programs

variable (keeps : PrintKeepsMemory firmware)

include keeps

/-- A program that only looks returns, with memory and the dumps as they were. -/
theorem wp_looks {α : Type} {program : Packer α} (looks : Issues Op.Looks program) (world : World σ) :
    wp (machine firmware) program (fun _ after => world.Dumped after []) world := by
  apply wp_of_issues (fun before after => World.Dumped before after []) World.Dumped.refl
    (fun _ _ _ left right => left.trans right) ?_ looks world
  intro op before allowed
  cases op with
  | load address => exact ⟨_, _, rfl, .refl before⟩
  | putChar char => exact ⟨_, _, rfl, World.dumped_of_event rfl rfl rfl⟩
  | service request =>
    cases request with
    | print format args =>
      exact ⟨_, _, rfl, World.dumped_of_event (serve_print_memory keeps _ _ _) rfl rfl⟩
    | _ => cases allowed
  | _ => cases allowed

/-- A plain program returns, and leaves nothing but plain events. -/
theorem wp_plain {α : Type} {program : Packer α} (plain : Issues Op.Plain program)
    (world : World σ) :
    wp (machine firmware) program (fun _ after => world.Passed after) world := by
  apply wp_of_issues (fun before after => World.Passed before after) World.Passed.refl
    (fun _ _ _ left right => left.trans right) ?_ plain world
  intro op before allowed
  cases op with
  | load address => exact ⟨_, _, rfl, .refl before⟩
  | putChar char => exact ⟨_, _, rfl, rfl, .of_event rfl trivial⟩
  | service request =>
    cases request with
    | print format args =>
      exact ⟨_, _, rfl, serve_print_memory keeps _ _ _, .of_event rfl allowed⟩
    | _ => cases allowed
  | _ => cases allowed

/-- A plain first part is only in the way. -/
theorem wp_after_plain {α β : Type} {program : Packer α} {next : α → Packer β}
    {post : β → World σ → Prop} {world : World σ} (plain : Issues Op.Plain program)
    (rest : ∀ value after, world.Passed after → wp (machine firmware) (next value) post after) :
    wp (machine firmware) (program >>= next) post world := by
  rw [wp_bind]
  exact wp_mono (wp_plain keeps plain world) rest

/-- A first part that only looks is only in the way. -/
theorem wp_after_looks {α β : Type} {program : Packer α} {next : α → Packer β}
    {post : β → World σ → Prop} {world : World σ} (looks : Issues Op.Looks program)
    (rest : ∀ value after, world.Dumped after [] → wp (machine firmware) (next value) post after) :
    wp (machine firmware) (program >>= next) post world := by
  rw [wp_bind]
  exact wp_mono (wp_looks keeps looks world) rest

/-- `parse_aml` is plain but for its own call, which is the dump. -/
theorem wp_parseAml (archOps : Option Arch) (aml : UINTN) (size : Int32) (world : World σ) :
    wp (machine firmware) (parseAml archOps aml size)
      (fun _ after => world.Dumped after [(aml, size)]) world := by
  obtain ⟨rest, parts, plain⟩ := parseAml_parts archOps aml size
  have entered : world.Dumped (world.log (.enter (.parseAml aml size))) [(aml, size)] := by
    refine ⟨rfl, ?_⟩
    rw [World.log_trace, amlDumps, List.filterMap_append]
    rfl
  rw [parts, wp_bind, wp_enter]
  apply wp_mono (wp_plain keeps plain _)
  intro _ after passed
  exact entered.trans passed.dumped

end Programs

/-! ## The tables -/

/-- The bytes of a signature. -/
def HasSignature (memory : Mem) (table : UINTN) (signature : String) : Prop :=
  readBytes memory table (ascii signature).length = ascii signature

instance (memory : Mem) (table : UINTN) (signature : String) :
    Decidable (HasSignature memory table signature) := inferInstanceAs (Decidable (_ = _))

/-- The `Length` of a table's header. -/
def tableLength (memory : Mem) (table : UINTN) : UINT32 := word32 memory (table + 4)

/-- `rsdp->Revision` -/
def rsdpRevision (memory : Mem) (rsdp : UINTN) : UINT8 := memory (rsdp + 15)

/-- The XSDT of an RSDP, for the code: null unless the revision is at least 2. -/
def rsdpXsdt (memory : Mem) (rsdp : UINTN) : UINTN :=
  if 2 ≤ rsdpRevision memory rsdp then word64 memory (rsdp + 24) else 0

def IsAcpiTable (ect : EfiConfigurationTable) : Prop :=
  ect.vendorGuid = acpi20TableGuid ∨ ect.vendorGuid = acpiTableGuid

instance (ect : EfiConfigurationTable) : Decidable (IsAcpiTable ect) :=
  inferInstanceAs (Decidable (_ ∨ _))

/-- What `find_acpi_table` finds: the first entry with either GUID. -/
def firstAcpiTable (acpiTable : UINTN) (version : Int32) (entries : List EfiConfigurationTable) :
    FoundAcpiTable :=
  match entries.find? (IsAcpiTable ·) with
  | some ect =>
    ⟨efiSuccess, ect.vendorTable, if ect.vendorGuid = acpi20TableGuid then 2 else 1⟩
  | none => ⟨efiNotFound, acpiTable, version⟩

theorem wp_findAcpiTable (acpiTable : UINTN) (version : Int32)
    (entries : List EfiConfigurationTable) (world : World σ) :
    wp (machine firmware) (findAcpiTable acpiTable version entries)
      (fun found _ => found = firstAcpiTable acpiTable version entries) world := by
  induction entries generalizing world with
  | nil => rfl
  | cons ect rest inductionHypothesis =>
    rw [findAcpiTable, firstAcpiTable, List.find?_cons]
    by_cases isAcpi20 : ect.vendorGuid = acpi20TableGuid
    · rw [if_pos (compareGuid_eq_zero.mpr isAcpi20), decide_eq_true (show IsAcpiTable ect from
        Or.inl isAcpi20)]
      simp [isAcpi20]
    · rw [if_neg fun same => isAcpi20 (compareGuid_eq_zero.mp same)]
      by_cases isAcpi : ect.vendorGuid = acpiTableGuid
      · rw [if_pos (compareGuid_eq_zero.mpr isAcpi), decide_eq_true (show IsAcpiTable ect from
          Or.inr isAcpi)]
        simp [isAcpi20]
      · rw [if_neg fun same => isAcpi (compareGuid_eq_zero.mp same), decide_eq_false (show
          ¬ IsAcpiTable ect from not_or.mpr ⟨isAcpi20, isAcpi⟩)]
        exact inductionHypothesis world

section Lookups

variable (keeps : PrintKeepsMemory firmware)

include keeps

theorem wp_findRsdpTables {rsdp : UINTN} (world : World σ)
    (signature : HasSignature world.memory rsdp "RSD PTR ") :
    wp (machine firmware) (findRsdpTables rsdp)
      (fun tables after =>
        tables.status = efiSuccess ∧ tables.xsdt = rsdpXsdt world.memory rsdp ∧
          world.Passed after) world := by
  rw [findRsdpTables, wp_bind, wp_compareMem, if_pos (memOrder_eq_zero.mpr signature)]
  refine wp_after_plain keeps (plain_print (by decide) _) fun _ first firstPassed => ?_
  refine wp_after_plain keeps (plain_print (by decide) _) fun _ second secondPassed => ?_
  have announced : world.Passed second := firstPassed.trans secondPassed
  have revision : second.memory (rsdp + 15) = rsdpRevision world.memory rsdp := by
    rw [announced.memory]
    rfl
  rw [wp_bind, wp_load, revision_offset, revision, rsdpXsdt]
  by_cases modern : 2 ≤ rsdpRevision world.memory rsdp
  · rw [if_pos modern, if_pos modern, wp_bind, wp_load64]
    refine wp_after_plain keeps (plain_print (by decide) _) fun _ third thirdPassed => ?_
    have all : world.Passed third := announced.trans thirdPassed
    rw [wp_bind, wp_load64, xsdtAddress_offset, all.memory]
    exact ⟨rfl, rfl, all⟩
  · rw [if_neg modern, if_neg modern, wp_bind, wp_load32]
    refine wp_after_plain keeps (plain_print (by decide) _) fun _ third thirdPassed => ?_
    exact ⟨rfl, rfl, announced.trans thirdPassed⟩

end Lookups

/-! ## acpi_dump up to the RSDP -/

/-- What `LocateProtocol` answers for the device path protocol. -/
def locateStatus (firmware : Firmware σ) (state : σ) (memory : Mem) : EfiStatus :=
  Prod.fst (firmware (.locateProtocol devicePathProtocol 0) state memory).1

/-- `acpi_dump` gets as far as a valid RSDP. -/
structure AcpiFound (firmware : Firmware σ) (state : σ) (memory : Mem)
    (entries : List EfiConfigurationTable) (rsdp : UINTN) : Prop where
  located : efiError (locateStatus firmware state memory) = false
  named : ∃ guid, entries.find? (IsAcpiTable ·) = some ⟨guid, rsdp⟩
  signature : HasSignature memory rsdp "RSD PTR "

/-- With a valid RSDP, the two remaining parts are all that matters. -/
theorem wp_acpiDump_found (keeps : KeepsMemory firmware) (archOps : Option Arch)
    {entries : List EfiConfigurationTable} {memory : Mem} {rsdp : UINTN} {state : σ}
    {post : EfiStatus → World σ → Prop} (found : AcpiFound firmware state memory entries rsdp)
    (rest : ∀ after, (World.initial memory state).Passed after →
      wp (machine firmware)
        (checkDtbTable entries >>= fun _ => dumpTables archOps (rsdpXsdt memory rsdp)) post after) :
    wp (machine firmware) (acpiDump archOps entries) post (World.initial memory state) := by
  have success : ¬ efiError efiSuccess = true := by decide
  obtain ⟨guid, named⟩ := found.named
  have first : firstAcpiTable 0 0 entries =
      ⟨efiSuccess, rsdp, if guid = acpi20TableGuid then 2 else 1⟩ := by
    rw [firstAcpiTable, named]
  rw [acpiDump, wp_bind, wp_call]
  change wp _ (if efiError (locateStatus firmware state memory) = true then _ else _) _ _
  rw [if_neg (Bool.eq_false_iff.mp found.located), wp_bind]
  generalize served : World.serve firmware (.locateProtocol devicePathProtocol 0)
    (World.initial memory state) = start
  have began : (World.initial memory state).Passed start := by
    rw [← served]
    exact ⟨keeps.locateProtocol _ _ _ _, .of_event (World.serve_trace _ _ _) trivial⟩
  apply wp_mono (wp_and (wp_findAcpiTable 0 0 entries start)
    (wp_plain keeps.print (plain_findAcpiTable 0 0 entries) start))
  rintro _ second ⟨rfl, secondPassed⟩
  rw [first, if_neg success]
  refine wp_after_plain keeps.print (plain_dumpTableSignature _ _) fun _ third thirdPassed => ?_
  have early : (World.initial memory state).Passed third :=
    (began.trans secondPassed).trans thirdPassed
  have kept : third.memory = memory := early.memory
  have signature := found.signature
  rw [← kept] at signature
  rw [wp_bind]
  apply wp_mono (wp_findRsdpTables keeps.print third signature)
  rintro ⟨status, rsdp', rsdt, xsdt⟩ fourth ⟨rfl, rfl, fourthPassed⟩
  rw [if_neg success, kept]
  exact rest fourth (early.trans fourthPassed)

/-! ## The scan of the XSDT -/

def scanRound : Event → Bool
  | .service (.print format _) _ => decide (format = "[INFO] acpi_dump: XSDT entry %d: 0x%lx\n")
  | _ => false

/-- The rounds of `find_fadt_in_xsdt` in a trace, by the line each begins with. -/
def scanRounds (trace : List Event) : Nat := trace.countP scanRound

/-- Memory is as it was, and at most `rounds` rounds have been made in between. -/
structure World.Scanned (before after : World σ) (rounds : Nat) : Prop where
  dumped : before.Dumped after []
  rounds : scanRounds after.trace ≤ scanRounds before.trace + rounds

theorem World.Scanned.trans {first second third : World σ} {early late : Nat}
    (left : first.Scanned second early) (right : second.Scanned third late) :
    first.Scanned third (early + late) := by
  refine ⟨left.dumped.trans right.dumped, ?_⟩
  have earlyRounds := left.rounds
  have lateRounds := right.rounds
  omega

theorem World.Passed.scanned {before after : World σ} (passed : before.Passed after) :
    before.Scanned after 0 := by
  obtain ⟨events, trace, plain⟩ := passed.events
  have none : events.countP scanRound = 0 := by
    apply List.countP_eq_zero.mpr
    intro event member
    have isPlain := plain event member
    cases event with
    | service request reply =>
      cases request with
      | print format args =>
        intro round
        rw [of_decide_eq_true round] at isPlain
        exact isPlain (by decide)
      | _ => exact Bool.false_ne_true
    | _ => exact Bool.false_ne_true
  refine ⟨passed.dumped, ?_⟩
  rw [trace, scanRounds, List.countP_append, none]
  rfl

/-- The entries that lie in the XSDT as long as its header says it is. -/
def xsdtEntries (memory : Mem) (xsdt : UINTN) : List UINTN :=
  (List.range (((tableLength memory xsdt).toNat - 36) / 8)).map fun i =>
    word64 memory (xsdtEntryAt xsdt i)

/-- The first of the entries that is a FADT, or null. -/
def firstFadt (memory : Mem) (entries : List UINTN) : UINTN :=
  (entries.find? (HasSignature memory · "FACP")).getD 0

theorem xsdtEntries_drop {memory : Mem} {xsdt : UINTN} {i : Nat}
    (bound : i < ((tableLength memory xsdt).toNat - 36) / 8) :
    (xsdtEntries memory xsdt).drop i =
      word64 memory (xsdtEntryAt xsdt i) :: (xsdtEntries memory xsdt).drop (i + 1) := by
  rw [List.drop_eq_getElem_cons (by simpa [xsdtEntries] using bound)]
  simp [xsdtEntries]

theorem xsdtEntries_drop_eq_nil {memory : Mem} {xsdt : UINTN} {i : Nat}
    (behind : ((tableLength memory xsdt).toNat - 36) / 8 ≤ i) :
    (xsdtEntries memory xsdt).drop i = [] :=
  List.drop_eq_nil_of_le (by simpa [xsdtEntries] using behind)

/-- Above the size of the header nothing wraps. -/
theorem xsdtEntryCount_eq {length : UINT32} (header : 36 ≤ length.toNat) :
    xsdtEntryCount length = (length.toNat - 36) / 8 := by
  have bound := length.isLt
  rw [xsdtEntryCount, acpiTableHeader_size, BitVec.toNat_sub_of_le, BitVec.toNat_setWidth,
    Nat.mod_eq_of_lt (by omega)]
  · rfl
  · rw [BitVec.le_def, BitVec.toNat_setWidth, Nat.mod_eq_of_lt (by omega)]
    exact header

/-- From round `i` on, the scan finds the first FADT among the entries from `i` on, in
    no more rounds than there are entries left. -/
theorem wp_findFadtFuel (keeps : PrintKeepsMemory firmware) {memory : Mem} {xsdt : UINTN}
    (header : 36 ≤ (tableLength memory xsdt).toNat) {fuel i : Nat} {current : World σ}
    (same : current.memory = memory)
    (enough : ((tableLength memory xsdt).toNat - 36) / 8 ≤ fuel + i) :
    wp (machine firmware) (findFadtFuel xsdt fuel i)
      (fun found after => found = firstFadt memory ((xsdtEntries memory xsdt).drop i) ∧
        current.Scanned after (((tableLength memory xsdt).toNat - 36) / 8 - i)) current := by
  have length : word32 memory (xsdt + 4) = tableLength memory xsdt := rfl
  induction fuel generalizing i current with
  | zero =>
    rw [xsdtEntries_drop_eq_nil (by omega)]
    exact ⟨rfl, .refl current, Nat.le_add_right _ _⟩
  | succ fuel inductionHypothesis =>
    rw [findFadtFuel, wp_bind, wp_load32, length_offset, same, length, xsdtEntryCount_eq header]
    by_cases inside : i < ((tableLength memory xsdt).toNat - 36) / 8
    · rw [if_pos inside, xsdtEntries_drop inside, wp_bind, wp_load64, same, wp_bind, wp_print]
      generalize word64 memory (xsdtEntryAt xsdt i) = entry
      have begun : current.Scanned (current.serve firmware (.print
          "[INFO] acpi_dump: XSDT entry %d: 0x%lx\n"
          [.number (BitVec.ofNat 64 i), .number entry])) 1 := by
        refine ⟨World.dumped_of_event (serve_print_memory keeps _ _ _) rfl rfl, ?_⟩
        rw [World.serve_trace, scanRounds, List.countP_append]
        exact Nat.le_refl _
      refine wp_after_plain keeps (plain_print (by decide) _) fun _ first firstPassed => ?_
      refine wp_after_plain keeps (plain_printChars _ _) fun _ second secondPassed => ?_
      refine wp_after_plain keeps (plain_print (by decide) _) fun _ third thirdPassed => ?_
      have shown : current.Scanned third (1 + 0) :=
        begun.trans ((firstPassed.trans secondPassed).trans thirdPassed).scanned
      rw [wp_bind, wp_compareMem, shown.dumped.memory, same, firstFadt, List.find?_cons]
      by_cases found : HasSignature memory entry "FACP"
      · rw [if_pos (memOrder_eq_zero.mpr found), decide_eq_true found]
        refine wp_after_plain keeps (plain_print (by decide) _) fun _ fourth fourthPassed => ?_
        refine wp_after_plain keeps (plain_print (by decide) _) fun _ fifth fifthPassed => ?_
        have all := shown.trans (fourthPassed.trans fifthPassed).scanned
        refine ⟨rfl, all.dumped, all.rounds.trans ?_⟩
        omega
      · rw [if_neg fun zero => found (memOrder_eq_zero.mp zero), decide_eq_false found]
        apply wp_mono (inductionHypothesis (shown.dumped.memory.trans same) (by omega))
        intro fadt after rest
        have all := shown.trans rest.2
        refine ⟨rest.1, all.dumped, all.rounds.trans ?_⟩
        omega
    · rw [if_neg inside, xsdtEntries_drop_eq_nil (by omega)]
      exact ⟨rfl, .refl current, Nat.le_add_right _ _⟩

theorem wp_findFadtInXsdt (keeps : PrintKeepsMemory firmware) {xsdt : UINTN} {world : World σ}
    (header : 36 ≤ (tableLength world.memory xsdt).toNat) :
    wp (machine firmware) (findFadtInXsdt xsdt)
      (fun found after => found = firstFadt world.memory (xsdtEntries world.memory xsdt) ∧
        world.Scanned after (((tableLength world.memory xsdt).toNat - 36) / 8)) world := by
  have bound := (tableLength world.memory xsdt).isLt
  exact wp_findFadtFuel keeps header rfl (by omega)

end HvisorUefiPacker
