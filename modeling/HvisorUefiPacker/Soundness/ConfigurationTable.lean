import HvisorUefiPacker.Soundness.AcpiDump
import Mathlib.Data.List.Basic

/-! # Lookups in the configuration table

`acpi_dump` looks twice through the configuration table of the system table: for an
ACPI table, and for a device tree.

* `findAcpiTable_prefers_iff` says when `find_acpi_table` prefers ACPI 2.0, and when
  the order of the entries does not matter to it.
* `acpiDump_reports_dtb_iff` says when `acpi_dump` reports the device tree.
-/

namespace HvisorUefiPacker

open Interaction Interaction.Program ByteMemory

variable {σ : Type} {firmware : Firmware σ}

/-- Some entry has the GUID. -/
def Publishes (entries : List EfiConfigurationTable) (guid : EfiGuid) : Prop :=
  ∃ ect ∈ entries, ect.vendorGuid = guid

instance (entries : List EfiConfigurationTable) (guid : EfiGuid) :
    Decidable (Publishes entries guid) := inferInstanceAs (Decidable (∃ _ ∈ _, _))

/-- The first entry with the GUID. -/
def findGuid (entries : List EfiConfigurationTable) (guid : EfiGuid) :
    Option EfiConfigurationTable := entries.find? (·.vendorGuid = guid)

theorem findGuid_eq_none {entries : List EfiConfigurationTable} {guid : EfiGuid} :
    findGuid entries guid = none ↔ ¬ Publishes entries guid := by
  simp [findGuid, Publishes]

/-- The first entry of a kind is the first with its GUID. -/
theorem findGuid_of_find {entries : List EfiConfigurationTable} {kind : EfiConfigurationTable → Prop}
    [DecidablePred kind] {guid : EfiGuid} {ect : EfiConfigurationTable}
    (isKind : ∀ other : EfiConfigurationTable, other.vendorGuid = guid → kind other)
    (first : entries.find? (kind ·) = some ect) (hasGuid : ect.vendorGuid = guid) :
    findGuid entries guid = some ect := by
  induction entries with
  | nil => cases first
  | cons head rest inductionHypothesis =>
    rw [findGuid, List.find?_cons]
    rw [List.find?_cons] at first
    by_cases here : kind head
    · rw [decide_eq_true here] at first
      cases first
      rw [decide_eq_true hasGuid]
    · rw [decide_eq_false here] at first
      rw [decide_eq_false fun same => here (isKind head same)]
      exact inductionHypothesis first

/-! ## Preferring ACPI 2.0 -/

/-- The ACPI 2.0 table if there is one, and otherwise the ACPI 1.0 table. -/
def preferredAcpiTable (acpiTable : UINTN) (version : Int32)
    (entries : List EfiConfigurationTable) : FoundAcpiTable :=
  match findGuid entries acpi20TableGuid, findGuid entries acpiTableGuid with
  | some ect, _ => ⟨efiSuccess, ect.vendorTable, 2⟩
  | none, some ect => ⟨efiSuccess, ect.vendorTable, 1⟩
  | none, none => ⟨efiNotFound, acpiTable, version⟩

/-- The first ACPI entry is one for ACPI 2.0. -/
def Acpi20First (entries : List EfiConfigurationTable) : Prop :=
  ∃ ect, entries.find? (IsAcpiTable ·) = some ect ∧ ect.vendorGuid = acpi20TableGuid

/-- The first ACPI entry is taken, so an ACPI 2.0 entry behind it comes too late. -/
theorem firstAcpiTable_preferred_iff (acpiTable : UINTN) (version : Int32)
    (entries : List EfiConfigurationTable) :
    firstAcpiTable acpiTable version entries = preferredAcpiTable acpiTable version entries ↔
      ¬ Publishes entries acpi20TableGuid ∨ Acpi20First entries := by
  cases first : entries.find? (IsAcpiTable ·) with
  | none =>
    have noAcpi : ∀ ect ∈ entries, ¬ IsAcpiTable ect := by simpa using first
    have noAcpi20 : ¬ Publishes entries acpi20TableGuid :=
      fun ⟨ect, member, same⟩ => noAcpi ect member (Or.inl same)
    have noAcpi10 : ¬ Publishes entries acpiTableGuid :=
      fun ⟨ect, member, same⟩ => noAcpi ect member (Or.inr same)
    simp [firstAcpiTable, preferredAcpiTable, first, findGuid_eq_none.mpr noAcpi20,
      findGuid_eq_none.mpr noAcpi10, noAcpi20]
  | some ect =>
    have isAcpi : IsAcpiTable ect := by simpa using List.find?_some first
    by_cases isAcpi20 : ect.vendorGuid = acpi20TableGuid
    · have found : findGuid entries acpi20TableGuid = some ect :=
        findGuid_of_find (fun _ => Or.inl) first isAcpi20
      simp [firstAcpiTable, preferredAcpiTable, Acpi20First, first, found, isAcpi20]
    · have isAcpi10 : ect.vendorGuid = acpiTableGuid := isAcpi.resolve_left isAcpi20
      by_cases published : Publishes entries acpi20TableGuid
      · obtain ⟨later, found⟩ := Option.ne_none_iff_exists'.mp
          (mt findGuid_eq_none.mp (not_not.mpr published))
        simp [firstAcpiTable, preferredAcpiTable, Acpi20First, first, found, isAcpi20, published]
      · have found : findGuid entries acpiTableGuid = some ect :=
          findGuid_of_find (fun _ => Or.inr) first isAcpi10
        simp [firstAcpiTable, preferredAcpiTable, first, found, isAcpi20, published,
          findGuid_eq_none.mpr published]

/-- With at most one of the two GUIDs in the table, the entries decide the version
    whatever their order. -/
theorem firstAcpiTable_version (acpiTable : UINTN) (version : Int32)
    {entries : List EfiConfigurationTable}
    (single : ¬ (Publishes entries acpi20TableGuid ∧ Publishes entries acpiTableGuid)) :
    (firstAcpiTable acpiTable version entries).version =
      if Publishes entries acpi20TableGuid then 2
      else if Publishes entries acpiTableGuid then 1 else version := by
  cases first : entries.find? (IsAcpiTable ·) with
  | none =>
    have noAcpi : ∀ ect ∈ entries, ¬ IsAcpiTable ect := by simpa using first
    have noAcpi20 : ¬ Publishes entries acpi20TableGuid :=
      fun ⟨ect, member, same⟩ => noAcpi ect member (Or.inl same)
    have noAcpi10 : ¬ Publishes entries acpiTableGuid :=
      fun ⟨ect, member, same⟩ => noAcpi ect member (Or.inr same)
    simp [firstAcpiTable, first, noAcpi20, noAcpi10]
  | some ect =>
    have member := List.mem_of_find?_eq_some first
    have isAcpi : IsAcpiTable ect := by simpa using List.find?_some first
    by_cases isAcpi20 : ect.vendorGuid = acpi20TableGuid
    · have published : Publishes entries acpi20TableGuid := ⟨ect, member, isAcpi20⟩
      simp [firstAcpiTable, first, isAcpi20, published]
    · have published : Publishes entries acpiTableGuid :=
        ⟨ect, member, isAcpi.resolve_left isAcpi20⟩
      have noAcpi20 : ¬ Publishes entries acpi20TableGuid := fun both => single ⟨both, published⟩
      simp [firstAcpiTable, first, isAcpi20, published, noAcpi20]

/-- The version `find_acpi_table` finds is the same for every order of the entries. -/
def VersionOrderFree (firmware : Firmware σ) (world : World σ) (acpiTable : UINTN)
    (version : Int32) (entries : List EfiConfigurationTable) : Prop :=
  ∃ result, ∀ reordered : List EfiConfigurationTable, reordered.Perm entries →
    wp (machine firmware) (findAcpiTable acpiTable version reordered)
      (fun found _ => found.version = result) world

theorem wp_findAcpiTable_iff (acpiTable : UINTN) (version : Int32)
    (entries : List EfiConfigurationTable) (world : World σ) (property : FoundAcpiTable → Prop) :
    wp (machine firmware) (findAcpiTable acpiTable version entries)
        (fun found _ => property found) world ↔
      property (firstAcpiTable acpiTable version entries) := by
  obtain ⟨found, after, returned, first⟩ :=
    wp_iff_exec.mp (@wp_findAcpiTable σ firmware acpiTable version entries world)
  subst first
  constructor
  · intro holds
    exact post_of_returned holds returned
  · intro holds
    exact wp_of_returned returned holds

theorem versionOrderFree_iff (world : World σ) (acpiTable : UINTN) (version : Int32)
    (entries : List EfiConfigurationTable) :
    VersionOrderFree firmware world acpiTable version entries ↔
      ¬ (Publishes entries acpi20TableGuid ∧ Publishes entries acpiTableGuid) := by
  constructor
  · rintro ⟨result, same⟩ ⟨⟨acpi20, member20, guid20⟩, ⟨acpi10, member10, guid10⟩⟩
    have version2 := (wp_findAcpiTable_iff _ _ _ _ _).mp
      (same _ (List.perm_cons_erase member20).symm)
    have version1 := (wp_findAcpiTable_iff _ _ _ _ _).mp
      (same _ (List.perm_cons_erase member10).symm)
    simp [firstAcpiTable, IsAcpiTable, guid20] at version2
    simp [firstAcpiTable, IsAcpiTable, guid10] at version1
    rw [← version2] at version1
    exact absurd version1 (by decide)
  · intro single
    refine ⟨(firstAcpiTable acpiTable version entries).version, fun reordered perm => ?_⟩
    have published : ∀ guid, Publishes reordered guid ↔ Publishes entries guid := by
      intro guid
      simp [Publishes, perm.mem_iff]
    rw [wp_findAcpiTable_iff, firstAcpiTable_version _ _ single,
      firstAcpiTable_version _ _ (by rwa [published, published])]
    simp only [published]

/-- `find_acpi_table` prefers ACPI 2.0 exactly when no ACPI 2.0 entry is there or one comes
    first, and its version is the same for every order exactly when the table does not
    publish both GUIDs. -/
theorem findAcpiTable_prefers_iff (firmware : Firmware σ) (world : World σ) (acpiTable : UINTN)
    (version : Int32) (entries : List EfiConfigurationTable) :
    (wp (machine firmware) (findAcpiTable acpiTable version entries)
        (fun found _ => found = preferredAcpiTable acpiTable version entries) world ↔
      ¬ Publishes entries acpi20TableGuid ∨ Acpi20First entries) ∧
    (VersionOrderFree firmware world acpiTable version entries ↔
      ¬ (Publishes entries acpi20TableGuid ∧ Publishes entries acpiTableGuid)) := by
  constructor
  · rw [wp_findAcpiTable_iff _ _ _ _ fun found => found = preferredAcpiTable acpiTable version entries]
    exact firstAcpiTable_preferred_iff acpiTable version entries
  · exact versionOrderFree_iff world acpiTable version entries

/-- The ACPI 1.0 entry of a firmware that publishes both. -/
theorem findAcpiTable_takes_legacy :
    preferredAcpiTable 0 0 [⟨acpiTableGuid, 0x1000⟩, ⟨acpi20TableGuid, 0x2000⟩] =
        ⟨efiSuccess, 0x2000, 2⟩ ∧
    wp (machine (plainFirmware 0 efiSuccess))
      (findAcpiTable 0 0 [⟨acpiTableGuid, 0x1000⟩, ⟨acpi20TableGuid, 0x2000⟩])
      (fun found _ => found = ⟨efiSuccess, 0x1000, 1⟩) (World.initial (sparseMemory 0 []) ()) ∧
    ¬ VersionOrderFree (plainFirmware 0 efiSuccess) (World.initial (sparseMemory 0 []) ()) 0 0
      [⟨acpiTableGuid, 0x1000⟩, ⟨acpi20TableGuid, 0x2000⟩] := by
  refine ⟨rfl, rfl, fun orderFree => ?_⟩
  exact (versionOrderFree_iff _ _ _ _).mp orderFree (by decide)

/-! ## Reporting the device tree -/

/-- The two lines about a DTB table. -/
inductive DtbReport where
  | found
  | address (vendorTable : UINTN)
deriving DecidableEq

def dtbReport : Event → Option DtbReport
  | .service (.print format args) _ =>
    if format = "[INFO] acpi_dump: EFI DTB table found\n" then
      some .found
    else if format = "[INFO] acpi_dump: EFI DTB table address: 0x%lx\n" then
      match args with
      | [.number vendorTable] => some (.address vendorTable)
      | _ => none
    else
      none
  | _ => none

def dtbReports (trace : List Event) : List DtbReport := trace.filterMap dtbReport

/-- What is reported about an entry. -/
def reportsOf : Option EfiConfigurationTable → List DtbReport
  | some ect => [.found, .address ect.vendorTable]
  | none => []

/-- The entry `acpi_dump` takes for the DTB: the first that is none. -/
def firstOther (entries : List EfiConfigurationTable) : Option EfiConfigurationTable :=
  entries.find? (·.vendorGuid ≠ efiDtbTableGuid)

/-- `CompareGuid` is 0 for the DTB itself, and the loop goes on. -/
theorem wp_checkDtbTable (entries : List EfiConfigurationTable) (world : World σ) :
    wp (machine firmware) (checkDtbTable entries)
      (fun _ after =>
        dtbReports after.trace = dtbReports world.trace ++ reportsOf (firstOther entries)) world := by
  induction entries with
  | nil => exact (List.append_nil _).symm
  | cons ect rest inductionHypothesis =>
    rw [checkDtbTable, firstOther, List.find?_cons]
    by_cases isDtb : ect.vendorGuid = efiDtbTableGuid
    · rw [if_neg (not_not.mpr (compareGuid_eq_zero.mpr isDtb)), decide_eq_false (not_not.mpr isDtb)]
      exact inductionHypothesis
    · rw [if_pos (mt compareGuid_eq_zero.mp isDtb), decide_eq_true isDtb, wp_bind, wp_print, wp_print,
        World.serve_trace, World.serve_trace]
      simp [dtbReports, dtbReport, reportsOf]

/-- Requests that say nothing about a DTB. -/
def Op.DtbSilent : Op → Prop
  | .load _ | .putChar _ | .enter _ => True
  | .service (.print format _) =>
    format ≠ "[INFO] acpi_dump: EFI DTB table found\n" ∧
      format ≠ "[INFO] acpi_dump: EFI DTB table address: 0x%lx\n"
  | _ => False

theorem not_dtbReport {format : String} (other : format ∉ acpiReports) :
    format ≠ "[INFO] acpi_dump: EFI DTB table found\n" ∧
      format ≠ "[INFO] acpi_dump: EFI DTB table address: 0x%lx\n" := by
  constructor
  · rintro rfl
    exact other (by decide)
  · rintro rfl
    exact other (by decide)

theorem Op.Plain.dtbSilent {op : Op} (plain : op.Plain) : op.DtbSilent := by
  cases op with
  | service request =>
    cases request with
    | print format args => exact not_dtbReport plain
    | _ => cases plain
  | load address => trivial
  | putChar char => trivial
  | _ => cases plain

theorem Event.Plain.noReport {event : Event} (plain : event.Plain) : dtbReport event = none := by
  cases event with
  | service request reply =>
    cases request with
    | print format args =>
      obtain ⟨notFound, notAddress⟩ := not_dtbReport plain
      simp [dtbReport, notFound, notAddress]
    | _ => rfl
  | _ => rfl

theorem wp_dtbSilent {α : Type} {program : Packer α} (silent : Issues Op.DtbSilent program)
    (world : World σ) :
    wp (machine firmware) program
      (fun _ after => dtbReports after.trace = dtbReports world.trace) world := by
  apply wp_of_issues (fun before after : World σ => dtbReports after.trace = dtbReports before.trace)
    (fun _ => rfl) (fun _ _ _ left right => right.trans left) ?_ silent world
  intro op before allowed
  cases op with
  | service request =>
    cases request with
    | print format args =>
      refine ⟨_, _, rfl, ?_⟩
      rw [World.serve_trace]
      simp [dtbReports, dtbReport, allowed.1, allowed.2]
    | _ => cases allowed
  | load address => exact ⟨_, _, rfl, rfl⟩
  | putChar char => exact ⟨_, _, rfl, by simp [dtbReports, dtbReport]⟩
  | enter callee => exact ⟨_, _, rfl, by simp [dtbReports, dtbReport]⟩
  | _ => cases allowed

section Silent

theorem dtbSilent_of_plain {α : Type} {program : Packer α} (plain : Issues Op.Plain program) :
    Issues Op.DtbSilent program := issues_mono plain fun _ => Op.Plain.dtbSilent

theorem dtbSilent_findFadtFuel (xsdt : UINTN) (fuel i : Nat) :
    Issues Op.DtbSilent (findFadtFuel xsdt fuel i) := by
  have print : ∀ {format : String} args, format ∉ acpiReports →
      Issues Op.DtbSilent (print format args) :=
    fun args other => dtbSilent_of_plain (plain_print other args)
  induction fuel generalizing i with
  | zero => trivial
  | succ fuel inductionHypothesis =>
    refine issues_bind (dtbSilent_of_plain (plain_load32 _)) fun length => ?_
    split
    · refine issues_bind (dtbSilent_of_plain (plain_load64 _)) fun entry => ?_
      refine issues_bind (issues_print.mpr ⟨by decide, by decide⟩) fun _ => ?_
      refine issues_bind (print _ (by decide)) fun _ => ?_
      refine issues_bind (dtbSilent_of_plain (plain_printChars _ _)) fun _ => ?_
      refine issues_bind (print _ (by decide)) fun _ => ?_
      refine issues_bind (dtbSilent_of_plain (plain_compareMem _ _)) fun order => ?_
      split
      · refine issues_bind (print _ (by decide)) fun _ => ?_
        exact issues_bind (print _ (by decide)) fun _ => trivial
      · exact inductionHypothesis (i + 1)
    · trivial

theorem dtbSilent_dumpTables (archOps : Option Arch) (xsdt : UINTN) :
    Issues Op.DtbSilent (dumpTables archOps xsdt) := by
  refine issues_bind ?_ fun fadt => ?_
  · unfold fadtOf
    split
    · refine issues_bind (dtbSilent_of_plain (plain_dumpXsdtInfo _)) fun _ => ?_
      exact dtbSilent_findFadtFuel _ _ _
    · trivial
  · refine issues_bind (dtbSilent_of_plain (plain_dsdtOf _)) fun dsdt => ?_
    refine issues_bind ?_ fun _ => trivial
    refine issues_bind (dtbSilent_of_plain (plain_dumpDsdtInfo _)) fun _ => ?_
    split
    · refine issues_bind (dtbSilent_of_plain (plain_load32 _)) fun length => ?_
      obtain ⟨rest, parts, plain⟩ := parseAml_parts archOps dsdt length
      rw [parts]
      exact issues_bind (issues_enter.mpr trivial) fun _ => dtbSilent_of_plain plain
    · trivial

end Silent

/-- `acpi_dump` returns with these reports made. -/
def ReportsDtb (firmware : Firmware σ) (state : σ) (archOps : Option Arch)
    (entries : List EfiConfigurationTable) (memory : Mem) (reports : List DtbReport) : Prop :=
  wp (machine firmware) (acpiDump archOps entries)
    (fun _ after => dtbReports after.trace = reports) (World.initial memory state)

/-- `acpi_dump` reports the first entry that is not a DTB. -/
theorem acpiDump_reports_other (keeps : KeepsMemory firmware) (archOps : Option Arch) {state : σ}
    {memory : Mem} {entries : List EfiConfigurationTable} {rsdp : UINTN}
    (found : AcpiFound firmware state memory entries rsdp) :
    ReportsDtb firmware state archOps entries memory (reportsOf (firstOther entries)) := by
  apply wp_acpiDump_found keeps archOps found
  intro start passed
  have silent : dtbReports start.trace = [] := by
    obtain ⟨events, trace, plain⟩ := passed.events
    rw [trace]
    apply List.filterMap_eq_nil_iff.mpr
    exact fun event member => (plain event member).noReport
  rw [wp_bind]
  apply wp_mono (wp_checkDtbTable entries start)
  intro _ middle reported
  apply wp_mono (wp_dtbSilent (dtbSilent_dumpTables _ _) middle)
  intro _ after kept
  rw [kept, reported, silent]
  rfl

/-- The ACPI entry is no DTB, so there is a first one that is none. -/
theorem AcpiFound.firstOther {state : σ} {memory : Mem} {entries : List EfiConfigurationTable}
    {rsdp : UINTN} (found : AcpiFound firmware state memory entries rsdp) :
    ∃ other, firstOther entries = some other := by
  obtain ⟨guid, named⟩ := found.named
  have isAcpi : IsAcpiTable ⟨guid, rsdp⟩ := by simpa using List.find?_some named
  apply Option.isSome_iff_exists.mp
  apply List.find?_isSome.mpr
  refine ⟨_, List.mem_of_find?_eq_some named, decide_eq_true ?_⟩
  rcases isAcpi with isAcpi20 | isAcpi10
  · rw [isAcpi20]
    decide
  · rw [isAcpi10]
    decide

/-- It reports the DTB exactly when the first entry that is no DTB names the same table as
    the first that is one. -/
theorem acpiDump_reports_dtb_iff (keeps : KeepsMemory firmware) (archOps : Option Arch) (state : σ)
    {memory : Mem} {entries : List EfiConfigurationTable} {rsdp : UINTN}
    (found : AcpiFound firmware state memory entries rsdp) :
    ReportsDtb firmware state archOps entries memory (reportsOf (findGuid entries efiDtbTableGuid)) ↔
      ∃ dtb other, findGuid entries efiDtbTableGuid = some dtb ∧ firstOther entries = some other ∧
        other.vendorTable = dtb.vendorTable := by
  obtain ⟨other, first⟩ := found.firstOther
  have reported := acpiDump_reports_other keeps archOps found
  rw [first] at reported ⊢
  obtain ⟨status, after, returned, reports⟩ := wp_iff_exec.mp reported
  constructor
  · intro claimed
    have same := post_of_returned claimed returned
    rw [reports] at same
    cases dtb : findGuid entries efiDtbTableGuid with
    | none =>
      rw [dtb] at same
      cases same
    | some ect =>
      rw [dtb] at same
      refine ⟨ect, other, rfl, rfl, ?_⟩
      simpa [reportsOf] using same
  · rintro ⟨dtb, other', isDtb, same, sameTable⟩
    cases same
    apply wp_of_returned returned
    rw [reports, isDtb]
    simp [reportsOf, sameTable]

/-- An RSDP and a device tree at the same address. -/
theorem acpiDump_reports_shared_dtb :
    ReportsDtb (plainFirmware 0 efiSuccess) () none
      [⟨acpi20TableGuid, 0x1000⟩, ⟨efiDtbTableGuid, 0x1000⟩] lowTables
      [.found, .address 0x1000] := by
  have found : AcpiFound (plainFirmware 0 efiSuccess) () lowTables
      [⟨acpi20TableGuid, 0x1000⟩, ⟨efiDtbTableGuid, 0x1000⟩] 0x1000 :=
    ⟨by decide, ⟨acpi20TableGuid, by decide⟩, by decide⟩
  exact (acpiDump_reports_dtb_iff (plainFirmware_keeps 0 efiSuccess) none () found).mpr
    ⟨⟨efiDtbTableGuid, 0x1000⟩, ⟨acpi20TableGuid, 0x1000⟩, by decide, by decide, rfl⟩

/-- A firmware without a device tree: its ACPI table is reported as one. -/
theorem acpiDump_reports_rsdp :
    AcpiFound (plainFirmware 0 efiSuccess) () lowTables [⟨acpi20TableGuid, 0x1000⟩] 0x1000 ∧
      findGuid [⟨acpi20TableGuid, 0x1000⟩] efiDtbTableGuid = none ∧
      ReportsDtb (plainFirmware 0 efiSuccess) () none [⟨acpi20TableGuid, 0x1000⟩] lowTables
        [.found, .address 0x1000] ∧
      ¬ ReportsDtb (plainFirmware 0 efiSuccess) () none [⟨acpi20TableGuid, 0x1000⟩] lowTables [] := by
  have found : AcpiFound (plainFirmware 0 efiSuccess) () lowTables [⟨acpi20TableGuid, 0x1000⟩]
      0x1000 := ⟨by decide, ⟨acpi20TableGuid, by decide⟩, by decide⟩
  have reported := acpiDump_reports_other (plainFirmware_keeps 0 efiSuccess) none found
  have first : firstOther [⟨acpi20TableGuid, 0x1000⟩] = some ⟨acpi20TableGuid, 0x1000⟩ := by decide
  rw [first] at reported
  refine ⟨found, by decide, reported, fun claimed => ?_⟩
  obtain ⟨status, after, returned, reports⟩ := wp_iff_exec.mp reported
  have same := post_of_returned claimed returned
  rw [reports] at same
  cases same

end HvisorUefiPacker
