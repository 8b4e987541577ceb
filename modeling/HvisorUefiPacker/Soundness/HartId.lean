import HvisorUefiPacker.Soundness.HandOff

/-! # The hart id hvisor is given

`arch_get_boot_hart_id` returns an EFI status where it has no hart id, and `efi_main`
passes on whatever it returns.

* `HartIdLookup` is what its calls and its value can be together.
* `entry_hart_id_iff`: a run that enters hvisor hands it a hart id exactly when the
  firmware refuses neither call.
-/

namespace HvisorUefiPacker

open Interaction Interaction.Program

namespace Event

/-- One of the two calls `arch_get_boot_hart_id` makes. -/
def isHartIdCall : Event → Bool
  | .service (.locateProtocol _ _) _ => true
  | .service (.getBootHartId _ _) _ => true
  | _ => false

/-- The firmware has not found the protocol, or has not given the id. -/
def RefusesHartId : Event → Prop
  | .service (.locateProtocol _ _) answer => efiError (Prod.fst answer) = true
  | .service (.getBootHartId _ _) answer => Prod.fst answer ≠ efiSuccess
  | _ => False

instance : DecidablePred RefusesHartId
  | .service (.locateProtocol _ _) answer =>
    inferInstanceAs (Decidable (efiError (Prod.fst answer) = true))
  | .service (.getBootHartId _ _) answer => inferInstanceAs (Decidable (Prod.fst answer ≠ efiSuccess))
  | .service (.initializeLib _) _ | .service (.print _ _) _ | .service (.setAttribute _) _
  | .service (.getMemoryMap _ _) _ | .service (.allocatePool _ _ _) _
  | .service (.exitBootServices _ _) _ | .putChar _ | .hardware _ | .enter _ =>
    inferInstanceAs (Decidable False)

@[simp] theorem refusesHartId_locate {protocol : EfiGuid} {interface status found : UINTN} :
    RefusesHartId (.service (.locateProtocol protocol interface) (status, found)) ↔
      efiError status = true := Iff.rfl

@[simp] theorem refusesHartId_get {this hartId status id : UINTN} :
    RefusesHartId (.service (.getBootHartId this hartId) (status, id)) ↔ status ≠ efiSuccess :=
  Iff.rfl

theorem RefusesHartId.isCall {event : Event} (refuses : event.RefusesHartId) :
    event.isHartIdCall = true := by
  cases event with
  | service request reply =>
    cases request with
    | locateProtocol protocol interface => rfl
    | getBootHartId this hartId => rfl
    | _ => cases refuses
  | _ => cases refuses

end Event

/-- Every entry of hvisor is given an id that `GetBootHartId` wrote with `EFI_SUCCESS`. -/
def EntersWithHartId (trace : List Event) : Prop :=
  ∀ address bootCpuId systemTable,
    .enter (.hvisorEntry address bootCpuId systemTable) ∈ trace →
      ∃ this hartId, .service (.getBootHartId this hartId) (efiSuccess, bootCpuId) ∈ trace

/-- No refusal in a trace that gets to the entry of hvisor. -/
def HartIdGranted (trace : List Event) : Prop :=
  (∃ event ∈ trace, event.isHvisorEntry = true) → ∀ event ∈ trace, ¬ event.RefusesHartId

/-- The hart id calls of a trace. -/
def hartIdCalls (trace : List Event) : List Event := trace.filter Event.isHartIdCall

/-! ## The lookup -/

/-- The calls of `arch_get_boot_hart_id` and the value it returns. -/
inductive HartIdLookup : List Event → UINTN → Prop where
  | notLocated (protocol : EfiGuid) (interface status riscvBootProtocol : UINTN)
      (failed : efiError status = true) :
      HartIdLookup [.service (.locateProtocol protocol interface) (status, riscvBootProtocol)] status
  | notGiven (protocol : EfiGuid) (interface located riscvBootProtocol this hartId status id : UINTN)
      (found : efiError located = false) (failed : efiError status = true) :
      HartIdLookup
        [.service (.locateProtocol protocol interface) (located, riscvBootProtocol),
          .service (.getBootHartId this hartId) (status, id)] status
  | given (protocol : EfiGuid) (interface located riscvBootProtocol this hartId status id : UINTN)
      (found : efiError located = false) (succeeded : efiError status = false) :
      HartIdLookup
        [.service (.locateProtocol protocol interface) (located, riscvBootProtocol),
          .service (.getBootHartId this hartId) (status, id)] id

@[simp] theorem get_ne_locate {this hartId interface : UINTN} {protocol : EfiGuid}
    {answer answer' : EfiStatus × UINTN} :
    Event.service (.getBootHartId this hartId) answer ≠
      .service (.locateProtocol protocol interface) answer' := by
  intro same
  cases same

@[simp] theorem get_eq_get {this this' hartId hartId' : UINTN}
    {answer answer' : EfiStatus × UINTN} :
    Event.service (.getBootHartId this hartId) answer =
        .service (.getBootHartId this' hartId') answer' ↔
      this = this' ∧ hartId = hartId' ∧ answer = answer' := by
  constructor
  · intro same
    cases same
    exact ⟨rfl, rfl, rfl⟩
  · rintro ⟨rfl, rfl, rfl⟩
    rfl

/-- The value is an id the firmware gave exactly when it refused neither call. -/
theorem HartIdLookup.given_iff {calls : List Event} {bootCpuId : UINTN}
    (lookup : HartIdLookup calls bootCpuId) :
    (∃ this hartId, .service (.getBootHartId this hartId) (efiSuccess, bootCpuId) ∈ calls) ↔
      ∀ event ∈ calls, ¬ event.RefusesHartId := by
  have success : efiError efiSuccess = false := by decide
  cases lookup with
  | notLocated protocol interface _ riscvBootProtocol failed => simp [failed]
  | notGiven protocol interface located riscvBootProtocol this hartId _ id found failed =>
    have notSuccess : bootCpuId ≠ efiSuccess := by
      rintro rfl
      rw [success] at failed
      cases failed
    simp [notSuccess, notSuccess.symm]
  | given protocol interface located riscvBootProtocol this hartId status _ found succeeded =>
    simp [found, eq_comm]

variable {σ : Type} {firmware : Firmware σ}

theorem hartIdCalls_serve {world : World σ} {service : Service} :
    hartIdCalls (world.serve firmware service).trace =
      hartIdCalls world.trace ++
        hartIdCalls [.service service (firmware service world.firmware world.memory).1] := by
  rw [World.serve_trace, hartIdCalls, List.filter_append]
  rfl

theorem wp_locateProtocol (protocol : EfiGuid) (interface : UINTN)
    (post : EfiStatus × UINTN → World σ → Prop) (world : World σ) :
    wp (machine firmware) (locateProtocol protocol interface) post world ↔
      post (firmware (.locateProtocol protocol interface) world.firmware world.memory).1
        (world.serve firmware (.locateProtocol protocol interface)) := Iff.rfl

theorem wp_getBootHartId (this hartId : UINTN) (post : EfiStatus × UINTN → World σ → Prop)
    (world : World σ) :
    wp (machine firmware) (getBootHartId this hartId) post world ↔
      post (firmware (.getBootHartId this hartId) world.firmware world.memory).1
        (world.serve firmware (.getBootHartId this hartId)) := Iff.rfl

/-- An error is returned where the hart id should be. -/
theorem wp_archGetBootHartId (uninitialised : UINTN) (world : World σ) :
    wp (machine firmware) (archGetBootHartId uninitialised)
      (fun bootCpuId after => ∃ calls, HartIdLookup calls bootCpuId ∧
        hartIdCalls after.trace = hartIdCalls world.trace ++ calls) world := by
  rw [archGetBootHartId, wp_bind, wp_locateProtocol]
  have locates := @hartIdCalls_serve σ firmware world
    (.locateProtocol riscvEfiBootProtocolGuid 0)
  generalize (firmware (.locateProtocol riscvEfiBootProtocolGuid 0) world.firmware world.memory).1 =
    answer at locates ⊢
  generalize world.serve firmware (.locateProtocol riscvEfiBootProtocolGuid 0) = first at locates ⊢
  obtain ⟨located, riscvBootProtocol⟩ := answer
  dsimp only
  cases failed : efiError located with
  | true =>
    rw [if_pos rfl, wp_bind, wp_print]
    refine ⟨_, .notLocated riscvEfiBootProtocolGuid 0 located riscvBootProtocol failed, ?_⟩
    rw [hartIdCalls_serve, locates]
    exact List.append_nil _
  | false =>
    rw [if_neg Bool.false_ne_true, wp_bind, wp_getBootHartId]
    have asks := @hartIdCalls_serve σ firmware first
      (.getBootHartId riscvBootProtocol uninitialised)
    generalize (firmware (.getBootHartId riscvBootProtocol uninitialised) first.firmware
      first.memory).1 = answer at asks ⊢
    generalize first.serve firmware (.getBootHartId riscvBootProtocol uninitialised) =
      second at asks ⊢
    obtain ⟨status, bootHartId⟩ := answer
    dsimp only
    rw [locates, List.append_assoc] at asks
    cases refused : efiError status with
    | true =>
      rw [if_pos rfl, wp_bind, wp_print]
      refine ⟨_, .notGiven riscvEfiBootProtocolGuid 0 located riscvBootProtocol riscvBootProtocol
        uninitialised status bootHartId failed refused, ?_⟩
      rw [hartIdCalls_serve, asks]
      exact List.append_nil _
    | false =>
      rw [if_neg Bool.false_ne_true, wp_bind, wp_print]
      refine ⟨_, .given riscvEfiBootProtocolGuid 0 located riscvBootProtocol riscvBootProtocol
        uninitialised status bootHartId failed refused, ?_⟩
      rw [hartIdCalls_serve, asks]
      exact List.append_nil _

/-- The parts that make no hart id calls leave them as they are. -/
theorem hartIdCalls_of_returned {α : Type} {program : Packer α} {world after : World σ} {value : α}
    (issues : Issues (Op.Emits fun event => event.isHartIdCall = false) program)
    (returned : exec (machine firmware) program world = .returned value after) :
    hartIdCalls after.trace = hartIdCalls world.trace := by
  obtain ⟨events, trace, others⟩ := extends_of_issues firmware issues world
  rw [returned] at trace
  have none : events.filter Event.isHartIdCall = [] := by
    apply List.filter_eq_nil_iff.mpr
    intro event member
    rw [others event member]
    exact Bool.false_ne_true
  rw [show after.trace = world.trace ++ events from trace, hartIdCalls, List.filter_append, none,
    List.append_nil]
  rfl

/-! ## Traces of runs -/

/-- A trace that never gets to the entry has nothing to say. -/
theorem entersWithHartId_iff_of_approaching {trace : List Event}
    (approached : ∀ event ∈ trace, Approaching event) :
    EntersWithHartId trace ↔ HartIdGranted trace := by
  constructor
  · rintro - ⟨event, member, entry⟩
    rw [(approached event member).2] at entry
    cases entry
  · intro _ address bootCpuId systemTable entered
    cases (approached _ entered).2

section Entry

variable {before between : List Event} {address bootCpuId systemTable : UINTN}

/-- The hart id calls of a run are all made before the last `GetMemoryMap`. -/
theorem mem_hartIdCalls_iff (others : ∀ event ∈ between, event.isHartIdCall = false) {event : Event}
    (isCall : event.isHartIdCall = true) :
    event ∈ before ++ between ++ [.enter (.hvisorEntry address bootCpuId systemTable)] ↔
      event ∈ hartIdCalls before := by
  constructor
  · intro member
    rcases List.mem_append.mp member with earlier | entry
    · rcases List.mem_append.mp earlier with inBefore | inBetween
      · exact List.mem_filter.mpr ⟨inBefore, isCall⟩
      · rw [others event inBetween] at isCall
        cases isCall
    · rw [List.mem_singleton.mp entry] at isCall
      cases isCall
  · intro member
    simp [(List.mem_filter.mp member).1]

/-- A trace that ends in the entry, behind a lookup of the id it is given. -/
theorem entersWithHartId_iff_of_entry (approached : ∀ event ∈ before, Approaching event)
    (others : ∀ event ∈ between, event.isHartIdCall = false ∧ event.isHvisorEntry = false)
    (lookup : HartIdLookup (hartIdCalls before) bootCpuId) :
    EntersWithHartId
        (before ++ between ++ [.enter (.hvisorEntry address bootCpuId systemTable)]) ↔
      HartIdGranted
        (before ++ between ++ [.enter (.hvisorEntry address bootCpuId systemTable)]) := by
  have calls : ∀ {event : Event}, event.isHartIdCall = true →
      (event ∈ before ++ between ++ [.enter (.hvisorEntry address bootCpuId systemTable)] ↔
        event ∈ hartIdCalls before) :=
    mem_hartIdCalls_iff fun event member => (others event member).1
  constructor
  · intro enters _ event member refuses
    obtain ⟨this, hartId, gave⟩ :=
      enters _ _ _ (List.mem_append_right _ (List.mem_singleton.mpr rfl))
    have granted := lookup.given_iff.mp ⟨this, hartId, (calls rfl).mp gave⟩
    exact granted event ((calls refuses.isCall).mp member) refuses
  · intro granted entryAddress entryId entryTable entered
    have noRefusal := granted ⟨_, entered, rfl⟩
    have isLast : entryId = bootCpuId := by
      rcases List.mem_append.mp entered with earlier | entry
      · rcases List.mem_append.mp earlier with inBefore | inBetween
        · cases (approached _ inBefore).2
        · cases (others _ inBetween).2
      · cases List.mem_singleton.mp entry
        rfl
    obtain ⟨this, hartId, gave⟩ := lookup.given_iff.mpr fun event member =>
      noRefusal event ((calls (List.mem_filter.mp member).2).mpr member)
    rw [isLast]
    exact ⟨this, hartId, (calls rfl).mpr gave⟩

end Entry

/-! ## From the lookup to the entry -/

section Runs

variable {config : Config} {imageHandle : UINTN} {systemTable : EfiSystemTable}
  {uninitialised : UINTN} {memory : Mem} {state : σ}

/-- What the approach hands on is the value of the lookup, whose calls are the only ones. -/
theorem approach_lookup (riscv : config.arch = .riscv64) {approached : UINTN × MemoryMapVars × UINTN}
    {reached : World σ}
    (returned : exec (machine firmware) (approach config imageHandle systemTable uninitialised)
      (World.initial memory state) = .returned approached reached) :
    HartIdLookup (hartIdCalls reached.trace) approached.1 := by
  have other : ∀ format args, Op.Emits (fun event => event.isHartIdCall = false)
      (.service (.print format args)) := fun _ _ _ => rfl
  obtain ⟨bootCpuId, atExit, prologueReturns, prepares⟩ := returned_bind returned
  obtain ⟨_, greeted, greetReturns, composes⟩ := returned_bind prologueReturns
  obtain ⟨_, composed, composeReturns, looksUp⟩ := returned_bind composes
  obtain ⟨_, found, lookupReturns, prints⟩ := returned_bind looksUp
  obtain ⟨_, _, printed, same⟩ := returned_bind prints
  cases same
  obtain ⟨prepared, _, prepareReturns, same⟩ := returned_bind prepares
  cases same
  rw [riscv] at lookupReturns
  obtain ⟨calls, lookup, added⟩ :=
    post_of_returned (wp_archGetBootHartId uninitialised composed) lookupReturns
  have before : hartIdCalls composed.trace = [] := by
    rw [hartIdCalls_of_returned (composeMemory_issues other (fun _ => trivial)
        (fun _ _ => trivial) config) composeReturns,
      hartIdCalls_of_returned (greet_issues other (fun _ => rfl) (fun _ => rfl) (fun _ _ => rfl)
        config imageHandle systemTable) greetReturns]
    rfl
  rw [hartIdCalls_of_returned (prepareMemoryMap_issues other (fun _ _ => rfl) (fun _ _ _ => rfl)
      (fun _ _ _ _ => rfl) trivial staticBuffer staticVars) prepareReturns,
    hartIdCalls_of_returned (issues_print.mpr fun _ => rfl) printed, added, before]
  exact lookup

theorem exec_depart (bootCpuId : UINTN) (world : World σ) :
    exec (machine firmware) (depart config systemTable bootCpuId) world =
      .stuck (((world.logChars (ascii "[INFO] exit_boot_services done\n")).logChars
        (ascii "[INFO] ok, ready to jump to hvisor entry...\n")).log
          (.enter (.hvisorEntry config.hvisorBinLoadAddr bootCpuId systemTable.address))) := by
  rw [depart, exec_bind_of_returned (exec_printStr _ _ _), jumpToHvisor, Program.bind_assoc,
    exec_bind_of_returned (exec_printStr _ _ _)]
  rfl

/-- The trace of a run that gets to the entry of hvisor. -/
theorem efiMain_trace_of_returned {approached : UINTN × MemoryMapVars × UINTN} {reached : World σ}
    (returned : exec (machine firmware) (approach config imageHandle systemTable uninitialised)
      (World.initial memory state) = .returned approached reached) :
    ∃ between, (∀ event ∈ between, event.isHartIdCall = false ∧ event.isHvisorEntry = false) ∧
      (exec (machine firmware) (efiMain config imageHandle systemTable uninitialised)
        (World.initial memory state)).state.trace =
        reached.trace ++ between ++ [.enter (.hvisorEntry config.hvisorBinLoadAddr approached.1
          systemTable.address)] := by
  rw [efiMain_eq, exec_bind_of_returned returned, exec_bind_of_returned (exec_exitWithMap _ _ _ _ _),
    exec_depart]
  refine ⟨[.service (.getMemoryMap approached.2.1 approached.2.2)
      (mapAnswer firmware approached.2.1 approached.2.2 reached),
    .service (.exitBootServices imageHandle
      (mapAnswer firmware approached.2.1 approached.2.2 reached).2.mapKey)
      (exitStatus firmware imageHandle approached.2.1 approached.2.2 reached)] ++
    (ascii "[INFO] exit_boot_services done\n" ++
      ascii "[INFO] ok, ready to jump to hvisor entry...\n").map .putChar, ?_, ?_⟩
  · intro event member
    rcases List.mem_append.mp member with asked | printed
    · rcases List.mem_pair.mp asked with rfl | rfl
      · exact ⟨rfl, rfl⟩
      · exact ⟨rfl, rfl⟩
    · obtain ⟨char, _, rfl⟩ := List.mem_map.mp printed
      exact ⟨rfl, rfl⟩
  · simp only [Outcome.state, World.log_trace, World.logChars_trace, afterExit_trace,
      List.append_assoc, List.map_append]

end Runs

/-- On RISC-V, a run that enters hvisor hands it a hart id exactly when the firmware
    refuses neither `LocateProtocol` nor `GetBootHartId` in it. -/
theorem entry_hart_id_iff (firmware : Firmware σ) {config : Config} (riscv : config.arch = .riscv64)
    (imageHandle : UINTN) (systemTable : EfiSystemTable) (uninitialised : UINTN) (memory : Mem)
    (state : σ) :
    EntersWithHartId (exec (machine firmware)
        (efiMain config imageHandle systemTable uninitialised)
        (World.initial memory state)).state.trace ↔
      HartIdGranted (exec (machine firmware)
        (efiMain config imageHandle systemTable uninitialised)
        (World.initial memory state)).state.trace := by
  cases run : exec (machine firmware) (approach config imageHandle systemTable uninitialised)
      (World.initial memory state) with
  | stuck halted =>
    have approaching := extends_of_issues firmware
      (approaching_approach config imageHandle systemTable uninitialised)
      (World.initial memory state)
    rw [run] at approaching
    obtain ⟨events, trace, approached⟩ := approaching
    rw [efiMain_eq, exec_bind, run]
    apply entersWithHartId_iff_of_approaching
    rwa [show (Outcome.stuck halted : Outcome (World σ) EfiStatus).state.trace = events from trace]
  | returned approached reached =>
    obtain ⟨between, others, trace⟩ := efiMain_trace_of_returned run
    rw [trace]
    exact entersWithHartId_iff_of_entry
      (approach_reaches config imageHandle systemTable uninitialised memory state run) others
      (approach_lookup riscv run)

/-- The same image for RISC-V. -/
def riscvConfig : Config := { smallConfig with arch := .riscv64 }

/-- A firmware that gives the hart id it finds in the packer's variable. -/
theorem entry_hart_id_given :
    EntersWithHartId (exec (machine (plainFirmware 0x1000 efiSuccess))
      (efiMain riscvConfig 1 ⟨0x2000, 0, 0, 0, 0, 0⟩ 3)
      (World.initial (fun _ => 0) ())).state.trace :=
  (entry_hart_id_iff (plainFirmware 0x1000 efiSuccess) rfl 1 ⟨0x2000, 0, 0, 0, 0, 0⟩ 3
    (fun _ => 0) ()).mpr fun _ => by decide +kernel

/-- A firmware without the RISC-V boot protocol. -/
def noProtocolFirmware : Firmware Unit
  | .locateProtocol _ interface, state, memory => ((efiNotFound, interface), state, memory)
  | service, state, memory => plainFirmware 0x1000 efiSuccess service state memory

def Event.entersWith (id : UINTN) : Event → Bool
  | .enter (.hvisorEntry _ bootCpuId _) => bootCpuId = id
  | _ => false

def Event.givesHartId : Event → Bool
  | .service (.getBootHartId _ _) _ => true
  | _ => false

/-- There hvisor is entered with `EFI_NOT_FOUND` for a hart id. -/
theorem entry_hart_id_not_found :
    (∃ event ∈ (exec (machine noProtocolFirmware) (efiMain riscvConfig 1 ⟨0x2000, 0, 0, 0, 0, 0⟩ 3)
        (World.initial (fun _ => 0) ())).state.trace, event.entersWith efiNotFound = true) ∧
      ¬ EntersWithHartId (exec (machine noProtocolFirmware)
        (efiMain riscvConfig 1 ⟨0x2000, 0, 0, 0, 0, 0⟩ 3)
        (World.initial (fun _ => 0) ())).state.trace := by
  generalize trace : (exec (machine noProtocolFirmware)
    (efiMain riscvConfig 1 ⟨0x2000, 0, 0, 0, 0, 0⟩ 3)
    (World.initial (fun _ => 0) ())).state.trace = events
  have entered : ∃ event ∈ events, event.entersWith efiNotFound = true := by
    rw [← trace]
    decide +kernel
  have notAsked : ∀ event ∈ events, event.givesHartId = false := by
    rw [← trace]
    decide +kernel
  refine ⟨entered, fun enters => ?_⟩
  obtain ⟨event, member, entry⟩ := entered
  cases event with
  | enter callee =>
    cases callee with
    | hvisorEntry address bootCpuId systemTable =>
      obtain ⟨this, hartId, gave⟩ := enters _ _ _ member
      cases notAsked _ gave
    | parseAml aml size => cases entry
  | _ => cases entry

end HvisorUefiPacker
