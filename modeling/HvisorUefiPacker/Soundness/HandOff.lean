import HvisorUefiPacker.Main

/-! # The hand-off to hvisor

`efi_main` is an approach that never touches `ExitBootServices`, then the two
last calls of `exit_boot_services`, then a departure that never calls the
firmware again.  `efi_main_trace` says so for the trace of every run; what is
known about the exit, about the calls around it and about the jump follows.
-/

namespace HvisorUefiPacker

open Interaction Interaction.Program

namespace Event

def isFirmware : Event → Bool
  | .service _ _ => true
  | _ => false

def isExit : Event → Bool
  | .service (.exitBootServices _ _) _ => true
  | _ => false

def isHvisorEntry : Event → Bool
  | .enter (.hvisorEntry _ _ _) => true
  | _ => false

theorem exit_is_firmware {event : Event} (exit : event.isExit = true) :
    event.isFirmware = true := by
  cases event with
  | service call reply => rfl
  | putChar char => cases exit
  | hardware step => cases exit
  | enter callee => cases exit

end Event

/-- Neither leaves the boot services nor enters hvisor. -/
def Approaching (event : Event) : Prop := event.isExit = false ∧ event.isHvisorEntry = false

/-- Does not involve the firmware. -/
def Departing (event : Event) : Prop := event.isFirmware = false

theorem Departing.notExit {event : Event} (departing : Departing event) :
    event.isExit = false := by
  cases exits : event.isExit with
  | false => rfl
  | true =>
    rw [Departing, Event.exit_is_firmware exits] at departing
    cases departing

/-- A request that neither leaves the boot services, nor transfers control, nor
    loops for ever. -/
def Op.Ordinary : Op → Prop
  | .service (.exitBootServices _ _) | .enter _ | .spin => False
  | _ => True

theorem Op.Ordinary.emits {op : Op} (ordinary : op.Ordinary) : op.Emits Approaching := by
  cases op with
  | service call =>
    cases call with
    | exitBootServices handle key => cases ordinary
    | _ => exact fun _ => ⟨rfl, rfl⟩
  | putChar char => exact ⟨rfl, rfl⟩
  | hardware step => exact ⟨rfl, rfl⟩
  | enter callee => cases ordinary
  | load address => trivial
  | store address byte => trivial
  | spin => cases ordinary

theorem Op.Ordinary.answered {σ : Type} (firmware : Firmware σ) (world : World σ) {op : Op}
    (ordinary : op.Ordinary) : ∃ reply, machine firmware op world = some reply := by
  cases op with
  | spin => cases ordinary
  | _ => exact ⟨_, rfl⟩

/-- An ordinary request that does not touch memory itself, nor has it filled with
    the memory map. -/
def Op.Aloof : Op → Prop
  | .service (.exitBootServices _ _) | .service (.getMemoryMap _ _) => False
  | .service _ | .putChar _ | .hardware _ => True
  | .load _ | .store _ _ | .enter _ | .spin => False

theorem Op.Aloof.ordinary {op : Op} (aloof : op.Aloof) : op.Ordinary := by
  cases op with
  | service call =>
    cases call with
    | exitBootServices handle key => cases aloof
    | _ => trivial
  | putChar char => trivial
  | hardware step => trivial
  | load address => cases aloof
  | store address byte => cases aloof
  | enter callee => cases aloof
  | spin => cases aloof

/-! ## Which requests each part issues -/

section Parts

variable {allowed : Op → Prop} (prints : ∀ format args, allowed (.service (.print format args)))

include prints

theorem printSystemInfo_issues (systemTable : EfiSystemTable) :
    Issues allowed (printSystemInfo systemTable) := by
  have print : ∀ format args, Issues allowed (print format args) :=
    fun format args => issues_print.mpr (prints format args)
  unfold printSystemInfo
  iterate 4 refine issues_bind (print _ _) fun _ => ?_
  exact print _ _

theorem greet_issues (chars : ∀ char, allowed (.putChar char))
    (steps : ∀ step, allowed (.hardware step))
    (initialises : ∀ imageHandle, allowed (.service (.initializeLib imageHandle)))
    (config : Config) (imageHandle : UINTN) (systemTable : EfiSystemTable) :
    Issues allowed (greet config imageHandle systemTable) := by
  have print : ∀ format args, Issues allowed (print format args) :=
    fun format args => issues_print.mpr (prints format args)
  have detects : Issues allowed (archDetectAndInit config.arch) := by
    cases config.arch with
    | aarch64 => trivial
    | loongarch64 =>
      refine issues_bind (issues_hardware.mpr (steps _)) fun _ => ?_
      exact issues_bind (issues_hardware.mpr (steps _)) fun _ => issues_hardware.mpr (steps _)
    | riscv64 => exact issues_hardware.mpr (steps _)
  unfold greet
  refine issues_bind detects fun _ => ?_
  refine issues_bind (printStr_issues chars _ _) fun _ => ?_
  refine issues_bind (printStr_issues chars _ _) fun _ => ?_
  refine issues_bind (issues_call.mpr (initialises _)) fun _ => ?_
  iterate 5 refine issues_bind (print _ _) fun _ => ?_
  exact issues_bind (printSystemInfo_issues prints _) fun _ => print _ _

theorem printBinaryInfo_issues (config : Config) : Issues allowed (printBinaryInfo config) := by
  have print : ∀ format args, Issues allowed (print format args) :=
    fun format args => issues_print.mpr (prints format args)
  unfold printBinaryInfo
  iterate 3 refine issues_bind (print _ _) fun _ => ?_
  cases config.enableVmlinux with
  | true => exact issues_bind (print _ _) fun _ => print _ _
  | false => exact print _ _

theorem composeMemory_issues (loads : ∀ address, allowed (.load address))
    (stores : ∀ address byte, allowed (.store address byte)) (config : Config) :
    Issues allowed (composeMemory config) := by
  have print : ∀ format args, Issues allowed (print format args) :=
    fun format args => issues_print.mpr (prints format args)
  have copies : ∀ dest src n, Issues allowed (memcpy2 dest src n) := memcpy2_issues loads stores
  have clears : Issues allowed (archBeforeExitBootServices config) := by
    unfold archBeforeExitBootServices
    cases config.arch with
    | aarch64 => trivial
    | loongarch64 =>
      refine issues_bind (memset2_issues stores _ _ _) fun _ => ?_
      exact issues_bind (memset2_issues stores _ _ _) fun _ => memset2_issues stores _ _ _
    | riscv64 => trivial
  unfold composeMemory
  refine issues_bind clears fun _ => ?_
  refine issues_bind (print _ _) fun _ => ?_
  refine issues_bind (printBinaryInfo_issues prints _) fun _ => ?_
  refine issues_bind (print _ _) fun _ => ?_
  refine issues_bind (issues_bind (copies _ _ _) fun _ => print _ _) fun _ => ?_
  cases config.enableVmlinux with
  | true =>
    refine issues_bind (print _ _) fun _ => ?_
    exact issues_bind (copies _ _ _) fun _ => print _ _
  | false => trivial

theorem prepareMemoryMap_issues (colours : ∀ attr, allowed (.service (.setAttribute attr)))
    (maps : ∀ vars buffer, allowed (.service (.getMemoryMap vars buffer)))
    (pools : ∀ poolType size buffer, allowed (.service (.allocatePool poolType size buffer)))
    (spins : allowed .spin) (buf : StatusBuffer) (vars : MemoryMapVars) :
    Issues allowed (prepareMemoryMap buf vars) := by
  have print : ∀ format args, Issues allowed (print format args) :=
    fun format args => issues_print.mpr (prints format args)
  have halts : ∀ {α : Type}, Issues allowed (halt : Packer α) :=
    issues_bind (print _ _) fun _ => issues_spin.mpr spins
  have checks : ∀ status name expected, Issues allowed (check buf status name expected) := by
    intro status name expected
    unfold check
    split
    · refine issues_bind (issues_call.mpr (colours _)) fun _ => ?_
      refine issues_bind (print _ _) fun _ => ?_
      exact issues_bind (issues_call.mpr (colours _)) fun _ => halts
    · exact print _ _
  unfold prepareMemoryMap
  refine issues_bind (issues_call.mpr (maps _ _)) ?_
  rintro ⟨status, vars⟩
  refine issues_bind (checks _ _ _) fun _ => ?_
  refine issues_bind (print _ _) fun _ => ?_
  refine issues_bind (issues_call.mpr (pools _ _ _)) ?_
  rintro ⟨_, memoryMapDesc⟩
  dsimp only
  split
  · exact issues_bind (print _ _) fun _ => halts
  · trivial

theorem archGetBootCpuId_issues
    (locates : ∀ protocol interface, allowed (.service (.locateProtocol protocol interface)))
    (asks : ∀ this hartId, allowed (.service (.getBootHartId this hartId)))
    (arch : Arch) (uninitialised : UINTN) :
    Issues allowed (archGetBootCpuId arch uninitialised) := by
  have print : ∀ format args, Issues allowed (print format args) :=
    fun format args => issues_print.mpr (prints format args)
  cases arch with
  | aarch64 => trivial
  | loongarch64 => trivial
  | riscv64 =>
    refine issues_bind (issues_call.mpr (locates _ _)) ?_
    rintro ⟨status, riscvBootProtocol⟩
    dsimp only
    split
    · exact issues_bind (print _ _) fun _ => trivial
    refine issues_bind (issues_call.mpr (asks _ _)) ?_
    rintro ⟨status, bootHartId⟩
    dsimp only
    split
    · exact issues_bind (print _ _) fun _ => trivial
    · exact issues_bind (print _ _) fun _ => trivial

end Parts

theorem aloof_greet (config : Config) (imageHandle : UINTN) (systemTable : EfiSystemTable) :
    Issues Op.Aloof (greet config imageHandle systemTable) :=
  greet_issues (fun _ _ => trivial) (fun _ => trivial) (fun _ => trivial) (fun _ => trivial) _ _ _

theorem aloof_archGetBootCpuId (arch : Arch) (uninitialised : UINTN) :
    Issues Op.Aloof (archGetBootCpuId arch uninitialised) :=
  archGetBootCpuId_issues (fun _ _ => trivial) (fun _ _ => trivial) (fun _ _ => trivial) _ _

/-- Only `halt` spins on the way, and it does so before any exit. -/
theorem approaching_prepareMemoryMap (buf : StatusBuffer) (vars : MemoryMapVars) :
    Issues (Op.Emits Approaching) (prepareMemoryMap buf vars) :=
  prepareMemoryMap_issues (fun _ _ _ => ⟨rfl, rfl⟩) (fun _ _ => ⟨rfl, rfl⟩)
    (fun _ _ _ => ⟨rfl, rfl⟩) (fun _ _ _ _ => ⟨rfl, rfl⟩) trivial buf vars

/-! ## The three parts of efi_main -/

/-- `efi_main` up to the call of `exit_boot_services`. -/
def prologue (config : Config) (imageHandle : UINTN) (systemTable : EfiSystemTable)
    (uninitialised : UINTN) : Packer UINTN := do
  greet config imageHandle systemTable
  composeMemory config
  let bootCpuId ← archGetBootCpuId config.arch uninitialised
  print "[INFO] exiting boot services...\n" []
  return bootCpuId

/-- `efi_main` up to the second `GetMemoryMap`. -/
def approach (config : Config) (imageHandle : UINTN) (systemTable : EfiSystemTable)
    (uninitialised : UINTN) : Packer (UINTN × MemoryMapVars × UINTN) := do
  let bootCpuId ← prologue config imageHandle systemTable uninitialised
  let (vars, memoryMapDesc) ← prepareMemoryMap staticBuffer staticVars
  return (bootCpuId, vars, memoryMapDesc)

/-- `efi_main` after `ExitBootServices` has returned. -/
def depart (config : Config) (systemTable : EfiSystemTable) (bootCpuId : UINTN) :
    Packer EfiStatus := do
  printStr (some config.arch) (ascii "[INFO] exit_boot_services done\n")
  jumpToHvisor config systemTable bootCpuId
  return efiSuccess

theorem efiMain_eq (config : Config) (imageHandle : UINTN) (systemTable : EfiSystemTable)
    (uninitialised : UINTN) :
    efiMain config imageHandle systemTable uninitialised =
      approach config imageHandle systemTable uninitialised >>= fun approached =>
        exitWithMap imageHandle approached.2.1 approached.2.2 >>= fun _ =>
          depart config systemTable approached.1 := by
  unfold efiMain handOff approach prologue exitBootServices depart
  simp only [Program.bind_assoc]
  rfl

theorem prologue_issues {allowed : Op → Prop}
    (prints : ∀ format args, allowed (.service (.print format args)))
    (chars : ∀ char, allowed (.putChar char)) (steps : ∀ step, allowed (.hardware step))
    (initialises : ∀ imageHandle, allowed (.service (.initializeLib imageHandle)))
    (loads : ∀ address, allowed (.load address))
    (stores : ∀ address byte, allowed (.store address byte))
    (locates : ∀ protocol interface, allowed (.service (.locateProtocol protocol interface)))
    (asks : ∀ this hartId, allowed (.service (.getBootHartId this hartId)))
    (config : Config) (imageHandle : UINTN) (systemTable : EfiSystemTable)
    (uninitialised : UINTN) :
    Issues allowed (prologue config imageHandle systemTable uninitialised) := by
  unfold prologue
  refine issues_bind (greet_issues prints chars steps initialises _ _ _) fun _ => ?_
  refine issues_bind (composeMemory_issues prints loads stores _) fun _ => ?_
  refine issues_bind (archGetBootCpuId_issues prints locates asks _ _) fun _ => ?_
  exact issues_bind (issues_print.mpr (prints _ _)) fun _ => trivial

theorem ordinary_prologue (config : Config) (imageHandle : UINTN) (systemTable : EfiSystemTable)
    (uninitialised : UINTN) :
    Issues Op.Ordinary (prologue config imageHandle systemTable uninitialised) :=
  prologue_issues (fun _ _ => trivial) (fun _ => trivial) (fun _ => trivial) (fun _ => trivial)
    (fun _ => trivial) (fun _ _ => trivial) (fun _ _ => trivial) (fun _ _ => trivial) _ _ _ _

theorem approaching_approach (config : Config) (imageHandle : UINTN)
    (systemTable : EfiSystemTable) (uninitialised : UINTN) :
    Issues (Op.Emits Approaching) (approach config imageHandle systemTable uninitialised) := by
  refine issues_bind (issues_mono (ordinary_prologue _ _ _ _) fun _ => Op.Ordinary.emits)
    fun _ => ?_
  exact issues_bind (approaching_prepareMemoryMap _ _) fun _ => trivial

theorem departing_depart (config : Config) (systemTable : EfiSystemTable) (bootCpuId : UINTN) :
    Issues (Op.Emits Departing) (depart config systemTable bootCpuId) := by
  unfold depart jumpToHvisor
  refine issues_bind (printStr_issues (fun _ => rfl) _ _) fun _ => ?_
  refine issues_bind ?_ fun _ => trivial
  refine issues_bind (printStr_issues (fun _ => rfl) _ _) fun _ => ?_
  exact issues_bind (issues_enter.mpr rfl) fun _ => issues_spin.mpr trivial

theorem exitWithMap_issues (imageHandle : UINTN) (vars : MemoryMapVars) (memoryMapDesc : UINTN) :
    Issues (Op.Emits fun event => event.isHvisorEntry = false)
      (exitWithMap imageHandle vars memoryMapDesc) :=
  issues_bind (issues_call.mpr fun _ => rfl) fun _ => issues_call.mpr fun _ => rfl

variable {σ : Type} (firmware : Firmware σ)

/-! ## The trace of a run -/

/-- The trace of a run of `efi_main`: no exit was tried, or the map was read and
    the exit tried with its key in two adjacent steps. -/
inductive HandOffTrace (trace : List Event) : Prop where
  | halted (approached : ∀ event ∈ trace, Approaching event)
  | handedOff (before after : List Event) (vars : MemoryMapVars) (memoryMapDesc imageHandle : UINTN)
      (answer : EfiStatus × MemoryMapVars) (status : EfiStatus)
      (approached : ∀ event ∈ before, Approaching event)
      (departed : ∀ event ∈ after, Departing event)
      (steps : trace = before ++ .service (.getMemoryMap vars memoryMapDesc) answer ::
        .service (.exitBootServices imageHandle answer.2.mapKey) status :: after)

theorem efi_main_trace (config : Config) (imageHandle : UINTN) (systemTable : EfiSystemTable)
    (uninitialised : UINTN) (memory : Mem) (state : σ) :
    HandOffTrace (exec (machine firmware)
      (efiMain config imageHandle systemTable uninitialised)
      (World.initial memory state)).state.trace := by
  have approaching := extends_of_issues firmware
    (approaching_approach config imageHandle systemTable uninitialised)
    (World.initial memory state)
  rw [efiMain_eq, exec_bind]
  cases run : exec (machine firmware) (approach config imageHandle systemTable uninitialised)
      (World.initial memory state) with
  | stuck halted =>
    rw [run] at approaching
    obtain ⟨events, trace, approached⟩ := approaching
    rw [Outcome.state] at trace ⊢
    rw [trace]
    exact .halted approached
  | returned approachedWith world =>
    rw [run] at approaching
    obtain ⟨before, beforeTrace, approached⟩ := approaching
    have departing := extends_of_issues firmware
      (departing_depart config systemTable approachedWith.1)
      (afterExit firmware imageHandle approachedWith.2.1 approachedWith.2.2 world)
    obtain ⟨after, afterTrace, departed⟩ := departing
    dsimp only
    rw [exec_bind_of_returned (exec_exitWithMap _ _ _ _ _)]
    refine .handedOff before after approachedWith.2.1 approachedWith.2.2 imageHandle
      (mapAnswer firmware approachedWith.2.1 approachedWith.2.2 world)
      (exitStatus firmware imageHandle approachedWith.2.1 approachedWith.2.2 world)
      approached departed ?_
    rw [afterTrace, afterExit_trace, show world.trace = before from beforeTrace, List.append_assoc]
    rfl

/-- A list has one split at an element that nothing before or after it resembles. -/
theorem split_unique {α : Type} (marked : α → Prop) {before after before' after' : List α}
    {element element' : α} (equal : before ++ element :: after = before' ++ element' :: after')
    (unmarkedBefore : ∀ other ∈ before, ¬ marked other)
    (unmarkedAfter : ∀ other ∈ after, ¬ marked other) (isMarked : marked element') :
    before' = before ∧ element' = element ∧ after' = after := by
  induction before generalizing before' with
  | nil =>
    cases before' with
    | nil =>
      obtain ⟨rfl, rfl⟩ := List.cons.inj equal
      exact ⟨rfl, rfl, rfl⟩
    | cons head tail =>
      obtain ⟨rfl, rfl⟩ := List.cons.inj equal
      exact absurd isMarked (unmarkedAfter element' (by simp))
  | cons first before inductionHypothesis =>
    cases before' with
    | nil =>
      obtain ⟨rfl, -⟩ := List.cons.inj equal
      exact absurd isMarked (unmarkedBefore first (by simp))
    | cons head tail =>
      obtain ⟨rfl, rest⟩ := List.cons.inj equal
      obtain ⟨rfl, rfl, rfl⟩ := inductionHypothesis rest
        (fun other member => unmarkedBefore other (by simp [member]))
      exact ⟨rfl, rfl, rfl⟩

/-- Around every `ExitBootServices` of the trace: no firmware service follows, no
    other exit precedes or follows, and the firmware call right before it is the
    `GetMemoryMap` that left the key it passes in `map_key`. -/
def ExitsCleanly (trace : List Event) : Prop :=
  ∀ (before after : List Event) (handle key : UINTN) (status : EfiStatus),
    trace = before ++ .service (.exitBootServices handle key) status :: after →
      (∀ event ∈ after, event.isFirmware = false) ∧
        (∀ event ∈ before ++ after, event.isExit = false) ∧
        ∃ (vars : MemoryMapVars) (buffer : UINTN) (answer : EfiStatus × MemoryMapVars),
          (before.filter Event.isFirmware).getLast? =
              some (.service (.getMemoryMap vars buffer) answer) ∧
            key = answer.2.mapKey

theorem HandOffTrace.exits_cleanly {trace : List Event} (shape : HandOffTrace trace) :
    ExitsCleanly trace := by
  intro before after handle key status called
  cases shape with
  | halted approached =>
    have stays : (Event.service (.exitBootServices handle key) status).isExit = false :=
      (approached _ (by simp [called])).1
    cases stays
  | handedOff early late vars memoryMapDesc imageHandle answer exitStatus approached departed
      steps =>
    have earlyStays : ∀ event ∈ early ++ [Event.service (.getMemoryMap vars memoryMapDesc) answer],
        event.isExit = false := by
      intro event member
      rcases List.mem_append.mp member with inEarly | asked
      · exact (approached event inEarly).1
      · rw [List.mem_singleton.mp asked]
        rfl
    have lateStays : ∀ event ∈ late, event.isExit = false :=
      fun event member => (departed event member).notExit
    have regrouped :
        (early ++ [Event.service (.getMemoryMap vars memoryMapDesc) answer]) ++
            Event.service (.exitBootServices imageHandle answer.2.mapKey) exitStatus :: late =
          before ++ Event.service (.exitBootServices handle key) status :: after := by
      rw [← called, steps]
      simp
    obtain ⟨rfl, sameExit, rfl⟩ := split_unique (fun event : Event => event.isExit = true)
      regrouped (by simpa using earlyStays) (by simpa using lateStays) rfl
    obtain ⟨-, rfl⟩ := Service.exitBootServices.inj (Event.service.inj sameExit).1
    refine ⟨departed, ?_, vars, memoryMapDesc, answer, ?_, rfl⟩
    · intro event member
      rcases List.mem_append.mp member with inBefore | inAfter
      · exact earlyStays event inBefore
      · exact lateStays event inAfter
    · rw [List.filter_append]
      simp [Event.isFirmware]

/-- For every firmware, whatever it answers and wherever the run ends. -/
theorem efi_main_exits_cleanly (config : Config) (imageHandle : UINTN)
    (systemTable : EfiSystemTable) (uninitialised : UINTN) (memory : Mem) (state : σ) :
    ExitsCleanly (exec (machine firmware)
      (efiMain config imageHandle systemTable uninitialised)
      (World.initial memory state)).state.trace :=
  (efi_main_trace firmware config imageHandle systemTable uninitialised memory state).exits_cleanly

/-! ## The jump

`efi_main` keeps the status of `exit_boot_services` and looks at it no more: the
jump is made whatever the firmware answered.  `check`, through which the first
`GetMemoryMap` goes, is what would have stopped it. -/

/-- hvisor is entered only after an `ExitBootServices` that returned `EFI_SUCCESS`. -/
def EntersAfterExit (op : Op) (world : World σ) : Prop :=
  ∀ address bootCpuId systemTable, op = .enter (.hvisorEntry address bootCpuId systemTable) →
    ∃ handle key, Event.service (.exitBootServices handle key) efiSuccess ∈ world.trace

/-- An `ExitBootServices` is answered with `EFI_SUCCESS`. -/
def ExitGranted (op : Op) (world : World σ) : Prop :=
  ∀ handle key, op = .service (.exitBootServices handle key) →
    (firmware (.exitBootServices handle key) world.firmware world.memory).1 = efiSuccess

variable {firmware}

/-- Safety of a run of `efi_main`, part by part. -/
theorem always_efiMain {safe : Op → World σ → Prop} {config : Config} {imageHandle : UINTN}
    {systemTable : EfiSystemTable} {uninitialised : UINTN} {world : World σ} :
    Always (machine firmware) safe
        (efiMain config imageHandle systemTable uninitialised) world ↔
      Always (machine firmware) safe (approach config imageHandle systemTable uninitialised)
          world ∧
        ∀ approached reached,
          exec (machine firmware) (approach config imageHandle systemTable uninitialised) world =
              .returned approached reached →
            Always (machine firmware) safe (exitWithMap imageHandle approached.2.1 approached.2.2)
                reached ∧
              Always (machine firmware) safe (depart config systemTable approached.1)
                (afterExit firmware imageHandle approached.2.1 approached.2.2 reached) := by
  rw [efiMain_eq, always_bind]
  refine and_congr_right fun _ => forall_congr' fun approached => forall_congr' fun reached =>
    imp_congr_right fun _ => ?_
  rw [always_bind]
  refine and_congr_right fun _ => ?_
  rw [exec_exitWithMap]
  constructor
  · intro departs
    exact departs _ _ rfl
  · intro departs status state' returned
    cases returned
    exact departs

/-- The requests of a part that never enters hvisor are safe in this sense. -/
theorem always_entersAfterExit_of_issues (firmware : Firmware σ) {α : Type} {program : Packer α}
    (issues : Issues (Op.Emits fun event => event.isHvisorEntry = false) program)
    (world : World σ) : Always (machine firmware) EntersAfterExit program world := by
  apply always_of_issues issues
  rintro op state emits address bootCpuId systemTable rfl
  cases emits

/-- For a property that printing on the serial line cannot break, safety of the
    departure is safety of the jump. -/
theorem always_depart {safe : Op → World σ → Prop} {config : Config}
    {systemTable : EfiSystemTable} {bootCpuId : UINTN} {world : World σ}
    (chars : ∀ char world, safe (.putChar char) world) (spins : ∀ world, safe .spin world) :
    Always (machine firmware) safe (depart config systemTable bootCpuId) world ↔
      safe (.enter (.hvisorEntry config.hvisorBinLoadAddr bootCpuId systemTable.address))
        ((world.logChars (ascii "[INFO] exit_boot_services done\n")).logChars
          (ascii "[INFO] ok, ready to jump to hvisor entry...\n")) := by
  have printing : ∀ (str : List Byte) (world : World σ),
      Always (machine firmware) safe (printStr (some config.arch) str) world := by
    intro str world
    have issues : Issues (fun op => ∃ char, op = .putChar char)
        (printStr (some config.arch) str) := printStr_issues (fun char => ⟨char, rfl⟩) _ str
    apply always_of_issues issues
    rintro op state ⟨char, rfl⟩
    exact chars char state
  rw [depart, always_bind_of_returned (printing _ _) (exec_printStr _ _ _), jumpToHvisor,
    Program.bind_assoc, always_bind_of_returned (printing _ _) (exec_printStr _ _ _)]
  constructor
  · intro always
    exact always.1
  · intro jump
    exact ⟨jump, spins _, trivial⟩

theorem always_depart_entersAfterExit {config : Config} {systemTable : EfiSystemTable}
    {bootCpuId : UINTN} {world : World σ} :
    Always (machine firmware) EntersAfterExit (depart config systemTable bootCpuId) world ↔
      ∃ handle key, Event.service (.exitBootServices handle key) efiSuccess ∈ world.trace := by
  rw [always_depart (fun char world _ _ _ entered => by cases entered)
    (fun world _ _ _ entered => by cases entered)]
  constructor
  · intro jump
    obtain ⟨handle, key, exited⟩ := jump _ _ _ rfl
    exact ⟨handle, key, by simpa using exited⟩
  · rintro ⟨handle, key, exited⟩ _ _ _ _
    exact ⟨handle, key, by simp [exited]⟩

theorem always_exitGranted_of_issues (firmware : Firmware σ) {α : Type} {program : Packer α}
    (issues : Issues (Op.Emits fun event => event.isExit = false) program) (world : World σ) :
    Always (machine firmware) (ExitGranted firmware) program world := by
  apply always_of_issues issues
  rintro op state emits handle key rfl
  cases emits efiSuccess

theorem always_exitWithMap_exitGranted {imageHandle : UINTN} {vars : MemoryMapVars}
    {memoryMapDesc : UINTN} {world : World σ} :
    Always (machine firmware) (ExitGranted firmware)
        (exitWithMap imageHandle vars memoryMapDesc) world ↔
      exitStatus firmware imageHandle vars memoryMapDesc world = efiSuccess := by
  constructor
  · rintro ⟨-, granted, -⟩
    exact granted _ _ rfl
  · intro success
    refine ⟨fun handle key asked => ?_, fun handle key asked => ?_, trivial⟩
    · cases asked
    · cases asked
      exact success

/-- The exit is in the trace the departure starts from, and it is the only one. -/
theorem afterExit_exited {imageHandle : UINTN} {vars : MemoryMapVars} {memoryMapDesc : UINTN}
    {world : World σ} (approached : ∀ event ∈ world.trace, Approaching event) :
    (∃ handle key, Event.service (.exitBootServices handle key) efiSuccess ∈
        (afterExit firmware imageHandle vars memoryMapDesc world).trace) ↔
      exitStatus firmware imageHandle vars memoryMapDesc world = efiSuccess := by
  rw [afterExit_trace]
  constructor
  · rintro ⟨handle, key, member⟩
    rcases List.mem_append.mp member with inTrace | exited
    · cases (approached _ inTrace).1
    · rcases List.mem_pair.mp exited with asked | exited
      · cases asked
      · obtain ⟨-, sameReply⟩ := Event.service.inj exited
        exact (eq_of_heq sameReply).symm
  · intro success
    refine ⟨imageHandle, (mapAnswer firmware vars memoryMapDesc world).2.mapKey, ?_⟩
    rw [success]
    simp

section Runs

variable (config : Config) (imageHandle : UINTN) (systemTable : EfiSystemTable)
  (uninitialised : UINTN) (memory : Mem) (state : σ)

/-- What both safety properties come down to: the answer to the one exit. -/
def ExitSucceeds (firmware : Firmware σ) : Prop :=
  ∀ approached reached,
    exec (machine firmware) (approach config imageHandle systemTable uninitialised)
        (World.initial memory state) = .returned approached reached →
      exitStatus firmware imageHandle approached.2.1 approached.2.2 reached = efiSuccess

theorem approach_reaches {approached : UINTN × MemoryMapVars × UINTN} {reached : World σ}
    (returned : exec (machine firmware)
      (approach config imageHandle systemTable uninitialised) (World.initial memory state) =
        .returned approached reached) :
    ∀ event ∈ reached.trace, Approaching event := by
  have grown := extends_of_issues firmware
    (approaching_approach config imageHandle systemTable uninitialised)
    (World.initial memory state)
  rw [returned] at grown
  obtain ⟨events, sameTrace, allApproaching⟩ := grown
  rw [show reached.trace = events from sameTrace]
  exact allApproaching

/-- Only the last part enters hvisor, so the exit before it decides. -/
theorem always_entersAfterExit_iff :
    Always (machine firmware) EntersAfterExit
        (efiMain config imageHandle systemTable uninitialised) (World.initial memory state) ↔
      ExitSucceeds config imageHandle systemTable uninitialised memory state firmware := by
  have approachSafe := always_entersAfterExit_of_issues firmware (issues_mono
    (approaching_approach config imageHandle systemTable uninitialised)
    fun op emits => emits.mono fun event => And.right) (World.initial memory state)
  rw [always_efiMain]
  constructor
  · rintro ⟨-, runs⟩ approached reached returned
    have departs := (runs approached reached returned).2
    rw [always_depart_entersAfterExit, afterExit_exited
      (approach_reaches config imageHandle systemTable uninitialised memory state returned)]
      at departs
    exact departs
  · intro succeeds
    refine ⟨approachSafe, fun approached reached returned => ⟨?_, ?_⟩⟩
    · exact always_entersAfterExit_of_issues _ (exitWithMap_issues _ _ _) _
    · rw [always_depart_entersAfterExit, afterExit_exited
        (approach_reaches config imageHandle systemTable uninitialised memory state returned)]
      exact succeeds approached reached returned

theorem always_exitGranted_iff :
    Always (machine firmware) (ExitGranted firmware)
        (efiMain config imageHandle systemTable uninitialised) (World.initial memory state) ↔
      ExitSucceeds config imageHandle systemTable uninitialised memory state firmware := by
  have approachSafe := always_exitGranted_of_issues firmware (issues_mono
    (approaching_approach config imageHandle systemTable uninitialised)
    fun op emits => emits.mono fun event => And.left) (World.initial memory state)
  rw [always_efiMain]
  constructor
  · rintro ⟨-, runs⟩ approached reached returned
    exact always_exitWithMap_exitGranted.mp (runs approached reached returned).1
  · intro succeeds
    refine ⟨approachSafe, fun approached reached returned => ⟨?_, ?_⟩⟩
    · exact always_exitWithMap_exitGranted.mpr (succeeds approached reached returned)
    · exact always_exitGranted_of_issues _ (issues_mono (departing_depart _ _ _)
        fun op emits => emits.mono fun event => Departing.notExit) _

/-- In every run, hvisor is entered only after a successful exit exactly when the
    firmware grants the exit it is asked for. -/
theorem hvisor_entered_after_exit_iff :
    Always (machine firmware) EntersAfterExit
        (efiMain config imageHandle systemTable uninitialised) (World.initial memory state) ↔
      Always (machine firmware) (ExitGranted firmware)
        (efiMain config imageHandle systemTable uninitialised) (World.initial memory state) := by
  rw [always_entersAfterExit_iff, always_exitGranted_iff]

end Runs

/-- A 16-byte hvisor image for AArch64, without vmlinux. -/
def smallConfig : Config where
  arch := .aarch64
  hvisorBinLoadAddr := 0x40400000
  enableVmlinux := false
  vmlinuxLoadAddr := 0
  embeddedHvisorBinPath := "hvisor.bin"
  hvisorBinStart := 0x100000
  hvisorBinEnd := 0x100010
  hvisorZone0VmlinuxStart := 0
  hvisorZone0VmlinuxEnd := 0

/-- The map key has gone stale, so the exit is refused. -/
theorem hvisor_entered_after_refused_exit :
    ¬ Always (machine (plainFirmware 0x1000 efiInvalidParameter)) EntersAfterExit
      (efiMain smallConfig 1 ⟨0x2000, 0, 0, 0, 0, 0⟩ 0) (World.initial (fun _ => 0) ()) := by
  obtain ⟨bootCpuId, reached, returned⟩ := exec_returns_of_issues
    (fun op world => Op.Ordinary.answered (plainFirmware 0x1000 efiInvalidParameter) world)
    (ordinary_prologue smallConfig 1 ⟨0x2000, 0, 0, 0, 0, 0⟩ 0) (World.initial (fun _ => 0) ())
  have prepares : wp (machine (plainFirmware 0x1000 efiInvalidParameter)) (prepareMemoryMap staticBuffer staticVars)
      (fun _ _ => True) reached := by
    rw [wp_prepareMemoryMap]
    have pool : (poolAnswer (plainFirmware 0x1000 efiInvalidParameter) staticVars reached).2 =
        0x1000 := rfl
    exact ⟨rfl, by rw [pool]; decide, trivial⟩
  obtain ⟨prepared, atExit, preparedReturns, -⟩ := wp_iff_exec.mp prepares
  rw [always_entersAfterExit_iff]
  intro succeeds
  have refused : efiInvalidParameter = efiSuccess :=
    succeeds (bootCpuId, prepared) atExit (by
      rw [approach, exec_bind_of_returned returned, exec_bind_of_returned preparedReturns]
      rfl)
  revert refused
  decide

end HvisorUefiPacker
