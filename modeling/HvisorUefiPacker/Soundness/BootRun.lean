import HvisorUefiPacker.Soundness.HartId
import HvisorUefiPacker.Soundness.ImageEntry
import HvisorUefiPacker.Soundness.ImagesSurvive

/-! # From the firmware to hvisor

The whole packer: `_start` with the `efi_main` of main.c behind it.  What the
firmware loads is a file that the link editor has written for address 0; what
hvisor finds are the binaries that are embedded in that file.
-/

namespace HvisorUefiPacker

open Interaction Interaction.Program ByteMemory Steps StateTransition
open GnuEfi (Loader Cpu SharedObject Called start_enters_main)

variable {σ : Type} {arch : Arch}

/-- The fields of an `EFI_SYSTEM_TABLE` as they are when `efi_main` is entered. -/
def efiSystemTableAt (memory : Mem) (address : UINTN) : EfiSystemTable where
  address := address
  conIn := word64 memory (address + 48)
  conOut := word64 memory (address + 64)
  runtimeServices := word64 memory (address + 88)
  bootServices := word64 memory (address + 96)
  configurationTable := word64 memory (address + 112)

/-! ## efi_main behind _start -/

section Main

variable (firmware : Firmware σ) (state : σ) (config : Config) (uninitialised : UINTN)

def mainProgram (imageHandle systemTable : UINTN) (memory : Mem) : Packer EfiStatus :=
  efiMain config imageHandle (efiSystemTableAt memory systemTable) uninitialised

/-- What `_start` gets of it. -/
def packerMain (imageHandle systemTable : UINTN) (memory : Mem) : Option (EfiStatus × Mem) :=
  match exec (machine firmware) (mainProgram config uninitialised imageHandle systemTable memory)
      (World.initial memory state) with
  | .returned status world => some (status, world.memory)
  | .stuck _ => none

/-- `efi_main` either halts on the way or spins behind the call of hvisor. -/
theorem packerMain_none (imageHandle systemTable : UINTN) (memory : Mem) :
    packerMain firmware state config uninitialised imageHandle systemTable memory = none := by
  rw [packerMain, mainProgram, efiMain_eq, exec_bind]
  cases approaches : exec (machine firmware)
      (approach config imageHandle (efiSystemTableAt memory systemTable) uninitialised)
      (World.initial memory state) with
  | stuck halted => rfl
  | returned approached reached =>
    dsimp only
    rw [exec_bind_of_returned (exec_exitWithMap _ _ _ _ _), exec_depart]

end Main

/-! ## Whether hvisor is entered -/

/-- The firmware says that no buffer is too small for its memory map, and gives one. -/
structure GrantsMap (firmware : Firmware σ) (op : Op) (world : World σ) : Prop where
  sized : ∀ vars, op = .service (.getMemoryMap vars 0) → vars.memoryMapSize = 0 →
    Prod.fst (firmware (.getMemoryMap vars 0) world.firmware world.memory).1 = efiBufferTooSmall
  pool : ∀ poolType size buffer, op = .service (.allocatePool poolType size buffer) →
    Prod.snd (firmware (.allocatePool poolType size buffer) world.firmware world.memory).1 ≠ 0

section Entry

variable {firmware : Firmware σ} {config : Config} {imageHandle : UINTN}
  {systemTable : EfiSystemTable} {uninitialised : UINTN} {memory : Mem} {state : σ}

theorem grantsMap_of_others {op : Op} {world : World σ}
    (noMap : ∀ vars buffer, op ≠ .service (.getMemoryMap vars buffer))
    (noPool : ∀ poolType size buffer, op ≠ .service (.allocatePool poolType size buffer)) :
    GrantsMap firmware op world where
  sized vars same := absurd same (noMap vars 0)
  pool poolType size buffer same := absurd same (noPool poolType size buffer)

/-- With the grant, the preparation returns. -/
theorem approach_returns {world : World σ}
    (grants : Always (machine firmware) (GrantsMap firmware)
      (approach config imageHandle systemTable uninitialised) world) :
    ∃ approached reached, exec (machine firmware)
      (approach config imageHandle systemTable uninitialised) world =
        .returned approached reached := by
  obtain ⟨bootCpuId, ready, prologueReturned⟩ := exec_returns_of_issues
    (fun op world => Op.Ordinary.answered firmware world)
    (ordinary_prologue config imageHandle systemTable uninitialised) world
  rw [approach, always_bind] at grants
  have preparing := ((always_bind _ _ _).mp (grants.2 _ _ prologueReturned)).1
  have short : (sizeAnswer firmware staticVars ready).1 = efiBufferTooSmall :=
    preparing.1.sized _ rfl rfl
  have nonNull : (poolAnswer firmware staticVars ready).2 ≠ 0 :=
    (always_prepareMemoryMap_pool preparing short).pool _ _ _ rfl
  have prepares : wp (machine firmware) (prepareMemoryMap staticBuffer staticVars)
      (fun _ _ => True) ready :=
    (wp_prepareMemoryMap _ _ _ _).mpr ⟨short, nonNull, trivial⟩
  obtain ⟨prepared, reached, prepareReturned, -⟩ := wp_iff_exec.mp prepares
  rw [approach, exec_bind_of_returned prologueReturned, exec_bind_of_returned prepareReturned]
  exact ⟨_, _, rfl⟩

theorem always_approach_grants {world reached : World σ} {approached : UINTN × MemoryMapVars × UINTN}
    (returned : exec (machine firmware)
      (approach config imageHandle systemTable uninitialised) world =
        .returned approached reached) :
    Always (machine firmware) (GrantsMap firmware)
        (approach config imageHandle systemTable uninitialised) world ∧
      approached.2.2 ≠ 0 := by
  obtain ⟨bootCpuId, ready, prologueReturned, rest⟩ := returned_bind returned
  obtain ⟨prepared, asked, prepareReturned, last⟩ := returned_bind rest
  cases last
  obtain ⟨short, nonNull, rfl, rfl⟩ := prepareMemoryMap_returned prepareReturned
  have prints : ∀ format args (world : World σ),
      GrantsMap firmware (.service (.print format args)) world :=
    fun _ _ _ => grantsMap_of_others (by simp) (by simp)
  refine ⟨?_, nonNull⟩
  rw [approach, always_bind]
  constructor
  · have issues : Issues (fun op => ∀ world : World σ, GrantsMap firmware op world)
        (prologue config imageHandle systemTable uninitialised) := by
      apply prologue_issues
      all_goals
        intros
        exact grantsMap_of_others (by simp) (by simp)
    exact always_of_issues issues (fun _ world grants => grants world) _
  · intro value middle middleReturned
    rw [prologueReturned] at middleReturned
    cases middleReturned
    rw [always_bind]
    refine ⟨always_prepareMemoryMap short nonNull prints ?_ ?_, fun _ _ _ => trivial⟩
    · constructor
      · intro vars same _
        cases same
        exact short
      · intro poolType size buffer same
        cases same
    · constructor
      · intro vars same
        cases same
      · intro poolType size buffer same
        cases same
        exact nonNull

/-- hvisor is entered in exactly the runs in which the firmware grants the map. -/
theorem hvisor_entered_iff :
    (∃ bootCpuId, Event.enter (.hvisorEntry config.hvisorBinLoadAddr bootCpuId
        systemTable.address) ∈
      (exec (machine firmware) (efiMain config imageHandle systemTable uninitialised)
        (World.initial memory state)).state.trace) ↔
      Always (machine firmware) (GrantsMap firmware)
        (efiMain config imageHandle systemTable uninitialised) (World.initial memory state) := by
  constructor
  · rintro ⟨bootCpuId, entered⟩
    cases run : exec (machine firmware) (approach config imageHandle systemTable uninitialised)
        (World.initial memory state) with
    | stuck halted =>
      have approaching := extends_of_issues firmware
        (approaching_approach config imageHandle systemTable uninitialised)
        (World.initial memory state)
      rw [run] at approaching
      obtain ⟨events, trace, approached⟩ := approaching
      rw [efiMain_eq, exec_bind, run, Outcome.state] at entered
      rw [Outcome.state] at trace
      rw [trace] at entered
      cases (approached _ entered).2
    | returned approached reached =>
      obtain ⟨grants, nonNull⟩ := always_approach_grants run
      rw [always_efiMain]
      refine ⟨grants, fun other final returned => ?_⟩
      rw [run] at returned
      cases returned
      constructor
      · have filled : ∀ vars, Op.service (.getMemoryMap approached.2.1 approached.2.2) ≠
            .service (.getMemoryMap vars 0) := by
          intro vars same
          exact nonNull (Service.getMemoryMap.inj (Op.service.inj same)).2
        exact ⟨⟨fun vars same => absurd same (filled vars), fun _ _ _ same => by cases same⟩,
          grantsMap_of_others (by simp) (by simp), trivial⟩
      · apply always_of_issues (departing_depart config systemTable approached.1)
        intro op world departs
        apply grantsMap_of_others
        · rintro vars buffer rfl
          cases departs (efiSuccess, vars)
        · rintro poolType size buffer rfl
          cases departs (efiSuccess, buffer)
  · intro grants
    obtain ⟨approached, reached, returned⟩ := approach_returns (always_efiMain.mp grants).1
    obtain ⟨between, -, trace⟩ := efiMain_trace_of_returned returned
    rw [trace]
    exact ⟨approached.1, List.mem_append_right _ (List.mem_singleton_self _)⟩

end Entry

/-! ## What hvisor finds -/

/-- The binaries lie in the image, and no entry is of a word in them. -/
structure Embedded (config : Config) (image : SharedObject arch) (base : UINTN) : Prop where
  inside : ∀ copy ∈ config.copies, ∀ address ∈ copy.source, address - base ∈ image.cells
  plain : ∀ copy ∈ config.copies, ∀ address ∈ copy.source, ∀ rela ∈ image.relas,
    (image.asks rela).isSome → address - base ∉ block rela.rOffset 8

/-- hvisor is entered at its load address with the table of the firmware, and every destination
    holds the bytes of the file. -/
def EntersFromFile (config : Config) (image : SharedObject arch) (base table : UINTN) (op : Op)
    (world : World σ) : Prop :=
  ∀ address bootCpuId systemTable, op = .enter (.hvisorEntry address bootCpuId systemTable) →
    address = config.hvisorBinLoadAddr ∧ systemTable = table ∧
      ∀ copy ∈ config.copies, readBytes world.memory copy.dest copy.length =
        readBytes image.bytes (copy.src - base) copy.length

/-- The boot services are left with the handle. -/
def ExitsWith (handle : UINTN) (op : Op) : Prop :=
  ∀ other key, op = .service (.exitBootServices other key) → other = handle

theorem linked_embedded {config : Config} {image : SharedObject arch} {base : UINTN}
    {before after : Mem} (embedded : Embedded config image base)
    (linked : image.Linked base before after) {copy : Move 64} (member : copy ∈ config.copies)
    (fits : copy.Fits) :
    readBytes after copy.src copy.length = readBytes image.bytes (copy.src - base) copy.length := by
  apply List.ext_getElem?
  intro index
  rw [readBytes_getElem?, readBytes_getElem?]
  split
  · next bound =>
    have inSource : copy.src + BitVec.ofNat 64 index ∈ copy.source := by
      rw [Move.source, mem_range_iff_sub fits.src, add_sub_cancel_left, BitVec.toNat_ofNat]
      exact Nat.lt_of_le_of_lt (Nat.mod_le _ _) bound
    have shifted : copy.src + BitVec.ofNat 64 index - base =
        copy.src - base + BitVec.ofNat 64 index := by abel
    have cell := linked.same (embedded.inside copy member _ inSource)
    rw [window, add_sub_cancel] at cell
    rw [cell, SharedObject.linked, patchAll_outside GnuEfi.wide64, shifted]
    intro patch isPatch
    obtain ⟨rela, isEntry, stands⟩ := List.mem_filterMap.mp isPatch
    obtain ⟨word, isAsked, rfl⟩ := Option.map_eq_some_iff.mp stands
    have asks : image.asks rela = some word := isAsked
    exact embedded.plain copy member _ inSource rela isEntry (by rw [asks]; rfl)
  · rfl

theorem exits_with {config : Config} {imageHandle : UINTN} {systemTable : EfiSystemTable}
    {uninitialised : UINTN} {firmware : Firmware σ} {world : World σ} :
    Always (machine firmware) (fun op _ => ExitsWith imageHandle op)
      (efiMain config imageHandle systemTable uninitialised) world := by
  have noExit : ∀ op (world : World σ), op.Emits (fun event => event.isExit = false) →
      ExitsWith imageHandle op := by
    rintro op world emits other key rfl
    cases emits efiSuccess
  rw [always_efiMain]
  refine ⟨?_, fun approached reached _ => ⟨?_, ?_⟩⟩
  · exact always_of_issues (issues_mono
      (approaching_approach config imageHandle systemTable uninitialised)
      fun op emits => emits.mono fun event => And.left) noExit _
  · have issues : Issues (ExitsWith imageHandle)
        (exitWithMap imageHandle approached.2.1 approached.2.2) := by
      refine issues_bind (issues_call.mpr ?_) fun answer => issues_call.mpr ?_
      · intro other key same
        cases same
      · intro other key same
        cases same
        rfl
    exact always_of_issues issues (fun op _ exits => exits) _
  · exact always_of_issues (issues_mono (departing_depart config systemTable approached.1)
      fun op emits => emits.mono fun event => Departing.notExit) noExit _

/-- Whatever memory `efi_main` is entered with, hvisor finds there what was embedded in it. -/
theorem enters_from_file {firmware : Firmware σ} (laws : PoolLaws firmware) {config : Config}
    (placed : config.Placed) {image : SharedObject arch} {base : UINTN} {before memory : Mem}
    (embedded : Embedded config image base) (linked : image.Linked base before memory)
    {imageHandle uninitialised : UINTN} {systemTable : EfiSystemTable} {state : σ}
    (spares : Always (machine firmware) (SparesImages firmware config)
      (efiMain config imageHandle systemTable uninitialised) (World.initial memory state)) :
    Always (machine firmware) (EntersFromFile config image base systemTable.address)
      (efiMain config imageHandle systemTable uninitialised) (World.initial memory state) := by
  have noEntry : ∀ op (world : World σ), op.Emits (fun event => event.isHvisorEntry = false) →
      EntersFromFile config image base systemTable.address op world := by
    rintro op world emits address bootCpuId table rfl
    cases emits
  rw [always_efiMain]
  refine ⟨?_, fun approached reached returned => ⟨?_, ?_⟩⟩
  · exact always_of_issues (issues_mono
      (approaching_approach config imageHandle systemTable uninitialised)
      fun op emits => emits.mono fun event => And.right) noEntry _
  · exact always_of_issues (exitWithMap_issues _ _ _) noEntry _
  · rw [always_depart (fun char world _ _ _ entered => by cases entered)
      (fun world _ _ _ entered => by cases entered)]
    intro address bootCpuId table entered
    cases entered
    refine ⟨rfl, rfl, fun copy member => ?_⟩
    rw [World.logChars_memory, World.logChars_memory,
      ← linked_embedded embedded linked member (placed.fits copy member)]
    exact afterExit_images laws placed spares returned member

/-- The 16 bytes behind `_start`. -/
def embeddedConfig : Config :=
  { smallConfig with arch := .riscv64, hvisorBinStart := 0x10c0, hvisorBinEnd := 0x10d0 }

def packedLoader : Loader :=
  { GnuEfi.oneLoader .riscv64 with
    efiMain := packerMain (pageFirmware 0x50000000) () embeddedConfig 0 }

def packedCall : Cpu := GnuEfi.firmwareCall (GnuEfi.pairAt .riscv64 true 0x1000)

theorem embeddedConfig_placed : embeddedConfig.Placed where
  short := by decide
  fits := by decide
  clearedFits := by decide
  apart := by decide
  clear := by decide
  clearedClear := by decide

theorem packed_called : Called packedLoader (GnuEfi.twoRelocations .riscv64 true) packedCall where
  placed := ⟨(GnuEfi.called_pair .riscv64).placed.distinct,
    (GnuEfi.called_pair .riscv64).placed.outside⟩
  aligned := (GnuEfi.called_pair .riscv64).aligned
  loaded := (GnuEfi.called_pair .riscv64).loaded
  dynamic := rfl
  stack := (GnuEfi.called_pair .riscv64).stack

theorem packed_embedded :
    Embedded embeddedConfig (GnuEfi.twoRelocations .riscv64 true) 0x1000 where
  inside := by
    intro copy member address inSource
    obtain rfl := List.mem_singleton.mp member
    obtain ⟨lower, upper⟩ := mem_range.mp inSource
    have low : 0x10c0 ≤ address.toNat := lower
    have high : address.toNat < 0x10d0 := upper
    show (address - 0x1000).toNat < 256
    rw [BitVec.toNat_sub]
    simp
    omega
  plain := by
    intro copy member address inSource rela isEntry _ touched
    obtain rfl := List.mem_singleton.mp member
    rw [GnuEfi.relas_pair] at isEntry
    obtain ⟨lower, upper⟩ := mem_range.mp inSource
    have low : 0x10c0 ≤ address.toNat := lower
    have high : address.toNat < 0x10d0 := upper
    have near : (address - 0x1000 - rela.rOffset).toNat < 8 := touched
    rcases GnuEfi.mem_pairRelas isEntry with offset | offset
    · rw [offset, BitVec.toNat_sub, BitVec.toNat_sub] at near
      simp at near
      omega
    · rw [offset, BitVec.toNat_sub, BitVec.toNat_sub] at near
      simp at near
      omega

theorem pageFirmware_spares_embedded (op : Op) (world : World Unit) :
    SparesImages (pageFirmware 0x50000000) embeddedConfig op world where
  pool := by
    intro poolType size buffer allocates pointer nonNull copy member
    obtain rfl := List.mem_singleton.mp member
    exact (pageFirmware_spares op world).pool poolType size buffer allocates nonNull
      smallConfig.hvisorCopy (List.mem_singleton_self _)
  services := pageFirmware_services _ _ op world

theorem pageFirmware_grants (op : Op) (world : World Unit) :
    GrantsMap (pageFirmware 0x50000000) op world where
  sized := by
    intro vars _ empty
    have small : vars.memoryMapSize.toNat < 48 ∨ 2 ^ 64 < (0 : UINTN).toNat + 48 := by
      rw [empty]
      decide
    exact congrArg (fun reply : (EfiStatus × MemoryMapVars) × Unit × Mem => reply.1.1)
      (if_pos small)
  pool := by
    intro poolType size buffer _
    show (0x50000000 : UINTN) ≠ 0
    decide

end HvisorUefiPacker
