import HvisorUefiPacker.Soundness.ComposedMemory
import HvisorUefiPacker.Soundness.HandOff

/-! # The images at the jump

The images are copied to their load addresses while the boot services are alive,
and the packer never asks the firmware for that memory.  The buffer of the memory
map is asked for afterwards, so the pool may hand out the very bytes an image was
copied to, and `GetMemoryMap` then fills them.

* `PoolLaws` is what the packer may count on: where the pool has its memory from, and
  what `GetMemoryMap` writes.
* `SparesImages` is what has to come on top of it in each step of a run.
* `images_survive` carries the composed memory through the rest of every such run.
-/

namespace HvisorUefiPacker

open Interaction Interaction.Program ByteMemory

variable {σ : Type}

/-- The pool hands out memory that nobody has allocated, and `GetMemoryMap` writes into the
    caller's buffer only. -/
structure PoolLaws (firmware : Firmware σ) where
  free : σ → Set UINTN
  allocated : ∀ poolType size buffer state memory,
    let answer : EfiStatus × UINTN := (firmware (.allocatePool poolType size buffer) state memory).1
    answer.1 = efiSuccess → range answer.2 size.toNat ⊆ free state
  fillsOnlyBuffer : ∀ vars buffer state memory address,
    address ∉ range buffer vars.memoryMapSize.toNat →
      (firmware (.getMemoryMap vars buffer) state memory).2.2 address = memory address

/-- The embedded binaries and the bytes they are copied to. -/
def Config.imageBytes (config : Config) : Set UINTN :=
  { address | ∃ copy ∈ config.copies, address ∈ copy.source ∨ address ∈ copy.target }

/-- A step that does the images no harm: if `AllocatePool` leaves a pointer that is not null,
    whatever its status, the buffer there misses every destination, and no service but
    `GetMemoryMap` writes to a destination or to an embedded binary. -/
structure SparesImages (firmware : Firmware σ) (config : Config) (op : Op) (world : World σ) :
    Prop where
  pool : ∀ poolType size buffer, op = .service (.allocatePool poolType size buffer) →
    let pointer : UINTN :=
      Prod.snd (firmware (.allocatePool poolType size buffer) world.firmware world.memory).1
    pointer ≠ 0 → ∀ copy ∈ config.copies, Disjoint (range pointer size.toNat) copy.target
  services : ServiceSpares firmware config.imageBytes op world

/-- hvisor is entered with each destination holding the binary embedded in `memory`. -/
def EntersWithImages (config : Config) (memory : Mem) (op : Op) (world : World σ) : Prop :=
  ∀ address bootCpuId systemTable, op = .enter (.hvisorEntry address bootCpuId systemTable) →
    ∀ copy ∈ config.copies,
      readBytes world.memory copy.dest copy.length = readBytes memory copy.src copy.length

section Copies

variable {config : Config} {copy : Move 64}

theorem source_imageBytes (member : copy ∈ config.copies) : copy.source ⊆ config.imageBytes :=
  fun _ inside => ⟨copy, member, .inl inside⟩

theorem target_imageBytes (member : copy ∈ config.copies) : copy.target ⊆ config.imageBytes :=
  fun _ inside => ⟨copy, member, .inr inside⟩

end Copies

/-! ## The way to the second GetMemoryMap -/

section Approach

variable {firmware : Firmware σ} {config : Config} {kept : Set UINTN}

theorem wpSafe_prologue (placed : config.Placed)
    (sources : ∀ copy ∈ config.copies, copy.source ⊆ kept) (imageHandle : UINTN)
    (systemTable : EfiSystemTable) (uninitialised : UINTN) (start : World σ) :
    wpSafe (machine firmware) (ServiceSpares firmware kept)
      (prologue config imageHandle systemTable uninitialised)
      (fun _ reached => Set.EqOn reached.memory (config.composed start.memory) kept) start := by
  rw [prologue]
  apply wpSafe_bind
  apply wpSafe_mono (wpSafe_aloof (aloof_greet config imageHandle systemTable) start)
  intro _ greeted greetedSame
  apply wpSafe_bind
  apply wpSafe_mono (wpSafe_composeMemory placed sources greeted)
  intro _ composed composedSame
  have composedMemory := composedSame.trans (placed.composed_eqOn sources greetedSame)
  apply wpSafe_bind
  apply wpSafe_mono (wpSafe_aloof (aloof_archGetBootCpuId config.arch uninitialised) composed)
  intro bootCpuId asked askedSame
  apply wpSafe_bind
  apply wpSafe_mono (wpSafe_aloof (aloof_print _ _) asked)
  intro _ printed printedSame
  apply wpSafe_of_wp
  rw [pure_eq, wp_done]
  exact printedSame.trans (askedSame.trans composedMemory)

/-- A `GetMemoryMap` without a buffer writes nothing. -/
theorem PoolLaws.sizing_memory (laws : PoolLaws firmware) (vars : MemoryMapVars) (state : σ)
    (memory : Mem) :
    (firmware (.getMemoryMap { vars with memoryMapSize := 0 } 0) state memory).2.2 = memory := by
  funext address
  apply laws.fillsOnlyBuffer
  intro inside
  obtain ⟨-, below⟩ := mem_range.mp inside
  exact absurd below (Nat.not_lt_zero _)

/-- Up to the buffer, the preparation makes one call for the size of the map, two lines and
    the call of the pool. -/
theorem prepareMemoryMap_spared (laws : PoolLaws firmware) {vars : MemoryMapVars}
    {world : World σ} (short : (sizeAnswer firmware vars world).1 = efiBufferTooSmall)
    (spared : Always (machine firmware) (ServiceSpares firmware kept)
      (prepareMemoryMap staticBuffer vars) world) :
    Set.EqOn
      ((beforePool firmware vars world).serve firmware (poolRequest firmware vars world)).memory
      world.memory kept := by
  have pool := always_prepareMemoryMap_pool spared short
  obtain ⟨-, checks⟩ := spared
  change Always _ _ (check staticBuffer (sizeAnswer firmware vars world).1 _ _ >>= _) _ at checks
  rw [short, check_expected] at checks
  obtain ⟨checked, sized, -⟩ := checks
  have asked := laws.sizing_memory vars world.firmware world.memory
  have poolSame := pool _ rfl (by simp [poolRequest])
  have sizedSame := sized _ rfl (by simp)
  have checkedSame := checked _ rfl (by simp)
  rw [← asked]
  exact poolSame.trans (sizedSame.trans checkedSame)

/-- Where a run of `approach` gets to, every destination holds what was composed, and
    the buffer that is about to be filled misses it. -/
theorem approach_reaches_images (laws : PoolLaws firmware) (placed : config.Placed)
    {imageHandle : UINTN} {systemTable : EfiSystemTable} {uninitialised : UINTN}
    {start reached : World σ} {approached : UINTN × MemoryMapVars × UINTN}
    (spares : Always (machine firmware) (SparesImages firmware config)
      (approach config imageHandle systemTable uninitialised) start)
    (returned : exec (machine firmware)
      (approach config imageHandle systemTable uninitialised) start =
        .returned approached reached) :
    Set.EqOn reached.memory (config.composed start.memory) config.imageBytes ∧
      ∀ copy ∈ config.copies,
        Disjoint (range approached.2.2 approached.2.1.memoryMapSize.toNat) copy.target := by
  obtain ⟨bootCpuId, composed, prologueReturned, rest⟩ := returned_bind returned
  obtain ⟨prepared, asked, preparedReturned, last⟩ := returned_bind rest
  cases last
  rw [approach, always_bind] at spares
  have preparing := ((always_bind _ _ _).mp (spares.2 _ _ prologueReturned)).1
  obtain ⟨short, nonNull, rfl, rfl⟩ := prepareMemoryMap_returned preparedReturned
  constructor
  · have composedMemory := post_of_returned
      (wpSafe_prologue placed (fun copy member => source_imageBytes member) imageHandle
        systemTable uninitialised start (always_mono spares.1 fun _ _ safe => safe.services))
      prologueReturned
    have kept := prepareMemoryMap_spared laws short
      (always_mono preparing fun _ _ safe => safe.services)
    exact kept.trans composedMemory
  · have missed := (always_prepareMemoryMap_pool preparing short).pool _ _ _ rfl
    exact missed nonNull

/-- The two last calls change the buffer only. -/
theorem afterExit_memory (laws : PoolLaws firmware) {imageHandle : UINTN} {vars : MemoryMapVars}
    {memoryMapDesc : UINTN} {world : World σ}
    (spares : Always (machine firmware) (ServiceSpares firmware kept)
      (exitWithMap imageHandle vars memoryMapDesc) world) {address : UINTN}
    (inside : address ∈ kept) (outside : address ∉ range memoryMapDesc vars.memoryMapSize.toNat) :
    (afterExit firmware imageHandle vars memoryMapDesc world).memory address =
      world.memory address := by
  obtain ⟨-, exits, -⟩ := spares
  have exited := exits _ rfl (by simp) inside
  have filled := laws.fillsOnlyBuffer vars memoryMapDesc world.firmware world.memory address outside
  exact exited.trans filled

/-- Behind the last call every destination holds its binary. -/
theorem afterExit_images (laws : PoolLaws firmware) (placed : config.Placed)
    {imageHandle : UINTN} {systemTable : EfiSystemTable} {uninitialised : UINTN}
    {start reached : World σ} {approached : UINTN × MemoryMapVars × UINTN}
    (spares : Always (machine firmware) (SparesImages firmware config)
      (efiMain config imageHandle systemTable uninitialised) start)
    (returned : exec (machine firmware)
      (approach config imageHandle systemTable uninitialised) start =
        .returned approached reached) {copy : Move 64} (member : copy ∈ config.copies) :
    readBytes (afterExit firmware imageHandle approached.2.1 approached.2.2 reached).memory
        copy.dest copy.length =
      readBytes start.memory copy.src copy.length := by
  rw [always_efiMain] at spares
  obtain ⟨approaching, runs⟩ := spares
  have exiting := always_mono (runs approached reached returned).1
    fun _ _ safe => safe.services
  obtain ⟨composedMemory, disjoint⟩ := approach_reaches_images laws placed approaching returned
  rw [← (placed.composes start.memory).copied copy member]
  apply readBytes_congr (placed.fits copy member).dest
  intro address inTarget
  have inside := target_imageBytes member inTarget
  rw [afterExit_memory laws exiting inside fun inBuffer =>
    Set.disjoint_left.mp (disjoint copy member) inBuffer inTarget]
  exact composedMemory inside

end Approach

theorem always_entersWithImages_of_issues (firmware : Firmware σ) {config : Config} {memory : Mem}
    {α : Type} {program : Packer α}
    (issues : Issues (Op.Emits fun event => event.isHvisorEntry = false) program)
    (world : World σ) : Always (machine firmware) (EntersWithImages config memory) program world := by
  apply always_of_issues issues
  rintro op state emits address bootCpuId systemTable rfl
  cases emits

/-- In every run whose steps do the images no harm, hvisor is entered with the embedded
    binaries in place. -/
theorem images_survive {firmware : Firmware σ} (laws : PoolLaws firmware) {config : Config}
    (placed : config.Placed) (imageHandle : UINTN) (systemTable : EfiSystemTable)
    (uninitialised : UINTN) (memory : Mem) (state : σ)
    (spares : Always (machine firmware) (SparesImages firmware config)
      (efiMain config imageHandle systemTable uninitialised) (World.initial memory state)) :
    Always (machine firmware) (EntersWithImages config memory)
      (efiMain config imageHandle systemTable uninitialised) (World.initial memory state) := by
  rw [always_efiMain]
  refine ⟨?_, fun approached reached returned => ⟨?_, ?_⟩⟩
  · exact always_entersWithImages_of_issues firmware (issues_mono
      (approaching_approach config imageHandle systemTable uninitialised)
      fun op emits => emits.mono fun event => And.right) _
  · exact always_entersWithImages_of_issues firmware (exitWithMap_issues _ _ _) _
  · rw [always_depart (fun char world _ _ _ entered => by cases entered)
      (fun world _ _ _ entered => by cases entered)]
    intro _ _ _ _ copy member
    rw [World.logChars_memory, World.logChars_memory]
    exact afterExit_images laws placed spares returned member

/-! ## A firmware whose pool is everything from one page on -/

/-- Its map is 48 bytes of 0xff, and what it hands out begins at `page`. -/
def pageFirmware (page : UINTN) : Firmware Unit
  | .initializeLib _, state, memory => ((), state, memory)
  | .print _ _, state, memory => ((), state, memory)
  | .setAttribute _, state, memory => (efiSuccess, state, memory)
  | .getMemoryMap vars buffer, state, memory =>
    let answered : MemoryMapVars := { vars with memoryMapSize := 48, mapKey := 1, descSize := 48 }
    if vars.memoryMapSize.toNat < 48 ∨ 2 ^ 64 < buffer.toNat + 48 then
      ((efiBufferTooSmall, answered), state, memory)
    else
      ((efiSuccess, answered), state, writeBytes memory buffer (List.replicate 48 0xff))
  | .allocatePool _ _ _, state, memory => ((efiSuccess, page), state, memory)
  | .exitBootServices _ _, state, memory => (efiSuccess, state, memory)
  | .locateProtocol _ interface, state, memory => ((efiSuccess, interface), state, memory)
  | .getBootHartId _ hartId, state, memory => ((efiSuccess, hartId), state, memory)

def pageLaws (page : UINTN) : PoolLaws (pageFirmware page) where
  free _ := { address | page.toNat ≤ address.toNat }
  allocated poolType size buffer state memory := by
    intro answer _ address inside
    exact (mem_range.mp inside).1
  fillsOnlyBuffer vars buffer state memory address outside := by
    simp only [pageFirmware]
    split
    · rfl
    · next fits =>
      apply writeBytes_outside
      · rw [List.length_replicate]
        omega
      · rw [List.length_replicate]
        intro inside
        rw [mem_range] at inside outside
        omega

/-- Besides the map it writes nothing. -/
theorem pageFirmware_services (page : UINTN) (kept : Set UINTN) (op : Op) (world : World Unit) :
    ServiceSpares (pageFirmware page) kept op world := by
  intro service _ other
  cases service with
  | getMemoryMap vars buffer => exact absurd rfl (other vars buffer)
  | _ => exact Set.eqOn_refl _ _

theorem smallConfig_placed : smallConfig.Placed where
  short := by decide
  fits := by decide
  clearedFits := by decide
  apart := by decide
  clear := by decide
  clearedClear := by decide

theorem pageFirmware_spares (op : Op) (world : World Unit) :
    SparesImages (pageFirmware 0x50000000) smallConfig op world where
  pool := by
    rintro poolType size buffer rfl pointer _ copy member
    obtain rfl := List.mem_singleton.mp member
    have behind : (0x40400000 : UINTN).toNat + 16 ≤ (0x50000000 : UINTN).toNat := by decide
    exact disjoint_range.mpr (.inr (.inr (.inr behind)))
  services := pageFirmware_services _ _ op world

theorem images_survive_page :
    Always (machine (pageFirmware 0x50000000)) (EntersWithImages smallConfig fun _ => 7)
      (efiMain smallConfig 1 ⟨0x2000, 0, 0, 0, 0, 0⟩ 0) (World.initial (fun _ => 7) ()) :=
  images_survive (pageLaws 0x50000000) smallConfig_placed 1 ⟨0x2000, 0, 0, 0, 0, 0⟩ 0 (fun _ => 7) ()
    (always_of_safe pageFirmware_spares _ _)

/-- The pool hands out the page hvisor was copied to, and the map overwrites it. -/
theorem images_overwritten :
    ∃ laws : PoolLaws (pageFirmware 0x40400000),
      smallConfig.Placed ∧ (∀ copy ∈ smallConfig.copies, copy.target ⊆ laws.free ()) ∧
        ¬ Always (machine (pageFirmware 0x40400000)) (EntersWithImages smallConfig fun _ => 0)
          (efiMain smallConfig 1 ⟨0x2000, 0, 0, 0, 0, 0⟩ 0) (World.initial (fun _ => 0) ()) := by
  refine ⟨pageLaws 0x40400000, smallConfig_placed, ?_, ?_⟩
  · intro copy member address inside
    obtain rfl := List.mem_singleton.mp member
    exact (mem_range.mp inside).1
  intro always
  obtain ⟨bootCpuId, reached, returned⟩ := exec_returns_of_issues
    (fun op world => Op.Ordinary.answered (pageFirmware 0x40400000) world)
    (ordinary_prologue smallConfig 1 ⟨0x2000, 0, 0, 0, 0, 0⟩ 0) (World.initial (fun _ => 0) ())
  have prepares : wp (machine (pageFirmware 0x40400000)) (prepareMemoryMap staticBuffer staticVars)
      (fun prepared _ => prepared.1.memoryMapSize = 1008 ∧ prepared.2 = 0x40400000) reached := by
    have sized : (sizedVars (pageFirmware 0x40400000) staticVars reached).memoryMapSize = 1008 := rfl
    have pool : poolAnswer (pageFirmware 0x40400000) staticVars reached =
        (efiSuccess, 0x40400000) := rfl
    rw [wp_prepareMemoryMap, pool]
    exact ⟨rfl, by decide, sized, rfl⟩
  obtain ⟨⟨vars, buffer⟩, atExit, preparedReturns, sized, pointer⟩ := wp_iff_exec.mp prepares
  have jump := ((always_efiMain.mp always).2 (bootCpuId, vars, buffer) atExit (by
    rw [approach, exec_bind_of_returned returned, exec_bind_of_returned preparedReturns]
    rfl)).2
  rw [always_depart (fun char world _ _ _ entered => by cases entered)
    (fun world _ _ _ entered => by cases entered)] at jump
  have kept := jump _ _ _ rfl smallConfig.hvisorCopy (List.mem_singleton.mpr rfl)
  have filled : (afterExit (pageFirmware 0x40400000) 1 vars buffer atExit).memory =
      writeBytes atExit.memory buffer (List.replicate 48 0xff) := by
    have room : ¬ (vars.memoryMapSize.toNat < 48 ∨ 2 ^ 64 < buffer.toNat + 48) := by
      rw [show vars.memoryMapSize = 1008 from sized, show buffer = 0x40400000 from pointer]
      decide
    exact congrArg (fun reply : (EfiStatus × MemoryMapVars) × Unit × Mem => reply.2.2)
      (if_neg room)
  have firstByte := congrArg (fun bytes : List Byte => bytes[0]?) kept
  rw [World.logChars_memory, World.logChars_memory, filled,
    show buffer = 0x40400000 from pointer] at firstByte
  rw [readBytes_getElem?, readBytes_getElem?, writeBytes_apply _ _ _ (by decide)] at firstByte
  exact absurd (Option.some.inj firstByte) (by decide : (0xff : Byte) ≠ 0)

end HvisorUefiPacker
