import HvisorUefiPacker.Soundness.HandOff

/-! # The memory-map protocol

`MapProtocol` is the firmware's side of the UEFI memory-map protocol: a list of
descriptors and a key that console output and allocations may change together,
and an exit that is granted for the current key only.

`exit_boot_services_follows_protocol` is about the packer's side: between what it
learns from the first `GetMemoryMap` and what it passes to `ExitBootServices`, its
own calls move the map, and it still exits once, with the current key and the
whole map in its buffer.
-/

namespace HvisorUefiPacker

open Interaction Interaction.Program ByteMemory

variable {σ : Type}

/-- The laws a conforming firmware answers by. -/
structure MapProtocol (firmware : Firmware σ) where
  descSize : UINTN
  map : σ → List (Vector Byte descSize.toNat)
  key : σ → UINTN
  /-- How often the boot services have been left. -/
  exits : σ → Nat
  tooSmall : ∀ vars buffer state memory,
    vars.memoryMapSize.toNat < (map state).length * descSize.toNat →
      ∃ answered state' memory',
        firmware (.getMemoryMap vars buffer) state memory =
            ((efiBufferTooSmall, answered), state', memory') ∧
          answered.memoryMapSize = BitVec.ofNat 64 ((map state).length * descSize.toNat) ∧
          answered.descSize = descSize ∧ map state' = map state ∧ key state' = key state
  fills : ∀ vars buffer state memory, buffer ≠ 0 →
    (map state).length * descSize.toNat ≤ vars.memoryMapSize.toNat →
      ∃ answered state' memory',
        firmware (.getMemoryMap vars buffer) state memory =
            ((efiSuccess, answered), state', memory') ∧
          Holds memory' buffer ((map state).flatMap Vector.toList) ∧
          answered.mapKey = key state ∧ map state' = map state ∧ key state' = key state
  /-- A failed allocation leaves the caller's pointer, a successful one replaces it. -/
  pool : ∀ poolType size buffer state memory,
    ∃ status pointer after, firmware (.allocatePool poolType size buffer) state memory =
        ((status, pointer), after) ∧
      (status = efiSuccess → pointer ≠ 0) ∧ (status ≠ efiSuccess → pointer = buffer)
  /-- What is in a buffer that holds the map stays there. -/
  granted : ∀ handle state memory,
    ∃ state' memory', firmware (.exitBootServices handle (key state)) state memory =
        (efiSuccess, state', memory') ∧
      (∀ buffer, Holds memory buffer ((map state).flatMap Vector.toList) →
        Holds memory' buffer ((map state).flatMap Vector.toList)) ∧
      exits state' = exits state + 1 ∧ map state' = map state ∧ key state' = key state
  refused : ∀ handle staleKey state memory, staleKey ≠ key state →
    ∃ status state' memory', firmware (.exitBootServices handle staleKey) state memory =
        (status, state', memory') ∧ status ≠ efiSuccess ∧ exits state' = exits state
  stays : ∀ service state memory, (∀ handle key, service ≠ .exitBootServices handle key) →
    exits (firmware service state memory).2.1 = exits state

theorem flatMap_toList_length {size : Nat} (map : List (Vector Byte size)) :
    (map.flatMap Vector.toList).length = map.length * size := by
  induction map with
  | nil => simp
  | cons descriptor rest inductionHypothesis =>
    rw [List.flatMap_cons, List.length_append, inductionHypothesis, Vector.length_toList,
      List.length_cons, Nat.succ_mul, Nat.add_comm]

namespace MapProtocol

variable {firmware : Firmware σ} (protocol : MapProtocol firmware)

/-- The bytes of the whole map. -/
def encoded (state : σ) : List Byte := (protocol.map state).flatMap Vector.toList

variable (vars : MemoryMapVars) (world : World σ)

/-- The world of the second `GetMemoryMap`: the packer has printed and allocated. -/
def atSecondCall (firmware : Firmware σ) (vars : MemoryMapVars) (world : World σ) : World σ :=
  (beforePool firmware vars world).serve firmware (poolRequest firmware vars world)

/-- What the results about the map assume of the run: a map to speak of, sizes that
    do not overflow, and at most twenty descriptors more at the second call. -/
structure Calm : Prop where
  nonempty : protocol.map world.firmware ≠ []
  sized : 0 < protocol.descSize.toNat
  fits : ((protocol.map world.firmware).length + 20) * protocol.descSize.toNat < 2 ^ 64
  slack : (protocol.map (atSecondCall firmware vars world).firmware).length ≤
    (protocol.map world.firmware).length + 20

variable {protocol vars world}

/-- The first call reports the size, to which room for twenty descriptors is added. -/
theorem Calm.sizing (calm : protocol.Calm vars world) :
    (sizeAnswer firmware vars world).1 = efiBufferTooSmall ∧
      (sizedVars firmware vars world).memoryMapSize.toNat =
        ((protocol.map world.firmware).length + 20) * protocol.descSize.toNat := by
  have someDescriptor : 0 < (protocol.map world.firmware).length :=
    List.length_pos_iff.mpr calm.nonempty
  have needed : (0 : UINTN).toNat <
      (protocol.map world.firmware).length * protocol.descSize.toNat :=
    Nat.mul_pos someDescriptor calm.sized
  obtain ⟨answered, state', memory', reply, size, descSize, -, -⟩ :=
    protocol.tooSmall { vars with memoryMapSize := 0 } 0 world.firmware world.memory needed
  have answer : sizeAnswer firmware vars world = (efiBufferTooSmall, answered) := by
    rw [sizeAnswer, reply]
  refine ⟨by rw [answer], ?_⟩
  have fits := calm.fits
  have split : ((protocol.map world.firmware).length + 20) * protocol.descSize.toNat =
      (protocol.map world.firmware).length * protocol.descSize.toNat +
        20 * protocol.descSize.toNat := Nat.add_mul _ _ _
  have twenty : (20 : UINTN).toNat = 20 := rfl
  rw [sizedVars, answer]
  simp only [size, descSize, twenty, BitVec.toNat_add, BitVec.toNat_mul, BitVec.toNat_ofNat]
  omega

/-- The second call fills the buffer and hands out the current key, which the exit then
    passes.  Nothing comes between the two. -/
theorem Calm.exits (calm : protocol.Calm vars world) (imageHandle : UINTN)
    {memoryMapDesc : UINTN} (nonNull : memoryMapDesc ≠ 0) :
    wp (machine firmware)
      (exitWithMap imageHandle (sizedVars firmware vars world) memoryMapDesc)
      (fun status after =>
        status = efiSuccess ∧
          protocol.exits after.firmware =
            protocol.exits (atSecondCall firmware vars world).firmware + 1 ∧
          readBytes after.memory memoryMapDesc (protocol.encoded after.firmware).length =
            protocol.encoded after.firmware ∧
          after.trace.getLast? = some (.service
            (.exitBootServices imageHandle (protocol.key after.firmware)) efiSuccess))
      (atSecondCall firmware vars world) := by
  have room : (protocol.map (atSecondCall firmware vars world).firmware).length *
      protocol.descSize.toNat ≤ (sizedVars firmware vars world).memoryMapSize.toNat := by
    rw [calm.sizing.2]
    exact Nat.mul_le_mul_right _ calm.slack
  generalize atSecondCall firmware vars world = asking at room ⊢
  obtain ⟨answered, filled, mapped, reply, holds, mapKey, sameMap, sameKey⟩ := protocol.fills
    (sizedVars firmware vars world) memoryMapDesc asking.firmware asking.memory nonNull room
  obtain ⟨left, leftMemory, granted, stays, once, leftMap, leftKey⟩ :=
    protocol.granted imageHandle filled mapped
  have keptExits := protocol.stays (.getMemoryMap (sizedVars firmware vars world) memoryMapDesc)
    asking.firmware asking.memory (by simp)
  rw [reply] at keptExits
  have answer : mapAnswer firmware (sizedVars firmware vars world) memoryMapDesc asking =
      (efiSuccess, answered) := by
    rw [mapAnswer, reply]
  have passed : answered.mapKey = protocol.key filled := by rw [mapKey, sameKey]
  have first := World.serve_of_answer reply
  have exit : firmware (.exitBootServices imageHandle
      (mapAnswer firmware (sizedVars firmware vars world) memoryMapDesc asking).2.mapKey)
      (asking.serve firmware (.getMemoryMap (sizedVars firmware vars world) memoryMapDesc)).firmware
      (asking.serve firmware (.getMemoryMap (sizedVars firmware vars world) memoryMapDesc)).memory =
        (efiSuccess, left, leftMemory) := by
    rw [answer, first, passed]
    exact granted
  have second := World.serve_of_answer exit
  have stillHolds : Holds leftMemory memoryMapDesc (protocol.encoded left) := by
    rw [MapProtocol.encoded, leftMap]
    apply stays
    rwa [sameMap]
  apply wp_of_returned (exec_exitWithMap _ _ _ _ _)
  rw [afterExit, second]
  refine ⟨?_, ?_, stillHolds, ?_⟩
  · rw [exitStatus, exit]
  · exact once.trans (congrArg (· + 1) keptExits)
  · rw [answer, passed, leftKey]
    exact List.getLast?_concat

/-- A part that is still approaching leaves the exits as they are. -/
theorem exits_of_approaching {α : Type} {program : Packer α}
    (approaching : Issues (Op.Emits Approaching) program) (world : World σ) :
    protocol.exits (exec (machine firmware) program world).state.firmware =
      protocol.exits world.firmware := by
  have kept : ∀ op (before : World σ) answer after, op.Emits Approaching →
      machine firmware op before = some (answer, after) →
        protocol.exits after.firmware = protocol.exits before.firmware := by
    intro op before answer after emits answered
    cases op with
    | service service =>
      cases answered
      apply protocol.stays
      rintro handle key rfl
      cases (emits efiSuccess).1
    | load address => cases answered; rfl
    | store address byte => cases answered; rfl
    | putChar char => cases answered; rfl
    | hardware step => cases answered; rfl
    | enter callee => cases answered; rfl
    | spin => cases answered
  exact exec_relates_of_issues
    (fun before after : World σ =>
      protocol.exits after.firmware = protocol.exits before.firmware)
    (fun _ => rfl) (fun _ _ _ left right => right.trans left) kept approaching world

/-- What the pool's laws say of the allocation `prepareMemoryMap` makes. -/
theorem pool_answer (protocol : MapProtocol firmware) (vars : MemoryMapVars) (world : World σ) :
    (poolAnswer firmware vars world).1 = efiSuccess ↔ (poolAnswer firmware vars world).2 ≠ 0 := by
  obtain ⟨status, pointer, after, reply, nonNull, null⟩ := protocol.pool efiLoaderData
    (sizedVars firmware vars world).memoryMapSize 0 (beforePool firmware vars world).firmware
    (beforePool firmware vars world).memory
  have answer : poolAnswer firmware vars world = (status, pointer) := by
    rw [poolAnswer, reply]
  rw [answer]
  constructor
  · exact nonNull
  · intro nonzero
    by_contra failed
    exact nonzero (null failed)

end MapProtocol

/-- With a buffer from the pool, `exit_boot_services` returns `EFI_SUCCESS`, has left
    the boot services once, and its buffer holds the whole map of the key it passed.
    Without one it halts and has not left them. -/
theorem exit_boot_services_follows_protocol {firmware : Firmware σ}
    (protocol : MapProtocol firmware) (buf : StatusBuffer) (vars : MemoryMapVars)
    (imageHandle : UINTN) (world : World σ) (calm : protocol.Calm vars world) :
    ((poolAnswer firmware vars world).1 = efiSuccess →
      wp (machine firmware) (exitBootServices buf vars imageHandle)
        (fun status after =>
          status = efiSuccess ∧
            protocol.exits after.firmware = protocol.exits world.firmware + 1 ∧
            readBytes after.memory (poolAnswer firmware vars world).2
                (protocol.encoded after.firmware).length = protocol.encoded after.firmware ∧
            after.trace.getLast? = some (.service
              (.exitBootServices imageHandle (protocol.key after.firmware)) efiSuccess))
        world) ∧
      ((poolAnswer firmware vars world).1 ≠ efiSuccess →
        ∃ halted, exec (machine firmware) (exitBootServices buf vars imageHandle) world =
            .stuck halted ∧
          protocol.exits halted.firmware = protocol.exits world.firmware) := by
  have kept := protocol.exits_of_approaching (approaching_prepareMemoryMap buf vars) world
  constructor
  · intro allocated
    have prepared : wp (machine firmware) (prepareMemoryMap buf vars)
        (fun reached after => reached =
            (sizedVars firmware vars world, (poolAnswer firmware vars world).2) ∧
          after = MapProtocol.atSecondCall firmware vars world) world := by
      rw [wp_prepareMemoryMap]
      exact ⟨calm.sizing.1, (protocol.pool_answer vars world).mp allocated, rfl, rfl⟩
    obtain ⟨_, _, returned, rfl, rfl⟩ := wp_iff_exec.mp prepared
    rw [returned] at kept
    rw [exitBootServices, wp_bind]
    apply wp_of_returned returned
    apply wp_mono (calm.exits imageHandle ((protocol.pool_answer vars world).mp allocated))
    rintro status after ⟨success, once, holds, passed⟩
    exact ⟨success, once.trans (congrArg (· + 1) kept), holds, passed⟩
  · intro failed
    cases run : exec (machine firmware) (prepareMemoryMap buf vars) world with
    | returned value reached =>
      have correct : wp (machine firmware) (prepareMemoryMap buf vars) (fun _ _ => True) world :=
        wp_of_returned run trivial
      rw [wp_prepareMemoryMap, ← protocol.pool_answer vars world] at correct
      exact absurd correct.2.1 failed
    | stuck halted =>
      rw [run] at kept
      refine ⟨halted, ?_, kept⟩
      rw [exitBootServices, exec_bind, run]

/-! ## A firmware whose map moves -/

structure MovingMap where
  map : List (Vector Byte (2 : UINTN).toNat)
  key : UINTN
  exits : Nat

/-- Every line printed changes the key, every allocation adds a descriptor. -/
def movingFirmware : Firmware MovingMap
  | .initializeLib _, state, memory => ((), state, memory)
  | .print _ _, state, memory => ((), { state with key := state.key + 1 }, memory)
  | .setAttribute _, state, memory => (efiSuccess, state, memory)
  | .getMemoryMap vars buffer, state, memory =>
    let needed := state.map.length * (2 : UINTN).toNat
    let answered : MemoryMapVars :=
      { vars with memoryMapSize := BitVec.ofNat 64 needed, mapKey := state.key, descSize := 2 }
    if vars.memoryMapSize.toNat < needed then
      ((efiBufferTooSmall, answered), state, memory)
    else
      ((efiSuccess, answered), state,
        writeBytes memory buffer (state.map.flatMap Vector.toList))
  | .allocatePool _ _ _, state, memory =>
    ((efiSuccess, 0x1000),
      { state with map := state.map ++ [Vector.replicate _ 1], key := state.key + 1 }, memory)
  | .exitBootServices _ mapKey, state, memory =>
    if mapKey = state.key then
      (efiSuccess, { state with exits := state.exits + 1 }, memory)
    else
      (efiInvalidParameter, state, memory)
  | .locateProtocol _ interface, state, memory => ((efiSuccess, interface), state, memory)
  | .getBootHartId _ hartId, state, memory => ((efiSuccess, hartId), state, memory)

def movingProtocol : MapProtocol movingFirmware where
  descSize := 2
  map := MovingMap.map
  key := MovingMap.key
  exits := MovingMap.exits
  tooSmall vars buffer state memory short := by
    refine ⟨_, state, memory, if_pos short, rfl, rfl, rfl, rfl⟩
  fills vars buffer state memory _ room := by
    refine ⟨_, state, _, if_neg (Nat.not_lt.mpr room), ?_, rfl, rfl, rfl⟩
    apply readBytes_writeBytes
    rw [flatMap_toList_length]
    exact room.trans vars.memoryMapSize.isLt.le
  pool poolType size buffer state memory :=
    ⟨efiSuccess, 0x1000, _, rfl, fun _ => by decide, fun failed => absurd rfl failed⟩
  granted handle state memory := ⟨_, memory, if_pos rfl, fun _ holds => holds, rfl, rfl, rfl⟩
  refused handle staleKey state memory stale :=
    ⟨efiInvalidParameter, state, memory, if_neg stale, (by decide : efiErr 2 ≠ 0), rfl⟩
  stays service state memory stays := by
    cases service with
    | exitBootServices handle key => exact absurd rfl (stays handle key)
    | getMemoryMap vars buffer =>
      simp only [movingFirmware]
      split <;> rfl
    | _ => rfl

theorem exit_boot_services_follows_protocol_moving :
    wp (machine movingFirmware) (exitBootServices staticBuffer staticVars 1)
      (fun status after => status = efiSuccess ∧ after.firmware.exits = 1)
      (World.initial (fun _ => 0) ⟨[Vector.replicate _ 7], 5, 0⟩) := by
  have calm : movingProtocol.Calm staticVars
      (World.initial (fun _ => 0) ⟨[Vector.replicate _ 7], 5, 0⟩) :=
    ⟨List.cons_ne_nil _ _, by decide, by decide, by decide⟩
  apply wp_mono ((exit_boot_services_follows_protocol movingProtocol staticBuffer staticVars 1 _
    calm).1 rfl)
  rintro status after ⟨success, once, -⟩
  exact ⟨success, once⟩

end HvisorUefiPacker
