import HvisorUefiPacker.Library.ByteMemory
import HvisorUefiPacker.Library.Interaction

/-! # The machine the packer runs on

The C sources are embedded as programs over the requests of `Op`: byte loads
and stores, characters for the serial line, firmware calls, and transfers of
control.  `machine` answers them.  Loads and stores act on a flat memory; a
firmware call is answered by a `Firmware`, which may have any state of its own,
return any status and outputs, and change memory.  The trace keeps every event
an observer outside the packer can see, oldest first.
-/

namespace HvisorUefiPacker

open Interaction ByteMemory

abbrev Byte := BitVec 8
abbrev UINT8 := BitVec 8
abbrev UINT16 := BitVec 16
abbrev UINT32 := BitVec 32
abbrev UINTN := BitVec 64
abbrev Int32 := BitVec 32

abbrev Mem := Memory 64 Byte

/-- The memory with the given bytes at their offsets from `start`, and 0 elsewhere. -/
def sparseMemory (start : UINTN) (bytes : List (Nat × Byte)) : Mem :=
  fun address => (bytes.lookup (address - start).toNat).getD 0

/-- The characters of a C string literal, without its NUL. -/
def ascii (text : String) : List Byte :=
  text.toList.map fun char => BitVec.ofNat 8 char.toNat

/-! ## C structures -/

/-- The fields of a C structure without padding, in order, with their sizes. -/
abbrev Layout := List (String × Nat)

def Layout.size (layout : Layout) : Nat := (layout.map Prod.snd).sum

/-- `offsetof`. -/
def Layout.offset (layout : Layout) (field : String) : UINTN :=
  BitVec.ofNat 64 (Layout.size (layout.takeWhile fun entry => entry.1 ≠ field))

/-! ## EFI status codes -/

abbrev EfiStatus := UINTN

def efiErr (code : UINTN) : EfiStatus := 0x8000000000000000 ||| code

/-- `EFI_ERROR(a)`: the status is negative as a signed integer. -/
def efiError (status : EfiStatus) : Bool := status.msb

def efiSuccess : EfiStatus := 0
def efiInvalidParameter : EfiStatus := efiErr 2
def efiBufferTooSmall : EfiStatus := efiErr 5
def efiNotFound : EfiStatus := efiErr 14

/-! ## Firmware calls -/

structure EfiGuid where
  data1 : UINT32
  data2 : UINT16
  data3 : UINT16
  data4 : Vector UINT8 8
deriving DecidableEq

/-- One argument of `Print`: a number of any width, or the text of `%a` and `%s`. -/
inductive PrintArg where
  | number (value : UINTN)
  | text (chars : List Byte)
deriving DecidableEq

/-- `%d`, `%x` and the like of a field narrower than a `UINTN`. -/
def PrintArg.widen {w : Nat} (value : BitVec w) : PrintArg := .number (value.setWidth 64)

/-- The variables `GetMemoryMap` is given pointers to. -/
structure MemoryMapVars where
  memoryMapSize : UINTN
  mapKey : UINTN
  descSize : UINTN
  descVersion : UINT32
deriving DecidableEq

/-- The calls the packer makes into the firmware.  In/out parameters are passed
    with the value they have at the call. -/
inductive Service where
  | initializeLib (imageHandle : UINTN)
  | print (format : String) (args : List PrintArg)
  | setAttribute (attr : UINTN)
  | getMemoryMap (vars : MemoryMapVars) (buffer : UINTN)
  | allocatePool (poolType size buffer : UINTN)
  | exitBootServices (imageHandle mapKey : UINTN)
  | locateProtocol (protocol : EfiGuid) (interface : UINTN)
  | getBootHartId (this hartId : UINTN)
deriving DecidableEq

/-- What a call gives back: its status, and the out parameters after it. -/
def Service.Reply : Service → Type
  | .initializeLib _ => Unit
  | .print _ _ => Unit
  | .setAttribute _ => EfiStatus
  | .getMemoryMap _ _ => EfiStatus × MemoryMapVars
  | .allocatePool _ _ _ => EfiStatus × UINTN
  | .exitBootServices _ _ => EfiStatus
  | .locateProtocol _ _ => EfiStatus × UINTN
  | .getBootHartId _ _ => EfiStatus × UINTN

/-- A firmware answers each call from its own state and the memory it finds,
    and may change both. -/
abbrev Firmware (σ : Type) := (service : Service) → σ → Mem → service.Reply × σ × Mem

/-! ## Requests -/

/-- Steps of the architecture code that only touch control registers or the
    UART's configuration. -/
inductive HardwareStep where
  | setDmw
  | loongarchArchInit
  | initSerial
  | disableSatp
deriving DecidableEq

/-- Functions whose being called is an event of its own: the hypervisor image,
    and the AML dump. -/
inductive Callee where
  | hvisorEntry (address bootCpuId systemTable : UINTN)
  | parseAml (aml : UINTN) (size : Int32)
deriving DecidableEq

inductive Op where
  | load (address : UINTN)
  | store (address : UINTN) (byte : Byte)
  | putChar (char : Byte)
  | hardware (step : HardwareStep)
  | service (call : Service)
  | enter (callee : Callee)
  | spin

/-- `spin` is an endless loop: it has no answer. -/
def Op.Answer : Op → Type
  | .load _ => Byte
  | .service call => call.Reply
  | .spin => Empty
  | _ => Unit

abbrev Packer (α : Type) := Program Op Op.Answer α

def load (address : UINTN) : Packer Byte := Program.ask (Op.load address)

def store (address : UINTN) (byte : Byte) : Packer Unit := Program.ask (Op.store address byte)

def putChar (char : Byte) : Packer Unit := Program.ask (Op.putChar char)

def hardware (step : HardwareStep) : Packer Unit := Program.ask (Op.hardware step)

def call (service : Service) : Packer service.Reply := Program.ask (Op.service service)

def print (format : String) (args : List PrintArg) : Packer Unit := call (.print format args)

def enter (callee : Callee) : Packer Unit := Program.ask (Op.enter callee)

/-- `while (1);` -/
def spin {α : Type} : Packer α := .request Op.spin fun answer => nomatch answer

def load16 (address : UINTN) : Packer UINT16 := do
  let byte0 ← load address
  let byte1 ← load (address + 1)
  return byte1 ++ byte0

def load32 (address : UINTN) : Packer UINT32 := do
  let byte0 ← load address
  let byte1 ← load (address + 1)
  let byte2 ← load (address + 2)
  let byte3 ← load (address + 3)
  return byte3 ++ byte2 ++ byte1 ++ byte0

def load64 (address : UINTN) : Packer UINTN := do
  let low ← load32 address
  let high ← load32 (address + 4)
  return high ++ low

/-! ## The machine -/

inductive Event where
  | service (call : Service) (reply : call.Reply)
  | putChar (char : Byte)
  | hardware (step : HardwareStep)
  | enter (callee : Callee)

structure World (σ : Type) where
  memory : Mem
  firmware : σ
  trace : List Event
  stores : List (UINTN × Byte)

variable {σ α : Type}

namespace World

/-- Before the first request: nothing seen, nothing stored. -/
def initial (memory : Mem) (firmware : σ) : World σ := ⟨memory, firmware, [], []⟩

def log (world : World σ) (event : Event) : World σ :=
  { world with trace := world.trace ++ [event] }

def store (world : World σ) (address : UINTN) (byte : Byte) : World σ :=
  { world with
    memory := Function.update world.memory address byte
    stores := world.stores ++ [(address, byte)] }

/-- The world after a run of stores, oldest first. -/
def storeAll (world : World σ) (stores : List (UINTN × Byte)) : World σ :=
  { world with
    memory := replay world.memory stores
    stores := world.stores ++ stores }

/-- The world after a run of characters for the serial line. -/
def logChars (world : World σ) (chars : List Byte) : World σ :=
  { world with trace := world.trace ++ chars.map .putChar }

/-- The world after the firmware has answered a call. -/
def serve (firmware : Firmware σ) (service : Service) (world : World σ) : World σ :=
  let (reply, state, memory) := firmware service world.firmware world.memory
  { world with
    memory := memory
    firmware := state
    trace := world.trace ++ [.service service reply] }

@[simp] theorem log_memory (world : World σ) (event : Event) :
    (world.log event).memory = world.memory := rfl
@[simp] theorem log_firmware (world : World σ) (event : Event) :
    (world.log event).firmware = world.firmware := rfl
@[simp] theorem log_trace (world : World σ) (event : Event) :
    (world.log event).trace = world.trace ++ [event] := rfl
@[simp] theorem log_stores (world : World σ) (event : Event) :
    (world.log event).stores = world.stores := rfl
@[simp] theorem store_memory (world : World σ) (address : UINTN) (byte : Byte) :
    (world.store address byte).memory = Function.update world.memory address byte := rfl
@[simp] theorem store_firmware (world : World σ) (address : UINTN) (byte : Byte) :
    (world.store address byte).firmware = world.firmware := rfl
@[simp] theorem store_trace (world : World σ) (address : UINTN) (byte : Byte) :
    (world.store address byte).trace = world.trace := rfl
@[simp] theorem store_stores (world : World σ) (address : UINTN) (byte : Byte) :
    (world.store address byte).stores = world.stores ++ [(address, byte)] := rfl
@[simp] theorem storeAll_memory (world : World σ) (stores : List (UINTN × Byte)) :
    (world.storeAll stores).memory = replay world.memory stores := rfl
@[simp] theorem storeAll_firmware (world : World σ) (stores : List (UINTN × Byte)) :
    (world.storeAll stores).firmware = world.firmware := rfl
@[simp] theorem storeAll_trace (world : World σ) (stores : List (UINTN × Byte)) :
    (world.storeAll stores).trace = world.trace := rfl
@[simp] theorem storeAll_stores (world : World σ) (stores : List (UINTN × Byte)) :
    (world.storeAll stores).stores = world.stores ++ stores := rfl
@[simp] theorem storeAll_nil (world : World σ) : world.storeAll [] = world := by
  simp [storeAll, replay]
theorem store_storeAll (world : World σ) (address : UINTN) (byte : Byte)
    (stores : List (UINTN × Byte)) :
    (world.store address byte).storeAll stores = world.storeAll ((address, byte) :: stores) := by
  simp [storeAll, store, replay]
@[simp] theorem logChars_memory (world : World σ) (chars : List Byte) :
    (world.logChars chars).memory = world.memory := rfl
@[simp] theorem logChars_firmware (world : World σ) (chars : List Byte) :
    (world.logChars chars).firmware = world.firmware := rfl
@[simp] theorem logChars_trace (world : World σ) (chars : List Byte) :
    (world.logChars chars).trace = world.trace ++ chars.map .putChar := rfl
@[simp] theorem logChars_stores (world : World σ) (chars : List Byte) :
    (world.logChars chars).stores = world.stores := rfl
theorem log_logChars (world : World σ) (char : Byte) (chars : List Byte) :
    (world.log (.putChar char)).logChars chars = world.logChars (char :: chars) := by
  simp [logChars, log]
@[simp] theorem logChars_nil (world : World σ) : world.logChars [] = world := by
  simp [logChars]
@[simp] theorem logChars_logChars (world : World σ) (first second : List Byte) :
    (world.logChars first).logChars second = world.logChars (first ++ second) := by
  simp [logChars]
@[simp] theorem serve_stores (firmware : Firmware σ) (service : Service) (world : World σ) :
    (world.serve firmware service).stores = world.stores := rfl
theorem serve_trace (firmware : Firmware σ) (service : Service) (world : World σ) :
    (world.serve firmware service).trace =
      world.trace ++ [.service service (firmware service world.firmware world.memory).1] := rfl

theorem serve_of_answer {firmware : Firmware σ} {service : Service} {world : World σ}
    {reply : service.Reply} {state : σ} {memory : Mem}
    (answered : firmware service world.firmware world.memory = (reply, state, memory)) :
    world.serve firmware service =
      { world with
        memory := memory
        firmware := state
        trace := world.trace ++ [.service service reply] } := by
  rw [serve, answered]

end World

def machine (firmware : Firmware σ) : Handler Op Op.Answer (World σ)
  | .load address, world => some (world.memory address, world)
  | .store address byte, world => some ((), world.store address byte)
  | .putChar char, world => some ((), world.log (.putChar char))
  | .hardware step, world => some ((), world.log (.hardware step))
  | .service service, world =>
    some ((firmware service world.firmware world.memory).1, world.serve firmware service)
  | .enter callee, world => some ((), world.log (.enter callee))
  | .spin, _ => none

/-- `Print` may do anything to the console, but nothing to memory. -/
def PrintKeepsMemory (firmware : Firmware σ) : Prop :=
  ∀ format args state memory, (firmware (.print format args) state memory).2.2 = memory

/-- Neither `Print` nor the search for a protocol changes the memory under consideration. -/
structure KeepsMemory (firmware : Firmware σ) : Prop where
  print : PrintKeepsMemory firmware
  locateProtocol : ∀ protocol interface state memory,
    (firmware (.locateProtocol protocol interface) state memory).2.2 = memory

/-- A firmware that answers as the packer hopes, with a fixed pool buffer and a fixed
    answer to `ExitBootServices`, and touches nothing. -/
def plainFirmware (pool : UINTN) (exitStatus : EfiStatus) : Firmware Unit
  | .initializeLib _, state, memory => ((), state, memory)
  | .print _ _, state, memory => ((), state, memory)
  | .setAttribute _, state, memory => (efiSuccess, state, memory)
  | .getMemoryMap vars buffer, state, memory =>
    if buffer = 0 then
      ((efiBufferTooSmall, { vars with memoryMapSize := 48, descSize := 48 }), state, memory)
    else
      ((efiSuccess, { vars with memoryMapSize := 48, mapKey := 1 }), state, memory)
  | .allocatePool _ _ _, state, memory => ((efiSuccess, pool), state, memory)
  | .exitBootServices _ _, state, memory => (exitStatus, state, memory)
  | .locateProtocol _ interface, state, memory => ((efiSuccess, interface), state, memory)
  | .getBootHartId _ hartId, state, memory => ((efiSuccess, hartId), state, memory)

theorem plainFirmware_keeps (pool : UINTN) (exitStatus : EfiStatus) :
    KeepsMemory (plainFirmware pool exitStatus) where
  print _ _ _ _ := rfl
  locateProtocol _ _ _ _ := rfl

section Rules

variable {firmware : Firmware σ} {post : α → World σ → Prop} {world : World σ}

@[simp] theorem wp_load (address : UINTN) (post : Byte → World σ → Prop) (world : World σ) :
    wp (machine firmware) (load address) post world ↔ post (world.memory address) world := Iff.rfl

@[simp] theorem wp_store (address : UINTN) (byte : Byte) (post : Unit → World σ → Prop)
    (world : World σ) :
    wp (machine firmware) (store address byte) post world ↔
      post () (world.store address byte) := Iff.rfl

@[simp] theorem wp_putChar (char : Byte) (post : Unit → World σ → Prop) (world : World σ) :
    wp (machine firmware) (putChar char) post world ↔ post () (world.log (.putChar char)) :=
  Iff.rfl

@[simp] theorem wp_hardware (step : HardwareStep) (post : Unit → World σ → Prop)
    (world : World σ) :
    wp (machine firmware) (hardware step) post world ↔ post () (world.log (.hardware step)) :=
  Iff.rfl

@[simp] theorem wp_call (service : Service) (post : service.Reply → World σ → Prop)
    (world : World σ) :
    wp (machine firmware) (call service) post world ↔
      post (firmware service world.firmware world.memory).1 (world.serve firmware service) :=
  Iff.rfl

@[simp] theorem wp_print (format : String) (args : List PrintArg)
    (post : Unit → World σ → Prop) (world : World σ) :
    wp (machine firmware) (print format args) post world ↔
      post () (world.serve firmware (.print format args)) := Iff.rfl

@[simp] theorem wp_enter (callee : Callee) (post : Unit → World σ → Prop) (world : World σ) :
    wp (machine firmware) (enter callee) post world ↔ post () (world.log (.enter callee)) :=
  Iff.rfl

@[simp] theorem wp_load16 (address : UINTN) (post : UINT16 → World σ → Prop) (world : World σ) :
    wp (machine firmware) (load16 address) post world ↔
      post (word16 world.memory address) world := Iff.rfl

@[simp] theorem wp_load32 (address : UINTN) (post : UINT32 → World σ → Prop) (world : World σ) :
    wp (machine firmware) (load32 address) post world ↔
      post (word32 world.memory address) world := Iff.rfl

@[simp] theorem wp_load64 (address : UINTN) (post : UINTN → World σ → Prop) (world : World σ) :
    wp (machine firmware) (load64 address) post world ↔
      post (word64 world.memory address) world := Iff.rfl

theorem serve_print_memory (keeps : PrintKeepsMemory firmware) (format : String)
    (args : List PrintArg) (world : World σ) :
    (world.serve firmware (.print format args)).memory = world.memory :=
  keeps format args world.firmware world.memory

end Rules

/-! ## Traces -/

/-- Every event that answering the request can add to the trace satisfies `allowed`. -/
def Op.Emits (allowed : Event → Prop) : Op → Prop
  | .service request => ∀ reply, allowed (.service request reply)
  | .putChar char => allowed (.putChar char)
  | .hardware step => allowed (.hardware step)
  | .enter callee => allowed (.enter callee)
  | .load _ | .store _ _ | .spin => True

theorem Op.Emits.mono {allowed weaker : Event → Prop} {op : Op} (emits : op.Emits allowed)
    (implies : ∀ event, allowed event → weaker event) : op.Emits weaker := by
  cases op with
  | service request => exact fun reply => implies _ (emits reply)
  | putChar char => exact implies _ emits
  | hardware step => exact implies _ emits
  | enter callee => exact implies _ emits
  | load address => trivial
  | store address byte => trivial
  | spin => trivial

theorem Op.emits_any (op : Op) : op.Emits fun _ => True := by
  cases op with
  | service request => exact fun _ => trivial
  | putChar char => trivial
  | hardware step => trivial
  | enter callee => trivial
  | load address => trivial
  | store address byte => trivial
  | spin => trivial

/-- The trace only grew, by events that satisfy `allowed`. -/
def World.Extends (allowed : Event → Prop) (before after : World σ) : Prop :=
  ∃ events, after.trace = before.trace ++ events ∧ ∀ event ∈ events, allowed event

theorem World.Extends.refl {allowed : Event → Prop} (world : World σ) :
    world.Extends allowed world := ⟨[], by simp, by simp⟩

theorem World.Extends.trans {allowed : Event → Prop} {first second third : World σ}
    (left : first.Extends allowed second) (right : second.Extends allowed third) :
    first.Extends allowed third := by
  obtain ⟨early, earlyTrace, earlyAllowed⟩ := left
  obtain ⟨late, lateTrace, lateAllowed⟩ := right
  refine ⟨early ++ late, by rw [lateTrace, earlyTrace, List.append_assoc], ?_⟩
  intro event member
  rcases List.mem_append.mp member with inEarly | inLate
  · exact earlyAllowed event inEarly
  · exact lateAllowed event inLate

theorem World.Extends.of_event {allowed : Event → Prop} {before after : World σ} {event : Event}
    (trace : after.trace = before.trace ++ [event]) (isAllowed : allowed event) :
    before.Extends allowed after :=
  ⟨[event], trace, List.forall_mem_singleton.mpr isAllowed⟩

/-- A run only appends to the trace, and only what its requests emit. -/
theorem extends_of_issues (firmware : Firmware σ) {allowed : Event → Prop} {program : Packer α}
    (issues : Issues (Op.Emits allowed) program) (world : World σ) :
    world.Extends allowed (exec (machine firmware) program world).state := by
  apply exec_relates_of_issues (World.Extends allowed) World.Extends.refl (fun _ _ _ => World.Extends.trans) ?_ issues world
  intro op before answer after emits answered
  cases op with
  | load address => cases answered; exact .refl _
  | store address byte => cases answered; exact .refl _
  | putChar char => cases answered; exact .of_event rfl emits
  | hardware step => cases answered; exact .of_event rfl emits
  | service request => cases answered; exact .of_event rfl (emits _)
  | enter callee => cases answered; exact .of_event rfl emits
  | spin => cases answered

section Issues

variable {allowed : Op → Prop}

@[simp] theorem issues_load {address : UINTN} :
    Issues allowed (load address) ↔ allowed (.load address) := issues_ask _

@[simp] theorem issues_store {address : UINTN} {byte : Byte} :
    Issues allowed (store address byte) ↔ allowed (.store address byte) := issues_ask _

@[simp] theorem issues_putChar {char : Byte} :
    Issues allowed (putChar char) ↔ allowed (.putChar char) := issues_ask _

@[simp] theorem issues_hardware {step : HardwareStep} :
    Issues allowed (hardware step) ↔ allowed (.hardware step) := issues_ask _

@[simp] theorem issues_call {service : Service} :
    Issues allowed (call service) ↔ allowed (.service service) := issues_ask _

@[simp] theorem issues_print {format : String} {args : List PrintArg} :
    Issues allowed (print format args) ↔ allowed (.service (.print format args)) := issues_ask _

@[simp] theorem issues_enter {callee : Callee} :
    Issues allowed (enter callee) ↔ allowed (.enter callee) := issues_ask _

theorem load32_issues {address : UINTN}
    (loads : ∀ k < 4, allowed (.load (address + BitVec.ofNat 64 k))) :
    Issues allowed (load32 address) := by
  have first := loads 0 (by omega)
  rw [BitVec.add_zero] at first
  refine issues_bind (issues_load.mpr first) fun _ => ?_
  refine issues_bind (issues_load.mpr (loads 1 (by omega))) fun _ => ?_
  refine issues_bind (issues_load.mpr (loads 2 (by omega))) fun _ => ?_
  exact issues_bind (issues_load.mpr (loads 3 (by omega))) fun _ => trivial

theorem load64_issues {address : UINTN}
    (loads : ∀ k < 8, allowed (.load (address + BitVec.ofNat 64 k))) :
    Issues allowed (load64 address) := by
  refine issues_bind (load32_issues fun k bound => loads k (by omega)) fun _ => ?_
  refine issues_bind (load32_issues fun k bound => ?_) fun _ => trivial
  rw [show address + 4 = address + BitVec.ofNat 64 4 from rfl, BitVec.add_assoc, ← BitVec.ofNat_add]
  exact loads (4 + k) (by omega)

@[simp] theorem issues_spin : Issues allowed (spin : Packer α) ↔ allowed .spin := by
  constructor
  · exact And.left
  · intro issues
    exact ⟨issues, fun answer => nomatch answer⟩

end Issues

end HvisorUefiPacker
