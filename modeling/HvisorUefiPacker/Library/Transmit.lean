import Mathlib.Data.List.Basic

/-! # Transmitting through a bounded FIFO

A routine sends a message by accesses to the registers of a device.  The device
keeps what it is given in a bounded FIFO and puts it on the wire at its own pace,
so that its steps fall anywhere between those of the routine; what it is given
while the FIFO is full is lost.

* `Routine` is a control with the access it makes next, `Port` says which register
  takes the data and what the others may read as.
* `Run` interleaves the routine with the device, by the steps of `Step`.
* `Sends` is the certificate a routine is proved correct by: an invariant of its
  control, checked access by access, with the device out of sight but for whether
  its FIFO has room.
* `Sends.run` is what a certificate is good for: along every run nothing is lost,
  repeated or reordered.
-/

namespace Transmit

variable {α ρ ν β κ : Type} {capacity : Nat}

/-! ## Routines -/

/-- What a routine does next: a step of its own, an access to a register, or nothing. -/
inductive Action (ρ ν κ : Type) where
  | compute (next : κ)
  | read (register : ρ) (next : ν → κ)
  | write (register : ρ) (value : ν) (next : κ)
  | returned

structure Routine (α ρ ν : Type) where
  Control : Type
  start : α → Control
  action : Control → Action ρ ν Control

/-! ## The device -/

structure Transmitter (β : Type) (capacity : Nat) where
  wire : List β
  fifo : List β
  bounded : fifo.length ≤ capacity

namespace Transmitter

def HasRoom (device : Transmitter β capacity) : Prop := device.fifo.length < capacity

instance (device : Transmitter β capacity) : Decidable device.HasRoom :=
  inferInstanceAs (Decidable (device.fifo.length < capacity))

/-- Everything the device has taken, oldest first. -/
def stream (device : Transmitter β capacity) : List β := device.wire ++ device.fifo

/-- The oldest element of the FIFO goes on the wire. -/
def drain : Transmitter β capacity → Transmitter β capacity
  | ⟨wire, [], bounded⟩ => ⟨wire, [], bounded⟩
  | ⟨wire, element :: fifo, bounded⟩ => ⟨wire ++ [element], fifo, Nat.le_of_succ_le bounded⟩

/-- Without room the element is lost. -/
def receive (device : Transmitter β capacity) (element : β) : Transmitter β capacity :=
  if room : device.fifo.length < capacity then
    ⟨device.wire, device.fifo ++ [element], by rw [List.length_append]; exact room⟩
  else
    device

theorem drain_stream (device : Transmitter β capacity) : device.drain.stream = device.stream := by
  obtain ⟨wire, fifo, bounded⟩ := device
  cases fifo with
  | nil => rfl
  | cons element fifo => simp [drain, stream]

theorem HasRoom.drain {device : Transmitter β capacity} (room : device.HasRoom) :
    device.drain.HasRoom := by
  obtain ⟨wire, fifo, bounded⟩ := device
  cases fifo with
  | nil => exact room
  | cons element fifo => exact bounded

theorem receive_stream {device : Transmitter β capacity} (room : device.HasRoom) (element : β) :
    (device.receive element).stream = device.stream ++ [element] := by
  simp [receive, stream, dif_pos (show device.fifo.length < capacity from room)]

end Transmitter

/-- How the device looks to a routine: the register that takes the data, the element it
    takes from a value, and what a register may read as when there is room, or none. -/
structure Port (ρ ν β : Type) where
  data : ρ
  element : ν → β
  truthful : Prop → ρ → ν → Prop

/-! ## Runs -/

structure System (κ β : Type) (capacity : Nat) where
  control : κ
  device : Transmitter β capacity

inductive Label (ρ ν : Type) where
  | drain
  | compute
  | read (register : ρ) (value : ν)
  | write (register : ρ) (value : ν)

/-- One step of the device or of the routine.  What a write to another register than
    `port.data` does to the device is left open. -/
inductive Step (port : Port ρ ν β) (action : κ → Action ρ ν κ) :
    System κ β capacity → Label ρ ν → System κ β capacity → Prop where
  | drain (control : κ) (device : Transmitter β capacity) :
      Step port action ⟨control, device⟩ .drain ⟨control, device.drain⟩
  | compute {control next : κ} (device : Transmitter β capacity)
      (does : action control = .compute next) :
      Step port action ⟨control, device⟩ .compute ⟨next, device⟩
  | read {control : κ} {register : ρ} {next : ν → κ} {value : ν}
      (device : Transmitter β capacity) (does : action control = .read register next)
      (reads : port.truthful device.HasRoom register value) :
      Step port action ⟨control, device⟩ (.read register value) ⟨next value, device⟩
  | write {control next : κ} {value : ν} (device : Transmitter β capacity)
      (does : action control = .write port.data value next) :
      Step port action ⟨control, device⟩ (.write port.data value)
        ⟨next, device.receive (port.element value)⟩
  | stray {control next : κ} {register : ρ} {value : ν} (device after : Transmitter β capacity)
      (does : action control = .write register value next) (elsewhere : register ≠ port.data) :
      Step port action ⟨control, device⟩ (.write register value) ⟨next, after⟩

inductive Run (port : Port ρ ν β) (action : κ → Action ρ ν κ) (start : System κ β capacity) :
    List (Label ρ ν) → System κ β capacity → Prop where
  | start : Run port action start [] start
  | step {labels : List (Label ρ ν)} {state next : System κ β capacity} {label : Label ρ ν}
      (run : Run port action start labels state) (step : Step port action state label next) :
      Run port action start (labels ++ [label]) next

variable [DecidableEq ρ]

/-- The element a step gives the device. -/
def Port.element? (port : Port ρ ν β) : Label ρ ν → Option β
  | .write register value => if register = port.data then some (port.element value) else none
  | _ => none

/-- What a run has given the device. -/
def Port.sent (port : Port ρ ν β) (labels : List (Label ρ ν)) : List β :=
  labels.filterMap port.element?

theorem Port.sent_append (port : Port ρ ν β) (labels : List (Label ρ ν)) (label : Label ρ ν) :
    port.sent (labels ++ [label]) = port.sent labels ++ (port.element? label).toList := by
  rw [sent, List.filterMap_append]
  cases step : port.element? label with
  | none => simp [sent, step]
  | some element => simp [sent, step]

/-! ## Certificates -/

/-- `Invariant room sent control` is what holds at `control` when the routine has sent
    `sent` and the FIFO has room if `room`.  Room may appear at any time, and is only
    lost to a write. -/
structure Sends (port : Port ρ ν β) (action : κ → Action ρ ν κ) (first : κ) (message : List β) where
  Invariant : Prop → List β → κ → Prop
  start : ∀ room, Invariant room [] first
  mono : ∀ {room later sent control}, Invariant room sent control → (room → later) →
    Invariant later sent control
  compute : ∀ {room sent control next}, Invariant room sent control →
    action control = .compute next → Invariant room sent next
  read : ∀ {room sent control register next value}, Invariant room sent control →
    action control = .read register next → port.truthful room register value →
    Invariant room sent (next value)
  write : ∀ {room sent control register value next}, Invariant room sent control →
    action control = .write register value next →
    register = port.data ∧ room ∧ ∀ later, Invariant later (sent ++ [port.element value]) next
  soFar : ∀ {room sent control}, Invariant room sent control → sent <+: message
  returned : ∀ {room sent control}, Invariant room sent control →
    action control = .returned → sent = message

namespace Sends

variable {port : Port ρ ν β} {action : κ → Action ρ ν κ} {first : κ} {message : List β}

/-- One step keeps the invariant, and the stream grows by what the step sends. -/
theorem step (sends : Sends port action first message) {state next : System κ β capacity}
    {label : Label ρ ν} {sent : List β}
    (holds : sends.Invariant state.device.HasRoom sent state.control)
    (step : Step port action state label next) :
    sends.Invariant next.device.HasRoom (sent ++ (port.element? label).toList) next.control ∧
      next.device.stream = state.device.stream ++ (port.element? label).toList := by
  cases step with
  | drain control device =>
    refine ⟨?_, by simpa [Port.element?] using device.drain_stream⟩
    simpa [Port.element?] using sends.mono holds Transmitter.HasRoom.drain
  | compute device does =>
    exact ⟨by simpa [Port.element?] using sends.compute holds does, by simp [Port.element?]⟩
  | read device does reads =>
    exact ⟨by simpa [Port.element?] using sends.read holds does reads, by simp [Port.element?]⟩
  | write device does =>
    obtain ⟨-, room, sentNext⟩ := sends.write holds does
    refine ⟨by simpa [Port.element?] using sentNext _, ?_⟩
    simpa [Port.element?] using Transmitter.receive_stream room _
  | stray device after does elsewhere =>
    exact absurd (sends.write holds does).1 elsewhere

theorem run (sends : Sends port action first message) {device : Transmitter β capacity}
    {labels : List (Label ρ ν)} {state : System κ β capacity}
    (run : Run port action ⟨first, device⟩ labels state) :
    sends.Invariant state.device.HasRoom (port.sent labels) state.control ∧
      state.device.stream = device.stream ++ port.sent labels := by
  induction run with
  | start => exact ⟨sends.start _, (List.append_nil _).symm⟩
  | step run step inductionHypothesis =>
    obtain ⟨holds, stream⟩ := inductionHypothesis
    obtain ⟨holdsNext, streamNext⟩ := sends.step holds step
    rw [Port.sent_append]
    exact ⟨holdsNext, by rw [streamNext, stream, List.append_assoc]⟩

omit [DecidableEq ρ] in
/-- A step that writes, writes data, and the FIFO has room for it. -/
theorem room_of_write (sends : Sends port action first message) {state next : System κ β capacity}
    {register : ρ} {value : ν} {sent : List β}
    (holds : sends.Invariant state.device.HasRoom sent state.control)
    (step : Step port action state (.write register value) next) :
    register = port.data ∧ state.device.HasRoom := by
  cases step with
  | write device does => exact ⟨rfl, (sends.write holds does).2.1⟩
  | stray device after does elsewhere => exact absurd (sends.write holds does).1 elsewhere

end Sends

end Transmit
