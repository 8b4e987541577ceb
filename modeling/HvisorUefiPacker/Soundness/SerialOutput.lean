import HvisorUefiPacker.Uart

/-! # Serial output

Both drivers send their character exactly once, and only when the device has
said that it can take one; so `print_str` sends its string, whatever the device
does in between.
-/

namespace HvisorUefiPacker.Serial

open Transmit ByteMemory

/-! ## The two drivers -/

namespace Aarch64

/-- Nothing is sent before `mmio_write`, and in front of it there is room. -/
def PutChar.Sending (c : Byte) (room : Prop) (sent : List Byte) : PutChar → Prop
  | .poll char => char = c ∧ sent = []
  | .test char flags => char = c ∧ sent = [] ∧ (flags &&& uartFrTxff = 0 → room)
  | .write char => char = c ∧ sent = [] ∧ room
  | .done => sent = [c]

/-- A full FIFO would have shown `TXFF`. -/
def archPutCharSends (c : Byte) : Sends pl011 archPutChar.action (archPutChar.start c) [c] where
  Invariant := PutChar.Sending c
  start _ := ⟨rfl, rfl⟩
  mono := by
    intro room later sent control holds appears
    cases control with
    | poll char => exact holds
    | test char flags => exact ⟨holds.1, holds.2.1, appears ∘ holds.2.2⟩
    | write char => exact ⟨holds.1, holds.2.1, appears holds.2.2⟩
    | done => exact holds
  compute := by
    intro room sent control next holds does
    cases control with
    | test char flags =>
      cases does
      by_cases full : flags &&& uartFrTxff ≠ 0
      · rw [if_pos full]
        exact ⟨holds.1, holds.2.1⟩
      · rw [if_neg full]
        exact ⟨holds.1, holds.2.1, holds.2.2 (not_not.mp full)⟩
    | _ => cases does
  read := by
    intro room sent control register next value holds does reads
    cases control with
    | poll char =>
      cases does
      refine ⟨holds.1, holds.2, ?_⟩
      intro clear
      by_contra full
      exact (reads rfl).mpr full clear
    | _ => cases does
  write := by
    intro room sent control register value next holds does
    cases control with
    | write char =>
      cases does
      obtain ⟨rfl, rfl, hasRoom⟩ := holds
      have element : pl011.element (char.setWidth 32) = char := by
        simp [pl011]
      refine ⟨rfl, hasRoom, fun later => ?_⟩
      rw [element]
      rfl
    | _ => cases does
  soFar := by
    intro room sent control holds
    cases control with
    | poll char => simp [holds.2]
    | test char flags => simp [holds.2.1]
    | write char => simp [holds.2.1]
    | done => simp [show sent = [c] from holds]
  returned := by
    intro room sent control holds does
    cases control with
    | done => exact holds
    | _ => cases does

end Aarch64

namespace Loongarch64

/-- What holds at each instruction: nothing is sent before `st.b`, and in front of it
    there is room. -/
inductive State.Sending (c : Byte) (room : Prop) : List Byte → State → Prop where
  | liD {regs : Reg → UINTN} (arg : regs .a0 = c.signExtend 64) : Sending c room [] ⟨0, regs⟩
  | ldBu {regs : Reg → UINTN} (arg : regs .a0 = c.signExtend 64)
      (base : regs .a1 = consoleBaseAddr) : Sending c room [] ⟨1, regs⟩
  | andi {regs : Reg → UINTN} (arg : regs .a0 = c.signExtend 64)
      (base : regs .a1 = consoleBaseAddr) (status : regs .a2 &&& 0x20 ≠ 0 → room) :
      Sending c room [] ⟨2, regs⟩
  | beqz {regs : Reg → UINTN} (arg : regs .a0 = c.signExtend 64)
      (base : regs .a1 = consoleBaseAddr) (status : regs .a2 ≠ 0 → room) :
      Sending c room [] ⟨3, regs⟩
  | stB {regs : Reg → UINTN} (arg : regs .a0 = c.signExtend 64)
      (base : regs .a1 = consoleBaseAddr) (hasRoom : room) : Sending c room [] ⟨4, regs⟩
  | jirlRa {regs : Reg → UINTN} : Sending c room [c] ⟨5, regs⟩

theorem setWidth_signExtend (c : Byte) : (c.signExtend 64).setWidth 8 = c := by
  ext index inside
  simp [BitVec.getLsbD_signExtend, inside]
  omega

/-- The zero extension of `ld.bu` loses none of the status bits. -/
def uartPutCharSends (c : Byte) : Sends ns16550 uartPutChar.action (uartPutChar.start c) [c] where
  Invariant := State.Sending c
  start _ := .liD rfl
  mono := by
    intro room later sent control holds appears
    cases holds with
    | liD arg => exact .liD arg
    | ldBu arg base => exact .ldBu arg base
    | andi arg base status => exact .andi arg base (appears ∘ status)
    | beqz arg base status => exact .beqz arg base (appears ∘ status)
    | stB arg base hasRoom => exact .stB arg base (appears hasRoom)
    | jirlRa => exact .jirlRa
  compute := by
    intro room sent control next holds does
    cases holds with
    | liD arg =>
      cases does
      exact .ldBu arg rfl
    | andi arg base status =>
      cases does
      exact .beqz arg base status
    | @beqz regs arg base status =>
      cases does
      by_cases clear : regs .a2 = 0
      · rw [if_pos clear]
        exact .ldBu arg base
      · rw [if_neg clear]
        exact .stB arg base (status clear)
    | _ => cases does
  read := by
    intro room sent control register next value holds does reads
    cases holds with
    | ldBu arg base =>
      cases does
      have status : value &&& 0x20 ≠ 0 → room := reads (congrArg (· + 5) base)
      refine .andi arg base fun set => status fun clear => set ?_
      have masked : value.setWidth 64 &&& 0x20 = (value &&& 0x20).setWidth 64 := by
        rw [BitVec.setWidth_and]
        rfl
      exact masked.trans (by rw [clear]; rfl)
    | _ => cases does
  write := by
    intro room sent control register value next holds does
    cases holds with
    | @stB regs arg base hasRoom =>
      cases does
      have element : ns16550.element ((regs .a0).setWidth 8) = c := by
        rw [arg]
        exact setWidth_signExtend c
      refine ⟨by simp [base, ns16550], hasRoom, fun later => ?_⟩
      rw [element]
      exact .jirlRa
    | _ => cases does
  soFar := by
    intro room sent control holds
    cases holds <;> simp
  returned := by
    intro room sent control holds does
    cases holds with
    | jirlRa => rfl
    | _ => cases does

end Loongarch64

/-! ## print_str -/

section PrintStr

variable {ν : Type} {memory : Mem} {str : UINTN} {string : List Byte}

theorem cell_of_string (stored : Holds memory str (string ++ [0])) {k : Nat} {c : Byte}
    (found : string[k]? = some c) : memory (str + BitVec.ofNat 64 k) = c := by
  have inside := (List.getElem?_eq_some_iff.mp found).1
  exact stored.cell (by rw [List.getElem?_append_left inside, found])

theorem nul_of_string (stored : Holds memory str (string ++ [0])) :
    memory (str + BitVec.ofNat 64 string.length) = 0 :=
  stored.cell (by simp)

theorem next_char (k : Nat) : str + BitVec.ofNat 64 k + 1 = str + BitVec.ofNat 64 (k + 1) := by
  rw [BitVec.ofNat_add, ← BitVec.add_assoc]
  rfl

variable {port : Port UINTN ν Byte} {put : Routine Byte UINTN ν}

/-- The characters in front of `str` are sent, and of the one at `str` what `put` has. -/
def PrintStr.Sending (str : UINTN) (string : List Byte)
    (sends : ∀ c, Sends port put.action (put.start c) [c]) (room : Prop) (sent : List Byte) :
    PrintStr put.Control → Prop
  | .test at' => ∃ k ≤ string.length, at' = str + BitVec.ofNat 64 k ∧ sent = string.take k
  | .call at' => ∃ k c, string[k]? = some c ∧ at' = str + BitVec.ofNat 64 k ∧ sent = string.take k
  | .inside at' control => ∃ k c part, string[k]? = some c ∧ at' = str + BitVec.ofNat 64 k ∧
      sent = string.take k ++ part ∧ (sends c).Invariant room part control
  | .done => sent = string

def printStrSends (nul : 0 ∉ string) (stored : Holds memory str (string ++ [0]))
    (sends : ∀ c, Sends port put.action (put.start c) [c]) :
    Sends port (printStr memory put).action ((printStr memory put).start str) string where
  Invariant := PrintStr.Sending str string sends
  start _ := ⟨0, Nat.zero_le _, by simp, rfl⟩
  mono := by
    intro room later sent control holds appears
    cases control with
    | inside at' control =>
      obtain ⟨k, c, part, found, position, sofar, putting⟩ := holds
      exact ⟨k, c, part, found, position, sofar, (sends c).mono putting appears⟩
    | _ => exact holds
  compute := by
    intro room sent control next holds does
    cases control with
    | test at' =>
      cases does
      obtain ⟨k, inside, rfl, sofar⟩ := holds
      by_cases more : k < string.length
      · have found : string[k]? = some string[k] := List.getElem?_eq_getElem more
        have nonzero : string[k] ≠ 0 := fun zero => nul (zero ▸ List.getElem_mem more)
        rw [cell_of_string stored found, if_pos nonzero]
        exact ⟨k, string[k], found, rfl, sofar⟩
      · obtain rfl : k = string.length := by omega
        rw [nul_of_string stored, if_neg (not_not.mpr rfl)]
        exact sofar.trans List.take_length
    | call at' =>
      cases does
      obtain ⟨k, c, found, rfl, sofar⟩ := holds
      rw [cell_of_string stored found]
      exact ⟨k, c, [], found, rfl, by simpa using sofar, (sends c).start room⟩
    | inside at' control =>
      obtain ⟨k, c, part, found, rfl, sofar, putting⟩ := holds
      cases action : put.action control with
      | compute after =>
        simp only [printStr, action] at does
        cases does
        exact ⟨k, c, part, found, rfl, sofar, (sends c).compute putting action⟩
      | returned =>
        simp only [printStr, action] at does
        cases does
        have inside := (List.getElem?_eq_some_iff.mp found).1
        refine ⟨k + 1, inside, next_char k, ?_⟩
        rw [sofar, (sends c).returned putting action, List.take_add_one, found]
        rfl
      | _ => simp [printStr, action] at does
    | done => cases does
  read := by
    intro room sent control register next value holds does reads
    cases control with
    | inside at' control =>
      obtain ⟨k, c, part, found, position, sofar, putting⟩ := holds
      cases action : put.action control with
      | read register after =>
        simp only [printStr, action] at does
        cases does
        exact ⟨k, c, part, found, position, sofar, (sends c).read putting action reads⟩
      | _ => simp [printStr, action] at does
    | _ => cases does
  write := by
    intro room sent control register value next holds does
    cases control with
    | inside at' control =>
      obtain ⟨k, c, part, found, position, sofar, putting⟩ := holds
      cases action : put.action control with
      | write register value after =>
        simp only [printStr, action] at does
        cases does
        obtain ⟨data, hasRoom, putNext⟩ := (sends c).write putting action
        refine ⟨data, hasRoom, fun later => ⟨k, c, _, found, position, ?_, putNext later⟩⟩
        rw [sofar, List.append_assoc]
      | _ => simp [printStr, action] at does
    | _ => cases does
  soFar := by
    intro room sent control holds
    cases control with
    | test at' =>
      obtain ⟨k, -, -, rfl⟩ := holds
      exact List.take_prefix k string
    | call at' =>
      obtain ⟨k, c, -, -, rfl⟩ := holds
      exact List.take_prefix k string
    | inside at' control =>
      obtain ⟨k, c, part, found, -, rfl, putting⟩ := holds
      have next : string.take (k + 1) = string.take k ++ [c] := by
        rw [List.take_add_one, found]
        rfl
      have grown : string.take k ++ part <+: string.take (k + 1) := by
        rw [next]
        exact (List.prefix_append_right_inj _).mpr ((sends c).soFar putting)
      exact grown.trans (List.take_prefix _ _)
    | done =>
      obtain rfl := holds
      exact List.prefix_refl _
  returned := by
    intro room sent control holds does
    cases control with
    | done => exact holds
    | inside at' control =>
      cases action : put.action control with
      | _ => simp [printStr, action] at does
    | _ => cases does

end PrintStr

/-! ## Whole runs -/

/-- `print_str` with `arch_ops` set to the operations of this UART. -/
def Uart.printStr (uart : Uart) (memory : Mem) : Routine UINTN UINTN uart.Value :=
  Serial.printStr memory (printChar (some uart.putChar))

theorem uart_sends {arch : Arch} {uart : Uart} (drives : uartOf arch = some uart) (c : Byte) :
    Nonempty (Sends uart.port (printChar (some uart.putChar)).action
      ((printChar (some uart.putChar)).start c) [c]) := by
  cases arch with
  | aarch64 =>
    cases drives
    exact ⟨Aarch64.archPutCharSends c⟩
  | loongarch64 =>
    cases drives
    exact ⟨Loongarch64.uartPutCharSends c⟩
  | riscv64 => cases drives

/-- Whenever the device puts its characters on the wire, it is only written to when it has
    room, and it has what it had before and the string so far, each character once. -/
theorem printStr_delivers {arch : Arch} {uart : Uart} (drives : uartOf arch = some uart)
    {memory : Mem} {str : UINTN} {string : List Byte} (nul : 0 ∉ string)
    (stored : Holds memory str (string ++ [0])) {capacity : Nat}
    {before : Transmitter Byte capacity} {labels : List (Label UINTN uart.Value)}
    {state : System (uart.printStr memory).Control Byte capacity}
    (run : Run uart.port (uart.printStr memory).action
      ⟨(uart.printStr memory).start str, before⟩ labels state) :
    (∀ register value next,
        Step uart.port (uart.printStr memory).action state (.write register value) next →
        register = uart.port.data ∧ state.device.HasRoom) ∧
      uart.port.sent labels <+: string ∧
      state.device.stream = before.stream ++ uart.port.sent labels ∧
      ((uart.printStr memory).action state.control = .returned →
        uart.port.sent labels = string) := by
  let sends := printStrSends nul stored fun c => (uart_sends drives c).some
  obtain ⟨holds, stream⟩ := sends.run run
  exact ⟨fun _ _ _ => sends.room_of_write holds, sends.soFar holds, stream, sends.returned holds⟩

def pl011Uart : Uart := ⟨UINT32, Aarch64.pl011, Aarch64.archPutChar⟩

/-- A device with room for one character, and that one taken. -/
def fullDevice : Transmitter Byte 1 := ⟨[], [0x2e], by decide⟩

/-- The string "A". -/
def letterMemory : Mem := sparseMemory 0x1000 [(0, 0x41)]

/-- The first poll finds the FIFO full; once it has drained, the character is written. -/
def pollingLabels : List (Label UINTN UINT32) :=
  [.compute, .compute, .read (Aarch64.uartBase + Aarch64.uartFr) 0x20, .compute, .drain,
    .read (Aarch64.uartBase + Aarch64.uartFr) 0, .compute,
    .write (Aarch64.uartBase + Aarch64.uartDr) 0x41, .compute, .compute]

theorem pollingLabels_run :
    Run pl011Uart.port (pl011Uart.printStr letterMemory).action
      ⟨(pl011Uart.printStr letterMemory).start 0x1000, fullDevice⟩ pollingLabels
      ⟨PrintStr.done, fullDevice.drain.receive 0x41⟩ := by
  have begins : (pl011Uart.printStr letterMemory).action (PrintStr.test 0x1000) =
      .compute (PrintStr.call 0x1000) := rfl
  have calls : (pl011Uart.printStr letterMemory).action (PrintStr.call 0x1000) =
      .compute (PrintStr.inside 0x1000 (Aarch64.PutChar.poll 0x41)) := rfl
  have polls : (pl011Uart.printStr letterMemory).action
      (PrintStr.inside 0x1000 (Aarch64.PutChar.poll 0x41)) =
      .read (Aarch64.uartBase + Aarch64.uartFr)
        (fun flags => PrintStr.inside 0x1000 (Aarch64.PutChar.test 0x41 flags)) := rfl
  have repeats : (pl011Uart.printStr letterMemory).action
      (PrintStr.inside 0x1000 (Aarch64.PutChar.test 0x41 0x20)) =
      .compute (PrintStr.inside 0x1000 (Aarch64.PutChar.poll 0x41)) := rfl
  have called : Run pl011Uart.port (pl011Uart.printStr letterMemory).action
      ⟨(pl011Uart.printStr letterMemory).start 0x1000, fullDevice⟩ (pollingLabels.take 2)
      ⟨PrintStr.inside 0x1000 (Aarch64.PutChar.poll 0x41), fullDevice⟩ :=
    .step (.step .start (.compute _ begins)) (.compute _ calls)
  have drained : Run pl011Uart.port (pl011Uart.printStr letterMemory).action
      ⟨(pl011Uart.printStr letterMemory).start 0x1000, fullDevice⟩ (pollingLabels.take 5)
      ⟨PrintStr.inside 0x1000 (Aarch64.PutChar.poll 0x41), fullDevice.drain⟩ := by
    refine .step (.step (.step called (.read _ polls ?_)) (.compute _ repeats)) (.drain _ _)
    exact fun _ => by decide
  have cleared : Run pl011Uart.port (pl011Uart.printStr letterMemory).action
      ⟨(pl011Uart.printStr letterMemory).start 0x1000, fullDevice⟩ (pollingLabels.take 6)
      ⟨PrintStr.inside 0x1000 (Aarch64.PutChar.test 0x41 0), fullDevice.drain⟩ := by
    refine .step drained (.read _ polls ?_)
    exact fun _ => by decide
  exact .step (.step (.step (.step cleared (.compute _ rfl)) (.write _ rfl)) (.compute _ rfl))
    (.compute _ rfl)

/-- A run that returns: behind the character that was there, the device has had the string. -/
theorem printStr_delivers_behind_full :
    ∃ state, Run pl011Uart.port (pl011Uart.printStr letterMemory).action
        ⟨(pl011Uart.printStr letterMemory).start 0x1000, fullDevice⟩ pollingLabels state ∧
      (pl011Uart.printStr letterMemory).action state.control = .returned ∧
      pl011Uart.port.sent pollingLabels = [0x41] ∧ state.device.stream = [0x2e, 0x41] := by
  have stored : Holds letterMemory 0x1000 ([0x41] ++ [0]) := by
    unfold Holds
    decide +kernel
  have delivered := printStr_delivers (show uartOf .aarch64 = some pl011Uart from rfl)
    (by decide) stored pollingLabels_run
  have whole := delivered.2.2.2 rfl
  have stream := delivered.2.2.1
  rw [whole] at stream
  exact ⟨_, pollingLabels_run, rfl, whole, stream⟩

end HvisorUefiPacker.Serial
