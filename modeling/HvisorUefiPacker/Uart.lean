import HvisorUefiPacker.Core
import HvisorUefiPacker.Library.Transmit

/-! # The serial drivers

`arch_put_char` of AArch64, which is C, and `uart_put_char` of LoongArch, which
is assembly, down to their register accesses, and `print_char` and `print_str`
over them.  Both drivers poll a status register until the device can take a
character.
-/

namespace HvisorUefiPacker.Serial

open Transmit

/-! ## arch/aarch64/arch.c -/

namespace Aarch64

def uartBase : UINTN := 0x9000000
def uartFr : UINTN := 0x18
def uartFrTxff : UINT32 := 1 <<< 5
def uartDr : UINTN := 0x00

/-- The PL011: TXFF is set if and only if the FIFO is full. -/
def pl011 : Port UINTN UINT32 Byte where
  data := uartBase + uartDr
  element value := value.setWidth 8
  truthful room register value :=
    register = uartBase + uartFr → (value &&& uartFrTxff ≠ 0 ↔ ¬room)

/-- Where a call stands: before `mmio_read`, before the test of what it read, before
    `mmio_write`, or behind it. -/
inductive PutChar where
  | poll (c : Byte)
  | test (c : Byte) (flags : UINT32)
  | write (c : Byte)
  | done

/-- `char` is unsigned in this ABI.  The loop has an empty body: each turn reads the
    flags once. -/
def archPutChar : Routine Byte UINTN UINT32 where
  Control := PutChar
  start := .poll
  action
    | .poll c => .read (uartBase + uartFr) (.test c)
    | .test c flags => .compute (if flags &&& uartFrTxff ≠ 0 then .poll c else .write c)
    | .write c => .write (uartBase + uartDr) (c.setWidth 32) .done
    | .done => .returned

end Aarch64

/-! ## arch/loongarch64/uart.S -/

namespace Loongarch64

def consoleBaseAddr : UINTN := 0x800000001fe001e0

/-- The 16550: bit 0x20 of register 5 is set only if a character can be accepted. -/
def ns16550 : Port UINTN UINT8 Byte where
  data := consoleBaseAddr
  element value := value
  truthful room register value := register = consoleBaseAddr + 5 → value &&& 0x20 ≠ 0 → room

inductive Reg where
  | a0
  | a1
  | a2
deriving DecidableEq

/-- The instructions the routine is made of; a branch target is an index into it. -/
inductive Instr where
  | liD (rd : Reg) (imm : UINTN)
  | ldBu (rd rj : Reg) (offset : UINTN)
  | andi (rd rj : Reg) (imm : UINTN)
  | beqz (rj : Reg) (target : Nat)
  | stB (rd rj : Reg) (offset : UINTN)
  | jirlRa

structure State where
  pc : Nat
  regs : Reg → UINTN

def State.next (state : State) : State := { state with pc := state.pc + 1 }

def State.set (state : State) (rd : Reg) (value : UINTN) : State :=
  { state with regs := Function.update state.regs rd value }

def Instr.action (state : State) : Instr → Action UINTN UINT8 State
  | .liD rd imm => .compute (state.set rd imm).next
  | .ldBu rd rj offset =>
    .read (state.regs rj + offset) fun value => (state.set rd (value.setWidth 64)).next
  | .andi rd rj imm => .compute (state.set rd (state.regs rj &&& imm)).next
  | .beqz rj target =>
    .compute (if state.regs rj = 0 then { state with pc := target } else state.next)
  | .stB rd rj offset => .write (state.regs rj + offset) ((state.regs rd).setWidth 8) state.next
  | .jirlRa => .returned

/-- The label `1:` is on the second instruction. -/
def uartPutCharCode : List Instr :=
  [.liD .a1 consoleBaseAddr,
    .ldBu .a2 .a1 0x5,
    .andi .a2 .a2 0x20,
    .beqz .a2 1,
    .stB .a0 .a1 0,
    .jirlRa]

/-- `char` is signed in this ABI, so the argument arrives sign-extended in `a0`.  The two
    other registers are set before they are read. -/
def uartPutChar : Routine Byte UINTN UINT8 where
  Control := State
  start c := ⟨0, fun | .a0 => c.signExtend 64 | .a1 => 0 | .a2 => 0⟩
  action state :=
    match uartPutCharCode[state.pc]? with
    | some instr => instr.action state
    | none => .returned

/-- `arch_put_char` of arch/loongarch64/arch.c. -/
def archPutChar : Routine Byte UINTN UINT8 := uartPutChar

end Loongarch64

/-! ## core.c -/

/-- What `arch_ops` selects: the device, and the `put_char` that drives it. -/
structure Uart where
  Value : Type
  port : Port UINTN Value Byte
  putChar : Routine Byte UINTN Value

/-- RISC-V prints through the SBI and touches no UART. -/
def uartOf : Arch → Option Uart
  | .aarch64 => some ⟨UINT32, Aarch64.pl011, Aarch64.archPutChar⟩
  | .loongarch64 => some ⟨UINT8, Loongarch64.ns16550, Loongarch64.archPutChar⟩
  | .riscv64 => none

variable {ν : Type}

/-- A routine that does nothing, for `arch_ops == NULL`. -/
def skip : Routine Byte UINTN ν where
  Control := Unit
  start _ := ()
  action _ := .returned

def printChar (archOps : Option (Routine Byte UINTN ν)) : Routine Byte UINTN ν :=
  match archOps with
  | some putChar => putChar
  | none => skip

/-- Where `print_str` stands: at `while (*str)`, at the call of `print_char`, in it, or
    behind the loop. -/
inductive PrintStr (κ : Type) where
  | test (str : UINTN)
  | call (str : UINTN)
  | inside (str : UINTN) (control : κ)
  | done

/-- `print_str` of a string that is in memory. -/
def printStr (memory : Mem) (printChar : Routine Byte UINTN ν) : Routine UINTN UINTN ν where
  Control := PrintStr printChar.Control
  start := .test
  action
    | .test str => .compute (if memory str ≠ 0 then .call str else .done)
    | .call str => .compute (.inside str (printChar.start (memory str)))
    | .inside str control =>
      match printChar.action control with
      | .compute next => .compute (.inside str next)
      | .read register next => .read register fun value => .inside str (next value)
      | .write register value next => .write register value (.inside str next)
      | .returned => .compute (.test (str + 1))
    | .done => .returned

end HvisorUefiPacker.Serial
