import HvisorUefiPacker.Relocate

/-! # crt0-efi-aarch64.S, crt0-efi-loongarch64.S and crt0-efi-riscv64.S

`_start` is where the firmware enters the image.  Its instructions are data
here, in the order of the files, and `startStep` executes them one by one.  A
call of `_relocate` runs `relocateStep`; `efi_main` is a parameter, which gives
its status and the memory it leaves, or `none` if it does not return.
-/

namespace HvisorUefiPacker.GnuEfi

open ByteMemory

/-! ## The instructions -/

/-- The registers of `_start`.  On AArch64 these are x0 to x3, x29, x30 and sp. -/
inductive Reg where
  | a0
  | a1
  | a2
  | a3
  | fp
  | ra
  | sp
deriving DecidableEq

inductive Symbol where
  | imageBase
  | dynamic
deriving DecidableEq

inductive CFunction where
  | relocate
  | efiMain
deriving DecidableEq

/-- The instructions behind which the next one follows. -/
inductive DataInstr where
  | addi (dst src : Reg) (immediate : UINTN)
  | store (src base : Reg) (offset : UINTN)
  | load (dst base : Reg) (offset : UINTN)
  /-- `stp first, second, [base, #offset]` -/
  | stp (first second base : Reg) (offset : UINTN)
  /-- `stp first, second, [base, #offset]!` -/
  | stpPre (first second base : Reg) (offset : UINTN)
  /-- `ldp first, second, [base, #offset]` -/
  | ldp (first second base : Reg) (offset : UINTN)
  /-- `ldp first, second, [base], #offset` -/
  | ldpPost (first second base : Reg) (offset : UINTN)
  | move (dst src : Reg)
  /-- `la.local`, `lla` and `adr`, which reach a symbol from where they are -/
  | address (dst : Reg) (symbol : Symbol)
  /-- `adrp` -/
  | page (dst : Reg) (symbol : Symbol)
  /-- `add` of `#:lo12:`, the low bits of a symbol in the file -/
  | addLow12 (dst src : Reg) (symbol : Symbol)
deriving DecidableEq

inductive Instr where
  | data (instr : DataInstr)
  | call (function : CFunction)
  | branchNonzero (reg : Reg) (label : Nat)
  | ret
deriving DecidableEq

def startAarch64 : List Instr :=
  [.data (.stpPre .fp .ra .sp (-32)),
    .data (.move .fp .sp),
    .data (.stp .a0 .a1 .sp 16),
    .data (.move .a2 .a0),
    .data (.move .a3 .a1),
    .data (.address .a0 .imageBase),
    .data (.page .a1 .dynamic),
    .data (.addLow12 .a1 .a1 .dynamic),
    .call .relocate,
    .branchNonzero .a0 12,
    .data (.ldp .a0 .a1 .sp 16),
    .call .efiMain,
    .data (.ldpPost .fp .ra .sp 32),
    .ret]

def startLoongarch64 : List Instr :=
  [.data (.addi .sp .sp (-24)),
    .data (.store .ra .sp 0),
    .data (.store .a0 .sp 8),
    .data (.store .a1 .sp 16),
    .data (.move .a2 .a0),
    .data (.move .a3 .a1),
    .data (.address .a0 .imageBase),
    .data (.address .a1 .dynamic),
    .call .relocate,
    .branchNonzero .a0 13,
    .data (.load .a0 .sp 8),
    .data (.load .a1 .sp 16),
    .call .efiMain,
    .data (.load .ra .sp 0),
    .data (.addi .sp .sp 24),
    .ret]

/-- The label of the branch stands behind the `ld` of `ra`. -/
def startRiscv64 : List Instr :=
  [.data (.addi .sp .sp (-24)),
    .data (.store .a0 .sp 0),
    .data (.store .a1 .sp 8),
    .data (.store .ra .sp 16),
    .data (.address .a0 .imageBase),
    .data (.address .a1 .dynamic),
    .call .relocate,
    .branchNonzero .a0 12,
    .data (.load .a1 .sp 8),
    .data (.load .a0 .sp 0),
    .call .efiMain,
    .data (.load .ra .sp 16),
    .data (.addi .sp .sp 24),
    .ret]

def startCode : Arch → List Instr
  | .aarch64 => startAarch64
  | .loongarch64 => startLoongarch64
  | .riscv64 => startRiscv64

/-! ## The machine -/

structure Cpu where
  a0 : UINTN
  a1 : UINTN
  a2 : UINTN
  a3 : UINTN
  fp : UINTN
  ra : UINTN
  sp : UINTN
  memory : Mem

namespace Cpu

def get (cpu : Cpu) : Reg → UINTN
  | .a0 => cpu.a0
  | .a1 => cpu.a1
  | .a2 => cpu.a2
  | .a3 => cpu.a3
  | .fp => cpu.fp
  | .ra => cpu.ra
  | .sp => cpu.sp

def set (cpu : Cpu) (value : UINTN) : Reg → Cpu
  | .a0 => { cpu with a0 := value }
  | .a1 => { cpu with a1 := value }
  | .a2 => { cpu with a2 := value }
  | .a3 => { cpu with a3 := value }
  | .fp => { cpu with fp := value }
  | .ra => { cpu with ra := value }
  | .sp => { cpu with sp := value }

def write (cpu : Cpu) (address value : UINTN) : Cpu :=
  { cpu with memory := setWord64 cpu.memory address value }

@[simp] theorem get_set (cpu : Cpu) (value : UINTN) (reg other : Reg) :
    (cpu.set value reg).get other = if other = reg then value else cpu.get other := by
  cases reg <;> cases other <;> rfl

@[simp] theorem memory_set (cpu : Cpu) (value : UINTN) (reg : Reg) :
    (cpu.set value reg).memory = cpu.memory := by
  cases reg <;> rfl

@[simp] theorem get_write (cpu : Cpu) (address value : UINTN) (reg : Reg) :
    (cpu.write address value).get reg = cpu.get reg := by
  cases reg <;> rfl

@[simp] theorem memory_write (cpu : Cpu) (address value : UINTN) :
    (cpu.write address value).memory = setWord64 cpu.memory address value := rfl

end Cpu

/-- An image in memory: where its instructions and symbols are, and what its C functions do.
    `scratch` is what a call leaves in the registers that it need not keep. -/
structure Loader where
  arch : Arch
  place : Nat → UINTN
  imageBase : UINTN
  dynamic : UINTN
  efiMain : UINTN → UINTN → Mem → Option (EfiStatus × Mem)
  scratch : CFunction → Reg → UINTN

inductive Startup where
  | running (pc : Nat) (cpu : Cpu)
  | relocating (state : Relocate) (cpu : Cpu)
  | inMain (cpu : Cpu)
  /-- The image has jumped to an address that is not in `_start`. -/
  | left (target : UINTN) (cpu : Cpu)

/-- The first state of a C function, which takes its arguments from the registers. -/
def Cpu.enter (cpu : Cpu) : CFunction → Startup
  | .relocate => .relocating (relocate cpu.a1 cpu.memory) cpu
  | .efiMain => .inMain cpu

/-- The 4 KiB page of an address. -/
def page (address : UINTN) : UINTN := address &&& ~~~0xfff

namespace Loader

variable (loader : Loader)

def symbol : Symbol → UINTN
  | .imageBase => loader.imageBase
  | .dynamic => loader.dynamic

def code : List Instr := startCode loader.arch

def jump (target : UINTN) (cpu : Cpu) : Startup :=
  match (List.range loader.code.length).find? fun index => loader.place index = target with
  | some pc => .running pc cpu
  | none => .left target cpu

/-- What a C function leaves: its result in `a0`, and `sp`, `fp` and `ra` as they were. -/
def resumed (function : CFunction) (result : UINTN) (memory : Mem) (cpu : Cpu) : Cpu :=
  { cpu with
    a0 := result
    a1 := loader.scratch function .a1
    a2 := loader.scratch function .a2
    a3 := loader.scratch function .a3
    memory := memory }

/-- A C function returns to `ra`. -/
def back (function : CFunction) (result : UINTN) (memory : Mem) (cpu : Cpu) : Startup :=
  loader.jump cpu.ra (loader.resumed function result memory cpu)

/-- The address that the link editor has worked with, for an image at 0. -/
def linkTime (address : UINTN) : UINTN := address - loader.imageBase

/-- `adrp` adds the distance of the two pages in the file to the page of the instruction. -/
def adrp (pc : Nat) (symbol : Symbol) : UINTN :=
  page (loader.place pc) +
    (page (loader.linkTime (loader.symbol symbol)) - page (loader.linkTime (loader.place pc)))

def effect (pc : Nat) (cpu : Cpu) : DataInstr → Cpu
  | .addi dst src immediate => cpu.set (cpu.get src + immediate) dst
  | .store src base offset => cpu.write (cpu.get base + offset) (cpu.get src)
  | .load dst base offset => cpu.set (word64 cpu.memory (cpu.get base + offset)) dst
  | .stp first second base offset =>
    let address := cpu.get base + offset
    (cpu.write address (cpu.get first)).write (address + 8) (cpu.get second)
  | .stpPre first second base offset =>
    let address := cpu.get base + offset
    ((cpu.write address (cpu.get first)).write (address + 8) (cpu.get second)).set address base
  | .ldp first second base offset =>
    let address := cpu.get base + offset
    (cpu.set (word64 cpu.memory address) first).set (word64 cpu.memory (address + 8)) second
  | .ldpPost first second base offset =>
    let address := cpu.get base
    ((cpu.set (word64 cpu.memory address) first).set
      (word64 cpu.memory (address + 8)) second).set (address + offset) base
  | .move dst src => cpu.set (cpu.get src) dst
  | .address dst symbol => cpu.set (loader.symbol symbol) dst
  | .page dst symbol => cpu.set (loader.adrp pc symbol) dst
  | .addLow12 dst src symbol =>
    cpu.set (cpu.get src + (loader.linkTime (loader.symbol symbol) &&& 0xfff)) dst

def execute (pc : Nat) (cpu : Cpu) : Instr → Startup
  | .data instr => .running (pc + 1) (loader.effect pc cpu instr)
  | .call function => (cpu.set (loader.place (pc + 1)) .ra).enter function
  | .branchNonzero reg label => .running (if cpu.get reg ≠ 0 then label else pc + 1) cpu
  | .ret => loader.jump cpu.ra cpu

def startStep : Startup → Option Startup
  | .running pc cpu => (loader.code[pc]?).map (loader.execute pc cpu)
  | .relocating (.returned status memory) cpu => some (loader.back .relocate status memory cpu)
  | .relocating state cpu =>
    (relocateStep loader.arch cpu.a0 state).map fun next => .relocating next cpu
  | .inMain cpu =>
    match loader.efiMain cpu.a0 cpu.a1 cpu.memory with
    | some (status, memory) => some (loader.back .efiMain status memory cpu)
    | none => some (.inMain cpu)
  | .left _ _ => none

end Loader

end HvisorUefiPacker.GnuEfi
