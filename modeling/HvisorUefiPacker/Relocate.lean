import HvisorUefiPacker.Core
import HvisorUefiPacker.Library.Patches
import HvisorUefiPacker.Library.Steps

/-! # reloc_aarch64.c, reloc_loongarch64.c and reloc_riscv64.c

`_relocate` applies the relocations of the image to the image itself, at the
address the firmware has loaded it to.  `relocateStep` is one round of its
loops, from the `for` loop over the dynamic section to the `return`: the three
files differ in the `switch` of the `while` loop only, which is `applyRela`.

The tags and the types of the relocations are those of `elf.h`.  The counter `i`
stays below 2^31, beyond which the source has no meaning.
-/

namespace HvisorUefiPacker.GnuEfi

open ByteMemory

def efiLoadError : EfiStatus := efiErr 1

/-! ## elf.h -/

def dtNull : UINTN := 0
def dtRela : UINTN := 7
def dtRelaSz : UINTN := 8
def dtRelaEnt : UINTN := 9

def rAarch64Relative : UINTN := 1027
def rLarchRelative : UINTN := 3
def rRiscvRelative : UINTN := 3

/-- `Elf64_Dyn` -/
structure Elf64Dyn where
  dTag : UINTN
  dUn : UINTN
deriving DecidableEq

/-- `Elf64_Rela` -/
structure Elf64Rela where
  rOffset : UINTN
  rInfo : UINTN
  rAddend : UINTN
deriving DecidableEq

def elf64RType (rela : Elf64Rela) : UINTN := rela.rInfo &&& 0xffffffff

def dynAt (memory : Mem) (address : UINTN) : Elf64Dyn where
  dTag := word64 memory address
  dUn := word64 memory (address + 8)

def relaAt (memory : Mem) (address : UINTN) : Elf64Rela where
  rOffset := word64 memory address
  rInfo := word64 memory (address + 8)
  rAddend := word64 memory (address + 16)

/-! ## _relocate -/

/-- The variables `rel`, `relsz` and `relent`. -/
structure RelaTable where
  rel : UINTN := 0
  relsz : UINTN := 0
  relent : UINTN := 0
deriving DecidableEq

/-- Where `_relocate` stands: at the head of the `for` loop, with `&dyn[i]`, at the head of
    the `while` loop, or behind its `return`. -/
inductive Relocate where
  | scan (dyn : UINTN) (table : RelaTable) (memory : Mem)
  | apply (table : RelaTable) (memory : Mem)
  | returned (status : EfiStatus) (memory : Mem)

/-- The `switch` of the `for` loop.  `DT_PLTGOT`, which the LoongArch file has too, sets a
    variable that is not read. -/
def scanEntry (ldbase : UINTN) (table : RelaTable) (entry : Elf64Dyn) : RelaTable :=
  if entry.dTag = dtRela then { table with rel := entry.dUn + ldbase }
  else if entry.dTag = dtRelaSz then { table with relsz := entry.dUn }
  else if entry.dTag = dtRelaEnt then { table with relent := entry.dUn }
  else table

/-- Behind the `for` loop. -/
def checkTable (table : RelaTable) (memory : Mem) : Relocate :=
  if table.rel = 0 ∧ table.relent = 0 then .returned efiSuccess memory
  else if table.rel = 0 ∨ table.relent = 0 then .returned efiLoadError memory
  else .apply table memory

/-- The `switch` of the `while` loop.  `none` is the `while (1) ;` of the RISC-V file. -/
def applyRela (arch : Arch) (ldbase : UINTN) (memory : Mem) (rela : Elf64Rela) : Option Mem :=
  match arch with
  | .aarch64 =>
    if elf64RType rela = rAarch64Relative then
      some (setWord64 memory (ldbase + rela.rOffset) (ldbase + rela.rAddend))
    else some memory
  | .loongarch64 =>
    if elf64RType rela = rLarchRelative then
      let addr := ldbase + rela.rOffset
      some (setWord64 memory addr (word64 memory addr + ldbase))
    else some memory
  | .riscv64 =>
    if elf64RType rela = rRiscvRelative then
      some (setWord64 memory (ldbase + rela.rOffset) (ldbase + rela.rAddend))
    else none

/-- One round of a loop of `_relocate`; `relsz` is signed. -/
def relocateStep (arch : Arch) (ldbase : UINTN) : Relocate → Option Relocate
  | .scan dyn table memory =>
    let entry := dynAt memory dyn
    if entry.dTag = dtNull then some (checkTable table memory)
    else some (.scan (dyn + 16) (scanEntry ldbase table entry) memory)
  | .apply table memory =>
    if (0 : UINTN).slt table.relsz then
      match applyRela arch ldbase memory (relaAt memory table.rel) with
      | some memory =>
        some (.apply
          { table with rel := table.rel + table.relent, relsz := table.relsz - table.relent }
          memory)
      | none => some (.apply table memory)
    else some (.returned efiSuccess memory)
  | .returned _ _ => none

/-- `_relocate(ldbase, dyn)` -/
def relocate (dyn : UINTN) (memory : Mem) : Relocate := .scan dyn {} memory

end HvisorUefiPacker.GnuEfi
