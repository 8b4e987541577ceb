import HvisorUefiPacker.Core

/-! # arch.c and main.c

The architecture operations behind `arch_ops`, and `efi_main` with its helpers.
A `Config` is one build of the packer: the Kconfig choices, and the addresses
the linker gave the embedded binaries.
-/

namespace HvisorUefiPacker

open Interaction Interaction.Program ByteMemory

structure Config where
  arch : Arch
  hvisorBinLoadAddr : UINTN
  enableVmlinux : Bool
  vmlinuxLoadAddr : UINTN
  embeddedHvisorBinPath : String
  hvisorBinStart : UINTN
  hvisorBinEnd : UINTN
  hvisorZone0VmlinuxStart : UINTN
  hvisorZone0VmlinuxEnd : UINTN

/-- The fields of `EFI_SYSTEM_TABLE` that `efi_main` prints, and its own address. -/
structure EfiSystemTable where
  address : UINTN
  runtimeServices : UINTN
  bootServices : UINTN
  configurationTable : UINTN
  conIn : UINTN
  conOut : UINTN

namespace Config

variable (config : Config)

def hvisorBinSize : UINTN := config.hvisorBinEnd - config.hvisorBinStart

def vmlinuxSize : UINTN := config.hvisorZone0VmlinuxEnd - config.hvisorZone0VmlinuxStart

end Config

/-! ## Architecture operations -/

def Arch.name : Arch → String
  | .aarch64 => "aarch64"
  | .loongarch64 => "loongarch64"
  | .riscv64 => "riscv64"

/-- `get_arch`, with `arch_ops` as it is at the call. -/
def getArch : Option Arch → List Byte
  | some arch => ascii arch.name
  | none => ascii "unknown"

/-- `early_init`, `init`, `memory.init` and `serial.init` of each architecture. -/
def archDetectAndInit : Arch → Packer Unit
  | .aarch64 => pure ()
  | .loongarch64 => do
    hardware .setDmw
    hardware .loongarchArchInit
    hardware .initSerial
  | .riscv64 => hardware .disableSatp

/-- `arch_clear_memory_regions` of loongarch64. -/
def archClearMemoryRegions (hvisorBinLoadAddr : UINTN) : Packer Unit := do
  memset2 hvisorBinLoadAddr 0 0x1000000
  memset2 0x9000000000001000 0 0x10000
  memset2 0x9000000000200000 0 0x1000000

def archBeforeExitBootServices (config : Config) : Packer Unit :=
  match config.arch with
  | .loongarch64 => archClearMemoryRegions config.hvisorBinLoadAddr
  | .aarch64 | .riscv64 => pure ()

def riscvEfiBootProtocolGuid : EfiGuid :=
  ⟨0xccd15fec, 0x6f73, 0x4eec, #v[0x83, 0x95, 0x3e, 0x69, 0xe4, 0xb9, 0x40, 0xbf]⟩

def locateProtocol (protocol : EfiGuid) (interface : UINTN) : Packer (EfiStatus × UINTN) :=
  call (.locateProtocol protocol interface)

def getBootHartId (this hartId : UINTN) : Packer (EfiStatus × UINTN) :=
  call (.getBootHartId this hartId)

/-- `arch_get_boot_hart_id` of riscv64; `bootHartId` is the local it declares without
    initialising it.  The status it returns for an error is taken for a hart id. -/
def archGetBootHartId (bootHartId : UINTN) : Packer UINTN := do
  let (status, riscvBootProtocol) ← locateProtocol riscvEfiBootProtocolGuid 0
  if efiError status then do
    print "Failed to locate RISCV_EFI_BOOT_PROTOCOL\n" []
    return status
  else do
    let (status, bootHartId) ← getBootHartId riscvBootProtocol bootHartId
    if efiError status then do
      print "Failed to get BootHartId\n" []
      return status
    else do
      print "BootHartId: %lu\n" [.number bootHartId]
      return bootHartId

def archGetBootCpuId (arch : Arch) (uninitialised : UINTN) : Packer UINTN :=
  match arch with
  | .riscv64 => archGetBootHartId uninitialised
  | .aarch64 | .loongarch64 => pure 0

/-! ## main.c -/

def printSystemInfo (systemTable : EfiSystemTable) : Packer Unit := do
  print "[INFO] runtime services addr: 0x%lx\n" [.number systemTable.runtimeServices]
  print "[INFO] boot services addr: 0x%lx\n" [.number systemTable.bootServices]
  print "[INFO] config table addr: 0x%lx\n" [.number systemTable.configurationTable]
  print "[INFO] con in addr: 0x%lx\n" [.number systemTable.conIn]
  print "[INFO] con out addr: 0x%lx\n" [.number systemTable.conOut]

def rule : String :=
  "---------------------------------------------------------------------\n"

def printBinaryInfo (config : Config) : Packer Unit := do
  print rule []
  print "hvisor uefi packer target arch: %a\n" [.text (getArch (some config.arch))]
  print "hvisor binary range: 0x%lx - 0x%lx\n"
    [.number config.hvisorBinLoadAddr,
      .number (config.hvisorBinLoadAddr + config.hvisorBinSize)]
  if config.enableVmlinux then
    print "hvisor vmlinux.bin: 0x%lx - 0x%lx\n"
      [.number config.vmlinuxLoadAddr, .number (config.vmlinuxLoadAddr + config.vmlinuxSize)]
  print rule []

/-- The length is passed to `memcpy2` as an `int`. -/
def copyHvisorBinary (config : Config) : Packer Unit := do
  memcpy2 config.hvisorBinLoadAddr config.hvisorBinStart (config.hvisorBinSize.setWidth 32)
  print "[INFO] hvisor binary copied to 0x%lx, size: 0x%lx\n"
    [.number config.hvisorBinLoadAddr, .number config.hvisorBinSize]

def copyVmlinuxBinary (config : Config) : Packer Unit := do
  memcpy2 config.vmlinuxLoadAddr config.hvisorZone0VmlinuxStart (config.vmlinuxSize.setWidth 32)
  print "[INFO] hvisor vmlinux.bin copied to 0x%lx, size: 0x%lx\n"
    [.number config.vmlinuxLoadAddr, .number config.vmlinuxSize]

def jumpToHvisor (config : Config) (systemTable : EfiSystemTable) (bootCpuId : UINTN) :
    Packer Unit := do
  printStr (some config.arch) (ascii "[INFO] ok, ready to jump to hvisor entry...\n")
  enter (.hvisorEntry config.hvisorBinLoadAddr bootCpuId systemTable.address)
  spin

/-- `efi_main` up to the architecture hook. -/
def greet (config : Config) (imageHandle : UINTN) (systemTable : EfiSystemTable) :
    Packer Unit := do
  archDetectAndInit config.arch
  printStr (some config.arch) (ascii "\n\r")
  printStr (some config.arch) (ascii "[INFO] arch_init done\n")
  call (.initializeLib imageHandle)
  print "[INFO] UEFI bootloader initialized!\n" []
  print "[INFO] Hello! This is the UEFI bootloader of hvisor, arch = %a\n"
    [.text (getArch (some config.arch))]
  print "[INFO] hvisor binary stored in .data, from 0x%lx to 0x%lx\n"
    [.number config.hvisorBinStart, .number config.hvisorBinEnd]
  print "[INFO] CONFIG_EMBEDDED_HVISOR_BIN_PATH: %a\n"
    [.text (ascii config.embeddedHvisorBinPath)]
  print "[INFO] printing system info...\n" []
  printSystemInfo systemTable
  print "[INFO] before exit boot services...\n" []

/-- The part of `efi_main` that composes the memory hvisor starts in: the
    architecture hook, then the copies of the embedded binaries. -/
def composeMemory (config : Config) : Packer Unit := do
  archBeforeExitBootServices config
  print "[INFO] printing binary info...\n" []
  printBinaryInfo config
  print "[INFO] copying hvisor binary to 0x%lx...\n" [.number config.hvisorBinLoadAddr]
  copyHvisorBinary config
  if config.enableVmlinux then do
    print "[INFO] copying vmlinux binary to 0x%lx...\n" [.number config.vmlinuxLoadAddr]
    copyVmlinuxBinary config

/-- The statics of core.c before the first call, zeroed by the loader. -/
def staticVars : MemoryMapVars := ⟨0, 0, 0, 0⟩

def staticBuffer : StatusBuffer := Vector.replicate 17 0

/-- `efi_main` after the copies.  hvisor is entered whatever `exit_boot_services`
    returns. -/
def handOff (config : Config) (imageHandle : UINTN) (systemTable : EfiSystemTable)
    (uninitialised : UINTN) : Packer EfiStatus := do
  let bootCpuId ← archGetBootCpuId config.arch uninitialised
  print "[INFO] exiting boot services...\n" []
  let _status ← exitBootServices staticBuffer staticVars imageHandle
  printStr (some config.arch) (ascii "[INFO] exit_boot_services done\n")
  jumpToHvisor config systemTable bootCpuId
  return efiSuccess

/-- `uninitialised` is what the stack slot of `BootHartId` happens to hold. -/
def efiMain (config : Config) (imageHandle : UINTN) (systemTable : EfiSystemTable)
    (uninitialised : UINTN) : Packer EfiStatus := do
  greet config imageHandle systemTable
  composeMemory config
  handOff config imageHandle systemTable uninitialised

end HvisorUefiPacker
