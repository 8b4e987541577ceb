import HvisorUefiPacker.Acpi
import HvisorUefiPacker.Library.Patches
import HvisorUefiPacker.Library.Shell
import HvisorUefiPacker.Library.Steps
import HvisorUefiPacker.MakeLoongarch64
import HvisorUefiPacker.Parse
import HvisorUefiPacker.Print
import HvisorUefiPacker.Relocate
import HvisorUefiPacker.Soundness.AcpiDump
import HvisorUefiPacker.Soundness.AcpiRun
import HvisorUefiPacker.Soundness.AmlDump
import HvisorUefiPacker.Soundness.BootRun
import HvisorUefiPacker.Soundness.ComposedMemory
import HvisorUefiPacker.Soundness.ConfigurationTable
import HvisorUefiPacker.Soundness.EntryPoints
import HvisorUefiPacker.Soundness.FormatSafety
import HvisorUefiPacker.Soundness.HandOff
import HvisorUefiPacker.Soundness.HartId
import HvisorUefiPacker.Soundness.ImageEntry
import HvisorUefiPacker.Soundness.ImagesSurvive
import HvisorUefiPacker.Soundness.MemoryMap
import HvisorUefiPacker.Soundness.MemoryMove
import HvisorUefiPacker.Soundness.PeConfined
import HvisorUefiPacker.Soundness.PeDecode
import HvisorUefiPacker.Soundness.PeImage
import HvisorUefiPacker.Soundness.PeOrder
import HvisorUefiPacker.Soundness.PeRejected
import HvisorUefiPacker.Soundness.PeResidue
import HvisorUefiPacker.Soundness.PeRun
import HvisorUefiPacker.Soundness.PrintFormat
import HvisorUefiPacker.Soundness.PrintNumbers
import HvisorUefiPacker.Soundness.PrintStream
import HvisorUefiPacker.Soundness.Relocation
import HvisorUefiPacker.Soundness.SectionBounds
import HvisorUefiPacker.Soundness.SerialOutput
import HvisorUefiPacker.Soundness.Startup
import HvisorUefiPacker.Soundness.StatusString
import HvisorUefiPacker.Soundness.StringPrint
import HvisorUefiPacker.Soundness.XsdtScan
import HvisorUefiPacker.Startup
