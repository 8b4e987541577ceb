import Mathlib.Data.List.Infix
import HvisorUefiPacker.Library.Shell

/-! # make_loongarch64

The script that builds the image set for LoongArch and then compares the entry
points of its zones: those in the ELF reports of the Linux build with those in
`board.rs` and in the JSON files of the zones.

A `Host` is what the script finds on the machine it runs on.  Lines are kept with
what they say, without the colours of `tput` and before `echo -e` looks for
backslashes in the expanded names.
-/

namespace HvisorUefiPacker.MakeLoongarch64

open Shell

/-- A zone of `zones.json`, with its fields as jq prints them. -/
structure Zone where
  name : Text
  loadAddr : Text

structure Host where
  hasJq : Bool
  isFile : Text → Bool
  isDirectory : Text → Bool
  /-- `.config`, once the default configuration is copied over it. -/
  config : Text
  /-- The list `.nonroot` of `zones.json`. -/
  nonroot : List Zone
  /-- What `cat` prints of a file once `make_image` has run: nothing of one that is missing. -/
  contents : Text → Text
  /-- The words that an unquoted expansion is split into and matched with. -/
  words : Text → List Text

/-- The variables that the functions and the loop of the script read or assign. -/
structure Environment where
  hvisorSrcDir : Text
  hvisorLinuxSrc : Text
  buildrootDir : Text
  error : Nat
  rootLinuxEntry : Text
  rootZoneEntry : Text
  zoneName : Text
  loadAddr : Text

/-- A line the script writes, by the function that formats it. -/
inductive Line where
  | success (message : Text)
  | error (message : Text)
  | info (message : Text)
  | plain (message : Text)
  | makeImage
deriving DecidableEq

abbrev Script (α : Type) := Shell.Script Environment Line α

def printSuccess (message : Text) : Script Unit := echo (.success message)

def printError (message : Text) : Script Unit := echo (.error message)

def printInfo (message : Text) : Script Unit := echo (.info message)

def printPlain (message : Text) : Script Unit := echo (.plain message)

/-! ## Filters -/

/-- The lines of an input, also a last one without its newline. -/
def records (input : Text) : List Text :=
  let parts := input.splitOn '\n'
  if parts.getLast? = some [] then parts.dropLast else parts

/-- Each record through `change`, with a newline behind it. -/
def mapRecords (change : Text → Text) (input : Text) : Text :=
  (records input).flatMap fun record => change record ++ ['\n']

def selectRecords (select : Text → Bool) (input : Text) : Text :=
  ((records input).filter select).flatMap fun record => record ++ ['\n']

/-- `grep "pattern"` of a pattern without special characters. -/
def grep (pattern : Text) : Text → Text := selectRecords fun record => decide (pattern <:+: record)

/-- `grep "^pattern"`. -/
def grepStart (pattern : Text) : Text → Text :=
  selectRecords fun record => decide (pattern <+: record)

/-- `awk '{print $NF}'`: the last field, or the whole record where there is no field. -/
def awkLastField : Text → Text :=
  mapRecords fun record =>
    ((record.splitOnP isBlank).filter fun field => !field.isEmpty).getLast?.getD record

/-- `cut -d'"' -f2`: a record without the delimiter is kept. -/
def cutQuoted : Text → Text :=
  mapRecords fun record =>
    match record.splitOn '"' with
    | _ :: second :: _ => second
    | _ => record

/-- `tr -d`. -/
def trDelete (deleted : Text) (input : Text) : Text :=
  input.filter fun char => decide (char ∉ deleted)

/-! ## What the script reads -/

namespace Host

variable (host : Host)

/-- `cat` of an unquoted path. -/
def cat (path : Text) : Text := (host.words path).flatMap host.contents

/-- `$(grep "^NAME=" .config | cut -d'"' -f2)` -/
def configured (name : Text) : Text :=
  substitution (cutQuoted (grepStart (name ++ text "=") host.config))

def hvisorSrcDir : Text := host.configured (text "CONFIG_HVISOR_SRC_DIR")

def hvisorLinuxSrc : Text := host.configured (text "CONFIG_HVISOR_LA64_LINUX_DIR")

def buildrootDir : Text := host.configured (text "CONFIG_BUILDROOT_DIR")

/-- The entry point of the root zone's ELF report. -/
def rootLinuxEntry (hvisorLinuxSrc : Text) : Text :=
  substitution (awkLastField (grep (text "Entry")
    (host.cat (hvisorLinuxSrc ++ text "/target/root/vmlinux.readelf.txt"))))

def rootZoneEntry (hvisorSrcDir : Text) : Text :=
  substitution (trDelete (text ";") (awkLastField (grep (text "ROOT_ZONE_ENTRY")
    (host.cat (hvisorSrcDir ++ text "/platform/loongarch64/ls3a5000/board.rs")))))

/-- The entry point of a zone's ELF report. -/
def linuxEntry (hvisorLinuxSrc zoneName : Text) : Text :=
  substitution (awkLastField (grep (text "Entry") (host.contents
    (hvisorLinuxSrc ++ text "/target/nonroot-" ++ zoneName ++ text "/vmlinux.readelf.txt"))))

def jsonEntry (buildrootDir zoneName : Text) : Text :=
  substitution (trDelete (text "\",") (awkLastField (grep (text "entry_point") (host.contents
    (buildrootDir ++ text "/rootfs_ramdisk_overlay/tool/" ++ zoneName ++ text ".json")))))

end Host

/-- `jq -r '.nonroot[] | "\(.name) \(.load_addr)"'`, applied to `zones.json`. -/
def jq (nonroot : List Zone) : Text :=
  nonroot.flatMap fun zone => (zone.name ++ ' ' :: zone.loadAddr) ++ ['\n']

/-! ## The script -/

/-- `print_error` of each message, and `exit 1`. -/
def fail (messages : List Text) : Script Unit := do
  echoAll (messages.map .error)
  exit 1

/-- A test that ends the script where it fails. -/
def require (passes : Bool) (messages : List Text) : Script Unit :=
  if passes then pure () else fail messages

def readConfig (host : Host) : Script Unit :=
  assign fun environment => { environment with
    hvisorSrcDir := host.hvisorSrcDir
    hvisorLinuxSrc := host.hvisorLinuxSrc
    buildrootDir := host.buildrootDir }

/-- Up to the call of `make_image`. -/
def checkHost (host : Host) : Script Unit := do
  require host.hasJq [text "jq is not installed. Please install it by 'sudo apt install jq'"]
  let hvisorLinuxSrc ← expand Environment.hvisorLinuxSrc
  require (host.isDirectory hvisorLinuxSrc)
    [text "HVISOR_LINUX_SRC directory not found: " ++ hvisorLinuxSrc]
  let buildrootDir ← expand Environment.buildrootDir
  require (host.isDirectory buildrootDir)
    [text "BUILDROOT_DIR directory not found: " ++ buildrootDir]
  let hvisorSrcDir ← expand Environment.hvisorSrcDir
  require (host.isDirectory hvisorSrcDir)
    [text "HVISOR_SRC_DIR directory not found: " ++ hvisorSrcDir]
  require (host.isFile (text ".config"))
    [text ".config not found, please run 'make menuconfig' to generate it"]
  require
    (substitution (grepStart (text "CONFIG_TARGET_ARCH_LOONGARCH64=") host.config) ==
      text "CONFIG_TARGET_ARCH_LOONGARCH64=y")
    [text "ARCH is not loongarch64, please check the .config"]

/-- From there to the checks of the entry points. -/
def showSystem (host : Host) : Script Unit := do
  require (host.isFile (text "zones.json"))
    [text "zones.json not found", text "Please create zones.json with format:", text "\x7b",
      text "  \"nonroot\": [", text "    \x7b", text "      \"name\": \"linux1\",",
      text "      \"load_addr\": \"0x90000000c0200000\"", text "    \x7d", text "  ]",
      text "\x7d"]
  let hvisorLinuxSrc ← expand Environment.hvisorLinuxSrc
  let hvisorSrcDir ← expand Environment.hvisorSrcDir
  let chosenRoot := substitution (host.contents (hvisorLinuxSrc ++ text "/chosen_root"))
  let chosenNonroot := substitution (host.contents (hvisorLinuxSrc ++ text "/chosen_nonroot"))
  printPlain (text "=== System Information ===")
  printPlain (text " CHOSEN_ROOT: " ++ chosenRoot)
  printPlain (text " CHOSEN_NONROOT: " ++ chosenNonroot)
  printPlain (text " ROOT LINUX: " ++ substitution (grep (text "Entry")
    (host.cat (hvisorLinuxSrc ++ text "/target/root/vmlinux.readelf.txt"))))
  printPlain (text " ROOT_ZONE_ENTRY: " ++ substitution (grep (text "ROOT_ZONE_ENTRY")
    (host.cat (hvisorSrcDir ++ text "/platform/loongarch64/ls3a5000/board.rs"))))

/-- `check_zone_entry_point`, with its exit status. -/
def checkZoneEntryPoint (host : Host) (zoneName _loadAddr : Text) : Script Nat := do
  printPlain (text "\n=== Checking Entry Point for Zone: " ++ zoneName ++ text " ===")
  let hvisorLinuxSrc ← expand Environment.hvisorLinuxSrc
  let linuxEntry := host.linuxEntry hvisorLinuxSrc zoneName
  let buildrootDir ← expand Environment.buildrootDir
  let jsonEntry := host.jsonEntry buildrootDir zoneName
  if linuxEntry ≠ jsonEntry then do
    printError (text "Entry point mismatch for " ++ zoneName ++ text ":")
    printPlain (text "  Linux ELF: " ++ linuxEntry)
    printPlain (text "  JSON:      " ++ jsonEntry)
    return 1
  else do
    printInfo (text "Entry point for " ++ zoneName ++ text " matches: " ++ linuxEntry)
    return 0

def checkRootZone (host : Host) : Script Unit := do
  printPlain (text "\n=== Checking Zone Entry Points ===")
  assign fun environment => { environment with error := 0 }
  assign fun environment => { environment with
    rootLinuxEntry := host.rootLinuxEntry environment.hvisorLinuxSrc }
  assign fun environment => { environment with
    rootZoneEntry := host.rootZoneEntry environment.hvisorSrcDir }
  let rootLinuxEntry ← expand Environment.rootLinuxEntry
  let rootZoneEntry ← expand Environment.rootZoneEntry
  if rootLinuxEntry ≠ rootZoneEntry then do
    printError (text "Root Linux entry point mismatch:")
    printPlain (text "  Root Linux:    " ++ rootLinuxEntry)
    printPlain (text "  Root Zone:     " ++ rootZoneEntry)
    assign fun environment => { environment with error := 1 }
  else
    printSuccess (text "Root zone entry point matches correctly!")

/-- The body of the loop over the zones. -/
def checkNonrootZone (host : Host) (line : Text) : Script Unit := do
  let (zoneName, loadAddr) := readTwo line
  assign fun environment => { environment with zoneName := zoneName, loadAddr := loadAddr }
  if zoneName = [] ∨ loadAddr = [] then
    pure ()
  else do
    let status ← checkZoneEntryPoint host zoneName loadAddr
    if status ≠ 0 then
      assign fun environment => { environment with error := 1 }
    else
      pure ()

/-- The pipeline `jq … | while read …`; its right side is a subshell. -/
def checkNonrootZones (host : Host) : Script Unit :=
  subshell (whileRead (checkNonrootZone host) (lines (jq host.nonroot)))

/-- The final test. -/
def verdict : Script Unit := do
  let error ← expand Environment.error
  if error = 0 then
    printSuccess (text "All entry points match correctly!")
  else
    pure ()

def makeLoongarch64 (host : Host) : Script Unit := do
  readConfig host
  checkHost host
  echo .makeImage
  showSystem host
  checkRootZone host
  checkNonrootZones host
  verdict
  printPlain (text "\n✓ Script completed successfully")

end HvisorUefiPacker.MakeLoongarch64
