import HvisorUefiPacker.Acpi
import HvisorUefiPacker.Main
import HvisorUefiPacker.Parse
import HvisorUefiPacker.Soundness.PrintStream

/-! # Every format gets its arguments

`Print` takes its arguments by the directives of the format, and nothing checks
that they are there and of the right kind.  `checks` is that check: it goes
through a format with the kinds of the arguments only.  Where it succeeds,
`_Print` finds all it asks for, and every call of `Print` that the packer can
ever make passes it.
-/

namespace HvisorUefiPacker

open Interaction Interaction.Program GnuEfi

namespace GnuEfi

/-! ## Checking a format -/

inductive ArgKind where
  | number
  | text
deriving DecidableEq

def argKind : PrintArg → ArgKind
  | .number _ => .number
  | .text _ => .text

/-- `Mode` without the item. -/
inductive CheckMode where
  | text
  | item
  | digits
deriving DecidableEq

/-- The argument a directive takes has to be of this kind. -/
def takeKind (kind : ArgKind) (mode : CheckMode) : List ArgKind → Option (CheckMode × List ArgKind)
  | first :: rest => if first = kind then some (mode, rest) else none
  | [] => none

def checkSwitch (c : CHAR16) (kinds : List ArgKind) : Option (CheckMode × List ArgKind) :=
  match Char.ofNat c.toNat with
  | '0' => some (.item, kinds)
  | '-' => some (.item, kinds)
  | ',' => some (.item, kinds)
  | '.' => some (.item, kinds)
  | 'l' => some (.item, kinds)
  | 'n' => some (.item, kinds)
  | 'h' => some (.item, kinds)
  | 'e' => some (.item, kinds)
  | '*' => takeKind .number .item kinds
  | 'a' => takeKind .text .text kinds
  | 's' => takeKind .text .text kinds
  | 'c' => takeKind .number .text kinds
  | 'X' => takeKind .number .text kinds
  | 'x' => takeKind .number .text kinds
  | 'u' => takeKind .number .text kinds
  | 'd' => takeKind .number .text kinds
  | 'f' => none
  | 'g' => none
  | 't' => none
  | 'D' => none
  | 'r' => none
  | _ => some (.text, kinds)

def checkItem (c : CHAR16) (kinds : List ArgKind) : Option (CheckMode × List ArgKind) :=
  if c = 0 then some (.text, kinds)
  else if char16 '1' ≤ c ∧ c ≤ char16 '9' then some (.digits, kinds)
  else checkSwitch c kinds

def checkStep : CheckMode × List ArgKind → CHAR16 → Option (CheckMode × List ArgKind)
  | (.text, kinds), c => some (if c ≠ char16 '%' then .text else .item, kinds)
  | (.item, kinds), c => checkItem c kinds
  | (.digits, kinds), c =>
    if char16 '0' ≤ c ∧ c ≤ char16 '9' then some (.digits, kinds) else checkItem c kinds

def checker : Scanner (CheckMode × List ArgKind) CHAR16 where
  step := checkStep
  stops := fun (mode, _) c => mode = .text ∧ c = 0

/-- The format finds its arguments, and ends outside of a directive. -/
def checks (format : String) (kinds : List ArgKind) : Bool :=
  (checker.run (.text, kinds) (wide format ++ [0])).isSome

/-! ## Checked formats print -/

/-- A console's attributes for the format: none of them is 0. -/
def Coloured (state : PrintState) : Prop :=
  state.attrNorm ≠ 0 ∧ state.attrHighlight ≠ 0 ∧ state.attrError ≠ 0

/-- What the check knows of the place a run has got to. -/
def Mode.CheckedAs : Mode → CheckMode → Prop
  | .text, checked => checked = .text
  | .item pending, checked => checked = .item ∧ pending.text = none
  | .digits pending, checked => checked = .digits ∧ pending.text = none

structure Checked (state : Mode × PrintState) (checked : CheckMode × List ArgKind) : Prop where
  mode : state.1.CheckedAs checked.1
  args : state.2.args.map argKind = checked.2
  coloured : Coloured state.2

theorem checked_leaveItem {state : PrintState} {kinds : List ArgKind}
    (args : state.args.map argKind = kinds) (coloured : Coloured state) :
    Checked (leaveItem state) (.text, kinds) := by
  rw [leaveItem]
  constructor
  · rfl
  · dsimp only
    split
    · exact args
    · exact args
  · dsimp only
    split
    · exact coloured
    · exact coloured

theorem checked_text {item : PrintItem} {pw : List CHAR16} {state : PrintState}
    {kinds : List ArgKind} (text : item.text = some pw)
    (args : state.args.map argKind = kinds) (coloured : Coloured state) :
    Checked (afterSwitch (item, 0, state)) (.text, kinds) := by
  have settings := pputs_settings (field item pw) state
  rw [afterSwitch, text]
  dsimp only
  rw [pitem_eq]
  apply checked_leaveItem
  · rw [settings]
    exact args
  · rw [settings]
    exact coloured

theorem checked_noted {item : PrintItem} {state : PrintState} {kinds : List ArgKind}
    (text : item.text = none) (args : state.args.map argKind = kinds)
    (coloured : Coloured state) : Checked (afterSwitch (item, 0, state)) (.item, kinds) := by
  rw [afterSwitch, text]
  exact ⟨⟨rfl, text⟩, args, coloured⟩

theorem checked_colour {item : PrintItem} {attr : UINTN} {state : PrintState}
    {kinds : List ArgKind} (text : item.text = none) (lasting : attr ≠ 0)
    (args : state.args.map argKind = kinds) (coloured : Coloured state) :
    Checked (afterSwitch (item, attr, state)) (.text, kinds) := by
  rw [afterSwitch, text]
  dsimp only
  rw [if_pos lasting]
  exact checked_leaveItem args coloured

/-- The check has found a number where one is taken. -/
theorem vaNumber_of_takeKind {state : PrintState} {mode : CheckMode} {kinds left : List ArgKind}
    (args : state.args.map argKind = kinds)
    (taken : takeKind .number mode kinds = some (mode, left)) :
    ∃ value rest, vaNumber state = some (value, { state with args := rest }) ∧
      rest.map argKind = left := by
  subst args
  cases present : state.args with
  | nil =>
    rw [present] at taken
    cases taken
  | cons arg rest =>
    rw [present] at taken
    cases arg with
    | text chars => cases taken
    | number value =>
      cases taken
      exact ⟨value, rest, by rw [vaNumber, present], rfl⟩

theorem vaString_of_takeKind {state : PrintState} {mode : CheckMode} {kinds left : List ArgKind}
    (args : state.args.map argKind = kinds)
    (taken : takeKind .text mode kinds = some (mode, left)) :
    ∃ chars rest, vaString state = some (chars, { state with args := rest }) ∧
      rest.map argKind = left := by
  subst args
  cases present : state.args with
  | nil =>
    rw [present] at taken
    cases taken
  | cons arg rest =>
    rw [present] at taken
    cases arg with
    | number value => cases taken
    | text chars =>
      cases taken
      exact ⟨_, rest, by rw [vaString, present], rfl⟩

theorem takeKind_mode {kind : ArgKind} {mode mode' : CheckMode} {kinds left : List ArgKind}
    (taken : takeKind kind mode kinds = some (mode', left)) : mode' = mode := by
  cases kinds with
  | nil => cases taken
  | cons first rest =>
    rw [takeKind] at taken
    split at taken
    · cases taken
      rfl
    · cases taken

theorem checkSwitch_sound {c : CHAR16} {item : PrintItem} {state : PrintState}
    {kinds left : List ArgKind} {mode : CheckMode} (text : item.text = none)
    (args : state.args.map argKind = kinds) (coloured : Coloured state)
    (checked : checkSwitch c kinds = some (mode, left)) :
    ∃ result, printSwitch c item state = some result ∧ Checked (afterSwitch result) (mode, left) := by
  rw [checkSwitch] at checked
  rw [printSwitch]
  generalize Char.ofNat c.toNat = char at checked ⊢
  have number : ∀ next : UINTN → PrintItem, takeKind .number mode kinds = some (mode, left) →
      ∃ value rest, rest.map argKind = left ∧
        ((vaNumber state).bind fun taken => some (next taken.1, (0 : UINTN), taken.2)) =
          some (next value, 0, { state with args := rest }) := by
    intro next taken
    obtain ⟨value, rest, found, kind⟩ := vaNumber_of_takeKind args taken
    exact ⟨value, rest, kind, by rw [found]; rfl⟩
  have string : ∀ next : List CHAR16 → PrintItem, takeKind .text mode kinds = some (mode, left) →
      ∃ chars rest, rest.map argKind = left ∧
        ((vaString state).bind fun taken => some (next taken.1, (0 : UINTN), taken.2)) =
          some (next chars, 0, { state with args := rest }) := by
    intro next taken
    obtain ⟨chars, rest, found, kind⟩ := vaString_of_takeKind args taken
    exact ⟨chars, rest, kind, by rw [found]; rfl⟩
  split at checked
  case h_22 =>
    cases checked
    split
    all_goals try contradiction
    case h_1 => exact ⟨_, rfl, checked_text rfl args coloured⟩
    case h_18 => exact ⟨_, rfl, checked_colour text coloured.1 args coloured⟩
    case h_19 => exact ⟨_, rfl, checked_colour text coloured.2.1 args coloured⟩
    case h_20 => exact ⟨_, rfl, checked_colour text coloured.2.2 args coloured⟩
    case h_26 => exact ⟨_, rfl, checked_text rfl args coloured⟩
  case h_9 =>
    obtain rfl := takeKind_mode checked
    obtain ⟨value, rest, kind, found⟩ := number item.setParsedWidth checked
    exact ⟨_, found, checked_noted ((setParsedWidth_text item value).trans text) kind coloured⟩
  case h_10 =>
    obtain rfl := takeKind_mode checked
    obtain ⟨chars, rest, kind, found⟩ := string (fun chars => { item with text := some chars }) checked
    exact ⟨_, found, checked_text rfl kind coloured⟩
  case h_11 =>
    obtain rfl := takeKind_mode checked
    obtain ⟨chars, rest, kind, found⟩ := string (fun chars => { item with text := some chars }) checked
    exact ⟨_, found, checked_text rfl kind coloured⟩
  case h_12 =>
    obtain rfl := takeKind_mode checked
    obtain ⟨value, rest, kind, found⟩ :=
      number (fun value => { item with text := some [value.setWidth 16] }) checked
    exact ⟨_, found, checked_text rfl kind coloured⟩
  case h_13 =>
    obtain rfl := takeKind_mode checked
    obtain ⟨value, rest, kind, found⟩ := number (fun value =>
      { item with
        width := if item.long then 16 else 8
        pad := char16 '0'
        text := some (valueToHex (item.unsignedValue value)) }) checked
    exact ⟨_, found, checked_text rfl kind coloured⟩
  case h_14 =>
    obtain rfl := takeKind_mode checked
    obtain ⟨value, rest, kind, found⟩ := number (fun value =>
      { item with text := some (valueToHex (item.unsignedValue value)) }) checked
    exact ⟨_, found, checked_text rfl kind coloured⟩
  case h_15 =>
    obtain rfl := takeKind_mode checked
    obtain ⟨value, rest, kind, found⟩ := number (fun value =>
      { item with text := some (valueToString item.comma (item.unsignedValue value)) }) checked
    exact ⟨_, found, checked_text rfl kind coloured⟩
  case h_16 =>
    obtain rfl := takeKind_mode checked
    obtain ⟨value, rest, kind, found⟩ := number (fun value =>
      { item with text := some (valueToString item.comma (item.signedValue value)) }) checked
    exact ⟨_, found, checked_text rfl kind coloured⟩
  all_goals cases checked
  all_goals exact ⟨_, rfl, checked_noted text args coloured⟩

theorem checkItem_sound {c : CHAR16} {item : PrintItem} {state : PrintState}
    {kinds : List ArgKind} {checked : CheckMode × List ArgKind} (text : item.text = none)
    (args : state.args.map argKind = kinds) (coloured : Coloured state)
    (moved : checkItem c kinds = some checked) :
    ∃ next, itemStep item state c = some next ∧ Checked next checked := by
  rw [checkItem] at moved
  rw [itemStep]
  split at moved
  · rename_i zero
    cases moved
    rw [if_pos zero]
    exact ⟨_, rfl, checked_leaveItem args coloured⟩
  rename_i nonzero
  rw [if_neg nonzero]
  split at moved
  · rename_i digit
    cases moved
    rw [if_pos digit]
    refine ⟨_, rfl, ⟨⟨rfl, ?_⟩, args, coloured⟩⟩
    rw [PrintItem.readDigit, setParsedWidth_text, setParsedWidth_text]
    exact text
  · rename_i noDigit
    rw [if_neg noDigit]
    obtain ⟨result, switched, sound⟩ := checkSwitch_sound text args coloured moved
    exact ⟨_, by rw [switched]; rfl, sound⟩

theorem checkStep_sound {c : CHAR16} {state : Mode × PrintState}
    {checked next : CheckMode × List ArgKind} (agree : Checked state checked)
    (moved : checkStep checked c = some next) :
    ∃ next', printStep state c = some next' ∧ Checked next' next := by
  obtain ⟨mode, state⟩ := state
  obtain ⟨checkMode, kinds⟩ := checked
  cases mode with
  | text =>
    obtain rfl : checkMode = .text := agree.mode
    rw [checkStep] at moved
    rw [printStep]
    split
    · rename_i literal
      have settings := pputs_settings [c] state
      cases moved
      refine ⟨_, rfl, ⟨if_pos literal, ?_, ?_⟩⟩
      · show (pputs [c] state).args.map argKind = kinds
        rw [settings]
        exact agree.args
      · show Coloured (pputs [c] state)
        rw [settings]
        exact agree.coloured
    · rename_i directive
      cases moved
      exact ⟨_, rfl, ⟨⟨if_neg directive, rfl⟩, agree.args, agree.coloured⟩⟩
  | item item =>
    obtain ⟨rfl, text⟩ := agree.mode
    exact checkItem_sound text agree.args agree.coloured moved
  | digits item =>
    obtain ⟨rfl, text⟩ := agree.mode
    rw [checkStep] at moved
    rw [printStep]
    split at moved
    · rename_i digit
      cases moved
      rw [if_pos digit]
      refine ⟨_, rfl, ⟨⟨rfl, ?_⟩, agree.args, agree.coloured⟩⟩
      rw [PrintItem.readDigit, setParsedWidth_text]
      exact text
    · rename_i noDigit
      rw [if_neg noDigit]
      exact checkItem_sound text agree.args agree.coloured moved

theorem stops_together {state : Mode × PrintState} {checked : CheckMode × List ArgKind}
    (agree : Checked state checked) (c : CHAR16) :
    printer.stops state c = checker.stops checked c := by
  obtain ⟨mode, state⟩ := state
  obtain ⟨checkMode, kinds⟩ := checked
  cases mode with
  | text =>
    obtain rfl : checkMode = .text := agree.mode
    simp [printer, checker]
  | item item =>
    obtain ⟨rfl, -⟩ := agree.mode
    simp [printer, checker]
  | digits item =>
    obtain ⟨rfl, -⟩ := agree.mode
    simp [printer, checker]

/-- The colours of a console are none of them 0, whatever its background. -/
theorem coloured_consoleState (modeAttribute : UINT32) (args : List PrintArg) :
    Coloured (consoleState modeAttribute args) := by
  have nonzero : ∀ foreground back : UINTN, foreground ≠ 0 → efiTextAttr foreground back ≠ 0 := by
    intro foreground back visible none
    exact visible (BitVec.or_eq_zero_iff.mp none).1
  exact ⟨nonzero _ _ (by decide), nonzero _ _ (by decide), nonzero _ _ (by decide)⟩

/-- A call of `Print` that passes the check prints, on every console, whatever lies behind
    the format. -/
theorem iPrint_of_checks {format : String} {args : List PrintArg}
    (fits : checks format (args.map argKind)) (modeAttribute : UINT32) (behind : List CHAR16) :
    ∃ printed, iPrint modeAttribute (wide format ++ 0 :: behind) args = some printed := by
  obtain ⟨checked, accepted⟩ := Option.isSome_iff_exists.mp fits
  have start : Checked (.text, consoleState modeAttribute args) (.text, args.map argKind) :=
    ⟨rfl, rfl, coloured_consoleState modeAttribute args⟩
  obtain ⟨⟨mode, final⟩, stopped, -⟩ := Scanner.run_simulates Checked
    (fun _ _ c agree => stops_together agree c)
    (fun _ _ _ _ agree _ moved => checkStep_sound agree moved) start accepted
  have further := Scanner.run_append_of_stopped stopped behind
  rw [List.append_assoc] at further
  have read : printer.run (.text, consoleState modeAttribute args) (wide format ++ 0 :: behind) =
      some (mode, final) := further
  refine ⟨((pflush final).len, (pflush final).calls), ?_⟩
  rw [iPrint, printFormat, read]
  rfl

end GnuEfi

/-! ## The calls of the packer -/

/-- The arguments of the call are what its format asks for. -/
def PrintFits (format : String) (args : List PrintArg) : Prop := checks format (args.map argKind)

/-- A request that is no call of `Print`, or one whose arguments fit. -/
def Op.PrintsFit : Op → Prop
  | .service (.print format args) => PrintFits format args
  | _ => True

/-- A literal format, checked once for the kinds of its arguments. -/
theorem print_issues {format : String} {args : List PrintArg} (kinds : List ArgKind)
    (fits : checks format kinds) (same : args.map argKind = kinds) :
    Issues Op.PrintsFit (print format args) := by
  rw [issues_print]
  show checks format (args.map argKind)
  rw [same]
  exact fits

theorem load_fits (address : UINTN) : Issues Op.PrintsFit (load address) :=
  issues_load.mpr trivial

theorem load16_fits (address : UINTN) : Issues Op.PrintsFit (load16 address) :=
  issues_bind (load_fits address) fun _ => issues_bind (load_fits _) fun _ => trivial

theorem load32_fits (address : UINTN) : Issues Op.PrintsFit (load32 address) :=
  load32_issues fun _ _ => trivial

theorem load64_fits (address : UINTN) : Issues Op.PrintsFit (load64 address) :=
  load64_issues fun _ _ => trivial

theorem halt_fits {α : Type} : Issues Op.PrintsFit (halt : Packer α) :=
  issues_bind (print_issues [] rfl rfl) fun _ => issues_spin.mpr trivial

theorem check_fits (buf : StatusBuffer) (status : EfiStatus) (name : String)
    (expected : EfiStatus) : Issues Op.PrintsFit (check buf status name expected) := by
  unfold check
  split
  · refine issues_bind (issues_call.mpr trivial) fun _ => ?_
    refine issues_bind (print_issues [.text, .text, .text] rfl rfl) fun _ => ?_
    exact issues_bind (issues_call.mpr trivial) fun _ => halt_fits
  · exact print_issues [.text] rfl rfl

theorem memset2_fits (dest : UINTN) (val n : Int32) : Issues Op.PrintsFit (memset2 dest val n) :=
  memset2_issues (fun _ _ => trivial) dest val n

theorem memcpy2_fits (dest src : UINTN) (n : Int32) : Issues Op.PrintsFit (memcpy2 dest src n) :=
  memcpy2_issues (fun _ => trivial) (fun _ _ => trivial) dest src n

theorem printStr_fits (archOps : Option Arch) (str : List Byte) :
    Issues Op.PrintsFit (printStr archOps str) :=
  printStr_issues (fun _ => trivial) archOps str

/-! ### efi_main -/

theorem exitBootServices_fits (buf : StatusBuffer) (vars : MemoryMapVars) (imageHandle : UINTN) :
    Issues Op.PrintsFit (exitBootServices buf vars imageHandle) := by
  have exits : ∀ vars desc, Issues Op.PrintsFit (exitWithMap imageHandle vars desc) :=
    fun vars desc => issues_bind (issues_call.mpr trivial) fun _ => issues_call.mpr trivial
  refine issues_bind ?_ fun prepared => exits prepared.1 prepared.2
  refine issues_bind (issues_call.mpr trivial) fun answered => ?_
  refine issues_bind (check_fits _ _ _ _) fun _ => ?_
  refine issues_bind (print_issues [.number] rfl rfl) fun _ => ?_
  refine issues_bind (issues_call.mpr trivial) fun allocated => ?_
  dsimp only
  split
  · exact issues_bind (print_issues [] rfl rfl) fun _ => halt_fits
  · trivial

theorem archGetBootCpuId_fits (arch : Arch) (uninitialised : UINTN) :
    Issues Op.PrintsFit (archGetBootCpuId arch uninitialised) := by
  cases arch with
  | aarch64 => trivial
  | loongarch64 => trivial
  | riscv64 =>
    refine issues_bind (issues_call.mpr trivial) fun located => ?_
    dsimp only
    split
    · exact issues_bind (print_issues [] rfl rfl) fun _ => trivial
    refine issues_bind (issues_call.mpr trivial) fun asked => ?_
    split
    · exact issues_bind (print_issues [] rfl rfl) fun _ => trivial
    · exact issues_bind (print_issues [.number] rfl rfl) fun _ => trivial

theorem archDetectAndInit_fits (arch : Arch) : Issues Op.PrintsFit (archDetectAndInit arch) := by
  cases arch with
  | aarch64 => trivial
  | loongarch64 =>
    refine issues_bind (issues_hardware.mpr trivial) fun _ => ?_
    exact issues_bind (issues_hardware.mpr trivial) fun _ => issues_hardware.mpr trivial
  | riscv64 => exact issues_hardware.mpr trivial

theorem printSystemInfo_fits (systemTable : EfiSystemTable) :
    Issues Op.PrintsFit (printSystemInfo systemTable) := by
  refine issues_bind (print_issues [.number] rfl rfl) fun _ => ?_
  refine issues_bind (print_issues [.number] rfl rfl) fun _ => ?_
  refine issues_bind (print_issues [.number] rfl rfl) fun _ => ?_
  refine issues_bind (print_issues [.number] rfl rfl) fun _ => ?_
  exact print_issues [.number] rfl rfl

theorem greet_fits (config : Config) (imageHandle : UINTN) (systemTable : EfiSystemTable) :
    Issues Op.PrintsFit (greet config imageHandle systemTable) := by
  refine issues_bind (archDetectAndInit_fits _) fun _ => ?_
  refine issues_bind (printStr_fits _ _) fun _ => ?_
  refine issues_bind (printStr_fits _ _) fun _ => ?_
  refine issues_bind (issues_call.mpr trivial) fun _ => ?_
  refine issues_bind (print_issues [] rfl rfl) fun _ => ?_
  refine issues_bind (print_issues [.text] rfl rfl) fun _ => ?_
  refine issues_bind (print_issues [.number, .number] rfl rfl) fun _ => ?_
  refine issues_bind (print_issues [.text] rfl rfl) fun _ => ?_
  refine issues_bind (print_issues [] rfl rfl) fun _ => ?_
  refine issues_bind (printSystemInfo_fits _) fun _ => ?_
  exact print_issues [] rfl rfl

theorem printBinaryInfo_fits (config : Config) : Issues Op.PrintsFit (printBinaryInfo config) := by
  have rules : Issues Op.PrintsFit (print rule []) := print_issues [] rfl rfl
  refine issues_bind rules fun _ => ?_
  refine issues_bind (print_issues [.text] rfl rfl) fun _ => ?_
  refine issues_bind (print_issues [.number, .number] rfl rfl) fun _ => ?_
  cases config.enableVmlinux with
  | true =>
    exact issues_bind (print_issues [.number, .number] rfl rfl) fun _ => rules
  | false => exact rules

theorem composeMemory_fits (config : Config) : Issues Op.PrintsFit (composeMemory config) := by
  have clears : Issues Op.PrintsFit (archBeforeExitBootServices config) := by
    unfold archBeforeExitBootServices
    cases config.arch with
    | aarch64 => trivial
    | loongarch64 =>
      refine issues_bind (memset2_fits _ _ _) fun _ => ?_
      exact issues_bind (memset2_fits _ _ _) fun _ => memset2_fits _ _ _
    | riscv64 => trivial
  have copiesHvisor : Issues Op.PrintsFit (copyHvisorBinary config) :=
    issues_bind (memcpy2_fits _ _ _) fun _ =>
      print_issues [.number, .number] rfl rfl
  have copiesVmlinux : Issues Op.PrintsFit (copyVmlinuxBinary config) :=
    issues_bind (memcpy2_fits _ _ _) fun _ =>
      print_issues [.number, .number] rfl rfl
  refine issues_bind clears fun _ => ?_
  refine issues_bind (print_issues [] rfl rfl) fun _ => ?_
  refine issues_bind (printBinaryInfo_fits _) fun _ => ?_
  refine issues_bind (print_issues [.number] rfl rfl) fun _ => ?_
  refine issues_bind copiesHvisor fun _ => ?_
  cases config.enableVmlinux with
  | true =>
    exact issues_bind (print_issues [.number] rfl rfl) fun _ => copiesVmlinux
  | false => trivial

theorem efiMain_fits (config : Config) (imageHandle : UINTN) (systemTable : EfiSystemTable)
    (uninitialised : UINTN) :
    Issues Op.PrintsFit (efiMain config imageHandle systemTable uninitialised) := by
  have jumps : ∀ bootCpuId, Issues Op.PrintsFit (jumpToHvisor config systemTable bootCpuId) :=
    fun bootCpuId => issues_bind (printStr_fits _ _) fun _ =>
      issues_bind (issues_enter.mpr trivial) fun _ => issues_spin.mpr trivial
  refine issues_bind (greet_fits _ _ _) fun _ => ?_
  refine issues_bind (composeMemory_fits _) fun _ => ?_
  refine issues_bind (archGetBootCpuId_fits _ _) fun bootCpuId => ?_
  refine issues_bind (print_issues [] rfl rfl) fun _ => ?_
  refine issues_bind (exitBootServices_fits _ _ _) fun _ => ?_
  refine issues_bind (printStr_fits _ _) fun _ => ?_
  exact issues_bind (jumps bootCpuId) fun _ => trivial

/-! ### parse_pe -/

theorem copyMem_fits (dest src len : UINTN) : Issues Op.PrintsFit (copyMem dest src len) := by
  have forward : ∀ count d s, Issues Op.PrintsFit (copyForward count d s) := by
    intro count
    induction count with
    | zero => exact fun _ _ => trivial
    | succ count inductionHypothesis =>
      exact fun d s => issues_bind (load_fits s) fun _ =>
        issues_bind (issues_store.mpr trivial) fun _ => inductionHypothesis _ _
  have backward : ∀ count d s, Issues Op.PrintsFit (copyBackward count d s) := by
    intro count
    induction count with
    | zero => exact fun _ _ => trivial
    | succ count inductionHypothesis =>
      exact fun d s => issues_bind (load_fits _) fun _ =>
        issues_bind (issues_store.mpr trivial) fun _ => inductionHypothesis _ _
  unfold copyMem rtCopyMem
  split
  · trivial
  split
  · exact backward _ _ _
  · exact forward _ _ _

theorem sectionName_fits (name size : UINTN) : Issues Op.PrintsFit (parseSectionName name size) := by
  unfold parseSectionName
  generalize min size.toNat imageSizeofShortName.toNat = rounds
  induction rounds generalizing name with
  | zero => trivial
  | succ rounds inductionHypothesis =>
    refine issues_bind (load_fits name) fun char => ?_
    split
    · trivial
    · exact issues_bind (inductionHypothesis _) fun _ => trivial

/-- One line of a dump: a field that is read, and a format with one number. -/
theorem printField_fits {format : String} (fits : checks format [.number]) (field : UINTN) :
    Issues Op.PrintsFit (printField format field) :=
  issues_bind (load32_fits field) fun _ => print_issues [.number] fits rfl

theorem validateValue_fits {w : Nat} {invalid ok : String} (fitsInvalid : checks invalid [.number])
    (fitsOk : checks ok [.number]) (value expected : BitVec w) :
    Issues Op.PrintsFit (validateValue value expected invalid ok) := by
  unfold validateValue
  split
  · exact issues_bind (print_issues [.number] fitsInvalid rfl) fun _ => trivial
  · exact issues_bind (print_issues [.number] fitsOk rfl) fun _ => trivial

theorem printSectionInfo_fits (sectionHeader sectionIndex sectionStart sectionSize sectionEnd
    sectionLoadAddr : UINTN) :
    Issues Op.PrintsFit (printSectionInfo sectionHeader sectionIndex sectionStart sectionSize
      sectionEnd sectionLoadAddr) := by
  refine issues_bind (print_issues [.number] rfl rfl) fun _ => ?_
  refine issues_bind (sectionName_fits _ _) fun _ => ?_
  refine issues_bind (print_issues [.text] rfl rfl) fun _ => ?_
  refine issues_bind (printField_fits rfl _) fun _ => ?_
  refine issues_bind (printField_fits rfl _) fun _ => ?_
  refine issues_bind (printField_fits rfl _) fun _ => ?_
  refine issues_bind (print_issues [.number] rfl rfl) fun _ => ?_
  refine issues_bind (print_issues [.number] rfl rfl) fun _ => ?_
  refine issues_bind (print_issues [.number] rfl rfl) fun _ => ?_
  exact print_issues [.number] rfl rfl

theorem loadSection_fits (sectionHeader efiFileStartAddr efiLoadAddr efiSize sectionIndex : UINTN) :
    Issues Op.PrintsFit
      (loadSection sectionHeader efiFileStartAddr efiLoadAddr efiSize sectionIndex) := by
  refine issues_bind (load32_fits _) fun _ => ?_
  refine issues_bind (load32_fits _) fun _ => ?_
  refine issues_bind (load32_fits _) fun _ => ?_
  refine issues_bind (printSectionInfo_fits _ _ _ _ _ _) fun _ => ?_
  split
  · exact issues_bind (print_issues [] rfl rfl) fun _ => trivial
  · refine issues_bind (copyMem_fits _ _ _) fun _ => ?_
    exact issues_bind (print_issues [.number, .number, .number] rfl rfl)
      fun _ => trivial

theorem loadSections_fits (ntHeader sectionHeader efiFileStartAddr efiLoadAddr efiSize : UINTN)
    (fuel i : Nat) :
    Issues Op.PrintsFit
      (loadSectionsFuel ntHeader sectionHeader efiFileStartAddr efiLoadAddr efiSize fuel i) := by
  induction fuel generalizing i with
  | zero => trivial
  | succ fuel inductionHypothesis =>
    refine issues_bind (load16_fits _) fun numberOfSections => ?_
    split
    · refine issues_bind (loadSection_fits _ _ _ _ _) fun status => ?_
      split
      · trivial
      · exact inductionHypothesis _
    · trivial

theorem loadImage_fits (ntHeader efiFileStartAddr efiLoadAddr efiSize : UINTN) :
    Issues Op.PrintsFit (loadImage ntHeader efiFileStartAddr efiLoadAddr efiSize) := by
  have header : Issues Op.PrintsFit (printOptionalHeaderInfo ntHeader) := by
    refine issues_bind (print_issues [] rfl rfl) fun _ => ?_
    refine issues_bind (printField_fits rfl _) fun _ => ?_
    refine issues_bind (printField_fits rfl _) fun _ => ?_
    refine issues_bind (printField_fits rfl _) fun _ => ?_
    refine issues_bind (printField_fits rfl _) fun _ => ?_
    refine issues_bind (printField_fits rfl _) fun _ => ?_
    exact printField_fits rfl _
  refine issues_bind header fun _ => ?_
  refine issues_bind (load32_fits _) fun _ => ?_
  refine issues_bind (load16_fits _) fun _ => ?_
  refine issues_bind (print_issues [.number] rfl rfl) fun _ => ?_
  refine issues_bind (loadSections_fits _ _ _ _ _ _ _) fun loaded => ?_
  split
  · refine issues_bind (print_issues [] rfl rfl) fun _ => ?_
    exact issues_bind (print_issues [.number] rfl rfl) fun _ => trivial
  · trivial

theorem parsePe_fits (efiFileStartAddr efiLoadAddr efiSize : UINTN) :
    Issues Op.PrintsFit (parsePe efiFileStartAddr efiLoadAddr efiSize) := by
  have dosHeader : ∀ address, Issues Op.PrintsFit (validateDosHeader address) := fun address =>
    issues_bind (load16_fits _) fun _ =>
      validateValue_fits rfl rfl _ _
  have ntHeader : ∀ address, Issues Op.PrintsFit (validateNtHeader address) := fun address =>
    issues_bind (load32_fits _) fun _ =>
      validateValue_fits rfl rfl _ _
  refine issues_bind (print_issues [.number] rfl rfl) fun _ => ?_
  refine issues_bind (print_issues [.number] rfl rfl) fun _ => ?_
  refine issues_bind (print_issues [.number, .text] rfl rfl) fun _ => ?_
  refine issues_bind (dosHeader _) fun status => ?_
  split
  · trivial
  refine issues_bind (load32_fits _) fun _ => ?_
  refine issues_bind (ntHeader _) fun status => ?_
  split
  · trivial
  · exact loadImage_fits _ _ _ _

/-! ### acpi_dump -/

theorem dumpChars_fits (field : UINTN) (count : Nat) :
    Issues Op.PrintsFit (dumpChars field count) :=
  issues_repeatFrom fun _ _ _ => issues_bind (load_fits _) fun _ =>
    print_issues [.number] rfl rfl

theorem dumpWord_fits {format : String} (fits : checks format [.number]) (field : UINTN) :
    Issues Op.PrintsFit (dumpWord format field) :=
  issues_bind (load32_fits field) fun _ => print_issues [.number] fits rfl

theorem dumpByte_fits {format : String} (fits : checks format [.number]) (field : UINTN) :
    Issues Op.PrintsFit (dumpByte format field) :=
  issues_bind (load_fits field) fun _ => print_issues [.number] fits rfl

theorem compareMem_fits (dest : UINTN) (literal : List Byte) :
    Issues Op.PrintsFit (compareMem dest literal) :=
  compareMem_issues fun _ _ => trivial

theorem findAcpiTable_fits (acpiTable : UINTN) (version : Int32)
    (entries : List EfiConfigurationTable) :
    Issues Op.PrintsFit (findAcpiTable acpiTable version entries) := by
  induction entries with
  | nil => trivial
  | cons ect rest inductionHypothesis =>
    unfold findAcpiTable
    split
    · exact issues_bind (print_issues [] rfl rfl) fun _ => trivial
    split
    · exact issues_bind (print_issues [] rfl rfl) fun _ => trivial
    · exact inductionHypothesis

theorem checkDtbTable_fits (entries : List EfiConfigurationTable) :
    Issues Op.PrintsFit (checkDtbTable entries) := by
  induction entries with
  | nil => trivial
  | cons ect rest inductionHypothesis =>
    unfold checkDtbTable
    split
    · exact issues_bind (print_issues [] rfl rfl) fun _ =>
        print_issues [.number] rfl rfl
    · exact inductionHypothesis

theorem dumpTableSignature_fits (table : UINTN) (tableName : String) :
    Issues Op.PrintsFit (dumpTableSignature table tableName) := by
  refine issues_bind (print_issues [.text, .number] rfl rfl) fun _ => ?_
  refine issues_bind (issues_repeatFrom fun _ _ _ => ?_) fun _ =>
    print_issues [] rfl rfl
  exact issues_bind (load_fits _) fun _ => print_issues [.number] rfl rfl

theorem findRsdpTables_fits (acpiTable : UINTN) :
    Issues Op.PrintsFit (findRsdpTables acpiTable) := by
  refine issues_bind (compareMem_fits _ _) fun order => ?_
  split
  · refine issues_bind (print_issues [] rfl rfl) fun _ => ?_
    refine issues_bind (print_issues [.number] rfl rfl) fun _ => ?_
    refine issues_bind (load_fits _) fun revision => ?_
    split
    · refine issues_bind (load64_fits _) fun _ => ?_
      refine issues_bind (print_issues [.number] rfl rfl) fun _ => ?_
      exact issues_bind (load64_fits _) fun _ => trivial
    · refine issues_bind (load32_fits _) fun _ => ?_
      refine issues_bind (print_issues [.number] rfl rfl) fun _ => ?_
      exact issues_bind (load32_fits _) fun _ => trivial
  · trivial

theorem dumpXsdtInfo_fits (xsdt : UINTN) : Issues Op.PrintsFit (dumpXsdtInfo xsdt) := by
  have line : Issues Op.PrintsFit (print "\n" []) := print_issues [] rfl rfl
  refine issues_bind (print_issues [] rfl rfl) fun _ => ?_
  refine issues_bind (print_issues [.number] rfl rfl) fun _ => ?_
  refine issues_bind (print_issues [] rfl rfl) fun _ => ?_
  refine issues_bind (dumpChars_fits _ _) fun _ => issues_bind line fun _ => ?_
  refine issues_bind (dumpWord_fits rfl _) fun _ => ?_
  refine issues_bind (dumpByte_fits rfl _) fun _ => ?_
  refine issues_bind (dumpByte_fits rfl _) fun _ => ?_
  refine issues_bind (print_issues [] rfl rfl) fun _ => ?_
  refine issues_bind (dumpChars_fits _ _) fun _ => issues_bind line fun _ => ?_
  refine issues_bind (print_issues [] rfl rfl) fun _ => ?_
  refine issues_bind (dumpChars_fits _ _) fun _ => issues_bind line fun _ => ?_
  refine issues_bind (dumpWord_fits rfl _) fun _ => ?_
  refine issues_bind (dumpWord_fits rfl _) fun _ => ?_
  exact dumpWord_fits rfl _

theorem dumpDsdtInfo_fits (dsdt : UINTN) : Issues Op.PrintsFit (dumpDsdtInfo dsdt) := by
  unfold dumpDsdtInfo
  split
  · trivial
  refine issues_bind (print_issues [] rfl rfl) fun _ => ?_
  refine issues_bind (dumpChars_fits _ _) fun _ => ?_
  refine issues_bind (print_issues [] rfl rfl) fun _ => ?_
  refine issues_bind (dumpWord_fits rfl _) fun _ => ?_
  refine issues_bind (dumpByte_fits rfl _) fun _ => ?_
  refine issues_bind (dumpByte_fits rfl _) fun _ => ?_
  refine issues_bind (load32_fits _) fun _ => ?_
  exact print_issues [.number] rfl rfl

theorem printChars_fits (c : UINTN) (n : Int32) : Issues Op.PrintsFit (printChars c n) :=
  forInt_issues fun _ _ => issues_bind (load_fits _) fun _ =>
    print_issues [.number] rfl rfl

theorem findFadt_fits (xsdt : UINTN) (fuel i : Nat) :
    Issues Op.PrintsFit (findFadtFuel xsdt fuel i) := by
  induction fuel generalizing i with
  | zero => trivial
  | succ fuel inductionHypothesis =>
    refine issues_bind (load32_fits _) fun length => ?_
    split
    · refine issues_bind (load64_fits _) fun entry => ?_
      refine issues_bind (print_issues [.number, .number] rfl rfl) fun _ => ?_
      refine issues_bind (print_issues [.number] rfl rfl) fun _ => ?_
      refine issues_bind (printChars_fits _ _) fun _ => ?_
      refine issues_bind (print_issues [] rfl rfl) fun _ => ?_
      refine issues_bind (compareMem_fits _ _) fun order => ?_
      split
      · refine issues_bind (print_issues [] rfl rfl) fun _ => ?_
        exact issues_bind (print_issues [.number] rfl rfl) fun _ => trivial
      · exact inductionHypothesis _
    · trivial

theorem printHex_fits (archOps : Option Arch) (n : UINT8) :
    Issues Op.PrintsFit (printHex archOps n) := by
  have char : ∀ c, Issues Op.PrintsFit (printChar archOps c) := by
    intro c
    cases archOps with
    | none => trivial
    | some arch => exact issues_putChar.mpr trivial
  exact issues_bind (char _) fun _ => char _

theorem parseAml_fits (archOps : Option Arch) (aml : UINTN) (size : Int32) :
    Issues Op.PrintsFit (parseAml archOps aml size) := by
  refine issues_bind (issues_enter.mpr trivial) fun _ => ?_
  split
  · trivial
  refine issues_bind (printStr_fits _ _) fun _ => ?_
  refine issues_bind (forInt_issues fun i _ => ?_) fun _ => ?_
  · refine issues_bind (load_fits _) fun _ => ?_
    refine issues_bind (printHex_fits _ _) fun _ => ?_
    split
    · exact printStr_fits _ _
    · trivial
  · split
    · exact printStr_fits _ _
    · trivial

theorem dumpTables_fits (archOps : Option Arch) (xsdt : UINTN) :
    Issues Op.PrintsFit (dumpTables archOps xsdt) := by
  have fadt : Issues Op.PrintsFit (fadtOf xsdt) := by
    unfold fadtOf
    split
    · exact issues_bind (dumpXsdtInfo_fits _) fun _ => findFadt_fits _ _ _
    · trivial
  have dsdt : ∀ fadt, Issues Op.PrintsFit (dsdtOf fadt) := by
    intro fadt
    unfold dsdtOf
    split
    · refine issues_bind (load32_fits _) fun _ => ?_
      refine issues_bind (print_issues [.number] rfl rfl) fun _ => ?_
      exact issues_bind (load32_fits _) fun _ => trivial
    · trivial
  refine issues_bind fadt fun fadt => ?_
  refine issues_bind (dsdt fadt) fun dsdt => ?_
  refine issues_bind (issues_bind (dumpDsdtInfo_fits dsdt) fun _ => ?_) fun _ => trivial
  split
  · exact issues_bind (load32_fits _) fun _ => parseAml_fits _ _ _
  · trivial

theorem acpiDump_fits (archOps : Option Arch) (configurationTable : List EfiConfigurationTable) :
    Issues Op.PrintsFit (acpiDump archOps configurationTable) := by
  refine issues_bind (issues_call.mpr trivial) fun located => ?_
  show Issues Op.PrintsFit (if efiError located.1 then _ else _)
  split
  · exact issues_bind (print_issues [] rfl rfl) fun _ => halt_fits
  refine issues_bind (findAcpiTable_fits _ _ _) fun found => ?_
  split
  · exact issues_bind (print_issues [] rfl rfl) fun _ => trivial
  refine issues_bind (dumpTableSignature_fits _ _) fun _ => ?_
  refine issues_bind (findRsdpTables_fits _) fun tables => ?_
  split
  · exact issues_bind (print_issues [] rfl rfl) fun _ => trivial
  · exact issues_bind (checkDtbTable_fits _) fun _ => dumpTables_fits _ _

/-! ## Every run -/

/-- The call of `Print` an event stands for, if it is one, prints on every console. -/
def Event.Prints : Event → Prop
  | .service (.print format args) _ => ∀ modeAttribute behind,
      ∃ printed, iPrint modeAttribute (wide format ++ 0 :: behind) args = some printed
  | _ => True

theorem prints_of_fits {α σ : Type} (firmware : Firmware σ) {program : Packer α}
    (fits : Issues Op.PrintsFit program) (world : World σ) :
    world.Extends Event.Prints (exec (machine firmware) program world).state := by
  apply extends_of_issues
  apply issues_mono fits
  intro op fits
  cases op with
  | service call =>
    intro reply
    cases call with
    | print format args => exact fun modeAttribute behind => iPrint_of_checks fits modeAttribute behind
    | initializeLib imageHandle => trivial
    | setAttribute attr => trivial
    | getMemoryMap vars buffer => trivial
    | allocatePool poolType size buffer => trivial
    | exitBootServices imageHandle mapKey => trivial
    | locateProtocol protocol interface => trivial
    | getBootHartId this hartId => trivial
  | load address => trivial
  | store address byte => trivial
  | putChar char => trivial
  | hardware step => trivial
  | enter callee => trivial
  | spin => trivial

section Runs

variable {σ : Type} (firmware : Firmware σ) (world : World σ)

/-- Whatever the firmware answers, and whatever is in memory, each call of `Print` in a run of
    `efi_main`, of `parse_pe` or of `acpi_dump` finds its arguments: the library never takes
    one that was not passed, nor a number for a string. -/
theorem every_print_has_its_arguments (config : Config)
    (imageHandle : UINTN) (systemTable : EfiSystemTable) (uninitialised : UINTN)
    (efiFileStartAddr efiLoadAddr efiSize : UINTN) (archOps : Option Arch)
    (configurationTable : List EfiConfigurationTable) :
    world.Extends Event.Prints (exec (machine firmware)
        (efiMain config imageHandle systemTable uninitialised) world).state ∧
      world.Extends Event.Prints (exec (machine firmware)
        (parsePe efiFileStartAddr efiLoadAddr efiSize) world).state ∧
      world.Extends Event.Prints (exec (machine firmware)
        (acpiDump archOps configurationTable) world).state :=
  ⟨prints_of_fits firmware (efiMain_fits _ _ _ _) world,
    prints_of_fits firmware (parsePe_fits _ _ _) world,
    prints_of_fits firmware (acpiDump_fits _ _) world⟩

end Runs

end HvisorUefiPacker
