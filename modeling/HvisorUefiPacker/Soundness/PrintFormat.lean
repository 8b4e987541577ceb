import HvisorUefiPacker.Soundness.PrintNumbers
import HvisorUefiPacker.Soundness.PrintStream

/-! # The language of formats

A format is a list of pieces: characters, directives, and changes of the
attribute.  `Piece.source` is how a piece is written, `Piece.render` what it
shows for its arguments.  `_Print`, which knows of no pieces, shows exactly
what the pieces of its format render to.
-/

namespace HvisorUefiPacker.GnuEfi

open Numeral
open PrintState (SameSettings)

/-! ## Formats -/

inductive Emphasis where
  | normal
  | highlight
  | error
deriving DecidableEq

/-- What may stand between the `%` of a directive and its conversion. -/
inductive Flag where
  | zeroPad
  | leftAligned
  | commas
  | fieldWidth
  | long
  | stackWidth
  | width (number : Nat) (positive : 0 < number)
deriving DecidableEq

inductive Conversion where
  | percent
  | ascii
  | unicode
  | char
  | fixedHex
  | hex
  | unsigned
  | signed
deriving DecidableEq

namespace Flag

def source : Flag → List CHAR16
  | .zeroPad => [char16 '0']
  | .leftAligned => [char16 '-']
  | .commas => [char16 ',']
  | .fieldWidth => [char16 '.']
  | .long => [char16 'l']
  | .stackWidth => [char16 '*']
  | .width number _ => wide (toString number)

def isWidth : Flag → Bool
  | .width _ _ => true
  | _ => false

def startsWithDigit : Flag → Bool
  | .zeroPad => true
  | .width _ _ => true
  | _ => false

/-- A digit behind a width would belong to the width. -/
def Apart (first second : Flag) : Prop := first.isWidth = true → second.startsWithDigit = false

instance : DecidableRel Apart := fun first second =>
  inferInstanceAs (Decidable (first.isWidth = true → second.startsWithDigit = false))

def apply : Flag → PrintItem → List PrintArg → Option (PrintItem × List PrintArg)
  | .zeroPad, item, args => some ({ item with pad := char16 '0' }, args)
  | .leftAligned, item, args => some ({ item with padBefore := false }, args)
  | .commas, item, args => some ({ item with comma := true }, args)
  | .fieldWidth, item, args => some ({ item with widthParse := .fieldWidth }, args)
  | .long, item, args => some ({ item with long := true }, args)
  | .stackWidth, item, .number value :: args => some (item.setParsedWidth value, args)
  | .stackWidth, _, _ => none
  | .width number _, item, args => some (item.setParsedWidth (BitVec.ofNat 64 number), args)

end Flag

def applyFlags : List Flag → PrintItem → List PrintArg → Option (PrintItem × List PrintArg)
  | [], item, args => some (item, args)
  | flag :: rest, item, args => do
    let (item, args) ← flag.apply item args
    applyFlags rest item args

namespace Conversion

def source : Conversion → CHAR16
  | .percent => char16 '%'
  | .ascii => char16 'a'
  | .unicode => char16 's'
  | .char => char16 'c'
  | .fixedHex => char16 'X'
  | .hex => char16 'x'
  | .unsigned => char16 'u'
  | .signed => char16 'd'

/-- A signed number in decimal, in groups of three where commas are wanted. -/
def decimal (comma : Bool) (number : Int) : List CHAR16 :=
  let digits := wide (toString number.natAbs)
  (if number < 0 then [char16 '-'] else []) ++
    (if comma then grouped (char16 ',') digits else digits)

/-- The field a conversion makes of its argument. -/
def render : Conversion → PrintItem → List PrintArg → Option (List CHAR16 × List PrintArg)
  | .percent, item, args => some (field item [char16 '%'], args)
  | .ascii, item, .text chars :: args => some (field item (chars.map (·.setWidth 16)), args)
  | .unicode, item, .text chars :: args => some (field item (chars.map (·.setWidth 16)), args)
  | .char, item, .number value :: args => some (field item [value.setWidth 16], args)
  | .fixedHex, item, .number value :: args =>
    let wide := { item with width := if item.long then 16 else 8, pad := char16 '0' }
    some (field wide (numeral 16 hexSymbol (item.unsignedValue value).toNat), args)
  | .hex, item, .number value :: args =>
    some (field item (numeral 16 hexSymbol (item.unsignedValue value).toNat), args)
  | .unsigned, item, .number value :: args =>
    some (field item (decimal item.comma (item.unsignedValue value).toInt), args)
  | .signed, item, .number value :: args =>
    some (field item (decimal item.comma (item.signedValue value).toInt), args)
  | _, _, _ => none

end Conversion

/-- A directive.  Its emphasis holds for its own field only. -/
structure Directive where
  emphasis : Option Emphasis
  flags : List Flag
  conversion : Conversion
  apart : flags.IsChain Flag.Apart

/-- A literal is no `%`, which would start a directive, and no NUL. -/
inductive Piece where
  | literal (c : CHAR16) (plain : c ≠ 0 ∧ c ≠ char16 '%')
  | directive (parts : Directive)
  | colour (emphasis : Emphasis)

def Emphasis.source : Emphasis → CHAR16
  | .normal => char16 'n'
  | .highlight => char16 'h'
  | .error => char16 'e'

/-- The letter that sets an attribute for good. -/
def Emphasis.lasting : Emphasis → CHAR16
  | .normal => char16 'N'
  | .highlight => char16 'H'
  | .error => char16 'E'

def Directive.source (directive : Directive) : List CHAR16 :=
  char16 '%' :: directive.emphasis.toList.map Emphasis.source ++
    directive.flags.flatMap Flag.source ++ [directive.conversion.source]

def Piece.source : Piece → List CHAR16
  | .literal c _ => [c]
  | .directive parts => parts.source
  | .colour emphasis => [char16 '%', emphasis.lasting]

def source (pieces : List Piece) : List CHAR16 := pieces.flatMap Piece.source

/-! ## What the engine does with a piece -/

def PrintState.colour (state : PrintState) : Emphasis → UINTN
  | .normal => state.attrNorm
  | .highlight => state.attrHighlight
  | .error => state.attrError

/-- The state in front of the flags of a directive. -/
def emphasise (emphasis : Option Emphasis) (state : PrintState) : PrintState :=
  match emphasis with
  | none => { state with restoreAttr := 0 }
  | some emphasis => psetattr (state.colour emphasis) { state with restoreAttr := 0 }

def Piece.perform : Piece → PrintState → Option PrintState
  | .literal c _, state => some (pputc c state)
  | .directive parts, state => do
    let (item, args) ← applyFlags parts.flags {} state.args
    let (chars, args) ← parts.conversion.render item args
    return (leaveItem (pputs chars { emphasise parts.emphasis state with args := args })).2
  | .colour emphasis, state =>
    if state.colour emphasis = 0 then none
    else some { psetattr (state.colour emphasis) state with restoreAttr := 0 }

def performAll : List Piece → PrintState → Option PrintState
  | [], state => some state
  | piece :: rest, state => do
    let state ← piece.perform state
    performAll rest state

/-! ### Flags -/

/-- The item is being read: what follows is another flag, or the conversion. -/
def Mode.Reads (item : PrintItem) (mode : Mode) : Prop := mode = .item item ∨ mode = .digits item

theorem setParsedWidth_setParsedWidth (item : PrintItem) (first second : UINTN) :
    (item.setParsedWidth first).setParsedWidth second = item.setParsedWidth second := by
  cases parse : item.widthParse with
  | width => simp [PrintItem.setParsedWidth, parse]
  | fieldWidth => simp [PrintItem.setParsedWidth, parse]

theorem parsedWidth_setParsedWidth (item : PrintItem) (value : UINTN) :
    (item.setParsedWidth value).parsedWidth = value := by
  cases parse : item.widthParse with
  | width => simp [PrintItem.setParsedWidth, PrintItem.parsedWidth, parse]
  | fieldWidth => simp [PrintItem.setParsedWidth, PrintItem.parsedWidth, parse]

theorem decimalSymbol_value : ∀ digit < 10,
    (decimalSymbol digit).setWidth 64 - (char16 '0').setWidth 64 = BitVec.ofNat 64 digit := by
  decide

theorem decimalSymbol_isDigit : ∀ digit < 10,
    char16 '0' ≤ decimalSymbol digit ∧ decimalSymbol digit ≤ char16 '9' := by
  decide

theorem decimalSymbol_startsWidth : ∀ digit < 10, digit ≠ 0 →
    decimalSymbol digit ≠ 0 ∧ char16 '1' ≤ decimalSymbol digit ∧
      decimalSymbol digit ≤ char16 '9' := by
  decide

theorem readDigit_setParsedWidth (item : PrintItem) (number : Nat) {digit : Nat}
    (small : digit < 10) :
    (item.setParsedWidth (BitVec.ofNat 64 number)).readDigit (decimalSymbol digit) =
      item.setParsedWidth (BitVec.ofNat 64 (number * 10 + digit)) := by
  rw [PrintItem.readDigit, parsedWidth_setParsedWidth, setParsedWidth_setParsedWidth,
    BitVec.sub_eq_add_neg, BitVec.add_assoc, ← BitVec.sub_eq_add_neg,
    decimalSymbol_value digit small, BitVec.ofNat_add, BitVec.ofNat_mul]
  rfl

theorem printer_step (state : Mode × PrintState) (c : CHAR16) :
    printer.step state c = printStep state c := rfl

theorem goesOn_of_reads {item : PrintItem} {mode : Mode} (reads : mode.Reads item)
    (state : PrintState) (c : CHAR16) : printer.stops (mode, state) c = false := by
  rcases reads with rfl | rfl
  · simp [printer]
  · simp [printer]

/-- Unless it is a digit behind a width, a character of a directive goes to the `switch`. -/
theorem printStep_of_reads {item : PrintItem} {mode : Mode} (reads : mode.Reads item)
    (state : PrintState) {c : CHAR16}
    (apart : mode = .digits item → ¬(char16 '0' ≤ c ∧ c ≤ char16 '9')) :
    printStep (mode, state) c = itemStep item state c := by
  rcases reads with rfl | rfl
  · rfl
  · rw [printStep, if_neg (apart rfl)]

/-- The digits of a width. -/
theorem reads_width (item : PrintItem) (state : PrintState) (number : Nat) (positive : 0 < number) :
    printer.Reads (.item item, state) (wide (toString number))
      (.digits (item.setParsedWidth (BitVec.ofNat 64 number)), state) := by
  rw [wide_toString_eq]
  induction number using Nat.strongRecOn with
  | ind number inductionHypothesis =>
    by_cases small : number < 10
    · obtain ⟨nonzero, inRange⟩ := decimalSymbol_startsWidth number small (by omega)
      have first := readDigit_setParsedWidth item 0 small
      rw [Nat.zero_mul, Nat.zero_add] at first
      rw [numeral_of_lt small]
      apply Scanner.reads_singleton
      · exact goesOn_of_reads (.inl rfl) state _
      · rw [printer_step, printStep, itemStep, if_neg nonzero, if_pos inRange, ← first]
        rfl
    · have digit : number % 10 < 10 := Nat.mod_lt _ (by decide)
      have next := readDigit_setParsedWidth item (number / 10) digit
      rw [Nat.div_add_mod'] at next
      rw [numeral_eq_append (by decide) (by omega)]
      apply (inductionHypothesis (number / 10) (by omega) (by omega)).append
      apply Scanner.reads_singleton
      · exact goesOn_of_reads (.inr rfl) state _
      · rw [printer_step, printStep, if_pos (decimalSymbol_isDigit _ digit), next]

theorem itemStep_of_switch {item : PrintItem} {state : PrintState} {c : CHAR16}
    {result : PrintItem × UINTN × PrintState}
    (noWidth : c ≠ 0 ∧ ¬(char16 '1' ≤ c ∧ c ≤ char16 '9'))
    (switched : printSwitch c item state = some result) :
    itemStep item state c = some (afterSwitch result) := by
  rw [itemStep, if_neg noWidth.1, if_neg noWidth.2, switched]
  rfl

/-- What has neither given the item a text nor set `Attr` does not end the directive. -/
theorem afterSwitch_of_no_text {item : PrintItem} (unset : item.text = none) (state : PrintState) :
    afterSwitch (item, 0, state) = (.item item, state) := by
  rw [afterSwitch, unset]
  rfl

/-- A character that the `switch` only notes in the item. -/
theorem reads_noted {item item' : PrintItem} {mode : Mode} {state state' : PrintState}
    (c : CHAR16) (noWidth : c ≠ 0 ∧ ¬(char16 '1' ≤ c ∧ c ≤ char16 '9'))
    (reads : mode.Reads item)
    (apart : mode = .digits item → ¬(char16 '0' ≤ c ∧ c ≤ char16 '9'))
    (switched : printSwitch c item state = some (item', 0, state')) (unset : item'.text = none) :
    printer.Reads (mode, state) [c] (.item item', state') := by
  apply Scanner.reads_singleton
  · exact goesOn_of_reads reads state c
  · rw [printer_step, printStep_of_reads reads state apart, itemStep_of_switch noWidth switched,
      afterSwitch_of_no_text unset]

/-- One flag: the item it makes, and what may not follow it. -/
theorem reads_flag {flag : Flag} {item item' : PrintItem} {mode : Mode} {state : PrintState}
    {args : List PrintArg} (unset : item.text = none) (reads : mode.Reads item)
    (apart : mode = .digits item → flag.startsWithDigit = false)
    (applied : flag.apply item state.args = some (item', args)) :
    item'.text = none ∧ ∃ mode',
      printer.Reads (mode, state) flag.source (mode', { state with args := args }) ∧
        mode'.Reads item' ∧ (mode' = .digits item' → flag.isWidth = true) := by
  cases flag with
  | zeroPad =>
    cases applied
    have noDigits : mode ≠ .digits item := fun digits => by cases apart digits
    exact ⟨unset, _, reads_noted (char16 '0') (by decide) reads
      (fun digits => absurd digits noDigits) rfl unset, .inl rfl, fun none => by cases none⟩
  | leftAligned =>
    cases applied
    exact ⟨unset, _, reads_noted (char16 '-') (by decide) reads (fun _ => by decide) rfl unset,
      .inl rfl, fun none => by cases none⟩
  | commas =>
    cases applied
    exact ⟨unset, _, reads_noted (char16 ',') (by decide) reads (fun _ => by decide) rfl unset,
      .inl rfl, fun none => by cases none⟩
  | fieldWidth =>
    cases applied
    exact ⟨unset, _, reads_noted (char16 '.') (by decide) reads (fun _ => by decide) rfl unset,
      .inl rfl, fun none => by cases none⟩
  | long =>
    cases applied
    exact ⟨unset, _, reads_noted (char16 'l') (by decide) reads (fun _ => by decide) rfl unset,
      .inl rfl, fun none => by cases none⟩
  | stackWidth =>
    cases taken : state.args with
    | nil =>
      rw [taken] at applied
      cases applied
    | cons arg rest =>
      rw [taken] at applied
      cases arg with
      | text chars => cases applied
      | number value =>
        cases applied
        have found : vaNumber state = some (value, { state with args := args }) := by
          rw [vaNumber, taken]
        have switched : printSwitch (char16 '*') item state =
            some (item.setParsedWidth value, 0, { state with args := args }) := by
          show ((vaNumber state).bind fun taken =>
            some (item.setParsedWidth taken.1, (0 : UINTN), taken.2)) = _
          rw [found]
          rfl
        rw [← setParsedWidth_text item value] at unset
        exact ⟨unset, _, reads_noted (char16 '*') (by decide) reads (fun _ => by decide) switched
          unset, .inl rfl, fun none => by cases none⟩
  | width number positive =>
    cases applied
    have noDigits : mode ≠ .digits item := fun digits => by cases apart digits
    obtain rfl : mode = .item item := reads.resolve_right noDigits
    rw [← setParsedWidth_text item (BitVec.ofNat 64 number)] at unset
    exact ⟨unset, _, reads_width item state number positive, .inr rfl, fun _ => rfl⟩

/-- All the flags of a directive, in any order that keeps widths apart. -/
theorem reads_flags {flags : List Flag} {item item' : PrintItem} {mode : Mode}
    {state : PrintState} {args : List PrintArg} (unset : item.text = none)
    (reads : mode.Reads item) (chain : flags.IsChain Flag.Apart)
    (apart : mode = .digits item → ∀ flag ∈ flags.head?, flag.startsWithDigit = false)
    (applied : applyFlags flags item state.args = some (item', args)) :
    ∃ mode',
      printer.Reads (mode, state) (flags.flatMap Flag.source) (mode', { state with args := args }) ∧
        mode'.Reads item' := by
  induction flags generalizing item mode state with
  | nil =>
    cases applied
    exact ⟨mode, .nil, reads⟩
  | cons flag rest inductionHypothesis =>
    obtain ⟨⟨next, left⟩, first, others⟩ := Option.bind_eq_some_iff.mp applied
    obtain ⟨unsetNext, middle, head, readsNext, wasWidth⟩ :=
      reads_flag unset reads (fun digits => apart digits flag rfl) first
    have apartNext : middle = .digits next → ∀ flag ∈ rest.head?, flag.startsWithDigit = false := by
      intro digits second found
      cases rest with
      | nil => cases found
      | cons other others =>
        cases found
        exact (List.isChain_cons_cons.mp chain).1 (wasWidth digits)
    have remaining : applyFlags rest next ({ state with args := left } : PrintState).args =
        some (item', args) := others
    obtain ⟨mode', tail, readsLast⟩ :=
      inductionHypothesis unsetNext readsNext chain.tail apartNext remaining
    exact ⟨mode', head.append tail, readsLast⟩

/-! ### Conversions -/

theorem vaNumber_of_args {state : PrintState} {value : UINTN} {args : List PrintArg}
    (taken : state.args = .number value :: args) :
    vaNumber state = some (value, { state with args := args }) := by
  rw [vaNumber, taken]

theorem vaString_of_args {state : PrintState} {chars : List Byte} {args : List PrintArg}
    (taken : state.args = .text chars :: args) :
    vaString state = some (chars.map (·.setWidth 16), { state with args := args }) := by
  rw [vaString, taken]

theorem valueToString_eq_decimal (comma : Bool) (v : UINTN) :
    valueToString comma v = Conversion.decimal comma v.toInt :=
  valueToString_eq comma v

/-- The `switch` gives the item a text, and putting it out is the field. -/
theorem switch_of_conversion {conversion : Conversion} {item : PrintItem} {state : PrintState}
    {chars : List CHAR16} {args : List PrintArg}
    (rendered : conversion.render item state.args = some (chars, args)) :
    ∃ item' pw, printSwitch conversion.source item state =
        some (item', 0, { state with args := args }) ∧ item'.text = some pw ∧
      field item' pw = chars := by
  generalize taken : state.args = before at rendered
  have number : ∀ value, before = .number value :: args → ∀ next : UINTN → PrintItem,
      ((vaNumber state).bind fun taken => some (next taken.1, (0 : UINTN), taken.2)) =
        some (next value, 0, { state with args := args }) := by
    intro value first next
    rw [vaNumber_of_args (taken.trans first)]
    rfl
  have string : ∀ text, before = .text text :: args → ∀ next : List CHAR16 → PrintItem,
      ((vaString state).bind fun taken => some (next taken.1, (0 : UINTN), taken.2)) =
        some (next (text.map (·.setWidth 16)), 0, { state with args := args }) := by
    intro text first next
    rw [vaString_of_args (taken.trans first)]
    rfl
  unfold Conversion.render at rendered
  split at rendered
  case h_1 =>
    cases rendered
    rw [← taken]
    exact ⟨_, _, rfl, rfl, rfl⟩
  case h_2 text _ =>
    cases rendered
    exact ⟨_, _, string text rfl fun pw => { item with text := some pw }, rfl, rfl⟩
  case h_3 text _ =>
    cases rendered
    exact ⟨_, _, string text rfl fun pw => { item with text := some pw }, rfl, rfl⟩
  case h_4 value _ =>
    cases rendered
    exact ⟨_, _, number value rfl fun value => { item with text := some [value.setWidth 16] }, rfl,
      rfl⟩
  case h_5 value _ =>
    cases rendered
    rw [← valueToHex_eq]
    exact ⟨_, _, number value rfl fun value =>
      { item with
        width := if item.long then 16 else 8
        pad := char16 '0'
        text := some (valueToHex (item.unsignedValue value)) }, rfl, rfl⟩
  case h_6 value _ =>
    cases rendered
    rw [← valueToHex_eq]
    exact ⟨_, _, number value rfl fun value =>
      { item with text := some (valueToHex (item.unsignedValue value)) }, rfl, rfl⟩
  case h_7 value _ =>
    cases rendered
    rw [← valueToString_eq_decimal]
    exact ⟨_, _, number value rfl fun value =>
      { item with text := some (valueToString item.comma (item.unsignedValue value)) }, rfl, rfl⟩
  case h_8 value _ =>
    cases rendered
    rw [← valueToString_eq_decimal]
    exact ⟨_, _, number value rfl fun value =>
      { item with text := some (valueToString item.comma (item.signedValue value)) }, rfl, rfl⟩
  case h_9 => cases rendered

theorem conversion_noWidth (conversion : Conversion) :
    conversion.source ≠ 0 ∧
      ¬(char16 '0' ≤ conversion.source ∧ conversion.source ≤ char16 '9') := by
  cases conversion <;> decide

theorem reads_conversion {conversion : Conversion} {item : PrintItem} {mode : Mode}
    {state : PrintState} {chars : List CHAR16} {args : List PrintArg} (reads : mode.Reads item)
    (rendered : conversion.render item state.args = some (chars, args)) :
    printer.Reads (mode, state) [conversion.source]
      (leaveItem (pputs chars { state with args := args })) := by
  obtain ⟨item', pw, switched, text, shown⟩ := switch_of_conversion rendered
  obtain ⟨nonzero, noDigit⟩ := conversion_noWidth conversion
  have noWidth : ¬(char16 '1' ≤ conversion.source ∧ conversion.source ≤ char16 '9') :=
    fun range => noDigit ⟨BitVec.le_trans (by decide) range.1, range.2⟩
  apply Scanner.reads_singleton
  · exact goesOn_of_reads reads state _
  · rw [printer_step, printStep_of_reads reads state fun _ => noDigit,
      itemStep_of_switch ⟨nonzero, noWidth⟩ switched, afterSwitch, text]
    dsimp only
    rw [pitem_eq, shown]

/-! ### Pieces -/

theorem reads_percent (state : PrintState) :
    printer.Reads (.text, state) [char16 '%'] (.item {}, { state with restoreAttr := 0 }) := by
  apply Scanner.reads_singleton
  · simp [printer, char16]
  · rw [printer_step, printStep, if_neg (by simp)]

theorem reads_emphasis (emphasis : Option Emphasis) (state : PrintState) :
    printer.Reads (.text, state) ([char16 '%'] ++ emphasis.toList.map Emphasis.source)
      (.item {}, emphasise emphasis state) := by
  apply (reads_percent state).append
  cases emphasis with
  | none => exact .nil
  | some emphasis =>
    cases emphasis with
    | normal => exact reads_noted (char16 'n') (by decide) (.inl rfl) (fun _ => by decide) rfl rfl
    | highlight =>
      exact reads_noted (char16 'h') (by decide) (.inl rfl) (fun _ => by decide) rfl rfl
    | error => exact reads_noted (char16 'e') (by decide) (.inl rfl) (fun _ => by decide) rfl rfl

theorem emphasise_args (emphasis : Option Emphasis) (state : PrintState) :
    (emphasise emphasis state).args = state.args := by
  cases emphasis with
  | none => rfl
  | some emphasis => rfl

theorem reads_directive {directive : Directive} {state state' : PrintState}
    (performed : (Piece.directive directive).perform state = some state') :
    printer.Reads (.text, state) directive.source (.text, state') := by
  obtain ⟨⟨item, args⟩, applied, converted⟩ := Option.bind_eq_some_iff.mp performed
  obtain ⟨⟨chars, left⟩, rendered, result⟩ := Option.bind_eq_some_iff.mp converted
  cases result
  rw [← emphasise_args directive.emphasis state] at applied
  obtain ⟨mode, flags, reads⟩ :=
    reads_flags rfl (.inl rfl) directive.apart (fun none => by cases none) applied
  have converts : directive.conversion.render item
      ({ emphasise directive.emphasis state with args := args } : PrintState).args =
        some (chars, left) := rendered
  exact ((reads_emphasis directive.emphasis state).append flags).append
    (reads_conversion reads converts)

theorem reads_colour {emphasis : Emphasis} {state : PrintState}
    (lasting : state.colour emphasis ≠ 0) :
    printer.Reads (.text, state) [char16 '%', emphasis.lasting]
      (.text, { psetattr (state.colour emphasis) state with restoreAttr := 0 }) := by
  have percent := reads_percent state
  have ends : ∀ c, c ≠ 0 ∧ ¬(char16 '1' ≤ c ∧ c ≤ char16 '9') →
      printSwitch c {} { state with restoreAttr := 0 } =
        some ({}, state.colour emphasis, { state with restoreAttr := 0 }) →
      printer.Reads (.item {}, { state with restoreAttr := 0 }) [c]
        (.text, { psetattr (state.colour emphasis) state with restoreAttr := 0 }) := by
    intro c noWidth switched
    apply Scanner.reads_singleton
    · exact goesOn_of_reads (.inl rfl) _ c
    · rw [printer_step, printStep, itemStep_of_switch noWidth switched, afterSwitch]
      dsimp only
      rw [if_pos lasting]
      rfl
  cases emphasis with
  | normal => exact percent.append (ends (char16 'N') (by decide) rfl)
  | highlight => exact percent.append (ends (char16 'H') (by decide) rfl)
  | error => exact percent.append (ends (char16 'E') (by decide) rfl)

theorem reads_piece {piece : Piece} {state state' : PrintState}
    (performed : piece.perform state = some state') :
    printer.Reads (.text, state) piece.source (.text, state') := by
  cases piece with
  | literal c plain =>
    cases performed
    apply Scanner.reads_singleton
    · simpa [printer] using plain.1
    · rw [printer_step, printStep, if_pos plain.2]
  | directive directive => exact reads_directive performed
  | colour emphasis =>
    rw [Piece.perform] at performed
    split at performed
    · cases performed
    · cases performed
      exact reads_colour ‹_›

theorem reads_source {pieces : List Piece} {state state' : PrintState}
    (performed : performAll pieces state = some state') :
    printer.Reads (.text, state) (source pieces) (.text, state') := by
  induction pieces generalizing state with
  | nil =>
    cases performed
    exact .nil
  | cons piece rest inductionHypothesis =>
    obtain ⟨next, first, others⟩ := Option.bind_eq_some_iff.mp performed
    exact (reads_piece first).append (inductionHypothesis others)

/-- `_Print` of a format, whatever lies behind its NUL. -/
theorem printFormat_source {pieces : List Piece} {state state' : PrintState}
    (performed : performAll pieces state = some state') (behind : List CHAR16) :
    printFormat (source pieces ++ 0 :: behind) state = some (pflush state') := by
  rw [printFormat, Scanner.run_append (reads_source performed), Scanner.run_of_stops (by simp [printer])]
  rfl

/-! ## What a format shows -/

/-- The attributes as a format sees them, and whether changing them shows. -/
structure Ink where
  colour : Emphasis → UINTN
  visible : Bool

def PrintState.ink (state : PrintState) : Ink := ⟨state.colour, state.hasSetAttr⟩

def Ink.change (ink : Ink) (attr : UINTN) : List Shown :=
  if ink.visible then [.attr attr] else []

/-- A field with its emphasis where the attribute is `attr`, and the attribute behind
    it.  An attribute of 0 stands for none, and is not brought back. -/
def Ink.emphasised (ink : Ink) (emphasis : Option Emphasis) (attr : UINTN) (text : List Shown) :
    List Shown × UINTN :=
  match emphasis with
  | none => (text, attr)
  | some emphasis =>
    let colour := ink.colour emphasis
    if attr = 0 then (ink.change colour ++ text, colour)
    else (ink.change colour ++ text ++ ink.change attr, attr)

/-- What a piece shows where the attribute is `attr`, and the attribute behind it. -/
def Piece.render (ink : Ink) :
    Piece → UINTN → List PrintArg → Option (List Shown × UINTN × List PrintArg)
  | .literal c _, attr, args => some ((lineEnd c).map .char, attr, args)
  | .directive parts, attr, args => do
    let (item, args) ← applyFlags parts.flags {} args
    let (chars, args) ← parts.conversion.render item args
    let (shown, attr) := ink.emphasised parts.emphasis attr ((lineEnds chars).map .char)
    return (shown, attr, args)
  | .colour emphasis, _, args =>
    if ink.colour emphasis = 0 then none
    else some (ink.change (ink.colour emphasis), ink.colour emphasis, args)

def renderAll (ink : Ink) :
    List Piece → UINTN → List PrintArg → Option (List Shown × UINTN × List PrintArg)
  | [], attr, args => some ([], attr, args)
  | piece :: rest, attr, args => do
    let (first, attr, args) ← piece.render ink attr args
    let (others, attr, args) ← renderAll ink rest attr args
    return (first ++ others, attr, args)

/-- `state'` is where `state` gets by showing `shown`. -/
structure Shows (state : PrintState) (shown : List Shown) (attr : UINTN) (args : List PrintArg)
    (state' : PrintState) : Prop where
  shown : state'.shown = state.shown ++ shown
  attr : state'.attr = attr
  args : state'.args = args
  ink : state'.ink = state.ink

theorem PrintState.SameSettings.ink {state state' : PrintState}
    (settings : SameSettings state state') : state'.ink = state.ink := by
  rw [settings]
  rfl

theorem shows_pputs (chars : List CHAR16) (state : PrintState) :
    Shows state ((lineEnds chars).map .char) state.attr state.args (pputs chars state) := by
  have settings := pputs_settings chars state
  constructor
  · exact pputs_shown chars state
  · rw [settings]
  · rw [settings]
  · exact settings.ink

theorem shows_psetattr (attr : UINTN) (state : PrintState) :
    Shows state (state.ink.change attr) attr state.args (psetattr attr state) := by
  constructor
  · exact psetattr_shown attr state
  · rfl
  · rfl
  · rfl

theorem Shows.trans {state middle state' : PrintState} {first second : List Shown}
    {attr attr' : UINTN} {args args' : List PrintArg} (former : Shows state first attr args middle)
    (latter : Shows middle second attr' args' state') :
    Shows state (first ++ second) attr' args' state' := by
  constructor
  · rw [latter.shown, former.shown, List.append_assoc]
  · exact latter.attr
  · exact latter.args
  · rw [latter.ink, former.ink]

theorem pputs_restoreAttr (chars : List CHAR16) (state : PrintState) :
    (pputs chars state).restoreAttr = state.restoreAttr := by
  rw [pputs_settings chars state]

theorem leaveItem_of_zero {state : PrintState} (none : state.restoreAttr = 0) :
    leaveItem state = (.text, state) := by
  rw [leaveItem, if_neg (by simpa using none)]

theorem leaveItem_of_ne_zero {state : PrintState} (some : state.restoreAttr ≠ 0) :
    leaveItem state = (.text, psetattr state.restoreAttr state) := by
  rw [leaveItem, if_pos some]

theorem shows_field (emphasis : Option Emphasis) (chars : List CHAR16) (state : PrintState) :
    let emphasised := state.ink.emphasised emphasis state.attr ((lineEnds chars).map .char)
    Shows state emphasised.1 emphasised.2 state.args
      (leaveItem (pputs chars (emphasise emphasis state))).2 := by
  cases emphasis with
  | none =>
    have text := shows_pputs chars (emphasise none state)
    rw [leaveItem_of_zero (pputs_restoreAttr chars _)]
    exact ⟨text.shown, text.attr, text.args, text.ink⟩
  | some emphasis =>
    have colour := shows_psetattr (state.colour emphasis) { state with restoreAttr := 0 }
    have text := shows_pputs chars (emphasise (some emphasis) state)
    have both := colour.trans text
    have restore : (pputs chars (emphasise (some emphasis) state)).restoreAttr = state.attr :=
      pputs_restoreAttr chars _
    by_cases zero : state.attr = 0
    · rw [leaveItem_of_zero (restore.trans zero), Ink.emphasised]
      dsimp only
      rw [if_pos zero]
      exact ⟨both.shown, both.attr, both.args, both.ink⟩
    · have back := both.trans (shows_psetattr state.attr _)
      rw [leaveItem_of_ne_zero (fun none => zero (restore.symm.trans none)), restore,
        Ink.emphasised]
      dsimp only
      rw [if_neg zero]
      rw [both.ink] at back
      exact ⟨back.shown, back.attr, back.args.trans both.args, back.ink⟩

theorem emphasise_of_args (emphasis : Option Emphasis) (state : PrintState)
    (args : List PrintArg) :
    { emphasise emphasis state with args := args } =
      emphasise emphasis { state with args := args } := by
  cases emphasis with
  | none => rfl
  | some emphasis => rfl

/-- A piece that renders is performed, and shows what it renders to. -/
theorem performs_piece {piece : Piece} {state : PrintState} {shown : List Shown} {attr : UINTN}
    {args : List PrintArg}
    (rendered : piece.render state.ink state.attr state.args = some (shown, attr, args)) :
    ∃ state', piece.perform state = some state' ∧ Shows state shown attr args state' := by
  cases piece with
  | literal c plain =>
    cases rendered
    have text := shows_pputs [c] state
    rw [lineEnds, List.flatMap_singleton] at text
    exact ⟨pputc c state, rfl, text⟩
  | directive directive =>
    obtain ⟨⟨item, left⟩, applied, converted⟩ := Option.bind_eq_some_iff.mp rendered
    obtain ⟨⟨chars, rest⟩, field, result⟩ := Option.bind_eq_some_iff.mp converted
    have shows := shows_field directive.emphasis chars { state with args := rest }
    cases result
    refine ⟨_, ?_, ⟨shows.shown, shows.attr, shows.args, shows.ink⟩⟩
    rw [← emphasise_of_args, Piece.perform, applied]
    show (directive.conversion.render item left).bind _ = _
    rw [field]
    rfl
  | colour emphasis =>
    rw [Piece.render] at rendered
    split at rendered
    · cases rendered
    · rename_i lasting
      cases rendered
      have colour := shows_psetattr (state.colour emphasis) state
      refine ⟨{ psetattr (state.colour emphasis) state with restoreAttr := 0 }, ?_,
        ⟨colour.shown, colour.attr, colour.args, colour.ink⟩⟩
      exact if_neg lasting

theorem performs_all {pieces : List Piece} {state : PrintState} {shown : List Shown}
    {attr : UINTN} {args : List PrintArg}
    (rendered : renderAll state.ink pieces state.attr state.args = some (shown, attr, args)) :
    ∃ state', performAll pieces state = some state' ∧ Shows state shown attr args state' := by
  induction pieces generalizing state shown with
  | nil =>
    cases rendered
    exact ⟨state, rfl, (List.append_nil _).symm, rfl, rfl, rfl⟩
  | cons piece rest inductionHypothesis =>
    obtain ⟨⟨first, attrFirst, argsFirst⟩, head, tail⟩ := Option.bind_eq_some_iff.mp rendered
    obtain ⟨⟨others, attrLast, argsLast⟩, remaining, result⟩ := Option.bind_eq_some_iff.mp tail
    cases result
    obtain ⟨middle, performed, shows⟩ := performs_piece head
    rw [← shows.attr, ← shows.args, ← shows.ink] at remaining
    obtain ⟨final, performedRest, showsRest⟩ := inductionHypothesis remaining
    refine ⟨final, ?_, shows.trans showsRest⟩
    rw [performAll, performed]
    exact performedRest

/-- `Print` shows what its format renders to, and returns how many characters that is.  It
    does so for every format of pieces, whatever the attribute of the console, and wherever
    the arguments are what the directives ask for. -/
theorem iPrint_shows {modeAttribute : UINT32} {pieces : List Piece} {args rest : List PrintArg}
    {shown : List Shown} {attr : UINTN}
    (rendered : renderAll (consoleState modeAttribute args).ink pieces
      (modeAttribute.signExtend 64) args = some (shown, attr, rest))
    (behind : List CHAR16) :
    ∃ calls, iPrint modeAttribute (source pieces ++ 0 :: behind) args =
        some (BitVec.ofNat 64 (shownText shown).length, calls) ∧ shownCalls calls = shown := by
  have start : (consoleState modeAttribute args).shown = [] := rfl
  have initial : renderAll (consoleState modeAttribute args).ink pieces
      (consoleState modeAttribute args).attr (consoleState modeAttribute args).args =
        some (shown, attr, rest) := rendered
  obtain ⟨final, performed, shows⟩ := performs_all initial
  have printed := printFormat_source performed behind
  obtain ⟨sound, -⟩ := printFormat_wellPrinted rfl rfl rfl rfl printed
  have text : (pflush final).shown = shown := by
    rw [pflush_shown, shows.shown, start, List.nil_append]
  refine ⟨(pflush final).calls, ?_, ?_⟩
  · rw [iPrint, printed, Option.map_some, sound.buffered.len, text]
  · rw [← text]
    simp [PrintState.shown, pflush]

/-- `"%e04sb"`, with light gray for the text around. -/
theorem iPrint_shows_padded :
    ∃ calls, iPrint 0x07 (source [
          .directive ⟨some .error, [.zeroPad, .width 4 (by decide)], .unicode, by decide⟩,
          .literal (char16 'b') (by decide)] ++ 0 :: []) [.text [0x61]] =
        some (BitVec.ofNat 64 (shownText (.attr 0x0e ::
          (wide "000a").map Shown.char ++ [.attr 0x07, .char (char16 'b')])).length, calls) ∧
      shownCalls calls =
        .attr 0x0e :: (wide "000a").map Shown.char ++ [.attr 0x07, .char (char16 'b')] :=
  iPrint_shows rfl []

end HvisorUefiPacker.GnuEfi
