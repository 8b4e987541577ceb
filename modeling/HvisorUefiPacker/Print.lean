import HvisorUefiPacker.Library.Numeral
import HvisorUefiPacker.Library.Scan
import HvisorUefiPacker.Machine

/-! # print.c

The formatted output of the EFI library.  `_Print` goes through the format
character by character: `printStep` is what one character does, and the
`Scanner` stops at a NUL outside of a directive.  The format is given with the
memory behind it, for a directive that the end of the format cuts off swallows
the NUL, and the loop goes on there.

`none` stands for a run that has no meaning here: the format ran off the memory
given, an argument was missing or was a number where a pointer was needed, or
the directive was one of `%f`, `%g`, `%t`, `%D` and `%r`.
-/

namespace HvisorUefiPacker.GnuEfi

open ByteMemory

abbrev CHAR16 := BitVec 16

def char16 (char : Char) : CHAR16 := BitVec.ofNat 16 char.toNat

/-- The characters of an `L"..."` literal, without its NUL. -/
def wide (text : String) : List CHAR16 := text.toList.map char16

/-! ## Numbers -/

/-- The table `Hex`. -/
def hexChar (digit : UINTN) : CHAR16 := (wide "0123456789ABCDEF").getD digit.toNat 0

/-- `while (v)` of `ValueToHex`: what it leaves in `str`.  Sixteen rounds are enough. -/
def hexDigits : Nat → UINTN → List CHAR16
  | 0, _ => []
  | rounds + 1, v => if v = 0 then [] else hexChar (v &&& 0xf) :: hexDigits rounds (v >>> 4)

def valueToHex (v : UINTN) : List CHAR16 :=
  if v = 0 then [char16 '0'] else (hexDigits 16 v).reverse

/-- `while (v)` of `ValueToString`.  Twenty rounds are enough. -/
def decimalDigits : Nat → UINTN → List CHAR16
  | 0, _ => []
  | rounds + 1, v =>
    if v = 0 then []
    else ((v % 10).setWidth 8 + (char16 '0').setWidth 8).setWidth 16 :: decimalDigits rounds (v / 10)

/-- `while (p1 != str)` of `ValueToString`, with its counter of digits up to a comma. -/
def putDigits : Nat → List CHAR16 → List CHAR16
  | _, [] => []
  | c, digit :: rest =>
    if c - 1 = 0 then char16 ',' :: digit :: putDigits 3 rest
    else digit :: putDigits (c - 1) rest

/-- `v` is an `INT64`: a number from 2^63 on has a sign. -/
def valueToString (comma : Bool) (v : UINTN) : List CHAR16 :=
  if v = 0 then [char16 '0']
  else
    let digits := decimalDigits 20 (if v.msb then -v else v)
    let c := (if comma then [3, 1, 2].getD (digits.length % 3) 0 else 999) + 1
    (if v.msb then [char16 '-'] else []) ++ putDigits c digits.reverse

/-! ## PRINT_ITEM and PRINT_STATE -/

/-- `WidthParse`: the field a width in the format goes to. -/
inductive WidthField where
  | width
  | fieldWidth
deriving DecidableEq

/-- `PRINT_ITEM`, as `_Print` sets it up.  `text` is the string `Item.pw` points to. -/
structure PrintItem where
  text : Option (List CHAR16) := none
  width : UINTN := 0
  fieldWidth : UINTN := -1
  widthParse : WidthField := .width
  pad : CHAR16 := char16 ' '
  padBefore : Bool := true
  comma : Bool := false
  long : Bool := false
deriving DecidableEq

namespace PrintItem

/-- `*Item.WidthParse` -/
def parsedWidth (item : PrintItem) : UINTN :=
  match item.widthParse with
  | .width => item.width
  | .fieldWidth => item.fieldWidth

/-- `*Item.WidthParse = value` -/
def setParsedWidth (item : PrintItem) (value : UINTN) : PrintItem :=
  match item.widthParse with
  | .width => { item with width := value }
  | .fieldWidth => { item with fieldWidth := value }

/-- `*Item.WidthParse = *Item.WidthParse * 10 + c - '0'` -/
def readDigit (item : PrintItem) (c : CHAR16) : PrintItem :=
  item.setParsedWidth (item.parsedWidth * 10 + c.setWidth 64 - (char16 '0').setWidth 64)

/-- `Item.Long ? va_arg(ps->args, UINT64) : va_arg(ps->args, UINT32)` -/
def unsignedValue (item : PrintItem) (value : UINTN) : UINTN :=
  if item.long then value else (value.setWidth 32).setWidth 64

/-- `Item.Long ? va_arg(ps->args, INT64) : va_arg(ps->args, INT32)` -/
def signedValue (item : PrintItem) (value : UINTN) : UINTN :=
  if item.long then value else (value.setWidth 32).signExtend 64

end PrintItem

/-- The calls `_Print` makes of the functions it is given. -/
inductive ConsoleCall where
  | output (buffer : List CHAR16)
  | setAttr (attr : UINTN)
deriving DecidableEq

/-- `PRINT_STATE`.  `buffer` is `Buffer` up to `Pos`, and `calls` are the calls so far. -/
structure PrintState where
  args : List PrintArg
  buffer : List CHAR16 := []
  len : UINTN := 0
  attr : UINTN := 0
  restoreAttr : UINTN := 0
  attrNorm : UINTN := 0
  attrHighlight : UINTN := 0
  attrError : UINTN := 0
  hasSetAttr : Bool := false
  calls : List ConsoleCall := []
deriving DecidableEq

/-- `PRINT_STRING_LEN` -/
def printStringLen : Nat := 200

def pflush (state : PrintState) : PrintState :=
  { state with buffer := [], calls := state.calls ++ [.output state.buffer] }

def psetattr (attr : UINTN) (state : PrintState) : PrintState :=
  let state := pflush state
  { state with
    restoreAttr := state.attr
    calls := state.calls ++ (if state.hasSetAttr then [.setAttr attr] else [])
    attr := attr }

/-- `PPUTC` of anything but a line feed. -/
def putChar16 (c : CHAR16) (state : PrintState) : PrintState :=
  let state := { state with buffer := state.buffer ++ [c], len := state.len + 1 }
  if state.buffer.length ≥ printStringLen - 1 then pflush state else state

def pputc (c : CHAR16) (state : PrintState) : PrintState :=
  if c = char16 '\n' then putChar16 c (putChar16 (char16 '\r') state) else putChar16 c state

def pputs (chars : List CHAR16) (state : PrintState) : PrintState :=
  chars.foldl (fun state c => pputc c state) state

/-- `PITEM` of an item whose text is `pw`. -/
def pitem (item : PrintItem) (pw : List CHAR16) (state : PrintState) : PrintState :=
  let text := (pw.takeWhile (· ≠ 0)).take item.fieldWidth.toNat
  let len := BitVec.ofNat 64 text.length
  let fieldWidth := if item.fieldWidth = -1 then len else item.fieldWidth
  let width := if len > item.width then len else item.width
  let spaces := List.replicate (fieldWidth.toNat - width.toNat) (char16 ' ')
  let state := if item.padBefore then pputs spaces state else state
  let state := pputs (List.replicate (width.toNat - len.toNat) item.pad) state
  let state := pputs text state
  if item.padBefore then state else pputs spaces state

/-! ## Arguments -/

/-- `va_arg` of an integer. -/
def vaNumber (state : PrintState) : Option (UINTN × PrintState) :=
  match state.args with
  | .number value :: rest => some (value, { state with args := rest })
  | _ => none

/-- `va_arg` of a string, NULL replaced. -/
def vaString (state : PrintState) : Option (List CHAR16 × PrintState) :=
  match state.args with
  | .text chars :: rest => some (chars.map (·.setWidth 16), { state with args := rest })
  | .number pointer :: rest =>
    if pointer = 0 then some (wide "(null)", { state with args := rest }) else none
  | [] => none

/-! ## _Print -/

/-- The `switch` without its cases `'1'` to `'9'`: the item, `Attr` and the state it leaves. -/
def printSwitch (c : CHAR16) (item : PrintItem) (state : PrintState) :
    Option (PrintItem × UINTN × PrintState) :=
  match Char.ofNat c.toNat with
  | '%' => some ({ item with text := some [char16 '%'] }, 0, state)
  | '0' => some ({ item with pad := char16 '0' }, 0, state)
  | '-' => some ({ item with padBefore := false }, 0, state)
  | ',' => some ({ item with comma := true }, 0, state)
  | '.' => some ({ item with widthParse := .fieldWidth }, 0, state)
  | '*' => do
    let (value, state) ← vaNumber state
    return (item.setParsedWidth value, 0, state)
  | 'a' => do
    let (chars, state) ← vaString state
    return ({ item with text := some chars }, 0, state)
  | 's' => do
    let (chars, state) ← vaString state
    return ({ item with text := some chars }, 0, state)
  | 'c' => do
    let (value, state) ← vaNumber state
    return ({ item with text := some [value.setWidth 16] }, 0, state)
  | 'l' => some ({ item with long := true }, 0, state)
  | 'X' => do
    let (value, state) ← vaNumber state
    let item := { item with width := if item.long then 16 else 8, pad := char16 '0' }
    return ({ item with text := some (valueToHex (item.unsignedValue value)) }, 0, state)
  | 'x' => do
    let (value, state) ← vaNumber state
    return ({ item with text := some (valueToHex (item.unsignedValue value)) }, 0, state)
  | 'u' => do
    let (value, state) ← vaNumber state
    let text := valueToString item.comma (item.unsignedValue value)
    return ({ item with text := some text }, 0, state)
  | 'd' => do
    let (value, state) ← vaNumber state
    let text := valueToString item.comma (item.signedValue value)
    return ({ item with text := some text }, 0, state)
  | 'n' => some (item, 0, psetattr state.attrNorm state)
  | 'h' => some (item, 0, psetattr state.attrHighlight state)
  | 'e' => some (item, 0, psetattr state.attrError state)
  | 'N' => some (item, state.attrNorm, state)
  | 'H' => some (item, state.attrHighlight, state)
  | 'E' => some (item, state.attrError, state)
  | 'f' => none
  | 'g' => none
  | 't' => none
  | 'D' => none
  | 'r' => none
  | _ => some ({ item with text := some [char16 '?'] }, 0, state)

/-- Where the loop stands: outside of a directive, in the inner loop, or in the loop
    over the digits of a width.  `Attr` is 0 whenever the inner loop goes round, for it
    is left when the `switch` has set it. -/
inductive Mode where
  | text
  | item (item : PrintItem)
  | digits (item : PrintItem)
deriving DecidableEq

/-- Behind the inner loop. -/
def leaveItem (state : PrintState) : Mode × PrintState :=
  (.text, if state.restoreAttr ≠ 0 then psetattr state.restoreAttr state else state)

/-- The two tests behind the `switch`. -/
def afterSwitch : PrintItem × UINTN × PrintState → Mode × PrintState
  | (item, attr, state) =>
    match item.text with
    | some pw => leaveItem (pitem item pw state)
    | none =>
      if attr ≠ 0 then leaveItem { psetattr attr state with restoreAttr := 0 }
      else (.item item, state)

/-- One round of the inner loop. -/
def itemStep (item : PrintItem) (state : PrintState) (c : CHAR16) : Option (Mode × PrintState) :=
  if c = 0 then some (leaveItem state)
  else if char16 '1' ≤ c ∧ c ≤ char16 '9' then
    some (.digits ((item.setParsedWidth 0).readDigit c), state)
  else (printSwitch c item state).map afterSwitch

/-- `_Print` after a character; the character that ends a width is read again. -/
def printStep : Mode × PrintState → CHAR16 → Option (Mode × PrintState)
  | (.text, state), c =>
    if c ≠ char16 '%' then some (.text, pputc c state)
    else some (.item {}, { state with restoreAttr := 0 })
  | (.item item, state), c => itemStep item state c
  | (.digits item, state), c =>
    if char16 '0' ≤ c ∧ c ≤ char16 '9' then some (.digits (item.readDigit c), state)
    else itemStep item state c

def printer : Scanner (Mode × PrintState) CHAR16 where
  step := printStep
  stops := fun (mode, _) c => mode = .text ∧ c = 0

/-- `_Print`: the state it leaves, `Len` and the calls in it. -/
def printFormat (fmt : List CHAR16) (state : PrintState) : Option PrintState :=
  (printer.run (.text, state) fmt).map fun (_, state) => pflush state

/-! ## Print -/

/-- `EFI_TEXT_ATTR` -/
def efiTextAttr (foreground background : UINTN) : UINTN := foreground ||| background <<< 4

def efiLightGrayColour : UINTN := 0x07
def efiYellow : UINTN := 0x0e
def efiWhite : UINTN := 0x0f

/-- The state `_IPrint` sets up for a console whose mode has that attribute. -/
def consoleState (modeAttribute : UINT32) (args : List PrintArg) : PrintState :=
  let attr := modeAttribute.signExtend 64
  let back := (attr >>> 4) &&& 0xf
  { args := args
    attr := attr
    attrNorm := efiTextAttr efiLightGrayColour back
    attrHighlight := efiTextAttr efiWhite back
    attrError := efiTextAttr efiYellow back
    hasSetAttr := true }

/-- `_IPrint` without a cursor position, as `Print` calls it. -/
def iPrint (modeAttribute : UINT32) (fmt : List CHAR16) (args : List PrintArg) :
    Option (UINTN × List ConsoleCall) :=
  (printFormat fmt (consoleState modeAttribute args)).map fun state => (state.len, state.calls)

/-! ## UnicodeSPrint -/

/-- `POOL_PRINT`.  `str` is the memory from `str` on, character by character. -/
structure PoolPrint where
  str : Memory 64 CHAR16
  len : UINTN
  maxlen : UINTN

def strLen (buffer : List CHAR16) : UINTN := BitVec.ofNat 64 (buffer.takeWhile (· ≠ 0)).length

/-- `_SPrint` -/
def sPrint (spc : PoolPrint) (buffer : List CHAR16) : PoolPrint :=
  let len := strLen buffer
  let len := if spc.len + len > spc.maxlen then spc.maxlen - spc.len else len
  let str := writeBytes spc.str spc.len (buffer.take len.toNat)
  let newLen := spc.len + len
  { spc with
    len := newLen
    str :=
      if newLen < spc.maxlen then Function.update str newLen 0
      else if spc.maxlen ≠ 0 then Function.update str spc.maxlen 0
      else str }

/-- `_PoolCatPrint` with `_SPrint`: the strings in the order they are put out. -/
def sPrintAll (spc : PoolPrint) (calls : List ConsoleCall) : PoolPrint :=
  calls.foldl
    (fun spc call =>
      match call with
      | .output buffer => sPrint spc buffer
      | .setAttr _ => spc)
    spc

/-- `UnicodeVSPrint` into the memory `str`: what it leaves there, and the length. -/
def unicodeVSPrint (str : Memory 64 CHAR16) (strSize : UINTN) (fmt : List CHAR16)
    (args : List PrintArg) : Option (UINTN × Memory 64 CHAR16) :=
  (printFormat fmt { args := args }).map fun state =>
    let spc := sPrintAll { str := str, len := 0, maxlen := strSize / 2 - 1 } state.calls
    (spc.len, spc.str)

end HvisorUefiPacker.GnuEfi
