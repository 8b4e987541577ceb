import HvisorUefiPacker.Library.Rows
import HvisorUefiPacker.Parse
import HvisorUefiPacker.Soundness.PrintFormat

/-! # Formats without attributes, and UnicodeSPrint

Where a format sets no attribute, the calls of `_Print` are its text cut into
strings of 199 characters and what remains.  `_SPrint` appends such strings to a
buffer of limited size, and `convert_size_to_str` prints into one that is always
large enough.
-/

namespace HvisorUefiPacker.GnuEfi

open ByteMemory Rows

/-! ## Strings of a full buffer -/

/-- The strings a text without changes of the attribute is handed on in. -/
def strings (text : List CHAR16) : List (List CHAR16) :=
  fullRows (printStringLen - 1) text ++ [pending (printStringLen - 1) text]

theorem flatten_strings (text : List CHAR16) : (strings text).flatten = text := by
  rw [strings, List.flatten_append, List.flatten_singleton, flatten_fullRows]

theorem length_of_mem_strings {text string : List CHAR16}
    (member : string ∈ (strings text).dropLast) : string.length = 199 := by
  rw [strings, List.dropLast_concat] at member
  exact length_of_mem_fullRows member

/-- The rows of `text` have been handed on, and the rest is in the buffer. -/
structure Handed (text : List CHAR16) (state : PrintState) : Prop where
  calls : state.calls = (fullRows (printStringLen - 1) text).map .output
  buffer : state.buffer = pending (printStringLen - 1) text

theorem Handed.putChar16 {text : List CHAR16} {state : PrintState} (handed : Handed text state)
    (c : CHAR16) : Handed (text ++ [c]) (putChar16 c state) := by
  have short : (pending (printStringLen - 1) text).length < printStringLen - 1 := by
    rw [length_pending]
    exact Nat.mod_lt _ (by decide)
  rw [GnuEfi.putChar16]
  dsimp only
  split
  · rename_i full
    rw [handed.buffer, List.length_append, List.length_singleton] at full
    obtain ⟨rows, rest⟩ := @fullRows_append_of_full _ _ text c (Nat.le_antisymm short full)
    constructor
    · rw [rows, List.map_append, ← handed.calls, ← handed.buffer]
      rfl
    · exact rest.symm
  · rename_i room
    rw [handed.buffer, List.length_append, List.length_singleton, Nat.not_le] at room
    obtain ⟨rows, rest⟩ := @fullRows_append_of_room _ _ text c room
    constructor
    · rw [rows]
      exact handed.calls
    · rw [rest, ← handed.buffer]

theorem Handed.pputc {text : List CHAR16} {state : PrintState} (handed : Handed text state)
    (c : CHAR16) : Handed (text ++ lineEnd c) (pputc c state) := by
  rw [GnuEfi.pputc, lineEnd]
  split
  · have both := (handed.putChar16 (char16 '\r')).putChar16 c
    rwa [List.append_assoc] at both
  · exact handed.putChar16 c

theorem Handed.pputs {text : List CHAR16} {state : PrintState} (handed : Handed text state)
    (chars : List CHAR16) : Handed (text ++ lineEnds chars) (pputs chars state) := by
  induction chars generalizing text state with
  | nil =>
    rw [lineEnds, List.flatMap_nil, List.append_nil]
    exact handed
  | cons c rest inductionHypothesis =>
    have others := inductionHypothesis (handed.pputc c)
    rwa [List.append_assoc] at others

/-- The last string is handed on even where it is empty. -/
theorem Handed.pflush {text : List CHAR16} {state : PrintState} (handed : Handed text state) :
    (pflush state).calls = (strings text).map .output := by
  rw [strings, List.map_append, ← handed.calls, ← handed.buffer]
  rfl

/-! ## Formats without attributes -/

/-- The characters of a piece that sets no attribute, before the carriage returns. -/
def Piece.text : Piece → List PrintArg → Option (List CHAR16 × List PrintArg)
  | .literal c _, args => some ([c], args)
  | .directive parts, args =>
    if parts.emphasis = none then do
      let (item, args) ← applyFlags parts.flags {} args
      parts.conversion.render item args
    else none
  | .colour _, _ => none

def textAll : List Piece → List PrintArg → Option (List CHAR16 × List PrintArg)
  | [], args => some ([], args)
  | piece :: rest, args => do
    let (first, args) ← piece.text args
    let (others, args) ← textAll rest args
    return (first ++ others, args)

theorem pputs_of_args (chars : List CHAR16) (state : PrintState) (args : List PrintArg) :
    { pputs chars state with args := args } = pputs chars { state with args := args } := by
  have put : ∀ c state, { putChar16 c state with args := args } =
      putChar16 c { state with args := args } := by
    intro c state
    rw [putChar16, putChar16]
    dsimp only
    split
    · rfl
    · rfl
  induction chars generalizing state with
  | nil => rfl
  | cons c rest inductionHypothesis =>
    have first : { pputc c state with args := args } = pputc c { state with args := args } := by
      rw [pputc, pputc]
      split
      · rw [put, put]
      · rw [put]
    show { pputs rest (pputc c state) with args := args } = pputs rest (pputc c _)
    rw [inductionHypothesis, first]

theorem performs_text {piece : Piece} {state : PrintState} {chars : List CHAR16}
    {args : List PrintArg} (restoreAttr : state.restoreAttr = 0)
    (text : piece.text state.args = some (chars, args)) :
    piece.perform state = some (pputs chars { state with args := args }) := by
  cases piece with
  | literal c plain =>
    cases text
    rfl
  | directive directive =>
    rw [Piece.text] at text
    split at text
    · rename_i plain
      obtain ⟨⟨item, left⟩, applied, rendered⟩ := Option.bind_eq_some_iff.mp text
      rw [Piece.perform, applied]
      have fields : directive.conversion.render item left = some (chars, args) := rendered
      show (directive.conversion.render item left).bind _ = _
      rw [fields]
      show some (leaveItem (pputs chars _)).2 = _
      rw [plain, emphasise, ← restoreAttr, leaveItem_of_zero]
      rw [pputs_restoreAttr]
      exact restoreAttr
    · cases text
  | colour emphasis => cases text

theorem performs_textAll {pieces : List Piece} {state : PrintState} {chars : List CHAR16}
    {args : List PrintArg} (restoreAttr : state.restoreAttr = 0)
    (text : textAll pieces state.args = some (chars, args)) :
    performAll pieces state = some (pputs chars { state with args := args }) := by
  induction pieces generalizing state chars with
  | nil =>
    cases text
    rfl
  | cons piece rest inductionHypothesis =>
    obtain ⟨⟨first, left⟩, head, tail⟩ := Option.bind_eq_some_iff.mp text
    obtain ⟨⟨others, last⟩, remaining, result⟩ := Option.bind_eq_some_iff.mp tail
    cases result
    have performed := performs_text restoreAttr head
    have settings := pputs_settings first { state with args := left }
    have leftArgs : (pputs first { state with args := left }).args = left := by rw [settings]
    have stillZero : (pputs first { state with args := left }).restoreAttr = 0 := by
      rw [settings]
      exact restoreAttr
    have behind := inductionHypothesis stillZero (leftArgs.symm ▸ remaining)
    rw [pputs_of_args] at behind
    rw [performAll, performed, pputs_append]
    exact behind

/-- `Print` of a format without attributes hands on its text with the carriage returns in
    strings of 199 characters, and the remaining, maybe none, in a last one. -/
theorem iPrint_strings {modeAttribute : UINT32} {pieces : List Piece}
    {args rest : List PrintArg} {chars : List CHAR16}
    (text : textAll pieces args = some (chars, rest)) (behind : List CHAR16) :
    iPrint modeAttribute (source pieces ++ 0 :: behind) args =
        some (BitVec.ofNat 64 (lineEnds chars).length,
          (strings (lineEnds chars)).map .output) ∧
      (strings (lineEnds chars)).flatten = lineEnds chars ∧
      ∀ string ∈ (strings (lineEnds chars)).dropLast, string.length = 199 := by
  refine ⟨?_, flatten_strings _, fun _ => length_of_mem_strings⟩
  have performed : performAll pieces (consoleState modeAttribute args) =
      some (pputs chars { consoleState modeAttribute args with args := rest }) :=
    performs_textAll rfl text
  have printed := printFormat_source performed behind
  have start : Handed [] { consoleState modeAttribute args with args := rest } := ⟨rfl, rfl⟩
  have handed := (start.pputs chars).pflush
  obtain ⟨sound, empty⟩ := printFormat_wellPrinted rfl rfl rfl rfl printed
  have shown : shownText (pflush (pputs chars
      { consoleState modeAttribute args with args := rest })).shown = lineEnds chars := by
    rw [pflush_shown, pputs_shown, shownText_append, shownText_map_char]
    rfl
  rw [iPrint, printed, Option.map_some, handed, sound.buffered.len, shown]
  rfl

/-- `"%250a"` -/
def wideFormat : List Piece := [.directive ⟨none, [.width 250 (by decide)], .ascii, by decide⟩]

/-- One letter behind 249 spaces fills one string and begins another. -/
theorem iPrint_strings_wide :
    iPrint 0x07 (source wideFormat ++ 0 :: []) [.text [0x61]] =
      some (250, [.output (List.replicate 199 (char16 ' ')),
        .output (List.replicate 50 (char16 ' ') ++ [char16 'a'])]) := by
  have text : textAll wideFormat [.text [0x61]] =
      some (List.replicate 249 (char16 ' ') ++ [char16 'a'], []) := by decide +kernel
  rw [(iPrint_strings text []).1]
  decide +kernel

/-! ## Strings in a buffer -/

/-- `str` with as much of `text` as `maxlen` allows, and with `ending` behind it. -/
structure Stored (str : Memory 64 CHAR16) (maxlen : UINTN) (text ending : List CHAR16)
    (spc : PoolPrint) : Prop where
  limit : spc.maxlen = maxlen
  length : spc.len = BitVec.ofNat 64 (min text.length maxlen.toNat)
  memory : spc.str = writeBytes str 0 (text.take maxlen.toNat ++ ending)

/-- The NUL that `_SPrint` sets, or fails to set in a buffer of one character. -/
def terminator (maxlen : UINTN) : List CHAR16 := if maxlen = 0 then [] else [0]

theorem takeWhile_of_no_nul {buffer : List CHAR16} (absent : 0 ∉ buffer) :
    buffer.takeWhile (· ≠ 0) = buffer := by
  rw [List.takeWhile_eq_self_iff]
  intro c member
  exact decide_eq_true fun zero => absent (zero ▸ member)

/-- The text stored so far, its end overwritten from the first place behind it. -/
theorem writeBytes_over_ending (str : Memory 64 CHAR16) (text : List CHAR16)
    {ending bytes : List CHAR16} (short : ending.length ≤ 1) (covered : ending = [] ∨ bytes ≠ []) :
    writeBytes (writeBytes str 0 (text ++ ending)) (BitVec.ofNat 64 text.length) bytes =
      writeBytes str 0 (text ++ bytes) := by
  rw [writeBytes_append, writeBytes_append, zero_add]
  cases ending with
  | nil => rfl
  | cons c rest =>
    obtain rfl : rest = [] := List.length_eq_zero_iff.mp (Nat.le_zero.mp (Nat.le_of_succ_le_succ short))
    exact writeBytes_update (covered.resolve_left (List.cons_ne_nil _ _)) c

/-- The NUL goes behind what is stored, which is behind `maxlen` where the buffer is
    full. -/
theorem Stored.sPrint {str : Memory 64 CHAR16} {maxlen : UINTN} {text ending buffer : List CHAR16}
    {spc : PoolPrint} (stored : Stored str maxlen text ending spc)
    (earlier : ending = [] ∨ ending = terminator maxlen) (absent : 0 ∉ buffer)
    (noWrap : min text.length maxlen.toNat + buffer.length < 2 ^ 64) :
    Stored str maxlen (text ++ buffer) (terminator maxlen) (sPrint spc buffer) := by
  have bound := maxlen.isLt
  obtain ⟨count, copied⟩ : ∃ count, count = min buffer.length (maxlen.toNat - text.length) :=
    ⟨_, rfl⟩
  have lenBefore : spc.len.toNat = min text.length maxlen.toNat := by
    rw [stored.length, BitVec.toNat_ofNat, Nat.mod_eq_of_lt (by omega)]
  have lenBuffer : (strLen buffer).toNat = buffer.length := by
    rw [strLen, takeWhile_of_no_nul absent, BitVec.toNat_ofNat, Nat.mod_eq_of_lt (by omega)]
  have lenCopied : (if spc.len + strLen buffer > spc.maxlen then spc.maxlen - spc.len
      else strLen buffer) = BitVec.ofNat 64 count := by
    apply BitVec.eq_of_toNat_eq
    rw [stored.limit, BitVec.toNat_ofNat, Nat.mod_eq_of_lt (by omega)]
    split
    · rename_i exceeds
      rw [gt_iff_lt, BitVec.lt_def, BitVec.toNat_add, lenBefore, lenBuffer,
        Nat.mod_eq_of_lt noWrap] at exceeds
      rw [BitVec.toNat_sub, lenBefore]
      omega
    · rename_i inside
      rw [gt_iff_lt, BitVec.lt_def, BitVec.toNat_add, lenBefore, lenBuffer,
        Nat.mod_eq_of_lt noWrap] at inside
      omega
  have lenAfter : BitVec.ofNat 64 (min text.length maxlen.toNat) + BitVec.ofNat 64 count =
      BitVec.ofNat 64 (min (text ++ buffer).length maxlen.toNat) := by
    rw [← BitVec.ofNat_add, List.length_append]
    congr 1
    omega
  have shown : (text ++ buffer).take maxlen.toNat =
      text.take maxlen.toNat ++ buffer.take count := by
    rw [List.take_append]
    congr 1
    exact List.take_eq_take_iff.mpr (by omega)
  have before : (text.take maxlen.toNat).length = min text.length maxlen.toNat := by
    rw [List.length_take, Nat.min_comm]
  have copiedLength : (buffer.take count).length = count := by
    rw [List.length_take]
    omega
  have terminated : ∀ memory : Memory 64 CHAR16,
      (if BitVec.ofNat 64 (min (text ++ buffer).length maxlen.toNat) < maxlen then
        Function.update memory (BitVec.ofNat 64 (min (text ++ buffer).length maxlen.toNat)) 0
      else if maxlen ≠ 0 then Function.update memory maxlen 0 else memory) =
        writeBytes memory (BitVec.ofNat 64 (min (text ++ buffer).length maxlen.toNat))
          (terminator maxlen) := by
    intro memory
    by_cases zero : maxlen = 0
    · subst zero
      simp [terminator, writeBytes]
    · rw [terminator, if_neg zero]
      split
      · rfl
      · rename_i full
        rw [BitVec.lt_def, BitVec.toNat_ofNat, Nat.mod_eq_of_lt (by omega)] at full
        have last : min (text ++ buffer).length maxlen.toNat = maxlen.toNat := by omega
        rw [last, BitVec.ofNat_toNat, BitVec.setWidth_eq]
        rfl
  have endings : ending.length ≤ 1 ∧ (ending = [] ∨ buffer.take count ++ terminator maxlen ≠ []) := by
    rcases earlier with rfl | rfl
    · exact ⟨Nat.zero_le _, .inl rfl⟩
    · rw [terminator]
      split
      · exact ⟨Nat.zero_le _, .inl rfl⟩
      · exact ⟨Nat.le_refl _, .inr (by simp)⟩
  have joined : ∀ (memory : Memory 64 CHAR16) base,
      writeBytes (writeBytes memory base (buffer.take count)) (base + BitVec.ofNat 64 count)
        (terminator maxlen) = writeBytes memory base (buffer.take count ++ terminator maxlen) := by
    intro memory base
    rw [writeBytes_append, copiedLength]
  constructor
  · exact stored.limit
  · show spc.len + (if spc.len + strLen buffer > spc.maxlen then _ else _) = _
    rw [lenCopied, stored.length, lenAfter]
  · rw [GnuEfi.sPrint]
    dsimp only
    rw [lenCopied, stored.limit, stored.length, lenAfter, terminated, stored.memory,
      BitVec.toNat_ofNat, Nat.mod_eq_of_lt (show count < 2 ^ 64 by omega), ← lenAfter, joined,
      ← before, writeBytes_over_ending _ _ endings.1 endings.2, shown, List.append_assoc]

/-- Several strings, one behind the other. -/
theorem Stored.sPrintAll {str : Memory 64 CHAR16} {maxlen : UINTN} {text ending : List CHAR16}
    {spc : PoolPrint} {calls : List ConsoleCall} (stored : Stored str maxlen text ending spc)
    (earlier : ending = [] ∨ ending = terminator maxlen)
    (buffers : ∀ buffer, .output buffer ∈ calls → buffer.length < printStringLen ∧ 0 ∉ buffer)
    (noWrap : maxlen.toNat + printStringLen ≤ 2 ^ 64 ∨
      (text ++ shownText (shownCalls calls)).length < 2 ^ 64) :
    ∃ last, (last = [] ∨ last = terminator maxlen) ∧
      Stored str maxlen (text ++ shownText (shownCalls calls)) last (sPrintAll spc calls) := by
  induction calls generalizing text ending spc with
  | nil =>
    refine ⟨ending, earlier, ?_⟩
    rw [shownCalls, List.flatMap_nil, shownText, List.filterMap_nil, List.append_nil]
    exact stored
  | cons call rest inductionHypothesis =>
    have others : ∀ buffer, .output buffer ∈ rest → buffer.length < printStringLen ∧ 0 ∉ buffer :=
      fun buffer member => buffers buffer (List.mem_cons_of_mem _ member)
    have split : shownText (shownCalls (call :: rest)) =
        shownText call.shown ++ shownText (shownCalls rest) := by
      rw [shownCalls, List.flatMap_cons, shownText_append]
      rfl
    rw [split] at noWrap ⊢
    cases call with
    | setAttr attr => exact inductionHypothesis stored earlier others noWrap
    | output buffer =>
      obtain ⟨short, absent⟩ := buffers buffer List.mem_cons_self
      rw [ConsoleCall.shown, shownText_map_char] at noWrap ⊢
      rw [← List.append_assoc] at noWrap ⊢
      have room : min text.length maxlen.toNat + buffer.length < 2 ^ 64 := by
        rw [List.length_append, List.length_append] at noWrap
        omega
      exact inductionHypothesis (stored.sPrint earlier absent room) (.inr rfl) others noWrap

theorem toNat_maxlen {strSize : UINTN} (atLeast : 2 ≤ strSize.toNat) :
    (strSize / 2 - 1).toNat = strSize.toNat / 2 - 1 := by
  have bound := strSize.isLt
  have half : (strSize / 2).toNat = strSize.toNat / 2 := BitVec.toNat_udiv
  rw [BitVec.toNat_sub, half]
  show (2 ^ 64 - 1 + strSize.toNat / 2) % 2 ^ 64 = _
  omega

theorem unicodeVSPrint_eq {str : Memory 64 CHAR16} {strSize : UINTN} {fmt : List CHAR16}
    {args : List PrintArg} {final : PrintState}
    (printed : printFormat fmt { args := args } = some final)
    (fits : strSize.toNat < 2 → (shownText final.shown).length < 2 ^ 64) :
    unicodeVSPrint str strSize fmt args =
      some (BitVec.ofNat 64 (min (shownText final.shown).length (strSize / 2 - 1).toNat),
        writeBytes str 0 ((shownText final.shown).take (strSize / 2 - 1).toNat ++
          terminator (strSize / 2 - 1))) := by
  have bound := strSize.isLt
  obtain ⟨sound, -⟩ := printFormat_wellPrinted rfl rfl rfl rfl printed
  obtain ⟨⟨mode, last⟩, stopped, rfl⟩ := Option.map_eq_some_iff.mp printed
  have initial : Stored str (strSize / 2 - 1) [] []
      { str := str, len := 0, maxlen := strSize / 2 - 1 } :=
    ⟨rfl, by simp, by rw [List.take_nil]; rfl⟩
  obtain ⟨raw, noNul, text⟩ := sound.lines
  have nulFree : 0 ∉ shownText (pflush last).shown := text ▸ zero_not_mem_lineEnds noNul
  have shown : shownText (pflush last).shown =
      shownText (shownCalls last.calls) ++ last.buffer := by
    rw [pflush_shown, PrintState.shown, shownText_append, shownText_map_char]
  have buffers : ∀ buffer, .output buffer ∈ (pflush last).calls →
      buffer.length < printStringLen ∧ 0 ∉ buffer := by
    intro buffer member
    refine ⟨Nat.lt_of_le_of_lt (sound.buffered.fits buffer member) (by decide), fun zero => ?_⟩
    apply nulFree
    apply List.mem_filterMap.mpr
    refine ⟨.char 0, List.mem_append_left _ ?_, rfl⟩
    exact List.mem_flatMap.mpr ⟨_, member, List.mem_map_of_mem zero⟩
  have noWrap : (strSize / 2 - 1).toNat + printStringLen ≤ 2 ^ 64 ∨
      (shownText (pflush last).shown).length < 2 ^ 64 := by
    by_cases small : strSize.toNat < 2
    · exact .inr (fits small)
    · left
      rw [toNat_maxlen (by omega)]
      simp only [printStringLen]
      omega
  rw [shown, List.length_append] at noWrap
  have earlier : ∀ buffer, .output buffer ∈ last.calls →
      buffer.length < printStringLen ∧ 0 ∉ buffer :=
    fun buffer member => buffers buffer (List.mem_append_left _ member)
  obtain ⟨ending, known, stored⟩ := initial.sPrintAll (.inl rfl) earlier (by
    rw [List.nil_append]
    omega)
  rw [List.nil_append] at stored
  obtain ⟨lastShort, lastNulFree⟩ := buffers last.buffer (List.mem_append_right _ List.mem_cons_self)
  have complete := stored.sPrint known lastNulFree (by omega)
  rw [← shown] at complete
  have calls : GnuEfi.sPrintAll { str := str, len := 0, maxlen := strSize / 2 - 1 }
      (pflush last).calls =
        sPrint (GnuEfi.sPrintAll { str := str, len := 0, maxlen := strSize / 2 - 1 } last.calls)
          last.buffer := by
    rw [GnuEfi.sPrintAll, pflush, List.foldl_append]
    rfl
  rw [unicodeVSPrint, printed]
  show some (_, _) = _
  rw [calls, complete.length, complete.memory]

/-- `UnicodeSPrint` of any format.  It returns how many characters it has stored, which is
    the whole text or what `StrSize` allows; behind them stands a NUL, unless `StrSize` is
    that of a single character, where nothing is stored at all; and from `StrSize` of 2 on
    nothing behind the buffer is touched. -/
theorem unicodeVSPrint_truncates {str : Memory 64 CHAR16} {strSize : UINTN} {fmt : List CHAR16}
    {args : List PrintArg} {final : PrintState}
    (printed : printFormat fmt { args := args } = some final)
    (fits : strSize.toNat < 2 → (shownText final.shown).length < 2 ^ 64 - 1) :
    ∃ len memory, unicodeVSPrint str strSize fmt args = some (len, memory) ∧
      len.toNat = min (shownText final.shown).length (strSize / 2 - 1).toNat ∧
      (strSize / 2 ≠ 1 →
        readBytes memory 0 (len.toNat + 1) = (shownText final.shown).take len.toNat ++ [0]) ∧
      (strSize / 2 = 1 → memory = str) ∧
      (2 ≤ strSize.toNat → ∀ address, strSize.toNat / 2 ≤ address.toNat →
        memory address = str address) := by
  have bound := strSize.isLt
  have shortMax := (strSize / 2 - 1).isLt
  have single : strSize / 2 = 1 ↔ strSize / 2 - 1 = 0 := sub_eq_zero.symm
  have large := @toNat_maxlen strSize
  have stored := @unicodeVSPrint_eq str strSize fmt args final printed fun small =>
    Nat.lt_of_lt_of_le (fits small) (by decide)
  generalize strSize / 2 - 1 = maxlen at *
  generalize shownText final.shown = text at *
  have count : (BitVec.ofNat 64 (min text.length maxlen.toNat)).toNat =
      min text.length maxlen.toNat := by
    rw [BitVec.toNat_ofNat, Nat.mod_eq_of_lt (by omega)]
  refine ⟨_, _, stored, count, fun several => ?_, fun one => ?_, fun atLeast address behind => ?_⟩
  · have ending : terminator maxlen = [0] := if_neg fun zero => several (single.mpr zero)
    have written : (text.take maxlen.toNat ++ [0]).length = min text.length maxlen.toNat + 1 := by
      rw [List.length_append, List.length_take, Nat.min_comm, List.length_singleton]
    have cut : text.take (min text.length maxlen.toNat) = text.take maxlen.toNat :=
      List.take_eq_take_iff.mpr (by omega)
    rw [count, cut, ending, ← written]
    apply readBytes_writeBytes
    rw [written]
    omega
  · rw [terminator, if_pos (single.mp one), single.mp one]
    rfl
  · have written : (text.take maxlen.toNat ++ terminator maxlen).length ≤ strSize.toNat / 2 := by
      rw [List.length_append, List.length_take, terminator]
      split
      · simp only [List.length_nil]
        omega
      · simp only [List.length_singleton]
        omega
    rw [writeBytes_apply _ _ _ (by omega), sub_zero, List.getElem?_eq_none (by omega)]
    rfl

theorem unicodeVSPrint_truncates_abc :
    ∃ len memory,
      unicodeVSPrint (fun _ => 0xff) 6 (wide "abc" ++ [0]) [] = some (len, memory) ∧
      len.toNat = 2 ∧
      ((6 : UINTN) / 2 ≠ 1 →
        readBytes memory 0 (len.toNat + 1) = (wide "abc").take len.toNat ++ [0]) ∧
      ((6 : UINTN) / 2 = 1 → memory = fun _ => 0xff) ∧
      (2 ≤ (6 : UINTN).toNat → ∀ address, 3 ≤ address.toNat → memory address = 0xff) := by
  have printed : printFormat (wide "abc" ++ [0]) { args := [] } =
      some { args := [], len := 3, calls := [.output (wide "abc")] } := rfl
  have large : (6 : UINTN).toNat < 2 → (wide "abc").length < 2 ^ 64 - 1 :=
    fun small => absurd small (by decide)
  exact unicodeVSPrint_truncates printed large

/-! ## convert_size_to_str -/

/-- The format of the size string, and the number in it. -/
def sizeFormat (size : UINTN) : String × UINTN :=
  if size < 1024 then ("%llu B", size)
  else if size < 1024 * 1024 then ("%llu KB", size / 1024)
  else if size < 1024 * 1024 * 1024 then ("%llu MB", size / (1024 * 1024))
  else ("%llu GB", size / (1024 * 1024 * 1024))

/-- `convert_size_to_str` with its buffer `size_str`: the `SPrint` of the source. -/
def printSize (sizeStr : Memory 64 CHAR16) (behind : List CHAR16) (size : UINTN) :
    Option (UINTN × Memory 64 CHAR16) :=
  let (format, number) := sizeFormat size
  unicodeVSPrint sizeStr (32 * 2) (wide format ++ 0 :: behind) [.number number]

/-- An item without widths is put out as it is. -/
theorem field_of_no_width {item : PrintItem} {pw : List CHAR16} (noField : item.fieldWidth = -1)
    (noWidth : item.width = 0) (absent : 0 ∉ pw) (short : pw.length < 2 ^ 64 - 1) :
    field item pw = pw := by
  have text : (pw.takeWhile (· ≠ 0)).take item.fieldWidth.toNat = pw := by
    rw [takeWhile_of_no_nul absent, noField]
    apply List.take_of_length_le
    show pw.length ≤ 2 ^ 64 - 1
    omega
  have len : (BitVec.ofNat 64 pw.length).toNat = pw.length := by
    rw [BitVec.toNat_ofNat, Nat.mod_eq_of_lt (by omega)]
  have width : (if BitVec.ofNat 64 pw.length > item.width then BitVec.ofNat 64 pw.length
      else item.width).toNat = pw.length := by
    split
    · exact len
    · rename_i none
      rw [noWidth, gt_iff_lt, BitVec.lt_def, len] at none
      rw [noWidth]
      show 0 = _
      exact (Nat.eq_zero_of_not_pos none).symm
  rw [field]
  rw [text, width, if_pos noField, len, Nat.sub_self, List.replicate_zero, List.replicate_zero,
    List.nil_append, List.append_nil]
  split
  · rfl
  · rfl

/-- Characters that are pieces of their own. -/
def Plain (chars : List CHAR16) : Prop := ∀ c ∈ chars, c ≠ 0 ∧ c ≠ char16 '%'

instance : DecidablePred Plain :=
  List.decidableBAll fun c => c ≠ 0 ∧ c ≠ char16 '%'

def literals (chars : List CHAR16) (plain : Plain chars) : List Piece :=
  chars.pmap Piece.literal plain

theorem source_literals (chars : List CHAR16) (plain : Plain chars) :
    source (literals chars plain) = chars := by
  induction chars with
  | nil => rfl
  | cons c rest inductionHypothesis =>
    exact congrArg (c :: ·) (inductionHypothesis fun c member => plain c (List.mem_cons_of_mem _ member))

theorem textAll_literals (chars : List CHAR16) (plain : Plain chars) (args : List PrintArg) :
    textAll (literals chars plain) args = some (chars, args) := by
  induction chars with
  | nil => rfl
  | cons c rest inductionHypothesis =>
    have others := inductionHypothesis fun c member => plain c (List.mem_cons_of_mem _ member)
    show ((textAll (literals rest _) args).bind _) = _
    rw [others]
    rfl

/-- `%llu` and a unit. -/
def numberPieces (unit : List CHAR16) (plain : Plain unit) : List Piece :=
  .directive ⟨none, [.long, .long], .unsigned, by decide⟩ :: literals unit plain

theorem source_numberPieces (unit : List CHAR16) (plain : Plain unit) :
    source (numberPieces unit plain) = wide "%llu" ++ unit :=
  congrArg (wide "%llu" ++ ·) (source_literals unit plain)

theorem wide_toString_short (v : UINTN) :
    0 ∉ wide (toString v.toNat) ∧ (wide (toString v.toNat)).length ≤ 20 := by
  rw [wide_toString_eq]
  constructor
  · intro member
    obtain ⟨digit, small, zero⟩ := Numeral.mem_numeral (by decide) member
    have nonzero : ∀ digit < 10, decimalSymbol digit ≠ 0 := by decide
    exact nonzero digit small zero.symm
  · have bound := v.isLt
    exact Numeral.numeral_length_le (by decide) (by decide) (by omega)

/-- A number below 2^63 is printed as it is. -/
theorem textAll_numberPieces {value : UINTN} (small : value.toNat < 2 ^ 63) (unit : List CHAR16)
    (plain : Plain unit) :
    textAll (numberPieces unit plain) [.number value] =
      some (wide (toString value.toNat) ++ unit, []) := by
  obtain ⟨absent, short⟩ := wide_toString_short value
  have number : value.toInt = Int.ofNat value.toNat := by
    rw [BitVec.toInt_eq_toNat_cond]
    exact if_pos (by omega)
  have decimal : Conversion.decimal false value.toInt = wide (toString value.toNat) := by
    rw [number]
    rfl
  have rendered : Conversion.unsigned.render { long := true } [.number value] =
      some (wide (toString value.toNat), []) := by
    show some (field _ (Conversion.decimal false value.toInt), _) = _
    rw [decimal, field_of_no_width rfl rfl absent (by omega)]
  have first : (Piece.directive ⟨none, [.long, .long], .unsigned, by decide⟩).text
      [.number value] = some (wide (toString value.toNat), []) := by
    rw [Piece.text, if_pos rfl]
    exact rendered
  rw [numberPieces, textAll, first]
  show ((textAll (literals unit plain) []).bind _) = _
  rw [textAll_literals]
  rfl

/-- The string is one that `UnicodeSPrint` stores whole. -/
theorem unicodeVSPrint_stores {str : Memory 64 CHAR16} {strSize : UINTN} {pieces : List Piece}
    {args rest : List PrintArg} {chars : List CHAR16}
    (text : textAll pieces args = some (chars, rest)) (noFeed : char16 '\n' ∉ chars)
    (fits : 2 * (chars.length + 1) ≤ strSize.toNat) (several : 4 ≤ strSize.toNat)
    (behind : List CHAR16) :
    unicodeVSPrint str strSize (source pieces ++ 0 :: behind) args =
      some (BitVec.ofNat 64 chars.length, writeBytes str 0 (chars ++ [0])) := by
  have performed : performAll pieces { args := args } =
      some (pputs chars { args := rest }) := performs_textAll rfl text
  have shown : shownText (pflush (pputs chars { args := rest })).shown = chars := by
    rw [pflush_shown, pputs_shown, shownText_append, shownText_map_char, lineEnds_of_no_feed noFeed]
    rfl
  have maxlen := @toNat_maxlen strSize (by omega)
  have ending : terminator (strSize / 2 - 1) = [0] := by
    apply if_neg
    intro zero
    rw [zero] at maxlen
    have none : (0 : UINTN).toNat = 0 := rfl
    omega
  rw [unicodeVSPrint_eq (printFormat_source performed behind) (by omega), shown, maxlen,
    Nat.min_eq_left (by omega), List.take_of_length_le (by omega), ending]

theorem map_ascii {text : String} (latin : ∀ char ∈ text.toList, char.toNat < 256) :
    (ascii text).map (·.setWidth 16) = wide text := by
  rw [ascii, wide, List.map_map]
  apply List.map_congr_left
  intro char member
  apply BitVec.eq_of_toNat_eq
  have small := latin char member
  show ((BitVec.ofNat 8 char.toNat).setWidth 16).toNat = (BitVec.ofNat 16 char.toNat).toNat
  rw [BitVec.toNat_setWidth, BitVec.toNat_ofNat, BitVec.toNat_ofNat]
  omega

theorem digitChar_latin : ∀ digit < 10,
    (Nat.digitChar digit).toNat < 256 ∧ char16 (Nat.digitChar digit) ≠ char16 '\n' := by
  decide

theorem toString_digits {number : Nat} {char : Char} (member : char ∈ (toString number).toList) :
    ∃ digit < 10, char = Nat.digitChar digit := by
  rw [← Numeral.numeral_ten] at member
  exact Numeral.mem_numeral (by decide) member

theorem printSize_of_format {size number : UINTN} {unit : String}
    (format : sizeFormat size = ("%llu" ++ unit, number))
    (string : convertSizeToStr size = ascii (toString number.toNat ++ unit))
    (small : number.toNat < 2 ^ 63) (plain : Plain (wide unit)) (noFeed : char16 '\n' ∉ wide unit)
    (latin : unit.toList.all (fun char => char.toNat < 256)) (short : (wide unit).length ≤ 3)
    (sizeStr : Memory 64 CHAR16) (behind : List CHAR16) :
    ∃ memory, printSize sizeStr behind size =
        some (BitVec.ofNat 64 (convertSizeToStr size).length, memory) ∧
      readBytes memory 0 ((convertSizeToStr size).length + 1) =
        (convertSizeToStr size).map (·.setWidth 16) ++ [0] := by
  have chars : (convertSizeToStr size).map (·.setWidth 16) =
      wide (toString number.toNat) ++ wide unit := by
    rw [string, map_ascii, wide_append]
    intro char member
    rw [String.toList_append, List.mem_append] at member
    rcases member with inDigits | inUnit
    · obtain ⟨digit, isDigit, rfl⟩ := toString_digits inDigits
      exact (digitChar_latin digit isDigit).1
    · exact of_decide_eq_true (List.all_eq_true.mp latin char inUnit)
  have count : (convertSizeToStr size).length =
      (wide (toString number.toNat) ++ wide unit).length := by
    rw [← chars, List.length_map]
  have digits := (wide_toString_short number).2
  have noFeedAtAll : char16 '\n' ∉ wide (toString number.toNat) ++ wide unit := by
    rw [List.mem_append, not_or]
    refine ⟨fun member => ?_, noFeed⟩
    obtain ⟨char, isDigit, feed⟩ := List.mem_map.mp member
    obtain ⟨digit, small, rfl⟩ := toString_digits isDigit
    exact (digitChar_latin digit small).2 feed
  have total : (wide (toString number.toNat) ++ wide unit).length ≤ 23 := by
    rw [List.length_append]
    omega
  have stored := @unicodeVSPrint_stores sizeStr (32 * 2) _ _ _ _
    (textAll_numberPieces small (wide unit) plain) noFeedAtAll
    (by show _ ≤ 64; omega) (by decide) behind
  refine ⟨writeBytes sizeStr 0 (wide (toString number.toNat) ++ wide unit ++ [0]), ?_, ?_⟩
  · rw [printSize, format, count]
    rw [source_numberPieces, ← wide_append] at stored
    exact stored
  · rw [count, chars]
    have written : (wide (toString number.toNat) ++ wide unit ++ [0]).length =
        (wide (toString number.toNat) ++ wide unit).length + 1 := List.length_append
    rw [← written]
    apply readBytes_writeBytes
    omega

/-- The comparisons of the source, of numbers. -/
theorem sizeFormat_eq (size : UINTN) :
    sizeFormat size =
      if size.toNat < 1024 then ("%llu" ++ " B", size)
      else if size.toNat < 1024 * 1024 then ("%llu" ++ " KB", size / 1024)
      else if size.toNat < 1024 * 1024 * 1024 then ("%llu" ++ " MB", size / (1024 * 1024))
      else ("%llu" ++ " GB", size / (1024 * 1024 * 1024)) := by
  have mega : (1024 * 1024 : UINTN).toNat = 1024 * 1024 := by decide
  have giga : (1024 * 1024 * 1024 : UINTN).toNat = 1024 * 1024 * 1024 := by decide
  rw [sizeFormat]
  simp only [BitVec.lt_def, mega, giga]
  rfl

/-- `convert_size_to_str` as the library prints it: whatever is in `size_str`, and behind the
    format, it is the string that the model of parse.c takes it for, with its NUL. -/
theorem printSize_eq (sizeStr : Memory 64 CHAR16) (behind : List CHAR16) (size : UINTN) :
    ∃ memory, printSize sizeStr behind size =
        some (BitVec.ofNat 64 (convertSizeToStr size).length, memory) ∧
      readBytes memory 0 ((convertSizeToStr size).length + 1) =
        (convertSizeToStr size).map (·.setWidth 16) ++ [0] := by
  have bound := size.isLt
  have format := sizeFormat_eq size
  have string := convertSizeToStr.eq_1 size
  by_cases bytes : size.toNat < 1024
  · rw [if_pos bytes] at format string
    exact @printSize_of_format size size " B" format string (by omega) (by decide) (by decide)
      (by decide) (by decide) sizeStr behind
  rw [if_neg bytes] at format string
  by_cases kilobytes : size.toNat < 1024 * 1024
  · have number : (size / 1024).toNat = size.toNat / 1024 := BitVec.toNat_udiv
    rw [if_pos kilobytes] at format string
    rw [← number] at string
    exact @printSize_of_format size _ " KB" format string (by omega) (by decide) (by decide)
      (by decide) (by decide) sizeStr behind
  rw [if_neg kilobytes] at format string
  by_cases megabytes : size.toNat < 1024 * 1024 * 1024
  · have mega : (1024 * 1024 : UINTN).toNat = 1024 * 1024 := by decide
    have number : (size / (1024 * 1024)).toNat = size.toNat / (1024 * 1024) := by
      rw [BitVec.toNat_udiv, mega]
    rw [if_pos megabytes] at format string
    rw [← number] at string
    exact @printSize_of_format size _ " MB" format string (by omega) (by decide) (by decide)
      (by decide) (by decide) sizeStr behind
  · have giga : (1024 * 1024 * 1024 : UINTN).toNat = 1024 * 1024 * 1024 := by decide
    have number : (size / (1024 * 1024 * 1024)).toNat = size.toNat / (1024 * 1024 * 1024) := by
      rw [BitVec.toNat_udiv, giga]
    rw [if_neg megabytes] at format string
    rw [← number] at string
    exact @printSize_of_format size _ " GB" format string (by omega) (by decide) (by decide)
      (by decide) (by decide) sizeStr behind

end HvisorUefiPacker.GnuEfi
