import HvisorUefiPacker.Print
import Mathlib.Data.List.TakeWhile

/-! # What the formatted output puts out

`_Print` collects characters in a buffer and hands them on in pieces, with
changes of the attribute in between.  `PrintState.shown` is what all of it comes
to, the characters still in the buffer included, so that every operation only
adds to it.  `WellPrinted` holds at every character of every format.
-/

namespace HvisorUefiPacker.GnuEfi

/-! ## The stream -/

/-- What a console gets to see. -/
inductive Shown where
  | char (c : CHAR16)
  | attr (attr : UINTN)
deriving DecidableEq

def ConsoleCall.shown : ConsoleCall → List Shown
  | .output buffer => buffer.map .char
  | .setAttr attr => [.attr attr]

def shownCalls (calls : List ConsoleCall) : List Shown := calls.flatMap ConsoleCall.shown

def Shown.char? : Shown → Option CHAR16
  | .char c => some c
  | .attr _ => none

/-- The characters among what is shown. -/
def shownText (shown : List Shown) : List CHAR16 := shown.filterMap Shown.char?

/-- The calls, and the characters that are still in the buffer. -/
def PrintState.shown (state : PrintState) : List Shown :=
  shownCalls state.calls ++ state.buffer.map .char

/-- A line feed gets a carriage return in front of it. -/
def lineEnd (c : CHAR16) : List CHAR16 := if c = char16 '\n' then [char16 '\r', c] else [c]

def lineEnds (chars : List CHAR16) : List CHAR16 := chars.flatMap lineEnd

@[simp] theorem shownText_map_char (chars : List CHAR16) : shownText (chars.map .char) = chars := by
  induction chars with
  | nil => rfl
  | cons c rest inductionHypothesis => exact congrArg (c :: ·) inductionHypothesis

@[simp] theorem shownText_append (first second : List Shown) :
    shownText (first ++ second) = shownText first ++ shownText second :=
  List.filterMap_append

@[simp] theorem shownCalls_append (first second : List ConsoleCall) :
    shownCalls (first ++ second) = shownCalls first ++ shownCalls second :=
  List.flatMap_append

@[simp] theorem lineEnds_append (first second : List CHAR16) :
    lineEnds (first ++ second) = lineEnds first ++ lineEnds second :=
  List.flatMap_append

theorem lineEnds_of_no_feed {chars : List CHAR16} (none : char16 '\n' ∉ chars) :
    lineEnds chars = chars := by
  induction chars with
  | nil => rfl
  | cons c rest inductionHypothesis =>
    obtain ⟨differs, absent⟩ : char16 '\n' ≠ c ∧ char16 '\n' ∉ rest := by simpa using none
    rw [lineEnds, List.flatMap_cons, lineEnd, if_neg (Ne.symm differs)]
    exact congrArg (c :: ·) (inductionHypothesis absent)

/-- A text with its carriage returns has a NUL only where the text has one. -/
theorem zero_not_mem_lineEnds {chars : List CHAR16} (absent : 0 ∉ chars) :
    0 ∉ lineEnds chars := by
  intro member
  obtain ⟨c, inside, zero⟩ := List.mem_flatMap.mp member
  rw [lineEnd] at zero
  split at zero
  · have isZero : (0 : CHAR16) = c := by simpa [char16] using zero
    exact absent (isZero ▸ inside)
  · have isZero : (0 : CHAR16) = c := by simpa using zero
    exact absent (isZero ▸ inside)

/-! ## The operations -/

@[simp] theorem pflush_shown (state : PrintState) : (pflush state).shown = state.shown := by
  simp [PrintState.shown, pflush, shownCalls, ConsoleCall.shown]

theorem psetattr_shown (attr : UINTN) (state : PrintState) :
    (psetattr attr state).shown =
      state.shown ++ (if state.hasSetAttr then [.attr attr] else []) := by
  rw [← pflush_shown state]
  cases present : state.hasSetAttr with
  | true => simp [PrintState.shown, psetattr, pflush, shownCalls, ConsoleCall.shown, present]
  | false => simp [PrintState.shown, psetattr, pflush, present]

theorem putChar16_shown (c : CHAR16) (state : PrintState) :
    (putChar16 c state).shown = state.shown ++ [.char c] := by
  rw [putChar16]
  dsimp only
  split
  · rw [pflush_shown]
    simp [PrintState.shown]
  · simp [PrintState.shown]

theorem pputc_shown (c : CHAR16) (state : PrintState) :
    (pputc c state).shown = state.shown ++ (lineEnd c).map .char := by
  rw [pputc, lineEnd]
  split
  · simp [putChar16_shown]
  · simp [putChar16_shown]

theorem pputs_append (first second : List CHAR16) (state : PrintState) :
    pputs (first ++ second) state = pputs second (pputs first state) :=
  List.foldl_append

theorem pputs_shown (chars : List CHAR16) (state : PrintState) :
    (pputs chars state).shown = state.shown ++ (lineEnds chars).map .char := by
  induction chars generalizing state with
  | nil => simp [pputs, lineEnds]
  | cons c rest inductionHypothesis =>
    have others := inductionHypothesis (pputc c state)
    rw [pputc_shown, List.append_assoc, ← List.map_append] at others
    exact others

/-! ### What they leave alone -/

/-- Putting characters out changes the buffer, the length and the calls. -/
def PrintState.SameSettings (state state' : PrintState) : Prop :=
  state' = { state with buffer := state'.buffer, len := state'.len, calls := state'.calls }

namespace PrintState.SameSettings

theorem refl (state : PrintState) : SameSettings state state := rfl

theorem trans {first second third : PrintState} (former : SameSettings first second)
    (latter : SameSettings second third) : SameSettings first third := by
  rw [SameSettings] at *
  rw [latter, former]

end PrintState.SameSettings

open PrintState (SameSettings)

theorem putChar16_settings (c : CHAR16) (state : PrintState) :
    SameSettings state (putChar16 c state) := by
  rw [putChar16]
  dsimp only
  split
  · rfl
  · rfl

theorem pputc_settings (c : CHAR16) (state : PrintState) : SameSettings state (pputc c state) := by
  rw [pputc]
  split
  · exact (putChar16_settings _ state).trans (putChar16_settings c _)
  · exact putChar16_settings c state

theorem pputs_settings (chars : List CHAR16) (state : PrintState) :
    SameSettings state (pputs chars state) := by
  induction chars generalizing state with
  | nil => exact .refl state
  | cons c rest inductionHypothesis =>
    exact (pputc_settings c state).trans (inductionHypothesis (pputc c state))

/-! ### Items -/

/-- The characters `PITEM` puts out for a text: padding, and spaces on one side. -/
def field (item : PrintItem) (pw : List CHAR16) : List CHAR16 :=
  let text := (pw.takeWhile (· ≠ 0)).take item.fieldWidth.toNat
  let len := BitVec.ofNat 64 text.length
  let fieldWidth := if item.fieldWidth = -1 then len else item.fieldWidth
  let width := if len > item.width then len else item.width
  let spaces := List.replicate (fieldWidth.toNat - width.toNat) (char16 ' ')
  let padded := List.replicate (width.toNat - len.toNat) item.pad ++ text
  if item.padBefore then spaces ++ padded else padded ++ spaces

theorem pitem_eq (item : PrintItem) (pw : List CHAR16) (state : PrintState) :
    pitem item pw state = pputs (field item pw) state := by
  rw [pitem, field]
  split
  · rw [pputs_append, pputs_append]
  · rw [pputs_append, pputs_append]

theorem zero_not_mem_field {item : PrintItem} (pad : item.pad ≠ 0) (pw : List CHAR16) :
    0 ∉ field item pw := by
  have space : (0 : CHAR16) ≠ char16 ' ' := by decide
  have text : 0 ∉ (pw.takeWhile (· ≠ 0)).take item.fieldWidth.toNat := by
    intro member
    simpa using List.mem_takeWhile_imp (List.mem_of_mem_take member)
  rw [field]
  split
  · simp only [List.mem_append, List.mem_replicate, not_or, not_and]
    exact ⟨fun _ => space, fun _ => Ne.symm pad, text⟩
  · simp only [List.mem_append, List.mem_replicate, not_or, not_and]
    exact ⟨⟨fun _ => Ne.symm pad, text⟩, fun _ => space⟩

/-! ## The switch -/

/-- The attributes `_Print` can give a console: its own, and the three of the format. -/
def PrintState.palette (state : PrintState) : List UINTN :=
  [state.attr, state.attrNorm, state.attrHighlight, state.attrError]

/-- All a directive's character can do to the state: take arguments, or set an attribute. -/
theorem printSwitch_cases {c : CHAR16} {item item' : PrintItem} {attr : UINTN}
    {state state' : PrintState} (switched : printSwitch c item state = some (item', attr, state')) :
    (item'.pad = item.pad ∨ item'.pad = char16 '0') ∧
      ((∃ args, state' = { state with args := args } ∧
          (attr = 0 ∨ attr ∈ [state.attrNorm, state.attrHighlight, state.attrError])) ∨
        ∃ colour ∈ [state.attrNorm, state.attrHighlight, state.attrError],
          state' = psetattr colour state ∧ attr = 0) := by
  have number : ∀ value next, vaNumber state = some (value, next) →
      next = { state with args := next.args } := by
    intro value next taken
    rw [vaNumber] at taken
    split at taken
    · cases taken
      rfl
    · cases taken
  have string : ∀ chars next, vaString state = some (chars, next) →
      next = { state with args := next.args } := by
    intro chars next taken
    rw [vaString] at taken
    split at taken
    · cases taken
      rfl
    · split at taken
      · cases taken
        rfl
      · cases taken
    · cases taken
  have parsed : ∀ value, (item.setParsedWidth value).pad = item.pad := by
    intro value
    rw [PrintItem.setParsedWidth]
    split
    · rfl
    · rfl
  rw [printSwitch] at switched
  split at switched
  all_goals try (cases switched; exact ⟨by simp, .inl ⟨state.args, rfl, by simp⟩⟩)
  all_goals try (cases switched; exact ⟨.inl rfl, .inr ⟨_, by simp, rfl, rfl⟩⟩)
  all_goals try cases switched
  all_goals
    obtain ⟨⟨value, next⟩, taken, returned⟩ := Option.bind_eq_some_iff.mp switched
    cases returned
  all_goals try exact ⟨by simp, .inl ⟨state'.args, number _ _ taken, .inl rfl⟩⟩
  all_goals try exact ⟨by simp, .inl ⟨state'.args, string _ _ taken, .inl rfl⟩⟩
  exact ⟨.inl (parsed value), .inl ⟨state'.args, number _ _ taken, .inl rfl⟩⟩

/-! ## The buffer -/

/-- Buffers that have room for the NUL, and a length that counts what is shown. -/
structure Buffered (state : PrintState) : Prop where
  room : state.buffer.length < printStringLen - 1
  fits : ∀ buffer, .output buffer ∈ state.calls → buffer.length ≤ printStringLen - 1
  len : state.len = BitVec.ofNat 64 (shownText state.shown).length

namespace Buffered

variable {state : PrintState}

theorem pflush (buffered : Buffered state) : Buffered (pflush state) := by
  constructor
  · exact (by decide : 0 < printStringLen - 1)
  · intro buffer member
    rcases List.mem_append.mp member with before | last
    · exact buffered.fits buffer before
    · cases List.mem_singleton.mp last
      exact Nat.le_of_lt buffered.room
  · rw [pflush_shown]
    exact buffered.len

theorem psetattr (buffered : Buffered state) (attr : UINTN) : Buffered (psetattr attr state) := by
  have flushed := buffered.pflush
  constructor
  · exact flushed.room
  · intro buffer member
    rcases List.mem_append.mp member with before | last
    · exact flushed.fits buffer before
    · split at last
      · cases List.mem_singleton.mp last
      · cases last
  · rw [psetattr_shown, shownText_append]
    have noText : shownText (if state.hasSetAttr then [.attr attr] else []) = [] := by
      split
      · rfl
      · rfl
    rw [noText, List.append_nil]
    exact buffered.len

theorem putChar16 (buffered : Buffered state) (c : CHAR16) : Buffered (putChar16 c state) := by
  have count : state.len + 1 = BitVec.ofNat 64 (shownText (state.shown ++ [.char c])).length := by
    rw [shownText_append, List.length_append, buffered.len, BitVec.ofNat_add]
    rfl
  have added : (state.buffer ++ [c]).length ≤ printStringLen - 1 := by
    rw [List.length_append]
    exact buffered.room
  rw [GnuEfi.putChar16]
  dsimp only
  split
  · constructor
    · exact (by decide : 0 < printStringLen - 1)
    · intro buffer member
      rcases List.mem_append.mp member with before | last
      · exact buffered.fits buffer before
      · cases List.mem_singleton.mp last
        exact added
    · rw [pflush_shown]
      simpa [PrintState.shown, GnuEfi.pflush] using count
  · constructor
    · exact Nat.lt_of_not_le ‹_›
    · exact buffered.fits
    · simpa [PrintState.shown] using count

theorem pputc (buffered : Buffered state) (c : CHAR16) : Buffered (pputc c state) := by
  rw [GnuEfi.pputc]
  split
  · exact (buffered.putChar16 _).putChar16 c
  · exact buffered.putChar16 c

theorem pputs (buffered : Buffered state) (chars : List CHAR16) : Buffered (pputs chars state) := by
  induction chars generalizing state with
  | nil => exact buffered
  | cons c rest inductionHypothesis => exact inductionHypothesis (buffered.pputc c)

/-- The state a run starts in. -/
theorem of_empty (buffer : state.buffer = []) (calls : state.calls = []) (len : state.len = 0) :
    Buffered state := by
  constructor
  · rw [buffer]
    decide
  · rw [calls]
    exact fun _ none => by cases none
  · simp [PrintState.shown, shownCalls, buffer, calls, len, shownText]

end Buffered

/-! ## Every character of every format -/

/-- What holds of the state whatever the format and the arguments are. -/
structure WellPrinted (start state : PrintState) : Prop where
  buffered : Buffered state
  lines : ∃ raw, 0 ∉ raw ∧ shownText state.shown = lineEnds raw
  colours : ∀ attr, .attr attr ∈ state.shown → attr ∈ start.palette
  palette : state.palette ⊆ start.palette
  restoreAttr : state.restoreAttr ∈ 0 :: start.palette

namespace WellPrinted

variable {start state state' : PrintState}

theorem of_args (printed : WellPrinted start state) (args : List PrintArg) :
    WellPrinted start { state with args := args } :=
  ⟨⟨printed.buffered.room, printed.buffered.fits, printed.buffered.len⟩, printed.lines,
    printed.colours, printed.palette, printed.restoreAttr⟩

theorem of_restoreAttr (printed : WellPrinted start state) :
    WellPrinted start { state with restoreAttr := 0 } :=
  ⟨⟨printed.buffered.room, printed.buffered.fits, printed.buffered.len⟩, printed.lines,
    printed.colours, printed.palette, List.mem_cons_self⟩

theorem pputs (printed : WellPrinted start state) {chars : List CHAR16} (absent : 0 ∉ chars) :
    WellPrinted start (pputs chars state) := by
  have settings := pputs_settings chars state
  constructor
  · exact printed.buffered.pputs chars
  · obtain ⟨raw, noNul, text⟩ := printed.lines
    refine ⟨raw ++ chars, ?_, ?_⟩
    · rw [List.mem_append, not_or]
      exact ⟨noNul, absent⟩
    · rw [pputs_shown, shownText_append, shownText_map_char, text, lineEnds_append]
  · intro attr member
    rw [pputs_shown] at member
    apply printed.colours attr
    simpa using member
  · rw [settings]
    exact printed.palette
  · rw [settings]
    exact printed.restoreAttr

theorem pflush (printed : WellPrinted start state) : WellPrinted start (pflush state) := by
  constructor
  · exact printed.buffered.pflush
  · rw [pflush_shown]
    exact printed.lines
  · rw [pflush_shown]
    exact printed.colours
  · exact printed.palette
  · exact printed.restoreAttr

theorem psetattr (printed : WellPrinted start state) {attr : UINTN}
    (known : attr ∈ start.palette) : WellPrinted start (psetattr attr state) := by
  have textual : shownText (GnuEfi.psetattr attr state).shown = shownText state.shown := by
    rw [psetattr_shown, shownText_append]
    split
    · exact List.append_nil _
    · exact List.append_nil _
  constructor
  · exact printed.buffered.psetattr attr
  · rw [textual]
    exact printed.lines
  · intro other member
    rw [psetattr_shown, List.mem_append] at member
    rcases member with before | last
    · exact printed.colours other before
    · split at last
      · cases List.mem_singleton.mp last
        exact known
      · cases last
  · intro colour member
    rcases List.mem_cons.mp member with rfl | other
    · exact known
    · exact printed.palette (List.mem_cons_of_mem _ other)
  · exact List.mem_cons_of_mem _ (printed.palette List.mem_cons_self)

/-- The attributes of the format, and of a field for itself, are known ones. -/
theorem attr_mem_palette (printed : WellPrinted start state) {attr : UINTN}
    (member : attr ∈ [state.attrNorm, state.attrHighlight, state.attrError]) :
    attr ∈ start.palette :=
  printed.palette (List.mem_cons_of_mem _ member)

theorem leaveItem (printed : WellPrinted start state) :
    WellPrinted start (GnuEfi.leaveItem state).2 := by
  rw [GnuEfi.leaveItem]
  dsimp only
  split
  · rename_i restores
    exact printed.psetattr ((List.mem_cons.mp printed.restoreAttr).resolve_left restores)
  · exact printed

end WellPrinted

/-- The pad character of an item being read. -/
def Mode.PadSet : Mode → Prop
  | .text => True
  | .item pending => pending.pad ≠ 0
  | .digits pending => pending.pad ≠ 0

theorem setParsedWidth_pad (item : PrintItem) (value : UINTN) :
    (item.setParsedWidth value).pad = item.pad := by
  rw [PrintItem.setParsedWidth]
  split
  · rfl
  · rfl

theorem setParsedWidth_text (item : PrintItem) (value : UINTN) :
    (item.setParsedWidth value).text = item.text := by
  rw [PrintItem.setParsedWidth]
  split
  · rfl
  · rfl

theorem itemStep_keeps {start state state' : PrintState} {item : PrintItem} {mode : Mode}
    {c : CHAR16} (pad : item.pad ≠ 0) (printed : WellPrinted start state)
    (moved : itemStep item state c = some (mode, state')) :
    mode.PadSet ∧ WellPrinted start state' := by
  rw [itemStep] at moved
  split at moved
  · cases moved
    exact ⟨trivial, printed.leaveItem⟩
  split at moved
  · cases moved
    refine ⟨?_, printed⟩
    rw [Mode.PadSet, PrintItem.readDigit, setParsedWidth_pad, setParsedWidth_pad]
    exact pad
  obtain ⟨⟨item', attr, next⟩, switched, after⟩ := Option.map_eq_some_iff.mp moved
  obtain ⟨samePad, effect⟩ := printSwitch_cases switched
  have newPad : item'.pad ≠ 0 := by
    rcases samePad with same | same
    · rwa [same]
    · rw [same]
      decide
  have kept : WellPrinted start next ∧ (attr = 0 ∨ attr ∈ start.palette) := by
    rcases effect with ⟨args, rfl, colour⟩ | ⟨colour, known, rfl, rfl⟩
    · exact ⟨printed.of_args args, colour.imp_right printed.attr_mem_palette⟩
    · exact ⟨printed.psetattr (printed.attr_mem_palette known), .inl rfl⟩
  rw [afterSwitch] at after
  split at after
  · rename_i pw present
    rw [pitem_eq] at after
    have left := (kept.1.pputs (zero_not_mem_field newPad pw)).leaveItem
    rw [after] at left
    cases after
    exact ⟨trivial, left⟩
  split at after
  · rename_i colour
    have left := (kept.1.psetattr (kept.2.resolve_left colour)).of_restoreAttr.leaveItem
    rw [after] at left
    cases after
    exact ⟨trivial, left⟩
  · cases after
    exact ⟨newPad, kept.1⟩

theorem printStep_keeps {start state state' : PrintState} {mode mode' : Mode} {c : CHAR16}
    (goesOn : printer.stops (mode, state) c = false) (pad : mode.PadSet)
    (printed : WellPrinted start state)
    (moved : printStep (mode, state) c = some (mode', state')) :
    mode'.PadSet ∧ WellPrinted start state' := by
  cases mode with
  | text =>
    rw [printStep] at moved
    split at moved
    · have literal : c ≠ 0 := by simpa [printer] using goesOn
      have absent : 0 ∉ [c] := by simpa using Ne.symm literal
      cases moved
      exact ⟨trivial, printed.pputs absent⟩
    · cases moved
      exact ⟨(by decide : char16 ' ' ≠ 0), printed.of_restoreAttr⟩
  | item item => exact itemStep_keeps pad printed moved
  | digits item =>
    rw [printStep] at moved
    split at moved
    · cases moved
      refine ⟨?_, printed⟩
      rw [Mode.PadSet, PrintItem.readDigit, setParsedWidth_pad]
      exact pad
    · exact itemStep_keeps pad printed moved

/-- `_Print` from a state whose buffer is still empty, whatever the format. -/
theorem printFormat_wellPrinted {start final : PrintState} {fmt : List CHAR16}
    (buffer : start.buffer = []) (calls : start.calls = []) (len : start.len = 0)
    (restoreAttr : start.restoreAttr = 0)
    (printed : printFormat fmt start = some final) :
    WellPrinted start final ∧ final.buffer = [] := by
  obtain ⟨⟨mode, last⟩, stopped, rfl⟩ := Option.map_eq_some_iff.mp printed
  have nothing : start.shown = [] := by simp [PrintState.shown, shownCalls, buffer, calls]
  have initial : WellPrinted start start := by
    constructor
    · exact .of_empty buffer calls len
    · exact ⟨[], List.not_mem_nil, by rw [nothing]; rfl⟩
    · rw [nothing]
      exact fun _ none => by cases none
    · exact List.Subset.refl _
    · rw [restoreAttr]
      exact List.mem_cons_self
  have kept := Scanner.run_invariant
    (fun current => current.1.PadSet ∧ WellPrinted start current.2)
    (fun _ _ _ goesOn holds moved => printStep_keeps goesOn holds.1 holds.2 moved)
    ⟨trivial, initial⟩ stopped
  exact ⟨kept.2.pflush, rfl⟩

/-- What a call of `Print` does to the console, whatever the format and the arguments are:
    every string it hands over fits into the buffer with its NUL and has none inside, the
    length returned counts the characters, each line feed stands behind a carriage return,
    and no attribute is set but the console's own and the three of the format. -/
theorem iPrint_wellPrinted {modeAttribute : UINT32} {fmt : List CHAR16} {args : List PrintArg}
    {len : UINTN} {calls : List ConsoleCall}
    (printed : iPrint modeAttribute fmt args = some (len, calls)) :
    (∀ buffer, .output buffer ∈ calls → buffer.length < printStringLen ∧ 0 ∉ buffer) ∧
      len = BitVec.ofNat 64 (shownText (shownCalls calls)).length ∧
      (∃ raw, 0 ∉ raw ∧ shownText (shownCalls calls) = lineEnds raw) ∧
      ∀ attr, .setAttr attr ∈ calls → attr ∈ (consoleState modeAttribute args).palette := by
  obtain ⟨final, finished, result⟩ := Option.map_eq_some_iff.mp printed
  cases result
  obtain ⟨sound, empty⟩ := printFormat_wellPrinted rfl rfl rfl rfl finished
  have shown : final.shown = shownCalls final.calls := by simp [PrintState.shown, empty]
  have buffered := sound.buffered
  obtain ⟨raw, noNul, text⟩ := sound.lines
  rw [shown] at text
  refine ⟨fun buffer member => ⟨?_, fun zero => ?_⟩, ?_, ⟨raw, noNul, text⟩, fun attr member => ?_⟩
  · exact Nat.lt_of_le_of_lt (buffered.fits buffer member) (by decide)
  · apply zero_not_mem_lineEnds noNul
    rw [← text]
    apply List.mem_filterMap.mpr
    exact ⟨.char 0, List.mem_flatMap.mpr ⟨_, member, List.mem_map_of_mem zero⟩, rfl⟩
  · rw [← shown]
    exact buffered.len
  · apply sound.colours attr
    rw [shown]
    exact List.mem_flatMap.mpr ⟨_, member, List.mem_singleton.mpr rfl⟩

theorem iPrint_wellPrinted_line :
    iPrint 0x07 (wide "%x\n" ++ [0]) [.number 0x2a] = some (4, [.output (wide "2A\r\n")]) ∧
      (∀ buffer, .output buffer ∈ [ConsoleCall.output (wide "2A\r\n")] →
        buffer.length < printStringLen ∧ 0 ∉ buffer) ∧
      (4 : UINTN) =
        BitVec.ofNat 64 (shownText (shownCalls [.output (wide "2A\r\n")])).length ∧
      (∃ raw, 0 ∉ raw ∧ shownText (shownCalls [.output (wide "2A\r\n")]) = lineEnds raw) ∧
      ∀ attr, .setAttr attr ∈ [ConsoleCall.output (wide "2A\r\n")] →
        attr ∈ (consoleState 0x07 [.number 0x2a]).palette := by
  have printed : iPrint 0x07 (wide "%x\n" ++ [0]) [.number 0x2a] =
      some (4, [.output (wide "2A\r\n")]) := rfl
  exact ⟨printed, iPrint_wellPrinted printed⟩

end HvisorUefiPacker.GnuEfi
