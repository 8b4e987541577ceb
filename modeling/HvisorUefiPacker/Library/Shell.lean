import Mathlib.Data.List.DropRight
import Mathlib.Tactic.Common

/-! # Shell scripts

A script runs in a shell: it reads and assigns the variables in the shell's
environment, writes lines, and ends with a value, after which the next command
runs, or by `exit`.  A `subshell` runs in a copy of the environment, so that of
what it does only the lines get out; both sides of a pipeline are subshells.

* `Runs` says what a script leaves that does not exit, `runs_bind` takes a sequence
  apart.
* `Writes` and `Inert` are about every run of a script, also one that exits: the
  lines it may write, and that it assigns nothing.
* `runs_whileRead` is the rule for a loop over lines.
-/

namespace Shell

abbrev Text := List Char

def text (literal : String) : Text := literal.toList

variable {ν ο α β ι : Type}

/-- The environment after a script, the lines it has written, and its value or the status
    it has exited with. -/
structure Result (ν ο α : Type) where
  environment : ν
  output : List ο
  ending : Except Nat α

def Script (ν ο α : Type) : Type := ν → Result ν ο α

instance : Monad (Script ν ο) where
  pure value := fun environment => ⟨environment, [], .ok value⟩
  bind first next := fun environment =>
    match first environment with
    | ⟨middle, written, .ok value⟩ =>
      let rest := next value middle
      { rest with output := written ++ rest.output }
    | ⟨middle, written, .error status⟩ => ⟨middle, written, .error status⟩

/-! ## Commands -/

def assign (update : ν → ν) : Script ν ο Unit := fun environment => ⟨update environment, [], .ok ()⟩

/-- The value of an expansion, such as `$name`. -/
def expand (value : ν → α) : Script ν ο α := fun environment =>
  ⟨environment, [], .ok (value environment)⟩

def echoAll (output : List ο) : Script ν ο Unit := fun environment => ⟨environment, output, .ok ()⟩

def echo (line : ο) : Script ν ο Unit := echoAll [line]

def exit (status : Nat) : Script ν ο α := fun environment => ⟨environment, [], .error status⟩

/-- `( script )`: neither assignments nor an `exit` get out of it. -/
def subshell (script : Script ν ο α) : Script ν ο Unit := fun environment =>
  ⟨environment, (script environment).output, .ok ()⟩

/-- `while read line; do body; done`, over the lines still to be read. -/
def whileRead (body : Text → Script ν ο Unit) : List Text → Script ν ο Unit
  | [] => pure ()
  | line :: rest => do
    body line
    whileRead body rest

/-! ## Reading -/

/-- The complete lines of a text. -/
def lines (input : Text) : List Text := (input.splitOn '\n').dropLast

/-- The characters of the default `IFS`. -/
def isBlank (char : Char) : Bool := char == ' ' || char == '\t' || char == '\n'

/-- `read -r first rest`: the first word of a line, and what follows it. -/
def readTwo (line : Text) : Text × Text :=
  let line := line.dropWhile isBlank
  let rest := (line.dropWhile fun char => !isBlank char).dropWhile isBlank
  (line.takeWhile fun char => !isBlank char, rest.rdropWhile isBlank)

/-- `$( )` drops the newlines at the end. -/
def substitution (output : Text) : Text := output.rdropWhile (· == '\n')

/-- Not empty, and without blanks. -/
structure Word (word : Text) : Prop where
  nonempty : word ≠ []
  unbroken : ∀ char ∈ word, isBlank char = false

instance (word : Text) : Decidable (Word word) :=
  decidable_of_iff (word ≠ [] ∧ word.any isBlank = false)
    ⟨fun ⟨nonempty, unbroken⟩ => ⟨nonempty, by simpa using unbroken⟩,
      fun isWord => ⟨isWord.nonempty, by simpa using isWord.unbroken⟩⟩

theorem lines_flatMap {items : List ι} {render : ι → Text}
    (oneLine : ∀ item ∈ items, '\n' ∉ render item) :
    lines (items.flatMap fun item => render item ++ ['\n']) = items.map render := by
  induction items with
  | nil => rfl
  | cons item items inductionHypothesis =>
    have plain : ∀ char ∈ render item, (char == '\n') = false := fun char member =>
      beq_eq_false_iff_ne.mpr fun newline => oneLine item List.mem_cons_self (newline ▸ member)
    have rest := inductionHypothesis fun other member => oneLine other (List.mem_cons_of_mem _ member)
    rw [lines, List.splitOn_eq_splitOnP] at rest ⊢
    rw [List.flatMap_cons, List.append_assoc, List.singleton_append,
      List.splitOnP_append_cons_of_forall_mem plain '\n' (beq_self_eq_true _),
      List.dropLast_cons_of_ne_nil (List.splitOnP_ne_nil _ _), rest, List.map_cons]

namespace Word

variable {word : Text}

theorem dropWhile_append (isWord : Word word) (rest : Text) :
    (word ++ rest).dropWhile isBlank = word ++ rest := by
  obtain ⟨first, others, rfl⟩ := List.exists_cons_of_ne_nil isWord.nonempty
  rw [List.cons_append, List.dropWhile_cons_of_neg]
  rw [isWord.unbroken first List.mem_cons_self]
  exact Bool.false_ne_true

theorem not_blank (isWord : Word word) : ∀ char ∈ word, (!isBlank char) = true := by
  intro char member
  rw [isWord.unbroken char member]
  rfl

end Word

theorem readTwo_words {first second : Text} (firstWord : Word first) (secondWord : Word second) :
    readTwo (first ++ ' ' :: second) = (first, second) := by
  have led : (first ++ ' ' :: second).dropWhile isBlank = first ++ ' ' :: second :=
    firstWord.dropWhile_append _
  have word : ((first ++ ' ' :: second).takeWhile fun char => !isBlank char) = first := by
    rw [List.takeWhile_append_of_pos firstWord.not_blank]
    exact List.append_nil first
  have behind : ((first ++ ' ' :: second).dropWhile fun char => !isBlank char) = ' ' :: second := by
    rw [List.dropWhile_append_of_pos firstWord.not_blank]
    rfl
  have rest : (' ' :: second).dropWhile isBlank = second := by
    have kept := secondWord.dropWhile_append []
    rw [List.append_nil] at kept
    exact kept
  have ended : second.rdropWhile isBlank = second := by
    rw [List.rdropWhile_eq_self_iff]
    intro nonempty
    rw [secondWord.unbroken _ (List.getLast_mem nonempty)]
    exact Bool.false_ne_true
  unfold readTwo
  simp only [led, word, behind, rest, ended]

/-! ## Runs -/

/-- The script ends with `value`, so that it has not exited, and leaves `after` and `output`. -/
def Runs (script : Script ν ο α) (before : ν) (value : α) (after : ν) (output : List ο) : Prop :=
  script before = ⟨after, output, .ok value⟩

section Runs

variable {before after : ν} {output : List ο}

/-- A script leaves one thing. -/
theorem Runs.unique {script : Script ν ο α} {value value' : α} {after' : ν} {output' : List ο}
    (runs : Runs script before value after output) (runs' : Runs script before value' after' output') :
    value' = value ∧ after' = after ∧ output' = output := by
  cases runs'.symm.trans runs
  exact ⟨rfl, rfl, rfl⟩

theorem runs_pure {value result : α} :
    Runs (pure value : Script ν ο α) before result after output ↔
      result = value ∧ after = before ∧ output = [] := by
  simp only [Runs, pure, Result.mk.injEq, Except.ok.injEq]
  tauto

theorem not_runs_exit {status : Nat} {value : α} :
    ¬ Runs (exit status : Script ν ο α) before value after output := by
  intro runs
  cases runs

/-- A sequence runs if both its parts do, one after the other. -/
theorem runs_bind {first : Script ν ο α} {next : α → Script ν ο β} {result : β} :
    Runs (first >>= next) before result after output ↔
      ∃ value middle written rest, Runs first before value middle written ∧
        Runs (next value) middle result after rest ∧ output = written ++ rest := by
  constructor
  · intro runs
    cases ran : first before with
    | mk middle written ending =>
      simp only [Runs, bind, ran] at runs
      cases ending with
      | ok value =>
        cases continued : next value middle with
        | mk final rest finalEnding =>
          simp only [continued] at runs
          cases runs
          exact ⟨value, middle, written, rest, ran, continued, rfl⟩
      | error status => cases runs
  · rintro ⟨value, middle, written, rest, firstRuns, nextRuns, rfl⟩
    have ran : first before = _ := firstRuns
    have continued : next value middle = _ := nextRuns
    simp only [Runs, bind, ran, continued]

theorem runs_assign_bind {update : ν → ν} {next : Unit → Script ν ο β} {result : β} :
    Runs (assign update >>= next) before result after output ↔
      Runs (next ()) (update before) result after output := Iff.rfl

theorem runs_expand_bind {value : ν → α} {next : α → Script ν ο β} {result : β} :
    Runs (expand value >>= next) before result after output ↔
      Runs (next (value before)) before result after output := Iff.rfl

theorem runs_echo {line : ο} :
    Runs (echo line : Script ν ο Unit) before () after output ↔ after = before ∧ output = [line] := by
  simp only [Runs, echo, echoAll, Result.mk.injEq, and_true]
  tauto

theorem runs_echo_bind {line : ο} {next : Unit → Script ν ο β} {result : β} :
    Runs (echo line >>= next) before result after (line :: output) ↔
      Runs (next ()) before result after output := by
  rw [runs_bind]
  constructor
  · rintro ⟨value, middle, written, rest, echoed, ran, same⟩
    cases echoed
    cases same
    exact ran
  · intro ran
    exact ⟨(), before, [line], output, rfl, ran, rfl⟩

/-- A subshell leaves the environment as it is. -/
theorem runs_subshell {script : Script ν ο α} :
    Runs (subshell script) before () after output ↔
      after = before ∧ output = (script before).output := by
  simp only [Runs, subshell, Result.mk.injEq, and_true]
  tauto

/-- Where the body runs on each line, the loop does; `report` is what it writes on a line. -/
theorem runs_whileRead {body : Text → Script ν ο Unit} {items : List ι} {render : ι → Text}
    {report : ι → List ο} (invariant : List ι → ν → Prop)
    (round : ∀ done item before, item ∈ items → invariant done before →
      ∃ after, Runs (body (render item)) before () after (report item) ∧
        invariant (done ++ [item]) after)
    (initial : invariant [] before) :
    ∃ after, Runs (whileRead body (items.map render)) before () after (items.flatMap report) ∧
      invariant items after := by
  have rounds : ∀ todo done current, (∀ item ∈ todo, item ∈ items) → invariant done current →
      ∃ after, Runs (whileRead body (todo.map render)) current () after (todo.flatMap report) ∧
        invariant (done ++ todo) after := by
    intro todo
    induction todo with
    | nil =>
      intro done current _ holds
      refine ⟨current, rfl, ?_⟩
      rwa [List.append_nil]
    | cons item todo inductionHypothesis =>
      intro done current listed holds
      obtain ⟨middle, ran, holdsNext⟩ :=
        round done item current (listed item List.mem_cons_self) holds
      obtain ⟨after, rest, holdsAfter⟩ := inductionHypothesis (done ++ [item]) middle
        (fun other member => listed other (List.mem_cons_of_mem _ member)) holdsNext
      rw [List.append_assoc, List.singleton_append] at holdsAfter
      refine ⟨after, ?_, holdsAfter⟩
      rw [List.map_cons, whileRead, runs_bind]
      exact ⟨(), middle, report item, _, ran, rest, rfl⟩
  exact rounds items [] before (fun _ member => member) initial

end Runs

/-! ## What a script may write and assign -/

/-- Every line the script writes is `allowed`. -/
def Writes (allowed : ο → Prop) (script : Script ν ο α) : Prop :=
  ∀ before, ∀ line ∈ (script before).output, allowed line

/-- The script assigns nothing. -/
def Inert (script : Script ν ο α) : Prop := ∀ before, (script before).environment = before

section Writes

variable {allowed : ο → Prop}

theorem writes_silent {script : Script ν ο α} (silent : ∀ before, (script before).output = []) :
    Writes allowed script := by
  intro before line member
  rw [silent before] at member
  cases member

theorem writes_echoAll {output : List ο} (allAllowed : ∀ line ∈ output, allowed line) :
    Writes allowed (echoAll output : Script ν ο Unit) := fun _ => allAllowed

theorem writes_echo {line : ο} (isAllowed : allowed line) :
    Writes allowed (echo line : Script ν ο Unit) := by
  apply writes_echoAll
  intro other member
  rwa [List.mem_singleton.mp member]

theorem Writes.bind {first : Script ν ο α} {next : α → Script ν ο β} (leads : Writes allowed first)
    (follows : ∀ value, Writes allowed (next value)) : Writes allowed (first >>= next) := by
  intro before line member
  have led := leads before
  simp only [Bind.bind] at member
  cases ran : first before with
  | mk middle written ending =>
    rw [ran] at led member
    cases ending with
    | ok value =>
      rcases List.mem_append.mp member with early | late
      · exact led line early
      · exact follows value middle line late
    | error status => exact led line member

theorem Writes.subshell {script : Script ν ο α} (writes : Writes allowed script) :
    Writes allowed (Shell.subshell script) := writes

theorem Writes.whileRead {body : Text → Script ν ο Unit} (writes : ∀ line, Writes allowed (body line))
    (input : List Text) : Writes allowed (Shell.whileRead body input) := by
  induction input with
  | nil => exact writes_silent fun _ => rfl
  | cons line rest inductionHypothesis => exact (writes line).bind fun _ => inductionHypothesis

theorem Writes.of_runs {script : Script ν ο α} (writes : Writes allowed script) {before after : ν}
    {value : α} {output : List ο} (runs : Runs script before value after output) :
    ∀ line ∈ output, allowed line := by
  have written := writes before
  rwa [show script before = _ from runs] at written

end Writes

section Inert

theorem Inert.bind {first : Script ν ο α} {next : α → Script ν ο β} (leads : Inert first)
    (follows : ∀ value, Inert (next value)) : Inert (first >>= next) := by
  intro before
  have led := leads before
  simp only [Bind.bind]
  cases ran : first before with
  | mk middle written ending =>
    rw [ran] at led
    cases ending with
    | ok value => exact (follows value middle).trans led
    | error status => exact led

theorem Inert.of_runs {script : Script ν ο α} (inert : Inert script) {before after : ν}
    {value : α} {output : List ο} (runs : Runs script before value after output) :
    after = before := by
  have kept := inert before
  rwa [show script before = _ from runs] at kept

end Inert

end Shell
