import Mathlib.Data.Option.Basic

/-! # Scanners

A scanner goes through a sequence element by element.  Each element moves its
state, or cannot be handled, until one is met that stops it; what lies behind
that element is never looked at.

* `Reads` is a run over elements none of which stops the scanner, and
  `run_append` cuts such a run off the front.
* `run_invariant` carries an invariant through a run, and `run_simulates` a relation
  to a second scanner.
-/

structure Scanner (σ α : Type) where
  step : σ → α → Option σ
  stops : σ → α → Bool

namespace Scanner

variable {σ τ α : Type}

/-- The state the scanner stops in; `none` when it meets an element it cannot handle,
    or the end of the sequence. -/
def run (scanner : Scanner σ α) : σ → List α → Option σ
  | _, [] => none
  | state, element :: rest =>
    if scanner.stops state element then some state
    else (scanner.step state element).bind fun next => scanner.run next rest

inductive Reads (scanner : Scanner σ α) : σ → List α → σ → Prop
  | nil {state : σ} : Reads scanner state [] state
  | cons {state next final : σ} {element : α} {rest : List α}
      (goesOn : scanner.stops state element = false)
      (moved : scanner.step state element = some next)
      (others : Reads scanner next rest final) : Reads scanner state (element :: rest) final

variable {scanner : Scanner σ α}

theorem run_of_stops {state : σ} {element : α} (stopped : scanner.stops state element = true)
    (rest : List α) : scanner.run state (element :: rest) = some state := by
  rw [run, if_pos stopped]

theorem run_append {state middle : σ} {first : List α} (reads : scanner.Reads state first middle)
    (rest : List α) : scanner.run state (first ++ rest) = scanner.run middle rest := by
  induction reads with
  | nil => rfl
  | cons goesOn moved _ inductionHypothesis =>
    rw [List.cons_append, run, goesOn, moved]
    exact inductionHypothesis

theorem Reads.append {state middle final : σ} {first second : List α}
    (head : scanner.Reads state first middle) (tail : scanner.Reads middle second final) :
    scanner.Reads state (first ++ second) final := by
  induction head with
  | nil => exact tail
  | cons goesOn moved _ inductionHypothesis => exact .cons goesOn moved (inductionHypothesis tail)

theorem reads_singleton {state next : σ} {element : α}
    (goesOn : scanner.stops state element = false)
    (moved : scanner.step state element = some next) : scanner.Reads state [element] next :=
  .cons goesOn moved .nil

/-- What every step keeps holds where the scanner stops. -/
theorem run_invariant (invariant : σ → Prop)
    (keeps : ∀ state element next, scanner.stops state element = false → invariant state →
      scanner.step state element = some next → invariant next)
    {state final : σ} {elements : List α} (holds : invariant state)
    (stopped : scanner.run state elements = some final) : invariant final := by
  induction elements generalizing state with
  | nil => cases stopped
  | cons element rest inductionHypothesis =>
    rw [run] at stopped
    split at stopped
    · cases stopped
      exact holds
    · rename_i goesOn
      obtain ⟨next, moved, others⟩ := Option.bind_eq_some_iff.mp stopped
      exact inductionHypothesis (keeps state element next (by simpa using goesOn) holds moved) others

/-- What one scanner can do, a second one that stops together with it can do as well. -/
theorem run_simulates {other : Scanner τ α} (related : σ → τ → Prop)
    (stop : ∀ state state' element, related state state' →
      scanner.stops state element = other.stops state' element)
    (move : ∀ state state' element next', related state state' →
      scanner.stops state element = false → other.step state' element = some next' →
      ∃ next, scanner.step state element = some next ∧ related next next')
    {state : σ} {state' final' : τ} {elements : List α} (holds : related state state')
    (stopped : other.run state' elements = some final') :
    ∃ final, scanner.run state elements = some final ∧ related final final' := by
  induction elements generalizing state state' with
  | nil => cases stopped
  | cons element rest inductionHypothesis =>
    rw [run, ← stop state state' element holds] at stopped
    cases here : scanner.stops state element with
    | true =>
      rw [here, if_pos rfl] at stopped
      cases stopped
      exact ⟨state, run_of_stops here rest, holds⟩
    | false =>
      rw [here, if_neg Bool.false_ne_true] at stopped
      obtain ⟨next', moved', others⟩ := Option.bind_eq_some_iff.mp stopped
      obtain ⟨next, moved, relatedNext⟩ := move state state' element next' holds here moved'
      obtain ⟨final, reached, relatedFinal⟩ := inductionHypothesis relatedNext others
      refine ⟨final, ?_, relatedFinal⟩
      rw [run, here, if_neg Bool.false_ne_true, moved]
      exact reached

/-- A scanner that has stopped does not see what lies further on. -/
theorem run_append_of_stopped {state final : σ} {elements : List α}
    (stopped : scanner.run state elements = some final) (behind : List α) :
    scanner.run state (elements ++ behind) = some final := by
  induction elements generalizing state with
  | nil => cases stopped
  | cons element rest inductionHypothesis =>
    rw [List.cons_append]
    rw [run] at stopped ⊢
    split at stopped
    · rename_i here
      rw [if_pos here]
      exact stopped
    · rename_i goesOn
      obtain ⟨next, moved, others⟩ := Option.bind_eq_some_iff.mp stopped
      rw [if_neg goesOn, moved]
      exact inductionHypothesis others

end Scanner
