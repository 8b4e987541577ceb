import Mathlib.Computability.StateTransition

/-! # Runs of a machine

A machine is a step function that ends with `none`, and `StateTransition.eval`
is the state its run ends in.  The rules below show that a run ends, by a
measure that every round of a loop lowers, or that it never does, by an
invariant that every step keeps.  `Embeds` is a machine that runs inside of
another one, as a function that is called does in its caller.
-/

namespace Steps

open StateTransition

variable {σ τ : Type} {step : σ → Option σ}

/-- The run from `state` ends, and in a state that satisfies `post`. -/
def Halts (step : σ → Option σ) (post : σ → Prop) (state : σ) : Prop :=
  ∃ final ∈ eval step state, post final

/-- The run from `state` has no end. -/
def Forever (step : σ → Option σ) (state : σ) : Prop := ∀ final, final ∉ eval step state

section Reaching

variable {first second third : σ}

theorem reaches_of_step (stepped : step first = some second) : Reaches step first second :=
  Relation.ReflTransGen.single stepped

theorem reaches_step (stepped : step first = some second) (rest : Reaches step second third) :
    Reaches step first third :=
  Relation.ReflTransGen.head stepped rest

theorem reaches_invariant (invariant : σ → Prop) (reaches : Reaches step first second)
    (preserved : ∀ state next, invariant state → step state = some next → invariant next)
    (initial : invariant first) : invariant second := by
  induction reaches with
  | refl => exact initial
  | tail reached stepped inductionHypothesis => exact preserved _ _ inductionHypothesis stepped

end Reaching

/-! ## Runs that end -/

section Halting

variable {post weaker : σ → Prop} {state next : σ}

theorem halts_of_end (ended : step state = none) (holds : post state) : Halts step post state :=
  ⟨state, mem_eval.mpr ⟨.refl, ended⟩, holds⟩

theorem halts_of_reaches (reaches : Reaches step state next) (halts : Halts step post next) :
    Halts step post state := by
  obtain ⟨final, result, holds⟩ := halts
  exact ⟨final, reaches_eval reaches ▸ result, holds⟩

theorem halts_of_step (stepped : step state = some next) (halts : Halts step post next) :
    Halts step post state :=
  halts_of_reaches (reaches_of_step stepped) halts

theorem Halts.mono (halts : Halts step post state) (implies : ∀ final, post final → weaker final) :
    Halts step weaker state := by
  obtain ⟨final, result, holds⟩ := halts
  exact ⟨final, result, implies final holds⟩

/-- A run has one end. -/
theorem Halts.post_of_mem (halts : Halts step post state) {final : σ}
    (result : final ∈ eval step state) : post final := by
  obtain ⟨other, ended, holds⟩ := halts
  rwa [Part.mem_unique result ended]

end Halting

/-! ## Runs without an end -/

section Endless

variable {post : σ → Prop} {state next : σ}

theorem forever_of_reaches (reaches : Reaches step state next) (forever : Forever step next) :
    Forever step state := by
  intro final result
  rw [reaches_eval reaches] at result
  exact forever final result

theorem forever_of_invariant (invariant : σ → Prop)
    (goesOn : ∀ state, invariant state → ∃ next, step state = some next ∧ invariant next)
    {state : σ} (initial : invariant state) : Forever step state := by
  intro final result
  obtain ⟨reaches, ended⟩ := mem_eval.mp result
  have kept : invariant final := by
    apply reaches_invariant invariant reaches _ initial
    intro state next holds stepped
    obtain ⟨other, same, kept⟩ := goesOn state holds
    rw [stepped] at same
    cases same
    exact kept
  obtain ⟨next, stepped, -⟩ := goesOn final kept
  rw [ended] at stepped
  cases stepped

/-- A loop without a way out: every round takes a step and ends where a round begins. -/
theorem forever_of_rounds (invariant : σ → Prop)
    (round : ∀ state, invariant state → ∃ next, Reaches₁ step state next ∧ invariant next)
    {state : σ} (initial : invariant state) : Forever step state := by
  intro final result
  have never : ∀ later, Reaches step state later → ¬invariant later := by
    refine @evalInduction σ step final (fun state => ∀ later, Reaches step state later → ¬invariant later)
      state result ?_
    intro state _ inductionHypothesis later reaches holds
    rcases reaches.cases_head with rfl | ⟨next, stepped, rest⟩
    · obtain ⟨next, reached, kept⟩ := round state holds
      obtain ⟨middle, stepped, rest⟩ := Relation.TransGen.head'_iff.mp reached
      exact inductionHypothesis middle stepped next rest kept
    · exact inductionHypothesis next stepped later rest holds
  exact never state .refl initial

/-- A state that is its own successor. -/
theorem forever_of_loop (loops : step state = some state) : Forever step state :=
  forever_of_invariant (· = state) (fun _ same => ⟨state, same ▸ loops, rfl⟩) rfl

end Endless

/-! ## A machine inside of another -/

/-- While the inner machine runs, the outer one makes its steps. -/
def Embeds (inner : σ → Option σ) (outer : τ → Option τ) (embed : σ → τ) : Prop :=
  ∀ state next, inner state = some next → outer (embed state) = some (embed next)

namespace Embeds

variable {outer : τ → Option τ} {embed : σ → τ} {state next : σ}

theorem reaches (embeds : Embeds step outer embed) (inside : Reaches step state next) :
    Reaches outer (embed state) (embed next) :=
  Relation.ReflTransGen.lift embed (fun state next => embeds state next) _ _ inside

theorem halts (embeds : Embeds step outer embed) {post : σ → Prop} {result : τ → Prop}
    (inside : Halts step post state)
    (behind : ∀ final, step final = none → post final → Halts outer result (embed final)) :
    Halts outer result (embed state) := by
  obtain ⟨final, ended, holds⟩ := inside
  obtain ⟨reached, last⟩ := mem_eval.mp ended
  exact halts_of_reaches (embeds.reaches reached) (behind final last holds)

/-- A function that never returns keeps its caller from returning. -/
theorem forever (embeds : Embeds step outer embed) (inside : Forever step state) :
    Forever outer (embed state) := by
  apply forever_of_invariant fun outside => ∃ state, outside = embed state ∧ Forever step state
  · rintro _ ⟨state, rfl, endless⟩
    cases stepped : step state with
    | none => exact absurd (mem_eval.mpr ⟨.refl, stepped⟩) (endless state)
    | some next =>
      have rest : Forever step next := by
        intro final result
        rw [← reaches_eval (reaches_of_step stepped)] at result
        exact endless final result
      exact ⟨embed next, embeds state next stepped, next, rfl, rest⟩
  · exact ⟨state, rfl, inside⟩

end Embeds

end Steps
