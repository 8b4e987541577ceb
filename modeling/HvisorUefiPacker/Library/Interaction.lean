import Mathlib.Logic.Basic

/-! # Interactive programs

A program is a tree of requests: it either is done with a value, or issues one
request and continues with whatever answer it gets.  A handler is the other
side of the conversation: it answers a request in a state, or never returns.

* `exec` runs a program against a handler.
* `wp` is the total-correctness precondition of a run, `Always` the safety of
  every request a run issues, and `Issues` the set of requests a program may
  issue whatever it is answered.
* The rules below compose the three over `>>=` and over counted loops, and carry an
  invariant or a relation through a run.
-/

namespace Interaction

inductive Program (Op : Type) (Ans : Op → Type) (α : Type) where
  | done (value : α) : Program Op Ans α
  | request (op : Op) (next : Ans op → Program Op Ans α) : Program Op Ans α

/-- What a run ends in: a value, or a request its handler never returned from. -/
inductive Outcome (σ α : Type) where
  | returned (value : α) (state : σ)
  | stuck (state : σ)

/-- A handler answers a request and moves its state; `none` is a request that
    never returns. -/
abbrev Handler (Op : Type) (Ans : Op → Type) (σ : Type) :=
  (op : Op) → σ → Option (Ans op × σ)

variable {Op : Type} {Ans : Op → Type} {α β γ σ : Type}

namespace Program

def bind : Program Op Ans α → (α → Program Op Ans β) → Program Op Ans β
  | .done value, next => next value
  | .request op rest, next => .request op fun answer => (rest answer).bind next

instance : Monad (Program Op Ans) where
  pure := .done
  bind := Program.bind

@[simp] theorem pure_eq (value : α) : (pure value : Program Op Ans α) = .done value := rfl

@[simp] theorem done_bind (value : α) (next : α → Program Op Ans β) :
    (Program.done value : Program Op Ans α) >>= next = next value := rfl

@[simp] theorem request_bind (op : Op) (rest : Ans op → Program Op Ans α)
    (next : α → Program Op Ans β) :
    Program.request op rest >>= next = .request op fun answer => rest answer >>= next := rfl

theorem bind_assoc (program : Program Op Ans α) (first : α → Program Op Ans β)
    (second : β → Program Op Ans γ) :
    (program >>= first) >>= second = program >>= fun value => first value >>= second := by
  induction program with
  | done value => rfl
  | request op rest inductionHypothesis =>
    simp only [request_bind]
    congr 1
    funext answer
    exact inductionHypothesis answer

/-- One request, whose answer is the value. -/
def ask (op : Op) : Program Op Ans (Ans op) := .request op .done

/-- `body first`, `body (first + 1)`, … for `count` rounds. -/
def repeatFrom (body : Nat → Program Op Ans Unit) : Nat → Nat → Program Op Ans Unit
  | 0, _ => pure ()
  | count + 1, first => do
    body first
    repeatFrom body count (first + 1)

/-- `body` on every element of a list, in order. -/
def forEach (body : β → Program Op Ans Unit) : List β → Program Op Ans Unit
  | [] => pure ()
  | element :: rest => do
    body element
    forEach body rest

end Program

open Program

namespace Outcome

def state : Outcome σ α → σ
  | .returned _ state => state
  | .stuck state => state

end Outcome

/-! ## Running a program -/

def exec (handler : Handler Op Ans σ) : Program Op Ans α → σ → Outcome σ α
  | .done value, state => .returned value state
  | .request op next, state =>
    match handler op state with
    | some (answer, state') => exec handler (next answer) state'
    | none => .stuck state

/-- The run from `state` returns, and returns into `post`. -/
def wp (handler : Handler Op Ans σ) (program : Program Op Ans α) (post : α → σ → Prop)
    (state : σ) : Prop :=
  match exec handler program state with
  | .returned value state' => post value state'
  | .stuck _ => False

/-- Every request the run from `state` issues is safe in the state it is issued in. -/
def Always (handler : Handler Op Ans σ) (safe : Op → σ → Prop) :
    Program Op Ans α → σ → Prop
  | .done _, _ => True
  | .request op next, state =>
    safe op state ∧
      match handler op state with
      | some (answer, state') => Always handler safe (next answer) state'
      | none => True

/-- Whatever it is answered, the program only issues `allowed` requests. -/
def Issues (allowed : Op → Prop) : Program Op Ans α → Prop
  | .done _ => True
  | .request op next => allowed op ∧ ∀ answer, Issues allowed (next answer)

variable {handler : Handler Op Ans σ}

theorem exec_bind (program : Program Op Ans α) (next : α → Program Op Ans β) (state : σ) :
    exec handler (program >>= next) state =
      match exec handler program state with
      | .returned value state' => exec handler (next value) state'
      | .stuck state' => .stuck state' := by
  induction program generalizing state with
  | done value => rfl
  | request op rest inductionHypothesis =>
    simp only [request_bind, exec]
    cases handler op state with
    | none => rfl
    | some reply => exact inductionHypothesis reply.1 reply.2

theorem exec_bind_of_returned {program : Program Op Ans α} {next : α → Program Op Ans β}
    {state state' : σ} {value : α} (returned : exec handler program state = .returned value state') :
    exec handler (program >>= next) state = exec handler (next value) state' := by
  rw [exec_bind, returned]

/-- A sequence that returned went through its first part. -/
theorem returned_bind {program : Program Op Ans α} {next : α → Program Op Ans β}
    {state final : σ} {result : β}
    (returned : exec handler (program >>= next) state = .returned result final) :
    ∃ value middle, exec handler program state = .returned value middle ∧
      exec handler (next value) middle = .returned result final := by
  rw [exec_bind] at returned
  cases first : exec handler program state with
  | returned value middle =>
    rw [first] at returned
    exact ⟨value, middle, rfl, returned⟩
  | stuck middle =>
    rw [first] at returned
    cases returned

/-! ## Total correctness -/

@[simp] theorem wp_done (value : α) (post : α → σ → Prop) (state : σ) :
    wp handler (.done value : Program Op Ans α) post state ↔ post value state := Iff.rfl

theorem wp_request (op : Op) (next : Ans op → Program Op Ans α) (post : α → σ → Prop)
    (state : σ) :
    wp handler (.request op next) post state ↔
      ∃ answer state', handler op state = some (answer, state') ∧
        wp handler (next answer) post state' := by
  unfold wp
  simp only [exec]
  cases handler op state with
  | none => simp
  | some reply =>
    constructor
    · intro correct
      exact ⟨reply.1, reply.2, rfl, correct⟩
    · rintro ⟨answer, state', answered, correct⟩
      cases answered
      exact correct

@[simp] theorem wp_bind (program : Program Op Ans α) (next : α → Program Op Ans β)
    (post : β → σ → Prop) (state : σ) :
    wp handler (program >>= next) post state ↔
      wp handler program (fun value state' => wp handler (next value) post state') state := by
  unfold wp
  rw [exec_bind]
  cases exec handler program state <;> rfl

theorem wp_iff_exec {program : Program Op Ans α} {post : α → σ → Prop} {state : σ} :
    wp handler program post state ↔
      ∃ value state', exec handler program state = .returned value state' ∧ post value state' := by
  unfold wp
  cases exec handler program state with
  | returned value state' =>
    constructor
    · intro holds
      exact ⟨value, state', rfl, holds⟩
    · rintro ⟨_, _, returned, holds⟩
      cases returned
      exact holds
  | stuck state' => simp

theorem wp_of_returned {program : Program Op Ans α} {post : α → σ → Prop} {state state' : σ}
    {value : α} (returned : exec handler program state = .returned value state')
    (holds : post value state') : wp handler program post state :=
  wp_iff_exec.mpr ⟨value, state', returned, holds⟩

theorem post_of_returned {program : Program Op Ans α} {post : α → σ → Prop} {state state' : σ}
    {value : α} (correct : wp handler program post state)
    (returned : exec handler program state = .returned value state') : post value state' := by
  unfold wp at correct
  rwa [returned] at correct

theorem wp_mono {program : Program Op Ans α} {post weaker : α → σ → Prop} {state : σ}
    (correct : wp handler program post state)
    (implies : ∀ value state', post value state' → weaker value state') :
    wp handler program weaker state := by
  unfold wp at correct ⊢
  cases run : exec handler program state with
  | returned value state' => rw [run] at correct; exact implies value state' correct
  | stuck state' => rw [run] at correct; exact correct

theorem wp_and {program : Program Op Ans α} {first second : α → σ → Prop} {state : σ}
    (left : wp handler program first state) (right : wp handler program second state) :
    wp handler program (fun value state' => first value state' ∧ second value state') state := by
  obtain ⟨value, state', returned, holds⟩ := wp_iff_exec.mp left
  exact wp_of_returned returned ⟨holds, post_of_returned right returned⟩

/-- A counted loop keeps an invariant indexed by the round it is about to make. -/
theorem wp_repeatFrom (body : Nat → Program Op Ans Unit) (invariant : Nat → σ → Prop)
    (count first : Nat) (state : σ)
    (round : ∀ index state, first ≤ index → index < first + count → invariant index state →
      wp handler (body index) (fun _ state' => invariant (index + 1) state') state)
    (initial : invariant first state) :
    wp handler (repeatFrom body count first) (fun _ state' => invariant (first + count) state')
      state := by
  induction count generalizing first state with
  | zero => exact initial
  | succ count inductionHypothesis =>
    simp only [repeatFrom, wp_bind]
    apply wp_mono (round first state (Nat.le_refl _) (by omega) initial)
    intro _ state' afterRound
    have rest := inductionHypothesis (first + 1) state'
      (fun index state lower upper => round index state (by omega) (by omega)) afterRound
    rwa [Nat.add_assoc, Nat.add_comm 1 count] at rest

/-! ## The requests a program may issue -/

section Issues

variable {allowed : Op → Prop}

@[simp] theorem issues_done (value : α) :
    Issues allowed (.done value : Program Op Ans α) ↔ True := Iff.rfl

@[simp] theorem issues_request (op : Op) (next : Ans op → Program Op Ans α) :
    Issues allowed (.request op next) ↔ allowed op ∧ ∀ answer, Issues allowed (next answer) :=
  Iff.rfl

theorem issues_ask (op : Op) : Issues allowed (ask op : Program Op Ans (Ans op)) ↔ allowed op :=
  ⟨And.left, fun isAllowed => ⟨isAllowed, fun _ => trivial⟩⟩

theorem issues_bind {program : Program Op Ans α} {next : α → Program Op Ans β}
    (first : Issues allowed program) (rest : ∀ value, Issues allowed (next value)) :
    Issues allowed (program >>= next) := by
  induction program with
  | done value => exact rest value
  | request op tail inductionHypothesis =>
    exact ⟨first.1, fun answer => inductionHypothesis answer (first.2 answer)⟩

theorem issues_repeatFrom {body : Nat → Program Op Ans Unit} {count first : Nat}
    (round : ∀ index, first ≤ index → index < first + count → Issues allowed (body index)) :
    Issues allowed (repeatFrom body count first) := by
  induction count generalizing first with
  | zero => trivial
  | succ count inductionHypothesis =>
    refine issues_bind (round first (Nat.le_refl _) (by omega)) fun _ => ?_
    exact inductionHypothesis fun index lower upper => round index (by omega) (by omega)

theorem issues_forEach {body : β → Program Op Ans Unit} {elements : List β}
    (round : ∀ element, Issues allowed (body element)) :
    Issues allowed (forEach body elements) := by
  induction elements with
  | nil => trivial
  | cons element rest inductionHypothesis =>
    exact issues_bind (round element) fun _ => inductionHypothesis

theorem issues_of_forall (every : ∀ op, allowed op) (program : Program Op Ans α) :
    Issues allowed program := by
  induction program with
  | done value => trivial
  | request op next inductionHypothesis => exact ⟨every op, inductionHypothesis⟩

theorem issues_mono {weaker : Op → Prop} {program : Program Op Ans α}
    (issues : Issues allowed program) (implies : ∀ op, allowed op → weaker op) :
    Issues weaker program := by
  induction program with
  | done value => trivial
  | request op next inductionHypothesis =>
    exact ⟨implies op issues.1, fun answer => inductionHypothesis answer (issues.2 answer)⟩

/-- A program whose requests are all answered returns. -/
theorem exec_returns_of_issues
    (answered : ∀ op state, allowed op → ∃ reply, handler op state = some reply)
    {program : Program Op Ans α} (issues : Issues allowed program) (state : σ) :
    ∃ value state', exec handler program state = .returned value state' := by
  induction program generalizing state with
  | done value => exact ⟨value, state, rfl⟩
  | request op next inductionHypothesis =>
    obtain ⟨reply, replied⟩ := answered op state issues.1
    simp only [exec, replied]
    exact inductionHypothesis reply.1 (issues.2 reply.1) reply.2

end Issues

/-! ## Safety of every request -/

section Always

variable {safe : Op → σ → Prop}

theorem always_request (op : Op) (next : Ans op → Program Op Ans α) (state : σ) :
    Always handler safe (.request op next) state ↔
      safe op state ∧ ∀ answer state', handler op state = some (answer, state') →
        Always handler safe (next answer) state' := by
  rw [Always]
  cases handler op state with
  | none => simp
  | some reply =>
    apply and_congr_right
    intro _
    constructor
    · intro always answer state' answered
      cases answered
      exact always
    · intro always
      exact always reply.1 reply.2 rfl

theorem always_bind (program : Program Op Ans α) (next : α → Program Op Ans β) (state : σ) :
    Always handler safe (program >>= next) state ↔
      Always handler safe program state ∧
        ∀ value state', exec handler program state = .returned value state' →
          Always handler safe (next value) state' := by
  induction program generalizing state with
  | done value => simp [Always, exec]
  | request op rest inductionHypothesis =>
    simp only [request_bind, Always, exec]
    cases handler op state with
    | none => simp
    | some reply =>
      dsimp only
      rw [inductionHypothesis, and_assoc]

/-- Behind a first part that is safe and returns, only the rest matters. -/
theorem always_bind_of_returned {program : Program Op Ans α} {next : α → Program Op Ans β}
    {state state' : σ} {value : α} (first : Always handler safe program state)
    (returned : exec handler program state = .returned value state') :
    Always handler safe (program >>= next) state ↔ Always handler safe (next value) state' := by
  rw [always_bind, returned]
  constructor
  · rintro ⟨-, rest⟩
    exact rest value state' rfl
  · intro rest
    refine ⟨first, fun value' state'' same => ?_⟩
    cases same
    exact rest

theorem always_of_issues {allowed : Op → Prop} {program : Program Op Ans α}
    (issues : Issues allowed program) (implies : ∀ op state, allowed op → safe op state)
    (state : σ) : Always handler safe program state := by
  induction program generalizing state with
  | done value => trivial
  | request op next inductionHypothesis =>
    rw [always_request]
    exact ⟨implies op state issues.1, fun answer state' _ =>
      inductionHypothesis answer (issues.2 answer) state'⟩

/-- Sequencing for safety, where what the first part returns into is known by `wp`. -/
theorem always_bind_of_wp {program : Program Op Ans α} {next : α → Program Op Ans β}
    {post : α → σ → Prop} {state : σ} (first : Always handler safe program state)
    (correct : wp handler program post state)
    (rest : ∀ value state', post value state' → Always handler safe (next value) state') :
    Always handler safe (program >>= next) state := by
  rw [always_bind]
  exact ⟨first, fun value state' returned =>
    rest value state' (post_of_returned correct returned)⟩

theorem always_of_safe (all : ∀ op state, safe op state) (program : Program Op Ans α) (state : σ) :
    Always handler safe program state := by
  induction program generalizing state with
  | done value => trivial
  | request op next inductionHypothesis =>
    rw [always_request]
    exact ⟨all op state, fun answer state' _ => inductionHypothesis answer state'⟩

/-- A reflexive, transitive relation that every safe request keeps holds between
    the first and the last state of a run, however the run ends. -/
theorem exec_relates (related : σ → σ → Prop) (refl : ∀ state, related state state)
    (trans : ∀ first second third, related first second → related second third →
      related first third)
    (step : ∀ op state answer state', safe op state → handler op state = some (answer, state') →
      related state state')
    {program : Program Op Ans α} {state : σ} (always : Always handler safe program state) :
    related state (exec handler program state).state := by
  induction program generalizing state with
  | done value => exact refl state
  | request op next inductionHypothesis =>
    rw [always_request] at always
    simp only [exec]
    cases answered : handler op state with
    | none => exact refl state
    | some reply =>
      exact trans _ _ _ (step op state reply.1 reply.2 always.1 answered)
        (inductionHypothesis reply.1 (always.2 reply.1 reply.2 answered))

/-- The same for a program all of whose requests keep the relation. -/
theorem exec_relates_of_issues {allowed : Op → Prop} (related : σ → σ → Prop)
    (refl : ∀ state, related state state)
    (trans : ∀ first second third, related first second → related second third →
      related first third)
    (step : ∀ op state answer state', allowed op → handler op state = some (answer, state') →
      related state state')
    {program : Program Op Ans α} (issues : Issues allowed program) (state : σ) :
    related state (exec handler program state).state :=
  exec_relates related refl trans step
    (always_of_issues issues (fun _ _ isAllowed => isAllowed) state)

/-- If all its requests are answered as well, the program returns into the relation. -/
theorem wp_of_issues {allowed : Op → Prop} (related : σ → σ → Prop)
    (refl : ∀ state, related state state)
    (trans : ∀ first second third, related first second → related second third →
      related first third)
    (step : ∀ op state, allowed op →
      ∃ answer state', handler op state = some (answer, state') ∧ related state state')
    {program : Program Op Ans α} (issues : Issues allowed program) (state : σ) :
    wp handler program (fun _ state' => related state state') state := by
  induction program generalizing state with
  | done value => exact refl state
  | request op next inductionHypothesis =>
    obtain ⟨answer, middle, answered, first⟩ := step op state issues.1
    rw [wp_request]
    refine ⟨answer, middle, answered, ?_⟩
    apply wp_mono (inductionHypothesis answer (issues.2 answer) middle)
    exact fun _ final rest => trans _ _ _ first rest

theorem always_mono {weaker : Op → σ → Prop} {program : Program Op Ans α} {state : σ}
    (always : Always handler safe program state)
    (implies : ∀ op state, safe op state → weaker op state) :
    Always handler weaker program state := by
  induction program generalizing state with
  | done value => trivial
  | request op next inductionHypothesis =>
    rw [always_request] at always ⊢
    exact ⟨implies op state always.1, fun answer state' answered =>
      inductionHypothesis answer (always.2 answer state' answered)⟩

end Always

/-! ## Correctness of the safe runs -/

/-- The run from `state` returns into `post`, provided that its requests are safe. -/
def wpSafe (handler : Handler Op Ans σ) (safe : Op → σ → Prop) (program : Program Op Ans α)
    (post : α → σ → Prop) (state : σ) : Prop :=
  Always handler safe program state → wp handler program post state

section Safe

variable {safe : Op → σ → Prop} {program : Program Op Ans α} {post : α → σ → Prop} {state : σ}

theorem wpSafe_of_wp (correct : wp handler program post state) :
    wpSafe handler safe program post state := fun _ => correct

theorem wpSafe_mono {weaker : α → σ → Prop} (correct : wpSafe handler safe program post state)
    (implies : ∀ value state', post value state' → weaker value state') :
    wpSafe handler safe program weaker state :=
  fun always => wp_mono (correct always) implies

theorem wpSafe_bind {next : α → Program Op Ans β} {post : β → σ → Prop}
    (first : wpSafe handler safe program
      (fun value state' => wpSafe handler safe (next value) post state') state) :
    wpSafe handler safe (program >>= next) post state := by
  intro always
  obtain ⟨before, rest⟩ := (always_bind program next state).mp always
  obtain ⟨value, state', returned, correct⟩ := wp_iff_exec.mp (first before)
  rw [wp_bind]
  exact wp_of_returned returned (correct (rest value state' returned))

/-- If the program only issues requests that are answered, and that keep the relation when
    they are safe, its safe runs return into the relation. -/
theorem wpSafe_of_issues {allowed : Op → Prop} (related : σ → σ → Prop)
    (refl : ∀ state, related state state)
    (trans : ∀ first second third, related first second → related second third →
      related first third)
    (step : ∀ op state, allowed op → safe op state →
      ∃ answer state', handler op state = some (answer, state') ∧ related state state')
    (issues : Issues allowed program) :
    wpSafe handler safe program (fun _ state' => related state state') state := by
  induction program generalizing state with
  | done value => exact fun _ => refl state
  | request op next inductionHypothesis =>
    intro always
    obtain ⟨isSafe, rest⟩ := (always_request op next state).mp always
    obtain ⟨answer, middle, answered, first⟩ := step op state issues.1 isSafe
    rw [wp_request]
    refine ⟨answer, middle, answered, ?_⟩
    apply wp_mono (inductionHypothesis answer (issues.2 answer) (rest answer middle answered))
    exact fun _ final later => trans _ _ _ first later

end Safe

end Interaction
