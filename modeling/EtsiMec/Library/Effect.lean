import Mathlib

/-! Programs over a state that may throw or stop. An exception keeps the state
reached so far, so that atomicity is a fact to prove about a program; a failed
assertion or an undefined operation ends the whole execution. -/
namespace Effect

inductive Halt where
  | assertion
  | undefined
  deriving DecidableEq, Repr

inductive Outcome (σ ε α : Type) where
  | returned (value : α) (state : σ)
  | threw (error : ε) (state : σ)
  | halted (reason : Halt)

namespace Outcome

def state? : Outcome σ ε α → Option σ
  | .returned _ s | .threw _ s => some s
  | .halted _ => none

@[simp] theorem state?_returned (value : α) (s : σ) :
    (returned value s : Outcome σ ε α).state? = some s := rfl
@[simp] theorem state?_threw (error : ε) (s : σ) :
    (threw error s : Outcome σ ε α).state? = some s := rfl
@[simp] theorem state?_halted (reason : Halt) :
    (halted reason : Outcome σ ε α).state? = none := rfl

def answer? : Outcome σ ε α → Option (σ × Except ε α)
  | .returned value s => some (s,.ok value)
  | .threw error s => some (s,.error error)
  | .halted _ => none

theorem answer?_eq_some {outcome : Outcome σ ε α} {s : σ} {answer : Except ε α} :
    outcome.answer? = some (s,answer) ↔ (∃ value, outcome = .returned value s ∧ answer = .ok value) ∨
      ∃ error, outcome = .threw error s ∧ answer = .error error := by
  cases outcome <;> simp [answer?,eq_comm,and_comm]

/-- An execution that is not halted has an answer. -/
theorem answer?_defined {outcome : Outcome σ ε α} : (∃ s answer, outcome.answer? = some (s,answer)) ↔
    ∀ reason, outcome ≠ .halted reason := by
  cases outcome <;> simp [answer?]

theorem answer?_fst (outcome : Outcome σ ε α) : outcome.answer?.map Prod.fst = outcome.state? := by
  cases outcome <;> rfl

/-- What an execution comes to, whatever state it leaves. -/
def verdict : Outcome σ ε α → Except Halt (Except ε α)
  | .returned value _ => .ok (.ok value)
  | .threw error _ => .ok (.error error)
  | .halted reason => .error reason

def reason? : Outcome σ ε α → Option Halt
  | .halted reason => some reason
  | _ => none

theorem reason?_eq_some {outcome : Outcome σ ε α} {reason : Halt} :
    outcome.reason? = some reason ↔ outcome = .halted reason := by
  cases outcome <;> simp [reason?]

end Outcome

def Program (σ ε α : Type) := σ → Outcome σ ε α

namespace Program

/-- Sequencing hands the state on; an exception or a halt skips the rest. -/
def andThen (p : Program σ ε α) (next : α → Program σ ε β) : Program σ ε β := fun s =>
  match p s with
  | .returned value t => next value t
  | .threw error t => .threw error t
  | .halted reason => .halted reason

instance : Monad (Program σ ε) where
  pure value := fun s => .returned value s
  bind := andThen

instance : LawfulMonad (Program σ ε) := by
  refine LawfulMonad.mk' _ ?_ (fun _ _ => rfl) ?_
  · intro α p
    funext s
    change andThen p (fun value t => .returned value t) s = p s
    unfold andThen
    cases p s <;> rfl
  · intro α β γ p first second
    funext s
    change andThen (andThen p first) second s = andThen p (fun value => andThen (first value) second) s
    unfold andThen
    cases p s <;> rfl

def get : Program σ ε σ := fun s => .returned s s
def put (s : σ) : Program σ ε Unit := fun _ => .returned () s
def throw (error : ε) : Program σ ε α := fun s => .threw error s
def halt (reason : Halt) : Program σ ε α := fun _ => .halted reason

/-- An assertion is tested only in builds that keep assertions. -/
def assert (checked condition : Bool) : Program σ ε Unit :=
  if checked && !condition then halt .assertion else pure ()

def lift : Except ε α → Program σ ε α
  | .ok value => pure value
  | .error error => throw error

def orHalt : Except Halt α → Program σ ε α
  | .ok value => pure value
  | .error reason => halt reason

/-- Swallow every exception, as `catch (...) {}` does; the state stays as it was
when the exception was thrown. -/
def catchAll (p : Program σ ε α) : Program σ ε Unit := fun s =>
  match p s with
  | .returned _ t | .threw _ t => .returned () t
  | .halted reason => .halted reason

def recover (p : Program σ ε α) (handler : ε → Program σ ε α) : Program σ ε α := fun s =>
  match p s with
  | .threw error t => handler error t
  | outcome => outcome

@[simp] theorem pure_apply (value : α) (s : σ) :
    (pure value : Program σ ε α) s = .returned value s := rfl
@[simp] theorem get_apply (s : σ) : (get : Program σ ε σ) s = .returned s s := rfl
@[simp] theorem put_apply (s t : σ) : (put t : Program σ ε Unit) s = .returned () t := rfl
@[simp] theorem throw_apply (error : ε) (s : σ) :
    (throw error : Program σ ε α) s = .threw error s := rfl
@[simp] theorem halt_apply (reason : Halt) (s : σ) :
    (halt reason : Program σ ε α) s = .halted reason := rfl
@[simp] theorem lift_ok (value : α) : (lift (.ok value) : Program σ ε α) = pure value := rfl
@[simp] theorem lift_error (error : ε) : (lift (.error error) : Program σ ε α) = throw error := rfl
@[simp] theorem orHalt_ok (value : α) : (orHalt (.ok value) : Program σ ε α) = pure value := rfl
@[simp] theorem orHalt_error (reason : Halt) :
    (orHalt (.error reason) : Program σ ε α) = halt reason := rfl
@[simp] theorem assert_true (checked : Bool) :
    (assert checked true : Program σ ε Unit) = pure () := by simp [assert]
@[simp] theorem assert_unchecked (condition : Bool) :
    (assert false condition : Program σ ε Unit) = pure () := rfl
@[simp] theorem assert_failed : (assert true false : Program σ ε Unit) = halt .assertion := rfl

theorem bind_apply (p : Program σ ε α) (next : α → Program σ ε β) (s : σ) :
    (p >>= next) s = match p s with
      | .returned value t => next value t
      | .threw error t => .threw error t
      | .halted reason => .halted reason := rfl

theorem bind_returned {p : Program σ ε α} (next : α → Program σ ε β) {s t : σ} {value : α}
    (step : p s = .returned value t) : (p >>= next) s = next value t := by
  rw [bind_apply,step]

theorem bind_halted {p : Program σ ε α} (next : α → Program σ ε β) {s : σ} {reason : Halt}
    (step : p s = .halted reason) : (p >>= next) s = .halted reason := by
  rw [bind_apply,step]

theorem recover_returned {p : Program σ ε α} (handler : ε → Program σ ε α) {s t : σ} {value : α}
    (step : p s = .returned value t) : p.recover handler s = .returned value t := by
  rw [recover,step]

theorem recover_threw {p : Program σ ε α} (handler : ε → Program σ ε α) {s t : σ} {error : ε}
    (step : p s = .threw error t) : p.recover handler s = handler error t := by
  rw [recover,step]

theorem recover_halted {p : Program σ ε α} (handler : ε → Program σ ε α) {s : σ} {reason : Halt}
    (step : p s = .halted reason) : p.recover handler s = .halted reason := by
  rw [recover,step]

theorem bind_threw {p : Program σ ε α} (next : α → Program σ ε β) {s t : σ} {error : ε}
    (step : p s = .threw error t) : (p >>= next) s = .threw error t := by
  rw [bind_apply,step]

theorem bind_eq_returned {p : Program σ ε α} {next : α → Program σ ε β} {s t : σ} {value : β} :
    (p >>= next) s = .returned value t ↔
      ∃ inner middle, p s = .returned inner middle ∧ next inner middle = .returned value t := by
  rw [bind_apply]
  cases p s <;> simp

@[simp] theorem map_eq_returned {p : Program σ ε α} {f : α → β} {s t : σ} {value : β} :
    (f <$> p) s = .returned value t ↔ ∃ inner, p s = .returned inner t ∧ f inner = value := by
  rw [map_eq_pure_bind,bind_eq_returned]
  simp

@[simp] theorem pure_bind_apply (value : α) (next : α → Program σ ε β) (s : σ) :
    ((pure value : Program σ ε α) >>= next) s = next value s := rfl
@[simp] theorem get_bind_apply (next : σ → Program σ ε β) (s : σ) :
    ((get : Program σ ε σ) >>= next) s = next s s := rfl
@[simp] theorem put_bind_apply (t : σ) (next : Unit → Program σ ε β) (s : σ) :
    ((put t : Program σ ε Unit) >>= next) s = next () t := rfl
@[simp] theorem throw_bind_apply (error : ε) (next : α → Program σ ε β) (s : σ) :
    ((throw error : Program σ ε α) >>= next) s = .threw error s := rfl
@[simp] theorem halt_bind_apply (reason : Halt) (next : α → Program σ ε β) (s : σ) :
    ((halt reason : Program σ ε α) >>= next) s = .halted reason := rfl

theorem assert_eq_returned {checked condition : Bool} {s t : σ} {value : Unit} :
    (assert checked condition : Program σ ε Unit) s = .returned value t ↔
      (checked = true → condition = true) ∧ t = s := by
  cases checked <;> cases condition <;> simp [eq_comm]

theorem assert_bind_apply (checked condition : Bool) (next : Unit → Program σ ε β) (s : σ) :
    (assert checked condition >>= next) s = if checked && !condition then .halted .assertion else next () s := by
  unfold assert
  split <;> rfl

@[simp] theorem state?_map (f : α → β) (p : Program σ ε α) (s : σ) :
    ((f <$> p) s).state? = (p s).state? := by
  rw [map_eq_pure_bind,bind_apply]
  cases p s <;> rfl

theorem answer?_map {f : α → β} {p : Program σ ε α} {s t : σ} {answer : Except ε β} :
    ((f <$> p) s).answer? = some (t,answer) ↔
      ∃ inner, (p s).answer? = some (t,inner) ∧ answer = inner.map f := by
  rw [map_eq_pure_bind,bind_apply]
  cases p s with
  | returned value u => simp [Outcome.answer?,Except.map,eq_comm,and_comm]
  | threw error u => simp [Outcome.answer?,Except.map,eq_comm,and_comm]
  | halted reason => simp [Outcome.answer?]

theorem map_halted {p : Program σ ε α} {f : α → β} {s : σ} :
    (∀ reason, (f <$> p) s ≠ .halted reason) ↔ ∀ reason, p s ≠ .halted reason := by
  rw [map_eq_pure_bind,bind_apply]
  cases p s <;> simp

/-- A program whose exceptions leave the state as it was before the call. -/
def Atomic (p : Program σ ε α) : Prop :=
  ∀ s error t, p s = .threw error t → t = s

/-- A program that only computes: whatever it answers, the state is untouched. -/
def ReadOnly (p : Program σ ε α) : Prop := ∀ s t, (p s).state? = some t → t = s

theorem ReadOnly.atomic {p : Program σ ε α} (quiet : ReadOnly p) : Atomic p := by
  intro s error t step
  exact quiet s t (by rw [step]; rfl)

theorem ReadOnly.returned {p : Program σ ε α} (quiet : ReadOnly p) {s t : σ} {value : α}
    (step : p s = .returned value t) : t = s := quiet s t (by rw [step]; rfl)

/-- The state an atomic program leaves is the one before or the one it returned in. -/
theorem Atomic.state? {p : Program σ ε α} (atomic : Atomic p) {s t : σ} (step : (p s).state? = some t) :
    t = s ∨ ∃ value, p s = .returned value t := by
  cases run : p s with
  | returned value u => rw [run] at step; cases step; exact .inr ⟨value,rfl⟩
  | threw error u => rw [run] at step; cases step; exact .inl (atomic s error _ run)
  | halted reason => rw [run] at step; contradiction

theorem atomic_map {p : Program σ ε α} (atomic : Atomic p) (f : α → β) : Atomic (f <$> p) := by
  intro s error t step
  rw [map_eq_pure_bind,bind_apply] at step
  cases run : p s with
  | returned value u => simp [run] at step
  | threw error u => rw [run] at step; cases step; exact atomic s _ _ run
  | halted reason => simp [run] at step

theorem readOnly_pure (value : α) : ReadOnly (pure value : Program σ ε α) := by
  intro s t step
  simpa using step.symm

theorem readOnly_throw (error : ε) : ReadOnly (throw error : Program σ ε α) := by
  intro s t step
  simpa using step.symm

theorem readOnly_assert (checked condition : Bool) :
    ReadOnly (assert checked condition : Program σ ε Unit) := by
  unfold assert
  split
  · intro s t step; simp at step
  · exact readOnly_pure ()

theorem readOnly_lift (result : Except ε α) : ReadOnly (lift result : Program σ ε α) := by
  cases result with
  | ok value => exact readOnly_pure value
  | error error => exact readOnly_throw error

theorem readOnly_bind {p : Program σ ε α} {next : α → Program σ ε β} (first : ReadOnly p)
    (rest : ∀ value, ReadOnly (next value)) : ReadOnly (p >>= next) := by
  intro s t step
  rw [bind_apply] at step
  cases run : p s with
  | returned value middle =>
    rw [run] at step
    have same := first.returned run
    subst same
    exact rest value _ t step
  | threw error middle =>
    rw [run] at step
    have same := first.atomic s error middle run
    simpa [same] using step.symm
  | halted reason => simp [run] at step

/-- What only reads after a program leaves the state the program left. -/
theorem state?_bind_readOnly {p : Program σ ε α} {next : α → Program σ ε β}
    (quiet : ∀ value, ReadOnly (next value)) {s t : σ} (left : ((p >>= next) s).state? = some t) :
    (p s).state? = some t := by
  rw [bind_apply] at left
  cases run : p s with
  | returned value middle =>
    rw [run] at left
    rw [quiet value middle t left]
    rfl
  | threw error middle => rw [run] at left; exact left
  | halted reason => rw [run] at left; exact left

theorem readOnly_get : ReadOnly (get : Program σ ε σ) := by
  intro s t step
  simpa using step.symm

theorem readOnly_orHalt (result : Except Halt α) : ReadOnly (orHalt result : Program σ ε α) := by
  cases result with
  | ok value => exact readOnly_pure value
  | error reason => intro s t step; simp at step

def Silent (p : Program σ ε α) : Prop := ∀ s error t, p s ≠ .threw error t

theorem Silent.atomic {p : Program σ ε α} (silent : Silent p) : Atomic p :=
  fun s error t step => absurd step (silent s error t)

theorem Silent.state? {p : Program σ ε α} (silent : Silent p) {s t : σ} (left : (p s).state? = some t) :
    ∃ value, p s = .returned value t := by
  cases run : p s with
  | returned value u => rw [run] at left; cases left; exact ⟨value,rfl⟩
  | threw error u => exact absurd run (silent s error u)
  | halted reason => rw [run] at left; contradiction

theorem Silent.answer? {p : Program σ ε α} (silent : Silent p) {s t : σ} {answer : Except ε α}
    (answered : (p s).answer? = some (t,answer)) : ∃ value, p s = .returned value t ∧ answer = .ok value := by
  rcases Outcome.answer?_eq_some.mp answered with returned | ⟨error,threw,_⟩
  · exact returned
  · exact absurd threw (silent s error t)

/-- A program that never throws returns or is stopped. -/
theorem Silent.returns_iff {p : Program σ ε α} (silent : Silent p) {s : σ} :
    (∀ reason, p s ≠ .halted reason) ↔ ∃ value t, p s = .returned value t := by
  cases run : p s with
  | returned value t => simp
  | threw error t => exact absurd run (silent s error t)
  | halted reason => simp

theorem silent_pure (value : α) : Silent (pure value : Program σ ε α) := by
  intro s error t step
  simp at step

theorem silent_get : Silent (get : Program σ ε σ) := by
  intro s error t step
  simp at step

theorem silent_put (u : σ) : Silent (put u : Program σ ε Unit) := by
  intro s error t step
  simp at step

theorem silent_halt (reason : Halt) : Silent (halt reason : Program σ ε α) := by
  intro s error t step
  simp at step

theorem silent_assert (checked condition : Bool) : Silent (assert checked condition : Program σ ε Unit) := by
  unfold assert
  split
  · exact silent_halt _
  · exact silent_pure ()

theorem silent_orHalt (result : Except Halt α) : Silent (orHalt result : Program σ ε α) := by
  cases result with
  | ok value => exact silent_pure value
  | error reason => exact silent_halt reason

theorem silent_bind {p : Program σ ε α} {next : α → Program σ ε β} (first : Silent p)
    (rest : ∀ value, Silent (next value)) : Silent (p >>= next) := by
  intro s error t step
  rw [bind_apply] at step
  cases run : p s with
  | returned value middle => rw [run] at step; exact rest value middle error t step
  | threw error middle => exact first s error middle run
  | halted reason => simp [run] at step

theorem catchAll_returned {p : Program σ ε α} {s t : σ} {value : α} (ran : p s = .returned value t) :
    catchAll p s = .returned () t := by
  rw [catchAll,ran]

theorem catchAll_threw {p : Program σ ε α} {s t : σ} {error : ε} (ran : p s = .threw error t) :
    catchAll p s = .returned () t := by
  rw [catchAll,ran]

theorem silent_catchAll (p : Program σ ε α) : Silent (catchAll p) := by
  intro s error t step
  rw [catchAll] at step
  cases ran : p s <;> simp [ran] at step

/-- Where nothing is thrown there is nothing to swallow. -/
theorem Silent.catchAll_returned {p : Program σ ε Unit} (silent : Silent p) {s t : σ} :
    catchAll p s = .returned () t ↔ p s = .returned () t := by
  rw [catchAll]
  cases ran : p s with
  | returned value middle => rfl
  | threw error middle => exact absurd ran (silent s error middle)
  | halted reason => simp

/-- What only reads may come before what is atomic. -/
theorem atomic_bind {p : Program σ ε α} {next : α → Program σ ε β} (first : ReadOnly p)
    (rest : ∀ value, Atomic (next value)) : Atomic (p >>= next) := by
  intro s error t step
  rw [bind_apply] at step
  cases run : p s with
  | returned value middle =>
    rw [run] at step
    have same := first.returned run
    subst same
    exact rest value _ error t step
  | threw error middle =>
    rw [run] at step
    cases step
    exact first.atomic s error _ run
  | halted reason => simp [run] at step

/-- A program that does not read the state: it comes to the same from every state. -/
def Uniform (p : Program σ ε α) : Prop := ∀ s t, (p s).verdict = (p t).verdict

theorem uniform_pure (value : α) : Uniform (pure value : Program σ ε α) := fun _ _ => rfl

theorem uniform_throw (error : ε) : Uniform (throw error : Program σ ε α) := fun _ _ => rfl

theorem uniform_assert (checked condition : Bool) : Uniform (assert checked condition : Program σ ε Unit) := by
  unfold assert
  split
  · exact fun _ _ => rfl
  · exact uniform_pure ()

theorem uniform_lift (result : Except ε α) : Uniform (lift result : Program σ ε α) := by
  cases result with
  | ok value => exact uniform_pure value
  | error error => exact uniform_throw error

theorem uniform_bind {p : Program σ ε α} {next : α → Program σ ε β} (first : Uniform p)
    (rest : ∀ value, Uniform (next value)) : Uniform (p >>= next) := by
  intro s t
  have same := first s t
  rw [bind_apply,bind_apply]
  cases here : p s <;> cases there : p t <;> rw [here,there] at same <;> cases same
  · exact rest _ _ _
  · rfl
  · rfl

/-! ## Programs on one of two states -/

section Sides
variable {τ : Type}

def onFirst (p : Program σ ε α) : Program (σ × τ) ε α := fun s =>
  match p s.1 with
  | .returned value t => .returned value (t,s.2)
  | .threw error t => .threw error (t,s.2)
  | .halted reason => .halted reason

def onSecond (p : Program τ ε α) : Program (σ × τ) ε α := fun s =>
  match p s.2 with
  | .returned value t => .returned value (s.1,t)
  | .threw error t => .threw error (s.1,t)
  | .halted reason => .halted reason

theorem onFirst_eq_returned {p : Program σ ε α} {s t : σ × τ} {value : α} :
    onFirst p s = .returned value t ↔ p s.1 = .returned value t.1 ∧ t.2 = s.2 := by
  rw [onFirst]
  cases p s.1 <;> simp [Prod.ext_iff,eq_comm,and_assoc]

theorem silent_onFirst {p : Program σ ε α} (silent : Silent p) : Silent (onFirst p : Program (σ × τ) ε α) := by
  intro s error t step
  rw [onFirst] at step
  cases ran : p s.1 with
  | returned value u => simp [ran] at step
  | threw other u => exact silent s.1 other u ran
  | halted reason => simp [ran] at step

theorem onFirst_returned {p : Program σ ε α} {s t : σ} {value : α} (ran : p s = .returned value t) (other : τ) :
    onFirst p (s,other) = .returned value (t,other) := by
  rw [onFirst,ran]

theorem onSecond_returned {p : Program τ ε α} {s t : τ} {value : α} (ran : p s = .returned value t) (other : σ) :
    onSecond p (other,s) = .returned value (other,t) := by
  rw [onSecond,ran]

theorem onSecond_threw {p : Program τ ε α} {s t : τ} {error : ε} (ran : p s = .threw error t) (other : σ) :
    onSecond p (other,s) = .threw error (other,t) := by
  rw [onSecond,ran]

end Sides

end Program
end Effect
