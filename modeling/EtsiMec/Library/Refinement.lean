import EtsiMec.Library.Run

/-! A machine against a specification. The machine may throw or be stopped, the specification
answers every event; a map takes the states of the machine to those of the specification.
What holds of one step is carried along whole runs, answers included. -/
namespace Refinement

variable {σ τ ι α β : Type}

def trace (specify : τ → ι → τ × β) : τ → List ι → τ × List (ι × β)
  | v, [] => (v,[])
  | v, event :: rest =>
    ((trace specify (specify v event).1 rest).1,
      (event,(specify v event).2) :: (trace specify (specify v event).1 rest).2)

/-- The specification as a step function: no event is undefined. -/
def advance (specify : τ → ι → τ × β) (v : τ) (event : ι) : Option τ := some (specify v event).1

/-- Under the guard the machine keeps its invariant, goes where the specification goes and
answers what it says. -/
structure Refines (perform : σ → ι → Option (σ × α)) (specify : τ → ι → τ × β) (abstract : σ → τ)
    (property : σ → Prop) (guard : τ → ι → Prop) (agree : ι → α → β → Prop) : Prop where
  kept : ∀ s event t answer, property s → guard (abstract s) event → perform s event = some (t,answer) → property t
  follows : ∀ s event t answer, property s → guard (abstract s) event → perform s event = some (t,answer) →
    abstract t = (specify (abstract s) event).1
  answers : ∀ s event t answer, property s → guard (abstract s) event → perform s event = some (t,answer) →
    agree event answer (specify (abstract s) event).2

variable {perform : σ → ι → Option (σ × α)} {specify : τ → ι → τ × β} {abstract : σ → τ} {property : σ → Prop}
  {guard : τ → ι → Prop} {agree : ι → α → β → Prop} {s t : σ} {events : List ι} {log : List (ι × α)}

theorem along_cons {accepts : τ → ι → Prop} {v : τ} {event : ι} {rest : List ι} :
    Run.Along (advance specify) accepts v (event :: rest) ↔
      accepts v event ∧ Run.Along (advance specify) accepts (specify v event).1 rest := by
  simp [Run.Along,advance]

/-- A run of the machine goes where the specification goes. -/
theorem Refines.run (refines : Refines perform specify abstract property guard agree) (start : property s)
    (guarded : Run.Along (advance specify) guard (abstract s) events)
    (ran : Run.transcript perform s events = some (t,log)) :
    property t ∧ abstract t = (trace specify (abstract s) events).1 ∧
      List.Forall₂ (fun entry entry' => entry.1 = entry'.1 ∧ agree entry.1 entry.2 entry'.2) log
        (trace specify (abstract s) events).2 := by
  induction events generalizing s log with
  | nil =>
    cases ran
    exact ⟨start,rfl,.nil⟩
  | cons event rest ih =>
    obtain ⟨here,later⟩ := along_cons.mp guarded
    obtain ⟨next,answer,log,first,inner,rfl⟩ := Run.transcript_cons.mp ran
    have goes := refines.follows s event next answer start here first
    rw [← goes] at later
    obtain ⟨holds,ends,agreed⟩ := ih (refines.kept s event next answer start here first) later inner
    rw [goes] at ends agreed
    exact ⟨holds,ends,.cons ⟨rfl,refines.answers s event next answer start here first⟩ agreed⟩

/-- If the machine is defined exactly where the specification accepts the event, its runs are
defined exactly where the specification accepts all of them. -/
theorem Refines.defined_iff (refines : Refines perform specify abstract property guard agree) {accepts : τ → ι → Prop}
    (accepted : ∀ s event, property s → guard (abstract s) event →
      ((∃ t answer, perform s event = some (t,answer)) ↔ accepts (abstract s) event))
    (start : property s) (guarded : Run.Along (advance specify) guard (abstract s) events) :
    (∃ t log, Run.transcript perform s events = some (t,log)) ↔
      Run.Along (advance specify) accepts (abstract s) events := by
  induction events generalizing s with
  | nil => exact iff_of_true ⟨s,[],rfl⟩ trivial
  | cons event rest ih =>
    obtain ⟨here,later⟩ := along_cons.mp guarded
    rw [along_cons,← accepted s event start here]
    constructor
    · rintro ⟨t,_,ran⟩
      obtain ⟨next,answer,log,first,inner,_⟩ := Run.transcript_cons.mp ran
      have goes := refines.follows s event next answer start here first
      rw [← goes] at later ⊢
      exact ⟨⟨next,answer,first⟩,
        (ih (refines.kept s event next answer start here first) later).mp ⟨t,log,inner⟩⟩
    · rintro ⟨⟨next,answer,first⟩,others⟩
      have goes := refines.follows s event next answer start here first
      rw [← goes] at later others
      obtain ⟨t,log,inner⟩ := (ih (refines.kept s event next answer start here first) later).mpr others
      exact ⟨t,_,Run.transcript_cons.mpr ⟨next,answer,log,first,inner,rfl⟩⟩

end Refinement
