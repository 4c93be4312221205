import Mathlib

/-! Finite runs of a partial step function: a step that is undefined ends the run.
Invariants are carried along runs whose every step meets a guard, and a property
that each step keeps exactly under a guard holds throughout exactly the guarded runs. -/
namespace Run

section
variable {σ ι : Type} (step : σ → ι → Option σ)

def run : σ → List ι → Option σ
  | s, [] => some s
  | s, event :: rest => (step s event).bind fun t => run t rest

/-- Every step the run takes meets the guard in the state before it. -/
def Along (guard : σ → ι → Prop) : σ → List ι → Prop
  | _, [] => True
  | s, event :: rest => guard s event ∧ ∀ t, step s event = some t → Along guard t rest

/-- Every state the run goes through, first and last included, has the property. -/
def Throughout (property : σ → Prop) : σ → List ι → Prop
  | s, [] => property s
  | s, event :: rest => property s ∧ ∀ t, step s event = some t → Throughout property t rest

def Reachable (s t : σ) : Prop := ∃ events, run step s events = some t

end

variable {σ ι : Type} {step : σ → ι → Option σ}

theorem run_cons {s t : σ} {event : ι} {rest : List ι} :
    run step s (event :: rest) = some t ↔ ∃ next, step s event = some next ∧ run step next rest = some t := by
  simp [run,Option.bind_eq_some_iff]

theorem run_append {s t : σ} {front back : List ι} :
    run step s (front ++ back) = some t ↔
      ∃ middle, run step s front = some middle ∧ run step middle back = some t := by
  induction front generalizing s with
  | nil => simp [run]
  | cons event rest ih =>
    simp only [List.cons_append,run_cons,ih]
    constructor
    · rintro ⟨next,first,middle,inner,last⟩
      exact ⟨middle,⟨next,first,inner⟩,last⟩
    · rintro ⟨middle,⟨next,first,inner⟩,last⟩
      exact ⟨next,first,middle,inner,last⟩

theorem along_imp {guard weaker : σ → ι → Prop} (imp : ∀ s event, guard s event → weaker s event)
    {s : σ} {events : List ι} (along : Along step guard s events) : Along step weaker s events := by
  induction events generalizing s with
  | nil => trivial
  | cons event rest ih => exact ⟨imp s event along.1,fun t taken => ih (along.2 t taken)⟩

theorem along_and {first second : σ → ι → Prop} {s : σ} {events : List ι}
    (left : Along step first s events) (right : Along step second s events) :
    Along step (fun s event => first s event ∧ second s event) s events := by
  induction events generalizing s with
  | nil => trivial
  | cons event rest ih =>
    exact ⟨⟨left.1,right.1⟩,fun t taken => ih (left.2 t taken) (right.2 t taken)⟩

theorem along_append {guard : σ → ι → Prop} {s middle : σ} {front back : List ι}
    (along : Along step guard s (front ++ back)) (taken : run step s front = some middle) :
    Along step guard s front ∧ Along step guard middle back := by
  induction front generalizing s with
  | nil =>
    cases taken
    exact ⟨trivial,along⟩
  | cons event rest ih =>
    obtain ⟨next,first,inner⟩ := run_cons.mp taken
    refine ⟨⟨along.1,fun t here => ?_⟩,(ih (along.2 next first) inner).2⟩
    cases first.symm.trans here
    exact (ih (along.2 next first) inner).1

/-- An invariant that guarded steps keep holds at the end of every guarded run. -/
theorem invariant {guard : σ → ι → Prop} {property : σ → Prop}
    (kept : ∀ s event t, property s → guard s event → step s event = some t → property t)
    {s t : σ} {events : List ι} (start : property s) (along : Along step guard s events)
    (taken : run step s events = some t) : property t := by
  induction events generalizing s with
  | nil => cases taken; exact start
  | cons event rest ih =>
    obtain ⟨next,first,inner⟩ := run_cons.mp taken
    exact ih (kept s event next start along.1 first) (along.2 next first) inner

theorem along_of_forall {guard : σ → ι → Prop} (all : ∀ s event, guard s event) (s : σ)
    (events : List ι) : Along step guard s events := by
  induction events generalizing s with
  | nil => trivial
  | cons event rest ih => exact ⟨all s event,fun t _ => ih t⟩

theorem Reachable.snoc {s t u : σ} {event : ι} (reached : Reachable step s t) (taken : step t event = some u) :
    Reachable step s u := by
  obtain ⟨events,ran⟩ := reached
  exact ⟨events ++ [event],run_append.mpr ⟨t,ran,run_cons.mpr ⟨u,taken,rfl⟩⟩⟩

/-- A guard on the events alone. -/
theorem along_of_mem {guard : ι → Prop} {events : List ι} (all : ∀ event ∈ events, guard event) (s : σ) :
    Along step (fun _ event => guard event) s events := by
  induction events generalizing s with
  | nil => trivial
  | cons event rest ih =>
    exact ⟨all event List.mem_cons_self,
      fun t _ => ih (fun other member => all other (List.mem_cons_of_mem _ member)) t⟩

/-- Unguarded runs: what every step keeps holds in every reachable state. -/
theorem Reachable.invariant {property : σ → Prop}
    (kept : ∀ s event t, property s → step s event = some t → property t)
    {s t : σ} (start : property s) (reached : Reachable step s t) : property t := by
  obtain ⟨events,taken⟩ := reached
  have along : Along step (fun _ _ => True) s events := along_of_forall (fun _ _ => trivial) s events
  exact Run.invariant (fun s event t holds _ => kept s event t holds) start along taken

/-- What an invariant implies of each next event holds along the whole run. -/
theorem along_of_invariant {guard consequence : σ → ι → Prop} {property : σ → Prop}
    (kept : ∀ s event t, property s → guard s event → step s event = some t → property t)
    (implies : ∀ s event, property s → guard s event → consequence s event)
    {s : σ} {events : List ι} (start : property s) (along : Along step guard s events) :
    Along step consequence s events := by
  induction events generalizing s with
  | nil => trivial
  | cons event rest ih =>
    exact ⟨implies s event start along.1,
      fun t taken => ih (kept s event t start along.1 taken) (along.2 t taken)⟩

/-- Guards that an invariant makes equivalent guard the same runs. -/
theorem along_congr {first second : σ → ι → Prop} {property : σ → Prop}
    (kept : ∀ s event t, property s → step s event = some t → property t)
    (same : ∀ s event, property s → (first s event ↔ second s event))
    {s : σ} {events : List ι} (start : property s) : Along step first s events ↔ Along step second s events := by
  constructor
  · exact along_of_invariant (fun s event t holds _ => kept s event t holds)
      (fun s event holds => (same s event holds).mp) start
  · exact along_of_invariant (fun s event t holds _ => kept s event t holds)
      (fun s event holds => (same s event holds).mpr) start

theorem along_iff {guard : σ → ι → Prop} {s : σ} {events : List ι} : Along step guard s events ↔
    ∀ front event back t, events = front ++ event :: back → run step s front = some t → guard t event := by
  induction events generalizing s with
  | nil => simp [Along]
  | cons event rest ih =>
    constructor
    · rintro ⟨here,later⟩ front other back t split taken
      cases front with
      | nil =>
        cases taken
        exact List.head_eq_of_cons_eq split ▸ here
      | cons first front =>
        obtain ⟨rfl,tail⟩ := List.cons.inj split
        obtain ⟨next,stepped,inner⟩ := run_cons.mp taken
        exact ih.mp (later next stepped) front other back t tail inner
    · intro all
      refine ⟨all [] event rest s rfl rfl,fun next stepped => ih.mpr ?_⟩
      intro front other back t split taken
      exact all (event :: front) other back t (by rw [split]; rfl) (run_cons.mpr ⟨next,stepped,taken⟩)

theorem throughout_iff {property : σ → Prop} {s : σ} {events : List ι} :
    Throughout step property s events ↔
      ∀ front back t, events = front ++ back → run step s front = some t → property t := by
  induction events generalizing s with
  | nil =>
    constructor
    · intro holds front back t split taken
      obtain ⟨rfl,rfl⟩ := List.append_eq_nil_iff.mp split.symm
      cases taken
      exact holds
    · intro all
      exact all [] [] s rfl rfl
  | cons event rest ih =>
    constructor
    · rintro ⟨here,later⟩ front back t split taken
      cases front with
      | nil => cases taken; exact here
      | cons first front =>
        obtain ⟨rfl,tail⟩ := List.cons.inj split
        obtain ⟨next,stepped,inner⟩ := run_cons.mp taken
        exact ih.mp (later next stepped) front back t tail inner
    · intro all
      refine ⟨all [] _ s rfl rfl,fun next stepped => ih.mpr ?_⟩
      intro front back t split taken
      exact all (event :: front) back t (by rw [split]; rfl) (run_cons.mpr ⟨next,stepped,taken⟩)

/-- If, under `fair`, a step keeps the property exactly when `guard` holds before it,
the property holds throughout exactly the runs all of whose steps are guarded. -/
theorem throughout_iff_along {property : σ → Prop} {fair guard : σ → ι → Prop}
    (exact_step : ∀ s event, property s → fair s event →
      (guard s event ↔ ∀ t, step s event = some t → property t))
    {s : σ} {events : List ι} (start : property s) (fairly : Along step fair s events) :
    Throughout step property s events ↔ Along step guard s events := by
  induction events generalizing s with
  | nil => exact ⟨fun _ => trivial,fun _ => start⟩
  | cons event rest ih =>
    have here := exact_step s event start fairly.1
    constructor
    · rintro ⟨_,later⟩
      have next : ∀ t, step s event = some t → property t := by
        intro t taken
        exact throughout_iff.mp (later t taken) [] rest t rfl rfl
      exact ⟨here.mpr next,fun t taken => (ih (next t taken) (fairly.2 t taken)).mp (later t taken)⟩
    · rintro ⟨guarded,later⟩
      have next := here.mp guarded
      exact ⟨start,fun t taken => (ih (next t taken) (fairly.2 t taken)).mpr (later t taken)⟩

/-! ## Keys drawn by events -/

section Drawing
variable {κ : Type} (draws : ι → Option κ) (used : σ → κ → Prop)

def Unused (s : σ) (event : ι) : Prop := ∀ key, draws event = some key → ¬used s key

/-- Where a step brings into use only the key its event draws, keys drawn once are unused. -/
theorem along_unused {property : σ → Prop}
    (kept : ∀ s event t, property s → step s event = some t → property t)
    (grows : ∀ s event t, property s → step s event = some t →
      ∀ key, used t key → used s key ∨ draws event = some key)
    {s : σ} {events : List ι} (start : property s) (distinct : (events.filterMap draws).Nodup)
    (apart : ∀ key, used s key → key ∉ events.filterMap draws) :
    Along step (fun s event => property s ∧ Unused draws used s event) s events := by
  induction events generalizing s with
  | nil => trivial
  | cons event rest ih =>
    rw [List.filterMap_eq_flatMap_toList,List.flatMap_cons,← List.filterMap_eq_flatMap_toList,
      List.nodup_append] at distinct
    rw [List.filterMap_eq_flatMap_toList,List.flatMap_cons,← List.filterMap_eq_flatMap_toList] at apart
    refine ⟨⟨start,fun key drawn old => ?_⟩,fun t taken => ?_⟩
    · exact apart key old (List.mem_append_left _ (by simp [drawn]))
    refine ih (kept s event t start taken) distinct.2.1 fun key now later => ?_
    rcases grows s event t start taken key now with old | drawn
    · exact apart key old (List.mem_append_right _ later)
    · exact distinct.2.2 key (by simp [drawn]) key later rfl

/-- A key in use at the end of a run was drawn by an event of it. -/
theorem drawn_of_used {fair : σ → ι → Prop}
    (grows : ∀ s event t, fair s event → step s event = some t →
      ∀ key, used t key → used s key ∨ draws event = some key)
    {s t : σ} {events : List ι} {key : κ} (fairly : Along step fair s events)
    (ran : run step s events = some t) (unused : ¬used s key) (live : used t key) :
    ∃ before event after middle next, events = before ++ event :: after ∧
      run step s before = some middle ∧ step middle event = some next ∧ draws event = some key ∧
      used next key ∧ run step next after = some t := by
  induction events generalizing s with
  | nil =>
    cases ran
    exact absurd live unused
  | cons event rest ih =>
    obtain ⟨next,stepped,inner⟩ := run_cons.mp ran
    by_cases here : used next key
    · have drawn := (grows s event next fairly.1 stepped key here).resolve_left unused
      exact ⟨[],event,rest,s,next,rfl,rfl,stepped,drawn,here,inner⟩
    · obtain ⟨before,other,after,middle,last,rfl,ran',stepped',drawn,there,ended⟩ :=
        ih (fairly.2 next stepped) inner here
      exact ⟨event :: before,other,after,middle,last,rfl,run_cons.mpr ⟨next,stepped,ran'⟩,stepped',drawn,
        there,ended⟩

end Drawing

/-! ## Projections and counters -/

/-- A step function on richer states that a map takes to the steps of this one. -/
theorem run_map {τ : Type} {step' : τ → ι → Option τ} (project : τ → σ)
    (same : ∀ x event, (step' x event).map project = step (project x) event) (x : τ) (events : List ι) :
    (run step' x events).map project = run step (project x) events := by
  induction events generalizing x with
  | nil => rfl
  | cons event rest ih =>
    rw [run,run,← same]
    cases step' x event with
    | none => rfl
    | some next => exact ih next

theorem along_map {τ : Type} {step' : τ → ι → Option τ} (project : τ → σ)
    (same : ∀ x event, (step' x event).map project = step (project x) event) {guard : σ → ι → Prop} (x : τ)
    {events : List ι} (along : Along step guard (project x) events) :
    Along step' (fun x event => guard (project x) event) x events := by
  induction events generalizing x with
  | nil => trivial
  | cons event rest ih =>
    refine ⟨along.1,fun next taken => ih next (along.2 (project next) ?_)⟩
    rw [← same,taken]
    rfl

/-- A counter that some of the steps raise and the others keep never falls, and it is the
same at the end exactly of the runs that none of the former is in. -/
theorem counted {fair raises : σ → ι → Prop} {count : σ → Nat}
    (raised : ∀ s event t, fair s event → step s event = some t → raises s event → count s < count t)
    (kept : ∀ s event t, fair s event → step s event = some t → ¬raises s event → count t = count s)
    {s t : σ} {events : List ι} (fairly : Along step fair s events) (ran : run step s events = some t) :
    count s ≤ count t ∧ (count t = count s ↔ Along step (fun s event => ¬raises s event) s events) := by
  induction events generalizing s with
  | nil =>
    cases ran
    exact ⟨le_rfl,iff_of_true rfl trivial⟩
  | cons event rest ih =>
    obtain ⟨next,stepped,inner⟩ := run_cons.mp ran
    obtain ⟨grown,same⟩ := ih (fairly.2 next stepped) inner
    by_cases here : raises s event
    · have higher := raised s event next fairly.1 stepped here
      exact ⟨by omega,iff_of_false (by omega) fun along => along.1 here⟩
    · have equal := kept s event next fairly.1 stepped here
      refine ⟨by omega,?_⟩
      rw [← equal,same]
      constructor
      · intro along
        refine ⟨here,fun other taken => ?_⟩
        cases stepped.symm.trans taken
        exact along
      · exact fun along => along.2 next stepped

/-! ## Transcripts -/

section Transcripts
variable {α : Type}

/-- The state a run ends in, and what each event was answered. -/
def transcript (perform : σ → ι → Option (σ × α)) : σ → List ι → Option (σ × List (ι × α))
  | s, [] => some (s,[])
  | s, event :: rest =>
    (perform s event).bind fun next =>
      (transcript perform next.1 rest).map fun last => (last.1,(event,next.2) :: last.2)

variable {perform : σ → ι → Option (σ × α)}

theorem transcript_cons {s t : σ} {event : ι} {rest : List ι} {log : List (ι × α)} :
    transcript perform s (event :: rest) = some (t,log) ↔ ∃ next answer later,
      perform s event = some (next,answer) ∧ transcript perform next rest = some (t,later) ∧
      log = (event,answer) :: later := by
  simp only [transcript,Option.bind_eq_some_iff,Option.map_eq_some_iff,Prod.exists,Prod.mk.injEq]
  constructor
  · rintro ⟨next,answer,first,_,later,inner,rfl,rfl⟩
    exact ⟨next,answer,later,first,inner,rfl⟩
  · rintro ⟨next,answer,later,first,inner,rfl⟩
    exact ⟨next,answer,first,t,later,inner,rfl,rfl⟩

/-- A transcript is that of a run. -/
theorem run_of_transcript {s t : σ} {events : List ι} {log : List (ι × α)}
    (ran : transcript perform s events = some (t,log)) :
    run (fun s event => (perform s event).map Prod.fst) s events = some t := by
  induction events generalizing s log with
  | nil =>
    cases ran
    rfl
  | cons event rest ih =>
    obtain ⟨next,answer,later,first,inner,rfl⟩ := transcript_cons.mp ran
    exact run_cons.mpr ⟨next,congrArg (Option.map Prod.fst) first,ih inner⟩

theorem transcript_events {s t : σ} {events : List ι} {log : List (ι × α)}
    (ran : transcript perform s events = some (t,log)) : log.map Prod.fst = events := by
  induction events generalizing s log with
  | nil =>
    cases ran
    rfl
  | cons event rest ih =>
    obtain ⟨next,answer,later,first,inner,rfl⟩ := transcript_cons.mp ran
    rw [List.map_cons,ih inner]

/-- What there is at the end and what was lost on the way is what there was and what was gained. -/
theorem transcript_balance {guard : σ → ι → Prop} {count : σ → Nat} {gains loses : ι × α → Bool}
    (balanced : ∀ s event t answer, guard s event → perform s event = some (t,answer) →
      count t + (loses (event,answer)).toNat = count s + (gains (event,answer)).toNat)
    {s t : σ} {events : List ι} {log : List (ι × α)}
    (along : Along (fun s event => (perform s event).map Prod.fst) guard s events)
    (ran : transcript perform s events = some (t,log)) :
    count t + log.countP loses = count s + log.countP gains := by
  induction events generalizing s log with
  | nil =>
    cases ran
    rfl
  | cons event rest ih =>
    obtain ⟨next,answer,later,first,inner,rfl⟩ := transcript_cons.mp ran
    have further := ih (along.2 next (congrArg (Option.map Prod.fst) first)) inner
    have here := balanced s event next answer along.1 first
    have step : ∀ kind : ι × α → Bool, ((event,answer) :: later).countP kind =
        later.countP kind + (kind (event,answer)).toNat := by
      intro kind
      rw [List.countP_cons]
      cases kind (event,answer) <;> rfl
    rw [step,step]
    omega

/-- A run and the run without the events dropped: if a dropped event keeps the states
related, and any other keeps them related and is answered alike, the runs end related. -/
theorem transcript_filter {related : σ → σ → Prop} {guard : σ → ι → Prop} {drop : ι → Bool}
    {agree : α → α → Prop}
    (dropped : ∀ s t event next answer, related s t → guard s event → drop event = true →
      perform s event = some (next,answer) → related next t)
    (kept : ∀ s t event next next' answer answer', related s t → guard s event → drop event = false →
      perform s event = some (next,answer) → perform t event = some (next',answer') →
      related next next' ∧ agree answer answer')
    {s t u v : σ} {events : List ι} {log log' : List (ι × α)} (start : related s t)
    (along : Along (fun s event => (perform s event).map Prod.fst) guard s events)
    (ran : transcript perform s events = some (u,log))
    (ran' : transcript perform t (events.filter fun event => !drop event) = some (v,log')) :
    related u v ∧ List.Forall₂ (fun entry entry' => entry.1 = entry'.1 ∧ agree entry.2 entry'.2)
      (log.filter fun entry => !drop entry.1) log' := by
  induction events generalizing s t log log' with
  | nil =>
    cases ran
    cases ran'
    exact ⟨start,.nil⟩
  | cons event rest ih =>
    obtain ⟨next,answer,later,first,inner,rfl⟩ := transcript_cons.mp ran
    have further := along.2 next (congrArg (Option.map Prod.fst) first)
    cases named : drop event with
    | true =>
      rw [List.filter_cons_of_neg (by simp [named])] at ran'
      rw [List.filter_cons_of_neg (by simp [named])]
      exact ih (dropped s t event next answer start along.1 named first) further inner ran'
    | false =>
      rw [List.filter_cons_of_pos (by simp [named])] at ran'
      rw [List.filter_cons_of_pos (by simp [named])]
      obtain ⟨next',answer',later',first',inner',rfl⟩ := transcript_cons.mp ran'
      obtain ⟨related,alike⟩ := kept s t event next next' answer answer' start along.1 named first first'
      obtain ⟨ends,answers⟩ := ih related further inner inner'
      exact ⟨ends,.cons ⟨rfl,alike⟩ answers⟩

end Transcripts

/-! ## Coming to rest -/

section Rest
variable {internal : ι → Prop} {work : σ → Nat}

/-- Where each event costs work, a run takes at most as many events as there is work. -/
theorem run_bounded (lowers : ∀ s event t, internal event → step s event = some t → work t < work s)
    {s t : σ} {events : List ι} (all : ∀ event ∈ events, internal event) (ran : run step s events = some t) :
    events.length + work t ≤ work s := by
  induction events generalizing s with
  | nil =>
    cases ran
    simp
  | cons event rest ih =>
    obtain ⟨next,stepped,inner⟩ := run_cons.mp ran
    have here := lowers s event next (all event List.mem_cons_self) stepped
    have later := ih (fun other member => all other (List.mem_cons_of_mem event member)) inner
    rw [List.length_cons]
    omega

/-- If there is always an event to take before the end, the end is reached. -/
theorem comes_to_rest (lowers : ∀ s event t, internal event → step s event = some t → work t < work s)
    {final : σ → Prop} (enabled : ∀ s, ¬final s → ∃ event t, internal event ∧ step s event = some t) (s : σ) :
    ∃ events t, (∀ event ∈ events, internal event) ∧ run step s events = some t ∧ final t := by
  induction left : work s using Nat.strong_induction_on generalizing s with
  | _ amount ih =>
    by_cases ended : final s
    · exact ⟨[],s,by simp,rfl,ended⟩
    obtain ⟨event,next,kind,stepped⟩ := enabled s ended
    have less := lowers s event next kind stepped
    obtain ⟨events,t,all,ran,reached⟩ := ih (work next) (left ▸ less) next rfl
    refine ⟨event :: events,t,?_,run_cons.mpr ⟨next,stepped,ran⟩,reached⟩
    intro other member
    rcases List.mem_cons.mp member with rfl | later
    · exact kind
    · exact all other later

end Rest

end Run
