import EtsiMec.Library.Run

/-! A store that files items under a key computed from them, against what it is for:
remembering, for every identity, the item of that identity put last. The key is a
function of the identity; the two agree as long as no other identity has the key. -/
namespace KeyedStore

/-- Items are put into the store or dropped from it; a drop names its victim by an item. -/
inductive Event (α : Type) where
  | put (item : α)
  | drop (item : α)

variable {α ι κ : Type} (ident : α → ι) (key : α → κ)

def Event.item : Event α → α
  | .put item | .drop item => item

def Event.left : Event α → Option α
  | .put item => some item
  | .drop _ => none

@[simp] theorem Event.item_put (item : α) : (Event.put item).item = item := rfl
@[simp] theorem Event.item_drop (item : α) : (Event.drop item).item = item := rfl
@[simp] theorem Event.left_put (item : α) : (Event.put item).left = some item := rfl
@[simp] theorem Event.left_drop (item : α) : (Event.drop item).left = none := rfl

/-- The store as it is kept: a partial function of the key. -/
def apply [DecidableEq κ] (store : κ → Option α) (event : Event α) : κ → Option α :=
  Function.update store (key event.item) event.left

/-- The store as it is meant: a partial function of the identity. -/
def latest [DecidableEq ι] (events : List (Event α)) : ι → Option α :=
  events.foldl (fun found event => Function.update found (ident event.item) event.left) fun _ => none

def Unambiguous (item : α) : Prop := ∀ other, key other = key item → ident other = ident item

section Identities
variable [DecidableEq ι]

def Exact (events : List (Event α)) (store : κ → Option α) : Prop :=
  ∀ item, store (key item) = latest ident events (ident item)

theorem latest_snoc (events : List (Event α)) (event : Event α) :
    latest ident (events ++ [event]) =
      Function.update (latest ident events) (ident event.item) event.left := by
  simp [latest]

/-- What is remembered for an identity has that identity. -/
theorem latest_ident {events : List (Event α)} {identity : ι} {item : α}
    (found : latest ident events identity = some item) : ident item = identity := by
  induction events using List.reverseRecOn generalizing identity item with
  | nil => simp [latest] at found
  | append_singleton events event ih =>
    rw [latest_snoc] at found
    by_cases same : identity = ident event.item
    · subst identity
      rw [Function.update_self] at found
      cases event with
      | put put => cases found; rfl
      | drop dropped => contradiction
    · rw [Function.update_of_ne same] at found
      exact ih found

/-- An element of a list with one more at its end is that one, or it is of the list. -/
theorem snoc_eq_iff {β : Type*} {events before after : List β} {event x : β} :
    events ++ [event] = before ++ x :: after ↔ after = [] ∧ before = events ∧ x = event ∨
      ∃ rest, after = rest ++ [event] ∧ events = before ++ x :: rest := by
  constructor
  · intro split
    rcases List.eq_nil_or_concat' after with rfl | ⟨rest,last,rfl⟩
    · obtain ⟨rfl,single⟩ := List.append_inj' split rfl
      exact .inl ⟨rfl,rfl,(List.cons.inj single).1.symm⟩
    · rw [← List.cons_append,← List.append_assoc] at split
      obtain ⟨rfl,single⟩ := List.append_inj' split rfl
      obtain rfl := (List.cons.inj single).1
      exact .inr ⟨rest,rfl,rfl⟩
  · rintro (⟨rfl,rfl,rfl⟩ | ⟨rest,rfl,rfl⟩)
    · rfl
    · simp

/-- An identity is remembered exactly if it was put and not dropped since. -/
theorem latest_isSome {events : List (Event α)} {identity : ι} :
    (latest ident events identity).isSome ↔ ∃ before item after,
      events = before ++ .put item :: after ∧ ident item = identity ∧
      ∀ other, .drop other ∈ after → ident other ≠ identity := by
  induction events using List.reverseRecOn with
  | nil => simp [latest]
  | append_singleton events event ih =>
    rw [latest_snoc]
    constructor
    · intro present
      by_cases same : identity = ident event.item
      · subst identity
        rw [Function.update_self] at present
        cases event with
        | put item => exact ⟨events,item,[],rfl,rfl,by simp⟩
        | drop item => simp [Event.left] at present
      · rw [Function.update_of_ne same] at present
        obtain ⟨before,item,after,rfl,here,kept⟩ := ih.mp present
        refine ⟨before,item,after ++ [event],by simp,here,?_⟩
        intro other member
        rcases List.mem_append.mp member with old | new
        · exact kept other old
        · cases List.mem_singleton.mp new
          exact fun equal => same equal.symm
    · rintro ⟨before,item,after,split,here,kept⟩
      rcases snoc_eq_iff.mp split with ⟨rfl,rfl,rfl⟩ | ⟨rest,rfl,rfl⟩
      · -- the put is the last event of all
        rw [← here,Event.item_put,Function.update_self]
        rfl
      · by_cases same : identity = ident event.item
        · cases event with
          | put other => rw [same,Function.update_self]; rfl
          | drop dropped => exact absurd same.symm (kept dropped (by simp))
        · rw [Function.update_of_ne same]
          exact ih.mpr ⟨before,item,rest,rfl,here,fun other member => kept other (by simp [member])⟩

/-- The item remembered for an identity is the last one put, with no event for the
identity after it. -/
theorem latest_eq_some {events : List (Event α)} {identity : ι} {item : α} :
    latest ident events identity = some item ↔ ∃ before after,
      events = before ++ .put item :: after ∧ ident item = identity ∧
      ∀ event ∈ after, ident event.item ≠ identity := by
  induction events using List.reverseRecOn with
  | nil => simp [latest]
  | append_singleton events event ih =>
    rw [latest_snoc]
    constructor
    · intro found
      by_cases same : identity = ident event.item
      · subst identity
        rw [Function.update_self] at found
        cases event with
        | put put => cases found; exact ⟨events,[],rfl,rfl,by simp⟩
        | drop dropped => contradiction
      · rw [Function.update_of_ne same] at found
        obtain ⟨before,after,rfl,here,kept⟩ := ih.mp found
        refine ⟨before,after ++ [event],by simp,here,?_⟩
        intro other member
        rcases List.mem_append.mp member with old | new
        · exact kept other old
        · cases List.mem_singleton.mp new
          exact fun equal => same equal.symm
    · rintro ⟨before,after,split,here,kept⟩
      rcases snoc_eq_iff.mp split with ⟨rfl,rfl,rfl⟩ | ⟨rest,rfl,rfl⟩
      · rw [← here,Event.item_put,Function.update_self]
        rfl
      · have other : identity ≠ ident event.item := fun same => kept event (by simp) same.symm
        rw [Function.update_of_ne other]
        exact ih.mpr ⟨before,rest,rfl,here,fun event member => kept event (by simp [member])⟩

theorem exact_nil : Exact ident key [] fun _ => none := fun _ => rfl

variable {ident key}

/-- In an exact store, stored keys belong to one identity only. -/
theorem Exact.identity {events : List (Event α)} {store : κ → Option α}
    (valid : Exact ident key events store) {a b : α} (same : key a = key b)
    (stored : (store (key a)).isSome) : ident a = ident b := by
  obtain ⟨item,found⟩ := Option.isSome_iff_exists.mp stored
  have first := latest_ident ident ((valid a).symm.trans found)
  have second := latest_ident ident ((valid b).symm.trans (same ▸ found))
  exact first.symm.trans second

variable [DecidableEq κ] (factors : ∀ a b, ident a = ident b → key a = key b)
include factors

/-- One event keeps an exact store exact, unless it puts an item under a shared key. -/
theorem exact_apply {events : List (Event α)} {store : κ → Option α}
    (valid : Exact ident key events store) (event : Event α) :
    Exact ident key (events ++ [event]) (apply key store event) ↔
      ∀ item, event = .put item → Unambiguous ident key item := by
  have split : ∀ other, apply key store event (key other) =
      if key other = key event.item then event.left else latest ident events (ident other) := by
    intro other
    rw [apply,Function.update_apply,valid other]
  have meant : ∀ other, latest ident (events ++ [event]) (ident other) =
      if ident other = ident event.item then event.left else latest ident events (ident other) := by
    intro other
    rw [latest_snoc,Function.update_apply]
  constructor
  · rintro exact item rfl other same
    by_contra different
    have value := exact other
    rw [split,meant,Event.item_put,if_pos same,if_neg different] at value
    exact different (latest_ident ident value.symm).symm
  · intro clear other
    rw [split,meant]
    by_cases identity : ident other = ident event.item
    · rw [if_pos (factors _ _ identity),if_pos identity]
    · rw [if_neg identity]
      by_cases same : key other = key event.item
      · rw [if_pos same]
        cases event with
        | put item => exact absurd (clear item rfl other same) identity
        | drop item =>
          have absent : ¬(store (key other)).isSome :=
            fun stored => identity (valid.identity same stored)
          rw [← valid other]
          exact (Option.not_isSome_iff_eq_none.mp absent).symm
      · rw [if_neg same]

/-- A run of the store keeps it exact throughout if and only if no item is ever put
under a key that another identity has. -/
theorem exact_throughout (events : List (Event α)) :
    (∀ front back, events = front ++ back →
      Exact ident key front (front.foldl (apply key) fun _ => none)) ↔
      ∀ item, .put item ∈ events → Unambiguous ident key item := by
  constructor
  · intro exact item member
    obtain ⟨front,back,rfl⟩ := List.append_of_mem member
    have before := exact front (.put item :: back) rfl
    have after := exact (front ++ [.put item]) back (by simp)
    rw [List.foldl_append] at after
    exact (exact_apply factors before (.put item)).mp after item rfl
  · intro clear front
    induction front using List.reverseRecOn with
    | nil => intro _ _; exact exact_nil ident key
    | append_singleton front event ih =>
      intro back split
      have before := ih (event :: back) (by simpa using split)
      rw [List.foldl_append]
      refine (exact_apply factors before event).mpr fun item same => clear item ?_
      rw [split]
      simp [same]

end Identities
end KeyedStore
