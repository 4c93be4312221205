import Mathlib

/-! Hash maps as association lists with distinct keys, in iteration order, and the
loop that visits every element once. The order itself is never relied upon: what is
proved about a map is proved about its lookups and the number of its elements. -/

abbrev KeyedMap (α β : Type) := AList fun _ : α => β

namespace KeyedMap

variable {α β γ ε : Type}

def size (m : KeyedMap α β) : Nat := m.entries.length

theorem keys_length (m : KeyedMap α β) : m.keys.length = size m := by
  simp [AList.keys,List.keys,size]

/-- Keys that one map relates injectively to keys of another bound its size. -/
theorem size_le_of_injection {δ η : Type} {m : KeyedMap α β} {other : KeyedMap δ η}
    (image : α → δ) (maps : ∀ key ∈ m, image key ∈ other)
    (distinct : ∀ a ∈ m, ∀ b ∈ m, image a = image b → a = b) : size m ≤ size other := by
  rw [← keys_length,← keys_length,← List.length_map (f := image)]
  apply List.Subperm.length_le
  apply List.subperm_of_subset
  · exact (List.nodup_map_iff_inj_on m.keys_nodup).mpr fun a ha b hb same =>
      distinct a (AList.mem_keys.mpr ha) b (AList.mem_keys.mpr hb) same
  · intro key member
    obtain ⟨origin,here,rfl⟩ := List.mem_map.mp member
    exact AList.mem_keys.mp (maps origin (AList.mem_keys.mpr here))

section Elements
variable [DecidableEq α]

/-- `emplace` keeps the element that is already there; the flag tells an insertion. -/
def emplace (key : α) (value : β) (m : KeyedMap α β) : KeyedMap α β × Bool :=
  if key ∈ m then (m,false) else (m.insert key value,true)

theorem lookup_some_mem {key : α} {value : β} {m : KeyedMap α β}
    (found : m.lookup key = some value) : key ∈ m :=
  AList.lookup_isSome.mp (by rw [found]; rfl)

theorem mem_iff_lookup {key : α} {m : KeyedMap α β} :
    key ∈ m ↔ ∃ value, m.lookup key = some value := by
  rw [← AList.lookup_isSome,Option.isSome_iff_exists]

theorem emplace_mem {key : α} (value : β) {m : KeyedMap α β} (present : key ∈ m) :
    emplace key value m = (m,false) := if_pos present

theorem emplace_fresh {key : α} (value : β) {m : KeyedMap α β} (fresh : key ∉ m) :
    emplace key value m = (m.insert key value,true) := if_neg fresh

theorem lookup_insert_eq (key other : α) (value : β) (m : KeyedMap α β) :
    (m.insert key value).lookup other = if other = key then some value else m.lookup other := by
  by_cases same : other = key
  · subst other; simp
  · simp [same]

theorem lookup_erase_eq (key other : α) (m : KeyedMap α β) :
    (m.erase key).lookup other = if other = key then none else m.lookup other := by
  by_cases same : other = key
  · subst other; simp
  · simp [same]

/-- Writing through what `emplace` returns, whether or not it inserted. -/
theorem insert_emplace (key : α) (value : β) (m : KeyedMap α β) :
    (emplace key value m).1.insert key value = m.insert key value := by
  by_cases present : key ∈ m
  · rw [emplace_mem value present]
  · rw [emplace_fresh value present,AList.insert_insert]

theorem emplace_flag (key : α) (value : β) (m : KeyedMap α β) :
    (emplace key value m).2 = decide (key ∉ m) := by
  by_cases present : key ∈ m <;> simp [emplace,present]

theorem lookup_emplace (key other : α) (value : β) (m : KeyedMap α β) :
    (emplace key value m).1.lookup other =
      if other = key ∧ key ∉ m then some value else m.lookup other := by
  by_cases present : key ∈ m
  · simp [emplace,present]
  · simp [emplace,present,lookup_insert_eq]

def view (m : KeyedMap α β) : α → Option β := fun key => m.lookup key

theorem mem_emplace (key other : α) (value : β) (m : KeyedMap α β) :
    other ∈ (emplace key value m).1 ↔ other = key ∨ other ∈ m := by
  by_cases present : key ∈ m
  · rw [emplace_mem value present,or_iff_right_of_imp]
    rintro rfl
    exact present
  · rw [emplace_fresh value present,AList.mem_insert]

theorem view_insert (key : α) (value : β) (m : KeyedMap α β) :
    view (m.insert key value) = Function.update (view m) key (some value) := by
  funext other
  rw [view,lookup_insert_eq,Function.update_apply]
  rfl

/-- Erasing what is not there. -/
theorem erase_absent {key : α} {m : KeyedMap α β} (absent : m.lookup key = none) : m.erase key = m := by
  apply AList.ext
  exact List.kerase_of_notMem_keys (AList.lookup_eq_none.mp absent)

theorem view_erase (key : α) (m : KeyedMap α β) :
    view (m.erase key) = Function.update (view m) key none := by
  funext other
  rw [view,lookup_erase_eq,Function.update_apply]
  rfl

theorem mem_entries {key : α} {value : β} {m : KeyedMap α β} :
    ⟨key,value⟩ ∈ m.entries ↔ m.lookup key = some value :=
  AList.mem_lookup_iff.symm

/-- Maps with the same lookups list the same elements, in some order. -/
theorem entries_perm {m n : KeyedMap α β} (same : ∀ key, m.lookup key = n.lookup key) :
    m.entries.Perm n.entries := by
  refine List.lookup_ext m.nodupKeys n.nodupKeys fun key value => ?_
  have lookup : m.entries.dlookup key = n.entries.dlookup key := same key
  rw [lookup]

theorem size_insert_fresh {key : α} (value : β) {m : KeyedMap α β} (fresh : key ∉ m) :
    size (m.insert key value) = size m + 1 := by
  simp [size,AList.insert_of_notMem fresh]

theorem size_insert_present {key : α} (value : β) {m : KeyedMap α β} (present : key ∈ m) :
    size (m.insert key value) = size m := by
  rw [← keys_length,← keys_length]
  refine List.Perm.length_eq ((List.perm_ext_iff_of_nodup (AList.keys_nodup _) (AList.keys_nodup _)).mpr fun other => ?_)
  rw [AList.mem_keys.symm,AList.mem_keys.symm,AList.mem_insert,or_iff_right_of_imp]
  rintro rfl
  exact present

theorem size_erase {key : α} {m : KeyedMap α β} (present : key ∈ m) : size (m.erase key) + 1 = size m := by
  rw [← keys_length,← keys_length,AList.keys_erase,List.length_erase_add_one (AList.mem_keys.mp present)]

end Elements

/-! ## Visiting every element -/

section Sweep
variable (visit : α → β → Except ε (β × List γ))

/-- The loop over the elements: a visit may rewrite the value and emit; the first
visit that fails ends the loop. -/
def sweepEntries : List (Σ _ : α, β) → Except ε (List (Σ _ : α, β) × List γ)
  | [] => .ok ([],[])
  | ⟨key,value⟩ :: rest =>
    match visit key value with
    | .error error => .error error
    | .ok (next,emitted) =>
      match sweepEntries rest with
      | .error error => .error error
      | .ok (entries,later) => .ok (⟨key,next⟩ :: entries,emitted ++ later)

theorem sweepEntries_cons {key : α} {value : β} {rest entries : List (Σ _ : α, β)} {out : List γ} :
    sweepEntries visit (⟨key,value⟩ :: rest) = .ok (entries,out) ↔
      ∃ next emitted tail later, visit key value = .ok (next,emitted) ∧
        sweepEntries visit rest = .ok (tail,later) ∧
        entries = ⟨key,next⟩ :: tail ∧ out = emitted ++ later := by
  simp only [sweepEntries]
  constructor
  · intro swept
    split at swept
    · contradiction
    · rename_i next emitted visited
      split at swept
      · contradiction
      · rename_i tail later inner
        cases swept
        exact ⟨next,emitted,tail,later,visited,inner,rfl,rfl⟩
  · rintro ⟨next,emitted,tail,later,visited,inner,rfl,rfl⟩
    simp [visited,inner]

theorem sweepEntries_keys {before after : List (Σ _ : α, β)} {out : List γ}
    (swept : sweepEntries visit before = .ok (after,out)) : after.keys = before.keys := by
  induction before generalizing after out with
  | nil => cases swept; rfl
  | cons entry rest ih =>
    obtain ⟨next,emitted,tail,later,_,inner,rfl,rfl⟩ := (sweepEntries_cons visit).mp swept
    simp [List.keys_cons,ih inner]

def sweep (m : KeyedMap α β) : Except ε (KeyedMap α β × List γ) :=
  match swept : sweepEntries visit m.entries with
  | .error error => .error error
  | .ok (entries,out) =>
    .ok (⟨entries,by rw [List.NodupKeys,sweepEntries_keys visit swept]; exact m.nodupKeys⟩,out)

variable {visit}

theorem sweep_ok {m next : KeyedMap α β} {out : List γ} :
    sweep visit m = .ok (next,out) ↔ sweepEntries visit m.entries = .ok (next.entries,out) := by
  unfold sweep
  split
  · rename_i error swept
    simp [swept]
  · rename_i entries emitted swept
    constructor
    · intro same; cases same; exact swept
    · intro same; cases swept.symm.trans same; rfl

theorem sweep_error {m : KeyedMap α β} {error : ε} :
    sweep visit m = .error error ↔ sweepEntries visit m.entries = .error error := by
  unfold sweep
  split <;> rename_i swept <;> simp [swept]

theorem sweep_keys {m next : KeyedMap α β} {out : List γ} (swept : sweep visit m = .ok (next,out)) :
    next.keys = m.keys := sweepEntries_keys visit (sweep_ok.mp swept)

theorem sweep_mem {m next : KeyedMap α β} {out : List γ} (swept : sweep visit m = .ok (next,out))
    {key : α} : key ∈ next ↔ key ∈ m := by
  rw [AList.mem_keys,AList.mem_keys,sweep_keys swept]

theorem sweep_size {m next : KeyedMap α β} {out : List γ} (swept : sweep visit m = .ok (next,out)) :
    size next = size m := by
  rw [← keys_length,← keys_length,sweep_keys swept]

/-- Visits that emit at most one item, tagged with their key, emit no tag twice. -/
theorem sweep_tags_nodup {m next : KeyedMap α β} {out : List γ} (tag : γ → α)
    (tagged : ∀ key value after emitted, visit key value = .ok (after,emitted) →
      emitted.map tag = [] ∨ emitted.map tag = [key])
    (swept : sweep visit m = .ok (next,out)) : (out.map tag).Nodup := by
  have walk : ∀ before after emitted, sweepEntries visit before = .ok (after,emitted) →
      (emitted.map tag).Sublist before.keys := by
    intro before after emitted inner
    induction before generalizing after emitted with
    | nil => cases inner; simp
    | cons entry rest ih =>
      obtain ⟨here,mine,tail,later,visited,deeper,rfl,rfl⟩ := (sweepEntries_cons visit).mp inner
      rw [List.map_append,List.keys_cons]
      rcases tagged _ _ _ _ visited with none | one
      · rw [none]; exact (ih tail later deeper).cons _
      · rw [one]; exact (ih tail later deeper).cons_cons _
  exact (walk _ _ _ (sweep_ok.mp swept)).nodup m.keys_nodup

variable [DecidableEq α]

/-- The loop depends on what a visit does to the elements there are. -/
theorem sweep_congr {other : α → β → Except ε (β × List γ)} {m : KeyedMap α β}
    (same : ∀ key value, m.lookup key = some value → visit key value = other key value) :
    sweep visit m = sweep other m := by
  have entries : ∀ list : List (Σ _ : α, β), (∀ entry ∈ list, visit entry.1 entry.2 = other entry.1 entry.2) →
      sweepEntries visit list = sweepEntries other list := by
    intro list all
    induction list with
    | nil => rfl
    | cons entry rest ih =>
      rw [sweepEntries,sweepEntries,all entry (by simp),ih fun later member => all later (by simp [member])]
  have walk := entries m.entries fun entry member => same entry.1 entry.2 (mem_entries.mp member)
  cases result : sweep visit m with
  | error error => exact (sweep_error.mpr (walk.symm.trans (sweep_error.mp result))).symm
  | ok result => exact (sweep_ok.mpr (walk.symm.trans (sweep_ok.mp ‹_›))).symm

/-- A loop whose every visit succeeds succeeds. -/
theorem sweep_total {m : KeyedMap α β}
    (visits : ∀ key value, m.lookup key = some value → ∃ next, visit key value = .ok next) :
    ∃ next, sweep visit m = .ok next := by
  have total : ∀ entries : List (Σ _ : α, β), (∀ entry ∈ entries, ∃ next, visit entry.1 entry.2 = .ok next) →
      ∃ after out, sweepEntries visit entries = .ok (after,out) := by
    intro entries all
    induction entries with
    | nil => exact ⟨[],[],rfl⟩
    | cons entry rest ih =>
      obtain ⟨⟨next,emitted⟩,visited⟩ := all entry (by simp)
      obtain ⟨tail,later,inner⟩ := ih fun other member => all other (by simp [member])
      exact ⟨_,_,(sweepEntries_cons visit).mpr ⟨next,emitted,tail,later,visited,inner,rfl,rfl⟩⟩
  obtain ⟨after,out,swept⟩ := total m.entries fun entry member =>
    visits entry.1 entry.2 (mem_entries.mp member)
  have keys := sweepEntries_keys visit swept
  exact ⟨(⟨after,by rw [List.NodupKeys,keys]; exact m.nodupKeys⟩,out),sweep_ok.mpr swept⟩

/-- Visits that change nothing and emit nothing. -/
theorem sweep_unchanged {m : KeyedMap α β}
    (idle : ∀ key value, m.lookup key = some value → visit key value = .ok (value,[])) :
    sweep visit m = .ok (m,[]) := by
  have walk : ∀ entries : List (Σ _ : α, β), (∀ entry ∈ entries, visit entry.1 entry.2 = .ok (entry.2,[])) →
      sweepEntries visit entries = .ok (entries,[]) := by
    intro entries all
    induction entries with
    | nil => rfl
    | cons entry rest ih =>
      exact (sweepEntries_cons visit).mpr ⟨entry.2,[],rest,[],all entry (by simp),
        ih fun other member => all other (by simp [member]),rfl,rfl⟩
  exact sweep_ok.mpr (walk m.entries fun entry member => idle entry.1 entry.2 (mem_entries.mp member))

/-- The loop visits every element: one failing visit fails the loop. -/
theorem sweep_visits {m next : KeyedMap α β} {out : List γ} (swept : sweep visit m = .ok (next,out))
    {key : α} {value : β} (found : m.lookup key = some value) :
    ∃ after emitted, visit key value = .ok (after,emitted) ∧ next.lookup key = some after := by
  have walk : ∀ before after emitted, sweepEntries visit before = .ok (after,emitted) →
      ⟨key,value⟩ ∈ before → ∃ later some?, visit key value = .ok (later,some?) ∧
        (⟨key,later⟩ : Σ _ : α, β) ∈ after := by
    intro before after emitted inner member
    induction before generalizing after emitted with
    | nil => simp at member
    | cons entry rest ih =>
      obtain ⟨here,mine,tail,later,visited,deeper,rfl,rfl⟩ := (sweepEntries_cons visit).mp inner
      rcases List.mem_cons.mp member with rfl | member
      · exact ⟨here,mine,visited,by simp⟩
      · obtain ⟨last,sent,done,place⟩ := ih tail later deeper member
        exact ⟨last,sent,done,by simp [place]⟩
  obtain ⟨after,emitted,visited,place⟩ := walk _ _ _ (sweep_ok.mp swept) (mem_entries.mpr found)
  exact ⟨after,emitted,visited,mem_entries.mp place⟩

/-- What the loop emits is what its visits emit. -/
theorem sweep_emits {m next : KeyedMap α β} {out : List γ} (swept : sweep visit m = .ok (next,out))
    {item : γ} : item ∈ out ↔ ∃ key value after emitted, m.lookup key = some value ∧
      visit key value = .ok (after,emitted) ∧ item ∈ emitted := by
  have walk : ∀ before after emitted, sweepEntries visit before = .ok (after,emitted) →
      (item ∈ emitted ↔ ∃ entry ∈ before, ∃ later mine,
        visit entry.1 entry.2 = .ok (later,mine) ∧ item ∈ mine) := by
    intro before after emitted inner
    induction before generalizing after emitted with
    | nil => cases inner; simp
    | cons entry rest ih =>
      obtain ⟨here,mine,tail,later,visited,deeper,rfl,rfl⟩ := (sweepEntries_cons visit).mp inner
      rw [List.mem_append,ih tail later deeper]
      simp [visited]
  rw [walk _ _ _ (sweep_ok.mp swept)]
  constructor
  · rintro ⟨entry,member,after,emitted,visited,inside⟩
    exact ⟨entry.1,entry.2,after,emitted,mem_entries.mp member,visited,inside⟩
  · rintro ⟨key,value,after,emitted,found,visited,inside⟩
    exact ⟨⟨key,value⟩,mem_entries.mpr found,after,emitted,visited,inside⟩

/-! Visits that cannot fail. -/

theorem sweep_pure_lookup {f : α → β → β × List γ} {m next : KeyedMap α β} {out : List γ}
    (swept : sweep (fun key value => (.ok (f key value) : Except ε _)) m = .ok (next,out)) (key : α) :
    next.lookup key = (m.lookup key).map fun value => (f key value).1 := by
  cases found : m.lookup key with
  | none =>
    rw [Option.map_none]
    exact AList.lookup_eq_none.mpr fun there => AList.lookup_eq_none.mp found ((sweep_mem swept).mp there)
  | some value =>
    obtain ⟨after,emitted,visited,there⟩ := sweep_visits swept found
    rw [there,Option.map_some,Except.ok.inj visited]

theorem sweep_pure_emits {f : α → β → β × List γ} {m next : KeyedMap α β} {out : List γ}
    (swept : sweep (fun key value => (.ok (f key value) : Except ε _)) m = .ok (next,out)) {item : γ} :
    item ∈ out ↔ ∃ key value, m.lookup key = some value ∧ item ∈ (f key value).2 := by
  rw [sweep_emits swept]
  constructor
  · rintro ⟨key,value,after,emitted,found,visited,inside⟩
    have result := Except.ok.inj visited
    exact ⟨key,value,found,by rw [result]; exact inside⟩
  · rintro ⟨key,value,found,inside⟩
    exact ⟨key,value,_,_,found,rfl,inside⟩

end Sweep
end KeyedMap
