import Mathlib

/-! Logs of keyed records and the last record of each key. A replica that applies the
records of a log one by one holds, for every key, what the last record says. -/
namespace Log

variable {α κ : Type} [DecidableEq κ] (key : α → κ)

def last (log : List α) (k : κ) : Option α := (log.filter fun record => key record = k).getLast?

@[simp] theorem last_nil (k : κ) : last key [] k = none := rfl

theorem last_append (front back : List α) (k : κ) :
    last key (front ++ back) k = (last key back k).or (last key front k) := by
  simp [last,List.getLast?_append]

theorem last_snoc (log : List α) (record : α) (k : κ) :
    last key (log ++ [record]) k = if key record = k then some record else last key log k := by
  rw [last_append]
  by_cases same : key record = k <;> simp [last,same]

theorem last_mem {log : List α} {k : κ} {record : α} (found : last key log k = some record) :
    record ∈ log ∧ key record = k := by
  have member := List.mem_of_getLast? found
  simpa using List.mem_filter.mp member

theorem last_eq_none {log : List α} {k : κ} : last key log k = none ↔ ∀ record ∈ log, key record ≠ k := by
  simp [last]

/-- A record with no other of its key after it is the last one. -/
theorem last_of_final {front back : List α} {record : α}
    (final : ∀ later ∈ back, key later ≠ key record) :
    last key (front ++ record :: back) (key record) = some record := by
  rw [last_append,show record :: back = [record] ++ back from rfl,last_append,
    (last_eq_none key).mpr final]
  simp [last]

/-- Among records of different keys every record is the last of its own. -/
theorem last_of_nodup {log : List α} (distinct : (log.map key).Nodup) {record : α} (member : record ∈ log) :
    last key log (key record) = some record := by
  obtain ⟨front,back,rfl⟩ := List.append_of_mem member
  apply last_of_final
  intro later inside same
  rw [List.map_append,List.map_cons] at distinct
  have apart := (List.nodup_cons.mp (List.nodup_append.mp distinct).2.1).1
  exact apart (List.mem_map.mpr ⟨later,inside,same⟩)

/-! ## Registers -/

section Register
variable {ν : Type} (value : α → ν)

/-- What a register of the key holds after the log, if it held a value before. -/
def register (before : ν) (log : List α) (k : κ) : ν := ((last key log k).map value).getD before

theorem register_eq_of_last {before : ν} {log : List α} {k : κ} {record : α}
    (found : last key log k = some record) : register key value before log k = value record := by
  rw [register,found]
  rfl

theorem register_append (before : ν) (front back : List α) (k : κ) :
    register key value before (front ++ back) k =
      register key value (register key value before front k) back k := by
  unfold register
  rw [last_append]
  cases last key back k <;> rfl

theorem register_untouched (before : ν) {log : List α} {k : κ} (untouched : ∀ record ∈ log, key record ≠ k) :
    register key value before log k = before := by
  rw [register,(last_eq_none key).mpr untouched]
  rfl

theorem register_snoc (before : ν) (log : List α) (record : α) (k : κ) :
    register key value before (log ++ [record]) k =
      if key record = k then value record else register key value before log k := by
  unfold register
  rw [last_snoc]
  split <;> rfl

/-- Two registers that start alike agree on a key whose last record is the same. -/
theorem register_congr (before : ν) {log other : List α} {k : κ} (same : last key log k = last key other k) :
    register key value before log k = register key value before other k := by
  rw [register,register,same]

end Register

/-! ## Queues -/

/-- Taking the first record off one of several queues takes it off what waits in all. -/
theorem perm_take {σ : Type} {queues : List σ} {waiting : σ → List α} {i : Nat} {queue rest : σ} {record : α}
    (here : queues[i]? = some queue) (first : waiting queue = record :: waiting rest) :
    (queues.flatMap waiting).Perm (record :: (queues.set i rest).flatMap waiting) := by
  induction queues generalizing i with
  | nil => simp at here
  | cons head tail ih =>
    cases i with
    | zero =>
      rw [List.getElem?_cons_zero,Option.some.injEq] at here
      subst here
      rw [List.set_cons_zero,List.flatMap_cons,List.flatMap_cons,first]
      exact .refl _
    | succ i =>
      rw [List.set_cons_succ,List.flatMap_cons,List.flatMap_cons]
      exact ((ih (by simpa using here)).append_left _).trans List.perm_middle

theorem mem_set_other {σ : Type} {queues : List σ} {i : Nat} {old new queue : σ} (here : queues[i]? = some old)
    (member : queue ∈ queues) (other : queue ≠ old) : queue ∈ queues.set i new := by
  obtain ⟨j,there⟩ := List.getElem?_of_mem member
  have apart : i ≠ j := by
    rintro rfl
    exact other (Option.some.inj (there.symm.trans here))
  exact List.mem_of_getElem? ((List.getElem?_set_ne apart).trans there)

theorem mem_set_self {σ : Type} {queues : List σ} {i : Nat} {old new : σ} (here : queues[i]? = some old) :
    new ∈ queues.set i new := by
  obtain ⟨inside,_⟩ := List.getElem?_eq_some_iff.mp here
  exact List.mem_set inside new

theorem mem_eraseIdx_other {σ : Type} {queues : List σ} {i : Nat} {old queue : σ} (here : queues[i]? = some old)
    (member : queue ∈ queues) (other : queue ≠ old) : queue ∈ queues.eraseIdx i := by
  obtain ⟨j,there⟩ := List.getElem?_of_mem member
  have apart : j ≠ i := by
    rintro rfl
    exact other (Option.some.inj (there.symm.trans here))
  exact List.mem_eraseIdx_iff_getElem?.mpr ⟨j,apart,there⟩

/-- What the queues weigh together after one of them has changed. -/
theorem sum_set {σ : Type} {queues : List σ} {i : Nat} {old : σ} (here : queues[i]? = some old) (weight : σ → Nat)
    (new : σ) : ((queues.set i new).map weight).sum + weight old = (queues.map weight).sum + weight new := by
  induction queues generalizing i with
  | nil => simp at here
  | cons head tail ih =>
    cases i with
    | zero =>
      rw [List.getElem?_cons_zero,Option.some.injEq] at here
      subst here
      simp only [List.set_cons_zero,List.map_cons,List.sum_cons]
      omega
    | succ i =>
      have inner := ih (by simpa using here)
      simp only [List.set_cons_succ,List.map_cons,List.sum_cons]
      omega

end Log
