import Mathlib

/-! Maps ordered by a strict total order of their keys, filled by insertions that keep the
element already there: every key keeps the first element inserted for it, and iteration
is in increasing order. -/

abbrev OrderedMap (α β : Type) (lt : α → α → Prop) [DecidableRel lt] := Std.TreeMap α β (cmpUsing lt)

namespace OrderedMap

section Comparison
variable {α : Type} {lt : α → α → Prop} [DecidableRel lt] [IsStrictTotalOrder α lt]

theorem cmpUsing_isLE (a b : α) : (cmpUsing lt a b).isLE = true ↔ ¬lt b a := by
  unfold cmpUsing
  rcases trichotomous_of lt a b with below | rfl | above
  · simp [below,asymm_of lt below]
  · simp [irrefl_of lt a]
  · simp [above,asymm_of lt above]

instance : Std.TransCmp (cmpUsing lt) where
  eq_swap {a b} := by
    unfold cmpUsing
    rcases trichotomous_of lt a b with below | rfl | above
    · simp [below,asymm_of lt below]
    · simp [irrefl_of lt a]
    · simp [above,asymm_of lt above]
  isLE_trans {a b c} first last := by
    rw [cmpUsing_isLE] at first last ⊢
    intro above
    rcases trichotomous_of lt a b with below | rfl | higher
    · exact last (trans_of lt above below)
    · exact last above
    · exact first higher

instance : Std.LawfulEqCmp (cmpUsing lt) where
  compare_self {a} := by simp [cmpUsing,irrefl_of lt a]
  eq_of_compare {a b} same := by
    unfold cmpUsing at same
    rcases trichotomous_of lt a b with below | equal | above
    · simp [below] at same
    · exact equal
    · simp [above,asymm_of lt above] at same

end Comparison

section Elements
variable {α β : Type} {lt : α → α → Prop} [DecidableRel lt] [IsStrictTotalOrder α lt]

theorem toList_increasing (m : OrderedMap α β lt) : m.toList.Pairwise fun a b => lt a.1 b.1 := by
  refine Std.TreeMap.ordered_keys_toList.imp ?_
  intro a b below
  rwa [cmpUsing_eq_lt] at below

theorem keys_nodup (m : OrderedMap α β lt) : m.keys.Nodup := by
  rw [← Std.TreeMap.map_fst_toList_eq_keys,List.Nodup,List.pairwise_map]
  refine (toList_increasing m).imp ?_
  intro a b below same
  exact irrefl_of lt _ (same ▸ below)

/-- Keys of one map that are all keys of another of the same size are its keys. -/
theorem mem_of_size_eq {γ : Type} {m : OrderedMap α β lt} {other : OrderedMap α γ lt} (size : m.size = other.size)
    (inside : ∀ key ∈ m, key ∈ other) {key : α} (member : key ∈ other) : key ∈ m := by
  have contained : m.keys ⊆ other.keys := fun key here =>
    Std.TreeMap.mem_keys.mpr (inside key (Std.TreeMap.mem_keys.mp here))
  have subperm := List.subperm_of_subset (keys_nodup m) contained
  have long : other.keys.length ≤ m.keys.length := by
    rw [Std.TreeMap.length_keys,Std.TreeMap.length_keys,size]
  exact Std.TreeMap.mem_keys.mp ((subperm.perm_of_length_le long).mem_iff.mpr (Std.TreeMap.mem_keys.mpr member))

/-! ## Filling a map -/

variable (key : β → α)

def fill (m : OrderedMap α β lt) (elements : List β) : OrderedMap α β lt :=
  elements.foldl (fun m element => m.insertIfNew (key element) element) m

variable {key} [DecidableEq α]

/-- What is in the map stays; else the first element of a key is kept. -/
theorem fill_getElem? (m : OrderedMap α β lt) (elements : List β) (k : α) :
    (fill key m elements)[k]? = m[k]?.or (elements.find? fun element => key element = k) := by
  induction elements generalizing m with
  | nil => simp [fill]
  | cons element rest ih =>
    change (fill key (m.insertIfNew (key element) element) rest)[k]? = _
    rw [ih,Std.TreeMap.getElem?_insertIfNew,List.find?_cons]
    by_cases same : key element = k
    · subst same
      by_cases present : key element ∈ m
      · simp [present]
      · simp [present]
    · simp [same]

/-- A key found in a filled map belongs to the first element that has it. -/
theorem fill_eq_some {elements : List β} {k : α} {element : β} :
    (fill key (∅ : OrderedMap α β lt) elements)[k]? = some element ↔ key element = k ∧
      ∃ front back, elements = front ++ element :: back ∧ ∀ other ∈ front, key other ≠ k := by
  rw [fill_getElem?]
  simp [List.find?_eq_some_iff_append]

end Elements
end OrderedMap
