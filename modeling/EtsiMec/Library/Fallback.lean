import Mathlib

/-! Lookups with a fallback: a table is asked for a specific key and, if that has no
entry, for a default one. A change of one entry changes such a lookup only to the value
written, so a cached lookup that a change makes stale is brought up to date by it. -/
namespace Fallback

variable {κ ν : Type}

def resolve (table : κ → Option ν) (specific default : κ) : Option ν :=
  (table specific).or (table default)

/-- A value found is the value of an entry. -/
theorem resolve_eq_some {table : κ → Option ν} {specific default : κ} {value : ν}
    (found : resolve table specific default = some value) :
    table specific = some value ∨ table default = some value := by
  rcases Option.or_eq_some_iff.mp found with here | ⟨_,there⟩
  · exact .inl here
  · exact .inr there

section Changes
variable [DecidableEq κ]

/-- A change elsewhere in the table changes nothing. -/
theorem resolve_update_other (table : κ → Option ν) {specific default key : κ} (value : Option ν)
    (notSpecific : specific ≠ key) (notDefault : default ≠ key) :
    resolve (Function.update table key value) specific default = resolve table specific default := by
  rw [resolve,Function.update_of_ne notSpecific,Function.update_of_ne notDefault]
  rfl

/-- An entry that is written is what a lookup finds if it is the specific one, or the
default one and there is no specific one. -/
theorem resolve_write_eq (table : κ → Option ν) (specific default key : κ) (value : ν) :
    resolve (Function.update table key (some value)) specific default =
      if specific = key ∨ default = key ∧ table specific = none then some value
      else resolve table specific default := by
  by_cases here : specific = key
  · simp [resolve,here]
  by_cases there : default = key
  · cases found : table specific <;> simp [resolve,here,there,found]
  · rw [resolve_update_other table (some value) here there,if_neg]
    simp [here,there]

/-- Writing an entry leaves a lookup as it was or makes it the value written. -/
theorem resolve_write (table : κ → Option ν) (specific default key : κ) (value : ν) :
    resolve (Function.update table key (some value)) specific default = resolve table specific default ∨
      resolve (Function.update table key (some value)) specific default = some value := by
  rw [resolve_write_eq]
  split
  · exact .inr rfl
  · exact .inl rfl

/-- Writing an entry gives a lookup a value if and only if it had one or meets the entry. -/
theorem resolve_write_isSome (table : κ → Option ν) (specific default key : κ) (value : ν) :
    (resolve (Function.update table key (some value)) specific default).isSome ↔
      (resolve table specific default).isSome ∨ specific = key ∨ default = key := by
  rw [resolve_write_eq]
  split
  · rename_i met
    simpa using .inr (met.imp_right And.left)
  · rename_i missed
    cases found : table specific <;> simp_all [resolve]

/-- A lookup whose specific entry is removed falls back to the default one; that the default
one is removed matters only if there is no specific one. -/
theorem resolve_clear (table : κ → Option ν) (specific default key : κ) :
    resolve (Function.update table key none) specific default =
      if specific = key then if default = key then none else table default
      else if default = key then table specific else resolve table specific default := by
  by_cases here : specific = key
  · by_cases there : default = key <;> simp [resolve,here,there]
  by_cases there : default = key
  · simp [resolve,here,there]
  · rw [resolve_update_other table none here there,if_neg here,if_neg there]

end Changes
end Fallback
