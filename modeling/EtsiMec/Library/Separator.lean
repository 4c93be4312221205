import Mathlib

/-! Two parts joined by a separator. The joined list has the parts back only as far as the
separator does not occur in them. -/
namespace Separator

variable {α : Type} {separator : α} {left left' right right' : List α}

/-- Joining gives the same list from the same parts, or from parts that differ by what
stands between two separators. -/
theorem joined_eq_iff : left ++ separator :: right = left' ++ separator :: right' ↔
    left = left' ∧ right = right' ∨
    (∃ middle, left' = left ++ separator :: middle ∧ right = middle ++ separator :: right') ∨
    ∃ middle, left = left' ++ separator :: middle ∧ right' = middle ++ separator :: right := by
  rw [List.append_eq_append_iff]
  constructor
  · rintro (⟨between,here,there⟩ | ⟨between,here,there⟩)
    · cases between with
      | nil => exact .inl ⟨by simpa using here.symm,(List.cons.inj there).2⟩
      | cons first middle =>
        obtain ⟨rfl,rest⟩ := List.cons.inj there
        exact .inr (.inl ⟨middle,here,rest⟩)
    · cases between with
      | nil => exact .inl ⟨by simpa using here,(List.cons.inj there).2.symm⟩
      | cons first middle =>
        obtain ⟨rfl,rest⟩ := List.cons.inj there
        exact .inr (.inr ⟨middle,here,rest⟩)
  · rintro (⟨rfl,rfl⟩ | ⟨middle,rfl,rfl⟩ | ⟨middle,rfl,rfl⟩)
    · exact .inl ⟨[],by simp,rfl⟩
    · exact .inl ⟨separator :: middle,rfl,rfl⟩
    · exact .inr ⟨separator :: middle,rfl,rfl⟩

/-- First parts without the separator are told apart. -/
theorem joined_inj (clear : separator ∉ left) (clear' : separator ∉ left')
    (same : left ++ separator :: right = left' ++ separator :: right') : left = left' ∧ right = right' := by
  rcases joined_eq_iff.mp same with parts | ⟨middle,rfl,_⟩ | ⟨middle,rfl,_⟩
  · exact parts
  · simp at clear'
  · simp at clear

end Separator
