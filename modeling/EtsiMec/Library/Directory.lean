import EtsiMec.Library.Log

/-! A directory and the sessions that follow it. What a session gets is looked up whenever it
is asked for; nothing is stored with the session, so there is nothing to keep up to date.
A change of the directory moves the sessions that get another value by it. -/

@[ext] structure Directory (κ ν ι δ : Type) where
  table : κ → Option ν
  sessions : ι → Option δ

namespace Directory

variable {κ ν ι δ : Type}

/-- A session that gets this value from the second table, and not from the first. -/
def Moved (follow : (κ → Option ν) → δ → Option ν) (before after : κ → Option ν) (session : δ) (value : ν) : Prop :=
  follow after session = some value ∧ follow before session ≠ some value

section Sessions
variable [DecidableEq ι]

def put (d : Directory κ ν ι δ) (id : ι) (session : Option δ) : Directory κ ν ι δ :=
  { d with sessions := Function.update d.sessions id session }

theorem put_same {d : Directory κ ν ι δ} {id : ι} {session : Option δ} (same : d.sessions id = session) :
    d.put id session = d := by
  ext1
  · rfl
  · exact Function.update_eq_self_iff.mpr same.symm

end Sessions

section Writes
variable [DecidableEq κ]

/-- Write an entry or, without a value, remove it. -/
def assign (d : Directory κ ν ι δ) (key : κ) (value : Option ν) : Directory κ ν ι δ :=
  { d with table := Function.update d.table key value }

def assigns (d : Directory κ ν ι δ) (log : List (κ × Option ν)) : Directory κ ν ι δ :=
  log.foldl (fun d write => d.assign write.1 write.2) d

@[simp] theorem assigns_nil (d : Directory κ ν ι δ) : d.assigns [] = d := rfl

end Writes
end Directory
