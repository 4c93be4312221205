import Mathlib

/-! The values of `web::json::value` and the field accesses the library makes. A
`std::string` is read as the `String` with one character for each of its bytes, so
`length` is `size()` and the order of strings is the order of their bytes. -/
namespace EtsiMec

/-- A number keeps the representation it was built or parsed with; a finite double
is the rational it denotes. -/
inductive Number where
  | integer (value : Int)
  | double (value : Rat)
  deriving DecidableEq, Repr

inductive Json where
  | null
  | boolean (value : Bool)
  | number (value : Number)
  | string (value : String)
  | array (elements : List Json)
  | object (fields : List (String × Json))
  deriving Repr

namespace Json

/-- Fields exist in objects only; the first field of a name is the one accessed. -/
def field? : Json → String → Option Json
  | .object fields, key => fields.lookup key
  | _, _ => none

def stringField? (json : Json) (key : String) : Option String :=
  match json.field? key with
  | some (.string value) => some value
  | _ => none

def numberField? (json : Json) (key : String) : Option Number :=
  match json.field? key with
  | some (.number value) => some value
  | _ => none

def objectField? (json : Json) (key : String) : Option Json :=
  match json.field? key with
  | some (.object fields) => some (.object fields)
  | _ => none

def arrayField? (json : Json) (key : String) : Option (List Json) :=
  match json.field? key with
  | some (.array elements) => some elements
  | _ => none

def hasField (json : Json) (key : String) : Bool := (json.field? key).isSome
def hasStringField (json : Json) (key : String) : Bool := (json.stringField? key).isSome
def hasNumberField (json : Json) (key : String) : Bool := (json.numberField? key).isSome
def hasObjectField (json : Json) (key : String) : Bool := (json.objectField? key).isSome

def setField (key : String) (value : Json) : List (String × Json) → List (String × Json)
  | [] => [(key,value)]
  | (name,old) :: rest =>
    if name = key then (key,value) :: rest else (name,old) :: setField key value rest

theorem setField_new {key : String} {value : Json} {fields : List (String × Json)}
    (new : ∀ field ∈ fields, field.1 ≠ key) : setField key value fields = fields ++ [(key,value)] := by
  induction fields with
  | nil => rfl
  | cons field others ih =>
    rw [setField,if_neg (new field List.mem_cons_self),
      ih fun other member => new other (List.mem_cons_of_mem _ member)]
    rfl

/-- Assignment through `operator[]`: a null value becomes an object first. -/
def set (json : Json) (key : String) (value : Json) : Json :=
  match json with
  | .object fields => .object (setField key value fields)
  | _ => .object [(key,value)]

def empty : Json := .object []

theorem lookup_setField (key name : String) (value : Json) (fields : List (String × Json)) :
    (setField key value fields).lookup name = if name = key then some value else fields.lookup name := by
  induction fields with
  | nil =>
    by_cases same : name = key
    · simp [setField,same]
    · simp [setField,List.lookup,same,beq_eq_false_iff_ne.mpr same]
  | cons entry rest ih =>
    obtain ⟨other,old⟩ := entry
    by_cases here : other = key
    · subst other
      by_cases same : name = key
      · simp [setField,same]
      · simp [setField,List.lookup,same,beq_eq_false_iff_ne.mpr same]
    · simp only [setField,if_neg here,List.lookup]
      by_cases found : name = other
      · subst name; simp [here]
      · simp [beq_eq_false_iff_ne.mpr found,ih]

@[simp] theorem field?_set (json : Json) (key name : String) (value : Json) :
    (json.set key value).field? name = if name = key then some value else json.field? name := by
  cases json with
  | object fields => exact lookup_setField key name value fields
  | _ => simpa [set,field?,setField] using lookup_setField key name value []

/-- Assigning to different new names adds the fields in order. -/
theorem foldl_set {α : Type} {name : α → String} {value : α → Json} {elements : List α}
    (distinct : elements.Pairwise fun a b => name a ≠ name b) {fields : List (String × Json)}
    (apart : ∀ element ∈ elements, ∀ field ∈ fields, field.1 ≠ name element) :
    elements.foldl (fun json element => set json (name element) (value element)) (.object fields) =
      .object (fields ++ elements.map fun element => (name element,value element)) := by
  induction elements generalizing fields with
  | nil => simp
  | cons element others ih =>
    obtain ⟨first,later⟩ := List.pairwise_cons.mp distinct
    rw [List.foldl_cons,set,setField_new (apart element List.mem_cons_self),ih later]
    · simp
    · intro next member field inside
      rcases List.mem_append.mp inside with old | new
      · exact apart next (List.mem_cons_of_mem _ member) field old
      · cases List.mem_singleton.mp new
        exact first next member

@[simp] theorem field?_empty (name : String) : empty.field? name = none := rfl

theorem objectField?_eq_some {json inner : Json} {key : String}
    (found : json.objectField? key = some inner) :
    json.field? key = some inner ∧ ∃ fields, inner = .object fields := by
  unfold objectField? at found
  split at found
  · rename_i fields here
    cases found
    exact ⟨here,fields,rfl⟩
  · contradiction

theorem objectField?_of_object {json : Json} {key : String} {fields : List (String × Json)}
    (found : json.field? key = some (.object fields)) :
    json.objectField? key = some (.object fields) := by
  simp [objectField?,found]

theorem hasStringField_false {json : Json} {key : String} :
    json.hasStringField key = false ↔ json.stringField? key = none := by
  simp [hasStringField]

end Json
end EtsiMec
