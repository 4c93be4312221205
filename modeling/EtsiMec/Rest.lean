import EtsiMec.Json

/-! What the library uses of code that is not in its tree: the field helpers of
`rest::`, the `check` of a `support::Thrower` and the integer conversion of cpprest.
They are a parameter; each is constrained to what its name says and no more, so the
texts of the errors and the exception that `check` throws stay open. -/
namespace EtsiMec

/-- Release builds define NDEBUG and compile assertions out. -/
inductive Build where
  | debug
  | release
  deriving DecidableEq, Repr

def Build.asserts : Build → Bool
  | .debug => true
  | .release => false

@[simp] theorem Build.asserts_debug : Build.debug.asserts = true := rfl
@[simp] theorem Build.asserts_release : Build.release.asserts = false := rfl

inductive Exception where
  | runtimeError (what : String)
  | invalid (header : String) (errors : List String)
  deriving DecidableEq, Repr

/-- What the code gives to a `support::Thrower`: its header, and the errors whose
conditions hold. -/
structure Thrower where
  header : String
  errors : List String
  deriving DecidableEq, Repr

namespace Thrower

def record (thrower : Thrower) (condition : Bool) (what : String) : Thrower :=
  if condition then { thrower with errors := thrower.errors ++ [what] } else thrower

/-- A `rest::` helper records at most one error, with a text of its own. -/
def note (thrower : Thrower) : Option String → Thrower
  | some what => { thrower with errors := thrower.errors ++ [what] }
  | none => thrower

@[simp] theorem record_errors (thrower : Thrower) (condition : Bool) (what : String) :
    (thrower.record condition what).errors = [] ↔ thrower.errors = [] ∧ condition = false := by
  cases condition <;> simp [record]

@[simp] theorem note_errors (thrower : Thrower) (found : Option String) :
    (thrower.note found).errors = [] ↔ thrower.errors = [] ∧ found = none := by
  cases found <;> simp [note]

end Thrower

/-- The helpers of `rest::` the data types call, `check` of `support::Thrower`, and
`as_integer` of cpprest. -/
structure Rest where
  stringOrEmpty : Json → String → String
  setIfNotEmpty : Json → String → String → Json
  notEmpty : Json → String → Option String
  notEmptyIfPresent : Json → String → Option String
  tooLong : Json → String → Nat → Option String
  notNumberIfPresent : Json → String → Option String
  check : Thrower → Except Exception Unit
  asInteger : Number → Int
  stringOrEmpty_eq : ∀ json key, stringOrEmpty json key = (json.stringField? key).getD ""
  setIfNotEmpty_eq : ∀ json key value,
    setIfNotEmpty json key value = if value = "" then json else json.set key (.string value)
  notEmpty_none : ∀ json key, notEmpty json key = none ↔
    ∃ value, json.stringField? key = some value ∧ value ≠ ""
  notEmptyIfPresent_none : ∀ json key, notEmptyIfPresent json key = none ↔
    json.stringField? key ≠ some ""
  tooLong_none : ∀ json key limit, tooLong json key limit = none ↔
    ∀ value, json.stringField? key = some value → value.length ≤ limit
  notNumberIfPresent_none : ∀ json key, notNumberIfPresent json key = none ↔
    (json.hasField key = true → json.hasNumberField key = true)
  /-- It throws if and only if an error was recorded. -/
  check_ok : ∀ thrower, check thrower = .ok () ↔ thrower.errors = []
  asInteger_integer : ∀ value, asInteger (.integer value) = value.bmod (2 ^ 32)
  /-- Conversion truncates; it is undefined for a double out of range, hence left open there. -/
  asInteger_double : ∀ value : Rat, value.num.tdiv value.den < 2 ^ 31 →
    -2 ^ 31 ≤ value.num.tdiv value.den → asInteger (.double value) = value.num.tdiv value.den

attribute [simp] Rest.stringOrEmpty_eq Rest.notEmpty_none
  Rest.notEmptyIfPresent_none Rest.tooLong_none Rest.notNumberIfPresent_none Rest.check_ok

def Rest.plain : Rest where
  stringOrEmpty json key := (json.stringField? key).getD ""
  setIfNotEmpty json key value := if value = "" then json else json.set key (.string value)
  notEmpty json key := if (json.stringField? key).getD "" = "" then some (key ++ " missing") else none
  notEmptyIfPresent json key := if json.stringField? key = some "" then some (key ++ " empty") else none
  tooLong json key limit :=
    if limit < ((json.stringField? key).getD "").length then some (key ++ " too long") else none
  notNumberIfPresent json key :=
    if json.hasField key && !json.hasNumberField key then some (key ++ " not a number") else none
  check thrower :=
    if thrower.errors = [] then .ok () else .error (.invalid thrower.header thrower.errors)
  asInteger
    | .integer value => value.bmod (2 ^ 32)
    | .double value => value.num.tdiv value.den
  stringOrEmpty_eq _ _ := rfl
  setIfNotEmpty_eq _ _ _ := rfl
  notEmpty_none json key := by cases json.stringField? key <;> simp
  notEmptyIfPresent_none json key := by simp
  tooLong_none json key limit := by cases json.stringField? key <;> simp
  notNumberIfPresent_none json key := by
    cases json.hasField key <;> cases json.hasNumberField key <;> simp
  check_ok thrower := by simp
  asInteger_integer _ := rfl
  asInteger_double _ _ _ := rfl

end EtsiMec
