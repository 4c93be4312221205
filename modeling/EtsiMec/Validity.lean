import EtsiMec.AppInfo

/-! What `AppInfo` accepts, against what makes application information valid. The two differ
in one place: `serviceCont` is compared with its enumerators after a conversion to 32 bits. -/
namespace EtsiMec

namespace Number

def value : Number → Rat
  | .integer value => value
  | .double value => value

/-! ## Truncation -/

theorem truncated_lt (value : Rat) (bound : Int) (positive : 0 < bound) :
    value.num.tdiv value.den < bound ↔ value < bound := by
  have den : (0 : Int) < value.den := by exact_mod_cast value.den_pos
  have compare : value < bound ↔ value.num < bound * value.den := by
    conv_lhs => rw [← Rat.num_div_den value]
    rw [div_lt_iff₀ (by exact_mod_cast value.den_pos)]
    exact_mod_cast Iff.rfl
  rw [compare]
  rcases le_or_gt 0 value.num with natural | negative
  · rw [Int.tdiv_eq_ediv_of_nonneg natural,Int.ediv_lt_iff_lt_mul den]
  · have below : value.num.tdiv value.den ≤ 0 := by
      have mirrored := Int.tdiv_nonneg (show 0 ≤ -value.num by omega) den.le
      rw [Int.neg_tdiv] at mirrored
      omega
    have product : 0 < bound * value.den := mul_pos positive den
    constructor <;> intro <;> omega

theorem le_truncated (value : Rat) (bound : Int) (negative : bound ≤ 0) :
    bound ≤ value.num.tdiv value.den ↔ bound - 1 < value := by
  have mirrored := truncated_lt (-value) (1 - bound) (show 0 < 1 - bound by omega)
  rw [Rat.neg_num,Rat.neg_den,Int.neg_tdiv] at mirrored
  have integers : bound ≤ value.num.tdiv value.den ↔ -(value.num.tdiv value.den) < 1 - bound := by omega
  rw [integers,mirrored]
  push_cast
  constructor <;> intro <;> linarith

end Number

namespace AppCharcs

def Denotes (number : Number) : Prop := ∃ option : ServiceCont, number.value = option.toInt

def Converts (rest : Rest) (number : Number) : Prop :=
  ∃ option : ServiceCont, rest.asInteger number = option.toInt

structure Valid (enumerator : Number → Prop) (json : Json) : Prop where
  numbers : ∀ key ∈ ["memory","storage","latency","bandwidth","serviceCont"],
    json.hasField key = true → json.hasNumberField key = true
  serviceCont : ∀ number, json.numberField? "serviceCont" = some number → enumerator number

theorem exists_serviceCont {p : ServiceCont → Prop} :
    (∃ option, p option) ↔ p .notRequired ∨ p .required :=
  ⟨fun ⟨option,holds⟩ => by cases option; exacts [.inl holds,.inr holds],
    fun either => either.elim (⟨_,·⟩) (⟨_,·⟩)⟩

theorem denotes_iff {number : Number} : Denotes number ↔ number.value = 0 ∨ number.value = 1 := by
  simp [Denotes,exists_serviceCont,ServiceCont.toInt]

variable {rest : Rest}

theorem converts_iff {number : Number} :
    Converts rest number ↔ rest.asInteger number = 0 ∨ rest.asInteger number = 1 := by
  simp [Converts,exists_serviceCont,ServiceCont.toInt]

theorem validate_valid {json : Json} : validate rest json = .ok () ↔ Valid (Converts rest) json := by
  have fields : validate rest json = .ok () ↔
      (∀ key ∈ ["memory","storage","latency","bandwidth","serviceCont"],
        json.hasField key = true → json.hasNumberField key = true) ∧
      ∀ number, json.numberField? "serviceCont" = some number → Converts rest number := by
    cases found : json.numberField? "serviceCont" with
    | none => simp [validate,found,and_assoc]
    | some number =>
      simp only [validate,found,rest.check_ok,Thrower.record_errors,Thrower.note_errors,
        Rest.notNumberIfPresent_none,Option.some.injEq,forall_eq',converts_iff,List.forall_mem_cons]
      simp [ServiceCont.toInt,and_assoc,imp_iff_not_or]
  rw [fields]
  constructor
  · intro both
    exact { numbers := both.1, serviceCont := both.2 }
  · intro valid
    exact ⟨valid.numbers,valid.serviceCont⟩

/-- The number of no enumerator, that the conversion makes the number of one. A double out of
the range of an `int` is converted to what the platform gives. -/
def Narrowed (rest : Rest) : Number → Prop
  | .integer value => (value ≠ 0 ∧ value ≠ 1) ∧ (value % 2 ^ 32 = 0 ∨ value % 2 ^ 32 = 1)
  | .double value => (value ≠ 0 ∧ value ≠ 1) ∧ (-1 < value ∧ value < 2 ∨
      (value ≤ -2 ^ 31 - 1 ∨ 2 ^ 31 ≤ value) ∧
        (rest.asInteger (.double value) = 0 ∨ rest.asInteger (.double value) = 1))

theorem converts_integer {value : Int} :
    Converts rest (.integer value) ↔ value % 2 ^ 32 = 0 ∨ value % 2 ^ 32 = 1 := by
  rw [converts_iff,rest.asInteger_integer,Int.bmod_def]
  split <;> omega

theorem converts_double {value : Rat} (above : -2 ^ 31 - 1 < value) (below : value < 2 ^ 31) :
    Converts rest (.double value) ↔ -1 < value ∧ value < 2 := by
  have upper := (Number.truncated_lt value (2 ^ 31) (by decide)).mpr (by exact_mod_cast below)
  have lower := (Number.le_truncated value (-2 ^ 31) (by decide)).mpr (by exact_mod_cast above)
  have zero := Number.le_truncated value (0) le_rfl
  have two := Number.truncated_lt value (2) (by decide)
  norm_num at zero two
  rw [converts_iff,rest.asInteger_double value upper lower,← zero,← two]
  omega

theorem narrowed_iff {number : Number} :
    Narrowed rest number ↔ Converts rest number ∧ ¬Denotes number := by
  cases number with
  | integer value =>
    rw [converts_integer,denotes_iff,and_comm,not_or]
    simp [Narrowed,Number.value]
  | double value =>
    rw [denotes_iff,and_comm,not_or]
    by_cases inside : -2 ^ 31 - 1 < value ∧ value < 2 ^ 31
    · have range : ¬(value ≤ -2 ^ 31 - 1 ∨ 2 ^ 31 ≤ value) := by
        rw [not_or,not_le,not_le]; exact inside
      rw [converts_double inside.1 inside.2]
      simp [Narrowed,Number.value,range]
    · have range : value ≤ -2 ^ 31 - 1 ∨ 2 ^ 31 ≤ value := by
        rwa [not_and_or,not_lt,not_lt] at inside
      have outside : ¬(-1 < value ∧ value < 2) := by
        rintro ⟨above,below⟩
        rcases range with low | high <;> linarith
      simp only [Narrowed,Number.value,range,outside,converts_iff,true_and,false_or]

theorem converts_of_denotes {number : Number} (denotes : Denotes number) : Converts rest number := by
  rw [denotes_iff] at denotes
  cases number with
  | integer value =>
    have small : value = 0 ∨ value = 1 := by simpa [Number.value] using denotes
    rw [converts_integer]
    omega
  | double value =>
    rcases denotes with zero | one
    · obtain rfl : value = 0 := zero
      exact (converts_double (by norm_num) (by norm_num)).mpr (by norm_num)
    · obtain rfl : value = 1 := one
      exact (converts_double (by norm_num) (by norm_num)).mpr (by norm_num)

theorem Valid.of_imp {p q : Number → Prop} {json : Json} (weaker : ∀ number, p number → q number)
    (valid : Valid p json) : Valid q json :=
  ⟨valid.numbers,fun number found => weaker number (valid.serviceCont number found)⟩

end AppCharcs

namespace AppInfo

structure Valid (enumerator : Number → Prop) (json : Json) : Prop where
  appName : Named json "appName" 32
  appProvider : Named json "appProvider" 32
  appSoftVersion : ∀ value, json.stringField? "appSoftVersion" = some value → value.length ≤ 32
  appDescription : ∀ value, json.stringField? "appDescription" = some value → value.length ≤ 128
  referenceUri : ∀ value, json.stringField? "referenceURI" = some value → value ≠ ""
  exclusive : ¬(json.hasStringField "referenceURI" = true ∧ json.hasObjectField "appCharcs" = true)
  appCharcs : ∀ charcs, json.objectField? "appCharcs" = some charcs → AppCharcs.Valid enumerator charcs

variable {rest : Rest}

theorem ofJson_accepts {json : Json} : (∃ info, ofJson rest json = .ok info) ↔ validate rest json = .ok () := by
  constructor
  · rintro ⟨info,decoded⟩
    unfold ofJson at decoded
    split at decoded
    · contradiction
    · assumption
  · intro accepted
    exact ⟨⟨json,accepted⟩,ofJson_eq ⟨json,accepted⟩⟩

/-- What is accepted is valid with respect to the conversion. -/
theorem accepts_iff {json : Json} :
    (∃ info, ofJson rest json = .ok info) ↔ Valid (AppCharcs.Converts rest) json := by
  rw [ofJson_accepts,validate_ok,checks_errors]
  constructor
  · rintro ⟨⟨name,provider,version,description,uri⟩,charcs⟩
    refine ⟨name,provider,version,description,fun value found => (uri value found).1,?_,
      fun inner found => AppCharcs.validate_valid.mp (charcs inner found)⟩
    rintro ⟨string,object⟩
    obtain ⟨value,found⟩ := Option.isSome_iff_exists.mp string
    rw [Json.hasObjectField,(uri value found).2] at object
    contradiction
  · rintro ⟨name,provider,version,description,uri,exclusive,charcs⟩
    refine ⟨⟨name,provider,version,description,fun value found => ⟨uri value found,?_⟩⟩,
      fun inner found => AppCharcs.validate_valid.mpr (charcs inner found)⟩
    by_contra object
    exact exclusive ⟨by rw [Json.hasStringField,found]; rfl,Option.isSome_iff_ne_none.mpr object⟩

/-- The rule for `serviceCont` is apart from the others. -/
theorem valid_iff (enumerator : Number → Prop) {json : Json} : Valid enumerator json ↔
    Valid (fun _ => True) json ∧ ∀ charcs number, json.objectField? "appCharcs" = some charcs →
      charcs.numberField? "serviceCont" = some number → enumerator number := by
  constructor
  · intro valid
    exact ⟨⟨valid.1,valid.2,valid.3,valid.4,valid.5,valid.6,fun charcs found =>
      (valid.appCharcs charcs found).of_imp fun _ _ => trivial⟩,
      fun charcs number found service => (valid.appCharcs charcs found).serviceCont number service⟩
  · rintro ⟨valid,service⟩
    exact ⟨valid.1,valid.2,valid.3,valid.4,valid.5,valid.6,fun charcs found =>
      ⟨(valid.appCharcs charcs found).numbers,fun number => service charcs number found⟩⟩

/-- Accepts exactly the valid objects, but for those whose `serviceCont` the conversion
narrows to an enumerator: these are accepted where nothing else is wrong with them. -/
theorem accepts_exactly_iff (json : Json) :
    ((∃ info, ofJson rest json = .ok info) ↔ Valid AppCharcs.Denotes json) ↔
      ¬(Valid (fun _ => True) json ∧ ∃ charcs number, json.objectField? "appCharcs" = some charcs ∧
        charcs.numberField? "serviceCont" = some number ∧ AppCharcs.Narrowed rest number) := by
  rw [accepts_iff,valid_iff (AppCharcs.Converts rest),valid_iff AppCharcs.Denotes]
  constructor
  · rintro exact ⟨valid,charcs,number,found,service,narrowed⟩
    obtain ⟨converts,other⟩ := AppCharcs.narrowed_iff.mp narrowed
    refine other ((exact.mp ⟨valid,fun charcs' number' found' service' => ?_⟩).2 charcs number found service)
    cases found.symm.trans found'
    cases service.symm.trans service'
    exact converts
  · intro clear
    refine ⟨fun ⟨valid,service⟩ => ⟨valid,fun charcs number found named => ?_⟩,
      fun ⟨valid,service⟩ => ⟨valid,fun charcs number found named =>
        AppCharcs.converts_of_denotes (service charcs number found named)⟩⟩
    by_contra other
    exact clear ⟨valid,charcs,number,found,named,
      AppCharcs.narrowed_iff.mpr ⟨service charcs number found named,other⟩⟩

def wideServiceCont : Json :=
  ((Json.empty.set "appName" (.string "app")).set "appProvider" (.string "provider")).set "appCharcs"
    (Json.empty.set "serviceCont" (.number (.integer 4294967296)))

theorem wideServiceCont_accepted :
    ¬((∃ info, ofJson Rest.plain wideServiceCont = .ok info) ↔ Valid AppCharcs.Denotes wideServiceCont) := by
  have accepted : ∃ info, ofJson Rest.plain wideServiceCont = .ok info := ofJson_accepts.mpr (by decide)
  intro exact
  have denotes := ((valid_iff _).mp (exact.mp accepted)).2 _ _ rfl rfl
  rw [AppCharcs.denotes_iff] at denotes
  norm_num [Number.value] at denotes

end AppInfo
end EtsiMec
