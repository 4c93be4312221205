import EtsiMec.Rest

/-! `AppCharcs` and `AppInfo`. Both classes wrap a JSON value; the class invariant is
that the JSON constructor accepts it, and every other constructor establishes it. -/
namespace EtsiMec

namespace Rest

variable (rest : Rest)

@[simp] theorem stringField?_setIfNotEmpty (json : Json) (key value name : String) :
    (rest.setIfNotEmpty json key value).stringField? name =
      if name = key ∧ value ≠ "" then some value else json.stringField? name := by
  by_cases blank : value = ""
  · simp [Rest.setIfNotEmpty_eq,blank]
  · by_cases same : name = key <;> simp [Rest.setIfNotEmpty_eq,blank,same,Json.stringField?]

@[simp] theorem objectField?_setIfNotEmpty (json : Json) (key value name : String) :
    (rest.setIfNotEmpty json key value).objectField? name =
      if name = key ∧ value ≠ "" then none else json.objectField? name := by
  by_cases blank : value = ""
  · simp [Rest.setIfNotEmpty_eq,blank]
  · by_cases same : name = key <;> simp [Rest.setIfNotEmpty_eq,blank,same,Json.objectField?]

end Rest

namespace AppCharcs

inductive ServiceCont where
  | notRequired
  | required
  deriving DecidableEq, Repr

def ServiceCont.toInt : ServiceCont → Int
  | .notRequired => 0
  | .required => 1

/-- The checks of the JSON constructor. -/
def validate (rest : Rest) (json : Json) : Except Exception Unit :=
  let thrower : Thrower := ⟨"Invalid AppCharcs: ",[]⟩
  let thrower := thrower.note (rest.notNumberIfPresent json "memory")
  let thrower := thrower.note (rest.notNumberIfPresent json "storage")
  let thrower := thrower.note (rest.notNumberIfPresent json "latency")
  let thrower := thrower.note (rest.notNumberIfPresent json "bandwidth")
  let thrower := thrower.note (rest.notNumberIfPresent json "serviceCont")
  let thrower := match json.numberField? "serviceCont" with
    | some number =>
      thrower.record (rest.asInteger number != ServiceCont.notRequired.toInt &&
        rest.asInteger number != ServiceCont.required.toInt) "invalid serviceCont value"
    | none => thrower
  rest.check thrower

end AppCharcs

structure AppCharcs (rest : Rest) where
  theObject : Json
  accepted : AppCharcs.validate rest theObject = .ok ()

namespace AppCharcs

def fields (memory storage latency bandwidth : UInt32) (serviceCont : ServiceCont) : Json :=
  let number (value : UInt32) : Json := .number (.integer value.toNat)
  ((((Json.empty.set "memory" (number memory)).set "storage" (number storage)).set
    "latency" (number latency)).set "bandwidth" (number bandwidth)).set
    "serviceCont" (.number (.integer serviceCont.toInt))

theorem fields_accepted (rest : Rest) (memory storage latency bandwidth : UInt32)
    (serviceCont : ServiceCont) :
    validate rest (fields memory storage latency bandwidth serviceCont) = .ok () := by
  have service : (fields memory storage latency bandwidth serviceCont).numberField? "serviceCont" =
      some (.integer serviceCont.toInt) := by simp [fields,Json.numberField?]
  cases serviceCont <;>
    simp [validate,service,rest.asInteger_integer,ServiceCont.toInt] <;>
    simp [fields,Json.hasField,Json.hasNumberField,Json.numberField?]

def make (rest : Rest) (memory storage latency bandwidth : UInt32) (serviceCont : ServiceCont) :
    AppCharcs rest :=
  ⟨fields memory storage latency bandwidth serviceCont,fields_accepted ..⟩

def none (rest : Rest) : AppCharcs rest := make rest 0 0 0 0 .notRequired

/-- The JSON of `AppCharcs` is always an object. -/
def toJson (charcs : AppCharcs rest) : Json := charcs.theObject

end AppCharcs

namespace AppInfo

inductive Message where
  | appContextRequest
  | appContextResponse
  | applicationList
  deriving DecidableEq, Repr

/-- The errors the JSON constructor records before its `check`. -/
def checks (rest : Rest) (json : Json) : Thrower :=
  let thrower : Thrower := ⟨"Invalid AppInfo: ",[]⟩
  let thrower := thrower.note (rest.notEmpty json "appName")
  let thrower := thrower.note (rest.notEmpty json "appProvider")
  let thrower := thrower.note (rest.tooLong json "appName" 32)
  let thrower := thrower.note (rest.tooLong json "appProvider" 32)
  let thrower := thrower.note (rest.tooLong json "appSoftVersion" 32)
  let thrower := thrower.note (rest.tooLong json "appDescription" 128)
  let thrower := thrower.record
    (json.hasStringField "referenceURI" && json.hasObjectField "appCharcs")
    "referenceURI and appCharcs cannot be both present in AppInfo"
  if json.hasStringField "referenceURI"
    then thrower.note (rest.notEmpty json "referenceURI") else thrower

/-- The JSON constructor: the checks on the fields, then those of `AppCharcs`. -/
def validate (rest : Rest) (json : Json) : Except Exception Unit :=
  match rest.check (checks rest json) with
  | .error error => .error error
  | .ok () =>
    match json.objectField? "appCharcs" with
    | some charcs => AppCharcs.validate rest charcs
    | none => .ok ()

/-- A field that names something: present, not empty and of bounded length. -/
def Named (json : Json) (key : String) (limit : Nat) : Prop :=
  ∃ value, json.stringField? key = some value ∧ value ≠ "" ∧ value.length ≤ limit

theorem named_iff {json : Json} {key : String} {limit : Nat} : Named json key limit ↔
    (∃ value, json.stringField? key = some value ∧ value ≠ "") ∧
    ∀ value, json.stringField? key = some value → value.length ≤ limit := by
  cases found : json.stringField? key <;> simp [Named,found]

theorem checks_errors {rest : Rest} {json : Json} : (checks rest json).errors = [] ↔
    Named json "appName" 32 ∧ Named json "appProvider" 32 ∧
    (∀ value, json.stringField? "appSoftVersion" = some value → value.length ≤ 32) ∧
    (∀ value, json.stringField? "appDescription" = some value → value.length ≤ 128) ∧
    (∀ value, json.stringField? "referenceURI" = some value → value ≠ "" ∧
      json.objectField? "appCharcs" = none) := by
  rw [named_iff,named_iff]
  cases uri : json.stringField? "referenceURI" with
  | none =>
    simp only [checks,Json.hasStringField,uri,Option.isSome_none,Bool.false_and,Bool.false_eq_true,
      ↓reduceIte,Thrower.record_errors,Thrower.note_errors,Rest.notEmpty_none,Rest.tooLong_none]
    grind
  | some value =>
    simp only [checks,Json.hasStringField,Json.hasObjectField,uri,Option.isSome_some,Bool.true_and,
      ↓reduceIte,Thrower.record_errors,Thrower.note_errors,Rest.notEmpty_none,Rest.tooLong_none,
      Option.some.injEq,forall_eq',exists_eq_left',Option.isSome_eq_false_iff,Option.isNone_iff_eq_none]
    grind

theorem validate_ok {rest : Rest} {json : Json} : validate rest json = .ok () ↔
    (checks rest json).errors = [] ∧
    ∀ charcs, json.objectField? "appCharcs" = some charcs → AppCharcs.validate rest charcs = .ok () := by
  unfold validate
  cases checked : rest.check (checks rest json) with
  | error error =>
    have failed : ¬(checks rest json).errors = [] := by
      rw [← rest.check_ok,checked]; simp
    simp [failed]
  | ok value =>
    have passed := (rest.check_ok _).mp checked
    cases json.objectField? "appCharcs" <;> simp [passed]

end AppInfo

structure AppInfo (rest : Rest) where
  theObject : Json
  accepted : AppInfo.validate rest theObject = .ok ()

namespace AppInfo

@[ext] theorem ext {a b : AppInfo rest} (same : a.theObject = b.theObject) : a = b := by
  cases a; cases b; cases same; rfl

def ofJson (rest : Rest) (json : Json) : Except Exception (AppInfo rest) :=
  match checked : validate rest json with
  | .error error => .error error
  | .ok () => .ok ⟨json,checked⟩

theorem ofJson_eq (info : AppInfo rest) : ofJson rest info.theObject = .ok info := by
  unfold ofJson
  split
  · rename_i error checked
    rw [info.accepted] at checked
    contradiction
  · rfl

def toJson (info : AppInfo rest) : Json := info.theObject

theorem named (info : AppInfo rest) :
    Named info.theObject "appName" 32 ∧ Named info.theObject "appProvider" 32 := by
  have checked := checks_errors.mp (validate_ok.mp info.accepted).1
  exact ⟨checked.1,checked.2.1⟩

theorem Named.isSome {json : Json} {key : String} {limit : Nat} (named : Named json key limit) :
    (json.stringField? key).isSome := by
  obtain ⟨value,found,_⟩ := named
  simp [found]

/-- The field exists: the assertion of the accessor is the class invariant. -/
def appName (info : AppInfo rest) : String :=
  (info.theObject.stringField? "appName").get info.named.1.isSome

def appProvider (info : AppInfo rest) : String :=
  (info.theObject.stringField? "appProvider").get info.named.2.isSome

def appSoftVersion (info : AppInfo rest) : String := rest.stringOrEmpty info.theObject "appSoftVersion"
def appDescription (info : AppInfo rest) : String := rest.stringOrEmpty info.theObject "appDescription"
def appPackageSource (info : AppInfo rest) : String := rest.stringOrEmpty info.theObject "appPackageSource"

def message (info : AppInfo rest) : Message :=
  if info.theObject.hasObjectField "appCharcs" then .applicationList
  else if info.theObject.hasStringField "referenceURI" then .appContextResponse
  else .appContextRequest

def referenceUri (info : AppInfo rest) : Except Exception String :=
  if info.message ≠ .appContextResponse
  then .error (.runtimeError "This message type does not have a referenceURI field")
  else .ok ((info.theObject.stringField? "referenceURI").getD "")

theorem appName_eq (info : AppInfo rest) :
    info.theObject.stringField? "appName" = some info.appName := by simp [appName]

theorem appProvider_eq (info : AppInfo rest) :
    info.theObject.stringField? "appProvider" = some info.appProvider := by simp [appProvider]

theorem appName_ne (info : AppInfo rest) : info.appName ≠ "" := by
  obtain ⟨value,found,filled,_⟩ := info.named.1
  have same := Option.some.inj (info.appName_eq.symm.trans found)
  rwa [same]

theorem appName_short (info : AppInfo rest) : info.appName.length ≤ 32 := by
  obtain ⟨value,found,_,short⟩ := info.named.1
  have same := Option.some.inj (info.appName_eq.symm.trans found)
  rwa [same]

theorem appProvider_ne (info : AppInfo rest) : info.appProvider ≠ "" := by
  obtain ⟨value,found,filled,_⟩ := info.named.2
  have same := Option.some.inj (info.appProvider_eq.symm.trans found)
  rwa [same]

/-- The assertion in `message`: the two optional fields exclude each other. -/
theorem message_exclusive (info : AppInfo rest)
    (charcs : info.theObject.hasObjectField "appCharcs" = true) :
    info.theObject.hasStringField "referenceURI" = false := by
  rw [Json.hasStringField_false]
  by_contra present
  obtain ⟨uri,found⟩ := Option.ne_none_iff_exists'.mp present
  have absent := ((checks_errors.mp (validate_ok.mp info.accepted).1).2.2.2.2 uri found).2
  simp [Json.hasObjectField,absent] at charcs

/-! ## Constructors from fields -/

/-- What `commonSetup` demands of its arguments. -/
structure Limits (appName appProvider appSoftVersion appDescription : String) : Prop where
  name : appName ≠ ""
  provider : appProvider ≠ ""
  nameShort : appName.length ≤ 32
  providerShort : appProvider.length ≤ 32
  versionShort : appSoftVersion.length ≤ 32
  descriptionShort : appDescription.length ≤ 128

instance (appName appProvider appSoftVersion appDescription : String) :
    Decidable (Limits appName appProvider appSoftVersion appDescription) :=
  decidable_of_iff (appName ≠ "" ∧ appProvider ≠ "" ∧ appName.length ≤ 32 ∧ appProvider.length ≤ 32 ∧
      appSoftVersion.length ≤ 32 ∧ appDescription.length ≤ 128)
    ⟨fun ⟨a,b,c,d,e,f⟩ => ⟨a,b,c,d,e,f⟩,fun ⟨a,b,c,d,e,f⟩ => ⟨a,b,c,d,e,f⟩⟩

section Fields
variable (rest : Rest) (appName appProvider appSoftVersion appDescription : String)

def commonSetup (thrower : Thrower) : Thrower × Json :=
  let thrower := thrower.record (appName = "") "appName missing"
  let thrower := thrower.record (appProvider = "") "appProvider missing"
  let thrower := thrower.record (32 < appName.length) "appName exceeds 32 characters"
  let thrower := thrower.record (32 < appProvider.length) "appProvider exceeds 32 characters"
  let thrower := thrower.record (32 < appSoftVersion.length) "appSoftVersion exceeds 32 characters"
  let thrower := thrower.record (128 < appDescription.length) "appDescription exceeds 128 characters"
  let theObject := rest.setIfNotEmpty Json.empty "appName" appName
  let theObject := rest.setIfNotEmpty theObject "appProvider" appProvider
  let theObject := rest.setIfNotEmpty theObject "appSoftVersion" appSoftVersion
  let theObject := rest.setIfNotEmpty theObject "appDescription" appDescription
  (thrower,theObject)

theorem commonSetup_errors (thrower : Thrower) :
    (commonSetup rest appName appProvider appSoftVersion appDescription thrower).1.errors = [] ↔
      thrower.errors = [] ∧ Limits appName appProvider appSoftVersion appDescription := by
  simp only [commonSetup,Thrower.record_errors,decide_eq_false_iff_not,Nat.not_lt]
  constructor
  · rintro ⟨⟨⟨⟨⟨⟨clean,name⟩,provider⟩,nameShort⟩,providerShort⟩,versionShort⟩,descriptionShort⟩
    exact ⟨clean,⟨name,provider,nameShort,providerShort,versionShort,descriptionShort⟩⟩
  · rintro ⟨clean,limits⟩
    exact ⟨⟨⟨⟨⟨⟨clean,limits.1⟩,limits.2⟩,limits.3⟩,limits.4⟩,limits.5⟩,limits.6⟩

/-- The object `commonSetup` fills, whatever it records. -/
def common : Json := (commonSetup rest appName appProvider appSoftVersion appDescription ⟨"",[]⟩).2

theorem common_string (key : String) :
    (common rest appName appProvider appSoftVersion appDescription).stringField? key =
      if key = "appDescription" ∧ appDescription ≠ "" then some appDescription
      else if key = "appSoftVersion" ∧ appSoftVersion ≠ "" then some appSoftVersion
      else if key = "appProvider" ∧ appProvider ≠ "" then some appProvider
      else if key = "appName" ∧ appName ≠ "" then some appName else none := by
  simp only [common,commonSetup,Rest.stringField?_setIfNotEmpty]
  rfl

theorem common_object (key : String) :
    (common rest appName appProvider appSoftVersion appDescription).objectField? key = none := by
  simp only [common,commonSetup,Rest.objectField?_setIfNotEmpty]
  repeat' split
  all_goals rfl

/-- A filled object within the limits passes the checks of the JSON constructor. -/
theorem validate_fields {json : Json} {rest : Rest}
    {appName appProvider appSoftVersion appDescription : String}
    (limits : Limits appName appProvider appSoftVersion appDescription)
    (name : json.stringField? "appName" = some appName)
    (provider : json.stringField? "appProvider" = some appProvider)
    (version : (json.stringField? "appSoftVersion").getD "" = appSoftVersion)
    (description : (json.stringField? "appDescription").getD "" = appDescription)
    (uri : ∀ value, json.stringField? "referenceURI" = some value → value ≠ "" ∧
      json.objectField? "appCharcs" = none)
    (charcs : ∀ inner, json.objectField? "appCharcs" = some inner →
      AppCharcs.validate rest inner = .ok ()) : validate rest json = .ok () := by
  refine validate_ok.mpr ⟨checks_errors.mpr ⟨?_,?_,?_,?_,uri⟩,charcs⟩
  · exact ⟨appName,name,limits.name,limits.nameShort⟩
  · exact ⟨appProvider,provider,limits.provider,limits.providerShort⟩
  · intro value found
    rw [found,Option.getD_some] at version
    exact version ▸ limits.versionShort
  · intro value found
    rw [found,Option.getD_some] at description
    exact description ▸ limits.descriptionShort

theorem limits_of_check {thrower : Thrower}
    (checked : rest.check (commonSetup rest appName appProvider appSoftVersion appDescription thrower).1 = .ok ()) :
    Limits appName appProvider appSoftVersion appDescription :=
  ((commonSetup_errors rest _ _ _ _ thrower).mp ((rest.check_ok _).mp checked)).2

def requestObject (appPackageSource : String) : Json :=
  rest.setIfNotEmpty (common rest appName appProvider appSoftVersion appDescription)
    "appPackageSource" appPackageSource

def responseObject (referenceUri appPackageSource : String) : Json :=
  rest.setIfNotEmpty (rest.setIfNotEmpty
    (common rest appName appProvider appSoftVersion appDescription) "referenceURI" referenceUri)
    "appPackageSource" appPackageSource

def listObject (charcs : AppCharcs rest) : Json :=
  (common rest appName appProvider appSoftVersion appDescription).set "appCharcs" charcs.toJson

variable {rest appName appProvider appSoftVersion appDescription}

theorem requestObject_accepted (limits : Limits appName appProvider appSoftVersion appDescription)
    (appPackageSource : String) :
    validate rest (requestObject rest appName appProvider appSoftVersion appDescription
      appPackageSource) = .ok () := by
  have name := limits.name
  have provider := limits.provider
  apply validate_fields limits
  all_goals simp [requestObject,common_string,common_object,name,provider]
  all_goals grind

theorem responseObject_accepted (limits : Limits appName appProvider appSoftVersion appDescription)
    {referenceUri : String} (filled : referenceUri ≠ "") (appPackageSource : String) :
    validate rest (responseObject rest appName appProvider appSoftVersion appDescription
      referenceUri appPackageSource) = .ok () := by
  have name := limits.name
  have provider := limits.provider
  apply validate_fields limits
  all_goals simp [responseObject,common_string,common_object,name,provider,filled]
  all_goals grind

theorem listObject_accepted (limits : Limits appName appProvider appSoftVersion appDescription)
    (charcs : AppCharcs rest) :
    validate rest (listObject rest appName appProvider appSoftVersion appDescription charcs) = .ok () := by
  have name := limits.name
  have provider := limits.provider
  have strings : ∀ key, key ≠ "appCharcs" →
      (listObject rest appName appProvider appSoftVersion appDescription charcs).stringField? key =
      (common rest appName appProvider appSoftVersion appDescription).stringField? key := by
    intro key other
    simp [listObject,Json.stringField?,other]
  apply validate_fields limits
  · rw [strings _ (by decide),common_string]; simp [name]
  · rw [strings _ (by decide),common_string]; simp [provider]
  · rw [strings _ (by decide),common_string]; simp; grind
  · rw [strings _ (by decide),common_string]; simp; grind
  · rw [strings _ (by decide),common_string]; simp
  · intro inner found
    have here := (Json.objectField?_eq_some found).1
    simp only [listObject,Json.field?_set,↓reduceIte,Option.some.injEq] at here
    rw [← here]
    exact charcs.accepted

variable (rest appName appProvider appSoftVersion appDescription)

def ofRequest (appPackageSource : String) : Except Exception (AppInfo rest) :=
  match checked : rest.check (commonSetup rest appName appProvider appSoftVersion appDescription
      ⟨"Invalid AppInfo: ",[]⟩).1 with
  | .error error => .error error
  | .ok () => .ok ⟨requestObject rest appName appProvider appSoftVersion appDescription appPackageSource,
      requestObject_accepted (limits_of_check rest _ _ _ _ checked) _⟩

def ofResponse (referenceUri appPackageSource : String) : Except Exception (AppInfo rest) :=
  let thrower : Thrower := ⟨"Invalid AppInfo: ",[]⟩
  let thrower := thrower.record (referenceUri = "") "referenceURI missing"
  match checked : rest.check (commonSetup rest appName appProvider appSoftVersion appDescription thrower).1 with
  | .error error => .error error
  | .ok () => .ok ⟨responseObject rest appName appProvider appSoftVersion appDescription
      referenceUri appPackageSource,by
        have clean := (commonSetup_errors rest _ _ _ _ thrower).mp ((rest.check_ok _).mp checked)
        have filled : referenceUri ≠ "" := by
          simpa using ((Thrower.record_errors _ _ _).mp clean.1).2
        exact responseObject_accepted clean.2 filled _⟩

def ofCharcs (charcs : AppCharcs rest) : Except Exception (AppInfo rest) :=
  match checked : rest.check (commonSetup rest appName appProvider appSoftVersion appDescription
      ⟨"Invalid AppInfo: ",[]⟩).1 with
  | .error error => .error error
  | .ok () => .ok ⟨listObject rest appName appProvider appSoftVersion appDescription charcs,
      listObject_accepted (limits_of_check rest _ _ _ _ checked) _⟩

variable {rest appName appProvider appSoftVersion appDescription}

theorem ofResponse_ok {referenceUri appPackageSource : String} {info : AppInfo rest} :
    ofResponse rest appName appProvider appSoftVersion appDescription referenceUri appPackageSource =
      .ok info ↔ Limits appName appProvider appSoftVersion appDescription ∧ referenceUri ≠ "" ∧
        info.theObject = responseObject rest appName appProvider appSoftVersion appDescription
          referenceUri appPackageSource := by
  have clean := commonSetup_errors rest appName appProvider appSoftVersion appDescription
    ((⟨"Invalid AppInfo: ",[]⟩ : Thrower).record (referenceUri = "") "referenceURI missing")
  rw [← rest.check_ok] at clean
  simp only [Thrower.record_errors,true_and,decide_eq_false_iff_not] at clean
  unfold ofResponse
  dsimp only
  split
  · rename_i error checked
    rw [checked] at clean
    simp only [reduceCtorEq,false_iff] at clean
    simp only [reduceCtorEq,false_iff]
    rintro ⟨limits,filled,_⟩
    exact clean ⟨filled,limits⟩
  · rename_i checked
    have passed := clean.mp checked
    simp only [Except.ok.injEq]
    constructor
    · rintro rfl
      exact ⟨passed.2,passed.1,rfl⟩
    · rintro ⟨_,_,same⟩
      exact AppInfo.ext same.symm

theorem ofCharcs_ok {charcs : AppCharcs rest} {info : AppInfo rest} :
    ofCharcs rest appName appProvider appSoftVersion appDescription charcs = .ok info ↔
      Limits appName appProvider appSoftVersion appDescription ∧
        info.theObject = listObject rest appName appProvider appSoftVersion appDescription charcs := by
  have clean := commonSetup_errors rest appName appProvider appSoftVersion appDescription
    ⟨"Invalid AppInfo: ",[]⟩
  rw [← rest.check_ok] at clean
  simp only [true_and] at clean
  unfold ofCharcs
  split
  · rename_i error checked
    rw [checked] at clean
    simp only [reduceCtorEq,false_iff] at clean
    simp [clean]
  · rename_i checked
    have passed := clean.mp checked
    simp only [Except.ok.injEq,passed,true_and]
    constructor
    · rintro rfl; rfl
    · intro same
      exact AppInfo.ext same.symm

end Fields

section Accessors
variable {rest : Rest} {info : AppInfo rest}

theorem appName_of {value : String} (found : info.theObject.stringField? "appName" = some value) :
    info.appName = value := Option.some.inj (info.appName_eq.symm.trans found)

theorem appProvider_of {value : String}
    (found : info.theObject.stringField? "appProvider" = some value) :
    info.appProvider = value := Option.some.inj (info.appProvider_eq.symm.trans found)

/-- An object that keeps the common fields names the application they describe. -/
theorem names_of_common {appName appProvider appSoftVersion appDescription : String}
    (limits : Limits appName appProvider appSoftVersion appDescription)
    (kept : ∀ key, key ≠ "appPackageSource" → key ≠ "referenceURI" → key ≠ "appCharcs" →
      info.theObject.stringField? key =
        (common rest appName appProvider appSoftVersion appDescription).stringField? key) :
    info.appName = appName ∧ info.appProvider = appProvider ∧ info.appSoftVersion = appSoftVersion := by
  refine ⟨appName_of ?_,appProvider_of ?_,?_⟩
  · rw [kept _ (by decide) (by decide) (by decide),common_string]
    simp [limits.name]
  · rw [kept _ (by decide) (by decide) (by decide),common_string]
    simp [limits.provider]
  · rw [AppInfo.appSoftVersion,Rest.stringOrEmpty_eq,
      kept _ (by decide) (by decide) (by decide),common_string]
    by_cases blank : appSoftVersion = "" <;> simp [blank]

theorem appSoftVersion_short (info : AppInfo rest) : info.appSoftVersion.length ≤ 32 := by
  have checked := checks_errors.mp (validate_ok.mp info.accepted).1
  cases found : info.theObject.stringField? "appSoftVersion" with
  | none => simp [appSoftVersion,found]
  | some value => simpa [appSoftVersion,found] using checked.2.2.1 value found

theorem appDescription_short (info : AppInfo rest) : info.appDescription.length ≤ 128 := by
  have checked := checks_errors.mp (validate_ok.mp info.accepted).1
  cases found : info.theObject.stringField? "appDescription" with
  | none => simp [appDescription,found]
  | some value => simpa [appDescription,found] using checked.2.2.2.1 value found

def requested (rest : Rest) {appName appProvider appSoftVersion appDescription : String}
    (limits : Limits appName appProvider appSoftVersion appDescription) (appPackageSource : String) :
    AppInfo rest :=
  ⟨requestObject rest appName appProvider appSoftVersion appDescription appPackageSource,
    requestObject_accepted limits appPackageSource⟩

theorem ofRequest_eq {appName appProvider appSoftVersion appDescription : String}
    (limits : Limits appName appProvider appSoftVersion appDescription) (appPackageSource : String) :
    ofRequest rest appName appProvider appSoftVersion appDescription appPackageSource =
      .ok (requested rest limits appPackageSource) := by
  have clean := (commonSetup_errors rest _ _ _ _ ⟨"Invalid AppInfo: ",[]⟩).mpr ⟨rfl,limits⟩
  unfold ofRequest
  split
  · rename_i error checked
    rw [(rest.check_ok _).mpr clean] at checked
    contradiction
  · rfl

theorem requested_names {appName appProvider appSoftVersion appDescription appPackageSource : String}
    (limits : Limits appName appProvider appSoftVersion appDescription) :
    (requested rest limits appPackageSource).appName = appName ∧
      (requested rest limits appPackageSource).appProvider = appProvider ∧
      (requested rest limits appPackageSource).appSoftVersion = appSoftVersion := by
  apply names_of_common limits
  intro key other _ _
  simp [requested,requestObject,other]

theorem requested_message {appName appProvider appSoftVersion appDescription appPackageSource : String}
    (limits : Limits appName appProvider appSoftVersion appDescription) :
    (requested rest limits appPackageSource).message = .appContextRequest := by
  simp [message,requested,requestObject,Json.hasObjectField,Json.hasStringField,common_object,common_string]

theorem ofCharcs_names {appName appProvider appSoftVersion appDescription : String} {charcs : AppCharcs rest}
    (made : ofCharcs rest appName appProvider appSoftVersion appDescription charcs = .ok info) :
    info.appName = appName ∧ info.appProvider = appProvider ∧ info.appSoftVersion = appSoftVersion := by
  obtain ⟨limits,object⟩ := ofCharcs_ok.mp made
  apply names_of_common limits
  intro key _ _ other
  simp [object,listObject,Json.stringField?,other]

/-- What an accepted structure holds is within the limits of every constructor. -/
theorem limits (info : AppInfo rest) :
    Limits info.appName info.appProvider info.appSoftVersion info.appDescription where
  name := info.appName_ne
  provider := info.appProvider_ne
  nameShort := info.appName_short
  providerShort := by
    obtain ⟨value,found,_,short⟩ := info.named.2
    rwa [appProvider_of found]
  versionShort := info.appSoftVersion_short
  descriptionShort := info.appDescription_short

end Accessors

def makeAppContextResponse (info : AppInfo rest) (referenceUri : String) :
    Except Exception (AppInfo rest) :=
  if info.message ≠ .appContextRequest then
    .error (.runtimeError "Invalid AppContext structure type")
  else if referenceUri = "" then .error (.runtimeError "referenceURI cannot be empty")
  else ofResponse rest info.appName info.appProvider info.appSoftVersion info.appDescription
    referenceUri info.appPackageSource

/-- The response of a request carries the URI and names the same application. -/
theorem makeAppContextResponse_ok {info : AppInfo rest} {uri : String}
    (request : info.message = .appContextRequest) (filled : uri ≠ "") :
    ∃ response, info.makeAppContextResponse uri = .ok response ∧
      response.message = .appContextResponse ∧ response.referenceUri = .ok uri ∧
      response.appName = info.appName ∧ response.appProvider = info.appProvider ∧
      response.appSoftVersion = info.appSoftVersion := by
  let object := responseObject rest info.appName info.appProvider info.appSoftVersion
    info.appDescription uri info.appPackageSource
  have accepted : validate rest object = .ok () := responseObject_accepted info.limits filled _
  have strings : ∀ key, key ≠ "appPackageSource" → object.stringField? key =
      if key = "referenceURI" then some uri else (common rest info.appName info.appProvider
        info.appSoftVersion info.appDescription).stringField? key := by
    intro key other
    simp [object,responseObject,other,filled]
  have uriField : object.stringField? "referenceURI" = some uri := by
    rw [strings _ (by decide),if_pos rfl]
  have charcs : object.objectField? "appCharcs" = none := by
    simp [object,responseObject,common_object]
  have kind : (⟨object,accepted⟩ : AppInfo rest).message = .appContextResponse := by
    simp [message,Json.hasObjectField,Json.hasStringField,charcs,uriField]
  refine ⟨⟨object,accepted⟩,?_,kind,?_,?_⟩
  · rw [makeAppContextResponse,if_neg (not_not.mpr request),if_neg filled]
    exact ofResponse_ok.mpr ⟨info.limits,filled,rfl⟩
  · simp [referenceUri,kind,uriField]
  · apply names_of_common info.limits
    intro key other uri _
    rw [strings key other,if_neg uri]

theorem makeAppContextResponse_throws {info : AppInfo rest} {uri : String}
    (other : info.message ≠ .appContextRequest) :
    info.makeAppContextResponse uri = .error (.runtimeError "Invalid AppContext structure type") :=
  if_pos other

/-! ## What is carried from one message to the next -/

structure Describes (info : AppInfo rest)
    (appName appProvider appSoftVersion appDescription appPackageSource : String) : Prop where
  appName : info.appName = appName
  appProvider : info.appProvider = appProvider
  appSoftVersion : info.appSoftVersion = appSoftVersion
  appDescription : info.appDescription = appDescription
  appPackageSource : info.appPackageSource = appPackageSource

section Carried
variable {rest : Rest} {info : AppInfo rest}
  {appName appProvider appSoftVersion appDescription appPackageSource : String}

/-- An object with the common fields and a package source describes what they say. -/
theorem describes_of_common (limits : Limits appName appProvider appSoftVersion appDescription)
    (kept : ∀ key, key ≠ "appPackageSource" → key ≠ "referenceURI" → key ≠ "appCharcs" →
      info.theObject.stringField? key =
        (common rest appName appProvider appSoftVersion appDescription).stringField? key)
    (source : (info.theObject.stringField? "appPackageSource").getD "" = appPackageSource) :
    info.Describes appName appProvider appSoftVersion appDescription appPackageSource := by
  obtain ⟨name,provider,version⟩ := names_of_common limits kept
  refine ⟨name,provider,version,?_,by rw [AppInfo.appPackageSource,Rest.stringOrEmpty_eq,source]⟩
  rw [AppInfo.appDescription,Rest.stringOrEmpty_eq,kept _ (by decide) (by decide) (by decide),common_string]
  by_cases blank : appDescription = "" <;> simp [blank]

theorem requested_describes (limits : Limits appName appProvider appSoftVersion appDescription)
    (appPackageSource : String) : (requested rest limits appPackageSource).Describes
      appName appProvider appSoftVersion appDescription appPackageSource := by
  apply describes_of_common limits
  · intro key other _ _
    simp [requested,requestObject,other]
  · by_cases blank : appPackageSource = "" <;> simp [requested,requestObject,blank,common_string]

theorem ofResponse_describes {referenceUri : String}
    (made : ofResponse rest appName appProvider appSoftVersion appDescription referenceUri appPackageSource =
      .ok info) : info.Describes appName appProvider appSoftVersion appDescription appPackageSource := by
  obtain ⟨limits,_,object⟩ := ofResponse_ok.mp made
  apply describes_of_common limits
  · intro key other uri _
    simp [object,responseObject,other,uri]
  · by_cases blank : appPackageSource = "" <;> simp [object,responseObject,blank,common_string]

def makeAppContextRequest (info : AppInfo rest) (appPackageSource : String) : Except Exception (AppInfo rest) :=
  if info.message ≠ .applicationList then
    .error (.runtimeError "Invalid ApplicationList structure type")
  else ofRequest rest info.appName info.appProvider info.appSoftVersion info.appDescription appPackageSource

/-- The request for an element names the same application, with the source given. -/
theorem makeAppContextRequest_ok (listed : info.message = .applicationList) (appPackageSource : String) :
    ∃ request, info.makeAppContextRequest appPackageSource = .ok request ∧
      request.message = .appContextRequest ∧ request.Describes info.appName info.appProvider
        info.appSoftVersion info.appDescription appPackageSource := by
  refine ⟨requested rest info.limits appPackageSource,?_,requested_message _,requested_describes _ _⟩
  rw [makeAppContextRequest,if_neg (not_not.mpr listed),ofRequest_eq info.limits]

/-- The response to a request describes what the request does. -/
theorem makeAppContextResponse_describes {response : AppInfo rest} {uri : String}
    (made : info.makeAppContextResponse uri = .ok response) : response.Describes info.appName info.appProvider
      info.appSoftVersion info.appDescription info.appPackageSource := by
  unfold makeAppContextResponse at made
  split at made
  · contradiction
  split at made
  · contradiction
  · exact ofResponse_describes made

end Carried

end AppInfo
end EtsiMec
