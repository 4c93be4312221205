import EtsiMec.AppInfo
import EtsiMec.Library.Effect

/-! `AppContext`: the message a UE application sends to request a context and the one
the proxy answers with. The JSON constructor checks less than the field constructor,
so an accepted object need not be consistent; `type` only asserts that it is. -/
namespace EtsiMec

open Effect

namespace AppInfo

/-- Accepted application information is an object. -/
theorem isObject (info : AppInfo rest) : ∃ fields, info.toJson = .object fields := by
  cases shape : info.theObject with
  | object fields => exact ⟨fields,shape⟩
  | _ =>
    have found := info.appName_eq
    simp [shape,Json.stringField?,Json.field?] at found

end AppInfo

namespace AppContext

inductive Kind where
  | request
  | response
  deriving DecidableEq, Repr

def checks (rest : Rest) (json : Json) : Thrower :=
  let thrower : Thrower := ⟨"Invalid AppContext: ",[]⟩
  let thrower := thrower.note (rest.notEmptyIfPresent json "contextId")
  let thrower := thrower.note (rest.notEmpty json "associateUeAppId")
  thrower.record (!json.hasObjectField "appInfo") "missing appInfo"

/-- The JSON constructor: its own checks, then those of the nested `AppInfo`. -/
def validate (rest : Rest) (json : Json) : Except Exception Unit :=
  match rest.check (checks rest json) with
  | .error error => .error error
  | .ok () =>
    match json.objectField? "appInfo" with
    | some info => AppInfo.validate rest info
    | none => .ok ()

theorem checks_errors {rest : Rest} {json : Json} : (checks rest json).errors = [] ↔
    json.stringField? "contextId" ≠ some "" ∧
    (∃ value, json.stringField? "associateUeAppId" = some value ∧ value ≠ "") ∧
    ∃ info, json.objectField? "appInfo" = some info := by
  simp [checks,Json.hasObjectField,Option.isSome_iff_exists,and_assoc]

theorem validate_ok {rest : Rest} {json : Json} : validate rest json = .ok () ↔
    json.stringField? "contextId" ≠ some "" ∧
    (∃ value, json.stringField? "associateUeAppId" = some value ∧ value ≠ "") ∧
    ∃ info, json.objectField? "appInfo" = some info ∧ AppInfo.validate rest info = .ok () := by
  unfold validate
  cases checked : rest.check (checks rest json) with
  | error error =>
    have failed : ¬(checks rest json).errors = [] := by
      rw [← rest.check_ok,checked]; simp
    rw [checks_errors] at failed
    simp only [reduceCtorEq,false_iff]
    rintro ⟨context,ueApp,info,found,_⟩
    exact failed ⟨context,ueApp,info,found⟩
  | ok value =>
    obtain ⟨context,ueApp,info,found⟩ := checks_errors.mp ((rest.check_ok _).mp checked)
    simp [context,ueApp,found]

end AppContext

structure AppContext (rest : Rest) where
  theObject : Json
  accepted : AppContext.validate rest theObject = .ok ()

namespace AppContext

@[ext] theorem ext {a b : AppContext rest} (same : a.theObject = b.theObject) : a = b := by
  cases a; cases b; cases same; rfl

def ofJson (rest : Rest) (json : Json) : Except Exception (AppContext rest) :=
  match checked : validate rest json with
  | .error error => .error error
  | .ok () => .ok ⟨json,checked⟩

theorem ofJson_eq (context : AppContext rest) : ofJson rest context.theObject = .ok context := by
  unfold ofJson
  split
  · rename_i error checked
    rw [context.accepted] at checked
    contradiction
  · rfl

theorem ofJson_object {json : Json} {context : AppContext rest} (decoded : ofJson rest json = .ok context) :
    context.theObject = json := by
  unfold ofJson at decoded
  split at decoded
  · contradiction
  · cases decoded; rfl

def toJson (context : AppContext rest) : Json := context.theObject

theorem hasAppInfo (context : AppContext rest) :
    (context.theObject.objectField? "appInfo").isSome := by
  obtain ⟨_,_,info,found,_⟩ := validate_ok.mp context.accepted
  simp [found]

theorem appInfo_accepted (context : AppContext rest) :
    AppInfo.validate rest ((context.theObject.objectField? "appInfo").get context.hasAppInfo) = .ok () := by
  obtain ⟨_,_,info,found,accepted⟩ := validate_ok.mp context.accepted
  simpa [found] using accepted

def contextId (context : AppContext rest) : String := rest.stringOrEmpty context.theObject "contextId"

def associateUeAppId (context : AppContext rest) : String :=
  rest.stringOrEmpty context.theObject "associateUeAppId"

def callbackReference (context : AppContext rest) : String :=
  rest.stringOrEmpty context.theObject "callbackReference"

/-- The nested object is decoded again; the class invariant says that it is accepted. -/
def appInfo (context : AppContext rest) : AppInfo rest :=
  ⟨(context.theObject.objectField? "appInfo").get context.hasAppInfo,context.appInfo_accepted⟩

/-- What `type` answers in a build without assertions. -/
def kind (context : AppContext rest) : Kind :=
  if context.theObject.hasStringField "contextId" then .response else .request

/-- What `type` asserts. -/
def consistent (context : AppContext rest) : Bool :=
  (context.kind == .request && context.appInfo.message == .appContextRequest) ||
  (context.kind == .response && context.appInfo.message == .appContextResponse)

def type (build : Build) (context : AppContext rest) : Program σ Exception Kind := do
  Program.assert build.asserts context.consistent
  return context.kind

theorem associateUeAppId_ne (context : AppContext rest) : context.associateUeAppId ≠ "" := by
  obtain ⟨_,⟨value,found,filled⟩,_⟩ := validate_ok.mp context.accepted
  simpa [associateUeAppId,found] using filled

theorem appInfo_object (context : AppContext rest) :
    context.theObject.objectField? "appInfo" = some context.appInfo.theObject := by
  simp [appInfo]

/-! ## The field constructors -/

def fields (rest : Rest) (contextId associateUeAppId callbackReference : String)
    (appInfo : AppInfo rest) : Json :=
  let theObject := rest.setIfNotEmpty Json.empty "contextId" contextId
  let theObject := rest.setIfNotEmpty theObject "associateUeAppId" associateUeAppId
  let theObject := rest.setIfNotEmpty theObject "callbackReference" callbackReference
  theObject.set "appInfo" appInfo.toJson

section Fields
variable {rest : Rest} {contextId associateUeAppId callbackReference : String} {appInfo : AppInfo rest}

theorem fields_string (key : String) (other : key ≠ "appInfo") :
    (fields rest contextId associateUeAppId callbackReference appInfo).stringField? key =
      if key = "callbackReference" ∧ callbackReference ≠ "" then some callbackReference
      else if key = "associateUeAppId" ∧ associateUeAppId ≠ "" then some associateUeAppId
      else if key = "contextId" ∧ contextId ≠ "" then some contextId else none := by
  have kept : ∀ (json value : Json), (json.set "appInfo" value).stringField? key =
      json.stringField? key := by
    intro json value
    simp [Json.stringField?,other]
  simp only [fields,kept,Rest.stringField?_setIfNotEmpty]
  rfl

theorem fields_appInfo :
    (fields rest contextId associateUeAppId callbackReference appInfo).objectField? "appInfo" =
      some appInfo.toJson := by
  obtain ⟨inner,shape⟩ := appInfo.isObject
  rw [shape]
  apply Json.objectField?_of_object
  simp [fields,shape]

theorem fields_accepted (filled : associateUeAppId ≠ "") :
    validate rest (fields rest contextId associateUeAppId callbackReference appInfo) = .ok () := by
  refine validate_ok.mpr ⟨?_,⟨associateUeAppId,?_,filled⟩,appInfo.toJson,fields_appInfo,appInfo.accepted⟩
  · rw [fields_string _ (by decide)]
    by_cases blank : contextId = "" <;> simp [blank]
  · rw [fields_string _ (by decide)]
    simp [filled]

/-- The nested structure is read back as it was set. -/
theorem appInfo_of_fields {context : AppContext rest}
    (object : context.theObject = fields rest contextId associateUeAppId callbackReference appInfo) :
    context.appInfo = appInfo := by
  apply AppInfo.ext
  have found := context.appInfo_object
  rw [object,fields_appInfo] at found
  exact (Option.some.inj found).symm

variable (rest contextId associateUeAppId callbackReference appInfo)

/-- The private constructor all field constructors delegate to. -/
def make (kind : Kind) : Except Exception (AppContext rest) :=
  let thrower : Thrower := ⟨"Invalid AppContext: ",[]⟩
  let thrower := thrower.record (kind == .response && contextId == "") "contextId missing"
  let thrower := thrower.record (associateUeAppId = "") "associateUeAppId missing"
  let thrower := thrower.record
    ((kind == .request && appInfo.message != .appContextRequest) ||
      (kind == .response && appInfo.message != .appContextResponse)) "wrong appInfo structure used"
  match checked : rest.check thrower with
  | .error error => .error error
  | .ok () => .ok ⟨fields rest contextId associateUeAppId callbackReference appInfo,by
      have clean := (rest.check_ok _).mp checked
      have filled := ((Thrower.record_errors _ _ _).mp ((Thrower.record_errors _ _ _).mp clean).1).2
      exact fields_accepted (by simpa using filled)⟩

def ofRequest : Except Exception (AppContext rest) :=
  make rest "" associateUeAppId callbackReference appInfo .request

def ofResponse : Except Exception (AppContext rest) :=
  make rest contextId associateUeAppId callbackReference appInfo .response

variable {rest contextId associateUeAppId callbackReference appInfo}

theorem make_ok {kind : Kind} {context : AppContext rest} :
    make rest contextId associateUeAppId callbackReference appInfo kind = .ok context ↔
      (kind = .response → contextId ≠ "") ∧ associateUeAppId ≠ "" ∧
      (kind = .request → appInfo.message = .appContextRequest) ∧
      (kind = .response → appInfo.message = .appContextResponse) ∧
      context.theObject = fields rest contextId associateUeAppId callbackReference appInfo := by
  unfold make
  dsimp only
  split
  · rename_i error checked
    have failed := mt (rest.check_ok _).mpr (by rw [checked]; simp)
    simp only [Thrower.record_errors,true_and] at failed
    simp only [reduceCtorEq,false_iff]
    rintro ⟨context,ueApp,request,response,_⟩
    apply failed
    cases kind <;> simp_all
  · rename_i checked
    have clean := (rest.check_ok _).mp checked
    simp only [Thrower.record_errors,true_and] at clean
    simp only [Except.ok.injEq]
    constructor
    · rintro rfl
      cases kind <;> simp_all
    · rintro ⟨_,_,_,_,same⟩
      exact AppContext.ext same.symm

end Fields

/-! ## Responses -/

/-- A message that can be answered: a request, holding the structure of a request. -/
def Proper (context : AppContext rest) : Prop :=
  context.kind = .request ∧ context.appInfo.message = .appContextRequest

instance (context : AppContext rest) : Decidable context.Proper := inferInstanceAs (Decidable (_ ∧ _))

theorem Proper.consistent {context : AppContext rest} (proper : context.Proper) :
    context.consistent = true := by
  simp [AppContext.consistent,proper.1,proper.2]

def makeResponse (build : Build) (context : AppContext rest) (contextId referenceUri : String) :
    Program σ Exception (AppContext rest) := do
  let kind ← context.type build
  if kind ≠ .request then
    Program.throw (.runtimeError "Invalid AppContext structure type")
  else if contextId = "" then Program.throw (.runtimeError "contextId cannot be empty")
  else if referenceUri = "" then Program.throw (.runtimeError "referenceURI cannot be empty")
  else do
    let info ← Program.lift (context.appInfo.makeAppContextResponse referenceUri)
    Program.lift (ofResponse rest contextId context.associateUeAppId context.callbackReference info)

structure Answers (context response : AppContext rest) (id uri : String) : Prop where
  contextId : response.contextId = id
  hasContextId : response.theObject.stringField? "contextId" = some id
  kind : response.kind = .response
  consistent : response.consistent = true
  message : response.appInfo.message = .appContextResponse
  referenceUri : response.appInfo.referenceUri = .ok uri
  associateUeAppId : response.associateUeAppId = context.associateUeAppId
  callbackReference : response.callbackReference = context.callbackReference

theorem type_returned {build : Build} {context : AppContext rest} {kind : Kind} {s t : σ} :
    (context.type build : Program σ Exception Kind) s = .returned kind t ↔
      (build = .debug → context.consistent = true) ∧ kind = context.kind ∧ t = s := by
  cases build <;> cases consistent : context.consistent <;>
    simp [type,consistent,eq_comm]

theorem readOnly_type (build : Build) (context : AppContext rest) :
    Program.ReadOnly (context.type build : Program σ Exception Kind) :=
  Program.readOnly_bind (Program.readOnly_assert _ _) fun _ => Program.readOnly_pure _

theorem readOnly_makeResponse (build : Build) (context : AppContext rest) (contextId referenceUri : String) :
    Program.ReadOnly (context.makeResponse build contextId referenceUri :
      Program σ Exception (AppContext rest)) := by
  refine Program.readOnly_bind (readOnly_type build context) fun kind => ?_
  split
  · exact Program.readOnly_throw _
  split
  · exact Program.readOnly_throw _
  split
  · exact Program.readOnly_throw _
  · exact Program.readOnly_bind (Program.readOnly_lift _) fun _ => Program.readOnly_lift _

theorem uniform_makeResponse (build : Build) (context : AppContext rest) (contextId referenceUri : String) :
    Program.Uniform (context.makeResponse build contextId referenceUri :
      Program σ Exception (AppContext rest)) := by
  refine Program.uniform_bind (Program.uniform_bind (Program.uniform_assert _ _) fun _ =>
    Program.uniform_pure _) fun kind => ?_
  split
  · exact Program.uniform_throw _
  split
  · exact Program.uniform_throw _
  split
  · exact Program.uniform_throw _
  · exact Program.uniform_bind (Program.uniform_lift _) fun _ => Program.uniform_lift _

/-- A proper request is answered in every build. -/
theorem makeResponse_proper {context : AppContext rest} (proper : context.Proper)
    {contextId referenceUri : String} (named : contextId ≠ "") (routed : referenceUri ≠ "") :
    ∃ response : AppContext rest, Answers context response contextId referenceUri ∧
      ∀ (σ : Type) (build : Build) (s : σ),
        (context.makeResponse build contextId referenceUri :
          Program σ Exception (AppContext rest)) s = .returned response s := by
  obtain ⟨info,made,message,uri,_⟩ := AppInfo.makeAppContextResponse_ok proper.2 routed
  have ueApp := context.associateUeAppId_ne
  let object := fields rest contextId context.associateUeAppId context.callbackReference info
  have accepted : validate rest object = .ok () := fields_accepted ueApp
  have context? : object.stringField? "contextId" = some contextId := by
    rw [fields_string _ (by decide)]; simp [named]
  have inner : (⟨object,accepted⟩ : AppContext rest).appInfo = info := appInfo_of_fields rfl
  have kind : (⟨object,accepted⟩ : AppContext rest).kind = .response := by
    simp [AppContext.kind,Json.hasStringField,context?]
  refine ⟨⟨object,accepted⟩,?_,?_⟩
  · refine ⟨?_,context?,kind,?_,by rw [inner]; exact message,by rw [inner]; exact uri,?_,?_⟩
    · simp [AppContext.contextId,context?]
    · simp [AppContext.consistent,kind,inner,message]
    · change rest.stringOrEmpty object "associateUeAppId" = _
      rw [Rest.stringOrEmpty_eq,fields_string _ (by decide)]
      simp [ueApp]
    · change rest.stringOrEmpty object "callbackReference" = _
      rw [Rest.stringOrEmpty_eq,fields_string _ (by decide)]
      by_cases blank : context.callbackReference = "" <;> simp [blank]
  · intro σ build s
    have built : ofResponse rest contextId context.associateUeAppId context.callbackReference info =
        .ok ⟨object,accepted⟩ :=
      make_ok.mpr ⟨fun _ => named,ueApp,(by simp),fun _ => message,rfl⟩
    have typed : (context.type build : Program σ Exception Kind) s = .returned .request s :=
      type_returned.mpr ⟨fun _ => proper.consistent,proper.1.symm,rfl⟩
    rw [makeResponse,Program.bind_returned _ typed]
    simp [named,routed,made,built]

/-- Only a proper request is answered. -/
theorem makeResponse_returned {build : Build} {context response : AppContext rest}
    {contextId referenceUri : String} {s t : σ}
    (answered : (context.makeResponse build contextId referenceUri :
      Program σ Exception (AppContext rest)) s = .returned response t) :
    context.Proper ∧ contextId ≠ "" ∧ referenceUri ≠ "" ∧ t = s ∧
      Answers context response contextId referenceUri := by
  have quiet := (readOnly_makeResponse build context contextId referenceUri).returned answered
  have conditions : context.Proper ∧ contextId ≠ "" ∧ referenceUri ≠ "" := by
    unfold makeResponse at answered
    rw [Program.bind_apply] at answered
    cases typed : (context.type build : Program σ Exception Kind) s with
    | threw error u => simp [typed] at answered
    | halted reason => simp [typed] at answered
    | returned kind u =>
      obtain ⟨_,rfl,rfl⟩ := type_returned.mp typed
      simp only [typed] at answered
      split at answered
      · simp at answered
      rename_i request
      split at answered
      · simp at answered
      rename_i named
      split at answered
      · simp at answered
      rename_i routed
      by_cases message : context.appInfo.message = .appContextRequest
      · exact ⟨⟨not_not.mp request,message⟩,named,routed⟩
      · simp [AppInfo.makeAppContextResponse_throws message] at answered
  obtain ⟨proper,named,routed⟩ := conditions
  obtain ⟨expected,answers,computes⟩ := makeResponse_proper proper named routed
  cases (computes σ build s).symm.trans answered
  exact ⟨proper,named,routed,rfl,answers⟩

/-- Without assertions nothing stops an answer from being made or refused. -/
theorem makeResponse_release (context : AppContext rest) (contextId referenceUri : String) (s : σ)
    (reason : Effect.Halt) : (context.makeResponse .release contextId referenceUri :
      Program σ Exception (AppContext rest)) s ≠ .halted reason := by
  have typed : (context.type .release : Program σ Exception Kind) s = .returned context.kind s :=
    type_returned.mpr ⟨by simp,rfl,rfl⟩
  rw [makeResponse,Program.bind_returned _ typed]
  split
  · simp
  split
  · simp
  split
  · simp
  cases context.appInfo.makeAppContextResponse referenceUri with
  | error error => simp
  | ok info =>
    rw [Program.lift_ok,Program.pure_bind_apply]
    cases ofResponse rest contextId context.associateUeAppId context.callbackReference info <;> simp

/-- The structure of a response is made from that of the request. -/
theorem makeResponse_info {build : Build} {context response : AppContext rest} {contextId referenceUri : String}
    {s t : σ} (answered : (context.makeResponse build contextId referenceUri :
      Program σ Exception (AppContext rest)) s = .returned response t) :
    context.appInfo.makeAppContextResponse referenceUri = .ok response.appInfo := by
  unfold makeResponse at answered
  obtain ⟨kind,middle,_,continued⟩ := Program.bind_eq_returned.mp answered
  split at continued
  · simp at continued
  split at continued
  · simp at continued
  split at continued
  · simp at continued
  cases made : context.appInfo.makeAppContextResponse referenceUri with
  | error error => simp [made] at continued
  | ok info =>
    rw [made,Program.lift_ok,Program.pure_bind_apply] at continued
    cases built : ofResponse rest contextId context.associateUeAppId context.callbackReference info with
    | error error => simp [built] at continued
    | ok expected =>
      rw [built,Program.lift_ok] at continued
      cases continued
      rw [appInfo_of_fields (make_ok.mp built).2.2.2.2]

/-- A request that is built from fields is proper and has the fields. -/
theorem ofRequest_proper {associateUeAppId callbackReference : String} {info : AppInfo rest}
    {request : AppContext rest} (made : ofRequest rest associateUeAppId callbackReference info = .ok request) :
    request.Proper ∧ request.associateUeAppId = associateUeAppId ∧
      request.callbackReference = callbackReference ∧ request.appInfo = info := by
  obtain ⟨_,filled,message,_,object⟩ := make_ok.mp made
  have inner : request.appInfo = info := appInfo_of_fields object
  have unnamed : request.theObject.stringField? "contextId" = none := by
    rw [object,fields_string _ (by decide)]
    simp
  refine ⟨⟨?_,by rw [inner]; exact message rfl⟩,?_,?_,inner⟩
  · simp [AppContext.kind,Json.hasStringField,unnamed]
  · rw [AppContext.associateUeAppId,Rest.stringOrEmpty_eq,object,fields_string _ (by decide)]
    simp [filled]
  · rw [AppContext.callbackReference,Rest.stringOrEmpty_eq,object,fields_string _ (by decide)]
    by_cases blank : callbackReference = "" <;> simp [blank]

end AppContext
end EtsiMec
