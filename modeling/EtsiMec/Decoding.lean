import EtsiMec.Handlers

/-! Messages that are decoded against messages that are built from fields. The field
constructors refuse an `AppInfo` of another message; the JSON constructor looks at each
object by itself. -/
namespace EtsiMec.AppContext

open Effect

variable {rest : Rest} {json : Json} {context : AppContext rest}

/-- The rule across the two objects, and that `type` may be called. -/
structure Typed (context : AppContext rest) : Prop where
  response : context.theObject.hasStringField "contextId" = true ↔
    context.appInfo.message = .appContextResponse
  request : context.theObject.hasStringField "contextId" = false →
    context.appInfo.message = .appContextRequest
  asserted : ∀ (σ : Type) (s : σ), ∃ kind,
    (context.type .debug : Program σ Exception Kind) s = .returned kind s

/-- The fields of a response are both there, or neither they nor the characteristics are. -/
def FieldsMatch (json : Json) : Prop :=
  ∃ info, json.objectField? "appInfo" = some info ∧
    (json.hasStringField "contextId" = true ∧ info.hasStringField "referenceURI" = true ∨
      json.hasStringField "contextId" = false ∧ info.hasStringField "referenceURI" = false ∧
        info.hasObjectField "appCharcs" = false)

/-- A field constructor accepts what the accessors read. -/
def Constructible (context : AppContext rest) : Prop :=
  (∃ built, ofRequest rest context.associateUeAppId context.callbackReference context.appInfo = .ok built ∧
    built.contextId = context.contextId) ∨
  ∃ built, ofResponse rest context.contextId context.associateUeAppId context.callbackReference
    context.appInfo = .ok built

theorem message_request {info : AppInfo rest} : info.message = .appContextRequest ↔
    info.theObject.hasStringField "referenceURI" = false ∧
      info.theObject.hasObjectField "appCharcs" = false := by
  unfold AppInfo.message
  cases info.theObject.hasObjectField "appCharcs" <;>
    cases info.theObject.hasStringField "referenceURI" <;> simp

theorem message_response {info : AppInfo rest} : info.message = .appContextResponse ↔
    info.theObject.hasStringField "referenceURI" = true := by
  unfold AppInfo.message
  cases charcs : info.theObject.hasObjectField "appCharcs" with
  | true => simp [info.message_exclusive charcs]
  | false => cases info.theObject.hasStringField "referenceURI" <;> simp

theorem kind_response : context.kind = .response ↔ context.theObject.hasStringField "contextId" = true := by
  unfold AppContext.kind
  split <;> simp_all

theorem kind_request : context.kind = .request ↔ context.theObject.hasStringField "contextId" = false := by
  unfold AppContext.kind
  split <;> simp_all

/-- A context ID that was accepted is not empty. -/
theorem contextId_ne : context.contextId ≠ "" ↔ context.theObject.hasStringField "contextId" = true := by
  have given := (validate_ok.mp context.accepted).1
  rw [AppContext.contextId,Rest.stringOrEmpty_eq,Json.hasStringField]
  cases found : context.theObject.stringField? "contextId" with
  | none => simp
  | some value =>
    rw [found] at given
    simpa using given

theorem consistent_iff : context.consistent = true ↔
    context.kind = .request ∧ context.appInfo.message = .appContextRequest ∨
    context.kind = .response ∧ context.appInfo.message = .appContextResponse := by
  simp [AppContext.consistent]

theorem typed_iff : Typed context ↔ context.consistent = true := by
  constructor
  · intro typed
    obtain ⟨kind,returned⟩ := typed.asserted Unit ()
    exact (type_returned.mp returned).1 rfl
  · intro consistent
    refine ⟨?_,?_,fun σ s => ⟨context.kind,type_returned.mpr ⟨fun _ => consistent,rfl,rfl⟩⟩⟩
    · rcases consistent_iff.mp consistent with ⟨kind,message⟩ | ⟨kind,message⟩
      · simp [kind_request.mp kind,message]
      · simp [kind_response.mp kind,message]
    · intro unnamed
      rcases consistent_iff.mp consistent with ⟨_,message⟩ | ⟨kind,_⟩
      · exact message
      · simp [kind_response.mp kind] at unnamed

theorem fieldsMatch_iff : FieldsMatch context.theObject ↔ context.consistent = true := by
  rw [consistent_iff,kind_request,kind_response,message_request,message_response,FieldsMatch,
    context.appInfo_object]
  simp [or_comm]

theorem make_defined (contextId : String) {associateUeAppId : String} (callbackReference : String)
    {info : AppInfo rest} (kind : Kind) (named : kind = .response → contextId ≠ "")
    (filled : associateUeAppId ≠ "")
    (request : kind = .request → info.message = .appContextRequest)
    (response : kind = .response → info.message = .appContextResponse) :
    ∃ built, make rest contextId associateUeAppId callbackReference info kind = .ok built ∧
      built.theObject = fields rest contextId associateUeAppId callbackReference info :=
  ⟨⟨_,fields_accepted filled⟩,make_ok.mpr ⟨named,filled,request,response,rfl⟩,rfl⟩

/-- A message built without a context ID has none. -/
theorem fields_unnamed {built : AppContext rest} {associateUeAppId callbackReference : String}
    {info : AppInfo rest} (object : built.theObject = fields rest "" associateUeAppId callbackReference info) :
    built.contextId = "" := by
  rw [AppContext.contextId,Rest.stringOrEmpty_eq,object,fields_string _ (by decide)]
  simp

theorem constructible_iff : Constructible context ↔ context.consistent = true := by
  rw [consistent_iff,kind_request,kind_response,← contextId_ne]
  have unnamed : context.theObject.hasStringField "contextId" = false ↔ context.contextId = "" := by
    rw [← not_iff_not,Bool.not_eq_false,← contextId_ne]
  rw [unnamed]
  refine or_congr ⟨?_,?_⟩ ⟨?_,?_⟩
  · rintro ⟨built,made,same⟩
    obtain ⟨_,_,message,_,object⟩ := make_ok.mp made
    exact ⟨same ▸ fields_unnamed object,message rfl⟩
  · rintro ⟨blank,message⟩
    obtain ⟨built,made,object⟩ :=
      make_defined "" context.callbackReference .request (by simp) context.associateUeAppId_ne
      (fun _ => message) (by simp)
    exact ⟨built,made,(fields_unnamed object).trans blank.symm⟩
  · rintro ⟨built,made⟩
    obtain ⟨named,_,_,message,_⟩ := make_ok.mp made
    exact ⟨named rfl,message rfl⟩
  · rintro ⟨named,message⟩
    obtain ⟨built,made,_⟩ := make_defined context.contextId context.callbackReference .response (fun _ => named)
      context.associateUeAppId_ne (by simp) (fun _ => message)
    exact ⟨built,made⟩

/-- A decoded message keeps the rule of the field constructors if and only if its fields
match, and these are the messages the field constructors build. -/
theorem decoded_typed_iff (json : Json) (context : AppContext rest) (decoded : ofJson rest json = .ok context) :
    (Typed context ↔ FieldsMatch json) ∧ (Typed context ↔ Constructible context) := by
  rw [typed_iff,constructible_iff,← ofJson_object decoded,fieldsMatch_iff]
  exact ⟨.rfl,.rfl⟩

theorem sample_typed :
    Typed (StaticUeAppLcmProxy.sampleRequest "ue1" "" StaticUeAppLcmProxy.sampleId_filled) ∧
    Constructible (StaticUeAppLcmProxy.sampleRequest "ue1" "" StaticUeAppLcmProxy.sampleId_filled) := by
  obtain ⟨fields,built⟩ := decoded_typed_iff _ _
    (ofJson_eq (StaticUeAppLcmProxy.sampleRequest "ue1" "" StaticUeAppLcmProxy.sampleId_filled))
  have typed := fields.mpr ⟨_,rfl,.inr ⟨by decide,by decide,by decide⟩⟩
  exact ⟨typed,built.mp typed⟩

/-- The context ID of a response beside the `AppInfo` of a request. -/
theorem forged_untyped :
    ofJson Rest.plain StaticUeAppLcmProxy.forged.toJson = .ok StaticUeAppLcmProxy.forged ∧
    StaticUeAppLcmProxy.forged.theObject.hasStringField "contextId" = true ∧
    StaticUeAppLcmProxy.forged.appInfo.message = .appContextRequest ∧
    (StaticUeAppLcmProxy.forged.type .debug : Program Unit Exception Kind) () = .halted .assertion ∧
    ¬Typed StaticUeAppLcmProxy.forged := by
  refine ⟨ofJson_eq _,by decide,by decide,Outcome.reason?_eq_some.mp (by decide),?_⟩
  rw [typed_iff]
  decide

end EtsiMec.AppContext
