import EtsiMec.Routing

/-! The REST handler of context creations on top of the static proxy. It reads off the
structure it gets back whether the creation was accepted; a refusal hands back what the
client sent. -/
namespace EtsiMec.StaticUeAppLcmProxy

open Effect

variable {rest : Rest} {s t : StaticUeAppLcmProxy rest}

/-- A POST to `app_contexts`, for which the proxy draws the context ID. -/
def handleContextCreate (build : Build) (uuid : String) (request : HttpRequest) :
    Program (StaticUeAppLcmProxy rest) Exception Reply :=
  UeAppLcmProxy.handleContextCreate build (createContext build uuid) request

def handleContextUpdate (request : HttpRequest) : Program (StaticUeAppLcmProxy rest) Exception Reply :=
  UeAppLcmProxy.handleContextUpdate updateContext request

def handleContextDelete (build : Build) (request : HttpRequest) :
    Program (StaticUeAppLcmProxy rest) Exception Reply :=
  UeAppLcmProxy.handleContextDelete build (deleteContext build) request

variable {build : Build} {uuid : String} {request : HttpRequest} {json : Json} {context : AppContext rest}

/-- The handler runs `createContext` on the structure decoded from the body. -/
theorem handleContextCreate_eq (body : request.body = .ok json)
    (decoded : AppContext.ofJson rest json = .ok context) :
    handleContextCreate build uuid request s =
      (createContext build uuid request.remoteAddress context >>= UeAppLcmProxy.answerCreate build) s := by
  unfold handleContextCreate UeAppLcmProxy.handleContextCreate
  rw [body,Program.lift_ok,Program.pure_bind_apply,decoded,Program.lift_ok,Program.pure_bind_apply]

theorem handleContextCreate_refused (body : request.body = .ok json)
    (decoded : AppContext.ofJson rest json = .ok context)
    (refuses : Refuses s request.remoteAddress context) :
    handleContextCreate build uuid request s = UeAppLcmProxy.answerCreate build context s := by
  rw [handleContextCreate_eq body decoded,Program.bind_returned _ (createContext_refused refuses)]

theorem handleContextCreate_granted (build : Build) (body : request.body = .ok json)
    (decoded : AppContext.ofJson rest json = .ok context) {edgeRouter : String}
    (grants : Grants s request.remoteAddress context edgeRouter) (drawn : uuid ≠ "") (filled : edgeRouter ≠ "")
    (clear : build = .debug → uuid ∉ s.theApplicationsByContextId ∧
      context.associateUeAppId ∉ s.theApplicationsByUeAppId) :
    ∃ response, context.Answers response uuid edgeRouter ∧ handleContextCreate build uuid request s =
      .returned ⟨StatusCode.created,.json response.toJson⟩
        (created s uuid request.remoteAddress context edgeRouter) := by
  obtain ⟨response,answers,ran⟩ := createContext_granted build grants drawn filled clear
  exact ⟨response,answers,by rw [handleContextCreate_eq body decoded,Program.bind_returned _ ran,
    UeAppLcmProxy.answerCreate_answers build answers drawn filled]⟩

/-- A request that cannot be answered leaves the handler by an exception. -/
theorem handleContextCreate_improper (build : Build) (body : request.body = .ok json)
    (decoded : AppContext.ofJson rest json = .ok context)
    (accepts : ¬Refuses s request.remoteAddress context) (improper : ¬context.Proper) :
    (∀ reply t, handleContextCreate build uuid request s ≠ .returned reply t) ∧
    ∀ t, (handleContextCreate build uuid request s).state? = some t → t = s := by
  rw [handleContextCreate_eq body decoded,Program.bind_apply]
  cases ran : createContext build uuid request.remoteAddress context s with
  | returned response t =>
    rcases createContext_returned ran with ⟨refuses,_⟩ | ⟨edgeRouter,grants,_⟩
    · exact absurd refuses accepts
    · exact absurd grants.proper improper
  | threw error t => simp [createContext_atomic uuid request.remoteAddress context s error t ran,eq_comm]
  | halted reason => simp

/-! ## Creations that are reported as they went -/

/-- The handler answers that the context was created exactly if one was inserted, and
what it answers is the ID and the endpoint under which the context is stored. -/
structure ReportsCreation (s : StaticUeAppLcmProxy rest) (uuid : String) (request : HttpRequest) : Prop where
  accepted : (∃ reply t, handleContextCreate .release uuid request s = .returned reply t ∧
      reply.status = StatusCode.created) ↔
    ∃ t, (handleContextCreate .release uuid request s).state? = some t ∧
      ∃ contextId, contextId ∉ s.theApplicationsByContextId ∧ contextId ∈ t.theApplicationsByContextId
  body : ∀ reply t, handleContextCreate .release uuid request s = .returned reply t →
    reply.status = StatusCode.created → ∃ (response : AppContext rest) (desc : Desc),
      reply.body = .json response.toJson ∧ response.contextId ∉ s.theApplicationsByContextId ∧
      t.theApplicationsByContextId.lookup response.contextId = some desc ∧
      response.appInfo.referenceUri = .ok desc.theEdgeRouterEndpoint

theorem reportsCreation_granted (body : request.body = .ok json)
    (decoded : AppContext.ofJson rest json = .ok context) {edgeRouter : String}
    (grants : Grants s request.remoteAddress context edgeRouter) (drawn : uuid ≠ "") (filled : edgeRouter ≠ "")
    (new : uuid ∉ s.theApplicationsByContextId) : ReportsCreation s uuid request := by
  obtain ⟨response,answers,ran⟩ :=
    handleContextCreate_granted .release body decoded grants drawn filled (by simp)
  have stored : (created s uuid request.remoteAddress context edgeRouter).theApplicationsByContextId.lookup
      uuid = some ⟨context.associateUeAppId,context.callbackReference,request.remoteAddress,
        context.appInfo.appName,edgeRouter⟩ := by
    rw [created_lookup,if_pos ⟨rfl,new⟩]
  constructor
  · rw [ran]
    exact ⟨fun _ => ⟨_,rfl,uuid,new,KeyedMap.lookup_some_mem stored⟩,fun _ => ⟨_,_,rfl,rfl⟩⟩
  · intro reply t returned _
    cases ran.symm.trans returned
    refine ⟨response,_,rfl,?_,by rw [answers.contextId]; exact stored,answers.referenceUri⟩
    rw [answers.contextId]
    exact new

theorem reportsCreation_improper (body : request.body = .ok json)
    (decoded : AppContext.ofJson rest json = .ok context)
    (accepts : ¬Refuses s request.remoteAddress context) (improper : ¬context.Proper) :
    ReportsCreation s uuid request := by
  obtain ⟨silent,kept⟩ := handleContextCreate_improper .release body decoded accepts improper
  constructor
  · constructor
    · rintro ⟨reply,t,returned,_⟩
      exact absurd returned (silent reply t)
    · rintro ⟨t,left,contextId,absent,present⟩
      rw [kept t left] at present
      exact absurd present absent
  · intro reply t returned
    exact absurd returned (silent reply t)

/-- A refusal is reported as one unless the client sent a context ID. -/
theorem reportsCreation_refused (body : request.body = .ok json)
    (decoded : AppContext.ofJson rest json = .ok context)
    (refuses : Refuses s request.remoteAddress context) :
    ReportsCreation s uuid request ↔ context.kind = .request := by
  have ran : handleContextCreate .release uuid request s = _ :=
    (handleContextCreate_refused body decoded refuses).trans (UeAppLcmProxy.answerCreate_release context s)
  have unchanged : ¬∃ t, (handleContextCreate .release uuid request s).state? = some t ∧
      ∃ contextId, contextId ∉ s.theApplicationsByContextId ∧ contextId ∈ t.theApplicationsByContextId := by
    rintro ⟨t,left,contextId,absent,present⟩
    rw [ran] at left
    cases left
    exact absent present
  constructor
  · intro reports
    by_contra other
    have response : context.kind = .response := by
      cases kind : context.kind
      · exact absurd kind other
      · rfl
    rw [if_pos response] at ran
    exact unchanged (reports.accepted.mp ⟨_,_,ran,rfl⟩)
  · intro kind
    rw [kind,if_neg (by decide)] at ran
    have forbidden : ∀ reply t, handleContextCreate .release uuid request s = .returned reply t →
        reply.status ≠ StatusCode.created := by
      intro reply t returned
      rw [ran] at returned
      cases returned
      decide
    constructor
    · refine ⟨?_,fun inserted => absurd inserted unchanged⟩
      rintro ⟨reply,t,returned,status⟩
      exact absurd status (forbidden reply t returned)
    · intro reply t returned status
      exact absurd status (forbidden reply t returned)

/-- A creation is reported as it went if and only if it carries no context ID or nothing
refuses it. -/
theorem creation_reported_iff (s : StaticUeAppLcmProxy rest) (reached : Reachable .release s)
    (uuid : String) (drawn : uuid ≠ "") (new : uuid ∉ s.theApplicationsByContextId)
    (request : HttpRequest) (json : Json) (body : request.body = .ok json) (context : AppContext rest)
    (decoded : AppContext.ofJson rest json = .ok context) :
    ReportsCreation s uuid request ↔
      (json.hasStringField "contextId" = false ∨
        UeAppLcmProxy.appExists s.theApplications context.appInfo = true ∧
        route s.theTable request.remoteAddress context.appInfo.appName ≠ none) := by
  have shape : json.hasStringField "contextId" = false ↔ context.kind = .request := by
    rw [← AppContext.ofJson_object decoded,AppContext.kind]
    cases context.theObject.hasStringField "contextId" <;> simp
  have accepts : UeAppLcmProxy.appExists s.theApplications context.appInfo = true ∧
      route s.theTable request.remoteAddress context.appInfo.appName ≠ none ↔
      ¬Refuses s request.remoteAddress context := by
    simp [Refuses]
  rw [shape,accepts]
  by_cases refuses : Refuses s request.remoteAddress context
  · rw [reportsCreation_refused body decoded refuses]
    simp [refuses]
  refine iff_of_true ?_ (.inr refuses)
  by_cases proper : context.Proper
  · obtain ⟨edgeRouter,routed⟩ := Option.ne_none_iff_exists'.mp (accepts.mpr refuses).2
    exact reportsCreation_granted body decoded ⟨(accepts.mpr refuses).1,routed,proper⟩ drawn
      (route_filled reached.routed.filled routed) new
  · exact reportsCreation_improper body decoded refuses proper

def posted (context : AppContext Rest.plain) : HttpRequest :=
  ⟨"client","app_contexts",.ok context.toJson⟩

theorem sample_creation_reported :
    ReportsCreation (after .release sampleCalls (by decide)) "c2"
      (posted (sampleRequest "ue2" "http://ue2" (by decide))) :=
  (creation_reported_iff _ (after_reachable .release sampleCalls (by decide)) "c2" (by decide) (by decide)
    _ _ rfl _ (AppContext.ofJson_eq _)).mpr (.inl (by decide))

/-- A request in which the client fills in a context ID itself. -/
def forged : AppContext Rest.plain :=
  ⟨AppContext.fields Rest.plain "c9" "ue1" "http://ue1" sampleApp,AppContext.fields_accepted (by decide)⟩

theorem forged_creation_reported :
    Reachable .release (empty : StaticUeAppLcmProxy Rest.plain) ∧
    AppContext.ofJson Rest.plain forged.toJson = .ok forged ∧
    handleContextCreate .release "c1" (posted forged) (empty : StaticUeAppLcmProxy Rest.plain) =
      .returned ⟨StatusCode.created,.json forged.toJson⟩ empty ∧
    ¬ReportsCreation (empty : StaticUeAppLcmProxy Rest.plain) "c1" (posted forged) := by
  have refuses : Refuses (empty : StaticUeAppLcmProxy Rest.plain) "client" forged := .inr (by decide)
  have response : forged.kind = .response := by decide
  refine ⟨⟨[],rfl⟩,AppContext.ofJson_eq forged,?_,?_⟩
  · rw [handleContextCreate_refused rfl (AppContext.ofJson_eq forged) refuses,
      UeAppLcmProxy.answerCreate_release,if_pos response]
  · intro reports
    have request := (reportsCreation_refused rfl (AppContext.ofJson_eq forged) refuses).mp reports
    rw [response] at request
    contradiction

end EtsiMec.StaticUeAppLcmProxy
