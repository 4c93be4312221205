import EtsiMec.Exchange

/-! `contextCreate` as a whole: nothing interferes between its request and the answer, and
no message is lost. Either both sides have established the context or neither has changed. -/
namespace EtsiMec

open Effect

/-- What a server answers; a handler that throws is answered for. -/
def served (transport : Transport) (handler : Program σ Exception Reply) :
    Program σ Exception (Nat × Json) := fun s =>
  match handler s with
  | .returned reply t => .returned (reply.status,Exchange.bodyJson transport reply.body) t
  | .threw _ t => .returned (transport.thrown,.null) t
  | .halted reason => .halted reason

namespace AppContextManager

/-- The manager draws the UE application ID, the proxy the context ID. -/
def contextCreate (transport : Transport) (build : Build) (uuid ueAppId clientAddress : String)
    (info : AppInfo rest) :
    Program (StaticUeAppLcmProxy rest × AppContextManager) Exception (String × String) := do
  let sides ← Program.get
  let request ← Program.lift (sides.2.contextRequest ueAppId info)
  let ret ← Program.onFirst (served transport (StaticUeAppLcmProxy.handleContextCreate build uuid
    ⟨clientAddress,"app_contexts",.ok request.toJson⟩))
  Program.onSecond (contextStore rest build transport.safeProblemDetailsString ueAppId ret.1 ret.2)

variable {rest : Rest} {transport : Transport} {build : Build} {s t : StaticUeAppLcmProxy rest}
  {m n : AppContextManager} {uuid ueAppId clientAddress edgeRouter : String} {info : AppInfo rest}

structure Established (s t : StaticUeAppLcmProxy rest) (m n : AppContextManager)
    (uuid ueAppId clientAddress appName edgeRouter : String) : Prop where
  theTable : t.theTable = s.theTable
  theApplications : t.theApplications = s.theApplications
  context : ∀ contextId, t.theApplicationsByContextId.lookup contextId = if contextId = uuid
    then some ⟨ueAppId,m.theNotificationUri ++ "/" ++ ueAppId,clientAddress,appName,edgeRouter⟩
    else s.theApplicationsByContextId.lookup contextId
  index : ∀ other, t.theApplicationsByUeAppId.lookup other =
    if other = ueAppId then some uuid else s.theApplicationsByUeAppId.lookup other
  contexts : KeyedMap.size t.theApplicationsByContextId = KeyedMap.size s.theApplicationsByContextId + 1
  theNotificationUri : n.theNotificationUri = m.theNotificationUri
  theProxyUri : n.theProxyUri = m.theProxyUri
  stored : ∀ other, n.theContexts.lookup other =
    if other = ueAppId then some ⟨edgeRouter,uuid⟩ else m.theContexts.lookup other
  entries : KeyedMap.size n.theContexts = KeyedMap.size m.theContexts + 1

/-- The request a manager makes of an application's description. -/
theorem contextRequest_made (m : AppContextManager) (named : ueAppId ≠ "")
    (message : info.message = .appContextRequest) :
    ∃ request : AppContext rest, m.contextRequest ueAppId info = .ok request :=
  ⟨⟨_,AppContext.fields_accepted named⟩,contextRequest_ok.mpr ⟨message,named,rfl⟩⟩

/-- `contextCreate` from the answer of the proxy on. -/
theorem contextCreate_served {request : AppContext rest} {reply : Reply}
    (made : m.contextRequest ueAppId info = .ok request)
    (answered : StaticUeAppLcmProxy.handleContextCreate build uuid
      ⟨clientAddress,"app_contexts",.ok request.toJson⟩ s = .returned reply t) :
    contextCreate transport build uuid ueAppId clientAddress info (s,m) =
      Program.onSecond (contextStore rest build transport.safeProblemDetailsString ueAppId reply.status
        (Exchange.bodyJson transport reply.body)) (t,m) := by
  have response : served transport (StaticUeAppLcmProxy.handleContextCreate build uuid
      ⟨clientAddress,"app_contexts",.ok request.toJson⟩) s =
        .returned (reply.status,Exchange.bodyJson transport reply.body) t := by
    rw [served,answered]
  rw [contextCreate,Program.get_bind_apply,made,Program.lift_ok,Program.pure_bind_apply,
    Program.bind_returned _ (Program.onFirst_returned response m)]

/-- Whatever becomes of it, the manager has stored nothing or the ID it drew. -/
theorem contextCreate_left (left : (contextCreate transport build uuid ueAppId clientAddress info (s,m)).state? =
    some (t,n)) : n = m ∨ ∃ uri contextId, n = m.stored ueAppId uri contextId := by
  rw [contextCreate,Program.get_bind_apply] at left
  cases made : m.contextRequest ueAppId info with
  | error error =>
    rw [made] at left
    cases left
    exact .inl rfl
  | ok request =>
    rw [made,Program.lift_ok,Program.pure_bind_apply,Program.bind_apply,Program.onFirst] at left
    split at left
    · rename_i answer between ran
      split at ran
      · cases ran
        rw [Program.onSecond] at left
        split at left
        · rename_i value after stores
          cases left
          obtain ⟨response,uri,_,rfl⟩ := contextStore_returned stores
          exact .inr ⟨uri,response.contextId,rfl⟩
        · rename_i error after fails
          cases left
          exact .inl (contextStore_atomic _ _ _ fails)
        · contradiction
      · contradiction
      · contradiction
    · rename_i error between ran
      split at ran
      · contradiction
      · cases ran
        cases left
        exact .inl rfl
      · contradiction
    · contradiction

theorem contextCreate_granted (transport : Transport) (build : Build)
    (message : info.message = .appContextRequest) (named : ueAppId ≠ "")
    (registered : UeAppLcmProxy.appExists s.theApplications info = true)
    (routed : StaticUeAppLcmProxy.route s.theTable clientAddress info.appName = some edgeRouter)
    (filled : edgeRouter ≠ "") (drawn : uuid ≠ "") (new : uuid ∉ s.theApplicationsByContextId)
    (fresh : ueAppId ∉ s.theApplicationsByUeAppId) (unknown : ueAppId ∉ m.theContexts) :
    ∃ t n, contextCreate transport build uuid ueAppId clientAddress info (s,m) =
        .returned (ueAppId,edgeRouter) (t,n) ∧
      Established s t m n uuid ueAppId clientAddress info.appName edgeRouter := by
  obtain ⟨request,made⟩ := contextRequest_made m named message
  obtain ⟨proper,ueApp,callback,inner⟩ := contextRequest_proper made
  have grants : StaticUeAppLcmProxy.Grants s clientAddress request edgeRouter :=
    ⟨by rw [inner]; exact registered,by rw [inner]; exact routed,proper⟩
  have clear : build = .debug → uuid ∉ s.theApplicationsByContextId ∧
      request.associateUeAppId ∉ s.theApplicationsByUeAppId := fun _ => ⟨new,by rw [ueApp]; exact fresh⟩
  obtain ⟨response,answers,ran⟩ :=
    @StaticUeAppLcmProxy.handleContextCreate_granted _ s uuid ⟨clientAddress,"app_contexts",
    .ok request.toJson⟩ _ request build rfl (AppContext.ofJson_eq request) edgeRouter grants drawn filled clear
  have accepted : Accepted rest StatusCode.created response.toJson response edgeRouter :=
    ⟨rfl,AppContext.ofJson_eq response,answers.kind,answers.message,answers.referenceUri⟩
  refine ⟨StaticUeAppLcmProxy.created s uuid clientAddress request edgeRouter,
    m.stored ueAppId edgeRouter response.contextId,?_,rfl,rfl,?_,?_,?_,rfl,rfl,?_,?_⟩
  · rw [contextCreate_served made ran]
    exact Program.onSecond_returned (contextStore_accepted accepted) _
  · intro contextId
    simp [StaticUeAppLcmProxy.created_lookup,new,ueApp,callback,inner,callbackReference]
  · intro other
    simp [StaticUeAppLcmProxy.created_index,fresh,ueApp]
  · rw [StaticUeAppLcmProxy.created,KeyedMap.emplace_fresh _ new]
    exact KeyedMap.size_insert_fresh _ new
  · intro other
    simp [stored,KeyedMap.lookup_emplace,unknown,answers.contextId]
  · rw [stored,KeyedMap.emplace_fresh _ unknown]
    exact KeyedMap.size_insert_fresh _ unknown

theorem contextCreate_refused (transport : Transport) (build : Build) (uuid : String) (m : AppContextManager)
    (message : info.message = .appContextRequest) (named : ueAppId ≠ "")
    (refused : UeAppLcmProxy.appExists s.theApplications info = false ∨
      StaticUeAppLcmProxy.route s.theTable clientAddress info.appName = none) :
    ∃ error, contextCreate transport build uuid ueAppId clientAddress info (s,m) = .threw error (s,m) := by
  obtain ⟨request,made⟩ := contextRequest_made m named message
  obtain ⟨proper,_,_,inner⟩ := contextRequest_proper made
  have refuses : StaticUeAppLcmProxy.Refuses s clientAddress request := by
    rw [StaticUeAppLcmProxy.Refuses,inner]
    exact refused
  obtain ⟨detail,answered⟩ := UeAppLcmProxy.answerCreate_proper build proper s
  have ran := (@StaticUeAppLcmProxy.handleContextCreate_refused _ s build uuid ⟨clientAddress,"app_contexts",
    .ok request.toJson⟩ _ request rfl (AppContext.ofJson_eq request) refuses).trans answered
  have rejected : ∃ error, contextStore rest build transport.safeProblemDetailsString ueAppId
      StatusCode.forbidden (Exchange.bodyJson transport (UeAppLcmProxy.refuse detail).body) m = .threw error m :=
    ⟨_,by rw [contextStore,if_pos (by decide)]; rfl⟩
  obtain ⟨error,threw⟩ := rejected
  exact ⟨error,(contextCreate_served made ran).trans (Program.onSecond_threw threw s)⟩

/-- Whatever the description, fresh IDs leave two outcomes. -/
theorem contextCreate_outcome (transport : Transport) (build : Build)
    (routed : StaticUeAppLcmProxy.Routed s) (clientAddress : String) (info : AppInfo rest) (drawn : uuid ≠ "")
    (new : uuid ∉ s.theApplicationsByContextId) (named : ueAppId ≠ "")
    (fresh : ueAppId ∉ s.theApplicationsByUeAppId) (unknown : ueAppId ∉ m.theContexts) :
    (∃ error, contextCreate transport build uuid ueAppId clientAddress info (s,m) = .threw error (s,m)) ∨
    ∃ edgeRouter t n, StaticUeAppLcmProxy.route s.theTable clientAddress info.appName = some edgeRouter ∧
      contextCreate transport build uuid ueAppId clientAddress info (s,m) =
        .returned (ueAppId,edgeRouter) (t,n) ∧
      Established s t m n uuid ueAppId clientAddress info.appName edgeRouter := by
  by_cases message : info.message = .appContextRequest
  · by_cases refused : UeAppLcmProxy.appExists s.theApplications info = false ∨
        StaticUeAppLcmProxy.route s.theTable clientAddress info.appName = none
    · exact .inl (contextCreate_refused transport build uuid m message named refused)
    · obtain ⟨registered,unrouted⟩ := not_or.mp refused
      rw [Bool.not_eq_false] at registered
      obtain ⟨edgeRouter,found⟩ := Option.ne_none_iff_exists'.mp unrouted
      obtain ⟨t,n,ran,established⟩ := contextCreate_granted transport build message named registered found
        (StaticUeAppLcmProxy.route_filled routed.filled found) drawn new fresh unknown
      exact .inr ⟨edgeRouter,t,n,found,ran,established⟩
  · refine .inl ⟨.runtimeError "Invalid AppInfo passed in context creation",?_⟩
    rw [contextCreate,Program.get_bind_apply,contextRequest,if_pos message]
    rfl

/-- Executed on its own, `contextCreate` establishes the context on both sides if the
application is registered and the client has a route; else it throws and changes nothing. -/
theorem contextCreate_agrees (transport : Transport) (build : Build) (s : StaticUeAppLcmProxy rest)
    (reached : StaticUeAppLcmProxy.Reachable build s) (m : AppContextManager)
    (uuid ueAppId clientAddress : String) (info : AppInfo rest) (message : info.message = .appContextRequest)
    (drawn : uuid ≠ "") (new : uuid ∉ s.theApplicationsByContextId) (named : ueAppId ≠ "")
    (fresh : ueAppId ∉ s.theApplicationsByUeAppId) (unknown : ueAppId ∉ m.theContexts) :
    ((∃ answer both, contextCreate transport build uuid ueAppId clientAddress info (s,m) =
        .returned answer both) ↔
      UeAppLcmProxy.appExists s.theApplications info = true ∧ ∃ edgeRouter,
        StaticUeAppLcmProxy.find build s.theTable clientAddress info.appName = .ok (some edgeRouter)) ∧
    (UeAppLcmProxy.appExists s.theApplications info = true ↔ UeAppLcmProxy.mangle info ∈ s.theApplications) ∧
    (∀ answer t n, contextCreate transport build uuid ueAppId clientAddress info (s,m) =
        .returned answer (t,n) → ∃ edgeRouter, answer = (ueAppId,edgeRouter) ∧
      StaticUeAppLcmProxy.find build s.theTable clientAddress info.appName = .ok (some edgeRouter) ∧
      Established s t m n uuid ueAppId clientAddress info.appName edgeRouter) ∧
    (∀ error both, contextCreate transport build uuid ueAppId clientAddress info (s,m) = .threw error both →
      both = (s,m)) ∧
    ∀ reason, contextCreate transport build uuid ueAppId clientAddress info (s,m) ≠ .halted reason := by
  have registration : UeAppLcmProxy.appExists s.theApplications info = true ↔
      UeAppLcmProxy.mangle info ∈ s.theApplications := Std.TreeMap.contains_iff_mem
  rw [StaticUeAppLcmProxy.find_eq info.appName_ne]
  by_cases refused : UeAppLcmProxy.appExists s.theApplications info = false ∨
      StaticUeAppLcmProxy.route s.theTable clientAddress info.appName = none
  · obtain ⟨error,ran⟩ := contextCreate_refused transport build uuid m message named refused
    rw [ran]
    refine ⟨?_,registration,by simp,?_,by simp⟩
    · rcases refused with unregistered | unrouted
      · simp [unregistered]
      · simp [unrouted]
    · rintro _ both ⟨⟩
      rfl
  · obtain ⟨registered,unrouted⟩ := not_or.mp refused
    rw [Bool.not_eq_false] at registered
    obtain ⟨edgeRouter,found⟩ := Option.ne_none_iff_exists'.mp unrouted
    obtain ⟨t,n,ran,established⟩ := contextCreate_granted transport build message named registered found
      (StaticUeAppLcmProxy.route_filled reached.routed.filled found) drawn new fresh unknown
    rw [ran]
    refine ⟨?_,registration,?_,by simp,by simp⟩
    · simp [registered,found]
    · rintro _ _ _ ⟨⟩
      exact ⟨edgeRouter,rfl,by rw [found],established⟩

/-- A manager that creates a context at the sample proxy, and at one where nothing is registered. -/
theorem sample_create_agrees :
    (∃ edgeRouter t n, contextCreate Transport.plain .debug "c2" "ue2" "client" StaticUeAppLcmProxy.sampleApp
        (StaticUeAppLcmProxy.after .debug StaticUeAppLcmProxy.sampleCalls (by decide),
          ⟨"http://manager","http://proxy",∅⟩) = .returned ("ue2",edgeRouter) (t,n) ∧
      KeyedMap.size t.theApplicationsByContextId = 2 ∧ n.theContexts.lookup "ue2" = some ⟨edgeRouter,"c2"⟩) ∧
    ∃ error, contextCreate Transport.plain .debug "c1" "ue1" "client" StaticUeAppLcmProxy.sampleApp
        (StaticUeAppLcmProxy.empty,⟨"http://manager","http://proxy",∅⟩) =
      .threw error (StaticUeAppLcmProxy.empty,⟨"http://manager","http://proxy",∅⟩) := by
  constructor
  · obtain ⟨returns,_,agrees,_⟩ := contextCreate_agrees Transport.plain .debug _
      (StaticUeAppLcmProxy.after_reachable .debug StaticUeAppLcmProxy.sampleCalls (by decide))
      ⟨"http://manager","http://proxy",∅⟩ "c2" "ue2" "client" StaticUeAppLcmProxy.sampleApp (by decide)
      (by decide) (by decide) (by decide) (by decide) (by decide)
    obtain ⟨answer,⟨t,n⟩,ran⟩ := returns.mpr ⟨by decide,"er1",by rfl⟩
    obtain ⟨edgeRouter,rfl,_,established⟩ := agrees answer t n ran
    refine ⟨edgeRouter,t,n,ran,?_,by rw [established.stored,if_pos rfl]⟩
    rw [established.contexts]
    decide
  · obtain ⟨returns,_,_,kept,runs⟩ := contextCreate_agrees Transport.plain .debug StaticUeAppLcmProxy.empty
      ⟨[],rfl⟩ ⟨"http://manager","http://proxy",∅⟩ "c1" "ue1" "client" StaticUeAppLcmProxy.sampleApp (by decide)
      (by decide) (by decide) (by decide) (by decide) (by decide)
    cases ran : contextCreate Transport.plain .debug "c1" "ue1" "client" StaticUeAppLcmProxy.sampleApp
      (StaticUeAppLcmProxy.empty,⟨"http://manager","http://proxy",∅⟩) with
    | returned answer both => exact absurd (returns.mp ⟨answer,both,ran⟩).1 (by decide)
    | threw error both => exact ⟨error,by rw [kept error both ran]⟩
    | halted reason => exact absurd ran (runs reason)

end AppContextManager
end EtsiMec
