import EtsiMec.Service
import EtsiMec.Independence
import EtsiMec.Posting
import EtsiMec.Library.Refinement

/-! The proxy refines the service. What the sweeps of the two calls on the table tell the
contexts is who is moved by the change, and what the second index finds is the session with
the UE application ID; both rest on the invariants of the proxy. -/
namespace EtsiMec.Service

open Effect StaticUeAppLcmProxy

variable {rest : Rest} {build : Build} {s t : StaticUeAppLcmProxy rest}

/-! ## Calls on the table -/

theorem of_rerouted {address appName : String} {value : Option String} {out : NotificationList}
    (changed : KeyedMap.view t.theTable = Function.update (KeyedMap.view s.theTable) ⟨address,appName⟩ value)
    (rerouted : Rerouted s t appName out) : of t = (of s).assign ⟨address,appName⟩ value := by
  ext1
  · exact changed
  · funext contextId
    change Option.map _ _ = Option.map _ _
    rw [rerouted.contexts,Option.map_map]
    congr 1
    funext desc
    simp [Desc.session]
  · change { key | key ∈ t.theApplications } = { key | key ∈ s.theApplications }
    rw [rerouted.theApplications]

/-- The list of a call that reroutes, against who is told. -/
theorem mem_notices (routed : Routed s) (routed' : Routed t) {address appName : String} {value : Option String}
    {out : NotificationList}
    (changed : KeyedMap.view t.theTable = Function.update (KeyedMap.view s.theTable) ⟨address,appName⟩ value)
    (rerouted : Rerouted s t appName out) (elem : Notification) :
    elem ∈ out ↔ elem ∈ (of s).notices (of t) := by
  obtain ⟨callbackReference,uri,contextId⟩ := elem
  rw [rerouted.notified]
  constructor
  · rintro ⟨desc,live,member⟩
    obtain ⟨_,other,filled,same⟩ := mem_refresh.mp member
    rw [Notification.mk.injEq] at same
    obtain ⟨rfl,rfl,_⟩ := same
    rw [routed.endpoint contextId desc live] at other
    refine ⟨desc.session,of_sessions.mpr ⟨desc,live,rfl⟩,rfl,(endpointOf_eq filled).mp rfl,fun before => ?_⟩
    exact other ((endpointOf_eq filled).mpr before).symm
  · rintro ⟨session,entered,rfl,after,before⟩
    obtain ⟨desc,live,rfl⟩ := of_sessions.mp entered
    have filled : uri ≠ "" := route_filled routed'.filled ((follow_session _ _).symm.trans after)
    have gets := (endpointOf_eq filled).mpr after
    have had := mt (endpointOf_eq filled).mp before
    refine ⟨desc,live,mem_refresh.mpr ⟨?_,?_,?_,?_⟩⟩
    · by_contra other
      rw [endpointOf_other changed other] at gets
      exact had gets
    · rw [gets,routed.endpoint contextId desc live]
      exact Ne.symm had
    · rw [gets]
      exact filled
    · rw [gets]
      rfl

structure Follows (s : StaticUeAppLcmProxy rest) (call : Call rest) (t : StaticUeAppLcmProxy rest)
    (answer : Except Exception (Result rest)) : Prop where
  goes : of t = ((of s).perform call).1
  agrees : Agree call answer ((of s).perform call).2

theorem associateAddress_follows (routed : Routed s) {address appName edgeRouter : String}
    {answer : Except Exception (Result rest)}
    (ran : StaticUeAppLcmProxy.perform build s (.associateAddress address appName edgeRouter) = some (t,answer)) :
    Follows s (.associateAddress address appName edgeRouter) t answer := by
  obtain ⟨inner,section',rfl⟩ := Program.answer?_map.mp ran
  by_cases unable : appName = "" ∨ edgeRouter = ""
  · obtain ⟨error,throws⟩ := @associateSection_throws rest build address _ _ unable
    rw [throws] at section'
    cases section'
    constructor
    · rw [Service.perform,if_pos unable]
    · rw [Service.perform,if_pos unable]
      exact ⟨error,rfl⟩
  · obtain ⟨named,filled⟩ := not_or.mp unable
    obtain ⟨out,returned,rfl⟩ := (associateSection_silent address named filled).answer? section'
    obtain ⟨_,_,changed,rerouted⟩ := associateSection_reroutes routed returned
    have goes := of_rerouted changed rerouted
    constructor
    · rw [Service.perform,if_neg unable]
      exact goes
    · rw [Service.perform,if_neg unable]
      refine ⟨out,rfl,fun elem => ?_,rerouted.once⟩
      rw [mem_notices routed (routed.afterAssociate returned) changed rerouted,goes]

theorem removeAddress_follows (routed : Routed s) {address appName : String}
    {answer : Except Exception (Result rest)}
    (ran : StaticUeAppLcmProxy.perform build s (.removeAddress address appName) = some (t,answer)) :
    Follows s (.removeAddress address appName) t answer := by
  obtain ⟨inner,section',rfl⟩ := Program.answer?_map.mp ran
  by_cases unnamed : appName = ""
  · rw [removeSection,if_pos unnamed] at section'
    cases section'
    constructor
    · rw [Service.perform,if_pos unnamed]
    · rw [Service.perform,if_pos unnamed]
      exact ⟨_,rfl⟩
  · obtain ⟨out,returned,rfl⟩ := (removeSection_silent address unnamed).answer? section'
    obtain ⟨_,changed,rerouted⟩ := removeSection_reroutes routed returned
    have goes := of_rerouted changed rerouted
    constructor
    · rw [Service.perform,if_neg unnamed]
      exact goes
    · rw [Service.perform,if_neg unnamed]
      refine ⟨out,rfl,fun elem => ?_,rerouted.once⟩
      rw [mem_notices routed (routed.afterRemove returned) changed rerouted,goes]

/-! ## Calls on the contexts -/

theorem of_created {uuid clientAddress edgeRouter : String} {request : AppContext rest}
    (new : uuid ∉ s.theApplicationsByContextId) : of (created s uuid clientAddress request edgeRouter) =
      (of s).put uuid (some (sessionOf clientAddress request)) := by
  ext1
  · rfl
  · funext contextId
    change Option.map _ _ = Function.update (of s).sessions uuid _ contextId
    rw [created_lookup,Function.update_apply]
    split
    · rename_i here
      rw [if_pos here.1]
      rfl
    · rename_i other
      rw [if_neg fun same => other ⟨same,new⟩]
      rfl
  · rfl

theorem of_erased (s : StaticUeAppLcmProxy rest) (contextId : String) (desc : Desc) :
    of (erased s contextId desc) = (of s).put contextId none := by
  ext1
  · rfl
  · funext other
    change Option.map _ _ = Function.update (of s).sessions contextId none other
    rw [erased_lookup,Function.update_apply]
    split <;> rfl
  · rfl

/-- Where the indexes agree, the one session with the ID is that of the index. -/
theorem of_recalled (bijective : Bijective s) {contextId : String} {desc : Desc} {request : AppContext rest}
    (indexed : s.theApplicationsByUeAppId.lookup request.associateUeAppId = some contextId)
    (live : s.theApplicationsByContextId.lookup contextId = some desc) :
    of (recalled s contextId desc request.callbackReference) = (of s).redirect request := by
  obtain ⟨_,there,named⟩ := bijective.live _ contextId indexed
  cases live.symm.trans there
  ext1
  · rfl
  · funext other
    change Option.map _ _ = Option.map _ (Option.map _ _)
    rw [recalled_lookup,Option.map_map]
    by_cases same : other = contextId
    · rw [if_pos same,same,live]
      simp [Desc.session,named]
    · rw [if_neg same]
      cases found : s.theApplicationsByContextId.lookup other with
      | none => rfl
      | some before =>
        have apart : before.theAssociateUeAppId ≠ request.associateUeAppId := by
          intro alike
          have entry := bijective.points other before found
          rw [alike,indexed] at entry
          exact same (Option.some.inj entry).symm
        simp [Desc.session,apart]
  · rfl

/-- Nobody has the ID. -/
theorem redirect_absent {request : AppContext rest} {v : Service} (absent : ∀ contextId session,
      v.sessions contextId = some session → session.theAssociateUeAppId ≠ request.associateUeAppId) :
    v.redirect request = v := by
  ext1
  · rfl
  · funext contextId
    change Option.map _ _ = _
    cases found : v.sessions contextId with
    | none => rfl
    | some session => simp [absent contextId session found]
  · rfl

/-- The UE application IDs of the sessions are those of the index. -/
theorem indexed_iff (bijective : Bijective s) {ueAppId : String} : ueAppId ∈ s.theApplicationsByUeAppId ↔
    ∃ contextId session, (of s).sessions contextId = some session ∧ session.theAssociateUeAppId = ueAppId := by
  rw [KeyedMap.mem_iff_lookup]
  constructor
  · rintro ⟨contextId,entry⟩
    obtain ⟨desc,live,same⟩ := bijective.live ueAppId contextId entry
    exact ⟨contextId,desc.session,of_sessions.mpr ⟨desc,live,rfl⟩,same⟩
  · rintro ⟨contextId,session,entered,rfl⟩
    obtain ⟨desc,live,rfl⟩ := of_sessions.mp entered
    exact ⟨contextId,bijective.points contextId desc live⟩

theorem sound_fresh {call : Call rest} (sound : (of s).Sound call) : Fresh s call := by
  intro uuid draws
  cases call with
  | createContext other clientAddress request =>
    cases draws
    exact ⟨sound.1,of_sessions_none.mp sound.2.1⟩
  | _ => contradiction

theorem sound_newUeApp {call : Call rest} (sound : (of s).Sound call) : NewUeApp s call := by
  rintro uuid clientAddress request edgeRouter rfl grants contextId desc live
  refine sound.2.2 ?_ grants.proper contextId desc.session (of_sessions.mpr ⟨desc,live,rfl⟩)
  rw [of_admits,if_pos grants.registered,grants.routed]
  simp

theorem admits_none {clientAddress : String} {request : AppContext rest} :
    (of s).admits clientAddress request = none ↔ Refuses s clientAddress request := by
  rw [of_admits,Refuses]
  cases UeAppLcmProxy.appExists s.theApplications request.appInfo <;> simp

theorem admits_some {clientAddress edgeRouter : String} {request : AppContext rest} :
    (of s).admits clientAddress request = some edgeRouter ↔
      UeAppLcmProxy.appExists s.theApplications request.appInfo = true ∧
        route s.theTable clientAddress request.appInfo.appName = some edgeRouter := by
  rw [of_admits]
  cases UeAppLcmProxy.appExists s.theApplications request.appInfo <;> simp

/-- The three ways a creation goes, if nothing stops it. -/
theorem createContext_answered (build : Build) (routed : Routed s) (bijective : Bijective s) {uuid clientAddress : String}
    {request : AppContext rest} (sound : (of s).Sound (.createContext uuid clientAddress request)) :
    (Refuses s clientAddress request ∧
      createContext build uuid clientAddress request s = .returned request s) ∨
    (∃ edgeRouter response, (of s).admits clientAddress request = some edgeRouter ∧ request.Proper ∧
      request.Answers response uuid edgeRouter ∧ createContext build uuid clientAddress request s =
        .returned response (created s uuid clientAddress request edgeRouter)) ∨
    ((∃ edgeRouter, (of s).admits clientAddress request = some edgeRouter) ∧ ¬request.Proper ∧
      ∀ response t, createContext build uuid clientAddress request s ≠ .returned response t) := by
  by_cases refuses : Refuses s clientAddress request
  · exact .inl ⟨refuses,createContext_refused refuses⟩
  obtain ⟨edgeRouter,admitted⟩ := Option.ne_none_iff_exists'.mp (mt admits_none.mp refuses)
  obtain ⟨registered,found⟩ := admits_some.mp admitted
  by_cases proper : request.Proper
  · have new : uuid ∉ s.theApplicationsByContextId := of_sessions_none.mp sound.2.1
    have absent : request.associateUeAppId ∉ s.theApplicationsByUeAppId := by
      rw [indexed_iff bijective]
      rintro ⟨contextId,session,entered,same⟩
      exact sound.2.2 (by simp [admitted]) proper contextId session entered same
    obtain ⟨response,answers,ran⟩ := createContext_granted build ⟨registered,found,proper⟩ sound.1
      (route_filled routed.filled found) fun _ => ⟨new,absent⟩
    exact .inr (.inl ⟨edgeRouter,response,admitted,proper,answers,ran⟩)
  · refine .inr (.inr ⟨⟨edgeRouter,admitted⟩,proper,fun response t returned => ?_⟩)
    rcases createContext_returned returned with ⟨other,_⟩ | ⟨_,grants,_⟩
    · exact refuses other
    · exact proper grants.proper

theorem createContext_follows (routed : Routed s) (bijective : Bijective s) {uuid clientAddress : String}
    {request : AppContext rest} (sound : (of s).Sound (.createContext uuid clientAddress request))
    {answer : Except Exception (Result rest)}
    (ran : StaticUeAppLcmProxy.perform build s (.createContext uuid clientAddress request) = some (t,answer)) :
    Follows s (.createContext uuid clientAddress request) t answer := by
  obtain ⟨inner,answered,rfl⟩ := Program.answer?_map.mp ran
  rcases createContext_answered build routed bijective sound with ⟨refuses,returned⟩ |
    ⟨edgeRouter,response,admitted,proper,answers,returned⟩ | ⟨⟨edgeRouter,admitted⟩,improper,throws⟩
  · rw [returned] at answered
    cases answered
    constructor
    · rw [Service.perform,admits_none.mpr refuses]
    · rw [Service.perform,admits_none.mpr refuses]
      exact ⟨uuid,clientAddress,request,rfl,rfl⟩
  · rw [returned] at answered
    cases answered
    constructor
    · simp only [Service.perform,admitted,if_pos proper]
      exact of_created (of_sessions_none.mp sound.2.1)
    · simp only [Service.perform,admitted,if_pos proper]
      exact ⟨uuid,clientAddress,request,response,rfl,rfl,answers⟩
  · rcases Outcome.answer?_eq_some.mp answered with ⟨value,returned,_⟩ | ⟨error,threw,rfl⟩
    · exact absurd returned (throws value t)
    · have same := createContext_atomic uuid clientAddress request s error t threw
      subst same
      constructor
      · simp only [Service.perform,admitted,if_neg improper]
      · simp only [Service.perform,admitted,if_neg improper]
        exact ⟨error,rfl⟩

theorem updateContext_follows (bijective : Bijective s) {request : AppContext rest}
    {answer : Except Exception (Result rest)}
    (ran : StaticUeAppLcmProxy.perform build s (.updateContext request) = some (t,answer)) :
    Follows s (.updateContext request) t answer := by
  obtain ⟨inner,answered,rfl⟩ := Program.answer?_map.mp ran
  obtain ⟨flag,returned,rfl⟩ := (updateContext_silent request).answer? answered
  have known := @indexed_iff rest s bijective request.associateUeAppId
  rcases updateContext_returned.mp returned with ⟨absent,rfl,rfl⟩ | ⟨contextId,desc,indexed,live,rfl,rfl⟩
  · have nobody := mt known.mpr (AList.lookup_eq_none.mp absent)
    refine ⟨(redirect_absent fun contextId session entered same =>
      nobody ⟨contextId,session,entered,same⟩).symm,false,rfl,?_⟩
    simpa using nobody
  · exact ⟨of_recalled bijective indexed live,true,rfl,
      iff_of_true rfl (known.mp (KeyedMap.lookup_some_mem indexed))⟩

/-- A deletion and a purge do the same. -/
theorem put_none_follows {contextId : String} {flag : Bool}
    (outcome : (s.theApplicationsByContextId.lookup contextId = none ∧ flag = false ∧ t = s) ∨
      ∃ desc, s.theApplicationsByContextId.lookup contextId = some desc ∧ flag = true ∧ t = erased s contextId desc) :
    of t = (of s).put contextId none ∧ (flag = true ↔ (of s).sessions contextId ≠ none) := by
  rcases outcome with ⟨absent,rfl,rfl⟩ | ⟨desc,live,rfl,rfl⟩
  · have none := of_sessions_none.mpr (AList.lookup_eq_none.mp absent)
    refine ⟨?_,by simp [none]⟩
    rw [put,Directory.put_same none]
  · exact ⟨of_erased s contextId desc,by simp [of,live]⟩

theorem deleteContext_follows {contextId : String} {answer : Except Exception (Result rest)}
    (ran : StaticUeAppLcmProxy.perform build s (.deleteContext contextId) = some (t,answer)) :
    Follows s (.deleteContext contextId) t answer := by
  obtain ⟨inner,answered,rfl⟩ := Program.answer?_map.mp ran
  obtain ⟨flag,returned,rfl⟩ := (deleteContext_silent contextId).answer? answered
  have outcome := deleteContext_returned.mp returned
  obtain ⟨goes,flagged⟩ := put_none_follows
    (outcome.imp_right fun ⟨desc,live,_,rest⟩ => ⟨desc,live,rest⟩)
  exact ⟨goes,flag,rfl,flagged⟩

theorem purge_follows {contextId : String} {answer : Except Exception (Result rest)}
    (ran : StaticUeAppLcmProxy.perform build s (.purge contextId) = some (t,answer)) :
    Follows s (.purge contextId) t answer := by
  obtain ⟨inner,answered,rfl⟩ := Program.answer?_map.mp ran
  obtain ⟨flag,returned,rfl⟩ := (purge_silent contextId).answer? answered
  obtain ⟨goes,flagged⟩ := put_none_follows (purge_returned returned)
  exact ⟨goes,flag,rfl,flagged⟩

/-! ## The registry -/

theorem addApp_follows {info : AppInfo rest} {answer : Except Exception (Result rest)}
    (ran : StaticUeAppLcmProxy.perform build s (.addApp info) = some (t,answer)) :
    Follows s (.addApp info) t answer := by
  cases ran
  constructor
  · ext1
    · rfl
    · rfl
    · ext key
      change key ∈ (UeAppLcmProxy.addApp info s.theApplications).1 ↔
        key = UeAppLcmProxy.mangle info ∨ key ∈ s.theApplications
      rw [Std.TreeMap.mem_iff_isSome_getElem?,UeAppLcmProxy.addApp_find,Std.TreeMap.mem_iff_isSome_getElem?]
      split
      · rename_i same
        simp [same]
      · rename_i other
        simp [other]
  · refine ⟨_,rfl,?_⟩
    rw [UeAppLcmProxy.addApp_flag,of_registered]
    simp

theorem delApp_follows {info : AppInfo rest} {answer : Except Exception (Result rest)}
    (ran : StaticUeAppLcmProxy.perform build s (.delApp info) = some (t,answer)) :
    Follows s (.delApp info) t answer := by
  cases ran
  constructor
  · ext1
    · rfl
    · rfl
    · ext key
      change key ∈ (UeAppLcmProxy.delApp info s.theApplications).1 ↔
        key ∈ s.theApplications ∧ key ≠ UeAppLcmProxy.mangle info
      rw [Std.TreeMap.mem_iff_isSome_getElem?,UeAppLcmProxy.delApp_find,Std.TreeMap.mem_iff_isSome_getElem?]
      split
      · rename_i same
        simp [same]
      · rename_i other
        simp [other]
  · exact ⟨_,rfl,(of_registered info).symm⟩

/-! ## Runs -/

def Ordered (s : StaticUeAppLcmProxy rest) : Prop := Routed s ∧ Bijective s

theorem ordered_empty : Ordered (StaticUeAppLcmProxy.empty : StaticUeAppLcmProxy rest) :=
  ⟨routed_empty,by simp [StaticUeAppLcmProxy.empty],indexed_empty⟩

theorem perform_follows (ordered : Ordered s) {call : Call rest} (sound : (of s).Sound call)
    {answer : Except Exception (Result rest)}
    (ran : StaticUeAppLcmProxy.perform build s call = some (t,answer)) : Follows s call t answer := by
  cases call with
  | associateAddress address appName edgeRouter => exact associateAddress_follows ordered.1 ran
  | removeAddress address appName => exact removeAddress_follows ordered.1 ran
  | createContext uuid clientAddress request => exact createContext_follows ordered.1 ordered.2 sound ran
  | updateContext request => exact updateContext_follows ordered.2 ran
  | deleteContext contextId => exact deleteContext_follows ran
  | purge contextId => exact purge_follows ran
  | addApp info => exact addApp_follows ran
  | delApp info => exact delApp_follows ran

theorem step_of_perform {call : Call rest} {answer : Except Exception (Result rest)}
    (ran : StaticUeAppLcmProxy.perform build s call = some (t,answer)) : step build s call = some t := by
  rw [← perform_step,ran]
  rfl

/-- The proxy refines the service. -/
theorem proxy_refines (build : Build) : Refinement.Refines (StaticUeAppLcmProxy.perform build) Service.perform of
    (@Ordered rest) Sound Agree := by
  refine ⟨?_,?_,?_⟩
  · intro s call t answer ordered sound ran
    have taken := step_of_perform ran
    exact ⟨routed_step ordered.1 taken,
      bijective_step ordered.2 ordered.1 (sound_fresh sound) (sound_newUeApp sound) taken⟩
  · exact fun s call t answer ordered sound ran => (perform_follows ordered sound ran).goes
  · exact fun s call t answer ordered sound ran => (perform_follows ordered sound ran).agrees

/-! ## Where the proxy is defined -/

theorem associateAddress_defined_iff (routed : Routed s) (address appName edgeRouter : String) :
    (∀ reason, associateSection build address appName edgeRouter s ≠ .halted reason) ↔
      (of s).Accepts (.associateAddress address appName edgeRouter : Call rest) := by
  by_cases unable : appName = "" ∨ edgeRouter = ""
  · obtain ⟨error,throws⟩ := @associateSection_throws rest build address _ _ unable
    rw [throws]
    refine iff_of_true (by simp) fun named filled => ?_
    exact absurd unable (not_or.mpr ⟨named,filled⟩)
  obtain ⟨named,filled⟩ := not_or.mp unable
  rw [(associateSection_silent address named filled).returns_iff,routed.associateSection_defined named filled]
  constructor
  · intro finds _ _
    refine or_iff_not_imp_left.mpr fun absent contextId session entered same => ?_
    obtain ⟨desc,live,rfl⟩ := of_sessions.mp entered
    obtain ⟨target,found⟩ := finds absent contextId desc live same
    rw [find_eq (routed.named contextId desc live)] at found
    rw [assign,Directory.assign,of,← KeyedMap.view_insert,follow_session,Except.ok.inj found]
    simp
  · intro accepts absent contextId desc live same
    have meets := ((accepts named filled).resolve_left absent) contextId desc.session
      (of_sessions.mpr ⟨desc,live,rfl⟩) same
    rw [assign,Directory.assign,of,← KeyedMap.view_insert,follow_session] at meets
    obtain ⟨target,found⟩ := Option.ne_none_iff_exists'.mp meets
    exact ⟨target,by rw [find_eq (routed.named contextId desc live),found]⟩

theorem createContext_defined (routed : Routed s) (bijective : Bijective s) {uuid clientAddress : String}
    {request : AppContext rest} (sound : (of s).Sound (.createContext uuid clientAddress request))
    (reason : Halt) : createContext .release uuid clientAddress request s ≠ .halted reason := by
  rcases createContext_answered .release routed bijective sound with ⟨_,returned⟩ |
    ⟨_,_,_,_,_,returned⟩ | ⟨⟨edgeRouter,admitted⟩,improper,_⟩
  · simp [returned]
  · simp [returned]
  · -- the answer is refused with an exception
    obtain ⟨registered,found⟩ := admits_some.mp admitted
    unfold createContext
    rw [Program.get_bind_apply]
    simp only [registered,Bool.not_true,Bool.false_eq_true,if_false,find_eq request.appInfo.appName_ne,found,
      Program.orHalt_ok,Program.pure_bind_apply]
    rw [Program.bind_apply]
    cases made : (request.makeResponse .release uuid edgeRouter :
        Program (StaticUeAppLcmProxy rest) Exception (AppContext rest)) s with
    | returned response t => exact absurd (AppContext.makeResponse_returned made).1 improper
    | threw error t => simp
    | halted other => exact absurd made (AppContext.makeResponse_release request uuid edgeRouter s other)

/-- Without assertions, the proxy is defined exactly where the service accepts the call. -/
theorem perform_defined_iff (ordered : Ordered s) {call : Call rest} (sound : (of s).Sound call) :
    (∃ t answer, StaticUeAppLcmProxy.perform .release s call = some (t,answer)) ↔ (of s).Accepts call := by
  obtain ⟨routed,bijective⟩ := ordered
  rw [StaticUeAppLcmProxy.perform,Outcome.answer?_defined]
  cases call with
  | associateAddress address appName edgeRouter =>
    rw [exec,Program.map_halted]
    exact associateAddress_defined_iff routed address appName edgeRouter
  | removeAddress address appName =>
    rw [exec,Program.map_halted]
    refine iff_of_true ?_ trivial
    by_cases unnamed : appName = ""
    · simp [removeSection,unnamed]
    · exact (removeSection_silent address unnamed).returns_iff.mpr (routed.removeSection_defined .release unnamed)
  | createContext uuid clientAddress request =>
    rw [exec,Program.map_halted]
    exact iff_of_true (createContext_defined routed bijective sound) trivial
  | updateContext request =>
    rw [exec,Program.map_halted,(updateContext_silent request).returns_iff]
    refine iff_of_true ?_ trivial
    cases indexed : s.theApplicationsByUeAppId.lookup request.associateUeAppId with
    | none => exact ⟨_,_,updateContext_returned.mpr (.inl ⟨indexed,rfl,rfl⟩)⟩
    | some contextId =>
      obtain ⟨desc,live,_⟩ := bijective.live _ contextId indexed
      exact ⟨_,_,updateContext_returned.mpr (.inr ⟨contextId,desc,indexed,live,rfl,rfl⟩)⟩
  | deleteContext contextId =>
    rw [exec,Program.map_halted]
    exact iff_of_true (bijective.agree.deletes contextId) trivial
  | purge contextId =>
    rw [exec,Program.map_halted,(purge_silent contextId).returns_iff]
    obtain ⟨flag,t,ran,_⟩ := @purge_returns rest .release s (fun debug => by contradiction) contextId
    exact iff_of_true ⟨flag,t,ran⟩ trivial
  | addApp info => exact iff_of_true (by rintro reason ⟨⟩) trivial
  | delApp info => exact iff_of_true (by rintro reason ⟨⟩) trivial

/-- A run of the proxy goes where the service goes, and is answered what the service says;
without assertions it is defined exactly as long as no association leaves a session of its
application without a route. -/
theorem proxy_refines_service (build : Build) (calls : List (Call rest))
    (sound : Run.Along (Refinement.advance Service.perform) Sound empty calls) :
    (∀ (s : StaticUeAppLcmProxy rest) log,
      Run.transcript (StaticUeAppLcmProxy.perform build) StaticUeAppLcmProxy.empty calls = some (s,log) →
        of s = (Refinement.trace Service.perform empty calls).1 ∧
        List.Forall₂ (fun entry entry' => entry.1 = entry'.1 ∧ Agree entry.1 entry.2 entry'.2) log
          (Refinement.trace Service.perform empty calls).2) ∧
    ((∃ s : StaticUeAppLcmProxy rest, ∃ log, Run.transcript (StaticUeAppLcmProxy.perform .release)
        StaticUeAppLcmProxy.empty calls = some (s,log)) ↔
      Run.Along (Refinement.advance Service.perform) Accepts empty calls) := by
  rw [← @of_empty rest] at sound ⊢
  constructor
  · intro s log ran
    exact ((proxy_refines build).run ordered_empty sound ran).2
  · exact (proxy_refines .release).defined_iff (fun s call ordered sound => perform_defined_iff ordered sound)
      ordered_empty sound

theorem sample_sound : Run.Along (Refinement.advance Service.perform) Sound empty sampleCalls := by
  refine Refinement.along_cons.mpr ⟨trivial,Refinement.along_cons.mpr ⟨trivial,Refinement.along_cons.mpr
    ⟨⟨by decide,rfl,?_⟩,trivial⟩⟩⟩
  intro _ _ contextId session entered
  contradiction

theorem sample_refines_service :
    (∀ (s : StaticUeAppLcmProxy Rest.plain) log,
      Run.transcript (StaticUeAppLcmProxy.perform .debug) StaticUeAppLcmProxy.empty sampleCalls = some (s,log) →
        of s = (Refinement.trace Service.perform empty sampleCalls).1 ∧
        List.Forall₂ (fun entry entry' => entry.1 = entry'.1 ∧ Agree entry.1 entry.2 entry'.2) log
          (Refinement.trace Service.perform empty sampleCalls).2) ∧
    ((∃ s : StaticUeAppLcmProxy Rest.plain, ∃ log, Run.transcript (StaticUeAppLcmProxy.perform .release)
        StaticUeAppLcmProxy.empty sampleCalls = some (s,log)) ↔
      Run.Along (Refinement.advance Service.perform) Accepts empty sampleCalls) :=
  proxy_refines_service .debug sampleCalls sample_sound

end EtsiMec.Service
