import EtsiMec.StaticUeAppLcmProxy
import EtsiMec.Library.Fallback

/-! What each critical section of the proxy can do, said once: when it returns, with
which answer and in which state. No section changes anything before it throws. -/
namespace EtsiMec.StaticUeAppLcmProxy

open Effect

variable {rest : Rest} {build : Build} {s t : StaticUeAppLcmProxy rest}

theorem find_eq {theTable : Table} {address appName : String} (named : appName ≠ "") :
    find build theTable address appName = .ok (route theTable address appName) := by
  simp [find,named]

theorem route_eq (theTable : Table) (address appName : String) :
    route theTable address appName =
      Fallback.resolve (KeyedMap.view theTable) ⟨address,appName⟩ ⟨"",appName⟩ := by
  unfold route Fallback.resolve KeyedMap.view
  cases theTable.lookup ⟨address,appName⟩ <;> rfl

/-! ## Associations -/

theorem associateSection_returned {address appName edgeRouter : String} {out : NotificationList} :
    associateSection build address appName edgeRouter s = .returned out t ↔
      appName ≠ "" ∧ edgeRouter ≠ "" ∧
      ((s.theTable.lookup ⟨address,appName⟩ = some edgeRouter ∧ out = [] ∧ t = s) ∨
        (s.theTable.lookup ⟨address,appName⟩ ≠ some edgeRouter ∧ ∃ contexts,
          KeyedMap.sweep (associateVisit build (s.theTable.insert ⟨address,appName⟩ edgeRouter)
            appName edgeRouter) s.theApplicationsByContextId = .ok (contexts,out) ∧
          t = { s with
            theTable := s.theTable.insert ⟨address,appName⟩ edgeRouter
            theApplicationsByContextId := contexts })) := by
  unfold associateSection
  by_cases unnamed : appName = ""
  · simp [unnamed]
  by_cases blank : edgeRouter = ""
  · simp [unnamed,blank]
  simp only [unnamed,blank,if_false,Program.get_bind_apply,ne_eq,not_false_eq_true,true_and]
  by_cases same : s.theTable.lookup ⟨address,appName⟩ = some edgeRouter
  · have present := KeyedMap.lookup_some_mem same
    simp [KeyedMap.emplace_mem _ present,same,eq_comm]
  · have fast : (!(KeyedMap.emplace (AddressAppKey.mk address appName) edgeRouter s.theTable).2 &&
        (KeyedMap.emplace (AddressAppKey.mk address appName) edgeRouter s.theTable).1.lookup
          ⟨address,appName⟩ == some edgeRouter) = false := by
      by_cases present : AddressAppKey.mk address appName ∈ s.theTable
      · simp [KeyedMap.emplace_mem _ present,same]
      · simp [KeyedMap.emplace_fresh _ present]
    simp only [fast,Bool.false_eq_true,if_false,KeyedMap.insert_emplace]
    cases swept : KeyedMap.sweep (associateVisit build (s.theTable.insert ⟨address,appName⟩ edgeRouter)
      appName edgeRouter) s.theApplicationsByContextId with
    | error reason => simp [same]
    | ok result =>
      obtain ⟨contexts,notifications⟩ := result
      simp [same,and_comm,@eq_comm _ t]

theorem removeSection_returned {address appName : String} {out : NotificationList} :
    removeSection build address appName s = .returned out t ↔
      appName ≠ "" ∧ ∃ contexts,
        KeyedMap.sweep (removeVisit build (s.theTable.erase ⟨address,appName⟩) appName)
          s.theApplicationsByContextId = .ok (contexts,out) ∧
        t = { s with
          theTable := s.theTable.erase ⟨address,appName⟩
          theApplicationsByContextId := contexts } := by
  unfold removeSection
  by_cases unnamed : appName = ""
  · simp [unnamed]
  simp only [unnamed,if_false,Program.get_bind_apply,ne_eq,not_false_eq_true,true_and]
  cases swept : KeyedMap.sweep (removeVisit build (s.theTable.erase ⟨address,appName⟩) appName)
    s.theApplicationsByContextId with
  | error reason => simp
  | ok result =>
    obtain ⟨contexts,notifications⟩ := result
    simp [and_comm,@eq_comm _ t]

/-! ## Contexts -/

/-- The proxy grants a creation: the application is registered, the client has a route to
it and the request can be answered. -/
structure Grants (s : StaticUeAppLcmProxy rest) (clientAddress : String) (request : AppContext rest)
    (edgeRouter : String) : Prop where
  registered : UeAppLcmProxy.appExists s.theApplications request.appInfo = true
  routed : route s.theTable clientAddress request.appInfo.appName = some edgeRouter
  proper : request.Proper

def Refuses (s : StaticUeAppLcmProxy rest) (clientAddress : String) (request : AppContext rest) : Prop :=
  UeAppLcmProxy.appExists s.theApplications request.appInfo = false ∨
    route s.theTable clientAddress request.appInfo.appName = none

def created (s : StaticUeAppLcmProxy rest) (contextId clientAddress : String) (request : AppContext rest)
    (edgeRouter : String) : StaticUeAppLcmProxy rest :=
  { s with
    theApplicationsByContextId := (KeyedMap.emplace contextId
      ⟨request.associateUeAppId,request.callbackReference,clientAddress,request.appInfo.appName,edgeRouter⟩
      s.theApplicationsByContextId).1
    theApplicationsByUeAppId :=
      (KeyedMap.emplace request.associateUeAppId contextId s.theApplicationsByUeAppId).1 }

theorem createContext_refused {uuid clientAddress : String} {request : AppContext rest}
    (refuses : Refuses s clientAddress request) :
    createContext build uuid clientAddress request s = .returned request s := by
  unfold createContext
  rcases refuses with unknown | unrouted
  · simp [unknown]
  · rw [Program.get_bind_apply]
    split
    · rfl
    · simp [find_eq request.appInfo.appName_ne,unrouted]

/-- A creation that is granted comes to the assertions on its two keys. -/
theorem createContext_asserts (build : Build) {uuid clientAddress edgeRouter : String} {request : AppContext rest}
    (grants : Grants s clientAddress request edgeRouter) (drawn : uuid ≠ "") (filled : edgeRouter ≠ "") :
    ∃ response, request.Answers response uuid edgeRouter ∧
      createContext build uuid clientAddress request s =
        (Program.assert build.asserts (decide (uuid ∉ s.theApplicationsByContextId)) >>= fun _ =>
          Program.assert build.asserts (decide (request.associateUeAppId ∉ s.theApplicationsByUeAppId)) >>= fun _ =>
          Program.put (created s uuid clientAddress request edgeRouter) >>= fun _ => pure response) s := by
  obtain ⟨response,answers,computes⟩ := AppContext.makeResponse_proper grants.proper drawn filled
  refine ⟨response,answers,?_⟩
  unfold createContext
  rw [Program.get_bind_apply]
  simp only [grants.registered,Bool.not_true,Bool.false_eq_true,if_false,
    find_eq request.appInfo.appName_ne,grants.routed,Program.orHalt_ok,Program.pure_bind_apply,
    Program.bind_returned _ (computes _ build s),answers.contextId,KeyedMap.emplace_flag]
  rfl

/-- A granted creation is answered, unless an assertion finds a key taken. -/
theorem createContext_granted (build : Build) {uuid clientAddress edgeRouter : String} {request : AppContext rest}
    (grants : Grants s clientAddress request edgeRouter) (drawn : uuid ≠ "") (filled : edgeRouter ≠ "")
    (clear : build = .debug → uuid ∉ s.theApplicationsByContextId ∧
      request.associateUeAppId ∉ s.theApplicationsByUeAppId) :
    ∃ response, request.Answers response uuid edgeRouter ∧
      createContext build uuid clientAddress request s =
        .returned response (created s uuid clientAddress request edgeRouter) := by
  obtain ⟨response,answers,asserts⟩ := createContext_asserts build grants drawn filled
  refine ⟨response,answers,asserts.trans ?_⟩
  cases build with
  | release => rfl
  | debug =>
    obtain ⟨newId,newUeApp⟩ := clear rfl
    simp [newId,newUeApp]

/-- A creation that is granted stores its context, if it comes to an end. -/
theorem created_of_grants {uuid clientAddress edgeRouter : String} {request : AppContext rest}
    (grants : Grants s clientAddress request edgeRouter) (drawn : uuid ≠ "") (filled : edgeRouter ≠ "")
    (taken : step build s (.createContext uuid clientAddress request) = some t) :
    t = created s uuid clientAddress request edgeRouter := by
  obtain ⟨response,_,asserts⟩ := createContext_asserts build grants drawn filled
  rw [step,exec,Program.state?_map,asserts,Program.assert,Program.assert] at taken
  split at taken
  · contradiction
  split at taken
  · contradiction
  · exact (Option.some.inj taken).symm

theorem createContext_returned {uuid clientAddress : String} {request response : AppContext rest}
    (returned : createContext build uuid clientAddress request s = .returned response t) :
    (Refuses s clientAddress request ∧ response = request ∧ t = s) ∨
    ∃ edgeRouter, Grants s clientAddress request edgeRouter ∧ uuid ≠ "" ∧
      (build = .debug → uuid ∉ s.theApplicationsByContextId ∧
        request.associateUeAppId ∉ s.theApplicationsByUeAppId) ∧
      request.Answers response uuid edgeRouter ∧ t = created s uuid clientAddress request edgeRouter := by
  by_cases refuses : Refuses s clientAddress request
  · rw [createContext_refused refuses] at returned
    cases returned
    exact .inl ⟨refuses,rfl,rfl⟩
  right
  simp only [Refuses,not_or,Bool.not_eq_false] at refuses
  obtain ⟨edgeRouter,routed⟩ := Option.ne_none_iff_exists'.mp refuses.2
  unfold createContext at returned
  rw [Program.get_bind_apply] at returned
  simp only [refuses.1,Bool.not_true,Bool.false_eq_true,if_false,find_eq request.appInfo.appName_ne,
    routed,Program.orHalt_ok,Program.pure_bind_apply] at returned
  obtain ⟨inner,middle,made,rest⟩ := Program.bind_eq_returned.mp returned
  obtain ⟨proper,drawn,_,rfl,answers⟩ := AppContext.makeResponse_returned made
  refine ⟨edgeRouter,⟨refuses.1,routed,proper⟩,drawn,?_⟩
  simp only [answers.contextId,KeyedMap.emplace_flag] at rest
  obtain ⟨_,_,first,rest⟩ := Program.bind_eq_returned.mp rest
  obtain ⟨newId,rfl⟩ := Program.assert_eq_returned.mp first
  obtain ⟨_,_,second,rest⟩ := Program.bind_eq_returned.mp rest
  obtain ⟨newUeApp,rfl⟩ := Program.assert_eq_returned.mp second
  cases rest
  refine ⟨?_,answers,rfl⟩
  rintro rfl
  exact ⟨of_decide_eq_true (newId rfl),of_decide_eq_true (newUeApp rfl)⟩

def recalled (s : StaticUeAppLcmProxy rest) (contextId : String) (desc : Desc)
    (callbackReference : String) : StaticUeAppLcmProxy rest :=
  { s with
    theApplicationsByContextId := s.theApplicationsByContextId.insert contextId
      { desc with theCallbackReference := callbackReference } }

theorem updateContext_returned {request : AppContext rest} {flag : Bool} :
    updateContext request s = .returned flag t ↔
      (s.theApplicationsByUeAppId.lookup request.associateUeAppId = none ∧ flag = false ∧ t = s) ∨
      ∃ contextId desc, s.theApplicationsByUeAppId.lookup request.associateUeAppId = some contextId ∧
        s.theApplicationsByContextId.lookup contextId = some desc ∧ flag = true ∧
        t = recalled s contextId desc request.callbackReference := by
  unfold updateContext
  rw [Program.get_bind_apply]
  cases indexed : s.theApplicationsByUeAppId.lookup request.associateUeAppId with
  | none => simp [eq_comm]
  | some contextId =>
    cases live : s.theApplicationsByContextId.lookup contextId with
    | none => simp [live]
    | some desc =>
      simp only [live]
      constructor
      · intro returned
        cases returned
        exact .inr ⟨contextId,desc,rfl,live,rfl,rfl⟩
      · rintro (⟨absent,_⟩ | ⟨_,_,here,there,rfl,rfl⟩)
        · contradiction
        · cases here
          cases live.symm.trans there
          rfl

/-- What `deleteContext` and `purge` do to a live context. -/
def erased (s : StaticUeAppLcmProxy rest) (contextId : String) (desc : Desc) : StaticUeAppLcmProxy rest :=
  { s with
    theApplicationsByContextId := s.theApplicationsByContextId.erase contextId
    theApplicationsByUeAppId := s.theApplicationsByUeAppId.erase desc.theAssociateUeAppId }

theorem deleteContext_returned {contextId : String} {flag : Bool} :
    deleteContext build contextId s = .returned flag t ↔
      (s.theApplicationsByContextId.lookup contextId = none ∧ flag = false ∧ t = s) ∨
      ∃ desc, s.theApplicationsByContextId.lookup contextId = some desc ∧
        desc.theAssociateUeAppId ∈ s.theApplicationsByUeAppId ∧ flag = true ∧
        t = erased s contextId desc := by
  unfold deleteContext
  rw [Program.get_bind_apply]
  cases live : s.theApplicationsByContextId.lookup contextId with
  | none => simp [eq_comm]
  | some desc =>
    by_cases indexed : desc.theAssociateUeAppId ∈ s.theApplicationsByUeAppId
    · simp [indexed,erased,eq_comm]
    · simp [indexed]

theorem purge_returned {contextId : String} {flag : Bool}
    (returned : purge build contextId s = .returned flag t) :
    (s.theApplicationsByContextId.lookup contextId = none ∧ flag = false ∧ t = s) ∨
      ∃ desc, s.theApplicationsByContextId.lookup contextId = some desc ∧ flag = true ∧
        t = erased s contextId desc := by
  unfold purge at returned
  rw [Program.get_bind_apply] at returned
  cases live : s.theApplicationsByContextId.lookup contextId with
  | none =>
    simp only [live] at returned
    cases returned
    exact .inl ⟨rfl,rfl,rfl⟩
  | some desc =>
    simp only [live] at returned
    obtain ⟨_,_,first,rest⟩ := Program.bind_eq_returned.mp returned
    obtain ⟨_,rfl⟩ := Program.assert_eq_returned.mp first
    rw [Program.put_bind_apply] at rest
    obtain ⟨_,_,second,rest⟩ := Program.bind_eq_returned.mp rest
    obtain ⟨_,rfl⟩ := Program.assert_eq_returned.mp second
    cases rest
    exact .inr ⟨desc,rfl,rfl,rfl⟩

theorem onRegistry_returned {update : Registry rest → Registry rest × Bool} {flag : Bool}
    (returned : onRegistry update s = .returned flag t) :
    flag = (update s.theApplications).2 ∧ t = { s with theApplications := (update s.theApplications).1 } := by
  cases returned
  exact ⟨rfl,rfl⟩

/-! ## The states that are left -/

theorem created_lookup (contextId clientAddress : String) (request : AppContext rest) (edgeRouter other : String) :
    (created s contextId clientAddress request edgeRouter).theApplicationsByContextId.lookup other =
      if other = contextId ∧ contextId ∉ s.theApplicationsByContextId
      then some ⟨request.associateUeAppId,request.callbackReference,clientAddress,
        request.appInfo.appName,edgeRouter⟩
      else s.theApplicationsByContextId.lookup other := KeyedMap.lookup_emplace _ _ _ _

theorem created_index (contextId clientAddress : String) (request : AppContext rest) (edgeRouter other : String) :
    (created s contextId clientAddress request edgeRouter).theApplicationsByUeAppId.lookup other =
      if other = request.associateUeAppId ∧ request.associateUeAppId ∉ s.theApplicationsByUeAppId
      then some contextId else s.theApplicationsByUeAppId.lookup other := KeyedMap.lookup_emplace _ _ _ _

theorem recalled_lookup (contextId : String) (desc : Desc) (callbackReference other : String) :
    (recalled s contextId desc callbackReference).theApplicationsByContextId.lookup other =
      if other = contextId then some { desc with theCallbackReference := callbackReference }
      else s.theApplicationsByContextId.lookup other := KeyedMap.lookup_insert_eq _ _ _ _

theorem erased_lookup (contextId : String) (desc : Desc) (other : String) :
    (erased s contextId desc).theApplicationsByContextId.lookup other =
      if other = contextId then none else s.theApplicationsByContextId.lookup other :=
  KeyedMap.lookup_erase_eq _ _ _

theorem erased_index (contextId : String) (desc : Desc) (other : String) :
    (erased s contextId desc).theApplicationsByUeAppId.lookup other =
      if other = desc.theAssociateUeAppId then none else s.theApplicationsByUeAppId.lookup other :=
  KeyedMap.lookup_erase_eq _ _ _

/-! ## Steps -/

section Atomic
open Program

/-- Both arguments are checked before the lock is taken. -/
theorem associateSection_throws (address : String) {appName edgeRouter : String}
    (unable : appName = "" ∨ edgeRouter = "") : ∃ error, ∀ s : StaticUeAppLcmProxy rest,
      associateSection build address appName edgeRouter s = .threw error s := by
  by_cases named : appName = ""
  · exact ⟨_,fun s => by rw [associateSection,if_pos named]; rfl⟩
  · exact ⟨_,fun s => by rw [associateSection,if_neg named,if_pos (unable.resolve_left named)]; rfl⟩

theorem associateSection_silent (address : String) {appName edgeRouter : String} (named : appName ≠ "")
    (filled : edgeRouter ≠ "") :
    Silent (associateSection build address appName edgeRouter : Program (StaticUeAppLcmProxy rest) _ _) := by
  rw [associateSection,if_neg named,if_neg filled]
  refine silent_bind silent_get fun s => ?_
  dsimp only
  split
  · exact silent_pure _
  · exact silent_bind (silent_orHalt _) fun _ => silent_bind (silent_put _) fun _ => silent_pure _

theorem associateSection_atomic (address appName edgeRouter : String) :
    Atomic (associateSection build address appName edgeRouter : Program (StaticUeAppLcmProxy rest) _ _) := by
  by_cases named : appName = ""
  · rw [associateSection,if_pos named]; exact (readOnly_throw _).atomic
  by_cases filled : edgeRouter = ""
  · rw [associateSection,if_neg named,if_pos filled]; exact (readOnly_throw _).atomic
  · exact (associateSection_silent address named filled).atomic

theorem removeSection_silent (address : String) {appName : String} (named : appName ≠ "") :
    Silent (removeSection build address appName : Program (StaticUeAppLcmProxy rest) _ _) := by
  rw [removeSection,if_neg named]
  exact silent_bind silent_get fun s => silent_bind (silent_orHalt _) fun _ =>
    silent_bind (silent_put _) fun _ => silent_pure _

theorem removeSection_atomic (address appName : String) :
    Atomic (removeSection build address appName : Program (StaticUeAppLcmProxy rest) _ _) := by
  by_cases named : appName = ""
  · rw [removeSection,if_pos named]; exact (readOnly_throw _).atomic
  · exact (removeSection_silent address named).atomic

theorem createContext_atomic (uuid clientAddress : String) (request : AppContext rest) :
    Atomic (createContext build uuid clientAddress request) := by
  unfold createContext
  refine atomic_bind readOnly_get fun s => ?_
  split
  · exact (silent_pure _).atomic
  refine atomic_bind (readOnly_orHalt _) fun found => ?_
  split
  · exact (silent_pure _).atomic
  · refine atomic_bind (AppContext.readOnly_makeResponse _ _ _ _) fun response => ?_
    exact (silent_bind (silent_assert _ _) fun _ => silent_bind (silent_assert _ _) fun _ =>
      silent_bind (silent_put _) fun _ => silent_pure _).atomic

theorem updateContext_silent (request : AppContext rest) : Silent (updateContext request) := by
  unfold updateContext
  refine silent_bind silent_get fun s => ?_
  split
  · exact silent_pure _
  split
  · exact silent_halt _
  · exact silent_bind (silent_put _) fun _ => silent_pure _

theorem deleteContext_silent (contextId : String) :
    Silent (deleteContext build contextId : Program (StaticUeAppLcmProxy rest) _ _) := by
  unfold deleteContext
  refine silent_bind silent_get fun s => ?_
  split
  · exact silent_pure _
  split
  · exact silent_halt _
  · exact silent_bind (silent_put _) fun _ => silent_pure _

theorem purge_silent (contextId : String) :
    Silent (purge build contextId : Program (StaticUeAppLcmProxy rest) _ _) := by
  unfold purge
  refine silent_bind silent_get fun s => ?_
  split
  · exact silent_pure _
  · exact silent_bind (silent_assert _ _) fun _ => silent_bind (silent_put _) fun _ =>
      silent_bind (silent_assert _ _) fun _ => silent_pure _

theorem onRegistry_silent (update : Registry rest → Registry rest × Bool) : Silent (onRegistry update) :=
  silent_bind silent_get fun _ => silent_bind (silent_put _) fun _ => silent_pure _

theorem exec_atomic (call : Call rest) : Atomic (exec build call) := by
  cases call with
  | associateAddress address appName edgeRouter => exact atomic_map (associateSection_atomic _ _ _) _
  | removeAddress address appName => exact atomic_map (removeSection_atomic _ _) _
  | createContext uuid clientAddress request => exact atomic_map (createContext_atomic _ _ _) _
  | updateContext request => exact atomic_map (updateContext_silent _).atomic _
  | deleteContext contextId => exact atomic_map (deleteContext_silent _).atomic _
  | purge contextId => exact atomic_map (purge_silent _).atomic _
  | addApp info => exact atomic_map (onRegistry_silent _).atomic _
  | delApp info => exact atomic_map (onRegistry_silent _).atomic _

/-- A step is a call that returned, or one that threw and changed nothing. -/
theorem step_cases {call : Call rest} (taken : step build s call = some t) :
    t = s ∨ ∃ result, exec build call s = .returned result t := (exec_atomic call).state? taken

end Atomic
end EtsiMec.StaticUeAppLcmProxy
