import EtsiMec.Steps

/-! The routing invariant. A descriptor caches the edge router its client is routed to.
`associateAddress` and `removeAddress` bring the caches up to date in two different ways;
under the invariant both do the same, `refresh`, as far as they get. -/
namespace EtsiMec.StaticUeAppLcmProxy

open Effect

variable {rest : Rest} {build : Build} {s t : StaticUeAppLcmProxy rest}

/-- What the endpoint of a descriptor should be; empty if the client has no route. -/
def endpointOf (theTable : Table) (desc : Desc) : String :=
  (route theTable desc.theClientAddress desc.theAppName).getD ""

structure Routed (s : StaticUeAppLcmProxy rest) : Prop where
  keys : ∀ key edgeRouter, s.theTable.lookup key = some edgeRouter → key.theAppName ≠ ""
  filled : ∀ key edgeRouter, s.theTable.lookup key = some edgeRouter → edgeRouter ≠ ""
  named : ∀ contextId desc, s.theApplicationsByContextId.lookup contextId = some desc →
    desc.theAppName ≠ ""
  endpoint : ∀ contextId desc, s.theApplicationsByContextId.lookup contextId = some desc →
    desc.theEdgeRouterEndpoint = endpointOf s.theTable desc

theorem route_filled {theTable : Table}
    (filled : ∀ key edgeRouter, theTable.lookup key = some edgeRouter → edgeRouter ≠ "")
    {address appName edgeRouter : String} (found : route theTable address appName = some edgeRouter) :
    edgeRouter ≠ "" := by
  rw [route_eq] at found
  rcases Fallback.resolve_eq_some found with here | there
  · exact filled _ _ here
  · exact filled _ _ there

theorem endpointOf_empty {theTable : Table}
    (filled : ∀ key edgeRouter, theTable.lookup key = some edgeRouter → edgeRouter ≠ "") {desc : Desc} :
    endpointOf theTable desc = "" ↔ route theTable desc.theClientAddress desc.theAppName = none := by
  unfold endpointOf
  cases found : route theTable desc.theClientAddress desc.theAppName with
  | none => simp
  | some edgeRouter => simpa using route_filled filled found

/-- A change of an entry of one application leaves the routes of the others. -/
theorem endpointOf_other {before after : Table} {address appName : String} {value : Option String}
    (changed : KeyedMap.view after = Function.update (KeyedMap.view before) ⟨address,appName⟩ value)
    {desc : Desc} (other : desc.theAppName ≠ appName) : endpointOf after desc = endpointOf before desc := by
  unfold endpointOf
  rw [route_eq,route_eq,changed,Fallback.resolve_update_other] <;> simp [other]

/-! ## Refreshing the descriptors of an application -/

/-- Bring a descriptor of the application up to date; a client that has a new route is told. -/
def refresh (theTable : Table) (appName contextId : String) (desc : Desc) : Desc × NotificationList :=
  if desc.theAppName ≠ appName then (desc,[])
  else ({ desc with theEdgeRouterEndpoint := endpointOf theTable desc },
    if endpointOf theTable desc ≠ desc.theEdgeRouterEndpoint ∧ endpointOf theTable desc ≠ ""
    then [⟨desc.theCallbackReference,endpointOf theTable desc,contextId⟩] else [])

@[simp] theorem refresh_ueApp (theTable : Table) (appName contextId : String) (desc : Desc) :
    (refresh theTable appName contextId desc).1.theAssociateUeAppId = desc.theAssociateUeAppId := by
  unfold refresh; split <;> rfl
@[simp] theorem refresh_callback (theTable : Table) (appName contextId : String) (desc : Desc) :
    (refresh theTable appName contextId desc).1.theCallbackReference = desc.theCallbackReference := by
  unfold refresh; split <;> rfl
@[simp] theorem refresh_client (theTable : Table) (appName contextId : String) (desc : Desc) :
    (refresh theTable appName contextId desc).1.theClientAddress = desc.theClientAddress := by
  unfold refresh; split <;> rfl
@[simp] theorem refresh_app (theTable : Table) (appName contextId : String) (desc : Desc) :
    (refresh theTable appName contextId desc).1.theAppName = desc.theAppName := by
  unfold refresh; split <;> rfl

theorem mem_refresh {theTable : Table} {appName contextId : String} {desc : Desc} {elem : Notification} :
    elem ∈ (refresh theTable appName contextId desc).2 ↔ desc.theAppName = appName ∧
      endpointOf theTable desc ≠ desc.theEdgeRouterEndpoint ∧ endpointOf theTable desc ≠ "" ∧
      elem = ⟨desc.theCallbackReference,endpointOf theTable desc,contextId⟩ := by
  unfold refresh
  split
  · rename_i other
    simp [other]
  · rename_i same
    dsimp only
    split
    · rename_i changed
      simp [not_not.mp same,changed]
    · rename_i kept
      simp only [List.not_mem_nil,false_iff]
      rintro ⟨_,changed,filled,_⟩
      exact kept ⟨changed,filled⟩

theorem refresh_tags (theTable : Table) (appName contextId : String) (desc : Desc) :
    (refresh theTable appName contextId desc).2.map (·.contextId) = [] ∨
      (refresh theTable appName contextId desc).2.map (·.contextId) = [contextId] := by
  unfold refresh
  split
  · simp
  · dsimp only; split <;> simp

/-- A descriptor that is up to date is left alone. -/
theorem refresh_current {theTable : Table} {desc : Desc}
    (current : desc.theEdgeRouterEndpoint = endpointOf theTable desc) (appName contextId : String) :
    refresh theTable appName contextId desc = (desc,[]) := by
  simp [refresh,← current]

/-- The body of the loop of `associateAddress`, on a descriptor that was up to date: it
refreshes it if its client has a route. -/
theorem associateVisit_refresh {before after : Table} {address appName edgeRouter contextId : String}
    (changed : KeyedMap.view after =
      Function.update (KeyedMap.view before) ⟨address,appName⟩ (some edgeRouter))
    (filled : ∀ key edgeRouter, after.lookup key = some edgeRouter → edgeRouter ≠ "")
    {desc : Desc} (named : desc.theAppName ≠ "") (current : desc.theEdgeRouterEndpoint = endpointOf before desc)
    (routed : desc.theAppName = appName → route after desc.theClientAddress desc.theAppName ≠ none) :
    associateVisit build after appName edgeRouter contextId desc =
      .ok (refresh after appName contextId desc) := by
  unfold associateVisit refresh
  by_cases other : desc.theAppName = appName
  · subst other
    obtain ⟨target,found⟩ := Option.ne_none_iff_exists'.mp (routed rfl)
    have endpoint : endpointOf after desc = target := by simp [endpointOf,found]
    have filled := route_filled filled found
    simp only [ne_eq,not_true_eq_false,if_false,endpoint,find_eq named,found]
    by_cases same : target = desc.theEdgeRouterEndpoint
    · subst same; simp
    · -- a route that changed is the entry written
      have written : target = edgeRouter := by
        rw [route_eq,changed] at found
        rcases Fallback.resolve_write (KeyedMap.view before) ⟨desc.theClientAddress,desc.theAppName⟩
          ⟨"",desc.theAppName⟩ ⟨address,desc.theAppName⟩ edgeRouter with kept | written
        · rw [kept,← route_eq] at found
          rw [endpointOf,found] at current
          exact absurd current.symm same
        · exact Option.some.inj (found.symm.trans written)
      simp [same,filled,← written]
  · simp [other]

/-- The body of the loop of `removeAddress` always refreshes. -/
theorem removeVisit_refresh {theTable : Table} {appName contextId : String}
    (filled : ∀ key edgeRouter, theTable.lookup key = some edgeRouter → edgeRouter ≠ "")
    {desc : Desc} (named : desc.theAppName ≠ "") :
    removeVisit build theTable appName contextId desc = .ok (refresh theTable appName contextId desc) := by
  unfold removeVisit refresh
  by_cases other : desc.theAppName = appName
  · subst other
    cases found : route theTable desc.theClientAddress desc.theAppName with
    | none => simp [find_eq named,found,endpointOf]
    | some target =>
      have filled := route_filled filled found
      by_cases same : target = desc.theEdgeRouterEndpoint
      · subst same; simp [find_eq named,found,endpointOf]
      · simp [find_eq named,found,endpointOf,same,filled]
  · simp [other]

/-- What a call that changes the routes of an application does besides: the descriptors
are refreshed, and those told of it are told once. -/
structure Rerouted (s t : StaticUeAppLcmProxy rest) (appName : String) (out : NotificationList) : Prop where
  theApplications : t.theApplications = s.theApplications
  theApplicationsByUeAppId : t.theApplicationsByUeAppId = s.theApplicationsByUeAppId
  contexts : ∀ contextId, t.theApplicationsByContextId.lookup contextId =
    (s.theApplicationsByContextId.lookup contextId).map
      fun desc => (refresh t.theTable appName contextId desc).1
  size : KeyedMap.size t.theApplicationsByContextId = KeyedMap.size s.theApplicationsByContextId
  notified : ∀ elem, elem ∈ out ↔ ∃ desc, s.theApplicationsByContextId.lookup elem.contextId = some desc ∧
    elem ∈ (refresh t.theTable appName elem.contextId desc).2
  once : (out.map (·.contextId)).Nodup

theorem rerouted_of_sweep {theTable : Table} {appName : String}
    {visit : String → Desc → Except Halt (Desc × NotificationList)}
    (refreshes : ∀ contextId desc, s.theApplicationsByContextId.lookup contextId = some desc →
      visit contextId desc = .ok (refresh theTable appName contextId desc))
    {contexts : KeyedMap String Desc} {out : NotificationList}
    (swept : KeyedMap.sweep visit s.theApplicationsByContextId = .ok (contexts,out)) :
    Rerouted s { s with theTable := theTable, theApplicationsByContextId := contexts } appName out := by
  rw [KeyedMap.sweep_congr refreshes] at swept
  refine ⟨rfl,rfl,KeyedMap.sweep_pure_lookup swept,KeyedMap.sweep_size swept,?_,?_⟩
  · intro elem
    rw [KeyedMap.sweep_pure_emits swept]
    constructor
    · rintro ⟨contextId,desc,found,member⟩
      have tag : elem.contextId = contextId := by rw [(mem_refresh.mp member).2.2.2]
      subst tag
      exact ⟨desc,found,member⟩
    · rintro ⟨desc,found,member⟩
      exact ⟨elem.contextId,desc,found,member⟩
  · refine KeyedMap.sweep_tags_nodup (·.contextId) ?_ swept
    intro contextId desc after emitted visited
    have tags := refresh_tags theTable appName contextId desc
    rwa [Except.ok.inj visited] at tags

/-- Nothing to refresh: all descriptors are up to date. -/
theorem Routed.rerouted (routed : Routed s) (appName : String) : Rerouted s s appName [] := by
  have current : ∀ contextId desc, s.theApplicationsByContextId.lookup contextId = some desc →
      refresh s.theTable appName contextId desc = (desc,[]) := fun contextId desc found =>
    refresh_current (routed.endpoint contextId desc found) appName contextId
  refine ⟨rfl,rfl,?_,rfl,?_,by simp⟩
  · intro contextId
    cases found : s.theApplicationsByContextId.lookup contextId with
    | none => rfl
    | some desc => simp [current contextId desc found]
  · intro elem
    simp only [List.not_mem_nil,false_iff,not_exists,not_and]
    intro desc found
    simp [current _ desc found]

theorem filled_insert {theTable : Table} {key : AddressAppKey} {edgeRouter : String}
    (filled : ∀ key edgeRouter, theTable.lookup key = some edgeRouter → edgeRouter ≠ "")
    (value : edgeRouter ≠ "") :
    ∀ other found, (theTable.insert key edgeRouter).lookup other = some found → found ≠ "" := by
  intro other found there
  rw [KeyedMap.lookup_insert_eq] at there
  split at there
  · cases there; exact value
  · exact filled other found there

theorem filled_erase {theTable : Table} {key : AddressAppKey}
    (filled : ∀ key edgeRouter, theTable.lookup key = some edgeRouter → edgeRouter ≠ "") :
    ∀ other found, (theTable.erase key).lookup other = some found → found ≠ "" := by
  intro other found there
  rw [KeyedMap.lookup_erase_eq] at there
  split at there
  · contradiction
  · exact filled other found there

theorem associateSection_reroutes {address appName edgeRouter : String} {out : NotificationList}
    (routed : Routed s) (returned : associateSection build address appName edgeRouter s = .returned out t) :
    appName ≠ "" ∧ edgeRouter ≠ "" ∧ KeyedMap.view t.theTable =
      Function.update (KeyedMap.view s.theTable) ⟨address,appName⟩ (some edgeRouter) ∧
    Rerouted s t appName out := by
  obtain ⟨named,filled,⟨same,rfl,rfl⟩ | ⟨_,contexts,swept,rfl⟩⟩ := associateSection_returned.mp returned
  · exact ⟨named,filled,(Function.update_eq_self_iff.mpr same.symm).symm,routed.rerouted appName⟩
  · refine ⟨named,filled,KeyedMap.view_insert _ _ _,rerouted_of_sweep ?_ swept⟩
    intro contextId desc found
    refine associateVisit_refresh (KeyedMap.view_insert _ _ _) (filled_insert routed.filled filled)
      (routed.named contextId desc found) (routed.endpoint contextId desc found) ?_
    intro same unrouted
    -- the loop went through this context, so the lookup found something
    obtain ⟨after,emitted,visited,_⟩ := KeyedMap.sweep_visits swept found
    subst same
    simp [associateVisit,find_eq named,unrouted] at visited

theorem removeSection_reroutes {address appName : String} {out : NotificationList}
    (routed : Routed s) (returned : removeSection build address appName s = .returned out t) :
    appName ≠ "" ∧ KeyedMap.view t.theTable =
      Function.update (KeyedMap.view s.theTable) ⟨address,appName⟩ none ∧ Rerouted s t appName out := by
  obtain ⟨named,contexts,swept,rfl⟩ := removeSection_returned.mp returned
  refine ⟨named,KeyedMap.view_erase _ _,rerouted_of_sweep ?_ swept⟩
  intro contextId desc found
  exact removeVisit_refresh (filled_erase routed.filled) (routed.named contextId desc found)

theorem Routed.removeSection_defined (routed : Routed s) (build : Build) {address appName : String}
    (named : appName ≠ "") :
    ∃ out t, removeSection build address appName s = .returned out t := by
  obtain ⟨⟨contexts,out⟩,swept⟩ : ∃ next, KeyedMap.sweep (removeVisit build
      (s.theTable.erase ⟨address,appName⟩) appName) s.theApplicationsByContextId = .ok next :=
    KeyedMap.sweep_total fun contextId desc found =>
      ⟨_,removeVisit_refresh (filled_erase routed.filled) (routed.named contextId desc found)⟩
  exact ⟨out,_,removeSection_returned.mpr ⟨named,contexts,swept,rfl⟩⟩

/-! ## The invariant -/

theorem routed_empty : Routed (empty : StaticUeAppLcmProxy rest) :=
  ⟨by simp [empty],by simp [empty],by simp [empty],by simp [empty]⟩

theorem Rerouted.routed {appName : String} {out : NotificationList} (rerouted : Rerouted s t appName out)
    {address : String} {value : Option String} (changed : KeyedMap.view t.theTable =
      Function.update (KeyedMap.view s.theTable) ⟨address,appName⟩ value)
    (named : appName ≠ "") (filled : ∀ edgeRouter, value = some edgeRouter → edgeRouter ≠ "")
    (routed : Routed s) : Routed t := by
  refine ⟨?_,?_,?_,?_⟩
  · intro key edgeRouter found
    change KeyedMap.view t.theTable key = _ at found
    rw [changed,Function.update_apply] at found
    split at found
    · rename_i same
      rw [same]
      exact named
    · exact routed.keys key edgeRouter found
  · intro key edgeRouter found
    change KeyedMap.view t.theTable key = _ at found
    rw [changed,Function.update_apply] at found
    split at found
    · exact filled edgeRouter found
    · exact routed.filled key edgeRouter found
  · intro contextId desc found
    rw [rerouted.contexts] at found
    obtain ⟨before,there,rfl⟩ := Option.map_eq_some_iff.mp found
    simpa using routed.named contextId before there
  · intro contextId desc found
    rw [rerouted.contexts] at found
    obtain ⟨before,there,rfl⟩ := Option.map_eq_some_iff.mp found
    by_cases same : before.theAppName = appName
    · simp [refresh,same,endpointOf]
    · simp only [refresh,ne_eq,same,not_false_eq_true,if_true]
      rw [endpointOf_other changed same]
      exact routed.endpoint contextId before there

/-- Calls that leave the table: what matters is that new descriptors are up to date. -/
theorem Routed.of_contexts (routed : Routed s) (table : t.theTable = s.theTable)
    (contexts : ∀ contextId desc, t.theApplicationsByContextId.lookup contextId = some desc →
      desc.theAppName ≠ "" ∧ desc.theEdgeRouterEndpoint = endpointOf s.theTable desc) : Routed t :=
  ⟨table ▸ routed.keys,table ▸ routed.filled,fun contextId desc found => (contexts contextId desc found).1,
    fun contextId desc found => table ▸ (contexts contextId desc found).2⟩

theorem Routed.created (routed : Routed s) {clientAddress edgeRouter : String} {request : AppContext rest}
    (grants : Grants s clientAddress request edgeRouter) (contextId : String) :
    Routed (created s contextId clientAddress request edgeRouter) := by
  refine routed.of_contexts rfl fun other desc found => ?_
  rw [created_lookup] at found
  split at found
  · cases found
    exact ⟨request.appInfo.appName_ne,by simp [endpointOf,grants.routed]⟩
  · exact ⟨routed.named other desc found,routed.endpoint other desc found⟩

theorem Routed.recalled (routed : Routed s) {contextId : String} {desc : Desc}
    (live : s.theApplicationsByContextId.lookup contextId = some desc) (callbackReference : String) :
    Routed (recalled s contextId desc callbackReference) := by
  refine routed.of_contexts rfl fun other after found => ?_
  rw [recalled_lookup] at found
  split at found
  · cases found
    exact ⟨routed.named contextId desc live,routed.endpoint contextId desc live⟩
  · exact ⟨routed.named other after found,routed.endpoint other after found⟩

theorem Routed.erased (routed : Routed s) (contextId : String) (desc : Desc) :
    Routed (erased s contextId desc) := by
  refine routed.of_contexts rfl fun other after found => ?_
  rw [erased_lookup] at found
  split at found
  · contradiction
  · exact ⟨routed.named other after found,routed.endpoint other after found⟩

theorem Routed.registered (routed : Routed s) (theApplications : Registry rest) :
    Routed { s with theApplications := theApplications } :=
  ⟨routed.keys,routed.filled,routed.named,routed.endpoint⟩

theorem Routed.afterAssociate (routed : Routed s) {address appName edgeRouter : String} {out : NotificationList}
    (returned : associateSection build address appName edgeRouter s = .returned out t) : Routed t := by
  obtain ⟨named,filled,changed,rerouted⟩ := associateSection_reroutes routed returned
  refine rerouted.routed changed named ?_ routed
  rintro _ ⟨⟩
  exact filled

theorem Routed.afterRemove (routed : Routed s) {address appName : String} {out : NotificationList}
    (returned : removeSection build address appName s = .returned out t) : Routed t := by
  obtain ⟨named,changed,rerouted⟩ := removeSection_reroutes routed returned
  refine rerouted.routed changed named ?_ routed
  rintro _ ⟨⟩

inductive Change (build : Build) (s : StaticUeAppLcmProxy rest) (call : Call rest) :
    StaticUeAppLcmProxy rest → Prop where
  | unchanged : Change build s call s
  | rerouted {address appName : String} {value : Option String} {out : NotificationList}
      {t : StaticUeAppLcmProxy rest} (changed : KeyedMap.view t.theTable =
        Function.update (KeyedMap.view s.theTable) ⟨address,appName⟩ value)
      (named : appName ≠ "") (filled : ∀ edgeRouter, value = some edgeRouter → edgeRouter ≠ "")
      (rerouted : Rerouted s t appName out) : Change build s call t
  | created {uuid clientAddress edgeRouter : String} {request : AppContext rest}
      (drawn : call = .createContext uuid clientAddress request)
      (grants : Grants s clientAddress request edgeRouter) (given : uuid ≠ "")
      (asserted : build = .debug → uuid ∉ s.theApplicationsByContextId ∧
        request.associateUeAppId ∉ s.theApplicationsByUeAppId) :
      Change build s call (created s uuid clientAddress request edgeRouter)
  | recalled {contextId : String} {desc : Desc}
      (live : s.theApplicationsByContextId.lookup contextId = some desc) (callbackReference : String) :
      Change build s call (recalled s contextId desc callbackReference)
  | erased {contextId : String} {desc : Desc}
      (live : s.theApplicationsByContextId.lookup contextId = some desc) :
      Change build s call (erased s contextId desc)
  | registry (theApplications : Registry rest) : Change build s call { s with theApplications := theApplications }

theorem Routed.change (routed : Routed s) {call : Call rest} (taken : step build s call = some t) :
    Change build s call t := by
  rcases step_cases taken with rfl | ⟨result,returned⟩
  · exact .unchanged
  cases call with
  | associateAddress address appName edgeRouter =>
    obtain ⟨out,ran,_⟩ := Program.map_eq_returned.mp returned
    obtain ⟨named,filled,changed,rerouted⟩ := associateSection_reroutes routed ran
    exact .rerouted changed named (by rintro _ ⟨⟩; exact filled) rerouted
  | removeAddress address appName =>
    obtain ⟨out,ran,_⟩ := Program.map_eq_returned.mp returned
    obtain ⟨named,changed,rerouted⟩ := removeSection_reroutes routed ran
    exact .rerouted changed named (by rintro _ ⟨⟩) rerouted
  | createContext uuid clientAddress request =>
    obtain ⟨response,ran,_⟩ := Program.map_eq_returned.mp returned
    rcases createContext_returned ran with ⟨_,_,rfl⟩ | ⟨edgeRouter,grants,given,asserted,_,rfl⟩
    · exact .unchanged
    · exact .created rfl grants given asserted
  | updateContext request =>
    obtain ⟨flag,ran,_⟩ := Program.map_eq_returned.mp returned
    rcases updateContext_returned.mp ran with ⟨_,_,rfl⟩ | ⟨contextId,desc,_,live,_,rfl⟩
    · exact .unchanged
    · exact .recalled live request.callbackReference
  | deleteContext contextId =>
    obtain ⟨flag,ran,_⟩ := Program.map_eq_returned.mp returned
    rcases deleteContext_returned.mp ran with ⟨_,_,rfl⟩ | ⟨desc,live,_,_,rfl⟩
    · exact .unchanged
    · exact .erased live
  | purge contextId =>
    obtain ⟨flag,ran,_⟩ := Program.map_eq_returned.mp returned
    rcases purge_returned ran with ⟨_,_,rfl⟩ | ⟨desc,live,_,rfl⟩
    · exact .unchanged
    · exact .erased live
  | addApp info =>
    obtain ⟨flag,ran,_⟩ := Program.map_eq_returned.mp returned
    obtain ⟨_,rfl⟩ := onRegistry_returned ran
    exact .registry _
  | delApp info =>
    obtain ⟨flag,ran,_⟩ := Program.map_eq_returned.mp returned
    obtain ⟨_,rfl⟩ := onRegistry_returned ran
    exact .registry _

theorem routed_step {call : Call rest} (routed : Routed s) (taken : step build s call = some t) : Routed t := by
  cases routed.change taken with
  | unchanged => exact routed
  | rerouted changed named filled rerouted => exact rerouted.routed changed named filled routed
  | created drawn grants given asserted => exact routed.created grants _
  | recalled live callbackReference => exact routed.recalled live callbackReference
  | erased live => exact routed.erased _ _
  | registry theApplications => exact routed.registered _

theorem Reachable.routed (reached : Reachable build s) : Routed s :=
  Run.Reachable.invariant (fun _ _ _ routed taken => routed_step routed taken) routed_empty reached

/-- In every reachable state a descriptor holds what `find` returns for its client, and
the empty string exactly if that is the end of the table. -/
theorem reachable_endpoint_is_route (build : Build) (s : StaticUeAppLcmProxy rest)
    (reached : Reachable build s) (contextId : String) (desc : Desc)
    (live : s.theApplicationsByContextId.lookup contextId = some desc) :
    ∃ found, find build s.theTable desc.theClientAddress desc.theAppName = .ok found ∧
      (∀ edgeRouter, found = some edgeRouter → desc.theEdgeRouterEndpoint = edgeRouter) ∧
      (desc.theEdgeRouterEndpoint = "" ↔ found = none) := by
  have routed := reached.routed
  have endpoint := routed.endpoint contextId desc live
  refine ⟨_,find_eq (routed.named contextId desc live),?_,?_⟩
  · intro edgeRouter found
    simp [endpoint,endpointOf,found]
  · rw [endpoint]
    exact endpointOf_empty routed.filled

/-! An application, a request for it, and the run that grants the request. -/

def sampleApp : AppInfo Rest.plain :=
  AppInfo.requested _ (by decide : AppInfo.Limits "app" "provider" "1.0" "") ""

def sampleRequest (associateUeAppId callbackReference : String) (filled : associateUeAppId ≠ "") :
    AppContext Rest.plain :=
  ⟨AppContext.fields Rest.plain "" associateUeAppId callbackReference sampleApp,AppContext.fields_accepted filled⟩

theorem sampleId_filled : "ue1" ≠ "" := by decide

def sampleCalls : List (Call Rest.plain) :=
  [.addApp sampleApp,.associateAddress "" "app" "er1",
    .createContext "c1" "client" (sampleRequest "ue1" "http://ue1" sampleId_filled)]

theorem sample_endpoint_is_route :
    ∃ found, find .debug (after .debug sampleCalls (by decide)).theTable "client" "app" = .ok found ∧
      (∀ edgeRouter, found = some edgeRouter → "er1" = edgeRouter) ∧ ("er1" = "" ↔ found = none) :=
  reachable_endpoint_is_route .debug _ (after_reachable .debug sampleCalls (by decide)) "c1"
    ⟨"ue1","http://ue1","client","app","er1"⟩ (by decide)

/-! ## Associations that find every route -/

/-- Whenever the loop runs, `find` returns an entry for each context of the application. -/
def SweepFinds (build : Build) (s : StaticUeAppLcmProxy rest) (address appName edgeRouter : String) : Prop :=
  s.theTable.lookup ⟨address,appName⟩ ≠ some edgeRouter →
    ∀ contextId desc, s.theApplicationsByContextId.lookup contextId = some desc →
      desc.theAppName = appName → ∃ target, find build (s.theTable.insert ⟨address,appName⟩ edgeRouter)
        desc.theClientAddress desc.theAppName = .ok (some target)

/-- The association is the present one, or is for any address, or every context of the
application left without a route is of that address. -/
def Covered (s : StaticUeAppLcmProxy rest) (address appName edgeRouter : String) : Prop :=
  s.theTable.lookup ⟨address,appName⟩ = some edgeRouter ∨ address = "" ∨
    ∀ contextId desc, s.theApplicationsByContextId.lookup contextId = some desc →
      desc.theAppName = appName → desc.theEdgeRouterEndpoint = "" → desc.theClientAddress = address

theorem Routed.sweepFinds_iff (routed : Routed s) {address appName edgeRouter : String}
    (named : appName ≠ "") : SweepFinds build s address appName edgeRouter ↔
      Covered s address appName edgeRouter := by
  have each : ∀ contextId desc, s.theApplicationsByContextId.lookup contextId = some desc →
      desc.theAppName = appName → ((∃ target, find build (s.theTable.insert ⟨address,appName⟩ edgeRouter)
        desc.theClientAddress desc.theAppName = .ok (some target)) ↔
        desc.theEdgeRouterEndpoint ≠ "" ∨ desc.theClientAddress = address ∨ address = "") := by
    rintro contextId desc live rfl
    rw [find_eq named,routed.endpoint contextId desc live,Ne,endpointOf_empty routed.filled,← Ne,
      Option.ne_none_iff_isSome,route_eq,route_eq]
    have exact := Fallback.resolve_write_isSome (KeyedMap.view s.theTable)
      ⟨desc.theClientAddress,desc.theAppName⟩ ⟨"",desc.theAppName⟩ ⟨address,desc.theAppName⟩ edgeRouter
    rw [← KeyedMap.view_insert] at exact
    simpa [Option.isSome_iff_exists,@eq_comm _ "" address] using exact
  unfold SweepFinds Covered
  constructor
  · intro finds
    by_cases present : s.theTable.lookup ⟨address,appName⟩ = some edgeRouter
    · exact .inl present
    by_cases wildcard : address = ""
    · exact .inr (.inl wildcard)
    refine .inr (.inr fun contextId desc live same orphan => ?_)
    rcases (each contextId desc live same).mp (finds present contextId desc live same) with routed | here | any
    · exact absurd orphan routed
    · exact here
    · exact absurd any wildcard
  · intro covered absent contextId desc live same
    refine (each contextId desc live same).mpr ?_
    rcases covered with present | wildcard | orphans
    · exact absurd present absent
    · exact .inr (.inr wildcard)
    · by_cases orphan : desc.theEdgeRouterEndpoint = ""
      · exact .inr (.inl (orphans contextId desc live same orphan))
      · exact .inl orphan

/-- The section runs to its end if and only if its loop finds every route. -/
theorem Routed.associateSection_defined (routed : Routed s) {address appName edgeRouter : String}
    (named : appName ≠ "") (filled : edgeRouter ≠ "") :
    (∃ out t, associateSection build address appName edgeRouter s = .returned out t) ↔
      SweepFinds build s address appName edgeRouter := by
  constructor
  · rintro ⟨out,t,returned⟩ absent contextId desc live same
    obtain ⟨_,_,⟨present,_⟩ | ⟨_,contexts,swept,_⟩⟩ := associateSection_returned.mp returned
    · exact absurd present absent
    obtain ⟨after,emitted,visited,_⟩ := KeyedMap.sweep_visits swept live
    subst same
    cases found : route (s.theTable.insert ⟨address,desc.theAppName⟩ edgeRouter)
        desc.theClientAddress desc.theAppName with
    | none => simp [associateVisit,find_eq named,found] at visited
    | some target => exact ⟨target,by rw [find_eq named,found]⟩
  · intro finds
    by_cases present : s.theTable.lookup ⟨address,appName⟩ = some edgeRouter
    · exact ⟨[],s,associateSection_returned.mpr ⟨named,filled,.inl ⟨present,rfl,rfl⟩⟩⟩
    obtain ⟨⟨contexts,out⟩,swept⟩ : ∃ next, KeyedMap.sweep (associateVisit build
        (s.theTable.insert ⟨address,appName⟩ edgeRouter) appName edgeRouter)
        s.theApplicationsByContextId = .ok next := by
      refine KeyedMap.sweep_total fun contextId desc live => ⟨_,associateVisit_refresh
        (KeyedMap.view_insert _ _ _) (filled_insert routed.filled filled)
        (routed.named contextId desc live) (routed.endpoint contextId desc live) ?_⟩
      intro same unrouted
      obtain ⟨target,found⟩ := finds present contextId desc live same
      rw [find_eq (routed.named contextId desc live),unrouted] at found
      simp at found
    exact ⟨out,_,associateSection_returned.mpr ⟨named,filled,.inr ⟨present,contexts,swept,rfl⟩⟩⟩

/-- `associateAddress` dereferences no missing route if and only if it is covered. -/
theorem associateAddress_defined_iff_covered (build : Build) (s : StaticUeAppLcmProxy rest)
    (reached : Reachable build s) (address appName edgeRouter : String) (named : appName ≠ "")
    (filled : edgeRouter ≠ "") :
    (SweepFinds build s address appName edgeRouter ↔ Covered s address appName edgeRouter) ∧
    ((∀ reason, associateSection build address appName edgeRouter s ≠ .halted reason) ↔
      Covered s address appName edgeRouter) := by
  have finds := @Routed.sweepFinds_iff _ build _ reached.routed address appName edgeRouter named
  refine ⟨finds,?_⟩
  rw [(associateSection_silent address named filled).returns_iff,
    reached.routed.associateSection_defined named filled]
  exact finds

/-- An association for any address covers all contexts. -/
theorem sample_associateAddress_defined :
    SweepFinds .debug (after .debug sampleCalls (by decide)) "" "app" "er2" ∧
    ∀ reason, associateSection .debug "" "app" "er2" (after .debug sampleCalls (by decide)) ≠ .halted reason := by
  obtain ⟨finds,runs⟩ := associateAddress_defined_iff_covered .debug _
    (after_reachable .debug sampleCalls (by decide)) "" "app" "er2" (by decide) (by decide)
  exact ⟨finds.mpr (.inr (.inl rfl)),runs.mpr (.inr (.inl rfl))⟩

def orphanCalls : List (Call Rest.plain) := sampleCalls ++ [.removeAddress "" "app"]

theorem associateAddress_meets_orphan :
    (∃ s : StaticUeAppLcmProxy Rest.plain, Reachable .debug s ∧
      associateSection .debug "other" "app" "er2" s = .halted .assertion) ∧
    ∃ s : StaticUeAppLcmProxy Rest.plain, Reachable .release s ∧
      associateSection .release "other" "app" "er2" s = .halted .undefined :=
  ⟨⟨after .debug orphanCalls (by decide),after_reachable ..,Outcome.reason?_eq_some.mp (by decide)⟩,
    after .release orphanCalls (by decide),after_reachable ..,Outcome.reason?_eq_some.mp (by decide)⟩

end EtsiMec.StaticUeAppLcmProxy
