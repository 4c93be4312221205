import EtsiMec.Creation

/-! Where the reference URI of a manager comes from. Whatever the order of the events, and
whatever is refused or purged in between, a URI reaches the manager only in the answer to a
request, or in a notification of the context that was created for one; in both it is an edge
router that a call has associated with the application that was requested. -/
namespace EtsiMec.Exchange

open Effect

variable {rest : Rest} {transport : Transport} {build : Build} {x y : Exchange rest}

def Associated (events : List (Event rest)) (clientAddress appName uri : String) : Prop :=
  ∃ address, (address = clientAddress ∨ address = "") ∧ .associateAddress address appName uri ∈ events

/-- An application was requested under the ID, and the edge router is one of that application. -/
def Genuine (events : List (Event rest)) (ueAppId uri : String) : Prop :=
  ∃ uuid clientAddress info, .request uuid ueAppId clientAddress info ∈ events ∧
    Associated events clientAddress info.appName uri

structure Requested (events : List (Event rest)) (theNotificationUri : String) (desc : Desc) : Prop where
  callback : desc.theCallbackReference = theNotificationUri ++ "/" ++ desc.theAssociateUeAppId
  request : ∃ uuid info, info.appName = desc.theAppName ∧
    .request uuid desc.theAssociateUeAppId desc.theClientAddress info ∈ events

structure Traced (events : List (Event rest)) (theNotificationUri : String) (x : Exchange rest) : Prop where
  routed : StaticUeAppLcmProxy.Routed x.proxy
  uri : x.manager.theNotificationUri = theNotificationUri
  table : ∀ address appName edgeRouter, x.proxy.theTable.lookup ⟨address,appName⟩ = some edgeRouter →
    .associateAddress address appName edgeRouter ∈ events
  contexts : ∀ contextId desc, x.proxy.theApplicationsByContextId.lookup contextId = some desc →
    Requested events theNotificationUri desc
  waiting : ∀ thread ∈ x.threads, ∀ post ∈ thread.remaining, ∃ ueAppId,
    post.notification.callbackReference = theNotificationUri ++ "/" ++ ueAppId ∧ Genuine events ueAppId post.uri
  replies : ∀ reply ∈ x.replies, ∀ (response : AppContext rest) uri,
    AppContextManager.Accepted rest reply.code reply.body response uri → Genuine events reply.ueAppId uri
  stored : ∀ ueAppId desc, x.manager.theContexts.lookup ueAppId = some desc →
    Genuine events ueAppId desc.theReferenceUri

theorem traced_start (events : List (Event rest)) (theNotificationUri theProxyUri : String) :
    Traced events theNotificationUri (start theNotificationUri theProxyUri) := by
  refine ⟨StaticUeAppLcmProxy.routed_empty,rfl,?_,?_,?_,?_,?_⟩
  all_goals simp [start,StaticUeAppLcmProxy.empty]

/-- A route is an entry for the client or for all clients. -/
theorem route_associated {events : List (Event rest)} {theTable : Table}
    (entries : ∀ address appName edgeRouter, theTable.lookup ⟨address,appName⟩ = some edgeRouter →
      .associateAddress address appName edgeRouter ∈ events) {clientAddress appName edgeRouter : String}
    (found : StaticUeAppLcmProxy.route theTable clientAddress appName = some edgeRouter) :
    Associated events clientAddress appName edgeRouter := by
  rw [StaticUeAppLcmProxy.route_eq] at found
  rcases Fallback.resolve_eq_some found with specific | default
  · exact ⟨clientAddress,.inl rfl,entries _ _ _ specific⟩
  · exact ⟨"",.inr rfl,entries _ _ _ default⟩

section Step
variable {events : List (Event rest)} {theNotificationUri : String}

theorem Requested.genuine {desc : Desc} (requested : Requested events theNotificationUri desc)
    {uri : String} (associated : Associated events desc.theClientAddress desc.theAppName uri) :
    Genuine events desc.theAssociateUeAppId uri := by
  obtain ⟨uuid,info,named,member⟩ := requested.request
  exact ⟨uuid,desc.theClientAddress,info,member,named.symm ▸ associated⟩

/-- A section that has changed the table posts routes of the table it leaves. -/
theorem Traced.released (traced : Traced events theNotificationUri x) {appName : String} {list : NotificationList}
    {s : StaticUeAppLcmProxy rest} (routed : StaticUeAppLcmProxy.Routed s)
    (table : ∀ address appName edgeRouter, s.theTable.lookup ⟨address,appName⟩ = some edgeRouter →
      .associateAddress address appName edgeRouter ∈ events)
    (rerouted : StaticUeAppLcmProxy.Rerouted x.proxy s appName list) :
    Traced events theNotificationUri { x with
      proxy := s
      threads := x.threads ++ [⟨list.map (Post.mk x.threads.length),none⟩]
      issued := x.issued ++ list.map (Post.mk x.threads.length) } := by
  have contexts : ∀ contextId desc, s.theApplicationsByContextId.lookup contextId = some desc →
      Requested events theNotificationUri desc := by
    intro contextId desc live
    rw [rerouted.contexts] at live
    obtain ⟨before,there,rfl⟩ := Option.map_eq_some_iff.mp live
    obtain ⟨callback,request⟩ := traced.contexts contextId before there
    exact ⟨by simpa using callback,by simpa using request⟩
  refine ⟨routed,traced.uri,table,contexts,?_,traced.replies,traced.stored⟩
  intro thread member post inside
  rcases List.mem_append.mp member with old | new
  · exact traced.waiting thread old post inside
  cases List.mem_singleton.mp new
  obtain ⟨elem,told,rfl⟩ := List.mem_map.mp inside
  obtain ⟨_,after,_,live,_,filled,equal⟩ := (rerouted.exact.exact elem).mp told
  have requested := contexts elem.contextId after live
  have callback : elem.callbackReference = after.theCallbackReference := congrArg Notification.callbackReference equal
  have uri : elem.referenceUri = after.theEdgeRouterEndpoint := congrArg Notification.referenceUri equal
  refine ⟨after.theAssociateUeAppId,callback.trans requested.callback,requested.genuine ?_⟩
  apply route_associated table
  have endpoint := routed.endpoint elem.contextId after live
  unfold StaticUeAppLcmProxy.endpointOf at endpoint
  cases route : StaticUeAppLcmProxy.route s.theTable after.theClientAddress after.theAppName with
  | none =>
    rw [route] at endpoint
    exact absurd endpoint filled
  | some edgeRouter =>
    rw [route] at endpoint
    exact congrArg some (endpoint.symm.trans uri.symm)

theorem Traced.release (traced : Traced events theNotificationUri x)
    {outcome : Outcome (StaticUeAppLcmProxy rest) Exception NotificationList}
    (threw : ∀ error s, outcome = .threw error s → s = x.proxy)
    (returned : ∀ list s, outcome = .returned list s → StaticUeAppLcmProxy.Routed s ∧
      (∀ address appName edgeRouter, s.theTable.lookup ⟨address,appName⟩ = some edgeRouter →
        .associateAddress address appName edgeRouter ∈ events) ∧
      ∃ appName, StaticUeAppLcmProxy.Rerouted x.proxy s appName list)
    (taken : release x outcome = some y) : Traced events theNotificationUri y := by
  cases outcome with
  | halted reason => contradiction
  | threw error s =>
    cases taken
    rw [threw error s rfl]
    exact traced
  | returned list s =>
    cases taken
    obtain ⟨routed,table,appName,rerouted⟩ := returned list s rfl
    exact traced.released routed table rerouted

/-- What a thread still has to post it had to post before. -/
theorem Traced.advanced (traced : Traced events theNotificationUri x) {k : Nat} {thread : Thread}
    (here : x.threads[k]? = some thread) {others : List Post}
    (left : ∀ post ∈ others, post ∈ thread.remaining) (failed : Option String) :
    ∀ thread ∈ x.threads.set k ⟨others,failed⟩, ∀ post ∈ thread.remaining, ∃ ueAppId,
      post.notification.callbackReference = theNotificationUri ++ "/" ++ ueAppId ∧
        Genuine events ueAppId post.uri := by
  intro other member post inside
  rcases List.mem_or_eq_of_mem_set member with old | rfl
  · exact traced.waiting other old post inside
  · exact traced.waiting thread (List.mem_of_getElem? here) post (left post inside)

theorem traced_step (traced : Traced events theNotificationUri x) (listens : transport.listens theNotificationUri)
    (plain : ∀ event ∈ events, ∀ ueAppId, event.drawnUeAppId = some ueAppId → Plain ueAppId)
    {event : Event rest} (member : event ∈ events) (taken : step transport build x event = some y) :
    Traced events theNotificationUri y := by
  have routed := traced.routed
  by_cases kind : OnRoutes event
  · cases event with
    | associateAddress address appName edgeRouter =>
      refine traced.release (fun _ _ threw => StaticUeAppLcmProxy.associateSection_atomic _ _ _ _ _ _ threw)
        (fun list s returned => ?_) taken
      obtain ⟨_,_,changed,rerouted⟩ := StaticUeAppLcmProxy.associateSection_reroutes routed returned
      refine ⟨routed.afterAssociate returned,fun other app given found => ?_,appName,rerouted⟩
      have viewed : KeyedMap.view s.theTable ⟨other,app⟩ = some given := found
      rw [changed,Function.update_apply] at viewed
      split at viewed
      · rename_i same
        cases same
        exact Option.some.inj viewed ▸ member
      · exact traced.table other app given viewed
    | removeAddress address appName =>
      refine traced.release (fun _ _ threw => StaticUeAppLcmProxy.removeSection_atomic _ _ _ _ _ threw)
        (fun list s returned => ?_) taken
      obtain ⟨_,changed,rerouted⟩ := StaticUeAppLcmProxy.removeSection_reroutes routed returned
      refine ⟨routed.afterRemove returned,fun other app given found => ?_,appName,rerouted⟩
      have viewed : KeyedMap.view s.theTable ⟨other,app⟩ = some given := found
      rw [changed,Function.update_apply] at viewed
      split at viewed
      · contradiction
      · exact traced.table other app given viewed
    | _ => exact kind.elim
  have after := routed_step routed taken
  cases step_transition routed taken with
  | unchanged => exact traced
  | registry _ theApplications =>
    exact ⟨after,traced.uri,traced.table,traced.contexts,traced.waiting,traced.replies,traced.stored⟩
  | released onRoutes => exact absurd onRoutes kind
  | skipped here =>
    exact ⟨after,traced.uri,traced.table,traced.contexts,
      traced.advanced here (fun post inside => List.mem_cons_of_mem _ inside) none,traced.replies,traced.stored⟩
  | @accepted k post others here ueAppId desc leads known =>
    refine ⟨after,traced.uri,traced.table,traced.contexts,
      traced.advanced here (fun post inside => List.mem_cons_of_mem _ inside) none,traced.replies,?_⟩
    obtain ⟨ueApp,callback,genuine⟩ := traced.waiting _ (List.mem_of_getElem? here) post List.mem_cons_self
    obtain ⟨uuid,clientAddress,info,request,_⟩ := id genuine
    rw [← traced.uri] at callback listens
    rw [callback] at leads
    -- the path of the callback ends in the ID of the context
    cases (addressee_callback listens (plain _ request ueApp rfl)).symm.trans leads
    intro other entry found
    rw [AppContextManager.renewed,KeyedMap.lookup_insert_eq] at found
    split at found
    · rename_i same
      cases found
      exact same ▸ genuine
    · exact traced.stored other entry found
  | refused here =>
    exact ⟨after,traced.uri,traced.table,traced.contexts,
      traced.advanced here (fun post inside => List.mem_cons_of_mem _ inside) _,traced.replies,traced.stored⟩
  | purgedNothing here =>
    exact ⟨after,traced.uri,traced.table,traced.contexts,traced.advanced here (fun post inside => inside) none,
      traced.replies,traced.stored⟩
  | purged here live =>
    refine ⟨after,traced.uri,traced.table,?_,traced.advanced here (fun post inside => inside) none,
      traced.replies,traced.stored⟩
    intro other desc found
    rw [StaticUeAppLcmProxy.erased_lookup] at found
    split at found
    · contradiction
    · exact traced.contexts other desc found
  | @declined uuid ueAppId clientAddress info reply addressed useless =>
    refine ⟨after,traced.uri,traced.table,traced.contexts,traced.waiting,?_,traced.stored⟩
    intro other inside response uri accepted
    rcases List.mem_append.mp inside with old | new
    · exact traced.replies other old response uri accepted
    · cases List.mem_singleton.mp new
      exact absurd accepted (useless response uri)
  | @created uuid ueAppId clientAddress edgeRouter info context response made grants answers =>
    obtain ⟨proper,ueApp,callback,inner⟩ := AppContextManager.contextRequest_proper made
    refine ⟨after,traced.uri,traced.table,?_,traced.waiting,?_,traced.stored⟩
    · intro contextId desc found
      rw [StaticUeAppLcmProxy.created_lookup] at found
      split at found
      · cases found
        refine ⟨?_,uuid,info,by rw [inner],by rw [ueApp]; exact member⟩
        rw [callback,ueApp,AppContextManager.callbackReference,traced.uri]
      · exact traced.contexts contextId desc found
    · intro other inside given uri accepted
      rcases List.mem_append.mp inside with old | new
      · exact traced.replies other old given uri accepted
      · cases List.mem_singleton.mp new
        cases (AppContext.ofJson_eq response).symm.trans accepted.decoded
        cases answers.referenceUri.symm.trans accepted.uri
        exact ⟨uuid,clientAddress,info,member,route_associated traced.table (inner ▸ grants.routed)⟩
  | @dropped k reply here useless =>
    refine ⟨after,traced.uri,traced.table,traced.contexts,traced.waiting,?_,traced.stored⟩
    exact fun other inside => traced.replies other (List.mem_of_mem_eraseIdx inside)
  | @stored k reply here response uri accepted =>
    refine ⟨after,traced.uri,traced.table,traced.contexts,traced.waiting,
      fun other inside => traced.replies other (List.mem_of_mem_eraseIdx inside),?_⟩
    intro ueAppId desc found
    rw [AppContextManager.stored,KeyedMap.lookup_emplace] at found
    split at found
    · rename_i new
      cases found
      exact new.1 ▸ traced.replies reply (List.mem_of_getElem? here) response uri accepted
    · exact traced.stored ueAppId desc found

end Step

/-- Whatever the order of the events, a manager has only edge routers that were associated
before, for its client or for all, with the application it requested. -/
theorem reference_uris_genuine (transport : Transport) (build : Build) (theNotificationUri theProxyUri : String)
    (listens : transport.listens theNotificationUri) (events : List (Event rest))
    (plain : ∀ event ∈ events, ∀ ueAppId, event.drawnUeAppId = some ueAppId → Plain ueAppId) (x : Exchange rest)
    (ran : Run.run (step transport build) (start theNotificationUri theProxyUri) events = some x)
    (ueAppId uri : String) (stored : x.manager.referenceUri ueAppId = .ok uri) :
    ∃ uuid clientAddress info address, .request uuid ueAppId clientAddress info ∈ events ∧
      (address = clientAddress ∨ address = "") ∧ .associateAddress address info.appName uri ∈ events := by
  have traced : Traced events theNotificationUri x := by
    refine Run.invariant (fun _ _ _ traced member taken => traced_step traced listens plain member taken)
      (traced_start events theNotificationUri theProxyUri) (Run.along_of_mem (fun _ member => member) _) ran
  unfold AppContextManager.referenceUri at stored
  split at stored
  · rename_i desc found
    cases stored
    obtain ⟨uuid,clientAddress,info,request,address,whose,associated⟩ := traced.stored ueAppId desc found
    exact ⟨uuid,clientAddress,info,address,request,whose,associated⟩
  · contradiction

/-- A manager that has been notified. -/
theorem sample_genuine : ∃ uuid clientAddress info address,
    .request uuid "ue1" clientAddress info ∈ storedFirst ∧ (address = clientAddress ∨ address = "") ∧
      .associateAddress address info.appName "er2" ∈ storedFirst := by
  refine reference_uris_genuine Transport.plain .debug "http://ue" "http://proxy" trivial storedFirst ?_
    (afterStart storedFirst (by decide)) (Option.some_get (by decide)).symm "ue1" "er2" ?_
  · intro event member ueAppId drawn
    fin_cases member <;> cases drawn
    exact ⟨by decide,by simp⟩
  · obtain ⟨desc,found,renewed⟩ : ∃ desc,
        (afterStart storedFirst (by decide)).manager.theContexts.lookup "ue1" = some desc ∧
          desc.theReferenceUri = "er2" := Option.map_eq_some_iff.mp (by decide)
    rw [AppContextManager.referenceUri,found]
    exact congrArg Except.ok renewed

end EtsiMec.Exchange
