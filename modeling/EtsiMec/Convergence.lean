import EtsiMec.Transitions
import EtsiMec.Notifications

/-! Contexts that are established on both sides, while calls change the table and post their
notifications in any order. The endpoint of a context is a register written by the posts as
they are issued, the reference URI of the manager one written by the same posts as they are
handled; the two agree where the last post handled is the last one issued. -/
namespace EtsiMec.Exchange

open Effect

variable {rest : Rest} {transport : Transport} {build : Build} {x y : Exchange rest}

def managerUri (x : Exchange rest) (contextId : String) : String :=
  match x.proxy.theApplicationsByContextId.lookup contextId with
  | none => ""
  | some desc => ((x.manager.theContexts.lookup desc.theAssociateUeAppId).map (·.theReferenceUri)).getD ""

/-- Nothing is on its way and the manager knows every context, with its endpoint if it has one. -/
structure Established (transport : Transport) (build : Build) (x : Exchange rest) : Prop where
  reachable : StaticUeAppLcmProxy.Reachable build x.proxy
  listens : transport.listens x.manager.theNotificationUri
  plain : ∀ contextId desc, x.proxy.theApplicationsByContextId.lookup contextId = some desc →
    Plain desc.theAssociateUeAppId
  callback : ∀ contextId desc, x.proxy.theApplicationsByContextId.lookup contextId = some desc →
    desc.theCallbackReference = x.manager.callbackReference desc.theAssociateUeAppId
  known : ∀ contextId desc, x.proxy.theApplicationsByContextId.lookup contextId = some desc →
    desc.theAssociateUeAppId ∈ x.manager.theContexts
  current : ∀ contextId desc, x.proxy.theApplicationsByContextId.lookup contextId = some desc →
    desc.theEdgeRouterEndpoint ≠ "" → managerUri x contextId = desc.theEdgeRouterEndpoint
  distinct : ∀ contextId other desc desc', x.proxy.theApplicationsByContextId.lookup contextId = some desc →
    x.proxy.theApplicationsByContextId.lookup other = some desc' →
    desc.theAssociateUeAppId = desc'.theAssociateUeAppId → contextId = other
  quiescent : Quiescent x
  issued : x.issued = []
  accepted : x.accepted = []
  refused : x.refused = []

def OnTable : Event rest → Prop
  | .associateAddress .. | .removeAddress .. | .deliver _ | .purge _ => True
  | _ => False

/-- What calls on the table keep, from an established state on. -/
structure Converging (start x : Exchange rest) : Prop where
  routed : StaticUeAppLcmProxy.Routed x.proxy
  theNotificationUri : x.manager.theNotificationUri = start.manager.theNotificationUri
  contexts : ∀ contextId desc, x.proxy.theApplicationsByContextId.lookup contextId = some desc →
    ∃ before, start.proxy.theApplicationsByContextId.lookup contextId = some before ∧
      before.theAssociateUeAppId = desc.theAssociateUeAppId ∧
      before.theCallbackReference = desc.theCallbackReference
  known : ∀ ueAppId ∈ start.manager.theContexts, ueAppId ∈ x.manager.theContexts
  posts : ∀ post ∈ x.issued, post.uri ≠ "" ∧ ∃ before,
    start.proxy.theApplicationsByContextId.lookup post.contextId = some before ∧
    post.notification.callbackReference = before.theCallbackReference
  failed : ∀ thread ∈ x.threads, thread.failed = none
  refused : x.refused = []
  balance : x.issued.Perm (x.accepted ++ x.threads.flatMap Thread.remaining)
  source : ∀ contextId desc, x.proxy.theApplicationsByContextId.lookup contextId = some desc →
    desc.theEdgeRouterEndpoint ≠ "" → desc.theEdgeRouterEndpoint =
      Log.register Post.contextId Post.uri (managerUri start contextId) x.issued contextId
  replica : ∀ contextId before, start.proxy.theApplicationsByContextId.lookup contextId = some before →
    ∃ desc, x.manager.theContexts.lookup before.theAssociateUeAppId = some desc ∧ desc.theReferenceUri =
      Log.register Post.contextId Post.uri (managerUri start contextId) x.accepted contextId

theorem Established.converging (established : Established transport build x) : Converging x x := by
  refine ⟨established.reachable.routed,rfl,fun contextId desc live => ⟨desc,live,rfl,rfl⟩,fun _ member => member,
    by simp [established.issued],fun thread member => (established.quiescent.threads thread member).2,
    established.refused,?_,?_,?_⟩
  · have empty : x.threads.flatMap Thread.remaining = [] :=
      List.flatMap_eq_nil_iff.mpr fun thread member => (established.quiescent.threads thread member).1
    rw [established.issued,established.accepted,empty]
    exact .refl _
  · intro contextId desc live filled
    rw [established.issued,Log.register_untouched _ _ _ (by simp)]
    exact (established.current contextId desc live filled).symm
  · intro contextId before live
    obtain ⟨desc,found⟩ := KeyedMap.mem_iff_lookup.mp (established.known contextId before live)
    refine ⟨desc,found,?_⟩
    rw [established.accepted,Log.register_untouched _ _ _ (by simp),managerUri,live]
    simp [found]

section Step
variable {start : Exchange rest}

/-- A post that waits is valid and leads to an ID the manager knows. -/
theorem Converging.waiting (established : Established transport build start) (converging : Converging start x)
    {k : Nat} {post : Post} {others : List Post} (here : x.threads[k]? = some ⟨post :: others,none⟩) :
    post.uri ≠ "" ∧ transport.validate post.notification.callbackReference = true ∧ ∃ before,
      start.proxy.theApplicationsByContextId.lookup post.contextId = some before ∧
      addressee transport x.manager post.notification.callbackReference = some before.theAssociateUeAppId ∧
      before.theAssociateUeAppId ∈ x.manager.theContexts := by
  have issued : post ∈ x.issued := by
    apply converging.balance.mem_iff.mpr
    exact List.mem_append_right _ (List.mem_flatMap.mpr ⟨_,List.mem_of_getElem? here,List.mem_cons_self⟩)
  obtain ⟨filled,before,live,callback⟩ := converging.posts post issued
  have leads : before.theCallbackReference = x.manager.callbackReference before.theAssociateUeAppId := by
    rw [established.callback _ _ live,AppContextManager.callbackReference,AppContextManager.callbackReference,
      converging.theNotificationUri]
  have listens : transport.listens x.manager.theNotificationUri :=
    converging.theNotificationUri ▸ established.listens
  have plain := established.plain _ _ live
  rw [callback,leads]
  exact ⟨filled,transport.valid _ _ listens plain,before,live,addressee_callback listens plain,
    converging.known _ (established.known _ _ live)⟩

theorem Converging.released (converging : Converging start x) {address appName : String}
    {value : Option String} {list : NotificationList} {s : StaticUeAppLcmProxy rest}
    (changed : KeyedMap.view s.theTable =
      Function.update (KeyedMap.view x.proxy.theTable) ⟨address,appName⟩ value)
    (named : appName ≠ "") (filled : ∀ edgeRouter, value = some edgeRouter → edgeRouter ≠ "")
    (rerouted : StaticUeAppLcmProxy.Rerouted x.proxy s appName list) :
    Converging start { x with
      proxy := s
      threads := x.threads ++ [⟨list.map (Post.mk x.threads.length),none⟩]
      issued := x.issued ++ list.map (Post.mk x.threads.length) } := by
  refine ⟨rerouted.routed changed named filled converging.routed,converging.theNotificationUri,?_,
    converging.known,?_,?_,converging.refused,?_,?_,converging.replica⟩
  · intro contextId desc live
    rw [rerouted.contexts] at live
    obtain ⟨middle,there,rfl⟩ := Option.map_eq_some_iff.mp live
    obtain ⟨before,found,ueApp,callback⟩ := converging.contexts contextId middle there
    exact ⟨before,found,by simpa using ueApp,by simpa using callback⟩
  · intro post member
    rcases List.mem_append.mp member with old | new
    · exact converging.posts post old
    obtain ⟨elem,inside,rfl⟩ := List.mem_map.mp new
    obtain ⟨desc,live,told⟩ := (rerouted.notified elem).mp inside
    obtain ⟨_,_,given,equal⟩ := StaticUeAppLcmProxy.mem_refresh.mp told
    obtain ⟨before,found,_,callback⟩ := converging.contexts elem.contextId desc live
    refine ⟨?_,before,found,?_⟩
    · rw [Post.uri,equal]
      exact given
    · rw [callback,equal]
  · intro thread member
    rcases List.mem_append.mp member with old | new
    · exact converging.failed thread old
    · rw [List.mem_singleton.mp new]
  · rw [List.flatMap_append,List.flatMap_singleton,← List.append_assoc]
    exact converging.balance.append_right _
  · intro contextId desc live filled
    rw [Log.register_append]
    rcases rerouted.told live filled with ⟨elem,member,here,told⟩ | ⟨untold,before,there,same⟩
    · have distinct : ((list.map (Post.mk x.threads.length)).map Post.contextId).Nodup := by
        rw [List.map_map]
        exact rerouted.once
      have last : Log.last Post.contextId (list.map (Post.mk x.threads.length)) elem.contextId =
          some ⟨x.threads.length,elem⟩ :=
        Log.last_of_nodup Post.contextId distinct (List.mem_map.mpr ⟨elem,member,rfl⟩)
      subst here
      rw [Log.register_eq_of_last _ _ last]
      exact told.symm
    · rw [Log.register_untouched,← same]
      · exact converging.source contextId before there (same ▸ filled)
      · intro post member
        obtain ⟨elem,inside,rfl⟩ := List.mem_map.mp member
        exact untold elem inside

theorem Converging.accepted (established : Established transport build start) (converging : Converging start x)
    {k : Nat} {post : Post} {others : List Post} (here : x.threads[k]? = some ⟨post :: others,none⟩)
    {ueAppId : String} {desc : AppContextManager.Desc}
    (leads : addressee transport x.manager post.notification.callbackReference = some ueAppId)
    (known : x.manager.theContexts.lookup ueAppId = some desc) :
    Converging start { x with
      manager := x.manager.renewed ueAppId desc post.notification.referenceUri
      threads := x.threads.set k ⟨others,none⟩
      accepted := x.accepted ++ [post] } := by
  obtain ⟨_,_,context,live,leads',_⟩ := converging.waiting established here
  cases leads.symm.trans leads'
  refine ⟨converging.routed,converging.theNotificationUri,converging.contexts,?_,converging.posts,?_,
    converging.refused,?_,converging.source,?_⟩
  · intro other member
    rw [KeyedMap.mem_iff_lookup,AppContextManager.renewed,KeyedMap.lookup_insert_eq]
    split
    · exact ⟨_,rfl⟩
    · exact KeyedMap.mem_iff_lookup.mp (converging.known other member)
  · intro thread member
    rcases List.mem_or_eq_of_mem_set member with old | new
    · exact converging.failed thread old
    · rw [new]
  · refine converging.balance.trans ?_
    rw [List.append_assoc]
    exact (Log.perm_take here rfl).append_left _
  · intro contextId before found
    rw [Log.register_snoc,AppContextManager.renewed,KeyedMap.lookup_insert_eq]
    by_cases same : post.contextId = contextId
    · subst same
      cases live.symm.trans found
      exact ⟨_,if_pos rfl,by rw [if_pos rfl]; rfl⟩
    · -- another context has another ID on the side of the manager
      have apart : before.theAssociateUeAppId ≠ context.theAssociateUeAppId :=
        fun equal => same (established.distinct _ _ _ _ live found equal.symm)
      rw [if_neg apart,if_neg same]
      exact converging.replica contextId before found

theorem converging_step (established : Established transport build start) (converging : Converging start x)
    {event : Event rest} (onTable : OnTable event) (taken : step transport build x event = some y) :
    Converging start y := by
  cases step_transition converging.routed taken with
  | unchanged => exact converging
  | registry kind => cases event <;> contradiction
  | released kind changed named filled rerouted => exact converging.released changed named filled rerouted
  | skipped here invalid =>
    obtain ⟨filled,valid,_⟩ := converging.waiting established here
    rcases invalid with invalid | empty
    · simp [valid] at invalid
    · exact absurd empty filled
  | accepted here leads known => exact converging.accepted established here leads known
  | refused here unknown =>
    obtain ⟨_,_,_,_,leads,known⟩ := converging.waiting established here
    exact absurd known (unknown _ leads)
  | purgedNothing here gone =>
    have failed := converging.failed _ (List.mem_of_getElem? here)
    contradiction
  | purged here live =>
    have failed := converging.failed _ (List.mem_of_getElem? here)
    contradiction
  | declined => exact onTable.elim
  | created => exact onTable.elim
  | dropped => exact onTable.elim
  | stored => exact onTable.elim

theorem Established.run (established : Established transport build start) {events : List (Event rest)}
    (onTable : ∀ event ∈ events, OnTable event) (ran : Run.run (step transport build) start events = some x) :
    Converging start x := by
  exact Run.invariant (fun _ _ _ converging guard taken => converging_step established converging guard taken)
    established.converging (Run.along_of_mem onTable start) ran

/-- When the calls have finished, every post has been handled, none was refused, and the
manager has the endpoint of every context for which the last post handled is the last issued. -/
theorem manager_converges (transport : Transport) (build : Build) (start : Exchange rest)
    (established : Established transport build start) (events : List (Event rest))
    (onTable : ∀ event ∈ events, OnTable event) (x : Exchange rest)
    (ran : Run.run (step transport build) start events = some x) (quiescent : Quiescent x) :
    x.refused = [] ∧ x.issued.Perm x.accepted ∧
    ∀ contextId desc, x.proxy.theApplicationsByContextId.lookup contextId = some desc →
      desc.theEdgeRouterEndpoint ≠ "" →
      Log.last Post.contextId x.accepted contextId = Log.last Post.contextId x.issued contextId →
      x.manager.referenceUri desc.theAssociateUeAppId = .ok desc.theEdgeRouterEndpoint := by
  have converging := established.run onTable ran
  refine ⟨converging.refused,?_,?_⟩
  · have empty : x.threads.flatMap Thread.remaining = [] :=
      List.flatMap_eq_nil_iff.mpr fun thread member => (quiescent.threads thread member).1
    have balance := converging.balance
    rwa [empty,List.append_nil] at balance
  · intro contextId desc live filled same
    obtain ⟨before,found,ueApp,_⟩ := converging.contexts contextId desc live
    obtain ⟨stored,known,uri⟩ := converging.replica contextId before found
    rw [AppContextManager.referenceUri,← ueApp,known]
    dsimp only
    rw [uri,converging.source contextId desc live filled,Log.register_congr _ _ _ same]

end Step

/-! A context that a manager has created and stored. -/

def setupEvents : List (Event Rest.plain) :=
  [.addApp StaticUeAppLcmProxy.sampleApp,.associateAddress "" "app" "er1",
    .request "c1" "ue1" "client" StaticUeAppLcmProxy.sampleApp,.store 0]

def setup : Exchange Rest.plain :=
  (Run.run (step Transport.plain .debug) (start "http://ue" "http://proxy") setupEvents).get (by decide)

theorem setup_context (contextId : String) (desc : Desc)
    (live : setup.proxy.theApplicationsByContextId.lookup contextId = some desc) :
    contextId = "c1" ∧ desc = ⟨"ue1","http://ue/ue1","client","app","er1"⟩ := by
  have shape : setup.proxy.theApplicationsByContextId =
      AList.insert "c1" ⟨"ue1","http://ue/ue1","client","app","er1"⟩ ∅ := AList.ext (by decide)
  rw [shape,KeyedMap.lookup_insert_eq] at live
  split at live
  · rename_i same
    cases live
    exact ⟨same,rfl⟩
  · simp at live

theorem setup_established : Established Transport.plain .debug setup where
  reachable := run_proxy_reachable (start_reachable _ _) (Option.some_get (by decide)).symm
  listens := trivial
  plain contextId desc live := by
    obtain ⟨rfl,rfl⟩ := setup_context contextId desc live
    exact ⟨by decide,by simp⟩
  callback contextId desc live := by rcases setup_context contextId desc live with ⟨rfl,rfl⟩; decide
  known contextId desc live := by rcases setup_context contextId desc live with ⟨rfl,rfl⟩; decide
  current contextId desc live _ := by rcases setup_context contextId desc live with ⟨rfl,rfl⟩; decide
  distinct contextId other desc desc' live there _ := by
    rw [(setup_context contextId desc live).1,(setup_context other desc' there).1]
  quiescent := ⟨List.eq_nil_of_length_eq_zero (by decide),by decide⟩
  issued := by decide
  accepted := by decide
  refused := by decide

def afterSetup (events : List (Event Rest.plain))
    (defined : (Run.run (step Transport.plain .debug) setup events).isSome) : Exchange Rest.plain :=
  (Run.run (step Transport.plain .debug) setup events).get defined

def orderedEvents : List (Event Rest.plain) :=
  [.associateAddress "client" "app" "er2",.associateAddress "client" "app" "er3",.deliver 1,.deliver 2]

theorem ordered_converges :
    (afterSetup orderedEvents (by decide)).manager.referenceUri "ue1" = .ok "er3" := by
  have onTable : ∀ event ∈ orderedEvents, OnTable event := by simp [orderedEvents,OnTable]
  have converges := manager_converges Transport.plain .debug setup setup_established orderedEvents onTable
    (afterSetup orderedEvents (by decide)) (Option.some_get (by decide)).symm
    ⟨List.eq_nil_of_length_eq_zero (by decide),by decide⟩
  exact converges.2.2 "c1" ⟨"ue1","http://ue/ue1","client","app","er3"⟩ (by decide) (by decide) (by decide)

/-- The same two calls; the post of the first is handled last. -/
def crossedEvents : List (Event Rest.plain) :=
  [.associateAddress "client" "app" "er2",.associateAddress "client" "app" "er3",.deliver 2,.deliver 1]

theorem crossed_diverges :
    Established Transport.plain .debug setup ∧ (∀ event ∈ crossedEvents, OnTable event) ∧
    Run.run (step Transport.plain .debug) setup crossedEvents = some (afterSetup crossedEvents (by decide)) ∧
    Quiescent (afterSetup crossedEvents (by decide)) ∧
    (afterSetup crossedEvents (by decide)).proxy.theApplicationsByContextId.lookup "c1" =
      some ⟨"ue1","http://ue/ue1","client","app","er3"⟩ ∧
    (afterSetup crossedEvents (by decide)).manager.referenceUri "ue1" = .ok "er2" :=
  ⟨setup_established,by simp [crossedEvents,OnTable],(Option.some_get (by decide)).symm,
    ⟨List.eq_nil_of_length_eq_zero (by decide),by decide⟩,by decide,rfl⟩

end EtsiMec.Exchange
