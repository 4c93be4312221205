import EtsiMec.Convergence

/-! Creations in the middle of calls on the table. The manager stores an ID some time after
the proxy has created its context; a notification that comes in between is refused, and the
proxy then purges a context that the manager goes on to store. Where nothing is on its way,
the manager has stored the IDs the proxy holds and those it refused. -/
namespace EtsiMec.Exchange

open Effect

variable {rest : Rest} {transport : Transport} {build : Build} {x y : Exchange rest}

def Holds (x : Exchange rest) (ueAppId : String) : Prop :=
  ∃ contextId desc, x.proxy.theApplicationsByContextId.lookup contextId = some desc ∧
    desc.theAssociateUeAppId = ueAppId

def Refused (x : Exchange rest) (ueAppId : String) : Prop :=
  ∃ post ∈ x.refused, post.notification.callbackReference = x.manager.callbackReference ueAppId

def Useful (rest : Rest) (reply : InFlight) : Prop :=
  ∃ (response : AppContext rest) (uri : String),
    AppContextManager.Accepted rest reply.code reply.body response uri

def Known (x : Exchange rest) (ueAppId : String) : Prop :=
  ueAppId ∈ x.manager.theContexts ∨ ∃ reply ∈ x.replies, reply.ueAppId = ueAppId ∧ Useful rest reply

/-- What creations, calls on the table, deliveries and purges keep, in whatever order. -/
structure Coherent (x : Exchange rest) : Prop where
  routed : StaticUeAppLcmProxy.Routed x.proxy
  callback : ∀ contextId desc, x.proxy.theApplicationsByContextId.lookup contextId = some desc →
    desc.theCallbackReference = x.manager.callbackReference desc.theAssociateUeAppId
  distinct : ∀ contextId other desc desc', x.proxy.theApplicationsByContextId.lookup contextId = some desc →
    x.proxy.theApplicationsByContextId.lookup other = some desc' →
    desc.theAssociateUeAppId = desc'.theAssociateUeAppId → contextId = other
  held : ∀ contextId desc, x.proxy.theApplicationsByContextId.lookup contextId = some desc →
    Known x desc.theAssociateUeAppId
  kept : ∀ ueAppId, Known x ueAppId → Holds x ueAppId ∨ Refused x ueAppId
  issued : ∀ post ∈ x.issued, ∃ ueAppId,
    post.notification.callbackReference = x.manager.callbackReference ueAppId ∧ Known x ueAppId
  waiting : ∀ thread ∈ x.threads, ∀ post ∈ thread.remaining, post ∈ x.issued
  refused : ∀ post ∈ x.refused, post ∈ x.issued
  posted : ∀ post ∈ x.issued, ∀ contextId desc,
    x.proxy.theApplicationsByContextId.lookup contextId = some desc →
    (desc.theCallbackReference = post.notification.callbackReference ↔ contextId = post.contextId)
  failed : ∀ thread ∈ x.threads, ∀ contextId, thread.failed = some contextId →
    ∃ post ∈ x.refused, post.contextId = contextId
  purging : ∀ post ∈ x.refused, post.contextId ∈ x.proxy.theApplicationsByContextId →
    ∃ thread ∈ x.threads, thread.failed = some post.contextId

theorem callbackReference_inj {m : AppContextManager} {first second : String}
    (same : m.callbackReference first = m.callbackReference second) : first = second := by
  rw [AppContextManager.callbackReference,AppContextManager.callbackReference,← String.toList_inj] at same
  exact String.toList_inj.mp (by simpa using same)

theorem coherent_start (theNotificationUri theProxyUri : String) :
    Coherent (start theNotificationUri theProxyUri : Exchange rest) := by
  refine ⟨StaticUeAppLcmProxy.routed_empty,?_,?_,?_,?_,?_,?_,?_,?_,?_,?_⟩
  all_goals simp [start,StaticUeAppLcmProxy.empty,Known]

/-! ## One event -/

def Event.drawnContextId : Event rest → Option String
  | .request uuid _ _ _ => some uuid
  | _ => none

def Event.drawnUeAppId : Event rest → Option String
  | .request _ ueAppId _ _ => some ueAppId
  | _ => none

def UsesContextId (x : Exchange rest) (contextId : String) : Prop :=
  contextId ∈ x.proxy.theApplicationsByContextId ∨ ∃ post ∈ x.issued, post.contextId = contextId

def UsesUeAppId (x : Exchange rest) (ueAppId : String) : Prop :=
  ueAppId ∈ x.manager.theContexts ∨ ∃ reply ∈ x.replies, reply.ueAppId = ueAppId

structure Fresh (x : Exchange rest) (event : Event rest) : Prop where
  contextId : Run.Unused Event.drawnContextId UsesContextId x event
  ueAppId : Run.Unused Event.drawnUeAppId UsesUeAppId x event

theorem Known.used {ueAppId : String} (known : Known x ueAppId) : UsesUeAppId x ueAppId :=
  known.imp_right fun ⟨reply,member,same,_⟩ => ⟨reply,member,same⟩

theorem Coherent.released (coherent : Coherent x) {address appName : String} {value : Option String}
    {list : NotificationList} {s : StaticUeAppLcmProxy rest} (changed : KeyedMap.view s.theTable =
      Function.update (KeyedMap.view x.proxy.theTable) ⟨address,appName⟩ value)
    (named : appName ≠ "") (filled : ∀ edgeRouter, value = some edgeRouter → edgeRouter ≠ "")
    (rerouted : StaticUeAppLcmProxy.Rerouted x.proxy s appName list) :
    Coherent { x with
      proxy := s
      threads := x.threads ++ [⟨list.map (Post.mk x.threads.length),none⟩]
      issued := x.issued ++ list.map (Post.mk x.threads.length) } := by
  -- the contexts are the same, up to their endpoints
  have contexts : ∀ contextId desc, s.theApplicationsByContextId.lookup contextId = some desc → ∃ before,
      x.proxy.theApplicationsByContextId.lookup contextId = some before ∧
      before.theAssociateUeAppId = desc.theAssociateUeAppId ∧
      before.theCallbackReference = desc.theCallbackReference := by
    intro contextId desc live
    rw [rerouted.contexts] at live
    obtain ⟨before,there,rfl⟩ := Option.map_eq_some_iff.mp live
    exact ⟨before,there,by simp,by simp⟩
  have told : ∀ elem ∈ list, ∃ before,
      x.proxy.theApplicationsByContextId.lookup elem.contextId = some before ∧
      before.theCallbackReference = elem.callbackReference := by
    intro elem member
    obtain ⟨before,there,inside⟩ := (rerouted.notified elem).mp member
    exact ⟨before,there,by rw [(StaticUeAppLcmProxy.mem_refresh.mp inside).2.2.2]⟩
  refine ⟨rerouted.routed changed named filled coherent.routed,?_,?_,?_,?_,?_,?_,?_,?_,?_,?_⟩
  · intro contextId desc live
    obtain ⟨before,there,ueApp,callback⟩ := contexts contextId desc live
    rw [← callback,← ueApp]
    exact coherent.callback contextId before there
  · intro contextId other desc desc' live live' same
    obtain ⟨before,there,ueApp,_⟩ := contexts contextId desc live
    obtain ⟨before',there',ueApp',_⟩ := contexts other desc' live'
    exact coherent.distinct contextId other before before' there there' (by rw [ueApp,ueApp',same])
  · intro contextId desc live
    obtain ⟨before,there,ueApp,_⟩ := contexts contextId desc live
    exact ueApp ▸ coherent.held contextId before there
  · intro ueAppId known
    rcases coherent.kept ueAppId known with ⟨contextId,before,there,same⟩ | refused
    · obtain ⟨after,live,ueApp⟩ := rerouted.live there
      exact .inl ⟨contextId,after,live,ueApp.trans same⟩
    · exact .inr refused
  · intro post member
    rcases List.mem_append.mp member with old | new
    · exact coherent.issued post old
    obtain ⟨elem,inside,rfl⟩ := List.mem_map.mp new
    obtain ⟨before,there,callback⟩ := told elem inside
    exact ⟨_,callback.symm.trans (coherent.callback _ _ there),coherent.held _ _ there⟩
  · intro thread member post inside
    rcases List.mem_append.mp member with old | new
    · exact List.mem_append_left _ (coherent.waiting thread old post inside)
    · rw [List.mem_singleton.mp new] at inside
      exact List.mem_append_right _ inside
  · exact fun post member => List.mem_append_left _ (coherent.refused post member)
  · intro post member contextId desc live
    obtain ⟨before,there,ueApp,callback⟩ := contexts contextId desc live
    rw [← callback]
    rcases List.mem_append.mp member with old | new
    · exact coherent.posted post old contextId before there
    obtain ⟨elem,inside,rfl⟩ := List.mem_map.mp new
    obtain ⟨other,found,called⟩ := told elem inside
    change _ = elem.callbackReference ↔ contextId = elem.contextId
    rw [← called]
    constructor
    · intro same
      rw [coherent.callback _ _ there,coherent.callback _ _ found] at same
      exact coherent.distinct _ _ _ _ there found (callbackReference_inj same)
    · rintro rfl
      cases there.symm.trans found
      rfl
  · intro thread member contextId failed
    rcases List.mem_append.mp member with old | new
    · exact coherent.failed thread old contextId failed
    · rw [List.mem_singleton.mp new] at failed
      contradiction
  · intro post member live
    obtain ⟨thread,inside,failed⟩ := coherent.purging post member (rerouted.mem.mp live)
    exact ⟨thread,List.mem_append_left _ inside,failed⟩

/-- A thread goes on to its next post: what it was to purge is gone, or there was nothing. -/
theorem Coherent.advanced (coherent : Coherent x) {k : Nat} {thread : Thread} {others : List Post}
    (here : x.threads[k]? = some thread) (fewer : ∀ post ∈ others, post ∈ thread.remaining)
    (done : ∀ contextId, thread.failed = some contextId → contextId ∉ x.proxy.theApplicationsByContextId) :
    Coherent { x with threads := x.threads.set k ⟨others,none⟩ } := by
  refine ⟨coherent.routed,coherent.callback,coherent.distinct,coherent.held,coherent.kept,coherent.issued,?_,
    coherent.refused,coherent.posted,?_,?_⟩
  · intro other member post inside
    rcases List.mem_or_eq_of_mem_set member with old | rfl
    · exact coherent.waiting other old post inside
    · exact coherent.waiting thread (List.mem_of_getElem? here) post (fewer post inside)
  · intro other member contextId failed
    rcases List.mem_or_eq_of_mem_set member with old | rfl
    · exact coherent.failed other old contextId failed
    · contradiction
  · intro post member live
    obtain ⟨other,inside,failed⟩ := coherent.purging post member live
    refine ⟨other,Log.mem_set_other here inside ?_,failed⟩
    rintro rfl
    exact done _ failed live

/-- What the manager does leaves an exchange coherent if it knows the same IDs as before. -/
theorem Coherent.of_known (coherent : Coherent x) {m : AppContextManager} {replies : List InFlight}
    {log : List Post} (uri : m.theNotificationUri = x.manager.theNotificationUri)
    (same : ∀ ueAppId, Known { x with manager := m, replies := replies, accepted := log } ueAppId ↔
      Known x ueAppId) : Coherent { x with manager := m, replies := replies, accepted := log } := by
  have callbacks : ∀ ueAppId, m.callbackReference ueAppId = x.manager.callbackReference ueAppId := by
    intro ueAppId
    rw [AppContextManager.callbackReference,AppContextManager.callbackReference,uri]
  refine ⟨coherent.routed,?_,coherent.distinct,?_,?_,?_,coherent.waiting,coherent.refused,
    coherent.posted,coherent.failed,coherent.purging⟩
  · intro contextId desc live
    rw [callbacks]
    exact coherent.callback contextId desc live
  · exact fun contextId desc live => (same _).mpr (coherent.held contextId desc live)
  · intro ueAppId known
    rcases coherent.kept ueAppId ((same ueAppId).mp known) with holds | ⟨post,member,callback⟩
    · exact .inl holds
    · exact .inr ⟨post,member,callback.trans (callbacks ueAppId).symm⟩
  · intro post member
    obtain ⟨other,callback,known⟩ := coherent.issued post member
    exact ⟨other,callback.trans (callbacks other).symm,(same other).mpr known⟩

theorem known_renewed {ueAppId : String} {desc : AppContextManager.Desc}
    (known : x.manager.theContexts.lookup ueAppId = some desc) (uri : String) (log : List Post)
    (other : String) :
    Known { x with manager := x.manager.renewed ueAppId desc uri, accepted := log } other ↔ Known x other := by
  refine or_congr_left ?_
  change other ∈ (x.manager.renewed ueAppId desc uri).theContexts ↔ _
  rw [AppContextManager.renewed,AList.mem_insert,or_iff_right_of_imp]
  rintro rfl
  exact KeyedMap.lookup_some_mem known

/-- A reply that is of no use to the manager makes nothing known. -/
theorem known_useless {replies : List InFlight} (useful : ∀ reply, Useful rest reply →
    (reply ∈ replies ↔ reply ∈ x.replies)) (ueAppId : String) :
    Known { x with replies := replies } ueAppId ↔ Known x ueAppId := by
  refine or_congr_right (exists_congr fun reply => ?_)
  constructor
  · rintro ⟨member,same,use⟩
    exact ⟨(useful reply use).mp member,same,use⟩
  · rintro ⟨member,same,use⟩
    exact ⟨(useful reply use).mpr member,same,use⟩

theorem known_stored {k : Nat} {reply : InFlight} (here : x.replies[k]? = some reply) (use : Useful rest reply)
    (uri contextId : String) (ueAppId : String) :
    Known { x with
      manager := x.manager.stored reply.ueAppId uri contextId
      replies := x.replies.eraseIdx k } ueAppId ↔ Known x ueAppId := by
  have members : ∀ other, other ∈ (x.manager.stored reply.ueAppId uri contextId).theContexts ↔
      other = reply.ueAppId ∨ other ∈ x.manager.theContexts :=
    fun other => KeyedMap.mem_emplace reply.ueAppId other _ _
  constructor
  · rintro (stored | ⟨other,member,same,use'⟩)
    · rcases (members ueAppId).mp stored with rfl | old
      · exact .inr ⟨reply,List.mem_of_getElem? here,rfl,use⟩
      · exact .inl old
    · exact .inr ⟨other,List.mem_of_mem_eraseIdx member,same,use'⟩
  · rintro (stored | ⟨other,member,same,use'⟩)
    · exact .inl ((members ueAppId).mpr (.inr stored))
    · by_cases one : other = reply
      · subst one
        exact .inl ((members ueAppId).mpr (.inl same.symm))
      · exact .inr ⟨other,Log.mem_eraseIdx_other here member one,same,use'⟩

theorem Coherent.refuses (coherent : Coherent x) {k : Nat} {post : Post} {others : List Post}
    (here : x.threads[k]? = some ⟨post :: others,none⟩) :
    Coherent { x with
      threads := x.threads.set k ⟨others,some post.notification.contextId⟩
      refused := x.refused ++ [post] } := by
  have issued : post ∈ x.issued :=
    coherent.waiting _ (List.mem_of_getElem? here) post List.mem_cons_self
  refine ⟨coherent.routed,coherent.callback,coherent.distinct,coherent.held,?_,coherent.issued,?_,?_,
    coherent.posted,?_,?_⟩
  · intro ueAppId known
    rcases coherent.kept ueAppId known with holds | ⟨old,member,callback⟩
    · exact .inl holds
    · exact .inr ⟨old,List.mem_append_left _ member,callback⟩
  · intro thread member other inside
    rcases List.mem_or_eq_of_mem_set member with old | rfl
    · exact coherent.waiting thread old other inside
    · exact coherent.waiting _ (List.mem_of_getElem? here) other (List.mem_cons_of_mem _ inside)
  · intro other member
    rcases List.mem_append.mp member with old | new
    · exact coherent.refused other old
    · rw [List.mem_singleton.mp new]
      exact issued
  · intro thread member contextId failed
    rcases List.mem_or_eq_of_mem_set member with old | rfl
    · obtain ⟨cause,inside,same⟩ := coherent.failed thread old contextId failed
      exact ⟨cause,List.mem_append_left _ inside,same⟩
    · exact ⟨post,List.mem_append_right _ (List.mem_singleton.mpr rfl),Option.some.inj failed⟩
  · intro other member live
    rcases List.mem_append.mp member with old | new
    · obtain ⟨thread,inside,failed⟩ := coherent.purging other old live
      refine ⟨thread,Log.mem_set_other here inside ?_,failed⟩
      rintro rfl
      contradiction
    · rw [List.mem_singleton.mp new]
      exact ⟨_,Log.mem_set_self here,rfl⟩

theorem Coherent.purged (coherent : Coherent x) {k : Nat} {others : List Post} {contextId : String} {desc : Desc}
    (here : x.threads[k]? = some ⟨others,some contextId⟩)
    (live : x.proxy.theApplicationsByContextId.lookup contextId = some desc) :
    Coherent { x with proxy := StaticUeAppLcmProxy.erased x.proxy contextId desc } := by
  have left : ∀ other desc', (StaticUeAppLcmProxy.erased x.proxy contextId desc).theApplicationsByContextId.lookup
      other = some desc' → other ≠ contextId ∧ x.proxy.theApplicationsByContextId.lookup other = some desc' := by
    intro other desc' found
    rw [StaticUeAppLcmProxy.erased_lookup] at found
    split at found
    · contradiction
    · rename_i apart
      exact ⟨apart,found⟩
  refine ⟨coherent.routed.erased contextId desc,?_,?_,?_,?_,coherent.issued,coherent.waiting,coherent.refused,
    ?_,coherent.failed,?_⟩
  · exact fun other desc' found => coherent.callback other desc' (left other desc' found).2
  · exact fun first second desc' desc'' found found' =>
      coherent.distinct first second desc' desc'' (left _ _ found).2 (left _ _ found').2
  · exact fun other desc' found => coherent.held other desc' (left other desc' found).2
  · intro ueAppId known
    rcases coherent.kept ueAppId known with ⟨other,desc',found,same⟩ | refused
    · by_cases apart : other = contextId
      · -- the context is purged because of a refusal of a notification to this ID
        subst apart
        cases live.symm.trans found
        obtain ⟨post,member,cause⟩ := coherent.failed _ (List.mem_of_getElem? here) other rfl
        refine .inr ⟨post,member,?_⟩
        rw [← (coherent.posted post (coherent.refused post member) other desc live).mpr cause.symm,← same]
        exact coherent.callback other desc live
      · exact .inl ⟨other,desc',by rw [StaticUeAppLcmProxy.erased_lookup,if_neg apart,found],same⟩
    · exact .inr refused
  · exact fun post member other desc' found => coherent.posted post member other desc' (left other desc' found).2
  · intro post member found
    obtain ⟨desc',there⟩ := KeyedMap.mem_iff_lookup.mp found
    exact coherent.purging post member (KeyedMap.lookup_some_mem (left _ _ there).2)

theorem Coherent.created (coherent : Coherent x) {uuid ueAppId clientAddress edgeRouter : String}
    {info : AppInfo rest} (fresh : Fresh x (.request uuid ueAppId clientAddress info))
    {context response : AppContext rest} (made : x.manager.contextRequest ueAppId info = .ok context)
    (grants : StaticUeAppLcmProxy.Grants x.proxy clientAddress context edgeRouter)
    (answers : context.Answers response uuid edgeRouter) :
    Coherent { x with
      proxy := StaticUeAppLcmProxy.created x.proxy uuid clientAddress context edgeRouter
      replies := x.replies ++ [⟨ueAppId,StatusCode.created,response.toJson⟩] } := by
  obtain ⟨_,ueApp,callback,_⟩ := AppContextManager.contextRequest_proper made
  have unknown : ¬Known x ueAppId := fun known => fresh.ueAppId ueAppId rfl known.used
  have newId : uuid ∉ x.proxy.theApplicationsByContextId :=
    fun live => fresh.contextId uuid rfl (.inl live)
  have newPost : ∀ post ∈ x.issued, post.contextId ≠ uuid :=
    fun post member same => fresh.contextId uuid rfl (.inr ⟨post,member,same⟩)
  let y : Exchange rest := { x with
    proxy := StaticUeAppLcmProxy.created x.proxy uuid clientAddress context edgeRouter
    replies := x.replies ++ [⟨ueAppId,StatusCode.created,response.toJson⟩] }
  have use : Useful rest ⟨ueAppId,StatusCode.created,response.toJson⟩ :=
    ⟨response,edgeRouter,rfl,AppContext.ofJson_eq response,answers.kind,answers.message,answers.referenceUri⟩
  have known : ∀ other, Known y other ↔ Known x other ∨ other = ueAppId := by
    intro other
    simp only [Known,y,List.mem_append,List.mem_singleton,or_and_right,exists_or,exists_eq_left,or_assoc]
    refine or_congr_right (or_congr_right ?_)
    exact ⟨fun both => both.1.symm,fun same => ⟨same.symm,use⟩⟩
  -- a live context is the new one or one from before, which has another ID
  have contexts : ∀ contextId desc, y.proxy.theApplicationsByContextId.lookup contextId = some desc →
      (contextId = uuid ∧ desc.theAssociateUeAppId = ueAppId ∧
        desc.theCallbackReference = x.manager.callbackReference ueAppId) ∨
      (contextId ≠ uuid ∧ x.proxy.theApplicationsByContextId.lookup contextId = some desc) := by
    intro contextId desc live
    rw [StaticUeAppLcmProxy.created_lookup] at live
    split at live
    · rename_i new
      cases live
      exact .inl ⟨new.1,ueApp,callback⟩
    · rename_i old
      exact .inr ⟨fun same => old ⟨same,newId⟩,live⟩
  have kept : ∀ contextId desc, x.proxy.theApplicationsByContextId.lookup contextId = some desc →
      y.proxy.theApplicationsByContextId.lookup contextId = some desc := by
    intro contextId desc live
    simp only [y]
    rw [StaticUeAppLcmProxy.created_lookup,if_neg,live]
    rintro ⟨rfl,_⟩
    exact newId (KeyedMap.lookup_some_mem live)
  have others : ∀ contextId desc, x.proxy.theApplicationsByContextId.lookup contextId = some desc →
      desc.theAssociateUeAppId ≠ ueAppId := by
    rintro contextId desc live rfl
    exact unknown (coherent.held contextId desc live)
  change Coherent y
  refine ⟨coherent.routed.created grants uuid,?_,?_,?_,?_,?_,coherent.waiting,coherent.refused,?_,
    coherent.failed,?_⟩
  · intro contextId desc live
    rcases contexts contextId desc live with ⟨_,same,called⟩ | ⟨_,there⟩
    · rw [called,same]
    · exact coherent.callback contextId desc there
  · intro first second desc desc' live live' same
    rcases contexts first desc live with ⟨here,app,_⟩ | ⟨_,there⟩
    · rcases contexts second desc' live' with ⟨here',_,_⟩ | ⟨_,there'⟩
      · rw [here,here']
      · exact absurd (same.symm.trans app) (others _ _ there')
    · rcases contexts second desc' live' with ⟨_,app',_⟩ | ⟨_,there'⟩
      · exact absurd (same.trans app') (others _ _ there)
      · exact coherent.distinct first second desc desc' there there' same
  · intro contextId desc live
    rcases contexts contextId desc live with ⟨_,same,_⟩ | ⟨_,there⟩
    · exact (known _).mpr (.inr same)
    · exact (known _).mpr (.inl (coherent.held contextId desc there))
  · intro other knows
    rcases (known other).mp knows with old | rfl
    · rcases coherent.kept other old with ⟨contextId,desc,live,same⟩ | refused
      · exact .inl ⟨contextId,desc,kept contextId desc live,same⟩
      · exact .inr refused
    · exact .inl ⟨uuid,_,by
        simp only [y]
        rw [StaticUeAppLcmProxy.created_lookup,if_pos ⟨rfl,newId⟩],ueApp⟩
  · intro post member
    obtain ⟨other,called,knows⟩ := coherent.issued post member
    exact ⟨other,called,(known other).mpr (.inl knows)⟩
  · intro post member contextId desc live
    rcases contexts contextId desc live with ⟨rfl,_,called⟩ | ⟨_,there⟩
    · obtain ⟨other,leads,knows⟩ := coherent.issued post member
      refine iff_of_false ?_ fun same => newPost post member same.symm
      rw [called,leads]
      intro same
      exact unknown (callbackReference_inj same ▸ knows)
    · exact coherent.posted post member contextId desc there
  · intro post member live
    obtain ⟨desc,there⟩ := KeyedMap.mem_iff_lookup.mp live
    rcases contexts _ desc there with ⟨new,_⟩ | ⟨_,old⟩
    · exact absurd new (newPost post (coherent.refused post member))
    · exact coherent.purging post member (KeyedMap.lookup_some_mem old)

theorem coherent_step (coherent : Coherent x) {event : Event rest} (fresh : Fresh x event)
    (taken : step transport build x event = some y) : Coherent y := by
  cases step_transition coherent.routed taken with
  | unchanged => exact coherent
  | registry =>
    exact { coherent with routed := coherent.routed.registered _ }
  | released kind changed named filled rerouted => exact coherent.released changed named filled rerouted
  | skipped here invalid =>
    exact coherent.advanced here (fun _ member => List.mem_cons_of_mem _ member) (by simp)
  | @accepted k post others here _ desc leads known =>
    exact (coherent.advanced here (fun _ member => List.mem_cons_of_mem _ member) (by simp)).of_known rfl
      (known_renewed known post.notification.referenceUri (x.accepted ++ [post]))
  | refused here unknown => exact coherent.refuses here
  | purgedNothing here gone =>
    refine coherent.advanced here (fun _ member => member) ?_
    rintro _ ⟨⟩
    exact AList.lookup_eq_none.mp gone
  | purged here live =>
    refine (coherent.purged here live).advanced here (fun _ member => member) ?_
    rintro other ⟨⟩
    apply AList.lookup_eq_none.mp
    rw [StaticUeAppLcmProxy.erased_lookup,if_pos rfl]
  | declined addressed useless =>
    refine coherent.of_known rfl (known_useless fun reply use => ?_)
    obtain ⟨response,uri,accepted⟩ := use
    rw [List.mem_append,List.mem_singleton,or_iff_left_of_imp]
    rintro rfl
    exact absurd accepted (useless response uri)
  | created made grants answers => exact coherent.created fresh made grants answers
  | dropped here useless =>
    refine coherent.of_known rfl (known_useless fun reply use => ?_)
    obtain ⟨response,uri,accepted⟩ := use
    refine ⟨List.mem_of_mem_eraseIdx,fun member => Log.mem_eraseIdx_other here member ?_⟩
    rintro rfl
    exact useless response uri accepted
  | stored here accepted => exact coherent.of_known rfl (known_stored here ⟨_,_,accepted⟩ _ _)

/-! ## Fresh IDs -/

theorem routed_step (routed : StaticUeAppLcmProxy.Routed x.proxy) {event : Event rest}
    (taken : step transport build x event = some y) : StaticUeAppLcmProxy.Routed y.proxy := by
  rcases step_proxy taken with same | ⟨call,inner⟩
  · rw [same]
    exact routed
  · exact StaticUeAppLcmProxy.routed_step routed inner

/-- Only a creation brings a context ID into use, the one it drew. -/
theorem step_contextIds (routed : StaticUeAppLcmProxy.Routed x.proxy) {event : Event rest}
    (taken : step transport build x event = some y) {contextId : String} (used : UsesContextId y contextId) :
    UsesContextId x contextId ∨ event.drawnContextId = some contextId := by
  cases step_transition routed taken with
  | released kind changed named filled rerouted =>
    left
    rcases used with live | ⟨post,member,same⟩
    · exact .inl (rerouted.mem.mp live)
    rcases List.mem_append.mp member with old | new
    · exact .inr ⟨post,old,same⟩
    obtain ⟨elem,inside,rfl⟩ := List.mem_map.mp new
    obtain ⟨desc,there,_⟩ := (rerouted.notified elem).mp inside
    exact .inl (same ▸ KeyedMap.lookup_some_mem there)
  | purged here live =>
    left
    rcases used with left | issued
    · exact .inl (AList.mem_erase.mp left).2
    · exact .inr issued
  | created made grants answers =>
    rcases used with live | issued
    · rcases (KeyedMap.mem_emplace _ _ _ _).mp live with rfl | old
      · exact .inr rfl
      · exact .inl (.inl old)
    · exact .inl (.inr issued)
  | _ => exact .inl used

/-- Only a request brings a UE application ID into use, the one it drew. -/
theorem step_ueAppIds (routed : StaticUeAppLcmProxy.Routed x.proxy) {event : Event rest}
    (taken : step transport build x event = some y) {ueAppId : String} (used : UsesUeAppId y ueAppId) :
    UsesUeAppId x ueAppId ∨ event.drawnUeAppId = some ueAppId := by
  have answered : ∀ reply : InFlight, event.drawnUeAppId = some reply.ueAppId →
      (∃ other ∈ x.replies ++ [reply], other.ueAppId = ueAppId) →
      UsesUeAppId x ueAppId ∨ event.drawnUeAppId = some ueAppId := by
    rintro reply addressed ⟨other,member,rfl⟩
    rcases List.mem_append.mp member with old | new
    · exact .inl (.inr ⟨other,old,rfl⟩)
    · rw [List.mem_singleton.mp new]
      exact .inr addressed
  cases step_transition routed taken with
  | accepted here leads known =>
    left
    rcases used with stored | replied
    · rcases (AList.mem_insert _).mp stored with rfl | old
      · exact .inl (KeyedMap.lookup_some_mem known)
      · exact .inl old
    · exact .inr replied
  | declined addressed =>
    rcases used with stored | replied
    · exact .inl (.inl stored)
    · exact answered _ (congrArg some addressed.symm) replied
  | created made grants answers =>
    rcases used with stored | replied
    · exact .inl (.inl stored)
    · exact answered _ rfl replied
  | dropped =>
    left
    rcases used with stored | ⟨reply,member,same⟩
    · exact .inl stored
    · exact .inr ⟨reply,List.mem_of_mem_eraseIdx member,same⟩
  | stored here accepted =>
    left
    rcases used with stored | ⟨reply,member,same⟩
    · rcases (KeyedMap.mem_emplace _ _ _ _).mp stored with rfl | old
      · exact .inr ⟨_,List.mem_of_getElem? here,rfl⟩
      · exact .inl old
    · exact .inr ⟨reply,List.mem_of_mem_eraseIdx member,same⟩
  | _ => exact .inl used

structure FreshIds (events : List (Event rest)) : Prop where
  contextIds : (events.filterMap Event.drawnContextId).Nodup
  ueAppIds : (events.filterMap Event.drawnUeAppId).Nodup

theorem FreshIds.along {events : List (Event rest)} (fresh : FreshIds events)
    (theNotificationUri theProxyUri : String) :
    Run.Along (step transport build) Fresh (start theNotificationUri theProxyUri) events := by
  let first : Exchange rest := start theNotificationUri theProxyUri
  have kept : ∀ (x : Exchange rest) event y, StaticUeAppLcmProxy.Routed x.proxy →
      step transport build x event = some y → StaticUeAppLcmProxy.Routed y.proxy :=
    fun x event y routed taken => routed_step routed taken
  have contexts : Run.Along (step transport build) (fun x event => StaticUeAppLcmProxy.Routed x.proxy ∧
      Run.Unused Event.drawnContextId UsesContextId x event) first events := by
    refine Run.along_unused _ _ kept ?_ StaticUeAppLcmProxy.routed_empty fresh.contextIds ?_
    · exact fun x event y routed taken contextId => step_contextIds routed taken
    · simp [UsesContextId,first,start,StaticUeAppLcmProxy.empty]
  have ueApps : Run.Along (step transport build) (fun x event => StaticUeAppLcmProxy.Routed x.proxy ∧
      Run.Unused Event.drawnUeAppId UsesUeAppId x event) first events := by
    refine Run.along_unused _ _ kept ?_ StaticUeAppLcmProxy.routed_empty fresh.ueAppIds ?_
    · exact fun x event y routed taken ueAppId => step_ueAppIds routed taken
    · simp [UsesUeAppId,first,start]
  exact Run.along_imp (fun x event both => ⟨both.1.2,both.2.2⟩) (Run.along_and contexts ueApps)

/-! ## Where nothing is on its way -/

/-- A notification is delivered after the manager has stored the ID it is for. -/
def Timely (x : Exchange rest) (event : Event rest) : Prop :=
  ∀ k post others ueAppId, event = .deliver k → x.threads[k]? = some ⟨post :: others,none⟩ →
    post.notification.callbackReference = x.manager.callbackReference ueAppId →
    ueAppId ∈ x.manager.theContexts

theorem Known.stored_of_quiescent (quiescent : Quiescent x) {ueAppId : String}
    (known : Known x ueAppId) : ueAppId ∈ x.manager.theContexts := by
  rcases known with stored | ⟨reply,member,_⟩
  · exact stored
  · simp [quiescent.replies] at member

theorem Coherent.refused_known (coherent : Coherent x) {ueAppId : String} (refused : Refused x ueAppId) :
    Known x ueAppId := by
  obtain ⟨post,member,callback⟩ := refused
  obtain ⟨other,leads,known⟩ := coherent.issued post (coherent.refused post member)
  exact callbackReference_inj (leads.symm.trans callback) ▸ known

/-- A context with a refusal has been purged once no thread is to purge it. -/
theorem Coherent.refused_gone (coherent : Coherent x) (quiescent : Quiescent x) {ueAppId : String}
    (refused : Refused x ueAppId) : ¬Holds x ueAppId := by
  rintro ⟨contextId,desc,live,rfl⟩
  obtain ⟨post,member,callback⟩ := refused
  have same : contextId = post.contextId :=
    (coherent.posted post (coherent.refused post member) contextId desc live).mp
      ((coherent.callback contextId desc live).trans callback.symm)
  subst same
  obtain ⟨thread,inside,failed⟩ := coherent.purging post member (KeyedMap.lookup_some_mem live)
  simp [(quiescent.threads thread inside).2] at failed

/-- A timely notification is not refused. -/
theorem Coherent.timely (coherent : Coherent x) (listens : transport.listens x.manager.theNotificationUri)
    (plain : ∀ ueAppId, UsesUeAppId x ueAppId → Plain ueAppId) {event : Event rest} (timely : Timely x event)
    (taken : step transport build x event = some y) : y.refused = x.refused := by
  cases step_transition coherent.routed taken with
  | refused here unknown =>
    have issued := coherent.waiting _ (List.mem_of_getElem? here) _ List.mem_cons_self
    obtain ⟨ueAppId,callback,known⟩ := coherent.issued _ issued
    have stored := timely _ _ _ ueAppId rfl here callback
    refine absurd stored (unknown ueAppId ?_)
    rw [callback]
    exact addressee_callback listens (plain ueAppId known.used)
  | _ => rfl

theorem step_theNotificationUri (routed : StaticUeAppLcmProxy.Routed x.proxy) {event : Event rest}
    (taken : step transport build x event = some y) :
    y.manager.theNotificationUri = x.manager.theNotificationUri := by
  cases step_transition routed taken <;> rfl

section Runs
variable (transport : Transport) (build : Build) (theNotificationUri theProxyUri : String)
  (events : List (Event rest)) (fresh : FreshIds events)
include fresh

theorem coherent_run
    (ran : Run.run (step transport build) (start theNotificationUri theProxyUri) events = some x) :
    Coherent x :=
  Run.invariant (fun _ _ _ coherent fresh taken => coherent_step coherent fresh taken)
    (coherent_start theNotificationUri theProxyUri) (fresh.along theNotificationUri theProxyUri) ran

theorem timely_unrefused (listens : transport.listens theNotificationUri)
    (plain : ∀ event ∈ events, ∀ ueAppId, event.drawnUeAppId = some ueAppId → Plain ueAppId)
    (timely : Run.Along (step transport build) Timely (start theNotificationUri theProxyUri) events)
    (ran : Run.run (step transport build) (start theNotificationUri theProxyUri) events = some x) :
    x.refused = [] := by
  let prompt (x : Exchange rest) : Prop := Coherent x ∧ x.manager.theNotificationUri = theNotificationUri ∧
    (∀ ueAppId, UsesUeAppId x ueAppId → Plain ueAppId) ∧ x.refused = []
  let guard (x : Exchange rest) (event : Event rest) : Prop := (Fresh x event ∧ Timely x event) ∧
    ∀ ueAppId, event.drawnUeAppId = some ueAppId → Plain ueAppId
  have kept : ∀ x event y, prompt x → guard x event → step transport build x event = some y → prompt y := by
    rintro x event y ⟨coherent,uri,uses,none⟩ ⟨⟨fresh,timely⟩,plain⟩ taken
    refine ⟨coherent_step coherent fresh taken,(step_theNotificationUri coherent.routed taken).trans uri,?_,?_⟩
    · intro ueAppId used
      rcases step_ueAppIds coherent.routed taken used with old | drawn
      · exact uses ueAppId old
      · exact plain ueAppId drawn
    · exact (coherent.timely (uri ▸ listens) uses timely taken).trans none
  have along : Run.Along (step transport build) guard (start theNotificationUri theProxyUri) events :=
    Run.along_and (Run.along_and (fresh.along theNotificationUri theProxyUri) timely) (Run.along_of_mem plain _)
  have first : prompt (start theNotificationUri theProxyUri) :=
    ⟨coherent_start theNotificationUri theProxyUri,rfl,by simp [UsesUeAppId,start],rfl⟩
  exact (Run.invariant kept first along ran).2.2.2

/-- When nothing is on its way, the manager has stored the IDs of the contexts the proxy
holds and those of which a notification was refused, and no ID is both. If notifications are
delivered after their IDs are stored, none is refused. -/
theorem stored_iff_held_or_refused (x : Exchange rest)
    (ran : Run.run (step transport build) (start theNotificationUri theProxyUri) events = some x)
    (quiescent : Quiescent x) :
    (∀ ueAppId, ueAppId ∈ x.manager.theContexts ↔ Holds x ueAppId ∨ Refused x ueAppId) ∧
    (∀ ueAppId, Refused x ueAppId → ¬Holds x ueAppId) ∧
    (transport.listens theNotificationUri →
      (∀ event ∈ events, ∀ ueAppId, event.drawnUeAppId = some ueAppId → Plain ueAppId) →
      Run.Along (step transport build) Timely (start theNotificationUri theProxyUri) events →
      ∀ ueAppId, ueAppId ∈ x.manager.theContexts ↔ Holds x ueAppId) := by
  have coherent := coherent_run transport build theNotificationUri theProxyUri events fresh ran
  have exactly : ∀ ueAppId, ueAppId ∈ x.manager.theContexts ↔ Holds x ueAppId ∨ Refused x ueAppId := by
    intro ueAppId
    constructor
    · exact fun stored => coherent.kept ueAppId (.inl stored)
    · rintro (⟨contextId,desc,live,rfl⟩ | refused)
      · exact (coherent.held contextId desc live).stored_of_quiescent quiescent
      · exact (coherent.refused_known refused).stored_of_quiescent quiescent
  refine ⟨exactly,fun ueAppId refused => coherent.refused_gone quiescent refused,?_⟩
  intro listens plain timely ueAppId
  have none :=
    timely_unrefused transport build theNotificationUri theProxyUri events fresh listens plain timely ran
  rw [exactly,or_iff_left]
  simp [Refused,none]

end Runs

def storedFirst : List (Event Rest.plain) := setupEvents ++ [.associateAddress "client" "app" "er2",.deliver 1]

def afterStart (events : List (Event Rest.plain))
    (defined : (Run.run (step Transport.plain .debug) (start "http://ue" "http://proxy") events).isSome) :
    Exchange Rest.plain :=
  (Run.run (step Transport.plain .debug) (start "http://ue" "http://proxy") events).get defined

theorem storedFirst_commutes : "ue1" ∈ (afterStart storedFirst (by decide)).manager.theContexts ∧
    ¬Refused (afterStart storedFirst (by decide)) "ue1" := by
  obtain ⟨exactly,apart,_⟩ := stored_iff_held_or_refused Transport.plain .debug "http://ue" "http://proxy"
    storedFirst ⟨by decide,by decide⟩ (afterStart storedFirst (by decide)) (Option.some_get (by decide)).symm
    ⟨List.eq_nil_of_length_eq_zero (by decide),by decide⟩
  have holds : Holds (afterStart storedFirst (by decide)) "ue1" :=
    ⟨"c1",⟨"ue1","http://ue/ue1","client","app","er2"⟩,by decide,rfl⟩
  exact ⟨(exactly "ue1").mpr (.inl holds),fun refused => apart "ue1" refused holds⟩

/-- The notification of the new route is handled before the manager has stored the context. -/
def notifiedFirst : List (Event Rest.plain) :=
  [.addApp StaticUeAppLcmProxy.sampleApp,.associateAddress "" "app" "er1",
    .request "c1" "ue1" "client" StaticUeAppLcmProxy.sampleApp,.associateAddress "client" "app" "er2",
    .deliver 1,.purge 1,.store 0]

theorem notifiedFirst_diverges :
    FreshIds notifiedFirst ∧
    Run.run (step Transport.plain .debug) (start "http://ue" "http://proxy") notifiedFirst =
      some (afterStart notifiedFirst (by decide)) ∧
    Quiescent (afterStart notifiedFirst (by decide)) ∧
    "ue1" ∈ (afterStart notifiedFirst (by decide)).manager.theContexts ∧
    ¬Holds (afterStart notifiedFirst (by decide)) "ue1" := by
  refine ⟨⟨by decide,by decide⟩,(Option.some_get (by decide)).symm,
    ⟨List.eq_nil_of_length_eq_zero (by decide),by decide⟩,by decide,?_⟩
  have empty : (afterStart notifiedFirst (by decide)).proxy.theApplicationsByContextId = ∅ := AList.ext (by decide)
  rintro ⟨contextId,desc,live,_⟩
  simp [empty] at live

end EtsiMec.Exchange
