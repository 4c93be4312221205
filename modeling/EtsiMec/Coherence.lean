import EtsiMec.Managers
import EtsiMec.Notifications

/-! Managers that get their notifications. Between two requests each of them has stored the
contexts that were created for it and are still there, with the edge router that the table
has for the client. While a call is posting, the URIs that are not stored yet are the ones in
what is left of its list. -/
namespace EtsiMec.Deployment

open Effect

variable {rest : Rest} {transport : Transport} {build : Build} {x y : Deployment rest}

/-- A notification reaches the manager that has given the reference. -/
def Routes (recipient : Notification → Recipient) (x : Deployment rest) : Prop :=
  ∀ k m ueAppId elem, x.managers.lookup k = some m → ueAppId ∈ m.theContexts →
    elem.callbackReference = m.callbackReference ueAppId → recipient elem = .manager k

/-- The server of each manager runs, the IDs drawn are plain, and notifications arrive. -/
def Delivers (transport : Transport) (x : Deployment rest) : Event rest → Prop
  | .associateAddress _ _ _ recipient | .removeAddress _ _ recipient => Routes recipient x
  | .construct _ theNotificationUri _ => transport.listens theNotificationUri
  | .contextCreate _ _ ueAppId _ _ => Plain ueAppId
  | _ => True

structure Agreed (m : AppContextManager) (pending : NotificationList) (ueAppId : String)
    (stored : AppContextManager.Desc) (desc : Desc) : Prop where
  associated : desc.theAssociateUeAppId = ueAppId
  callback : desc.theCallbackReference = m.callbackReference ueAppId
  current : desc.theEdgeRouterEndpoint ≠ "" → stored.theReferenceUri = desc.theEdgeRouterEndpoint ∨
    ∃ elem ∈ pending, elem.contextId = stored.theContextId

structure Coherent (transport : Transport) (pending : NotificationList) (x : Deployment rest) : Prop where
  joint : Joint x
  listens : ∀ k m, x.managers.lookup k = some m → transport.listens m.theNotificationUri
  plain : ∀ k ueAppId contextId, Stores x k ueAppId contextId → Plain ueAppId
  agreed : ∀ k m ueAppId stored, x.managers.lookup k = some m → m.theContexts.lookup ueAppId = some stored →
    ∃ desc, x.proxy.theApplicationsByContextId.lookup stored.theContextId = some desc ∧
      Agreed m pending ueAppId stored desc
  waiting : ∀ elem ∈ pending, elem.referenceUri ≠ "" ∧ ∃ desc,
    x.proxy.theApplicationsByContextId.lookup elem.contextId = some desc ∧
    elem.callbackReference = desc.theCallbackReference ∧ elem.referenceUri = desc.theEdgeRouterEndpoint

theorem coherent_start : Coherent transport [] (start : Deployment rest) :=
  ⟨joint_start,by simp [start],by simp [start,Stores],by simp [start],by simp⟩

theorem stores_entry {k : Nat} {m : AppContextManager} {ueAppId : String} {stored : AppContextManager.Desc}
    (here : x.managers.lookup k = some m) (entry : m.theContexts.lookup ueAppId = some stored) :
    Stores x k ueAppId stored.theContextId :=
  ⟨m,here,by rw [AppContextManager.storedContextId,entry]; rfl⟩

/-- A context has one entry, in one manager. -/
theorem Coherent.entry_unique {pending : NotificationList} (coherent : Coherent transport pending x)
    {k other : Nat} {m n : AppContextManager} {ueAppId ueApp : String} {stored entry : AppContextManager.Desc}
    (here : x.managers.lookup k = some m) (first : m.theContexts.lookup ueAppId = some stored)
    (there : x.managers.lookup other = some n) (second : n.theContexts.lookup ueApp = some entry)
    (same : stored.theContextId = entry.theContextId) : k = other ∧ ueAppId = ueApp := by
  obtain ⟨desc,live,agreed⟩ := coherent.agreed k m ueAppId stored here first
  obtain ⟨_,again,agreed'⟩ := coherent.agreed other n ueApp entry there second
  rw [← same,live] at again
  cases again
  refine ⟨?_,agreed.associated.symm.trans agreed'.associated⟩
  exact coherent.joint.single k other _ (coherent.joint.stored k _ _ (stores_entry here first))
    (same ▸ coherent.joint.stored other _ _ (stores_entry there second))

/-! ## Notifications -/

/-- A notification that waits is accepted by the manager whose context it is about. -/
theorem Coherent.accepted {elem : Notification} {others : NotificationList}
    (coherent : Coherent transport (elem :: others) x) {recipient : Notification → Recipient}
    (routes : Routes recipient x) (taken : notifyClient transport build x elem (recipient elem) = some y) :
    ∃ k m ueAppId stored, x.managers.lookup k = some m ∧ m.theContexts.lookup ueAppId = some stored ∧
      stored.theContextId = elem.contextId ∧
      y = { x with managers := x.managers.insert k (m.renewed ueAppId stored elem.referenceUri) } := by
  obtain ⟨filled,desc,live,callback,_⟩ := coherent.waiting elem List.mem_cons_self
  obtain ⟨k,m,here,known⟩ := coherent.joint.owned elem.contextId desc live
  obtain ⟨stored,entry,same⟩ := Option.map_eq_some_iff.mp known
  obtain ⟨_,again,agreed⟩ := coherent.agreed k m _ stored here entry
  rw [same,live] at again
  cases again
  rw [agreed.callback] at callback
  have listens := coherent.listens k m here
  have plain := coherent.plain k _ _ (stores_entry here entry)
  have addressed := Exchange.addressee_callback listens plain
  rw [← callback] at addressed
  rw [routes k m _ elem here (KeyedMap.lookup_some_mem entry) callback] at taken
  unfold notifyClient receive at taken
  simp only [here] at taken
  cases delivered : Exchange.deliver transport build m elem with
  | error reason =>
    rw [delivered] at taken
    contradiction
  | ok delivery =>
    rw [delivered] at taken
    cases delivery with
    | skipped =>
      rcases Exchange.deliver_skipped delivered with invalid | empty
      · rw [callback,AppContextManager.callbackReference,transport.valid _ _ listens plain] at invalid
        contradiction
      · exact absurd empty filled
    | answered code n =>
      rcases Exchange.deliver_answered delivered with ⟨rfl,ueApp,before,last,found,rfl⟩ | ⟨_,_,unknown⟩
      · cases addressed.symm.trans last
        cases entry.symm.trans found
        refine ⟨k,m,_,stored,here,entry,same,?_⟩
        dsimp only at taken
        rw [Exchange.notifyClient_deliver delivered fun _ _ given => by cases given; rfl] at taken
        simpa [Exchange.followUp] using taken.symm
      · exact absurd (KeyedMap.lookup_some_mem entry) (unknown _ addressed)

/-- What it is accepted with is stored; the rest still waits. -/
theorem Coherent.notified {elem : Notification} {others : NotificationList}
    (coherent : Coherent transport (elem :: others) x) {recipient : Notification → Recipient}
    (routes : Routes recipient x) (taken : notifyClient transport build x elem (recipient elem) = some y) :
    Coherent transport others y ∧ Routes recipient y := by
  have joint := coherent.joint.notifyClient taken
  obtain ⟨k,m,ueAppId,stored,here,entry,about,rfl⟩ := coherent.accepted routes taken
  obtain ⟨filled,desc,live,_,uri⟩ := coherent.waiting elem List.mem_cons_self
  have stores := stores_replaced here (storedContextId_renewed entry elem.referenceUri)
  refine ⟨⟨joint,?_,?_,?_,?_⟩,?_⟩
  · intro other n there
    rw [KeyedMap.lookup_insert_eq] at there
    split at there
    · cases there
      exact coherent.listens k m here
    · exact coherent.listens other n there
  · exact fun other ueApp contextId kept => coherent.plain other ueApp contextId ((stores _ _ _).mp kept)
  · intro other n ueApp kept there found
    -- it was stored before, or this is the entry that is written
    have old : (other = k ∧ ueApp = ueAppId ∧ n = m.renewed ueAppId stored elem.referenceUri ∧
        kept = { stored with theReferenceUri := elem.referenceUri }) ∨
        ∃ before, x.managers.lookup other = some before ∧ before.theContexts.lookup ueApp = some kept ∧
          n.theNotificationUri = before.theNotificationUri ∧ ¬(other = k ∧ ueApp = ueAppId) := by
      rw [KeyedMap.lookup_insert_eq] at there
      split at there
      · rename_i same
        cases there
        rw [AppContextManager.renewed,KeyedMap.lookup_insert_eq] at found
        split at found
        · rename_i one
          cases found
          exact .inl ⟨same,one,rfl,rfl⟩
        · rename_i apart
          exact .inr ⟨m,same ▸ here,found,rfl,fun both => apart both.2⟩
      · rename_i apart
        exact .inr ⟨n,there,found,rfl,fun both => apart both.1⟩
    obtain ⟨_,again,agreed⟩ := coherent.agreed k m ueAppId stored here entry
    rcases old with ⟨rfl,rfl,rfl,rfl⟩ | ⟨before,mine,hers,same,apart⟩
    · rw [about,live] at again
      cases again
      exact ⟨desc,about ▸ live,agreed.associated,agreed.callback,fun _ => .inl uri⟩
    · obtain ⟨after,there,agreed⟩ := coherent.agreed other before ueApp kept mine hers
      refine ⟨after,there,agreed.associated,?_,fun given => ?_⟩
      · rw [agreed.callback,AppContextManager.callbackReference,AppContextManager.callbackReference,same]
      · rcases agreed.current given with stays | ⟨late,member,for_⟩
        · exact .inl stays
        rcases List.mem_cons.mp member with rfl | later
        · exact absurd (coherent.entry_unique mine hers here entry (for_.symm.trans about.symm)) apart
        · exact .inr ⟨late,later,for_⟩
  · exact fun late later => coherent.waiting late (List.mem_cons_of_mem _ later)
  · intro other n ueApp late there known given
    rw [KeyedMap.lookup_insert_eq] at there
    split at there
    · rename_i same
      cases there
      refine routes other m ueApp late (same ▸ here) ?_ given
      rcases (AList.mem_insert _).mp known with rfl | old
      · exact KeyedMap.lookup_some_mem entry
      · exact old
    · exact routes other n ueApp late there known given

theorem Coherent.notifyClients {pending : NotificationList} (coherent : Coherent transport pending x)
    {recipient : Notification → Recipient} (routes : Routes recipient x)
    (taken : notifyClients transport build recipient x pending = some y) : Coherent transport [] y := by
  induction pending generalizing x with
  | nil =>
    cases taken
    exact coherent
  | cons elem others ih =>
    obtain ⟨middle,first,later⟩ := Option.bind_eq_some_iff.mp taken
    obtain ⟨kept,routed⟩ := coherent.notified routes first
    exact ih kept routed later

/-- A section leaves the entries as they are; what it makes of the endpoints is in its list. -/
theorem Coherent.rerouted (coherent : Coherent transport [] x) {s : StaticUeAppLcmProxy rest}
    (routed : StaticUeAppLcmProxy.Routed s) {appName : String} {list : NotificationList}
    (rerouted : StaticUeAppLcmProxy.Rerouted x.proxy s appName list) :
    Coherent transport list { x with proxy := s } := by
  refine ⟨coherent.joint.rerouted routed rerouted,coherent.listens,coherent.plain,?_,?_⟩
  · intro k m ueAppId stored here entry
    obtain ⟨desc,live,agreed⟩ := coherent.agreed k m ueAppId stored here entry
    have after : s.theApplicationsByContextId.lookup stored.theContextId =
        some (StaticUeAppLcmProxy.refresh s.theTable appName stored.theContextId desc).1 := by
      rw [rerouted.contexts,live]
      rfl
    refine ⟨_,after,by simpa using agreed.associated,by simpa using agreed.callback,fun filled => ?_⟩
    rcases rerouted.told after filled with ⟨elem,member,about,_⟩ | ⟨_,before,there,same⟩
    · exact .inr ⟨elem,member,about⟩
    · cases live.symm.trans there
      rw [← same] at filled ⊢
      exact .inl ((agreed.current filled).resolve_right (by simp))
  · intro elem member
    obtain ⟨before,after,_,now,_,filled,equal⟩ := (rerouted.exact.exact elem).mp member
    have uri : elem.referenceUri = after.theEdgeRouterEndpoint := congrArg Notification.referenceUri equal
    exact ⟨uri ▸ filled,after,now,congrArg Notification.callbackReference equal,uri⟩

theorem Coherent.release (coherent : Coherent transport [] x)
    {p : Program (StaticUeAppLcmProxy rest) Exception NotificationList} (atomic : Program.Atomic p)
    (reroutes : ∀ list s, p x.proxy = .returned list s → Coherent transport list { x with proxy := s })
    {recipient : Notification → Recipient} (routes : Routes recipient x)
    (taken : release transport build recipient x (p x.proxy) = some y) : Coherent transport [] y := by
  cases ran : p x.proxy with
  | returned list s =>
    rw [ran] at taken
    exact (reroutes list s ran).notifyClients routes taken
  | threw error s =>
    rw [ran] at taken
    cases taken
    rw [atomic _ error s ran]
    exact coherent
  | halted reason =>
    rw [ran] at taken
    contradiction

/-! ## Other events -/

/-- A change of the proxy that leaves its contexts. -/
theorem Coherent.registered (coherent : Coherent transport [] x) (theApplications : Registry rest) :
    Coherent transport [] { x with proxy := { x.proxy with theApplications := theApplications } } :=
  ⟨coherent.joint.registered theApplications,coherent.listens,coherent.plain,coherent.agreed,by simp⟩

/-- A manager that has stored nothing yet. -/
theorem Coherent.constructed (coherent : Coherent transport [] x) (joint : Joint y) {k : Nat}
    {theNotificationUri theProxyUri : String} (listens : transport.listens theNotificationUri)
    (made : y = { x with managers := x.managers.insert k ⟨theNotificationUri,theProxyUri,∅⟩ }) :
    Coherent transport [] y := by
  subst made
  refine ⟨joint,?_,?_,?_,by simp⟩
  · intro other n there
    rw [KeyedMap.lookup_insert_eq] at there
    split at there
    · cases there
      exact listens
    · exact coherent.listens other n there
  · intro other ueAppId contextId stores
    rw [stores_insert] at stores
    split at stores
    · simp [AppContextManager.storedContextId] at stores
    · exact coherent.plain other ueAppId contextId stores
  · intro other n ueAppId stored there entry
    rw [KeyedMap.lookup_insert_eq] at there
    split at there
    · cases there
      simp at entry
    · exact coherent.agreed other n ueAppId stored there entry

/-- A creation that failed leaves the manager it was for. -/
theorem Coherent.unchanged (coherent : Coherent transport [] x) {k : Nat} {m : AppContextManager}
    (here : x.managers.lookup k = some m) (joint : Joint { x with managers := x.managers.insert k m }) :
    Coherent transport [] { x with managers := x.managers.insert k m } := by
  have same : ∀ other, (x.managers.insert k m).lookup other = x.managers.lookup other := by
    intro other
    rw [KeyedMap.lookup_insert_eq]
    split
    · rename_i equal
      rw [equal,here]
    · rfl
  refine ⟨joint,?_,?_,?_,by simp⟩
  · exact fun other n there => coherent.listens other n (same other ▸ there)
  · exact fun other ueAppId contextId stores =>
      coherent.plain other ueAppId contextId ((stores_replaced here (fun _ => rfl) _ _ _).mp stores)
  · exact fun other n ueAppId stored there entry =>
      coherent.agreed other n ueAppId stored (same other ▸ there) entry

/-- A creation that was granted adds an entry and the context it is for. -/
theorem Coherent.created (coherent : Coherent transport [] x) {k : Nat} {m n : AppContextManager}
    (here : x.managers.lookup k = some m) {t : StaticUeAppLcmProxy rest}
    {uuid ueAppId clientAddress appName edgeRouter : String} (plain : Plain ueAppId)
    (unknown : uuid ∉ x.proxy.theApplicationsByContextId)
    (established : AppContextManager.Established x.proxy t m n uuid ueAppId clientAddress appName edgeRouter)
    (joint : Joint ⟨t,x.managers.insert k n,x.created ++ [(k,uuid)]⟩) :
    Coherent transport [] ⟨t,x.managers.insert k n,x.created ++ [(k,uuid)]⟩ := by
  -- the contexts that were there are what they were
  have kept : ∀ contextId desc, x.proxy.theApplicationsByContextId.lookup contextId = some desc →
      t.theApplicationsByContextId.lookup contextId = some desc := by
    intro contextId desc live
    rw [established.context,if_neg,live]
    rintro rfl
    exact unknown (KeyedMap.lookup_some_mem live)
  refine ⟨joint,?_,?_,?_,by simp⟩
  · intro other n' there
    rw [KeyedMap.lookup_insert_eq] at there
    split at there
    · cases there
      exact established.theNotificationUri ▸ coherent.listens k m here
    · exact coherent.listens other n' there
  · intro other ueApp contextId stores
    rw [stores_insert] at stores
    split at stores
    · rw [AppContextManager.storedContextId,established.stored] at stores
      split at stores
      · rename_i drawn
        exact drawn ▸ plain
      · exact coherent.plain k ueApp contextId ⟨m,here,stores⟩
    · exact coherent.plain other ueApp contextId stores
  · intro other n' ueApp stored there entry
    rw [KeyedMap.lookup_insert_eq] at there
    split at there
    · cases there
      have refers : ∀ id, n.callbackReference id = m.callbackReference id := by
        simp [AppContextManager.callbackReference,established.theNotificationUri]
      rw [established.stored] at entry
      split at entry
      · rename_i drawn
        cases entry
        refine ⟨_,by rw [established.context,if_pos rfl],drawn.symm,?_,fun _ => .inl rfl⟩
        rw [refers,drawn]
        rfl
      · obtain ⟨desc,live,agreed⟩ := coherent.agreed k m ueApp stored here entry
        exact ⟨desc,kept _ desc live,agreed.associated,(refers ueApp).symm ▸ agreed.callback,agreed.current⟩
    · obtain ⟨desc,live,agreed⟩ := coherent.agreed other n' ueApp stored there entry
      exact ⟨desc,kept _ desc live,agreed⟩

/-- A manager takes its contexts with it and leaves the others theirs. -/
theorem Coherent.destroyed (coherent : Coherent transport [] x) {k : Nat} {s : StaticUeAppLcmProxy rest}
    (erased : StaticUeAppLcmProxy.Erased (fun contextId => ∃ ueAppId, Stores x k ueAppId contextId) x.proxy s)
    (joint : Joint { x with proxy := s, managers := x.managers.erase k }) :
    Coherent transport [] { x with proxy := s, managers := x.managers.erase k } := by
  have remains : ∀ other n, (x.managers.erase k).lookup other = some n →
      other ≠ k ∧ x.managers.lookup other = some n := by
    intro other n there
    rw [KeyedMap.lookup_erase_eq] at there
    split at there
    · contradiction
    · rename_i apart
      exact ⟨apart,there⟩
  refine ⟨joint,?_,?_,?_,by simp⟩
  · exact fun other n there => coherent.listens other n (remains other n there).2
  · rintro other ueAppId contextId ⟨n,there,stored⟩
    exact coherent.plain other ueAppId contextId ⟨n,(remains other n there).2,stored⟩
  · intro other n ueAppId stored there entry
    obtain ⟨apart,there⟩ := remains other n there
    obtain ⟨desc,live,agreed⟩ := coherent.agreed other n ueAppId stored there entry
    refine ⟨desc,?_,agreed⟩
    rw [erased.kept stored.theContextId,live]
    rintro ⟨ueApp,m,here,known⟩
    obtain ⟨gone,first,same⟩ := Option.map_eq_some_iff.mp known
    exact apart (coherent.entry_unique there entry here first same.symm).1

/-! ## Runs -/

theorem coherent_step {event : Event rest} (coherent : Coherent transport [] x) (fresh : Fresh x event)
    (delivers : Delivers transport x event) (taken : step transport build x event = some y) :
    Coherent transport [] y := by
  have joint := joint_step coherent.joint fresh taken
  cases event with
  | addApp info | delApp info =>
    cases taken
    exact coherent.registered _
  | associateAddress address appName edgeRouter recipient =>
    refine coherent.release (StaticUeAppLcmProxy.associateSection_atomic address appName edgeRouter) ?_ delivers taken
    intro list s ran
    obtain ⟨_,_,_,rerouted⟩ := StaticUeAppLcmProxy.associateSection_reroutes coherent.joint.routed ran
    exact coherent.rerouted (coherent.joint.routed.afterAssociate ran) rerouted
  | removeAddress address appName recipient =>
    refine coherent.release (StaticUeAppLcmProxy.removeSection_atomic address appName) ?_ delivers taken
    intro list s ran
    obtain ⟨_,_,rerouted⟩ := StaticUeAppLcmProxy.removeSection_reroutes coherent.joint.routed ran
    exact coherent.rerouted (coherent.joint.routed.afterRemove ran) rerouted
  | construct k theNotificationUri theProxyUri =>
    simp only [step] at taken
    split at taken
    · contradiction
    · cases taken
      exact coherent.constructed joint delivers rfl
  | contextCreate k uuid ueAppId clientAddress info =>
    simp only [step] at taken
    split at taken
    · contradiction
    rename_i m here
    obtain ⟨sides,left,rfl⟩ := Option.map_eq_some_iff.mp taken
    have unknown := coherent.joint.unknown (fresh.contextId uuid rfl)
    have unused := fresh.ueAppId ueAppId rfl
    rcases AppContextManager.contextCreate_outcome transport build coherent.joint.routed clientAddress info
      (fun blank => fresh.filled.1 (congrArg some blank)) unknown
      (fun blank => fresh.filled.2 (congrArg some blank)) (coherent.joint.unindexed unused)
      (fun known => unused ⟨k,stores_of_mem here known⟩)
      with ⟨error,ran⟩ | ⟨edgeRouter,t,n,routed,ran,established⟩
    · rw [ran] at left
      cases left
      simp only [if_neg unknown] at joint ⊢
      exact coherent.unchanged here joint
    · rw [ran] at left
      cases left
      have live : uuid ∈ t.theApplicationsByContextId :=
        KeyedMap.lookup_some_mem (by rw [established.context,if_pos rfl])
      simp only [if_pos live] at joint ⊢
      exact coherent.created here delivers unknown established joint
  | destroy k =>
    simp only [step] at taken
    split at taken
    · contradiction
    rename_i m here
    obtain ⟨s,destroyed,erased⟩ := coherent.joint.destroyed here transport build
    simp only [step,here] at destroyed
    cases destroyed.symm.trans taken
    exact coherent.destroyed erased joint

theorem coherent_run {events : List (Event rest)} (fresh : FreshIds events)
    (delivers : Run.Along (step transport build) (Delivers transport) start events)
    (ran : Run.run (step transport build) start events = some x) : Coherent transport [] x :=
  Run.invariant (fun _ _ _ coherent both taken => coherent_step coherent both.1 both.2 taken) coherent_start
    (Run.along_and fresh.along delivers) ran

/-- Where all notifications arrive, each manager knows, between two requests, exactly the live
contexts that were created for it, and for each of them the edge router that the table has. -/
theorem managers_current (transport : Transport) (build : Build) (events : List (Event rest))
    (fresh : FreshIds events) (delivers : Run.Along (step transport build) (Delivers transport) start events)
    (x : Deployment rest) (ran : Run.run (step transport build) start events = some x) (k : Nat)
    (m : AppContextManager) (here : x.managers.lookup k = some m) :
    (∀ ueAppId contextId, m.storedContextId ueAppId = some contextId ↔ (k,contextId) ∈ x.created ∧ ∃ desc,
      x.proxy.theApplicationsByContextId.lookup contextId = some desc ∧ desc.theAssociateUeAppId = ueAppId) ∧
    ∀ contextId desc edgeRouter, (k,contextId) ∈ x.created →
      x.proxy.theApplicationsByContextId.lookup contextId = some desc →
      StaticUeAppLcmProxy.find build x.proxy.theTable desc.theClientAddress desc.theAppName =
        .ok (some edgeRouter) →
      m.referenceUri desc.theAssociateUeAppId = .ok edgeRouter := by
  have coherent := coherent_run fresh delivers ran
  have joint := coherent.joint
  constructor
  · intro ueAppId contextId
    constructor
    · intro known
      have stores : Stores x k ueAppId contextId := ⟨m,here,known⟩
      obtain ⟨stored,entry,rfl⟩ := Option.map_eq_some_iff.mp known
      obtain ⟨desc,live,agreed⟩ := coherent.agreed k m ueAppId stored here entry
      exact ⟨joint.stored k _ _ stores,desc,live,agreed.associated⟩
    · rintro ⟨created,desc,live,rfl⟩
      obtain ⟨other,stored⟩ := joint.owned contextId desc live
      cases joint.single k other contextId created (joint.stored other _ contextId stored)
      exact (stores_of_lookup here _ _).mp stored
  · intro contextId desc edgeRouter created live found
    obtain ⟨other,stored⟩ := joint.owned contextId desc live
    cases joint.single k other contextId created (joint.stored other _ contextId stored)
    obtain ⟨entry,known,same⟩ := Option.map_eq_some_iff.mp ((stores_of_lookup here _ _).mp stored)
    obtain ⟨_,again,agreed⟩ := coherent.agreed k m _ entry here known
    rw [same,live] at again
    cases again
    rw [StaticUeAppLcmProxy.find_eq (joint.routed.named contextId desc live)] at found
    have endpoint : desc.theEdgeRouterEndpoint = edgeRouter := by
      rw [joint.routed.endpoint contextId desc live,StaticUeAppLcmProxy.endpointOf,Except.ok.inj found]
      rfl
    have filled := StaticUeAppLcmProxy.route_filled joint.routed.filled (Except.ok.inj found)
    have current := (agreed.current (endpoint ▸ filled)).resolve_right (by simp)
    rw [AppContextManager.referenceUri,known,← endpoint,← current]

/-- Notifications go by their references alone. -/
theorem routes_of_references {network : String → Recipient}
    (reaches : ∀ entry ∈ x.managers.entries, ∀ known ∈ entry.2.theContexts.entries,
      network (entry.2.callbackReference known.1) = .manager entry.1) :
    Routes (fun elem => network elem.callbackReference) x := by
  intro k m ueAppId elem here known given
  obtain ⟨stored,entry⟩ := KeyedMap.mem_iff_lookup.mp known
  dsimp only
  rw [given]
  exact reaches ⟨k,m⟩ (KeyedMap.mem_entries.mpr here) ⟨ueAppId,stored⟩ (KeyedMap.mem_entries.mpr entry)

def sampleNetwork (callbackReference : String) : Recipient :=
  if callbackReference = "http://first/ue1" then .manager 1 else .manager 2

def sampleDeliveries : List (Event Rest.plain) :=
  [.addApp StaticUeAppLcmProxy.sampleApp,
    .associateAddress "" "app" "er1" fun elem => sampleNetwork elem.callbackReference,
    .construct 1 "http://first" "http://proxy",.construct 2 "http://second" "http://proxy",
    .contextCreate 1 "c1" "ue1" "client" StaticUeAppLcmProxy.sampleApp,
    .contextCreate 2 "c2" "ue2" "client" StaticUeAppLcmProxy.sampleApp,
    .associateAddress "client" "app" "er2" fun elem => sampleNetwork elem.callbackReference]

theorem sample_delivers : Run.Along (step Transport.plain .debug) (Delivers Transport.plain) start
    (sampleDeliveries ++ [.destroy 1]) := by
  refine ⟨trivial,fun t taken => ?_⟩
  cases taken
  refine ⟨routes_of_references (by simp [start]),fun t taken => ?_⟩
  cases taken
  refine ⟨trivial,fun t taken => ?_⟩
  cases taken
  refine ⟨trivial,fun t taken => ?_⟩
  cases taken
  refine ⟨⟨by decide,by simp⟩,fun t taken => ?_⟩
  cases taken
  refine ⟨⟨by decide,by simp⟩,fun t taken => ?_⟩
  cases taken
  refine ⟨routes_of_references ?_,fun _ _ => ⟨trivial,fun _ _ => trivial⟩⟩
  intro entry member known inside
  fin_cases member
  · fin_cases inside
    rfl
  · fin_cases inside
    rfl

def delivered : Deployment Rest.plain :=
  (Run.run (step Transport.plain .debug) start sampleDeliveries).get (by decide)

theorem sample_delivered : Run.run (step Transport.plain .debug) start sampleDeliveries = some delivered :=
  (Option.some_get _).symm

theorem sample_current : ∃ m, delivered.managers.lookup 2 = some m ∧
    (∀ ueAppId contextId, m.storedContextId ueAppId = some contextId ↔ (2,contextId) ∈ delivered.created ∧
      ∃ desc, delivered.proxy.theApplicationsByContextId.lookup contextId = some desc ∧
        desc.theAssociateUeAppId = ueAppId) ∧
    ∃ desc, delivered.proxy.theApplicationsByContextId.lookup "c2" = some desc ∧
      m.referenceUri desc.theAssociateUeAppId = .ok "er2" := by
  obtain ⟨m,here⟩ := Option.isSome_iff_exists.mp (show (delivered.managers.lookup 2).isSome by decide)
  obtain ⟨exactly,current⟩ := managers_current Transport.plain .debug sampleDeliveries
    ⟨by decide,by decide,by decide⟩ (Run.along_append sample_delivers sample_delivered).1 delivered
    sample_delivered 2 m here
  have live := (Option.some_get (show (delivered.proxy.theApplicationsByContextId.lookup "c2").isSome by decide)).symm
  refine ⟨m,here,exactly,_,live,current "c2" _ "er2" (by decide) live ?_⟩
  rw [StaticUeAppLcmProxy.find_eq (by decide)]
  exact congrArg Except.ok (by decide)

/-! ## What is not lost -/

theorem notifyClients_stores {recipient : Notification → Recipient} {list : NotificationList}
    (taken : notifyClients transport build recipient x list = some y) (k : Nat) (ueAppId contextId : String) :
    Stores y k ueAppId contextId ↔ Stores x k ueAppId contextId := by
  induction list generalizing x with
  | nil =>
    cases taken
    rfl
  | cons elem others ih =>
    obtain ⟨middle,first,later⟩ := Option.bind_eq_some_iff.mp taken
    rw [ih later]
    unfold notifyClient at first
    split at first
    · contradiction
    rename_i result managers received
    obtain ⟨s,left,rfl⟩ := Option.map_eq_some_iff.mp first
    exact stores_received received k ueAppId contextId

theorem release_stores {p : Program (StaticUeAppLcmProxy rest) Exception NotificationList}
    {recipient : Notification → Recipient} (taken : release transport build recipient x (p x.proxy) = some y)
    (k : Nat) (ueAppId contextId : String) : Stores y k ueAppId contextId ↔ Stores x k ueAppId contextId := by
  cases ran : p x.proxy with
  | returned list s =>
    rw [ran] at taken
    exact @notifyClients_stores _ _ _ { x with proxy := s } _ _ _ taken k ueAppId contextId
  | threw error s =>
    rw [ran] at taken
    cases taken
    rfl
  | halted reason =>
    rw [ran] at taken
    contradiction

/-- What a manager has stored it forgets in its destruction only. -/
theorem step_stores {event : Event rest} (taken : step transport build x event = some y) {k : Nat}
    (kept : event ≠ .destroy k) {ueAppId contextId : String} (stores : Stores x k ueAppId contextId) :
    Stores y k ueAppId contextId := by
  cases event with
  | addApp info | delApp info =>
    cases taken
    exact stores
  | associateAddress address appName edgeRouter recipient =>
    exact (release_stores taken k ueAppId contextId).mpr stores
  | removeAddress address appName recipient => exact (release_stores taken k ueAppId contextId).mpr stores
  | construct other theNotificationUri theProxyUri =>
    simp only [step] at taken
    split at taken
    · contradiction
    rename_i absent
    cases taken
    rw [stores_insert,if_neg]
    · exact stores
    rintro rfl
    obtain ⟨m,here,_⟩ := stores
    exact absent (KeyedMap.lookup_some_mem here)
  | contextCreate other uuid drawn clientAddress info =>
    simp only [step] at taken
    split at taken
    · contradiction
    rename_i m here
    obtain ⟨sides,left,rfl⟩ := Option.map_eq_some_iff.mp taken
    rw [stores_insert]
    split
    · rename_i same
      subst same
      rw [stores_of_lookup here] at stores
      rcases AppContextManager.contextCreate_left left with same | ⟨uri,id,same⟩
      · rw [same]
        exact stores
      · obtain ⟨entry,found,_⟩ := Option.map_eq_some_iff.mp stores
        rw [same,AppContextManager.storedContextId,AppContextManager.stored,KeyedMap.lookup_emplace,if_neg]
        · exact stores
        rintro ⟨rfl,absent⟩
        exact absent (KeyedMap.lookup_some_mem found)
    · exact stores
  | destroy other =>
    simp only [step] at taken
    split at taken
    · contradiction
    obtain ⟨s,left,rfl⟩ := Option.map_eq_some_iff.mp taken
    obtain ⟨m,here,stored⟩ := stores
    refine ⟨m,?_,stored⟩
    rw [KeyedMap.lookup_erase_eq,if_neg,here]
    rintro rfl
    exact kept rfl

/-- Where all notifications arrive, a context lives as long as its manager: no notification
is refused, so none has it purged. -/
theorem contexts_outlive (transport : Transport) (build : Build) (events later : List (Event rest))
    (fresh : FreshIds (events ++ later))
    (delivers : Run.Along (step transport build) (Delivers transport) start (events ++ later))
    (x y : Deployment rest) (first : Run.run (step transport build) start events = some x)
    (second : Run.run (step transport build) x later = some y) (k : Nat) (contextId : String)
    (created : (k,contextId) ∈ x.created) (live : contextId ∈ x.proxy.theApplicationsByContextId)
    (kept : ∀ event ∈ later, event ≠ .destroy k) : contextId ∈ y.proxy.theApplicationsByContextId := by
  obtain ⟨before,after⟩ := Run.along_append (Run.along_and fresh.along delivers) first
  have coherent : Coherent transport [] x := Run.invariant
    (fun _ _ _ coherent both taken => coherent_step coherent both.1 both.2 taken) coherent_start before first
  obtain ⟨desc,found⟩ := KeyedMap.mem_iff_lookup.mp live
  obtain ⟨ueAppId,stores⟩ := (coherent.joint.stores_iff found).mpr created
  obtain ⟨coherent,m,here,known⟩ : Coherent transport [] y ∧ Stores y k ueAppId contextId := by
    have both : ∀ (y : Deployment rest) event z, (Coherent transport [] y ∧ Stores y k ueAppId contextId) →
        (Fresh y event ∧ Delivers transport y event) ∧ event ≠ .destroy k → step transport build y event = some z →
        Coherent transport [] z ∧ Stores z k ueAppId contextId :=
      fun _ _ _ before guard taken => ⟨coherent_step before.1 guard.1.1 guard.1.2 taken,
        step_stores taken guard.2 before.2⟩
    exact Run.invariant both ⟨coherent,stores⟩ (Run.along_and after (Run.along_of_mem kept x)) second
  obtain ⟨entry,inside,rfl⟩ := Option.map_eq_some_iff.mp known
  obtain ⟨desc,live,_⟩ := coherent.agreed k m ueAppId entry here inside
  exact KeyedMap.lookup_some_mem live

/-- The other manager is destroyed. -/
theorem sample_outlives : ∃ y, Run.run (step Transport.plain .debug) delivered [.destroy 1] = some y ∧
    "c2" ∈ y.proxy.theApplicationsByContextId := by
  obtain ⟨y,ran⟩ := Option.isSome_iff_exists.mp
    (show (Run.run (step Transport.plain .debug) delivered [.destroy 1]).isSome by decide +kernel)
  exact ⟨y,ran,contexts_outlive Transport.plain .debug sampleDeliveries [.destroy 1]
    ⟨by decide,by decide,by decide⟩ sample_delivers delivered y sample_delivered ran 2 "c2" (by decide) (by decide)
    (by simp)⟩

end EtsiMec.Deployment
