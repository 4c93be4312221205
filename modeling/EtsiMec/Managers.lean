import EtsiMec.Handshake
import EtsiMec.Transitions
import EtsiMec.Purging

/-! The proxy and any number of managers, one request after the other: a call on the table
posts its notifications, and purges, before the next request comes in. A manager that is
destroyed deletes the contexts it has stored. -/
namespace EtsiMec

open Effect

namespace AppContextManager

/-- A DELETE, of which the handler reads only the path. -/
def deleteRequest (contextId : String) : HttpRequest :=
  ⟨"",UeAppLcmProxy.contextsPrefix ++ contextId,.ok .null⟩

/-- The loop of the destructor: what the proxy answers is only logged. -/
def closeContexts (build : Build) : List (Σ _ : String, Desc) →
    Program (StaticUeAppLcmProxy rest) Exception Unit
  | [] => pure ()
  | elem :: others => do
    Program.catchAll (StaticUeAppLcmProxy.handleContextDelete build (deleteRequest elem.2.theContextId))
    closeContexts build others

def storedContextId (m : AppContextManager) (ueAppId : String) : Option String :=
  (m.theContexts.lookup ueAppId).map Desc.theContextId

end AppContextManager

inductive Recipient where
  | manager (k : Nat)
  | elsewhere (result : StaticUeAppLcmProxy.PostResult)

/-- The managers by number; `created` only records which of them got which context created. -/
structure Deployment (rest : Rest) where
  proxy : StaticUeAppLcmProxy rest
  managers : KeyedMap Nat AppContextManager
  created : List (Nat × String)

namespace Deployment

inductive Event (rest : Rest) where
  | addApp (info : AppInfo rest)
  | delApp (info : AppInfo rest)
  | associateAddress (address appName edgeRouter : String) (recipient : Notification → Recipient)
  | removeAddress (address appName : String) (recipient : Notification → Recipient)
  | construct (k : Nat) (theNotificationUri theProxyUri : String)
  | contextCreate (k : Nat) (uuid ueAppId clientAddress : String) (info : AppInfo rest)
  | destroy (k : Nat)

def start : Deployment rest := ⟨StaticUeAppLcmProxy.empty,∅,[]⟩

section
variable (transport : Transport) (build : Build)

/-- What the sender of a POST sees, and the managers after it; where nothing is posted it
does not matter what it would see. -/
def receive (x : Deployment rest) (elem : Notification) :
    Recipient → Except Halt (StaticUeAppLcmProxy.PostResult × KeyedMap Nat AppContextManager)
  | .elsewhere result => .ok (result,x.managers)
  | .manager k =>
    match x.managers.lookup k with
    | none => .ok (.failed,x.managers)
    | some m =>
      match Exchange.deliver transport build m elem with
      | .error reason => .error reason
      | .ok .skipped => .ok (.failed,x.managers)
      | .ok (.answered code n) => .ok (.status code,x.managers.insert k n)

def notifyClient (x : Deployment rest) (elem : Notification) (recipient : Recipient) :
    Option (Deployment rest) :=
  match receive transport build x elem recipient with
  | .error _ => none
  | .ok (result,managers) =>
    (StaticUeAppLcmProxy.notifyClient build transport.validate (fun _ => result) elem x.proxy).state?.map
      fun s => { x with proxy := s, managers := managers }

def notifyClients (recipient : Notification → Recipient) (x : Deployment rest) :
    NotificationList → Option (Deployment rest)
  | [] => some x
  | elem :: others => (notifyClient transport build x elem (recipient elem)).bind fun y =>
      notifyClients recipient y others

/-- A call on the table leaves its section and posts its list. -/
def release (recipient : Notification → Recipient) (x : Deployment rest) :
    Outcome (StaticUeAppLcmProxy rest) Exception NotificationList → Option (Deployment rest)
  | .returned list s => notifyClients transport build recipient { x with proxy := s } list
  | .threw _ s => some { x with proxy := s }
  | .halted _ => none

def step (x : Deployment rest) : Event rest → Option (Deployment rest)
  | .addApp info =>
    (StaticUeAppLcmProxy.onRegistry (UeAppLcmProxy.addApp info) x.proxy).state?.map fun s =>
      { x with proxy := s }
  | .delApp info =>
    (StaticUeAppLcmProxy.onRegistry (UeAppLcmProxy.delApp info) x.proxy).state?.map fun s =>
      { x with proxy := s }
  | .associateAddress address appName edgeRouter recipient =>
    release transport build recipient x
      (StaticUeAppLcmProxy.associateSection build address appName edgeRouter x.proxy)
  | .removeAddress address appName recipient =>
    release transport build recipient x (StaticUeAppLcmProxy.removeSection build address appName x.proxy)
  | .construct k theNotificationUri theProxyUri =>
    if k ∈ x.managers then none
    else some { x with managers := x.managers.insert k ⟨theNotificationUri,theProxyUri,∅⟩ }
  | .contextCreate k uuid ueAppId clientAddress info =>
    match x.managers.lookup k with
    | none => none
    | some m =>
      (AppContextManager.contextCreate transport build uuid ueAppId clientAddress info (x.proxy,m)).state?.map
        fun sides =>
          { proxy := sides.1
            managers := x.managers.insert k sides.2
            created := if uuid ∈ sides.1.theApplicationsByContextId then x.created ++ [(k,uuid)] else x.created }
  | .destroy k =>
    match x.managers.lookup k with
    | none => none
    | some m =>
      (AppContextManager.closeContexts build m.theContexts.entries x.proxy).state?.map fun s =>
        { x with proxy := s, managers := x.managers.erase k }

end

variable {rest : Rest} {transport : Transport} {build : Build} {x y : Deployment rest}

/-! ## The joint invariant -/

def Stores (x : Deployment rest) (k : Nat) (ueAppId contextId : String) : Prop :=
  ∃ m, x.managers.lookup k = some m ∧ m.storedContextId ueAppId = some contextId

theorem stores_of_lookup {k : Nat} {m : AppContextManager} (here : x.managers.lookup k = some m)
    (ueAppId contextId : String) : Stores x k ueAppId contextId ↔ m.storedContextId ueAppId = some contextId := by
  constructor
  · rintro ⟨_,there,stored⟩
    cases here.symm.trans there
    exact stored
  · exact fun stored => ⟨m,here,stored⟩

theorem stores_of_mem {k : Nat} {m : AppContextManager} (here : x.managers.lookup k = some m) {ueAppId : String}
    (known : ueAppId ∈ m.theContexts) : ∃ contextId, Stores x k ueAppId contextId := by
  obtain ⟨desc,found⟩ := KeyedMap.mem_iff_lookup.mp known
  exact ⟨desc.theContextId,m,here,by rw [AppContextManager.storedContextId,found]; rfl⟩

/-- Each live context is stored, under its UE application ID, by the manager it was created for. -/
structure Joint (x : Deployment rest) : Prop where
  routed : StaticUeAppLcmProxy.Routed x.proxy
  bijective : StaticUeAppLcmProxy.Bijective x.proxy
  owned : ∀ contextId desc, x.proxy.theApplicationsByContextId.lookup contextId = some desc →
    ∃ k, Stores x k desc.theAssociateUeAppId contextId
  stored : ∀ k ueAppId contextId, Stores x k ueAppId contextId → (k,contextId) ∈ x.created
  single : ∀ k other contextId, (k,contextId) ∈ x.created → (other,contextId) ∈ x.created → k = other

theorem joint_start : Joint (start : Deployment rest) :=
  ⟨StaticUeAppLcmProxy.routed_empty,⟨by simp [start,StaticUeAppLcmProxy.empty],
    StaticUeAppLcmProxy.indexed_empty⟩,by simp [start,StaticUeAppLcmProxy.empty],by simp [start,Stores],
    by simp [start]⟩

/-- What brings in no context, and stores nothing else, keeps the invariant. -/
theorem Joint.narrowed (joint : Joint x) (routed : StaticUeAppLcmProxy.Routed y.proxy)
    (bijective : StaticUeAppLcmProxy.Bijective y.proxy)
    (live : ∀ contextId desc, y.proxy.theApplicationsByContextId.lookup contextId = some desc → ∃ before,
      x.proxy.theApplicationsByContextId.lookup contextId = some before ∧
      before.theAssociateUeAppId = desc.theAssociateUeAppId)
    (stores : ∀ k ueAppId contextId, Stores y k ueAppId contextId ↔ Stores x k ueAppId contextId)
    (created : y.created = x.created) : Joint y := by
  refine ⟨routed,bijective,?_,?_,?_⟩
  · intro contextId desc found
    obtain ⟨before,there,same⟩ := live contextId desc found
    obtain ⟨k,stored⟩ := joint.owned contextId before there
    exact ⟨k,(stores k _ contextId).mpr (same ▸ stored)⟩
  · intro k ueAppId contextId stored
    rw [created]
    exact joint.stored k ueAppId contextId ((stores k ueAppId contextId).mp stored)
  · rw [created]
    exact joint.single

/-- A change of the proxy alone. -/
theorem Joint.proxied (joint : Joint x) {s : StaticUeAppLcmProxy rest} (routed : StaticUeAppLcmProxy.Routed s)
    (bijective : StaticUeAppLcmProxy.Bijective s)
    (live : ∀ contextId desc, s.theApplicationsByContextId.lookup contextId = some desc → ∃ before,
      x.proxy.theApplicationsByContextId.lookup contextId = some before ∧
      before.theAssociateUeAppId = desc.theAssociateUeAppId) : Joint { x with proxy := s } :=
  joint.narrowed routed bijective live (fun _ _ _ => Iff.rfl) rfl

theorem Joint.erased (joint : Joint x) {s : StaticUeAppLcmProxy rest} {gone : String → Prop}
    (erased : StaticUeAppLcmProxy.Erased gone x.proxy s) : Joint { x with proxy := s } := by
  refine joint.proxied (erased.routed joint.routed) (erased.bijective joint.bijective) ?_
  intro contextId desc found
  by_cases removed : gone contextId
  · rw [erased.removed contextId removed] at found
    contradiction
  · rw [erased.kept contextId removed] at found
    exact ⟨desc,found,rfl⟩

theorem Joint.registered (joint : Joint x) (theApplications : Registry rest) :
    Joint { x with proxy := { x.proxy with theApplications := theApplications } } :=
  joint.proxied (joint.routed.registered _) ⟨joint.bijective.points,joint.bijective.live⟩
    fun _ desc found => ⟨desc,found,rfl⟩

theorem Joint.rerouted (joint : Joint x) {s : StaticUeAppLcmProxy rest} (routed : StaticUeAppLcmProxy.Routed s)
    {appName : String} {list : NotificationList}
    (rerouted : StaticUeAppLcmProxy.Rerouted x.proxy s appName list) : Joint { x with proxy := s } := by
  refine joint.proxied routed (joint.bijective.rerouted rerouted) ?_
  intro contextId desc found
  rw [rerouted.contexts] at found
  obtain ⟨before,there,rfl⟩ := Option.map_eq_some_iff.mp found
  exact ⟨before,there,by simp⟩

theorem stores_insert {k other : Nat} {n : AppContextManager} {s : StaticUeAppLcmProxy rest}
    {log : List (Nat × String)} {ueAppId contextId : String} :
    Stores (⟨s,x.managers.insert k n,log⟩ : Deployment rest) other ueAppId contextId ↔
      if other = k then n.storedContextId ueAppId = some contextId else Stores x other ueAppId contextId := by
  simp only [Stores,KeyedMap.lookup_insert_eq]
  by_cases one : other = k
  · rw [if_pos one,if_pos one]
    exact ⟨fun ⟨_,here,stored⟩ => Option.some.inj here ▸ stored,fun stored => ⟨n,rfl,stored⟩⟩
  · rw [if_neg one,if_neg one]

/-- A manager that is replaced by one that has stored the same. -/
theorem stores_replaced {k : Nat} {m n : AppContextManager} (here : x.managers.lookup k = some m)
    (same : ∀ ueAppId, n.storedContextId ueAppId = m.storedContextId ueAppId) (other : Nat)
    (ueAppId contextId : String) :
    Stores { x with managers := x.managers.insert k n } other ueAppId contextId ↔
      Stores x other ueAppId contextId := by
  rw [stores_insert]
  by_cases one : other = k
  · subst one
    rw [if_pos rfl,same,stores_of_lookup here]
  · rw [if_neg one]

/-- A change of the managers that leaves what they have stored. -/
theorem Joint.managed (joint : Joint x) {managers : KeyedMap Nat AppContextManager}
    (stores : ∀ k ueAppId contextId, Stores { x with managers := managers } k ueAppId contextId ↔
      Stores x k ueAppId contextId) : Joint { x with managers := managers } :=
  joint.narrowed joint.routed joint.bijective (fun _ desc found => ⟨desc,found,rfl⟩) stores rfl

/-! ## Notifications -/

theorem storedContextId_renewed {m : AppContextManager} {ueAppId : String} {desc : AppContextManager.Desc}
    (known : m.theContexts.lookup ueAppId = some desc) (uri other : String) :
    (m.renewed ueAppId desc uri).storedContextId other = m.storedContextId other := by
  rw [AppContextManager.storedContextId,AppContextManager.renewed,KeyedMap.lookup_insert_eq]
  split
  · rename_i same
    rw [same,AppContextManager.storedContextId,known]
    rfl
  · rfl

/-- Answering a notification, a manager keeps the context IDs it has stored. -/
theorem stores_received {elem : Notification} {recipient : Recipient}
    {result : StaticUeAppLcmProxy.PostResult} {managers : KeyedMap Nat AppContextManager}
    (received : receive transport build x elem recipient = .ok (result,managers)) (other : Nat)
    (ueAppId contextId : String) : Stores { x with managers := managers } other ueAppId contextId ↔
      Stores x other ueAppId contextId := by
  cases recipient with
  | elsewhere other =>
    cases received
    rfl
  | manager k =>
    unfold receive at received
    dsimp only at received
    split at received
    · cases received
      rfl
    rename_i m here
    split at received
    · contradiction
    · cases received
      rfl
    · rename_i code n answered
      cases received
      rcases Exchange.deliver_answered answered with ⟨_,ueApp,desc,_,known,rfl⟩ | ⟨_,rfl,_⟩
      · exact stores_replaced here (storedContextId_renewed known elem.referenceUri) _ _ _
      · exact stores_replaced here (fun _ => rfl) _ _ _

theorem Joint.notifyClient (joint : Joint x) {elem : Notification} {recipient : Recipient}
    (taken : notifyClient transport build x elem recipient = some y) : Joint y := by
  unfold Deployment.notifyClient at taken
  split at taken
  · contradiction
  rename_i result managers received
  obtain ⟨s,left,rfl⟩ := Option.map_eq_some_iff.mp taken
  obtain ⟨_,ran⟩ := (StaticUeAppLcmProxy.notifyClient_silent _).state? left
  have erased := @StaticUeAppLcmProxy.notifyClient_erases _ _ _ _ _ (elem,result) ran
  exact (joint.managed (stores_received received)).erased erased

theorem Joint.notifyClients (joint : Joint x) {recipient : Notification → Recipient} {list : NotificationList}
    (taken : notifyClients transport build recipient x list = some y) : Joint y := by
  induction list generalizing x with
  | nil =>
    cases taken
    exact joint
  | cons elem others ih =>
    obtain ⟨middle,first,later⟩ := Option.bind_eq_some_iff.mp taken
    exact ih (joint.notifyClient first) later

theorem Joint.release (joint : Joint x) {p : Program (StaticUeAppLcmProxy rest) Exception NotificationList}
    (atomic : Program.Atomic p) (reroutes : ∀ list s, p x.proxy = .returned list s → Joint { x with proxy := s })
    {recipient : Notification → Recipient}
    (taken : release transport build recipient x (p x.proxy) = some y) : Joint y := by
  cases ran : p x.proxy with
  | returned list s =>
    rw [ran] at taken
    exact (reroutes list s ran).notifyClients taken
  | threw error s =>
    rw [ran] at taken
    cases taken
    rw [atomic _ error s ran]
    exact joint
  | halted reason =>
    rw [ran] at taken
    contradiction

/-! ## Creations -/

def Event.drawnContextId : Event rest → Option String
  | .contextCreate _ uuid _ _ _ => some uuid
  | _ => none

def Event.drawnUeAppId : Event rest → Option String
  | .contextCreate _ _ ueAppId _ _ => some ueAppId
  | _ => none

def UsesContextId (x : Deployment rest) (contextId : String) : Prop := ∃ k, (k,contextId) ∈ x.created

def UsesUeAppId (x : Deployment rest) (ueAppId : String) : Prop := ∃ k contextId, Stores x k ueAppId contextId

structure Fresh (x : Deployment rest) (event : Event rest) : Prop where
  contextId : Run.Unused Event.drawnContextId UsesContextId x event
  ueAppId : Run.Unused Event.drawnUeAppId UsesUeAppId x event
  filled : event.drawnContextId ≠ some "" ∧ event.drawnUeAppId ≠ some ""

theorem Joint.unknown (joint : Joint x) {uuid : String} (new : ¬UsesContextId x uuid) :
    uuid ∉ x.proxy.theApplicationsByContextId := by
  intro live
  obtain ⟨desc,found⟩ := KeyedMap.mem_iff_lookup.mp live
  obtain ⟨k,stored⟩ := joint.owned uuid desc found
  exact new ⟨k,joint.stored k _ uuid stored⟩

theorem Joint.unindexed (joint : Joint x) {ueAppId : String} (new : ¬UsesUeAppId x ueAppId) :
    ueAppId ∉ x.proxy.theApplicationsByUeAppId := by
  intro indexed
  obtain ⟨contextId,entry⟩ := KeyedMap.mem_iff_lookup.mp indexed
  obtain ⟨desc,live,rfl⟩ := joint.bijective.live ueAppId contextId entry
  obtain ⟨k,stored⟩ := joint.owned contextId desc live
  exact new ⟨k,contextId,stored⟩

theorem Joint.established (joint : Joint x) {k : Nat} {m n : AppContextManager}
    (here : x.managers.lookup k = some m) {t : StaticUeAppLcmProxy rest}
    {uuid ueAppId clientAddress appName edgeRouter : String} (named : appName ≠ "")
    (routed : StaticUeAppLcmProxy.route x.proxy.theTable clientAddress appName = some edgeRouter)
    (new : ¬UsesContextId x uuid) (fresh : ¬UsesUeAppId x ueAppId)
    (established : AppContextManager.Established x.proxy t m n uuid ueAppId clientAddress appName edgeRouter) :
    Joint ⟨t,x.managers.insert k n,x.created ++ [(k,uuid)]⟩ := by
  have unknown := joint.unknown new
  have knows : ∀ other, n.storedContextId other =
      if other = ueAppId then some uuid else m.storedContextId other := by
    intro other
    rw [AppContextManager.storedContextId,established.stored]
    split <;> rfl
  have unstored : m.storedContextId ueAppId = none := by
    cases known : m.storedContextId ueAppId with
    | none => rfl
    | some contextId => exact absurd ⟨k,contextId,m,here,known⟩ fresh
  -- what was stored before is stored still, and there is one more
  have stores : ∀ other ueApp contextId,
      Stores (⟨t,x.managers.insert k n,x.created ++ [(k,uuid)]⟩ : Deployment rest) other ueApp contextId ↔
        Stores x other ueApp contextId ∨ other = k ∧ ueApp = ueAppId ∧ contextId = uuid := by
    intro other ueApp contextId
    rw [stores_insert]
    by_cases one : other = k
    · subst one
      rw [if_pos rfl,knows,stores_of_lookup here]
      by_cases drawn : ueApp = ueAppId
      · subst drawn
        simp [unstored,eq_comm]
      · simp [drawn]
    · simp [one]
  have points : ∀ contextId desc, t.theApplicationsByContextId.lookup contextId = some desc →
      (contextId = uuid ∧ desc = ⟨ueAppId,m.theNotificationUri ++ "/" ++ ueAppId,clientAddress,appName,
        edgeRouter⟩) ∨ x.proxy.theApplicationsByContextId.lookup contextId = some desc := by
    intro contextId desc found
    rw [established.context] at found
    split at found
    · rename_i same
      cases found
      exact .inl ⟨same,rfl⟩
    · exact .inr found
  refine ⟨?_,⟨?_,?_⟩,?_,?_,?_⟩
  · refine joint.routed.of_contexts established.theTable fun contextId desc found => ?_
    rcases points contextId desc found with ⟨_,rfl⟩ | before
    · exact ⟨named,by simp [StaticUeAppLcmProxy.endpointOf,routed]⟩
    · exact ⟨joint.routed.named contextId desc before,joint.routed.endpoint contextId desc before⟩
  · intro contextId desc found
    rw [established.index]
    rcases points contextId desc found with ⟨rfl,rfl⟩ | before
    · exact if_pos rfl
    · have entry := joint.bijective.points contextId desc before
      rw [if_neg,entry]
      intro same
      exact joint.unindexed fresh (same ▸ KeyedMap.lookup_some_mem entry)
  · intro ueApp contextId entry
    rw [established.index] at entry
    split at entry
    · rename_i same
      cases entry
      exact ⟨_,by rw [established.context,if_pos rfl],same.symm⟩
    · obtain ⟨desc,live,same⟩ := joint.bijective.live ueApp contextId entry
      refine ⟨desc,?_,same⟩
      rw [established.context,if_neg,live]
      rintro rfl
      exact unknown (KeyedMap.lookup_some_mem live)
  · intro contextId desc found
    rcases points contextId desc found with ⟨rfl,rfl⟩ | before
    · exact ⟨k,(stores _ _ _).mpr (.inr ⟨rfl,rfl,rfl⟩)⟩
    · obtain ⟨other,stored⟩ := joint.owned contextId desc before
      exact ⟨other,(stores _ _ _).mpr (.inl stored)⟩
  · intro other ueApp contextId stored
    rcases (stores other ueApp contextId).mp stored with before | ⟨rfl,_,rfl⟩
    · exact List.mem_append_left _ (joint.stored other ueApp contextId before)
    · exact List.mem_append_right _ List.mem_cons_self
  · intro one other contextId first second
    rcases List.mem_append.mp first with before | last
    · rcases List.mem_append.mp second with before' | last'
      · exact joint.single one other contextId before before'
      · cases List.mem_singleton.mp last'
        exact absurd ⟨one,before⟩ new
    · cases List.mem_singleton.mp last
      rcases List.mem_append.mp second with before' | last'
      · exact absurd ⟨other,before'⟩ new
      · cases List.mem_singleton.mp last'
        rfl

/-! ## The destructor -/

open StaticUeAppLcmProxy in
/-- A DELETE by the context ID removes the context if it is there. -/
theorem handleContextDelete_erases {s : StaticUeAppLcmProxy rest} (bijective : Bijective s)
    (contextId : String) :
    ∃ reply t, handleContextDelete build (AppContextManager.deleteRequest contextId) s = .returned reply t ∧
      Erased (· = contextId) s t := by
  have path : UeAppLcmProxy.contextsPrefix.toList.isPrefixOf
      (AppContextManager.deleteRequest contextId).path.toList = true := by
    simp [AppContextManager.deleteRequest,List.isPrefixOf_iff_prefix]
  unfold handleContextDelete UeAppLcmProxy.handleContextDelete
  rw [path,Program.assert_true,pure_bind,AppContextManager.deleteRequest,UeAppLcmProxy.erasePrefix_append]
  cases live : s.theApplicationsByContextId.lookup contextId with
  | none =>
    have kept := (@deleteContext_returned _ build s s contextId false).mpr (.inl ⟨live,rfl,rfl⟩)
    exact ⟨_,s,by rw [Program.bind_returned _ kept]; rfl,.refl s (by rintro _ rfl; exact live)⟩
  | some desc =>
    have entry := KeyedMap.lookup_some_mem (bijective.points contextId desc live)
    have deleted := (@deleteContext_returned _ build s _ contextId true).mpr (.inr ⟨desc,live,entry,rfl,rfl⟩)
    exact ⟨_,_,by rw [Program.bind_returned _ deleted]; rfl,.one live⟩

open StaticUeAppLcmProxy in
/-- The loop goes through all entries, whatever was refused. -/
theorem closeContexts_erases {s : StaticUeAppLcmProxy rest} (bijective : Bijective s)
    (entries : List (Σ _ : String, AppContextManager.Desc)) :
    ∃ t, AppContextManager.closeContexts build entries s = .returned () t ∧
      Erased (fun contextId => ∃ entry ∈ entries, entry.2.theContextId = contextId) s t := by
  induction entries generalizing s with
  | nil => exact ⟨s,rfl,.refl s (by simp)⟩
  | cons entry others ih =>
    obtain ⟨reply,middle,ran,first⟩ := handleContextDelete_erases bijective entry.2.theContextId
    obtain ⟨t,later,rest⟩ := ih (first.bijective bijective)
    refine ⟨t,?_,(first.trans rest).congr fun contextId => by simp [eq_comm]⟩
    rw [AppContextManager.closeContexts,Program.bind_returned _ (Program.catchAll_returned ran),later]

/-- The contexts that a manager has stored are deleted with it. -/
theorem Joint.destroyed (joint : Joint x) {k : Nat} {m : AppContextManager} (here : x.managers.lookup k = some m)
    (transport : Transport) (build : Build) :
    ∃ s, step transport build x (.destroy k) = some { x with proxy := s, managers := x.managers.erase k } ∧
      StaticUeAppLcmProxy.Erased (fun contextId => ∃ ueAppId, Stores x k ueAppId contextId) x.proxy s := by
  obtain ⟨s,ran,erased⟩ := @closeContexts_erases _ build _ joint.bijective m.theContexts.entries
  refine ⟨s,by simp only [step,here,ran]; rfl,erased.congr fun contextId => ?_⟩
  constructor
  · rintro ⟨entry,member,rfl⟩
    refine ⟨entry.1,m,here,?_⟩
    rw [AppContextManager.storedContextId,KeyedMap.mem_entries.mp member]
    rfl
  · rintro ⟨ueAppId,stored⟩
    obtain ⟨desc,found,rfl⟩ := Option.map_eq_some_iff.mp ((stores_of_lookup here _ _).mp stored)
    exact ⟨⟨ueAppId,desc⟩,KeyedMap.mem_entries.mpr found,rfl⟩

/-- Of the live contexts, those are the ones created for the manager. -/
theorem Joint.stores_iff (joint : Joint x) {k : Nat} {contextId : String} {desc : Desc}
    (live : x.proxy.theApplicationsByContextId.lookup contextId = some desc) :
    (∃ ueAppId, Stores x k ueAppId contextId) ↔ (k,contextId) ∈ x.created := by
  constructor
  · rintro ⟨ueAppId,stored⟩
    exact joint.stored k ueAppId contextId stored
  · intro created
    obtain ⟨other,stored⟩ := joint.owned contextId desc live
    cases joint.single k other contextId created (joint.stored other _ contextId stored)
    exact ⟨_,stored⟩

/-! ## Runs -/

theorem joint_step {event : Event rest} (joint : Joint x) (fresh : Fresh x event)
    (taken : step transport build x event = some y) : Joint y := by
  cases event with
  | addApp info =>
    cases taken
    exact joint.registered _
  | delApp info =>
    cases taken
    exact joint.registered _
  | associateAddress address appName edgeRouter recipient =>
    refine joint.release (StaticUeAppLcmProxy.associateSection_atomic address appName edgeRouter) ?_ taken
    intro list s ran
    obtain ⟨_,_,_,rerouted⟩ := StaticUeAppLcmProxy.associateSection_reroutes joint.routed ran
    exact joint.rerouted (joint.routed.afterAssociate ran) rerouted
  | removeAddress address appName recipient =>
    refine joint.release (StaticUeAppLcmProxy.removeSection_atomic address appName) ?_ taken
    intro list s ran
    obtain ⟨_,_,rerouted⟩ := StaticUeAppLcmProxy.removeSection_reroutes joint.routed ran
    exact joint.rerouted (joint.routed.afterRemove ran) rerouted
  | construct k theNotificationUri theProxyUri =>
    simp only [step] at taken
    split at taken
    · contradiction
    rename_i absent
    cases taken
    refine joint.narrowed joint.routed joint.bijective (fun _ desc found => ⟨desc,found,rfl⟩) ?_ rfl
    intro other ueAppId contextId
    rw [stores_insert]
    split
    · rename_i same
      subst same
      refine iff_of_false (by simp [AppContextManager.storedContextId]) ?_
      rintro ⟨m,here,_⟩
      exact absent (KeyedMap.lookup_some_mem here)
    · rfl
  | contextCreate k uuid ueAppId clientAddress info =>
    simp only [step] at taken
    split at taken
    · contradiction
    rename_i m here
    obtain ⟨sides,left,rfl⟩ := Option.map_eq_some_iff.mp taken
    have new := fresh.contextId uuid rfl
    have unused := fresh.ueAppId ueAppId rfl
    have unknown := joint.unknown new
    rcases AppContextManager.contextCreate_outcome transport build joint.routed clientAddress info
      (fun blank => fresh.filled.1 (congrArg some blank)) unknown
      (fun blank => fresh.filled.2 (congrArg some blank)) (joint.unindexed unused)
      (fun known => unused ⟨k,stores_of_mem here known⟩)
      with ⟨error,ran⟩ | ⟨edgeRouter,t,n,routed,ran,established⟩
    · rw [ran] at left
      cases left
      simp only [if_neg unknown]
      exact joint.managed (stores_replaced here fun _ => rfl)
    · rw [ran] at left
      cases left
      have live : uuid ∈ t.theApplicationsByContextId :=
        KeyedMap.lookup_some_mem (by rw [established.context,if_pos rfl])
      simp only [if_pos live]
      exact joint.established here info.appName_ne routed new unused established
  | destroy k =>
    simp only [step] at taken
    split at taken
    · contradiction
    rename_i m here
    obtain ⟨s,destroyed,erased⟩ := joint.destroyed here transport build
    simp only [step,here] at destroyed
    cases destroyed.symm.trans taken
    have stores : ∀ other ueAppId contextId, Stores { x with proxy := s, managers := x.managers.erase k } other
        ueAppId contextId ↔ other ≠ k ∧ Stores x other ueAppId contextId := by
      intro other ueAppId contextId
      simp only [Stores,KeyedMap.lookup_erase_eq]
      by_cases one : other = k <;> simp [one]
    refine ⟨erased.routed joint.routed,erased.bijective joint.bijective,?_,?_,joint.single⟩
    · intro contextId desc found
      have kept : ¬∃ ueAppId, Stores x k ueAppId contextId := by
        intro gone
        rw [erased.removed contextId gone] at found
        contradiction
      rw [erased.kept contextId kept] at found
      obtain ⟨other,stored⟩ := joint.owned contextId desc found
      refine ⟨other,(stores _ _ _).mpr ⟨?_,stored⟩⟩
      rintro rfl
      exact kept ⟨_,stored⟩
    · exact fun other ueAppId contextId stored => joint.stored _ _ _ ((stores _ _ _).mp stored).2

structure FreshIds (events : List (Event rest)) : Prop where
  contextIds : (events.filterMap Event.drawnContextId).Nodup
  ueAppIds : (events.filterMap Event.drawnUeAppId).Nodup
  filled : ∀ event ∈ events, event.drawnContextId ≠ some "" ∧ event.drawnUeAppId ≠ some ""

/-- Notifications create nothing, and make no UE application ID known. -/
theorem notifyClients_uses {recipient : Notification → Recipient} {list : NotificationList}
    (taken : notifyClients transport build recipient x list = some y) :
    y.created = x.created ∧ ∀ ueAppId, UsesUeAppId y ueAppId → UsesUeAppId x ueAppId := by
  induction list generalizing x with
  | nil =>
    cases taken
    exact ⟨rfl,fun _ => id⟩
  | cons elem others ih =>
    obtain ⟨middle,first,later⟩ := Option.bind_eq_some_iff.mp taken
    obtain ⟨created,uses⟩ := ih later
    unfold notifyClient at first
    split at first
    · contradiction
    rename_i result managers received
    obtain ⟨s,left,rfl⟩ := Option.map_eq_some_iff.mp first
    refine ⟨created,fun ueAppId used => ?_⟩
    obtain ⟨k,contextId,stored⟩ := uses ueAppId used
    exact ⟨k,contextId,(stores_received received k ueAppId contextId).mp stored⟩

theorem release_uses {p : Program (StaticUeAppLcmProxy rest) Exception NotificationList}
    {recipient : Notification → Recipient} (taken : release transport build recipient x (p x.proxy) = some y) :
    y.created = x.created ∧ ∀ ueAppId, UsesUeAppId y ueAppId → UsesUeAppId x ueAppId := by
  cases ran : p x.proxy with
  | returned list s =>
    rw [ran] at taken
    have kept := @notifyClients_uses _ _ _ { x with proxy := s } _ _ _ taken
    exact ⟨kept.1,kept.2⟩
  | threw error s =>
    rw [ran] at taken
    cases taken
    exact ⟨rfl,fun _ => id⟩
  | halted reason =>
    rw [ran] at taken
    contradiction

theorem step_contextIds {event : Event rest} (taken : step transport build x event = some y) {contextId : String}
    (used : UsesContextId y contextId) : UsesContextId x contextId ∨ event.drawnContextId = some contextId := by
  cases event with
  | addApp info => cases taken; exact .inl used
  | delApp info => cases taken; exact .inl used
  | associateAddress address appName edgeRouter recipient =>
    unfold UsesContextId at used
    rw [(release_uses taken).1] at used
    exact .inl used
  | removeAddress address appName recipient =>
    unfold UsesContextId at used
    rw [(release_uses taken).1] at used
    exact .inl used
  | construct k theNotificationUri theProxyUri =>
    simp only [step] at taken
    split at taken
    · contradiction
    · cases taken
      exact .inl used
  | contextCreate k uuid ueAppId clientAddress info =>
    simp only [step] at taken
    split at taken
    · contradiction
    obtain ⟨sides,left,rfl⟩ := Option.map_eq_some_iff.mp taken
    obtain ⟨other,member⟩ := used
    dsimp only at member
    split at member
    · rcases List.mem_append.mp member with before | last
      · exact .inl ⟨other,before⟩
      · cases List.mem_singleton.mp last
        exact .inr rfl
    · exact .inl ⟨other,member⟩
  | destroy k =>
    simp only [step] at taken
    split at taken
    · contradiction
    obtain ⟨s,left,rfl⟩ := Option.map_eq_some_iff.mp taken
    exact .inl used

theorem step_ueAppIds {event : Event rest} (taken : step transport build x event = some y) {ueAppId : String}
    (used : UsesUeAppId y ueAppId) : UsesUeAppId x ueAppId ∨ event.drawnUeAppId = some ueAppId := by
  cases event with
  | addApp info => cases taken; exact .inl used
  | delApp info => cases taken; exact .inl used
  | associateAddress address appName edgeRouter recipient => exact .inl ((release_uses taken).2 ueAppId used)
  | removeAddress address appName recipient => exact .inl ((release_uses taken).2 ueAppId used)
  | construct k theNotificationUri theProxyUri =>
    simp only [step] at taken
    split at taken
    · contradiction
    cases taken
    obtain ⟨other,contextId,stored⟩ := used
    rw [stores_insert] at stored
    split at stored
    · simp [AppContextManager.storedContextId] at stored
    · exact .inl ⟨other,contextId,stored⟩
  | contextCreate k uuid drawn clientAddress info =>
    simp only [step] at taken
    split at taken
    · contradiction
    rename_i m here
    obtain ⟨sides,left,rfl⟩ := Option.map_eq_some_iff.mp taken
    obtain ⟨other,contextId,stored⟩ := used
    rw [stores_insert] at stored
    split at stored
    · rename_i same
      subst same
      rcases AppContextManager.contextCreate_left left with same | ⟨uri,id,same⟩
      · exact .inl ⟨other,contextId,m,here,same ▸ stored⟩
      · by_cases known : ueAppId ∈ m.theContexts
        · exact .inl ⟨other,stores_of_mem here known⟩
        · right
          obtain ⟨desc,found,_⟩ := Option.map_eq_some_iff.mp stored
          rw [same] at found
          rcases (KeyedMap.mem_emplace _ _ _ _).mp (KeyedMap.lookup_some_mem found) with rfl | old
          · rfl
          · exact absurd old known
    · exact .inl ⟨other,contextId,stored⟩
  | destroy k =>
    simp only [step] at taken
    split at taken
    · contradiction
    obtain ⟨s,left,rfl⟩ := Option.map_eq_some_iff.mp taken
    obtain ⟨other,contextId,m,here,stored⟩ := used
    rw [KeyedMap.lookup_erase_eq] at here
    split at here
    · contradiction
    · exact .inl ⟨other,contextId,m,here,stored⟩

theorem FreshIds.along {events : List (Event rest)} (fresh : FreshIds events) :
    Run.Along (step transport build) Fresh start events := by
  have contexts : Run.Along (step transport build) (fun x event => True ∧
      Run.Unused Event.drawnContextId UsesContextId x event) start events := by
    refine Run.along_unused _ _ (fun _ _ _ _ _ => trivial) ?_ trivial fresh.contextIds ?_
    · exact fun x event y _ taken contextId => step_contextIds taken
    · simp [UsesContextId,start]
  have ueApps : Run.Along (step transport build) (fun x event => True ∧
      Run.Unused Event.drawnUeAppId UsesUeAppId x event) start events := by
    refine Run.along_unused _ _ (fun _ _ _ _ _ => trivial) ?_ trivial fresh.ueAppIds ?_
    · exact fun x event y _ taken ueAppId => step_ueAppIds taken
    · simp [UsesUeAppId,Stores,start]
  exact Run.along_imp (fun x event all => ⟨all.1.2,all.2.1.2,all.2.2⟩)
    (Run.along_and contexts (Run.along_and ueApps (Run.along_of_mem fresh.filled start)))

structure ClosesOwn (x : Deployment rest) (k : Nat) (y : Deployment rest) : Prop where
  contexts : ∀ contextId, y.proxy.theApplicationsByContextId.lookup contextId =
    if (k,contextId) ∈ x.created then none else x.proxy.theApplicationsByContextId.lookup contextId
  index : ∀ ueAppId contextId, y.proxy.theApplicationsByUeAppId.lookup ueAppId = some contextId ↔
    x.proxy.theApplicationsByUeAppId.lookup ueAppId = some contextId ∧ (k,contextId) ∉ x.created
  theTable : y.proxy.theTable = x.proxy.theTable
  theApplications : y.proxy.theApplications = x.proxy.theApplications
  managers : ∀ other, y.managers.lookup other = if other = k then none else x.managers.lookup other

/-- A manager that is destroyed closes the contexts that were created for it, those that are
left of them, and no others. -/
theorem destroy_closes_own (transport : Transport) (build : Build) (events : List (Event rest))
    (fresh : FreshIds events) (x : Deployment rest)
    (ran : Run.run (step transport build) start events = some x) (k : Nat) (m : AppContextManager)
    (here : x.managers.lookup k = some m) :
    ∃ y, step transport build x (.destroy k) = some y ∧ ClosesOwn x k y := by
  have joint : Joint x := Run.invariant (fun _ _ _ joint fresh taken => joint_step joint fresh taken)
    joint_start fresh.along ran
  obtain ⟨s,destroyed,erased⟩ := joint.destroyed here transport build
  refine ⟨_,destroyed,?_,?_,erased.theTable,erased.theApplications,fun other => KeyedMap.lookup_erase_eq _ _ _⟩
  · intro contextId
    split
    · rename_i created
      by_cases gone : ∃ ueAppId, Stores x k ueAppId contextId
      · exact erased.removed contextId gone
      · -- it was purged before
        rw [erased.kept contextId gone]
        cases live : x.proxy.theApplicationsByContextId.lookup contextId with
        | none => rfl
        | some desc => exact absurd ((joint.stores_iff live).mpr created) gone
    · rename_i foreign
      exact erased.kept contextId fun ⟨ueAppId,stored⟩ => foreign (joint.stored k ueAppId contextId stored)
  · intro ueAppId contextId
    rw [erased.index_iff joint.bijective]
    refine and_congr_right fun entry => ?_
    obtain ⟨desc,live,_⟩ := joint.bijective.live ueAppId contextId entry
    exact not_congr (joint.stores_iff live)

/-- Two managers; a notification to the second is refused, and its context purged. -/
def sampleEvents : List (Event Rest.plain) :=
  [.addApp StaticUeAppLcmProxy.sampleApp,.associateAddress "" "app" "er1" fun _ => .elsewhere .failed,
    .construct 1 "http://first" "http://proxy",.construct 2 "http://second" "http://proxy",
    .contextCreate 1 "c1" "ue1" "client" StaticUeAppLcmProxy.sampleApp,
    .contextCreate 2 "c2" "ue2" "client" StaticUeAppLcmProxy.sampleApp,
    .contextCreate 2 "c3" "ue3" "client" StaticUeAppLcmProxy.sampleApp,
    .associateAddress "client" "app" "er2"
      fun elem => if elem.contextId = "c2" then .elsewhere (.status 404)
        else .manager (if elem.contextId = "c1" then 1 else 2)]

theorem sample_closes_own : ∃ x y, Run.run (step Transport.plain .debug) start sampleEvents = some x ∧
    step Transport.plain .debug x (.destroy 2) = some y ∧ ClosesOwn x 2 y := by
  have fresh : FreshIds sampleEvents := ⟨by decide,by decide,by decide⟩
  refine ⟨(Run.run (step Transport.plain .debug) start sampleEvents).get (by decide),?_⟩
  obtain ⟨y,destroyed,closes⟩ :=
    destroy_closes_own Transport.plain .debug sampleEvents fresh _ (Option.some_get _).symm 2
    ⟨"http://second","http://proxy",_⟩ (by rfl)
  exact ⟨y,(Option.some_get _).symm,destroyed,closes⟩

end Deployment
end EtsiMec
