import EtsiMec.Posting

/-! Callback references that change while notifications are on their way. A call on the
table copies the callback references of the contexts it moves under the lock; it posts, and
purges, after it has released it. -/
namespace EtsiMec

open Effect StaticUeAppLcmProxy

/-- A call on the table that has released the lock, with the element it is to purge because
of the answer to its last POST; `since` counts the updates before its list was collected. -/
structure Notifier where
  since : Nat
  remaining : NotificationList
  failed : Option Notification
  deriving DecidableEq, Repr

/-- The last two fields only record what has happened: which contexts were updated, and
which POSTs were answered with another status than NoContent. -/
structure Traffic (rest : Rest) where
  proxy : StaticUeAppLcmProxy rest
  notifiers : List Notifier
  updated : List String
  refused : NotificationList

namespace Traffic

inductive Event (rest : Rest) where
  | associateAddress (address appName edgeRouter : String)
  | removeAddress (address appName : String)
  | updateContext (request : AppContext rest)
  | deliver (notifier : Nat) (result : PostResult)
  | purge (notifier : Nat)

def start (s : StaticUeAppLcmProxy rest) : Traffic rest := ⟨s,[],[],[]⟩

section
variable (build : Build) (validate : String → Bool)

/-- One turn of the loop of `notifyClients` up to the purge: whether there is to be one. -/
def attempt (elem : Notification) (result : PostResult) : Except Halt Bool :=
  if build.asserts && (elem.callbackReference == "" || elem.referenceUri == "" || elem.contextId == "")
  then .error .assertion
  else if !validate elem.callbackReference || elem.referenceUri == "" then .ok false
  else match result with
    | .failed => .ok false
    | .status code => .ok (code != StatusCode.noContent)

def release (x : Traffic rest) :
    Outcome (StaticUeAppLcmProxy rest) Exception NotificationList → Option (Traffic rest)
  | .returned list s =>
    some { x with proxy := s, notifiers := x.notifiers ++ [⟨x.updated.length,list,none⟩] }
  | .threw _ s => some { x with proxy := s }
  | .halted _ => none

def step (x : Traffic rest) : Event rest → Option (Traffic rest)
  | .associateAddress address appName edgeRouter =>
    release x (associateSection build address appName edgeRouter x.proxy)
  | .removeAddress address appName => release x (removeSection build address appName x.proxy)
  | .updateContext request =>
    match StaticUeAppLcmProxy.updateContext request x.proxy with
    | .returned true s =>
      some { x with
        proxy := s
        updated := x.updated ++ (x.proxy.theApplicationsByUeAppId.lookup request.associateUeAppId).toList }
    | .returned false s | .threw _ s => some { x with proxy := s }
    | .halted _ => none
  | .deliver k result =>
    match x.notifiers[k]? with
    | some ⟨since,elem :: others,none⟩ =>
      match attempt build validate elem result with
      | .error _ => none
      | .ok true =>
        some { x with
          notifiers := x.notifiers.set k ⟨since,others,some elem⟩
          refused := x.refused ++ [elem] }
      | .ok false => some { x with notifiers := x.notifiers.set k ⟨since,others,none⟩ }
    | _ => none
  | .purge k =>
    match x.notifiers[k]? with
    | some ⟨since,others,some elem⟩ =>
      (StaticUeAppLcmProxy.purge build elem.contextId x.proxy).state?.map fun s =>
        { x with proxy := s, notifiers := x.notifiers.set k ⟨since,others,none⟩ }
    | _ => none

end

variable {rest : Rest} {build : Build} {validate : String → Bool} {x y : Traffic rest}

/-- A delivery and the purge after it are one turn of the loop of `notifyClients`. -/
theorem notifyClient_attempt (post : Notification → PostResult) (elem : Notification) :
    (notifyClient build validate post elem : Program (StaticUeAppLcmProxy rest) Exception Unit) =
      Program.orHalt (attempt build validate elem (post elem)) >>= fun failed =>
        if failed then StaticUeAppLcmProxy.purge build elem.contextId >>= fun _ => pure () else pure () := by
  by_cases stopped : (build.asserts && (elem.callbackReference == "" || elem.referenceUri == "" ||
      elem.contextId == "")) = true
  · unfold attempt
    rw [if_pos stopped]
    obtain ⟨asserts,blank⟩ := Bool.and_eq_true_iff.mp stopped
    have given : ∀ {field : String}, field ≠ "" → (field != "") = true := fun filled => by simpa using filled
    by_cases callback : elem.callbackReference = ""
    · simp only [notifyClient,asserts,callback]
      rfl
    by_cases uri : elem.referenceUri = ""
    · simp only [notifyClient,asserts,given callback,uri,Program.assert_true,pure_bind]
      rfl
    have contextId : elem.contextId = "" := by simpa [callback,uri] using blank
    simp only [notifyClient,asserts,given callback,given uri,contextId,Program.assert_true,pure_bind]
    rfl
  · have ready : Ready build elem := by
      rintro rfl
      simpa [not_or,and_assoc] using stopped
    unfold attempt
    rw [notifyClient_ready_eq ready,if_neg stopped]
    split
    · rfl
    · cases post elem with
      | failed => rfl
      | status code =>
        by_cases accepted : code = StatusCode.noContent
        · simp [accepted]
        · simp [accepted]

/-! ## Posts and purges -/

def Event.Posts (validate : String → Bool) (x : Traffic rest) (event : Event rest) (notifier : Notifier)
    (elem : Notification) : Prop :=
  ∃ k result others, event = .deliver k result ∧ x.notifiers[k]? = some notifier ∧
    notifier.failed = none ∧ notifier.remaining = elem :: others ∧
    validate elem.callbackReference = true ∧ elem.referenceUri ≠ ""

def Event.Purges (x : Traffic rest) (event : Event rest) (notifier : Notifier) (elem : Notification) : Prop :=
  ∃ k, event = .purge k ∧ x.notifiers[k]? = some notifier ∧ notifier.failed = some elem

/-- If its context is live, the element has the callback reference that is stored for it. -/
def Stored (x : Traffic rest) (elem : Notification) : Prop :=
  ∀ desc, x.proxy.theApplicationsByContextId.lookup elem.contextId = some desc →
    desc.theCallbackReference = elem.callbackReference

def UpdatedSince (x : Traffic rest) (notifier : Notifier) (contextId : String) : Prop :=
  contextId ∈ x.updated.drop notifier.since

/-- No notification goes to, and no purge follows from, a callback reference of the past. -/
structure Undisturbed (validate : String → Bool) (x : Traffic rest) (event : Event rest) : Prop where
  posted : ∀ notifier elem, event.Posts validate x notifier elem → elem.contextId ∈ x.updated → Stored x elem
  purged : ∀ notifier elem, event.Purges x notifier elem → elem ∈ x.refused ∧ Stored x elem

/-- The same of the contexts that were not updated after the list was collected. -/
structure Current (validate : String → Bool) (x : Traffic rest) (event : Event rest) : Prop where
  posted : ∀ notifier elem, event.Posts validate x notifier elem →
    ¬UpdatedSince x notifier elem.contextId → Stored x elem
  purged : ∀ notifier elem, event.Purges x notifier elem →
    elem ∈ x.refused ∧ (¬UpdatedSince x notifier elem.contextId → Stored x elem)

/-! ## What every event keeps -/

def Pending (notifier : Notifier) (elem : Notification) : Prop :=
  elem ∈ notifier.remaining ∨ notifier.failed = some elem

structure Tracked (x : Traffic rest) : Prop where
  routed : Routed x.proxy
  since : ∀ notifier ∈ x.notifiers, notifier.since ≤ x.updated.length
  current : ∀ notifier ∈ x.notifiers, ∀ elem, Pending notifier elem →
    ¬UpdatedSince x notifier elem.contextId → Stored x elem
  refused : ∀ notifier ∈ x.notifiers, ∀ elem, notifier.failed = some elem → elem ∈ x.refused

theorem tracked_start {s : StaticUeAppLcmProxy rest} (routed : Routed s) : Tracked (start s) :=
  ⟨routed,by simp [start],by simp [start],by simp [start]⟩

theorem Tracked.released (tracked : Tracked x) {s : StaticUeAppLcmProxy rest} {appName : String}
    {list : NotificationList} (routed : Routed s) (rerouted : Rerouted x.proxy s appName list) :
    Tracked { x with proxy := s, notifiers := x.notifiers ++ [⟨x.updated.length,list,none⟩] } := by
  have callbacks : ∀ elem : Notification, (∀ desc,
      x.proxy.theApplicationsByContextId.lookup elem.contextId = some desc →
      desc.theCallbackReference = elem.callbackReference) → ∀ desc,
      s.theApplicationsByContextId.lookup elem.contextId = some desc →
      desc.theCallbackReference = elem.callbackReference := by
    intro elem stored desc live
    rw [rerouted.contexts] at live
    obtain ⟨before,there,rfl⟩ := Option.map_eq_some_iff.mp live
    rw [refresh_callback]
    exact stored before there
  refine ⟨routed,?_,?_,?_⟩
  · intro notifier member
    rcases List.mem_append.mp member with old | new
    · exact tracked.since notifier old
    · rw [List.mem_singleton.mp new]
  · intro notifier member elem pending untouched
    rcases List.mem_append.mp member with old | new
    · exact callbacks elem (tracked.current notifier old elem pending untouched)
    -- the list was collected from what is stored
    rw [List.mem_singleton.mp new] at pending
    rcases pending with inside | failed
    · obtain ⟨before,there,told⟩ := (rerouted.notified elem).mp inside
      refine callbacks elem fun desc live => ?_
      cases there.symm.trans live
      rw [(mem_refresh.mp told).2.2.2]
    · contradiction
  · intro notifier member elem failed
    rcases List.mem_append.mp member with old | new
    · exact tracked.refused notifier old elem failed
    · rw [List.mem_singleton.mp new] at failed
      contradiction

theorem Tracked.recalled (tracked : Tracked x) {contextId : String} {desc : Desc}
    (live : x.proxy.theApplicationsByContextId.lookup contextId = some desc) (callbackReference : String) :
    Tracked { x with
      proxy := StaticUeAppLcmProxy.recalled x.proxy contextId desc callbackReference
      updated := x.updated ++ [contextId] } := by
  refine ⟨tracked.routed.recalled live callbackReference,?_,?_,tracked.refused⟩
  · intro notifier member
    have before := tracked.since notifier member
    rw [List.length_append]
    omega
  · intro notifier member elem pending untouched after there
    have later : (x.updated ++ [contextId]).drop notifier.since =
        x.updated.drop notifier.since ++ [contextId] :=
      List.drop_append_of_le_length (tracked.since notifier member)
    simp only [UpdatedSince,later,List.mem_append,List.mem_singleton,not_or] at untouched
    rw [recalled_lookup,if_neg untouched.2] at there
    exact tracked.current notifier member elem pending untouched.1 after there

theorem Tracked.erased (tracked : Tracked x) (contextId : String) (desc : Desc) :
    Tracked { x with proxy := StaticUeAppLcmProxy.erased x.proxy contextId desc } := by
  refine ⟨tracked.routed.erased contextId desc,tracked.since,?_,tracked.refused⟩
  intro notifier member elem pending untouched after there
  rw [erased_lookup] at there
  split at there
  · contradiction
  · exact tracked.current notifier member elem pending untouched after there

/-- A call goes on: nothing new is pending. -/
theorem Tracked.advanced (tracked : Tracked x) {k : Nat} {notifier : Notifier}
    (here : x.notifiers[k]? = some notifier) {others : NotificationList} {failed : Option Notification}
    {log : NotificationList} (pending : ∀ elem, elem ∈ others ∨ failed = some elem → Pending notifier elem)
    (grows : ∀ elem ∈ x.refused, elem ∈ log) (logged : ∀ elem, failed = some elem → elem ∈ log) :
    Tracked { x with notifiers := x.notifiers.set k ⟨notifier.since,others,failed⟩, refused := log } := by
  have member := List.mem_of_getElem? here
  refine ⟨tracked.routed,?_,?_,?_⟩
  · intro other inside
    rcases List.mem_or_eq_of_mem_set inside with old | rfl
    · exact tracked.since other old
    · exact tracked.since notifier member
  · intro other inside elem waits untouched
    rcases List.mem_or_eq_of_mem_set inside with old | rfl
    · exact tracked.current other old elem waits untouched
    · exact tracked.current notifier member elem (pending elem waits) untouched
  · intro other inside elem refused
    rcases List.mem_or_eq_of_mem_set inside with old | rfl
    · exact grows elem (tracked.refused other old elem refused)
    · exact logged elem refused

/-- A call on the table that leaves its section has rerouted the contexts. -/
theorem Tracked.release (tracked : Tracked x) {p : Program (StaticUeAppLcmProxy rest) Exception NotificationList}
    (atomic : Program.Atomic p) (reroutes : ∀ list s, p x.proxy = .returned list s →
      Routed s ∧ ∃ appName, Rerouted x.proxy s appName list)
    (taken : release x (p x.proxy) = some y) : Tracked y := by
  cases ran : p x.proxy with
  | returned list s =>
    obtain ⟨routed,appName,rerouted⟩ := reroutes list s ran
    rw [ran] at taken
    cases taken
    exact tracked.released routed rerouted
  | threw error s =>
    rw [ran] at taken
    cases taken
    rw [atomic _ error s ran]
    exact tracked
  | halted reason =>
    rw [ran] at taken
    contradiction

theorem tracked_step {event : Event rest} (tracked : Tracked x) (taken : step build validate x event = some y) :
    Tracked y := by
  cases event with
  | associateAddress address appName edgeRouter =>
    refine tracked.release (associateSection_atomic address appName edgeRouter) ?_ taken
    intro list s ran
    obtain ⟨_,_,_,rerouted⟩ := associateSection_reroutes tracked.routed ran
    exact ⟨tracked.routed.afterAssociate ran,_,rerouted⟩
  | removeAddress address appName =>
    refine tracked.release (removeSection_atomic address appName) ?_ taken
    intro list s ran
    obtain ⟨_,_,rerouted⟩ := removeSection_reroutes tracked.routed ran
    exact ⟨tracked.routed.afterRemove ran,_,rerouted⟩
  | updateContext request =>
    simp only [step] at taken
    split at taken
    · rename_i s ran
      cases taken
      rcases updateContext_returned.mp ran with ⟨_,other,_⟩ | ⟨contextId,desc,indexed,live,_,rfl⟩
      · contradiction
      · rw [indexed]
        exact tracked.recalled live request.callbackReference
    · rename_i s ran
      cases taken
      rcases updateContext_returned.mp ran with ⟨_,_,rfl⟩ | ⟨_,_,_,_,other,_⟩
      · exact tracked
      · contradiction
    · rename_i error s ran
      exact absurd ran (updateContext_silent request _ _ _)
    · contradiction
  | deliver k result =>
    simp only [step] at taken
    split at taken
    · rename_i since elem others here
      have fewer : ∀ other, other ∈ others → Pending ⟨since,elem :: others,none⟩ other :=
        fun other inside => .inl (List.mem_cons_of_mem _ inside)
      split at taken
      · contradiction
      · cases taken
        refine tracked.advanced here ?_ (fun other => List.mem_append_left _) ?_
        · rintro other (inside | failed)
          · exact fewer other inside
          · cases failed
            exact .inl List.mem_cons_self
        · rintro other ⟨⟩
          exact List.mem_append_right _ List.mem_cons_self
      · cases taken
        refine tracked.advanced here ?_ (fun other => id) (by simp)
        rintro other (inside | failed)
        · exact fewer other inside
        · contradiction
    · contradiction
  | purge k =>
    simp only [step] at taken
    split at taken
    · rename_i since others elem here
      obtain ⟨s,left,rfl⟩ := Option.map_eq_some_iff.mp taken
      obtain ⟨flag,ran⟩ := (purge_silent _).state? left
      have fewer : ∀ other, other ∈ others ∨ none = some other → Pending ⟨since,others,some elem⟩ other := by
        rintro other (inside | failed)
        · exact .inl inside
        · contradiction
      rcases purge_returned ran with ⟨_,_,rfl⟩ | ⟨desc,_,_,rfl⟩
      · exact tracked.advanced here fewer (fun other => id) (by simp)
      · exact (tracked.erased elem.contextId desc).advanced here fewer (fun other => id) (by simp)
    · contradiction

theorem Tracked.current_event (tracked : Tracked x) (event : Event rest) : Current validate x event := by
  constructor
  · rintro notifier elem ⟨k,result,others,_,here,_,remaining,_,_⟩
    refine tracked.current notifier (List.mem_of_getElem? here) elem (.inl ?_)
    rw [remaining]
    exact List.mem_cons_self
  · rintro notifier elem ⟨k,_,here,failed⟩
    have member := List.mem_of_getElem? here
    exact ⟨tracked.refused notifier member elem failed,tracked.current notifier member elem (.inr failed)⟩

/-- Along every run, what is posted for a context, and what it is purged for, is the callback
reference that is stored for it, unless it was updated after the list was collected. -/
theorem callbacks_current (build : Build) (validate : String → Bool) (s : StaticUeAppLcmProxy rest)
    (reached : Reachable build s) (events : List (Event rest)) :
    Run.Along (step build validate) (Current validate) (start s) events :=
  Run.along_of_invariant (fun _ _ _ tracked _ taken => tracked_step tracked taken)
    (fun _ event tracked _ => tracked.current_event event) (tracked_start reached.routed)
    (Run.along_of_forall (fun _ _ => trivial) (start s) events)

theorem sample_callbacks_current :
    Run.Along (step .debug fun _ => true) (Current fun _ => true)
      (start (after .debug sampleCalls (by decide)))
      [.associateAddress "client" "app" "er2",.deliver 0 (.status 404),.purge 0] :=
  callbacks_current .debug _ _ (after_reachable .debug sampleCalls (by decide)) _

def overtakenEvents : List (Event Rest.plain) :=
  [.associateAddress "client" "app" "er2",.updateContext (sampleRequest "ue1" "http://new" sampleId_filled)]

/-- The POST goes to the callback reference of before, and its failure removes the context. -/
theorem update_overtaken :
    Reachable .debug (after .debug sampleCalls (by decide)) ∧
    ∃ x y z : Traffic Rest.plain, Run.run (step .debug fun _ => true)
        (start (after .debug sampleCalls (by decide))) overtakenEvents = some x ∧
      step .debug (fun _ => true) x (.deliver 0 (.status 404)) = some y ∧
      step .debug (fun _ => true) y (.purge 0) = some z ∧
      ¬Undisturbed (fun _ => true) x (.deliver 0 (.status 404)) ∧
      ¬Undisturbed (fun _ => true) y (.purge 0) ∧
      "c1" ∈ y.proxy.theApplicationsByContextId ∧ "c1" ∉ z.proxy.theApplicationsByContextId := by
  refine ⟨after_reachable .debug sampleCalls (by decide),
    (Run.run (step .debug fun _ => true) (start (after .debug sampleCalls (by decide)))
      overtakenEvents).get (by decide),_,_,(Option.some_get _).symm,rfl,rfl,?_,?_,by decide,by decide⟩
  · intro undisturbed
    have same := undisturbed.posted ⟨0,[⟨"http://ue1","er2","c1"⟩],none⟩ ⟨"http://ue1","er2","c1"⟩
      ⟨0,_,[],rfl,by decide,rfl,rfl,rfl,by decide⟩ (by decide)
      ⟨"ue1","http://new","client","app","er2"⟩ (by decide)
    contradiction
  · intro undisturbed
    have same := (undisturbed.purged ⟨0,[],some ⟨"http://ue1","er2","c1"⟩⟩ ⟨"http://ue1","er2","c1"⟩
      ⟨0,rfl,by decide,rfl⟩).2 ⟨"ue1","http://new","client","app","er2"⟩ (by decide)
    contradiction

end Traffic
end EtsiMec
