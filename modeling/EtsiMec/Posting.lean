import EtsiMec.ContextIndex

/-! Posting a notification list, after the lock is released. The loop goes on whatever the
clients answer; it can remove contexts, never an association or an application. -/
namespace EtsiMec.StaticUeAppLcmProxy

open Effect

variable {rest : Rest} {build : Build} {s t : StaticUeAppLcmProxy rest}

/-- What the assertions of the loop ask of an element. -/
def Ready (build : Build) (elem : Notification) : Prop :=
  build = .debug → elem.callbackReference ≠ "" ∧ elem.referenceUri ≠ "" ∧ elem.contextId ≠ ""

structure Pruned (s t : StaticUeAppLcmProxy rest) : Prop where
  theTable : t.theTable = s.theTable
  theApplications : t.theApplications = s.theApplications
  bijective : Bijective s → Bijective t

theorem Pruned.refl (s : StaticUeAppLcmProxy rest) : Pruned s s := ⟨rfl,rfl,id⟩

theorem Pruned.trans {u : StaticUeAppLcmProxy rest} (first : Pruned s t) (second : Pruned t u) : Pruned s u :=
  ⟨second.theTable.trans first.theTable,second.theApplications.trans first.theApplications,
    fun bijective => second.bijective (first.bijective bijective)⟩

/-- A purge returns; its assertions hold where the indexes agree. -/
theorem purge_returns (sound : build = .debug → Bijective s) (contextId : String) :
    ∃ flag t, purge build contextId s = .returned flag t ∧ Pruned s t := by
  cases live : s.theApplicationsByContextId.lookup contextId with
  | none => exact ⟨false,s,by simp [purge,live],.refl s⟩
  | some desc =>
    refine ⟨true,erased s contextId desc,?_,rfl,rfl,fun bijective => bijective.erased live⟩
    unfold purge
    rw [Program.get_bind_apply]
    cases build with
    | release => simp [live,erased]
    | debug =>
      have indexed := KeyedMap.lookup_some_mem ((sound rfl).points contextId desc live)
      have size := ((sound rfl).erased live).size
      simp only [erased] at size
      simp [live,indexed,size,erased]

section Posts
variable {validate : String → Bool} {post : Notification → PostResult}

/-- Past its assertions, a turn of the loop. -/
theorem notifyClient_ready_eq {elem : Notification} (ready : Ready build elem) :
    (notifyClient build validate post elem : Program (StaticUeAppLcmProxy rest) Exception Unit) =
      if !validate elem.callbackReference || elem.referenceUri == "" then pure ()
      else match post elem with
        | .failed => pure ()
        | .status code =>
          if code ≠ StatusCode.noContent then purge build elem.contextId >>= fun _ => pure () else pure () := by
  have passed : ∀ field, (build = .debug → field ≠ "") → (Program.assert build.asserts (field != "") :
      Program (StaticUeAppLcmProxy rest) Exception Unit) = pure () := by
    intro field given
    cases build with
    | release => rfl
    | debug => rw [bne_iff_ne.mpr (given rfl),Program.assert_true]
  rw [notifyClient,passed _ fun debug => (ready debug).1,passed _ fun debug => (ready debug).2.1,
    passed _ fun debug => (ready debug).2.2]
  rfl

theorem notifyClient_returns (sound : build = .debug → Bijective s) {elem : Notification}
    (ready : Ready build elem) :
    ∃ t, notifyClient build validate post elem s = .returned () t ∧ Pruned s t := by
  rw [notifyClient_ready_eq ready]
  split
  · exact ⟨s,rfl,.refl s⟩
  cases post elem with
  | failed => exact ⟨s,rfl,.refl s⟩
  | status code =>
    dsimp only
    split
    · obtain ⟨flag,t,ran,pruned⟩ := purge_returns sound elem.contextId
      exact ⟨t,by rw [Program.bind_returned _ ran]; rfl,pruned⟩
    · exact ⟨s,rfl,.refl s⟩

theorem notifyClient_ready {elem : Notification}
    (returned : notifyClient build validate post elem s = .returned () t) : Ready build elem := by
  rintro rfl
  obtain ⟨_,_,callback,returned⟩ := Program.bind_eq_returned.mp returned
  obtain ⟨_,_,uri,returned⟩ := Program.bind_eq_returned.mp returned
  obtain ⟨_,_,contextId,_⟩ := Program.bind_eq_returned.mp returned
  have held : ∀ {field : String} {s t : StaticUeAppLcmProxy rest} {value : Unit},
      (Program.assert Build.debug.asserts (field != "") : Program _ Exception Unit) s =
        .returned value t → field ≠ "" :=
    fun passed => by simpa using (Program.assert_eq_returned.mp passed).1 rfl
  exact ⟨held callback,held uri,held contextId⟩

theorem notifyClients_returns (validate : String → Bool) (post : Notification → PostResult)
    {list : NotificationList} (sound : build = .debug → Bijective s)
    (ready : ∀ elem ∈ list, Ready build elem) :
    ∃ t, notifyClients build validate post list s = .returned () t ∧ Pruned s t := by
  induction list generalizing s with
  | nil => exact ⟨s,rfl,.refl s⟩
  | cons elem rest ih =>
    obtain ⟨middle,first,pruned⟩ := notifyClient_returns sound (ready elem List.mem_cons_self)
    obtain ⟨t,others,after⟩ := ih (fun debug => pruned.bijective (sound debug))
      fun other member => ready other (List.mem_cons_of_mem _ member)
    exact ⟨t,by rw [notifyClients,Program.bind_returned _ first,others],pruned.trans after⟩

theorem notifyClients_ready {list : NotificationList}
    (returned : notifyClients build validate post list s = .returned () t) :
    ∀ elem ∈ list, Ready build elem := by
  induction list generalizing s with
  | nil => simp
  | cons elem rest ih =>
    obtain ⟨_,middle,first,others⟩ := Program.bind_eq_returned.mp returned
    intro other member
    rcases List.mem_cons.mp member with rfl | member
    · exact notifyClient_ready first
    · exact ih others other member

theorem notifyClient_silent (elem : Notification) :
    Program.Silent (notifyClient build validate post elem : Program (StaticUeAppLcmProxy rest) _ _) := by
  unfold notifyClient
  refine Program.silent_bind (Program.silent_assert _ _) fun _ => Program.silent_bind
    (Program.silent_assert _ _) fun _ => Program.silent_bind (Program.silent_assert _ _) fun _ => ?_
  split
  · exact Program.silent_pure _
  split
  · exact Program.silent_pure _
  split
  · exact Program.silent_bind (purge_silent _) fun _ => Program.silent_pure _
  · exact Program.silent_pure _

theorem notifyClients_silent (list : NotificationList) :
    Program.Silent (notifyClients build validate post list : Program (StaticUeAppLcmProxy rest) _ _) := by
  induction list with
  | nil => exact Program.silent_pure _
  | cons elem rest ih => exact Program.silent_bind (notifyClient_silent elem) fun _ => ih

/-! ## Whole calls -/

/-- The contexts an association moves: those it applies to that are routed elsewhere. -/
def Reassigned (s : StaticUeAppLcmProxy rest) (address appName edgeRouter : String) (desc : Desc) : Prop :=
  desc.theAppName = appName ∧ desc.theEdgeRouterEndpoint ≠ edgeRouter ∧
  (desc.theClientAddress = address ∨
    address = "" ∧ s.theTable.lookup ⟨desc.theClientAddress,appName⟩ = none)

/-- The contexts a removal moves: those of the address, back to the edge router of any client. -/
def FallsBack (s : StaticUeAppLcmProxy rest) (address appName : String) (desc : Desc) : Prop :=
  desc.theAppName = appName ∧ desc.theClientAddress = address ∧ address ≠ "" ∧
  ∃ target, s.theTable.lookup ⟨"",appName⟩ = some target ∧ desc.theEdgeRouterEndpoint ≠ target

def Callable (s : StaticUeAppLcmProxy rest) (moved : Desc → Prop) : Prop :=
  ∀ contextId desc, s.theApplicationsByContextId.lookup contextId = some desc → moved desc →
    desc.theCallbackReference ≠ ""

/-- The list of a call is ready to be posted if those it tells have a callback reference. -/
theorem Rerouted.ready_iff {appName : String} {out : NotificationList} (rerouted : Rerouted s t appName out)
    (given : "" ∉ s.theApplicationsByContextId) {moved : Desc → Prop}
    (exact : ∀ contextId desc, s.theApplicationsByContextId.lookup contextId = some desc →
      (moved desc ↔ desc.theAppName = appName ∧ endpointOf t.theTable desc ≠ desc.theEdgeRouterEndpoint ∧
        endpointOf t.theTable desc ≠ "")) :
    (∀ elem ∈ out, Ready build elem) ↔ (build = .debug → Callable s moved) := by
  constructor
  · rintro ready debug contextId desc live tells
    obtain ⟨same,changed,filled⟩ := (exact contextId desc live).mp tells
    have member := (rerouted.notified ⟨desc.theCallbackReference,endpointOf t.theTable desc,contextId⟩).mpr
      ⟨desc,live,mem_refresh.mpr ⟨same,changed,filled,rfl⟩⟩
    exact (ready _ member debug).1
  · rintro callable elem member debug
    obtain ⟨desc,live,told⟩ := (rerouted.notified elem).mp member
    obtain ⟨same,changed,filled,equal⟩ := mem_refresh.mp told
    have callback := callable debug elem.contextId desc live
      ((exact elem.contextId desc live).mpr ⟨same,changed,filled⟩)
    rw [equal]
    refine ⟨callback,filled,?_⟩
    rintro empty
    exact given (empty ▸ KeyedMap.lookup_some_mem live)

theorem Routed.reassigned_iff (routed : Routed s) {after : Table} {address appName edgeRouter : String}
    (filled : edgeRouter ≠ "") (changed : KeyedMap.view after =
      Function.update (KeyedMap.view s.theTable) ⟨address,appName⟩ (some edgeRouter))
    (contextId : String) (desc : Desc) (live : s.theApplicationsByContextId.lookup contextId = some desc) :
    Reassigned s address appName edgeRouter desc ↔ desc.theAppName = appName ∧
      endpointOf after desc ≠ desc.theEdgeRouterEndpoint ∧ endpointOf after desc ≠ "" := by
  refine and_congr_right ?_
  rintro rfl
  have endpoint := routed.endpoint contextId desc live
  have written : endpointOf after desc = if desc.theClientAddress = address ∨
      address = "" ∧ s.theTable.lookup ⟨desc.theClientAddress,desc.theAppName⟩ = none
      then edgeRouter else desc.theEdgeRouterEndpoint := by
    rw [endpoint,endpointOf,endpointOf,route_eq,route_eq,changed,Fallback.resolve_write_eq,
      apply_ite (Option.getD · "")]
    simp [KeyedMap.view,@eq_comm _ "" address]
  rw [written]
  split
  · rename_i applies
    simp [applies,filled,@eq_comm _ edgeRouter]
  · rename_i spared
    simp [spared]

theorem Routed.fallsBack_iff (routed : Routed s) {after : Table} {address appName : String}
    (changed : KeyedMap.view after = Function.update (KeyedMap.view s.theTable) ⟨address,appName⟩ none)
    (contextId : String) (desc : Desc) (live : s.theApplicationsByContextId.lookup contextId = some desc) :
    FallsBack s address appName desc ↔ desc.theAppName = appName ∧
      endpointOf after desc ≠ desc.theEdgeRouterEndpoint ∧ endpointOf after desc ≠ "" := by
  refine and_congr_right ?_
  rintro rfl
  have endpoint := routed.endpoint contextId desc live
  have cleared : endpointOf after desc = (if desc.theClientAddress = address
      then if address = "" then none else s.theTable.lookup ⟨"",desc.theAppName⟩
      else if address = "" then s.theTable.lookup ⟨desc.theClientAddress,desc.theAppName⟩
      else route s.theTable desc.theClientAddress desc.theAppName).getD "" := by
    rw [endpointOf,route_eq,route_eq,changed,Fallback.resolve_clear]
    simp [KeyedMap.view,@eq_comm _ "" address]
  rw [cleared]
  by_cases here : desc.theClientAddress = address
  · by_cases any : address = ""
    · simp [here,any]
    · cases found : s.theTable.lookup ⟨"",desc.theAppName⟩ with
      | none => simp [here,any]
      | some target =>
        have filled := routed.filled _ _ found
        simpa [here,any,filled] using ne_comm
  · by_cases any : address = ""
    · -- what is left of the route of another client is its own entry
      subst any
      cases found : s.theTable.lookup ⟨desc.theClientAddress,desc.theAppName⟩ with
      | none => simp [here]
      | some target => simp [here,found,endpoint,endpointOf,route]
    · simp [here,any,endpoint,endpointOf]

variable (build validate post)

/-- Both calls check their arguments before they take the lock. -/
theorem associateAddress_rejects (s : StaticUeAppLcmProxy rest) (address : String) {appName edgeRouter : String}
    (blank : appName = "" ∨ edgeRouter = "") : ∃ error,
      associateAddress build validate post address appName edgeRouter s = .threw error s := by
  obtain ⟨error,throws⟩ := associateSection_throws address blank
  exact ⟨error,Program.bind_threw _ (throws s)⟩

theorem removeAddress_rejects (s : StaticUeAppLcmProxy rest) (address : String) :
    ∃ error, removeAddress build validate post address "" s = .threw error s :=
  ⟨_,Program.bind_threw _ (by rw [removeSection,if_pos rfl]; rfl)⟩

theorem associateAddress_silent (address : String) {appName edgeRouter : String} (named : appName ≠ "")
    (filled : edgeRouter ≠ "") : Program.Silent (associateAddress build validate post address appName
      edgeRouter : Program (StaticUeAppLcmProxy rest) _ _) :=
  Program.silent_bind (associateSection_silent address named filled) fun _ => notifyClients_silent _

theorem removeAddress_silent (address : String) {appName : String} (named : appName ≠ "") :
    Program.Silent (removeAddress build validate post address appName :
      Program (StaticUeAppLcmProxy rest) _ _) :=
  Program.silent_bind (removeSection_silent address named) fun _ => notifyClients_silent _

variable {build validate post}

theorem Reachable.sound (reached : Reachable build s) : build = .debug → Bijective s := by
  rintro rfl
  exact reached.bijective

/-- A call that comes to its end has associated the address. -/
theorem Reachable.associateAddress_iff (reached : Reachable build s) {address appName edgeRouter : String}
    (named : appName ≠ "") (filled : edgeRouter ≠ "") :
    (∃ t, associateAddress build validate post address appName edgeRouter s = .returned () t ∧
        t.theTable.lookup ⟨address,appName⟩ = some edgeRouter) ↔
      Covered s address appName edgeRouter ∧
        (build = .debug → Callable s (Reassigned s address appName edgeRouter)) := by
  have routed := reached.routed
  rw [← @Routed.sweepFinds_iff _ build _ routed _ _ _ named,← routed.associateSection_defined named filled]
  constructor
  · rintro ⟨t,returned,_⟩
    obtain ⟨out,middle,ran,posted⟩ := Program.bind_eq_returned.mp returned
    obtain ⟨_,_,changed,rerouted⟩ := associateSection_reroutes routed ran
    exact ⟨⟨out,middle,ran⟩,(rerouted.ready_iff reached.ids_given
      (routed.reassigned_iff filled changed)).mp (notifyClients_ready posted)⟩
  · rintro ⟨⟨out,middle,ran⟩,callable⟩
    obtain ⟨_,_,changed,rerouted⟩ := associateSection_reroutes routed ran
    have ready := (rerouted.ready_iff reached.ids_given (routed.reassigned_iff filled changed)).mpr callable
    obtain ⟨t,posted,pruned⟩ := notifyClients_returns validate post
      (fun debug => (reached.sound debug).rerouted rerouted) ready
    refine ⟨t,Program.bind_eq_returned.mpr ⟨out,middle,ran,posted⟩,?_⟩
    have written := congrFun changed ⟨address,appName⟩
    rw [Function.update_self] at written
    rw [pruned.theTable]
    exact written

/-- A removal always gets through its section; it comes to its end if its list can be posted. -/
theorem Reachable.removeAddress_iff (reached : Reachable build s) {address appName : String}
    (named : appName ≠ "") :
    (∃ t, removeAddress build validate post address appName s = .returned () t ∧
        t.theTable.lookup ⟨address,appName⟩ = none) ↔
      (build = .debug → Callable s (FallsBack s address appName)) := by
  have routed := reached.routed
  obtain ⟨out,middle,ran⟩ := routed.removeSection_defined build named
  obtain ⟨_,changed,rerouted⟩ := removeSection_reroutes routed ran
  rw [← rerouted.ready_iff reached.ids_given (routed.fallsBack_iff changed)]
  constructor
  · rintro ⟨t,returned,_⟩
    rw [removeAddress,Program.bind_returned _ ran] at returned
    exact notifyClients_ready returned
  · intro ready
    obtain ⟨t,posted,pruned⟩ := notifyClients_returns validate post
      (fun debug => (reached.sound debug).rerouted rerouted) ready
    refine ⟨t,by rw [removeAddress,Program.bind_returned _ ran,posted],?_⟩
    have cleared := congrFun changed ⟨address,appName⟩
    rw [Function.update_self] at cleared
    rw [pruned.theTable]
    exact cleared

end Posts
end EtsiMec.StaticUeAppLcmProxy
