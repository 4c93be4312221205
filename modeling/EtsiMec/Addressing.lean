import EtsiMec.Posting

/-! What the loop of `notifyClients` asserts of each element of its list. The URI comes
from the table and the context ID from the proxy, and neither is ever empty; the callback
reference comes from the client, who need not give one. -/
namespace EtsiMec.StaticUeAppLcmProxy

open Effect

variable {rest : Rest} {build : Build} {s t : StaticUeAppLcmProxy rest}

/-- What the three assertions ask. -/
def Addressed (elem : Notification) : Prop :=
  elem.callbackReference ≠ "" ∧ elem.referenceUri ≠ "" ∧ elem.contextId ≠ ""

/-- The list that the call passes to `notifyClients`, if any, meets the assertions. -/
def Addresses (build : Build) (s : StaticUeAppLcmProxy rest) (call : Call rest) : Prop :=
  ∀ out t, exec build call s = .returned (.notifications out) t → ∀ elem ∈ out, Addressed elem

/-- If the call changes the table, each context that it moves has a callback reference. -/
def CallableMoves (s : StaticUeAppLcmProxy rest) : Call rest → Prop
  | .associateAddress address appName edgeRouter => appName ≠ "" → edgeRouter ≠ "" →
    Covered s address appName edgeRouter → Callable s (Reassigned s address appName edgeRouter)
  | .removeAddress address appName => appName ≠ "" → Callable s (FallsBack s address appName)
  | _ => True

/-- The list of a call that reroutes is addressed if those it moves have a callback reference. -/
theorem Rerouted.addressed_iff {appName : String} {out : NotificationList} (rerouted : Rerouted s t appName out)
    (given : "" ∉ s.theApplicationsByContextId) {moved : Desc → Prop}
    (exact : ∀ contextId desc, s.theApplicationsByContextId.lookup contextId = some desc →
      (moved desc ↔ desc.theAppName = appName ∧ endpointOf t.theTable desc ≠ desc.theEdgeRouterEndpoint ∧
        endpointOf t.theTable desc ≠ "")) :
    (∀ elem ∈ out, Addressed elem) ↔ Callable s moved := by
  have ready := @Rerouted.ready_iff rest .debug s t appName out rerouted given moved exact
  simpa [Ready,Addressed] using ready

theorem addresses_iff (routed : Routed s) (given : "" ∉ s.theApplicationsByContextId) (call : Call rest) :
    Addresses build s call ↔ CallableMoves s call := by
  cases call with
  | associateAddress address appName edgeRouter =>
    constructor
    · intro addresses named filled covered
      have finds := (@Routed.sweepFinds_iff _ build _ routed address appName edgeRouter named).mpr covered
      obtain ⟨out,t,ran⟩ := (routed.associateSection_defined named filled).mpr finds
      obtain ⟨_,_,changed,rerouted⟩ := associateSection_reroutes routed ran
      exact (rerouted.addressed_iff given (routed.reassigned_iff filled changed)).mp
        (addresses out t (Program.map_eq_returned.mpr ⟨out,ran,rfl⟩))
    · intro callable out t returned
      obtain ⟨list,ran,same⟩ := Program.map_eq_returned.mp returned
      cases same
      obtain ⟨named,filled,changed,rerouted⟩ := associateSection_reroutes routed ran
      have covered := (routed.sweepFinds_iff named).mp
        ((routed.associateSection_defined named filled).mp ⟨out,t,ran⟩)
      exact (rerouted.addressed_iff given (routed.reassigned_iff filled changed)).mpr
        (callable named filled covered)
  | removeAddress address appName =>
    constructor
    · intro addresses named
      obtain ⟨out,t,ran⟩ := routed.removeSection_defined build named
      obtain ⟨_,changed,rerouted⟩ := removeSection_reroutes routed ran
      exact (rerouted.addressed_iff given (routed.fallsBack_iff changed)).mp
        (addresses out t (Program.map_eq_returned.mpr ⟨out,ran,rfl⟩))
    · intro callable out t returned
      obtain ⟨list,ran,same⟩ := Program.map_eq_returned.mp returned
      cases same
      obtain ⟨named,changed,rerouted⟩ := removeSection_reroutes routed ran
      exact (rerouted.addressed_iff given (routed.fallsBack_iff changed)).mpr (callable named)
  | _ =>
    refine iff_of_true ?_ trivial
    intro out t returned
    obtain ⟨_,_,other⟩ := Program.map_eq_returned.mp returned
    contradiction

theorem step_given (routed : Routed s) (given : "" ∉ s.theApplicationsByContextId) {call : Call rest}
    (taken : step build s call = some t) : "" ∉ t.theApplicationsByContextId := by
  intro live
  rcases step_ids routed taken live with old | ⟨_,filled⟩
  · exact given old
  · exact filled rfl

/-- Every list of a run meets the assertions of `notifyClients` if and only if no call of
the run moves a context that gave no callback reference. -/
theorem addressed_iff_callable (build : Build) (calls : List (Call rest)) :
    Run.Along (step build) (Addresses build) empty calls ↔
      Run.Along (step build) CallableMoves empty calls := by
  have kept : ∀ (s : StaticUeAppLcmProxy rest) call t, Routed s ∧ "" ∉ s.theApplicationsByContextId →
      step build s call = some t → Routed t ∧ "" ∉ t.theApplicationsByContextId :=
    fun s call t holds taken => ⟨routed_step holds.1 taken,step_given holds.1 holds.2 taken⟩
  exact Run.along_congr kept (fun s call holds => addresses_iff holds.1 holds.2 call)
    ⟨routed_empty,by simp [empty]⟩

/-- A client asks for a context without a callback reference, and is given another edge router. -/
def silentCalls : List (Call Rest.plain) :=
  [.addApp sampleApp,.associateAddress "" "app" "er1",
    .createContext "c1" "client" (sampleRequest "ue1" "" sampleId_filled)]

theorem silent_unaddressed :
    (∃ t, associateSection .debug "client" "app" "er2" (after .debug silentCalls (by decide)) =
      .returned [⟨"","er2","c1"⟩] t) ∧
    (∀ (validate : String → Bool) (post : Notification → PostResult) (s : StaticUeAppLcmProxy Rest.plain),
      notifyClients .debug validate post [⟨"","er2","c1"⟩] s = .halted .assertion) ∧
    ¬Run.Along (step .debug) (Addresses .debug) empty (silentCalls ++ [.associateAddress "client" "app" "er2"]) := by
  have listed : ∃ t, associateSection .debug "client" "app" "er2" (after .debug silentCalls (by decide)) =
      .returned [⟨"","er2","c1"⟩] t := ⟨_,rfl⟩
  refine ⟨listed,fun _ _ _ => rfl,fun along => ?_⟩
  obtain ⟨t,ran⟩ := listed
  have last := (Run.along_append along (Option.some_get (by decide)).symm).2.1
  exact (last _ t (Program.map_eq_returned.mpr ⟨_,ran,rfl⟩) ⟨"","er2","c1"⟩ (by simp)).1 rfl

end EtsiMec.StaticUeAppLcmProxy
