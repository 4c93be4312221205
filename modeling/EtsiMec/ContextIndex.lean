import EtsiMec.Routing

/-! The two indexes of the contexts, by context ID and by the UE application ID the client
chose. Drawing context IDs that are new is enough for the second index to refer to live
contexts only. That every live context is in it takes more: clients must not repeat the
UE application ID of a live context. -/
namespace EtsiMec.StaticUeAppLcmProxy

open Effect

variable {rest : Rest} {build : Build} {s t : StaticUeAppLcmProxy rest}

/-! ## New context IDs -/

def Call.uuid? : Call rest → Option String
  | .createContext uuid _ _ => some uuid
  | _ => none

/-- The context IDs drawn in a run: never empty, none twice. -/
structure FreshIds (calls : List (Call rest)) : Prop where
  distinct : (calls.filterMap Call.uuid?).Nodup
  filled : "" ∉ calls.filterMap Call.uuid?

/-- Only one call draws a given context ID. -/
theorem FreshIds.unique {calls : List (Call rest)} (fresh : FreshIds calls) {call other : Call rest}
    (member : call ∈ calls) (member' : other ∈ calls) {uuid : String} (draws : call.uuid? = some uuid)
    (draws' : other.uuid? = some uuid) : call = other := by
  have apart := List.pairwise_filterMap.mp fresh.distinct
  have symmetric : Std.Symm fun a b : Call rest =>
      ∀ id, a.uuid? = some id → ∀ id', b.uuid? = some id' → id ≠ id' :=
    ⟨fun a b here id drawn id' drawn' same => here id' drawn' id drawn same.symm⟩
  by_contra different
  exact apart.forall member member' different uuid draws uuid draws' rfl

/-- The first part of a run that draws fresh IDs. -/
theorem FreshIds.front {front back : List (Call rest)} (fresh : FreshIds (front ++ back)) : FreshIds front := by
  have part := (List.sublist_append_left front back).filterMap Call.uuid?
  exact ⟨fresh.distinct.sublist part,fun member => fresh.filled (part.subset member)⟩

def Fresh (s : StaticUeAppLcmProxy rest) (call : Call rest) : Prop :=
  ∀ uuid, call.uuid? = some uuid → uuid ≠ "" ∧ uuid ∉ s.theApplicationsByContextId

theorem Rerouted.mem {appName : String} {out : NotificationList} (rerouted : Rerouted s t appName out)
    {contextId : String} :
    contextId ∈ t.theApplicationsByContextId ↔ contextId ∈ s.theApplicationsByContextId := by
  rw [KeyedMap.mem_iff_lookup,KeyedMap.mem_iff_lookup,rerouted.contexts]
  simp

/-- Only a creation that is granted brings in a context ID, the one it drew. -/
theorem step_brings {call : Call rest} (routed : Routed s) (taken : step build s call = some t)
    {contextId : String} (live : contextId ∈ t.theApplicationsByContextId) :
    contextId ∈ s.theApplicationsByContextId ∨ contextId ≠ "" ∧ ∃ clientAddress request edgeRouter,
      call = .createContext contextId clientAddress request ∧ Grants s clientAddress request edgeRouter := by
  obtain ⟨desc,found⟩ := KeyedMap.mem_iff_lookup.mp live
  cases routed.change taken with
  | unchanged => exact .inl live
  | rerouted changed named filled rerouted => exact .inl (rerouted.mem.mp live)
  | created drawn grants given asserted =>
    rw [created_lookup] at found
    split at found
    · rename_i new
      obtain ⟨rfl,_⟩ := new
      exact .inr ⟨given,_,_,_,drawn,grants⟩
    · exact .inl (KeyedMap.lookup_some_mem found)
  | recalled there callbackReference =>
    rw [recalled_lookup] at found
    split at found
    · rename_i same
      exact .inl (KeyedMap.lookup_some_mem (same ▸ there))
    · exact .inl (KeyedMap.lookup_some_mem found)
  | erased there =>
    rw [erased_lookup] at found
    split at found
    · contradiction
    · exact .inl (KeyedMap.lookup_some_mem found)
  | registry theApplications => exact .inl live

theorem step_ids {call : Call rest} (routed : Routed s) (taken : step build s call = some t)
    {contextId : String} (live : contextId ∈ t.theApplicationsByContextId) :
    contextId ∈ s.theApplicationsByContextId ∨ call.uuid? = some contextId ∧ contextId ≠ "" := by
  rcases step_brings routed taken live with old | ⟨given,_,_,_,rfl,_⟩
  · exact .inl old
  · exact .inr ⟨rfl,given⟩

/-- No context is stored under an empty ID. -/
theorem Reachable.ids_given (reached : Reachable build s) : "" ∉ s.theApplicationsByContextId := by
  have kept : ∀ (s : StaticUeAppLcmProxy rest) call t, Routed s ∧ "" ∉ s.theApplicationsByContextId →
      step build s call = some t → Routed t ∧ "" ∉ t.theApplicationsByContextId := by
    rintro s call t ⟨routed,given⟩ taken
    refine ⟨routed_step routed taken,fun live => ?_⟩
    rcases step_ids routed taken live with old | ⟨_,filled⟩
    · exact given old
    · exact filled rfl
  exact (Run.Reachable.invariant kept ⟨routed_empty,by simp [empty]⟩ reached).2

/-- IDs that are new in the run are new in the states it goes through. -/
theorem FreshIds.along {calls : List (Call rest)} (fresh : FreshIds calls) :
    Run.Along (step build) (fun s call => Routed s ∧ Fresh s call) empty calls := by
  have unused : Run.Along (step build) (fun s call => Routed s ∧
      Run.Unused Call.uuid? (fun s uuid => uuid ∈ s.theApplicationsByContextId) s call) empty calls := by
    refine Run.along_unused _ _ (fun _ _ _ => routed_step) ?_ routed_empty fresh.distinct (by simp [empty])
    exact fun s call t routed taken uuid live => (step_ids routed taken live).imp_right And.left
  have filled : ∀ call ∈ calls, ∀ uuid, call.uuid? = some uuid → uuid ≠ "" := by
    rintro call member _ drawn rfl
    exact fresh.filled (List.mem_filterMap.mpr ⟨call,member,drawn⟩)
  refine Run.along_imp ?_ (Run.along_and unused (Run.along_of_mem filled empty))
  exact fun s call both => ⟨both.1.1,fun uuid drawn => ⟨both.2 uuid drawn,both.1.2 uuid drawn⟩⟩

/-! ## The index refers to live contexts -/

/-- Every entry of the index by UE application ID refers to a live context of that ID. -/
def Indexed (s : StaticUeAppLcmProxy rest) : Prop :=
  ∀ ueAppId contextId, s.theApplicationsByUeAppId.lookup ueAppId = some contextId →
    ∃ desc, s.theApplicationsByContextId.lookup contextId = some desc ∧ desc.theAssociateUeAppId = ueAppId

theorem Rerouted.live {appName : String} {out : NotificationList} (rerouted : Rerouted s t appName out)
    {contextId : String} {desc : Desc} (found : s.theApplicationsByContextId.lookup contextId = some desc) :
    ∃ after, t.theApplicationsByContextId.lookup contextId = some after ∧
      after.theAssociateUeAppId = desc.theAssociateUeAppId :=
  ⟨_,by rw [rerouted.contexts,found]; rfl,refresh_ueApp ..⟩

theorem Indexed.rerouted (indexed : Indexed s) {appName : String} {out : NotificationList}
    (rerouted : Rerouted s t appName out) : Indexed t := by
  intro ueAppId contextId entry
  rw [rerouted.theApplicationsByUeAppId] at entry
  obtain ⟨desc,live,same⟩ := indexed ueAppId contextId entry
  obtain ⟨after,there,kept⟩ := rerouted.live live
  exact ⟨after,there,kept.trans same⟩

theorem Indexed.created (indexed : Indexed s) {uuid : String} (new : uuid ∉ s.theApplicationsByContextId)
    (clientAddress : String) (request : AppContext rest) (edgeRouter : String) :
    Indexed (created s uuid clientAddress request edgeRouter) := by
  intro ueAppId contextId entry
  rw [created_index] at entry
  split at entry
  · rename_i here
    cases entry
    exact ⟨_,by rw [created_lookup,if_pos ⟨rfl,new⟩],here.1.symm⟩
  · obtain ⟨desc,live,same⟩ := indexed ueAppId contextId entry
    have other : contextId ≠ uuid := fun equal => new (equal ▸ KeyedMap.lookup_some_mem live)
    exact ⟨desc,by rw [created_lookup,if_neg fun both => other both.1,live],same⟩

theorem Indexed.recalled (indexed : Indexed s) {id : String} {desc : Desc}
    (there : s.theApplicationsByContextId.lookup id = some desc) (callbackReference : String) :
    Indexed (recalled s id desc callbackReference) := by
  intro ueAppId contextId entry
  obtain ⟨before,live,same⟩ := indexed ueAppId contextId entry
  by_cases here : contextId = id
  · subst here
    cases there.symm.trans live
    exact ⟨{ desc with theCallbackReference := callbackReference },
      by rw [recalled_lookup,if_pos rfl],same⟩
  · exact ⟨before,by rw [recalled_lookup,if_neg here,live],same⟩

theorem Indexed.erased (indexed : Indexed s) {id : String} {desc : Desc}
    (there : s.theApplicationsByContextId.lookup id = some desc) : Indexed (erased s id desc) := by
  intro ueAppId contextId entry
  rw [erased_index] at entry
  split at entry
  · contradiction
  rename_i other
  obtain ⟨before,live,same⟩ := indexed ueAppId contextId entry
  -- the context erased took its own entry along, not this one
  have kept : contextId ≠ id := by
    rintro rfl
    cases there.symm.trans live
    exact other same.symm
  exact ⟨before,by rw [erased_lookup,if_neg kept,live],same⟩

theorem indexed_step {call : Call rest} (indexed : Indexed s) (routed : Routed s) (fresh : Fresh s call)
    (taken : step build s call = some t) : Indexed t := by
  cases routed.change taken with
  | unchanged => exact indexed
  | rerouted changed named filled rerouted => exact indexed.rerouted rerouted
  | created drawn grants given asserted => exact indexed.created (fresh _ (by rw [drawn]; rfl)).2 _ _ _
  | recalled live callbackReference => exact indexed.recalled live callbackReference
  | erased live => exact indexed.erased live
  | registry theApplications => exact indexed

theorem indexed_empty : Indexed (empty : StaticUeAppLcmProxy rest) := by
  intro ueAppId contextId entry
  simp [empty] at entry

theorem FreshIds.indexed {calls : List (Call rest)} (fresh : FreshIds calls)
    (ran : Run.run (step build) empty calls = some s) : Indexed s :=
  Run.invariant (fun _ _ _ indexed guard taken => indexed_step indexed guard.1 guard.2 taken)
    indexed_empty fresh.along ran

/-- No entry of the index dangles, whatever UE application IDs the clients chose, and an
update writes the callback of a live context with the ID of the request, or nothing. -/
theorem index_entries_live (calls : List (Call rest)) (fresh : FreshIds calls) (s : StaticUeAppLcmProxy rest)
    (ran : Run.run (step .release) empty calls = some s) :
    (∀ ueAppId contextId, s.theApplicationsByUeAppId.lookup ueAppId = some contextId →
      ∃ desc, s.theApplicationsByContextId.lookup contextId = some desc ∧
        desc.theAssociateUeAppId = ueAppId) ∧
    ∀ request : AppContext rest, updateContext request s = .returned false s ∨
      ∃ contextId desc, s.theApplicationsByContextId.lookup contextId = some desc ∧
        desc.theAssociateUeAppId = request.associateUeAppId ∧
        updateContext request s =
          .returned true (recalled s contextId desc request.callbackReference) := by
  have indexed := fresh.indexed ran
  refine ⟨indexed,fun request => ?_⟩
  cases entry : s.theApplicationsByUeAppId.lookup request.associateUeAppId with
  | none => exact .inl (updateContext_returned.mpr (.inl ⟨entry,rfl,rfl⟩))
  | some contextId =>
    obtain ⟨desc,live,same⟩ := indexed _ contextId entry
    exact .inr ⟨contextId,desc,live,same,
      updateContext_returned.mpr (.inr ⟨contextId,desc,entry,live,rfl,rfl⟩)⟩

/-- Two contexts with the same UE application ID; the index keeps the first. -/
def duplicateCalls : List (Call Rest.plain) :=
  sampleCalls ++ [.createContext "c2" "client" (sampleRequest "ue1" "http://ue2" sampleId_filled)]

theorem duplicate_fresh : FreshIds duplicateCalls := ⟨by decide,by decide⟩

theorem duplicate_entries_live :
    (∀ ueAppId contextId,
      (after .release duplicateCalls (by decide)).theApplicationsByUeAppId.lookup ueAppId = some contextId →
      ∃ desc, (after .release duplicateCalls (by decide)).theApplicationsByContextId.lookup contextId =
        some desc ∧ desc.theAssociateUeAppId = ueAppId) ∧
    ∀ request : AppContext Rest.plain,
      updateContext request (after .release duplicateCalls (by decide)) =
        .returned false (after .release duplicateCalls (by decide)) ∨
      ∃ contextId desc,
        (after .release duplicateCalls (by decide)).theApplicationsByContextId.lookup contextId = some desc ∧
        desc.theAssociateUeAppId = request.associateUeAppId ∧
        updateContext request (after .release duplicateCalls (by decide)) = .returned true
          (recalled (after .release duplicateCalls (by decide)) contextId desc request.callbackReference) :=
  index_entries_live duplicateCalls duplicate_fresh _ (Option.some_get (by decide)).symm

/-! ## The two indexes in bijection -/

/-- Every live context is in the index, and every entry of the index is a live context. -/
structure Bijective (s : StaticUeAppLcmProxy rest) : Prop where
  points : ∀ contextId desc, s.theApplicationsByContextId.lookup contextId = some desc →
    s.theApplicationsByUeAppId.lookup desc.theAssociateUeAppId = some contextId
  live : Indexed s

/-- What the assertions of the proxy say of the two maps, and what it relies on. -/
structure Agree (s : StaticUeAppLcmProxy rest) : Prop where
  bijective : Bijective s
  size : KeyedMap.size s.theApplicationsByContextId = KeyedMap.size s.theApplicationsByUeAppId
  deletes : ∀ contextId reason, deleteContext .release contextId s ≠ .halted reason

theorem Bijective.size (bijective : Bijective s) :
    KeyedMap.size s.theApplicationsByContextId = KeyedMap.size s.theApplicationsByUeAppId := by
  have ueAppId : ∀ contextId ∈ s.theApplicationsByContextId, s.theApplicationsByUeAppId.lookup
      ((s.theApplicationsByContextId.lookup contextId).elim "" Desc.theAssociateUeAppId) = some contextId := by
    intro contextId member
    obtain ⟨desc,found⟩ := KeyedMap.mem_iff_lookup.mp member
    rw [found]
    exact bijective.points contextId desc found
  have contextId : ∀ ueAppId ∈ s.theApplicationsByUeAppId, ∃ desc, s.theApplicationsByContextId.lookup
      ((s.theApplicationsByUeAppId.lookup ueAppId).getD "") = some desc ∧
      desc.theAssociateUeAppId = ueAppId := by
    intro ueAppId member
    obtain ⟨id,entry⟩ := KeyedMap.mem_iff_lookup.mp member
    rw [entry]
    exact bijective.live ueAppId id entry
  apply Nat.le_antisymm
  · refine KeyedMap.size_le_of_injection (fun id => (s.theApplicationsByContextId.lookup id).elim ""
      Desc.theAssociateUeAppId) (fun id member => KeyedMap.lookup_some_mem (ueAppId id member)) ?_
    intro a ha b hb same
    have first := ueAppId a ha
    rw [same,ueAppId b hb] at first
    exact (Option.some.inj first).symm
  · refine KeyedMap.size_le_of_injection (fun id => (s.theApplicationsByUeAppId.lookup id).getD "") ?_ ?_
    · intro id member
      obtain ⟨desc,found,_⟩ := contextId id member
      exact KeyedMap.lookup_some_mem found
    · intro a ha b hb same
      obtain ⟨desc,found,rfl⟩ := contextId a ha
      obtain ⟨other,there,rfl⟩ := contextId b hb
      rw [← same,found] at there
      rw [Option.some.inj there]

theorem Bijective.agree (bijective : Bijective s) : Agree s := by
  refine ⟨bijective,bijective.size,fun contextId => ?_⟩
  rw [(deleteContext_silent contextId).returns_iff]
  cases found : s.theApplicationsByContextId.lookup contextId with
  | none => exact ⟨false,s,deleteContext_returned.mpr (.inl ⟨found,rfl,rfl⟩)⟩
  | some desc =>
    have entry := KeyedMap.lookup_some_mem (bijective.points contextId desc found)
    exact ⟨true,_,deleteContext_returned.mpr (.inr ⟨desc,found,entry,rfl,rfl⟩)⟩

/-- No creation the proxy would grant repeats the UE application ID of a live context. -/
def NewUeApp (s : StaticUeAppLcmProxy rest) (call : Call rest) : Prop :=
  ∀ uuid clientAddress request edgeRouter, call = .createContext uuid clientAddress request →
    Grants s clientAddress request edgeRouter →
    ∀ contextId desc, s.theApplicationsByContextId.lookup contextId = some desc →
      desc.theAssociateUeAppId ≠ request.associateUeAppId

theorem Bijective.rerouted (bijective : Bijective s) {appName : String} {out : NotificationList}
    (rerouted : Rerouted s t appName out) : Bijective t := by
  refine ⟨fun contextId desc found => ?_,bijective.live.rerouted rerouted⟩
  rw [rerouted.contexts] at found
  obtain ⟨before,there,rfl⟩ := Option.map_eq_some_iff.mp found
  rw [rerouted.theApplicationsByUeAppId,refresh_ueApp]
  exact bijective.points contextId before there

theorem Bijective.created (bijective : Bijective s) {uuid : String}
    (new : uuid ∉ s.theApplicationsByContextId) {request : AppContext rest}
    (absent : request.associateUeAppId ∉ s.theApplicationsByUeAppId) (clientAddress edgeRouter : String) :
    Bijective (created s uuid clientAddress request edgeRouter) := by
  refine ⟨fun contextId desc found => ?_,bijective.live.created new _ _ _⟩
  rw [created_lookup] at found
  rw [created_index]
  split at found
  · rename_i here
    cases found
    rw [if_pos ⟨rfl,absent⟩,here.1]
  · have entry := bijective.points contextId desc found
    rw [if_neg,entry]
    rintro ⟨same,_⟩
    exact absent (same ▸ KeyedMap.lookup_some_mem entry)

theorem Bijective.recalled (bijective : Bijective s) {id : String} {before : Desc}
    (there : s.theApplicationsByContextId.lookup id = some before) (callbackReference : String) :
    Bijective (recalled s id before callbackReference) := by
  refine ⟨fun contextId desc found => ?_,bijective.live.recalled there _⟩
  rw [recalled_lookup] at found
  split at found
  · rename_i same
    subst same
    cases found
    exact bijective.points contextId before there
  · exact bijective.points contextId desc found

theorem Bijective.erased (bijective : Bijective s) {id : String} {before : Desc}
    (there : s.theApplicationsByContextId.lookup id = some before) : Bijective (erased s id before) := by
  refine ⟨fun contextId desc found => ?_,bijective.live.erased there⟩
  rw [erased_lookup] at found
  split at found
  · contradiction
  rename_i other
  have entry := bijective.points contextId desc found
  rw [erased_index,if_neg,entry]
  intro same
  rw [same,bijective.points id before there] at entry
  exact other (Option.some.inj entry).symm

theorem bijective_step {call : Call rest} (bijective : Bijective s) (routed : Routed s) (fresh : Fresh s call)
    (new : NewUeApp s call) (taken : step build s call = some t) : Bijective t := by
  cases routed.change taken with
  | unchanged => exact bijective
  | rerouted changed named filled rerouted => exact bijective.rerouted rerouted
  | created drawn grants given asserted =>
    refine bijective.created (fresh _ (by rw [drawn]; rfl)).2 ?_ _ _
    intro member
    obtain ⟨id,entry⟩ := KeyedMap.mem_iff_lookup.mp member
    obtain ⟨other,live,same⟩ := bijective.live _ id entry
    exact new _ _ _ _ drawn grants id other live same
  | recalled live callbackReference => exact bijective.recalled live callbackReference
  | erased live => exact bijective.erased live
  | registry theApplications => exact ⟨bijective.points,bijective.live⟩

/-- With assertions, a creation that finds one of its keys taken stops the run: the two
indexes agree in every state a run gets to, whatever the clients send. -/
theorem Reachable.bijective (reached : Reachable .debug s) : Bijective s := by
  have kept : ∀ (s : StaticUeAppLcmProxy rest) call t, Routed s ∧ Bijective s →
      step .debug s call = some t → Routed t ∧ Bijective t := by
    rintro s call t ⟨routed,bijective⟩ taken
    refine ⟨routed_step routed taken,?_⟩
    cases routed.change taken with
    | unchanged => exact bijective
    | rerouted changed named filled rerouted => exact bijective.rerouted rerouted
    | created drawn grants given asserted => exact bijective.created (asserted rfl).1 (asserted rfl).2 _ _
    | recalled live callbackReference => exact bijective.recalled live callbackReference
    | erased live => exact bijective.erased live
    | registry theApplications => exact ⟨bijective.points,bijective.live⟩
  exact (Run.Reachable.invariant kept ⟨routed_empty,by simp [empty],indexed_empty⟩ reached).2

/-- A creation that repeats a live UE application ID leaves a context out of the index. -/
theorem bijective_step_iff {call : Call rest} (bijective : Bijective s) (routed : Routed s)
    (fresh : Fresh s call) : NewUeApp s call ↔ ∀ t, step .release s call = some t → Bijective t := by
  refine ⟨fun new t taken => bijective_step bijective routed fresh new taken,?_⟩
  rintro kept uuid clientAddress request edgeRouter rfl grants contextId desc live same
  obtain ⟨drawn,new⟩ := fresh uuid rfl
  obtain ⟨response,_,ran⟩ :=
    createContext_granted .release grants drawn (route_filled routed.filled grants.routed)
    (by simp)
  have after := kept (created s uuid clientAddress request edgeRouter)
    (by simp [step,exec,Program.map_eq_returned.mpr ⟨response,ran,rfl⟩])
  have other : contextId ≠ uuid := fun equal => new (equal ▸ KeyedMap.lookup_some_mem live)
  have first := after.points uuid _ (by rw [created_lookup,if_pos ⟨rfl,new⟩])
  have second := after.points contextId desc (by rw [created_lookup,if_neg fun both => other both.1,live])
  rw [same] at second
  exact other (Option.some.inj (second.symm.trans first))

/-- The two indexes agree throughout a run if and only if no creation that is granted
repeats the UE application ID of a context that is live. -/
theorem indexes_agree_iff (calls : List (Call rest)) (fresh : FreshIds calls) :
    Run.Throughout (step .release) Agree empty calls ↔ Run.Along (step .release) NewUeApp empty calls := by
  have bijective : ∀ s : StaticUeAppLcmProxy rest, Agree s ↔ Bijective s :=
    fun s => ⟨Agree.bijective,Bijective.agree⟩
  rw [show (Agree : StaticUeAppLcmProxy rest → Prop) = Bijective from funext fun s => propext (bijective s)]
  refine Run.throughout_iff_along ?_ ⟨by simp [empty],indexed_empty⟩ fresh.along
  intro s call bijective guard
  exact bijective_step_iff bijective guard.1 guard.2

/-- The only creation of the run finds no context. -/
theorem sample_indexes_agree : Run.Throughout (step .release) Agree empty sampleCalls := by
  refine (indexes_agree_iff sampleCalls ⟨by decide,by decide⟩).mpr (Run.along_iff.mpr ?_)
  rintro front _ back t split ran uuid clientAddress request edgeRouter rfl _ contextId desc live
  rcases front with _ | ⟨first,_ | ⟨second,_ | ⟨third,front⟩⟩⟩
  · cases split
  · cases split
  · cases split
    cases ran
    contradiction
  · simp [sampleCalls] at split

/-- After the context the index knows is deleted, deleting the other one is undefined. -/
theorem duplicate_indexes_disagree :
    FreshIds (duplicateCalls ++ [.deleteContext "c1"]) ∧
    ¬Run.Throughout (step .release) Agree empty (duplicateCalls ++ [.deleteContext "c1"]) ∧
    KeyedMap.size (after .release duplicateCalls (by decide)).theApplicationsByContextId = 2 ∧
    KeyedMap.size (after .release duplicateCalls (by decide)).theApplicationsByUeAppId = 1 ∧
    deleteContext .release "c2" (after .release (duplicateCalls ++ [.deleteContext "c1"]) (by decide)) =
      .halted .undefined := by
  refine ⟨⟨by decide,by decide⟩,?_,by decide,by decide,Outcome.reason?_eq_some.mp (by decide)⟩
  intro throughout
  have agree := Run.throughout_iff.mp throughout duplicateCalls [.deleteContext "c1"] _ rfl
    (Option.some_get (by decide)).symm
  exact absurd agree.size (by decide)

end EtsiMec.StaticUeAppLcmProxy
