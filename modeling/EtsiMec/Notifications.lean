import EtsiMec.ContextIndex
import EtsiMec.Library.Log

/-! What the notification lists say. Each list is exact for its call; over a run, the last
URI issued for a context, in its creation or in a list, is the endpoint it holds, unless
it holds none. -/
namespace EtsiMec.StaticUeAppLcmProxy

open Effect

variable {rest : Rest} {build : Build} {s t : StaticUeAppLcmProxy rest}

/-! ## One call -/

/-- One entry for each context whose endpoint became another non-empty one, and no other. -/
structure ExactNotifications (s t : StaticUeAppLcmProxy rest) (out : NotificationList) : Prop where
  once : (out.map (·.contextId)).Nodup
  exact : ∀ elem, elem ∈ out ↔ ∃ before after,
    s.theApplicationsByContextId.lookup elem.contextId = some before ∧
    t.theApplicationsByContextId.lookup elem.contextId = some after ∧
    after.theEdgeRouterEndpoint ≠ before.theEdgeRouterEndpoint ∧ after.theEdgeRouterEndpoint ≠ "" ∧
    elem = ⟨after.theCallbackReference,after.theEdgeRouterEndpoint,elem.contextId⟩

def Quiet (s t : StaticUeAppLcmProxy rest) (out : NotificationList) : Prop :=
  out = [] ∧ ∀ contextId,
    t.theApplicationsByContextId.lookup contextId = s.theApplicationsByContextId.lookup contextId

theorem Rerouted.exact {appName : String} {out : NotificationList} (rerouted : Rerouted s t appName out) :
    ExactNotifications s t out := by
  refine ⟨rerouted.once,fun elem => ?_⟩
  rw [rerouted.notified,rerouted.contexts]
  constructor
  · rintro ⟨desc,found,member⟩
    obtain ⟨same,changed,filled,equal⟩ := mem_refresh.mp member
    refine ⟨desc,(refresh t.theTable appName elem.contextId desc).1,found,by rw [found]; rfl,?_⟩
    simpa [refresh,same] using ⟨changed,filled,equal⟩
  · rintro ⟨desc,after,found,moved,changed,filled,equal⟩
    rw [found,Option.map_some,Option.some.injEq] at moved
    subst moved
    refine ⟨desc,found,mem_refresh.mpr ?_⟩
    by_cases same : desc.theAppName = appName
    · simp only [refresh,ne_eq,same,not_true_eq_false,if_false] at changed filled equal
      exact ⟨same,changed,filled,equal⟩
    · simp [refresh,same] at changed

/-- A call that leaves the routes as they were finds every descriptor up to date. -/
theorem Rerouted.quiet {appName : String} {out : NotificationList} (rerouted : Rerouted s t appName out)
    (routed : Routed s) (table : KeyedMap.view t.theTable = KeyedMap.view s.theTable) : Quiet s t out := by
  have current : ∀ contextId desc, s.theApplicationsByContextId.lookup contextId = some desc →
      refresh t.theTable appName contextId desc = (desc,[]) := by
    intro contextId desc found
    apply refresh_current
    rw [routed.endpoint contextId desc found,endpointOf,endpointOf,route_eq,route_eq,table]
  constructor
  · apply List.eq_nil_iff_forall_not_mem.mpr
    intro elem member
    obtain ⟨desc,found,inside⟩ := (rerouted.notified elem).mp member
    simp [current _ desc found] at inside
  · intro contextId
    rw [rerouted.contexts]
    cases found : s.theApplicationsByContextId.lookup contextId with
    | none => rfl
    | some desc => simp [current contextId desc found]

/-- What a list and the endpoint it leaves have to do with each other. -/
theorem Rerouted.told {appName : String} {out : NotificationList} (rerouted : Rerouted s t appName out)
    {contextId : String} {after : Desc} (found : t.theApplicationsByContextId.lookup contextId = some after)
    (filled : after.theEdgeRouterEndpoint ≠ "") :
    (∃ elem ∈ out, elem.contextId = contextId ∧ elem.referenceUri = after.theEdgeRouterEndpoint) ∨
    ((∀ elem ∈ out, elem.contextId ≠ contextId) ∧ ∃ before,
      s.theApplicationsByContextId.lookup contextId = some before ∧
      before.theEdgeRouterEndpoint = after.theEdgeRouterEndpoint) := by
  have moved := found
  rw [rerouted.contexts] at moved
  obtain ⟨before,there,_⟩ := Option.map_eq_some_iff.mp moved
  by_cases same : after.theEdgeRouterEndpoint = before.theEdgeRouterEndpoint
  · refine .inr ⟨?_,before,there,same.symm⟩
    rintro elem member rfl
    obtain ⟨first,second,here,now,changed,_⟩ := (rerouted.exact.exact elem).mp member
    cases there.symm.trans here
    cases found.symm.trans now
    exact changed same
  · exact .inl ⟨⟨after.theCallbackReference,after.theEdgeRouterEndpoint,contextId⟩,
      (rerouted.exact.exact _).mpr ⟨before,after,there,found,same,filled,rfl⟩,rfl,rfl⟩

/-! ## A run -/

structure Issue where
  contextId : String
  uri : String
  deriving DecidableEq, Repr

/-- What a call issues: the URI of the response, if the call created the context of the
response, or those of its notification list. -/
def issues (s t : StaticUeAppLcmProxy rest) : Result rest → List Issue
  | .notifications list => list.map fun elem => ⟨elem.contextId,elem.referenceUri⟩
  | .context response =>
    match response.appInfo.referenceUri with
    | .ok uri =>
      if response.contextId ∈ t.theApplicationsByContextId ∧
        response.contextId ∉ s.theApplicationsByContextId then [⟨response.contextId,uri⟩] else []
    | .error _ => []
  | .flag _ => []

structure Recorded (rest : Rest) where
  proxy : StaticUeAppLcmProxy rest
  issued : List Issue

def recordedStep (build : Build) (r : Recorded rest) (call : Call rest) : Option (Recorded rest) :=
  match exec build call r.proxy with
  | .returned result t => some ⟨t,r.issued ++ issues r.proxy t result⟩
  | .threw _ t => some ⟨t,r.issued⟩
  | .halted _ => none

theorem recordedStep_proxy {r next : Recorded rest} {call : Call rest}
    (taken : recordedStep build r call = some next) : step build r.proxy call = some next.proxy := by
  unfold recordedStep at taken
  unfold step
  cases ran : exec build call r.proxy with
  | returned result t => rw [ran] at taken; cases taken; rfl
  | threw error t => rw [ran] at taken; cases taken; rfl
  | halted reason => rw [ran] at taken; contradiction

theorem recordedRun_proxy {r final : Recorded rest} {calls : List (Call rest)}
    (ran : Run.run (recordedStep build) r calls = some final) :
    Run.run (step build) r.proxy calls = some final.proxy := by
  induction calls generalizing r with
  | nil => cases ran; rfl
  | cons call rest ih =>
    obtain ⟨next,taken,inner⟩ := Run.run_cons.mp ran
    exact Run.run_cons.mpr ⟨next.proxy,recordedStep_proxy taken,ih inner⟩

/-- The last URI issued for a live context is the endpoint it holds, if it holds one. -/
def UpToDate (r : Recorded rest) : Prop :=
  ∀ contextId desc, r.proxy.theApplicationsByContextId.lookup contextId = some desc →
    desc.theEdgeRouterEndpoint ≠ "" →
    Log.last Issue.contextId r.issued contextId = some ⟨contextId,desc.theEdgeRouterEndpoint⟩

/-- Contexts that kept their endpoints, and nothing issued. -/
theorem UpToDate.kept {r : Recorded rest} (current : UpToDate r)
    (kept : ∀ contextId after, t.theApplicationsByContextId.lookup contextId = some after →
      ∃ before, r.proxy.theApplicationsByContextId.lookup contextId = some before ∧
        before.theEdgeRouterEndpoint = after.theEdgeRouterEndpoint) : UpToDate ⟨t,r.issued⟩ := by
  intro contextId after found filled
  obtain ⟨before,there,same⟩ := kept contextId after found
  rw [← same] at filled ⊢
  exact current contextId before there filled

theorem UpToDate.rerouted {r : Recorded rest} (current : UpToDate r) {appName : String}
    {out : NotificationList} (rerouted : Rerouted r.proxy t appName out) :
    UpToDate ⟨t,r.issued ++ out.map fun elem => ⟨elem.contextId,elem.referenceUri⟩⟩ := by
  intro contextId after found filled
  rw [Log.last_append]
  rcases rerouted.told found filled with ⟨elem,member,here,told⟩ | ⟨untold,before,there,same⟩
  · have distinct : ((out.map fun elem => Issue.mk elem.contextId elem.referenceUri).map
        Issue.contextId).Nodup := by
      rw [List.map_map]
      exact rerouted.once
    have last := Log.last_of_nodup Issue.contextId distinct (List.mem_map.mpr ⟨elem,member,rfl⟩)
    subst here
    rw [last,Option.some_or,told]
  · have nothing : Log.last Issue.contextId
        (out.map fun elem => ⟨elem.contextId,elem.referenceUri⟩) contextId = none := by
      rw [Log.last_eq_none]
      intro issue member
      obtain ⟨elem,inside,rfl⟩ := List.mem_map.mp member
      exact untold elem inside
    rw [nothing,Option.none_or]
    rw [← same] at filled ⊢
    exact current contextId before there filled

theorem UpToDate.of_created {r : Recorded rest} (current : UpToDate r) {uuid clientAddress edgeRouter : String}
    {request response : AppContext rest} (answers : request.Answers response uuid edgeRouter)
    (new : uuid ∉ r.proxy.theApplicationsByContextId) :
    UpToDate ⟨created r.proxy uuid clientAddress request edgeRouter,
      r.issued ++ issues r.proxy (created r.proxy uuid clientAddress request edgeRouter) (.context response)⟩ := by
  have there : uuid ∈ (created r.proxy uuid clientAddress request edgeRouter).theApplicationsByContextId :=
    KeyedMap.lookup_some_mem (by rw [created_lookup,if_pos ⟨rfl,new⟩])
  have issued : issues r.proxy (created r.proxy uuid clientAddress request edgeRouter) (.context response) =
      [⟨uuid,edgeRouter⟩] := by
    simp only [issues,answers.referenceUri,answers.contextId]
    rw [if_pos ⟨there,new⟩]
  rw [issued]
  intro contextId desc found filled
  rw [Log.last_snoc]
  rw [created_lookup] at found
  split at found
  · rename_i here
    cases found
    rw [if_pos here.1.symm,here.1]
  · rename_i other
    rw [if_neg fun same => other ⟨same.symm,new⟩]
    exact current contextId desc found filled

/-- The calls that answer with a flag change no endpoint and bring in no context. -/
theorem flag_keeps_endpoints {call : Call rest} {flag : Bool}
    (ran : exec build call s = .returned (.flag flag) t) {contextId : String} {after : Desc}
    (found : t.theApplicationsByContextId.lookup contextId = some after) :
    ∃ before, s.theApplicationsByContextId.lookup contextId = some before ∧
      before.theEdgeRouterEndpoint = after.theEdgeRouterEndpoint := by
  cases call with
  | associateAddress address appName edgeRouter =>
    obtain ⟨out,_,other⟩ := Program.map_eq_returned.mp ran
    contradiction
  | removeAddress address appName =>
    obtain ⟨out,_,other⟩ := Program.map_eq_returned.mp ran
    contradiction
  | createContext uuid clientAddress request =>
    obtain ⟨response,_,other⟩ := Program.map_eq_returned.mp ran
    contradiction
  | updateContext request =>
    obtain ⟨_,inner,_⟩ := Program.map_eq_returned.mp ran
    rcases updateContext_returned.mp inner with ⟨_,_,rfl⟩ | ⟨id,desc,_,live,_,rfl⟩
    · exact ⟨after,found,rfl⟩
    rw [recalled_lookup] at found
    split at found
    · rename_i same
      cases found
      exact ⟨desc,same ▸ live,rfl⟩
    · exact ⟨after,found,rfl⟩
  | deleteContext id =>
    obtain ⟨_,inner,_⟩ := Program.map_eq_returned.mp ran
    rcases deleteContext_returned.mp inner with ⟨_,_,rfl⟩ | ⟨desc,_,_,_,rfl⟩
    · exact ⟨after,found,rfl⟩
    rw [erased_lookup] at found
    split at found
    · contradiction
    · exact ⟨after,found,rfl⟩
  | purge id =>
    obtain ⟨_,inner,_⟩ := Program.map_eq_returned.mp ran
    rcases purge_returned inner with ⟨_,_,rfl⟩ | ⟨desc,_,_,rfl⟩
    · exact ⟨after,found,rfl⟩
    rw [erased_lookup] at found
    split at found
    · contradiction
    · exact ⟨after,found,rfl⟩
  | addApp info =>
    obtain ⟨_,inner,_⟩ := Program.map_eq_returned.mp ran
    obtain ⟨_,rfl⟩ := onRegistry_returned inner
    exact ⟨after,found,rfl⟩
  | delApp info =>
    obtain ⟨_,inner,_⟩ := Program.map_eq_returned.mp ran
    obtain ⟨_,rfl⟩ := onRegistry_returned inner
    exact ⟨after,found,rfl⟩

/-- Only the two calls on associations answer with a list, and what they do is reroute. -/
theorem notifications_reroute {call : Call rest} {out : NotificationList} (routed : Routed s)
    (ran : exec build call s = .returned (.notifications out) t) : ∃ appName, Rerouted s t appName out := by
  cases call with
  | associateAddress address appName edgeRouter =>
    obtain ⟨list,inner,same⟩ := Program.map_eq_returned.mp ran
    cases same
    exact ⟨appName,(associateSection_reroutes routed inner).2.2.2⟩
  | removeAddress address appName =>
    obtain ⟨list,inner,same⟩ := Program.map_eq_returned.mp ran
    cases same
    exact ⟨appName,(removeSection_reroutes routed inner).2.2⟩
  | _ =>
    obtain ⟨_,_,other⟩ := Program.map_eq_returned.mp ran
    contradiction

theorem context_created {call : Call rest} {response : AppContext rest}
    (ran : exec build call s = .returned (.context response) t) :
    ∃ uuid clientAddress request, call = .createContext uuid clientAddress request ∧
      createContext build uuid clientAddress request s = .returned response t := by
  cases call with
  | createContext uuid clientAddress request =>
    obtain ⟨inner,created,same⟩ := Program.map_eq_returned.mp ran
    cases same
    exact ⟨uuid,clientAddress,request,rfl,created⟩
  | _ =>
    obtain ⟨_,_,other⟩ := Program.map_eq_returned.mp ran
    contradiction

theorem upToDate_step {r next : Recorded rest} {call : Call rest} (current : UpToDate r)
    (routed : Routed r.proxy) (fresh : Fresh r.proxy call) (taken : recordedStep build r call = some next) :
    UpToDate next := by
  unfold recordedStep at taken
  cases ran : exec build call r.proxy with
  | halted reason => simp [ran] at taken
  | threw error t =>
    simp only [ran,Option.some.injEq] at taken
    subst taken
    rw [exec_atomic call _ _ _ ran]
    exact current
  | returned result t =>
    simp only [ran,Option.some.injEq] at taken
    subst taken
    cases result with
    | notifications out =>
      obtain ⟨appName,rerouted⟩ := notifications_reroute routed ran
      exact current.rerouted rerouted
    | context response =>
      obtain ⟨uuid,clientAddress,request,rfl,inner⟩ := context_created ran
      rcases createContext_returned inner with ⟨_,rfl,rfl⟩ | ⟨edgeRouter,_,_,_,answers,rfl⟩
      · -- a refusal brings in no context, so it issues nothing
        have nothing : issues r.proxy r.proxy (.context response) = [] := by
          simp only [issues]
          split
          · exact if_neg fun both => both.2 both.1
          · rfl
        rw [nothing,List.append_nil]
        exact current
      · exact current.of_created answers (fresh uuid rfl).2
    | flag value =>
      rw [issues,List.append_nil]
      exact current.kept fun contextId after found => flag_keeps_endpoints ran found

theorem FreshIds.alongRecorded {calls : List (Call rest)} {r : Recorded rest}
    (along : Run.Along (step build) (fun s call => Routed s ∧ Fresh s call) r.proxy calls) :
    Run.Along (recordedStep build) (fun r call => Routed r.proxy ∧ Fresh r.proxy call) r calls := by
  induction calls generalizing r with
  | nil => trivial
  | cons call rest ih =>
    exact ⟨along.1,fun next taken => ih (along.2 next.proxy (recordedStep_proxy taken))⟩

/-- Each list is exact and a call that changes no route is quiet; along a run, the last
URI issued for a live context is the endpoint it holds. -/
theorem notifications_exact_and_sufficient (build : Build) (s : StaticUeAppLcmProxy rest)
    (reached : Reachable build s) (calls : List (Call rest)) (fresh : FreshIds calls) (final : Recorded rest)
    (ran : Run.run (recordedStep build) ⟨empty,[]⟩ calls = some final) :
    (∀ address appName edgeRouter out t,
      associateSection build address appName edgeRouter s = .returned out t →
      ExactNotifications s t out ∧
      (s.theTable.lookup ⟨address,appName⟩ = some edgeRouter → Quiet s t out)) ∧
    (∀ address appName out t, removeSection build address appName s = .returned out t →
      ExactNotifications s t out ∧ (s.theTable.lookup ⟨address,appName⟩ = none → Quiet s t out)) ∧
    ∀ contextId desc, final.proxy.theApplicationsByContextId.lookup contextId = some desc →
      desc.theEdgeRouterEndpoint ≠ "" →
      Log.last Issue.contextId final.issued contextId = some ⟨contextId,desc.theEdgeRouterEndpoint⟩ := by
  have routed := reached.routed
  refine ⟨?_,?_,?_⟩
  · intro address appName edgeRouter out t returned
    obtain ⟨_,_,changed,rerouted⟩ := associateSection_reroutes routed returned
    refine ⟨rerouted.exact,fun present => rerouted.quiet routed ?_⟩
    rw [changed]
    exact Function.update_eq_self_iff.mpr present.symm
  · intro address appName out t returned
    obtain ⟨_,changed,rerouted⟩ := removeSection_reroutes routed returned
    refine ⟨rerouted.exact,fun absent => rerouted.quiet routed ?_⟩
    rw [changed]
    exact Function.update_eq_self_iff.mpr absent.symm
  · have start : UpToDate (⟨empty,[]⟩ : Recorded rest) := by
      intro contextId desc found
      simp [empty] at found
    exact Run.invariant (fun _ _ _ current guard taken => upToDate_step current guard.1 guard.2 taken)
      start (FreshIds.alongRecorded fresh.along) ran

/-- The context loses its route and is given the same one again, which is issued again. -/
def detourCalls : List (Call Rest.plain) :=
  sampleCalls ++ [.removeAddress "" "app",.associateAddress "client" "app" "er1"]

def detour : Recorded Rest.plain :=
  (Run.run (recordedStep .debug) ⟨empty,[]⟩ detourCalls).get (by decide)

theorem detour_notified :
    (∀ out t, associateSection .debug "" "app" "er2" (after .debug sampleCalls (by decide)) = .returned out t →
      ExactNotifications (after .debug sampleCalls (by decide)) t out) ∧
    Log.last Issue.contextId detour.issued "c1" = some ⟨"c1","er1"⟩ ∧
    detour.issued = [⟨"c1","er1"⟩,⟨"c1","er1"⟩] := by
  have exact := notifications_exact_and_sufficient .debug _ (after_reachable .debug sampleCalls (by decide))
    detourCalls ⟨by decide,by decide⟩ detour (Option.some_get (by decide)).symm
  exact ⟨fun out t returned => (exact.1 "" "app" "er2" out t returned).1,
    exact.2.2 "c1" ⟨"ue1","http://ue1","client","app","er1"⟩ (by decide) (by decide),by decide⟩

end EtsiMec.StaticUeAppLcmProxy
