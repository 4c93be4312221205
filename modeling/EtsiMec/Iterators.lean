import EtsiMec.ContextIndex

/-! The iterators into `theApplicationsByContextId` that the index by UE application ID
stores. An insertion that makes the hash table rehash invalidates all of them, erasing an
element invalidates those to it. Nothing renews an iterator that has been stored. -/
namespace EtsiMec

open Effect

/-- What the implementation chooses of a `std::unordered_map`. -/
structure HashPolicy where
  /-- `max_load_factor` times the bucket count, rounded down. -/
  limit : Nat → Nat
  /-- The bucket count of an empty map. -/
  initial : Nat
  /-- The bucket count a rehash chooses, from the present one and the size. -/
  rehash : Nat → Nat → Nat
  enough : ∀ count size, size ≤ limit (rehash count size)

/-- The epoch is the number of times the table has been rehashed. -/
structure Buckets where
  count : Nat
  epoch : Nat
  deriving DecidableEq, Repr

/-- An insertion that makes the map have `size` elements. -/
def HashPolicy.insert (policy : HashPolicy) (size : Nat) (buckets : Buckets) : Buckets :=
  if policy.limit buckets.count < size then ⟨policy.rehash buckets.count size,buckets.epoch + 1⟩ else buckets

theorem HashPolicy.insert_epoch (policy : HashPolicy) (size : Nat) (buckets : Buckets) :
    (policy.insert size buckets).epoch =
      if policy.limit buckets.count < size then buckets.epoch + 1 else buckets.epoch := by
  unfold HashPolicy.insert
  split <;> rfl

namespace StaticUeAppLcmProxy

/-- The proxy with the buckets of `theApplicationsByContextId` and, for each context, the
epoch in which the iterator that `createContext` stored was obtained. -/
structure Traced (rest : Rest) where
  proxy : StaticUeAppLcmProxy rest
  buckets : Buckets
  obtained : String → Nat

namespace Traced

def start (policy : HashPolicy) : Traced rest := ⟨empty,⟨policy.initial,0⟩,fun _ => 0⟩

def Inserts (s next : StaticUeAppLcmProxy rest) (uuid : String) : Prop :=
  uuid ∈ next.theApplicationsByContextId ∧ uuid ∉ s.theApplicationsByContextId

instance (s next : StaticUeAppLcmProxy rest) (uuid : String) : Decidable (Inserts s next uuid) :=
  inferInstanceAs (Decidable (_ ∧ _))

/-- The iterator is the one `emplace` returns, hence obtained after the insertion. -/
def observe (policy : HashPolicy) (x : Traced rest) (call : Call rest) (next : StaticUeAppLcmProxy rest) :
    Traced rest :=
  match call.uuid? with
  | none => { x with proxy := next }
  | some uuid =>
    if Inserts x.proxy next uuid then
      let buckets := policy.insert (KeyedMap.size next.theApplicationsByContextId) x.buckets
      ⟨next,buckets,Function.update x.obtained uuid buckets.epoch⟩
    else { x with proxy := next }

def step (policy : HashPolicy) (build : Build) (x : Traced rest) (call : Call rest) : Option (Traced rest) :=
  (StaticUeAppLcmProxy.step build x.proxy call).map (x.observe policy call)

def Granted (s : StaticUeAppLcmProxy rest) (call : Call rest) : Prop :=
  ∃ uuid clientAddress request edgeRouter, call = .createContext uuid clientAddress request ∧
    Grants s clientAddress request edgeRouter

/-- The call makes the table rehash: the buckets are too few for one more context. -/
def Rehashes (policy : HashPolicy) (x : Traced rest) (call : Call rest) : Prop :=
  Granted x.proxy call ∧
    policy.limit x.buckets.count < KeyedMap.size x.proxy.theApplicationsByContextId + 1

structure Valid (x : Traced rest) (contextId : String) : Prop where
  live : contextId ∈ x.proxy.theApplicationsByContextId
  current : x.obtained contextId = x.buckets.epoch

def Dereferences (x : Traced rest) (call : Call rest) (contextId : String) : Prop :=
  ∃ request, call = .updateContext request ∧
    x.proxy.theApplicationsByUeAppId.lookup request.associateUeAppId = some contextId

variable {rest : Rest} {policy : HashPolicy} {build : Build} {x y : Traced rest} {call : Call rest}

@[simp] theorem observe_proxy (x : Traced rest) (call : Call rest) (next : StaticUeAppLcmProxy rest) :
    (x.observe policy call next).proxy = next := by
  unfold observe
  repeat' split
  all_goals rfl

theorem step_proxy (x : Traced rest) (call : Call rest) :
    (step policy build x call).map Traced.proxy = StaticUeAppLcmProxy.step build x.proxy call := by
  rw [step,Option.map_map]
  cases StaticUeAppLcmProxy.step build x.proxy call with
  | none => rfl
  | some next => exact congrArg some (observe_proxy x call next)

theorem step_some (taken : step policy build x call = some y) :
    ∃ next, StaticUeAppLcmProxy.step build x.proxy call = some next ∧ y = x.observe policy call next := by
  obtain ⟨next,stepped,rfl⟩ := Option.map_eq_some_iff.mp taken
  exact ⟨next,stepped,rfl⟩

/-! ## What one step does to the iterators -/

def Fair (x : Traced rest) (call : Call rest) : Prop := Routed x.proxy ∧ Fresh x.proxy call

theorem granted_step {uuid clientAddress edgeRouter : String} {request : AppContext rest}
    (fair : Fair x (.createContext uuid clientAddress request))
    (grants : Grants x.proxy clientAddress request edgeRouter)
    (taken : step policy build x (.createContext uuid clientAddress request) = some y) :
    y.buckets = policy.insert (KeyedMap.size x.proxy.theApplicationsByContextId + 1) x.buckets := by
  obtain ⟨next,stepped,rfl⟩ := step_some taken
  obtain ⟨drawn,new⟩ := fair.2 uuid rfl
  obtain rfl := created_of_grants grants drawn (route_filled fair.1.filled grants.routed) stepped
  have contexts : KeyedMap.size (created x.proxy uuid clientAddress request edgeRouter).theApplicationsByContextId =
      KeyedMap.size x.proxy.theApplicationsByContextId + 1 := by
    rw [created,KeyedMap.emplace_fresh _ new]
    exact KeyedMap.size_insert_fresh _ new
  have inserts : Inserts x.proxy (created x.proxy uuid clientAddress request edgeRouter) uuid :=
    ⟨KeyedMap.lookup_some_mem (by rw [created_lookup,if_pos ⟨rfl,new⟩]),new⟩
  simp [observe,Call.uuid?,inserts,contexts]

theorem other_step (fair : Fair x call) (other : ¬Granted x.proxy call)
    (taken : step policy build x call = some y) : y.buckets = x.buckets := by
  obtain ⟨next,stepped,rfl⟩ := step_some taken
  unfold observe
  split
  · rfl
  rename_i uuid drawn
  split
  · rename_i inserts
    rcases step_brings fair.1 stepped inserts.1 with old | ⟨_,clientAddress,request,edgeRouter,created,grants⟩
    · exact absurd old inserts.2
    · exact absurd ⟨uuid,clientAddress,request,edgeRouter,created,grants⟩ other
  · rfl

theorem raised (fair : Fair x call) (taken : step policy build x call = some y) (rehashes : Rehashes policy x call) :
    x.buckets.epoch < y.buckets.epoch := by
  obtain ⟨⟨uuid,clientAddress,request,edgeRouter,rfl,grants⟩,full⟩ := rehashes
  rw [granted_step fair grants taken,HashPolicy.insert_epoch,if_pos full]
  exact Nat.lt_succ_self _

theorem kept (fair : Fair x call) (taken : step policy build x call = some y)
    (quiet : ¬Rehashes policy x call) : y.buckets.epoch = x.buckets.epoch := by
  by_cases granted : Granted x.proxy call
  · have room := fun full => quiet ⟨granted,full⟩
    obtain ⟨uuid,clientAddress,request,edgeRouter,rfl,grants⟩ := granted
    rw [granted_step fair grants taken,HashPolicy.insert_epoch,if_neg room]
  · rw [other_step fair granted taken]

/-- The iterator a creation stores is obtained after its own insertion. -/
theorem step_obtains {uuid : String} (taken : step policy build x call = some y) (drawn : call.uuid? = some uuid)
    (new : uuid ∉ x.proxy.theApplicationsByContextId) (live : uuid ∈ y.proxy.theApplicationsByContextId) :
    y.obtained uuid = y.buckets.epoch := by
  obtain ⟨next,_,rfl⟩ := step_some taken
  rw [observe_proxy] at live
  simp [observe,drawn,show Inserts x.proxy next uuid from ⟨live,new⟩]

theorem step_keeps {uuid : String} (taken : step policy build x call = some y) (other : call.uuid? ≠ some uuid) :
    y.obtained uuid = x.obtained uuid := by
  obtain ⟨next,_,rfl⟩ := step_some taken
  unfold observe
  split
  · rfl
  rename_i id drawn
  split
  · refine Function.update_of_ne ?_ _ _
    rintro rfl
    exact other drawn
  · rfl

/-! ## Runs -/

/-- The iterator of a context is valid exactly if no call since has made the table rehash. -/
theorem valid_iff {uuid : String} {calls : List (Call rest)} (fairly : Run.Along (step policy build) Fair x calls)
    (ran : Run.run (step policy build) x calls = some y) (fresh : x.obtained uuid = x.buckets.epoch)
    (apart : ∀ call ∈ calls, call.uuid? ≠ some uuid) (live : uuid ∈ y.proxy.theApplicationsByContextId) :
    Valid y uuid ↔ Run.Along (step policy build) (fun x call => ¬Rehashes policy x call) x calls := by
  have step_obtained : ∀ (s : Traced rest) (call : Call rest) t, s.obtained uuid = x.obtained uuid →
      call.uuid? ≠ some uuid → step policy build s call = some t → t.obtained uuid = x.obtained uuid :=
    fun s call t same other taken => (step_keeps taken other).trans same
  have obtained := Run.invariant step_obtained rfl (Run.along_of_mem apart x) ran
  have epochs := (Run.counted (fun _ _ _ => raised) (fun _ _ _ => kept) fairly ran).2
  rw [← epochs]
  constructor
  · intro valid
    rw [← valid.current,obtained,fresh]
  · intro same
    exact ⟨live,by rw [obtained,fresh,same]⟩

theorem fairly {calls : List (Call rest)} (fresh : FreshIds calls) :
    Run.Along (step policy build) Fair (start policy) calls :=
  Run.along_map Traced.proxy step_proxy (start policy) fresh.along

/-- Between the creation of a context and an update through the iterator that was stored
for it, no creation makes the number of contexts exceed what the buckets are for. -/
def Undisturbed (policy : HashPolicy) (build : Build) (calls : List (Call rest)) : Prop :=
  ∀ before call middle update after uuid x y, calls = before ++ call :: (middle ++ update :: after) →
    call.uuid? = some uuid → Run.run (step policy build) (start policy) (before ++ [call]) = some x →
    uuid ∈ x.proxy.theApplicationsByContextId → Run.run (step policy build) x middle = some y →
    Dereferences y update uuid →
    Run.Along (step policy build) (fun x call => ¬Rehashes policy x call) x middle

theorem indexed {calls : List (Call rest)} (fresh : FreshIds calls)
    (ran : Run.run (step policy build) (start policy) calls = some y) : Indexed y.proxy := by
  have same : ∀ (x : Traced rest) call, (step policy build x call).map Traced.proxy =
    StaticUeAppLcmProxy.step build x.proxy call := step_proxy
  have projected := Run.run_map Traced.proxy same (start policy) calls
  rw [ran] at projected
  exact fresh.indexed projected.symm

theorem ids_step (fair : Fair x call) (taken : step policy build x call = some y) (uuid : String)
    (live : uuid ∈ y.proxy.theApplicationsByContextId) :
    uuid ∈ x.proxy.theApplicationsByContextId ∨ call.uuid? = some uuid := by
  obtain ⟨next,stepped,rfl⟩ := step_some taken
  rw [observe_proxy] at live
  exact (step_ids fair.1 stepped live).imp_right And.left

/-- Calls around the one that draws a context ID do not draw it. -/
theorem apart {before middle : List (Call rest)} {call : Call rest} {uuid : String}
    (fresh : FreshIds (before ++ call :: middle)) (drawn : call.uuid? = some uuid) :
    ∀ other ∈ middle, other.uuid? ≠ some uuid := by
  intro other member same
  have distinct := fresh.distinct
  rw [List.filterMap_append,List.filterMap_cons_some drawn] at distinct
  have twice := (List.nodup_cons.mp (List.nodup_append.mp distinct).2.1).1
  exact twice (List.mem_filterMap.mpr ⟨other,member,same⟩)

/-- Every iterator that is dereferenced in a run is valid, if and only if between the time
it was stored and its use the table has not been rehashed. -/
theorem iterators_valid_iff (policy : HashPolicy) (build : Build) (calls : List (Call rest))
    (fresh : FreshIds calls) :
    Run.Along (step policy build) (fun x call => ∀ uuid, Dereferences x call uuid → Valid x uuid)
      (start policy) calls ↔ Undisturbed policy build calls := by
  rw [Run.along_iff]
  constructor
  · intro valid before call middle update after uuid x y split drawn created live ran dereferences
    obtain ⟨start',started,last⟩ := Run.run_append.mp created
    obtain ⟨next,stepped,ended⟩ := Run.run_cons.mp last
    cases ended
    have path : Run.run (step policy build) (start policy) (before ++ call :: middle) = some y :=
      Run.run_append.mpr ⟨start',started,Run.run_cons.mpr ⟨x,stepped,ran⟩⟩
    have split' : calls = (before ++ call :: middle) ++ update :: after := by rw [split]; simp
    have here := valid _ update after y split' path uuid dereferences
    have begun : FreshIds (before ++ call :: middle) := FreshIds.front (split' ▸ fresh)
    have along := (Run.along_append (fairly begun) started).2
    have obtained := step_obtains stepped drawn (along.1.2 uuid drawn).2 live
    exact (valid_iff (along.2 x stepped) ran obtained (apart begun drawn) here.live).mp here
  · intro undisturbed front update back y split ran uuid dereferences
    have begun : FreshIds front := FreshIds.front (split ▸ fresh)
    obtain ⟨request,_,entry⟩ := dereferences
    obtain ⟨desc,found,_⟩ := indexed begun ran _ _ entry
    have live := KeyedMap.lookup_some_mem found
    obtain ⟨before,call,middle,start',x,rfl,started,stepped,drawn,created,ended⟩ :=
      Run.drawn_of_used Call.uuid? (fun (x : Traced rest) uuid => uuid ∈ x.proxy.theApplicationsByContextId)
        (fun _ _ _ fair taken => ids_step fair taken) (fairly begun) ran (by simp [start,empty]) live
    have along := (Run.along_append (fairly begun) started).2
    have obtained := step_obtains stepped drawn (along.1.2 uuid drawn).2 created
    refine (valid_iff (along.2 x stepped) ended obtained (apart begun drawn) live).mpr ?_
    exact undisturbed before call middle update back uuid x y (by rw [split]; simp) drawn
      (Run.run_append.mpr ⟨start',started,Run.run_cons.mpr ⟨x,stepped,rfl⟩⟩) created ended
      ⟨request,by assumption,entry⟩

/-! A map that is empty has no buckets, and doubles them. -/

def doubling : HashPolicy where
  limit count := count
  initial := 0
  rehash count size := max (2 * count + 1) size
  enough _ _ := le_max_right _ _

def twoContexts : List (Call Rest.plain) :=
  sampleCalls ++ [.createContext "c2" "client" (sampleRequest "ue2" "http://ue2" (by decide))]

def lateUpdate : Call Rest.plain := .updateContext (sampleRequest "ue1" "http://ue3" sampleId_filled)

theorem lateUpdate_fresh : FreshIds (twoContexts ++ [lateUpdate]) := ⟨by decide,by decide⟩

/-- With one context, the update comes right after the creation. -/
theorem soonUpdate_valid :
    Run.Along (step doubling .release) (fun x call => ∀ uuid, Dereferences x call uuid → Valid x uuid)
      (start doubling) (sampleCalls ++ [lateUpdate]) := by
  refine (iterators_valid_iff doubling .release _ ⟨by decide,by decide⟩).mpr ?_
  intro before call middle update after uuid x y split drawn _ _ _ _
  simp only [sampleCalls,List.cons_append,List.nil_append] at split
  rcases before with _ | ⟨first,_ | ⟨second,_ | ⟨third,_ | ⟨fourth,before⟩⟩⟩⟩
  · rw [← (List.cons.inj split).1] at drawn
    contradiction
  · rw [← (List.cons.inj (List.cons.inj split).2).1] at drawn
    contradiction
  · rcases middle with _ | ⟨other,middle⟩
    · trivial
    · simp at split
  · rw [← (List.cons.inj (List.cons.inj (List.cons.inj (List.cons.inj split).2).2).2).1] at drawn
    contradiction
  · simp at split

def beforeLateUpdate : Traced Rest.plain :=
  (Run.run (step doubling .release) (start doubling) twoContexts).get (by decide)

theorem lateUpdate_dangles : FreshIds (twoContexts ++ [lateUpdate]) ∧
    ¬Run.Along (step doubling .release) (fun x call => ∀ uuid, Dereferences x call uuid → Valid x uuid)
      (start doubling) (twoContexts ++ [lateUpdate]) := by
  refine ⟨lateUpdate_fresh,fun along => ?_⟩
  have valid := Run.along_iff.mp along twoContexts lateUpdate [] beforeLateUpdate rfl
    (Option.some_get (by decide)).symm "c1" ⟨_,rfl,by decide⟩
  exact absurd valid.current (by decide)

end Traced

end StaticUeAppLcmProxy
end EtsiMec
