import EtsiMec.Routing
import EtsiMec.Library.Log

/-! The table against the history of the calls. Each key holds what the last call wrote that
had an effect on it, and a client is answered the entry of its own address before that of
any address. -/
namespace EtsiMec.StaticUeAppLcmProxy

open Effect

variable {rest : Rest} {build : Build} {s t : StaticUeAppLcmProxy rest}

/-- The key of the table on which a call has an effect; with an empty argument it throws. -/
def Call.written : Call rest → Option AddressAppKey
  | .associateAddress address appName edgeRouter =>
    if appName = "" ∨ edgeRouter = "" then none else some ⟨address,appName⟩
  | .removeAddress address appName => if appName = "" then none else some ⟨address,appName⟩
  | _ => none

def Call.edgeRouter? : Call rest → Option String
  | .associateAddress _ _ edgeRouter => some edgeRouter
  | _ => none

def LastAssociated (calls : List (Call rest)) (address appName edgeRouter : String) : Prop :=
  Log.last Call.written calls (some ⟨address,appName⟩) = some (.associateAddress address appName edgeRouter)

theorem written_associate {call : Call rest} {address appName edgeRouter : String}
    (written : call.written = some ⟨address,appName⟩) (value : call.edgeRouter? = some edgeRouter) :
    call = .associateAddress address appName edgeRouter ∧ appName ≠ "" ∧ edgeRouter ≠ "" := by
  cases call with
  | associateAddress other name router =>
    cases value
    simp only [Call.written] at written
    split at written
    · contradiction
    · rename_i effective
      cases written
      exact ⟨rfl,not_or.mp effective⟩
  | _ => contradiction

theorem LastAssociated.filled {calls : List (Call rest)} {address appName edgeRouter : String}
    (last : LastAssociated calls address appName edgeRouter) : appName ≠ "" ∧ edgeRouter ≠ "" :=
  (written_associate (Log.last_mem _ last).2 rfl).2

/-! ## One call -/

theorem associate_table (routed : Routed s) {address appName edgeRouter : String}
    (taken : step build s (.associateAddress address appName edgeRouter) = some t) :
    KeyedMap.view t.theTable = if appName = "" ∨ edgeRouter = "" then KeyedMap.view s.theTable
      else Function.update (KeyedMap.view s.theTable) ⟨address,appName⟩ (some edgeRouter) := by
  rw [step,exec,Program.state?_map] at taken
  split
  · rename_i blank
    by_cases unnamed : appName = ""
    · rw [associateSection,if_pos unnamed] at taken
      cases taken
      rfl
    · rw [associateSection,if_neg unnamed,if_pos (blank.resolve_left unnamed)] at taken
      cases taken
      rfl
  · rename_i effective
    obtain ⟨named,filled⟩ := not_or.mp effective
    obtain ⟨out,ran⟩ := (associateSection_silent address named filled).state? taken
    exact (associateSection_reroutes routed ran).2.2.1

theorem remove_table (routed : Routed s) {address appName : String}
    (taken : step build s (.removeAddress address appName) = some t) :
    KeyedMap.view t.theTable = if appName = "" then KeyedMap.view s.theTable
      else Function.update (KeyedMap.view s.theTable) ⟨address,appName⟩ none := by
  rw [step,exec,Program.state?_map] at taken
  split
  · rename_i unnamed
    rw [removeSection,if_pos unnamed] at taken
    cases taken
    rfl
  · rename_i named
    obtain ⟨out,ran⟩ := (removeSection_silent address named).state? taken
    exact (removeSection_reroutes routed ran).2.1

/-- The other calls leave the table alone. -/
theorem context_table {call : Call rest} (other : ∀ address appName edgeRouter,
      call ≠ .associateAddress address appName edgeRouter ∧ call ≠ .removeAddress address appName)
    (taken : step build s call = some t) : t.theTable = s.theTable := by
  rcases step_cases taken with rfl | ⟨result,returned⟩
  · rfl
  cases call with
  | associateAddress address appName edgeRouter => exact absurd rfl (other address appName edgeRouter).1
  | removeAddress address appName => exact absurd rfl (other address appName "").2
  | createContext uuid clientAddress request =>
    obtain ⟨response,ran,_⟩ := Program.map_eq_returned.mp returned
    rcases createContext_returned ran with ⟨_,_,rfl⟩ | ⟨_,_,_,_,_,rfl⟩ <;> rfl
  | updateContext request =>
    obtain ⟨flag,ran,_⟩ := Program.map_eq_returned.mp returned
    rcases updateContext_returned.mp ran with ⟨_,_,rfl⟩ | ⟨_,_,_,_,_,rfl⟩ <;> rfl
  | deleteContext contextId =>
    obtain ⟨flag,ran,_⟩ := Program.map_eq_returned.mp returned
    rcases deleteContext_returned.mp ran with ⟨_,_,rfl⟩ | ⟨_,_,_,_,rfl⟩ <;> rfl
  | purge contextId =>
    obtain ⟨flag,ran,_⟩ := Program.map_eq_returned.mp returned
    rcases purge_returned ran with ⟨_,_,rfl⟩ | ⟨_,_,_,rfl⟩ <;> rfl
  | addApp info =>
    obtain ⟨flag,ran,_⟩ := Program.map_eq_returned.mp returned
    obtain ⟨_,rfl⟩ := onRegistry_returned ran
    rfl
  | delApp info =>
    obtain ⟨flag,ran,_⟩ := Program.map_eq_returned.mp returned
    obtain ⟨_,rfl⟩ := onRegistry_returned ran
    rfl

/-- A call writes its key as a register is written. -/
theorem step_table (routed : Routed s) {call : Call rest} (taken : step build s call = some t)
    (key : AddressAppKey) : t.theTable.lookup key =
      if call.written = some key then call.edgeRouter? else s.theTable.lookup key := by
  cases call with
  | associateAddress address appName edgeRouter =>
    rw [show t.theTable.lookup key = KeyedMap.view t.theTable key from rfl,associate_table routed taken,
      Call.written]
    split
    · simp [KeyedMap.view]
    · rw [Function.update_apply]
      simp [KeyedMap.view,Call.edgeRouter?,eq_comm]
  | removeAddress address appName =>
    rw [show t.theTable.lookup key = KeyedMap.view t.theTable key from rfl,remove_table routed taken,
      Call.written]
    split
    · simp [KeyedMap.view]
    · rw [Function.update_apply]
      simp [KeyedMap.view,Call.edgeRouter?,eq_comm]
  | _ => rw [context_table (by simp) taken,if_neg (by simp [Call.written])]

/-! ## A run -/

/-- After a run the table holds at each key what the last effective call on the key left. -/
theorem run_table {calls : List (Call rest)} (ran : Run.run (step build) empty calls = some s)
    (key : AddressAppKey) :
    s.theTable.lookup key = Log.register Call.written Call.edgeRouter? none calls (some key) := by
  induction calls using List.reverseRecOn generalizing s with
  | nil =>
    cases ran
    rfl
  | append_singleton calls call ih =>
    obtain ⟨middle,before,last⟩ := Run.run_append.mp ran
    obtain ⟨next,taken,⟨⟩⟩ := Run.run_cons.mp last
    have routed : Routed middle := Reachable.routed ⟨calls,before⟩
    rw [step_table routed taken,Log.register_snoc,ih before]

theorem lookup_eq_some {calls : List (Call rest)} (ran : Run.run (step build) empty calls = some s)
    {address appName edgeRouter : String} : s.theTable.lookup ⟨address,appName⟩ = some edgeRouter ↔
      LastAssociated calls address appName edgeRouter := by
  rw [run_table ran,Log.register,LastAssociated]
  cases found : Log.last Call.written calls (some ⟨address,appName⟩) with
  | none => simp
  | some call =>
    rw [Option.map_some,Option.getD_some,Option.some.injEq]
    constructor
    · exact fun value => (written_associate (Log.last_mem _ found).2 value).1
    · rintro rfl
      rfl

/-- The answer of `edgeRouter` to a client, as the table has it. -/
theorem edgeRouter_returned (build : Build) (s : StaticUeAppLcmProxy rest) {address appName : String}
    (addressed : address ≠ "") (named : appName ≠ "") :
    edgeRouter build address appName s = .returned ((route s.theTable address appName).getD "") s := by
  rw [edgeRouter,if_neg addressed,if_neg named,Program.get_bind_apply,find_eq named]
  rfl

theorem mem_addressAssociations {address appName edgeRouter : String} :
    (address,appName,edgeRouter) ∈ addressAssociations s ↔
      s.theTable.lookup ⟨address,appName⟩ = some edgeRouter := by
  rw [← KeyedMap.mem_entries,addressAssociations,List.mem_map]
  constructor
  · rintro ⟨elem,member,same⟩
    obtain ⟨⟨_,_⟩,_⟩ := elem
    cases same
    exact member
  · exact fun member => ⟨_,member,rfl⟩

theorem addressAssociations_nodup (s : StaticUeAppLcmProxy rest) :
    ((addressAssociations s).map fun elem => (elem.1,elem.2.1)).Nodup := by
  rw [addressAssociations,List.map_map]
  have keys : (fun elem : Σ _ : AddressAppKey, String => (elem.1.theAddress,elem.1.theAppName)) =
      (fun key : AddressAppKey => (key.theAddress,key.theAppName)) ∘ Sigma.fst := rfl
  change (s.theTable.entries.map fun elem => (elem.1.theAddress,elem.1.theAppName)).Nodup
  rw [keys,← List.map_map]
  refine List.Nodup.map ?_ s.theTable.keys_nodup
  rintro ⟨_,_⟩ ⟨_,_⟩ same
  cases same
  rfl

/-- A client is answered the last association of its own address, else the last one of any
address, else nothing; what is listed is exactly what was associated last. -/
theorem edgeRouter_latest (build : Build) (calls : List (Call rest)) (s : StaticUeAppLcmProxy rest)
    (ran : Run.run (step build) empty calls = some s) :
    (∀ address appName, address ≠ "" → appName ≠ "" →
      (∀ router, LastAssociated calls address appName router →
        edgeRouter build address appName s = .returned router s) ∧
      ((∀ router, ¬LastAssociated calls address appName router) →
        (∀ router, LastAssociated calls "" appName router →
          edgeRouter build address appName s = .returned router s) ∧
        ((∀ router, ¬LastAssociated calls "" appName router) →
          edgeRouter build address appName s = .returned "" s))) ∧
    (∀ address appName router, (address,appName,router) ∈ addressAssociations s ↔
      LastAssociated calls address appName router) ∧
    ((addressAssociations s).map fun elem => (elem.1,elem.2.1)).Nodup ∧
    numAddresses s = (addressAssociations s).length ∧
    ∀ address appName router, (address,appName,router) ∈ addressAssociations s → appName ≠ "" ∧ router ≠ "" := by
  have unassociated : ∀ address appName, (∀ router, ¬LastAssociated calls address appName router) →
      s.theTable.lookup ⟨address,appName⟩ = none := by
    intro address appName never
    by_contra present
    obtain ⟨router,found⟩ := Option.ne_none_iff_exists'.mp present
    exact never router ((lookup_eq_some ran).mp found)
  have listed : ∀ address appName router, (address,appName,router) ∈ addressAssociations s ↔
      LastAssociated calls address appName router := by
    intro address appName router
    rw [mem_addressAssociations,lookup_eq_some ran]
  refine ⟨?_,listed,addressAssociations_nodup s,?_,?_⟩
  · intro address appName addressed named
    rw [edgeRouter_returned build s addressed named,route]
    refine ⟨fun router last => ?_,fun never => ⟨fun router last => ?_,fun neither => ?_⟩⟩
    · rw [(lookup_eq_some ran).mpr last]
      rfl
    · rw [unassociated address appName never]
      dsimp only
      rw [(lookup_eq_some ran).mpr last]
      rfl
    · rw [unassociated address appName never]
      dsimp only
      rw [unassociated "" appName neither]
      rfl
  · simp [numAddresses,addressAssociations,KeyedMap.size]
  · intro address appName router member
    exact ((listed address appName router).mp member).filled

/-- The client is given an edge router of its own and loses it again. -/
def reassociated : List (Call Rest.plain) :=
  sampleCalls ++ [.associateAddress "client" "app" "er2",.associateAddress "client" "app" "",
    .removeAddress "client" "app"]

theorem reassociated_latest :
    edgeRouter .debug "client" "app" (after .debug reassociated (by decide)) =
      .returned "er1" (after .debug reassociated (by decide)) := by
  have latest := edgeRouter_latest .debug reassociated _ (Option.some_get (by decide)).symm
  refine ((latest.1 "client" "app" (by decide) (by decide)).2 ?_).1 "er1" rfl
  intro router
  exact fun last => nomatch last

end EtsiMec.StaticUeAppLcmProxy
