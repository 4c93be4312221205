import EtsiMec.ContextIndex

/-! Two runs, one of which does without a context. The calls on the table sweep through all
contexts, and what they do to one does not depend on another: the run without the context
goes through the same states, up to that context. -/
namespace EtsiMec.StaticUeAppLcmProxy

open Effect

variable {rest : Rest} {build : Build} {s t s' t' : StaticUeAppLcmProxy rest}

def perform (build : Build) (s : StaticUeAppLcmProxy rest) (call : Call rest) :
    Option (StaticUeAppLcmProxy rest × Except Exception (Result rest)) := (exec build call s).answer?

theorem perform_step (s : StaticUeAppLcmProxy rest) (call : Call rest) :
    (perform build s call).map Prod.fst = step build s call := Outcome.answer?_fst _

/-- The call is about the context: its creation, deletion or purge, or an update by its UE
application ID. -/
def Call.names (contextId ueAppId : String) : Call rest → Bool
  | .createContext uuid _ _ => uuid = contextId
  | .updateContext request => request.associateUeAppId = ueAppId
  | .deleteContext other | .purge other => other = contextId
  | _ => false

def Alike (contextId : String) : Except Exception (Result rest) → Except Exception (Result rest) → Prop
  | .ok (.notifications list), .ok (.notifications list') =>
    (list.filter fun elem => elem.contextId ≠ contextId).Perm list'
  | answer, answer' => answer = answer'

structure Without (contextId ueAppId : String) (s t : StaticUeAppLcmProxy rest) : Prop where
  theTable : t.theTable = s.theTable
  theApplications : t.theApplications = s.theApplications
  contexts : ∀ other, other ≠ contextId →
    t.theApplicationsByContextId.lookup other = s.theApplicationsByContextId.lookup other
  absent : contextId ∉ t.theApplicationsByContextId
  index : ∀ other, other ≠ ueAppId →
    t.theApplicationsByUeAppId.lookup other = s.theApplicationsByUeAppId.lookup other
  own : ∀ other desc, s.theApplicationsByContextId.lookup other = some desc →
    (desc.theAssociateUeAppId = ueAppId ↔ other = contextId)
  indexed : Indexed s
  routed : Routed s
  routed' : Routed t

/-- The context ID is fresh, and the UE application ID is that of the context only there. -/
structure Distinguished (contextId ueAppId : String) (s : StaticUeAppLcmProxy rest) (call : Call rest) :
    Prop where
  fresh : Fresh s call
  own : ∀ uuid clientAddress request, call = .createContext uuid clientAddress request →
    (request.associateUeAppId = ueAppId ↔ uuid = contextId)

variable {contextId ueAppId : String}

theorem without_empty : Without contextId ueAppId (empty : StaticUeAppLcmProxy rest) empty :=
  ⟨rfl,rfl,fun _ _ => rfl,by simp [empty],fun _ _ => rfl,by simp [empty],indexed_empty,routed_empty,routed_empty⟩

/-- An entry of the index other than that of the context leads to another context. -/
theorem Without.elsewhere (without : Without contextId ueAppId s t) {other id : String} (apart : other ≠ ueAppId)
    (entry : s.theApplicationsByUeAppId.lookup other = some id) : id ≠ contextId := by
  obtain ⟨desc,live,same⟩ := without.indexed other id entry
  rintro rfl
  exact apart (same ▸ (without.own id desc live).mpr rfl)

/-! ## Calls that do not name the context -/

theorem Without.rerouted (without : Without contextId ueAppId s t) {appName : String}
    {list list' : NotificationList} (rerouted : Rerouted s s' appName list)
    (rerouted' : Rerouted t t' appName list')
    (routed : Routed s') (routed' : Routed t') (table : t'.theTable = s'.theTable) :
    Without contextId ueAppId s' t' ∧ (list.filter fun elem => elem.contextId ≠ contextId).Perm list' := by
  constructor
  · refine ⟨table,?_,?_,?_,?_,?_,without.indexed.rerouted rerouted,routed,routed'⟩
    · rw [rerouted.theApplications,rerouted'.theApplications,without.theApplications]
    · intro other apart
      rw [rerouted.contexts,rerouted'.contexts,without.contexts other apart,table]
    · exact fun live => without.absent (rerouted'.mem.mp live)
    · intro other apart
      rw [rerouted.theApplicationsByUeAppId,rerouted'.theApplicationsByUeAppId,without.index other apart]
    · intro other desc live
      rw [rerouted.contexts] at live
      obtain ⟨before,there,rfl⟩ := Option.map_eq_some_iff.mp live
      rw [refresh_ueApp]
      exact without.own other before there
  · -- both lists tell each context once
    have nodup := List.Nodup.of_map _ rerouted.once
    have nodup' := List.Nodup.of_map _ rerouted'.once
    refine (List.perm_ext_iff_of_nodup (nodup.filter _) nodup').mpr fun elem => ?_
    rw [List.mem_filter,rerouted.notified,rerouted'.notified,table]
    constructor
    · rintro ⟨⟨desc,live,told⟩,apart⟩
      exact ⟨desc,by rw [without.contexts _ (of_decide_eq_true apart),live],told⟩
    · rintro ⟨desc,live,told⟩
      have apart : elem.contextId ≠ contextId := by
        intro same
        exact without.absent (same ▸ KeyedMap.lookup_some_mem live)
      exact ⟨⟨desc,by rw [← without.contexts _ apart,live],told⟩,decide_eq_true apart⟩

theorem associateSection_table {address appName edgeRouter : String} {list : NotificationList}
    (returned : associateSection build address appName edgeRouter s = .returned list s') :
    s'.theTable = if s.theTable.lookup ⟨address,appName⟩ = some edgeRouter then s.theTable
      else s.theTable.insert ⟨address,appName⟩ edgeRouter := by
  rcases associateSection_returned.mp returned with ⟨_,_,⟨present,_,rfl⟩ | ⟨absent,contexts,_,rfl⟩⟩
  · rw [if_pos present]
  · rw [if_neg absent]

theorem Without.associateSection (without : Without contextId ueAppId s t) {address appName edgeRouter : String}
    {list list' : NotificationList}
    (returned : associateSection build address appName edgeRouter s = .returned list s')
    (returned' : StaticUeAppLcmProxy.associateSection build address appName edgeRouter t = .returned list' t') :
    Without contextId ueAppId s' t' ∧ (list.filter fun elem => elem.contextId ≠ contextId).Perm list' := by
  obtain ⟨_,_,_,rerouted⟩ := associateSection_reroutes without.routed returned
  obtain ⟨_,_,_,rerouted'⟩ := associateSection_reroutes without.routed' returned'
  refine without.rerouted rerouted rerouted' (without.routed.afterAssociate returned)
    (without.routed'.afterAssociate returned') ?_
  rw [associateSection_table returned,associateSection_table returned',without.theTable]

theorem Without.removeSection (without : Without contextId ueAppId s t) {address appName : String}
    {list list' : NotificationList}
    (returned : removeSection build address appName s = .returned list s')
    (returned' : StaticUeAppLcmProxy.removeSection build address appName t = .returned list' t') :
    Without contextId ueAppId s' t' ∧ (list.filter fun elem => elem.contextId ≠ contextId).Perm list' := by
  obtain ⟨_,_,rerouted⟩ := removeSection_reroutes without.routed returned
  obtain ⟨_,_,rerouted'⟩ := removeSection_reroutes without.routed' returned'
  refine without.rerouted rerouted rerouted' (without.routed.afterRemove returned)
    (without.routed'.afterRemove returned') ?_
  obtain ⟨_,contexts,_,rfl⟩ := removeSection_returned.mp returned
  obtain ⟨_,contexts',_,rfl⟩ := removeSection_returned.mp returned'
  rw [without.theTable]

/-- What a creation that is not refused answers is what its response comes to. -/
theorem createContext_verdict {uuid clientAddress edgeRouter : String} {request : AppContext rest}
    (registered : UeAppLcmProxy.appExists s.theApplications request.appInfo = true)
    (routed : route s.theTable clientAddress request.appInfo.appName = some edgeRouter)
    {answer : Except Exception (AppContext rest)}
    (answered : (createContext build uuid clientAddress request s).answer? = some (s',answer)) :
    ((request.makeResponse build uuid edgeRouter : Program (StaticUeAppLcmProxy rest) _ _) s).verdict =
      .ok answer := by
  unfold createContext at answered
  rw [Program.get_bind_apply] at answered
  simp only [registered,Bool.not_true,Bool.false_eq_true,if_false,find_eq request.appInfo.appName_ne,
    routed,Program.orHalt_ok,Program.pure_bind_apply] at answered
  rw [Program.bind_apply] at answered
  cases made : (request.makeResponse build uuid edgeRouter : Program (StaticUeAppLcmProxy rest) _ _) s with
  | returned response middle =>
    rw [made] at answered
    rcases Outcome.answer?_eq_some.mp answered with ⟨value,returned,rfl⟩ | ⟨error,threw,_⟩
    · obtain ⟨_,_,_,others⟩ := Program.bind_eq_returned.mp returned
      obtain ⟨_,_,_,last⟩ := Program.bind_eq_returned.mp others
      cases last
      rfl
    · exact absurd threw (Program.silent_bind (Program.silent_assert _ _) (fun _ => Program.silent_bind
        (Program.silent_assert _ _) fun _ => Program.silent_bind (Program.silent_put _) fun _ =>
          Program.silent_pure _) _ _ _)
  | threw error middle =>
    rw [made] at answered
    cases answered
    rfl
  | halted reason =>
    rw [made] at answered
    contradiction

/-- A creation is answered alike wherever the table and the registry are the same. -/
theorem createContext_alike (table : t.theTable = s.theTable) (apps : t.theApplications = s.theApplications)
    {uuid clientAddress : String} {request : AppContext rest}
    {answer answer' : Except Exception (AppContext rest)}
    (answered : (createContext build uuid clientAddress request s).answer? = some (s',answer))
    (answered' : (createContext build uuid clientAddress request t).answer? = some (t',answer')) :
    answer = answer' ∧ ((s' = s ∧ t' = t) ∨ ∃ edgeRouter, Grants s clientAddress request edgeRouter ∧
      s' = created s uuid clientAddress request edgeRouter ∧
      t' = created t uuid clientAddress request edgeRouter) := by
  have refuses : Refuses t clientAddress request ↔ Refuses s clientAddress request := by
    rw [Refuses,Refuses,table,apps]
  by_cases refused : Refuses s clientAddress request
  · rw [createContext_refused refused] at answered
    rw [createContext_refused (refuses.mpr refused)] at answered'
    cases answered
    cases answered'
    exact ⟨rfl,.inl ⟨rfl,rfl⟩⟩
  have accepted := refused
  simp only [Refuses,not_or,Bool.not_eq_false] at accepted
  obtain ⟨edgeRouter,routed⟩ := Option.ne_none_iff_exists'.mp accepted.2
  have verdict := createContext_verdict accepted.1 routed answered
  have verdict' := createContext_verdict (apps ▸ accepted.1) (table ▸ routed) answered'
  rw [AppContext.uniform_makeResponse build request uuid edgeRouter t s,verdict] at verdict'
  cases verdict'
  refine ⟨rfl,?_⟩
  rcases Outcome.answer?_eq_some.mp answered with ⟨value,returned,rfl⟩ | ⟨error,threw,rfl⟩
  · rcases Outcome.answer?_eq_some.mp answered' with ⟨_,returned',_⟩ | ⟨_,_,other⟩
    · rcases createContext_returned returned with ⟨refuse,_⟩ | ⟨edge,grants,_,_,_,rfl⟩
      · exact absurd refuse refused
      rcases createContext_returned returned' with ⟨refuse,_⟩ | ⟨edge',grants',_,_,_,rfl⟩
      · exact absurd (refuses.mp refuse) refused
      have same := grants'.routed
      rw [table,grants.routed] at same
      cases same
      exact .inr ⟨edge,grants,rfl,rfl⟩
    · contradiction
  · rcases Outcome.answer?_eq_some.mp answered' with ⟨_,_,other⟩ | ⟨_,threw',_⟩
    · contradiction
    · exact .inl ⟨createContext_atomic _ _ _ _ _ _ threw,createContext_atomic _ _ _ _ _ _ threw'⟩

theorem Without.created (without : Without contextId ueAppId s t) {uuid clientAddress edgeRouter : String}
    {request : AppContext rest} (grants : Grants s clientAddress request edgeRouter)
    (new : uuid ∉ s.theApplicationsByContextId) (apart : uuid ≠ contextId)
    (other : request.associateUeAppId ≠ ueAppId) :
    Without contextId ueAppId (created s uuid clientAddress request edgeRouter)
      (StaticUeAppLcmProxy.created t uuid clientAddress request edgeRouter) := by
  have grants' : Grants t clientAddress request edgeRouter :=
    ⟨by rw [without.theApplications]; exact grants.registered,by rw [without.theTable]; exact grants.routed,
      grants.proper⟩
  have new' : uuid ∉ t.theApplicationsByContextId := by
    rw [← AList.lookup_eq_none,without.contexts uuid apart,AList.lookup_eq_none]
    exact new
  refine ⟨without.theTable,without.theApplications,?_,?_,?_,?_,without.indexed.created new _ _ _,
    without.routed.created grants _,without.routed'.created grants' _⟩
  · intro id elsewhere
    rw [created_lookup,created_lookup,without.contexts id elsewhere]
    simp [new,new']
  · rw [← AList.lookup_eq_none,created_lookup,if_neg (fun here => apart here.1.symm)]
    exact AList.lookup_eq_none.mpr without.absent
  · intro id elsewhere
    have same : request.associateUeAppId ∈ t.theApplicationsByUeAppId ↔
        request.associateUeAppId ∈ s.theApplicationsByUeAppId := by
      rw [KeyedMap.mem_iff_lookup,KeyedMap.mem_iff_lookup,without.index _ other]
    rw [created_index,created_index,without.index id elsewhere]
    simp only [same]
  · intro id desc live
    rw [created_lookup] at live
    split at live
    · rename_i here
      cases live
      exact iff_of_false other (by rw [here.1]; exact apart)
    · exact without.own id desc live

theorem Without.recalled (without : Without contextId ueAppId s t) {id : String} {desc : Desc}
    (apart : id ≠ contextId) (live : s.theApplicationsByContextId.lookup id = some desc)
    (callbackReference : String) :
    Without contextId ueAppId (recalled s id desc callbackReference)
      (StaticUeAppLcmProxy.recalled t id desc callbackReference) := by
  have live' : t.theApplicationsByContextId.lookup id = some desc := by rw [without.contexts id apart,live]
  refine ⟨without.theTable,without.theApplications,?_,?_,without.index,?_,without.indexed.recalled live _,
    without.routed.recalled live _,without.routed'.recalled live' _⟩
  · intro other elsewhere
    rw [recalled_lookup,recalled_lookup,without.contexts other elsewhere]
  · rw [← AList.lookup_eq_none,recalled_lookup,if_neg apart.symm]
    exact AList.lookup_eq_none.mpr without.absent
  · intro other after found
    rw [recalled_lookup] at found
    split at found
    · rename_i same
      cases found
      rw [same]
      exact without.own id desc live
    · exact without.own other after found

theorem Without.erased (without : Without contextId ueAppId s t) {id : String} {desc : Desc}
    (apart : id ≠ contextId) (live : s.theApplicationsByContextId.lookup id = some desc) :
    Without contextId ueAppId (erased s id desc) (StaticUeAppLcmProxy.erased t id desc) := by
  refine ⟨without.theTable,without.theApplications,?_,?_,?_,?_,without.indexed.erased live,
    without.routed.erased _ _,without.routed'.erased _ _⟩
  · intro other elsewhere
    rw [erased_lookup,erased_lookup,without.contexts other elsewhere]
  · rw [← AList.lookup_eq_none,erased_lookup,if_neg apart.symm]
    exact AList.lookup_eq_none.mpr without.absent
  · intro other elsewhere
    rw [erased_index,erased_index,without.index other elsewhere]
  · intro other after found
    rw [erased_lookup] at found
    split at found
    · contradiction
    · exact without.own other after found

theorem Without.onRegistry (without : Without contextId ueAppId s t)
    {update : Registry rest → Registry rest × Bool} {answer answer' : Except Exception (Result rest)}
    (answered : ((Result.flag <$> onRegistry update : Program (StaticUeAppLcmProxy rest) _ _) s).answer? =
      some (s',answer))
    (answered' : ((Result.flag <$> StaticUeAppLcmProxy.onRegistry update :
      Program (StaticUeAppLcmProxy rest) _ _) t).answer? = some (t',answer')) :
    Without contextId ueAppId s' t' ∧ Alike contextId answer answer' := by
  cases answered
  cases answered'
  rw [without.theApplications]
  exact ⟨⟨without.theTable,rfl,without.contexts,without.absent,without.index,without.own,without.indexed,
    without.routed.registered _,without.routed'.registered _⟩,rfl⟩

/-! ## Calls that name the context -/

/-- What happens to the context, and to its UE application ID, is of no effect on the rest. -/
theorem Without.beside (without : Without contextId ueAppId s t) (table : s'.theTable = s.theTable)
    (apps : s'.theApplications = s.theApplications)
    (contexts : ∀ other, other ≠ contextId →
      s'.theApplicationsByContextId.lookup other = s.theApplicationsByContextId.lookup other)
    (index : ∀ other, other ≠ ueAppId →
      s'.theApplicationsByUeAppId.lookup other = s.theApplicationsByUeAppId.lookup other)
    (own : ∀ desc, s'.theApplicationsByContextId.lookup contextId = some desc →
      desc.theAssociateUeAppId = ueAppId)
    (indexed : Indexed s') (routed : Routed s') : Without contextId ueAppId s' t := by
  refine ⟨without.theTable.trans table.symm,without.theApplications.trans apps.symm,?_,without.absent,?_,?_,
    indexed,routed,without.routed'⟩
  · intro other elsewhere
    rw [without.contexts other elsewhere,contexts other elsewhere]
  · intro other elsewhere
    rw [without.index other elsewhere,index other elsewhere]
  · intro other desc live
    by_cases here : other = contextId
    · subst here
      exact iff_of_true (own desc live) rfl
    · rw [contexts other here] at live
      exact without.own other desc live

theorem Without.erasedBeside (without : Without contextId ueAppId s t) {desc : Desc}
    (live : s.theApplicationsByContextId.lookup contextId = some desc) :
    Without contextId ueAppId (StaticUeAppLcmProxy.erased s contextId desc) t := by
  have own := (without.own contextId desc live).mpr rfl
  refine without.beside rfl rfl ?_ ?_ ?_ (without.indexed.erased live) (without.routed.erased _ _)
  · intro other elsewhere
    rw [erased_lookup,if_neg elsewhere]
  · intro other elsewhere
    rw [erased_index,own,if_neg elsewhere]
  · intro after found
    rw [erased_lookup,if_pos rfl] at found
    contradiction

theorem Without.drops (without : Without contextId ueAppId s t) {call : Call rest}
    (distinguished : Distinguished contextId ueAppId s call) (named : call.names contextId ueAppId = true)
    (taken : step build s call = some s') : Without contextId ueAppId s' t := by
  rcases step_cases taken with rfl | ⟨result,returned⟩
  · exact without
  cases call with
  | createContext uuid clientAddress request =>
    have here : uuid = contextId := of_decide_eq_true named
    subst here
    have own := (distinguished.own uuid clientAddress request rfl).mpr rfl
    obtain ⟨response,ran,_⟩ := Program.map_eq_returned.mp returned
    rcases createContext_returned ran with ⟨_,_,rfl⟩ | ⟨edgeRouter,grants,_,_,_,rfl⟩
    · exact without
    refine without.beside rfl rfl ?_ ?_ ?_ (without.indexed.created (distinguished.fresh uuid rfl).2 _ _ _)
      (without.routed.created grants _)
    · intro other elsewhere
      rw [created_lookup,if_neg (fun here => elsewhere here.1)]
    · intro other elsewhere
      rw [created_index,if_neg (fun here => elsewhere (here.1.trans own))]
    · intro desc live
      rw [created_lookup,if_pos ⟨rfl,(distinguished.fresh uuid rfl).2⟩] at live
      cases live
      exact own
  | updateContext request =>
    have own : request.associateUeAppId = ueAppId := of_decide_eq_true named
    obtain ⟨flag,ran,_⟩ := Program.map_eq_returned.mp returned
    rcases updateContext_returned.mp ran with ⟨_,_,rfl⟩ | ⟨id,desc,entry,live,_,rfl⟩
    · exact without
    -- the entry can only be that of the context
    obtain ⟨before,there,same⟩ := without.indexed _ _ entry
    cases live.symm.trans there
    have here : id = contextId := (without.own id desc live).mp (same.trans own)
    subst here
    refine without.beside rfl rfl ?_ (fun _ _ => rfl) ?_ (without.indexed.recalled live _)
      (without.routed.recalled live _)
    · intro other elsewhere
      rw [recalled_lookup,if_neg elsewhere]
    · intro after found
      rw [recalled_lookup,if_pos rfl] at found
      cases found
      exact same.trans own
  | deleteContext id =>
    cases of_decide_eq_true named
    obtain ⟨flag,ran,_⟩ := Program.map_eq_returned.mp returned
    rcases deleteContext_returned.mp ran with ⟨_,_,rfl⟩ | ⟨desc,live,_,_,rfl⟩
    · exact without
    · exact without.erasedBeside live
  | purge id =>
    cases of_decide_eq_true named
    obtain ⟨flag,ran,_⟩ := Program.map_eq_returned.mp returned
    rcases purge_returned ran with ⟨_,_,rfl⟩ | ⟨desc,live,_,rfl⟩
    · exact without
    · exact without.erasedBeside live
  | associateAddress address appName edgeRouter => contradiction
  | removeAddress address appName => contradiction
  | addApp info => contradiction
  | delApp info => contradiction

theorem Without.keeps (without : Without contextId ueAppId s t) {call : Call rest}
    (distinguished : Distinguished contextId ueAppId s call) (unnamed : call.names contextId ueAppId = false)
    {answer answer' : Except Exception (Result rest)} (answered : perform build s call = some (s',answer))
    (answered' : perform build t call = some (t',answer')) :
    Without contextId ueAppId s' t' ∧ Alike contextId answer answer' := by
  cases call with
  | associateAddress address appName edgeRouter =>
    obtain ⟨inner,ran,rfl⟩ := Program.answer?_map.mp answered
    obtain ⟨inner',ran',rfl⟩ := Program.answer?_map.mp answered'
    by_cases unable : appName = "" ∨ edgeRouter = ""
    · obtain ⟨error,throws⟩ := associateSection_throws address unable
      rw [throws] at ran ran'
      cases ran
      cases ran'
      exact ⟨without,rfl⟩
    obtain ⟨named,filled⟩ := not_or.mp unable
    obtain ⟨list,returned,rfl⟩ := (associateSection_silent address named filled).answer? ran
    obtain ⟨list',returned',rfl⟩ := (associateSection_silent address named filled).answer? ran'
    exact without.associateSection returned returned'
  | removeAddress address appName =>
    obtain ⟨inner,ran,rfl⟩ := Program.answer?_map.mp answered
    obtain ⟨inner',ran',rfl⟩ := Program.answer?_map.mp answered'
    by_cases named : appName = ""
    · rw [StaticUeAppLcmProxy.removeSection,if_pos named] at ran ran'
      cases ran
      cases ran'
      exact ⟨without,rfl⟩
    obtain ⟨list,returned,rfl⟩ := (removeSection_silent address named).answer? ran
    obtain ⟨list',returned',rfl⟩ := (removeSection_silent address named).answer? ran'
    exact without.removeSection returned returned'
  | createContext uuid clientAddress request =>
    obtain ⟨inner,ran,rfl⟩ := Program.answer?_map.mp answered
    obtain ⟨inner',ran',rfl⟩ := Program.answer?_map.mp answered'
    have apart : uuid ≠ contextId := of_decide_eq_false unnamed
    have other : request.associateUeAppId ≠ ueAppId :=
      fun same => apart ((distinguished.own uuid clientAddress request rfl).mp same)
    rcases createContext_alike without.theTable without.theApplications ran ran' with
      ⟨rfl,⟨rfl,rfl⟩ | ⟨edgeRouter,grants,rfl,rfl⟩⟩
    · exact ⟨without,by cases inner <;> rfl⟩
    · exact ⟨without.created grants (distinguished.fresh uuid rfl).2 apart other,by cases inner <;> rfl⟩
  | updateContext request =>
    obtain ⟨inner,ran,rfl⟩ := Program.answer?_map.mp answered
    obtain ⟨inner',ran',rfl⟩ := Program.answer?_map.mp answered'
    obtain ⟨flag,returned,rfl⟩ := (updateContext_silent request).answer? ran
    obtain ⟨flag',returned',rfl⟩ := (updateContext_silent request).answer? ran'
    have other : request.associateUeAppId ≠ ueAppId := of_decide_eq_false unnamed
    rcases updateContext_returned.mp returned with ⟨missing,rfl,rfl⟩ | ⟨id,desc,entry,live,rfl,rfl⟩
    · rcases updateContext_returned.mp returned' with ⟨_,rfl,rfl⟩ | ⟨id',_,entry',_⟩
      · exact ⟨without,rfl⟩
      · rw [without.index _ other,missing] at entry'
        contradiction
    · have apart := without.elsewhere other entry
      rcases updateContext_returned.mp returned' with ⟨missing',_⟩ | ⟨id',desc',entry',live',rfl,rfl⟩
      · rw [without.index _ other,entry] at missing'
        contradiction
      rw [without.index _ other,entry] at entry'
      cases entry'
      rw [without.contexts _ apart,live] at live'
      cases live'
      exact ⟨without.recalled apart live _,rfl⟩
  | deleteContext id =>
    obtain ⟨inner,ran,rfl⟩ := Program.answer?_map.mp answered
    obtain ⟨inner',ran',rfl⟩ := Program.answer?_map.mp answered'
    obtain ⟨flag,returned,rfl⟩ := (deleteContext_silent id).answer? ran
    obtain ⟨flag',returned',rfl⟩ := (deleteContext_silent id).answer? ran'
    have apart : id ≠ contextId := of_decide_eq_false unnamed
    rcases deleteContext_returned.mp returned with ⟨gone,rfl,rfl⟩ | ⟨desc,live,_,rfl,rfl⟩
    · rcases deleteContext_returned.mp returned' with ⟨_,rfl,rfl⟩ | ⟨_,live',_⟩
      · exact ⟨without,rfl⟩
      · rw [without.contexts _ apart,gone] at live'
        contradiction
    · rcases deleteContext_returned.mp returned' with ⟨gone',_⟩ | ⟨desc',live',_,rfl,rfl⟩
      · rw [without.contexts _ apart,live] at gone'
        contradiction
      rw [without.contexts _ apart,live] at live'
      cases live'
      exact ⟨without.erased apart live,rfl⟩
  | purge id =>
    obtain ⟨inner,ran,rfl⟩ := Program.answer?_map.mp answered
    obtain ⟨inner',ran',rfl⟩ := Program.answer?_map.mp answered'
    obtain ⟨flag,returned,rfl⟩ := (purge_silent id).answer? ran
    obtain ⟨flag',returned',rfl⟩ := (purge_silent id).answer? ran'
    have apart : id ≠ contextId := of_decide_eq_false unnamed
    rcases purge_returned returned with ⟨gone,rfl,rfl⟩ | ⟨desc,live,rfl,rfl⟩
    · rcases purge_returned returned' with ⟨_,rfl,rfl⟩ | ⟨_,live',_⟩
      · exact ⟨without,rfl⟩
      · rw [without.contexts _ apart,gone] at live'
        contradiction
    · rcases purge_returned returned' with ⟨gone',_⟩ | ⟨desc',live',rfl,rfl⟩
      · rw [without.contexts _ apart,live] at gone'
        contradiction
      rw [without.contexts _ apart,live] at live'
      cases live'
      exact ⟨without.erased apart live,rfl⟩
  | addApp info => exact without.onRegistry answered answered'
  | delApp info => exact without.onRegistry answered answered'

/-- A run with a context, and the run without its creation and the calls that name it. -/
theorem contexts_independent (build : Build) (calls : List (Call rest)) (fresh : FreshIds calls)
    (contextId clientAddress : String) (request : AppContext rest)
    (member : .createContext contextId clientAddress request ∈ calls)
    (own : ∀ uuid address other, .createContext uuid address other ∈ calls → uuid ≠ contextId →
      other.associateUeAppId ≠ request.associateUeAppId)
    (s t : StaticUeAppLcmProxy rest) (log log' : List (Call rest × Except Exception (Result rest)))
    (ran : Run.transcript (perform build) empty calls = some (s,log))
    (ran' : Run.transcript (perform build) empty
      (calls.filter fun call => !call.names contextId request.associateUeAppId) = some (t,log')) :
    t.theTable = s.theTable ∧ t.theApplications = s.theApplications ∧
    (∀ other, other ≠ contextId →
      t.theApplicationsByContextId.lookup other = s.theApplicationsByContextId.lookup other) ∧
    List.Forall₂ (fun entry entry' => entry.1 = entry'.1 ∧ Alike contextId entry.2 entry'.2)
      (log.filter fun entry => !entry.1.names contextId request.associateUeAppId) log' := by
  have apart : ∀ call ∈ calls, ∀ uuid address other, call = .createContext uuid address other →
      (other.associateUeAppId = request.associateUeAppId ↔ uuid = contextId) := by
    rintro _ inside uuid address other rfl
    constructor
    · intro same
      by_contra elsewhere
      exact own uuid address other inside elsewhere same
    · rintro rfl
      have same := fresh.unique inside member rfl rfl
      cases same
      rfl
  have along : Run.Along (fun s call => (perform build s call).map Prod.fst)
      (Distinguished contextId request.associateUeAppId) empty calls := by
    rw [show (fun s call => (perform build s call).map Prod.fst) = step build from
      funext fun s => funext fun call => perform_step s call]
    exact Run.along_imp (fun s call guard => ⟨guard.1.2,guard.2⟩)
      (Run.along_and fresh.along (Run.along_of_mem apart empty))
  obtain ⟨without,answers⟩ := Run.transcript_filter (fun s t call next answer without guard named answered =>
      without.drops guard named ((perform_step s call).symm.trans (congrArg (Option.map Prod.fst) answered)))
    (fun s t call next next' answer answer' without guard unnamed answered answered' =>
      without.keeps guard unnamed answered answered') without_empty along ran ran'
  exact ⟨without.theTable,without.theApplications,without.contexts,answers⟩

theorem otherId_filled : "ue2" ≠ "" := by decide

def besideCalls : List (Call Rest.plain) :=
  sampleCalls ++ [.createContext "c2" "client" (sampleRequest "ue2" "http://ue2" otherId_filled),
    .associateAddress "client" "app" "er2",.purge "c1"]

theorem sample_independent :
    ∃ s t log log', Run.transcript (perform .debug) empty besideCalls = some (s,log) ∧
      Run.transcript (perform .debug) empty
        (besideCalls.filter fun call => !call.names "c1" "ue1") = some (t,log') ∧
      t.theTable = s.theTable ∧ t.theApplications = s.theApplications ∧
      (∀ other, other ≠ "c1" →
        t.theApplicationsByContextId.lookup other = s.theApplicationsByContextId.lookup other) ∧
      List.Forall₂ (fun entry entry' => entry.1 = entry'.1 ∧ Alike "c1" entry.2 entry'.2)
        (log.filter fun entry => !entry.1.names "c1" "ue1") log' := by
  have own : ∀ uuid address other, Call.createContext uuid address other ∈ besideCalls → uuid ≠ "c1" →
      other.associateUeAppId ≠ (sampleRequest "ue1" "http://ue1" sampleId_filled).associateUeAppId := by
    intro uuid address other inside elsewhere
    simp only [besideCalls,sampleCalls,List.cons_append,List.nil_append,List.mem_cons,List.not_mem_nil,
      reduceCtorEq,Call.createContext.injEq,false_or,or_false] at inside
    rcases inside with ⟨rfl,_⟩ | ⟨rfl,rfl,rfl⟩
    · contradiction
    · decide
  exact ⟨_,_,_,_,rfl,rfl,contexts_independent .debug besideCalls ⟨by decide,by decide⟩ "c1" "client"
    (sampleRequest "ue1" "http://ue1" sampleId_filled) (by simp [besideCalls,sampleCalls]) own _ _ _ _ rfl rfl⟩

end EtsiMec.StaticUeAppLcmProxy
