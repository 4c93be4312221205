import EtsiMec.Posting

/-! What `notifyClients` posts, and what it removes. Each element is tried whatever became of
the others. A client that answers with another status than `NoContent` loses its context; one
that cannot be reached does not, because the exception is caught outside of the test. -/
namespace EtsiMec.StaticUeAppLcmProxy

open Effect

variable {rest : Rest} {build : Build} {s t u : StaticUeAppLcmProxy rest}

/-- An element of a list with what becomes of its POST. -/
abbrev Attempt := Notification × PostResult

/-- One turn of the loop, with a log of the POSTs that were made. -/
def notifyTurn (build : Build) (validate : String → Bool) (attempt : Attempt) :
    Program (StaticUeAppLcmProxy rest × NotificationList) Exception Unit := do
  Program.assert build.asserts (attempt.1.callbackReference != "")
  Program.assert build.asserts (attempt.1.referenceUri != "")
  Program.assert build.asserts (attempt.1.contextId != "")
  if !validate attempt.1.callbackReference || attempt.1.referenceUri == "" then return
  else do
    let both ← Program.get
    Program.put (both.1,both.2 ++ [attempt.1])
    match attempt.2 with
    | .failed => return
    | .status code =>
      if code ≠ StatusCode.noContent then do
        let _ ← Program.onFirst (purge build attempt.1.contextId)
        return
      else return

/-- `notifyClients`, with an outcome for each element of the list. -/
def notifyEach (build : Build) (validate : String → Bool) :
    List Attempt → Program (StaticUeAppLcmProxy rest × NotificationList) Exception Unit
  | [] => return
  | attempt :: rest => do
    notifyTurn build validate attempt
    notifyEach build validate rest

section Outcomes
variable (validate : String → Bool) (attempt : Attempt)

/-- The POST is made: the callback is a URI, and there is an event to post. -/
def Attempted : Prop := validate attempt.1.callbackReference = true ∧ attempt.1.referenceUri ≠ ""

instance : Decidable (Attempted validate attempt) := inferInstanceAs (Decidable (_ ∧ _))

def Rejected : Prop :=
  Attempted validate attempt ∧ ∃ code, attempt.2 = .status code ∧ code ≠ StatusCode.noContent

def Unreached : Prop := Attempted validate attempt ∧ attempt.2 = .failed

def Failed : Prop := Attempted validate attempt ∧ attempt.2 ≠ .status StatusCode.noContent

theorem failed_iff : Failed validate attempt ↔ Rejected validate attempt ∨ Unreached validate attempt := by
  unfold Failed Rejected Unreached
  cases attempt.2 <;> simp

/-- The elements whose POST is made, in their order. -/
def tried (validate : String → Bool) (attempts : List Attempt) : NotificationList :=
  (attempts.filter fun attempt => decide (Attempted validate attempt)).map Prod.fst

end Outcomes

/-! ## Contexts that are erased -/

/-- These contexts are gone, together with what the index has for their clients. -/
structure Erased (gone : String → Prop) (s t : StaticUeAppLcmProxy rest) : Prop where
  theTable : t.theTable = s.theTable
  theApplications : t.theApplications = s.theApplications
  removed : ∀ contextId, gone contextId → t.theApplicationsByContextId.lookup contextId = none
  kept : ∀ contextId, ¬gone contextId →
    t.theApplicationsByContextId.lookup contextId = s.theApplicationsByContextId.lookup contextId
  unindexed : ∀ contextId desc, gone contextId → s.theApplicationsByContextId.lookup contextId = some desc →
    t.theApplicationsByUeAppId.lookup desc.theAssociateUeAppId = none
  indexed : ∀ ueAppId, (∀ contextId desc, gone contextId →
      s.theApplicationsByContextId.lookup contextId = some desc → desc.theAssociateUeAppId ≠ ueAppId) →
    t.theApplicationsByUeAppId.lookup ueAppId = s.theApplicationsByUeAppId.lookup ueAppId

theorem Erased.refl (s : StaticUeAppLcmProxy rest) {gone : String → Prop} (absent : ∀ contextId, gone contextId →
    s.theApplicationsByContextId.lookup contextId = none) : Erased gone s s := by
  refine ⟨rfl,rfl,absent,fun _ _ => rfl,?_,fun _ _ => rfl⟩
  intro contextId desc erased live
  simp [absent contextId erased] at live

theorem Erased.one {contextId : String} {desc : Desc}
    (live : s.theApplicationsByContextId.lookup contextId = some desc) :
    Erased (· = contextId) s (erased s contextId desc) := by
  refine ⟨rfl,rfl,?_,?_,?_,?_⟩
  · rintro _ rfl
    rw [erased_lookup,if_pos rfl]
  · intro other apart
    rw [erased_lookup,if_neg apart]
  · rintro _ before rfl there
    cases live.symm.trans there
    rw [erased_index,if_pos rfl]
  · intro ueAppId other
    rw [erased_index,if_neg (Ne.symm (other contextId desc rfl live))]

theorem Erased.trans {first second : String → Prop} (before : Erased first s t) (after : Erased second t u) :
    Erased (fun contextId => first contextId ∨ second contextId) s u := by
  refine ⟨after.theTable.trans before.theTable,after.theApplications.trans before.theApplications,?_,?_,?_,?_⟩
  · rintro contextId (gone | gone)
    · by_cases again : second contextId
      · exact after.removed contextId again
      · exact (after.kept contextId again).trans (before.removed contextId gone)
    · exact after.removed contextId gone
  · intro contextId both
    obtain ⟨kept,still⟩ := not_or.mp both
    exact (after.kept contextId still).trans (before.kept contextId kept)
  · intro contextId desc either live
    by_cases gone : first contextId
    · have none := before.unindexed contextId desc gone live
      by_cases again : ∃ other desc', second other ∧ t.theApplicationsByContextId.lookup other = some desc' ∧
          desc'.theAssociateUeAppId = desc.theAssociateUeAppId
      · obtain ⟨other,desc',erased,there,same⟩ := again
        exact same ▸ after.unindexed other desc' erased there
      · rw [after.indexed,none]
        intro other desc' erased there same
        exact again ⟨other,desc',erased,there,same⟩
    · exact after.unindexed contextId desc (either.resolve_left gone) ((before.kept contextId gone).trans live)
  · intro ueAppId spared
    rw [after.indexed,before.indexed]
    · exact fun contextId desc gone live => spared contextId desc (.inl gone) live
    · intro contextId desc gone there
      by_cases earlier : first contextId
      · simp [before.removed contextId earlier] at there
      · exact spared contextId desc (.inr gone) ((before.kept contextId earlier).symm.trans there)

theorem Erased.congr {gone other : String → Prop} (erased : Erased gone s t)
    (same : ∀ contextId, gone contextId ↔ other contextId) : Erased other s t := by
  have equal : gone = other := funext fun contextId => propext (same contextId)
  exact equal ▸ erased

theorem Erased.routed {gone : String → Prop} (erased : Erased gone s t) (routed : Routed s) : Routed t := by
  refine routed.of_contexts erased.theTable fun contextId desc live => ?_
  by_cases removed : gone contextId
  · rw [erased.removed contextId removed] at live
    contradiction
  · rw [erased.kept contextId removed] at live
    exact ⟨routed.named contextId desc live,routed.endpoint contextId desc live⟩

/-- Where the maps agree, an entry of the index is left exactly if its context is. -/
theorem Erased.index_iff {gone : String → Prop} (erased : Erased gone s t) (bijective : Bijective s)
    {ueAppId contextId : String} : t.theApplicationsByUeAppId.lookup ueAppId = some contextId ↔
      s.theApplicationsByUeAppId.lookup ueAppId = some contextId ∧ ¬gone contextId := by
  by_cases hit : ∃ other desc, gone other ∧ s.theApplicationsByContextId.lookup other = some desc ∧
      desc.theAssociateUeAppId = ueAppId
  · obtain ⟨other,desc,removed,live,rfl⟩ := hit
    rw [erased.unindexed other desc removed live,bijective.points other desc live]
    constructor
    · intro entry
      contradiction
    · rintro ⟨same,kept⟩
      cases same
      exact absurd removed kept
  · have spared : ∀ other desc, gone other → s.theApplicationsByContextId.lookup other = some desc →
        desc.theAssociateUeAppId ≠ ueAppId :=
      fun other desc removed live same => hit ⟨other,desc,removed,live,same⟩
    rw [erased.indexed ueAppId spared]
    refine (and_iff_left_of_imp fun entry removed => ?_).symm
    obtain ⟨desc,live,same⟩ := bijective.live ueAppId contextId entry
    exact spared contextId desc removed live same

theorem Erased.bijective {gone : String → Prop} (erased : Erased gone s t) (bijective : Bijective s) :
    Bijective t := by
  constructor
  · intro contextId desc live
    by_cases removed : gone contextId
    · rw [erased.removed contextId removed] at live
      contradiction
    · rw [erased.kept contextId removed] at live
      exact (erased.index_iff bijective).mpr ⟨bijective.points contextId desc live,removed⟩
  · intro ueAppId contextId entry
    obtain ⟨before,kept⟩ := (erased.index_iff bijective).mp entry
    rw [erased.kept contextId kept]
    exact bijective.live ueAppId contextId before

theorem purge_erases {contextId : String} {flag : Bool} (ran : purge build contextId s = .returned flag t) :
    Erased (· = contextId) s t := by
  rcases purge_returned ran with ⟨absent,_,rfl⟩ | ⟨desc,live,_,rfl⟩
  · exact .refl _ (by rintro _ rfl; exact absent)
  · exact .one live

/-! ## The loop -/

variable {validate : String → Bool}

theorem attempted_eq (attempt : Attempt) : decide (Attempted validate attempt) =
    !(!validate attempt.1.callbackReference || attempt.1.referenceUri == "") := by
  rw [Bool.eq_iff_iff,decide_eq_true_iff]
  simp [Attempted]

/-- A turn of the loop with the log is a turn of the loop, with its POST entered. -/
theorem notifyTurn_logged (attempt : Attempt) (s : StaticUeAppLcmProxy rest) (log : NotificationList) :
    notifyTurn build validate attempt (s,log) =
      Program.onFirst (notifyClient build validate (fun _ => attempt.2) attempt.1)
        (s,log ++ tried validate [attempt]) := by
  have entered : tried validate [attempt] =
      if !validate attempt.1.callbackReference || attempt.1.referenceUri == "" then [] else [attempt.1] := by
    rw [tried,List.filter_singleton,attempted_eq]
    cases !validate attempt.1.callbackReference || attempt.1.referenceUri == "" <;> rfl
  rw [entered,notifyTurn,Program.onFirst,notifyClient]
  -- both begin with the same assertions, which read no state
  simp only [Program.assert_bind_apply]
  split
  · rfl
  split
  · rfl
  split
  · rfl
  split
  · rw [List.append_nil]
    rfl
  · cases attempt.2 with
    | failed => rfl
    | status code =>
      dsimp only
      split
      · rw [Program.get_bind_apply,Program.put_bind_apply,Program.bind_apply,Program.bind_apply,Program.onFirst]
        cases purge build attempt.1.contextId s <;> rfl
      · rfl

/-- A turn of the loop erases the context of its element if the client rejected it. -/
theorem notifyClient_erases {attempt : Attempt}
    (ran : notifyClient build validate (fun _ => attempt.2) attempt.1 s = .returned () t) :
    Erased (fun contextId => attempt.1.contextId = contextId ∧ Rejected validate attempt) s t := by
  rw [notifyClient_ready_eq (notifyClient_ready ran)] at ran
  by_cases attempted : Attempted validate attempt
  · have past : (!validate attempt.1.callbackReference || attempt.1.referenceUri == "") = false := by
      simp [attempted.1,attempted.2]
    rw [past,if_neg Bool.false_ne_true] at ran
    cases outcome : attempt.2 with
    | failed =>
      rw [outcome] at ran
      cases ran
      exact .refl s (by simp [Rejected,outcome])
    | status code =>
      rw [outcome] at ran
      dsimp only at ran
      split at ran
      · rename_i other
        obtain ⟨flag,middle,purged,rest⟩ := Program.bind_eq_returned.mp ran
        cases rest
        refine (purge_erases purged).congr fun contextId => ?_
        simp [Rejected,attempted,outcome,other,eq_comm]
      · rename_i fine
        cases ran
        exact .refl s (by simp [Rejected,outcome,not_not.mp fine])
  · have skipped : (!validate attempt.1.callbackReference || attempt.1.referenceUri == "") = true := by
      simpa [Attempted,imp_iff_not_or] using attempted
    rw [skipped,if_pos rfl] at ran
    cases ran
    exact .refl s (by simp [Rejected,attempted])

theorem tried_nil : tried validate [] = [] := rfl

theorem tried_cons (attempt : Attempt) (attempts : List Attempt) :
    tried validate (attempt :: attempts) = tried validate [attempt] ++ tried validate attempts := by
  rw [tried,tried,tried,← List.map_append,← List.filter_append,List.singleton_append]

/-- The loop with the log is the loop of the calls on the table. -/
theorem notifyEach_logged (build : Build) (validate : String → Bool) (post : Notification → PostResult)
    (list : NotificationList) (s : StaticUeAppLcmProxy rest) (log : NotificationList) :
    notifyEach build validate (list.map fun elem => (elem,post elem)) (s,log) =
      Program.onFirst (notifyClients build validate post list)
        (s,log ++ tried validate (list.map fun elem => (elem,post elem))) := by
  induction list generalizing s log with
  | nil =>
    rw [List.map_nil,tried_nil,List.append_nil]
    rfl
  | cons elem rest ih =>
    rw [List.map_cons,tried_cons,← List.append_assoc,notifyEach,Program.bind_apply,notifyTurn_logged,
      Program.onFirst,Program.onFirst,notifyClients,Program.bind_apply]
    have same : notifyClient build validate (fun _ => post elem) elem s = notifyClient build validate post elem s := rfl
    rw [same]
    cases ran : notifyClient build validate post elem s with
    | returned value t => exact ih t _
    | threw error t => exact absurd ran (notifyClient_silent elem s error t)
    | halted reason => rfl

/-- The loop goes through its whole list: each POST is made, in order, and each element has
its own effect. -/
theorem notifyEach_erases {attempts : List Attempt} (sound : build = .debug → Bijective s)
    (ready : ∀ attempt ∈ attempts, Ready build attempt.1) (log : NotificationList) :
    ∃ t, notifyEach build validate attempts (s,log) = .returned () (t,log ++ tried validate attempts) ∧
      Erased (fun contextId =>
        ∃ attempt ∈ attempts, attempt.1.contextId = contextId ∧ Rejected validate attempt) s t := by
  induction attempts generalizing s log with
  | nil => exact ⟨s,by rw [tried_nil,List.append_nil]; rfl,.refl s (by simp)⟩
  | cons attempt rest ih =>
    obtain ⟨middle,ran,pruned⟩ := notifyClient_returns sound (ready attempt List.mem_cons_self)
    have turned : notifyTurn build validate attempt (s,log) = .returned () (middle,log ++ tried validate [attempt]) :=
      (notifyTurn_logged attempt s log).trans (Program.onFirst_returned ran _)
    obtain ⟨t,others,erased⟩ := ih (fun debug => pruned.bijective (sound debug))
      (fun other member => ready other (List.mem_cons_of_mem _ member)) (log ++ tried validate [attempt])
    rw [List.append_assoc,← tried_cons] at others
    refine ⟨t,by rw [notifyEach,Program.bind_returned _ turned,others],?_⟩
    exact ((notifyClient_erases ran).trans erased).congr fun contextId => by simp

/-- The contract in the header: every element is tried, and a context is removed if and only
if the POST of one of its notifications failed. -/
structure RemovesFailed (validate : String → Bool) (attempts : List Attempt) (s t : StaticUeAppLcmProxy rest)
    (posts : NotificationList) : Prop where
  complete : posts = tried validate attempts
  removed : ∀ contextId ∈ s.theApplicationsByContextId, contextId ∉ t.theApplicationsByContextId ↔
    ∃ attempt ∈ attempts, attempt.1.contextId = contextId ∧ Failed validate attempt
  unindexed : ∀ contextId desc, s.theApplicationsByContextId.lookup contextId = some desc →
    contextId ∉ t.theApplicationsByContextId → desc.theAssociateUeAppId ∉ t.theApplicationsByUeAppId
  others : ∀ contextId ∈ t.theApplicationsByContextId,
    t.theApplicationsByContextId.lookup contextId = s.theApplicationsByContextId.lookup contextId
  theTable : t.theTable = s.theTable

/-- A context whose client could not be reached was rejected by the client at another element. -/
def UnreachedRejected (validate : String → Bool) (attempts : List Attempt) : Prop :=
  ∀ attempt ∈ attempts, Unreached validate attempt →
    ∃ other ∈ attempts, other.1.contextId = attempt.1.contextId ∧ Rejected validate other

theorem Erased.removesFailed_iff {attempts : List Attempt}
    (lives : ∀ attempt ∈ attempts, attempt.1.contextId ∈ s.theApplicationsByContextId)
    (erased : Erased (fun contextId =>
      ∃ attempt ∈ attempts, attempt.1.contextId = contextId ∧ Rejected validate attempt) s t) :
    RemovesFailed validate attempts s t (tried validate attempts) ↔ UnreachedRejected validate attempts := by
  have gone : ∀ contextId ∈ s.theApplicationsByContextId, contextId ∉ t.theApplicationsByContextId ↔
      ∃ attempt ∈ attempts, attempt.1.contextId = contextId ∧ Rejected validate attempt := by
    intro contextId live
    by_cases rejected : ∃ attempt ∈ attempts, attempt.1.contextId = contextId ∧ Rejected validate attempt
    · exact iff_of_true (AList.lookup_eq_none.mp (erased.removed contextId rejected)) rejected
    · refine iff_of_false (not_not.mpr ?_) rejected
      rw [KeyedMap.mem_iff_lookup,erased.kept contextId rejected]
      exact KeyedMap.mem_iff_lookup.mp live
  constructor
  · intro removes attempt member unreached
    have live := lives attempt member
    exact (gone _ live).mp ((removes.removed _ live).mpr
      ⟨attempt,member,rfl,(failed_iff validate attempt).mpr (.inr unreached)⟩)
  · intro covered
    refine ⟨rfl,fun contextId live => (gone contextId live).trans ⟨?_,?_⟩,?_,?_,erased.theTable⟩
    · rintro ⟨attempt,member,same,rejected⟩
      exact ⟨attempt,member,same,(failed_iff validate attempt).mpr (.inl rejected)⟩
    · rintro ⟨attempt,member,rfl,failed⟩
      rcases (failed_iff validate attempt).mp failed with rejected | unreached
      · exact ⟨attempt,member,rfl,rejected⟩
      · exact covered attempt member unreached
    · intro contextId desc live absent
      have rejected := (gone contextId (KeyedMap.lookup_some_mem live)).mp absent
      exact AList.lookup_eq_none.mp (erased.unindexed contextId desc rejected live)
    · intro contextId live
      apply erased.kept
      intro rejected
      exact AList.lookup_eq_none.mp (erased.removed contextId rejected) live

/-- `notifyClients` makes every POST of its list, in order, and removes the contexts that are
rejected; it keeps its contract if and only if each context whose client could not be reached
is also rejected by the client. -/
theorem notifyClients_removes_iff (build : Build) (s : StaticUeAppLcmProxy rest) (reached : Reachable build s)
    (validate : String → Bool) (attempts : List Attempt)
    (lives : ∀ attempt ∈ attempts, attempt.1.contextId ∈ s.theApplicationsByContextId)
    (ready : ∀ attempt ∈ attempts, Ready build attempt.1) :
    ∃ t posts, notifyEach build validate attempts (s,[]) = .returned () (t,posts) ∧
      posts = tried validate attempts ∧
      Erased (fun contextId =>
        ∃ attempt ∈ attempts, attempt.1.contextId = contextId ∧ Rejected validate attempt) s t ∧
      (RemovesFailed validate attempts s t posts ↔ UnreachedRejected validate attempts) := by
  obtain ⟨t,ran,erased⟩ := notifyEach_erases reached.sound ready []
  exact ⟨t,tried validate attempts,ran,rfl,erased,erased.removesFailed_iff lives⟩

def twoAttempts (first second : PostResult) : List Attempt :=
  [(⟨"http://ue1","er2","c1"⟩,first),(⟨"http://ue1","er3","c1"⟩,second)]

/-- The client cannot be reached first, and rejects the second POST all the same. -/
theorem rejected_removed : ∃ t posts,
    notifyEach .debug (fun _ => true) (twoAttempts .failed (.status 404))
      (after .debug sampleCalls (by decide),[]) = .returned () (t,posts) ∧
    posts = [⟨"http://ue1","er2","c1"⟩,⟨"http://ue1","er3","c1"⟩] ∧
    RemovesFailed (fun _ => true) (twoAttempts .failed (.status 404)) (after .debug sampleCalls (by decide)) t
      posts := by
  obtain ⟨t,posts,ran,complete,_,contract⟩ := notifyClients_removes_iff .debug _
    (after_reachable .debug sampleCalls (by decide)) (fun _ => true) (twoAttempts .failed (.status 404))
    (by decide) (by simp [twoAttempts,Ready])
  refine ⟨t,posts,ran,complete,contract.mpr fun attempt member unreached => ?_⟩
  refine ⟨(⟨"http://ue1","er3","c1"⟩,.status 404),by simp [twoAttempts],?_,⟨rfl,by decide⟩,404,rfl,by decide⟩
  rcases List.mem_pair.mp member with rfl | rfl <;> rfl

/-- The context of a client that cannot be reached stays. -/
theorem unreached_kept : ∃ t posts,
    notifyEach .debug (fun _ => true) (twoAttempts .failed .failed) (after .debug sampleCalls (by decide),[]) =
      .returned () (t,posts) ∧ "c1" ∈ t.theApplicationsByContextId ∧
    ¬RemovesFailed (fun _ => true) (twoAttempts .failed .failed) (after .debug sampleCalls (by decide)) t posts := by
  have live : "c1" ∈ (after .debug sampleCalls (by decide)).theApplicationsByContextId := by decide
  refine ⟨after .debug sampleCalls (by decide),_,rfl,live,fun removes => ?_⟩
  refine (removes.removed "c1" live).mpr ⟨(⟨"http://ue1","er2","c1"⟩,.failed),by simp [twoAttempts],rfl,?_,?_⟩ live
  · exact ⟨rfl,by decide⟩
  · simp

end EtsiMec.StaticUeAppLcmProxy
