import EtsiMec.Transitions
import EtsiMec.Library.Log

/-! The calls finish. What is under way (notifications to be posted, contexts to be purged,
answers to be stored) is handled in a bounded number of events, whatever their order, and
without assertions there is always one to take before all is handled. What is then gone from
the proxy is what the manager refused, and nothing else. -/
namespace EtsiMec.Exchange

open Effect

variable {rest : Rest} {transport : Transport} {build : Build} {x y z : Exchange rest}

def UnderWay : Event rest → Prop
  | .deliver _ | .purge _ | .store _ => True
  | _ => False

/-- A post that is refused takes a purge besides. -/
def threadWork (thread : Thread) : Nat := 2 * thread.remaining.length + thread.failed.toList.length

/-- The most events that what is under way can take. -/
def work (x : Exchange rest) : Nat := (x.threads.map threadWork).sum + x.replies.length

theorem deliver_threads {k : Nat} (taken : step transport build x (.deliver k) = some y) :
    ∃ post others failed, x.threads[k]? = some ⟨post :: others,none⟩ ∧
      y.threads = x.threads.set k ⟨others,failed⟩ ∧ y.replies = x.replies := by
  simp only [step] at taken
  split at taken
  · rename_i post others here
    split at taken
    · contradiction
    · cases taken
      exact ⟨post,others,none,here,rfl,rfl⟩
    · split at taken
      · cases taken
        exact ⟨post,others,some post.notification.contextId,here,rfl,rfl⟩
      · cases taken
        exact ⟨post,others,none,here,rfl,rfl⟩
  · contradiction

theorem purge_threads {k : Nat} (taken : step transport build x (.purge k) = some y) :
    ∃ others contextId, x.threads[k]? = some ⟨others,some contextId⟩ ∧
      y.threads = x.threads.set k ⟨others,none⟩ ∧ y.replies = x.replies := by
  simp only [step] at taken
  split at taken
  · rename_i others contextId here
    obtain ⟨s,_,rfl⟩ := Option.map_eq_some_iff.mp taken
    exact ⟨others,contextId,here,rfl,rfl⟩
  · contradiction

theorem store_replies {k : Nat} (taken : step transport build x (.store k) = some y) :
    ∃ reply, x.replies[k]? = some reply ∧ y.replies = x.replies.eraseIdx k ∧ y.threads = x.threads := by
  simp only [step] at taken
  split at taken
  · rename_i reply here
    obtain ⟨m,_,rfl⟩ := Option.map_eq_some_iff.mp taken
    exact ⟨reply,here,rfl,rfl⟩
  · contradiction

theorem work_lowered {event : Event rest} (kind : UnderWay event) (taken : step transport build x event = some y) :
    work y < work x := by
  cases event with
  | deliver k =>
    obtain ⟨post,others,failed,here,threads,replies⟩ := deliver_threads taken
    have moved := Log.sum_set here threadWork ⟨others,failed⟩
    have answer : failed.toList.length ≤ 1 := by cases failed <;> simp
    simp only [threadWork,List.length_cons,Option.toList_none,List.length_nil] at moved
    simp only [work,threads,replies]
    omega
  | purge k =>
    obtain ⟨others,contextId,here,threads,replies⟩ := purge_threads taken
    have moved := Log.sum_set here threadWork ⟨others,none⟩
    simp only [threadWork,Option.toList_none,Option.toList_some,List.length_nil,List.length_cons] at moved
    simp only [work,threads,replies]
    omega
  | store k =>
    obtain ⟨reply,here,replies,threads⟩ := store_replies taken
    obtain ⟨inside,_⟩ := List.getElem?_eq_some_iff.mp here
    simp only [work,threads,replies,List.length_eraseIdx_of_lt inside]
    omega
  | _ => exact kind.elim

/-! ## There is something to take -/

/-- Without assertions a delivery is skipped or answered. -/
theorem deliver_release (transport : Transport) (m : AppContextManager) (elem : Notification) :
    ∃ delivery, deliver transport .release m elem = .ok delivery := by
  cases delivered : deliver transport .release m elem with
  | ok delivery => exact ⟨delivery,rfl⟩
  | error reason =>
    exfalso
    unfold deliver at delivered
    split at delivered
    · rename_i asserted
      simp [Build.asserts] at asserted
    split at delivered
    · contradiction
    split at delivered
    · contradiction
    rename_i json event
    rw [AppContextManager.handleNotification_field (AppContextManager.notificationEvent_field event).2] at delivered
    split at delivered <;> try contradiction
    rename_i ran
    split at ran
    · contradiction
    · simp only [Build.asserts,Bool.false_and,Bool.false_eq_true,if_false] at ran
      split at ran <;> contradiction

theorem purge_release (s : StaticUeAppLcmProxy rest) (contextId : String) :
    ∃ t, (StaticUeAppLcmProxy.purge .release contextId s).state? = some t := by
  unfold StaticUeAppLcmProxy.purge
  rw [Program.get_bind_apply]
  cases s.theApplicationsByContextId.lookup contextId <;> exact ⟨_,rfl⟩

theorem contextStore_release (rest : Rest) (transport : Transport) (m : AppContextManager) (reply : InFlight) : ∃ n,
    (AppContextManager.contextStore rest .release transport.safeProblemDetailsString reply.ueAppId reply.code
      reply.body m).state? = some n := by
  unfold AppContextManager.contextStore
  split
  · exact ⟨m,rfl⟩
  cases AppContext.ofJson rest reply.body with
  | error error => exact ⟨m,rfl⟩
  | ok response =>
    simp only [Program.lift_ok,Program.pure_bind_apply]
    unfold AppContext.type
    simp only [Build.asserts,Program.assert_unchecked,pure_bind]
    split
    · cases response.appInfo.referenceUri <;> exact ⟨_,rfl⟩
    · exact ⟨m,rfl⟩

theorem something_to_take (restless : ¬Quiescent x) :
    ∃ event y, UnderWay event ∧ step transport .release x event = some y := by
  cases replies : x.replies with
  | cons reply others =>
    obtain ⟨n,left⟩ := contextStore_release rest transport x.manager reply
    refine ⟨.store 0,?_⟩
    simp only [step,replies,List.getElem?_cons_zero,left]
    exact ⟨_,trivial,rfl⟩
  | nil =>
    obtain ⟨thread,member,busy⟩ : ∃ thread ∈ x.threads, ¬(thread.remaining = [] ∧ thread.failed = none) := by
      by_contra idle
      exact restless ⟨replies,fun thread member => by_contra fun busy => idle ⟨thread,member,busy⟩⟩
    obtain ⟨k,here⟩ := List.getElem?_of_mem member
    obtain ⟨remaining,failed⟩ := thread
    cases failed with
    | some contextId =>
      obtain ⟨s,left⟩ := purge_release x.proxy contextId
      refine ⟨.purge k,?_⟩
      simp only [step,here,left]
      exact ⟨_,trivial,rfl⟩
    | none =>
      cases remaining with
      | nil => simp at busy
      | cons post others =>
        obtain ⟨delivery,delivered⟩ := deliver_release transport x.manager post.notification
        refine ⟨.deliver k,?_⟩
        simp only [step,here,delivered]
        cases delivery with
        | skipped => exact ⟨_,trivial,rfl⟩
        | answered code m =>
          by_cases other : code ≠ StatusCode.noContent
          · exact ⟨_,trivial,if_pos other⟩
          · exact ⟨_,trivial,if_neg other⟩

/-! ## What is purged -/

def Failed (x : Exchange rest) (contextId : String) : Prop := ∃ thread ∈ x.threads, thread.failed = some contextId

/-- The context was to be purged at the start, or a post about it was refused since. -/
def Doomed (x : Exchange rest) (refused : List Post) (contextId : String) : Prop :=
  Failed x contextId ∨ ∃ post ∈ refused, post.contextId = contextId

structure Drained (x y : Exchange rest) (refused : List Post) : Prop where
  theTable : y.proxy.theTable = x.proxy.theTable
  theApplications : y.proxy.theApplications = x.proxy.theApplications
  record : y.refused = x.refused ++ refused
  kept : ∀ contextId, ¬Doomed x refused contextId →
    y.proxy.theApplicationsByContextId.lookup contextId = x.proxy.theApplicationsByContextId.lookup contextId
  gone : ∀ contextId, Doomed x refused contextId →
    Failed y contextId ∨ y.proxy.theApplicationsByContextId.lookup contextId = none
  failed : ∀ contextId, Failed y contextId → Doomed x refused contextId

theorem Drained.refl (x : Exchange rest) : Drained x x [] where
  theTable := rfl
  theApplications := rfl
  record := (List.append_nil _).symm
  kept _ _ := rfl
  gone contextId doomed := by
    rcases doomed with failed | ⟨post,member,_⟩
    · exact .inl failed
    · simp at member
  failed _ failed := .inl failed

/-- A thread has changed: who fails now, and who has failed before. -/
theorem failed_set {k : Nat} {thread : Thread} (here : x.threads[k]? = some thread) {other : Thread}
    (threads : y.threads = x.threads.set k other) (contextId : String) :
    (Failed y contextId → Failed x contextId ∨ other.failed = some contextId) ∧
      (Failed x contextId → Failed y contextId ∨ thread.failed = some contextId) ∧
      (other.failed = some contextId → Failed y contextId) := by
  rw [Failed,Failed,threads]
  refine ⟨?_,?_,fun fails => ⟨other,Log.mem_set_self here,fails⟩⟩
  · rintro ⟨one,member,fails⟩
    rcases List.mem_or_eq_of_mem_set member with old | rfl
    · exact .inl ⟨one,old,fails⟩
    · exact .inr fails
  · rintro ⟨one,member,fails⟩
    by_cases same : one = thread
    · exact .inr (same ▸ fails)
    · exact .inl ⟨one,Log.mem_set_other here member same,fails⟩

/-- A thread goes on with nothing refused and nothing purged. -/
theorem Drained.advanced {refused : List Post} (drained : Drained x y refused) {k : Nat} {thread other : Thread}
    (here : y.threads[k]? = some thread) (before : thread.failed = none) (after : other.failed = none)
    (threads : z.threads = y.threads.set k other) (proxy : z.proxy = y.proxy) (same : z.refused = y.refused) :
    Drained x z refused := by
  have fails := failed_set here threads
  refine ⟨by rw [proxy]; exact drained.theTable,by rw [proxy]; exact drained.theApplications,
    same.trans drained.record,?_,?_,?_⟩
  · rw [proxy]
    exact drained.kept
  · intro contextId doomed
    rw [proxy]
    refine (drained.gone contextId doomed).imp_left fun failing => ?_
    exact ((fails contextId).2.1 failing).resolve_right (by simp [before])
  · intro contextId failing
    exact drained.failed contextId (((fails contextId).1 failing).resolve_right (by simp [after]))

theorem Drained.refuses {refused : List Post} (drained : Drained x y refused) {k : Nat} {post : Post}
    {others : List Post} (here : y.threads[k]? = some ⟨post :: others,none⟩) :
    Drained x { y with
      threads := y.threads.set k ⟨others,some post.notification.contextId⟩
      refused := y.refused ++ [post] } (refused ++ [post]) := by
  have fails := failed_set (y := { y with
    threads := y.threads.set k ⟨others,some post.notification.contextId⟩
    refused := y.refused ++ [post] }) here rfl
  have doomed : ∀ contextId, Doomed x (refused ++ [post]) contextId ↔
      Doomed x refused contextId ∨ post.contextId = contextId := by
    simp [Doomed,or_and_right,exists_or,or_assoc]
  refine ⟨drained.theTable,drained.theApplications,?_,?_,?_,?_⟩
  · rw [drained.record,List.append_assoc]
  · intro contextId spared
    rw [doomed] at spared
    exact drained.kept contextId fun already => spared (.inl already)
  · intro contextId sentenced
    rcases (doomed contextId).mp sentenced with already | now
    · refine (drained.gone contextId already).imp_left fun failing => ?_
      exact ((fails contextId).2.1 failing).resolve_right (by simp)
    · exact .inl ((fails contextId).2.2 (congrArg some now))
  · intro contextId failing
    rw [doomed]
    rcases (fails contextId).1 failing with old | new
    · exact .inl (drained.failed contextId old)
    · exact .inr (Option.some.inj new)

theorem Drained.purges {refused : List Post} (drained : Drained x y refused) {k : Nat} {others : List Post}
    {purged : String} (here : y.threads[k]? = some ⟨others,some purged⟩) {s : StaticUeAppLcmProxy rest}
    (theTable : s.theTable = y.proxy.theTable) (theApplications : s.theApplications = y.proxy.theApplications)
    (erased : ∀ contextId, s.theApplicationsByContextId.lookup contextId =
      if contextId = purged then none else y.proxy.theApplicationsByContextId.lookup contextId) :
    Drained x { y with proxy := s, threads := y.threads.set k ⟨others,none⟩ } refused := by
  have fails := failed_set (y := { y with proxy := s, threads := y.threads.set k ⟨others,none⟩ }) here rfl
  have sentenced : Doomed x refused purged :=
    drained.failed purged ⟨⟨others,some purged⟩,List.mem_of_getElem? here,rfl⟩
  refine ⟨theTable.trans drained.theTable,theApplications.trans drained.theApplications,drained.record,?_,?_,?_⟩
  · intro contextId spared
    rw [erased,if_neg (by rintro rfl; exact spared sentenced)]
    exact drained.kept contextId spared
  · intro contextId doomed
    rw [erased]
    by_cases same : contextId = purged
    · exact .inr (if_pos same)
    rw [if_neg same]
    refine (drained.gone contextId doomed).imp_left fun failing => ?_
    exact ((fails contextId).2.1 failing).resolve_right fun equal => same (Option.some.inj equal).symm
  · intro contextId failing
    exact drained.failed contextId (((fails contextId).1 failing).resolve_right (by simp))

theorem drained_step {refused : List Post} (drained : Drained x y refused) {event : Event rest}
    (kind : UnderWay event) (taken : step transport build y event = some z) :
    ∃ more, Drained x z (refused ++ more) := by
  have quiet : ∀ w : Exchange rest, Drained x w refused → ∃ more, Drained x w (refused ++ more) :=
    fun w drained => ⟨[],(List.append_nil refused).symm ▸ drained⟩
  cases event with
  | deliver k =>
    cases deliver_transition taken with
    | unchanged => exact quiet _ drained
    | registry kind => exact kind.elim
    | released kind => exact kind.elim
    | skipped here => exact quiet _ (drained.advanced here rfl rfl rfl rfl rfl)
    | accepted here => exact quiet _ (drained.advanced here rfl rfl rfl rfl rfl)
    | refused here => exact ⟨_,drained.refuses here⟩
  | purge k =>
    cases purge_transition taken with
    | unchanged => exact quiet _ drained
    | registry kind => exact kind.elim
    | released kind => exact kind.elim
    | purgedNothing here absent =>
      refine quiet _ (drained.purges here rfl rfl fun contextId => ?_)
      split
      · rename_i same
        rw [same,absent]
      · rfl
    | purged here live => exact quiet _ (drained.purges here rfl rfl (StaticUeAppLcmProxy.erased_lookup _ _))
  | store k =>
    cases store_transition taken with
    | unchanged => exact quiet _ drained
    | registry kind => exact kind.elim
    | released kind => exact kind.elim
    | dropped here => exact quiet _ ⟨drained.theTable,drained.theApplications,drained.record,drained.kept,
        drained.gone,drained.failed⟩
    | stored here => exact quiet _ ⟨drained.theTable,drained.theApplications,drained.record,drained.kept,
        drained.gone,drained.failed⟩
  | _ => exact kind.elim

theorem drained_run {events : List (Event rest)} (all : ∀ event ∈ events, UnderWay event)
    (ran : Run.run (step transport build) x events = some y) : ∃ refused, Drained x y refused := by
  have kept : ∀ (y : Exchange rest) event z, (∃ refused, Drained x y refused) → UnderWay event →
      step transport build y event = some z → ∃ refused, Drained x z refused := by
    rintro y event z ⟨refused,drained⟩ kind taken
    obtain ⟨more,further⟩ := drained_step drained kind taken
    exact ⟨refused ++ more,further⟩
  exact Run.invariant kept ⟨[],.refl x⟩ (Run.along_of_mem all x) ran

/-- When all is handled the contexts that are gone are the doomed ones. -/
theorem Drained.quiescent {refused : List Post} (drained : Drained x y refused) (quiescent : Quiescent y)
    (contextId : String) :
    (Doomed x refused contextId → y.proxy.theApplicationsByContextId.lookup contextId = none) ∧
    (¬Doomed x refused contextId → y.proxy.theApplicationsByContextId.lookup contextId =
      x.proxy.theApplicationsByContextId.lookup contextId) := by
  refine ⟨fun doomed => (drained.gone contextId doomed).resolve_left ?_,drained.kept contextId⟩
  rintro ⟨thread,member,failing⟩
  rw [(quiescent.threads thread member).2] at failing
  contradiction

/-- What is under way ends: each order of its events takes a bounded number of them, leaves the
table and the registry alone, and when it has ended, what the manager refused is gone and every
other context is as it was. Without assertions it can always be brought to its end. -/
theorem calls_finish (transport : Transport) (x : Exchange rest) :
    (∀ (build : Build) (events : List (Event rest)) (y : Exchange rest), (∀ event ∈ events, UnderWay event) →
      Run.run (step transport build) x events = some y →
      events.length + work y ≤ work x ∧ y.proxy.theTable = x.proxy.theTable ∧
      y.proxy.theApplications = x.proxy.theApplications ∧ ∃ refused, y.refused = x.refused ++ refused ∧
        (Quiescent y → ∀ contextId,
          (Doomed x refused contextId → y.proxy.theApplicationsByContextId.lookup contextId = none) ∧
          (¬Doomed x refused contextId → y.proxy.theApplicationsByContextId.lookup contextId =
            x.proxy.theApplicationsByContextId.lookup contextId))) ∧
    ∃ (events : List (Event rest)) (y : Exchange rest), (∀ event ∈ events, UnderWay event) ∧
      Run.run (step transport .release) x events = some y ∧ Quiescent y := by
  constructor
  · intro build events y all ran
    have bounded : events.length + work y ≤ work x :=
      Run.run_bounded (fun _ _ _ kind taken => work_lowered kind taken) all ran
    obtain ⟨refused,drained⟩ := drained_run all ran
    exact ⟨bounded,drained.theTable,drained.theApplications,refused,drained.record,drained.quiescent⟩
  · have lowers : ∀ (y : Exchange rest) event z, UnderWay event → step transport .release y event = some z →
        work z < work y := fun _ _ _ kind taken => work_lowered kind taken
    exact Run.comes_to_rest lowers (fun _ restless => something_to_take restless) x

/-! A manager that is told of an edge router before it has stored the answer to its request. -/

def toldEarlyEvents : List (Event Rest.plain) :=
  [.addApp StaticUeAppLcmProxy.sampleApp,.associateAddress "" "app" "er1",
    .request "c1" "ue1" "client" StaticUeAppLcmProxy.sampleApp,.associateAddress "client" "app" "er2"]

def toldEarly : Exchange Rest.plain :=
  (Run.run (step Transport.plain .release) (start "http://ue" "http://proxy") toldEarlyEvents).get (by decide)

def finishingEvents : List (Event Rest.plain) := [.deliver 1,.purge 1,.store 0]

/-- It refuses the notification, and has in the end a context that the proxy does not have. -/
theorem sample_finishes : ∃ y, Run.run (step Transport.plain .release) toldEarly finishingEvents = some y ∧
    finishingEvents.length + work y ≤ work toldEarly ∧
    y.proxy.theApplicationsByContextId.lookup "c1" = none ∧ "ue1" ∈ y.manager.theContexts := by
  have ran : Run.run (step Transport.plain .release) toldEarly finishingEvents = some
      ((Run.run (step Transport.plain .release) toldEarly finishingEvents).get (by decide)) :=
    (Option.some_get (by decide)).symm
  obtain ⟨bounded,_,_,refused,record,ended⟩ := (calls_finish Transport.plain toldEarly).1 .release finishingEvents _
    (by simp [finishingEvents,UnderWay]) ran
  have quiescent : Quiescent ((Run.run (step Transport.plain .release) toldEarly finishingEvents).get (by decide)) :=
    ⟨List.eq_nil_of_length_eq_zero (by decide),by decide⟩
  have told : refused.map Post.contextId = ["c1"] := by
    have before : toldEarly.refused = [] := by decide
    rw [before,List.nil_append] at record
    rw [← record]
    decide
  obtain ⟨post,member,named⟩ := List.mem_map.mp (told ▸ List.mem_cons_self : "c1" ∈ refused.map Post.contextId)
  exact ⟨_,ran,bounded,(ended quiescent "c1").1 (.inr ⟨post,member,named⟩),by decide⟩

end EtsiMec.Exchange
