import EtsiMec.Requests
import EtsiMec.Counting
import EtsiMec.Managers

/-! Contexts as resources. Whatever bodies clients send, a session of requests is a run of
the proxy; a context ID that was answered `Created` can be deleted once, unless it is purged,
and no other ID can. -/
namespace EtsiMec.StaticUeAppLcmProxy

open Effect

variable {rest : Rest} {build : Build} {s t : StaticUeAppLcmProxy rest}

inductive Mx2Event (rest : Rest) where
  | asked (request : Mx2Request)
  | called (call : Call rest)

inductive Mx2Answer (rest : Rest) where
  | reply (reply : Reply)
  | result (result : Result rest)

def Mx2Event.exec (build : Build) : Mx2Event rest →
    Program (StaticUeAppLcmProxy rest) Exception (Mx2Answer rest)
  | .asked request => .reply <$> request.handle build
  | .called call => .result <$> StaticUeAppLcmProxy.exec build call

def serve (build : Build) (s : StaticUeAppLcmProxy rest) (event : Mx2Event rest) :
    Option (StaticUeAppLcmProxy rest × Except Exception (Mx2Answer rest)) := (event.exec build s).answer?

def Mx2Event.drawnId : Mx2Event rest → Option String
  | .asked (.post uuid _) => some uuid
  | .called call => call.uuid?
  | _ => none

def Mx2Event.honest : Mx2Event rest → Bool
  | .asked (.post _ ⟨_,_,.ok json⟩) => !json.hasStringField "contextId"
  | _ => true

def opensAt (contextId : String) (entry : Call rest × Except Exception (Result rest)) : Bool :=
  entry.1.uuid? == some contextId && opens entry

def closesAt (contextId : String) : Call rest × Except Exception (Result rest) → Bool
  | (.deleteContext id,.ok (.flag flag)) | (.purge id,.ok (.flag flag)) => id == contextId && flag
  | _ => false

def opened (contextId : String) : Mx2Event rest × Except Exception (Mx2Answer rest) → Bool
  | (.asked (.post uuid _),.ok (.reply reply)) => uuid == contextId && reply.status == StatusCode.created
  | (.called call,.ok (.result result)) => opensAt contextId (call,.ok result)
  | _ => false

def closed (contextId : String) : Mx2Event rest × Except Exception (Mx2Answer rest) → Bool
  | (.asked (.delete request),.ok (.reply reply)) =>
    UeAppLcmProxy.erasePrefix request.path == contextId && reply.status == StatusCode.noContent
  | (.called call,.ok (.result result)) => closesAt contextId (call,.ok result)
  | _ => false

def liveAt (s : StaticUeAppLcmProxy rest) (contextId : String) : Nat :=
  if contextId ∈ s.theApplicationsByContextId then 1 else 0

/-! ## One call -/

theorem liveAt_congr (same : ∀ contextId, contextId ∈ t.theApplicationsByContextId ↔
    contextId ∈ s.theApplicationsByContextId) (contextId : String) : liveAt t contextId = liveAt s contextId := by
  simp only [liveAt,same]

theorem liveAt_created {uuid clientAddress edgeRouter : String} {request : AppContext rest}
    (new : uuid ∉ s.theApplicationsByContextId) (contextId : String) :
    liveAt (created s uuid clientAddress request edgeRouter) contextId =
      liveAt s contextId + (uuid == contextId).toNat := by
  have brought : contextId ∈ (created s uuid clientAddress request edgeRouter).theApplicationsByContextId ↔
      contextId = uuid ∨ contextId ∈ s.theApplicationsByContextId := KeyedMap.mem_emplace _ _ _ _
  by_cases same : contextId = uuid
  · subst same
    simp [liveAt,brought,new]
  · simp [liveAt,brought,same,Ne.symm same]

theorem liveAt_erased {contextId : String} {desc : Desc}
    (live : s.theApplicationsByContextId.lookup contextId = some desc) (other : String) :
    liveAt (erased s contextId desc) other + (contextId == other).toNat = liveAt s other := by
  have present := KeyedMap.lookup_some_mem live
  by_cases same : other = contextId
  · subst same
    simp [liveAt,erased,present]
  · simp [liveAt,erased,same,Ne.symm same]

/-- One call, by what it answers. -/
theorem liveAt_step (routed : Routed s) {call : Call rest} (fresh : Fresh s call)
    {answer : Except Exception (Result rest)} (ran : perform build s call = some (t,answer)) (contextId : String) :
    liveAt t contextId + (closesAt contextId (call,answer)).toNat =
      liveAt s contextId + (opensAt contextId (call,answer)).toNat := by
  rcases Outcome.answer?_eq_some.mp ran with ⟨result,returned,rfl⟩ | ⟨error,threw,rfl⟩
  swap
  · rw [exec_atomic call s error t threw]
    cases call <;> simp [closesAt,opensAt,opens]
  cases call with
  | associateAddress address appName edgeRouter =>
    obtain ⟨out,section_,rfl⟩ := Program.map_eq_returned.mp returned
    exact liveAt_congr (fun _ => (associateSection_reroutes routed section_).2.2.2.mem) contextId
  | removeAddress address appName =>
    obtain ⟨out,section_,rfl⟩ := Program.map_eq_returned.mp returned
    exact liveAt_congr (fun _ => (removeSection_reroutes routed section_).2.2.mem) contextId
  | createContext uuid clientAddress request =>
    obtain ⟨response,created_,rfl⟩ := Program.map_eq_returned.mp returned
    rcases createContext_returned created_ with ⟨_,rfl,rfl⟩ | ⟨edgeRouter,grants,_,_,answers,rfl⟩
    · have same : opens (.createContext uuid clientAddress response,.ok (.context response)) = false := by
        rw [opens]
        cases response.kind <;> rfl
      simp [closesAt,opensAt,same]
    · have answered : opens (.createContext uuid clientAddress request,.ok (.context response)) = true := by
        rw [opens,grants.proper.1,answers.kind]
        rfl
      rw [liveAt_created (fresh uuid rfl).2 contextId]
      simp [closesAt,opensAt,answered,Call.uuid?]
  | updateContext request =>
    obtain ⟨flag,updated,rfl⟩ := Program.map_eq_returned.mp returned
    rcases updateContext_returned.mp updated with ⟨_,_,rfl⟩ | ⟨indexed,desc,_,live,_,rfl⟩
    · rfl
    · refine liveAt_congr (fun other => ?_) contextId
      rw [recalled,AList.mem_insert,or_iff_right_of_imp]
      rintro rfl
      exact KeyedMap.lookup_some_mem live
  | deleteContext id =>
    obtain ⟨flag,deleted,rfl⟩ := Program.map_eq_returned.mp returned
    rcases deleteContext_returned.mp deleted with ⟨_,rfl,rfl⟩ | ⟨desc,live,_,rfl,rfl⟩
    · simp [closesAt,opensAt,opens]
    · simpa [closesAt,opensAt,opens] using liveAt_erased live contextId
  | purge id =>
    obtain ⟨flag,purged,rfl⟩ := Program.map_eq_returned.mp returned
    rcases purge_returned purged with ⟨_,rfl,rfl⟩ | ⟨desc,live,rfl,rfl⟩
    · simp [closesAt,opensAt,opens]
    · simpa [closesAt,opensAt,opens] using liveAt_erased live contextId
  | addApp info | delApp info =>
    obtain ⟨flag,changed,rfl⟩ := Program.map_eq_returned.mp returned
    obtain ⟨_,rfl⟩ := onRegistry_returned changed
    rfl

/-! ## One request -/

theorem decoded_answered {request : HttpRequest}
    {next : AppContext rest → Program (StaticUeAppLcmProxy rest) Exception Reply}
    {answer : Except Exception Reply}
    (answered : ((do
      let json ← Program.lift request.body
      let context ← Program.lift (AppContext.ofJson rest json)
      next context) s : Outcome _ _ _).answer? = some (t,answer)) :
    (t = s ∧ ∃ error, answer = .error error) ∨ ∃ json context, request.body = .ok json ∧
      AppContext.ofJson rest json = .ok context ∧ (next context s).answer? = some (t,answer) := by
  cases body : request.body with
  | error error =>
    rw [body] at answered
    cases answered
    exact .inl ⟨rfl,error,rfl⟩
  | ok json =>
    rw [body,Program.lift_ok,Program.pure_bind_apply] at answered
    cases decoded : AppContext.ofJson rest json with
    | error error =>
      rw [decoded] at answered
      cases answered
      exact .inl ⟨rfl,error,rfl⟩
    | ok context =>
      rw [decoded,Program.lift_ok,Program.pure_bind_apply] at answered
      exact .inr ⟨json,context,rfl,decoded,answered⟩

/-- A structure without a context ID is taken for a refusal. -/
theorem answerCreate_request {context : AppContext rest} (kind : context.kind = .request)
    {answer : Except Exception Reply}
    (answered : ((UeAppLcmProxy.answerCreate build context : Program (StaticUeAppLcmProxy rest) Exception Reply)
      s).answer? = some (t,answer)) : ∃ detail, answer = .ok (UeAppLcmProxy.refuse detail) := by
  rw [UeAppLcmProxy.answerCreate,AppContext.type,bind_assoc,Program.bind_apply] at answered
  cases passed : (Program.assert build.asserts context.consistent :
      Program (StaticUeAppLcmProxy rest) Exception Unit) s with
  | returned value u =>
    rw [passed] at answered
    simp only [Program.pure_bind_apply] at answered
    rw [kind,if_neg (by decide)] at answered
    cases answered
    exact ⟨_,rfl⟩
  | threw error u => exact absurd passed (Program.silent_assert _ _ s error u)
  | halted reason =>
    rw [passed] at answered
    contradiction

/-- What a POST comes to: nothing, or a creation that is reported as one. -/
theorem post_answered (routed : Routed s) {uuid : String} {request : HttpRequest}
    (honest : (Mx2Event.asked (.post uuid request) : Mx2Event rest).honest = true)
    {answer : Except Exception Reply}
    (answered : (handleContextCreate build uuid request s).answer? = some (t,answer)) :
    (t = s ∧ ∀ reply, answer = .ok reply → reply.status ≠ StatusCode.created) ∨
    ∃ context response, createContext build uuid request.remoteAddress context s = .returned response t ∧
      context.kind = .request ∧ response.kind = .response ∧
      ∃ body, answer = .ok ⟨StatusCode.created,body⟩ := by
  rcases decoded_answered answered with ⟨rfl,error,rfl⟩ | ⟨json,context,body,decoded,handled⟩
  · exact .inl ⟨rfl,by simp⟩
  have kind : context.kind = .request := by
    obtain ⟨address,path,_⟩ := request
    cases body
    rw [Mx2Event.honest,Bool.not_eq_true',← AppContext.ofJson_object decoded] at honest
    rw [AppContext.kind,honest]
    rfl
  rw [Program.bind_apply] at handled
  cases ran : createContext build uuid request.remoteAddress context s with
  | halted reason =>
    rw [ran] at handled
    contradiction
  | threw error u =>
    rw [ran] at handled
    cases handled
    exact .inl ⟨createContext_atomic _ _ _ _ _ _ ran,by simp⟩
  | returned response u =>
    rw [ran] at handled
    rcases createContext_returned ran with ⟨_,rfl,rfl⟩ | ⟨edgeRouter,grants,given,_,answers,_⟩
    · have same : t = u := by
        refine UeAppLcmProxy.readOnly_answerCreate build response u t ?_
        rw [← Outcome.answer?_fst,handled]
        rfl
      obtain ⟨detail,rfl⟩ := answerCreate_request kind handled
      refine .inl ⟨same,?_⟩
      rintro _ ⟨⟩
      simp [UeAppLcmProxy.refuse,StatusCode.forbidden,StatusCode.created]
    · have filled := route_filled routed.filled grants.routed
      dsimp only at handled
      rw [UeAppLcmProxy.answerCreate_answers build answers given filled] at handled
      cases handled
      exact .inr ⟨context,response,ran,kind,answers.kind,_,rfl⟩

theorem put_answered {request : HttpRequest} {answer : Except Exception Reply}
    (answered : (handleContextUpdate request s).answer? = some (t,answer)) :
    t = s ∨ ∃ context flag, updateContext context s = .returned flag t := by
  rcases decoded_answered answered with ⟨same,_⟩ | ⟨json,context,body,decoded,handled⟩
  · exact .inl same
  right
  rw [Program.bind_apply] at handled
  cases ran : updateContext context s with
  | halted reason =>
    rw [ran] at handled
    contradiction
  | threw error u => exact absurd ran (updateContext_silent context s error u)
  | returned flag u =>
    rw [ran] at handled
    cases flag <;> cases handled <;> exact ⟨context,_,ran⟩

/-- A DELETE is answered by the flag of `deleteContext`. -/
theorem delete_answered {request : HttpRequest} {answer : Except Exception Reply}
    (answered : (handleContextDelete build request s).answer? = some (t,answer)) :
    ∃ flag, deleteContext build (UeAppLcmProxy.erasePrefix request.path) s = .returned flag t ∧
      answer = .ok (if flag = true then ⟨StatusCode.noContent,.none⟩
        else UeAppLcmProxy.refuse "Unknown UE application context") := by
  rw [handleContextDelete,UeAppLcmProxy.handleContextDelete,Program.bind_apply] at answered
  cases passed : (Program.assert build.asserts
      (UeAppLcmProxy.contextsPrefix.toList.isPrefixOf request.path.toList) :
      Program (StaticUeAppLcmProxy rest) Exception Unit) s with
  | threw error u => exact absurd passed (Program.silent_assert _ _ s error u)
  | halted reason =>
    rw [passed] at answered
    contradiction
  | returned value u =>
    obtain ⟨_,rfl⟩ := Program.assert_eq_returned.mp passed
    rw [passed] at answered
    simp only [Program.bind_apply] at answered
    cases ran : deleteContext build (UeAppLcmProxy.erasePrefix request.path) u with
    | halted reason =>
      rw [ran] at answered
      contradiction
    | threw error v => exact absurd ran (deleteContext_silent _ u error v)
    | returned flag v =>
      rw [ran] at answered
      cases flag <;> cases answered <;> exact ⟨_,rfl,rfl⟩

/-! ## Sessions -/

theorem perform_returned {call : Call rest} {result : Result rest} (ran : exec build call s = .returned result t) :
    perform build s call = some (t,.ok result) := by
  rw [perform,ran]
  rfl

theorem step_performed {call : Call rest} {answer : Except Exception (Result rest)}
    (ran : perform build s call = some (t,answer)) : step build s call = some t := by
  rw [← perform_step,ran]
  rfl

/-- An event is at most one call, whatever body a client sends. -/
theorem serve_step {event : Mx2Event rest} {answer : Except Exception (Mx2Answer rest)}
    (served : serve build s event = some (t,answer)) :
    t = s ∨ ∃ call, step build s call = some t ∧ ∀ uuid, call.uuid? = some uuid → event.drawnId = some uuid := by
  cases event with
  | called call =>
    obtain ⟨inner,ran,_⟩ := Program.answer?_map.mp served
    exact .inr ⟨call,step_performed ran,fun _ => id⟩
  | asked request =>
    obtain ⟨inner,handled,_⟩ := Program.answer?_map.mp served
    cases request with
    | post uuid request =>
      rcases decoded_answered handled with ⟨same,_⟩ | ⟨json,context,_,_,further⟩
      · exact .inl same
      right
      refine ⟨.createContext uuid request.remoteAddress context,?_,fun _ => id⟩
      rw [step,exec,Program.state?_map]
      apply Program.state?_bind_readOnly (UeAppLcmProxy.readOnly_answerCreate build)
      rw [← Outcome.answer?_fst,further]
      rfl
    | put request =>
      rcases put_answered handled with same | ⟨context,flag,ran⟩
      · exact .inl same
      · exact .inr ⟨.updateContext context,
          step_performed (perform_returned (Program.map_eq_returned.mpr ⟨_,ran,rfl⟩)),by simp [Call.uuid?]⟩
    | delete request =>
      obtain ⟨flag,ran,_⟩ := delete_answered handled
      exact .inr ⟨.deleteContext (UeAppLcmProxy.erasePrefix request.path),
        step_performed (perform_returned (Program.map_eq_returned.mpr ⟨_,ran,rfl⟩)),by simp [Call.uuid?]⟩

/-- One event, by what it answers. -/
theorem liveAt_serve (routed : Routed s) {event : Mx2Event rest} (honest : event.honest = true)
    (fresh : ∀ uuid, event.drawnId = some uuid → uuid ≠ "" ∧ uuid ∉ s.theApplicationsByContextId)
    {answer : Except Exception (Mx2Answer rest)} (served : serve build s event = some (t,answer))
    (contextId : String) : liveAt t contextId + (closed contextId (event,answer)).toNat =
      liveAt s contextId + (opened contextId (event,answer)).toNat := by
  cases event with
  | called call =>
    obtain ⟨inner,ran,rfl⟩ := Program.answer?_map.mp served
    have balance := liveAt_step routed fresh ran contextId
    cases inner with
    | ok result => exact balance
    | error error =>
      have kept : t = s := by
        rcases Outcome.answer?_eq_some.mp ran with ⟨_,_,same⟩ | ⟨_,threw,_⟩
        · contradiction
        · exact exec_atomic call s _ t threw
      rw [kept]
      rfl
  | asked request =>
    obtain ⟨inner,handled,rfl⟩ := Program.answer?_map.mp served
    cases request with
    | post uuid request =>
      rcases post_answered routed honest handled with ⟨rfl,refused⟩ | ⟨context,response,ran,kind,grant,body,rfl⟩
      · cases inner with
        | ok reply => simp [closed,opened,Except.map,refused reply rfl]
        | error error => rfl
      · have performed : perform build s (.createContext uuid request.remoteAddress context) =
            some (t,.ok (.context response)) := perform_returned (Program.map_eq_returned.mpr ⟨_,ran,rfl⟩)
        have unused : Fresh s (.createContext uuid request.remoteAddress context) := fresh
        have balance := liveAt_step routed unused performed contextId
        simpa [closed,opened,Except.map,closesAt,opensAt,opens,Call.uuid?,kind,grant] using balance
    | put request =>
      have kept : liveAt t contextId = liveAt s contextId := by
        rcases put_answered handled with rfl | ⟨context,flag,ran⟩
        · rfl
        · have performed : perform build s (.updateContext context) = some (t,.ok (.flag flag)) :=
            perform_returned (Program.map_eq_returned.mpr ⟨_,ran,rfl⟩)
          have balance := liveAt_step routed (by simp [Fresh,Call.uuid?]) performed contextId
          simpa [closesAt,opensAt,opens] using balance
      rw [kept]
      cases inner <;> rfl
    | delete request =>
      obtain ⟨flag,ran,rfl⟩ := delete_answered handled
      have performed : perform build s (.deleteContext (UeAppLcmProxy.erasePrefix request.path)) =
          some (t,.ok (.flag flag)) := perform_returned (Program.map_eq_returned.mpr ⟨_,ran,rfl⟩)
      have balance := liveAt_step routed (by simp [Fresh,Call.uuid?]) performed contextId
      have status : (StatusCode.forbidden == StatusCode.noContent) = false := by decide
      cases flag <;>
        simpa [closed,opened,Except.map,closesAt,opensAt,opens,UeAppLcmProxy.refuse,status] using balance

/-- The context IDs drawn in a session: never empty, none twice. -/
structure FreshSession (events : List (Mx2Event rest)) : Prop where
  distinct : (events.filterMap Mx2Event.drawnId).Nodup
  filled : "" ∉ events.filterMap Mx2Event.drawnId
  honest : ∀ event ∈ events, event.honest = true

def Receives (s : StaticUeAppLcmProxy rest) (event : Mx2Event rest) : Prop :=
  Routed s ∧ event.honest = true ∧
    ∀ uuid, event.drawnId = some uuid → uuid ≠ "" ∧ uuid ∉ s.theApplicationsByContextId

theorem served_step {event : Mx2Event rest} (served : (serve build s event).map Prod.fst = some t) :
    t = s ∨ ∃ call, step build s call = some t ∧ ∀ uuid, call.uuid? = some uuid → event.drawnId = some uuid := by
  obtain ⟨⟨_,answer⟩,ran,rfl⟩ := Option.map_eq_some_iff.mp served
  exact serve_step ran

theorem FreshSession.along {events : List (Mx2Event rest)} (fresh : FreshSession events) :
    Run.Along (fun s event => (serve build s event).map Prod.fst) Receives empty events := by
  have unused : Run.Along (fun s event => (serve build s event).map Prod.fst)
      (fun s event => Routed s ∧
        Run.Unused Mx2Event.drawnId (fun s uuid => uuid ∈ s.theApplicationsByContextId) s event)
      (empty : StaticUeAppLcmProxy rest) events := by
    refine Run.along_unused _ _ (fun s event t routed taken => ?_) ?_ routed_empty fresh.distinct (by simp [empty])
    · rcases served_step taken with rfl | ⟨call,inner,_⟩
      · exact routed
      · exact routed_step routed inner
    · intro s event t routed taken uuid live
      rcases served_step taken with rfl | ⟨call,inner,draws⟩
      · exact .inl live
      · exact (step_ids routed inner live).imp_right fun drawn => draws uuid drawn.1
  have filled : ∀ event ∈ events, event.honest = true ∧ ∀ uuid, event.drawnId = some uuid → uuid ≠ "" := by
    refine fun event member => ⟨fresh.honest event member,?_⟩
    rintro _ drawn rfl
    exact fresh.filled (List.mem_filterMap.mpr ⟨event,member,drawn⟩)
  exact Run.along_imp (fun s event both => ⟨both.1.1,both.2.1,fun uuid drawn =>
    ⟨both.2.2 uuid drawn,both.1.2 uuid drawn⟩⟩) (Run.along_and unused (Run.along_of_mem filled empty))

/-- A session goes through reachable states only, so what holds in all of them holds in sessions. -/
theorem session_reachable {events : List (Mx2Event rest)}
    {log : List (Mx2Event rest × Except Exception (Mx2Answer rest))}
    (ran : Run.transcript (serve build) empty events = some (s,log)) : Reachable build s := by
  refine Run.Reachable.invariant (fun s event t reached taken => ?_) ⟨[],rfl⟩ ⟨events,Run.run_of_transcript ran⟩
  rcases served_step taken with rfl | ⟨call,inner,_⟩
  · exact reached
  · exact Run.Reachable.snoc reached inner

theorem opened_draws {contextId : String} {entry : Mx2Event rest × Except Exception (Mx2Answer rest)}
    (opens : opened contextId entry = true) : entry.1.drawnId = some contextId := by
  unfold opened at opens
  split at opens
  · exact congrArg some (beq_iff_eq.mp (Bool.and_eq_true_iff.mp opens).1)
  · exact beq_iff_eq.mp (Bool.and_eq_true_iff.mp opens).1
  · contradiction

/-- A context ID is granted once at most. -/
theorem FreshSession.opened_once {events : List (Mx2Event rest)} (fresh : FreshSession events)
    {log : List (Mx2Event rest × Except Exception (Mx2Answer rest))}
    (ran : Run.transcript (serve build) empty events = some (s,log)) (contextId : String) :
    log.countP (opened contextId) ≤ 1 := by
  calc log.countP (opened contextId)
      ≤ log.countP ((fun event => event.drawnId == some contextId) ∘ Prod.fst) :=
        List.countP_mono_left fun entry _ opens => beq_iff_eq.mpr (opened_draws opens)
    _ = (events.filterMap Mx2Event.drawnId).count contextId := by
        rw [← List.countP_map,Run.transcript_events ran,List.count_filterMap]
    _ ≤ 1 := List.nodup_iff_count.mp fresh.distinct contextId

/-- At any point of a session in which clients fill in no context IDs, a DELETE succeeds if
and only if the proxy has answered `Created` with the context ID, and has not deleted or
purged it since; else it is refused and nothing changes. -/
theorem deletions_exact (build : Build) (events : List (Mx2Event rest)) (fresh : FreshSession events)
    (s : StaticUeAppLcmProxy rest) (log : List (Mx2Event rest × Except Exception (Mx2Answer rest)))
    (ran : Run.transcript (serve build) empty events = some (s,log)) (contextId : String) :
    log.countP (closed contextId) ≤ log.countP (opened contextId) ∧ log.countP (opened contextId) ≤ 1 ∧
    ∀ remoteAddress body reply t, handleContextDelete build
        ⟨remoteAddress,UeAppLcmProxy.contextsPrefix ++ contextId,body⟩ s = .returned reply t →
      if log.countP (closed contextId) < log.countP (opened contextId)
      then reply.status = StatusCode.noContent ∧ contextId ∉ t.theApplicationsByContextId
      else reply.status = StatusCode.forbidden ∧ t = s := by
  have balance : liveAt s contextId + log.countP (closed contextId) = log.countP (opened contextId) := by
    rw [Run.transcript_balance (fun s event t answer receives ran =>
      liveAt_serve receives.1 receives.2.1 receives.2.2 ran contextId) fresh.along ran]
    exact Nat.zero_add _
  refine ⟨by omega,fresh.opened_once ran contextId,?_⟩
  intro remoteAddress body reply t answered
  have served : (handleContextDelete build ⟨remoteAddress,UeAppLcmProxy.contextsPrefix ++ contextId,body⟩
      s).answer? = some (t,.ok reply) := by
    rw [answered]
    rfl
  obtain ⟨flag,deleted,given⟩ := delete_answered served
  rw [UeAppLcmProxy.erasePrefix_append] at deleted
  cases given
  rcases deleteContext_returned.mp deleted with ⟨absent,rfl,rfl⟩ | ⟨desc,live,_,rfl,rfl⟩
  · have gone : liveAt t contextId = 0 := if_neg fun member => by
      obtain ⟨desc,found⟩ := KeyedMap.mem_iff_lookup.mp member
      rw [absent] at found
      contradiction
    rw [if_neg (by omega)]
    exact ⟨rfl,rfl⟩
  · have present : liveAt s contextId = 1 := if_pos (KeyedMap.lookup_some_mem live)
    rw [if_pos (by omega)]
    refine ⟨rfl,?_⟩
    simp [erased]

def sampleSession : List (Mx2Event Rest.plain) :=
  [.called (.addApp sampleApp),.called (.associateAddress "" "app" "er1"),
    .asked (.post "c1" (posted (sampleRequest "ue1" "http://ue1" sampleId_filled))),
    .asked (.delete (AppContextManager.deleteRequest "c1")),.asked (.delete (AppContextManager.deleteRequest "c1"))]

theorem sample_deletions_exact : ∃ s log, Run.transcript (serve .debug) empty sampleSession = some (s,log) ∧
    log.countP (closed "c1") ≤ log.countP (opened "c1") ∧ log.countP (opened "c1") ≤ 1 ∧
    ∀ reply t, handleContextDelete .debug (AppContextManager.deleteRequest "c1") s = .returned reply t →
      if log.countP (closed "c1") < log.countP (opened "c1")
      then reply.status = StatusCode.noContent ∧ "c1" ∉ t.theApplicationsByContextId
      else reply.status = StatusCode.forbidden ∧ t = s := by
  obtain ⟨⟨s,log⟩,ran⟩ := Option.isSome_iff_exists.mp
    (show (Run.transcript (serve .debug) empty sampleSession).isSome by decide +kernel)
  obtain ⟨below,once,answered⟩ :=
    deletions_exact .debug sampleSession ⟨by decide,by decide,by decide +kernel⟩ s log ran "c1"
  exact ⟨s,log,ran,below,once,answered "" (.ok .null)⟩

end EtsiMec.StaticUeAppLcmProxy
