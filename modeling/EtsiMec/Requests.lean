import EtsiMec.Handlers
import EtsiMec.ContextIndex

/-! What the requests of the Mx2 interface leave alone: a request that fails leaves the
whole proxy, an update all contexts but one. That one is found by the UE application ID of
the body; the context ID of the path is not looked at. -/
namespace EtsiMec

def Reply.IsError (reply : Reply) : Prop := 400 ≤ reply.status

namespace StaticUeAppLcmProxy

open Effect

variable {rest : Rest} {build : Build} {s t : StaticUeAppLcmProxy rest}

/-! ## Failures -/

/-- The requests on contexts; the proxy draws the ID of the context a POST creates. -/
inductive Mx2Request where
  | post (uuid : String) (request : HttpRequest)
  | put (request : HttpRequest)
  | delete (request : HttpRequest)

def Mx2Request.handle (build : Build) : Mx2Request → Program (StaticUeAppLcmProxy rest) Exception Reply
  | .post uuid request => handleContextCreate build uuid request
  | .put request => handleContextUpdate request
  | .delete request => handleContextDelete build request

/-- A request that left another state behind was answered, and not with an error. -/
def Succeeded (program : Program (StaticUeAppLcmProxy rest) Exception Reply) (s t : StaticUeAppLcmProxy rest) :
    Prop := ∃ reply, program s = .returned reply t ∧ ¬reply.IsError

/-- A body that is not decoded throws before anything is done. -/
theorem decoded_left {request : HttpRequest}
    {next : AppContext rest → Program (StaticUeAppLcmProxy rest) Exception Reply}
    (left : ((do
      let json ← Program.lift request.body
      let context ← Program.lift (AppContext.ofJson rest json)
      next context) s : Outcome _ _ _).state? = some t) :
    t = s ∨ ∃ json context, request.body = .ok json ∧ AppContext.ofJson rest json = .ok context ∧
      (next context s).state? = some t := by
  cases body : request.body with
  | error error =>
    rw [body] at left
    exact .inl (Option.some.inj left).symm
  | ok json =>
    rw [body,Program.lift_ok,Program.pure_bind_apply] at left
    cases decoded : AppContext.ofJson rest json with
    | error error =>
      rw [decoded] at left
      exact .inl (Option.some.inj left).symm
    | ok context =>
      rw [decoded,Program.lift_ok,Program.pure_bind_apply] at left
      exact .inr ⟨json,context,rfl,decoded,left⟩

theorem handleContextCreate_left {uuid : String} {request : HttpRequest}
    (left : (handleContextCreate .release uuid request s).state? = some t) :
    t = s ∨ Succeeded (handleContextCreate .release uuid request) s t := by
  rcases decoded_left left with same | ⟨json,context,body,decoded,handled⟩
  · exact .inl same
  have same := Program.state?_bind_readOnly (UeAppLcmProxy.readOnly_answerCreate .release) handled
  rcases (createContext_atomic uuid request.remoteAddress context).state? same with rfl | ⟨response,ran⟩
  · exact .inl rfl
  rcases createContext_returned ran with ⟨_,_,rfl⟩ | ⟨edgeRouter,grants,given,_,answers,_⟩
  · exact .inl rfl
  refine .inr ⟨⟨StatusCode.created,.json response.toJson⟩,?_,by simp [Reply.IsError,StatusCode.created]⟩
  rw [handleContextCreate_eq body decoded,Program.bind_returned _ ran,UeAppLcmProxy.answerCreate_release,
    if_pos answers.kind]

/-- The handler runs `updateContext` on the structure decoded from the body. -/
theorem handleContextUpdate_eq {request : HttpRequest} {json : Json} {context : AppContext rest}
    (body : request.body = .ok json) (decoded : AppContext.ofJson rest json = .ok context) :
    handleContextUpdate request s = (updateContext context >>= fun flag =>
      if flag = true then pure ⟨StatusCode.noContent,.none⟩
      else pure (UeAppLcmProxy.refuse "Unknown or invalid UE application context")) s := by
  unfold handleContextUpdate UeAppLcmProxy.handleContextUpdate
  rw [body,Program.lift_ok,Program.pure_bind_apply,decoded,Program.lift_ok,Program.pure_bind_apply]

/-- A flag that is answered with an error came with no change. -/
theorem flagged_left {operation : Program (StaticUeAppLcmProxy rest) Exception Bool}
    (silent : Program.Silent operation)
    (kept : ∀ t, operation s = .returned false t → t = s) {detail : String}
    (left : ((operation >>= fun flag => if flag = true then pure ⟨StatusCode.noContent,.none⟩
      else pure (UeAppLcmProxy.refuse detail)) s : Outcome _ _ Reply).state? = some t) :
    t = s ∨ Succeeded (operation >>= fun flag => if flag = true then pure ⟨StatusCode.noContent,.none⟩
      else pure (UeAppLcmProxy.refuse detail)) s t := by
  rw [Program.bind_apply] at left
  cases ran : operation s with
  | halted reason => simp [ran] at left
  | threw error u => exact absurd ran (silent s error u)
  | returned flag u =>
    rw [ran] at left
    cases flag with
    | false =>
      cases left
      exact .inl (kept _ ran)
    | true =>
      cases left
      refine .inr ⟨⟨StatusCode.noContent,.none⟩,?_,by simp [Reply.IsError,StatusCode.noContent]⟩
      rw [Program.bind_returned _ ran]
      rfl

theorem handleContextUpdate_left {request : HttpRequest}
    (left : (handleContextUpdate request s).state? = some t) :
    t = s ∨ Succeeded (handleContextUpdate request) s t := by
  rcases decoded_left left with same | ⟨json,context,body,decoded,handled⟩
  · exact .inl same
  have kept : ∀ t, updateContext context s = .returned false t → t = s := by
    intro t ran
    rcases updateContext_returned.mp ran with ⟨_,_,same⟩ | ⟨_,_,_,_,updated,_⟩
    · exact same
    · contradiction
  rcases flagged_left (updateContext_silent context) kept handled with same | ⟨reply,ran,fine⟩
  · exact .inl same
  · exact .inr ⟨reply,(handleContextUpdate_eq body decoded).trans ran,fine⟩

theorem handleContextDelete_left {request : HttpRequest}
    (left : (handleContextDelete .release request s).state? = some t) :
    t = s ∨ Succeeded (handleContextDelete .release request) s t := by
  have kept : ∀ t, deleteContext .release (UeAppLcmProxy.erasePrefix request.path) s = .returned false t →
      t = s := by
    intro t ran
    rcases deleteContext_returned.mp ran with ⟨_,_,same⟩ | ⟨_,_,_,updated,_⟩
    · exact same
    · contradiction
  exact flagged_left (deleteContext_silent _) kept left

/-- A request that throws or is answered with an error leaves the proxy as it was. -/
theorem failed_request_unchanged (s : StaticUeAppLcmProxy rest) (request : Mx2Request) :
    (∀ error t, request.handle .release s = .threw error t → t = s) ∧
    ∀ reply t, request.handle .release s = .returned reply t → reply.IsError → t = s := by
  have either : ∀ t, (request.handle .release s).state? = some t →
      t = s ∨ Succeeded (request.handle .release) s t := by
    intro t left
    cases request with
    | post uuid request => exact handleContextCreate_left left
    | put request => exact handleContextUpdate_left left
    | delete request => exact handleContextDelete_left left
  constructor
  · intro error t threw
    rcases either t (by rw [threw]; rfl) with same | ⟨reply,returned,_⟩
    · exact same
    · rw [threw] at returned
      contradiction
  · intro reply t returned failed
    rcases either t (by rw [returned]; rfl) with same | ⟨other,answered,fine⟩
    · exact same
    · cases returned.symm.trans answered
      exact absurd failed fine

/-- A deletion of a context that does not exist. -/
theorem sample_failure_unchanged :
    ∀ reply t, (Mx2Request.delete ⟨"client","app_contexts/c9",.ok .null⟩).handle .release
      (after .release sampleCalls (by decide)) = .returned reply t → reply.IsError →
      t = after .release sampleCalls (by decide) :=
  (failed_request_unchanged _ _).2

/-! ## Updates -/

/-- What a PUT on a context promises: it touches that context only, and tells whether it
could be updated. -/
structure UpdatesNamed (s : StaticUeAppLcmProxy rest) (contextId : String) (context : AppContext rest)
    (reply : Reply) (t : StaticUeAppLcmProxy rest) : Prop where
  others : ∀ other, other ≠ contextId →
    t.theApplicationsByContextId.lookup other = s.theApplicationsByContextId.lookup other
  updated : reply.status = StatusCode.noContent → contextId ∈ s.theApplicationsByContextId ∧
    ∃ desc, t.theApplicationsByContextId.lookup contextId = some desc ∧
      desc.theCallbackReference = context.callbackReference
  unknown : contextId ∉ s.theApplicationsByContextId → reply.status = StatusCode.forbidden ∧ t = s

def CalledAt (s : StaticUeAppLcmProxy rest) (contextId callbackReference : String) : Prop :=
  ∃ desc, s.theApplicationsByContextId.lookup contextId = some desc ∧
    desc.theCallbackReference = callbackReference

/-- The context the index has for the body is the one of the path, or the callback of the
body is no news to either. -/
def SameContext (s : StaticUeAppLcmProxy rest) (contextId : String) (context : AppContext rest) : Prop :=
  ∀ indexed, s.theApplicationsByUeAppId.lookup context.associateUeAppId = some indexed →
    indexed = contextId ∨
    CalledAt s contextId context.callbackReference ∧ CalledAt s indexed context.callbackReference

theorem updatesNamed_recalled_iff {contextId indexed : String} {desc : Desc} {context : AppContext rest}
    (live : s.theApplicationsByContextId.lookup indexed = some desc) :
    UpdatesNamed s contextId context ⟨StatusCode.noContent,.none⟩
      (recalled s indexed desc context.callbackReference) ↔
    indexed = contextId ∨
      CalledAt s contextId context.callbackReference ∧ CalledAt s indexed context.callbackReference := by
  by_cases same : indexed = contextId
  · subst same
    refine iff_of_true ⟨?_,fun _ => ⟨KeyedMap.lookup_some_mem live,_,by rw [recalled_lookup,if_pos rfl],rfl⟩,?_⟩
      (.inl rfl)
    · intro other apart
      rw [recalled_lookup,if_neg apart]
    · exact fun absent => absurd (KeyedMap.lookup_some_mem live) absent
  rw [or_iff_right same]
  constructor
  · intro updates
    obtain ⟨_,named,there,called⟩ := updates.updated rfl
    rw [recalled_lookup,if_neg (Ne.symm same)] at there
    have kept := updates.others indexed same
    rw [recalled_lookup,if_pos rfl,live] at kept
    exact ⟨⟨named,there,called⟩,desc,live,
      (congrArg Desc.theCallbackReference (Option.some.inj kept)).symm⟩
  · rintro ⟨⟨named,there,called⟩,before,found,current⟩
    cases live.symm.trans found
    refine ⟨fun other _ => ?_,fun _ => ⟨KeyedMap.lookup_some_mem there,named,?_,called⟩,
      fun absent => absurd (KeyedMap.lookup_some_mem there) absent⟩
    · rw [recalled_lookup]
      split
      · rename_i here
        rw [here,live,← current]
      · rfl
    · rw [recalled_lookup,if_neg (Ne.symm same),there]

/-- An update touches the context of its path if and only if the context the index has for
its body is that one, or nothing changes for either. -/
theorem update_touches_named_iff (build : Build) (calls : List (Call rest)) (fresh : FreshIds calls)
    (s : StaticUeAppLcmProxy rest) (ran : Run.run (step build) empty calls = some s)
    (remoteAddress contextId : String) (json : Json) (context : AppContext rest)
    (decoded : AppContext.ofJson rest json = .ok context) :
    ∃ reply t, handleContextUpdate ⟨remoteAddress,UeAppLcmProxy.contextsPrefix ++ contextId,.ok json⟩ s =
        .returned reply t ∧
      (UpdatesNamed s contextId context reply t ↔ SameContext s contextId context) := by
  rw [handleContextUpdate_eq rfl decoded]
  cases entry : s.theApplicationsByUeAppId.lookup context.associateUeAppId with
  | none =>
    have refused := updateContext_returned.mpr (.inl ⟨entry,rfl,rfl⟩)
    refine ⟨_,s,by rw [Program.bind_returned _ refused]; rfl,
      iff_of_true ⟨fun _ _ => rfl,?_,fun _ => ⟨rfl,rfl⟩⟩ ?_⟩
    · intro accepted
      contradiction
    · intro indexed found
      rw [entry] at found
      contradiction
  | some indexed =>
    obtain ⟨desc,live,_⟩ := fresh.indexed ran _ indexed entry
    have updated := updateContext_returned.mpr (.inr ⟨indexed,desc,entry,live,rfl,rfl⟩)
    refine ⟨_,_,by rw [Program.bind_returned _ updated]; rfl,(updatesNamed_recalled_iff live).trans ?_⟩
    simp [SameContext,entry]

def putOn (contextId : String) (context : AppContext Rest.plain) : HttpRequest :=
  ⟨"client",UeAppLcmProxy.contextsPrefix ++ contextId,.ok context.toJson⟩

theorem sample_update_named : ∃ reply t,
    handleContextUpdate (putOn "c1" (sampleRequest "ue1" "http://new" sampleId_filled))
      (after .debug sampleCalls (by decide)) = .returned reply t ∧
    UpdatesNamed (after .debug sampleCalls (by decide)) "c1"
      (sampleRequest "ue1" "http://new" sampleId_filled) reply t := by
  obtain ⟨reply,t,ran,touches⟩ := update_touches_named_iff .debug sampleCalls ⟨by decide,by decide⟩
    (after .debug sampleCalls (by decide)) (Option.some_get (by decide)).symm "client" "c1" _ _
    (AppContext.ofJson_eq (sampleRequest "ue1" "http://new" sampleId_filled))
  refine ⟨reply,t,ran,touches.mpr fun indexed entry => .inl ?_⟩
  have there : (after .debug sampleCalls (by decide)).theApplicationsByUeAppId.lookup
      (sampleRequest "ue1" "http://new" sampleId_filled).associateUeAppId = some "c1" := by decide
  exact Option.some.inj (entry.symm.trans there)

/-- A PUT on a context that does not exist changes another one and is answered `NoContent`. -/
theorem update_elsewhere :
    FreshIds sampleCalls ∧
    "c9" ∉ (after .debug sampleCalls (by decide)).theApplicationsByContextId ∧
    ∃ reply t, handleContextUpdate (putOn "c9" (sampleRequest "ue1" "http://new" sampleId_filled))
        (after .debug sampleCalls (by decide)) = .returned reply t ∧ reply.status = StatusCode.noContent ∧
      CalledAt (after .debug sampleCalls (by decide)) "c1" "http://ue1" ∧ CalledAt t "c1" "http://new" ∧
      ¬UpdatesNamed (after .debug sampleCalls (by decide)) "c9"
        (sampleRequest "ue1" "http://new" sampleId_filled) reply t := by
  have entry : (after .debug sampleCalls (by decide)).theApplicationsByUeAppId.lookup
      (sampleRequest "ue1" "http://new" sampleId_filled).associateUeAppId = some "c1" := by decide
  have live : (after .debug sampleCalls (by decide)).theApplicationsByContextId.lookup "c1" =
      some ⟨"ue1","http://ue1","client","app","er1"⟩ := by decide
  have updated := updateContext_returned.mpr (.inr ⟨_,_,entry,live,rfl,rfl⟩)
  have absent : "c9" ∉ (after .debug sampleCalls (by decide)).theApplicationsByContextId := by decide
  have called : (sampleRequest "ue1" "http://new" sampleId_filled).callbackReference = "http://new" := by decide
  have now : (recalled (after .debug sampleCalls (by decide)) "c1" ⟨"ue1","http://ue1","client","app","er1"⟩
      "http://new").theApplicationsByContextId.lookup "c1" = some ⟨"ue1","http://new","client","app","er1"⟩ := by
    rw [recalled_lookup,if_pos rfl]
  refine ⟨⟨by decide,by decide⟩,absent,⟨StatusCode.noContent,.none⟩,_,?_,rfl,⟨_,live,rfl⟩,⟨_,now,rfl⟩,
    fun updates => absent (updates.updated rfl).1⟩
  rw [putOn,handleContextUpdate_eq rfl (AppContext.ofJson_eq _),Program.bind_returned _ updated,called]
  rfl

end StaticUeAppLcmProxy
end EtsiMec
