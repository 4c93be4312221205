import EtsiMec.Independence
import EtsiMec.GrpcUeAppLcmProxyClient

/-! The number of contexts against the answers. A context is opened by each creation that is
granted and closed by each deletion or purge that is answered true, and by nothing else. -/
namespace EtsiMec.StaticUeAppLcmProxy

open Effect

variable {rest : Rest} {build : Build} {s t : StaticUeAppLcmProxy rest}

def opens : Call rest × Except Exception (Result rest) → Bool
  | (.createContext _ _ request,.ok (.context response)) => request.kind == .request && response.kind == .response
  | _ => false

def closes : Call rest × Except Exception (Result rest) → Bool
  | (.deleteContext _,.ok (.flag flag)) | (.purge _,.ok (.flag flag)) => flag
  | _ => false

def liveContexts (s : StaticUeAppLcmProxy rest) : Nat := KeyedMap.size s.theApplicationsByContextId

theorem liveContexts_erased {contextId : String} {desc : Desc}
    (live : s.theApplicationsByContextId.lookup contextId = some desc) :
    liveContexts (erased s contextId desc) + 1 = liveContexts s :=
  KeyedMap.size_erase (KeyedMap.lookup_some_mem live)

/-- One call, by what it answers. -/
theorem liveContexts_step (routed : Routed s) {call : Call rest} (fresh : Fresh s call)
    {answer : Except Exception (Result rest)} (ran : perform build s call = some (t,answer)) :
    liveContexts t + (closes (call,answer)).toNat = liveContexts s + (opens (call,answer)).toNat := by
  rcases Outcome.answer?_eq_some.mp ran with ⟨result,returned,rfl⟩ | ⟨error,threw,rfl⟩
  swap
  · rw [exec_atomic call s error t threw]
    cases call <;> rfl
  cases call with
  | associateAddress address appName edgeRouter =>
    obtain ⟨out,section_,rfl⟩ := Program.map_eq_returned.mp returned
    exact (associateSection_reroutes routed section_).2.2.2.size
  | removeAddress address appName =>
    obtain ⟨out,section_,rfl⟩ := Program.map_eq_returned.mp returned
    exact (removeSection_reroutes routed section_).2.2.size
  | createContext uuid clientAddress request =>
    obtain ⟨response,created_,rfl⟩ := Program.map_eq_returned.mp returned
    rcases createContext_returned created_ with ⟨_,rfl,rfl⟩ | ⟨edgeRouter,grants,_,_,answers,rfl⟩
    · -- a refusal hands the request back, so it is no answer to itself
      have same : opens (.createContext uuid clientAddress response,.ok (.context response)) = false := by
        rw [opens]
        cases response.kind <;> rfl
      rw [same]
      rfl
    · have new := (fresh uuid rfl).2
      have answered : opens (.createContext uuid clientAddress request,.ok (.context response)) = true := by
        rw [opens,grants.proper.1,answers.kind]
        rfl
      rw [answered]
      change KeyedMap.size (KeyedMap.emplace uuid _ s.theApplicationsByContextId).1 = liveContexts s + 1
      rw [KeyedMap.emplace_fresh _ new]
      exact KeyedMap.size_insert_fresh _ new
  | updateContext request =>
    obtain ⟨flag,updated,rfl⟩ := Program.map_eq_returned.mp returned
    rcases updateContext_returned.mp updated with ⟨_,_,rfl⟩ | ⟨contextId,desc,_,live,_,rfl⟩
    · rfl
    · exact KeyedMap.size_insert_present { desc with theCallbackReference := request.callbackReference }
        (KeyedMap.lookup_some_mem live)
  | deleteContext contextId =>
    obtain ⟨flag,deleted,rfl⟩ := Program.map_eq_returned.mp returned
    rcases deleteContext_returned.mp deleted with ⟨_,rfl,rfl⟩ | ⟨desc,live,_,rfl,rfl⟩
    · rfl
    · exact liveContexts_erased live
  | purge contextId =>
    obtain ⟨flag,purged,rfl⟩ := Program.map_eq_returned.mp returned
    rcases purge_returned purged with ⟨_,rfl,rfl⟩ | ⟨desc,live,rfl,rfl⟩
    · rfl
    · exact liveContexts_erased live
  | addApp info | delApp info =>
    obtain ⟨flag,changed,rfl⟩ := Program.map_eq_returned.mp returned
    obtain ⟨_,rfl⟩ := onRegistry_returned changed
    rfl

theorem perform_steps : (fun s call => (perform build s call).map Prod.fst) = @step rest build :=
  funext fun s => funext fun call => perform_step s call

theorem liveContexts_run {calls : List (Call rest)} (fresh : FreshIds calls)
    {log : List (Call rest × Except Exception (Result rest))}
    (ran : Run.transcript (perform build) empty calls = some (s,log)) :
    liveContexts s + log.countP closes = log.countP opens := by
  have along : Run.Along (fun s call => (perform build s call).map Prod.fst)
      (fun s call => Routed s ∧ Fresh s call) (empty : StaticUeAppLcmProxy rest) calls := by
    rw [perform_steps]
    exact fresh.along
  have balance := Run.transcript_balance (fun s call t answer sound ran => liveContexts_step sound.1 sound.2 ran)
    along ran
  rw [balance]
  exact Nat.zero_add _

/-- After any run that draws new context IDs, a client that asks is told how many creations were
granted less how many deletions and purges found their context, in 32 bits. -/
theorem counted_contexts (build : Build) (validate : String → Bool) (post : Notification → PostResult)
    (checkStatus : GrpcUeAppLcmProxy.Status → Except Exception Unit) (checks : checkStatus .ok = .ok ())
    (calls : List (Call rest)) (fresh : FreshIds calls) (s : StaticUeAppLcmProxy rest)
    (log : List (Call rest × Except Exception (Result rest)))
    (ran : Run.transcript (perform build) empty calls = some (s,log)) :
    log.countP closes ≤ log.countP opens ∧ (contexts s).length = log.countP opens - log.countP closes ∧
    GrpcUeAppLcmProxyClient.numContexts checkStatus (GrpcUeAppLcmProxyClient.remoteProxy build validate post) s =
      .returned ((log.countP opens - log.countP closes) % 2 ^ 32) s := by
  have balance := liveContexts_run fresh ran
  have reached : Reachable build s := ⟨calls,perform_steps ▸ Run.run_of_transcript ran⟩
  have live : liveContexts s = log.countP opens - log.countP closes := by omega
  refine ⟨by omega,?_,?_⟩
  · rw [← live,contexts,List.length_map]
    rfl
  · rw [GrpcUeAppLcmProxyClient.numContexts_served checks,← live]
    refine Program.map_eq_returned.mpr ⟨liveContexts s,?_,rfl⟩
    rw [numContexts,Program.get_bind_apply]
    refine Program.bind_eq_returned.mpr ⟨(),s,Program.assert_eq_returned.mpr ⟨fun debug => ?_,rfl⟩,rfl⟩
    rw [beq_iff_eq]
    cases build with
    | debug => exact (reached.sound rfl).size
    | release => contradiction

/-- A context that is purged twice is counted once. -/
theorem sample_counted : ∃ s log,
    Run.transcript (perform .debug) empty (sampleCalls ++ [.purge "c1",.purge "c1"]) = some (s,log) ∧
    log.countP closes ≤ log.countP opens ∧ (contexts s).length = log.countP opens - log.countP closes ∧
    GrpcUeAppLcmProxyClient.numContexts GrpcUeAppLcmProxyClient.sampleCheck
        (GrpcUeAppLcmProxyClient.remoteProxy .debug (fun _ => true) fun _ => .failed) s =
      .returned ((log.countP opens - log.countP closes) % 2 ^ 32) s :=
  ⟨_,_,rfl,counted_contexts .debug (fun _ => true) (fun _ => .failed) GrpcUeAppLcmProxyClient.sampleCheck rfl
    (sampleCalls ++ [.purge "c1",.purge "c1"]) ⟨by decide,by decide⟩ _ _ rfl⟩

end EtsiMec.StaticUeAppLcmProxy
