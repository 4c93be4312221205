import EtsiMec.Confluence
import EtsiMec.GrpcUeAppLcmProxy

/-! Whole calls as runs of critical sections, and commands that are delivered again. A client
that got no answer may repeat its command: the proxy is left as it was. -/
namespace EtsiMec.StaticUeAppLcmProxy

open Effect

variable {rest : Rest} {build : Build} {s t : StaticUeAppLcmProxy rest}
variable {validate : String → Bool} {post : Notification → PostResult}

/-! ## Sections and purges -/

theorem purge_step {contextId : String} {flag : Bool} (ran : purge build contextId s = .returned flag t) :
    step build s (.purge contextId) = some t := by
  rw [step,exec,Program.state?_map,ran]
  rfl

/-- A turn of the loop purges its context or does nothing. -/
theorem notifyClient_run {elem : Notification}
    (ran : notifyClient build validate post elem s = .returned () t) :
    t = s ∨ step build s (.purge elem.contextId) = some t := by
  rw [notifyClient_ready_eq (notifyClient_ready ran)] at ran
  split at ran
  · cases ran
    exact .inl rfl
  split at ran
  · cases ran
    exact .inl rfl
  split at ran
  · obtain ⟨flag,middle,purged,rest⟩ := Program.bind_eq_returned.mp ran
    cases rest
    exact .inr (purge_step purged)
  · cases ran
    exact .inl rfl

theorem notifyClients_run {list : NotificationList}
    (ran : notifyClients build validate post list s = .returned () t) :
    ∃ purged : List String, Run.run (step build) s (purged.map .purge) = some t := by
  induction list generalizing s with
  | nil =>
    cases ran
    exact ⟨[],rfl⟩
  | cons elem rest ih =>
    obtain ⟨_,middle,first,others⟩ := Program.bind_eq_returned.mp ran
    obtain ⟨purged,later⟩ := ih others
    rcases notifyClient_run first with rfl | taken
    · exact ⟨purged,later⟩
    · exact ⟨elem.contextId :: purged,Run.run_cons.mpr ⟨middle,taken,later⟩⟩

theorem associateAddress_run {address appName edgeRouter : String}
    (ran : associateAddress build validate post address appName edgeRouter s = .returned () t) :
    ∃ purged : List String, Run.run (step build) s
      (.associateAddress address appName edgeRouter :: purged.map .purge) = some t := by
  obtain ⟨out,middle,section_,posted⟩ := Program.bind_eq_returned.mp ran
  obtain ⟨purged,later⟩ := notifyClients_run posted
  refine ⟨purged,Run.run_cons.mpr ⟨middle,?_,later⟩⟩
  rw [step,exec,Program.state?_map,section_]
  rfl

theorem removeAddress_run {address appName : String}
    (ran : removeAddress build validate post address appName s = .returned () t) :
    ∃ purged : List String, Run.run (step build) s
      (.removeAddress address appName :: purged.map .purge) = some t := by
  obtain ⟨out,middle,section_,posted⟩ := Program.bind_eq_returned.mp ran
  obtain ⟨purged,later⟩ := notifyClients_run posted
  refine ⟨purged,Run.run_cons.mpr ⟨middle,?_,later⟩⟩
  rw [step,exec,Program.state?_map,section_]
  rfl

theorem purges_table {purged : List String} (ran : Run.run (step build) s (purged.map .purge) = some t) :
    t.theTable = s.theTable := by
  induction purged generalizing s with
  | nil =>
    cases ran
    rfl
  | cons contextId others ih =>
    obtain ⟨next,taken,later⟩ := Run.run_cons.mp ran
    rw [ih later,context_table (by simp) taken]

/-! ## The same call again -/

/-- An association that is in the table already is not even looked at. -/
theorem associateAddress_again {address appName edgeRouter : String} (named : appName ≠ "")
    (filled : edgeRouter ≠ "") (there : s.theTable.lookup ⟨address,appName⟩ = some edgeRouter) :
    associateAddress build validate post address appName edgeRouter s = .returned () s := by
  rw [associateAddress,Program.bind_returned _ (associateSection_returned.mpr
    ⟨named,filled,.inl ⟨there,rfl,rfl⟩⟩)]
  rfl

/-- The loop over the descriptors finds all of them up to date. -/
theorem removeAddress_again (routed : Routed s) {address appName : String} (named : appName ≠ "")
    (absent : s.theTable.lookup ⟨address,appName⟩ = none) :
    removeAddress build validate post address appName s = .returned () s := by
  have idle : removeSection build address appName s = .returned [] s := by
    refine removeSection_returned.mpr ⟨named,s.theApplicationsByContextId,?_,?_⟩
    · rw [KeyedMap.erase_absent absent]
      refine KeyedMap.sweep_unchanged fun contextId desc live => ?_
      rw [removeVisit_refresh routed.filled (routed.named contextId desc live),
        refresh_current (routed.endpoint contextId desc live)]
    · rw [KeyedMap.erase_absent absent]
  rw [removeAddress,Program.bind_returned _ idle]
  rfl

section Repeated
variable (routed : Routed s) {address appName edgeRouter : String} (named : appName ≠ "")
include routed named

theorem associateAddress_repeated (filled : edgeRouter ≠ "")
    (ran : associateAddress build validate post address appName edgeRouter s = .returned () t)
    (validate' : String → Bool) (post' : Notification → PostResult) :
    associateAddress build validate' post' address appName edgeRouter t = .returned () t := by
  refine associateAddress_again named filled ?_
  obtain ⟨purged,sections⟩ := associateAddress_run ran
  obtain ⟨middle,taken,later⟩ := Run.run_cons.mp sections
  rw [purges_table later,step_table routed taken]
  simp [Call.written,Call.edgeRouter?,named,filled]

theorem removeAddress_repeated
    (ran : removeAddress build validate post address appName s = .returned () t)
    (validate' : String → Bool) (post' : Notification → PostResult) :
    removeAddress build validate' post' address appName t = .returned () t := by
  obtain ⟨purged,sections⟩ := removeAddress_run ran
  have kept : Routed t := Run.invariant (fun _ _ _ inner _ => routed_step inner) routed
    (Run.along_of_forall (fun _ _ => trivial) _ _) sections
  obtain ⟨middle,taken,later⟩ := Run.run_cons.mp sections
  refine removeAddress_again kept named ?_
  rw [purges_table later,step_table routed taken]
  simp [Call.written,Call.edgeRouter?,named]

end Repeated

theorem SameContents.refl (s : StaticUeAppLcmProxy rest) : SameContents s s :=
  ⟨fun _ => rfl,fun _ => rfl,fun _ => rfl,fun _ => rfl⟩

theorem SameContents.trans {u : StaticUeAppLcmProxy rest} (first : SameContents s t) (second : SameContents t u) :
    SameContents s u :=
  ⟨fun key => (first.theTable key).trans (second.theTable key),
    fun key => (first.theApplications key).trans (second.theApplications key),
    fun contextId => (first.theApplicationsByContextId contextId).trans
      (second.theApplicationsByContextId contextId),
    fun ueAppId => (first.theApplicationsByUeAppId ueAppId).trans (second.theApplicationsByUeAppId ueAppId)⟩

end EtsiMec.StaticUeAppLcmProxy

namespace EtsiMec.GrpcUeAppLcmProxy

open Effect

variable {rest : Rest} {build : Build} {s t : StaticUeAppLcmProxy rest}
variable {validate : String → Bool} {post : Notification → StaticUeAppLcmProxy.PostResult}

/-! ## The same command again -/

theorem withLambda_returned {update : AppInfo rest → Registry rest → Registry rest × Bool} {request : Lambda}
    {status : Status} : withLambda build update request s = .returned status t ↔
      (build = .debug → request.value ≠ "") ∧ status = .ok ∧ t = updated s update request := by
  rw [withLambda,asserted,bne_iff_ne]
  refine and_congr_right fun _ => ?_
  cases built : lambdaApp rest request.value with
  | ok app =>
    rw [if_neg (lambdaApp_ok.mp ⟨app,built⟩).1,answered,updated,built]
    exact and_congr_right fun _ => ⟨fun ran => by cases ran; rfl,fun same => by rw [same]; rfl⟩
  | error error =>
    split
    · rw [updated,built]
      exact ⟨fun ran => by cases ran; exact ⟨rfl,rfl⟩,by rintro ⟨rfl,rfl⟩; rfl⟩
    · rw [answered,updated,built]
      exact and_congr_right fun _ => ⟨fun ran => by cases ran; rfl,fun same => by rw [same]; rfl⟩

/-- Another delivery settles nothing that the first did not. -/
theorem withLambda_repeated {update : AppInfo rest → Registry rest → Registry rest × Bool}
    (settles : ∀ app theApplications, ∀ key : String,
      (update app (update app theApplications).1).1[key]? = (update app theApplications).1[key]?)
    {request : Lambda} {status : Status} (ran : withLambda build update request s = .returned status t) :
    ∃ u, withLambda build update request t = .returned status u ∧ StaticUeAppLcmProxy.SameContents t u := by
  obtain ⟨given,ok,rfl⟩ := withLambda_returned.mp ran
  refine ⟨_,withLambda_returned.mpr ⟨given,ok,rfl⟩,?_⟩
  unfold updated
  cases built : lambdaApp rest request.value with
  | ok app => exact ⟨fun _ => rfl,fun key => (settles app s.theApplications key).symm,fun _ => rfl,fun _ => rfl⟩
  | error error => exact .refl s

theorem associateAddress_repeated (routed : StaticUeAppLcmProxy.Routed s) {request : AddressTuple}
    {status : Status} (ran : associateAddress build validate post request s = .returned status t)
    (validate' : String → Bool) (post' : Notification → StaticUeAppLcmProxy.PostResult) :
    associateAddress build validate' post' request t = .returned status t := by
  rw [associateAddress,asserted,answered] at ran ⊢
  obtain ⟨given,ok,caught⟩ := ran
  refine ⟨given,ok,?_⟩
  by_cases blank : request.appname = "" ∨ request.server = ""
  · obtain ⟨error,threw⟩ := StaticUeAppLcmProxy.associateAddress_rejects build validate' post' t request.client blank
    exact Program.catchAll_threw threw
  · obtain ⟨named,filled⟩ := not_or.mp blank
    rw [(StaticUeAppLcmProxy.associateAddress_silent _ _ _ request.client named filled).catchAll_returned] at caught ⊢
    exact StaticUeAppLcmProxy.associateAddress_repeated routed named filled caught validate' post'

theorem removeAddress_repeated (routed : StaticUeAppLcmProxy.Routed s) {request : AddressTuple}
    {status : Status} (ran : removeAddress build validate post request s = .returned status t)
    (validate' : String → Bool) (post' : Notification → StaticUeAppLcmProxy.PostResult) :
    removeAddress build validate' post' request t = .returned status t := by
  rw [removeAddress,asserted,asserted,answered] at ran ⊢
  obtain ⟨given,absent,ok,caught⟩ := ran
  refine ⟨given,absent,ok,?_⟩
  by_cases unnamed : request.appname = ""
  · obtain ⟨error,threw⟩ := StaticUeAppLcmProxy.removeAddress_rejects build validate' post' t request.client
    rw [← unnamed] at threw
    exact Program.catchAll_threw threw
  · rw [(StaticUeAppLcmProxy.removeAddress_silent _ _ _ request.client unnamed).catchAll_returned] at caught ⊢
    exact StaticUeAppLcmProxy.removeAddress_repeated routed unnamed caught validate' post'

theorem addLambda_repeated {request : Lambda} {status : Status}
    (ran : addLambda build request s = .returned status t) :
    ∃ u, addLambda build request t = .returned status u ∧ StaticUeAppLcmProxy.SameContents t u := by
  refine withLambda_repeated ?_ ran
  intro app theApplications key
  simp only [UeAppLcmProxy.addApp_find]
  split <;> rfl

theorem delLambda_repeated {request : Lambda} {status : Status}
    (ran : delLambda build request s = .returned status t) :
    ∃ u, delLambda build request t = .returned status u ∧ StaticUeAppLcmProxy.SameContents t u := by
  refine withLambda_repeated ?_ ran
  intro app theApplications key
  simp only [UeAppLcmProxy.delApp_find]
  split <;> rfl

/-! ## Deliveries -/

inductive Command where
  | associateAddress (request : AddressTuple)
  | removeAddress (request : AddressTuple)
  | addLambda (request : Lambda)
  | delLambda (request : Lambda)

structure Delivery where
  validate : String → Bool
  post : Notification → StaticUeAppLcmProxy.PostResult

def Command.handle (build : Build) (delivery : Delivery) :
    Command → Program (StaticUeAppLcmProxy rest) Exception Status
  | .associateAddress request => GrpcUeAppLcmProxy.associateAddress build delivery.validate delivery.post request
  | .removeAddress request => GrpcUeAppLcmProxy.removeAddress build delivery.validate delivery.post request
  | .addLambda request => GrpcUeAppLcmProxy.addLambda build request
  | .delLambda request => GrpcUeAppLcmProxy.delLambda build request

/-- What a command throws is swallowed. -/
theorem Command.handle_silent (build : Build) (delivery : Delivery) (command : Command) :
    Program.Silent (command.handle build delivery : Program (StaticUeAppLcmProxy rest) _ _) := by
  have answers : ∀ {p : Program (StaticUeAppLcmProxy rest) Exception Unit},
      Program.Silent (Program.catchAll p >>= fun _ => pure Status.ok) := fun {p} =>
    Program.silent_bind (Program.silent_catchAll p) fun _ => Program.silent_pure _
  cases command with
  | associateAddress request => exact Program.silent_bind (Program.silent_assert _ _) fun _ => answers
  | removeAddress request =>
    exact Program.silent_bind (Program.silent_assert _ _) fun _ =>
      Program.silent_bind (Program.silent_assert _ _) fun _ => answers
  | addLambda request | delLambda request =>
    refine Program.silent_bind (Program.silent_assert _ _) fun _ => ?_
    split
    · exact Program.silent_pure _
    · exact Program.silent_bind (Program.silent_catchAll _) fun _ => Program.silent_pure _

def Command.deliver (build : Build) (command : Command) :
    List Delivery → Program (StaticUeAppLcmProxy rest) Exception (List Status)
  | [] => return []
  | delivery :: others => do
    let status ← command.handle build delivery
    let statuses ← command.deliver build others
    return status :: statuses

theorem Command.repeated (routed : StaticUeAppLcmProxy.Routed s) {command : Command} {delivery : Delivery}
    {status : Status} (ran : command.handle build delivery s = .returned status t) (again : Delivery) :
    ∃ u, command.handle build again t = .returned status u ∧ StaticUeAppLcmProxy.SameContents t u := by
  cases command with
  | associateAddress request => exact ⟨t,associateAddress_repeated routed ran _ _,.refl t⟩
  | removeAddress request => exact ⟨t,removeAddress_repeated routed ran _ _,.refl t⟩
  | addLambda request => exact addLambda_repeated ran
  | delLambda request => exact delLambda_repeated ran

def Command.call? : Command → Option (StaticUeAppLcmProxy.Call rest)
  | .associateAddress request =>
    if request.appname = "" ∨ request.server = "" then none
    else some (.associateAddress request.client request.appname request.server)
  | .removeAddress request =>
    if request.appname = "" then none else some (.removeAddress request.client request.appname)
  | .addLambda request => (lambdaApp rest request.value).toOption.map .addApp
  | .delLambda request => (lambdaApp rest request.value).toOption.map .delApp

theorem updated_run {update : AppInfo rest → Registry rest → Registry rest × Bool}
    {call : AppInfo rest → StaticUeAppLcmProxy.Call rest}
    (runs : ∀ app s, StaticUeAppLcmProxy.step build s (call app) =
      some { s with theApplications := (update app s.theApplications).1 }) (request : Lambda) :
    Run.run (StaticUeAppLcmProxy.step build) s ((lambdaApp rest request.value).toOption.map call).toList =
      some (updated s update request) := by
  unfold updated
  cases lambdaApp rest request.value with
  | ok app => exact Run.run_cons.mpr ⟨_,runs app s,rfl⟩
  | error error => rfl

/-- A command that is answered has run its section, and then only purged contexts. -/
theorem Command.handle_run {command : Command} {delivery : Delivery} {status : Status}
    (ran : command.handle build delivery s = .returned status t) :
    status = .ok ∧ ∃ purged : List String, Run.run (StaticUeAppLcmProxy.step build) s
      (command.call?.toList ++ purged.map .purge) = some t := by
  cases command with
  | associateAddress request =>
    rw [handle,GrpcUeAppLcmProxy.associateAddress,asserted,answered] at ran
    obtain ⟨_,ok,caught⟩ := ran
    refine ⟨ok,?_⟩
    rw [call?]
    split
    · rename_i blank
      obtain ⟨error,threw⟩ := StaticUeAppLcmProxy.associateAddress_rejects build delivery.validate delivery.post s
        request.client blank
      cases (Program.catchAll_threw threw).symm.trans caught
      exact ⟨[],rfl⟩
    · rename_i effective
      obtain ⟨named,filled⟩ := not_or.mp effective
      rw [(StaticUeAppLcmProxy.associateAddress_silent _ _ _ request.client named filled).catchAll_returned]
        at caught
      exact StaticUeAppLcmProxy.associateAddress_run caught
  | removeAddress request =>
    rw [handle,GrpcUeAppLcmProxy.removeAddress,asserted,asserted,answered] at ran
    obtain ⟨_,_,ok,caught⟩ := ran
    refine ⟨ok,?_⟩
    rw [call?]
    split
    · rename_i unnamed
      obtain ⟨error,threw⟩ := StaticUeAppLcmProxy.removeAddress_rejects build delivery.validate delivery.post s
        request.client
      rw [← unnamed] at threw
      cases (Program.catchAll_threw threw).symm.trans caught
      exact ⟨[],rfl⟩
    · rename_i named
      rw [(StaticUeAppLcmProxy.removeAddress_silent _ _ _ request.client named).catchAll_returned] at caught
      exact StaticUeAppLcmProxy.removeAddress_run caught
  | addLambda request =>
    obtain ⟨_,ok,rfl⟩ := withLambda_returned.mp ran
    exact ⟨ok,[],by rw [List.map_nil,List.append_nil]; exact updated_run (fun _ _ => rfl) request⟩
  | delLambda request =>
    obtain ⟨_,ok,rfl⟩ := withLambda_returned.mp ran
    exact ⟨ok,[],by rw [List.map_nil,List.append_nil]; exact updated_run (fun _ _ => rfl) request⟩

theorem Command.reaches (reached : StaticUeAppLcmProxy.Reachable build s) {command : Command}
    {delivery : Delivery} {status : Status} (ran : command.handle build delivery s = .returned status t) :
    StaticUeAppLcmProxy.Reachable build t := by
  obtain ⟨_,purged,sections⟩ := command.handle_run ran
  obtain ⟨calls,before⟩ := reached
  exact ⟨calls ++ _,Run.run_append.mpr ⟨s,before,sections⟩⟩

/-- A command that was answered may be delivered any number of times more, whatever the
clients do by then: it is answered the same, and the contents stay. -/
theorem redelivery_harmless (build : Build) (s : StaticUeAppLcmProxy rest)
    (reached : StaticUeAppLcmProxy.Reachable build s) (command : Command) (delivery : Delivery)
    (status : Status) (t : StaticUeAppLcmProxy rest)
    (ran : command.handle build delivery s = .returned status t) (again : List Delivery) :
    ∃ u, command.deliver build again t = .returned (List.replicate again.length status) u ∧
      StaticUeAppLcmProxy.SameContents t u := by
  induction again generalizing s t delivery with
  | nil => exact ⟨t,rfl,.refl t⟩
  | cons next others ih =>
    obtain ⟨middle,repeated,same⟩ := Command.repeated reached.routed ran next
    obtain ⟨u,delivered,alike⟩ := ih t (command.reaches reached ran) next middle repeated
    refine ⟨u,?_,same.trans alike⟩
    rw [Command.deliver,Program.bind_returned _ repeated,Program.bind_returned _ delivered]
    rfl

/-- An association that moved a client, delivered twice more. -/
theorem sample_redelivery_harmless : ∃ t u,
    Command.handle .debug ⟨fun _ => true,fun _ => .status 204⟩ (.associateAddress ⟨"","app","er2"⟩)
      (StaticUeAppLcmProxy.after .debug StaticUeAppLcmProxy.sampleCalls (by decide)) = .returned .ok t ∧
    Command.deliver .debug (.associateAddress ⟨"","app","er2"⟩)
      [⟨fun _ => true,fun _ => .failed⟩,⟨fun _ => true,fun _ => .status 404⟩] t = .returned [.ok,.ok] u ∧
    StaticUeAppLcmProxy.SameContents t u := by
  obtain ⟨u,delivered,same⟩ := redelivery_harmless .debug _
    (StaticUeAppLcmProxy.after_reachable .debug StaticUeAppLcmProxy.sampleCalls (by decide))
    (.associateAddress ⟨"","app","er2"⟩) ⟨fun _ => true,fun _ => .status 204⟩ .ok _ rfl
    [⟨fun _ => true,fun _ => .failed⟩,⟨fun _ => true,fun _ => .status 404⟩]
  exact ⟨_,u,rfl,delivered,same⟩

end EtsiMec.GrpcUeAppLcmProxy
