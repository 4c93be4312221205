import EtsiMec.Console

/-! Sessions of the command-line client against a server of the proxy. What a session does is
a run of the sections its lines stand for; the last line may be executed twice. -/
namespace EtsiMec.Console

open Effect Scanner
open GrpcUeAppLcmProxy (Status)
open GrpcUeAppLcmProxyClient (Stub remoteProxy sampleCheck)

/-! ## Commands on the proxy -/

namespace Command

def remote? : Command → Option GrpcUeAppLcmProxy.Command
  | .associate address appName server => some (.associateAddress ⟨address,appName,server⟩)
  | .remove address appName => some (.removeAddress ⟨address,appName,""⟩)
  | .addLambda lambda => some (.addLambda ⟨lambda⟩)
  | .delLambda lambda => some (.delLambda ⟨lambda⟩)
  | _ => none

/-- The client throws for want of an argument. -/
def blank : Command → Bool
  | .associate _ appName server => appName == "" || server == ""
  | .remove _ appName => appName == ""
  | .addLambda lambda | .delLambda lambda => lambda == ""
  | _ => false

def stops (command : Command) : Bool := command == .quit || command.blank

def call? (command : Command) : Option (StaticUeAppLcmProxy.Call rest) :=
  command.remote?.bind GrpcUeAppLcmProxy.Command.call?

end Command

section Served
variable {rest : Rest} {build : Build} {validate : String → Bool}
  {post : Notification → StaticUeAppLcmProxy.PostResult}
  {checkStatus : Status → Except Exception Unit} {s t : StaticUeAppLcmProxy rest}

/-- The proxy answers OK, so the client goes on. -/
theorem checked (checks : checkStatus .ok = .ok ()) (remote : GrpcUeAppLcmProxy.Command) :
    (remote.handle build ⟨validate,post⟩ >>= fun status => Program.lift (checkStatus status) :
      Program (StaticUeAppLcmProxy rest) Exception Unit) =
        remote.handle build ⟨validate,post⟩ >>= fun _ => pure () := by
  funext s
  rw [Program.bind_apply,Program.bind_apply]
  cases ran : remote.handle build ⟨validate,post⟩ s with
  | returned status t =>
    rw [(remote.handle_run ran).1]
    dsimp only
    rw [checks]
    rfl
  | threw error t => rfl
  | halted reason => rfl

theorem execute_blank {σ : Type} {myClient : Stub σ} {command : Command}
    (blank : command.blank = true) : ∃ error, execute checkStatus myClient command = Program.throw error := by
  cases command with
  | associate address appName server =>
    by_cases unnamed : appName = ""
    · exact ⟨_,by rw [execute,GrpcUeAppLcmProxyClient.associateAddress,if_pos unnamed]; rfl⟩
    · have unfilled : server = "" := by simpa [Command.blank,unnamed] using blank
      exact ⟨_,by rw [execute,GrpcUeAppLcmProxyClient.associateAddress,if_neg unnamed,if_pos unfilled]; rfl⟩
  | remove address appName =>
    have unnamed : appName = "" := by simpa [Command.blank] using blank
    exact ⟨_,by rw [execute,GrpcUeAppLcmProxyClient.removeAddress,if_pos unnamed]; rfl⟩
  | addLambda lambda | delLambda lambda =>
    have unnamed : lambda = "" := by simpa [Command.blank] using blank
    exact ⟨_,by rw [execute,unnamed]; rfl⟩
  | _ => contradiction

theorem live_of_goes {σ : Type} {myClient : Stub σ} {command : Command}
    {u v : σ × String} (ran : execute checkStatus myClient command u = .returned true v) :
    command.stops = false := by
  by_cases blank : command.blank = true
  · obtain ⟨error,throws⟩ := @execute_blank checkStatus _ myClient _ blank
    rw [throws] at ran
    contradiction
  · have other : command ≠ .quit := by
      rintro rfl
      cases ran
    simp [Command.stops,blank,other]

/-- A command that changes something is handled, and acknowledged. -/
theorem execute_remote (checks : checkStatus .ok = .ok ()) {command : Command} (given : command.blank = false)
    {remote : GrpcUeAppLcmProxy.Command} (found : command.remote? = some remote) :
    execute checkStatus (@remoteProxy rest build validate post) command = do
      Program.onFirst (remote.handle build ⟨validate,post⟩ >>= fun _ => pure ())
      print "OK\n"
      return true := by
  rw [← checked checks]
  cases command with
  | associate address appName server =>
    cases found
    obtain ⟨named,filled⟩ : appName ≠ "" ∧ server ≠ "" := by simpa [Command.blank] using given
    rw [execute,GrpcUeAppLcmProxyClient.associateAddress,if_neg named,if_neg filled]
    rfl
  | remove address appName =>
    cases found
    have named : appName ≠ "" := by simpa [Command.blank] using given
    rw [execute,GrpcUeAppLcmProxyClient.removeAddress,if_neg named]
    rfl
  | addLambda lambda | delLambda lambda =>
    cases found
    have named : lambda ≠ "" := by simpa [Command.blank] using given
    rw [execute]
    first | rw [GrpcUeAppLcmProxyClient.addLambda] | rw [GrpcUeAppLcmProxyClient.delLambda]
    rw [GrpcUeAppLcmProxyClient.onLambda,if_neg named]
    rfl
  | _ => contradiction

theorem acknowledged {p : Program (StaticUeAppLcmProxy rest) Exception Unit} {output output' : String}
    {going : Bool} : (Program.onFirst p >>= fun _ => print "OK\n" >>= fun _ => return true) (s,output) =
      .returned going (t,output') ↔ p s = .returned () t ∧ going = true ∧ output' = output ++ "OK\n" := by
  rw [Program.bind_eq_returned]
  constructor
  · rintro ⟨_,middle,ran,printed⟩
    obtain ⟨handled,same⟩ := Program.onFirst_eq_returned.mp ran
    cases printed
    exact ⟨handled,rfl,congrArg (· ++ "OK\n") same⟩
  · rintro ⟨handled,rfl,rfl⟩
    exact ⟨(),(t,output),Program.onFirst_returned handled output,rfl⟩

/-- The queries leave the proxy as it is. -/
theorem execute_query (checks : checkStatus .ok = .ok ()) {command : Command} (query : command.remote? = none)
    {output output' : String} {going : Bool}
    (ran : execute checkStatus (@remoteProxy rest build validate post) command (s,output) =
      .returned going (t,output')) : t = s ∧ going = (command != .quit) := by
  cases command with
  | numContexts =>
    obtain ⟨value,middle,first,printed⟩ := Program.bind_eq_returned.mp ran
    obtain ⟨counted,same⟩ := Program.onFirst_eq_returned.mp first
    rw [GrpcUeAppLcmProxyClient.numContexts_served checks] at counted
    obtain ⟨size,counted,_⟩ := Program.map_eq_returned.mp counted
    rw [StaticUeAppLcmProxy.numContexts,Program.get_bind_apply] at counted
    obtain ⟨_,_,asserted,answered⟩ := Program.bind_eq_returned.mp counted
    have kept : middle.1 = s := by
      rw [(Program.assert_eq_returned.mp asserted).2] at answered
      cases answered
      rfl
    cases printed
    exact ⟨kept,rfl⟩
  | table =>
    obtain ⟨value,middle,first,printed⟩ := Program.bind_eq_returned.mp ran
    obtain ⟨listed,same⟩ := Program.onFirst_eq_returned.mp first
    cases (GrpcUeAppLcmProxyClient.table_served checks s).symm.trans listed
    cases printed
    exact ⟨rfl,rfl⟩
  | contexts =>
    obtain ⟨value,middle,first,printed⟩ := Program.bind_eq_returned.mp ran
    obtain ⟨listed,same⟩ := Program.onFirst_eq_returned.mp first
    cases (GrpcUeAppLcmProxyClient.contexts_served checks s).symm.trans listed
    cases printed
    exact ⟨rfl,rfl⟩
  | help | quit | invalid =>
    cases ran
    exact ⟨rfl,rfl⟩
  | _ => contradiction

end Served

/-! ## Sessions -/

def purges : StaticUeAppLcmProxy.Call rest → Bool
  | .purge _ => true
  | _ => false

theorem call?_acts {rest : Rest} (command : Command) :
    (command.call?.toList : List (StaticUeAppLcmProxy.Call rest)).filter (!purges ·) = command.call?.toList := by
  refine List.filter_eq_self.mpr fun call member => ?_
  obtain ⟨remote,_,runs⟩ := Option.bind_eq_some_iff.mp (Option.mem_toList.mp member)
  cases remote with
  | associateAddress request =>
    rw [GrpcUeAppLcmProxy.Command.call?] at runs
    split at runs <;> cases runs
    rfl
  | removeAddress request =>
    rw [GrpcUeAppLcmProxy.Command.call?] at runs
    split at runs <;> cases runs
    rfl
  | addLambda request | delLambda request =>
    obtain ⟨app,_,rfl⟩ := Option.map_eq_some_iff.mp runs
    rfl

section Served
variable {rest : Rest} {build : Build} {validate : String → Bool}
  {post : Notification → StaticUeAppLcmProxy.PostResult}
  {checkStatus : Status → Except Exception Unit} {s t : StaticUeAppLcmProxy rest}

theorem execute_silent (checks : checkStatus .ok = .ok ()) {command : Command} (given : command.blank = false) :
    Program.Silent (execute checkStatus (@remoteProxy rest build validate post) command) := by
  have answers : ∀ text, Program.Silent (print text >>= fun _ => return true :
      Program (StaticUeAppLcmProxy rest × String) Exception Bool) :=
    fun text => Program.silent_bind (fun _ _ _ printed => by cases printed) fun _ => Program.silent_pure true
  have queries : ∀ {α : Type} {p : Program (StaticUeAppLcmProxy rest) Exception α} (text : α → String),
      Program.Silent p → Program.Silent (Program.onFirst p >>= fun value => print (text value) >>= fun _ =>
        return true : Program (StaticUeAppLcmProxy rest × String) Exception Bool) :=
    fun text silent => Program.silent_bind (Program.silent_onFirst silent) fun value => answers (text value)
  cases found : command.remote? with
  | some remote =>
    rw [execute_remote checks given found]
    exact queries (fun _ => "OK\n")
      (Program.silent_bind (remote.handle_silent build _) fun _ => Program.silent_pure ())
  | none =>
    cases command with
    | help | invalid => exact answers _
    | quit => exact Program.silent_pure false
    | numContexts =>
      refine queries (fun value => toString value ++ "\n") ?_
      rw [GrpcUeAppLcmProxyClient.numContexts_served checks,map_eq_pure_bind]
      exact Program.silent_bind (Program.silent_bind Program.silent_get fun _ =>
        Program.silent_bind (Program.silent_assert _ _) fun _ => Program.silent_pure _) fun _ => Program.silent_pure _
    | table =>
      refine queries listing fun u error v threw => ?_
      rw [GrpcUeAppLcmProxyClient.table_served checks] at threw
      contradiction
    | contexts =>
      refine queries listing fun u error v threw => ?_
      rw [GrpcUeAppLcmProxyClient.contexts_served checks] at threw
      contradiction
    | _ => contradiction

/-- A command behind which the session goes on runs its section on the proxy, and purges. -/
theorem execute_runs (checks : checkStatus .ok = .ok ()) {command : Command} (live : command.stops = false)
    {output output' : String} {going : Bool}
    (ran : execute checkStatus (@remoteProxy rest build validate post) command (s,output) =
      .returned going (t,output')) : going = true ∧ ∃ purged : List String,
        Run.run (StaticUeAppLcmProxy.step build) s (command.call?.toList ++ purged.map .purge) = some t := by
  obtain ⟨other,given⟩ : command ≠ .quit ∧ command.blank = false := by simpa [Command.stops] using live
  cases found : command.remote? with
  | none =>
    obtain ⟨rfl,goes⟩ := execute_query checks found ran
    refine ⟨goes.trans (bne_iff_ne.mpr other),[],?_⟩
    rw [Command.call?,found]
    rfl
  | some remote =>
    rw [execute_remote checks given found] at ran
    obtain ⟨handled,goes,_⟩ := acknowledged.mp ran
    obtain ⟨status,middle,first,last⟩ := Program.bind_eq_returned.mp handled
    cases last
    refine ⟨goes,?_⟩
    rw [Command.call?,found]
    exact (remote.handle_run first).2

/-- The proxy runs the sections of the commands in front of the one that stops them, if any,
and apart from them only purges. -/
theorem executeAll_runs (checks : checkStatus .ok = .ok ()) {commands : List Command} {output output' : String}
    {answer : Except Exception Unit}
    (ran : (executeAll checkStatus (@remoteProxy rest build validate post) commands
      (s,output)).answer? = some ((t,output'),answer)) :
    (∃ calls, Run.run (StaticUeAppLcmProxy.step build) s calls = some t ∧
      calls.filter (!purges ·) = (commands.takeWhile (!·.stops)).flatMap fun command => command.call?.toList) ∧
    ((∃ error, answer = .error error) ↔ (commands.find? Command.stops).any Command.blank = true) := by
  induction commands generalizing s output with
  | nil =>
    cases ran
    exact ⟨⟨[],rfl,rfl⟩,by simp⟩
  | cons command others ih =>
    by_cases stops : command.stops = true
    · -- nothing behind it is executed, and the command itself does nothing
      have stopped : t = s ∧ ((∃ error, answer = .error error) ↔ command.blank = true) := by
        by_cases blank : command.blank = true
        · obtain ⟨error,throws⟩ := @execute_blank checkStatus _
            (@remoteProxy rest build validate post) _ blank
          rw [executeAll,throws] at ran
          cases ran
          exact ⟨rfl,by simp [blank]⟩
        · obtain rfl : command = .quit := by simpa [Command.stops,blank] using stops
          cases ran
          exact ⟨rfl,by simp [Command.blank]⟩
      obtain ⟨rfl,fails⟩ := stopped
      rw [List.takeWhile_cons_of_neg (by simp [stops]),List.find?_cons_of_pos stops]
      exact ⟨⟨[],rfl,rfl⟩,fails⟩
    · have live : command.stops = false := by simpa using stops
      have given : command.blank = false := (Bool.or_eq_false_iff.mp live).2
      rw [List.takeWhile_cons_of_pos (by simp [live]),List.find?_cons_of_neg (by simp [live])]
      rw [executeAll,Program.bind_apply] at ran
      cases first : execute checkStatus (@remoteProxy rest build validate post) command
        (s,output) with
      | returned going middle =>
        obtain ⟨rfl,purged,here⟩ := execute_runs checks live first
        rw [first] at ran
        obtain ⟨⟨calls,later,acts⟩,fails⟩ := ih ran
        refine ⟨⟨_,Run.run_append.mpr ⟨_,here,later⟩,?_⟩,fails⟩
        have none : (purged.map StaticUeAppLcmProxy.Call.purge : List (StaticUeAppLcmProxy.Call rest)).filter
            (!purges ·) = [] := by simp [purges]
        rw [List.filter_append,List.filter_append,call?_acts,none,acts,List.append_nil,List.flatMap_cons]
      | threw error u => exact absurd first (execute_silent checks given _ _ _)
      | halted reason =>
        rw [first] at ran
        contradiction

/-- A session does to the proxy what its lines say up to the first that stops it, in order and
once each, and otherwise only purges contexts. It fails exactly if that line wants an argument. -/
theorem session_runs (build : Build) (validate : String → Bool)
    (post : Notification → StaticUeAppLcmProxy.PostResult) (split : String → List String)
    (checkStatus : Status → Except Exception Unit) (checks : checkStatus .ok = .ok ())
    (script output : String) (s : StaticUeAppLcmProxy rest) :
    (∀ error u, main split checkStatus (remoteProxy build validate post) script (s,output) ≠
      .threw error u) ∧
    ∀ code t output', main split checkStatus (remoteProxy build validate post) script
        (s,output) = .returned code (t,output') →
      code = (if ((commands split script).find? Command.stops).any Command.blank then 1 else 0) ∧
      ∃ calls, Run.run (StaticUeAppLcmProxy.step build) s calls = some t ∧ calls.filter (!purges ·) =
        ((commands split script).takeWhile (!·.stops)).flatMap fun command => command.call?.toList := by
  have exits : ∀ outcome, main split checkStatus (remoteProxy build validate post) script
      (s,output) = outcome → (∃ reason, outcome = .halted reason) ∨ ∃ code u answer, outcome = .returned code u ∧
        (executeAll checkStatus (remoteProxy build validate post) (commands split script)
          (s,output)).answer? = some (u,answer) ∧
        (code = 0 ∧ answer = .ok () ∨ code = 1 ∧ ∃ error, answer = .error error) := by
    rintro _ rfl
    rw [main_executes,Program.recover,Program.bind_apply]
    cases executeAll checkStatus (remoteProxy build validate post) (commands split script)
      (s,output) with
    | returned value u => exact .inr ⟨0,u,.ok (),rfl,rfl,.inl ⟨rfl,rfl⟩⟩
    | threw error u => exact .inr ⟨1,u,.error error,rfl,rfl,.inr ⟨rfl,error,rfl⟩⟩
    | halted reason => exact .inl ⟨reason,rfl⟩
  constructor
  · intro error u threw
    rcases exits _ threw with ⟨reason,halted⟩ | ⟨code,v,answer,returned,_⟩ <;> contradiction
  · intro code t output' returned
    rcases exits _ returned with ⟨reason,halted⟩ | ⟨other,u,answer,same,ran,verdict⟩
    · contradiction
    cases same
    obtain ⟨runs,fails⟩ := executeAll_runs checks ran
    refine ⟨?_,runs⟩
    rcases verdict with ⟨rfl,rfl⟩ | ⟨rfl,error,rfl⟩
    · rw [if_neg]
      rw [← fails]
      rintro ⟨error,ok⟩
      contradiction
    · rw [if_pos (fails.mp ⟨error,rfl⟩)]

/-- The empty line is skipped, and so is what is behind `quit`. -/
theorem sample_session_runs : ∃ t output,
    main words sampleCheck (remoteProxy .debug (fun _ => true) fun _ => .failed) sampleScript
      (StaticUeAppLcmProxy.after .debug StaticUeAppLcmProxy.sampleCalls (by decide),"") = .returned 0 (t,output) ∧
    ∃ calls, Run.run (StaticUeAppLcmProxy.step .debug)
        (StaticUeAppLcmProxy.after .debug StaticUeAppLcmProxy.sampleCalls (by decide)) calls = some t ∧
      calls.filter (!purges ·) = [.associateAddress "" "app" "er2"] := by
  have seen : commands words sampleScript = [.associate "" "app" "er2",.quit,.table,.table] := by decide
  obtain ⟨u,returned⟩ : ∃ u, main words sampleCheck
      (remoteProxy .debug (fun _ => true) fun _ => .failed) sampleScript
      (StaticUeAppLcmProxy.after .debug StaticUeAppLcmProxy.sampleCalls (by decide),"") = .returned 0 u := by
    rw [main_executes,seen]
    exact ⟨_,rfl⟩
  obtain ⟨calls,ran,acts⟩ := ((session_runs .debug (fun _ => true) (fun _ => .failed) words sampleCheck rfl
    sampleScript "" (StaticUeAppLcmProxy.after .debug StaticUeAppLcmProxy.sampleCalls (by decide))).2
      _ _ _ returned).2
  rw [seen] at acts
  exact ⟨u.1,u.2,returned,calls,ran,acts⟩

end Served

/-- What a session that only asks for the table prints. -/
theorem table_printed {rest : Rest} {build : Build} {validate : String → Bool}
    {post : Notification → StaticUeAppLcmProxy.PostResult}
    {checkStatus : Status → Except Exception Unit} (checks : checkStatus .ok = .ok ())
    {split : String → List String} (asked : split "table" = ["table"]) (skipped : split "" = [])
    (s : StaticUeAppLcmProxy rest) :
    main split checkStatus (remoteProxy build validate post) "table\n" (s,"") =
      .returned 0 (s,listing (StaticUeAppLcmProxy.addressAssociations s)) := by
  have seen : commands split "table\n" = [.table] := by
    have lines : seenLines '\n' "table\n".toList = ["table".toList,[]] := by decide
    rw [commands,lines,commandsOf,List.filterMap_cons,List.filterMap_cons,String.ofList_toList,asked,
      show String.ofList [] = "" from rfl,skipped]
    rfl
  have listed := Program.onFirst_returned
    (@GrpcUeAppLcmProxyClient.table_served rest build validate post checkStatus checks s) ""
  have executed : execute checkStatus (@remoteProxy rest build validate post) .table (s,"") =
      .returned true (s,listing (StaticUeAppLcmProxy.addressAssociations s)) := by
    rw [execute,Program.bind_returned _ listed]
    change Outcome.returned true (s,"" ++ listing _) = _
    rw [String.empty_append]
  rw [main_executes,seen]
  refine Program.recover_returned _ ?_
  rw [executeAll,bind_assoc,Program.bind_returned _ executed]
  rfl

/-! ## A last line without an end -/

section Unended
variable {rest : Rest} {build : Build} {validate : String → Bool}
  {post : Notification → StaticUeAppLcmProxy.PostResult}
  {checkStatus : Status → Except Exception Unit} {s t : StaticUeAppLcmProxy rest}

/-- The outcomes are the same, but that the first may have printed more. -/
def Settled {α : Type} : Outcome (StaticUeAppLcmProxy rest × String) Exception α →
    Outcome (StaticUeAppLcmProxy rest × String) Exception α → Prop
  | .returned value u, .returned value' v =>
    value = value' ∧ StaticUeAppLcmProxy.SameContents v.1 u.1 ∧ ∃ text, u.2 = v.2 ++ text
  | .threw error u, .threw error' v =>
    error = error' ∧ StaticUeAppLcmProxy.SameContents v.1 u.1 ∧ ∃ text, u.2 = v.2 ++ text
  | .halted reason, .halted reason' => reason = reason'
  | _, _ => False

theorem Settled.refl {α : Type} (outcome : Outcome (StaticUeAppLcmProxy rest × String) Exception α) :
    Settled outcome outcome := by
  cases outcome with
  | returned value u => exact ⟨rfl,.refl u.1,"",by simp⟩
  | threw error u => exact ⟨rfl,.refl u.1,"",by simp⟩
  | halted reason => rfl

/-- The same command again, right behind itself. -/
theorem execute_again (checks : checkStatus .ok = .ok ()) (routed : StaticUeAppLcmProxy.Routed s)
    {command : Command} {output output' : String}
    (ran : execute checkStatus (@remoteProxy rest build validate post) command (s,output) =
      .returned true (t,output')) : ∃ u text,
    execute checkStatus (@remoteProxy rest build validate post) command (t,output') =
      .returned true (u,output' ++ text) ∧ StaticUeAppLcmProxy.SameContents t u := by
  have given : command.blank = false := (Bool.or_eq_false_iff.mp (live_of_goes ran)).2
  cases found : command.remote? with
  | none =>
    obtain ⟨rfl,_⟩ := execute_query checks found ran
    rw [framed_execute command t output']
    rw [framed_execute command t output] at ran
    cases first : execute checkStatus (@remoteProxy rest build validate post) command (t,"") with
    | returned going u =>
      rw [first] at ran
      obtain ⟨rfl,same⟩ := Outcome.returned.inj ran
      refine ⟨t,u.2,?_,.refl t⟩
      rw [behind,(Prod.ext_iff.mp same).1]
    | threw error u => rw [first] at ran; contradiction
    | halted reason => rw [first] at ran; contradiction
  | some remote =>
    rw [execute_remote checks given found] at ran ⊢
    obtain ⟨handled,_,_⟩ := acknowledged.mp ran
    obtain ⟨status,middle,first,last⟩ := Program.bind_eq_returned.mp handled
    cases last
    obtain ⟨u,again,same⟩ := GrpcUeAppLcmProxy.Command.repeated routed first ⟨validate,post⟩
    refine ⟨u,"OK\n",acknowledged.mpr ⟨?_,rfl,rfl⟩,same⟩
    rw [Program.bind_returned _ again]
    rfl

/-- A last command that is executed twice. -/
theorem executeAll_again (checks : checkStatus .ok = .ok ()) (routed : StaticUeAppLcmProxy.Routed s)
    (front : List Command) (command : Command) (output : String) :
    Settled
      (executeAll checkStatus (@remoteProxy rest build validate post)
        (front ++ [command,command]) (s,output))
      (executeAll checkStatus (@remoteProxy rest build validate post)
        (front ++ [command]) (s,output)) := by
  induction front generalizing s output with
  | nil =>
    rw [List.nil_append,List.nil_append,executeAll,executeAll,Program.bind_apply,Program.bind_apply]
    cases first : execute checkStatus (@remoteProxy rest build validate post) command
      (s,output) with
    | returned going middle =>
      cases going with
      | false => exact .refl _
      | true =>
        obtain ⟨u,text,again,same⟩ := execute_again checks routed first
        simp only [if_true,executeAll]
        rw [Program.bind_returned _ again]
        exact ⟨rfl,same,text,rfl⟩
    | threw error u => exact .refl _
    | halted reason => exact .refl _
  | cons next others ih =>
    rw [List.cons_append,List.cons_append,executeAll,executeAll,Program.bind_apply,Program.bind_apply]
    cases first : execute checkStatus (@remoteProxy rest build validate post) next
      (s,output) with
    | returned going middle =>
      cases going with
      | false => exact .refl _
      | true =>
        obtain ⟨_,purged,here⟩ := execute_runs checks (live_of_goes first) first
        exact ih (Run.invariant (fun _ _ _ inner _ => StaticUeAppLcmProxy.routed_step inner) routed
          (Run.along_of_forall (fun _ _ => trivial) _ _) here) middle.2
    | threw error u => exact .refl _
    | halted reason => exact .refl _

theorem Settled.exit {p q : Program (StaticUeAppLcmProxy rest × String) Exception Unit}
    {u : StaticUeAppLcmProxy rest × String} (settled : Settled (p u) (q u)) :
    Settled (Program.recover (p >>= fun _ => return 0) (fun _ => return 1) u)
      (Program.recover (q >>= fun _ => return 0) (fun _ => return 1) u) := by
  simp only [Program.recover,Program.bind_apply]
  cases first : p u with
  | returned value v =>
    cases second : q u with
    | returned value' w =>
      rw [first,second] at settled
      exact ⟨rfl,settled.2⟩
    | threw error w => rw [first,second] at settled; exact settled.elim
    | halted reason => rw [first,second] at settled; exact settled.elim
  | threw error v =>
    cases second : q u with
    | returned value' w => rw [first,second] at settled; exact settled.elim
    | threw error w =>
      rw [first,second] at settled
      exact ⟨rfl,settled.2⟩
    | halted reason => rw [first,second] at settled; exact settled.elim
  | halted reason =>
    cases second : q u with
    | returned value' w => rw [first,second] at settled; exact settled.elim
    | threw error w => rw [first,second] at settled; exact settled.elim
    | halted reason' =>
      rw [first,second] at settled
      exact settled

/-- The commands of a script are those of the ended one, the last maybe twice. -/
theorem commands_ended {split : String → List String} (skipped : split "" = []) (script : String) :
    commands split script = commands split (script ++ "\n") ∨ ∃ front command,
      commands split (script ++ "\n") = front ++ [command] ∧ commands split script = front ++ [command,command] := by
  have ended : commands split (script ++ "\n") = commandsOf split (script.toList.splitOn '\n') := by
    have skips : parse (split (String.ofList [])) = none := by
      rw [show String.ofList [] = "" from rfl,skipped]
      rfl
    rw [commands,String.toList_append,show "\n".toList = ['\n'] from rfl,seenLines_ended,commandsOf,
      List.filterMap_append,List.filterMap_cons,skips,List.filterMap_nil,List.append_nil]
    rfl
  rw [ended,commands,seenLines]
  cases last : (script.toList.splitOn '\n').getLast?.filter (!·.isEmpty) with
  | none => exact .inl (by rw [Option.toList_none,List.append_nil])
  | some line =>
    obtain ⟨lines,whole⟩ := List.getLast?_eq_some_iff.mp (Option.filter_eq_some_iff.mp last).1
    rw [whole]
    simp only [commandsOf,Option.toList_some,List.filterMap_append,List.filterMap_cons,List.filterMap_nil]
    cases parse (split (String.ofList line)) with
    | none => exact .inl (by simp)
    | some command => exact .inr ⟨_,command,rfl,by simp⟩

/-- A script whose last line has no end is executed as if it had one, although the last line
is executed twice: only what it prints may be printed once more. -/
theorem unended_line_harmless (build : Build) (validate : String → Bool)
    (post : Notification → StaticUeAppLcmProxy.PostResult) (split : String → List String)
    (checkStatus : Status → Except Exception Unit) (checks : checkStatus .ok = .ok ())
    (skipped : split "" = []) (s : StaticUeAppLcmProxy rest) (reached : StaticUeAppLcmProxy.Reachable build s)
    (script output : String) :
    Settled
      (main split checkStatus (remoteProxy build validate post) script (s,output))
      (main split checkStatus (remoteProxy build validate post) (script ++ "\n") (s,output)) := by
  rw [main_executes,main_executes]
  apply Settled.exit
  rcases commands_ended skipped script with same | ⟨front,command,once,twice⟩
  · rw [same]
    exact .refl _
  · rw [once,twice]
    exact executeAll_again checks reached.routed front command output

theorem sample_unended_line_harmless : Settled
    (main words sampleCheck (remoteProxy .debug (fun _ => true) fun _ => .failed)
      "contexts\nassociate * app er2" (StaticUeAppLcmProxy.after .debug StaticUeAppLcmProxy.sampleCalls
        (by decide),""))
    (main words sampleCheck (remoteProxy .debug (fun _ => true) fun _ => .failed)
      ("contexts\nassociate * app er2" ++ "\n") (StaticUeAppLcmProxy.after .debug StaticUeAppLcmProxy.sampleCalls
        (by decide),"")) :=
  unended_line_harmless .debug (fun _ => true) (fun _ => .failed) words sampleCheck rfl (by decide) _
    (StaticUeAppLcmProxy.after_reachable .debug StaticUeAppLcmProxy.sampleCalls (by decide)) _ ""

end Unended

end EtsiMec.Console
