import EtsiMec.GrpcUeAppLcmProxyClient
import EtsiMec.Library.Lines

/-! The command-line client. It executes the lines of its standard input, one after the other,
until it is told to quit or an exception ends it. -/
namespace EtsiMec.Console

open Effect Scanner
open GrpcUeAppLcmProxy (Status)
open GrpcUeAppLcmProxyClient (Stub Alike strict strict_alike remoteProxy sampleCheck)

def myHelp : String :=
  "Commands are read sequentially from standard input until closed. " ++
  "Available commands:\n" ++
  "- help:" ++
  " prints the help\n" ++
  "- associate C A S:" ++
  " associates the address of the edge client C (* means \"any\") and the " ++
  "application name A to the end-point of the edge router S\n" ++
  "- remove C A:" ++
  " removes the association of edge client C (* means \"any\") and " ++
  "application name A, if present\n" ++
  "- add-lambda X:" ++
  " adds a lambda function to the list of applications\n" ++
  "- del-lambda X:" ++
  " removes from the list of applications the given lambda\n" ++
  "- num-contexts:" ++
  " returns the number of active UE application contexts\n" ++
  "- table:" ++
  " returns a space-separate table of the address associations\n" ++
  "- contexts:" ++
  " returns a space-separate table of the active contexts associations\n" ++
  "- quit:" ++
  " exits from the application\n" ++
  "Every command is given a response on standard output.\n" ++
  "All the set commands return the string OK if the command was accepted.\n" ++
  "the string Invalid command if the command is not well-formed.\n"

inductive Command where
  | help
  | associate (address appName server : String)
  | remove (address appName : String)
  | addLambda (lambda : String)
  | delLambda (lambda : String)
  | numContexts
  | table
  | contexts
  | quit
  | invalid
  deriving DecidableEq, Repr

/-- A star stands for any client. -/
def myAddress (token : String) : String := if token = "*" then "" else token

/-- A line without tokens is skipped. Only `help` takes no notice of what follows it. -/
def parse : List String → Option Command
  | [] => none
  | "help" :: _ => some .help
  | ["associate",client,appName,server] => some (.associate (myAddress client) appName server)
  | ["remove",client,appName] => some (.remove (myAddress client) appName)
  | ["add-lambda",lambda] => some (.addLambda lambda)
  | ["del-lambda",lambda] => some (.delLambda lambda)
  | ["num-contexts"] => some .numContexts
  | ["table"] => some .table
  | ["contexts"] => some .contexts
  | ["quit"] => some .quit
  | _ => some .invalid

def entry (elem : String × String × String) : String :=
  (if elem.1 = "" then "*" else elem.1) ++ " " ++ elem.2.1 ++ " " ++ elem.2.2 ++ "\n"

def listing : List (String × String × String) → String
  | [] => ""
  | elem :: others => entry elem ++ listing others

section Session
variable {σ : Type} (split : String → List String) (checkStatus : Status → Except Exception Unit)
  (myClient : Stub σ)

/-- The state of the other end goes with what was printed so far. -/
def print (text : String) : Program (σ × String) Exception Unit := fun s => .returned () (s.1,s.2 ++ text)

/-- The answer is whether the session goes on. -/
def execute : Command → Program (σ × String) Exception Bool
  | .help => do
    print (myHelp ++ "\n")
    return true
  | .associate address appName server => do
    Program.onFirst (GrpcUeAppLcmProxyClient.associateAddress checkStatus myClient address appName server)
    print "OK\n"
    return true
  | .remove address appName => do
    Program.onFirst (GrpcUeAppLcmProxyClient.removeAddress checkStatus myClient address appName)
    print "OK\n"
    return true
  | .addLambda lambda => do
    Program.onFirst (GrpcUeAppLcmProxyClient.addLambda checkStatus myClient lambda)
    print "OK\n"
    return true
  | .delLambda lambda => do
    Program.onFirst (GrpcUeAppLcmProxyClient.delLambda checkStatus myClient lambda)
    print "OK\n"
    return true
  | .numContexts => do
    let value ← Program.onFirst (GrpcUeAppLcmProxyClient.numContexts checkStatus myClient)
    print (toString value ++ "\n")
    return true
  | .table => do
    let list ← Program.onFirst (GrpcUeAppLcmProxyClient.table checkStatus myClient)
    print (listing list)
    return true
  | .contexts => do
    let list ← Program.onFirst (GrpcUeAppLcmProxyClient.contexts checkStatus myClient)
    print (listing list)
    return true
  | .quit => return false
  | .invalid => do
    print "Invalid command\n"
    return true

def turn (line : List Char) : Program (σ × String) Exception Bool :=
  match parse (split (String.ofList line)) with
  | none => return true
  | some command => execute checkStatus myClient command

/-- `myLine` keeps the line read last. -/
def loop (input : Scanner Char) (myLine : List Char) : Program (σ × String) Exception Unit :=
  if _running : input.failbit = true then return
  else do
    let going ← turn split checkStatus myClient (getline '\n' input myLine).1
    if going then loop (getline '\n' input myLine).2 (getline '\n' input myLine).1 else return
termination_by input.pending
decreasing_by exact getline_pending (Bool.not_eq_true _ ▸ ‹_›) myLine

/-- The exit code, once the options are read: 0 is success. -/
def main (script : String) : Program (σ × String) Exception Nat :=
  Program.recover
    (do
      loop split checkStatus myClient (opened script.toList) []
      return 0)
    fun _ => return 1

def commandsOf (lines : List (List Char)) : List Command :=
  lines.filterMap fun line => parse (split (String.ofList line))

def commands (script : String) : List Command := commandsOf split (seenLines '\n' script.toList)

def executeAll : List Command → Program (σ × String) Exception Unit
  | [] => return
  | command :: others => do
    let going ← execute checkStatus myClient command
    if going then executeAll others else return

end Session

/-! ## The commands of a script -/

section Script
variable {σ : Type} {split : String → List String}
  {checkStatus : Status → Except Exception Unit} {myClient : Stub σ}

theorem loop_executes (input : Scanner Char) (myLine : List Char) :
    loop split checkStatus myClient input myLine = executeAll checkStatus myClient
      (commandsOf split (readLines '\n' input myLine)) := by
  induction input, myLine using loop.induct with
  | case1 input myLine failed =>
    rw [loop,dif_pos failed,readLines_failed failed]
    rfl
  | case2 input myLine running ih =>
    rw [loop,dif_neg running,readLines_running (Bool.not_eq_true _ ▸ running),commandsOf,
      List.filterMap_cons,ih,turn]
    cases parse (split (String.ofList (getline '\n' input myLine).1)) with
    | none => rfl
    | some command => rfl

theorem main_executes (script : String) : main split checkStatus myClient script =
    Program.recover (executeAll checkStatus myClient (commands split script) >>= fun _ => return 0)
      fun _ => return 1 := by
  rw [main,loop_executes,readLines_opened]
  rfl

end Script

/-! ## Output -/

section Output
variable {σ α β : Type}

def behind (output : String) : Outcome (σ × String) Exception α → Outcome (σ × String) Exception α
  | .returned value u => .returned value (u.1,output ++ u.2)
  | .threw error u => .threw error (u.1,output ++ u.2)
  | .halted reason => .halted reason

/-- What was printed before stays and does not matter. -/
def Framed (p : Program (σ × String) Exception α) : Prop := ∀ s output, p (s,output) = behind output (p (s,""))

theorem framed_pure (value : α) : Framed (pure value : Program (σ × String) Exception α) := by
  intro s output
  simp [behind]

theorem framed_print (text : String) : Framed (print text : Program (σ × String) Exception Unit) := by
  intro s output
  simp [print,behind]

theorem framed_onFirst (p : Program σ Exception α) : Framed (Program.onFirst p : Program (σ × String) Exception α) := by
  intro s output
  simp only [Program.onFirst]
  cases p s <;> simp [behind]

theorem framed_bind {p : Program (σ × String) Exception α} {next : α → Program (σ × String) Exception β}
    (first : Framed p) (later : ∀ value, Framed (next value)) : Framed (p >>= next) := by
  intro s output
  rw [Program.bind_apply,Program.bind_apply,first s output]
  cases p (s,"") with
  | returned value u =>
    obtain ⟨t,text⟩ := u
    simp only [behind]
    rw [later value t (output ++ text),later value t text]
    cases next value (t,"") <;> simp [behind,String.append_assoc]
  | threw error u => rfl
  | halted reason => rfl

theorem framed_execute {checkStatus : Status → Except Exception Unit}
    {myClient : Stub σ} (command : Command) :
    Framed (execute checkStatus myClient command) := by
  have answers : ∀ text, Framed (print text >>= fun _ => return true : Program (σ × String) Exception Bool) :=
    fun text => framed_bind (framed_print text) fun _ => framed_pure true
  cases command with
  | help | invalid => exact answers _
  | quit => exact framed_pure false
  | associate address appName server | remove address appName | addLambda lambda | delLambda lambda =>
    exact framed_bind (framed_onFirst _) fun _ => answers _
  | numContexts | table | contexts => exact framed_bind (framed_onFirst _) fun _ => answers _

end Output

def words (line : String) : List String := (tokens (· == ' ') line.toList).map String.ofList

def sampleScript : String := "associate * app er2\n\nquit\ntable"

/-! ## What is sent -/

section Sent
variable {σ : Type} {myClient myClient' : Stub σ}

theorem execute_sends (checkStatus : Status → Except Exception Unit)
    (alike : Alike myClient myClient') (command : Command) :
    execute checkStatus myClient command = execute checkStatus myClient' command := by
  cases command with
  | associate address appName server =>
    rw [execute,execute,GrpcUeAppLcmProxyClient.associateAddress_sends checkStatus alike]
  | remove address appName =>
    rw [execute,execute,GrpcUeAppLcmProxyClient.removeAddress_sends checkStatus alike]
  | addLambda lambda =>
    rw [execute,execute,GrpcUeAppLcmProxyClient.addLambda,GrpcUeAppLcmProxyClient.addLambda,
      GrpcUeAppLcmProxyClient.onLambda_sends checkStatus alike.addLambda]
  | delLambda lambda =>
    rw [execute,execute,GrpcUeAppLcmProxyClient.delLambda,GrpcUeAppLcmProxyClient.delLambda,
      GrpcUeAppLcmProxyClient.onLambda_sends checkStatus alike.delLambda]
  | numContexts =>
    rw [execute,execute,GrpcUeAppLcmProxyClient.numContexts,GrpcUeAppLcmProxyClient.numContexts,alike.numContexts]
  | table => rw [execute,execute,GrpcUeAppLcmProxyClient.table,GrpcUeAppLcmProxyClient.table,alike.table]
  | contexts =>
    rw [execute,execute,GrpcUeAppLcmProxyClient.contexts,GrpcUeAppLcmProxyClient.contexts,alike.contexts]
  | _ => rfl

/-- Whatever is typed, no request is sent whose fields are not as the protocol has them: what
the other end would do with one makes no difference to a session. -/
theorem session_sends (split : String → List String)
    (checkStatus : Status → Except Exception Unit)
    (myClient myClient' : Stub σ)
    (alike : Alike myClient myClient') (script : String) :
    main split checkStatus myClient script = main split checkStatus myClient' script := by
  have same : ∀ commands, executeAll checkStatus myClient commands = executeAll checkStatus myClient' commands := by
    intro commands
    induction commands with
    | nil => rfl
    | cons command others ih => rw [executeAll,executeAll,execute_sends checkStatus alike,ih]
  rw [main_executes,main_executes,same]

theorem sample_session_sends :
    main words sampleCheck (@remoteProxy Rest.plain .debug (fun _ => true) fun _ => .failed)
      sampleScript = main words sampleCheck (strict
        (remoteProxy .debug (fun _ => true) fun _ => .failed)) sampleScript :=
  session_sends words sampleCheck _ _ (strict_alike _) sampleScript

end Sent

end EtsiMec.Console
