import EtsiMec.AppListClient

/-! The command-line client as a proxy for Mattermost. A request that carries no valid token
is answered at once, but the handler does not return there: it goes on to call the command
and to answer a second time. -/
namespace EtsiMec

open Effect

namespace AppInfo

def Message.toString : Message → String
  | .appContextRequest => "AppContext (request)"
  | .appContextResponse => "AppContext (response)"
  | .applicationList => "ApplicationList"

/-- What `operator<<` prints. -/
def print (info : AppInfo rest) : String :=
  "appName " ++ info.appName ++ ", appProvider " ++ info.appProvider ++ ", appSoftVersion " ++
    info.appSoftVersion ++ ", appDescription " ++ info.appDescription ++ ", appPackageSource " ++
    info.appPackageSource ++ ", " ++ info.message.toString

end AppInfo

/-! ## The command -/

structure Client where
  /-- `web::uri::validate`. -/
  validate : String → Bool
  /-- `support::split` at plus signs. -/
  split : String → List String
  /-- A GET with `rest::Client`: a status and a body, or an exception. -/
  get : String → Except Exception (Nat × Json)
  /-- The text of an exception that is a `std::runtime_error`. -/
  what : Exception → Option String

section Command
variable (rest : Rest) (build : Build) (client : Client)

def commandLine (verbose mattermost : Bool) (info : AppInfo rest) : String :=
  if mattermost then
    " | " ++ info.appName ++ " | " ++ info.appProvider ++ " | " ++ info.appSoftVersion ++ " | \n"
  else if verbose then info.print ++ "\n"
  else info.appName ++ ", " ++ info.appProvider ++ ", " ++ info.appSoftVersion ++ "\n"

def command (apiRoot command : String) (verbose mattermost : Bool) : Program σ Exception String := do
  Program.assert build.asserts (apiRoot != "")
  Program.assert build.asserts (client.validate apiRoot)
  if command = "app_list" then
    let infos ← Program.lift (AppListClient.list rest client.get apiRoot)
    let header := if mattermost then " | appName  | appProvider | appSoftVersion |\n" ++
      " | -------- | ----------- | -------------- |\n" else ""
    return infos.foldl (fun text info => text ++ commandLine rest verbose mattermost info) header
  else Program.throw (.runtimeError ("Unknown command: " ++ command))

end Command

namespace MattermostProxy

/-! ## The handler -/

/-- What a request makes the proxy do, in this order. -/
inductive Event where
  | reply (status : Nat) (body : Json)
  | command (apiRoot command : String)

def Event.isReply : Event → Bool
  | .reply _ _ => true
  | .command _ _ => false

abbrev Handler (α : Type) := Program (List Event) Exception α

def record (event : Event) : Handler Unit := do
  let log ← Program.get
  Program.put (log ++ [event])

/-- What the first loop reads from the pairs of the body. -/
structure Form where
  myAuthorized : Bool
  myUsername : String
  myText : List String
  deriving DecidableEq, Repr

/-- What the second loop reads from the words of the text. -/
structure Selection where
  myFail : Bool
  myCommand : String
  myApiRoot : String
  deriving DecidableEq, Repr

section Handling
variable (rest : Rest) (build : Build) (client : Client) (theToken : String)

def Form.read (form : Form) (pair : String × String) : Form :=
  if pair.1 = "token" then
    if pair.2 = theToken then { form with myAuthorized := true } else form
  else if pair.1 = "user_name" then { form with myUsername := pair.2 }
  else if pair.1 = "text" then { form with myText := client.split pair.2 }
  else form

def readForm (pairs : List (String × String)) : Form := pairs.foldl (Form.read client theToken) ⟨false,"",[]⟩

/-- The second loop: a keyword takes the next word, and fails if there is none. -/
def Selection.read (selection : Selection) : List String → Selection
  | [] => selection
  | [word] => if word = "command" ∨ word = "apiroot" then { selection with myFail := true } else selection
  | word :: value :: others =>
    if word = "command" then Selection.read { selection with myCommand := value } others
    else if word = "apiroot" then Selection.read { selection with myApiRoot := value } others
    else Selection.read selection (value :: others)

def select (myText : List String) : Selection := Selection.read ⟨false,"app_list",""⟩ myText

def attempt (form : Form) (selection : Selection) : Handler String := do
  record (.command selection.myApiRoot selection.myCommand)
  let answer ← command rest build client selection.myApiRoot selection.myCommand false true
  return "Hello " ++ form.myUsername ++ ", the list of ETSI MEC applications on " ++
    selection.myApiRoot ++ " is:\n\n" ++ answer

def caught (error : Exception) : Handler String :=
  match client.what error with
  | some what => pure ("Invalid response from ETSI MEC server: " ++ what)
  | none => pure "Invalid response from ETSI MEC server"

def query (form : Form) (selection : Selection) : Handler String :=
  Program.recover (attempt rest build client form selection) (caught client)

def respond (form : Form) : Handler String :=
  let selection := select form.myText
  if selection.myApiRoot = "" || selection.myFail
  then pure (form.myText.foldl (fun text value => text ++ " " ++ value) "Invalid input:")
  else query rest build client form selection

def handlePost (pairs : List (String × String)) : Handler Unit := do
  let form := readForm client theToken pairs
  if !form.myAuthorized then record (.reply StatusCode.unauthorized .null) -- and the handler goes on
  let text ← respond rest build client form
  record (.reply StatusCode.ok (Json.null.set "text" (.string text)))

end Handling

/-! ## What the loops read -/

variable {rest : Rest} {build : Build} {client : Client} {theToken : String}

theorem read_authorized (form : Form) (pair : String × String) :
    (form.read client theToken pair).myAuthorized = true ↔ form.myAuthorized = true ∨ pair = ("token",theToken) := by
  obtain ⟨key,value⟩ := pair
  unfold Form.read
  by_cases token : key = "token"
  · by_cases same : value = theToken <;> simp [token,same]
  · simp only [token,if_false]
    split
    · simp [token]
    split <;> simp [token]

/-- Any valid token authorises, wherever it stands. -/
theorem readForm_authorized (client : Client) {pairs : List (String × String)} :
    (readForm client theToken pairs).myAuthorized = true ↔ ("token",theToken) ∈ pairs := by
  have loop : ∀ form : Form, (pairs.foldl (Form.read client theToken) form).myAuthorized = true ↔
      form.myAuthorized = true ∨ ("token",theToken) ∈ pairs := by
    induction pairs with
    | nil => simp
    | cons pair others ih =>
      intro form
      rw [List.foldl_cons,ih,read_authorized,List.mem_cons,or_assoc,eq_comm (a := pair)]
  rw [readForm,loop]
  simp

/-! ## Replies -/

/-- The API root that is to be queried, unless the text is answered without a query. -/
def Form.root? (form : Form) : Option String :=
  let selection := select form.myText
  if selection.myApiRoot = "" || selection.myFail then none else some selection.myApiRoot

/-- One reply, and nothing else for a request that carries no valid token. -/
def Serves (theToken : String) (pairs : List (String × String)) (outcome : Outcome (List Event) Exception Unit) :
    Prop :=
  ∃ log status body, outcome = .returned () log ∧ log.filter Event.isReply = [.reply status body] ∧
    (("token",theToken) ∉ pairs → status = StatusCode.unauthorized ∧
      ∀ apiRoot command, .command apiRoot command ∉ log)

@[simp] theorem record_apply (event : Event) (log : List Event) :
    record event log = .returned () (log ++ [event]) := rfl

section Query
variable {form : Form} {selection : Selection}

/-- Past its assertions, the command only computes. -/
theorem command_lift {apiRoot name : String} {verbose mattermost : Bool} (filled : apiRoot ≠ "")
    (valid : build = .debug → client.validate apiRoot = true) :
    ∃ result, (command rest build client apiRoot name verbose mattermost : Program σ Exception String) =
      Program.lift result := by
  have checked : (Program.assert build.asserts (client.validate apiRoot) : Program σ Exception Unit) = pure () := by
    cases build with
    | release => rfl
    | debug => rw [valid rfl,Program.assert_true]
  rw [command,bne_iff_ne.mpr filled,Program.assert_true,checked,pure_bind,pure_bind]
  split
  · cases AppListClient.list rest client.get apiRoot with
    | ok infos => exact ⟨.ok _,rfl⟩
    | error error => exact ⟨.error error,rfl⟩
  · exact ⟨.error _,rfl⟩

/-- Every exception is answered for. -/
theorem query_returned (rest : Rest) (filled : selection.myApiRoot ≠ "")
    (valid : build = .debug → client.validate selection.myApiRoot = true) (log : List Event) :
    ∃ text, query rest build client form selection log =
      .returned text (log ++ [.command selection.myApiRoot selection.myCommand]) := by
  obtain ⟨result,computes⟩ : ∃ result, (command rest build client selection.myApiRoot selection.myCommand
    false true : Handler String) = Program.lift result := command_lift filled valid
  cases result with
  | ok answer =>
    have returned : attempt rest build client form selection log = .returned
        ("Hello " ++ form.myUsername ++ ", the list of ETSI MEC applications on " ++ selection.myApiRoot ++
          " is:\n\n" ++ answer) (log ++ [.command selection.myApiRoot selection.myCommand]) := by rw [attempt,computes]; rfl
    exact ⟨_,Program.recover_returned _ returned⟩
  | error error =>
    have threw : attempt rest build client form selection log =
        .threw error (log ++ [.command selection.myApiRoot selection.myCommand]) := by rw [attempt,computes]; rfl
    rw [query,Program.recover_threw _ threw,caught]
    cases client.what error with
    | some what => exact ⟨_,rfl⟩
    | none => exact ⟨_,rfl⟩

/-- The API root of the request reaches an assertion. -/
theorem query_stopped (filled : selection.myApiRoot ≠ "")
    (invalid : client.validate selection.myApiRoot = false) (log : List Event) :
    query rest .debug client form selection log = .halted .assertion := by
  have stopped : ∀ log, (command rest .debug client selection.myApiRoot selection.myCommand false true :
      Handler String) log = .halted .assertion := by
    intro log
    rw [command,bne_iff_ne.mpr filled,Program.assert_true,pure_bind,invalid]
    rfl
  refine Program.recover_halted _ ?_
  rw [attempt,Program.bind_returned _ (record_apply _ _)]
  exact Program.bind_halted _ (stopped _)

end Query

def preliminary (form : Form) : List Event :=
  if form.myAuthorized then [] else [.reply StatusCode.unauthorized .null]

variable {pairs : List (String × String)}

theorem handlePost_apply : handlePost rest build client theToken pairs [] =
    (respond rest build client (readForm client theToken pairs) >>= fun text =>
      record (.reply StatusCode.ok (Json.null.set "text" (.string text))))
      (preliminary (readForm client theToken pairs)) := by
  unfold handlePost preliminary
  cases (readForm client theToken pairs).myAuthorized <;> rfl

/-- What the text asks for is queried, if it passes the assertions. -/
theorem respond_returned (rest : Rest) {form : Form}
    (valid : build = .debug → ∀ root, form.root? = some root → client.validate root = true) (log : List Event) :
    ∃ text calls, (∀ event ∈ calls, event.isReply = false) ∧
      respond rest build client form log = .returned text (log ++ calls) := by
  unfold respond
  unfold Form.root? at valid
  dsimp only at valid ⊢
  split
  · exact ⟨_,[],by simp,by rw [List.append_nil]; rfl⟩
  · rename_i asked
    rw [if_neg asked] at valid
    obtain ⟨filled,_⟩ : (select form.myText).myApiRoot ≠ "" ∧ (select form.myText).myFail = false := by
      simpa using asked
    obtain ⟨text,ran⟩ := query_returned rest filled (fun debug => valid debug _ rfl) log
    exact ⟨text,_,by simp [Event.isReply],ran⟩

theorem respond_stopped {form : Form} {root : String} (asked : form.root? = some root)
    (invalid : client.validate root = false) (log : List Event) :
    respond rest .debug client form log = .halted .assertion := by
  unfold Form.root? at asked
  unfold respond
  dsimp only at asked ⊢
  split at asked
  · contradiction
  rename_i queried
  cases asked
  obtain ⟨filled,_⟩ : (select form.myText).myApiRoot ≠ "" ∧ (select form.myText).myFail = false := by
    simpa using queried
  rw [if_neg queried]
  exact query_stopped filled invalid log

/-- The handler ends with its last reply, whatever it has sent before. -/
theorem handlePost_returned (rest : Rest) (valid : build = .debug →
    ∀ root, (readForm client theToken pairs).root? = some root → client.validate root = true) :
    ∃ calls body, (∀ event ∈ calls, event.isReply = false) ∧ handlePost rest build client theToken pairs [] =
      .returned () (preliminary (readForm client theToken pairs) ++ calls ++ [.reply StatusCode.ok body]) := by
  obtain ⟨text,calls,quiet,ran⟩ := respond_returned rest valid (preliminary (readForm client theToken pairs))
  exact ⟨calls,_,quiet,by rw [handlePost_apply,Program.bind_returned _ ran]; rfl⟩

theorem handlePost_stopped {root : String} (asked : (readForm client theToken pairs).root? = some root)
    (invalid : client.validate root = false) :
    handlePost rest .debug client theToken pairs [] = .halted .assertion := by
  rw [handlePost_apply]
  exact Program.bind_halted _ (respond_stopped asked invalid _)

/-- The proxy serves a request properly if and only if some pair carries the token and, in
builds with assertions, the API root that it asks for passes the one on it. -/
theorem handlePost_serves_iff (rest : Rest) (build : Build) (client : Client) (theToken : String)
    (pairs : List (String × String)) :
    Serves theToken pairs (handlePost rest build client theToken pairs []) ↔
      ("token",theToken) ∈ pairs ∧
      (build = .debug → ∀ root, (readForm client theToken pairs).root? = some root → client.validate root = true) := by
  constructor
  · rintro ⟨log,status,body,ran,replies,_⟩
    have valid : build = .debug → ∀ root, (readForm client theToken pairs).root? = some root →
        client.validate root = true := by
      rintro rfl root asked
      by_contra invalid
      rw [handlePost_stopped asked (Bool.eq_false_iff.mpr invalid)] at ran
      contradiction
    refine ⟨?_,valid⟩
    obtain ⟨calls,body',quiet,ran'⟩ := handlePost_returned rest valid
    cases ran'.symm.trans ran
    by_contra absent
    rw [← readForm_authorized client] at absent
    have first : (preliminary (readForm client theToken pairs)).filter Event.isReply =
        [.reply StatusCode.unauthorized .null] := by rw [preliminary,if_neg absent]; rfl
    have last : [Event.reply StatusCode.ok body'].filter Event.isReply = [.reply StatusCode.ok body'] := rfl
    rw [List.filter_append,List.filter_append,first,last] at replies
    have count := congrArg List.length replies
    simp at count
  · rintro ⟨present,valid⟩
    obtain ⟨calls,body,quiet,ran⟩ := handlePost_returned rest valid
    refine ⟨_,StatusCode.ok,body,ran,?_,fun absent => absurd present absent⟩
    have none : calls.filter Event.isReply = [] := by simpa using quiet
    rw [preliminary,if_pos ((readForm_authorized client).mpr present),List.nil_append,List.filter_append,none]
    rfl

def sampleClient : Client where
  validate _ := true
  split text := ((text.toList.splitOnP (· == '+')).filter (· ≠ [])).map String.ofList
  get _ := .error (.runtimeError "connection refused")
  what
    | .runtimeError what => some what
    | .invalid header errors => some (header ++ String.intercalate ", " errors)

def wrongToken : List (String × String) := [("token","wrong"),("text","apiroot+http://127.0.0.1:6500")]

/-- Without the token, the command is called and there is a second reply. -/
theorem wrongToken_queried :
    ¬Serves "right" wrongToken (handlePost Rest.plain .release sampleClient "right" wrongToken []) := by
  rintro ⟨log,status,body,ran,replies,_⟩
  have count : (handlePost Rest.plain .release sampleClient "right" wrongToken []).state?.map
      (fun log => (log.filter Event.isReply).length) = some 2 := by decide
  rw [ran] at count
  simp [replies] at count

end MattermostProxy
end EtsiMec
