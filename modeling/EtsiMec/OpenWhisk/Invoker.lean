import EtsiMec.OpenWhisk.Lister

/-! The command that invokes an action. It never throws; what a server can tell of an
invocation is the path it is posted to and the parameters in its body. -/
namespace EtsiMec.OpenWhisk

abbrev Parameters := Std.TreeMap String String

namespace Invoker

structure Server where
  /-- The constructor of `rest::Client`. -/
  connect : String → Except Exception Unit
  /-- A POST to the root, with an authorization: the body, the path and the query. -/
  post : String → String → Json → String → String → Except Exception (Nat × Json)

/-- What the invoker uses of the JSON library, and of its exceptions. -/
structure Codec where
  /-- `web::json::value::parse`. -/
  parse : String → Except Exception Json
  /-- `serialize()` of a value. -/
  serialize : Json → String
  /-- The text of an exception that is a `std::exception`. -/
  what : Exception → Option String

def theQuery : String := "blocking=true&result=true"

/-- An empty namespace means all of them. -/
def namespaceOf (space : String) : String := if space = "" then "_" else space

def path (command : Command) (name space : String) : String :=
  command.thePath ++ namespaceOf space ++ "/actions/" ++ name

section
variable (server : Server) (codec : Codec) (command : Command)

def attempt (name space params : String) : Except Exception (Bool × String) := do
  server.connect command.theApiRoot
  let body ← codec.parse params
  let res ← server.post command.theApiRoot command.theAuth body (path command name space) theQuery
  if res.1 ≠ StatusCode.ok then return (false,"unexpected HTTP response: " ++ toString res.1)
  match res.2.stringField? "payload" with
  | none => return (false,"unexpected body: payload field missing")
  | some payload => return (true,payload)

def invokeEncoded (name space params : String) : Bool × String :=
  match attempt server codec command name space params with
  | .ok ret => ret
  | .error error =>
    match codec.what error with
    | some what => (false,"error encountered: " ++ what)
    | none => (false,"unknown error encountered")

def encode (params : Parameters) : Json :=
  params.toList.foldl (fun json elem => json.set elem.1 (.string elem.2)) Json.empty

def invoke (name space : String) (params : Parameters) : Bool × String :=
  invokeEncoded server codec command name space (codec.serialize (encode params))

def invokePlain (name space : String) : Bool × String :=
  invoke server codec command name space ∅

end

variable {server : Server} {codec : Codec} {command : Command} {name other space space' : String}
  {params params' : Parameters}

/-! ## What a server sees -/

/-- No parameter is lost and none is merged with another. -/
theorem encode_eq (params : Parameters) :
    encode params = .object (params.toList.map fun elem => (elem.1,.string elem.2)) := by
  have distinct : params.toList.Pairwise fun a b => a.1 ≠ b.1 := by
    refine Std.TreeMap.distinct_keys_toList.imp ?_
    intro a b apart same
    exact apart (by rw [same]; exact Std.ReflCmp.compare_self)
  exact Json.foldl_set distinct (by simp)

theorem encode_eq_iff : encode params = encode params' ↔ params.toList = params'.toList := by
  rw [encode_eq,encode_eq,Json.object.injEq]
  refine List.map_injective_iff.mpr ?_ |>.eq_iff
  rintro ⟨key,value⟩ ⟨key',value'⟩ same
  simpa using same

theorem namespaceOf_clear (clear : '/' ∉ space.toList) : '/' ∉ (namespaceOf space).toList := by
  unfold namespaceOf
  split
  · decide
  · exact clear

/-- Namespaces without a slash leave the paths unambiguous. -/
theorem path_eq_iff (clear : '/' ∉ space.toList) (clear' : '/' ∉ space'.toList) :
    path command name space = path command other space' ↔
      namespaceOf space = namespaceOf space' ∧ name = other := by
  constructor
  · intro same
    rw [path,path,← String.toList_inj] at same
    simp only [String.toList_append,List.append_assoc,List.append_cancel_left_eq] at same
    obtain ⟨spaces,tails⟩ := Separator.joined_inj (namespaceOf_clear clear) (namespaceOf_clear clear') same
    exact ⟨String.toList_inj.mp spaces,String.toList_inj.mp (List.append_cancel_left tails)⟩
  · rintro ⟨spaces,rfl⟩
    rw [path,path,spaces]

/-! ## What it answers -/

/-- Parameters that survive their serialization reach the server as they are. -/
theorem invoke_connected (connects : server.connect command.theApiRoot = .ok ())
    (faithful : codec.parse (codec.serialize (encode params)) = .ok (encode params)) {code : Nat} {body : Json}
    (answers : server.post command.theApiRoot command.theAuth (encode params) (path command name space)
      theQuery = .ok (code,body)) :
    invoke server codec command name space params =
      if code ≠ StatusCode.ok then (false,"unexpected HTTP response: " ++ toString code)
      else match body.stringField? "payload" with
        | none => (false,"unexpected body: payload field missing")
        | some payload => (true,payload) := by
  have attempted : attempt server codec command name space (codec.serialize (encode params)) =
      if code ≠ StatusCode.ok then .ok (false,"unexpected HTTP response: " ++ toString code)
      else match body.stringField? "payload" with
        | none => .ok (false,"unexpected body: payload field missing")
        | some payload => .ok (true,payload) := by
    simp only [attempt,connects,faithful,answers,bind,Except.bind,pure,Except.pure]
  rw [invoke,invokeEncoded,attempted]
  by_cases refused : code ≠ StatusCode.ok
  · rw [if_pos refused,if_pos refused]
  · rw [if_neg refused,if_neg refused]
    cases body.stringField? "payload" <;> rfl

open Classical in
noncomputable def only (expected : String) (params : Json) : Server where
  connect _ := .ok ()
  post _ _ body path _ :=
    .ok (if path = expected ∧ body = params then (StatusCode.ok,Json.empty.set "payload" (.string ""))
      else (StatusCode.forbidden,.null))

theorem invoke_only (faithful : codec.parse (codec.serialize (encode params)) = .ok (encode params))
    (expected : String) (given : Json) :
    (invoke (only expected given) codec command name space params).1 = true ↔
      path command name space = expected ∧ encode params = given := by
  by_cases asked : path command name space = expected ∧ encode params = given
  · have answers : (only expected given).post command.theApiRoot command.theAuth (encode params)
        (path command name space) theQuery = .ok (StatusCode.ok,Json.empty.set "payload" (.string "")) :=
      congrArg Except.ok (if_pos asked)
    rw [invoke_connected rfl faithful answers]
    exact iff_of_true rfl asked
  · have answers : (only expected given).post command.theApiRoot command.theAuth (encode params)
        (path command name space) theQuery = .ok (StatusCode.forbidden,.null) := congrArg Except.ok (if_neg asked)
    rw [invoke_connected rfl faithful answers]
    exact iff_of_false (by decide) asked

/-- Two invocations are the same to every server exactly if they are of one action of one
namespace, with the same parameters. -/
theorem invocations_distinguished (codec : Codec) (command : Command) (name other space space' : String)
    (params params' : Parameters) (clear : '/' ∉ space.toList) (clear' : '/' ∉ space'.toList)
    (faithful : codec.parse (codec.serialize (encode params)) = .ok (encode params))
    (faithful' : codec.parse (codec.serialize (encode params')) = .ok (encode params')) :
    (∀ server, invoke server codec command name space params = invoke server codec command other space' params') ↔
      namespaceOf space = namespaceOf space' ∧ name = other ∧ params.toList = params'.toList := by
  constructor
  · intro same
    have served := (invoke_only faithful (path command name space) (encode params)).mpr ⟨rfl,rfl⟩
    rw [same] at served
    obtain ⟨paths,bodies⟩ := (invoke_only faithful' _ _).mp served
    obtain ⟨spaces,rfl⟩ := (path_eq_iff clear' clear).mp paths
    exact ⟨spaces.symm,rfl,(encode_eq_iff.mp bodies).symm⟩
  · rintro ⟨spaces,rfl,entries⟩ server
    have bodies : encode params = encode params' := encode_eq_iff.mpr entries
    rw [invoke,invoke,bodies,invokeEncoded,invokeEncoded,attempt,attempt,path,path,spaces]

def sampleCodec : Codec where
  parse text := if text = "\x7b\"name\":\"Mickey\"\x7d" then .ok (.object [("name",.string "Mickey")])
    else .error (.runtimeError "Syntax error")
  serialize _ := "\x7b\"name\":\"Mickey\"\x7d"
  what _ := none

def sampleParameters : Parameters := (∅ : Parameters).insert "name" "Mickey"

/-- The namespace may be left out. -/
theorem sample_distinguished :
    (fun server => invoke server sampleCodec ⟨"https://wsk","/api/v1/namespaces/","Basic token"⟩ "hello" ""
      sampleParameters) =
    fun server => invoke server sampleCodec ⟨"https://wsk","/api/v1/namespaces/","Basic token"⟩ "hello" "_"
      sampleParameters := by
  have faithful : sampleCodec.parse (sampleCodec.serialize (encode sampleParameters)) =
      .ok (encode sampleParameters) := by
    rw [encode_eq]
    rfl
  exact funext ((invocations_distinguished sampleCodec _ "hello" "hello" "" "_" sampleParameters sampleParameters
    (by decide) (by decide) faithful faithful).mpr ⟨rfl,rfl,rfl⟩)

end Invoker
end EtsiMec.OpenWhisk
