import EtsiMec.UeAppLcmProxy
import EtsiMec.Library.KeyedMap

/-! `AppContextManager`, the client side of the contexts. `contextCreate` is in two parts,
what it posts and what it does with the answer; the proxy works in between. -/
namespace EtsiMec

open Effect

namespace AppContextManager

structure Desc where
  theReferenceUri : String
  theContextId : String
  deriving DecidableEq, Repr

end AppContextManager

structure AppContextManager where
  theNotificationUri : String
  theProxyUri : String
  theContexts : KeyedMap String AppContextManager.Desc

/-- `NotificationEvent(uri).toJson()`. -/
def notificationEvent (uri : String) : Except Exception Json :=
  if uri = "" then .error (.runtimeError "Invalid NotificationEvent: empty referenceURI")
  else .ok (Json.empty.set "referenceURI" (.string uri))

structure NotificationRequest where
  relativeUri : String
  body : Except Exception Json

namespace AppContextManager

def callbackReference (m : AppContextManager) (ueAppId : String) : String :=
  m.theNotificationUri ++ "/" ++ ueAppId

/-- The body `contextCreate` posts to the proxy. -/
def contextRequest (m : AppContextManager) (ueAppId : String) (info : AppInfo rest) :
    Except Exception (AppContext rest) :=
  if info.message ≠ .appContextRequest
  then .error (.runtimeError "Invalid AppInfo passed in context creation")
  else AppContext.ofRequest rest ueAppId (m.callbackReference ueAppId) info

/-- What `contextCreate` does with the answer. -/
def contextStore (rest : Rest) (build : Build) (safeProblemDetailsString : Json → String)
    (ueAppId : String) (code : Nat) (body : Json) : Program AppContextManager Exception (String × String) :=
  if code ≠ StatusCode.created then
    Program.throw (.runtimeError ("Invalid response from server upon creation of AppContext: " ++
      safeProblemDetailsString body))
  else do
    let response ← Program.lift (AppContext.ofJson rest body)
    let info := response.appInfo
    let kind ← response.type build
    if kind = .response ∧ info.message = .appContextResponse then do
      let uri ← Program.lift info.referenceUri
      let m ← Program.get
      Program.put { m with
        theContexts := (KeyedMap.emplace ueAppId ⟨uri,response.contextId⟩ m.theContexts).1 }
      return (ueAppId,uri)
    else
      Program.throw (.runtimeError "Invalid body in the server response upon creation of AppContext")

def referenceUri (m : AppContextManager) (ueAppId : String) : Except Exception String :=
  match m.theContexts.lookup ueAppId with
  | some desc => .ok desc.theReferenceUri
  | none => .error (.runtimeError ("Invalid UE application ID " ++ ueAppId))

/-- The reply that `handleNotification` sends is its answer; `split` cuts at slashes. -/
def handleNotification (build : Build) (split : String → List String) (request : NotificationRequest) :
    Program AppContextManager Exception Reply := do
  let json ← Program.lift request.body
  match json.stringField? "referenceURI" with
  | none => Program.throw (.runtimeError "Invalid NotificationEvent structure")
  | some uri =>
    match (split request.relativeUri).getLast? with
    | none => Program.throw (.runtimeError "Invalid NotificationEvent structure")
    | some ueAppId => do
      Program.assert build.asserts (ueAppId != "")
      let m ← Program.get
      match m.theContexts.lookup ueAppId with
      | none =>
        Program.throw (.runtimeError ("Received notification for unknown UE application " ++ ueAppId))
      | some desc => do
        Program.put { m with theContexts := m.theContexts.insert ueAppId { desc with theReferenceUri := uri } }
        return ⟨StatusCode.noContent,.none⟩

/-! ## What each does -/

variable {rest : Rest} {build : Build} {m n : AppContextManager}

theorem contextRequest_ok {ueAppId : String} {info : AppInfo rest} {request : AppContext rest} :
    m.contextRequest ueAppId info = .ok request ↔ info.message = .appContextRequest ∧ ueAppId ≠ "" ∧
      request.theObject = AppContext.fields rest "" ueAppId (m.callbackReference ueAppId) info := by
  unfold contextRequest AppContext.ofRequest
  split
  · rename_i other
    simp [other]
  · rename_i same
    rw [AppContext.make_ok]
    simp [not_not.mp same]

/-- A request of a manager is proper and carries what the manager is to be known by. -/
theorem contextRequest_proper {ueAppId : String} {info : AppInfo rest} {request : AppContext rest}
    (made : m.contextRequest ueAppId info = .ok request) :
    request.Proper ∧ request.associateUeAppId = ueAppId ∧
      request.callbackReference = m.callbackReference ueAppId ∧ request.appInfo = info := by
  unfold contextRequest at made
  split at made
  · contradiction
  · exact AppContext.ofRequest_proper made

structure Accepted (rest : Rest) (code : Nat) (body : Json) (response : AppContext rest) (uri : String) :
    Prop where
  created : code = StatusCode.created
  decoded : AppContext.ofJson rest body = .ok response
  kind : response.kind = .response
  message : response.appInfo.message = .appContextResponse
  uri : response.appInfo.referenceUri = .ok uri

def stored (m : AppContextManager) (ueAppId uri contextId : String) : AppContextManager :=
  { m with theContexts := (KeyedMap.emplace ueAppId ⟨uri,contextId⟩ m.theContexts).1 }

section Store
variable {safeProblemDetailsString : Json → String} {ueAppId : String} {code : Nat} {body : Json}

theorem contextStore_returned {pair : String × String}
    (returned : contextStore rest build safeProblemDetailsString ueAppId code body m = .returned pair n) :
    ∃ response uri, Accepted rest code body response uri ∧ n = m.stored ueAppId uri response.contextId := by
  unfold contextStore at returned
  split at returned
  · simp at returned
  rename_i created
  obtain ⟨response,middle,decodes,continued⟩ := Program.bind_eq_returned.mp returned
  cases decoded : AppContext.ofJson rest body with
  | error error => simp [decoded] at decodes
  | ok context =>
    simp only [decoded,Program.lift_ok,Program.pure_apply,Outcome.returned.injEq] at decodes
    obtain ⟨rfl,rfl⟩ := decodes
    obtain ⟨kind,middle,typed,finished⟩ := Program.bind_eq_returned.mp continued
    obtain ⟨_,rfl,rfl⟩ := AppContext.type_returned.mp typed
    split at finished
    · rename_i accepted
      cases found : context.appInfo.referenceUri with
      | error error => simp [found] at finished
      | ok uri =>
        simp only [found,Program.lift_ok,Program.pure_bind_apply,Program.get_bind_apply,
          Program.put_bind_apply] at finished
        cases finished
        exact ⟨context,uri,⟨not_not.mp created,decoded,accepted.1,accepted.2,found⟩,rfl⟩
    · simp at finished

theorem contextStore_accepted {response : AppContext rest} {uri : String}
    (accepted : Accepted rest code body response uri) :
    contextStore rest build safeProblemDetailsString ueAppId code body m =
      .returned (ueAppId,uri) (m.stored ueAppId uri response.contextId) := by
  have consistent : response.consistent = true := by
    simp [AppContext.consistent,accepted.kind,accepted.message]
  have typed : (response.type build : Program AppContextManager Exception AppContext.Kind) m =
      .returned .response m := AppContext.type_returned.mpr ⟨fun _ => consistent,accepted.kind.symm,rfl⟩
  rw [contextStore,if_neg (not_not.mpr accepted.created),accepted.decoded,Program.lift_ok,
    Program.pure_bind_apply,Program.bind_returned _ typed,if_pos ⟨rfl,accepted.message⟩,accepted.uri]
  rfl

theorem contextStore_atomic :
    Program.Atomic (contextStore rest build safeProblemDetailsString ueAppId code body) := by
  unfold contextStore
  split
  · exact (Program.readOnly_throw _).atomic
  refine Program.atomic_bind (Program.readOnly_lift _) fun response => ?_
  refine Program.atomic_bind (AppContext.readOnly_type _ _) fun kind => ?_
  split
  · refine Program.atomic_bind (Program.readOnly_lift _) fun uri => ?_
    exact (Program.silent_bind Program.silent_get fun _ => Program.silent_bind (Program.silent_put _)
      fun _ => Program.silent_pure _).atomic
  · exact (Program.readOnly_throw _).atomic

end Store

def renewed (m : AppContextManager) (ueAppId : String) (desc : Desc) (uri : String) : AppContextManager :=
  { m with theContexts := m.theContexts.insert ueAppId { desc with theReferenceUri := uri } }

/-- A notification with a URI is accepted for the ID its path ends in, if the manager has
stored that ID, and for no other. -/
theorem handleNotification_field {split : String → List String} {relativeUri uri : String} {json : Json}
    (field : json.stringField? "referenceURI" = some uri) :
    handleNotification build split ⟨relativeUri,.ok json⟩ m =
      match (split relativeUri).getLast? with
      | none => .threw (.runtimeError "Invalid NotificationEvent structure") m
      | some ueAppId =>
        if build.asserts && ueAppId == "" then .halted .assertion
        else match m.theContexts.lookup ueAppId with
          | none => .threw (.runtimeError ("Received notification for unknown UE application " ++ ueAppId)) m
          | some desc => .returned ⟨StatusCode.noContent,.none⟩ (m.renewed ueAppId desc uri) := by
  unfold handleNotification
  simp only [Program.lift_ok,Program.pure_bind_apply,field]
  cases (split relativeUri).getLast? with
  | none => rfl
  | some ueAppId =>
    by_cases stopped : (build.asserts && ueAppId == "") = true
    · obtain ⟨asserts,blank⟩ := Bool.and_eq_true_iff.mp stopped
      simp [asserts,beq_iff_eq.mp blank]
    · have passed : (Program.assert build.asserts (ueAppId != "") :
          Program AppContextManager Exception Unit) = pure () := by
        rw [Program.assert,if_neg]
        simpa using stopped
      simp only [passed,pure_bind,Program.get_bind_apply,stopped,Bool.false_eq_true,if_false]
      cases m.theContexts.lookup ueAppId <;> rfl

theorem notificationEvent_field {uri : String} {json : Json} (event : notificationEvent uri = .ok json) :
    uri ≠ "" ∧ json.stringField? "referenceURI" = some uri := by
  unfold notificationEvent at event
  split at event
  · contradiction
  rename_i filled
  cases event
  exact ⟨filled,by simp [Json.stringField?]⟩

end AppContextManager
end EtsiMec
