import EtsiMec.Handlers
import EtsiMec.AppContextManager
import EtsiMec.Posting

/-! The proxy and a manager, exchanging messages. Each lock section is one event, and so is
each POST with its handling on the other side; a call that changes the table posts its
notifications from a thread of its own, after it has released the lock. -/
namespace EtsiMec

open Effect

/-- The characters of a `Uuid`. -/
def Plain (id : String) : Prop := id ≠ "" ∧ ∀ c ∈ id.toList, c.isAlphanum ∨ c = '-'

/-- What the two parties use of code that is not in the tree. -/
structure Transport where
  /-- A server can be started on the URI. -/
  listens : String → Prop
  /-- `web::uri::validate`. -/
  validate : String → Bool
  /-- `relative_uri()` of a request to the second URI, at the server started on the first. -/
  relativeUri : String → String → String
  /-- `support::split` at slashes. -/
  split : String → List String
  safeProblemDetailsString : Json → String
  /-- `ProblemDetails(status, detail).toJson()`. -/
  problemDetails : Nat → String → Json
  /-- The status a request is answered with if its handler throws. -/
  thrown : Nat
  valid : ∀ base id, listens base → Plain id → validate (base ++ "/" ++ id) = true
  last_token : ∀ base id, listens base → Plain id →
    (split (relativeUri base (base ++ "/" ++ id))).getLast? = some id
  thrown_ne : thrown ≠ StatusCode.noContent

/-- Servers that start on any URI, and tokens between slashes. -/
def Transport.plain : Transport where
  listens _ := True
  validate _ := true
  relativeUri base uri := String.ofList (uri.toList.drop base.toList.length)
  split uri := ((uri.toList.splitOnP (· == '/')).filter (· ≠ [])).map String.ofList
  safeProblemDetailsString _ := ""
  problemDetails _ detail := Json.empty.set "detail" (.string detail)
  thrown := 500
  valid _ _ _ _ := rfl
  last_token base id _ plain := by
    have single : id.toList.splitOnP (· == '/') = [id.toList] := by
      refine List.splitOnP_eq_singleton fun c member => beq_false_of_ne ?_
      rintro rfl
      exact absurd (plain.2 _ member) (by decide)
    have filled : id.toList ≠ [] := fun empty => plain.1 (String.toList_eq_nil_iff.mp empty)
    rw [String.append_assoc,String.toList_append,List.drop_left,String.toList_append,String.toList_ofList]
    simp [List.splitOnP_cons_eq_if_modifyHead,single,filled]
  thrown_ne := by decide

/-- A notification, with the number of the call that collected it. -/
structure Post where
  call : Nat
  notification : Notification
  deriving DecidableEq, Repr

def Post.contextId (post : Post) : String := post.notification.contextId

def Post.uri (post : Post) : String := post.notification.referenceUri

/-- A call that has released the lock: what it is still to post, and the context it is to
purge because of the answer to its last POST. -/
structure Thread where
  remaining : List Post
  failed : Option String
  deriving DecidableEq, Repr

structure InFlight where
  ueAppId : String
  code : Nat
  body : Json

/-- The last three fields only record what has happened. -/
structure Exchange (rest : Rest) where
  proxy : StaticUeAppLcmProxy rest
  manager : AppContextManager
  threads : List Thread
  replies : List InFlight
  issued : List Post
  accepted : List Post
  refused : List Post

namespace Exchange

inductive Event (rest : Rest) where
  | addApp (info : AppInfo rest)
  | delApp (info : AppInfo rest)
  | associateAddress (address appName edgeRouter : String)
  | removeAddress (address appName : String)
  | deliver (thread : Nat)
  | purge (thread : Nat)
  | request (uuid ueAppId clientAddress : String) (info : AppInfo rest)
  | store (reply : Nat)

def start (theNotificationUri theProxyUri : String) : Exchange rest :=
  ⟨StaticUeAppLcmProxy.empty,⟨theNotificationUri,theProxyUri,∅⟩,[],[],[],[],[]⟩

inductive Delivery where
  | skipped
  | answered (code : Nat) (manager : AppContextManager)

section
variable (transport : Transport) (build : Build)

/-- One turn of the loop of `notifyClients` until the manager has answered. -/
def deliver (m : AppContextManager) (elem : Notification) : Except Halt Delivery :=
  if build.asserts && (elem.callbackReference == "" || elem.referenceUri == "" || elem.contextId == "")
  then .error .assertion
  else if !transport.validate elem.callbackReference then .ok .skipped
  else match notificationEvent elem.referenceUri with
    | .error _ => .ok .skipped
    | .ok json =>
      match AppContextManager.handleNotification build transport.split
        ⟨transport.relativeUri m.theNotificationUri elem.callbackReference,.ok json⟩ m with
      | .returned reply n => .ok (.answered reply.status n)
      | .threw _ n => .ok (.answered transport.thrown n)
      | .halted reason => .error reason

/-- A call on the table leaves its section: its thread goes on with the list. -/
def release (x : Exchange rest) :
    Outcome (StaticUeAppLcmProxy rest) Exception NotificationList → Option (Exchange rest)
  | .returned list s =>
    let posts := list.map (Post.mk x.threads.length)
    some { x with proxy := s, threads := x.threads ++ [⟨posts,none⟩], issued := x.issued ++ posts }
  | .threw _ s => some { x with proxy := s }
  | .halted _ => none

def bodyJson : ReplyBody → Json
  | .none => .null
  | .json value => value
  | .problemDetails status detail => transport.problemDetails status detail

def step (x : Exchange rest) : Event rest → Option (Exchange rest)
  | .addApp info =>
    (StaticUeAppLcmProxy.onRegistry (UeAppLcmProxy.addApp info) x.proxy).state?.map fun s => { x with proxy := s }
  | .delApp info =>
    (StaticUeAppLcmProxy.onRegistry (UeAppLcmProxy.delApp info) x.proxy).state?.map fun s => { x with proxy := s }
  | .associateAddress address appName edgeRouter =>
    release x (StaticUeAppLcmProxy.associateSection build address appName edgeRouter x.proxy)
  | .removeAddress address appName => release x (StaticUeAppLcmProxy.removeSection build address appName x.proxy)
  | .deliver k =>
    match x.threads[k]? with
    | some ⟨post :: others,none⟩ =>
      match deliver transport build x.manager post.notification with
      | .error _ => none
      | .ok .skipped => some { x with threads := x.threads.set k ⟨others,none⟩ }
      | .ok (.answered code m) =>
        if code ≠ StatusCode.noContent then
          some { x with
            manager := m
            threads := x.threads.set k ⟨others,some post.notification.contextId⟩
            refused := x.refused ++ [post] }
        else
          some { x with manager := m, threads := x.threads.set k ⟨others,none⟩, accepted := x.accepted ++ [post] }
    | _ => none
  | .purge k =>
    match x.threads[k]? with
    | some ⟨others,some contextId⟩ =>
      (StaticUeAppLcmProxy.purge build contextId x.proxy).state?.map fun s =>
        { x with proxy := s, threads := x.threads.set k ⟨others,none⟩ }
    | _ => none
  | .request uuid ueAppId clientAddress info =>
    match x.manager.contextRequest ueAppId info with
    | .error _ => some x
    | .ok context =>
      match StaticUeAppLcmProxy.handleContextCreate build uuid
        ⟨clientAddress,"app_contexts",.ok context.toJson⟩ x.proxy with
      | .returned reply s =>
        some { x with proxy := s, replies := x.replies ++ [⟨ueAppId,reply.status,bodyJson transport reply.body⟩] }
      | .threw _ s => some { x with proxy := s, replies := x.replies ++ [⟨ueAppId,transport.thrown,.null⟩] }
      | .halted _ => none
  | .store k =>
    match x.replies[k]? with
    | some reply =>
      (AppContextManager.contextStore rest build transport.safeProblemDetailsString reply.ueAppId reply.code
        reply.body x.manager).state?.map fun m => { x with manager := m, replies := x.replies.eraseIdx k }
    | none => none

end

structure Quiescent (x : Exchange rest) : Prop where
  replies : x.replies = []
  threads : ∀ thread ∈ x.threads, thread.remaining = [] ∧ thread.failed = none

end Exchange
end EtsiMec
