import EtsiMec.Redelivery

/-! The client of the gRPC interface. It checks its arguments before it sends a request, and
throws unless it is answered OK. Against a server of the proxy each of its functions is the
operation of the proxy. -/
namespace EtsiMec.GrpcUeAppLcmProxyClient

open Effect GrpcUeAppLcmProxy

structure Stub (σ : Type) where
  associateAddress : AddressTuple → Program σ Exception Status
  removeAddress : AddressTuple → Program σ Exception Status
  addLambda : Lambda → Program σ Exception Status
  delLambda : Lambda → Program σ Exception Status
  numContexts : Program σ Exception (Status × GrpcUeAppLcmProxy.Number)
  table : Program σ Exception (Status × List AddressTuple)
  contexts : Program σ Exception (Status × List ContextTuple)

section Client
variable {σ : Type} (checkStatus : Status → Except Exception Unit) (theStub : Stub σ)

def associateAddress (client appName server : String) : Program σ Exception Unit :=
  if appName = "" then Program.throw (.runtimeError "Invalid empty application name")
  else if server = "" then Program.throw (.runtimeError "Invalid empty edge router address")
  else do
    let status ← theStub.associateAddress ⟨client,appName,server⟩
    Program.lift (checkStatus status)

/-- The server of the request is left unset. -/
def removeAddress (client appName : String) : Program σ Exception Unit :=
  if appName = "" then Program.throw (.runtimeError "Invalid empty application name")
  else do
    let status ← theStub.removeAddress ⟨client,appName,""⟩
    Program.lift (checkStatus status)

/-- `addLambda` and `delLambda` differ in the request they send. -/
def onLambda (send : Lambda → Program σ Exception Status) (lambda : String) : Program σ Exception Unit :=
  if lambda = "" then Program.throw (.runtimeError "Invalid empty lambda function name")
  else do
    let status ← send ⟨lambda⟩
    Program.lift (checkStatus status)

def addLambda : String → Program σ Exception Unit := onLambda checkStatus theStub.addLambda

def delLambda : String → Program σ Exception Unit := onLambda checkStatus theStub.delLambda

def numContexts : Program σ Exception Nat := do
  let (status,reply) ← theStub.numContexts
  Program.lift (checkStatus status)
  return reply.value.toNat

def table : Program σ Exception (List (String × String × String)) := do
  let (status,reply) ← theStub.table
  Program.lift (checkStatus status)
  return reply.map fun elem => (elem.client,elem.appname,elem.server)

def contexts : Program σ Exception (List (String × String × String)) := do
  let (status,reply) ← theStub.contexts
  Program.lift (checkStatus status)
  return reply.map fun elem => (elem.address,elem.appname,elem.edgerouter)

end Client

def remoteProxy {rest : Rest} (build : Build) (validate : String → Bool)
    (post : Notification → StaticUeAppLcmProxy.PostResult) : Stub (StaticUeAppLcmProxy rest) where
  associateAddress := GrpcUeAppLcmProxy.associateAddress build validate post
  removeAddress := GrpcUeAppLcmProxy.removeAddress build validate post
  addLambda := GrpcUeAppLcmProxy.addLambda build
  delLambda := GrpcUeAppLcmProxy.delLambda build
  numContexts := GrpcUeAppLcmProxy.numContexts build
  table := GrpcUeAppLcmProxy.table
  contexts := GrpcUeAppLcmProxy.contexts

/-! ## What is sent -/

/-- The other ends do the same with each request whose fields are as the protocol has them. -/
structure Alike {σ : Type} (theStub theStub' : Stub σ) : Prop where
  associateAddress : ∀ request, request.appname ≠ "" → request.server ≠ "" →
    theStub.associateAddress request = theStub'.associateAddress request
  removeAddress : ∀ request, request.appname ≠ "" → request.server = "" →
    theStub.removeAddress request = theStub'.removeAddress request
  addLambda : ∀ request, request.value ≠ "" → theStub.addLambda request = theStub'.addLambda request
  delLambda : ∀ request, request.value ≠ "" → theStub.delLambda request = theStub'.delLambda request
  numContexts : theStub.numContexts = theStub'.numContexts
  table : theStub.table = theStub'.table
  contexts : theStub.contexts = theStub'.contexts

def strict {σ : Type} (theStub : Stub σ) : Stub σ :=
  { theStub with
    associateAddress := fun request => if request.appname = "" ∨ request.server = ""
      then Program.halt .undefined else theStub.associateAddress request
    removeAddress := fun request => if request.appname = "" ∨ request.server ≠ ""
      then Program.halt .undefined else theStub.removeAddress request
    addLambda := fun request => if request.value = "" then Program.halt .undefined else theStub.addLambda request
    delLambda := fun request => if request.value = "" then Program.halt .undefined else theStub.delLambda request }

theorem strict_alike {σ : Type} (theStub : Stub σ) : Alike theStub (strict theStub) := by
  refine ⟨?_,?_,?_,?_,rfl,rfl,rfl⟩
  · intro request named filled
    simp [strict,named,filled]
  · intro request named absent
    simp [strict,named,absent]
  · intro request named
    simp [strict,named]
  · intro request named
    simp [strict,named]

section Sent
variable {σ : Type} {theStub theStub' : Stub σ} (checkStatus : Status → Except Exception Unit)

theorem associateAddress_sends (alike : Alike theStub theStub') (client appName server : String) :
    associateAddress checkStatus theStub client appName server =
      associateAddress checkStatus theStub' client appName server := by
  unfold associateAddress
  split
  · rfl
  split
  · rfl
  · rename_i named filled
    rw [alike.associateAddress ⟨client,appName,server⟩ named filled]

theorem removeAddress_sends (alike : Alike theStub theStub') (client appName : String) :
    removeAddress checkStatus theStub client appName = removeAddress checkStatus theStub' client appName := by
  unfold removeAddress
  split
  · rfl
  · rename_i named
    rw [alike.removeAddress ⟨client,appName,""⟩ named rfl]

theorem onLambda_sends {send send' : Lambda → Program σ Exception Status}
    (same : ∀ request, request.value ≠ "" → send request = send' request) (lambda : String) :
    onLambda checkStatus send lambda = onLambda checkStatus send' lambda := by
  unfold onLambda
  split
  · rfl
  · rename_i named
    rw [same ⟨lambda⟩ named]

end Sent

/-! ## The proxy at the other end -/

section Served
variable {rest : Rest} {build : Build} {validate : String → Bool}
  {post : Notification → StaticUeAppLcmProxy.PostResult} {checkStatus : Status → Except Exception Unit}

/-- A request that the server asserts nothing more of, answered OK. -/
theorem answered_ok (checks : checkStatus .ok = .ok ()) {p : Program (StaticUeAppLcmProxy rest) Exception α} :
    ((Program.catchAll p >>= fun _ => pure Status.ok) >>= fun status => Program.lift (checkStatus status)) =
      Program.catchAll p := by
  rw [bind_assoc]
  simp [checks]

theorem catchAll_silent {σ ε : Type} {p : Program σ ε Unit} (silent : p.Silent) : Program.catchAll p = p := by
  funext s
  rw [Program.catchAll]
  cases ran : p s with
  | returned value t => rfl
  | threw error t => exact absurd ran (silent s error t)
  | halted reason => rfl

theorem associateAddress_served (checks : checkStatus .ok = .ok ()) (client : String) {appName server : String}
    (named : appName ≠ "") (filled : server ≠ "") :
    associateAddress checkStatus (@remoteProxy rest build validate post) client appName server =
      StaticUeAppLcmProxy.associateAddress build validate post client appName server := by
  rw [associateAddress,if_neg named,if_neg filled,remoteProxy]
  dsimp only
  rw [GrpcUeAppLcmProxy.associateAddress,bne_iff_ne.mpr named,Program.assert_true,pure_bind,answered_ok checks,
    catchAll_silent (StaticUeAppLcmProxy.associateAddress_silent _ _ _ client named filled)]

theorem removeAddress_served (checks : checkStatus .ok = .ok ()) (client : String) {appName : String}
    (named : appName ≠ "") :
    removeAddress checkStatus (@remoteProxy rest build validate post) client appName =
      StaticUeAppLcmProxy.removeAddress build validate post client appName := by
  rw [removeAddress,if_neg named,remoteProxy]
  dsimp only
  rw [GrpcUeAppLcmProxy.removeAddress,bne_iff_ne.mpr named,beq_self_eq_true,Program.assert_true,pure_bind,
    pure_bind,answered_ok checks,catchAll_silent (StaticUeAppLcmProxy.removeAddress_silent _ _ _ client named)]

/-- A lambda function that cannot be named is dropped without a word. -/
theorem onLambda_served (checks : checkStatus .ok = .ok ())
    (update : AppInfo rest → Registry rest → Registry rest × Bool) {lambda : String} (named : lambda ≠ "") :
    onLambda checkStatus (withLambda build update) lambda = fun s =>
      .returned () (updated s update ⟨lambda⟩) := by
  funext s
  rw [onLambda,if_neg named,Program.bind_returned _
    (withLambda_returned.mpr ⟨fun _ => named,rfl,rfl⟩),checks]
  rfl

theorem numContexts_served (checks : checkStatus .ok = .ok ()) :
    numContexts checkStatus (@remoteProxy rest build validate post) =
      (· % 2 ^ 32) <$> StaticUeAppLcmProxy.numContexts build := by
  rw [numContexts,remoteProxy]
  dsimp only
  rw [GrpcUeAppLcmProxy.numContexts,bind_assoc,map_eq_pure_bind]
  simp [checks]

theorem table_served (checks : checkStatus .ok = .ok ()) (s : StaticUeAppLcmProxy rest) :
    table checkStatus (@remoteProxy rest build validate post) s =
      .returned (StaticUeAppLcmProxy.addressAssociations s) s := by
  rw [table,remoteProxy]
  dsimp only
  rw [GrpcUeAppLcmProxy.table,bind_assoc,Program.get_bind_apply,Program.pure_bind_apply,checks]
  simp only [Program.lift_ok,Program.pure_bind_apply,Program.pure_apply,List.map_map]
  congr 1
  exact List.map_id _

theorem contexts_served (checks : checkStatus .ok = .ok ()) (s : StaticUeAppLcmProxy rest) :
    contexts checkStatus (@remoteProxy rest build validate post) s =
      .returned (StaticUeAppLcmProxy.contexts s) s := by
  rw [contexts,remoteProxy]
  dsimp only
  rw [GrpcUeAppLcmProxy.contexts,bind_assoc,Program.get_bind_apply,Program.pure_bind_apply,checks]
  simp only [Program.lift_ok,Program.pure_bind_apply,Program.pure_apply,List.map_map]
  congr 1
  exact List.map_id _

/-- Each function of the client does at a distance what the operation of the proxy does, but
for the arguments it does not accept, and the width of the number. -/
theorem remote_is_local (build : Build) (validate : String → Bool)
    (post : Notification → StaticUeAppLcmProxy.PostResult) (checkStatus : Status → Except Exception Unit)
    (checks : checkStatus .ok = .ok ()) :
    (∀ client appName server, associateAddress checkStatus (@remoteProxy rest build validate post) client appName server =
      if appName = "" then Program.throw (.runtimeError "Invalid empty application name")
      else if server = "" then Program.throw (.runtimeError "Invalid empty edge router address")
      else StaticUeAppLcmProxy.associateAddress build validate post client appName server) ∧
    (∀ client appName, removeAddress checkStatus (@remoteProxy rest build validate post) client appName =
      if appName = "" then Program.throw (.runtimeError "Invalid empty application name")
      else StaticUeAppLcmProxy.removeAddress build validate post client appName) ∧
    (∀ lambda, addLambda checkStatus (@remoteProxy rest build validate post) lambda =
      if lambda = "" then Program.throw (.runtimeError "Invalid empty lambda function name")
      else match lambdaApp rest lambda with
        | .ok app => (fun _ => ()) <$> StaticUeAppLcmProxy.onRegistry (UeAppLcmProxy.addApp app)
        | .error _ => pure ()) ∧
    (∀ lambda, delLambda checkStatus (@remoteProxy rest build validate post) lambda =
      if lambda = "" then Program.throw (.runtimeError "Invalid empty lambda function name")
      else match lambdaApp rest lambda with
        | .ok app => (fun _ => ()) <$> StaticUeAppLcmProxy.onRegistry (UeAppLcmProxy.delApp app)
        | .error _ => pure ()) ∧
    numContexts checkStatus (@remoteProxy rest build validate post) =
      (· % 2 ^ 32) <$> StaticUeAppLcmProxy.numContexts build ∧
    table checkStatus (@remoteProxy rest build validate post) =
      StaticUeAppLcmProxy.addressAssociations <$> Program.get ∧
    contexts checkStatus (@remoteProxy rest build validate post) = StaticUeAppLcmProxy.contexts <$> Program.get := by
  have updates : ∀ (update : AppInfo rest → Registry rest → Registry rest × Bool) lambda,
      onLambda checkStatus (withLambda build update) lambda =
        if lambda = "" then Program.throw (.runtimeError "Invalid empty lambda function name")
        else match lambdaApp rest lambda with
          | .ok app => (fun _ => ()) <$> StaticUeAppLcmProxy.onRegistry (update app)
          | .error _ => pure () := by
    intro update lambda
    split
    · rename_i unnamed
      rw [onLambda,if_pos unnamed]
    · rename_i named
      rw [onLambda_served checks update named]
      funext s
      rw [updated]
      cases lambdaApp rest lambda <;> rfl
  refine ⟨?_,?_,updates _,updates _,numContexts_served checks,funext (table_served checks),
    funext (contexts_served checks)⟩
  · intro client appName server
    split
    · rename_i unnamed
      rw [associateAddress,if_pos unnamed]
    split
    · rename_i named unfilled
      rw [associateAddress,if_neg named,if_pos unfilled]
    · rename_i named filled
      exact associateAddress_served checks client named filled
  · intro client appName
    split
    · rename_i unnamed
      rw [removeAddress,if_pos unnamed]
    · rename_i named
      exact removeAddress_served checks client named

end Served

def sampleCheck : Status → Except Exception Unit
  | .ok => .ok ()
  | .error code => .error (.runtimeError (toString code))

theorem sample_remote_is_local : table sampleCheck (remoteProxy .debug (fun _ => true) fun _ => .failed)
    (StaticUeAppLcmProxy.after .debug StaticUeAppLcmProxy.sampleCalls (by decide)) =
      .returned [("","app","er1")] (StaticUeAppLcmProxy.after .debug StaticUeAppLcmProxy.sampleCalls (by decide)) := by
  have local_ := (@remote_is_local Rest.plain .debug (fun _ => true) (fun _ => .failed) sampleCheck rfl).2.2.2.2.2.1
  rw [local_]
  rfl

end EtsiMec.GrpcUeAppLcmProxyClient
