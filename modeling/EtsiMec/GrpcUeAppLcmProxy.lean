import EtsiMec.Posting

/-! The commands of the gRPC interface. Each runs an operation of the proxy, swallows what
it throws and answers OK. -/
namespace EtsiMec.GrpcUeAppLcmProxy

open Effect

variable {rest : Rest}

structure AddressTuple where
  client : String
  appname : String
  server : String
  deriving DecidableEq, Repr

structure Lambda where
  value : String
  deriving DecidableEq, Repr

structure Number where
  value : UInt32
  deriving DecidableEq, Repr

structure ContextTuple where
  address : String
  appname : String
  edgerouter : String
  deriving DecidableEq, Repr

/-- A `grpc::Status`: OK, or one of the other codes. -/
inductive Status where
  | ok
  | error (code : Nat)
  deriving DecidableEq, Repr

section Handlers
variable (build : Build) (validate : String → Bool) (post : Notification → StaticUeAppLcmProxy.PostResult)

def associateAddress (request : AddressTuple) : Program (StaticUeAppLcmProxy rest) Exception Status := do
  Program.assert build.asserts (request.appname != "")
  Program.catchAll
    (StaticUeAppLcmProxy.associateAddress build validate post request.client request.appname request.server)
  return .ok

def removeAddress (request : AddressTuple) : Program (StaticUeAppLcmProxy rest) Exception Status := do
  Program.assert build.asserts (request.appname != "")
  Program.assert build.asserts (request.server == "")
  Program.catchAll (StaticUeAppLcmProxy.removeAddress build validate post request.client request.appname)
  return .ok

def lambdaApp (rest : Rest) (value : String) : Except Exception (AppInfo rest) :=
  AppInfo.ofCharcs rest value "OpenLambdaMec" "1.0" "" (AppCharcs.none rest)

/-- `addLambda` and `delLambda` differ in what they do with the application. -/
def withLambda (update : AppInfo rest → Registry rest → Registry rest × Bool) (request : Lambda) :
    Program (StaticUeAppLcmProxy rest) Exception Status := do
  Program.assert build.asserts (request.value != "")
  if request.value = "" then return .ok
  else do
    Program.catchAll do
      let app ← Program.lift (lambdaApp rest request.value)
      StaticUeAppLcmProxy.onRegistry (update app)
    return .ok

def addLambda : Lambda → Program (StaticUeAppLcmProxy rest) Exception Status :=
  withLambda build UeAppLcmProxy.addApp

def delLambda : Lambda → Program (StaticUeAppLcmProxy rest) Exception Status :=
  withLambda build UeAppLcmProxy.delApp

/-- The number is cut to the width of the field. -/
def numContexts : Program (StaticUeAppLcmProxy rest) Exception (Status × Number) := do
  let size ← StaticUeAppLcmProxy.numContexts build
  return (.ok,⟨size.toUInt32⟩)

def table : Program (StaticUeAppLcmProxy rest) Exception (Status × List AddressTuple) := do
  let s ← Program.get
  return (.ok,(StaticUeAppLcmProxy.addressAssociations s).map fun elem => ⟨elem.1,elem.2.1,elem.2.2⟩)

def contexts : Program (StaticUeAppLcmProxy rest) Exception (Status × List ContextTuple) := do
  let s ← Program.get
  return (.ok,(StaticUeAppLcmProxy.contexts s).map fun elem => ⟨elem.1,elem.2.1,elem.2.2⟩)

end Handlers

/-- The command is answered, OK if and only if it took effect, and otherwise changed nothing. -/
def Honest (command : Program (StaticUeAppLcmProxy rest) Exception Status)
    (effect : StaticUeAppLcmProxy rest → Prop) (s : StaticUeAppLcmProxy rest) : Prop :=
  ∃ status t, command s = .returned status t ∧ (status = .ok → effect t) ∧ (status ≠ .ok → t = s)

/-! ## What took effect -/

def Associated (request : AddressTuple) (t : StaticUeAppLcmProxy rest) : Prop :=
  t.theTable.lookup ⟨request.client,request.appname⟩ = some request.server

def Removed (request : AddressTuple) (t : StaticUeAppLcmProxy rest) : Prop :=
  t.theTable.lookup ⟨request.client,request.appname⟩ = none

def Added (request : Lambda) (t : StaticUeAppLcmProxy rest) : Prop :=
  ∃ app, lambdaApp rest request.value = .ok app ∧ UeAppLcmProxy.appExists t.theApplications app = true

def Deleted (request : Lambda) (t : StaticUeAppLcmProxy rest) : Prop :=
  ∀ app : AppInfo rest, app.appName = request.value → app.appProvider = "OpenLambdaMec" →
    app.appSoftVersion = "1.0" → UeAppLcmProxy.appExists t.theApplications app = false

/-- `CATCH_ALL`, then OK. -/
theorem answered {p : Program σ ε α} {s t : σ} {status : Status} :
    (Program.catchAll p >>= fun _ => pure Status.ok) s = .returned status t ↔
      status = .ok ∧ Program.catchAll p s = .returned () t := by
  rw [Program.bind_eq_returned]
  constructor
  · rintro ⟨_,middle,caught,answer⟩
    cases answer
    exact ⟨rfl,caught⟩
  · rintro ⟨rfl,caught⟩
    exact ⟨(),t,caught,rfl⟩

theorem asserted {condition : Bool} {build : Build} {next : Program σ ε α} {s t : σ} {value : α} :
    (Program.assert build.asserts condition >>= fun _ => next) s = .returned value t ↔
      (build = .debug → condition = true) ∧ next s = .returned value t := by
  rw [Program.bind_eq_returned]
  constructor
  · rintro ⟨_,middle,passed,ran⟩
    obtain ⟨held,rfl⟩ := Program.assert_eq_returned.mp passed
    exact ⟨by rintro rfl; exact held rfl,ran⟩
  · rintro ⟨held,ran⟩
    refine ⟨(),s,Program.assert_eq_returned.mpr ⟨fun debug => held ?_,rfl⟩,ran⟩
    cases build
    · rfl
    · contradiction

/-- A command that swallows exceptions and answers OK is honest where its assertions hold
and what it runs is not stopped and takes effect. -/
theorem honest_iff {command : Program (StaticUeAppLcmProxy rest) Exception Status}
    {p : Program (StaticUeAppLcmProxy rest) Exception α} {s : StaticUeAppLcmProxy rest} {held : Prop}
    (answers : ∀ status t, command s = .returned status t ↔
      held ∧ status = .ok ∧ Program.catchAll p s = .returned () t)
    {effect : StaticUeAppLcmProxy rest → Prop} :
    Honest command effect s ↔ held ∧ ∃ t, Program.catchAll p s = .returned () t ∧ effect t := by
  constructor
  · rintro ⟨status,t,returned,took,_⟩
    obtain ⟨held,ok,caught⟩ := (answers status t).mp returned
    exact ⟨held,t,caught,took ok⟩
  · rintro ⟨held,t,caught,took⟩
    exact ⟨.ok,t,(answers .ok t).mpr ⟨held,rfl,caught⟩,fun _ => took,fun other => absurd rfl other⟩

section Commands
variable {build : Build} {validate : String → Bool}
  {post : Notification → StaticUeAppLcmProxy.PostResult} {s : StaticUeAppLcmProxy rest}

theorem associateAddress_honest_iff (reached : StaticUeAppLcmProxy.Reachable build s)
    (request : AddressTuple) :
    Honest (associateAddress build validate post request) (Associated request) s ↔
      request.appname ≠ "" ∧ request.server ≠ "" ∧
      StaticUeAppLcmProxy.Covered s request.client request.appname request.server ∧
      (build = .debug → StaticUeAppLcmProxy.Callable s
        (StaticUeAppLcmProxy.Reassigned s request.client request.appname request.server)) := by
  rw [honest_iff (p := StaticUeAppLcmProxy.associateAddress build validate post request.client
    request.appname request.server) fun status t => by rw [associateAddress,asserted,answered]]
  by_cases blank : request.appname = "" ∨ request.server = ""
  · -- the exception is swallowed, and no entry can be what was asked for
    obtain ⟨error,threw⟩ :=
      StaticUeAppLcmProxy.associateAddress_rejects build validate post s request.client blank
    constructor
    · rintro ⟨_,t,caught,took⟩
      cases (Program.catchAll_threw threw).symm.trans caught
      rcases blank with unnamed | unfilled
      · exact absurd unnamed (reached.routed.keys _ _ took)
      · exact absurd unfilled (reached.routed.filled _ _ took)
    · rintro ⟨named,filled,_⟩
      rcases blank with unnamed | unfilled
      · exact absurd unnamed named
      · exact absurd unfilled filled
  · obtain ⟨named,filled⟩ := not_or.mp blank
    have silent := @StaticUeAppLcmProxy.associateAddress_silent rest build validate post
      request.client _ _ named filled
    simp only [silent.catchAll_returned,Associated,reached.associateAddress_iff named filled]
    simp [named,filled]

theorem removeAddress_honest_iff (reached : StaticUeAppLcmProxy.Reachable build s) (request : AddressTuple) :
    Honest (removeAddress build validate post request) (Removed request) s ↔
      (build = .debug → request.appname ≠ "" ∧ request.server = "" ∧ StaticUeAppLcmProxy.Callable s
        (StaticUeAppLcmProxy.FallsBack s request.client request.appname)) := by
  rw [honest_iff (p := StaticUeAppLcmProxy.removeAddress build validate post request.client request.appname)
    fun status t => by rw [removeAddress,asserted,asserted,answered,← and_assoc]]
  by_cases unnamed : request.appname = ""
  · -- nothing is removed, but there is no such entry either
    obtain ⟨error,threw⟩ := StaticUeAppLcmProxy.removeAddress_rejects build validate post s request.client
    rw [← unnamed] at threw
    have absent : Removed request s := by
      by_contra present
      obtain ⟨edgeRouter,found⟩ := Option.ne_none_iff_exists'.mp present
      exact reached.routed.keys _ _ found unnamed
    constructor
    · rintro ⟨⟨first,_⟩,_⟩ debug
      simp [unnamed] at first
      exact absurd debug first
    · intro asserts
      have release : build ≠ .debug := fun debug => (asserts debug).1 unnamed
      exact ⟨⟨fun debug => absurd debug release,fun debug => absurd debug release⟩,
        s,Program.catchAll_threw threw,absent⟩
  · have silent := @StaticUeAppLcmProxy.removeAddress_silent rest build validate post
      request.client _ unnamed
    simp only [silent.catchAll_returned,Removed,reached.removeAddress_iff unnamed]
    simp [unnamed,← forall_and]

theorem lambdaApp_ok {value : String} :
    (∃ app, lambdaApp rest value = .ok app) ↔ value ≠ "" ∧ value.length ≤ 32 := by
  constructor
  · rintro ⟨app,built⟩
    have limits := (AppInfo.ofCharcs_ok.mp built).1
    exact ⟨limits.name,limits.nameShort⟩
  · rintro ⟨name,short⟩
    have limits : AppInfo.Limits value "OpenLambdaMec" "1.0" "" :=
      ⟨name,by decide,short,by decide,by decide,by decide⟩
    exact ⟨⟨_,AppInfo.listObject_accepted limits (AppCharcs.none rest)⟩,AppInfo.ofCharcs_ok.mpr ⟨limits,rfl⟩⟩

/-- The state a command on a lambda function leaves: the registry is updated if the
function names an application. -/
def updated (s : StaticUeAppLcmProxy rest) (update : AppInfo rest → Registry rest → Registry rest × Bool)
    (request : Lambda) : StaticUeAppLcmProxy rest :=
  match lambdaApp rest request.value with
  | .ok app => { s with theApplications := (update app s.theApplications).1 }
  | .error _ => s

theorem withLambda_honest_iff (update : AppInfo rest → Registry rest → Registry rest × Bool)
    (request : Lambda) (effect : StaticUeAppLcmProxy rest → Prop) :
    Honest (withLambda build update request) effect s ↔
      (build = .debug → request.value ≠ "") ∧ effect (updated s update request) := by
  by_cases blank : request.value = ""
  · have kept : updated s update request = s := by
      cases built : lambdaApp rest request.value with
      | ok app => exact absurd blank (lambdaApp_ok.mp ⟨app,built⟩).1
      | error error => rw [updated,built]
    rw [kept,honest_iff (p := pure ()) fun status t => by
      rw [withLambda,asserted,if_pos blank,← answered]; rfl]
    simp [Program.catchAll]
  · have caught : Program.catchAll (do
        let app ← Program.lift (lambdaApp rest request.value)
        StaticUeAppLcmProxy.onRegistry (update app)) s = .returned () (updated s update request) := by
      cases built : lambdaApp rest request.value with
      | ok app => rw [updated,built]; rfl
      | error error => rw [updated,built]; rfl
    rw [honest_iff fun status t => by rw [withLambda,asserted,if_neg blank,answered],caught]
    simp

theorem addLambda_honest_iff (request : Lambda) :
    Honest (addLambda build request) (Added request) s ↔ request.value ≠ "" ∧ request.value.length ≤ 32 := by
  rw [addLambda,withLambda_honest_iff,← @lambdaApp_ok rest]
  constructor
  · rintro ⟨_,app,built,_⟩
    exact ⟨app,built⟩
  · rintro ⟨app,built⟩
    refine ⟨fun _ => (lambdaApp_ok.mp ⟨app,built⟩).1,app,built,?_⟩
    rw [updated,built,UeAppLcmProxy.appExists_eq,UeAppLcmProxy.addApp_find,if_pos rfl]
    rfl

theorem delLambda_honest_iff (request : Lambda) :
    Honest (delLambda build request) (Deleted request) s ↔ (build = .debug → request.value ≠ "") := by
  rw [delLambda,withLambda_honest_iff,and_iff_left]
  intro app name provider version
  cases built : lambdaApp rest request.value with
  | ok deleted =>
    -- both have the key that was erased
    have names := AppInfo.ofCharcs_names built
    have same : UeAppLcmProxy.mangle app = UeAppLcmProxy.mangle deleted := by
      rw [UeAppLcmProxy.mangle,UeAppLcmProxy.mangle,name,provider,version,names.1,names.2.1,names.2.2]
    rw [updated,built,UeAppLcmProxy.appExists_eq,UeAppLcmProxy.delApp_find,if_pos same]
    rfl
  | error error =>
    -- a name that no lambda function can have is no application's
    obtain ⟨_,ok⟩ := (@lambdaApp_ok rest request.value).mpr ⟨name ▸ app.appName_ne,name ▸ app.appName_short⟩
    rw [built] at ok
    contradiction

/-- When an OK means that the change took effect, for each command. -/
theorem ok_means_effect_iff (build : Build) (validate : String → Bool)
    (post : Notification → StaticUeAppLcmProxy.PostResult) (s : StaticUeAppLcmProxy rest)
    (reached : StaticUeAppLcmProxy.Reachable build s) :
    (∀ request, Honest (associateAddress build validate post request) (Associated request) s ↔
      request.appname ≠ "" ∧ request.server ≠ "" ∧
      StaticUeAppLcmProxy.Covered s request.client request.appname request.server ∧
      (build = .debug → StaticUeAppLcmProxy.Callable s
        (StaticUeAppLcmProxy.Reassigned s request.client request.appname request.server))) ∧
    (∀ request, Honest (removeAddress build validate post request) (Removed request) s ↔
      (build = .debug → request.appname ≠ "" ∧ request.server = "" ∧ StaticUeAppLcmProxy.Callable s
        (StaticUeAppLcmProxy.FallsBack s request.client request.appname))) ∧
    (∀ request, Honest (addLambda build request) (Added request) s ↔
      request.value ≠ "" ∧ request.value.length ≤ 32) ∧
    (∀ request, Honest (delLambda build request) (Deleted request) s ↔
      (build = .debug → request.value ≠ "")) :=
  ⟨associateAddress_honest_iff reached,removeAddress_honest_iff reached,addLambda_honest_iff,
    delLambda_honest_iff⟩

end Commands

theorem sample_ok_means_effect :
    Honest (associateAddress .release (fun _ => true) (fun _ => .failed) ⟨"","app","er2"⟩)
      (Associated ⟨"","app","er2"⟩)
      (StaticUeAppLcmProxy.after .release StaticUeAppLcmProxy.sampleCalls (by decide)) ∧
    Honest (addLambda .release ⟨"lambda0"⟩) (Added ⟨"lambda0"⟩)
      (StaticUeAppLcmProxy.after .release StaticUeAppLcmProxy.sampleCalls (by decide)) := by
  have honest := ok_means_effect_iff .release (fun _ => true) (fun _ => .failed) _
    (StaticUeAppLcmProxy.after_reachable .release StaticUeAppLcmProxy.sampleCalls (by decide))
  refine ⟨(honest.1 _).mpr ⟨by decide,by decide,.inr (.inl rfl),?_⟩,(honest.2.2.1 _).mpr (by decide)⟩
  intro debug
  contradiction

/-- An association without an edge router and a lambda function with too long a name are
answered OK, and nothing happened. -/
theorem ok_without_effect :
    associateAddress .debug (fun _ => true) (fun _ => .failed) ⟨"client","app",""⟩
      (StaticUeAppLcmProxy.empty : StaticUeAppLcmProxy Rest.plain) = .returned .ok StaticUeAppLcmProxy.empty ∧
    addLambda .debug ⟨"a-lambda-function-with-a-long-name"⟩
      (StaticUeAppLcmProxy.empty : StaticUeAppLcmProxy Rest.plain) = .returned .ok StaticUeAppLcmProxy.empty ∧
    ¬Honest (associateAddress .debug (fun _ => true) (fun _ => .failed) ⟨"client","app",""⟩)
      (Associated ⟨"client","app",""⟩) (StaticUeAppLcmProxy.empty : StaticUeAppLcmProxy Rest.plain) ∧
    ¬Honest (addLambda .debug ⟨"a-lambda-function-with-a-long-name"⟩)
      (Added ⟨"a-lambda-function-with-a-long-name"⟩)
      (StaticUeAppLcmProxy.empty : StaticUeAppLcmProxy Rest.plain) := by
  refine ⟨rfl,rfl,?_,?_⟩
  · rw [associateAddress_honest_iff ⟨[],rfl⟩]
    exact fun honest => honest.2.1 rfl
  · rw [addLambda_honest_iff]
    exact fun honest => absurd honest.2 (by decide)

end EtsiMec.GrpcUeAppLcmProxy
