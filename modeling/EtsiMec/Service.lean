import EtsiMec.Routing
import EtsiMec.Library.Directory

/-! What the proxy is for: a service that admits sessions of registered applications, and
tells each of them of every new edge router. The service looks up an edge router when it is
needed. The proxy stores it in the descriptors and keeps a second index; call by call it
answers what the service says. -/
namespace EtsiMec

open Effect StaticUeAppLcmProxy

/-- A context without what can be looked up. -/
structure Session where
  theAssociateUeAppId : String
  theCallbackReference : String
  theClientAddress : String
  theAppName : String
  deriving DecidableEq, Repr

structure Service extends Directory AddressAppKey String String Session where
  registered : Set String

namespace Service

@[ext] theorem ext {v w : Service} (table : v.table = w.table) (sessions : v.sessions = w.sessions)
    (registered : v.registered = w.registered) : v = w := by
  obtain ⟨⟨_,_⟩,_⟩ := v
  obtain ⟨⟨_,_⟩,_⟩ := w
  cases table
  cases sessions
  cases registered
  rfl

def follow (table : AddressAppKey → Option String) (session : Session) : Option String :=
  Fallback.resolve table ⟨session.theClientAddress,session.theAppName⟩ ⟨"",session.theAppName⟩

inductive Answer where
  | rejected
  | refused
  | granted (edgeRouter : String)
  | notices (told : Set Notification)
  | flag (value : Prop)

def empty : Service := ⟨⟨fun _ => none,fun _ => none⟩,∅⟩

def assign (v : Service) (key : AddressAppKey) (value : Option String) : Service :=
  { v with toDirectory := v.toDirectory.assign key value }

def put (v : Service) (contextId : String) (session : Option Session) : Service :=
  { v with toDirectory := v.toDirectory.put contextId session }

def write (v : Service) (log : List (AddressAppKey × Option String)) : Service :=
  { v with toDirectory := v.toDirectory.assigns log }

/-- Who is told, and what, when the directory becomes that of another service. -/
def notices (v w : Service) : Set Notification :=
  { elem | ∃ session, v.sessions elem.contextId = some session ∧
      elem.callbackReference = session.theCallbackReference ∧
      Directory.Moved follow v.table w.table session elem.referenceUri }

def sessionOf (clientAddress : String) (request : AppContext rest) : Session :=
  ⟨request.associateUeAppId,request.callbackReference,clientAddress,request.appInfo.appName⟩

/-- The edge router a request is admitted to. -/
noncomputable def admits (v : Service) (clientAddress : String) (request : AppContext rest) : Option String :=
  open Classical in
  if UeAppLcmProxy.mangle request.appInfo ∈ v.registered
  then follow v.table (sessionOf clientAddress request) else none

/-- The session with the UE application ID of the request is given its callback reference. -/
def redirect (v : Service) (request : AppContext rest) : Service :=
  { v with
    sessions := fun contextId => (v.sessions contextId).map fun session =>
      if session.theAssociateUeAppId = request.associateUeAppId
      then { session with theCallbackReference := request.callbackReference } else session }

noncomputable def perform (v : Service) : Call rest → Service × Answer
  | .associateAddress address appName edgeRouter =>
    if appName = "" ∨ edgeRouter = "" then (v,.rejected)
    else
      let w := v.assign ⟨address,appName⟩ (some edgeRouter)
      (w,.notices (v.notices w))
  | .removeAddress address appName =>
    if appName = "" then (v,.rejected)
    else
      let w := v.assign ⟨address,appName⟩ none
      (w,.notices (v.notices w))
  | .createContext uuid clientAddress request =>
    match v.admits clientAddress request with
    | none => (v,.refused)
    | some edgeRouter =>
      if request.Proper then (v.put uuid (some (sessionOf clientAddress request)),.granted edgeRouter)
      else (v,.rejected)
  | .updateContext request =>
    (v.redirect request,.flag (∃ contextId session, v.sessions contextId = some session ∧
      session.theAssociateUeAppId = request.associateUeAppId))
  | .deleteContext contextId | .purge contextId =>
    (v.put contextId none,.flag (v.sessions contextId ≠ none))
  | .addApp info =>
    ({ v with registered := insert (UeAppLcmProxy.mangle info) v.registered },
      .flag (UeAppLcmProxy.mangle info ∉ v.registered))
  | .delApp info =>
    ({ v with registered := v.registered \ {UeAppLcmProxy.mangle info} },
      .flag (UeAppLcmProxy.mangle info ∈ v.registered))

/-! ## The proxy as a service -/

end Service

def Desc.session (desc : Desc) : Session :=
  ⟨desc.theAssociateUeAppId,desc.theCallbackReference,desc.theClientAddress,desc.theAppName⟩

namespace Service

variable {rest : Rest} {build : Build} {s t : StaticUeAppLcmProxy rest}

/-- The cached endpoints and the second index are left out. -/
def of (s : StaticUeAppLcmProxy rest) : Service :=
  ⟨⟨KeyedMap.view s.theTable,
    fun contextId => (s.theApplicationsByContextId.lookup contextId).map Desc.session⟩,
    { key | key ∈ s.theApplications }⟩

def Agree (call : Call rest) (answer : Except Exception (Result rest)) : Answer → Prop
  | .rejected => ∃ error, answer = .error error
  | .refused => ∃ uuid clientAddress request, call = .createContext uuid clientAddress request ∧
    answer = .ok (.context request)
  | .granted edgeRouter => ∃ uuid clientAddress request response,
    call = .createContext uuid clientAddress request ∧ answer = .ok (.context response) ∧
    request.Answers response uuid edgeRouter
  | .notices told => ∃ list, answer = .ok (.notifications list) ∧ (∀ elem, elem ∈ list ↔ elem ∈ told) ∧
    (list.map Notification.contextId).Nodup
  | .flag value => ∃ flag, answer = .ok (.flag flag) ∧ (flag = true ↔ value)

/-- A creation draws a new context ID and, if it is granted, repeats no UE application ID. -/
def Sound (v : Service) : Call rest → Prop
  | .createContext uuid clientAddress request => uuid ≠ "" ∧ v.sessions uuid = none ∧
    (v.admits clientAddress request ≠ none → request.Proper → ∀ contextId session,
      v.sessions contextId = some session → session.theAssociateUeAppId ≠ request.associateUeAppId)
  | _ => True

/-- An association that is not there yet finds a route for each session of the application. -/
def Accepts (v : Service) : Call rest → Prop
  | .associateAddress address appName edgeRouter => appName ≠ "" → edgeRouter ≠ "" →
    v.table ⟨address,appName⟩ = some edgeRouter ∨ ∀ contextId session,
      v.sessions contextId = some session → session.theAppName = appName →
      follow (v.assign ⟨address,appName⟩ (some edgeRouter)).table session ≠ none
  | _ => True

/-! ## Lookups -/

@[simp] theorem of_empty : of (StaticUeAppLcmProxy.empty : StaticUeAppLcmProxy rest) = empty := by
  ext1
  · funext key
    simp [of,StaticUeAppLcmProxy.empty,empty,KeyedMap.view]
  · funext contextId
    simp [of,StaticUeAppLcmProxy.empty,empty]
  · ext key
    simp [of,StaticUeAppLcmProxy.empty,empty]

theorem of_sessions {contextId : String} {session : Session} : (of s).sessions contextId = some session ↔
    ∃ desc, s.theApplicationsByContextId.lookup contextId = some desc ∧ desc.session = session :=
  Option.map_eq_some_iff

theorem of_sessions_none {contextId : String} : (of s).sessions contextId = none ↔
    contextId ∉ s.theApplicationsByContextId := by
  rw [of,Option.map_eq_none_iff,AList.lookup_eq_none]

theorem follow_session (theTable : Table) (desc : Desc) : follow (KeyedMap.view theTable) desc.session =
    route theTable desc.theClientAddress desc.theAppName := (route_eq _ _ _).symm

theorem of_registered (info : AppInfo rest) : UeAppLcmProxy.mangle info ∈ (of s).registered ↔
    UeAppLcmProxy.appExists s.theApplications info = true := Std.TreeMap.mem_iff_contains

theorem of_admits {clientAddress : String} {request : AppContext rest} :
    (of s).admits clientAddress request =
      if UeAppLcmProxy.appExists s.theApplications request.appInfo
      then route s.theTable clientAddress request.appInfo.appName else none := by
  unfold admits
  simp only [of_registered,route_eq]
  rfl

/-- The endpoint of a descriptor, against what its client follows. -/
theorem endpointOf_eq {theTable : Table} {desc : Desc} {uri : String} (filled : uri ≠ "") :
    endpointOf theTable desc = uri ↔ follow (KeyedMap.view theTable) desc.session = some uri := by
  rw [follow_session,endpointOf]
  cases route theTable desc.theClientAddress desc.theAppName with
  | none => simp [filled.symm]
  | some edgeRouter => simp

end Service
end EtsiMec
