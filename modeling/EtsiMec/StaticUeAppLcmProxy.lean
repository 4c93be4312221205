import EtsiMec.UeAppLcmProxy
import EtsiMec.Library.KeyedMap
import EtsiMec.Library.Run

/-! `StaticUeAppLcmProxy`. Each critical section under `theMutex` is one program; the
notifications a section collects are returned, to be posted after the lock is released.
An iterator into `theApplicationsByContextId` is identified with the context ID it was
obtained for. -/
namespace EtsiMec

open Effect

structure AddressAppKey where
  theAddress : String
  theAppName : String
  deriving DecidableEq, Repr

structure Desc where
  theAssociateUeAppId : String
  theCallbackReference : String
  theClientAddress : String
  theAppName : String
  theEdgeRouterEndpoint : String
  deriving DecidableEq, Repr

abbrev Table := KeyedMap AddressAppKey String

structure Notification where
  callbackReference : String
  referenceUri : String
  contextId : String
  deriving DecidableEq, Repr

abbrev NotificationList := List Notification

structure StaticUeAppLcmProxy (rest : Rest) where
  theApplications : Registry rest
  theTable : Table
  theApplicationsByContextId : KeyedMap String Desc
  theApplicationsByUeAppId : KeyedMap String String

namespace StaticUeAppLcmProxy

def empty : StaticUeAppLcmProxy rest := ⟨∅,∅,∅,∅⟩

/-- The entry for the exact address if there is one, else the entry for any address. -/
def route (theTable : Table) (address appName : String) : Option String :=
  match theTable.lookup ⟨address,appName⟩ with
  | some edgeRouter => some edgeRouter
  | none => theTable.lookup ⟨"",appName⟩

/-- `none` stands for `theTable.end()`. -/
def find (build : Build) (theTable : Table) (address appName : String) : Except Halt (Option String) :=
  if build.asserts && appName == "" then .error .assertion else .ok (route theTable address appName)

/-! ## Associations -/

section Associations
variable (build : Build) (theTable : Table) (appName : String)

/-- The body of the loop of `associateAddress`: a context that changes is given the
argument, not the value found. -/
def associateVisit (edgeRouter contextId : String) (desc : Desc) : Except Halt (Desc × NotificationList) :=
  if desc.theAppName ≠ appName then .ok (desc,[])
  else match find build theTable desc.theClientAddress desc.theAppName with
    | .error reason => .error reason
    | .ok none => .error (if build.asserts then .assertion else .undefined)
    | .ok (some target) =>
      if target ≠ desc.theEdgeRouterEndpoint
      then .ok ({ desc with theEdgeRouterEndpoint := edgeRouter },
        [⟨desc.theCallbackReference,edgeRouter,contextId⟩])
      else .ok (desc,[])

def removeVisit (contextId : String) (desc : Desc) : Except Halt (Desc × NotificationList) :=
  if desc.theAppName ≠ appName then .ok (desc,[])
  else match find build theTable desc.theClientAddress desc.theAppName with
    | .error reason => .error reason
    | .ok none => .ok ({ desc with theEdgeRouterEndpoint := "" },[])
    | .ok (some target) =>
      if target ≠ desc.theEdgeRouterEndpoint
      then
        if build.asserts && target == "" then .error .assertion
        else .ok ({ desc with theEdgeRouterEndpoint := target },
          [⟨desc.theCallbackReference,target,contextId⟩])
      else .ok (desc,[])

end Associations

/-- `associateAddress` up to the release of the lock. -/
def associateSection (build : Build) (address appName edgeRouter : String) :
    Program (StaticUeAppLcmProxy rest) Exception NotificationList :=
  if appName = "" then Program.throw (.runtimeError "Empty application name")
  else if edgeRouter = "" then Program.throw (.runtimeError "Empty edge router end-point")
  else do
    let s ← Program.get
    let key := AddressAppKey.mk address appName
    let (table,inserted) := KeyedMap.emplace key edgeRouter s.theTable
    if !inserted && table.lookup key == some edgeRouter then return []
    else do
      let table := table.insert key edgeRouter
      let (contexts,notifications) ← Program.orHalt
        (KeyedMap.sweep (associateVisit build table appName edgeRouter) s.theApplicationsByContextId)
      Program.put { s with theTable := table, theApplicationsByContextId := contexts }
      return notifications

/-- `removeAddress` up to the release of the lock. -/
def removeSection (build : Build) (address appName : String) :
    Program (StaticUeAppLcmProxy rest) Exception NotificationList :=
  if appName = "" then Program.throw (.runtimeError "Empty application name")
  else do
    let s ← Program.get
    let table := s.theTable.erase ⟨address,appName⟩
    let (contexts,notifications) ← Program.orHalt
      (KeyedMap.sweep (removeVisit build table appName) s.theApplicationsByContextId)
    Program.put { s with theTable := table, theApplicationsByContextId := contexts }
    return notifications

/-! ## Contexts -/

/-- A refusal hands the request back. The context ID is drawn by the caller. -/
def createContext (build : Build) (uuid clientAddress : String) (request : AppContext rest) :
    Program (StaticUeAppLcmProxy rest) Exception (AppContext rest) := do
  let s ← Program.get
  if !UeAppLcmProxy.appExists s.theApplications request.appInfo then return request
  else do
    match ← Program.orHalt (find build s.theTable clientAddress request.appInfo.appName) with
    | none => return request
    | some edgeRouter => do
      let response ← request.makeResponse build uuid edgeRouter
      let (contexts,inserted) := KeyedMap.emplace response.contextId
        ⟨request.associateUeAppId,request.callbackReference,clientAddress,request.appInfo.appName,edgeRouter⟩
        s.theApplicationsByContextId
      Program.assert build.asserts inserted
      let (index,fresh) := KeyedMap.emplace request.associateUeAppId response.contextId
        s.theApplicationsByUeAppId
      Program.assert build.asserts fresh
      Program.put { s with theApplicationsByContextId := contexts, theApplicationsByUeAppId := index }
      return response

def updateContext (request : AppContext rest) : Program (StaticUeAppLcmProxy rest) Exception Bool := do
  let s ← Program.get
  match s.theApplicationsByUeAppId.lookup request.associateUeAppId with
  | none => return false
  | some contextId =>
    match s.theApplicationsByContextId.lookup contextId with
    | none => Program.halt .undefined -- the iterator dangles
    | some desc => do
      let contexts := s.theApplicationsByContextId.insert contextId
        { desc with theCallbackReference := request.callbackReference }
      Program.put { s with theApplicationsByContextId := contexts }
      return true

def deleteContext (build : Build) (contextId : String) :
    Program (StaticUeAppLcmProxy rest) Exception Bool := do
  let s ← Program.get
  match s.theApplicationsByContextId.lookup contextId with
  | none => return false
  | some desc =>
    if desc.theAssociateUeAppId ∉ s.theApplicationsByUeAppId
    then Program.halt (if build.asserts then .assertion else .undefined) -- erase(end())
    else do
      Program.put { s with
        theApplicationsByContextId := s.theApplicationsByContextId.erase contextId
        theApplicationsByUeAppId := s.theApplicationsByUeAppId.erase desc.theAssociateUeAppId }
      return true

def purge (build : Build) (contextId : String) : Program (StaticUeAppLcmProxy rest) Exception Bool := do
  let s ← Program.get
  match s.theApplicationsByContextId.lookup contextId with
  | none => return false
  | some desc => do
    Program.assert build.asserts (desc.theAssociateUeAppId ∈ s.theApplicationsByUeAppId)
    let index := s.theApplicationsByUeAppId.erase desc.theAssociateUeAppId
    let contexts := s.theApplicationsByContextId.erase contextId
    Program.put { s with theApplicationsByContextId := contexts, theApplicationsByUeAppId := index }
    Program.assert build.asserts (KeyedMap.size contexts == KeyedMap.size index)
    return true

/-! ## Notifications -/

/-- What `rest::Client::post` does: it answers with a status or throws. -/
inductive PostResult where
  | status (code : Nat)
  | failed
  deriving DecidableEq, Repr

section Notify
variable (build : Build) (validate : String → Bool) (post : Notification → PostResult)

/-- One turn of the loop of `notifyClients`. Exceptions are caught; an empty URI makes the
`NotificationEvent` throw before anything is posted. -/
def notifyClient (elem : Notification) : Program (StaticUeAppLcmProxy rest) Exception Unit := do
  Program.assert build.asserts (elem.callbackReference != "")
  Program.assert build.asserts (elem.referenceUri != "")
  Program.assert build.asserts (elem.contextId != "")
  if !validate elem.callbackReference || elem.referenceUri == "" then return
  else match post elem with
    | .failed => return
    | .status code =>
      if code ≠ StatusCode.noContent then do
        let _ ← purge build elem.contextId
        return
      else return

def notifyClients : NotificationList → Program (StaticUeAppLcmProxy rest) Exception Unit
  | [] => return
  | elem :: rest => do
    notifyClient build validate post elem
    notifyClients rest

def associateAddress (address appName edgeRouter : String) :
    Program (StaticUeAppLcmProxy rest) Exception Unit := do
  let notifications ← associateSection build address appName edgeRouter
  notifyClients build validate post notifications

def removeAddress (address appName : String) : Program (StaticUeAppLcmProxy rest) Exception Unit := do
  let notifications ← removeSection build address appName
  notifyClients build validate post notifications

end Notify

/-! ## Queries -/

def numAddresses (s : StaticUeAppLcmProxy rest) : Nat := KeyedMap.size s.theTable

def numContexts (build : Build) : Program (StaticUeAppLcmProxy rest) Exception Nat := do
  let s ← Program.get
  Program.assert build.asserts
    (KeyedMap.size s.theApplicationsByContextId == KeyedMap.size s.theApplicationsByUeAppId)
  return KeyedMap.size s.theApplicationsByContextId

def edgeRouter (build : Build) (address appName : String) :
    Program (StaticUeAppLcmProxy rest) Exception String :=
  if address = "" then Program.throw (.runtimeError "Empty edge client address")
  else if appName = "" then Program.throw (.runtimeError "Empty application name")
  else do
    let s ← Program.get
    let found ← Program.orHalt (find build s.theTable address appName)
    return found.getD ""

def addressAssociations (s : StaticUeAppLcmProxy rest) : List (String × String × String) :=
  s.theTable.entries.map fun elem => (elem.1.theAddress,elem.1.theAppName,elem.2)

def contexts (s : StaticUeAppLcmProxy rest) : List (String × String × String) :=
  s.theApplicationsByContextId.entries.map fun elem =>
    (elem.2.theClientAddress,elem.2.theAppName,elem.2.theEdgeRouterEndpoint)

/-! ## Runs -/

/-- One critical section, with its arguments. -/
inductive Call (rest : Rest) where
  | associateAddress (address appName edgeRouter : String)
  | removeAddress (address appName : String)
  | createContext (uuid clientAddress : String) (request : AppContext rest)
  | updateContext (request : AppContext rest)
  | deleteContext (contextId : String)
  | purge (contextId : String)
  | addApp (info : AppInfo rest)
  | delApp (info : AppInfo rest)

inductive Result (rest : Rest) where
  | notifications (list : NotificationList)
  | context (response : AppContext rest)
  | flag (value : Bool)

def onRegistry (update : Registry rest → Registry rest × Bool) :
    Program (StaticUeAppLcmProxy rest) Exception Bool := do
  let s ← Program.get
  Program.put { s with theApplications := (update s.theApplications).1 }
  return (update s.theApplications).2

def exec (build : Build) : Call rest → Program (StaticUeAppLcmProxy rest) Exception (Result rest)
  | .associateAddress address appName edgeRouter =>
    .notifications <$> associateSection build address appName edgeRouter
  | .removeAddress address appName => .notifications <$> removeSection build address appName
  | .createContext uuid clientAddress request => .context <$> createContext build uuid clientAddress request
  | .updateContext request => .flag <$> updateContext request
  | .deleteContext contextId => .flag <$> deleteContext build contextId
  | .purge contextId => .flag <$> purge build contextId
  | .addApp info => .flag <$> onRegistry (UeAppLcmProxy.addApp info)
  | .delApp info => .flag <$> onRegistry (UeAppLcmProxy.delApp info)

/-- A call that throws leaves the state it reached; one that stops ends the run. -/
def step (build : Build) (s : StaticUeAppLcmProxy rest) (call : Call rest) :
    Option (StaticUeAppLcmProxy rest) := (exec build call s).state?

def Reachable (build : Build) (s : StaticUeAppLcmProxy rest) : Prop :=
  Run.Reachable (step build) empty s

/-- The state a run from the empty proxy ends in, and its reachability. -/
def after (build : Build) (calls : List (Call rest)) (defined : (Run.run (step build) empty calls).isSome) :
    StaticUeAppLcmProxy rest := (Run.run (step build) empty calls).get defined

theorem after_reachable (build : Build) (calls : List (Call rest))
    (defined : (Run.run (step build) empty calls).isSome) : Reachable build (after build calls defined) :=
  ⟨calls,(Option.some_get defined).symm⟩

end StaticUeAppLcmProxy
end EtsiMec
