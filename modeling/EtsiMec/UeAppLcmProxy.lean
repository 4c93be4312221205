import EtsiMec.AppContext

/-! `UeAppLcmProxy`: the registry of applications and the REST handlers. The handlers
call the operations on contexts that a derived class implements, here parameters. -/
namespace EtsiMec

open Effect

/-- `theApplications`, a `std::map`: iteration is in the order of the keys. -/
abbrev Registry (rest : Rest) := Std.TreeMap String (AppInfo rest)

/-- What a handler reads of a request. A body that does not parse throws. -/
structure HttpRequest where
  remoteAddress : String
  path : String
  body : Except Exception Json

/-- A `ProblemDetails` is kept as the status and the detail it is built from. -/
inductive ReplyBody where
  | none
  | json (value : Json)
  | problemDetails (status : Nat) (detail : String)

structure Reply where
  status : Nat
  body : ReplyBody

namespace StatusCode

def ok : Nat := 200
def created : Nat := 201
def noContent : Nat := 204
def unauthorized : Nat := 401
def forbidden : Nat := 403

end StatusCode

namespace UeAppLcmProxy

def mangle (info : AppInfo rest) : String :=
  info.appName ++ "+" ++ info.appProvider ++ "+" ++ info.appSoftVersion

/-- The flag is true if the application was added, false if it was updated. -/
def addApp (info : AppInfo rest) (theApplications : Registry rest) : Registry rest × Bool :=
  let key := mangle info
  if theApplications.contains key
  then (theApplications.insert key info,false) else (theApplications.insert key info,true)

def delApp (info : AppInfo rest) (theApplications : Registry rest) : Registry rest × Bool :=
  let key := mangle info
  (theApplications.erase key,theApplications.contains key)

def appExists (theApplications : Registry rest) (info : AppInfo rest) : Bool :=
  theApplications.contains (mangle info)

section Registry
variable {theApplications : Registry rest} {info : AppInfo rest}

theorem appExists_eq : appExists theApplications info = theApplications[mangle info]?.isSome :=
  Std.TreeMap.contains_eq_isSome_getElem?

@[simp] theorem addApp_find (key : String) :
    (addApp info theApplications).1[key]? =
      if key = mangle info then some info else theApplications[key]? := by
  have inserted : (addApp info theApplications).1 = theApplications.insert (mangle info) info := by
    simp only [addApp]
    split <;> rfl
  rw [inserted,Std.TreeMap.getElem?_insert]
  simp only [Std.LawfulEqCmp.compare_eq_iff_eq,@eq_comm _ key]

@[simp] theorem delApp_find (key : String) :
    (delApp info theApplications).1[key]? =
      if key = mangle info then none else theApplications[key]? := by
  rw [delApp,Std.TreeMap.getElem?_erase]
  simp only [Std.LawfulEqCmp.compare_eq_iff_eq,@eq_comm _ key]

theorem addApp_flag : (addApp info theApplications).2 = !appExists theApplications info := by
  cases present : theApplications.contains (mangle info) <;>
    simp only [addApp,appExists,present] <;> rfl

theorem delApp_flag : (delApp info theApplications).2 = appExists theApplications info := rfl

end Registry

/-! ## Handlers -/

/-- `ApplicationList(map)`: the values of the map, its keys are ignored. -/
def applicationList (theApplications : Registry rest) : Json :=
  Json.empty.set "appInfo" (.array (theApplications.toList.map fun elem => elem.2.toJson))

def handleAppList (theApplications : Registry rest) : Reply :=
  ⟨StatusCode.ok,.json (Json.null.set "ApplicationList" (applicationList theApplications))⟩

def refuse (detail : String) : Reply :=
  ⟨StatusCode.forbidden,.problemDetails StatusCode.forbidden detail⟩

section
variable {σ : Type} (build : Build)

/-- What the handler of creations answers to the structure `createContext` returned. -/
def answerCreate (response : AppContext rest) : Program σ Exception Reply := do
  let kind ← response.type build
  if kind = .response then do
    Program.assert build.asserts (response.contextId != "")
    if build.asserts then do
      let uri ← Program.lift response.appInfo.referenceUri
      Program.assert build.asserts (uri != "")
    return ⟨StatusCode.created,.json response.toJson⟩
  else
    return refuse ("Could not create the requested UE application context because of the " ++
      "current status of the mobile edge system")

def handleContextCreate (createContext : String → AppContext rest → Program σ Exception (AppContext rest))
    (request : HttpRequest) : Program σ Exception Reply := do
  let json ← Program.lift request.body
  let context ← Program.lift (AppContext.ofJson rest json)
  let response ← createContext request.remoteAddress context
  answerCreate build response

def handleContextUpdate (updateContext : AppContext rest → Program σ Exception Bool)
    (request : HttpRequest) : Program σ Exception Reply := do
  let json ← Program.lift request.body
  let context ← Program.lift (AppContext.ofJson rest json)
  if ← updateContext context
  then return ⟨StatusCode.noContent,.none⟩
  else return refuse "Unknown or invalid UE application context"

def contextsPrefix : String := "app_contexts/"

/-- `path.erase(0, prefix.size())`: the prefix is only asserted to be there. -/
def erasePrefix (path : String) : String := String.ofList (path.toList.drop contextsPrefix.length)

def handleContextDelete (deleteContext : String → Program σ Exception Bool)
    (request : HttpRequest) : Program σ Exception Reply := do
  Program.assert build.asserts (contextsPrefix.toList.isPrefixOf request.path.toList)
  if ← deleteContext (erasePrefix request.path)
  then return ⟨StatusCode.noContent,.none⟩
  else return refuse "Unknown UE application context"

end

theorem readOnly_answerCreate (build : Build) (response : AppContext rest) :
    Program.ReadOnly (answerCreate build response : Program σ Exception Reply) := by
  refine Program.readOnly_bind (AppContext.readOnly_type _ _) fun kind => ?_
  split
  · refine Program.readOnly_bind (Program.readOnly_assert _ _) fun _ => ?_
    split
    · exact Program.readOnly_bind (Program.readOnly_lift _) fun _ =>
        Program.readOnly_bind (Program.readOnly_assert _ _) fun _ => Program.readOnly_pure _
    · exact Program.readOnly_pure _
  · exact Program.readOnly_pure _

/-- Acceptance is read off the structure: a refusal is told by a missing context ID. -/
theorem answerCreate_release (response : AppContext rest) (s : σ) :
    answerCreate .release response s = .returned (if response.kind = .response
      then ⟨StatusCode.created,.json response.toJson⟩
      else refuse ("Could not create the requested UE application context because of the " ++
        "current status of the mobile edge system")) s := by
  have typed : (response.type .release : Program σ Exception AppContext.Kind) s =
      .returned response.kind s := AppContext.type_returned.mpr ⟨by simp,rfl,rfl⟩
  rw [answerCreate,Program.bind_returned _ typed]
  split
  · rfl
  · rfl

/-- A request that is handed back is refused in every build. -/
theorem answerCreate_proper (build : Build) {context : AppContext rest} (proper : context.Proper) (s : σ) :
    ∃ detail, answerCreate build context s = .returned (refuse detail) s := by
  have typed : (context.type build : Program σ Exception AppContext.Kind) s = .returned .request s :=
    AppContext.type_returned.mpr ⟨fun _ => proper.consistent,proper.1.symm,rfl⟩
  exact ⟨_,by rw [answerCreate,Program.bind_returned _ typed]; rfl⟩

/-- A response that answers a request is accepted in every build. -/
theorem answerCreate_answers (build : Build) {context response : AppContext rest} {contextId uri : String}
    (answers : context.Answers response contextId uri) (named : contextId ≠ "") (filled : uri ≠ "") (s : σ) :
    answerCreate build response s = .returned ⟨StatusCode.created,.json response.toJson⟩ s := by
  have typed : (response.type build : Program σ Exception AppContext.Kind) s = .returned .response s :=
    AppContext.type_returned.mpr ⟨fun _ => answers.consistent,answers.kind.symm,rfl⟩
  rw [answerCreate,Program.bind_returned _ typed]
  cases build with
  | release => rfl
  | debug =>
    have idGiven : (contextId != "") = true := by simp [named]
    have uriGiven : (uri != "") = true := by simp [filled]
    simp only [answers.contextId,answers.referenceUri,idGiven,uriGiven,Build.asserts_debug,
      Program.assert_true,Program.lift_ok,if_true,Program.pure_bind_apply]
    rfl

/-- A path built from a context ID is read back as that ID. -/
theorem erasePrefix_append (contextId : String) : erasePrefix (contextsPrefix ++ contextId) = contextId := by
  have length : contextsPrefix.toList.length = contextsPrefix.length := rfl
  rw [erasePrefix,String.toList_append,← length,List.drop_left,String.ofList_toList]

end UeAppLcmProxy
end EtsiMec
