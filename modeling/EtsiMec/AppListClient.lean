import EtsiMec.ApiRoot
import EtsiMec.Registry
import EtsiMec.Exchange

/-! `AppListClient`, which reads the list of applications a proxy answers with. One element
that is not accepted makes the client lose the whole list; what is in a registry has been
accepted when it was built, so none is lost. -/
namespace EtsiMec

open Effect

namespace AppListClient

/-- The loop over the elements. -/
def decode (rest : Rest) : List Json → Except Exception (List (AppInfo rest))
  | [] => .ok []
  | elem :: others => do
    let info ← AppInfo.ofJson rest elem
    let infos ← decode rest others
    return info :: infos

/-- `operator()`. -/
def list (rest : Rest) (get : String → Except Exception (Nat × Json)) (theApiRoot : String) :
    Except Exception (List (AppInfo rest)) := do
  let ret ← get (listUri theApiRoot)
  match (ret.2.objectField? "ApplicationList").bind fun list => list.arrayField? "appInfo" with
  | some elements =>
    if ret.1 ≠ StatusCode.ok then
      throw (.runtimeError ("Invalid response from server: " ++ toString ret.1))
    else decode rest elements
  | none => throw (.runtimeError ("Invalid response from server: " ++ toString ret.1))

end AppListClient

def received (transport : Transport) (reply : Reply) : Nat × Json :=
  (reply.status,Exchange.bodyJson transport reply.body)

namespace AppListClient

variable {rest : Rest}

theorem decode_toJson (infos : List (AppInfo rest)) : decode rest (infos.map AppInfo.toJson) = .ok infos := by
  induction infos with
  | nil => rfl
  | cons info others ih =>
    rw [List.map_cons,decode,ih,AppInfo.toJson,AppInfo.ofJson_eq]
    rfl

/-- The client of a proxy is given the elements of its registry. -/
theorem list_elements (transport : Transport) (theApplications : Registry rest) (theApiRoot : String) :
    list rest (fun _ => .ok (received transport (UeAppLcmProxy.handleAppList theApplications))) theApiRoot =
      .ok (UeAppLcmProxy.elements theApplications) := by
  have encoded : theApplications.toList.map (fun elem => elem.2.toJson) =
      (UeAppLcmProxy.elements theApplications).map AppInfo.toJson := by
    rw [UeAppLcmProxy.elements,List.map_map]
    rfl
  rw [← decode_toJson,← encoded]
  rfl

structure SameInfo (info decoded : AppInfo rest) : Prop where
  message : decoded.message = info.message
  describes : decoded.Describes info.appName info.appProvider info.appSoftVersion info.appDescription
    info.appPackageSource

theorem SameInfo.refl (info : AppInfo rest) : SameInfo info info := ⟨rfl,rfl,rfl,rfl,rfl,rfl⟩

/-- The list of applications reaches the client: whatever has been added and removed, no
element is refused, and they come in the order of the keys with what describes them. -/
theorem appList_survives (transport : Transport) (calls : List (KeyedStore.Event (AppInfo rest)))
    (theApiRoot : String) : ∃ listed,
    list rest (fun _ => .ok (received transport (UeAppLcmProxy.handleAppList (UeAppLcmProxy.performAll calls))))
      theApiRoot = .ok listed ∧
    listed.length = (UeAppLcmProxy.performAll calls).size ∧
    List.Forall₂ (fun elem decoded => SameInfo elem.2 decoded) (UeAppLcmProxy.performAll calls).toList listed := by
  refine ⟨_,list_elements transport _ theApiRoot,?_,?_⟩
  · rw [UeAppLcmProxy.elements,List.length_map,Std.TreeMap.length_toList]
  · rw [UeAppLcmProxy.elements,List.forall₂_map_right_iff]
    exact List.forall₂_same.mpr fun elem _ => SameInfo.refl elem.2

/-! ## From the list to a context -/

/-- An element of the list is an application that exists. -/
theorem exists_of_listed {transport : Transport} {calls : List (KeyedStore.Event (AppInfo rest))}
    {theApiRoot : String} {listed : List (AppInfo rest)} {info : AppInfo rest}
    (answered : list rest (fun _ => .ok (received transport (UeAppLcmProxy.handleAppList
      (UeAppLcmProxy.performAll calls)))) theApiRoot = .ok listed)
    (member : info ∈ listed) {other : AppInfo rest}
    (same : UeAppLcmProxy.triple other = UeAppLcmProxy.triple info) :
    UeAppLcmProxy.appExists (UeAppLcmProxy.performAll calls) other = true := by
  rw [list_elements] at answered
  cases answered
  have found := (UeAppLcmProxy.mem_elements (UeAppLcmProxy.filed_performAll calls)).mp member
  rw [UeAppLcmProxy.stored] at found
  rw [UeAppLcmProxy.appExists_eq,UeAppLcmProxy.mangle_triple same,found]
  rfl

/-- The response says what was listed and requested, with the context ID and the URI given. -/
structure Keeps (info : AppInfo rest) (appPackageSource ueAppId callback contextId referenceUri : String)
    (response : AppContext rest) : Prop where
  describes : response.appInfo.Describes info.appName info.appProvider info.appSoftVersion
    info.appDescription appPackageSource
  associateUeAppId : response.associateUeAppId = ueAppId
  callbackReference : response.callbackReference = callback
  contextId : response.contextId = contextId
  referenceUri : response.appInfo.referenceUri = .ok referenceUri

structure Served (theApplications : Registry rest) (info : AppInfo rest)
    (appPackageSource ueAppId callback : String) (context : AppContext rest) : Prop where
  type : ∀ (σ : Type) (build : Build) (s : σ),
    (context.type build : Program σ Exception AppContext.Kind) s = .returned .request s
  appExists : UeAppLcmProxy.appExists theApplications context.appInfo = true
  makeResponse : ∀ contextId referenceUri, contextId ≠ "" → referenceUri ≠ "" → ∃ response,
    (∀ (σ : Type) (build : Build) (s : σ),
      (context.makeResponse build contextId referenceUri : Program σ Exception (AppContext rest)) s =
        .returned response s) ∧
    Keeps info appPackageSource ueAppId callback contextId referenceUri response

/-- A request with the names of an application that exists is served. -/
theorem served_of_request {theApplications : Registry rest} {info requested : AppInfo rest}
    {appPackageSource ueAppId callback : String} {context : AppContext rest}
    (describes : requested.Describes info.appName info.appProvider info.appSoftVersion info.appDescription
      appPackageSource)
    (known : UeAppLcmProxy.appExists theApplications requested = true)
    (made : AppContext.ofRequest rest ueAppId callback requested = .ok context) :
    Served theApplications info appPackageSource ueAppId callback context := by
  obtain ⟨proper,ueApp,callbackReference,inner⟩ := AppContext.ofRequest_proper made
  refine ⟨?_,by rwa [inner],?_⟩
  · intro σ build s
    exact AppContext.type_returned.mpr ⟨fun _ => proper.consistent,proper.1.symm,rfl⟩
  · intro contextId referenceUri named routed
    obtain ⟨response,answers,computes⟩ := AppContext.makeResponse_proper proper named routed
    refine ⟨response,computes,?_,answers.associateUeAppId.trans ueApp,
      answers.callbackReference.trans callbackReference,answers.contextId,answers.referenceUri⟩
    have carried := AppInfo.makeAppContextResponse_describes
      (AppContext.makeResponse_info (computes Unit .debug ()))
    rw [inner] at carried
    exact ⟨carried.appName.trans describes.appName,carried.appProvider.trans describes.appProvider,
      carried.appSoftVersion.trans describes.appSoftVersion,
      carried.appDescription.trans describes.appDescription,
      carried.appPackageSource.trans describes.appPackageSource⟩

/-- An application of the list can be requested: its context is built, is accepted by the
proxy as a request for an application that exists, and its response keeps what it says. -/
theorem listed_requestable (transport : Transport) (calls : List (KeyedStore.Event (AppInfo rest)))
    (theApiRoot : String) (listed : List (AppInfo rest)) (info : AppInfo rest)
    (answered : list rest (fun _ => .ok (received transport (UeAppLcmProxy.handleAppList
      (UeAppLcmProxy.performAll calls)))) theApiRoot = .ok listed)
    (member : info ∈ listed) (message : info.message = .applicationList)
    (appPackageSource ueAppId callback : String) (filled : ueAppId ≠ "") :
    ∃ requested context decoded, info.makeAppContextRequest appPackageSource = .ok requested ∧
      AppContext.ofRequest rest ueAppId callback requested = .ok context ∧
      AppContext.ofJson rest context.toJson = .ok decoded ∧
      Served (UeAppLcmProxy.performAll calls) info appPackageSource ueAppId callback decoded := by
  obtain ⟨requested,made,request,describes⟩ := AppInfo.makeAppContextRequest_ok message appPackageSource
  let object := AppContext.fields rest "" ueAppId callback requested
  let context : AppContext rest := ⟨object,AppContext.fields_accepted filled⟩
  have built : AppContext.ofRequest rest ueAppId callback requested = .ok context :=
    AppContext.make_ok.mpr ⟨by simp,filled,fun _ => request,by simp,rfl⟩
  have known : UeAppLcmProxy.appExists (UeAppLcmProxy.performAll calls) requested = true := by
    apply exists_of_listed answered member
    simp [UeAppLcmProxy.triple,describes.appName,describes.appProvider,describes.appSoftVersion]
  exact ⟨requested,context,context,made,built,AppContext.ofJson_eq context,
    served_of_request describes known built⟩

def sampleApp : AppInfo Rest.plain :=
  ⟨AppInfo.listObject Rest.plain "app" "provider" "1" "" (AppCharcs.none Rest.plain),
    AppInfo.listObject_accepted (by decide) _⟩

theorem sampleApp_message : sampleApp.message = .applicationList := by decide

theorem sampleApp_listed :
    sampleApp ∈ UeAppLcmProxy.elements (UeAppLcmProxy.performAll [.put sampleApp]) := by
  rw [UeAppLcmProxy.mem_elements (UeAppLcmProxy.filed_performAll _)]
  simp [UeAppLcmProxy.stored,UeAppLcmProxy.performAll,UeAppLcmProxy.perform]

theorem sampleApp_requestable : ∃ requested context decoded,
    sampleApp.makeAppContextRequest "docker://app" = .ok requested ∧
    AppContext.ofRequest Rest.plain "ue" "http://ue:1234" requested = .ok context ∧
    AppContext.ofJson Rest.plain context.toJson = .ok decoded ∧
    Served (UeAppLcmProxy.performAll [.put sampleApp]) sampleApp "docker://app" "ue" "http://ue:1234" decoded :=
  listed_requestable Transport.plain [.put sampleApp] "http://localhost" _ sampleApp
    (list_elements Transport.plain _ _) sampleApp_listed sampleApp_message _ _ _ (by decide)

end AppListClient
end EtsiMec
