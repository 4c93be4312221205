import EtsiMec.AppContextManager

/-! The URIs that are built from the API root of a proxy: by its server, by the client of
the application list and by the managers. Only the client strips the slashes the root
ends with. -/
namespace EtsiMec

namespace UeAppLcmProxy

def theApiName : String := "mx2"
def theApiVersion : String := "v1"

end UeAppLcmProxy

def popSlashes (ret : List Char) : List Char :=
  if 0 < ret.length ∧ ret.getLast? = some '/' then popSlashes ret.dropLast else ret
termination_by ret.length
decreasing_by
  rename_i slash
  rw [List.length_dropLast]
  omega

def removeTrailingSlashes (value : String) : String := String.ofList (popSlashes value.toList)

def mx2root (apiRoot : String) : String :=
  removeTrailingSlashes apiRoot ++ "/" ++ UeAppLcmProxy.theApiName ++ "/" ++ UeAppLcmProxy.theApiVersion

/-- What `EtsiMecServer` hands to the server it is built on. -/
def etsiMecServer (apiRoot apiName apiVersion : String) : String :=
  apiRoot ++ "/" ++ apiName ++ "/" ++ apiVersion ++ "/"

def UeAppLcmProxy.serverUri (apiRoot : String) : String := etsiMecServer apiRoot theApiName theApiVersion

def AppListClient.listUri (theApiRoot : String) : String := mx2root theApiRoot ++ "/app_list"

namespace AppContextManager

def creationUri (m : AppContextManager) : String := m.theProxyUri ++ "/mx2/v1/app_contexts"

def deletionUri (m : AppContextManager) (contextId : String) : String :=
  m.theProxyUri ++ "/mx2/v1/app_contexts/" ++ contextId

end AppContextManager

theorem popSlashes_eq (ret : List Char) : popSlashes ret = ret.rdropWhile (· == '/') := by
  induction ret using List.reverseRecOn with
  | nil => simp [popSlashes]
  | append_singleton front last ih =>
    rw [popSlashes,List.rdropWhile_concat]
    by_cases slash : last = '/'
    · simp [slash,ih]
    · simp [slash]

def Slashed (apiRoot : String) : Prop := apiRoot.toList.getLast? = some '/'

instance (apiRoot : String) : Decidable (Slashed apiRoot) := inferInstanceAs (Decidable (_ = _))

theorem removeTrailingSlashes_eq {apiRoot : String} :
    removeTrailingSlashes apiRoot = apiRoot ↔ ¬Slashed apiRoot := by
  rw [removeTrailingSlashes,← String.toList_inj,String.toList_ofList,popSlashes_eq,List.rdropWhile_eq_self_iff,
    Slashed]
  rcases List.eq_nil_or_concat' apiRoot.toList with empty | ⟨front,last,split⟩
  · simp [empty]
  · simp [split]

theorem serverUri_eq (apiRoot : String) : UeAppLcmProxy.serverUri apiRoot = apiRoot ++ "/mx2/v1/" := by
  simp only [UeAppLcmProxy.serverUri,etsiMecServer,String.append_assoc]
  rfl

theorem mx2root_slash (apiRoot : String) :
    mx2root apiRoot ++ "/" = removeTrailingSlashes apiRoot ++ "/mx2/v1/" := by
  simp only [mx2root,String.append_assoc]
  rfl

/-- One base for the server, the list client and the managers. -/
structure SameBase (apiRoot base : String) : Prop where
  server : UeAppLcmProxy.serverUri apiRoot = base
  client : mx2root apiRoot ++ "/" = base
  list : AppListClient.listUri apiRoot = base ++ "app_list"
  creation : ∀ m : AppContextManager, m.theProxyUri = apiRoot → m.creationUri = base ++ "app_contexts"
  deletion : ∀ m : AppContextManager, m.theProxyUri = apiRoot → ∀ contextId,
    m.deletionUri contextId = base ++ "app_contexts/" ++ contextId

/-- The server and the managers agree on a base whatever the root is. -/
theorem manager_base (m : AppContextManager) :
    m.creationUri = UeAppLcmProxy.serverUri m.theProxyUri ++ "app_contexts" ∧
      ∀ contextId, m.deletionUri contextId = UeAppLcmProxy.serverUri m.theProxyUri ++ "app_contexts/" ++ contextId := by
  rw [serverUri_eq]
  refine ⟨?_,fun contextId => ?_⟩
  · rw [AppContextManager.creationUri,String.append_assoc]
    rfl
  · have path : "/mx2/v1/app_contexts/" = "/mx2/v1/" ++ "app_contexts/" := rfl
    rw [AppContextManager.deletionUri,path]
    simp only [String.append_assoc]

theorem SameBase.clear {apiRoot base : String} (same : SameBase apiRoot base) : ¬Slashed apiRoot := by
  have bases := same.client.trans same.server.symm
  rw [mx2root_slash,serverUri_eq] at bases
  exact removeTrailingSlashes_eq.mp ((String.append_left_inj _).mp bases)

/-- The list client agrees with them on exactly the roots that end in no slash. -/
theorem same_base_iff (apiRoot : String) : (∃ base, SameBase apiRoot base) ↔ ¬Slashed apiRoot := by
  constructor
  · rintro ⟨base,same⟩
    exact same.clear
  · intro unslashed
    have clear := removeTrailingSlashes_eq.mpr unslashed
    refine ⟨UeAppLcmProxy.serverUri apiRoot,rfl,?_,?_,?_,?_⟩
    · rw [mx2root_slash,serverUri_eq,clear]
    · rw [AppListClient.listUri,serverUri_eq,mx2root,clear]
      simp only [String.append_assoc]
      rfl
    · rintro m rfl
      exact (manager_base m).1
    · rintro m rfl
      exact (manager_base m).2

theorem slashed_root_differs : ¬∃ base, SameBase "http://127.0.0.1:6500/" base := by
  rintro ⟨base,same⟩
  exact same.clear (by decide)

end EtsiMec
