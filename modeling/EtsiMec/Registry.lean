import EtsiMec.UeAppLcmProxy
import EtsiMec.Library.KeyedStore
import EtsiMec.Library.Separator

/-! The registry of applications against its purpose, a map keyed by the name, the
provider and the version of an application. It is filed under one string made of the
three, so it is such a map exactly while nothing is added under a string that the
fields of another application also make. -/
namespace EtsiMec.UeAppLcmProxy

open KeyedStore (Event)

abbrev Triple := String × String × String

def triple (info : AppInfo rest) : Triple := (info.appName,info.appProvider,info.appSoftVersion)

theorem triple_requested {appName appProvider appSoftVersion appDescription appPackageSource : String}
    (limits : AppInfo.Limits appName appProvider appSoftVersion appDescription) :
    triple (AppInfo.requested rest limits appPackageSource) = (appName,appProvider,appSoftVersion) := by
  simpa [triple] using AppInfo.requested_names limits

theorem mangle_triple {a b : AppInfo rest} (same : triple a = triple b) : mangle a = mangle b := by
  simp only [triple,Prod.mk.injEq] at same
  simp [mangle,same]

/-- One call of `addApp` (`put`) or of `delApp` (`drop`). -/
def perform (theApplications : Registry rest) : Event (AppInfo rest) → Registry rest × Bool
  | .put info => addApp info theApplications
  | .drop info => delApp info theApplications

def performAll (calls : List (Event (AppInfo rest))) : Registry rest :=
  calls.foldl (fun theApplications call => (perform theApplications call).1) ∅

theorem performAll_snoc (calls : List (Event (AppInfo rest))) (call : Event (AppInfo rest)) :
    performAll (calls ++ [call]) = (perform (performAll calls) call).1 := by
  simp [performAll]

/-! ## The registry as a keyed store -/

def stored (theApplications : Registry rest) (key : String) : Option (AppInfo rest) :=
  theApplications[key]?

theorem stored_perform (theApplications : Registry rest) (call : Event (AppInfo rest)) :
    stored (perform theApplications call).1 = KeyedStore.apply mangle (stored theApplications) call := by
  funext key
  cases call with
  | put info => simp [stored,perform,KeyedStore.apply,Function.update_apply]
  | drop info => simp [stored,perform,KeyedStore.apply,Function.update_apply]

theorem stored_performAll (calls : List (Event (AppInfo rest))) :
    stored (performAll calls) = calls.foldl (KeyedStore.apply mangle) fun _ => none := by
  induction calls using List.reverseRecOn with
  | nil => funext key; exact Std.TreeMap.getElem?_emptyc
  | append_singleton calls call ih => rw [performAll_snoc,stored_perform,ih,List.foldl_append]; rfl

def Filed (theApplications : Registry rest) : Prop :=
  ∀ key info, theApplications[key]? = some info → key = mangle info

theorem filed_perform {theApplications : Registry rest} (filed : Filed theApplications)
    (call : Event (AppInfo rest)) : Filed (perform theApplications call).1 := by
  intro key info found
  cases call with
  | put added =>
    simp only [perform,addApp_find] at found
    split at found
    · rename_i same; cases found; exact same
    · exact filed key info found
  | drop dropped =>
    simp only [perform,delApp_find] at found
    split at found
    · contradiction
    · exact filed key info found

theorem filed_performAll (calls : List (Event (AppInfo rest))) : Filed (performAll calls) := by
  induction calls using List.reverseRecOn with
  | nil =>
    intro key info found
    exact absurd (Std.TreeMap.getElem?_emptyc.symm.trans found) (by simp)
  | append_singleton calls call ih => rw [performAll_snoc]; exact filed_perform ih call

/-! ## The registry as a map keyed by the triple -/

def Present (calls : List (Event (AppInfo rest))) (t : Triple) : Prop :=
  ∃ before info after, calls = before ++ .put info :: after ∧ triple info = t ∧
    ∀ other, .drop other ∈ after → triple other ≠ t

def LastAdded (calls : List (Event (AppInfo rest))) (info : AppInfo rest) : Prop :=
  ∃ before after, calls = before ++ .put info :: after ∧
    ∀ call ∈ after, triple call.item ≠ triple info

theorem present_iff {calls : List (Event (AppInfo rest))} {t : Triple} :
    Present calls t ↔ (KeyedStore.latest triple calls t).isSome :=
  (KeyedStore.latest_isSome triple).symm

theorem lastAdded_iff {calls : List (Event (AppInfo rest))} {info : AppInfo rest} :
    LastAdded calls info ↔ KeyedStore.latest triple calls (triple info) = some info := by
  rw [KeyedStore.latest_eq_some]
  simp [LastAdded]

/-- What the operations answer after the calls, if the triple identifies an application. -/
structure KeyedByTriple (calls : List (Event (AppInfo rest))) (theApplications : Registry rest) :
    Prop where
  appExists : ∀ info, appExists theApplications info = true ↔ Present calls (triple info)
  addApp : ∀ info, (addApp info theApplications).2 = true ↔ ¬Present calls (triple info)
  delApp : ∀ info, (delApp info theApplications).2 = true ↔ Present calls (triple info)
  appList : ∃ elements : List (AppInfo rest),
    handleAppList theApplications = ⟨StatusCode.ok,.json (Json.null.set "ApplicationList"
      (Json.empty.set "appInfo" (.array (elements.map AppInfo.toJson))))⟩ ∧
    (elements.map triple).Nodup ∧ (∀ t, t ∈ elements.map triple ↔ Present calls t) ∧
    ∀ info ∈ elements, LastAdded calls info

def elements (theApplications : Registry rest) : List (AppInfo rest) :=
  theApplications.toList.map fun elem => elem.2

theorem mem_elements {theApplications : Registry rest} (filed : Filed theApplications)
    {info : AppInfo rest} :
    info ∈ elements theApplications ↔ stored theApplications (mangle info) = some info := by
  simp only [elements,List.mem_map,Prod.exists,exists_eq_right,stored]
  constructor
  · rintro ⟨key,member⟩
    have found := Std.TreeMap.mem_toList_iff_getElem?_eq_some.mp member
    rwa [filed key info found] at found
  · intro found
    exact ⟨mangle info,Std.TreeMap.mem_toList_iff_getElem?_eq_some.mpr found⟩

theorem elements_keys_nodup {theApplications : Registry rest} (filed : Filed theApplications) :
    ((elements theApplications).map mangle).Nodup := by
  have keys : (elements theApplications).map mangle = theApplications.toList.map fun elem => elem.1 := by
    rw [elements,List.map_map]
    apply List.map_congr_left
    intro elem member
    exact (filed elem.1 elem.2 (Std.TreeMap.mem_toList_iff_getElem?_eq_some.mp member)).symm
  rw [keys,List.Nodup,List.pairwise_map]
  exact Std.TreeMap.distinct_keys_toList.imp fun different same =>
    different (Std.LawfulEqCmp.compare_eq_iff_eq.mpr same)

/-- The list shows its elements: they can be read off the reply. -/
theorem handleAppList_elements {theApplications : Registry rest} {listed : List (AppInfo rest)}
    (same : handleAppList theApplications = ⟨StatusCode.ok,.json (Json.null.set "ApplicationList"
      (Json.empty.set "appInfo" (.array (listed.map AppInfo.toJson))))⟩) :
    listed = elements theApplications := by
  have arrays : theApplications.toList.map (fun elem => elem.2.toJson) = listed.map AppInfo.toJson := by
    simpa [handleAppList,applicationList,Json.set,Json.setField,Json.empty] using same
  have injective : Function.Injective (AppInfo.toJson : AppInfo rest → Json) := fun a b => AppInfo.ext
  apply List.map_injective_iff.mpr injective
  rw [← arrays,elements,List.map_map]
  rfl

theorem keyedByTriple_of_exact {calls : List (Event (AppInfo rest))} {theApplications : Registry rest}
    (filed : Filed theApplications)
    (exact : KeyedStore.Exact triple mangle calls (stored theApplications)) :
    KeyedByTriple calls theApplications := by
  have present : ∀ info, UeAppLcmProxy.appExists theApplications info = true ↔
      Present calls (triple info) := by
    intro info
    rw [appExists_eq,present_iff,← exact info]
    rfl
  refine ⟨present,?_,?_,elements theApplications,?_,?_,?_,?_⟩
  · intro info
    rw [addApp_flag,← present info]
    simp
  · intro info
    rw [delApp_flag,present info]
  · simp [handleAppList,applicationList,elements,Function.comp_def]
  · rw [List.Nodup,List.pairwise_map]
    exact (List.pairwise_map.mp (elements_keys_nodup filed)).imp
      fun different same => different (mangle_triple same)
  · intro t
    rw [present_iff,Option.isSome_iff_exists,List.mem_map]
    constructor
    · rintro ⟨info,member,rfl⟩
      exact ⟨info,(exact info).symm.trans ((mem_elements filed).mp member)⟩
    · rintro ⟨info,found⟩
      have here := KeyedStore.latest_ident triple found
      subst here
      exact ⟨info,(mem_elements filed).mpr ((exact info).trans found),rfl⟩
  · intro info member
    exact lastAdded_iff.mpr ((exact info).symm.trans ((mem_elements filed).mp member))

theorem exact_of_keyedByTriple {calls : List (Event (AppInfo rest))} {theApplications : Registry rest}
    (filed : Filed theApplications) (keyed : KeyedByTriple calls theApplications) :
    KeyedStore.Exact triple mangle calls (stored theApplications) := by
  intro info
  obtain ⟨listed,reply,_,triples,last⟩ := keyed.appList
  cases handleAppList_elements reply
  have present := keyed.appExists info
  rw [appExists_eq] at present
  change (stored theApplications (mangle info)).isSome = true ↔ _ at present
  cases found : stored theApplications (mangle info) with
  | none =>
    rw [found,present_iff] at present
    exact (Option.not_isSome_iff_eq_none.mp (by simpa using present)).symm
  | some value =>
    obtain ⟨element,member,same⟩ := List.mem_map.mp
      ((triples (triple info)).mpr (present.mp (by rw [found]; rfl)))
    have there := (mem_elements filed).mp member
    rw [mangle_triple same,found] at there
    cases there
    rw [← same]
    exact (lastAdded_iff.mp (last value member)).symm

/-- The registry is a map keyed by the triple throughout a sequence of calls if and only
if no application is added whose string the fields of another one also make. -/
theorem keyed_by_triple_iff (calls : List (Event (AppInfo rest))) :
    (∀ front back, calls = front ++ back → KeyedByTriple front (performAll front)) ↔
      ∀ info, .put info ∈ calls → ∀ other : AppInfo rest, mangle other = mangle info →
        triple other = triple info := by
  refine Iff.trans ?_ (KeyedStore.exact_throughout (fun _ _ => mangle_triple) calls)
  have same : ∀ front : List (Event (AppInfo rest)), KeyedByTriple front (performAll front) ↔
      KeyedStore.Exact triple mangle front (front.foldl (KeyedStore.apply mangle) fun _ => none) := by
    intro front
    rw [← stored_performAll]
    exact ⟨exact_of_keyedByTriple (filed_performAll front),
      keyedByTriple_of_exact (filed_performAll front)⟩
  simp only [same]

/-- Fields without the separator make a string of their own. -/
theorem unambiguous_of_no_separator {info : AppInfo rest} (name : '+' ∉ info.appName.toList)
    (provider : '+' ∉ info.appProvider.toList) (version : '+' ∉ info.appSoftVersion.toList) :
    KeyedStore.Unambiguous triple mangle info := by
  intro other same
  have chars := congrArg String.toList same
  have separator : "+".toList = ['+'] := by decide
  simp only [mangle,String.toList_append,separator] at chars
  -- two separators in all, so the other fields hold none either
  have counts := congrArg (List.count '+') chars
  simp only [List.count_append,List.count_singleton_self,List.count_eq_zero_of_not_mem name,
    List.count_eq_zero_of_not_mem provider,List.count_eq_zero_of_not_mem version] at counts
  have name' : '+' ∉ other.appName.toList := List.count_eq_zero.mp (by omega)
  have provider' : '+' ∉ other.appProvider.toList := List.count_eq_zero.mp (by omega)
  simp only [List.append_assoc,List.singleton_append] at chars
  obtain ⟨names,rest⟩ := Separator.joined_inj name' name chars
  obtain ⟨providers,versions⟩ := Separator.joined_inj provider' provider rest
  simp [triple,String.toList_inj.mp names,String.toList_inj.mp providers,String.toList_inj.mp versions]

/-! Two applications that make the same string, `a+b+c+v`. -/

def shortProvider : AppInfo Rest.plain :=
  AppInfo.requested _ (by decide : AppInfo.Limits "a+b" "c" "v" "") ""

def longProvider : AppInfo Rest.plain :=
  AppInfo.requested _ (by decide : AppInfo.Limits "a" "b+c" "v" "") ""

theorem absent_application_exists :
    appExists (performAll [.put shortProvider]) longProvider = true ∧
      ¬Present [.put shortProvider] (triple longProvider) := by
  have short : triple shortProvider = ("a+b","c","v") := triple_requested _
  have long : triple longProvider = ("a","b+c","v") := triple_requested _
  have same : mangle longProvider = mangle shortProvider := by
    simp only [triple,Prod.mk.injEq] at short long
    simp only [mangle,short,long]
    decide
  constructor
  · simp [appExists_eq,performAll,perform,same]
  · rintro ⟨before,info,after,split,here,_⟩
    rcases before with _ | ⟨call,before⟩
    · cases List.head_eq_of_cons_eq split
      rw [short,long] at here
      exact absurd here (by decide)
    · simp at split

end EtsiMec.UeAppLcmProxy
