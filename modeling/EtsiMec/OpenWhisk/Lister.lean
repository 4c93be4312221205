import EtsiMec.OpenWhisk.Action
import EtsiMec.UeAppLcmProxy

/-! The commands of an OpenWhisk server, and the one that lists its actions. The answer is
checked element by element while the map is filled; the first element that lacks a
mandatory field ends the command. -/
namespace EtsiMec.OpenWhisk

structure Command where
  theApiRoot : String
  thePath : String
  theAuth : String

def Command.make (apiRoot auth : String) : Except Exception Command :=
  if apiRoot = "" then .error (.runtimeError "Invalid empty OpenWhisk API root")
  else if auth = "" then .error (.runtimeError "Invalid empty OpenWhisk auth token")
  else .ok ⟨apiRoot,"/api/v1/namespaces/","Basic " ++ auth⟩

namespace Lister

def WellFormed (elem : Json) : Prop :=
  (∃ fields, elem = .object fields) ∧ elem.hasStringField "name" = true ∧
    elem.hasStringField "namespace" = true ∧ elem.hasNumberField "updated" = true ∧
    elem.hasStringField "version" = true

section
variable (toUint64 : Number → UInt64)

def action? (elem : Json) : Option Action := do
  let name ← elem.stringField? "name"
  let space ← elem.stringField? "namespace"
  let updated ← elem.numberField? "updated"
  let version ← elem.stringField? "version"
  return ⟨space,name,toUint64 updated,version⟩

def collect : List Json → ActionMap → Except Exception ActionMap
  | [], ret => .ok ret
  | elem :: rest, ret =>
    match action? toUint64 elem with
    | none => .error (.runtimeError "unexpected response: mandatory field missing")
    | some action => collect rest (ret.insertIfNew action.key action)

def makeQuery (limit skip : Nat) : String :=
  "limit=" ++ toString limit ++ "&skip=" ++ toString skip

/-- `operator()`. The client is given the root, the token, the path and the query. -/
def list (get : String → String → String → String → Except Exception (Nat × Json)) (command : Command)
    (limit skip : Nat) : Except Exception ActionMap := do
  let res ← get command.theApiRoot command.theAuth (command.thePath ++ "_/actions/") (makeQuery limit skip)
  if res.1 ≠ StatusCode.ok then
    throw (.runtimeError ("unexpected HTTP response: " ++ toString res.1))
  else match res.2 with
    | .array elements => collect toUint64 elements ∅
    | _ => throw (.runtimeError "unexpected response: not an array")

end

variable {toUint64 : Number → UInt64} {elements : List Json} {actions : ActionMap}

def Names (elem : Json) (key : ActionKey) : Prop :=
  elem.stringField? "namespace" = some key.theSpace ∧ elem.stringField? "name" = some key.theName

theorem action?_eq_some {elem : Json} {action : Action} : action? toUint64 elem = some action ↔
    Names elem action.key ∧ elem.stringField? "version" = some action.theVersion ∧
      ∃ updated, elem.numberField? "updated" = some updated ∧ action.theUpdated = toUint64 updated := by
  obtain ⟨space,name,updated,version⟩ := action
  simp only [action?,Names,Action.key,Option.bind_eq_bind,Option.bind_eq_some_iff,Option.pure_def,
    Option.some.injEq,Action.mk.injEq]
  constructor
  · rintro ⟨_,names,_,spaces,number,updates,_,versions,rfl,rfl,rfl,rfl⟩
    exact ⟨⟨spaces,names⟩,versions,number,updates,rfl⟩
  · rintro ⟨⟨spaces,names⟩,versions,number,updates,rfl⟩
    exact ⟨_,names,_,spaces,number,updates,_,versions,rfl,rfl,rfl,rfl⟩

theorem action?_isSome {elem : Json} : (action? toUint64 elem).isSome = true ↔ WellFormed elem := by
  constructor
  · intro read
    obtain ⟨action,found⟩ := Option.isSome_iff_exists.mp read
    obtain ⟨⟨space,name⟩,version,number,updated,_⟩ := action?_eq_some.mp found
    refine ⟨?_,by simp [Json.hasStringField,name],by simp [Json.hasStringField,space],
      by simp [Json.hasNumberField,updated],by simp [Json.hasStringField,version]⟩
    cases elem with
    | object fields => exact ⟨fields,rfl⟩
    | _ => simp [Json.stringField?,Json.field?] at name
  · rintro ⟨_,name,space,updated,version⟩
    obtain ⟨_,name⟩ := Option.isSome_iff_exists.mp name
    obtain ⟨_,space⟩ := Option.isSome_iff_exists.mp space
    obtain ⟨_,updated⟩ := Option.isSome_iff_exists.mp updated
    obtain ⟨_,version⟩ := Option.isSome_iff_exists.mp version
    simp [action?,name,space,updated,version]

/-- The loop ends without an exception if every element is well formed, and has then
inserted the action of each. -/
theorem collect_ok {ret : ActionMap} : collect toUint64 elements ret = .ok actions ↔
    (∀ elem ∈ elements, WellFormed elem) ∧
      actions = OrderedMap.fill Action.key ret (elements.filterMap (action? toUint64)) := by
  induction elements generalizing ret with
  | nil => simp [collect,OrderedMap.fill,eq_comm]
  | cons elem rest ih =>
    rw [collect]
    cases read : action? toUint64 elem with
    | none =>
      have malformed : ¬WellFormed elem := by
        rw [← action?_isSome,read]
        simp
      simp [malformed]
    | some action =>
      have formed : WellFormed elem := action?_isSome.mp (by rw [read]; rfl)
      rw [List.filterMap_cons_some read]
      simp only [ih,List.forall_mem_cons,formed,true_and]
      rfl

structure ListsFirst (toUint64 : Number → UInt64) (elements : List Json) (actions : ActionMap) : Prop where
  present : ∀ key, key ∈ actions ↔ ∃ elem ∈ elements, Names elem key
  first : ∀ key action, actions[key]? = some action ↔ action.key = key ∧ ∃ front elem back,
    elements = front ++ elem :: back ∧ action? toUint64 elem = some action ∧ ∀ other ∈ front, ¬Names other key
  increasing : actions.toList.Pairwise fun a b => a.1.Lt b.1

/-- An element that is read as an action has the pair of names of the action only. -/
theorem names_iff {elem : Json} {action : Action} (read : action? toUint64 elem = some action)
    {key : ActionKey} : Names elem key ↔ action.key = key := by
  obtain ⟨names,_⟩ := action?_eq_some.mp read
  constructor
  · rintro ⟨space,name⟩
    have spaces := Option.some.inj (names.1.symm.trans space)
    have nameds := Option.some.inj (names.2.symm.trans name)
    cases key
    exact ActionKey.mk.injEq .. ▸ ⟨spaces,nameds⟩
  · rintro rfl
    exact names

theorem fill_first (formed : ∀ elem ∈ elements, WellFormed elem) :
    ListsFirst toUint64 elements (OrderedMap.fill Action.key ∅ (elements.filterMap (action? toUint64))) := by
  have reads : ∀ elem ∈ elements, ∃ action, action? toUint64 elem = some action := fun elem member =>
    Option.isSome_iff_exists.mp (action?_isSome.mpr (formed elem member))
  refine ⟨?_,?_,OrderedMap.toList_increasing _⟩
  · intro key
    rw [Std.TreeMap.mem_iff_isSome_getElem?,OrderedMap.fill_getElem?]
    simp only [Std.TreeMap.getElem?_emptyc,Option.none_or,List.find?_isSome,decide_eq_true_eq,List.mem_filterMap]
    constructor
    · rintro ⟨action,⟨elem,member,read⟩,same⟩
      exact ⟨elem,member,(names_iff read).mpr same⟩
    · rintro ⟨elem,member,names⟩
      obtain ⟨action,read⟩ := reads elem member
      exact ⟨action,⟨elem,member,read⟩,(names_iff read).mp names⟩
  · intro key action
    rw [OrderedMap.fill_eq_some]
    refine and_congr_right fun same => ⟨?_,?_⟩
    · rintro ⟨front,back,split,others⟩
      obtain ⟨before,rest,rfl,rfl,later⟩ := List.filterMap_eq_append_iff.mp split
      obtain ⟨skipped,elem,after,rfl,unread,read,_⟩ := List.filterMap_eq_cons_iff.mp later
      refine ⟨before ++ skipped,elem,after,by simp,read,?_⟩
      intro other member names
      obtain ⟨found,there⟩ := reads other (by simp only [List.mem_append] at member ⊢; tauto)
      rcases List.mem_append.mp member with inside | inside
      · exact others found (List.mem_filterMap.mpr ⟨other,inside,there⟩) ((names_iff there).mp names)
      · rw [unread other inside] at there
        contradiction
    · rintro ⟨front,elem,back,rfl,read,others⟩
      refine ⟨front.filterMap (action? toUint64),back.filterMap (action? toUint64),?_,?_⟩
      · rw [List.filterMap_append,List.filterMap_cons_some read]
      · intro found member equal
        obtain ⟨other,inside,there⟩ := List.mem_filterMap.mp member
        exact others other inside ((names_iff there).mpr equal)

/-- A list of actions is refused if an element of it is malformed; else the first element of
each pair of names is kept, in the order of the pairs. -/
theorem list_exact (toUint64 : Number → UInt64) (elements : List Json) (command : Command) (limit skip : Nat) :
    ((∃ error, list toUint64 (fun _ _ _ _ => .ok (StatusCode.ok,.array elements)) command limit skip =
      .error error) ↔ ∃ elem ∈ elements, ¬WellFormed elem) ∧
    (∀ actions, list toUint64 (fun _ _ _ _ => .ok (StatusCode.ok,.array elements)) command limit skip =
      .ok actions → ListsFirst toUint64 elements actions) ∧
    IsStrictTotalOrder ActionKey ActionKey.Lt ∧
    ∀ a b : ActionKey, ¬a.Lt b ∧ ¬b.Lt a ↔ a.equals b = true := by
  have collects : list toUint64 (fun _ _ _ _ => .ok (StatusCode.ok,.array elements)) command limit skip =
      collect toUint64 elements ∅ := rfl
  rw [collects]
  refine ⟨?_,?_,inferInstance,?_⟩
  · cases answer : collect toUint64 elements ∅ with
    | ok actions =>
      have formed := (collect_ok.mp answer).1
      simpa using formed
    | error error =>
      have malformed : ¬∀ elem ∈ elements, WellFormed elem := by
        intro formed
        have filled : collect toUint64 elements ∅ = .ok _ := collect_ok.mpr ⟨formed,rfl⟩
        rw [answer] at filled
        contradiction
      simpa using malformed
  · intro actions answer
    obtain ⟨formed,rfl⟩ := collect_ok.mp answer
    exact fill_first formed
  · intro a b
    rw [ActionKey.equals_iff]
    constructor
    · rintro ⟨notBelow,notAbove⟩
      exact ((ActionKey.lt_trichotomous a b).resolve_left notBelow).resolve_right notAbove
    · rintro rfl
      exact ⟨ActionKey.lt_irrefl a,ActionKey.lt_irrefl a⟩

end Lister
end EtsiMec.OpenWhisk
