import EtsiMec.Library.OrderedMap
import EtsiMec.Library.Separator

/-! The actions of an OpenWhisk server and their keys. Keys are ordered by the namespace
and then by the name; `sameKeys` compares them through strings in which a slash ends the
namespace, so a namespace with a slash can be read as another one. -/
namespace EtsiMec.OpenWhisk

structure ActionKey where
  theSpace : String
  theName : String
  deriving DecidableEq, Repr

namespace ActionKey

def Lt (a b : ActionKey) : Prop :=
  a.theSpace < b.theSpace ∨ (a.theSpace = b.theSpace ∧ a.theName < b.theName)

instance : DecidableRel Lt := fun _ _ => inferInstanceAs (Decidable (_ ∨ _ ∧ _))

def equals (a b : ActionKey) : Bool := a.theSpace == b.theSpace && a.theName == b.theName

def toString (key : ActionKey) : String := "/" ++ key.theSpace ++ "/" ++ key.theName

theorem equals_iff {a b : ActionKey} : a.equals b = true ↔ a = b := by
  cases a
  cases b
  simp [equals]

theorem Lt.trans {a b c : ActionKey} (first : Lt a b) (last : Lt b c) : Lt a c := by
  rcases first with space | ⟨space,name⟩ <;> rcases last with space' | ⟨space',name'⟩
  · exact .inl (lt_trans space space')
  · exact .inl (space' ▸ space)
  · exact .inl (space ▸ space')
  · exact .inr ⟨space.trans space',lt_trans name name'⟩

theorem lt_irrefl (a : ActionKey) : ¬Lt a a := by
  simp [Lt]

theorem lt_trichotomous (a b : ActionKey) : Lt a b ∨ a = b ∨ Lt b a := by
  rcases lt_trichotomy a.theSpace b.theSpace with space | space | space
  · exact .inl (.inl space)
  · rcases lt_trichotomy a.theName b.theName with name | name | name
    · exact .inl (.inr ⟨space,name⟩)
    · exact .inr (.inl (equals_iff.mp (by simp [equals,space,name])))
    · exact .inr (.inr (.inr ⟨space.symm,name⟩))
  · exact .inr (.inr (.inl space))

instance : IsStrictTotalOrder ActionKey Lt where
  irrefl := lt_irrefl
  trans _ _ _ := Lt.trans
  trichotomous a b notBelow notAbove := ((lt_trichotomous a b).resolve_left notBelow).resolve_right notAbove

/-- What keeps `a` and `b` apart is only where the namespace ends: a part between two
slashes is in the name of `a` and in the namespace of `b`. -/
def Shifted (a b : ActionKey) : Prop :=
  ∃ middle, b.theSpace = a.theSpace ++ "/" ++ middle ∧ a.theName = middle ++ "/" ++ b.theName

theorem shifted_iff {a b : ActionKey} : Shifted a b ↔ ∃ middle : List Char,
    b.theSpace.toList = a.theSpace.toList ++ '/' :: middle ∧
      a.theName.toList = middle ++ '/' :: b.theName.toList := by
  constructor
  · rintro ⟨middle,space,name⟩
    exact ⟨middle.toList,by simp [space],by simp [name]⟩
  · rintro ⟨middle,space,name⟩
    exact ⟨String.ofList middle,String.toList_inj.mp (by simp [space]),String.toList_inj.mp (by simp [name])⟩

theorem toString_eq_iff {a b : ActionKey} :
    a.toString = b.toString ↔ a = b ∨ Shifted a b ∨ Shifted b a := by
  have joined : a.toString = b.toString ↔
      a.theSpace.toList ++ '/' :: a.theName.toList = b.theSpace.toList ++ '/' :: b.theName.toList := by
    rw [← String.toList_inj]
    simp [toString]
  rw [joined,Separator.joined_eq_iff,shifted_iff,shifted_iff,String.toList_inj,String.toList_inj]
  cases a
  cases b
  simp only [mk.injEq]

/-- Namespaces without a slash leave the strings unambiguous. -/
theorem toString_inj_of_clear {a b : ActionKey} (clear : '/' ∉ a.theSpace.toList)
    (clear' : '/' ∉ b.theSpace.toList) (same : a.toString = b.toString) : a = b := by
  rcases toString_eq_iff.mp same with equal | ⟨middle,space,_⟩ | ⟨middle,space,_⟩
  · exact equal
  · simp [space] at clear'
  · simp [space] at clear

end ActionKey

structure Action where
  theSpace : String
  theName : String
  theUpdated : UInt64
  theVersion : String
  deriving DecidableEq, Repr

def Action.key (action : Action) : ActionKey := ⟨action.theSpace,action.theName⟩

abbrev ActionMap := OrderedMap ActionKey Action ActionKey.Lt

/-- The strings of the keys, as `sameKeys` collects them. -/
def rendered (actions : ActionMap) : Std.TreeSet String :=
  actions.keys.foldl (fun strings key => strings.insert key.toString) ∅

def sameKeys (lhs rhs : ActionMap) : Bool :=
  if lhs.size ≠ rhs.size then false else rendered lhs == rendered rhs

def SameKeySet (lhs rhs : ActionMap) : Prop := ∀ key, key ∈ lhs ↔ key ∈ rhs

theorem mem_rendered {actions : ActionMap} {string : String} :
    string ∈ rendered actions ↔ ∃ key ∈ actions, key.toString = string := by
  have collected : ∀ (keys : List ActionKey) (strings : Std.TreeSet String),
      string ∈ keys.foldl (fun strings key => strings.insert key.toString) strings ↔
        string ∈ strings ∨ ∃ key ∈ keys, key.toString = string := by
    intro keys
    induction keys with
    | nil => simp
    | cons key rest ih =>
      intro strings
      rw [List.foldl_cons,ih,Std.TreeSet.mem_insert,Std.LawfulEqCmp.compare_eq_iff_eq]
      simp only [List.mem_cons,exists_eq_or_imp,or_assoc]
      tauto
  rw [rendered,collected]
  simp [Std.TreeMap.mem_keys]

theorem sameKeys_iff {lhs rhs : ActionMap} : sameKeys lhs rhs = true ↔ lhs.size = rhs.size ∧
    ∀ string, (∃ key ∈ lhs, key.toString = string) ↔ ∃ key ∈ rhs, key.toString = string := by
  unfold sameKeys
  split
  · rename_i different
    simp [different]
  · rename_i same
    rw [Std.TreeSet.beq_iff_equiv,Std.TreeSet.equiv_iff_forall_mem_iff]
    simp only [mem_rendered,not_not.mp same,true_and]

/-- Every key of the first map is one of the second, or is shifted against one. -/
def Matched (lhs rhs : ActionMap) : Prop :=
  ∀ key ∈ lhs, ∃ other ∈ rhs, key = other ∨ key.Shifted other ∨ other.Shifted key

/-- Maps of one size that can be told apart only by where their namespaces end. -/
structure Confused (lhs rhs : ActionMap) : Prop where
  size : lhs.size = rhs.size
  left : Matched lhs rhs
  right : Matched rhs lhs
  missing : ∃ key ∈ lhs, key ∉ rhs

theorem matched_iff {lhs rhs : ActionMap} :
    Matched lhs rhs ↔ ∀ key ∈ lhs, ∃ other ∈ rhs, other.toString = key.toString := by
  simp only [Matched,← ActionKey.toString_eq_iff,eq_comm]

theorem SameKeySet.size {lhs rhs : ActionMap} (same : SameKeySet lhs rhs) : lhs.size = rhs.size := by
  have keys : lhs.keys.Perm rhs.keys := by
    rw [List.perm_ext_iff_of_nodup (OrderedMap.keys_nodup lhs) (OrderedMap.keys_nodup rhs)]
    intro key
    rw [Std.TreeMap.mem_keys,Std.TreeMap.mem_keys,same]
  simpa using keys.length_eq

theorem sameKeys_iff_matched {lhs rhs : ActionMap} : sameKeys lhs rhs = true ↔
    lhs.size = rhs.size ∧ Matched lhs rhs ∧ Matched rhs lhs := by
  rw [sameKeys_iff,matched_iff,matched_iff]
  refine and_congr_right fun _ => ⟨fun same => ⟨?_,?_⟩,?_⟩
  · intro key member
    exact (same key.toString).mp ⟨key,member,rfl⟩
  · intro key member
    exact (same key.toString).mpr ⟨key,member,rfl⟩
  · rintro ⟨left,right⟩ string
    constructor
    · rintro ⟨key,member,rfl⟩
      exact left key member
    · rintro ⟨key,member,rfl⟩
      exact right key member

/-- `sameKeys` tells whether two maps have the same keys, unless they are of one size and
differ only in where namespaces end. -/
theorem sameKeys_exact_iff (lhs rhs : ActionMap) :
    (sameKeys lhs rhs = true ↔ SameKeySet lhs rhs) ↔ ¬Confused lhs rhs := by
  constructor
  · rintro exact confused
    obtain ⟨key,member,absent⟩ := confused.missing
    have same := exact.mp (sameKeys_iff_matched.mpr ⟨confused.size,confused.left,confused.right⟩)
    exact absent ((same key).mp member)
  · intro clear
    constructor
    · intro answered
      obtain ⟨size,left,right⟩ := sameKeys_iff_matched.mp answered
      have inside : ∀ key ∈ lhs, key ∈ rhs := by
        by_contra outside
        simp only [not_forall] at outside
        obtain ⟨key,member,absent⟩ := outside
        exact clear ⟨size,left,right,key,member,absent⟩
      exact fun key => ⟨inside key,OrderedMap.mem_of_size_eq size inside⟩
    · intro same
      refine sameKeys_iff_matched.mpr ⟨same.size,?_,?_⟩
      · exact fun key member => ⟨key,(same key).mp member,.inl rfl⟩
      · exact fun key member => ⟨key,(same key).mpr member,.inl rfl⟩

/-- The comparison is exact where no namespace has a slash. -/
theorem not_confused_of_clear {lhs rhs : ActionMap} (clear : ∀ key ∈ lhs, '/' ∉ key.theSpace.toList)
    (clear' : ∀ key ∈ rhs, '/' ∉ key.theSpace.toList) : ¬Confused lhs rhs := by
  intro confused
  obtain ⟨key,member,absent⟩ := confused.missing
  obtain ⟨other,there,same⟩ := matched_iff.mp confused.left key member
  have equal := ActionKey.toString_inj_of_clear (clear' other there) (clear key member) same
  exact absent (equal ▸ there)

/-- The action `c` of the package `b`, and an action `b/c` outside of packages. -/
def packaged : ActionMap := (∅ : ActionMap).insert ⟨"a/b","c"⟩ ⟨"a/b","c",0,"1"⟩

def unpackaged : ActionMap := (∅ : ActionMap).insert ⟨"a","b/c"⟩ ⟨"a","b/c",0,"1"⟩

theorem packaged_confused : sameKeys packaged unpackaged = true ∧ ¬SameKeySet packaged unpackaged := by
  constructor
  · decide
  · intro same
    have shared := (same ⟨"a/b","c"⟩).mp (by decide)
    exact absurd shared (by decide)

end EtsiMec.OpenWhisk
