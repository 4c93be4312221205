import EtsiMec.ConsoleSessions
import EtsiMec.StaticFileUeAppLcmProxy

/-! The listing of the table as a configuration file. A new proxy that loads it has the same
associations, unless some field cannot be told from the layout of the listing. -/
namespace EtsiMec.StaticFileUeAppLcmProxy

open Effect Scanner StaticUeAppLcmProxy
open GrpcUeAppLcmProxyClient (remoteProxy sampleCheck)

variable {rest : Rest} {build : Build} {s t : StaticUeAppLcmProxy rest}

def Solid (field : String) : Prop := ∀ c ∈ field.toList, isSpace c = false

/-- No field of the entry has a space in it, and the address is not the star. -/
def Legible (elem : String × String × String) : Prop :=
  elem.1 ≠ "*" ∧ Solid elem.1 ∧ Solid elem.2.1 ∧ Solid elem.2.2

/-! ## The tokens of a listing -/

def printed (elem : String × String × String) : String × String × String :=
  (if elem.1 = "" then "*" else elem.1,elem.2.1,elem.2.2)

theorem printed_association {elem : String × String × String} (other : elem.1 ≠ "*") :
    association (printed elem) = (.associateAddress elem.1 elem.2.1 elem.2.2 : Call rest) := by
  by_cases any : elem.1 = ""
  · simp [association,printed,any]
  · simp [association,printed,any,other]

theorem tokens_field {field : String} (filled : field ≠ "") (solid : Solid field) {blank : Char}
    (isBlank : isSpace blank = true) (behind : List Char) :
    tokens isSpace (field.toList ++ blank :: behind) = field.toList :: tokens isSpace behind :=
  tokens_word (by simpa using filled) solid isBlank behind

theorem tokensOf_listing {list : List (String × String × String)}
    (filled : ∀ elem ∈ list, elem.2.1 ≠ "" ∧ elem.2.2 ≠ "") (legible : ∀ elem ∈ list, Legible elem) :
    triples (tokensOf (Console.listing list)) = list.map printed ∧
      (tokensOf (Console.listing list)).length = 3 * list.length := by
  induction list with
  | nil => exact ⟨rfl,rfl⟩
  | cons elem others ih =>
    obtain ⟨inner,count⟩ := ih (fun other member => filled other (List.mem_cons_of_mem _ member))
      fun other member => legible other (List.mem_cons_of_mem _ member)
    obtain ⟨named,routed⟩ := filled elem List.mem_cons_self
    obtain ⟨_,address,appName,edgeRouter⟩ := legible elem List.mem_cons_self
    have first : (printed elem).1 ≠ "" ∧ Solid (printed elem).1 := by
      unfold printed
      by_cases any : elem.1 = ""
      · simp only [any,if_true]
        exact ⟨by decide,by simp [Solid,isSpace]⟩
      · simp only [any,if_false]
        exact ⟨any,address⟩
    have chars : (Console.listing (elem :: others)).toList = (printed elem).1.toList ++ ' ' ::
        (elem.2.1.toList ++ ' ' :: (elem.2.2.toList ++ '\n' :: (Console.listing others).toList)) := by
      simp [Console.listing,Console.entry,printed]
    have words : tokensOf (Console.listing (elem :: others)) =
        (printed elem).1 :: elem.2.1 :: elem.2.2 :: tokensOf (Console.listing others) := by
      rw [tokensOf,chars,tokens_field first.1 first.2 (by decide),tokens_field named appName (by decide),
        tokens_field routed edgeRouter (by decide)]
      simp [tokensOf]
    rw [words]
    refine ⟨?_,?_⟩
    · rw [triples,inner]
      rfl
    · simp only [List.length_cons,count]
      omega

/-! ## What a file can hold -/

theorem triples_mem {tokens : List String} {entry : String × String × String} (member : entry ∈ triples tokens) :
    entry.1 ∈ tokens ∧ entry.2.1 ∈ tokens ∧ entry.2.2 ∈ tokens := by
  induction tokens using triples.induct with
  | case1 address appName edgeRouter others ih =>
    rw [triples] at member
    rcases List.mem_cons.mp member with rfl | later
    · simp
    · obtain ⟨first,second,third⟩ := ih later
      simp [first,second,third]
  | case2 here incomplete => simp [triples] at member

theorem tokensOf_solid {content token : String} (member : token ∈ tokensOf content) : Solid token := by
  obtain ⟨chars,inside,rfl⟩ := List.mem_map.mp member
  simpa [Solid] using tokens_clean inside

/-- What was loaded is legible, whatever the file. -/
theorem loaded_legible {content : String}
    (ran : Run.run (step build) empty ((triples (tokensOf content)).map association) = some t)
    {elem : String × String × String} (there : elem ∈ addressAssociations t) : Legible elem := by
  have last := (lookup_eq_some ran).mp (mem_addressAssociations.mp there)
  obtain ⟨entry,member,same⟩ := List.mem_map.mp (Log.last_mem _ last).1
  obtain ⟨address,appName,edgeRouter⟩ := triples_mem member
  cases entry with
  | mk first others =>
    simp only [association,Call.associateAddress.injEq] at same
    obtain ⟨star,second,third⟩ := same
    refine ⟨?_,?_,second ▸ tokensOf_solid appName,third ▸ tokensOf_solid edgeRouter⟩
    · rw [← star]
      split
      · decide
      · assumption
    · rw [← star]
      split
      · simp [Solid]
      · exact tokensOf_solid address

theorem construct_returned {validate : String → Bool} {post : Notification → PostResult} {confFile content : String} :
    construct build validate post confFile (some content) (empty : StaticUeAppLcmProxy rest) = .returned () t ↔
      WellFormed content ∧ Run.run (step build) empty ((triples (tokensOf content)).map association) = some t := by
  obtain ⟨loads,refuses⟩ := load_exact build validate post confFile (good_opened content.toList) true
    (s := (empty : StaticUeAppLcmProxy rest)) rfl
  have start : left (opened content.toList) = tokensOf content := rfl
  rw [start] at loads refuses
  rw [construct]
  by_cases whole : 3 ∣ (tokensOf content).length
  · obtain ⟨u,ran,loaded⟩ := loads whole
    rw [Program.bind_returned _ loaded,WellFormed,and_iff_left whole,ran,List.length_pos_iff]
    by_cases none : tokensOf content = []
    · simp [none]
    · have filled : (tokensOf content).isEmpty = false := by simpa using none
      simp [none,filled]
  · obtain ⟨u,threw⟩ := refuses whole
    rw [Program.bind_threw _ threw]
    simp [WellFormed,whole]

/-! ## Reloading -/

/-- The associations of a listing, made one after the other, give the table that was listed. -/
theorem replayed_table (routed : Routed s)
    (ran : Run.run (step build) empty ((addressAssociations s).map fun elem =>
      .associateAddress elem.1 elem.2.1 elem.2.2) = some t) (key : AddressAppKey) :
    t.theTable.lookup key = s.theTable.lookup key := by
  have effective : ∀ elem ∈ addressAssociations s,
      Call.written (.associateAddress elem.1 elem.2.1 elem.2.2 : Call rest) = some ⟨elem.1,elem.2.1⟩ := by
    intro elem member
    have there := mem_addressAssociations.mp member
    simp [Call.written,routed.keys _ _ there,routed.filled _ _ there]
  have distinct : (((addressAssociations s).map fun elem =>
      (.associateAddress elem.1 elem.2.1 elem.2.2 : Call rest)).map Call.written).Nodup := by
    rw [List.map_map,List.map_congr_left (g := fun elem => some (AddressAppKey.mk elem.1 elem.2.1)) effective]
    have keys : (fun elem : String × String × String => some (AddressAppKey.mk elem.1 elem.2.1)) =
        (fun pair : String × String => some (AddressAppKey.mk pair.1 pair.2)) ∘ fun elem => (elem.1,elem.2.1) := rfl
    rw [keys,← List.map_map]
    refine (addressAssociations_nodup s).map ?_
    rintro ⟨_,_⟩ ⟨_,_⟩ same
    cases same
    rfl
  apply Option.ext
  intro edgeRouter
  obtain ⟨address,appName⟩ := key
  rw [lookup_eq_some ran,← mem_addressAssociations,LastAssociated]
  constructor
  · intro last
    obtain ⟨elem,member,same⟩ := List.mem_map.mp (Log.last_mem _ last).1
    obtain ⟨rfl,rfl,rfl⟩ := Call.associateAddress.inj same
    exact member
  · intro member
    rw [← effective _ member]
    exact Log.last_of_nodup _ distinct (List.mem_map.mpr ⟨_,member,rfl⟩)

theorem listing_reloads_iff (reached : Reachable build s) {build' : Build} {validate : String → Bool}
    {post : Notification → PostResult} {confFile : String} :
    (∃ t : StaticUeAppLcmProxy rest, construct build' validate post confFile
        (some (Console.listing (addressAssociations s))) empty = .returned () t ∧
        ∀ key, t.theTable.lookup key = s.theTable.lookup key) ↔
      addressAssociations s ≠ [] ∧ ∀ elem ∈ addressAssociations s, Legible elem := by
  have routed := reached.routed
  constructor
  · rintro ⟨t,loaded,same⟩
    obtain ⟨whole,ran⟩ := construct_returned.mp loaded
    refine ⟨?_,fun elem member => loaded_legible ran ?_⟩
    · intro none
      rw [none] at whole
      exact absurd whole.1 (by decide)
    · rw [mem_addressAssociations,same]
      exact mem_addressAssociations.mp member
  · rintro ⟨some,legible⟩
    have filled : ∀ elem ∈ addressAssociations s, elem.2.1 ≠ "" ∧ elem.2.2 ≠ "" := by
      intro elem member
      have there := mem_addressAssociations.mp member
      exact ⟨routed.keys _ _ there,routed.filled _ _ there⟩
    obtain ⟨groups,count⟩ := tokensOf_listing filled legible
    have entries := List.length_pos_iff.mpr some
    have whole : WellFormed (Console.listing (addressAssociations s)) :=
      ⟨by omega,by rw [count]; exact Nat.dvd_mul_right 3 _⟩
    have calls : (triples (tokensOf (Console.listing (addressAssociations s)))).map association =
        (addressAssociations s).map fun elem => (.associateAddress elem.1 elem.2.1 elem.2.2 : Call rest) := by
      rw [groups,List.map_map]
      exact List.map_congr_left fun elem member => printed_association (legible elem member).1
    obtain ⟨t,loaded,ran⟩ : ∃ t : StaticUeAppLcmProxy rest, construct build' validate post confFile
        (Option.some (Console.listing (addressAssociations s))) empty = .returned () t ∧
        Run.run (step build') empty ((addressAssociations s).map fun elem =>
          .associateAddress elem.1 elem.2.1 elem.2.2) = Option.some t := by
      obtain ⟨loads,_⟩ := load_exact build' validate post confFile
        (good_opened (Console.listing (addressAssociations s)).toList) true
        (s := (empty : StaticUeAppLcmProxy rest)) rfl
      obtain ⟨t,ran,_⟩ := loads whole.2
      have start : left (opened (Console.listing (addressAssociations s)).toList) =
        tokensOf (Console.listing (addressAssociations s)) := rfl
      rw [start] at ran
      exact ⟨t,construct_returned.mpr ⟨whole,ran⟩,calls ▸ ran⟩
    exact ⟨t,loaded,replayed_table routed ran⟩

/-- What the client prints when it is asked for the table is a configuration file of that
table, exactly if the table is not empty and its entries are legible. -/
theorem printed_table_reloads_iff (build build' : Build) (validate validate' : String → Bool)
    (post post' : Notification → PostResult) (split : String → List String)
    (checkStatus : GrpcUeAppLcmProxy.Status → Except Exception Unit) (checks : checkStatus .ok = .ok ())
    (asked : split "table" = ["table"]) (skipped : split "" = []) (confFile : String)
    (s : StaticUeAppLcmProxy rest) (reached : Reachable build s) :
    ∃ text, Console.main split checkStatus (remoteProxy build validate post) "table\n" (s,"") =
        .returned 0 (s,text) ∧
      ((∃ t : StaticUeAppLcmProxy rest, construct build' validate' post' confFile (some text) empty =
          .returned () t ∧ ∀ key, t.theTable.lookup key = s.theTable.lookup key) ↔
        addressAssociations s ≠ [] ∧ ∀ elem ∈ addressAssociations s, Legible elem) :=
  ⟨_,Console.table_printed checks asked skipped s,listing_reloads_iff reached⟩

/-- The association of any address is printed with a star, and read back from it. -/
theorem sample_table_reloads : ∃ text,
    Console.main Console.words sampleCheck
        (remoteProxy .debug (fun _ => true) fun _ => .failed) "table\n"
        (after .debug sampleCalls (by decide),"") = .returned 0 (after .debug sampleCalls (by decide),text) ∧
      ∃ t : StaticUeAppLcmProxy Rest.plain, construct .release (fun _ => false) (fun _ => .failed) "conf"
        (some text) empty = .returned () t ∧ ∀ key, t.theTable.lookup key =
          (after .debug sampleCalls (by decide) : StaticUeAppLcmProxy Rest.plain).theTable.lookup key := by
  obtain ⟨text,printed,reloads⟩ := printed_table_reloads_iff .debug .release (fun _ => true) (fun _ => false)
    (fun _ => .failed) (fun _ => .failed) Console.words sampleCheck rfl (by decide) (by decide) "conf" _
    (after_reachable .debug sampleCalls (by decide))
  have entries : addressAssociations (after .debug sampleCalls (by decide) : StaticUeAppLcmProxy Rest.plain) =
    [("","app","er1")] := rfl
  refine ⟨text,printed,reloads.mpr ⟨by simp [entries],?_⟩⟩
  simp [entries,Legible,Solid,isSpace]

end EtsiMec.StaticFileUeAppLcmProxy
