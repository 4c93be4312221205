import EtsiMec.Steps
import EtsiMec.Library.Scanner

/-! `StaticFileUeAppLcmProxy`, whose associations are read from a file. The loop tests for
the end of the file before it reads, and every extraction for failure, so it does not
matter whether the last token is followed by a space. -/
namespace EtsiMec.StaticFileUeAppLcmProxy

open Effect Scanner StaticUeAppLcmProxy

variable {rest : Rest}

/-- `isspace` in the locale of a program that sets none. -/
def isSpace (c : Char) : Bool := c == ' ' || (9 ≤ c.toNat && c.toNat ≤ 13)

/-- `operator>>` into a new `std::string`. -/
def read (input : Scanner Char) : String × Scanner Char :=
  (String.ofList (extract isSpace input).1,(extract isSpace input).2)

inductive Turn where
  | finished
  | illFormed
  | association (address appName edgeRouter : String) (input : Scanner Char)

def turn (input : Scanner Char) : Turn :=
  if input.eofbit then .finished
  else
    let (address,input) := read input
    if input.failbit then .finished
    else
      let address := if address = "*" then "" else address
      let (appName,input) := read input
      if input.failbit then .illFormed
      else
        let (edgeRouter,input) := read input
        if input.failbit then .illFormed
        else .association address appName edgeRouter input

theorem turn_shorter {input next : Scanner Char} {address appName edgeRouter : String}
    (taken : turn input = .association address appName edgeRouter next) :
    next.remaining.length < input.remaining.length := by
  unfold turn at taken
  split at taken
  · contradiction
  dsimp only at taken
  split at taken
  · contradiction
  rename_i first
  split at taken
  · contradiction
  rename_i second
  split at taken
  · contradiction
  rename_i third
  obtain ⟨_,_,_,rfl⟩ := Turn.association.inj taken
  have shorter := extract_shorter (Bool.not_eq_true _ ▸ first)
  have shorter' := extract_shorter (Bool.not_eq_true _ ▸ second)
  have shorter'' := extract_shorter (Bool.not_eq_true _ ▸ third)
  simp only [read] at shorter shorter' shorter'' ⊢
  omega

section
variable (build : Build) (validate : String → Bool) (post : Notification → PostResult) (confFile : String)

/-- The loop; it answers whether the configuration is empty. -/
def load (input : Scanner Char) (myEmpty : Bool) : Program (StaticUeAppLcmProxy rest) Exception Bool :=
  match _ : turn input with
  | .finished => return myEmpty
  | .illFormed => Program.throw (.runtimeError ("Configuration file " ++ confFile ++ " is ill-formed"))
  | .association address appName edgeRouter next => do
    Program.assert build.asserts (appName != "" && edgeRouter != "")
    associateAddress build validate post address appName edgeRouter
    load next false
termination_by input.remaining.length
decreasing_by exact turn_shorter ‹_›

/-- The constructor. There is no content if the file cannot be opened. -/
def construct (content : Option String) : Program (StaticUeAppLcmProxy rest) Exception Unit :=
  match content with
  | none => Program.throw (.runtimeError ("Cannot open " ++ confFile ++ " for reading"))
  | some content => do
    let myEmpty ← load build validate post confFile (opened content.toList) true
    if myEmpty then Program.throw (.runtimeError ("Empty configuration in " ++ confFile))
    else return

end

/-! ## The grammar -/

def tokensOf (content : String) : List String := (tokens isSpace content.toList).map String.ofList

/-- Consecutive tokens in groups of three, an incomplete group left out. -/
def triples : List String → List (String × String × String)
  | address :: appName :: edgeRouter :: others => (address,appName,edgeRouter) :: triples others
  | _ => []

def association (entry : String × String × String) : Call rest :=
  .associateAddress (if entry.1 = "*" then "" else entry.1) entry.2.1 entry.2.2

def WellFormed (content : String) : Prop := 0 < (tokensOf content).length ∧ 3 ∣ (tokensOf content).length

/-! ## What the loop reads -/

section Reading
variable {input : Scanner Char} {token : String} {others : List String}

def left (input : Scanner Char) : List String := (tokens isSpace input.remaining).map String.ofList

theorem read_end (good : Good input) (none : left input = []) : (read input).2.failbit = true :=
  extract_end good (List.map_eq_nil_iff.mp none)

theorem read_token (good : Good input) (next : left input = token :: others) :
    ∃ t, read input = (token,t) ∧ Good t ∧ left t = others := by
  obtain ⟨chars,rest,there,rfl,rfl⟩ := List.map_eq_cons_iff.mp next
  obtain ⟨t,extracted,later,same⟩ := extract_token good there
  refine ⟨t,?_,later,?_⟩
  · rw [read,extracted]
  · rw [left,same]

theorem running (good : Good input) (next : left input = token :: others) : input.eofbit = false := by
  by_contra ended
  rw [left,good.ended (by simpa using ended)] at next
  simp at next

theorem turn_finished (good : Good input) (none : left input = []) : turn input = .finished := by
  simp [turn,read_end good none]

theorem turn_first (good : Good input) (only : left input = [token]) : turn input = .illFormed := by
  obtain ⟨second,first,still,none⟩ := read_token good only
  simp [turn,running good only,first,still.succeeded,read_end still none]

theorem turn_second {appName : String} (good : Good input) (both : left input = [token,appName]) :
    turn input = .illFormed := by
  obtain ⟨second,first,still,one⟩ := read_token good both
  obtain ⟨third,next,again,none⟩ := read_token still one
  simp [turn,running good both,first,still.succeeded,next,again.succeeded,read_end again none]

theorem turn_third {address appName edgeRouter : String} (good : Good input)
    (all : left input = address :: appName :: edgeRouter :: others) :
    ∃ next, turn input = .association (if address = "*" then "" else address) appName edgeRouter next ∧
      Good next ∧ left next = others := by
  obtain ⟨second,first,still,two⟩ := read_token good all
  obtain ⟨third,middle,again,one⟩ := read_token still two
  obtain ⟨next,last,after,same⟩ := read_token again one
  refine ⟨next,?_,after,same⟩
  simp [turn,running good all,first,still.succeeded,middle,again.succeeded,last,after.succeeded]

theorem left_filled (member : token ∈ left input) : token ≠ "" := by
  obtain ⟨chars,inside,rfl⟩ := List.mem_map.mp member
  intro blank
  exact token_ne_nil inside (by simpa using congrArg String.toList blank)

end Reading

/-! ## What the loop loads -/

section Loading
variable (build : Build) (validate : String → Bool) (post : Notification → PostResult) (confFile : String)
variable {s : StaticUeAppLcmProxy rest}

/-- No context is there to be notified: the call only writes to the table. -/
theorem associate_idle (idle : s.theApplicationsByContextId = ∅) (address : String) {appName edgeRouter : String}
    (named : appName ≠ "") (filled : edgeRouter ≠ "") :
    ∃ t, step build s (.associateAddress address appName edgeRouter) = some t ∧
      associateAddress build validate post address appName edgeRouter s = .returned () t ∧
      t.theApplicationsByContextId = ∅ := by
  have written : ∃ t, associateSection build address appName edgeRouter s = .returned [] t ∧
      t.theApplicationsByContextId = ∅ := by
    by_cases same : s.theTable.lookup ⟨address,appName⟩ = some edgeRouter
    · exact ⟨s,associateSection_returned.mpr ⟨named,filled,.inl ⟨same,rfl,rfl⟩⟩,idle⟩
    · refine ⟨_,associateSection_returned.mpr ⟨named,filled,.inr ⟨same,∅,?_,rfl⟩⟩,rfl⟩
      rw [idle]
      exact KeyedMap.sweep_ok.mpr rfl
  obtain ⟨t,returned,still⟩ := written
  refine ⟨t,?_,?_,still⟩
  · rw [step,exec,Program.state?_map,returned]
    rfl
  · rw [associateAddress,Program.bind_returned _ returned]
    rfl

section Turns
variable {input next : Scanner Char} {address appName edgeRouter : String} (myEmpty : Bool)

theorem load_finished (taken : turn input = .finished) :
    (load build validate post confFile input myEmpty : Program (StaticUeAppLcmProxy rest) Exception Bool) =
      pure myEmpty := by
  rw [load]
  split <;> simp_all

theorem load_illFormed (taken : turn input = .illFormed) :
    (load build validate post confFile input myEmpty : Program (StaticUeAppLcmProxy rest) Exception Bool) =
      Program.throw (.runtimeError ("Configuration file " ++ confFile ++ " is ill-formed")) := by
  rw [load]
  split <;> simp_all

/-- A turn that reads names goes on behind the call it makes of them. -/
theorem load_association (taken : turn input = .association address appName edgeRouter next)
    (named : appName ≠ "") (filled : edgeRouter ≠ "") :
    (load build validate post confFile input myEmpty : Program (StaticUeAppLcmProxy rest) Exception Bool) =
      associateAddress build validate post address appName edgeRouter >>= fun _ =>
        load build validate post confFile next false := by
  rw [load]
  split
  · simp_all
  · simp_all
  · rename_i here
    obtain ⟨rfl,rfl,rfl,rfl⟩ := Turn.association.inj (taken.symm.trans here)
    have nonempty : (appName != "" && edgeRouter != "") = true := by simp [named,filled]
    rw [nonempty,Program.assert_true,pure_bind]

end Turns

/-- The loop executes the groups of three, if no token is left over. -/
theorem load_exact {input : Scanner Char} (good : Good input) (myEmpty : Bool)
    (idle : s.theApplicationsByContextId = ∅) :
    (3 ∣ (left input).length → ∃ t, Run.run (step build) s ((triples (left input)).map association) = some t ∧
      load build validate post confFile input myEmpty s = .returned (myEmpty && (left input).isEmpty) t) ∧
    (¬3 ∣ (left input).length → ∃ t, load build validate post confFile input myEmpty s =
      .threw (.runtimeError ("Configuration file " ++ confFile ++ " is ill-formed")) t) := by
  generalize words : left input = here
  induction here using triples.induct generalizing input myEmpty s with
  | case1 address appName edgeRouter others ih =>
    have named : appName ≠ "" := left_filled (by rw [words]; simp)
    have filled : edgeRouter ≠ "" := left_filled (by rw [words]; simp)
    obtain ⟨next,taken,still,same⟩ := turn_third good words
    obtain ⟨t,stepped,returned,idle'⟩ := associate_idle build validate post idle
      (if address = "*" then "" else address) named filled
    obtain ⟨loads,refuses⟩ := ih still false idle' same
    rw [load_association build validate post confFile myEmpty taken named filled,
      Program.bind_returned _ returned]
    have groups : (address :: appName :: edgeRouter :: others).length = others.length + 3 := rfl
    rw [groups,Nat.dvd_add_self_right]
    refine ⟨fun whole => ?_,refuses⟩
    obtain ⟨u,ran,loaded⟩ := loads whole
    exact ⟨u,Run.run_cons.mpr ⟨t,stepped,ran⟩,by simpa using loaded⟩
  | case2 here incomplete =>
    match here with
    | [] =>
      refine ⟨fun _ => ⟨s,rfl,?_⟩,by simp⟩
      rw [load_finished build validate post confFile myEmpty (turn_finished good words)]
      simp
    | [token] =>
      rw [load_illFormed build validate post confFile myEmpty (turn_first good words)]
      exact ⟨by simp,fun _ => ⟨s,rfl⟩⟩
    | [token,appName] =>
      rw [load_illFormed build validate post confFile myEmpty (turn_second good words)]
      exact ⟨by simp,fun _ => ⟨s,rfl⟩⟩
    | address :: appName :: edgeRouter :: others => exact (incomplete _ _ _ _ rfl).elim

end Loading

/-- A file is loaded if and only if it is well formed, and then its associations are
executed in order; no assertion fails on the way. -/
theorem construct_exact (build : Build) (validate : String → Bool) (post : Notification → PostResult)
    (confFile content : String) :
    ((∃ t : StaticUeAppLcmProxy rest, construct build validate post confFile (some content) empty =
      .returned () t) ↔ WellFormed content) ∧
    (¬WellFormed content → ∃ what, ∃ t : StaticUeAppLcmProxy rest,
      construct build validate post confFile (some content) empty = .threw (.runtimeError what) t) ∧
    (∀ t : StaticUeAppLcmProxy rest, construct build validate post confFile (some content) empty =
      .returned () t → Run.run (step build) empty ((triples (tokensOf content)).map association) = some t) ∧
    ∀ reason, construct build validate post confFile (some content) (empty : StaticUeAppLcmProxy rest) ≠
      .halted reason := by
  have start : left (opened content.toList) = tokensOf content := rfl
  obtain ⟨loads,refuses⟩ := load_exact build validate post confFile
    (good_opened content.toList) true (s := (empty : StaticUeAppLcmProxy rest)) rfl
  rw [start] at loads refuses
  rw [construct]
  by_cases whole : 3 ∣ (tokensOf content).length
  · obtain ⟨t,ran,loaded⟩ := loads whole
    rw [Program.bind_returned _ loaded,WellFormed,List.length_pos_iff]
    by_cases none : tokensOf content = []
    · simp [none]
    · have filled : (tokensOf content).isEmpty = false := by simpa using none
      rw [filled]
      refine ⟨by simp [none,whole],by simp [none,whole],?_,by simp⟩
      rintro _ ⟨⟩
      exact ran
  · obtain ⟨t,threw⟩ := refuses whole
    rw [Program.bind_threw _ threw]
    simp [WellFormed,whole]

example : triples (tokensOf "earth is planet\n* wants-to-be planet") =
    [("earth","is","planet"),("*","wants-to-be","planet")] := by decide

end EtsiMec.StaticFileUeAppLcmProxy
