import Mathlib

/-! Formatted input: a source of characters with the two state bits of a stream, and the
extraction of tokens between spaces. What a sequence of extractions reads is given by the
tokens of what is left. -/

/-- What is still to be read, whether its end was hit, and whether an extraction failed. -/
structure Scanner (α : Type) where
  remaining : List α
  eofbit : Bool
  failbit : Bool

namespace Scanner

variable {α : Type}

def opened (content : List α) : Scanner α := ⟨content,false,false⟩

section
variable (space : α → Bool)

/-- Spaces are skipped and the longest token is read. A stream that is not good only fails. -/
def extract (s : Scanner α) : List α × Scanner α :=
  if s.eofbit || s.failbit then ([],{ s with failbit := true })
  else match s.remaining.dropWhile space with
    | [] => ([],⟨[],true,true⟩)
    | first :: rest =>
      (first :: rest.takeWhile fun c => !space c,
        ⟨rest.dropWhile fun c => !space c,(rest.dropWhile fun c => !space c).isEmpty,false⟩)

def tokens (input : List α) : List (List α) := (input.splitOnP space).filter fun token => !token.isEmpty

structure Good (s : Scanner α) : Prop where
  succeeded : s.failbit = false
  ended : s.eofbit = true → s.remaining = []

end

variable {space : α → Bool}

/-- What is dropped ends before an element that is not to be dropped. -/
theorem dropWhile_stops {p : α → Bool} {input rest : List α} {first : α}
    (there : input.dropWhile p = first :: rest) : p first = false := by
  have head := List.head_dropWhile_not p (l := input) (by simp [there])
  simpa [there] using head

theorem good_opened (content : List α) : Good (opened content) := ⟨rfl,by simp [opened]⟩

@[simp] theorem tokens_nil : tokens space [] = [] := by simp [tokens]

theorem tokens_space {c : α} (blank : space c = true) (input : List α) :
    tokens space (c :: input) = tokens space input := by
  simp [tokens,List.splitOnP_cons_eq_if_modifyHead,blank]

theorem tokens_dropWhile (input : List α) : tokens space (input.dropWhile space) = tokens space input := by
  induction input with
  | nil => rfl
  | cons c rest ih =>
    by_cases blank : space c = true
    · rw [List.dropWhile_cons_of_pos blank,tokens_space blank,ih]
    · rw [List.dropWhile_cons_of_neg blank]

/-- The first token is the longest part up to a space; the others are those behind it. -/
theorem tokens_cons {first : α} (start : space first = false) (rest : List α) :
    tokens space (first :: rest) = (first :: rest.takeWhile fun c => !space c) ::
      tokens space (rest.dropWhile fun c => !space c) := by
  have word : ∀ c ∈ first :: rest.takeWhile (fun c => !space c), space c = false := by
    intro c member
    rcases List.mem_cons.mp member with rfl | inside
    · exact start
    · simpa using List.mem_takeWhile_imp inside
  have whole : first :: rest = (first :: rest.takeWhile fun c => !space c) ++ rest.dropWhile fun c => !space c := by
    rw [List.cons_append,List.takeWhile_append_dropWhile]
  cases later : rest.dropWhile fun c => !space c with
  | nil =>
    rw [later,List.append_nil] at whole
    rw [whole,tokens,List.splitOnP_eq_singleton word,← whole]
    simp
  | cons blank tail =>
    have isBlank : space blank = true := by
      simpa using dropWhile_stops later
    rw [later] at whole
    rw [tokens_space isBlank]
    rw [tokens,whole,List.splitOnP_append_cons_of_forall_mem word _ isBlank]
    simp [tokens]

/-- No space is in a token. -/
theorem tokens_clean {input : List α} {token : List α} (member : token ∈ tokens space input) :
    ∀ c ∈ token, space c = false := by
  induction length : input.length using Nat.strong_induction_on generalizing input with
  | _ n ih =>
    cases input with
    | nil => simp at member
    | cons first rest =>
      by_cases blank : space first = true
      · rw [tokens_space blank] at member
        exact ih rest.length (by simp [← length]) member rfl
      · have start : space first = false := by simpa using blank
        rw [tokens_cons start] at member
        rcases List.mem_cons.mp member with rfl | later
        · intro c inside
          rcases List.mem_cons.mp inside with rfl | inside
          · exact start
          · simpa using List.mem_takeWhile_imp inside
        · have shorter := (List.dropWhile_suffix (fun c => !space c) (l := rest)).length_le
          exact ih _ (by simp only [← length,List.length_cons]; omega) later rfl

/-- A word and the space behind it are read off. -/
theorem tokens_word {word : List α} (filled : word ≠ []) (clean : ∀ c ∈ word, space c = false) {blank : α}
    (isBlank : space blank = true) (rest : List α) :
    tokens space (word ++ blank :: rest) = word :: tokens space rest := by
  cases word with
  | nil => contradiction
  | cons first word =>
    have inside : ∀ c ∈ word, (!space c) = true := fun c member => by simp [clean c (List.mem_cons_of_mem _ member)]
    rw [List.cons_append,tokens_cons (clean first List.mem_cons_self),
      List.takeWhile_append_of_pos inside,List.dropWhile_append_of_pos inside]
    simp [isBlank,tokens_space isBlank]

theorem extract_ended {s : Scanner α} (ended : s.eofbit = true) :
    extract space s = ([],{ s with failbit := true }) := by
  simp [extract,ended]

theorem extract_started {s : Scanner α} (good : Good s) (running : s.eofbit = false) :
    extract space s = match s.remaining.dropWhile space with
      | [] => ([],⟨[],true,true⟩)
      | first :: rest =>
        (first :: rest.takeWhile fun c => !space c,
          ⟨rest.dropWhile fun c => !space c,(rest.dropWhile fun c => !space c).isEmpty,false⟩) := by
  simp [extract,running,good.succeeded]

/-- Behind the last token an extraction fails. -/
theorem extract_end {s : Scanner α} (good : Good s) (none : tokens space s.remaining = []) :
    (extract space s).2.failbit = true := by
  cases ended : s.eofbit with
  | true => rw [extract_ended ended]
  | false =>
    rw [extract_started good ended]
    cases there : s.remaining.dropWhile space with
    | nil => rfl
    | cons first rest =>
      rw [← tokens_dropWhile,there,tokens_cons (dropWhile_stops there)] at none
      contradiction

/-- The next token is read, and the stream is left with the others. -/
theorem extract_token {s : Scanner α} (good : Good s) {token : List α} {others : List (List α)}
    (next : tokens space s.remaining = token :: others) :
    ∃ t, extract space s = (token,t) ∧ Good t ∧ tokens space t.remaining = others := by
  cases ended : s.eofbit with
  | true => simp [good.ended ended] at next
  | false =>
    rw [extract_started good ended]
    rw [← tokens_dropWhile] at next
    cases there : s.remaining.dropWhile space with
    | nil => simp [there] at next
    | cons first rest =>
      rw [there,tokens_cons (dropWhile_stops there)] at next
      obtain ⟨rfl,rfl⟩ := List.cons.inj next
      exact ⟨_,rfl,⟨rfl,List.isEmpty_iff.mp⟩,rfl⟩

/-- An extraction that succeeds takes something from the stream. -/
theorem extract_shorter {s : Scanner α} (succeeded : (extract space s).2.failbit = false) :
    (extract space s).2.remaining.length < s.remaining.length := by
  unfold extract at succeeded ⊢
  split at succeeded
  · contradiction
  rename_i good
  rw [if_neg good]
  split at succeeded
  · contradiction
  rename_i first rest there
  have skipped := (List.dropWhile_suffix space (l := s.remaining)).length_le
  have word := (List.dropWhile_suffix (fun c => !space c) (l := rest)).length_le
  rw [there,List.length_cons] at skipped
  dsimp only
  omega

/-- A token is never empty. -/
theorem token_ne_nil {input token : List α} (member : token ∈ tokens space input) : token ≠ [] := by
  have kept := (List.mem_filter.mp member).2
  simpa using kept

end Scanner
