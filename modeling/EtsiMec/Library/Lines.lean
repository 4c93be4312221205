import EtsiMec.Library.Scanner

/-! Lines of a stream. A loop that tests the stream before it reads a line, and not after,
sees the last line twice if its end is missing. -/
namespace Scanner

variable {α : Type} [DecidableEq α] (delim : α)

/-- The rest of the line is read, and its end with it. A stream that is not good only
fails, and the line is left as it was. -/
def getline (s : Scanner α) (line : List α) : List α × Scanner α :=
  if s.eofbit || s.failbit then (line,{ s with failbit := true })
  else match s.remaining.dropWhile (· != delim) with
    | [] => (s.remaining,⟨[],true,s.remaining.isEmpty⟩)
    | _ :: rest => (s.remaining.takeWhile (· != delim),⟨rest,false,false⟩)

def pending (s : Scanner α) : Nat :=
  if s.failbit then 0 else s.remaining.length + if s.eofbit then 1 else 2

variable {delim}

theorem getline_pending {s : Scanner α} (running : s.failbit = false) (line : List α) :
    (getline delim s line).2.pending < s.pending := by
  unfold getline
  split
  · simp only [pending,running,Bool.false_eq_true,if_false,if_true]
    split <;> omega
  · rename_i good
    have started : s.eofbit = false := by
      simp only [running,Bool.or_false,Bool.not_eq_true] at good
      exact good
    split
    · cases remaining : s.remaining <;> simp [pending,running,started,remaining]
    · rename_i first rest there
      have shorter := (List.dropWhile_suffix (· != delim) (l := s.remaining)).length_le
      rw [there,List.length_cons] at shorter
      simp only [pending,running,started,Bool.false_eq_true,if_false]
      omega

variable (delim) in
/-- What `while (stream) getline(stream, line)` reads. -/
def readLines (s : Scanner α) (line : List α) : List (List α) :=
  if _running : s.failbit = true then []
  else (getline delim s line).1 :: readLines (getline delim s line).2 (getline delim s line).1
termination_by s.pending
decreasing_by exact getline_pending (Bool.not_eq_true _ ▸ ‹_›) line

theorem readLines_failed {s : Scanner α} (failed : s.failbit = true) (line : List α) :
    readLines delim s line = [] := by
  rw [readLines,dif_pos failed]

theorem readLines_running {s : Scanner α} (running : s.failbit = false) (line : List α) :
    readLines delim s line = (getline delim s line).1 ::
      readLines delim (getline delim s line).2 (getline delim s line).1 := by
  rw [readLines,dif_neg (by simp [running])]

/-- Behind the end of the input the last line is read again. -/
theorem readLines_ended (line : List α) : readLines delim ⟨[],true,false⟩ line = [line] := by
  rw [readLines_running rfl,readLines_failed rfl]
  rfl

variable (delim) in
/-- The lines of the input, and a last line without an end again. -/
def seenLines (content : List α) : List (List α) :=
  content.splitOn delim ++ ((content.splitOn delim).getLast?.filter (!·.isEmpty)).toList

theorem readLines_opened (content line : List α) :
    readLines delim (opened content) line = seenLines delim content := by
  unfold seenLines
  induction length : content.length using Nat.strong_induction_on generalizing content line with
  | _ n ih =>
    rw [readLines_running rfl]
    have whole := List.takeWhile_append_dropWhile (p := (· != delim)) (l := content)
    have front : delim ∉ content.takeWhile (· != delim) := fun member => by
      simpa using List.mem_takeWhile_imp member
    cases there : content.dropWhile (· != delim) with
    | nil =>
      have single : content.splitOn delim = [content] := by
        rw [there,List.append_nil] at whole
        rw [whole] at front
        exact List.splitOn_eq_singleton front
      have read : getline delim (opened content) line = (content,⟨[],true,content.isEmpty⟩) := by
        simp [getline,opened,there]
      rw [read,single]
      cases content with
      | nil => simp [readLines_failed]
      | cons first rest => simp [readLines_ended,Option.filter]
    | cons first rest =>
      have first_eq : first = delim := by
        simpa using dropWhile_stops there
      subst first_eq
      have read : getline first (opened content) line =
          (content.takeWhile (· != first),opened rest) := by
        simp [getline,opened,there]
      rw [there] at whole
      have parts : content.splitOn first = content.takeWhile (· != first) :: rest.splitOn first := by
        conv_lhs => rw [← whole]
        exact List.splitOn_append_cons_self_of_not_mem front rest
      have shorter : rest.length < n := by
        rw [← length,← whole]
        simp
        omega
      rw [read,ih rest.length shorter rest _ rfl,parts,List.getLast?_cons_of_ne_nil]
      · rfl
      · exact List.splitOn_ne_nil first rest

/-- With its last line ended, the input has one more line, which is empty. -/
theorem seenLines_ended (content : List α) : seenLines delim (content ++ [delim]) = content.splitOn delim ++ [[]] := by
  rw [seenLines,List.splitOn_append_cons_self,List.splitOn_nil]
  simp

end Scanner
