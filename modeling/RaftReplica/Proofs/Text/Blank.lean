/-
RaftReplica/Proofs/Text/Blank.lean

What is left of a text without blanks.  A text that has something in it that is no blank is trimmed
on either side of that alone (`trim_append_cons`), and trimming takes away nothing else
(`mem_trim_iff`).

Trimming drops blanks at the start and then, on the reversed text, at the end.  A character that is
no blank stops both, so a text with such a character falls into two parts that do not know of each
other.  This is how a text that was put together is trimmed in a proof: the parts between the first
and the last character that count are left alone.

Removing all blanks forgets more than trimming, so it does not matter whether trimming came first
(`removeBlanks_dropWhile`, `removeBlanks_trimEnd`).
-/
import Mathlib.Data.List.DropRight
import Mathlib.Data.List.TakeWhile
import RaftReplica.Text.Blank

namespace RaftReplica.Text

variable {cs a b : List Char} {c : Char}

/-! ### One end -/

/-- The text without the blanks at its end. -/
def trimEnd (cs : List Char) : List Char := (cs.reverse.dropWhile isBlank).reverse

theorem trim_eq (cs : List Char) : trim cs = trimEnd (cs.dropWhile isBlank) := rfl

/-- Blanks are dropped up to the first character that is none. -/
theorem dropWhile_append_cons (hc : isBlank c = false) (a b : List Char) :
    (a ++ c :: b).dropWhile isBlank = a.dropWhile isBlank ++ c :: b := by
  induction a with
  | nil => exact List.dropWhile_cons_of_neg (by simp [hc])
  | cons x a ih =>
    rw [List.cons_append, List.dropWhile_cons, List.dropWhile_cons]
    split
    · exact ih
    · rfl

/-- Only what is behind the last character that counts is trimmed at the end. -/
theorem trimEnd_append_cons (hc : isBlank c = false) (a b : List Char) :
    trimEnd (a ++ c :: b) = a ++ c :: trimEnd b := by
  have hreverse : (a ++ c :: b).reverse = b.reverse ++ c :: a.reverse := by simp
  rw [trimEnd, hreverse, dropWhile_append_cons hc]
  simp [trimEnd]

/-- No character that counts is dropped. -/
theorem mem_dropWhile_iff (hc : isBlank c = false) : c ∈ cs.dropWhile isBlank ↔ c ∈ cs := by
  refine ⟨fun h => (List.dropWhile_sublist _).subset h, fun h => ?_⟩
  rw [← List.takeWhile_append_dropWhile (p := isBlank) (l := cs), List.mem_append] at h
  refine h.resolve_left fun hfront => ?_
  rw [List.mem_takeWhile_imp hfront] at hc
  exact absurd hc (by decide)

/-- Blanks at the start go with all others. -/
theorem removeBlanks_dropWhile (cs : List Char) :
    removeBlanks (cs.dropWhile isBlank) = removeBlanks cs := by
  have hfront : removeBlanks (cs.takeWhile isBlank) = [] :=
    List.filter_eq_nil_iff.2 fun c hc => by simp [List.mem_takeWhile_imp hc]
  have hsplit := congrArg removeBlanks (List.takeWhile_append_dropWhile (p := isBlank) (l := cs))
  rwa [removeBlanks, List.filter_append, ← removeBlanks, hfront, List.nil_append] at hsplit

/-- Blanks at the end go with all others. -/
theorem removeBlanks_trimEnd (cs : List Char) : removeBlanks (trimEnd cs) = removeBlanks cs := by
  rw [trimEnd, removeBlanks, List.filter_reverse, ← removeBlanks, removeBlanks_dropWhile,
    removeBlanks, List.filter_reverse, List.reverse_reverse]
  rfl

/-! ### Both ends -/

theorem trim_append_cons (hc : isBlank c = false) (a b : List Char) :
    trim (a ++ c :: b) = a.dropWhile isBlank ++ c :: trimEnd b := by
  rw [trim_eq, dropWhile_append_cons hc, trimEnd_append_cons hc]

theorem mem_trim_iff (hc : isBlank c = false) : c ∈ trim cs ↔ c ∈ cs := by
  rw [trim, List.mem_reverse, mem_dropWhile_iff hc, List.mem_reverse, mem_dropWhile_iff hc]

theorem trim_dropWhile (cs : List Char) : trim (cs.dropWhile isBlank) = trim cs := by
  rw [trim, List.dropWhile_idempotent]
  rfl

end RaftReplica.Text
