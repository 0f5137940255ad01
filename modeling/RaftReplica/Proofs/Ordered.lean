/-
RaftReplica/Proofs/Ordered.lean

Lists in order, from the front of which something is dropped.  Where all that is to be dropped stands
in front, dropping it one by one is the same as looking at each member.

The programs drop along the list and stop at the first member that stays, while it is said of each
member by itself which ones go.  The two agree if a member that goes has none in front of it that
stays; for segments and memberships, which are in the order of their indices, this is so whenever
the question is on which side of an index they are.
-/

namespace RaftReplica

variable {α : Type} {q : α → Bool} {ss : List α}

/-- What is dropped from the front of a list in order is all that is to be dropped. -/
theorem dropWhile_eq_filter (h : ss.Pairwise (fun s t => q t = true → q s = true)) :
    ss.dropWhile q = ss.filter (!q ·) := by
  induction h with
  | nil => rfl
  | @cons s ss hs _ ih =>
    -- the first member goes, or none does
    cases hq : q s with
    | true => rw [List.dropWhile_cons_of_pos hq, List.filter_cons_of_neg (by simp [hq]), ih]
    | false =>
      rw [List.dropWhile_cons_of_neg (by simp [hq])]
      refine (List.filter_eq_self.2 ?_).symm
      intro t ht
      rcases List.mem_cons.1 ht with rfl | ht
      · rw [hq]
        rfl
      · rw [Bool.not_eq_true', Bool.eq_false_iff]
        intro hqt
        exact absurd (hs t ht hqt) (by simp [hq])

/-- And all that are dropped are dropped until then. -/
theorem takeWhile_eq_filter (h : ss.Pairwise (fun s t => q t = true → q s = true)) :
    ss.takeWhile q = ss.filter q := by
  induction h with
  | nil => rfl
  | @cons s ss hs _ ih =>
    cases hq : q s with
    | true => rw [List.takeWhile_cons_of_pos hq, List.filter_cons_of_pos hq, ih]
    | false =>
      rw [List.takeWhile_cons_of_neg (by simp [hq]), List.filter_cons_of_neg (by simp [hq])]
      refine (List.filter_eq_nil_iff.2 fun t ht hqt => ?_).symm
      exact absurd (hs t ht hqt) (by simp [hq])

end RaftReplica
