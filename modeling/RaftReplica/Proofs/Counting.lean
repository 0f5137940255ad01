/-
RaftReplica/Proofs/Counting.lean

Counting in a list of which one member is replaced by another.  What the members give together is, up
to its order, what the one member gives and what all others do (`append_flatMap_perm`).

A system of parts, each in a state of its own, takes a step when one of the parts does.  So a number
that is added up over the parts changes by what the one part gave before and gives now
(`countP_set_add`), and a collection that is put together from the parts changes by the one part's
share (`flatMap_modify`).  The members are given by their places, as the parts of a system are by
their numbers.
-/
import Mathlib.Data.List.Basic
import Mathlib.Tactic.Common

namespace RaftReplica

variable {α β : Type}

/-- What stands around a member stays when it is replaced. -/
theorem exists_around {l : List α} {n : Nat} {a : α} (h : l[n]? = some a) :
    ∃ before behind, l = before ++ a :: behind ∧ ∀ b, l.set n b = before ++ b :: behind := by
  induction l generalizing n with
  | nil => simp at h
  | cons c rest ih =>
    cases n with
    | zero =>
      obtain rfl : c = a := by simpa using h
      exact ⟨[], rest, rfl, fun _ => rfl⟩
    | succ n =>
      obtain ⟨before, behind, rfl, hset⟩ := ih (by simpa using h)
      exact ⟨c :: before, behind, rfl, fun b => by rw [List.set_cons_succ, hset]; rfl⟩

/-- Replacing a member changes a count by the two members alone. -/
theorem countP_set_add {p : α → Bool} {l : List α} {n : Nat} {a : α} (b : α) (h : l[n]? = some a) :
    (l.set n b).countP p + (p a).toNat = l.countP p + (p b).toNat := by
  obtain ⟨before, behind, rfl, hset⟩ := exists_around h
  rw [hset, List.countP_append, List.countP_append, List.countP_cons, List.countP_cons]
  cases p a <;> cases p b <;> simp <;> omega

theorem countP_pos_of_getElem? {p : α → Bool} {l : List α} {n : Nat} {a : α} (h : l[n]? = some a)
    (ha : p a = true) : 0 < l.countP p :=
  List.countP_pos_iff.2 ⟨a, List.mem_of_getElem? h, ha⟩

/-- A member replaced by one that gives the same, or nothing, leaves part of what the list gave. -/
theorem filterMap_set_sublist {f : α → Option β} {l : List α} {n : Nat} {a b : α}
    (h : l[n]? = some a) (hb : f b = f a ∨ f b = none) :
    ((l.set n b).filterMap f).Sublist (l.filterMap f) := by
  obtain ⟨before, behind, rfl, hset⟩ := exists_around h
  rw [hset, List.filterMap_append, List.filterMap_append, List.filterMap_cons, List.filterMap_cons]
  refine (List.Sublist.refl _).append ?_
  rcases hb with hb | hb
  · simp [hb]
  · rw [hb]
    cases f a with
    | none => exact List.Sublist.refl _
    | some x => exact List.sublist_cons_self _ _

/-- A member in front of all others, before and after it was replaced. -/
theorem exists_perm_modify {l : List α} {n : Nat} {a : α} (h : l[n]? = some a) :
    ∃ rest, l.Perm (a :: rest) ∧ ∀ f, (l.modify n f).Perm (f a :: rest) := by
  obtain ⟨before, behind, hl, hset⟩ := exists_around h
  refine ⟨before ++ behind, hl ▸ List.perm_middle, fun f => ?_⟩
  have hmodify : l.modify n f = l.set n (f a) := by
    rw [List.modify_eq_set_getElem?, h]
    rfl
  rw [hmodify, hset]
  exact List.perm_middle

/-- A member that gives the same after it was replaced does not change what all give. -/
theorem flatMap_modify {l : List α} {n : Nat} {f : α → α} {g : α → List β}
    (h : ∀ a, l[n]? = some a → g (f a) = g a) : (l.modify n f).flatMap g = l.flatMap g := by
  rw [List.modify_eq_set_getElem?]
  cases ha : l[n]? with
  | none => rfl
  | some a =>
    obtain ⟨before, behind, hl, hset⟩ := exists_around ha
    show (l.set n (f a)).flatMap g = _
    rw [hset, hl, List.flatMap_append, List.flatMap_append, List.flatMap_cons, List.flatMap_cons,
      h a ha]

/-- The share of one member can be taken out in front of all others. -/
theorem append_flatMap_perm {l rest : List α} {a : α} (h : l.Perm (a :: rest)) (before : List β)
    (f : α → List β) : (before ++ l.flatMap f).Perm (f a ++ (before ++ rest.flatMap f)) := by
  refine ((List.Perm.refl before).append (h.flatMap_right f)).trans ?_
  rw [List.flatMap_cons, ← List.append_assoc, ← List.append_assoc]
  exact List.perm_append_comm.append_right _

end RaftReplica
