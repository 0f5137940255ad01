/-
RaftReplica/Proofs/Membership/History.lean

A history that forgets its front answers as if it had forgotten nothing.

Design.  What the history ought to know cannot be read off the history, for that is
what was forgotten.  So a second record is kept beside it, of the calls alone:

* `told` is all that was taken, less what was dropped at the end or fell to a floor;
* `floor` is the membership that was set as the floor last;
* `forgotten` is the largest index below which the history was asked to forget.

Such a pair is a `Chronicle`.  The history is `Chronicle.Sound` if its floor is the one
that was set, and if what it stores is an end of `told` that reaches back to the
membership that tells the members at `forgotten`.  That is more than it takes to answer
at `forgotten` itself, and less than all of `told`; it is what every call keeps
(`Chronicle.Sound.call`), and so every run does.

Main result: a membership is taken exactly if it comes after all that was told, and the
members are known as of every index from `forgotten` on
(`Chronicle.as_if_nothing_forgotten`).  What is below is not: there the history may tell
the floor where a membership was forgotten.
-/
import Mathlib.Data.List.Basic
import Mathlib.Data.List.Find
import Mathlib.Data.List.TakeWhile
import Mathlib.Tactic.Common
import RaftReplica.Proofs.Ordered
import RaftReplica.Membership.History

namespace RaftReplica

/-- Memberships in the order of their indexes. -/
def Ascending (ms : List Membership) : Prop := ms.Pairwise (fun a b => a.index < b.index)

namespace Ascending

variable {ms ns : List Membership} {m : Membership}

/-- A membership behind the last one keeps the order. -/
theorem concat (h : Ascending ms) (hlast : ∀ l, ms.getLast? = some l → l.index < m.index) :
    Ascending (ms ++ [m]) := by
  refine List.pairwise_append.2 ⟨h, List.pairwise_singleton _ _, ?_⟩
  intro a ha b hb
  obtain rfl := List.mem_singleton.1 hb
  rcases List.eq_nil_or_concat ms with rfl | ⟨init, last, rfl⟩
  · simp at ha
  · rw [List.concat_eq_append] at h ha hlast
    have hl := hlast last List.getLast?_concat
    rcases List.mem_append.1 ha with ha | ha
    · exact Nat.lt_trans ((List.pairwise_append.1 h).2.2 a ha last (List.mem_singleton.2 rfl)) hl
    · obtain rfl := List.mem_singleton.1 ha
      exact hl

theorem lt_of_concat (h : Ascending (ms ++ m :: ns)) :
    ∀ l, ms.getLast? = some l → l.index < m.index :=
  fun l hl => (List.pairwise_append.1 h).2.2 l (List.mem_of_getLast? hl) m List.mem_cons_self

/-- Memberships in order are dropped up to an index by looking at each of them. -/
theorem dropWhile_eq (h : Ascending ms) (i : Nat) :
    ms.dropWhile (·.index ≤ i) = ms.filter (i + 1 ≤ ·.index) := by
  rw [dropWhile_eq_filter]
  · refine List.filter_congr fun m _ => ?_
    rw [← decide_not, decide_eq_decide]
    omega
  · refine List.Pairwise.imp ?_ h
    intro a b hlt
    simp only [decide_eq_true_eq]
    omega

/-- None of those that are left after dropping the ones below an index is below it. -/
theorem le_of_mem_dropWhile (h : Ascending ms) {first : Nat}
    (hm : m ∈ ms.dropWhile (·.index < first)) : first ≤ m.index := by
  rw [dropWhile_eq_filter] at hm
  · simpa using (List.mem_filter.1 hm).2
  · refine List.Pairwise.imp ?_ h
    intro a b hlt
    simp only [decide_eq_true_eq]
    omega

/-- Dropping the ones above an index from the end leaves the others. -/
theorem reverse_dropWhile_reverse (h : Ascending ms) (last : Nat) :
    (ms.reverse.dropWhile (last < ·.index)).reverse = ms.filter (·.index ≤ last) := by
  rw [dropWhile_eq_filter, List.filter_reverse, List.reverse_reverse]
  · refine List.filter_congr fun m _ => ?_
    rw [← decide_not, decide_eq_decide]
    omega
  · refine (List.pairwise_reverse.2 h).imp ?_
    intro a b hlt
    simp only [decide_eq_true_eq]
    omega

end Ascending

/-- `m` is the last of the memberships that are not after `index`. -/
def Governs (ms : List Membership) (index : Nat) (m : Membership) : Prop :=
  m ∈ ms ∧ m.index ≤ index ∧ ∀ x ∈ ms, x.index ≤ index → x.index ≤ m.index

namespace MembershipHistory

variable {h h' : MembershipHistory} {m : Membership}

/-! ### The single calls -/

/-- A history grows at its end. -/
theorem add_eq_ok_iff : h.add m = .ok h' ↔
    (∀ l, h.entries.getLast? = some l → l.index < m.index) ∧
      h' = { h with entries := h.entries ++ [m] } := by
  unfold add
  cases hl : h.entries.getLast? with
  | none => simp [eq_comm]
  | some l =>
    dsimp only
    split
    · next hle =>
      simp only [reduceCtorEq, Option.some.injEq, forall_eq', false_iff, not_and]
      omega
    · next hlt => simp [Nat.not_le.1 hlt, eq_comm]

/-- A floor that does not move back is set, and what is not above it goes. -/
theorem setFloor_eq_ok_iff : h.setFloor m = .ok h' ↔
    ¬ m.id < h.floor.id ∧ h' = ⟨h.entries.dropWhile (·.index ≤ m.index), m⟩ := by
  unfold setFloor
  split
  · next hlt => simp [hlt]
  · next hlt => simp [hlt, eq_comm]

/-- Forgetting the front leaves the floor where it is. -/
theorem floor_truncateBefore (h : MembershipHistory) (first : Nat) :
    (h.truncateBefore first).floor = h.floor := by
  rw [truncateBefore]
  split
  · rfl
  · dsimp only
    split <;> rfl

/-- The front is forgotten, or nothing is: either the last one that is forgotten was not above the
floor, or what is left begins with one that is not after `first`. -/
theorem truncateBefore_cases (h : MembershipHistory) (first : Nat) :
    ∃ gone, h.entries = gone ++ (h.truncateBefore first).entries ∧
      ∀ g, gone.getLast? = some g →
        g.index ≤ h.floor.index ∨ ∃ e ∈ (h.truncateBefore first).entries, e.index ≤ first := by
  have hsplit : h.entries = h.entries.takeWhile (·.index < first) ++
      h.entries.dropWhile (·.index < first) := List.takeWhile_append_dropWhile.symm
  rw [truncateBefore]
  generalize hdropped : h.entries.takeWhile (·.index < first) = dropped at hsplit ⊢
  generalize h.entries.dropWhile (·.index < first) = kept at hsplit ⊢
  -- nothing is below the index, or the last one below it may have to stay
  cases hg : dropped.getLast? with
  | none => exact ⟨[], rfl, by simp⟩
  | some governing =>
    obtain ⟨init, rfl⟩ := List.getLast?_eq_some_iff.1 hg
    have hlt : governing.index < first := by
      have hmem : governing ∈ h.entries.takeWhile (·.index < first) := by simp [hdropped]
      simpa using List.mem_takeWhile_imp hmem
    dsimp only
    split
    · refine ⟨init, by rw [hsplit, List.append_assoc]; rfl, fun g _ => .inr ?_⟩
      exact ⟨governing, List.mem_cons_self, Nat.le_of_lt hlt⟩
    · next hcovered =>
      refine ⟨init ++ [governing], hsplit, fun g hlast => ?_⟩
      obtain rfl : governing = g := by simpa using hlast
      rw [Bool.and_eq_true, Bool.not_eq_true', decide_eq_true_eq, not_and_or,
        Bool.not_eq_false] at hcovered
      refine hcovered.symm.imp Nat.not_lt.1 fun hany => ?_
      obtain ⟨e, he, hfirst⟩ := (Option.any_eq_true _ _).1 hany
      exact ⟨e, List.mem_of_head? he, Nat.le_of_eq (beq_iff_eq.1 hfirst)⟩

/-- At most one membership below `first` is left when those below it are forgotten. -/
theorem countP_truncateBefore_le (ha : Ascending h.entries) (first : Nat) :
    (h.truncateBefore first).entries.countP (·.index < first) ≤ 1 := by
  have hkept : (h.entries.dropWhile (·.index < first)).countP (·.index < first) = 0 := by
    refine List.countP_eq_zero.2 fun m hm hlt => ?_
    have hle := ha.le_of_mem_dropWhile hm
    rw [decide_eq_true_eq] at hlt
    omega
  rw [truncateBefore]
  cases hg : (h.entries.takeWhile (·.index < first)).getLast? with
  | none =>
    have hnil := List.getLast?_eq_none_iff.1 hg
    have hall : h.entries.dropWhile (·.index < first) = h.entries := by
      have hsplit : h.entries.takeWhile (·.index < first) ++ h.entries.dropWhile (·.index < first) =
          h.entries := List.takeWhile_append_dropWhile
      rwa [hnil, List.nil_append] at hsplit
    rw [hall] at hkept
    exact Nat.le_trans (Nat.le_of_eq hkept) (Nat.zero_le 1)
  | some governing =>
    dsimp only
    split
    · show (governing :: _).countP _ ≤ 1
      rw [List.countP_cons, hkept]
      split <;> omega
    · exact Nat.le_trans (Nat.le_of_eq hkept) (Nat.zero_le 1)

/-- The members as of an index are those of the last membership that is not after it, or of the floor
if there is none. -/
theorem get_eq (ha : Ascending h.entries) (i : Nat) :
    Governs h.entries i (h.get i) ∨ (∀ x ∈ h.entries, i < x.index) ∧ h.get i = h.floor := by
  rw [get]
  -- the last one at or below the index, or none and then the floor
  cases hfind : h.entries.reverse.find? (·.index ≤ i) with
  | none =>
    refine .inr ⟨fun x hx => ?_, rfl⟩
    have hnone := List.find?_eq_none.1 hfind x (List.mem_reverse.2 hx)
    simpa using hnone
  | some m =>
    obtain ⟨hle, after, before, hsplit, hafter⟩ := List.find?_eq_some_iff_append.1 hfind
    have hentries : h.entries = before.reverse ++ m :: after.reverse := by
      rw [← List.reverse_reverse h.entries, hsplit]
      simp
    refine .inl ⟨?_, by simpa using hle, fun x hx hxi => ?_⟩
    · rw [hentries]
      simp
    · rw [hentries] at hx ha
      rcases List.mem_append.1 hx with hx | hx
      · exact Nat.le_of_lt ((List.pairwise_append.1 ha).2.2 x hx m List.mem_cons_self)
      · rcases List.mem_cons.1 hx with rfl | hx
        · exact Nat.le_refl _
        · have hnot := hafter x (List.mem_reverse.1 hx)
          simp only [Bool.not_eq_true', decide_eq_false_iff_not] at hnot
          exact absurd hxi hnot

/-- The members as of an index are those of the last membership that is not after it and above
another index before it, or else the members as of that one. -/
theorem get_above (ha : Ascending h.entries) {n i : Nat} (hi : n ≤ i) :
    h.get i = ((h.entries.dropWhile (·.index ≤ n)).reverse.find? (·.index ≤ i)).getD (h.get n) := by
  have hsplit : h.entries.reverse = (h.entries.dropWhile (·.index ≤ n)).reverse ++
      (h.entries.takeWhile (·.index ≤ n)).reverse := by
    rw [← List.reverse_append, List.takeWhile_append_dropWhile]
  -- all that is not above the one index is not above the other
  have hbelow : (h.entries.takeWhile (·.index ≤ n)).reverse.find? (·.index ≤ i) =
      (h.entries.takeWhile (·.index ≤ n)).reverse.find? (·.index ≤ n) := by
    refine List.find?_congr fun x hx => ?_
    have hle := List.mem_takeWhile_imp (List.mem_reverse.1 hx)
    rw [decide_eq_true_eq] at hle
    rw [decide_eq_true hle, decide_eq_true (Nat.le_trans hle hi)]
  have habove : (h.entries.dropWhile (·.index ≤ n)).reverse.find? (·.index ≤ n) = none := by
    rw [ha.dropWhile_eq, List.find?_eq_none]
    intro x hx
    have hlt := (List.mem_filter.1 (List.mem_reverse.1 hx)).2
    rw [decide_eq_true_eq] at hlt ⊢
    omega
  rw [get, get, hsplit, List.find?_append, List.find?_append, hbelow, habove, Option.none_or]
  cases (h.entries.dropWhile (·.index ≤ n)).reverse.find? (·.index ≤ i) <;> rfl

/-! ### Changes -/

/-- The calls that change a history. -/
inductive Change
  | add (m : Membership)
  | truncateBefore (first : Nat)
  | truncateAfter (last : Nat)
  | setFloor (m : Membership)

/-- The history after a call; one that is refused leaves it as it is. -/
def after (h : MembershipHistory) : Change → MembershipHistory
  | .add m => (h.add m).toOption.getD h
  | .truncateBefore first => h.truncateBefore first
  | .truncateAfter last => h.truncateAfter last
  | .setFloor m => (h.setFloor m).toOption.getD h

/-- The histories that calls lead to from one that is new. -/
inductive Reachable : MembershipHistory → Prop
  | new : Reachable empty
  | change {h : MembershipHistory} (c : Change) (hr : Reachable h) : Reachable (h.after c)

/-- Every call keeps a history in order. -/
theorem ascending_after (ha : Ascending h.entries) (c : Change) : Ascending (h.after c).entries := by
  -- dropping and filtering keep an order; adding asks for it
  cases c with
  | add m =>
    rw [after]
    cases hadd : h.add m with
    | error e => exact ha
    | ok h' =>
      obtain ⟨hlast, rfl⟩ := add_eq_ok_iff.1 hadd
      exact ha.concat hlast
  | truncateBefore first =>
    obtain ⟨gone, hsplit, -⟩ := h.truncateBefore_cases first
    rw [hsplit] at ha
    exact (List.pairwise_append.1 ha).2.1
  | truncateAfter last =>
    show Ascending (h.entries.reverse.dropWhile (last < ·.index)).reverse
    rw [ha.reverse_dropWhile_reverse]
    exact ha.filter _
  | setFloor m =>
    rw [after]
    cases hset : h.setFloor m with
    | error v => exact ha
    | ok h' =>
      obtain ⟨-, rfl⟩ := setFloor_eq_ok_iff.1 hset
      exact ha.sublist (List.dropWhile_sublist _)

/-- What is stored is in order, whatever was called. -/
theorem Reachable.ascending (hr : h.Reachable) : Ascending h.entries := by
  induction hr with
  | new => exact .nil
  | change c _ ih => exact ascending_after ih c

end MembershipHistory

/-! ### What a history was told -/

/-- A history beside all that it was told and that was not dropped at the end or with a floor; `floor`
is the one that was set last, and `forgotten` the largest index below which it was asked to forget. -/
structure Chronicle where
  history : MembershipHistory := .empty
  told : List Membership := []
  floor : Membership := .initial
  forgotten : Nat := 0

namespace Chronicle

open MembershipHistory (Change)

variable {c : Chronicle} {m : Membership}

/-- The chronicle after a call on its history.  Forgetting the front takes nothing from it, and a floor
is written down as it is set, whatever the history makes of it. -/
def after (c : Chronicle) (x : Change) : Chronicle where
  history := c.history.after x
  told := match x with
    | .add m => if (c.history.add m).isOk then c.told ++ [m] else c.told
    | .truncateBefore _ => c.told
    | .truncateAfter last => c.told.filter (·.index ≤ last)
    | .setFloor m => c.told.filter (m.index < ·.index)
  floor := match x with
    | .setFloor m => m
    | _ => c.floor
  forgotten := match x with
    | .truncateBefore first => max c.forgotten first
    | _ => c.forgotten

/-- What a history is asked to do: it is told what is above the floor, the end is dropped only above
what it was asked to forget, and the floor does not move back. -/
def Allows (c : Chronicle) : Change → Prop
  | .add m => c.floor.index < m.index
  | .truncateBefore _ => True
  | .truncateAfter last => c.forgotten ≤ last
  | .setFloor m => ¬ m.id < c.floor.id

instance : (x : Change) → Decidable (c.Allows x)
  | .add m => inferInstanceAs (Decidable (c.floor.index < m.index))
  | .truncateBefore _ => inferInstanceAs (Decidable True)
  | .truncateAfter last => inferInstanceAs (Decidable (c.forgotten ≤ last))
  | .setFloor m => inferInstanceAs (Decidable (¬ m.id < c.floor.id))

/-- The chronicles that such calls lead to from one that is new. -/
inductive Reached : Chronicle → Prop
  | new : Reached {}
  | call {c : Chronicle} (x : Change) (h : c.Reached) (hx : c.Allows x) : Reached (c.after x)

/-- The history has the floor that was set last.  It stores the end of what it was told, and what is
missing is followed by something that is not after `forgotten`. -/
structure Sound (c : Chronicle) : Prop where
  floor : c.history.floor = c.floor
  ascending : Ascending c.told
  above : ∀ x ∈ c.told, c.floor.index < x.index
  stored : ∃ gone, c.told = gone ++ c.history.entries ∧
    (gone ≠ [] → ∃ e ∈ c.history.entries, e.index ≤ c.forgotten)

namespace Sound

variable (h : c.Sound)

include h

/-- What is stored is an end of what was told, so it is in order as well. -/
theorem ascending_entries : Ascending c.history.entries := by
  obtain ⟨gone, hsplit, -⟩ := h.stored
  have ha := h.ascending
  rw [hsplit] at ha
  exact (List.pairwise_append.1 ha).2.1

/-- What was told last is stored. -/
theorem getLast?_eq : c.history.entries.getLast? = c.told.getLast? := by
  obtain ⟨gone, hsplit, hgone⟩ := h.stored
  rw [hsplit]
  by_cases hnil : gone = []
  · rw [hnil, List.nil_append]
  · obtain ⟨e, he, -⟩ := hgone hnil
    rw [List.getLast?_append_of_ne_nil _ (List.ne_nil_of_mem he)]

/-- A membership that is told comes behind all the others, in what was told and in what is stored. -/
theorem add (hm : c.floor.index < m.index) : (c.after (.add m)).Sound := by
  cases hadd : c.history.add m with
  | error e =>
    have hsame : c.after (.add m) = c := by simp [after, MembershipHistory.after, hadd, Except.isOk,
      Except.toBool, Except.toOption]
    rwa [hsame]
  | ok h' =>
    obtain ⟨hlast, rfl⟩ := MembershipHistory.add_eq_ok_iff.1 hadd
    have hsame : c.after (.add m) = { c with
        history := { c.history with entries := c.history.entries ++ [m] }
        told := c.told ++ [m] } := by
      simp [after, MembershipHistory.after, hadd, Except.isOk, Except.toBool, Except.toOption]
    rw [hsame]
    obtain ⟨gone, hsplit, hgone⟩ := h.stored
    refine ⟨h.floor, h.ascending.concat (h.getLast?_eq ▸ hlast), ?_, gone, ?_, fun hne => ?_⟩
    · intro x hx
      rcases List.mem_append.1 hx with hx | hx
      · exact h.above x hx
      · exact List.mem_singleton.1 hx ▸ hm
    · rw [hsplit, List.append_assoc]
    · obtain ⟨e, he, hle⟩ := hgone hne
      exact ⟨e, List.mem_append_left _ he, hle⟩

/-- Forgetting keeps what is needed from there on. -/
theorem truncateBefore (first : Nat) : (c.after (.truncateBefore first)).Sound := by
  obtain ⟨gone, hsplit, hgone⟩ := h.stored
  obtain ⟨more, hmore, hlast⟩ := c.history.truncateBefore_cases first
  refine ⟨?_, h.ascending, h.above, gone ++ more, ?_, fun hne => ?_⟩
  · exact (MembershipHistory.floor_truncateBefore c.history first).trans h.floor
  · show c.told = _ ++ (c.history.truncateBefore first).entries
    rw [List.append_assoc, ← hmore, hsplit]
  · show ∃ e ∈ (c.history.truncateBefore first).entries, e.index ≤ max c.forgotten first
    cases hg : more.getLast? with
    | none =>
      -- nothing more is forgotten, and what was missing before has its successor still
      obtain rfl := List.getLast?_eq_none_iff.1 hg
      rw [List.append_nil] at hne
      obtain ⟨e, he, hle⟩ := hgone hne
      rw [hmore, List.nil_append] at he
      exact ⟨e, he, Nat.le_trans hle (Nat.le_max_left _ _)⟩
    | some g =>
      have hmem : g ∈ c.told := by
        rw [hsplit, hmore]
        have hg := List.mem_of_getLast? hg
        simp [hg]
      -- what was told is above the floor, so something that is left tells the members at `first`
      rcases hlast g hg with hle | ⟨e, he, hle⟩
      · have habove := h.above g hmem
        rw [h.floor] at hle
        omega
      · exact ⟨e, he, Nat.le_trans hle (Nat.le_max_right _ _)⟩

/-- Dropping the end is sound as long as it is not below what was forgotten. -/
theorem truncateAfter {last : Nat} (hlast : c.forgotten ≤ last) :
    (c.after (.truncateAfter last)).Sound := by
  obtain ⟨gone, hsplit, hgone⟩ := h.stored
  have hentries : (c.history.truncateAfter last).entries =
      c.history.entries.filter (·.index ≤ last) := h.ascending_entries.reverse_dropWhile_reverse last
  refine ⟨h.floor, h.ascending.filter _, fun x hx => h.above x (List.mem_of_mem_filter hx),
    gone.filter (·.index ≤ last), ?_, fun hne => ?_⟩
  · show c.told.filter _ = _ ++ (c.history.truncateAfter last).entries
    rw [hentries, hsplit, List.filter_append]
  · show ∃ e ∈ (c.history.truncateAfter last).entries, e.index ≤ c.forgotten
    obtain ⟨e, he, hle⟩ := hgone fun hnil => hne (by rw [hnil, List.filter_nil])
    rw [hentries]
    exact ⟨e, List.mem_filter.2 ⟨he, decide_eq_true (Nat.le_trans hle hlast)⟩, hle⟩

/-- A floor that does not move back is set, and takes the same from both sides. -/
theorem setFloor (hm : ¬ m.id < c.floor.id) : (c.after (.setFloor m)).Sound := by
  have hset : c.history.setFloor m = .ok ⟨c.history.entries.dropWhile (·.index ≤ m.index), m⟩ :=
    MembershipHistory.setFloor_eq_ok_iff.2 ⟨h.floor.symm ▸ hm, rfl⟩
  have hsame : c.after (.setFloor m) = { c with
      history := ⟨c.history.entries.filter (m.index + 1 ≤ ·.index), m⟩
      told := c.told.filter (m.index < ·.index)
      floor := m } := by
    simp [after, MembershipHistory.after, hset, Except.toOption, h.ascending_entries.dropWhile_eq]
  rw [hsame]
  obtain ⟨gone, hsplit, hgone⟩ := h.stored
  refine ⟨rfl, h.ascending.filter _, fun x hx => by simpa using (List.mem_filter.1 hx).2,
    gone.filter (m.index < ·.index), ?_, fun hne => ?_⟩
  · rw [hsplit, List.filter_append]
    rfl
  · -- the one behind what is missing is after all of that, so it is above the floor as well
    obtain ⟨g, hg⟩ := List.exists_mem_of_ne_nil _ hne
    obtain ⟨hg, hlt⟩ := List.mem_filter.1 hg
    obtain ⟨e, he, hle⟩ := hgone (List.ne_nil_of_mem hg)
    have ha := h.ascending
    rw [hsplit] at ha
    have hafter := (List.pairwise_append.1 ha).2.2 g hg e he
    rw [decide_eq_true_eq] at hlt
    exact ⟨e, List.mem_filter.2 ⟨he, decide_eq_true (by omega)⟩, hle⟩

/-- The members as of an index from `forgotten` on are what all that was told says they are. -/
theorem get_eq {i : Nat} (hi : c.forgotten ≤ i) : Governs c.told i (c.history.get i) ∨
    (∀ x ∈ c.told, i < x.index) ∧ c.history.get i = c.floor := by
  obtain ⟨gone, hsplit, hgone⟩ := h.stored
  have ha := h.ascending
  rw [hsplit] at ha ⊢
  -- a stored membership tells the members, or none does and nothing was forgotten
  rcases c.history.get_eq h.ascending_entries i with ⟨hmem, hle, hgreatest⟩ | ⟨hall, hfloor⟩
  · refine .inl ⟨List.mem_append_right _ hmem, hle, fun x hx hxi => ?_⟩
    rcases List.mem_append.1 hx with hx | hx
    · exact Nat.le_of_lt ((List.pairwise_append.1 ha).2.2 x hx _ hmem)
    · exact hgreatest x hx hxi
  · have hnil : gone = [] := by
      by_contra hne
      obtain ⟨e, he, hle⟩ := hgone hne
      have hlt := hall e he
      omega
    rw [hnil, List.nil_append]
    exact .inr ⟨hall, hfloor.trans h.floor⟩

end Sound

/-- **Every call** keeps the chronicle sound. -/
theorem Sound.call {x : Change} (h : c.Sound) (hx : c.Allows x) : (c.after x).Sound := by
  cases x with
  | add m => exact h.add hx
  | truncateBefore first => exact h.truncateBefore first
  | truncateAfter last => exact h.truncateAfter hx
  | setFloor m => exact h.setFloor hx

/-- Every run that stays within what is allowed is sound. -/
theorem Reached.sound (h : c.Reached) : c.Sound := by
  induction h with
  | new => exact ⟨rfl, .nil, by simp, [], rfl, by simp⟩
  | call x _ hx ih => exact ih.call hx

/-- **A history answers as if it had forgotten nothing.**  A new history is told memberships above
its floor, the floor moves up, and the history is cut at its end, never below an index up to which it
was asked to forget.  Then

* the floor of the history is the one that was set last;
* a membership is taken exactly if it comes after all that was told;
* the newest membership is the one that was told last, or else that floor;
* what is stored is in order;
* right after the history is asked to forget what is below an index it stores at most one of that;
* as of every index from the largest such one on, the members are those of the last membership told
  that is not after the index, or of that floor if there is none. -/
theorem as_if_nothing_forgotten (h : c.Reached) :
    c.history.floor = c.floor ∧
    (∀ m, (∃ h', c.history.add m = .ok h') ↔ ∀ l ∈ c.told.getLast?, l.index < m.index) ∧
    c.history.last = c.told.getLast?.getD c.floor ∧
    Ascending c.history.entries ∧
    (∀ first, (c.history.truncateBefore first).entries.countP (·.index < first) ≤ 1) ∧
    ∀ i, c.forgotten ≤ i → Governs c.told i (c.history.get i) ∨
      (∀ x ∈ c.told, i < x.index) ∧ c.history.get i = c.floor := by
  have hs := h.sound
  refine ⟨hs.floor, fun m => ?_, ?_, hs.ascending_entries,
    MembershipHistory.countP_truncateBefore_le hs.ascending_entries, fun i => hs.get_eq⟩
  · rw [← hs.getLast?_eq]
    constructor
    · rintro ⟨h', hadd⟩ l hl
      exact (MembershipHistory.add_eq_ok_iff.1 hadd).1 l hl
    · intro hlast
      exact ⟨_, MembershipHistory.add_eq_ok_iff.2 ⟨hlast, rfl⟩⟩
  · rw [MembershipHistory.last, hs.getLast?_eq, hs.floor]

/-- The floor is set, the front is forgotten up to between two memberships, and the end is dropped
and told anew: the membership before the watermark is still known. -/
theorem as_if_nothing_forgotten_retold :
    let at_ (term index : Nat) : Membership := ⟨⟨term, index⟩, .empty, .empty⟩
    let c : Chronicle := [.setFloor (at_ 1 1), .add (at_ 1 2), .add (at_ 1 3), .add (at_ 1 6),
      .truncateBefore 5, .truncateAfter 5, .add (at_ 2 7)].foldl Chronicle.after {}
    c.told = [at_ 1 2, at_ 1 3, at_ 2 7] ∧ c.history.entries = [at_ 1 3, at_ 2 7] ∧
      c.history.floor = at_ 1 1 ∧ (∃ h', c.history.add (at_ 2 8) = .ok h') ∧
      c.history.last = at_ 2 7 ∧ Governs c.told 6 (at_ 1 3) := by
  intro at_ c
  have hreached : c.Reached :=
    .call _ (.call _ (.call _ (.call _ (.call _ (.call _ (.call _ .new (by decide)) (by decide))
      (by decide)) (by decide)) (by decide)) (by decide)) (by decide)
  obtain ⟨hfloor, hadd, hlast, -, -, hget⟩ := as_if_nothing_forgotten hreached
  have hset : c.floor = at_ 1 1 := by decide
  refine ⟨by decide, by decide, hfloor.trans hset, (hadd _).2 (by decide), hlast.trans (by decide), ?_⟩
  have hmembers : c.history.get 6 = at_ 1 3 := by decide
  rcases hget 6 (by decide) with hgoverns | ⟨hnone, -⟩
  · rwa [hmembers] at hgoverns
  · exact absurd (hnone (at_ 1 3) (by decide)) (by decide)

end Chronicle
end RaftReplica
