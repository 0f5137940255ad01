/-
RaftReplica/Proofs/Membership/Floor.lean

When the floor of a history is one.  A membership is compared with the last one that is stored, and
with nothing where nothing is stored, so right after the floor has moved up a membership at or below
it is accepted.  What follows hangs on that alone: a run whose accepted memberships all come after
the newest one, stored or floor, keeps the floor below all that is stored in each of its states, and
a run in which one does not leaves a state where it is not below (`floor_kept_iff`).

`Grounded` is what a floor is for, in three ways of saying it: everything stored is above it, the
last membership is not older than it, and forgetting below an index does not change what is told
from there on.  All three follow from the first (`Above.grounded`), so one invariant is enough for
the direction from runs to states.

For the other direction take a membership that was accepted without coming after the newest
one.  Then nothing was stored, so the newest one is the floor; and now it is stored and not above
it.  The equivalence has no hypothesis, and it is about every state of the run, not about the last
one alone.
-/
import Mathlib.Data.List.Induction
import RaftReplica.Proofs.Membership.History

namespace RaftReplica.MembershipHistory

variable {h : MembershipHistory} {m : Membership}

/-- The history after the calls, one after the other, from one that is new. -/
def run (cs : List Change) : MembershipHistory := cs.foldl after empty

theorem run_concat (cs : List Change) (c : Change) : run (cs ++ [c]) = (run cs).after c := by
  rw [run, List.foldl_concat]
  rfl

/-- Runs lead to histories that are reachable. -/
theorem reachable_run (cs : List Change) : (run cs).Reachable := by
  induction cs using List.reverseRecOn with
  | nil => exact .new
  | append_singleton cs c ih =>
    rw [run_concat]
    exact .change c ih

/-! ### What is accepted -/

/-- The membership is accepted. -/
def Takes (h : MembershipHistory) (m : Membership) : Prop := ∃ h', h.add m = .ok h'

theorem takes_iff : h.Takes m ↔ ∀ l, h.entries.getLast? = some l → l.index < m.index :=
  ⟨fun ⟨_, hadd⟩ => (add_eq_ok_iff.1 hadd).1, fun hlast => ⟨_, add_eq_ok_iff.2 ⟨hlast, rfl⟩⟩⟩

/-- A membership that is taken comes after the newest one, unless nothing is stored. -/
theorem takes_iff_last : h.Takes m ↔ (h.entries ≠ [] → h.last.index < m.index) := by
  rw [takes_iff, last]
  rcases List.eq_nil_or_concat h.entries with hnil | ⟨init, l, hl⟩
  · simp [hnil]
  · rw [List.concat_eq_append] at hl
    simp [hl]

/-- One that is taken is stored at the end. -/
theorem after_add_of_takes (hm : h.Takes m) :
    h.after (.add m) = { h with entries := h.entries ++ [m] } := by
  rw [after, add_eq_ok_iff.2 ⟨takes_iff.1 hm, rfl⟩]
  rfl

/-- One that is not taken changes nothing. -/
theorem after_add_of_not_takes (hm : ¬ h.Takes m) : h.after (.add m) = h := by
  rw [after]
  cases hadd : h.add m with
  | error e => rfl
  | ok h' => exact absurd ⟨h', hadd⟩ hm

/-! ### Above the floor -/

/-- All that is stored is above the floor. -/
def Above (h : MembershipHistory) : Prop := ∀ x ∈ h.entries, h.floor.index < x.index

/-- A call keeps what is stored above the floor, if it does not add to an empty history what is
not above. -/
theorem Above.after (ha : Ascending h.entries) (habove : h.Above) (c : Change)
    (hc : ∀ m, c = .add m → h.Takes m → h.last.index < m.index) : (h.after c).Above := by
  -- only adding can put something at or below the floor
  cases c with
  | add m =>
    by_cases hm : h.Takes m
    · have hlast := hc m rfl hm
      have hfloor : h.floor.index ≤ h.last.index := by
        rw [last]
        cases hl : h.entries.getLast? with
        | none => exact Nat.le_refl _
        | some l => exact Nat.le_of_lt (habove l (List.mem_of_getLast? hl))
      rw [after_add_of_takes hm]
      intro x hx
      rcases List.mem_append.1 hx with hx | hx
      · exact habove x hx
      · obtain rfl := List.mem_singleton.1 hx
        exact Nat.lt_of_le_of_lt hfloor hlast
    · rwa [after_add_of_not_takes hm]
  | truncateBefore first =>
    obtain ⟨gone, hsplit, -⟩ := h.truncateBefore_cases first
    intro x hx
    show (h.truncateBefore first).floor.index < _
    rw [floor_truncateBefore]
    refine habove x ?_
    rw [hsplit]
    exact List.mem_append_right _ hx
  | truncateAfter last =>
    intro x hx
    replace hx : x ∈ (h.entries.reverse.dropWhile (last < ·.index)).reverse := hx
    rw [ha.reverse_dropWhile_reverse] at hx
    exact habove x (List.mem_of_mem_filter hx)
  | setFloor m =>
    rw [MembershipHistory.after]
    cases hset : h.setFloor m with
    | error v => exact habove
    | ok h' =>
      obtain ⟨-, rfl⟩ := setFloor_eq_ok_iff.1 hset
      intro x hx
      replace hx : x ∈ h.entries.dropWhile (·.index ≤ m.index) := hx
      rw [ha.dropWhile_eq] at hx
      have hlt := (List.mem_filter.1 hx).2
      exact of_decide_eq_true hlt

/-- Forgetting the front is not noticed from where it is forgotten up to. -/
theorem Above.get_truncateBefore (habove : h.Above) {first i : Nat} (hi : first ≤ i) :
    (h.truncateBefore first).get i = h.get i := by
  obtain ⟨gone, hsplit, hgone⟩ := h.truncateBefore_cases first
  rw [get, get, floor_truncateBefore]
  congr 1
  conv_rhs => rw [hsplit, List.reverse_append, List.find?_append]
  cases hg : gone.getLast? with
  | none => simp [List.getLast?_eq_none_iff.1 hg]
  | some g =>
    -- what is forgotten was above the floor, so one that is left tells the members at `first`
    have hmem : g ∈ h.entries := by
      rw [hsplit]
      exact List.mem_append_left _ (List.mem_of_getLast? hg)
    rcases hgone g hg with hle | ⟨e, he, hle⟩
    · have hlt := habove g hmem
      omega
    · have hfound : ((h.truncateBefore first).entries.reverse.find? (·.index ≤ i)).isSome := by
        rw [List.find?_isSome]
        exact ⟨e, List.mem_reverse.2 he, decide_eq_true (Nat.le_trans hle hi)⟩
      obtain ⟨x, hx⟩ := Option.isSome_iff_exists.1 hfound
      rw [hx]
      rfl

/-- The floor is one: it is below all that is stored, the newest membership is not before it, and
no front that is forgotten is missed. -/
structure Grounded (h : MembershipHistory) : Prop where
  above : h.Above
  last : ¬ h.last.id < h.floor.id
  forgets : ∀ first i, first ≤ i → (h.truncateBefore first).get i = h.get i

/-- A floor with everything above it is all that a floor is for. -/
theorem Above.grounded (habove : h.Above) : h.Grounded where
  above := habove
  last := by
    rw [MembershipHistory.last, LogId.lt_iff]
    cases hl : h.entries.getLast? with
    | none =>
      rw [Option.getD_none]
      omega
    | some l =>
      have hlt : h.floor.id.index < l.id.index := habove l (List.mem_of_getLast? hl)
      rw [Option.getD_some]
      omega
  forgets _ _ := habove.get_truncateBefore

/-- **The floor holds along a run exactly if no accepted membership is at or below the newest
one.**  Whatever calls there were, a membership is accepted if it comes after the newest one, and
any is if nothing is stored.  As long as every accepted one came after the newest one, the floor
counting as the newest where nothing is stored,

* all that is stored is above the floor,
* the newest membership is not before the floor, and
* the members as of every index from `first` on are the same after what is below `first` has been
  forgotten,

in each state of the run; and if this is so in each state, every accepted one came after. -/
theorem floor_kept_iff (cs : List Change) :
    (∀ m, (run cs).Takes m ↔ ((run cs).entries ≠ [] → (run cs).last.index < m.index)) ∧
    ((∀ done m, done ++ [.add m] <+: cs → (run done).Takes m → (run done).last.index < m.index) ↔
      ∀ done, done <+: cs → (run done).Grounded) := by
  refine ⟨fun m => takes_iff_last, fun hafter done hdone => ?_, fun hkept done m hdone hm => ?_⟩
  · refine Above.grounded ?_
    induction done using List.reverseRecOn with
    | nil => exact fun x hx => absurd hx List.not_mem_nil
    | append_singleton done c ih =>
      rw [run_concat]
      have hbefore : done <+: cs := (List.prefix_append done [c]).trans hdone
      refine (ih hbefore).after (reachable_run done).ascending c fun m hc => ?_
      rw [hc] at hdone
      exact hafter done m hdone
  · by_cases hnil : (run done).entries = []
    · -- only the floor can be the newest one, and the state after the call has it below `m`
      have habove := (hkept _ hdone).above
      rw [run_concat, after_add_of_takes hm] at habove
      have hlast : (run done).last = (run done).floor := by
        rw [last, hnil]
        rfl
      rw [hlast]
      exact habove m (List.mem_append_right _ (List.mem_singleton.2 rfl))
    · exact takes_iff_last.1 hm hnil

/-- Right after the floor has been set at 10 a membership at 5 is accepted.  It is the newest one
then although it is before the floor, and once what is below 7 is forgotten the members as of 8 are
others. -/
theorem floor_overtaken :
    let at_ (index : Nat) : Membership := ⟨⟨1, index⟩, .empty, .empty⟩
    let set := run [.setFloor (at_ 10)]
    let overtaken := run [.setFloor (at_ 10), .add (at_ 5)]
    (set.Takes (at_ 5) ∧ set.last = at_ 10) ∧
      (overtaken.entries = [at_ 5] ∧ overtaken.last.id < overtaken.floor.id) ∧
      overtaken.get 8 = at_ 5 ∧ (overtaken.truncateBefore 7).get 8 = at_ 10 := by
  intro at_ set overtaken
  exact ⟨⟨takes_iff.2 (by decide), by decide⟩, by decide, by decide, by decide⟩

end RaftReplica.MembershipHistory
