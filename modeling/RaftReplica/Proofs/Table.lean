/-
RaftReplica/Proofs/Table.lean

What is found in a table.  A key is found if a row has it, or one that counts as the same
(`get?_eq_some_iff`), so a table that was changed at one key differs from what it was at the keys
that count as that one, and nowhere else (`get?_insert`, `get?_erase`).

For this the keys have to be in order as far as they differ: a third key is behind the smaller of
two that differ, or in front of the greater (`RankedKeys`).  Then not being in front of one another
is an equivalence (`SameKey`), and an order of keys is one of its classes.  For numbers and texts the
classes have one member each; for ids of nodes they do not, since the role of a peer does not count.

Rows are kept in the order of their keys, and a row that is replaced keeps its own key.  Both show
only in the list of rows (`mem_place_iff`, `mem_erase_iff`); who asks by key cannot tell.
-/
import Mathlib.Data.List.Basic
import Mathlib.Tactic.Common
import RaftReplica.Table

namespace RaftReplica

/-- Keys in order; those of which neither comes before the other are at one place of it. -/
class RankedKeys (κ : Type) [LT κ] : Prop extends KeyOrder κ where
  irrefl : ∀ a : κ, ¬ a < a
  between : ∀ {a c : κ}, a < c → ∀ b, a < b ∨ b < c

instance : RankedKeys Nat where
  irrefl := Nat.lt_irrefl
  between := by
    intro a c h b
    omega

instance : RankedKeys String where
  irrefl := String.lt_irrefl
  between := by
    intro a c h b
    by_contra hnot
    rw [not_or, String.not_lt, String.not_lt] at hnot
    exact absurd (String.le_trans hnot.2 hnot.1) (String.not_le.2 h)

namespace Table

variable {κ ν : Type} [LT κ]

/-- The two keys count as one. -/
def SameKey (a b : κ) : Prop := ¬ a < b ∧ ¬ b < a

instance [DecidableLT κ] (a b : κ) : Decidable (SameKey a b) :=
  inferInstanceAs (Decidable (¬ a < b ∧ ¬ b < a))

theorem SameKey.symm {a b : κ} (h : SameKey a b) : SameKey b a := ⟨h.2, h.1⟩

theorem sameKey_nat_iff {a b : Nat} : SameKey a b ↔ a = b := by
  unfold SameKey
  omega

/-- Texts count as the same if they are equal. -/
theorem sameKey_string_iff {a b : String} : SameKey a b ↔ a = b := by
  constructor
  · rintro ⟨hab, hba⟩
    exact String.le_antisymm (String.not_lt.1 hba) (String.not_lt.1 hab)
  · rintro rfl
    exact ⟨String.lt_irrefl a, String.lt_irrefl a⟩

section Ranked

variable [RankedKeys κ] {a b c : κ}

theorem SameKey.refl (a : κ) : SameKey a a := ⟨RankedKeys.irrefl a, RankedKeys.irrefl a⟩

/-- Keys that count as the same have the same keys behind them. -/
theorem SameKey.lt_iff (h : SameKey a b) : a < c ↔ b < c := by
  constructor
  · exact fun hac => (RankedKeys.between hac b).resolve_left h.1
  · exact fun hbc => (RankedKeys.between hbc a).resolve_left h.2

/-- Keys that count as the same have the same keys in front of them. -/
theorem SameKey.gt_iff (h : SameKey a b) : c < a ↔ c < b := by
  constructor
  · exact fun hca => (RankedKeys.between hca b).resolve_right h.2
  · exact fun hcb => (RankedKeys.between hcb a).resolve_right h.1

theorem SameKey.trans (h : SameKey a b) (h' : SameKey b c) : SameKey a c :=
  ⟨fun hac => h'.1 (h.lt_iff.1 hac), fun hca => h'.2 (h.gt_iff.1 hca)⟩

theorem not_lt_of_lt (h : a < b) : ¬ b < a :=
  fun h' => RankedKeys.irrefl a (KeyOrder.trans h h')

end Ranked

variable [RankedKeys κ] [DecidableLT κ] {t : Table κ ν} {k k' : κ} {v : ν} {rows : List (κ × ν)}

/-! ### Rows -/

/-- In rows that are in order the key is found if some row has it. -/
theorem lookup_eq_some_iff (h : rows.Pairwise fun a b => a.1 < b.1) :
    lookup k rows = some v ↔ ∃ r ∈ rows, SameKey r.1 k ∧ r.2 = v := by
  induction rows with
  | nil => simp [lookup]
  | cons row rest ih =>
    obtain ⟨key, value⟩ := row
    rw [List.pairwise_cons] at h
    have ih := ih h.2
    rw [lookup]
    split
    · next hlt =>
      -- the row is in front of the key
      rw [ih]
      refine ⟨fun ⟨r, hr, hsame⟩ => ⟨r, .tail _ hr, hsame⟩, ?_⟩
      rintro ⟨r, hr, hsame, hv⟩
      rcases List.mem_cons.1 hr with rfl | hr
      · exact absurd hlt hsame.1
      · exact ⟨r, hr, hsame, hv⟩
    · next hle =>
      split
      · next hlt =>
        -- the row is behind the key, and so are all others
        refine ⟨fun he => absurd he (by simp), ?_⟩
        rintro ⟨r, hr, hsame, -⟩
        rcases List.mem_cons.1 hr with rfl | hr
        · exact absurd hlt hsame.2
        · exact absurd (KeyOrder.trans hlt (h.1 r hr)) hsame.2
      · next hge =>
        constructor
        · intro he
          exact ⟨_, List.mem_cons_self, ⟨hle, hge⟩, Option.some.inj he⟩
        · rintro ⟨r, hr, hsame, rfl⟩
          rcases List.mem_cons.1 hr with rfl | hr
          · rfl
          · exact absurd (SameKey.lt_iff ⟨hle, hge⟩ |>.1 (h.1 r hr)) hsame.2

/-- What is found after a row was placed. -/
theorem lookup_place (k k' : κ) (v : ν) (rows : List (κ × ν)) :
    lookup k' (place k v rows) = if SameKey k' k then some v else lookup k' rows := by
  -- along the rows: the new row goes in front of the first that is not in front of it
  induction rows with
  | nil =>
    show lookup k' [(k, v)] = _
    simp only [lookup, SameKey]
    by_cases h₁ : k < k' <;> by_cases h₂ : k' < k <;> simp [h₁, h₂]
  | cons row rest ih =>
    obtain ⟨key, value⟩ := row
    rw [place]
    split
    · next hlt =>
      rw [lookup, ih, lookup]
      by_cases hsame : SameKey k' k
      · rw [if_pos (hsame.gt_iff.2 hlt), if_pos hsame, if_pos hsame]
      · simp only [if_neg hsame]
    · next hle =>
      split
      · next hlt =>
        by_cases hsame : SameKey k' k
        · rw [lookup, if_neg hsame.2, if_neg hsame.1, if_pos hsame]
        · rw [if_neg hsame, lookup]
          split
          · rfl
          · next hk =>
            have hk' : k' < k := by
              by_contra hnot
              exact hsame ⟨hnot, hk⟩
            have hkey := KeyOrder.trans hk' hlt
            rw [if_pos hk', lookup, if_neg (not_lt_of_lt hkey), if_pos hkey]
      · next hge =>
        have hkey : SameKey key k := ⟨hle, hge⟩
        rw [lookup, lookup]
        by_cases hsame : SameKey k' k
        · have hboth := hsame.trans hkey.symm
          rw [if_neg hboth.2, if_neg hboth.1, if_pos hsame]
        · rw [if_neg hsame]
          have hnot : ¬ SameKey k' key := fun h => hsame (h.trans hkey)
          by_cases h₁ : key < k'
          · rw [if_pos h₁, if_pos h₁]
          · have h₂ : k' < key := by
              by_contra h
              exact hnot ⟨h, h₁⟩
            rw [if_neg h₁, if_pos h₂, if_neg h₁, if_pos h₂]

/-! ### Operations -/

omit [RankedKeys κ] in
@[simp] theorem get?_empty (k : κ) : (empty : Table κ ν).get? k = none := rfl

theorem get?_eq_some_iff : t.get? k = some v ↔ ∃ r ∈ t.rows, SameKey r.1 k ∧ r.2 = v :=
  lookup_eq_some_iff t.ascending

theorem get?_insert (t : Table κ ν) (k k' : κ) (v : ν) :
    (t.insert k v).get? k' = if SameKey k' k then some v else t.get? k' :=
  lookup_place k k' v t.rows

omit [RankedKeys κ] in
theorem mem_erase_iff {r : κ × ν} : r ∈ (t.erase k).rows ↔ r ∈ t.rows ∧ ¬ SameKey r.1 k := by
  rw [erase, List.mem_filter, SameKey, not_and_or, not_not, not_not, Bool.or_eq_true,
    decide_eq_true_eq, decide_eq_true_eq]

/-- After erasing a key nothing is found for it. -/
theorem get?_erase (t : Table κ ν) (k k' : κ) :
    (t.erase k).get? k' = if SameKey k' k then none else t.get? k' := by
  refine Option.ext fun v => ?_
  rw [get?_eq_some_iff]
  simp only [mem_erase_iff]
  split
  · next hsame =>
    refine ⟨?_, fun h => absurd h (by simp)⟩
    rintro ⟨r, ⟨-, hnot⟩, hr, -⟩
    exact absurd (hr.trans hsame) hnot
  · next hsame =>
    rw [get?_eq_some_iff]
    constructor
    · rintro ⟨r, ⟨hr, -⟩, hrest⟩
      exact ⟨r, hr, hrest⟩
    · rintro ⟨r, hr, hk, hv⟩
      exact ⟨r, ⟨hr, fun hrk => hsame (hk.symm.trans hrk)⟩, hk, hv⟩

omit [RankedKeys κ] in
/-- A row with another value was there before. -/
theorem mem_place_value {r : κ × ν} (h : r ∈ place k v rows) : r.2 = v ∨ r ∈ rows := by
  induction rows with
  | nil =>
    rw [place, List.mem_singleton] at h
    exact .inl (h ▸ rfl)
  | cons row rest ih =>
    obtain ⟨key, value⟩ := row
    rw [place] at h
    split at h
    · rcases List.mem_cons.1 h with rfl | h
      · exact .inr List.mem_cons_self
      · exact (ih h).imp_right (List.mem_cons_of_mem _)
    · split at h
      · rcases List.mem_cons.1 h with rfl | h
        · exact .inl rfl
        · exact .inr h
      · rcases List.mem_cons.1 h with rfl | h
        · exact .inl rfl
        · exact .inr (List.mem_cons_of_mem _ h)

omit [RankedKeys κ] in
/-- Among rows with other keys there is a new row, and no other one changes. -/
theorem mem_place_iff {r : κ × ν} (hrows : ∀ r ∈ rows, ¬ SameKey r.1 k) :
    r ∈ place k v rows ↔ r = (k, v) ∨ r ∈ rows := by
  induction rows with
  | nil => simp [place]
  | cons row rest ih =>
    obtain ⟨key, value⟩ := row
    rw [place]
    split
    · rw [List.mem_cons, ih fun r hr => hrows r (.tail _ hr), List.mem_cons, or_left_comm]
    · next hle =>
      split
      · rw [List.mem_cons]
      · next hge => exact absurd ⟨hle, hge⟩ (hrows _ List.mem_cons_self)

/-- A key that is not found is put into a new row, and no other row changes. -/
theorem mem_insert_of_get?_eq_none {r : κ × ν} (h : t.get? k = none) :
    r ∈ (t.insert k v).rows ↔ r = (k, v) ∨ r ∈ t.rows := by
  refine mem_place_iff fun r hr hsame => ?_
  rw [get?_eq_some_iff.2 ⟨r, hr, hsame, rfl⟩] at h
  exact absurd h (by simp)

/-- Erasing a key that is not there changes nothing. -/
theorem erase_of_get?_eq_none (h : t.get? k = none) : t.erase k = t := by
  refine ext (List.filter_eq_self.2 fun r hr => ?_)
  by_contra hnot
  rw [Bool.or_eq_true, decide_eq_true_eq, decide_eq_true_eq, not_or] at hnot
  rw [get?_eq_some_iff.2 ⟨r, hr, hnot, rfl⟩] at h
  exact absurd h (by simp)

end Table
end RaftReplica
