/-
RaftReplica/Proofs/Snapshot/Reopening.lean

A store that is opened on the directory of another one, which was in use and has stopped.  The claims
on the old store are lost, so of the snapshots that were claimed only the one with the greatest
index stays, and nothing that was in the making does (`Shelved.runOn_init`).

Opening lists the directory, removes the works, and of the snapshots in ascending order all but the
last one.  It is followed for any list of names first (`runOn_init_listed`), where removing one after
the other is removing all of them (`runOn_discardEach`).

On a shelf the names are known: each is that of a claimed snapshot or of a work
(`Shelved.entry_cases`).  So the indexes that are read are the claims, each once (`Shelved.indexes`),
the last of them is the greatest (`getLast?_eq_greatest`), and what is left is a shelf with the
store's own claim on it (`Shelved.onlyGreatest`).
-/
import RaftReplica.Proofs.Snapshot.Commit

namespace RaftReplica.SnapshotStore

open Disk SnapshotName

variable {d d' : Disk} {den : Location} {s : SnapshotStore} {v : Volume} {claims : List Nat}
  {works : List Path} {i : Nat} {α : Type}

/-! ### The greatest index -/

/-- The greatest of the indexes; zero if there is none. -/
def greatest (claims : List Nat) : Nat := claims.foldr max 0

/-- No index is above the greatest. -/
theorem le_greatest (hi : i ∈ claims) : i ≤ greatest claims := by
  induction claims with
  | nil => nomatch hi
  | cons j rest ih =>
    rw [greatest, List.foldr_cons]
    rcases List.mem_cons.1 hi with rfl | hi
    · exact Nat.le_max_left _ _
    · exact Nat.le_trans (ih hi) (Nat.le_max_right _ _)

/-- The greatest index is one of them, if there is any. -/
theorem greatest_mem (hne : claims ≠ []) : greatest claims ∈ claims := by
  -- by induction; the first index is the greatest, or it is that of the rest
  induction claims with
  | nil => exact absurd rfl hne
  | cons j rest ih =>
    show max j (greatest rest) ∈ j :: rest
    rcases Nat.le_total j (greatest rest) with hle | hle
    · rw [Nat.max_eq_right hle]
      by_cases hrest : rest = []
      · subst hrest
        exact List.mem_cons.2 (.inl (Nat.le_antisymm (Nat.zero_le j) hle))
      · exact .tail _ (ih hrest)
    · rw [Nat.max_eq_left hle]
      exact List.mem_cons_self

/-- The greatest index is bounded if all of them are. -/
theorem greatest_le_iff : greatest claims ≤ i ↔ ∀ j ∈ claims, j ≤ i := by
  constructor
  · exact fun h j hj => Nat.le_trans (le_greatest hj) h
  · intro h
    by_cases hnil : claims = []
    · rw [hnil]
      exact Nat.zero_le i
    · exact h _ (greatest_mem hnil)

/-- Sorted indexes are in ascending order. -/
theorem pairwise_mergeSort_le (indexes : List Nat) :
    (indexes.mergeSort fun a b => a ≤ b).Pairwise (· ≤ ·) := by
  have hsorted : (indexes.mergeSort fun a b => a ≤ b).Pairwise fun a b => decide (a ≤ b) = true :=
    List.pairwise_mergeSort
      (fun a b c hab hbc => by simp only [decide_eq_true_eq] at *; omega)
      (fun a b => by simp only [Bool.or_eq_true, decide_eq_true_eq]; omega) indexes
  exact hsorted.imp of_decide_eq_true

/-- Of indexes in order, the last one is the greatest, and in front of it are the others and the
greatest once more if it is there twice. -/
theorem getLast?_eq_greatest {indexes : List Nat} (hsorted : indexes.Pairwise (· ≤ ·))
    (hmem : ∀ i, i ∈ indexes ↔ i ∈ claims) :
    indexes.getLast?.getD 0 = greatest claims ∧ ∀ i, i ∈ indexes.dropLast ↔
      i ∈ claims ∧ (i ≠ greatest claims ∨ 1 < indexes.count i) := by
  rcases List.eq_nil_or_concat indexes with rfl | ⟨before, last, rfl⟩
  · obtain rfl : claims = [] := List.eq_nil_iff_forall_not_mem.2 fun i hi => nomatch (hmem i).2 hi
    exact ⟨rfl, by simp⟩
  rw [List.concat_eq_append] at hsorted hmem ⊢
  have hlast : last ∈ claims := (hmem last).1 (List.mem_append_right _ List.mem_cons_self)
  have hgreatest : greatest claims = last := by
    refine Nat.le_antisymm ?_ (le_greatest hlast)
    have hin := (hmem _).2 (greatest_mem (List.ne_nil_of_mem hlast))
    rcases List.mem_append.1 hin with hin | hin
    · exact (List.pairwise_append.1 hsorted).2.2 _ hin _ List.mem_cons_self
    · exact Nat.le_of_eq (List.mem_singleton.1 hin)
  rw [hgreatest, List.getLast?_concat, List.dropLast_concat]
  refine ⟨rfl, fun i => ?_⟩
  rw [← hmem, List.mem_append, List.mem_singleton, List.count_append]
  by_cases hi : i = last
  · rw [hi, List.count_singleton_self, ← List.count_pos_iff]
    simp
  · simp [hi]

/-! ### Removing what is left -/

/-- The entries with such names are removed one after the other. -/
theorem runOn_discardEach (s : SnapshotStore) (name : α → String) (xs : List α)
    (hplain : ∀ x ∈ xs, Path.Plain (name x)) (hw : v.disk.WellFormed)
    (hroot : Rooted v.disk.item? den s.directory) : ∃ v',
    (forIn xs PUnit.unit fun x _ => do
      Mounted.onVolume (Volume.discard (s.directory.entry (name x)))
      pure (ForInStep.yield PUnit.unit) : Act (Mounted SnapshotStore) PUnit).runOn ⟨s, v⟩ =
        (.ok PUnit.unit, ⟨s, v'⟩) ∧
      v'.disk.WellFormed ∧ Rooted v'.disk.item? den s.directory ∧
      ∀ m, v'.disk.item? m = if ∃ x ∈ xs, den ++ [name x] <+: m then none else v.disk.item? m := by
  -- by induction on what is removed; the path still leads to the directory after each removal
  induction xs generalizing v with
  | nil => exact ⟨v, rfl, hw, hroot, by simp⟩
  | cons x xs ih =>
    obtain ⟨v₁, hdiscard, hw₁, hitems₁⟩ := Volume.runOn_discard (hroot v.disk (.refl hw))
      (hplain x List.mem_cons_self) hw
    have hroot₁ : Rooted v₁.disk.item? den s.directory := by
      refine hroot.outside ⟨hw₁, fun m hm => ?_⟩
      rw [hitems₁, if_neg ((below_entry _).not_isPrefix hm)]
    obtain ⟨v₂, hrest, hw₂, hroot₂, hitems₂⟩ := ih (fun y hy => hplain y (.tail _ hy)) hw₁ hroot₁
    refine ⟨v₂, ?_, hw₂, hroot₂, fun m => ?_⟩
    · rw [List.forIn_cons, bind_assoc, Act.runOn_bind_ok (Mounted.runOn_onVolume_ok hdiscard),
        pure_bind]
      exact hrest
    · rw [hitems₂, hitems₁]
      by_cases hx : den ++ [name x] <+: m
      · simp [hx]
      · simp [hx]

/-- The indexes that names are read as, in order; what is in the making does not count. -/
def indexesOf (names : List String) : List Nat :=
  ((names.filter (!isTemporary ·)).filterMap index?).mergeSort fun a b => a ≤ b

/-- The indexes are those of the names that are no works. -/
theorem mem_indexesOf {names : List String} : i ∈ indexesOf names ↔
    ∃ name ∈ names, isTemporary name = false ∧ index? name = some i := by
  rw [indexesOf, List.mem_mergeSort, List.mem_filterMap]
  simp only [List.mem_filter, Bool.not_eq_true', and_assoc]

/-- **A store that is opened on any directory** takes the greatest index for that of its latest
snapshot.  What is in the making is removed, and so is the snapshot of every other index that a name
is read as. -/
theorem runOn_init_listed (s : SnapshotStore) (hw : v.disk.WellFormed)
    (hroot : Rooted v.disk.item? den s.directory) {names : List String}
    (hlist : v.disk.list s.directory = .ok names) : ∃ v',
    init.runOn ⟨s, v⟩ = (.ok (), ⟨{ s with
      last := (indexesOf names).getLast?.getD 0
      holders := held ((indexesOf names).getLast?.getD 0) }, v'⟩) ∧
    v'.disk.WellFormed ∧ Rooted v'.disk.item? den s.directory ∧
    ∀ m, v'.disk.item? m =
      if ∃ i ∈ (indexesOf names).dropLast, den ++ [published i] <+: m then none
      else if ∃ x ∈ names.filter isTemporary, den ++ [x] <+: m then none else v.disk.item? m := by
  have hmake : (Volume.makeDirectories s.directory).runOn v = (.ok (), v) :=
    Volume.runOn_makeDirectories (hroot v.disk (.refl hw))
  have hlook : (Volume.look (·.list s.directory)).runOn v = (.ok names, v) :=
    Volume.runOn_look_ok hlist
  obtain ⟨v₁, hworks, hw₁, hroot₁, hitems₁⟩ := runOn_discardEach s id (names.filter isTemporary)
    (fun x hx => plain_of_isTemporary (List.mem_filter.1 hx).2) hw hroot
  obtain ⟨v₂, hunclaimed, hw₂, hroot₂, hitems₂⟩ := runOn_discardEach s published
    (indexesOf names).dropLast (fun i _ => plain_published i) hw₁ hroot₁
  refine ⟨v₂, ?_, hw₂, hroot₂, fun m => by rw [hitems₂, hitems₁]; rfl⟩
  rw [init, Act.runOn_bind_ok (Mounted.runOn_stored _),
    Act.runOn_bind_ok (Mounted.runOn_onVolume_ok hmake),
    Act.runOn_bind_ok (Mounted.runOn_onVolume_ok hlook)]
  refine (Act.runOn_bind_ok hworks).trans ((Act.runOn_bind_ok hunclaimed).trans ?_)
  rfl

/-- An entry of the directory is a snapshot that is claimed or in the making. -/
theorem Shelved.entry_cases (h : Shelved d den s claims works) {name : String}
    (hsome : (d.item? (den ++ [name])).isSome) :
    (∃ i ∈ claims, name = published i) ∨ ∃ n, name = temporary n := by
  rcases h.names name hsome with ⟨i, rfl⟩ | ⟨n, -, rfl⟩
  · refine .inl ⟨i, ?_, rfl⟩
    by_contra hi
    rw [h.item?_published_of_notMem hi] at hsome
    nomatch hsome
  · exact .inr ⟨n, rfl⟩

/-- Among the names in the directory are the indexes that are claimed, each of them once. -/
theorem Shelved.indexes (h : Shelved d den s claims works) {names : List String}
    (hnodup : names.Nodup) (hmem : ∀ name, name ∈ names ↔ (d.item? (den ++ [name])).isSome) :
    (indexesOf names).Nodup ∧ ∀ i, i ∈ indexesOf names ↔ i ∈ claims := by
  -- what is not in the making is a snapshot that is claimed
  have hfound (name : String) (hname : name ∈ names.filter (!isTemporary ·)) :
      ∃ i ∈ claims, name = published i ∧ index? name = some i := by
    obtain ⟨hin, hnot⟩ := List.mem_filter.1 hname
    rcases h.entry_cases ((hmem name).1 hin) with ⟨i, hi, rfl⟩ | ⟨n, rfl⟩
    · exact ⟨i, hi, rfl, index?_published (h.bounds i hi).2⟩
    · rw [isTemporary_temporary] at hnot
      exact absurd hnot (by simp)
  refine ⟨(List.mergeSort_perm _ _).nodup_iff.2 ?_, fun i => ?_⟩
  · refine List.pairwise_filterMap.2 ((hnodup.filter _).imp_of_mem fun {a b} ha hb hne => ?_)
    obtain ⟨i, -, rfl, hi⟩ := hfound a ha
    obtain ⟨j, -, rfl, hj⟩ := hfound b hb
    intro x hx y hy hxy
    rw [hi] at hx
    rw [hj] at hy
    obtain rfl := Option.some.inj hx
    obtain rfl := Option.some.inj hy
    exact hne (hxy ▸ rfl)
  · rw [mem_indexesOf]
    constructor
    · rintro ⟨name, hin, hnot, hindex⟩
      obtain ⟨j, hj, -, hj'⟩ := hfound name (List.mem_filter.2 ⟨hin, by simp [hnot]⟩)
      obtain rfl := Option.some.inj (hindex.symm.trans hj')
      exact hj
    · intro hi
      refine ⟨published i, (hmem _).2 ?_, isTemporary_published i, index?_published (h.bounds i hi).2⟩
      rw [h.item?_published hi]
      rfl

/-- When the other snapshots and what was in the making are removed, of an entry with all below it
there is either everything left or nothing. -/
theorem Shelved.item?_discarded (h : Shelved d den s claims works) {names : List String}
    (hmem : ∀ name, name ∈ names ↔ (d.item? (den ++ [name])).isSome) {others : List Nat}
    (hothers : ∀ i, i ∈ others ↔ i ∈ claims ∧ i ≠ greatest claims) (name : String)
    (rest : Location) :
    (if ∃ i ∈ others, den ++ [published i] <+: den ++ name :: rest then none
      else if ∃ x ∈ names.filter isTemporary, den ++ [x] <+: den ++ name :: rest then none
      else d.item? (den ++ name :: rest)) =
      if name = published (greatest claims) then d.item? (den ++ name :: rest) else none := by
  simp only [entry_prefix_iff]
  by_cases hname : name = published (greatest claims)
  · rw [if_pos hname, if_neg, if_neg]
    · rintro ⟨x, hx, rfl⟩
      have htemporary := (List.mem_filter.1 hx).2
      rw [hname, isTemporary_published] at htemporary
      nomatch htemporary
    · rintro ⟨i, hi, he⟩
      exact ((hothers i).1 hi).2 (published_injective (he.trans hname))
  · rw [if_neg hname]
    -- an entry that is there is a snapshot, which was removed, or a work, which was removed too
    cases hentry : d.item? (den ++ [name]) with
    | none => rw [item?_of_entry h.wellFormed hentry, ite_self, ite_self]
    | some item =>
      have hsome : (d.item? (den ++ [name])).isSome := by rw [hentry]; rfl
      rcases h.entry_cases hsome with ⟨i, hi, rfl⟩ | ⟨n, rfl⟩
      · exact if_pos ⟨i, (hothers i).2 ⟨hi, fun he => hname (he ▸ rfl)⟩, rfl⟩
      · rw [ite_eq_left_iff]
        refine fun _ => if_pos ⟨temporary n, List.mem_filter.2 ⟨(hmem _).2 hsome, ?_⟩, rfl⟩
        exact isTemporary_temporary n

/-- With nothing but the snapshot that has the greatest index, a store that takes it for the latest
is on its shelf. -/
theorem Shelved.onlyGreatest {d' : Disk} (s₀ : SnapshotStore) (h : Shelved d den s claims works)
    (hw : d'.WellFormed) (hroot : Rooted d'.item? den s₀.directory)
    (hitems : ∀ name rest, d'.item? (den ++ name :: rest) =
      if name = published (greatest claims) then d.item? (den ++ name :: rest) else none) :
    Shelved d' den { s₀ with last := greatest claims, holders := held (greatest claims) }
      (own { s₀ with last := greatest claims }) [] := by
  have hown (i : Nat) : i ∈ own { s₀ with last := greatest claims } ↔
      i = greatest claims ∧ i ∈ claims := by
    rw [mem_own_iff]
    refine and_congr_right fun he => ⟨fun hne => ?_, fun hi => ?_⟩
    · rw [he]
      refine greatest_mem fun hnil => hne ?_
      rw [he, hnil]
      rfl
    · have := (h.bounds i hi).1
      omega
  refine ⟨hw, hroot, fun i => ?_, fun i => ?_, fun i hi => ?_, fun name hname => ?_,
    List.nodup_nil, fun _ hq => nomatch hq⟩
  · rw [hitems, h.shelf]
    simp only [hown]
    by_cases hi : i = greatest claims
    · simp [hi]
    · rw [if_neg fun he => hi (published_injective he), if_neg fun hand => hi hand.1]
  · unfold own held
    split
    · rfl
    · rw [Table.get?_insert]
      by_cases hi : i = greatest claims
      · simp [hi, Table.sameKey_nat_iff]
      · simp [hi, Table.sameKey_nat_iff]
  · exact h.bounds i ((hown i).1 hi).2
  · rw [hitems] at hname
    split at hname
    · next he => exact .inl ⟨_, he⟩
    · exact absurd hname (by simp)

/-- **A store that is opened on the directory** keeps the snapshot with the greatest index that
was claimed, and nothing else. -/
theorem Shelved.runOn_init (s₀ : SnapshotStore) (h : Shelved v.disk den s claims works)
    (hdir : s₀.directory = s.directory) : ∃ v',
    init.runOn ⟨s₀, v⟩ = (.ok (), ⟨{ s₀ with
      last := greatest claims
      holders := held (greatest claims) }, v'⟩) ∧
    Shelved v'.disk den { s₀ with last := greatest claims, holders := held (greatest claims) }
      (own { s₀ with last := greatest claims }) [] ∧
    SameEntry den (published (greatest claims)) v.disk v'.disk := by
  have leads := h.leads
  rw [← hdir] at leads
  obtain ⟨names, hlist, hnodup, hmem⟩ := exists_list h.wellFormed leads
  obtain ⟨hdistinct, hindexes⟩ := h.indexes hnodup hmem
  obtain ⟨hlast, hothers⟩ := getLast?_eq_greatest (pairwise_mergeSort_le _) hindexes
  have hothers' (i : Nat) : i ∈ (indexesOf names).dropLast ↔ i ∈ claims ∧ i ≠ greatest claims := by
    rw [indexesOf, hothers, or_iff_left]
    exact Nat.not_lt.2 (List.nodup_iff_count_le_one.1 hdistinct i)
  obtain ⟨v', hrun, hw', hroot', hitems'⟩ :=
    runOn_init_listed s₀ h.wellFormed (hdir ▸ h.rooted) hlist
  have hitems (name : String) (rest : Location) : v'.disk.item? (den ++ name :: rest) =
      if name = published (greatest claims) then v.disk.item? (den ++ name :: rest) else none := by
    rw [hitems']
    exact h.item?_discarded hmem hothers' name rest
  rw [indexesOf, hlast] at hrun
  exact ⟨v', hrun, h.onlyGreatest s₀ hw' hroot' hitems, fun rest => by rw [hitems, if_pos rfl]⟩

end RaftReplica.SnapshotStore
