/-
RaftReplica/Proofs/Snapshot/Commit.lean

How a work comes to its end.  A commit either publishes it, and then the store's own claim goes over
to it from the snapshot that was the latest one, or removes it and leaves the store as it was
(`Shelved.runOn_commit`).  Which of the two it is, the snapshots that readers have a claim on are not
touched.

A commit goes through five stages, and may end at each of them:

1. the table is written into the work, which stays inside of the work (`outside_flush`);
2. an index that is the latest one already leaves the store as it is and removes the work;
3. an index that somebody else has a claim on is refused;
4. the work is renamed to its published name, which was free (`renamed`);
5. the store's claim goes over (`runOn_advanceTo`), and the snapshot before is removed if nobody
   else has a claim on it.

`runOn_publish` follows these stages, and the commit removes the work where one of them fails.  The
shelf is given with its claims, so that a new snapshot is one more claim and one work less.
-/
import RaftReplica.Proofs.Snapshot.Shelf

namespace RaftReplica.SnapshotStore

open Disk SnapshotName

variable {d d' : Disk} {den : Location} {s : SnapshotStore} {v : Volume} {w : SnapshotWriter}
  {claims lives : List Nat} {works : List Path} {i n : Nat}

/-- The store itself has a claim on the latest snapshot, if there is one. -/
def own (s : SnapshotStore) : List Nat := if s.last = 0 then [] else [s.last]

/-- The store's own claim is on the latest snapshot, if there is one. -/
theorem mem_own_iff : i ∈ s.own ↔ i = s.last ∧ i ≠ 0 := by
  unfold own
  split
  · next h => simp [h]
  · next h =>
    rw [List.mem_singleton]
    refine ⟨?_, And.left⟩
    rintro rfl
    exact ⟨rfl, h⟩

/-- The table of a work is written into it. -/
theorem outside_flush (hw : v.disk.WellFormed) (hroot : Rooted v.disk.item? den s.directory)
    (hdir : w.directory = s.directory.entry (temporary n))
    (hat : v.disk.item? (den ++ [temporary n]) = some .directory) :
    Outside v.disk.item? (den ++ [temporary n]) (w.flush.runOn v).2.disk := by
  have hwork := hroot.entry (plain_temporary n) hat
  rw [← hdir] at hwork
  exact (Volume.confined_save (hwork.under plain_table) (hwork.under (Path.plain_draft _)) w.table
    w.sync v (.refl hw)).1

namespace Shelved

/-- A work that got the name of a snapshot, which nobody had a claim on, is on the shelf. -/
theorem renamed (h : Shelved d den s claims (s.directory.entry (temporary n) :: works))
    (hi : i ∉ claims) (hbounds : 1 ≤ i ∧ i ≤ Numeral.max64)
    (hat : d.item? (den ++ [temporary n]) = some .directory) (hw : d'.WellFormed)
    (hitems : ∀ m, d'.item? m =
      if den ++ [published i] <+: m then
        d.item? (den ++ [temporary n] ++ m.drop (den ++ [published i]).length)
      else if den ++ [temporary n] <+: m then none else d.item? m) :
    Shelved d' den { s with last := i, holders := s.holders.insert i 1 } (i :: claims) works ∧
      Kept den s.directory d d' claims works := by
  obtain ⟨hnot, hnodup⟩ := List.nodup_cons.1 h.nodup
  -- only two names are touched, the work's and the snapshot's
  have hsame (name : String) (hp : published i ≠ name) (ht : temporary n ≠ name) :
      SameEntry den name d d' := fun rest => by
    rw [hitems, if_neg (mt entry_prefix_iff.1 hp), if_neg (mt entry_prefix_iff.1 ht)]
  have hsnapshot (j : Nat) (hj : j ≠ i) : SameEntry den (published j) d d' :=
    hsame _ (fun he => hj (published_injective he).symm) (temporary_ne_published n j)
  have hwork (m : Nat) (hm : s.directory.entry (temporary m) ∈ works) :
      SameEntry den (temporary m) d d' :=
    hsame _ (temporary_ne_published m i).symm fun he => hnot (he ▸ hm)
  refine ⟨⟨hw, ?_, fun j => ?_, fun j => ?_, fun j hj => ?_, fun name hname => ?_, hnodup,
    fun q hq => ?_⟩, fun j hj => hsnapshot j fun he => hi (he ▸ hj), hwork⟩
  · refine h.rooted.outside ⟨hw, fun m hm => ?_⟩
    rw [hitems, if_neg ((below_entry _).not_isPrefix hm), if_neg ((below_entry _).not_isPrefix hm)]
  · by_cases hj : j = i
    · rw [hj, hitems, if_pos (List.prefix_refl _), List.drop_length, List.append_nil, hat,
        if_pos List.mem_cons_self]
    · rw [(hsnapshot j hj).self, h.shelf]
      simp [hj]
  · rw [Table.get?_insert, h.holders]
    by_cases hj : j = i
    · simp [hj, Table.sameKey_nat_iff, List.count_eq_zero_of_not_mem hi]
    · simp [Table.sameKey_nat_iff, hj, List.count_cons_of_ne (Ne.symm hj)]
  · rcases List.mem_cons.1 hj with rfl | hj
    · exact hbounds
    · exact h.bounds j hj
  · by_cases hp : published i = name
    · exact .inl ⟨i, hp.symm⟩
    · refine h.names name ?_
      rw [hitems, if_neg (mt entry_prefix_iff.1 hp)] at hname
      split at hname
      · exact absurd hname (by simp)
      · exact hname
  · obtain ⟨m, hm, rfl, hdir⟩ := h.made q (.tail _ hq)
    exact ⟨m, hm, rfl, (hwork m hq).self.trans hdir⟩

/-- The store's own claim goes over to a snapshot that has come onto the shelf. -/
theorem runOn_advanceTo (hnone : s.holders.get? i = none)
    (h : Shelved v.disk den { s with last := i, holders := s.holders.insert i 1 }
      (i :: (s.own ++ lives)) works) : ∃ holders v',
    (advanceTo i).runOn ⟨s, v⟩ = (.ok (), ⟨{ s with last := i, holders }, v'⟩) ∧
      Shelved v'.disk den { s with last := i, holders } (i :: lives) works ∧
      Kept den s.directory v.disk v'.disk (i :: lives) works := by
  have hadvance : (advanceTo i).runOn ⟨s, v⟩ =
      (if 0 < s.last then release s.last else pure ()).runOn
        ⟨{ s with last := i, holders := s.holders.insert i 1 }, v⟩ := by
    rw [runOn_advanceTo_held, hnone]
    rfl
  -- without a snapshot before there is no claim to give up
  by_cases hlast : s.last = 0
  · rw [own, if_pos hlast, List.nil_append] at h
    refine ⟨s.holders.insert i 1, v, ?_, h, .of_eq rfl⟩
    rw [hadvance, if_neg (by omega)]
    rfl
  · rw [own, if_neg hlast, List.singleton_append] at h
    obtain ⟨holders, v', hrelease, h', hkept⟩ :=
      (h.perm (.swap s.last i lives) (.refl works)).runOn_release
    refine ⟨holders, v', ?_, h', hkept⟩
    rw [hadvance, if_pos (by omega)]
    exact hrelease

/-- **A work with its table** gets the name of its snapshot, if nobody has a claim on that one, and
becomes the latest snapshot. -/
theorem runOn_publish_unclaimed {u : Unit} {v₁ : Volume} (hflush : w.flush.runOn v = (.ok u, v₁))
    (h : Shelved v₁.disk den s (s.own ++ lives) (w.directory :: works)) (hzero : w.index ≠ 0)
    (hmax : w.index ≤ Numeral.max64) (hi : w.index ∉ s.own ++ lives)
    (hdir : w.directory = s.directory.entry (temporary n))
    (hat : v₁.disk.item? (den ++ [temporary n]) = some .directory) : ∃ holders v',
    (publish w).runOn ⟨s, v⟩ = (.ok w.index, ⟨{ s with last := w.index, holders }, v'⟩) ∧
      Shelved v'.disk den { s with last := w.index, holders } (w.index :: lives) works ∧
      Kept den s.directory v₁.disk v'.disk lives works ∧
      ∀ rest, v'.disk.item? (den ++ published w.index :: rest) =
        v₁.disk.item? (den ++ temporary n :: rest) := by
  have hlast : w.index ≠ s.last := fun he =>
    hi (List.mem_append_left lives (mem_own_iff.2 ⟨he, hzero⟩))
  have hthere := h.isThere_place w.index
  rw [decide_eq_false hi] at hthere
  obtain ⟨v₂, hrename, hw₂, hitems⟩ := Volume.runOn_rename_directory h.leads (plain_temporary n)
    (plain_published w.index) h.wellFormed hat (h.item?_published_of_notMem hi)
  have hnone : s.holders.get? w.index = none := by rw [h.holders, if_neg hi]
  obtain ⟨h₂, hkept₂⟩ := (hdir ▸ h).renamed hi ⟨by omega, hmax⟩ hat hw₂ hitems
  obtain ⟨v₃, hparent, hdisk₃⟩ :=
    Volume.runOn_flushParent h₂.leads (plain_published w.index) s.sync
  obtain ⟨holders, v₄, hadvance, h₄, hkept₄⟩ := runOn_advanceTo hnone (hdisk₃.symm ▸ h₂)
  refine ⟨holders, v₄,
    runOn_publish_place hzero hflush hlast hthere (hdir ▸ hrename) hparent hadvance, h₄, ?_,
    fun rest => ?_⟩
  · exact hkept₂.right.trans (hdisk₃ ▸ hkept₄.mono (List.subset_cons_self _ _) (List.Subset.refl _))
  · -- the snapshot before may be removed, the new one is not touched by that
    rw [hkept₄.snapshots w.index List.mem_cons_self rest, hdisk₃, hitems,
      if_pos (entry_prefix_iff.2 rfl), List.append_cons den (published _) rest, List.drop_left,
      List.append_assoc, List.singleton_append]

/-- What becomes of a work that is to be published: it stays one if that fails, it is given up if
it is a second snapshot with the latest index, or it becomes the latest snapshot. -/
theorem runOn_publish (h : Shelved v.disk den s (s.own ++ lives) (w.directory :: works))
    (hmax : w.index ≤ Numeral.max64) :
    (∃ e v', (publish w).runOn ⟨s, v⟩ = (.error e, ⟨s, v'⟩) ∧
      Shelved v'.disk den s (s.own ++ lives) (w.directory :: works) ∧
      Kept den s.directory v.disk v'.disk (s.own ++ lives) works) ∨
    (∃ v', (publish w).runOn ⟨s, v⟩ = (.ok w.index, ⟨s, v'⟩) ∧
      Shelved v'.disk den s (s.own ++ lives) works ∧
      Kept den s.directory v.disk v'.disk (s.own ++ lives) works ∧
      v'.disk.isThere w.directory = false) ∨
    ∃ holders v', (publish w).runOn ⟨s, v⟩ =
        (.ok w.index, ⟨{ s with last := w.index, holders }, v'⟩) ∧ w.index ≠ 0 ∧
      w.index ∉ s.own ++ lives ∧
      Shelved v'.disk den { s with last := w.index, holders } (w.index :: lives) works ∧
      Kept den s.directory v.disk v'.disk lives works := by
  obtain ⟨n, -, hdir, hat⟩ := h.made _ List.mem_cons_self
  have hnot : s.directory.entry (temporary n) ∉ works := hdir ▸ (List.nodup_cons.1 h.nodup).1
  by_cases hzero : w.index = 0
  · refine .inl ⟨.error (.invalidArgument .writerWithoutMeta), v, ?_, h, .of_eq rfl⟩
    rw [publish, if_pos hzero]
    rfl
  have ho := outside_flush h.wellFormed h.rooted hdir hat
  -- the stages in their order; each that fails leaves the shelf as it was
  rcases hflush : w.flush.runOn v with ⟨r, v₁⟩
  rw [hflush] at ho
  have h₁ := h.inside ho
  have hkept₁ : Kept den s.directory v.disk v₁.disk (s.own ++ lives) works := .of_outside ho hnot
  cases r with
  | error e =>
    refine .inl ⟨e, v₁, ?_, h₁, hkept₁⟩
    rw [publish, if_neg hzero]
    exact Act.runOn_bind_error (by rw [Mounted.runOn_onVolume, hflush])
  | ok u =>
  -- the table is written, and the work is still where it was
  have hat₁ : v₁.disk.item? (den ++ [temporary n]) = some .directory := by
    rw [ho.item? _ fun hb => hb.2 rfl, hat]
  by_cases hlast : w.index = s.last
  · obtain ⟨v₂, habandon, h₂, hkept₂, hgone⟩ := h₁.runOn_abandon
    have hrun := runOn_publish_again hzero hflush hlast habandon
    exact .inr (.inl ⟨v₂, hrun, h₂, hkept₁.trans hkept₂, hgone⟩)
  by_cases hi : w.index ∈ s.own ++ lives
  · have hthere := h₁.isThere_place w.index
    rw [decide_eq_true hi] at hthere
    exact .inl ⟨_, v₁, runOn_publish_there hzero hflush hlast hthere, h₁, hkept₁⟩
  · obtain ⟨holders, v₂, hrun, h₂, hkept₂, -⟩ :=
      runOn_publish_unclaimed hflush h₁ hzero hmax hi hdir hat₁
    exact .inr (.inr ⟨holders, v₂, hrun, hzero, hi, h₂, hkept₁.right.trans hkept₂⟩)

/-- **A commit** publishes the work as the latest snapshot, or removes it and leaves the store and
all snapshots as they were. -/
theorem runOn_commit (h : Shelved v.disk den s (s.own ++ lives) (w.directory :: works))
    (hmax : w.index ≤ Numeral.max64) :
    (∃ r v', (commit w).runOn ⟨s, v⟩ = (r, ⟨s, v'⟩) ∧
      Shelved v'.disk den s (s.own ++ lives) works ∧
      Kept den s.directory v.disk v'.disk (s.own ++ lives) works ∧
      v'.disk.isThere w.directory = false) ∨
    ∃ holders v', (commit w).runOn ⟨s, v⟩ =
        (.ok w.index, ⟨{ s with last := w.index, holders }, v'⟩) ∧ w.index ≠ 0 ∧
      w.index ∉ s.own ++ lives ∧
      Shelved v'.disk den { s with last := w.index, holders } (w.index :: lives) works ∧
      Kept den s.directory v.disk v'.disk lives works := by
  rcases h.runOn_publish hmax with ⟨e, v₁, hpublish, h₁, hkept₁⟩ |
    ⟨v', hpublish, h', hkept, hgone⟩ | ⟨holders, v', hpublish, hrest⟩
  · obtain ⟨v₂, habandon, h₂, hkept₂, hgone⟩ := h₁.runOn_abandon
    have hrun := runOn_commit_refused hpublish habandon
    exact .inl ⟨.error e, v₂, hrun, h₂, hkept₁.trans hkept₂, hgone⟩
  · exact .inl ⟨.ok w.index, v', runOn_commit_published hpublish, h', hkept, hgone⟩
  · exact .inr ⟨holders, v', runOn_commit_published hpublish, hrest⟩

end Shelved
end RaftReplica.SnapshotStore
