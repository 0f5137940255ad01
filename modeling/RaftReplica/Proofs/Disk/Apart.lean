/-
RaftReplica/Proofs/Disk/Apart.lean

Two directories, neither of them in the other.  They were made on a disk and were empty then
(`Apart`), so no path that leads to a directory of that time goes through what is below them since
(`Apart.directoryAt_eq`).

This is what lets a log and a store of snapshots share one disk.  Each of them is known to change
nothing outside of its own directory, so what is in the other one is as it was; and the paths of
both still lead there, since a path is a sequence of directories, and those of that time are neither
made nor removed by what happens further down.

That both were empty is needed for one thing only: a directory below one of them, made later, could
otherwise be on the way of a path that was there before.

Making directories comes first in the module, since it is how the two came to be there: it keeps
every item that is on the disk (`preserves_item_makeDirectories`), and the path leads to a directory
when it is done (`exists_directoryAt_of_makeDirectories`).
-/
import RaftReplica.Proofs.Disk.Outside

namespace RaftReplica

/-! ### Making directories -/

namespace Volume

open Disk

variable {v v' : Volume} {l m start : Location} {p : Path} {i : Item} {parts : List String}

/-- Whatever is there stays when directories are made. -/
theorem preserves_item_makeAll (start : Location) (parts : List String) :
    Act.Preserves (fun v => v.disk.WellFormed ∧ v.disk.item? m = some i) (makeAll start parts) := by
  have hmake (l : Location) : Act.Preserves
      (fun v => v.disk.WellFormed ∧ v.disk.item? m = some i) (perform (.makeDirectory l)) := by
    rintro v ⟨hw, hm⟩
    cases hcall : v.disk.perform (.makeDirectory l) with
    | error e => rw [runOn_perform_error hcall]; exact ⟨hw, hm⟩
    | ok d =>
      rw [runOn_perform hcall]
      refine ⟨hw.perform hcall, ((puts_makeDirectory hw hcall).item?_ne ?_).trans hm⟩
      rintro rfl
      obtain ⟨hnone, -, -⟩ := makeDirectory_eq_ok_iff.1 hcall
      rw [item?_eq_none_iff.2 hnone] at hm
      exact absurd hm (by simp)
  -- on the parts; a part that is there is passed, and one that is missing is made
  induction parts generalizing start with
  | nil => exact .pure ()
  | cons part rest ih =>
    refine .bind .get fun v => ?_
    split
    · exact ih _
    · exact .fail _
    · split
      · exact .bind (.fail _) fun _ => .bind (hmake _) fun _ => ih _
      · exact .bind (hmake _) fun _ => ih _

/-- Making the directories of a path leaves every item that is there. -/
theorem preserves_item_makeDirectories (p : Path) :
    Act.Preserves (fun v => v.disk.WellFormed ∧ v.disk.item? m = some i) (makeDirectories p) := by
  unfold makeDirectories
  split
  · exact .pure ()
  · exact preserves_item_makeAll _ _

/-- The directories that were made are there, one after the other. -/
theorem exists_walk_of_makeAll (hw : v.disk.WellFormed)
    (hstart : v.disk.item? start = some .directory)
    (h : (makeAll start parts).runOn v = (.ok (), v')) :
    ∃ l, v'.disk.walk start parts = .ok l ∧ v'.disk.item? l = some .directory := by
  -- on the parts, with the directory that the parts before them led to
  induction parts generalizing start v with
  | nil =>
    obtain ⟨-, rfl⟩ := Prod.mk.inj h
    exact ⟨start, rfl, hstart⟩
  | cons part rest ih =>
    -- the first one is there before the others are made, and stays
    have hrest {v₁ : Volume} (hw₁ : v₁.disk.WellFormed)
        (hstep : v₁.disk.item? (step start part) = some .directory)
        (h₁ : (makeAll (step start part) rest).runOn v₁ = (.ok (), v')) :
        ∃ l, v'.disk.walk start (part :: rest) = .ok l ∧ v'.disk.item? l = some .directory := by
      obtain ⟨l, hwalk, hl⟩ := ih hw₁ hstep h₁
      refine ⟨l, ?_, hl⟩
      by_cases hnil : rest = []
      · subst hnil
        exact hwalk
      · have hkept := (preserves_item_makeAll (step start part) rest v₁ ⟨hw₁, hstep⟩).2
        rw [h₁] at hkept
        exact (walk_cons_eq_ok_iff hnil).2 ⟨item?_eq_directory_iff.1 hkept, hwalk⟩
    cases hnode : v.disk.node? (step start part) with
    | some n =>
      cases n with
      | directory =>
        rw [runOn_makeAll_there rest hnode] at h
        exact hrest hw (item?_eq_directory_iff.2 hnode) h
      | file k =>
        rw [makeAll, Act.runOn_bind_ok (Act.runOn_get v)] at h
        simp only [hnode] at h
        exact absurd h (by simp)
    | none =>
      rw [runOn_makeAll_missing hnode] at h
      split at h
      · exact absurd h (by simp)
      obtain ⟨_, v₁, hcall, h⟩ := Act.eq_ok_of_bind h
      cases hperform : v.disk.perform (.makeDirectory (step start part)) with
      | error e =>
        rw [runOn_perform_error hperform] at hcall
        exact absurd hcall (by simp)
      | ok d =>
        rw [runOn_perform hperform] at hcall
        obtain ⟨-, rfl⟩ := Prod.mk.inj hcall
        exact hrest (hw.perform hperform) (puts_makeDirectory hw hperform).item?_self h

/-- **A path whose directories were made** leads to a directory. -/
theorem exists_directoryAt_of_makeDirectories (hw : v.disk.WellFormed) (hp : p.isEmpty = false)
    (h : (makeDirectories p).runOn v = (.ok (), v')) : ∃ l, v'.disk.directoryAt p = .ok l := by
  rw [makeDirectories, hp] at h
  obtain ⟨l, hwalk, hl⟩ := exists_walk_of_makeAll hw rfl h
  refine ⟨l, directoryAt_eq_ok_iff.2 ⟨?_, item?_eq_directory_iff.1 hl⟩⟩
  rw [Disk.locate, hp]
  exact hwalk

end Volume

/-! ### Two directories -/

namespace Disk

variable {d d' base : Disk} {home den l m : Location} {p q : Path}

/-- The paths lead to two directories, and nothing is below them. -/
structure Apart (base : Disk) (home den : Location) (p q : Path) : Prop where
  leads : base.directoryAt p = .ok home
  leads' : base.directoryAt q = .ok den
  ne : home ≠ den
  empty : ∀ m, Below home m → base.item? m = none
  empty' : ∀ m, Below den m → base.item? m = none

namespace Apart

variable (h : Apart base home den p q)

include h

theorem symm : Apart base den home q p := ⟨h.leads', h.leads, h.ne.symm, h.empty', h.empty⟩

/-- No directory that was there is below one of them. -/
theorem not_below_of_directory (hl : base.item? l = some .directory) : ¬ Below home l := by
  intro hb
  rw [h.empty l hb] at hl
  exact absurd hl (by simp)

theorem item?_home : base.item? home = some .directory :=
  item?_eq_directory_iff.2 (node?_home h.leads)

/-- What is below the one is not below the other. -/
theorem not_below (hm : Below home m) : ¬ Below den m := by
  intro hm'
  rcases List.prefix_or_prefix_of_prefix hm.1 hm'.1 with hp | hp
  · exact h.not_below_of_directory h.symm.item?_home ⟨hp, h.ne.symm⟩
  · exact h.symm.not_below_of_directory h.item?_home ⟨hp, h.ne⟩

/-- **A path that leads where it did** leads there still, whatever happens below the two. -/
theorem directoryAt_eq {r : Path} (hbase : base.directoryAt r = .ok l)
    (hd : d.directoryAt r = .ok l)
    (hi : ∀ m, ¬ Below home m → ¬ Below den m → d'.item? m = d.item? m) :
    d'.directoryAt r = .ok l := by
  refine directoryAt_common (fun m hm hm' => ?_) hbase hd
  rw [hi m (h.not_below_of_directory hm) (h.symm.not_below_of_directory hm), hm']

/-- Other directories that were there have nothing below the first one. -/
theorem not_below_entry {name : String} (hl : base.item? l = some .directory) (hne : l ≠ home) :
    ¬ Below home (l ++ [name]) := by
  intro hb
  rcases eq_or_below_of_below_entry hb with he | hb
  · exact hne he.symm
  · exact h.not_below_of_directory hl hb

theorem item?_eq (ho : Outside d.item? home d') (hm : Below den m) : d'.item? m = d.item? m :=
  ho.item? m (h.symm.not_below hm)

end Apart
end Disk
end RaftReplica
