/-
RaftReplica/Proofs/Snapshot/InUse.lean

A store of snapshots in use, together with those who use it: the writers that make snapshots, the
readers that have one open, and the copies, which do both.  They act in any order (`InUse.Step`), and
nobody else touches the directory of the store.

Each live reader is a claim, each writer and each copy under way a work; the store is on its shelf
with these claims and works in all states that can be reached (`Reachable.sound`), and a step does
not touch the snapshot of a reader that is alive before and after (`Step.moves`).

The invariant is `Sound`: the shelf with its claims and works, readers whose snapshots are what they
were opened as, copies whose files are in their works.  A step is shown to keep it by one lemma
(`Sound.moves`), which asks for four things: the shelf after the step, which entries were not
touched, where each live reader comes from, and where each copy comes from.

* Writers (`moves_create`, `moves_tell`, `moves_commit`, `moves_abandon`): one work more or less,
  and with a commit the store's own claim goes over.
* Readers (`moves_openLatest`, `moves_close`): one claim more or less.
* Copies.  A copy that is not joined holds the reader of its outcome itself (`Copy.pending`), so a
  copy that ends adds a claim, and joining hands it over.  One copy is taken out of the list, steps,
  and is put back (`moves_copy`).
* Elsewhere on the disk, and inside of the works by their writers, anything may happen
  (`moves_elsewhere`).
-/
import RaftReplica.Proofs.Counting
import RaftReplica.Proofs.Snapshot.Filling
import RaftReplica.Proofs.Snapshot.Reopening

namespace RaftReplica

open Disk SnapshotName SnapshotStore

/-- The reader that a copy has opened, until somebody takes it or it is known that nobody will. -/
def Copy.pending (c : Copy) : List SnapshotReader := if c.joined then [] else c.stage.readers

theorem Copy.pending_of_joined {c : Copy} (h : c.joined = true) : c.pending = [] := if_pos h

/-- A copy that was not joined holds the reader of its outcome. -/
theorem Copy.pending_of_not_joined {c : Copy} (h : c.joined = false) :
    c.pending = c.stage.readers := by
  rw [Copy.pending, h]
  rfl

/-- A store of snapshots, the disk that it is on, and those who use it. -/
structure InUse where
  store : SnapshotStore
  disk : Disk
  writers : List SnapshotWriter
  readers : List SnapshotReader

namespace InUse

variable {p : Path} {den : Location} {u u' : InUse} {c : Copy} {r : SnapshotReader}
  {w : SnapshotWriter}

/-- All readers that are not closed yet. -/
def live (u : InUse) : List SnapshotReader := u.readers ++ u.store.copies.flatMap Copy.pending

/-- The indexes of the live readers. -/
def indexes (u : InUse) : List Nat := u.live.map (·.index)

/-- The directories of the snapshots in the making. -/
def works (u : InUse) : List Path :=
  u.writers.map (·.directory) ++ u.store.copies.flatMap (·.stage.works)

/-- The live readers that have nothing to do with a copy; `rest` are the other copies. -/
def otherLive (u : InUse) (rest : List Copy) : List SnapshotReader :=
  u.readers ++ rest.flatMap Copy.pending

/-- The works that have nothing to do with a copy. -/
def otherWorks (u : InUse) (rest : List Copy) : List Path :=
  u.writers.map (·.directory) ++ rest.flatMap (·.stage.works)

/-- Where an action on the store starts. -/
def mounted (u : InUse) : Mounted SnapshotStore := ⟨u.store, .ofDisk u.disk⟩

/-- What an action on the store leaves. -/
def after (u : InUse) (m : Mounted SnapshotStore) : InUse :=
  { u with store := m.store, disk := m.volume.disk }

/-! ### Steps -/

/-- What can happen to a store at `p`, whose directory is at `den`. -/
inductive Step (p : Path) (den : Location) : InUse → InUse → Prop
  | create {u : InUse} {r m} (h : SnapshotStore.create.runOn u.mounted = (r, m)) :
    Step p den u { u.after m with writers := r.toOption.toList ++ u.writers }
  /-- A writer is told what its snapshot covers, and which files it has. -/
  | tell {u : InUse} {w : SnapshotWriter} (w' : SnapshotWriter) (hw : w ∈ u.writers)
      (hdir : w'.directory = w.directory) (hmax : w'.index ≤ Numeral.max64) :
    Step p den u { u with writers := w' :: u.writers.erase w }
  | commit {u : InUse} {w r m} (hw : w ∈ u.writers) (h : (commit w).runOn u.mounted = (r, m)) :
    Step p den u { u.after m with writers := u.writers.erase w }
  | abandon {u : InUse} {w r m} (hw : w ∈ u.writers) (h : (abandon w).runOn u.mounted = (r, m)) :
    Step p den u { u.after m with writers := u.writers.erase w }
  | openLatest {u : InUse} {r m} (h : openLatest.runOn u.mounted = (r, m)) :
    Step p den u { u.after m with readers := r.toOption.join.toList ++ u.readers }
  | close {u : InUse} {r x m} (hr : r ∈ u.readers)
      (h : (closeReader r).runOn u.mounted = (x, m)) :
    Step p den u { u.after m with readers := u.readers.erase r }
  | startCopy {u : InUse} {x m} (uri : String) (h : (startCopy uri).runOn u.mounted = (x, m)) :
    Step p den u (u.after m)
  | stepCopy {u : InUse} {x m} (n granted : Nat) (hn : n < u.store.copies.length)
      (hover : (u.store.copy n).isOver = false)
      (h : (stepCopy n granted).runOn u.mounted = (x, m)) : Step p den u (u.after m)
  | cancelCopy {u : InUse} (n : Nat) : Step p den u { u with store := u.store.cancelCopy n }
  | refuseCopy {u : InUse} (n : Nat) (hwaiting : (u.store.copy n).stage = .waiting) :
    Step p den u { u with store := u.store.refuseCopy n }
  | joinCopy {u : InUse} {r m} (n : Nat) (h : (joinCopy n).runOn u.mounted = (r, m)) :
    Step p den u { u.after m with readers := r.toOption.toList ++ u.readers }
  | disownCopy {u : InUse} {x m} (n : Nat) (h : (disownCopy n).runOn u.mounted = (x, m)) :
    Step p den u (u.after m)
  | throttle {u : InUse} (t : Option Nat) :
    Step p den u { u with store := { u.store with throttle := t } }
  /-- Something happens elsewhere on the disk, or a writer's files are written. -/
  | elsewhere {u : InUse} {d : Disk} (hw : d.WellFormed) (hp : d.directoryAt p = .ok den)
      (hsame : ∀ m, Below den m → (∀ w ∈ u.writers, ∀ l, u.disk.directoryAt w.directory = .ok l →
        ¬ Below l m) → d.item? m = u.disk.item? m) : Step p den u { u with disk := d }

/-- The store was opened on an empty directory, and then this and that happened. -/
inductive Reachable (p : Path) (den : Location) : InUse → Prop
  | start {v v₁ : Volume} {x m} (sync : Bool) (hw : v.disk.WellFormed)
      (hmake : (Volume.makeDirectories p).runOn v = (.ok (), v₁))
      (hden : v₁.disk.directoryAt p = .ok den) (hempty : v₁.disk.list p = .ok [])
      (h : SnapshotStore.init.runOn ⟨{ directory := p, sync }, v⟩ = (x, m)) :
    Reachable p den ⟨m.store, m.volume.disk, [], []⟩
  | step {u u' : InUse} (h : Reachable p den u) (hs : Step p den u u') : Reachable p den u'

/-! ### What all states have in common -/

/-- The claims on the store are those of its live readers, its works are those of the writers and of
the copies, and all of them are what they should be. -/
structure Sound (p : Path) (den : Location) (u : InUse) : Prop where
  /-- Wherever the path leads to the directory, nothing in the directory matters for that. -/
  grounded : ∀ d : Disk, d.directoryAt p = .ok den → Rooted d.item? den p
  directory : u.store.directory = p
  shelved : Shelved u.disk den u.store (u.store.own ++ u.indexes) u.works
  reads : ∀ r ∈ u.live, r.Reads u.disk p
  fills : ∀ c ∈ u.store.copies, c.stage.Fills u.disk den p
  bounds : ∀ w ∈ u.writers, w.index ≤ Numeral.max64

/-- A step comes to a sound state, and the snapshots of readers that are alive before and after are
the same. -/
structure Moves (p : Path) (den : Location) (u u' : InUse) : Prop where
  sound : Sound p den u'
  same : ∀ i ∈ u.indexes, i ∈ u'.indexes → SameEntry den (published i) u.disk u'.disk

/-- A copy goes on filling its work if that is kept. -/
theorem fills_of_kept {d d' : Disk} {kept : List Nat} {works : List Path} {stage : CopyStage}
    (h : stage.Fills d den p) (hkept : Kept den p d d' kept works) (hw : stage.works ⊆ works) :
    stage.Fills d' den p := by
  cases stage with
  | copying w info t rest =>
    obtain ⟨hmax, n, hdir, bs, hbs⟩ := h
    have hmem : p.entry (temporary n) ∈ works := hdir ▸ hw List.mem_cons_self
    exact ⟨hmax, n, hdir, bs, by rw [(hkept.works n hmem).below, hbs]⟩
  | _ => trivial

theorem works_subset (others : List Path) {copies : List Copy} (hc : c ∈ copies) :
    c.stage.works ⊆ others ++ copies.flatMap (·.stage.works) :=
  fun _ hq => List.mem_append_right others (List.mem_flatMap.2 ⟨c, hc, hq⟩)

/-- A snapshot that is claimed and did not change is read as before. -/
theorem reads_of_same {d d' : Disk} {s s' : SnapshotStore} {claims claims' : List Nat}
    {works works' : List Path} (hr : r.Reads d p) (h : Shelved d den s claims works)
    (h' : Shelved d' den s' claims' works') (hs : s.directory = p) (hs' : s'.directory = p)
    (hi : r.index ∈ claims) (hsame : SameEntry den (published r.index) d d') : r.Reads d' p := by
  have hat := h.item?_published hi
  have leads := directoryAt_entry (hs ▸ h.leads) (plain_published r.index) hat
  have leads' := directoryAt_entry (hs' ▸ h'.leads) (plain_published r.index)
    (hsame.self.trans hat)
  refine ⟨hr.directory, ?_⟩
  have hread := hr.table
  rw [hr.directory] at hread ⊢
  rw [SnapshotTable.file] at hread ⊢
  rwa [Record.read_congr leads plain_table leads' (hsame.below _)]

theorem works_perm (hw : w ∈ u.writers) : u.works.Perm (w.directory ::
    ((u.writers.erase w).map (·.directory) ++ u.store.copies.flatMap (·.stage.works))) :=
  ((List.perm_cons_erase hw).map (·.directory)).append_right _

namespace Sound

variable (h : Sound p den u)

include h

/-- The store is in its directory, and so is what its copies write. -/
theorem inside : u.store.Inside u.disk.item? den p := by
  refine ⟨h.directory, fun c hc => ?_⟩
  have hfills := h.fills c hc
  cases hstage : c.stage with
  | copying w info t rest =>
    rw [hstage] at hfills
    obtain ⟨-, n, hdir, bs, hopen⟩ := hfills
    have hbelow : Below den (den ++ [temporary n] ++ [t.name]) :=
      (below_entry (temporary n)).trans_isPrefix (List.prefix_append _ _)
    exact ⟨⟨n, hdir⟩, (Outside.refl h.shelved.wellFormed).free hbelow (item?_eq_file_iff.1 hopen).1⟩
  | _ => trivial

/-- What has to be known of a step. -/
theorem moves {kept : List Nat} {works : List Path} (hdir : u'.store.directory = u.store.directory)
    (hshelved : Shelved u'.disk den u'.store (u'.store.own ++ u'.indexes) u'.works)
    (hkept : Kept den u.store.directory u.disk u'.disk kept works)
    (hclaims : ∀ i ∈ u.indexes, i ∈ u'.indexes → i ∈ kept)
    (hlive : ∀ r ∈ u'.live, r ∈ u.live ∨ r.Reads u'.disk p)
    (hfills : ∀ c ∈ u'.store.copies,
      c.stage.Fills u.disk den p ∧ c.stage.works ⊆ works ∨ c.stage.Fills u'.disk den p)
    (hbounds : ∀ w ∈ u'.writers, w.index ≤ Numeral.max64) : Moves p den u u' := by
  have hsame : ∀ i ∈ u.indexes, i ∈ u'.indexes → SameEntry den (published i) u.disk u'.disk :=
    fun i hi hi' => hkept.snapshots i (hclaims i hi hi')
  rw [h.directory] at hdir hkept
  refine ⟨⟨h.grounded, hdir, hshelved, fun r hr => ?_, fun c hc => ?_, hbounds⟩, hsame⟩
  -- a reader from before reads what it read, since its snapshot was not touched
  · rcases hlive r hr with hr' | hreads
    · exact reads_of_same (h.reads r hr') h.shelved hshelved h.directory hdir
        (List.mem_append_right _ (List.mem_map_of_mem hr'))
        (hsame r.index (List.mem_map_of_mem hr') (List.mem_map_of_mem hr))
    · exact hreads
  · rcases hfills c hc with ⟨hfill, hw⟩ | hfill
    · exact fills_of_kept hfill hkept hw
    · exact hfill

/-! ### Steps of writers -/

/-- A writer is made, or the call fails. -/
theorem moves_create {v : Volume} {x : Except Failure SnapshotWriter} {m : Mounted SnapshotStore}
    (hv : v.disk = u.disk) (hrun : SnapshotStore.create.runOn ⟨u.store, v⟩ = (x, m)) :
    Moves p den u { u.after m with writers := x.toOption.toList ++ u.writers } := by
  obtain ⟨w, v', hcreate, hdir, htable, hshelved, hkept⟩ :=
    Shelved.runOn_create (v := v) (hv ▸ h.shelved)
  obtain ⟨rfl, rfl⟩ := Prod.mk.inj (hrun.symm.trans hcreate)
  refine h.moves rfl hshelved (hv ▸ hkept) (fun i hi _ => List.mem_append_right _ hi) (fun r => .inl)
    (fun c hc => .inl ⟨h.fills c hc, ?_⟩) fun w' hw' => ?_
  · exact works_subset _ hc
  · rcases List.mem_cons.1 hw' with rfl | hw'
    · rw [SnapshotWriter.index, htable]
      exact Nat.zero_le _
    · exact h.bounds w' hw'

/-- A writer is told something; the store does not hear of it. -/
theorem moves_tell {w' : SnapshotWriter} (hw : w ∈ u.writers) (hdir : w'.directory = w.directory)
    (hmax : w'.index ≤ Numeral.max64) :
    Moves p den u { u with writers := w' :: u.writers.erase w } := by
  have hperm := works_perm hw
  rw [← hdir] at hperm
  refine h.moves rfl (h.shelved.perm (.refl _) hperm) (.of_eq rfl) (fun i hi _ => hi)
    (fun r => .inl) (fun c hc => .inl ⟨h.fills c hc, works_subset [] hc⟩) fun w'' hw'' => ?_
  rcases List.mem_cons.1 hw'' with rfl | hw''
  · exact hmax
  · exact h.bounds w'' (List.mem_of_mem_erase hw'')

/-- **A commit**, whatever comes of it, leaves the snapshots of all readers as they were. -/
theorem moves_commit {x : Except Failure Nat} {m : Mounted SnapshotStore} (hw : w ∈ u.writers)
    (hrun : (commit w).runOn u.mounted = (x, m)) :
    Moves p den u { u.after m with writers := u.writers.erase w } := by
  have hshelved := h.shelved.perm (.refl _) (works_perm hw)
  have hbounds : ∀ w' ∈ u.writers.erase w, w'.index ≤ Numeral.max64 :=
    fun w' hw' => h.bounds w' (List.mem_of_mem_erase hw')
  have hcopies : ∀ c ∈ u.store.copies, c.stage.works ⊆
      (u.writers.erase w).map (·.directory) ++ u.store.copies.flatMap (·.stage.works) :=
    fun c hc => works_subset _ hc
  -- either the store is as it was, or its own claim has gone over to the new snapshot
  rcases Shelved.runOn_commit (v := .ofDisk u.disk) hshelved (h.bounds w hw) with
    ⟨r, v', hcommit, h', hkept, -⟩ | ⟨holders, v', hcommit, hne, -, h', hkept⟩
  · obtain ⟨rfl, rfl⟩ := Prod.mk.inj (hrun.symm.trans hcommit)
    exact h.moves rfl h' hkept.right (fun i hi _ => hi) (fun r => .inl)
      (fun c hc => .inl ⟨h.fills c hc, hcopies c hc⟩) hbounds
  · obtain ⟨rfl, rfl⟩ := Prod.mk.inj (hrun.symm.trans hcommit)
    refine h.moves rfl ?_ hkept (fun i hi _ => hi) (fun r => .inl)
      (fun c hc => .inl ⟨h.fills c hc, hcopies c hc⟩) hbounds
    show Shelved v'.disk den { u.store with last := w.index, holders }
      (SnapshotStore.own { u.store with last := w.index, holders } ++ u.indexes) _
    rw [own, if_neg hne]
    exact h'

/-- A writer is given up, and its work with it. -/
theorem moves_abandon {x : Except Failure Unit} {m : Mounted SnapshotStore} (hw : w ∈ u.writers)
    (hrun : (abandon w).runOn u.mounted = (x, m)) :
    Moves p den u { u.after m with writers := u.writers.erase w } := by
  obtain ⟨v', habandon, h', hkept, -⟩ := Shelved.runOn_abandon (v := .ofDisk u.disk)
    (h.shelved.perm (.refl _) (works_perm hw))
  obtain ⟨rfl, rfl⟩ := Prod.mk.inj (hrun.symm.trans habandon)
  exact h.moves rfl h' hkept.right (fun i hi _ => hi) (fun r => .inl)
    (fun c hc => .inl ⟨h.fills c hc, works_subset _ hc⟩)
    fun w' hw' => h.bounds w' (List.mem_of_mem_erase hw')

/-! ### Steps of readers -/

/-- The latest snapshot is opened, or the call fails. -/
theorem moves_openLatest {x : Except Failure (Option SnapshotReader)} {m : Mounted SnapshotStore}
    (hrun : SnapshotStore.openLatest.runOn u.mounted = (x, m)) :
    Moves p den u { u.after m with readers := x.toOption.join.toList ++ u.readers } := by
  rcases Shelved.runOn_openLatest (v := .ofDisk u.disk) h.shelved with
    ⟨table, holders, hopen, hi, hread, h'⟩ | ⟨holders, hopen, h'⟩
  · obtain ⟨rfl, rfl⟩ := Prod.mk.inj (hrun.symm.trans hopen)
    refine h.moves rfl (h'.perm List.perm_middle.symm (.refl _))
      (.of_eq rfl) (fun i hi _ => hi) (fun r hr => ?_) (fun c hc => .inl ⟨h.fills c hc, works_subset [] hc⟩)
      h.bounds
    rcases List.mem_cons.1 hr with rfl | hr
    · exact .inr (h.directory ▸ ⟨rfl, hread⟩)
    · exact .inl hr
  · obtain ⟨rfl, rfl⟩ := Prod.mk.inj (hrun.symm.trans hopen)
    exact h.moves rfl h' (.of_eq rfl) (fun i hi _ => hi) (fun r => .inl)
      (fun c hc => .inl ⟨h.fills c hc, works_subset [] hc⟩) h.bounds

/-- A reader is closed, and its claim is given up. -/
theorem moves_close {x : Except Failure Unit} {m : Mounted SnapshotStore} (hr : r ∈ u.readers)
    (hrun : (closeReader r).runOn u.mounted = (x, m)) :
    Moves p den u { u.after m with readers := u.readers.erase r } := by
  have hperm : u.indexes.Perm (r.index ::
      (u.readers.erase r ++ u.store.copies.flatMap Copy.pending).map (·.index)) :=
    List.Perm.map (fun r : SnapshotReader => r.index) ((List.perm_cons_erase hr).append_right _)
  obtain ⟨holders, v', hrelease, h', hkept⟩ := Shelved.runOn_release (v := .ofDisk u.disk)
    (h.shelved.perm (((List.Perm.refl u.store.own).append hperm).trans List.perm_middle) (.refl _))
  obtain ⟨rfl, rfl⟩ := Prod.mk.inj (hrun.symm.trans hrelease)
  refine h.moves rfl h' hkept.right (fun i _ hi => hi) (fun r' hr' => .inl ?_)
    (fun c hc => .inl ⟨h.fills c hc, works_subset _ hc⟩) h.bounds
  refine (List.mem_append.1 hr').elim (fun hr' => ?_) (List.mem_append_right _)
  exact List.mem_append_left _ (List.mem_of_mem_erase hr')

/-! ### Steps of copies -/

theorem moves_refl : Moves p den u u := ⟨h, fun _ _ _ => .of_eq rfl⟩

/-- Nothing happens to the disk, and claims and works are only told in another way. -/
theorem moves_still (copies : List Copy) {readers : List SnapshotReader} {t : Option Nat}
    (hlive : (readers ++ copies.flatMap Copy.pending).Perm u.live)
    (hworks : (copies.flatMap (·.stage.works)).Perm (u.store.copies.flatMap (·.stage.works)))
    (hfills : ∀ c ∈ copies, c.stage.Fills u.disk den p) :
    Moves p den u { u with store := { u.store with copies, throttle := t }, readers } := by
  have hindexes := hlive.symm.map SnapshotReader.index
  have hshelved := h.shelved.perm (hindexes.append_left u.store.own)
    (hworks.symm.append_left (u.writers.map SnapshotWriter.directory))
  have hkept : Kept den u.store.directory u.disk u.disk u.indexes [] := .of_eq rfl
  exact h.moves rfl (hshelved.withStore _ rfl rfl rfl) hkept (fun i hi _ => hi)
    (fun r hr => .inl (hlive.mem_iff.1 hr)) (fun c hc => .inr (hfills c hc)) h.bounds

/-- A copy is started; it has no work yet. -/
theorem moves_startCopy {x : Except Failure Nat} {m : Mounted SnapshotStore} (uri : String)
    (hrun : (startCopy uri).runOn u.mounted = (x, m)) : Moves p den u (u.after m) := by
  cases hsource : sourceOf uri with
  | error e =>
    rw [startCopy, Act.runOn_bind_error (by rw [Act.runOn_ofExcept, hsource]; rfl)] at hrun
    obtain ⟨-, rfl⟩ := Prod.mk.inj hrun
    exact h.moves_refl
  | ok source =>
    rw [startCopy, Act.runOn_bind_ok (Act.runOn_ofExcept_ok hsource _),
      Act.runOn_bind_ok (Mounted.runOn_stored _),
      Act.runOn_bind_ok (Mounted.runOn_update _ _)] at hrun
    obtain ⟨-, rfl⟩ := Prod.mk.inj hrun
    refine h.moves_still (u.store.copies ++ [{ source, throttle := u.store.throttle }])
      ?_ ?_ fun c hc => ?_
    · rw [List.flatMap_append]
      exact .of_eq (congrArg (u.readers ++ ·) (List.append_nil _))
    · rw [List.flatMap_append]
      exact .of_eq (List.append_nil _)
    · rcases List.mem_append.1 hc with hc | hc
      · exact h.fills c hc
      · obtain rfl := List.mem_singleton.1 hc
        trivial

/-- A copy is changed that has nothing open and does not get anything. -/
theorem moves_modifyCopy {n : Nat} {f : Copy → Copy}
    (hpending : ∀ c, u.store.copies[n]? = some c → (f c).pending = c.pending)
    (hworks : ∀ c, u.store.copies[n]? = some c → (f c).stage.works = c.stage.works)
    (hfills : ∀ c ∈ u.store.copies, (f c).stage.Fills u.disk den p) :
    Moves p den u { u with store := u.store.modifyCopy n f } := by
  refine h.moves_still (u.store.copies.modify n f) ?_ ?_ fun c hc => ?_
  · rw [flatMap_modify hpending]
    exact .refl _
  · rw [flatMap_modify hworks]
  · obtain ⟨i, hi⟩ := List.mem_iff_getElem?.1 hc
    rw [List.getElem?_modify] at hi
    obtain ⟨c', hc', rfl⟩ := Option.map_eq_some_iff.1 hi
    have hmem := List.mem_of_getElem? hc'
    split
    · exact hfills c' hmem
    · exact h.fills c' hmem

theorem moves_cancelCopy (n : Nat) :
    Moves p den u { u with store := u.store.cancelCopy n } :=
  h.moves_modifyCopy (fun _ _ => rfl) (fun _ _ => rfl) h.fills

omit h in
theorem copy_eq {n : Nat} (hc : u.store.copies[n]? = some c) : u.store.copy n = c := by
  rw [SnapshotStore.copy, hc]
  rfl

/-- A copy that is still waiting is refused, and it has nothing to give back. -/
theorem moves_refuseCopy {n : Nat} (hwaiting : (u.store.copy n).stage = .waiting) :
    Moves p den u { u with store := u.store.refuseCopy n } := by
  refine h.moves_modifyCopy (fun c hc => ?_) (fun c hc => ?_) fun _ _ => trivial
  · rw [copy_eq hc] at hwaiting
    rw [Copy.pending, Copy.pending, hwaiting]
    rfl
  · rw [copy_eq hc] at hwaiting
    rw [hwaiting]
    rfl

/-- A copy with nothing open is not waited for any more. -/
theorem moves_setJoined {n : Nat} (hnone : ∀ c, u.store.copies[n]? = some c → c.pending = []) :
    Moves p den u
      { u with store := u.store.modifyCopy n fun c => { c with joined := true } } :=
  h.moves_modifyCopy (fun c hc => (Copy.pending_of_joined rfl).trans (hnone c hc).symm)
    (fun _ _ => rfl) h.fills

omit h in
/-- Who takes the outcome of a copy gets the reader that was pending. -/
theorem runOn_joinCopy {n : Nat} (hjoined : (u.store.copy n).joined = false) : ∃ x,
    (joinCopy n).runOn u.mounted = (x, ⟨u.store.modifyCopy n fun c => { c with joined := true },
      .ofDisk u.disk⟩) ∧ x.toOption.toList = (u.store.copy n).pending := by
  rw [joinCopy, Act.runOn_bind_ok (Mounted.runOn_stored _), Copy.pending_of_not_joined hjoined]
  simp only [mounted, hjoined]
  rcases (u.store.copy n).stage with _ | _ | r
  · exact ⟨_, rfl, rfl⟩
  · exact ⟨_, rfl, rfl⟩
  · cases r <;> exact ⟨_, rfl, rfl⟩

/-- A copy is joined, and its reader, if it has one, is handed over. -/
theorem moves_joinCopy {x : Except Failure SnapshotReader} {m : Mounted SnapshotStore} {n : Nat}
    (hrun : (joinCopy n).runOn u.mounted = (x, m)) :
    Moves p den u { u.after m with readers := x.toOption.toList ++ u.readers } := by
  -- joining once more hands over nothing
  cases hjoined : (u.store.copy n).joined with
  | true =>
    rw [joinCopy, Act.runOn_bind_ok (Mounted.runOn_stored _)] at hrun
    simp only [mounted, hjoined] at hrun
    obtain ⟨rfl, rfl⟩ := Prod.mk.inj hrun
    exact h.moves_refl
  | false =>
    obtain ⟨x', hjoin, hreader⟩ := runOn_joinCopy hjoined
    obtain ⟨rfl, rfl⟩ := Prod.mk.inj (hjoin.symm.trans hrun)
    rw [hreader]
    cases hc : u.store.copies[n]? with
    | none =>
      rw [SnapshotStore.copy, hc]
      exact h.moves_setJoined fun c hc' => nomatch hc.symm.trans hc'
    | some c =>
    rw [copy_eq hc]
    obtain ⟨rest, hcopies, hmodified⟩ := exists_perm_modify hc
    refine h.moves_still (u.store.copies.modify n fun c => { c with joined := true })
      ?_ ?_ fun c' hc' => ?_
    · refine (append_flatMap_perm (hmodified _) _ _).trans ?_
      refine List.Perm.trans (.of_eq ?_) (append_flatMap_perm hcopies u.readers Copy.pending).symm
      exact List.append_assoc _ _ _
    · exact .of_eq (flatMap_modify fun _ _ => rfl)
    · rcases List.mem_cons.1 ((hmodified _).mem_iff.1 hc') with rfl | hc'
      · exact h.fills c (List.mem_of_getElem? hc)
      · exact h.fills c' (hcopies.mem_iff.2 (.tail _ hc'))

section

variable {rest : List Copy} (hcopies : u.store.copies.Perm (c :: rest))

include hcopies

omit h in
theorem live_perm : u.live.Perm (c.pending ++ u.otherLive rest) :=
  append_flatMap_perm hcopies u.readers Copy.pending

/-- One copy and all others. -/
theorem shelved_copy : Shelved u.disk den u.store
    (u.store.own ++ (c.pending.map (·.index) ++ (u.otherLive rest).map (·.index)))
    (c.stage.works ++ u.otherWorks rest) := by
  have hindexes := (live_perm hcopies).map SnapshotReader.index
  rw [List.map_append] at hindexes
  exact h.shelved.perm (hindexes.append_left u.store.own) (append_flatMap_perm hcopies _ _)

/-- What has to be known if a copy becomes another one, and had a snapshot open before or has one
after, but not both. -/
theorem moves_copy {s' : SnapshotStore} {d' : Disk} {c' : Copy}
    (hcopies' : s'.copies.Perm (c' :: rest)) (hnone : c.pending = [] ∨ c'.pending = [])
    (hdir : s'.directory = u.store.directory)
    (hshelved : Shelved d' den s'
      (s'.own ++ (c'.pending.map (·.index) ++ (u.otherLive rest).map (·.index)))
      (c'.stage.works ++ u.otherWorks rest))
    (hkept : Kept den u.store.directory u.disk d' ((u.otherLive rest).map (·.index))
      (u.otherWorks rest))
    (hreads : ∀ r ∈ c'.pending, r.Reads d' p) (hfills : c'.stage.Fills d' den p) :
    Moves p den u { u with store := s', disk := d' } := by
  have hlive := live_perm hcopies
  have hlive' : List.Perm (live { u with store := s', disk := d' }) (c'.pending ++ u.otherLive rest) :=
    append_flatMap_perm hcopies' u.readers Copy.pending
  have hworks' : List.Perm (works { u with store := s', disk := d' })
      (c'.stage.works ++ u.otherWorks rest) := append_flatMap_perm hcopies' _ _
  have hindexes := hlive'.map SnapshotReader.index
  rw [List.map_append] at hindexes
  refine h.moves hdir (hshelved.perm (hindexes.append_left s'.own).symm hworks'.symm) hkept
    (fun i hi hi' => ?_) (fun r hr => ?_) (fun c'' hc'' => ?_) h.bounds
  -- a copy holds a reader before the step or after it, but not both
  · rcases hnone with hnone | hnone
    · have hmem := (hlive.map SnapshotReader.index).mem_iff.1 hi
      rwa [hnone] at hmem
    · have hmem := hindexes.mem_iff.1 hi'
      rwa [hnone] at hmem
  · rcases List.mem_append.1 (hlive'.mem_iff.1 hr) with hr | hr
    · exact .inr (hreads r hr)
    · exact .inl (hlive.mem_iff.2 (List.mem_append_right _ hr))
  · rcases List.mem_cons.1 (hcopies'.mem_iff.1 hc'') with rfl | hc''
    · exact .inr hfills
    · refine .inl ⟨h.fills c'' (hcopies.mem_iff.2 (.tail _ hc'')), ?_⟩
      exact works_subset _ hc''

end

/-- A copy that nobody takes any more is closed, if it is over. -/
theorem moves_disownCopy {x : Except Failure Unit} {m : Mounted SnapshotStore} {n : Nat}
    (hrun : (disownCopy n).runOn u.mounted = (x, m)) : Moves p den u (u.after m) := by
  rw [disownCopy, Act.runOn_bind_ok (Mounted.runOn_stored _)] at hrun
  dsimp only [mounted] at hrun
  rw [Act.runOn_bind_ok (Mounted.runOn_update _ _)] at hrun
  cases hc : u.store.copies[n]? with
  | none =>
    rw [SnapshotStore.copy, hc] at hrun
    obtain ⟨-, rfl⟩ := Prod.mk.inj hrun
    exact h.moves_setJoined fun c hc' => nomatch hc.symm.trans hc'
  | some c =>
  rw [copy_eq hc] at hrun
  -- what was handed over is not closed by the store
  cases hjoined : c.joined with
  | true =>
    rw [hjoined] at hrun
    obtain ⟨-, rfl⟩ := Prod.mk.inj hrun
    refine h.moves_setJoined fun c' hc' => ?_
    obtain rfl := Option.some.inj (hc.symm.trans hc')
    exact Copy.pending_of_joined hjoined
  | false =>
    rw [hjoined] at hrun
    obtain ⟨rest, hcopies, hmodified⟩ := exists_perm_modify hc
    have hshelved := h.shelved_copy hcopies
    rw [Copy.pending_of_not_joined hjoined] at hshelved
    obtain ⟨holders, v', hclose, h', hkept⟩ := runOn_closeOutcome (v := .ofDisk u.disk)
      (s := u.store.modifyCopy n fun c => { c with joined := true })
      (hshelved.withStore _ rfl rfl rfl)
    obtain ⟨-, rfl⟩ := Prod.mk.inj (hrun.symm.trans hclose)
    refine h.moves_copy hcopies (hmodified fun c => { c with joined := true }) (.inr rfl) rfl h'
      (hkept.mono (List.Subset.refl _) (List.subset_append_right _ _)) (fun _ hr => nomatch hr) ?_
    have hfills := h.fills c (List.mem_of_getElem? hc)
    exact fills_of_kept hfills (h.directory ▸ hkept) (List.subset_append_left _ _)

omit h in
/-- A copy that is not over holds no reader. -/
theorem pending_of_not_over (hover : c.isOver = false) : c.pending = [] := by
  unfold Copy.isOver at hover
  unfold Copy.pending CopyStage.readers
  split at hover
  · nomatch hover
  · next hnot =>
    split
    · rfl
    · split
      · next hstage => exact absurd hstage (hnot _)
      · rfl

/-- The step itself comes to a stage. -/
theorem leads_step {n : Nat} (hc : u.store.copies[n]? = some c) {rest : List Copy} (granted : Nat)
    (hcopies : u.store.copies.Perm (c :: rest)) (hover : c.isOver = false) :
    LeadsFrom den ((u.otherLive rest).map (·.index)) (u.otherWorks rest) u.mounted
      (match c.stage with
        | .waiting => beginCopy c
        | .copying w info t rest => afterFilling w info (fill c granted w info t rest)
        | .over r => return .over r) := by
  have hshelved := h.shelved_copy hcopies
  have hfills := h.fills c (List.mem_of_getElem? hc)
  rw [pending_of_not_over hover, List.map_nil, List.nil_append] at hshelved
  -- one case for each stage of the copy
  rcases hstage : c.stage with _ | ⟨w, info, t, rest⟩ | r
  · rw [hstage] at hshelved
    exact leads_beginCopy hshelved c
  · rw [hstage] at hshelved hfills
    obtain ⟨hmax, k, hdir, ht⟩ := hfills
    rw [← h.directory] at hdir
    obtain ⟨k', -, hdir', hat⟩ := hshelved.made w.directory List.mem_cons_self
    obtain rfl := temporary_injective (Path.entry_injective (hdir.symm.trans hdir'))
    have leads := hshelved.rooted.entry (plain_temporary k) hat u.disk (.refl hshelved.wellFormed)
    rw [← hdir] at leads
    exact leads_afterFilling (v := .ofDisk u.disk) hshelved hdir hmax
      (filled_fill (v := .ofDisk u.disk) hshelved.wellFormed leads ht c granted rest)
  · rw [Copy.isOver, hstage] at hover
    nomatch hover

/-- A copy that has come to a stage keeps it, and what it has opened is closed if nobody waits. -/
theorem moves_stage {n : Nat} (hover : c.isOver = false)
    {rest : List Copy} (hcopies : u.store.copies.Perm (c :: rest))
    (hmodified : ∀ f, (u.store.copies.modify n f).Perm (f c :: rest))
    {stage : CopyStage} {m₁ m : Mounted SnapshotStore} {x : Except Failure Unit}
    (hleads : Leads den ((u.otherLive rest).map (·.index)) (u.otherWorks rest) u.mounted m₁ stage)
    (hrun : Act.runOn (if c.joined then closeOutcome stage else pure ())
      ⟨m₁.store.modifyCopy n fun c => { c with stage }, m₁.volume⟩ = (x, m)) :
    Moves p den u (u.after m) := by
  obtain ⟨hdir, hsame, hshelved, hkept, hreads, hfills⟩ := hleads
  rw [show u.mounted.store = u.store from rfl, h.directory] at hreads hfills
  have hcopies' : (m₁.store.modifyCopy n fun c => { c with stage }).copies.Perm
      ({ c with stage } :: rest) := by
    rw [SnapshotStore.modifyCopy, hsame]
    exact hmodified _
  have hnone := pending_of_not_over hover
  have hshelved' := hshelved.withStore (m₁.store.modifyCopy n fun c => { c with stage }) rfl rfl rfl
  -- a copy that nobody waits for closes its reader at once
  cases hjoined : c.joined with
  | false =>
    rw [hjoined] at hrun
    obtain ⟨-, rfl⟩ := Prod.mk.inj hrun
    have hpending : ({ c with stage } : Copy).pending = stage.readers :=
      Copy.pending_of_not_joined hjoined
    refine h.moves_copy hcopies hcopies' (.inl hnone) hdir ?_ hkept ?_ hfills
    · rw [hpending]
      exact hshelved'
    · rw [hpending]
      exact hreads
  | true =>
    rw [hjoined, if_pos rfl] at hrun
    obtain ⟨holders, v', hclose, h', hkept'⟩ := runOn_closeOutcome hshelved'
    obtain ⟨-, rfl⟩ := Prod.mk.inj (hrun.symm.trans hclose)
    have hpending : ({ c with stage } : Copy).pending = [] := Copy.pending_of_joined hjoined
    have hkept'' : Kept den u.store.directory m₁.volume.disk v'.disk
        ((u.otherLive rest).map (·.index)) (stage.works ++ u.otherWorks rest) := hdir ▸ hkept'
    refine h.moves_copy hcopies hcopies' (.inl hnone) hdir ?_
      (hkept.trans (hkept''.mono (List.Subset.refl _) (List.subset_append_right _ _))) ?_ ?_
    · rw [hpending]
      exact h'
    · rw [hpending]
      exact fun _ hr => absurd hr List.not_mem_nil
    · exact fills_of_kept hfills (h.directory ▸ hkept'') (List.subset_append_left _ _)

/-- **A step of a copy**, whatever comes of it, leaves the snapshots of all readers as they were. -/
theorem moves_stepCopy {x : Except Failure Unit} {m : Mounted SnapshotStore} {n granted : Nat}
    (hn : n < u.store.copies.length) (hover : (u.store.copy n).isOver = false)
    (hrun : (stepCopy n granted).runOn u.mounted = (x, m)) : Moves p den u (u.after m) := by
  have hc : u.store.copies[n]? = some (u.store.copy n) := by
    rw [SnapshotStore.copy, List.getElem?_eq_getElem hn]
    rfl
  obtain ⟨rest, hcopies, hmodified⟩ := exists_perm_modify hc
  rw [stepCopy, Act.runOn_bind_ok (Mounted.runOn_stored _)] at hrun
  dsimp only at hrun
  rw [Act.runOn_bind_ok (runOn_stageOf _), Act.runOn_bind_ok (Mounted.runOn_update _ _)] at hrun
  exact h.moves_stage hover hcopies hmodified (h.leads_step hc granted hcopies hover) hrun

/-- Anything may happen elsewhere on the disk, and in the works of the writers. -/
theorem moves_elsewhere {d : Disk} (hw : d.WellFormed) (hp : d.directoryAt p = .ok den)
    (hsame : ∀ m, Below den m → (∀ w ∈ u.writers, ∀ l, u.disk.directoryAt w.directory = .ok l →
      ¬ Below l m) → d.item? m = u.disk.item? m) : Moves p den u { u with disk := d } := by
  -- whatever is not in the work of a writer is the same
  have hwriter : ∀ w ∈ u.writers, ∀ l, u.disk.directoryAt w.directory = .ok l →
      ∃ n, w.directory = u.store.directory.entry (temporary n) ∧ l = den ++ [temporary n] := by
    intro w hw l hl
    obtain ⟨n, -, hdir, hat⟩ := h.shelved.made w.directory
      (List.mem_append_left _ (List.mem_map_of_mem hw))
    rw [hdir, directoryAt_entry h.shelved.leads (plain_temporary n) hat] at hl
    exact ⟨n, hdir, (Except.ok.inj hl).symm⟩
  have hentry (name : String)
      (hname : ∀ w ∈ u.writers, ∀ n, w.directory = u.store.directory.entry (temporary n) →
        temporary n ≠ name) : SameEntry den name u.disk d := by
    refine fun rest => hsame _ (below_append (by simp)) fun w hw l hl hb => ?_
    obtain ⟨n, hdir, rfl⟩ := hwriter w hw l hl
    exact hname w hw n hdir (entry_prefix_iff.1 hb.1)
  have hself (name : String) : d.item? (den ++ [name]) = u.disk.item? (den ++ [name]) := by
    refine hsame _ (below_entry name) fun w hw l hl hb => ?_
    obtain ⟨n, -, rfl⟩ := hwriter w hw l hl
    exact not_below_entry _ _ hb
  have hkept : Kept den u.store.directory u.disk d u.indexes
      (u.store.copies.flatMap (·.stage.works)) := by
    refine ⟨fun i _ => hentry _ fun _ _ n _ => temporary_ne_published n i, fun n hn => ?_⟩
    refine hentry _ fun w hw m hdir he => ?_
    have hdisjoint := List.disjoint_of_nodup_append h.shelved.nodup
    exact hdisjoint (List.mem_map_of_mem hw) (by rw [hdir, he]; exact hn)
  exact h.moves rfl (h.shelved.withEntries hw (h.directory ▸ h.grounded d hp) hself) hkept
    (fun i hi _ => hi) (fun r => .inl) (fun c hc => .inl ⟨h.fills c hc, works_subset [] hc⟩) h.bounds

end Sound

/-- **A step** keeps the state sound, and the snapshots of readers that stay alive. -/
theorem Step.moves (h : Sound p den u) (hs : Step p den u u') : Moves p den u u' := by
  -- one case for each step
  cases hs with
  | create hrun => exact h.moves_create rfl hrun
  | tell w' hw hdir hmax => exact h.moves_tell hw hdir hmax
  | commit hw hrun => exact h.moves_commit hw hrun
  | abandon hw hrun => exact h.moves_abandon hw hrun
  | openLatest hrun => exact h.moves_openLatest hrun
  | close hr hrun => exact h.moves_close hr hrun
  | startCopy uri hrun => exact h.moves_startCopy uri hrun
  | stepCopy n granted hn hover hrun => exact h.moves_stepCopy hn hover hrun
  | cancelCopy n => exact h.moves_cancelCopy n
  | refuseCopy n hwaiting => exact h.moves_refuseCopy hwaiting
  | joinCopy n hrun => exact h.moves_joinCopy hrun
  | disownCopy n hrun => exact h.moves_disownCopy hrun
  | throttle t => exact h.moves_still u.store.copies (.refl _) (.refl _) h.fills
  | elsewhere hw hp hsame => exact h.moves_elsewhere hw hp hsame

/-! ### Runs -/

/-- Nothing in a directory that once was empty matters for the way to it. -/
theorem grounded_of_empty {d : Disk} (hw : d.WellFormed) (hden : d.directoryAt p = .ok den)
    (hempty : d.list p = .ok []) (d' : Disk) (hden' : d'.directoryAt p = .ok den) :
    Rooted d'.item? den p := by
  intro d'' ho
  refine directoryAt_common (fun m hm hm' => ?_) hden hden'
  rw [ho.item? m fun hb => ?_, hm']
  rw [(list_eq_nil_iff hw hden).1 hempty m hb] at hm
  nomatch hm

/-- **All states that can be reached** are sound. -/
theorem Reachable.sound (h : Reachable p den u) : Sound p den u := by
  induction h with
  | @start v v₁ x m sync hw hmake hden hempty hinit =>
    have hw₁ := Volume.preserves_makeDirectories p v hw
    rw [hmake] at hw₁
    have hnone := (list_eq_nil_iff hw₁ hden).1 hempty
    have hgrounded := grounded_of_empty hw₁ hden hempty
    have hshelved : Shelved v₁.disk den { directory := p, sync } [] [] := by
      refine ⟨hw₁, hgrounded _ hden, fun i => hnone _ (below_entry _), fun _ => rfl,
        nofun, fun name hname => ?_, List.nodup_nil, nofun⟩
      rw [hnone _ (below_entry _)] at hname
      nomatch hname
    obtain ⟨v', hrun, h', -⟩ := hshelved.runOn_init { directory := p, sync } rfl
    rw [runOn_init_made (s := { directory := p, sync }) hmake hden, hrun] at hinit
    obtain ⟨-, rfl⟩ := Prod.mk.inj hinit
    exact ⟨hgrounded, rfl, h', fun r hr => absurd hr List.not_mem_nil,
      fun c hc => absurd hc List.not_mem_nil, fun w hw => absurd hw List.not_mem_nil⟩
  | step _ hs ih => exact (hs.moves ih).sound

end InUse
end RaftReplica
