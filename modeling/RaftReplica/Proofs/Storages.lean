/-
RaftReplica/Proofs/Storages.lean

All stores of one member, opened for the first time and opened again.  The log and the snapshots have
directories of their own, which are made if they are missing and are empty at first (`Fresh`).
Whoever opens them again finds what the log and the snapshots hold (`Fresh.reopened`); what the
ballots are kept in does not matter, as long as they can be read the first time.

Three stores are on one disk, and what is written for one of them must not be seen by the others.

* Places.  `Places` tells where the three are, and `Kept` that the two directories are still what
  they lead to, and that the record of the ballots is as it was.  The record may be in one of the two
  directories, but under a name that neither of them uses (`dropStart?_record`).
* Changes.  What changes only inside of one directory keeps the places (`inLog`, `inSnapshots`), and
  then the other store stands as before (`Hold.withLog`, `Hold.withSnapshots`).
* Ballots.  A store of ballots is looked at only so far that it is opened the same way again if its
  record is the same (`BallotStore.ReadAs`, `init_ok`).  Nothing is said about what it holds.

Opening runs through the stores in their order.  The first time each directory is made, and what is
empty after all of them are made was empty before (`Fresh.opened`).  Later all of them are there, and
each store is opened on what it left (`Fresh.reopened`).
-/
import RaftReplica.Proofs.Disk.Apart
import RaftReplica.Proofs.Log.Outside
import RaftReplica.Proofs.Log.Refinement
import RaftReplica.Proofs.Snapshot.Store
import RaftReplica.Storages

namespace RaftReplica

open Disk

/-! ### Ballots -/

namespace BallotStore

variable {ballots opened : BallotStore} {v v' : Volume} {q : Path × String}

/-- Where the record of the ballots is: a directory, and a name in it. -/
def record? : BallotStore → Option (Path × String)
  | memory _ => none
  | single s => some (s.directory, "stable_meta")
  | book b => some (b.directory, "merged_meta")

/-- A record has one of two names. -/
theorem record?_cases (h : q ∈ ballots.record?) : q.2 = "stable_meta" ∨ q.2 = "merged_meta" := by
  cases ballots with
  | memory m => exact absurd h (by simp [record?])
  | single s => exact .inl (Option.some.inj h ▸ rfl)
  | book b => exact .inr (Option.some.inj h ▸ rfl)

theorem plain_record (h : q ∈ ballots.record?) : Path.Plain q.2 := by
  rcases record?_cases h with he | he <;> rw [he] <;> refine ⟨?_, ?_, ?_⟩ <;> decide

/-- The record belongs neither to a log nor to a store of snapshots. -/
theorem dropStart?_record (h : q ∈ ballots.record?) :
    (Text.dropStart? SegmentName.start.toList q.2.toList).isSome = false ∧
      (Text.dropStart? SnapshotName.start.toList q.2.toList).isSome = false := by
  rcases record?_cases h with he | he <;> rw [he] <;> decide

/-- Makes a directory and reads the record in it: what both kinds of ballots do that are on disk. -/
def reading {σ α : Type} [JsonForm α] (p : Path) (name : String) (put : Option α → σ → σ) :
    Act (Mounted σ) Unit := do
  Mounted.onVolume (Volume.makeDirectories p)
  let found ← Mounted.onVolume (Record.load? (p.entry name))
  Mounted.update (put found)

/-- Ballots are read without changing the disk if their directory is there and their record is the
same as when they were read before. -/
def ReadAs (ballots opened : BallotStore) (d : Disk) : Prop :=
  ∀ u : Volume, (∀ q ∈ ballots.record?, ∀ l, d.directoryAt q.1 = .ok l →
    u.disk.directoryAt q.1 = .ok l ∧ u.disk.item? (l ++ [q.2]) = d.item? (l ++ [q.2])) →
      init.runOn ⟨ballots, u⟩ = (.ok (), ⟨opened, u⟩)

/-- What a record is read as, it is read as again. -/
theorem reading_ok {σ α : Type} [JsonForm α] {p : Path} {name : String} {put : Option α → σ → σ}
    {s t : σ} (hw : v.disk.WellFormed) (hp : p.isEmpty = false) (hn : Path.Plain name)
    (h : (reading p name put).runOn ⟨s, v⟩ = (.ok (), ⟨t, v'⟩)) :
    (Volume.makeDirectories p).runOn v = (.ok (), v') ∧ ∀ u : Volume,
      (∀ l, v'.disk.directoryAt p = .ok l →
        u.disk.directoryAt p = .ok l ∧ u.disk.item? (l ++ [name]) = v'.disk.item? (l ++ [name])) →
      (reading p name put).runOn ⟨s, u⟩ = (.ok (), ⟨t, u⟩) := by
  obtain ⟨_, _, hmade, h⟩ := Act.eq_ok_of_bind h
  obtain ⟨v₁, hmake, rfl⟩ := Mounted.eq_ok_of_onVolume hmade
  obtain ⟨found, _, hloaded, h⟩ := Act.eq_ok_of_bind h
  obtain ⟨v₂, hload, rfl⟩ := Mounted.eq_ok_of_onVolume hloaded
  obtain ⟨-, h⟩ := Prod.mk.inj h
  obtain ⟨rfl, rfl⟩ := Mounted.mk.inj h
  dsimp only at hmake hload ⊢
  rw [Record.runOn_load?] at hload
  obtain ⟨hread, rfl⟩ := Prod.mk.inj hload
  obtain ⟨l, leads⟩ := Volume.exists_directoryAt_of_makeDirectories hw hp hmake
  refine ⟨hmake, fun u hsame => ?_⟩
  -- the directory is there, so it is not made, and the file is the same, so it is read the same
  obtain ⟨leads', hitem⟩ := hsame l leads
  have hthere : (Volume.makeDirectories p).runOn u = (.ok (), u) :=
    Volume.runOn_makeDirectories leads'
  have hagain : (Record.load? (p.entry name)).runOn u = (.ok found, u) := by
    rw [Record.runOn_load?, Record.read_congr leads hn leads' hitem, hread]
  rw [reading, Act.runOn_bind_ok (Mounted.runOn_onVolume_ok (m := ⟨s, u⟩) hthere),
    Act.runOn_bind_ok (Mounted.runOn_onVolume_ok (m := ⟨s, u⟩) hagain)]
  rfl

/-- What is done to the store inside is done to the store. -/
theorem runOn_within {σ α : Type} {wrap : σ → BallotStore} {s t : σ} {x : Act (Mounted σ) α}
    {r : Except Failure α} (h : x.runOn ⟨s, v⟩ = (r, ⟨t, v'⟩)) :
    (within wrap s x).runOn ⟨ballots, v⟩ = (r, ⟨wrap t, v'⟩) := by
  rw [within, Act.runOn_zoom, h]

/-- What a store did was done to the store inside. -/
theorem eq_ok_of_within {σ α : Type} {wrap : σ → BallotStore} {s : σ} {x : Act (Mounted σ) α} {a : α}
    (h : (within wrap s x).runOn ⟨ballots, v⟩ = (.ok a, ⟨opened, v'⟩)) :
    ∃ t, x.runOn ⟨s, v⟩ = (.ok a, ⟨t, v'⟩) ∧ opened = wrap t := by
  rw [within, Act.runOn_zoom] at h
  obtain ⟨hresult, hm⟩ := Prod.mk.inj h
  obtain ⟨rfl, rfl⟩ := Mounted.mk.inj hm
  exact ⟨_, Prod.ext hresult rfl, rfl⟩

theorem runOn_init_single (s : SingleBallot) (v : Volume) :
    init.runOn ⟨single s, v⟩ = (within single s SingleBallot.init).runOn ⟨single s, v⟩ := rfl

theorem runOn_init_book (b : BallotBook) (v : Volume) :
    init.runOn ⟨book b, v⟩ = (within book b BallotBook.init).runOn ⟨book b, v⟩ := rfl

/-- A store that reads its record unless it did so before. -/
theorem within_ok {σ α : Type} [JsonForm α] {wrap : σ → BallotStore} {s : σ} {unread : Bool}
    {put : Option α → σ → σ} (hw : v.disk.WellFormed) (hp : q.1.isEmpty = false)
    (hq : q ∈ ballots.record?)
    (hinit : ∀ u : Volume, init.runOn ⟨ballots, u⟩ =
      (within wrap s (if unread then reading q.1 q.2 put else pure ())).runOn ⟨ballots, u⟩)
    (h : init.runOn ⟨ballots, v⟩ = (.ok (), ⟨opened, v'⟩)) :
    (v' = v ∨ ∃ p, (Volume.makeDirectories p).runOn v = (.ok (), v')) ∧
      ballots.ReadAs opened v'.disk := by
  rw [hinit] at h
  -- a store that has read its record already does nothing
  cases unread with
  | false =>
    obtain ⟨-, h⟩ := Prod.mk.inj h
    obtain ⟨rfl, rfl⟩ := Mounted.mk.inj h
    exact ⟨.inl rfl, fun u _ => hinit u⟩
  | true =>
    rw [if_pos rfl] at h
    obtain ⟨t, hrun, rfl⟩ := eq_ok_of_within h
    obtain ⟨hmake, hagain⟩ := reading_ok hw hp (plain_record hq) hrun
    refine ⟨.inr ⟨q.1, hmake⟩, fun u hsame => ?_⟩
    rw [hinit, if_pos rfl, runOn_within (hagain u (hsame q hq))]

/-- **Ballots that were read** can be read again; only their directory was made. -/
theorem init_ok (hw : v.disk.WellFormed) (hp : ∀ q ∈ ballots.record?, q.1.isEmpty = false)
    (h : init.runOn ⟨ballots, v⟩ = (.ok (), ⟨opened, v'⟩)) :
    (v' = v ∨ ∃ p, (Volume.makeDirectories p).runOn v = (.ok (), v')) ∧
      ballots.ReadAs opened v'.disk := by
  -- a memory has no record; the two others differ in its name only
  cases ballots with
  | memory m =>
    obtain ⟨-, h⟩ := Prod.mk.inj h
    obtain ⟨rfl, rfl⟩ := Mounted.mk.inj h
    exact ⟨.inl rfl, fun u _ => rfl⟩
  | single s =>
    have hinit (u : Volume) : init.runOn ⟨single s, u⟩ = (within single s
        (if s.current.isNone then reading s.directory "stable_meta" fun found s =>
          { s with current := some (found.getD .initial) } else pure ())).runOn ⟨single s, u⟩ := rfl
    exact within_ok (q := (s.directory, "stable_meta")) hw (hp _ rfl) rfl hinit h
  | book b =>
    have hinit (u : Volume) : init.runOn ⟨book b, u⟩ = (within book b
        (if b.current.isNone then reading b.directory "merged_meta" fun found b =>
          { b with current := some (found.getD Table.empty) } else pure ())).runOn ⟨book b, u⟩ := rfl
    exact within_ok (q := (b.directory, "merged_meta")) hw (hp _ rfl) rfl hinit h

end BallotStore

namespace Backends

variable {b : Backends} {u : StorageUri} {p : Path} {sync : Bool} {uri : String}
  {ballots : BallotStore} {q : Path × String}

/-- A uri that leads to a directory names it. -/
theorem directoryOf_ok (h : directoryOf u = .ok (p, sync)) :
    u.requirePath = .ok u.path ∧ p = .ofText u.path ∧ p.isEmpty = false := by
  obtain ⟨path, hpath, h⟩ := Act.exists_ok_of_bind h
  obtain ⟨sync', -, h⟩ := Act.exists_ok_of_bind h
  obtain ⟨rfl, -⟩ := Prod.mk.inj (Except.ok.inj h)
  unfold StorageUri.requirePath at hpath ⊢
  split at hpath
  · nomatch hpath
  · next hne =>
    obtain rfl := Except.ok.inj hpath
    exact ⟨if_neg hne, rfl, by simpa [Path.isEmpty, Path.ofText] using hne⟩

/-- What is made of the directory of a uri is made of the path in it. -/
theorem of_directory {α : Type} {f : Path × Bool → Except Error α} {a : α}
    (h : (directoryOf u >>= f) = .ok a) : (Path.ofText u.path).isEmpty = false ∧
      u.requirePath = .ok u.path ∧
      ∃ sync, directoryOf u = .ok (.ofText u.path, sync) ∧ f (.ofText u.path, sync) = .ok a := by
  obtain ⟨⟨p, sync⟩, hd, hf⟩ := Act.exists_ok_of_bind h
  obtain ⟨hpath, rfl, hne⟩ := directoryOf_ok hd
  exact ⟨hne, hpath, sync, hd, hf⟩

/-- A uri without a path makes no store with a record. -/
theorem isEmpty_of_makeBallots (h : b.makeBallots uri = .ok ballots) (hq : q ∈ ballots.record?) :
    q.1.isEmpty = false := by
  obtain ⟨⟨backend, u⟩, -, h⟩ := Act.exists_ok_of_bind h
  -- one case for each backend; the path is asked for in two of them
  cases backend with
  | memory =>
    obtain rfl := Except.ok.inj h
    exact absurd hq (by simp [BallotStore.record?])
  | directory =>
    obtain ⟨hne, -, sync, -, hend⟩ := of_directory h
    obtain rfl := Except.ok.inj hend
    exact Option.some.inj hq ▸ hne
  | book =>
    obtain ⟨hne, -, sync, -, hend⟩ := of_directory h
    obtain rfl := Except.ok.inj hend
    exact Option.some.inj hq ▸ hne

end Backends

/-! ### What the settings name -/

namespace Storages

variable {o : Options} {b : Backends} {log l : SegmentedLog} {ballots ballots' : BallotStore}
  {snapshots s : SnapshotStore} {d base : Disk} {v v₁ v₂ v₃ : Volume} {hist : MembershipHistory}
  {home den : Location} {p q : Path} {m : MemoryLog} {latest : Option SnapshotMeta}

/-- The stores that the settings name, not opened yet. -/
structure Named (o : Options) (b : Backends) (log : SegmentedLog) (ballots : BallotStore)
    (snapshots : SnapshotStore) : Prop where
  makeLog : (do b.makeLog (← logUri o)) = .ok (.segmented log)
  makeBallots : (do b.makeBallots (← ballotUri o)) = .ok ballots
  makeSnapshots : ∃ uri, snapshotUri o = .ok (some uri) ∧ b.makeSnapshots uri = .ok snapshots

/-- The path of the record that the settings name is not blank. -/
theorem Named.isEmpty_record (h : Named o b log ballots snapshots) :
    ∀ q ∈ ballots.record?, q.1.isEmpty = false := by
  intro q hq
  obtain ⟨uri, -, hmake⟩ := Act.exists_ok_of_bind h.makeBallots
  exact Backends.isEmpty_of_makeBallots hmake hq

/-- A store is opened by what initialises it. -/
theorem runOn_opening {σ α : Type} {store store' : σ} {x : Act (Mounted σ) α} {a : α}
    (h : x.runOn ⟨store, v⟩ = (.ok a, ⟨store', v₁⟩)) :
    (opening store x).runOn v = (.ok (a, store'), v₁) := by
  rw [opening, Act.runOn_ofStep, h]

/-- A store that was opened was initialised. -/
theorem eq_ok_of_opening {σ α : Type} {store store' : σ} {x : Act (Mounted σ) α} {a : α}
    (h : (opening store x).runOn v = (.ok (a, store'), v₁)) :
    x.runOn ⟨store, v⟩ = (.ok a, ⟨store', v₁⟩) := by
  rw [opening, Act.runOn_ofStep] at h
  split at h
  · next hrun =>
    obtain ⟨ha, rfl⟩ := Prod.mk.inj h
    obtain ⟨rfl, rfl⟩ := Prod.mk.inj (Except.ok.inj ha)
    exact hrun
  · nomatch h

/-- The stores are opened one after the other. -/
theorem Named.runOn_openAll (h : Named o b log ballots snapshots) (group : String)
    (throttle : Option Nat) (hlog : log.init.runOn ⟨.empty, v⟩ = (.ok l, ⟨hist, v₁⟩))
    (hballots : BallotStore.init.runOn ⟨ballots, v₁⟩ = (.ok (), ⟨ballots', v₂⟩))
    (hsnapshots : SnapshotStore.init.runOn ⟨{ snapshots with throttle }, v₂⟩ = (.ok (), ⟨s, v₃⟩)) :
    (openAll o b group throttle).runOn v =
      (.ok ⟨group, .segmented l, ballots', some s, hist⟩, v₃) := by
  obtain ⟨uri, huri, hmake⟩ := h.makeSnapshots
  have hinit : (LogStore.segmented log).init.runOn ⟨.empty, v⟩ =
      (.ok (.segmented l), ⟨hist, v₁⟩) := by
    rw [LogStore.init, Act.runOn_bind_ok hlog]
    rfl
  rw [openAll, Act.runOn_bind_ok (Act.runOn_ofExcept_ok h.makeLog _),
    Act.runOn_bind_ok (runOn_opening hinit)]
  dsimp only
  rw [Act.runOn_bind_ok (Act.runOn_ofExcept_ok h.makeBallots _),
    Act.runOn_bind_ok (runOn_opening hballots)]
  dsimp only
  rw [Act.runOn_bind_ok (Act.runOn_ofExcept_ok huri _)]
  dsimp only
  rw [Act.runOn_bind_ok (Act.runOn_ofExcept_ok hmake _),
    Act.runOn_bind_ok (runOn_opening hsnapshots)]
  rfl

/-! ### Where the stores are -/

/-- Where a member keeps what it stores: the directories of the log and of the snapshots, and the
record of the ballots by its directory and name. -/
structure Places where
  log : Path
  snapshots : Path
  ballots : Option (Path × String)

/-- The path leads where it did, and there everything is as it was but for what is `own`. -/
def Spares (own : Location → Prop) (p : Path) (d d' : Disk) : Prop :=
  ∀ l, d.directoryAt p = .ok l → d'.directoryAt p = .ok l ∧
    ∀ m, Below l m → ¬ own m → d'.item? m = d.item? m

/-- A path leads where it did if something is written below an empty directory. -/
theorem directoryAt_of_outside {d d' : Disk} {l m : Location} {p : Path}
    (hempty : ∀ m, Below l m → d.item? m = none) (ho : Outside d.item? l d')
    (hm : d.directoryAt p = .ok m) : d'.directoryAt p = .ok m := by
  refine directoryAt_mono (fun x hx => (ho.item? x fun hb => ?_).trans hx) hm
  rw [hempty x hb] at hx
  exact absurd hx (by simp)

/-- What is written there is nothing to other directories, if it is its own. -/
theorem Spares.of_outside {own : Location → Prop} {d d' : Disk} {l : Location}
    (hempty : ∀ m, Below l m → d.item? m = none) (ho : Outside d.item? l d')
    (hown : ∀ m, Below l m → own m) (p : Path) : Spares own p d d' := fun _ hm =>
  ⟨directoryAt_of_outside hempty ho hm, fun x _ hx => ho.item? x fun hb => hx (hown x hb)⟩

/-- Whatever happened between `d` and `d'`, it leaves the stores alone, but for what is `own`. -/
structure Places.Spared (s : Places) (own : Location → Prop) (d d' : Disk) : Prop where
  wellFormed : d.WellFormed → d'.WellFormed
  log : Spares own s.log d d'
  snapshots : Spares own s.snapshots d d'
  ballots : ∀ x ∈ s.ballots, ∀ l, d.directoryAt x.1 = .ok l →
    d'.directoryAt x.1 = .ok l ∧ d'.item? (l ++ [x.2]) = d.item? (l ++ [x.2])

/-- The stores are where they were when their directories were made on `base`, and the ballots are
as they were then, unless they are kept in one of the directories of the others. -/
structure Places.Kept (s : Places) (base : Disk) (home den : Location) (d : Disk) : Prop where
  wellFormed : d.WellFormed
  log : d.directoryAt s.log = .ok home
  snapshots : d.directoryAt s.snapshots = .ok den
  ballots : ∀ x ∈ s.ballots, ∀ l, base.directoryAt x.1 = .ok l → d.directoryAt x.1 = .ok l ∧
    (¬ Below home (l ++ [x.2]) → ¬ Below den (l ++ [x.2]) →
      d.item? (l ++ [x.2]) = base.item? (l ++ [x.2]))

namespace Places

variable {pl : Places} {d' : Disk} {own : Location → Prop}

theorem Spared.refl (pl : Places) (own : Location → Prop) (d : Disk) : pl.Spared own d d :=
  ⟨id, fun _ h => ⟨h, fun _ _ _ => rfl⟩, fun _ h => ⟨h, fun _ _ _ => rfl⟩,
    fun _ _ _ h => ⟨h, rfl⟩⟩

/-- What is written below an empty directory is nothing to the stores, if it is its own. -/
theorem Spared.of_outside {l : Location} (hempty : ∀ m, Below l m → d.item? m = none)
    (ho : Outside d.item? l d') (hown : ∀ m, Below l m → own m)
    (hballots : ∀ x ∈ pl.ballots, d.directoryAt x.1 ≠ .ok l) : pl.Spared own d d' := by
  refine ⟨fun _ => ho.wellFormed, .of_outside hempty ho hown _, .of_outside hempty ho hown _,
    fun x hx m hm => ⟨directoryAt_of_outside hempty ho hm, ho.item? _ fun hb => ?_⟩⟩
  rcases eq_or_below_of_below_entry hb with rfl | hb
  · exact hballots x hx hm
  · have hdirectory := item?_eq_directory_iff.2 (node?_home hm)
    rw [hempty m hb] at hdirectory
    exact absurd hdirectory (by simp)

namespace Kept

theorem refl (hapart : Apart base home den pl.log pl.snapshots) (hw : base.WellFormed) :
    pl.Kept base home den base :=
  ⟨hw, hapart.leads, hapart.leads', fun _ _ _ h => ⟨h, fun _ _ => rfl⟩⟩

variable (h : pl.Kept base home den d)

include h

/-- The places are kept when something else happens. -/
theorem spared (hs : pl.Spared own d d') : pl.Kept base home den d' := by
  refine ⟨hs.wellFormed h.wellFormed, (hs.log _ h.log).1, (hs.snapshots _ h.snapshots).1, ?_⟩
  intro x hx l hl
  obtain ⟨leads, hitem⟩ := h.ballots x hx l hl
  obtain ⟨leads', hitem'⟩ := hs.ballots x hx l leads
  exact ⟨leads', fun hhome hden => hitem'.trans (hitem hhome hden)⟩

variable (hapart : Apart base home den pl.log pl.snapshots)

include hapart

/-- They stay there whatever happens in the directories of the log and of the snapshots. -/
theorem change (hw : d'.WellFormed)
    (hi : ∀ m, ¬ Below home m → ¬ Below den m → d'.item? m = d.item? m) :
    pl.Kept base home den d' := by
  refine ⟨hw, hapart.directoryAt_eq hapart.leads h.log hi,
    hapart.directoryAt_eq hapart.leads' h.snapshots hi, fun x hx l hl => ?_⟩
  obtain ⟨leads, hitem⟩ := h.ballots x hx l hl
  exact ⟨hapart.directoryAt_eq hl leads hi,
    fun hhome hden => (hi _ hhome hden).trans (hitem hhome hden)⟩

theorem inLog (ho : Outside d.item? home d') : pl.Kept base home den d' :=
  h.change hapart ho.wellFormed fun m hm _ => ho.item? m hm

theorem inSnapshots (ho : Outside d.item? den d') : pl.Kept base home den d' :=
  h.change hapart ho.wellFormed fun m _ hm => ho.item? m hm

theorem rooted_log : Rooted d.item? home pl.log := fun _ ho => (h.inLog hapart ho).log

theorem rooted_snapshots : Rooted d.item? den pl.snapshots :=
  fun _ ho => (h.inSnapshots hapart ho).snapshots

end Kept
end Places

/-! ### Logs and snapshots in directories of their own -/

/-- The log, in its directory, holds what the one in memory does, and the snapshots are in theirs. -/
structure Hold (pl : Places) (d : Disk) (home den : Location) (log : LogStore)
    (snapshots : SnapshotStore) (m : MemoryLog) (latest : Option SnapshotMeta) : Prop where
  log : ∃ l, log = .segmented l ∧ l.directory = pl.log ∧ SegmentedLog.Mirrors d home l m
  directory : snapshots.directory = pl.snapshots
  stands : snapshots.Stands d den latest

namespace Hold

variable {pl : Places} {store : LogStore} {d' : Disk}
  (h : Hold pl d home den store snapshots m latest)

include h

theorem view_eq : store.view d = (LogStore.memory m).view .empty := by
  obtain ⟨l, rfl, -, hm⟩ := h.log
  exact hm.view_eq

theorem get_eq (i : Nat) : store.get i d = .ok (m.get i) :=
  congrFun (congrArg LogStore.View.entry h.view_eq) i

theorem term_eq (i : Nat) : store.term i = .ok (((m.get i).map Entry.term).getD 0) :=
  congrFun (congrArg LogStore.View.term h.view_eq) i

variable (hapart : Apart base home den pl.log pl.snapshots)

include hapart

/-- What happens elsewhere does not matter to them. -/
theorem elsewhere (hk : pl.Kept base home den d') (hlog : ∀ m, Below home m → d'.item? m = d.item? m)
    (hsnapshots : ∀ m, Below den m → d'.item? m = d.item? m) :
    Hold pl d' home den store snapshots m latest := by
  obtain ⟨l, rfl, hdir, hm⟩ := h.log
  exact ⟨⟨l, rfl, hdir, hm.elsewhere hk.wellFormed (hdir ▸ hk.log) fun _ => hlog _ (below_entry _)⟩,
    h.directory, h.stands.elsewhere hk.wellFormed (h.directory ▸ hk.rooted_snapshots hapart)
      hsnapshots⟩

variable (hk : pl.Kept base home den d)

include hk

/-- Another log in its directory leaves the snapshots as they are. -/
theorem withLog {m' : MemoryLog} (ho : Outside d.item? home d') (hdir : l.directory = pl.log)
    (hm : SegmentedLog.Mirrors d' home l m') :
    Hold pl d' home den (.segmented l) snapshots m' latest :=
  ⟨⟨l, rfl, hdir, hm⟩, h.directory, h.stands.elsewhere ho.wellFormed
    (h.directory ▸ (hk.inLog hapart ho).rooted_snapshots hapart) fun _ => hapart.item?_eq ho⟩

/-- Other snapshots in their directory leave the log as it is. -/
theorem withSnapshots {latest' : Option SnapshotMeta} (ho : Outside d.item? den d')
    (hdir : s.directory = pl.snapshots) (hs : s.Stands d' den latest') :
    Hold pl d' home den store s m latest' := by
  obtain ⟨l, rfl, hdir', hm⟩ := h.log
  refine ⟨⟨l, rfl, hdir', hm.elsewhere ho.wellFormed ?_ fun name => ?_⟩, hdir, hs⟩
  · exact hdir' ▸ (hk.inSnapshots hapart ho).log
  · exact hapart.symm.item?_eq ho (below_entry name)

end Hold

/-- Makes the directories of the stores, in the order in which the stores are opened. -/
def prepare (log : SegmentedLog) (ballots : BallotStore) (snapshots : SnapshotStore) :
    Act Volume BallotStore := do
  Volume.makeDirectories log.directory
  let ((), ballots) ← opening ballots BallotStore.init
  Volume.makeDirectories snapshots.directory
  return ballots

/-- Where the stores are. -/
def places (log : SegmentedLog) (ballots : BallotStore) (snapshots : SnapshotStore) : Places :=
  ⟨log.directory, snapshots.directory, ballots.record?⟩

/-- The settings name stores that were not used yet.  Once their directories are made, those of the
log and of the snapshots are two, both of them empty, and the ballots can be read. -/
structure Fresh (o : Options) (b : Backends) (d : Disk) (log : SegmentedLog) (ballots : BallotStore)
    (snapshots : SnapshotStore) (v : Volume) : Prop extends Named o b log ballots snapshots where
  wellFormed : d.WellFormed
  prepared : ∃ first, (prepare log ballots snapshots).runOn (.ofDisk d) = (.ok first, v)
  readable : ∃ opened, BallotStore.init.runOn ⟨ballots, v⟩ = (.ok (), ⟨opened, v⟩)
  logEmpty : v.disk.list log.directory = .ok []
  snapshotsEmpty : v.disk.list snapshots.directory = .ok []
  apart : v.disk.directoryAt log.directory ≠ v.disk.directoryAt snapshots.directory

namespace Fresh

variable (h : Fresh o b d log ballots snapshots v)

include h

/-- The directories are made one after the other, and nothing that is there goes away. -/
theorem steps : ∃ v₁ v₂ first,
    (Volume.makeDirectories log.directory).runOn (.ofDisk d) = (.ok (), v₁) ∧
      v₁.disk.WellFormed ∧ BallotStore.init.runOn ⟨ballots, v₁⟩ = (.ok (), ⟨first, v₂⟩) ∧
      (Volume.makeDirectories snapshots.directory).runOn v₂ = (.ok (), v) ∧ v.disk.WellFormed ∧
      ∀ m i, v₁.disk.item? m = some i → v.disk.item? m = some i := by
  obtain ⟨first, hrun⟩ := h.prepared
  obtain ⟨_, v₁, hlog, hrun⟩ := Act.eq_ok_of_bind hrun
  obtain ⟨⟨_, first⟩, v₂, hopened, hrun⟩ := Act.eq_ok_of_bind hrun
  obtain ⟨_, v₃, hsnapshots, hrun⟩ := Act.eq_ok_of_bind hrun
  obtain ⟨-, rfl⟩ := Prod.mk.inj hrun
  -- making directories adds to what is there
  have hmade {p : Path} {u u' : Volume} (hw : u.disk.WellFormed)
      (hmake : (Volume.makeDirectories p).runOn u = (.ok (), u')) :
      u'.disk.WellFormed ∧ ∀ m i, u.disk.item? m = some i → u'.disk.item? m = some i := by
    have hw' := Volume.preserves_makeDirectories p u hw
    rw [hmake] at hw'
    refine ⟨hw', fun m i hi => ?_⟩
    have hkept := Volume.preserves_item_makeDirectories p u ⟨hw, hi⟩
    rw [hmake] at hkept
    exact hkept.2
  have hballots := eq_ok_of_opening hopened
  obtain ⟨hw₁, -⟩ := hmade (u := .ofDisk d) h.wellFormed hlog
  obtain ⟨hwhere, -⟩ := BallotStore.init_ok hw₁ h.isEmpty_record hballots
  have hstep : v₂.disk.WellFormed ∧ ∀ m i, v₁.disk.item? m = some i → v₂.disk.item? m = some i := by
    rcases hwhere with rfl | ⟨p, hmake⟩
    · exact ⟨hw₁, fun _ _ hi => hi⟩
    · exact hmade hw₁ hmake
  obtain ⟨hw, hgrows⟩ := hmade hstep.1 hsnapshots
  exact ⟨v₁, v₂, first, hlog, hw₁, hballots, hsnapshots, hw,
    fun m i hi => hgrows m i (hstep.2 m i hi)⟩

theorem wellFormed_prepared : v.disk.WellFormed := by
  obtain ⟨v₁, v₂, first, -, -, -, -, hw, -⟩ := h.steps
  exact hw

/-- The directories of the log and of the snapshots are apart from each other. -/
theorem exists_apart :
    ∃ home den, Apart v.disk home den log.directory snapshots.directory := by
  have hw := h.wellFormed_prepared
  obtain ⟨home, leads⟩ := directoryAt_of_list h.logEmpty
  obtain ⟨den, leads'⟩ := directoryAt_of_list h.snapshotsEmpty
  refine ⟨home, den, leads, leads', ?_, (list_eq_nil_iff hw leads).1 h.logEmpty,
    (list_eq_nil_iff hw leads').1 h.snapshotsEmpty⟩
  rintro rfl
  exact h.apart (leads.trans leads'.symm)

variable (hapart : Apart v.disk home den log.directory snapshots.directory)

include hapart

/-- **Stores that are opened for the first time** are empty, and only their directories are made. -/
theorem opened (group : String) (throttle : Option Nat) : ∃ x s,
    (openAll o b group throttle).runOn (.ofDisk d) = (.ok x, v) ∧ x.snapshots = some s ∧
      Hold (places log ballots snapshots) v.disk home den x.log s {} none ∧
      x.history = .empty := by
  obtain ⟨v₁, v₂, first, hmake, hw₁, hballots, hmake', hw, hgrows⟩ := h.steps
  obtain ⟨home₁, leads₁⟩ : ∃ l, v₁.disk.directoryAt log.directory = .ok l := by
    refine Volume.exists_directoryAt_of_makeDirectories (v := .ofDisk d) h.wellFormed ?_ hmake
    exact isEmpty_of_directoryAt hapart.leads
  obtain rfl : home₁ = home := by
    have leads := directoryAt_mono (fun m => hgrows m .directory) leads₁
    exact Except.ok.inj (leads.symm.trans hapart.leads)
  -- what is empty in the end was empty before
  have hempty₁ (m : Location) (hm : Below home₁ m) : v₁.disk.item? m = none := by
    refine Option.eq_none_iff_forall_ne_some.2 fun i hi => ?_
    have hthere := hgrows m i hi
    rw [hapart.empty m hm] at hthere
    exact absurd hthere (by simp)
  obtain ⟨l, hlog, hdir, hmirrors⟩ := SegmentedLog.runOn_init_vacant hw₁ leads₁
    ((list_eq_nil_iff hw₁ leads₁).2 hempty₁) rfl
  have hlog' : log.init.runOn ⟨.empty, .ofDisk d⟩ = (.ok l, ⟨.empty, v₁⟩) := by
    rw [SegmentedLog.runOn_init_made hmake leads₁, hlog]
  let unopened : SnapshotStore := { snapshots with throttle }
  have hkept : (places log ballots snapshots).Kept v.disk home₁ den v.disk := .refl hapart hw
  have hstands := SnapshotStore.Stands.of_empty (s := unopened) hw (hkept.rooted_snapshots hapart)
    hapart.empty'
  have hsame : unopened.directory = snapshots.directory := rfl
  obtain ⟨s, hsnapshots, hdir', hstands'⟩ := hstands.runOn_init hsame
  rw [← SnapshotStore.runOn_init_made (s := unopened) hmake' hapart.leads'] at hsnapshots
  refine ⟨_, s, h.runOn_openAll group throttle hlog' hballots hsnapshots, rfl,
    ⟨⟨l, rfl, hdir, ?_⟩, hdir', hstands'⟩, rfl⟩
  refine hmirrors.elsewhere hw (hdir ▸ hapart.leads) fun name => ?_
  rw [hapart.empty _ (below_entry name), hempty₁ _ (below_entry name)]

/-- **Stores that are opened again** hold what they did, and their history hears of what is in the
log. -/
theorem reopened (group : String) (throttle : Option Nat) {w : Volume} {store : LogStore}
    (hk : (places log ballots snapshots).Kept v.disk home den w.disk)
    (hold : Hold (places log ballots snapshots) w.disk home den store s m latest) :
    ∃ x s' w', (openAll o b group throttle).runOn w = (.ok x, w') ∧ x.snapshots = some s' ∧
      Hold (places log ballots snapshots) w'.disk home den x.log s' m latest ∧
      x.history.Tells m.first m.entries ∧ Outside w.disk.item? home w'.disk := by
  obtain ⟨l, -, hdir, hmirrors⟩ := hold.log
  have hsame : log.directory = _ := hdir.symm
  obtain ⟨l', ⟨hist, w₁⟩, hlog, hdir', hmirrors', htells, houtside, -⟩ :=
    hmirrors.stores.runOn_init_telling hsame
  have hk₁ := hk.inLog hapart houtside
  obtain ⟨-, -, hstands⟩ := hold.withLog hapart hk houtside (hdir'.trans hdir) hmirrors'
  obtain ⟨ballots', hreadable⟩ := h.readable
  obtain ⟨-, hread⟩ := BallotStore.init_ok h.wellFormed_prepared h.isEmpty_record hreadable
  have hballots : BallotStore.init.runOn ⟨ballots, w₁⟩ = (.ok (), ⟨ballots', w₁⟩) := by
    refine hread w₁ fun q hq l leads => ?_
    obtain ⟨leads₁, hitem⟩ := hk₁.ballots q hq l leads
    refine ⟨leads₁, ?_⟩
    obtain ⟨hnamed, hnamed'⟩ := BallotStore.dropStart?_record hq
    have hl : v.disk.item? l = some .directory := item?_eq_directory_iff.2 (node?_home leads)
    -- the record may be in one of the two directories, under a name that is not used there
    -- three cases: the record is in the log's directory, in that of the snapshots, or elsewhere
    by_cases hhome : l = home
    · rw [hhome, hmirrors'.item?_eq_none hnamed, hapart.empty _ (below_entry _)]
    by_cases hden : l = den
    · rw [hden, hapart.empty' _ (below_entry _)]
      exact hstands.item?_eq_none fun info _ he =>
        SnapshotName.published_ne hnamed' _ he.symm
    exact hitem (hapart.not_below_entry hl hhome) (hapart.symm.not_below_entry hl hden)
  have hsame' : ({ snapshots with throttle } : SnapshotStore).directory = s.directory :=
    hold.directory.symm
  obtain ⟨s', hsnapshots, hdir'', hstands'⟩ := hstands.runOn_init hsame'
  exact ⟨_, s', w₁, h.runOn_openAll group throttle hlog hballots hsnapshots, rfl,
    ⟨⟨l', rfl, hdir'.trans hdir, hmirrors'⟩, hdir''.trans hold.directory, hstands'⟩, htells, houtside⟩

end Fresh
end Storages
end RaftReplica
