/-
RaftReplica/Proofs/Backends.lean

Stores that are made by their uris, opened, and destroyed.  A store in a directory of its own is
undone by being destroyed if nothing of it is left, nothing else has changed, and the same uri makes
a store that holds nothing (`StoreKind.Undone`).  Whatever is in the directory, this depends on its
path alone: it is so exactly if the path is straight (`undone_iff`).

A directory is destroyed in three steps.  What an earlier attempt may have left under its name with
`.tmp` behind is removed; the directory is renamed to that name, so that its own is free at once; and
it is removed there.  A path that is not straight goes wrong on the way:

* with a slash at its end the new name is inside of the directory itself, and renaming fails;
* with a `..` in it the path may lead through what was renamed or removed just now, and then it
  leads nowhere, so that the directory stays, under one name or the other.

For a straight path all steps are followed on the disk (`Volume.runOn_collect_straight`); then the
uri makes the store in a directory that is made anew (`Store.exists_opened`), for each of the three
kinds of stores.

Many groups keep their ballots in one book, and destroying the ballot of one takes only that out of
the record (`Backends.Forgets`), if the record can be read.  Whatever was cast before, the record was
written from the ballots that were cast last (`BallotBook.Holds`), so no more is needed than that
the peers of these are read.

Main result: `destroyed_iff`, about stores that some uri has made, with anything done since.
-/
import RaftReplica.Proofs.Ballot.Forgotten
import RaftReplica.Proofs.Disk.Collecting
import RaftReplica.Proofs.Parameters
import RaftReplica.Proofs.Snapshot.Reopening
import RaftReplica.Proofs.Storages

namespace RaftReplica

open Disk

/-! ### Stores of all kinds -/

/-- What a store is asked to keep; ballots are those of one group. -/
inductive StoreKind
  | log
  | ballot (group : String)
  | snapshots
  deriving DecidableEq, Repr

/-- A store of any kind, with the history that a log tells. -/
inductive Store
  | log (l : LogStore) (history : MembershipHistory)
  | ballots (b : BallotStore)
  | snapshots (s : SnapshotStore)

namespace Store

/-- Opens a store. -/
def opened : Store → Act Volume Store
  | log l history => do
    let (l, history) ← Storages.opening history l.init
    return log l history
  | ballots b => do
    let (_, b) ← Storages.opening b BallotStore.init
    return ballots b
  | snapshots s => do
    let (_, s) ← Storages.opening s SnapshotStore.init
    return snapshots s

/-- The store is to be kept in the directory at `p`, and was not opened yet. -/
def Within (p : Path) : Store → Prop
  | log l history => history = .empty ∧ ∃ s, l = .segmented s ∧ s.directory = p
  | ballots b => ∃ sync, b = .single { directory := p, sync }
  | snapshots s => s.directory = p

/-- The store holds nothing: the log reads as one in memory does that is empty, no group has voted,
and there is no snapshot. -/
def Fresh (d : Disk) : Store → Prop
  | log l history => l.view d = (LogStore.memory {}).view .empty ∧ history = .empty
  | ballots b => ∀ group, b.get group = .ok .initial
  | snapshots s => s.last = 0 ∧ s.holders = .empty

end Store

namespace StoreKind

/-- The store that a uri names, not opened yet. -/
def make (b : Backends) (uri : String) : StoreKind → Except Error Store
  | log => return .log (← b.makeLog uri) .empty
  | ballot _ => return .ballots (← b.makeBallots uri)
  | snapshots => return .snapshots (← b.makeSnapshots uri)

/-- Makes the store that a uri names, and opens it. -/
def create (b : Backends) (uri : String) (k : StoreKind) : Act Volume Store := do
  (← Act.ofExcept (k.make b uri)).opened

/-- Destroys the store that a uri names. -/
def destroy (b : Backends) (uri : String) : StoreKind → Act Volume Unit
  | log => b.destroyLog uri
  | ballot group => b.destroyBallot uri group
  | snapshots => b.destroySnapshots uri

/-- **Destroying the store undoes its making**: nothing is left in its directory and under the name
of its garbage, and everything else is as it was.  Doing it again does nothing, and the store that is
made then is fresh, in an empty directory. -/
def Undone (k : StoreKind) (uri : String) (p : Path) (v : Volume) : Prop :=
  ∃ v', (k.destroy .usual uri).runOn v = (.ok (), v') ∧
    Removed p.place p.garbage.place v.disk v'.disk ∧
    (k.destroy .usual uri).runOn v' = (.ok (), v') ∧
    ∃ o v'', (k.create .usual uri).runOn v' = (.ok o, v'') ∧ o.Fresh v''.disk ∧
      Puts v'.disk v''.disk p.place (some .directory)

end StoreKind

/-! ### Uris -/

namespace Backends

variable {uri : String} {u : StorageUri}

theorem find_log (hu : StorageUri.parse uri = .ok u) (hscheme : u.scheme = "local") :
    find usual.logs uri = .ok (.directory, u) := find_of_parse hu (hscheme ▸ by decide)

theorem find_ballots (hu : StorageUri.parse uri = .ok u) (hscheme : u.scheme = "local") :
    find usual.ballots uri = .ok (.directory, u) := find_of_parse hu (hscheme ▸ by decide)

theorem find_snapshots (hu : StorageUri.parse uri = .ok u) (hscheme : u.scheme = "local") :
    find usual.snapshots uri = .ok (.directory, u) := find_of_parse hu (hscheme ▸ by decide)

theorem find_book (hu : StorageUri.parse uri = .ok u) (hscheme : u.scheme = "local-merged") :
    find usual.ballots uri = .ok (.book, u) := find_of_parse hu (hscheme ▸ by decide)

theorem runOn_collect {path : String} (hpath : u.requirePath = .ok path) (v : Volume) :
    (collect u).runOn v = (Volume.collect (.ofText path)).runOn v := by
  rw [collect, Act.runOn_bind_ok (Act.runOn_ofExcept_ok hpath v)]

end Backends

namespace StoreKind

open Backends

variable {uri : String} {u : StorageUri} {o : Store} {k : StoreKind} {v : Volume}

/-- A store that is made is to be kept where its uri says. -/
theorem within_of_make (hu : StorageUri.parse uri = .ok u) (hscheme : u.scheme = "local")
    (h : k.make .usual uri = .ok o) :
    u.requirePath = .ok u.path ∧ o.Within (.ofText u.path) := by
  -- one case for each kind; each has a path of its own and holds on to it
  cases k with
  | log =>
    obtain ⟨l, hl, ho⟩ := Act.exists_ok_of_bind h
    rw [makeLog, find_log hu hscheme] at hl
    obtain ⟨-, hpath, sync, -, hl'⟩ := of_directory hl
    obtain ⟨max, -, hlast⟩ := Act.exists_ok_of_bind hl'
    rw [← Except.ok.inj hlast] at ho
    rw [← Except.ok.inj ho]
    exact ⟨hpath, rfl, _, rfl, rfl⟩
  | ballot group =>
    obtain ⟨b, hb, ho⟩ := Act.exists_ok_of_bind h
    rw [makeBallots, find_ballots hu hscheme] at hb
    obtain ⟨-, hpath, sync, -, hlast⟩ := of_directory hb
    rw [← Except.ok.inj hlast] at ho
    rw [← Except.ok.inj ho]
    exact ⟨hpath, sync, rfl⟩
  | snapshots =>
    obtain ⟨s, hs, ho⟩ := Act.exists_ok_of_bind h
    rw [makeSnapshots, find_snapshots hu hscheme] at hs
    obtain ⟨-, hpath, sync, -, hlast⟩ := of_directory hs
    rw [← Except.ok.inj hlast] at ho
    rw [← Except.ok.inj ho]
    exact ⟨hpath, rfl⟩

/-- Stores of all kinds are destroyed by removing their directory. -/
theorem runOn_destroy (hu : StorageUri.parse uri = .ok u) (hscheme : u.scheme = "local")
    (hpath : u.requirePath = .ok u.path) (k : StoreKind) (v : Volume) :
    (k.destroy .usual uri).runOn v = (Volume.collect (.ofText u.path)).runOn v := by
  rw [← runOn_collect hpath]
  cases k with
  | log => exact Act.runOn_bind_ok (Act.runOn_ofExcept_ok (find_log hu hscheme) v)
  | ballot group => exact Act.runOn_bind_ok (Act.runOn_ofExcept_ok (find_ballots hu hscheme) v)
  | snapshots => exact Act.runOn_bind_ok (Act.runOn_ofExcept_ok (find_snapshots hu hscheme) v)

end StoreKind

/-! ### Stores that are opened -/

section

variable {p : Path} {v v₁ : Volume}

/-- A straight path that is made leads to its place. -/
theorem Volume.leads_of_make (hp : p.Straight) (hw : v.disk.WellFormed)
    (hmake : (makeDirectories p).runOn v = (.ok (), v₁)) :
    v₁.disk.WellFormed ∧ v₁.disk.directoryAt p = .ok p.place := by
  have hw₁ := preserves_makeDirectories p v hw
  rw [hmake] at hw₁
  obtain ⟨l, leads⟩ := exists_directoryAt_of_makeDirectories hw hp.isEmpty hmake
  obtain ⟨-, rfl, -⟩ := Path.of_directoryAt leads
  exact ⟨hw₁, leads⟩

/-- A log that is opened has its directory at the place of its path. -/
theorem SegmentedLog.leads_of_init {l l' : SegmentedLog} {m : Mounted MembershipHistory}
    (hp : l.directory.Straight) (hw : v.disk.WellFormed)
    (h : l.init.runOn ⟨.empty, v⟩ = (.ok l', m)) : m.volume.disk.WellFormed ∧
      m.volume.disk.directoryAt l.directory = .ok l.directory.place := by
  obtain ⟨_, m₁, hmade, -⟩ := Act.eq_ok_of_bind h
  obtain ⟨v₁, hmake, -⟩ := Mounted.eq_ok_of_onVolume hmade
  obtain ⟨hw₁, leads⟩ := Volume.leads_of_make hp hw hmake
  have hroot := hp.rooted leads
  have houtside := (confined_init hroot rfl ⟨.empty, v₁⟩ ⟨trivial, .refl hw₁⟩).1.2
  rw [← runOn_init_made hmake leads, h] at houtside
  exact ⟨houtside.wellFormed, hroot _ houtside⟩

/-- A store for one group makes its directory when it is opened. -/
theorem SingleBallot.makes_of_init {s : SingleBallot} {sync : Bool} (hp : p.isEmpty = false)
    (hw : v.disk.WellFormed)
    (h : SingleBallot.init.runOn ⟨{ directory := p, sync }, v⟩ = (.ok (), ⟨s, v₁⟩)) :
    (Volume.makeDirectories p).runOn v = (.ok (), v₁) := by
  have hreading : (BallotStore.reading p "stable_meta" fun (found : Option Ballot)
      (s : SingleBallot) => { s with current := some (found.getD .initial) }).runOn _ = _ := h
  exact (BallotStore.reading_ok hw hp plain_name hreading).1

/-- A book makes its directory when it is opened. -/
theorem BallotBook.makes_of_init {b : BallotBook} {sync : Bool} (hp : p.isEmpty = false)
    (hw : v.disk.WellFormed)
    (h : BallotBook.init.runOn ⟨{ directory := p, sync }, v⟩ = (.ok (), ⟨b, v₁⟩)) :
    (Volume.makeDirectories p).runOn v = (.ok (), v₁) := by
  have hreading : (BallotStore.reading p "merged_meta" fun (found : Option Ballots)
      (b : BallotBook) => { b with current := some (found.getD Table.empty) }).runOn _ = _ := h
  exact (BallotStore.reading_ok hw hp plain_name hreading).1

/-- Snapshots that are opened have their directory at the place of its path. -/
theorem SnapshotStore.leads_of_init {s s' : SnapshotStore} (hp : s.directory.Straight)
    (hw : v.disk.WellFormed) (h : SnapshotStore.init.runOn ⟨s, v⟩ = (.ok (), ⟨s', v₁⟩)) :
    v₁.disk.WellFormed ∧ v₁.disk.directoryAt s.directory = .ok s.directory.place := by
  have hstart := h
  rw [SnapshotStore.init, Act.runOn_bind_ok (Mounted.runOn_stored _)] at hstart
  obtain ⟨_, m, hmade, -⟩ := Act.eq_ok_of_bind hstart
  obtain ⟨v₂, hmake, -⟩ := Mounted.eq_ok_of_onVolume hmade
  obtain ⟨hw₂, leads⟩ := Volume.leads_of_make hp hw hmake
  obtain ⟨names, hlist, -⟩ := exists_list hw₂ leads
  obtain ⟨v₃, hlisted, hw₃, hroot, -⟩ := runOn_init_listed s hw₂ (hp.rooted leads) hlist
  rw [← runOn_init_made hmake leads, h] at hlisted
  obtain rfl := (Mounted.mk.inj (Prod.mk.inj hlisted).2).2
  exact ⟨hw₃, hroot _ (.refl hw₃)⟩

end

namespace Store

variable {o o' : Store} {p : Path} {v v' : Volume}

/-- A log takes the entries that one in memory takes, and nothing changes outside of its directory. -/
theorem runOn_append_log {l : SegmentedLog} {mem : MemoryLog} {es : List Entry} (hp : p.Straight)
    (hdir : l.directory = p) (hmirrors : l.Mirrors v.disk p.place mem) (hfit : ∀ e ∈ es, e.Fits) :
    ∃ r l' w mem', (MemoryLog.append es).runOn mem = (r, mem') ∧
      (LogStore.append es).runOn ⟨.segmented l, v⟩ = (r, ⟨.segmented l', w⟩) ∧
      (LogStore.segmented l').view w.disk = (LogStore.memory mem').view .empty ∧
      w.disk.WellFormed ∧ ∀ b, SameBut p.place b v.disk w.disk := by
  obtain ⟨r, l', w, mem', hmemory, hdisk, hmirrors'⟩ :=
    SegmentedLog.simulates_append hfit v _ l mem hmirrors
  have hrooted : Rooted v.disk.item? p.place l.directory := by
    rw [hdir]
    exact hp.rooted (hdir ▸ hmirrors.leads)
  have ho := hmirrors.outside_append hrooted es
  rw [hdisk] at ho
  refine ⟨r, l', w, mem', hmemory, ?_, hmirrors'.view_eq, ho.wellFormed,
    fun b x hx _ => ho.item? x fun hb => hx hb.1⟩
  rw [LogStore.append, LogStore.within, Act.runOn_ofStep]
  dsimp only
  rw [hdisk]

section

variable (hp : p.Straight) (hw : v.disk.WellFormed)

include hp hw

/-- A store that was opened is in its directory, whatever was there before. -/
theorem leads_of_opened (h : o.Within p) (hrun : o.opened.runOn v = (.ok o', v')) :
    v'.disk.WellFormed ∧ v'.disk.directoryAt p = .ok p.place := by
  -- one case for each kind; opening begins by making the directory
  cases o with
  | log l history =>
    obtain ⟨rfl, s, rfl, rfl⟩ := h
    obtain ⟨⟨l', history'⟩, v₁, hopening, hend⟩ := Act.eq_ok_of_bind hrun
    obtain ⟨-, rfl⟩ := Prod.mk.inj hend
    obtain ⟨s', m, hinit, hend'⟩ := Act.eq_ok_of_bind (Storages.eq_ok_of_opening hopening)
    obtain ⟨-, rfl⟩ := Prod.mk.inj hend'
    exact SegmentedLog.leads_of_init hp hw hinit
  | ballots b =>
    obtain ⟨sync, rfl⟩ := h
    obtain ⟨⟨_, b'⟩, v₁, hopening, hend⟩ := Act.eq_ok_of_bind hrun
    obtain ⟨-, rfl⟩ := Prod.mk.inj hend
    have hinit := Storages.eq_ok_of_opening hopening
    rw [BallotStore.runOn_init_single] at hinit
    obtain ⟨s, hread, -⟩ := BallotStore.eq_ok_of_within hinit
    exact Volume.leads_of_make hp hw (SingleBallot.makes_of_init hp.isEmpty hw hread)
  | snapshots s =>
    obtain rfl := h
    obtain ⟨⟨_, s'⟩, v₁, hopening, hend⟩ := Act.eq_ok_of_bind hrun
    obtain ⟨-, rfl⟩ := Prod.mk.inj hend
    exact SnapshotStore.leads_of_init hp hw (Storages.eq_ok_of_opening hopening)

/-- A log that is opened where nothing was mirrors an empty one, and its directory is made. -/
theorem runOn_opened_log {s : SegmentedLog} (hdir : s.directory = p)
    (leads : v.disk.directoryAt p.above = .ok p.above.place) (hnone : v.disk.item? p.place = none) :
    ∃ s' v', (Store.log (.segmented s) .empty).opened.runOn v =
        (.ok (.log (.segmented s') .empty), v') ∧ s'.directory = p ∧
      SegmentedLog.Mirrors v'.disk p.place s' {} ∧
      Puts v.disk v'.disk p.place (some .directory) := by
  subst hdir
  obtain ⟨v₁, hmake, hput⟩ := Volume.runOn_makeDirectories_straight hp hw leads hnone
  obtain ⟨hw₁, leads₁⟩ := Volume.leads_of_make hp hw hmake
  have hlist := (list_eq_nil_iff hw₁ leads₁).2 fun m hm => by
    rw [hput.item?_ne hm.2]
    exact item?_of_below hw (by rw [hnone]; simp) hm
  obtain ⟨s', hinit, hdir, hmirrors⟩ := SegmentedLog.runOn_init_vacant hw₁ leads₁ hlist rfl
  rw [← SegmentedLog.runOn_init_made hmake leads₁] at hinit
  have hlog : (LogStore.segmented s).init.runOn ⟨.empty, v⟩ =
      (.ok (.segmented s'), ⟨.empty, v₁⟩) := by
    rw [LogStore.init, Act.runOn_bind_ok hinit]
    rfl
  refine ⟨s', v₁, ?_, hdir, hmirrors, hput⟩
  rw [opened, Act.runOn_bind_ok (Storages.runOn_opening hlog)]
  rfl

/-- **A store that is opened where nothing was** is fresh, and its directory is made. -/
theorem exists_opened (h : o.Within p) (leads : v.disk.directoryAt p.above = .ok p.above.place)
    (hnone : v.disk.item? p.place = none) :
    ∃ o' v', o.opened.runOn v = (.ok o', v') ∧ o'.Fresh v'.disk ∧
      Puts v.disk v'.disk p.place (some .directory) := by
  obtain ⟨v₁, hmake, hput⟩ := Volume.runOn_makeDirectories_straight hp hw leads hnone
  obtain ⟨hw₁, leads₁⟩ := Volume.leads_of_make hp hw hmake
  -- the directory was not there, so there was nothing below it, and making it puts nothing there
  have hempty : ∀ m, Below p.place m → v₁.disk.item? m = none := by
    intro m hm
    rw [hput.item?_ne hm.2]
    exact item?_of_below hw (by rw [hnone]; simp) hm
  have hlist := (list_eq_nil_iff hw₁ leads₁).2 hempty
  -- one case for each kind: an empty directory is opened as a store that holds nothing
  cases o with
  | log l history =>
    obtain ⟨rfl, s, rfl, hdir⟩ := h
    obtain ⟨s', v', hopened, -, hmirrors, hput'⟩ := runOn_opened_log hp hw hdir leads hnone
    exact ⟨_, v', hopened, ⟨hmirrors.view_eq, rfl⟩, hput'⟩
  | ballots b =>
    obtain ⟨sync, rfl⟩ := h
    obtain ⟨home, htells⟩ := Record.exists_tells hw Ballot.initial hmake hlist (by simp) (by simp)
    have hballots := BallotStore.runOn_init_single { directory := p, sync } v
    rw [BallotStore.runOn_within (SingleBallot.runOn_init sync hmake htells)] at hballots
    refine ⟨.ballots (.single { directory := p, sync, current := some .initial }), v₁, ?_,
      fun _ => rfl, hput⟩
    rw [opened, Act.runOn_bind_ok (Storages.runOn_opening hballots)]
    rfl
  | snapshots s =>
    obtain rfl := h
    have hstands := SnapshotStore.Stands.of_empty (s := s) hw₁ (hp.rooted leads₁) hempty
    have hsame : s.directory = s.directory := rfl
    obtain ⟨s', hinit, -, hstands'⟩ := hstands.runOn_init hsame
    rw [← SnapshotStore.runOn_init_made hmake leads₁] at hinit
    refine ⟨.snapshots s', v₁, ?_, ⟨hstands'.last, ?_⟩, hput⟩
    · rw [opened, Act.runOn_bind_ok (Storages.runOn_opening hinit)]
      rfl
    · rw [hstands'.holders, hstands'.last]
      rfl

end

end Store

/-! ### Stores that are destroyed -/

namespace StoreKind

variable {uri : String} {u : StorageUri} {o : Store} {k : StoreKind} {v v₀ w : Volume}
  {home : Location}

section

variable (hu : StorageUri.parse uri = .ok u) (hscheme : u.scheme = "local")
  (hmake : k.make .usual uri = .ok o)

include hu hscheme hmake

/-- A store with a straight path is undone by being destroyed. -/
theorem undone_of_straight (hp : Path.Straight (.ofText u.path)) (hw : v.disk.WellFormed)
    (leads : v.disk.directoryAt (Path.ofText u.path).above = .ok (Path.ofText u.path).above.place) :
    k.Undone uri (.ofText u.path) v := by
  obtain ⟨hpath, hwithin⟩ := within_of_make hu hscheme hmake
  -- all is gone, and with nothing to rename the second call does nothing
  obtain ⟨v', hrun, hgone⟩ := Volume.runOn_collect_straight hp hw leads
  have leads' := hp.directoryAt_above hgone.sameBut leads
  have hhome := hgone.gone _ (.inl (List.prefix_refl _))
  have hgarbage := hgone.gone _ (.inr (List.prefix_refl _))
  obtain ⟨o', v'', hopened, hfresh, hput⟩ :=
    Store.exists_opened hp hgone.wellFormed hwithin leads' hhome
  refine ⟨v', ?_, hgone, ?_, o', v'', ?_, hfresh, hput⟩
  · rw [runOn_destroy hu hscheme hpath, hrun]
  · rw [runOn_destroy hu hscheme hpath, Volume.runOn_collect_gone hp leads' hhome hgarbage]
  · rw [create, Act.runOn_bind_ok (Act.runOn_ofExcept_ok hmake v'), hopened]

/-- Whatever is in the directory, the path decides. -/
theorem undone_iff (hw : v.disk.WellFormed)
    (leads : v.disk.directoryAt (.ofText u.path) = .ok home) :
    k.Undone uri (.ofText u.path) v ↔ Path.Straight (.ofText u.path) := by
  obtain ⟨hpath, -⟩ := within_of_make hu hscheme hmake
  obtain ⟨habove, rfl, -⟩ := Path.of_directoryAt leads
  constructor
  · rintro ⟨v', hrun, hgone, -⟩
    rw [runOn_destroy hu hscheme hpath] at hrun
    exact Volume.straight_of_collect hw leads hrun hgone
  · exact fun hp => undone_of_straight hu hscheme hmake hp hw habove

end

/-- A store that is created was made and then opened. -/
theorem make_of_create (h : (k.create .usual uri).runOn v₀ = (.ok o, v)) :
    ∃ o₀, k.make .usual uri = .ok o₀ ∧ o₀.opened.runOn v₀ = (.ok o, v) := by
  obtain ⟨o₀, v₁, hmade, hopened⟩ := Act.eq_ok_of_bind h
  obtain ⟨hmake, rfl⟩ := Act.eq_ok_of_ofExcept hmade
  exact ⟨o₀, hmake, hopened⟩

/-- What has happened to the directory and to its garbage since the store was made does not matter. -/
theorem undone_of_created (hu : StorageUri.parse uri = .ok u) (hscheme : u.scheme = "local")
    (hw₀ : v₀.disk.WellFormed) (hcreate : (k.create .usual uri).runOn v₀ = (.ok o, v))
    (hp : Path.Straight (.ofText u.path)) (hw : w.disk.WellFormed)
    (hsame : SameBut (Path.ofText u.path).place (Path.ofText u.path).garbage.place v.disk w.disk) :
    k.Undone uri (.ofText u.path) w := by
  obtain ⟨o₀, hmake, hopened⟩ := make_of_create hcreate
  obtain ⟨-, hwithin⟩ := within_of_make hu hscheme hmake
  obtain ⟨-, leads⟩ := Store.leads_of_opened hp hw₀ hwithin hopened
  exact undone_of_straight hu hscheme hmake hp hw
    (hp.directoryAt_above hsame (Path.of_directoryAt leads).1)

end StoreKind

/-! ### Books -/

namespace Backends

open BallotBook

variable {uri group : String} {u : StorageUri} {p : Path} {sync : Bool} {b : BallotBook}
  {ballots : Ballots} {home : Location} {v v₀ : Volume}

/-- **Destroying the ballot of a group forgets it**, and the book that is made then has the ballots
of all other groups. -/
def Forgets (uri group : String) (ballots : Ballots) (v : Volume) : Prop :=
  ∃ v', (usual.destroyBallot uri group).runOn v = (.ok (), v') ∧
    ∃ b, ((StoreKind.ballot group).create .usual uri).runOn v' = (.ok (.ballots b), v') ∧
      ∀ other, b.get other = .ok (if other = group then .initial else ballots.of other)

/-- The book that a uri names. -/
structure NamesBook (uri : String) (u : StorageUri) (p : Path) (sync : Bool) : Prop where
  parse : StorageUri.parse uri = .ok u
  scheme : u.scheme = "local-merged"
  directory : directoryOf u = .ok (p, sync)

namespace NamesBook

variable (h : NamesBook uri u p sync)
include h

/-- The uri of a book makes that book for every group. -/
theorem make (group : String) :
    (StoreKind.ballot group).make .usual uri = .ok (.ballots (.book { directory := p, sync })) := by
  have hbook : makeBallots usual uri = .ok (.book { directory := p, sync }) := by
    rw [makeBallots, find_book h.parse h.scheme]
    show (directoryOf u >>= _) = _
    rw [h.directory]
    rfl
  rw [StoreKind.make, hbook]
  rfl

/-- A ballot is destroyed by deleting its group in the book. -/
theorem runOn_destroyBallot (group : String) {r : Except Failure Unit} {m : Mounted BallotBook}
    (hrun : (do BallotBook.init; BallotBook.delete group : Act (Mounted BallotBook) Unit).runOn
      ⟨{ directory := p, sync }, v⟩ = (r, m)) :
    (usual.destroyBallot uri group).runOn v = (r, m.volume) := by
  rw [destroyBallot, Act.runOn_bind_ok (Act.runOn_ofExcept_ok (find_book h.parse h.scheme) v)]
  dsimp only
  rw [Act.runOn_bind_ok (Act.runOn_ofExcept_ok h.directory v)]
  dsimp only
  rw [Act.runOn_zoom, hrun]

/-- A book is made and opened. -/
theorem runOn_create (group : String) {v' : Volume}
    (hinit : BallotBook.init.runOn ⟨{ directory := p, sync }, v⟩ = (.ok (), ⟨b, v'⟩)) :
    ((StoreKind.ballot group).create .usual uri).runOn v = (.ok (.ballots (.book b)), v') := by
  have hopen := BallotStore.runOn_init_book { directory := p, sync } v
  rw [BallotStore.runOn_within hinit] at hopen
  rw [StoreKind.create, Act.runOn_bind_ok (Act.runOn_ofExcept_ok (h.make group) v), Store.opened,
    Act.runOn_bind_ok (Storages.runOn_opening hopen)]
  rfl

/-- The group is forgotten, or nothing is. -/
theorem forgets {w : Mounted BallotBook} (hholds : Holds home p w ballots) (group : String) :
    if Peer.AllRead ballots.votedFor then Forgets uri group ballots w.volume
    else (usual.destroyBallot uri group).runOn w.volume = (.error (damaged p), w.volume) := by
  split
  · next hread =>
    obtain ⟨v', hforget, hinit⟩ := hholds.runOn_forget hread sync group
    exact ⟨v', h.runOn_destroyBallot group hforget, _, h.runOn_create group hinit,
      fun other => congrArg Except.ok (Ballots.of_erase ballots group other)⟩
  · next hread =>
    rw [h.runOn_destroyBallot group (hholds.runOn_forget_unread hread sync group)]

end NamesBook

/-- A book that was made and opened is named by its uri. -/
theorem namesBook_of_create (hu : StorageUri.parse uri = .ok u) (hscheme : u.scheme = "local-merged")
    (hcreate : ((StoreKind.ballot group).create .usual uri).runOn v₀ = (.ok (.ballots (.book b)), v)) :
    (Path.ofText u.path).isEmpty = false ∧ ∃ sync, NamesBook uri u (.ofText u.path) sync ∧
      BallotBook.init.runOn ⟨{ directory := .ofText u.path, sync }, v₀⟩ = (.ok (), ⟨b, v⟩) := by
  obtain ⟨o₀, hmake, hopened⟩ := StoreKind.make_of_create hcreate
  obtain ⟨store, hstore, ho⟩ := Act.exists_ok_of_bind hmake
  rw [makeBallots, find_book hu hscheme] at hstore
  -- the uri has a path and tells whether to sync, and that is all a book is made of
  obtain ⟨hne, -, sync, hd, hbook⟩ := of_directory hstore
  rw [← Except.ok.inj hbook] at ho
  rw [← Except.ok.inj ho] at hopened
  obtain ⟨⟨_, opened⟩, v₁, hopening, hend⟩ := Act.eq_ok_of_bind hopened
  obtain ⟨he, rfl⟩ := Prod.mk.inj hend
  obtain rfl : opened = .book b := Store.ballots.inj (Except.ok.inj he)
  have hinit := Storages.eq_ok_of_opening hopening
  rw [BallotStore.runOn_init_book] at hinit
  obtain ⟨t, hrun, ht⟩ := BallotStore.eq_ok_of_within hinit
  obtain rfl := BallotStore.book.inj ht
  exact ⟨hne, sync, ⟨hu, hscheme, hd⟩, hrun⟩

/-- A book that was opened holds the ballots from which its record was written. -/
theorem holds_of_init (hw : v₀.disk.WellFormed) (hp : p.isEmpty = false)
    (hinit : BallotBook.init.runOn ⟨{ directory := p, sync }, v₀⟩ = (.ok (), ⟨b, v⟩))
    (hwrote : Record.Wrote v.disk home p "merged_meta" Table.empty ballots)
    (hb : ballots.Bounded) : Holds home p ⟨b, v⟩ ballots := by
  have hmake := makes_of_init hp hw hinit
  rw [runOn_init_wrote sync hmake hwrote hb] at hinit
  split at hinit
  · obtain rfl := (Mounted.mk.inj (Prod.mk.inj hinit).2).1
    exact ⟨rfl, fun _ ho => (Option.some.inj ho).symm, hwrote, hb⟩
  · nomatch hinit

end Backends

/-- **Destroying a store undoes its making exactly if its path is straight.**  Whatever is in the
directory of a log, of the ballot of one group or of snapshots, all of it goes, and so does the
garbage of an earlier time, and nothing else does; and the store that is made then holds nothing.
It is not so if the path ends in a slash or in dots, or if it comes by its directory or by its garbage
before it gets there.  What has happened to these two since the store was made does not matter either.

A book, whatever was asked of it, forgets the group whose ballot is destroyed, and the others keep
theirs.  If one of them voted for a peer whose address is not read, then no group is forgotten. -/
theorem destroyed_iff {k : StoreKind} {uri : String} {u : StorageUri} {o : Store} {v₀ v : Volume}
    (hu : StorageUri.parse uri = .ok u) (hw₀ : v₀.disk.WellFormed)
    (hcreate : (k.create .usual uri).runOn v₀ = (.ok o, v)) :
    (u.scheme = "local" →
      (∀ (w : Volume) (home : Location), w.disk.WellFormed →
        w.disk.directoryAt (.ofText u.path) = .ok home →
          (k.Undone uri (.ofText u.path) w ↔ Path.Straight (.ofText u.path))) ∧
      (Path.Straight (.ofText u.path) → ∀ w : Volume, w.disk.WellFormed →
        SameBut (Path.ofText u.path).place (Path.ofText u.path).garbage.place v.disk w.disk →
          k.Undone uri (.ofText u.path) w)) ∧
    (u.scheme = "local-merged" → ∀ (group : String) (b : BallotBook) (home : Location)
      (ballots : Ballots), k = .ballot group → o = .ballots (.book b) →
        -- when the book was opened its record was one that a book had written
        Record.Wrote v.disk home (.ofText u.path) "merged_meta" Table.empty ballots →
        ballots.Bounded → ∀ cs : List BookCall, (∀ c ∈ cs, c.Bounded) →
          ∃ cast, BallotBook.Holds home (.ofText u.path) (BookCall.after cs ⟨b, v⟩) cast ∧
            if Peer.AllRead cast.votedFor then
              Backends.Forgets uri group cast (BookCall.after cs ⟨b, v⟩).volume
            else (k.destroy .usual uri).runOn (BookCall.after cs ⟨b, v⟩).volume =
              (.error (BallotBook.damaged (.ofText u.path)), (BookCall.after cs ⟨b, v⟩).volume)) := by
  refine ⟨fun hscheme => ?_, ?_⟩
  · obtain ⟨o₀, hmake, -⟩ := StoreKind.make_of_create hcreate
    exact ⟨fun w home hw leads => StoreKind.undone_iff hu hscheme hmake hw leads,
      fun hp w hw hsame => StoreKind.undone_of_created hu hscheme hw₀ hcreate hp hw hsame⟩
  · rintro hscheme group b home ballots rfl rfl hwrote hb cs hcs
    obtain ⟨hne, sync, hnames, hinit⟩ := Backends.namesBook_of_create hu hscheme hcreate
    have hholds := Backends.holds_of_init hw₀ hne hinit hwrote hb
    obtain ⟨cast, hcast⟩ := BookCall.kept_after ⟨ballots, hholds⟩ hcs
    exact ⟨cast, hcast, hnames.forgets hcast group⟩

/-- Entries are appended to a log, which is destroyed then; and so is one of two ballots in a book. -/
theorem destroyed_iff_first_votes :
    (∃ l h v l' w, (StoreKind.log.create .usual "local://data").runOn (.ofDisk .empty) =
        (.ok (.log l h), v) ∧
      (LogStore.append [.noOp 1 1, .ofData 1 2 [7]]).runOn ⟨l, v⟩ = (.ok 2, ⟨l', w⟩) ∧
      l'.get 2 w.disk = .ok (some (.ofData 1 2 [7])) ∧
      StoreKind.log.Undone "local://data" (.ofText "data") w) ∧
    ∃ b v, ((StoreKind.ballot "g").create .usual "local-merged://votes").runOn (.ofDisk .empty) =
        (.ok (.ballots (.book b)), v) ∧
      Backends.Forgets "local-merged://votes" "g"
        (.ofList [("g", BallotStore.someVote), ("h", BallotStore.someVote)])
        (BookCall.after [.set "g" BallotStore.someVote, .set "h" BallotStore.someVote] ⟨b, v⟩).volume := by
  have hempty := wellFormed_empty
  constructor
  · have hparse : StorageUri.parse "local://data" = .ok ⟨"local", "data", .empty⟩ := by decide +kernel
    let s : SegmentedLog := { directory := .ofText "data", sync := true, maxSegmentSize := 8388608 }
    have hlog : Backends.usual.makeLog "local://data" = .ok (.segmented s) := by decide +kernel
    have hmake : StoreKind.log.make .usual "local://data" = .ok (.log (.segmented s) .empty) := by
      rw [StoreKind.make, hlog]
      rfl
    have hp : Path.Straight (.ofText "data") := by decide +kernel
    obtain ⟨l, v, hopened, hdir, hmirrors, hput⟩ := Store.runOn_opened_log (v := .ofDisk .empty) hp
      hempty (rfl : s.directory = _) (by decide +kernel) (by decide +kernel)
    have hcreate : (StoreKind.log.create .usual "local://data").runOn (.ofDisk .empty) =
        (.ok (.log (.segmented l) .empty), v) := by
      rw [StoreKind.create, Act.runOn_bind_ok (Act.runOn_ofExcept_ok hmake _), hopened]
    -- the entries are in the log, and all that has changed is in its directory
    have hfit : ∀ e ∈ [Entry.noOp 1 1, .ofData 1 2 [7]], e.Fits := by
      intro e he
      rcases List.mem_pair.1 he with rfl | rfl
      · exact ⟨by decide, by decide, by decide, by simp [Entry.noOp], by simp [Entry.noOp]⟩
      · exact ⟨by decide, by decide, by decide, by simp [Entry.ofData], by simp [Entry.ofData]⟩
    obtain ⟨r, l', w, mem, hmemory, hdisk, hview, hw, hsame⟩ :=
      Store.runOn_append_log hp hdir hmirrors hfit
    obtain ⟨rfl, rfl⟩ := Prod.mk.inj hmemory
    have hget : (LogStore.segmented l').get 2 w.disk = .ok (some (.ofData 1 2 [7])) :=
      congrFun (congrArg LogStore.View.entry hview) 2
    exact ⟨_, _, v, .segmented l', w, hcreate, hdisk, hget,
      ((destroyed_iff hparse hempty hcreate).1 rfl).2 hp w hw (hsame _)⟩
  · have hparse : StorageUri.parse "local-merged://votes" = .ok ⟨"local-merged", "votes", .empty⟩ := by
      decide +kernel
    have hterm : BallotStore.someVote.term ≤ Numeral.max64 := by decide
    let v := ((Volume.makeDirectories (.ofText "votes")).runOn (.ofDisk .empty)).2
    let b : BallotBook := { directory := .ofText "votes", sync := true, current := some .empty }
    have hmade : (Volume.makeDirectories (.ofText "votes")).runOn (.ofDisk .empty) = (.ok (), v) :=
      Prod.ext (by decide +kernel) rfl
    have hlist : v.disk.list (.ofText "votes") = .ok [] := by decide +kernel
    obtain ⟨home, htells⟩ := Record.exists_tells hempty (Table.empty : Ballots) hmade hlist
      (by simp) (by simp)
    have hnames : Backends.NamesBook "local-merged://votes" ⟨"local-merged", "votes", .empty⟩
        (.ofText "votes") true := ⟨hparse, rfl, by decide +kernel⟩
    have hcreate := hnames.runOn_create "g" (BallotBook.runOn_init true hmade htells)
    obtain ⟨cast, hholds, hforgets⟩ := (destroyed_iff hparse hempty hcreate).2 rfl "g" b home .empty
      rfl rfl htells.wrote (fun _ hr => absurd hr List.not_mem_nil)
      [.set "g" BallotStore.someVote, .set "h" BallotStore.someVote]
      (by simp [BookCall.Bounded, hterm])
    have hcurrent : (BookCall.after [.set "g" BallotStore.someVote, .set "h" BallotStore.someVote]
        ⟨b, v⟩).store.current =
          some (.ofList [("g", BallotStore.someVote), ("h", BallotStore.someVote)]) := by
      decide +kernel
    obtain rfl := hholds.current _ hcurrent
    rw [if_pos (by decide +kernel)] at hforgets
    exact ⟨b, v, hcreate, hforgets⟩

/-- **A path that ends in a slash** is that of a log like any other, but the log is not destroyed: the
garbage would be in its own directory.  Paths that come by the directory or by its garbage before they
get there are worse: nothing is said to be wrong, and the whole log is left, in one place or the
other. -/
theorem slashed_not_destroyed :
    let created uri := (StoreKind.log.create .usual uri).runOn (.ofDisk .empty)
    let destroyed uri := (StoreKind.log.destroy .usual uri).runOn (created uri).2
    ((created "local://data/log/?sync=false").1.isOk = true ∧
      (destroyed "local://data/log/?sync=false").1 = .error (.error (.io .invalid)) ∧
      (destroyed "local://data/log/?sync=false").2.disk.item? ["data", "log"] = some .directory) ∧
    ((created "local://data/../data").1.isOk = true ∧
      (destroyed "local://data/../data").1 = .ok () ∧
      (destroyed "local://data/../data").2.disk.item? ["data.tmp"] = some .directory) ∧
    (created "local://data.tmp/../data").1.isOk = true ∧
      (destroyed "local://data.tmp/../data").1 = .ok () ∧
      (destroyed "local://data.tmp/../data").2.disk.item? ["data"] = some .directory := by
  decide +kernel

end RaftReplica
