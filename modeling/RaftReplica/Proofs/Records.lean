/-
RaftReplica/Proofs/Records.lean

What the stores keep in records is safe there: a ballot, the ballots of many groups, the index that
a log starts at, and the table of a snapshot.

A value is safe if every save of it, at any path and on any disk, leaves either a record that tells
it or the one that was there, and if its record says itself where it ends: a start of it is found to
be damaged, and what stands behind it does not count.

Only one thing is particular to a value, that its JSON form is read back; everything else is true of
frames and of saving, whatever is saved (`safe_of_decode?`).  So the four kinds of values need one
fact each, and the bound that it asks for: numbers that fit, peers that can be read.

That a save succeeds is not promised.  When it does is said by `Replaced`, with an equivalence, and a
draft that an earlier save left behind is no reason against it.
-/
import RaftReplica.Proofs.Ballot.Store
import RaftReplica.Proofs.Log.Start

namespace RaftReplica

open Disk

namespace Record

variable {α : Type} [JsonForm α] {a : α}

/-- The value is safe in a record. -/
structure Safe (a : α) : Prop where
  replaced : ∀ {file : Path} {sync : Bool} {v v' : Volume} {r : Except Failure Unit},
    v.disk.WellFormed → (save file a sync).runOn v = (r, v') → Replaced file a v.disk r v'.disk
  loaded : ∀ {file : Path} {sync : Bool} {v v' : Volume},
    v.disk.WellFormed → (save file a sync).runOn v = (.ok (), v') →
    (load file).runOn v' = (.ok a, v')
  cut : ∀ {file copy : Path} {sync : Bool} {v v' w : Volume} {bs : Bytes} {n : Nat},
    v.disk.WellFormed → (save file a sync).runOn v = (.ok (), v') → v'.disk.read file = .ok bs →
    w.disk.read copy = .ok (bs.take n) → n < bs.length →
    (load copy : Act Volume α).runOn w =
      (.error (.error (.corrupted (.shortRecord copy.text))), w)
  extended : ∀ {file copy : Path} {sync : Bool} {v v' w : Volume} {bs more : Bytes},
    v.disk.WellFormed → (save file a sync).runOn v = (.ok (), v') → v'.disk.read file = .ok bs →
    w.disk.read copy = .ok (bs ++ more) → (load copy).runOn w = (.ok a, w)
  leftover : ∀ {file : Path} {sync : Bool} {v v' : Volume} {m : Location} {k : Nat} {bs : Bytes},
    v.disk.WellFormed → v.disk.locateEntry (draft file) = .ok m →
    v.disk.item? m ≠ some .directory → Puts v.disk v'.disk m (some (.file k bs)) →
    ((load file : Act Volume α).runOn v').1 = ((load file).runOn v).1 ∧
      ((save file a sync).runOn v').1 = ((save file a sync).runOn v).1

/-- Loading reads the file and parses it. -/
theorem runOn_load {file : Path} {v : Volume} {bs : Bytes} (h : v.disk.read file = .ok bs) :
    (load (α := α) file).runOn v = ((parse file.text bs).mapError Failure.error, v) := by
  rw [load, Act.runOn_reading, Record.read, h]
  rfl

/-- **A value that is decoded from its form** is safe. -/
theorem safe_of_decode? (hdecode : Json.decode? (Json.encode a) = some a) : Safe a := by
  have hreplaced {file : Path} {sync : Bool} {v v' : Volume} {r : Except Failure Unit}
      (hw : v.disk.WellFormed) (hrun : (save file a sync).runOn v = (r, v')) :
      Replaced file a v.disk r v'.disk := by
    have h := replaced_of_save hw file a sync
    rwa [hrun] at h
  -- what was saved fits, and it is the frame of the value's form
  have hsaved {file : Path} {sync : Bool} {v v' : Volume} (hw : v.disk.WellFormed)
      (hrun : (save file a sync).runOn v = (.ok (), v')) :
      (Json.encode a).length ≤ Numeral.max32 ∧ v'.disk.read file = .ok (frame (Json.encode a)) :=
    have h := hreplaced hw hrun
    ⟨(h.ok_iff.1 rfl).fits, (h.saved rfl).1⟩
  -- loaded, a start of it, something behind it, and a draft that was left
  refine ⟨hreplaced, fun hw hrun => ?_, fun hw hrun hbs hcopy hn => ?_,
    fun hw hrun hbs hcopy => ?_, fun {file sync v v' m k bs} hw hm hi hput => ?_⟩
  · obtain ⟨hsize, hread⟩ := hsaved hw hrun
    rw [runOn_load hread, parse_frame _ hsize hdecode]
    rfl
  · obtain ⟨hsize, hread⟩ := hsaved hw hrun
    obtain rfl := Except.ok.inj (hread.symm.trans hbs)
    rw [runOn_load hcopy, parse, unframe?_take hsize hn]
    rfl
  · obtain ⟨hsize, hread⟩ := hsaved hw hrun
    obtain rfl := Except.ok.inj (hread.symm.trans hbs)
    rw [runOn_load hcopy, parse_frame_append _ hsize hdecode]
    rfl
  · obtain ⟨hread, hsave⟩ := runOn_save_leftover a sync hw hput hi hm
    refine ⟨?_, hsave⟩
    rw [load, Act.runOn_reading, Act.runOn_reading, Record.read, Record.read, hread]

end Record

open Record Numeral

/-- **Whatever is stored in a record** is safe there. -/
theorem stored_safe :
    (∀ b : Ballot, b.Proper → Safe b) ∧
    (∀ ballots : Table String Ballot, (∀ r ∈ ballots.rows, r.2.Proper) → Safe ballots) ∧
    (∀ start : LogStart, start.first ≤ max64 → Safe start) ∧
    (∀ t : SnapshotTable, (∀ m ∈ t.info, m.Proper) → Safe t) :=
  ⟨fun _ hb => safe_of_decode? (Json.told_ballot hb).decode?_encode,
    fun _ hballots => safe_of_decode? (BallotBook.told_ballots hballots).decode?_encode,
    fun _ hstart => safe_of_decode? (LogStart.decode?_encode hstart),
    fun _ ht => safe_of_decode? (Json.told_snapshotTable ht).decode?_encode⟩

/-- A vote is saved where nothing is; and there are values of the other kinds. -/
theorem stored_safe_first_vote :
    (∀ sync, ((save (Path.ofText "ballot") (Ballot.mk 1 .nobody) sync).runOn
      (.ofDisk .empty)).1 = .ok ()) ∧
    Safe (Table.empty.insert "group" (Ballot.mk 2 .nobody)) ∧ Safe (LogStart.mk 1) ∧
    Safe (SnapshotTable.mk (some ⟨⟨4, 3⟩, .empty, .empty⟩) .empty) := by
  have hproper (n : Nat) (hn : n ≤ max64) : (Ballot.mk n .nobody).Proper := ⟨hn, trivial⟩
  refine ⟨fun sync => ?_, stored_safe.2.1 _ ?_, stored_safe.2.2.1 _ (by decide),
    stored_safe.2.2.2 _ ?_⟩
  · have hvote := stored_safe.1 _ (hproper 1 (by decide))
    rcases hrun : (save (Path.ofText "ballot") (Ballot.mk 1 .nobody) sync).runOn
      (.ofDisk .empty) with ⟨r, v'⟩
    exact (hvote.replaced wellFormed_empty hrun).ok_iff.2
      ⟨Ballot.length_encode_le (hproper 1 (by decide)), rfl,
        ⟨["ballot.tmp"], by decide, by decide⟩, by decide⟩
  · intro r hr
    obtain rfl := List.mem_singleton.1 hr
    exact hproper 2 (by decide)
  · intro m hm
    obtain rfl := Option.some.inj hm
    exact ⟨by decide, by decide, by simp [PeerSet.empty], by simp [PeerSet.empty]⟩

end RaftReplica
