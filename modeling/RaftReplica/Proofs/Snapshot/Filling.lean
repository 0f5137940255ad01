/-
RaftReplica/Proofs/Snapshot/Filling.lean

Copies into a store that is in use.  A copy fills a work of its own: the file that it writes to is in
there (`Transfer.OpenIn`), so whatever comes of a piece, nothing else on the disk changes
(`filled_fill`).

A step of a copy comes to a stage, and the snapshot that it has opened, or the work that it is still
filling, is then one more claim, or one more work, of the store (`Leads`).  Whatever goes wrong
leaves neither.

Nothing is asked of the source here, and nothing is said about what is copied; that is a matter of
exact copies.  What counts is only where a copy writes.

* The files.  Opening the next file, reading a piece and ending a file are followed one after the
  other.  `NextFile` and `NextPiece` list what comes of the first two, in the form that both this
  module and the one on exact copies need.
* The steps.  A copy that is waiting begins (`leads_beginCopy`), one that is under way fills its work
  or ends (`leads_afterFilling`), and at the end its work is committed and opened
  (`leads_finishCopy`).  A copy that nobody waits for closes what it has opened
  (`runOn_closeOutcome`).

`fillSeen` is filling with a cancellation that may come between the two looks at the end of the last
file; without it, it is filling (`fillSeen_false`).
-/
import RaftReplica.Proofs.Disk.Saving
import RaftReplica.Proofs.Json.Proper
import RaftReplica.Proofs.Snapshot.Commit

namespace RaftReplica

open Disk SnapshotName

/-! ### Stages -/

/-- The file that is written to is in the work at `home`. -/
def Transfer.OpenIn (d : Disk) (home : Location) (t : Transfer) : Prop :=
  ∃ bs, d.item? (home ++ [t.name]) = some (.file t.output bs)

/-- The transfer after a piece was copied. -/
def Transfer.after (t : Transfer) (piece : Bytes) : Transfer :=
  { t with copied := t.copied + piece.length, register := Crc32.feedAll t.register piece }

/-- The reader is that of a snapshot of the store at `p`, and its table is the one on the disk. -/
structure SnapshotReader.Reads (d : Disk) (p : Path) (r : SnapshotReader) : Prop where
  directory : r.directory = p.entry (published r.index)
  table : Record.read (SnapshotTable.file r.directory) d = .ok r.table

namespace CopyStage

/-- The snapshot that a copy has opened. -/
def readers : CopyStage → List SnapshotReader
  | .over (.ok r) => [r]
  | _ => []

/-- The work that a copy is filling. -/
def works : CopyStage → List Path
  | .copying w _ _ _ => [w.directory]
  | _ => []

/-- A copy that is under way fills a work of the store at `p`, for an index that can be written. -/
def Fills (d : Disk) (den : Location) (p : Path) : CopyStage → Prop
  | .copying w info t _ => info.lastIncluded.index ≤ Numeral.max64 ∧
      ∃ n, w.directory = p.entry (temporary n) ∧ t.OpenIn d (den ++ [temporary n])
  | _ => True

/-- The stage that the outcome of a step leads to. -/
def ofResult : Except Failure CopyStage → CopyStage
  | .ok stage => stage
  | .error (.error e) => .over (.error e)
  | .error (.violation _) => .over (.error (.io .copyBroke))

end CopyStage

namespace SnapshotStore

variable {d d' : Disk} {den home : Location} {p source : Path} {s s' : SnapshotStore} {v v' : Volume}
  {w : SnapshotWriter} {info : SnapshotMeta} {t : Transfer} {lives : List Nat} {works : List Path}
  {m m₁ m' : Mounted SnapshotStore} {stage : CopyStage}

/-- What goes wrong becomes the outcome of the copy. -/
theorem runOn_stageOf (x : Act (Mounted SnapshotStore) CopyStage) :
    (stageOf x).runOn m = (.ok (.ofResult (x.runOn m).1), (x.runOn m).2) := by
  rw [stageOf, Act.runOn_bind_ok (Act.runOn_attempt x m)]
  rcases (x.runOn m).1 with e | stage
  · cases e <;> rfl
  · rfl

/-! ### Files -/

/-- A directory is opened as well, but as no file. -/
theorem runOn_openInput (file : Path) : (openInput file).runOn v =
    (match v.disk.lookup file with
      | .ok node => .ok node.number?
      | .error cause => .error (.error (.io cause)), v) := by
  rw [openInput, Volume.runOn_look]
  cases v.disk.lookup file with
  | error cause => rfl
  | ok node => cases node <;> rfl

/-- The file is open to be copied, and nothing of it was copied yet. -/
structure Begun (d : Disk) (source : Path) (t : Transfer) : Prop where
  allowed : isAllowed t.name = true
  plain : Path.Plain t.name
  input : ∃ node, d.lookup (source.entry t.name) = .ok node ∧ t.input = node.number?
  copied : t.copied = 0
  register : t.register = Crc32.start

/-- What comes of beginning the next file: there is none, or it is refused for its name or because it
cannot be opened, or it is begun. -/
inductive NextFile (home : Location) (source : Path) (w : SnapshotWriter) (info : SnapshotMeta)
    (v : Volume) : List (String × FileMeta) → Except Failure (Option CopyStage) × Volume → Prop
  | none : NextFile home source w info v [] (.ok none, v)
  | refused (name : String) (expected : FileMeta) (rest : List (String × FileMeta)) (e : Error)
      (why : isAllowed name = true → Path.Plain name →
        v.disk.item? (home ++ [name]) ≠ some .directory →
        ∃ cause, v.disk.lookup (source.entry name) = .error cause) :
      NextFile home source w info v ((name, expected) :: rest) (.error (.error e), v)
  | begun (t : Transfer) (rest : List (String × FileMeta)) (v' : Volume)
      (ht : Begun v.disk source t)
      (hput : Puts v.disk v'.disk (home ++ [t.name]) (some (.file t.output []))) :
      NextFile home source w info v ((t.name, t.expected) :: rest)
        (.ok (some (.copying w info t rest)), v')

/-- Opening the next file has one of three ends. -/
theorem nextFile_openNext (source : Path) (info : SnapshotMeta) (hw : v.disk.WellFormed)
    (leads : v.disk.directoryAt w.directory = .ok home) (files : List (String × FileMeta)) :
    NextFile home source w info v files ((openNext source w info files).runOn v) := by
  -- the name is checked first, then the source is opened, then the file is made
  cases files with
  | nil => exact .none
  | cons file rest =>
    obtain ⟨name, expected⟩ := file
    cases hcheck : SnapshotName.check name with
    | error e =>
      rw [openNext, Act.runOn_bind_error (by rw [Act.runOn_ofExcept, hcheck]; rfl)]
      refine .refused name expected rest e fun hallowed => ?_
      rw [SnapshotName.check, if_pos hallowed] at hcheck
      nomatch hcheck
    | ok u =>
      have hallowed := SnapshotName.isAllowed_of_check hcheck
      obtain ⟨hne, hup⟩ := SnapshotName.ne_of_isAllowed hallowed
      rw [openNext, Act.runOn_bind_ok (Act.runOn_ofExcept_ok hcheck _)]
      have hopen := runOn_openInput (v := v) (source.entry name)
      cases hlookup : v.disk.lookup (source.entry name) with
      | error cause =>
        rw [hlookup] at hopen
        rw [Act.runOn_bind_error hopen]
        exact .refused name expected rest _ fun _ _ _ => ⟨cause, hlookup⟩
      | ok node =>
        rw [hlookup] at hopen
        rw [Act.runOn_bind_ok hopen]
        by_cases hdot : name = "."
        · subst hdot
          obtain ⟨cause, hcreate⟩ := Volume.runOn_create_here leads
          rw [Act.runOn_bind_error hcreate]
          exact .refused "." expected rest _ fun _ hn => absurd rfl hn.2.1
        have hn : Path.Plain name := ⟨hne, hdot, hup⟩
        by_cases hi : v.disk.item? (home ++ [name]) = some .directory
        · obtain ⟨cause, hcreate⟩ := Volume.runOn_create_directory leads hn hi
          rw [Act.runOn_bind_error hcreate]
          exact .refused name expected rest _ fun _ _ hfree => absurd hi hfree
        · obtain ⟨k, v', hcreate, hput⟩ := Volume.runOn_create leads hn hw hi
          rw [Act.runOn_bind_ok hcreate]
          exact .begun { name, expected, input := node.number?, output := k } rest v'
            ⟨hallowed, hn, ⟨node, hlookup, rfl⟩, rfl, rfl⟩ hput

/-- What comes of filling the work at `home`: nothing else has changed, and if the copy goes on, it
does so with a file in there. -/
structure Filled (home : Location) (w : SnapshotWriter) (info : SnapshotMeta) (d d' : Disk)
    (r : Except Failure (Option CopyStage × SnapshotWriter)) : Prop where
  outside : Outside d.item? home d'
  writer : ∀ next w', r = .ok (next, w') → w'.directory = w.directory
  next : ∀ stage w', r = .ok (some stage, w') → ∃ w₁ t rest, stage = .copying w₁ info t rest ∧
    w₁.directory = w.directory ∧ t.OpenIn d' home

namespace Filled

theorem failed (hw : d.WellFormed) (e : Failure) : Filled home w info d d (.error e) :=
  ⟨.refl hw, fun _ _ he => absurd he (by simp), fun _ _ he => absurd he (by simp)⟩

/-- A copy with all files done has changed nothing else. -/
theorem done (hw : d.WellFormed) {w' : SnapshotWriter} (hdir : w'.directory = w.directory) :
    Filled home w info d d (.ok (none, w')) :=
  ⟨.refl hw, fun _ _ he => (Prod.mk.inj (Except.ok.inj he)).2 ▸ hdir,
    fun _ _ he => nomatch (Prod.mk.inj (Except.ok.inj he)).1⟩

/-- The writer matters only by its directory. -/
theorem of_directory {w' : SnapshotWriter}
    {r : Except Failure (Option CopyStage × SnapshotWriter)} (h : Filled home w' info d d' r)
    (hdir : w'.directory = w.directory) : Filled home w info d d' r := by
  refine ⟨h.outside, fun next w₁ he => (h.writer next w₁ he).trans hdir, fun stage w₁ he => ?_⟩
  obtain ⟨w₂, t, rest, hstage, hdir₂, ht⟩ := h.next stage w₁ he
  exact ⟨w₂, t, rest, hstage, hdir₂.trans hdir, ht⟩

/-- A copy that goes on has changed its own file. -/
theorem goes (ho : Outside d.item? home d') (ht : t.OpenIn d' home)
    (rest : List (String × FileMeta)) :
    Filled home w info d d' (.ok (some (.copying w info t rest), w)) := by
  refine ⟨ho, fun _ _ he => (Prod.mk.inj (Except.ok.inj he)).2 ▸ rfl, fun stage w' he => ?_⟩
  obtain rfl := Option.some.inj (Prod.mk.inj (Except.ok.inj he)).1
  exact ⟨w, t, rest, rfl, rfl, ht⟩

end Filled

/-- Going on to the next file stays inside of the work. -/
theorem filled_nextFile (info : SnapshotMeta) (hw : v.disk.WellFormed)
    (leads : v.disk.directoryAt w.directory = .ok home) (c : Copy)
    (rest : List (String × FileMeta)) :
    Filled home w info v.disk
      ((do return (← nextFile c w info rest, w) : Act Volume _).runOn v).2.disk
      ((do return (← nextFile c w info rest, w) : Act Volume _).runOn v).1 := by
  have hnext := nextFile_openNext c.source info hw leads rest
  generalize hopen : (openNext c.source w info rest).runOn v = x at hnext
  cases hnext with
  | none =>
    have hrun : (nextFile c w info []).runOn v =
        (if c.cancelled then .error (.error (.interrupted (.copyFrom c.source.text))) else .ok none,
          v) := by
      rw [nextFile, Act.runOn_bind_ok hopen]
      cases c.cancelled <;> rfl
    cases hc : c.cancelled with
    | true =>
      rw [Act.runOn_bind_error (by rw [hrun, hc]; rfl)]
      exact .failed hw _
    | false =>
      rw [Act.runOn_bind_ok (by rw [hrun, hc]; rfl)]
      exact .done hw rfl
  | refused name expected rest e =>
    rw [Act.runOn_bind_error (by rw [nextFile, Act.runOn_bind_error hopen])]
    exact .failed hw _
  | begun t rest' v' ht hput =>
    have hrun : (nextFile c w info ((t.name, t.expected) :: rest')).runOn v =
        (.ok (some (.copying w info t rest')), v') := by
      rw [nextFile, Act.runOn_bind_ok hopen]
      rfl
    rw [Act.runOn_bind_ok hrun]
    exact .goes ((Outside.refl hw).put (below_entry t.name) hput) ⟨_, hput.item?_self⟩ rest'

/-- What comes of copying a piece of a file into one that holds `bs`: it cannot be read, it is at its
end, or the piece is written. -/
inductive NextPiece (place : Location) (bs : Bytes) (granted : Nat) (t : Transfer) (v : Volume) :
    Except Failure (Option Transfer) × Volume → Prop
  | violated (h : Copy.pieceSize < granted) :
      NextPiece place bs granted t v (.error (.violation .grantTooLarge), v)
  | directory (h : t.input = none) :
      NextPiece place bs granted t v (.error (.error (.io .isDirectory)), v)
  | ended (input : Nat) (h : t.input = some input)
      (hnil : ((v.disk.content input).drop t.copied).take granted = []) :
      NextPiece place bs granted t v (.ok none, v)
  | copied (input : Nat) (piece : Bytes) (v' : Volume) (h : t.input = some input)
      (hpiece : ((v.disk.content input).drop t.copied).take granted = piece) (hne : piece ≠ [])
      (hput : Puts v.disk v'.disk place (some (.file t.output (bs.writeAt t.copied piece)))) :
      NextPiece place bs granted t v (.ok (some (t.after piece)), v')

/-- Reading a piece has one of four ends. -/
theorem nextPiece_nextPiece {place : Location} {bs : Bytes} (hw : v.disk.WellFormed)
    (ht : v.disk.item? place = some (.file t.output bs)) (granted : Nat) :
    NextPiece place bs granted t v ((nextPiece granted t).runOn v) := by
  cases hgranted : decide (granted ≤ Copy.pieceSize) with
  | false =>
    rw [nextPiece, Act.runOn_bind_error (by rw [Act.runOn_require, hgranted]; rfl)]
    exact .violated (Nat.not_le.1 (of_decide_eq_false hgranted))
  | true =>
  rw [nextPiece, Act.runOn_bind_ok (Act.runOn_require_of hgranted .grantTooLarge v)]
  cases hinput : t.input with
  | none => exact .directory hinput
  | some input =>
    show NextPiece place bs granted t v (Act.runOn (get >>= _) v)
    rw [Act.runOn_bind_ok (Act.runOn_get v)]
    -- nothing is read at the end of the file, and what is read before is written
    by_cases hnil : ((v.disk.content input).drop t.copied).take granted = []
    · rw [if_pos (List.isEmpty_iff.2 hnil)]
      exact .ended input hinput hnil
    · let piece := ((v.disk.content input).drop t.copied).take granted
      let v' : Volume := ⟨v.disk.changeContent t.output (·.write t.copied piece),
        .write t.output t.copied piece :: v.journal⟩
      have hwrite : (Volume.write t.output t.copied piece).runOn v = (.ok (), v') :=
        Volume.runOn_perform rfl
      have hput : Puts v.disk v'.disk place (some (.file t.output (bs.writeAt t.copied piece))) :=
        puts_changeContent hw ht fun c hc => by rw [Content.bytes_write, hc]
      rw [if_neg (mt List.isEmpty_iff.1 hnil), Act.runOn_bind_ok hwrite]
      have hcopied : NextPiece place bs granted t v (.ok (some (t.after piece)), v') :=
        .copied input piece v' hinput rfl hnil hput
      rw [Transfer.after, hinput] at hcopied
      exact hcopied

/-- What follows behind the last piece of a file: the file has to be the expected one, and then the
next one comes. -/
def endFile (c : Copy) (w : SnapshotWriter) (info : SnapshotMeta) (t : Transfer)
    (rest : List (String × FileMeta)) : Act Volume (Option CopyStage × SnapshotWriter) := do
  Act.ofExcept (checkSum c.source t)
  Volume.flush w.sync t.output
  let w ← Act.ofExcept (w.addFile t.name t.expected)
  return (← nextFile c w info rest, w)

/-- Ending a file stays inside of the work. -/
theorem filled_endFile (hw : v.disk.WellFormed) (leads : v.disk.directoryAt w.directory = .ok home)
    (c : Copy) (t : Transfer) (rest : List (String × FileMeta)) :
    Filled home w info v.disk ((endFile c w info t rest).runOn v).2.disk
      ((endFile c w info t rest).runOn v).1 := by
  unfold endFile
  cases hsum : checkSum c.source t with
  | error e => exact .failed hw (.error e)
  | ok u =>
  obtain ⟨v₁, hflush, hdisk⟩ := Volume.runOn_flush (v := v) w.sync t.output
  rw [Act.runOn_bind_ok (Act.runOn_ofExcept_ok rfl v), Act.runOn_bind_ok hflush]
  cases hadd : w.addFile t.name t.expected with
  | error e =>
    show Filled home w info v.disk v₁.disk (.error (.error e))
    rw [hdisk]
    exact .failed hw _
  | ok w' =>
    have hdir := SnapshotWriter.directory_of_addFile hadd
    rw [Act.runOn_bind_ok (Act.runOn_ofExcept_ok rfl v₁)]
    have hnext := filled_nextFile (v := v₁) (w := w') info (hdisk ▸ hw)
      (hdir ▸ hdisk ▸ leads) c rest
    rw [hdisk] at hnext
    exact hnext.of_directory hdir

/-- A piece is copied as by `fill`, and a copy that is cancelled meanwhile sees it when it comes to the
end of its last file. -/
def fillSeen (late : Bool) (c : Copy) (granted : Nat) (w : SnapshotWriter) (info : SnapshotMeta)
    (t : Transfer) (rest : List (String × FileMeta)) :
    Act Volume (Option CopyStage × SnapshotWriter) := do
  if c.cancelled then Act.fail (.interrupted (.copyOf (c.source.entry t.name).text))
  match ← nextPiece granted t with
  | some t => return (some (.copying w info t rest), w)
  | none => endFile { c with cancelled := c.cancelled || late } w info t rest

/-- Without a late cancellation it is filling. -/
theorem fillSeen_false (c : Copy) : fillSeen false c = fill c := by
  unfold fillSeen
  simp only [Bool.or_false]
  rfl

section

variable {c : Copy} {late : Bool} {granted : Nat} {rest : List (String × FileMeta)}

/-- A copy that was cancelled before is interrupted at once. -/
theorem runOn_fillSeen_cancelled (hcancelled : c.cancelled = true) :
    (fillSeen late c granted w info t rest).runOn v =
      (.error (.error (.interrupted (.copyOf (c.source.entry t.name).text))), v) := by
  rw [fillSeen, hcancelled]
  rfl

variable (hcancelled : c.cancelled = false)

include hcancelled

/-- A piece that fails ends the copy. -/
theorem runOn_fillSeen_error {e : Failure} (hpiece : (nextPiece granted t).runOn v = (.error e, v₁)) :
    (fillSeen late c granted w info t rest).runOn v = (.error e, v₁) := by
  rw [fillSeen, hcancelled]
  exact Act.runOn_bind_error hpiece

/-- A piece that was copied leaves the file open. -/
theorem runOn_fillSeen_more {t' : Transfer}
    (hpiece : (nextPiece granted t).runOn v = (.ok (some t'), v₁)) :
    (fillSeen late c granted w info t rest).runOn v =
      (.ok (some (.copying w info t' rest), w), v₁) := by
  rw [fillSeen, hcancelled]
  exact Act.runOn_bind_ok hpiece

/-- At the end of a file the copy goes on to the next one, and looks once more whether it was
cancelled. -/
theorem runOn_fillSeen_end (hpiece : (nextPiece granted t).runOn v = (.ok none, v₁)) :
    (fillSeen late c granted w info t rest).runOn v =
      (endFile { c with cancelled := late } w info t rest).runOn v₁ := by
  rw [fillSeen, hcancelled]
  exact Act.runOn_bind_ok hpiece

end

/-- **A piece that is copied** changes nothing but the work. -/
theorem filled_fill (hw : v.disk.WellFormed) (leads : v.disk.directoryAt w.directory = .ok home)
    (ht : t.OpenIn v.disk home) (c : Copy) (granted : Nat) (rest : List (String × FileMeta)) :
    Filled home w info v.disk ((fill c granted w info t rest).runOn v).2.disk
      ((fill c granted w info t rest).runOn v).1 := by
  rw [← fillSeen_false]
  cases hcancelled : c.cancelled with
  | true =>
    rw [runOn_fillSeen_cancelled hcancelled]
    exact .failed hw _
  | false =>
  obtain ⟨bs, hbs⟩ := ht
  have hpiece := nextPiece_nextPiece hw hbs granted
  generalize hnext : (nextPiece granted t).runOn v = x at hpiece
  -- what comes of the piece tells how the copy goes on
  cases hpiece with
  | violated | directory =>
    rw [runOn_fillSeen_error hcancelled hnext]
    exact .failed hw _
  | ended input hinput hnil =>
    rw [runOn_fillSeen_end hcancelled hnext]
    exact filled_endFile hw leads _ t rest
  | copied input piece v' hinput hread hne hput =>
    rw [runOn_fillSeen_more hcancelled hnext]
    exact .goes (t := t.after piece) ((Outside.refl hw).put (below_entry t.name) hput)
      ⟨_, hput.item?_self⟩ rest

/-! ### Steps -/

/-- The store at `m` has come to `m'` by a step of a copy: what the copy has opened is claimed now,
and what it is filling is among the works. -/
structure Leads (den : Location) (lives : List Nat) (works : List Path)
    (m m' : Mounted SnapshotStore) (stage : CopyStage) : Prop where
  directory : m'.store.directory = m.store.directory
  copies : m'.store.copies = m.store.copies
  shelved : Shelved m'.volume.disk den m'.store
    (m'.store.own ++ (stage.readers.map (·.index) ++ lives)) (stage.works ++ works)
  kept : Kept den m.store.directory m.volume.disk m'.volume.disk lives works
  reads : ∀ r ∈ stage.readers, r.Reads m'.volume.disk m.store.directory
  fills : stage.Fills m'.volume.disk den m.store.directory

namespace Leads

/-- A step that fails leaves no claim and no work. -/
theorem failed (h : Shelved v'.disk den s' (s'.own ++ lives) works)
    (hdir : s'.directory = s.directory) (hcopies : s'.copies = s.copies)
    (hkept : Kept den s.directory v.disk v'.disk lives works) (e : Failure) :
    Leads den lives works ⟨s, v⟩ ⟨s', v'⟩ (.ofResult (.error e)) := by
  cases e with
  | error e => exact ⟨hdir, hcopies, h, hkept, nofun, trivial⟩
  | violation v => exact ⟨hdir, hcopies, h, hkept, nofun, trivial⟩

/-- What happened before a step is added to what the step leads to. -/
theorem after (h : Leads den lives works m₁ m' stage)
    (hdir : m₁.store.directory = m.store.directory) (hcopies : m₁.store.copies = m.store.copies)
    (hkept : Kept den m.store.directory m.volume.disk m₁.volume.disk lives works) :
    Leads den lives works m m' stage := by
  obtain ⟨hdir', hcopies', hshelved, hkept', hreads, hfills⟩ := h
  rw [hdir] at hdir' hkept' hreads hfills
  exact ⟨hdir', hcopies'.trans hcopies, hshelved, hkept.trans hkept', hreads, hfills⟩

end Leads

/-- The action is a step of a copy for the store at `m`, and comes to such a stage. -/
abbrev LeadsFrom (den : Location) (lives : List Nat) (works : List Path)
    (m : Mounted SnapshotStore) (x : Act (Mounted SnapshotStore) CopyStage) : Prop :=
  Leads den lives works m (x.runOn m).2 (.ofResult (x.runOn m).1)

/-- The end of a copy: what it has published is opened. -/
theorem leads_openAt (h : Shelved v.disk den s (s.own ++ lives) works) (i : Nat) :
    LeadsFrom den lives works ⟨s, v⟩ do return .over (.ok (← openAt i)) := by
  unfold LeadsFrom
  rcases h.runOn_openAt i with ⟨table, holders, hopen, hi, hread, h'⟩ | ⟨e, holders, hopen, h'⟩
  · rw [Act.runOn_bind_ok hopen]
    refine ⟨rfl, rfl, h'.perm List.perm_middle.symm (.refl works), .of_eq rfl, ?_, trivial⟩
    intro r hr
    obtain rfl := List.mem_singleton.1 hr
    exact ⟨rfl, hread⟩
  · rw [Act.runOn_bind_error hopen]
    exact Leads.failed (s := s) h' rfl rfl (.of_eq rfl) e

/-- A copy that has filled its work publishes it and opens it, or leaves nothing. -/
theorem leads_finishCopy (h : Shelved v.disk den s (s.own ++ lives) (w.directory :: works))
    (hmax : info.lastIncluded.index ≤ Numeral.max64) :
    LeadsFrom den lives works ⟨s, v⟩ (finishCopy w info) := by
  unfold LeadsFrom
  -- the commit leaves the store as it was, or the copied snapshot is the latest one
  rcases Shelved.runOn_commit (w := w.setInfo info) h hmax with
    ⟨r, v', hcommit, h', hkept, -⟩ | ⟨holders, v', hcommit, hne, -, h', hkept⟩
  · cases r with
    | error e =>
      rw [finishCopy, Act.runOn_bind_error hcommit]
      exact .failed h' rfl rfl hkept.right e
    | ok i =>
      rw [finishCopy, Act.runOn_bind_ok hcommit]
      exact (leads_openAt h' i).after rfl rfl hkept.right
  · rw [finishCopy, Act.runOn_bind_ok hcommit]
    refine (leads_openAt (s := { s with last := (w.setInfo info).index, holders }) ?_ _).after
      rfl rfl hkept
    rw [own, if_neg hne]
    exact h'

/-- **What follows after a work was filled further**: the next stage, the end of the copy, or its
failure. -/
theorem leads_afterFilling {x : Act Volume (Option CopyStage × SnapshotWriter)} {n : Nat}
    (h : Shelved v.disk den s (s.own ++ lives) (w.directory :: works))
    (hdir : w.directory = s.directory.entry (temporary n))
    (hmax : info.lastIncluded.index ≤ Numeral.max64)
    (hx : Filled (den ++ [temporary n]) w info v.disk (x.runOn v).2.disk (x.runOn v).1) :
    LeadsFrom den lives works ⟨s, v⟩ (afterFilling w info x) := by
  unfold LeadsFrom
  have hnot : s.directory.entry (temporary n) ∉ works := hdir ▸ (List.nodup_cons.1 h.nodup).1
  have h₁ := h.inside hx.outside
  have hkept : Kept den s.directory v.disk (x.runOn v).2.disk lives works :=
    .of_outside hx.outside hnot
  rcases hrun : x.runOn v with ⟨r, v₁⟩
  rw [hrun] at hx h₁ hkept
  have hattempt : (Mounted.onVolume x).attempt.runOn ⟨s, v⟩ = (.ok r, ⟨s, v₁⟩) := by
    rw [Act.runOn_attempt, Mounted.runOn_onVolume, hrun]
  rw [afterFilling, Act.runOn_bind_ok hattempt]
  -- filling failed, all files are done, or one is open
  rcases r with e | ⟨next, w'⟩
  · cases e with
    | error e =>
      obtain ⟨v₂, habandon, h₂, hkept₂, -⟩ := h₁.runOn_abandon
      dsimp only
      rw [Act.runOn_bind_ok habandon]
      exact .failed h₂ rfl rfl
        (hkept.trans hkept₂.right) (.error e)
    | violation c =>
      exact .failed (h₁.sub (List.sublist_cons_self w.directory works)) rfl rfl hkept (.violation c)
  · have hdir' := hx.writer next w' rfl
    cases next with
    | none =>
      exact (leads_finishCopy (hdir'.symm ▸ h₁) hmax).after rfl rfl hkept
    | some stage =>
      obtain ⟨w₁, t, rest, rfl, hdir₁, ht⟩ := hx.next stage w' rfl
      refine ⟨rfl, rfl, ?_, hkept, nofun, hmax, n, hdir₁.trans hdir, ht⟩
      show Shelved v₁.disk den s (s.own ++ ([] ++ lives)) ([w₁.directory] ++ works)
      rw [hdir₁]
      exact h₁

/-- A table that was read can be written again. -/
theorem proper_of_read {table : SnapshotTable} {file : Path} (h : Record.read file d = .ok table) :
    ∀ info ∈ table.info, info.Proper := by
  rw [Record.read] at h
  cases hbytes : d.read file with
  | error e =>
    rw [hbytes] at h
    cases h
  | ok bs =>
    rw [hbytes] at h
    replace h : Record.parse file.text bs = .ok table := h
    rw [Record.parse] at h
    -- a record that is read was decoded from JSON
    split at h
    · cases h
    · split at h
      · next told hdecode =>
        obtain rfl := Except.ok.inj h
        obtain ⟨j, -, hj⟩ := Option.bind_eq_some_iff.1 hdecode
        exact SnapshotTable.proper_of_ofJson? hj
      · cases h

/-- The first step of a copy makes a work and begins to fill it. -/
theorem leads_beginCopy (h : Shelved v.disk den s (s.own ++ lives) works) (c : Copy) :
    LeadsFrom den lives works ⟨s, v⟩ (beginCopy c) := by
  unfold LeadsFrom
  rcases hload : (Record.load (α := SnapshotTable) (SnapshotTable.file c.source)).runOn v with ⟨r, v₁⟩
  have hv₁ : v₁ = v := by
    rw [Record.load, Act.runOn_reading] at hload
    exact (Prod.mk.inj hload).2.symm
  subst hv₁
  -- the table of the source is read first, and without it nothing begins
  cases r with
  | error e =>
    rw [beginCopy, Act.runOn_bind_error (by rw [Mounted.runOn_onVolume, hload])]
    exact .failed h rfl rfl (.of_eq rfl) e
  | ok table =>
    rw [beginCopy, Act.runOn_bind_ok (Mounted.runOn_onVolume_ok hload)]
    cases hinfo : table.info with
    | none => exact .failed h rfl rfl (.of_eq rfl) (.error _)
    | some info =>
      obtain ⟨w, v', hcreate, hdir, -, h', hkept⟩ := h.runOn_create
      obtain ⟨n, -, hdir', hat⟩ := h'.made _ List.mem_cons_self
      have hmax := (proper_of_read (Act.eq_ok_of_reading hload).1 _ hinfo).index
      have leads := directoryAt_entry h'.leads (plain_temporary n) hat
      rw [← hdir'] at leads
      dsimp only
      rw [Act.runOn_bind_ok hcreate]
      exact (leads_afterFilling h' hdir' hmax
        (filled_nextFile info h'.wellFormed leads c table.files.rows)).after rfl rfl hkept.right

/-- What a copy has opened is closed again, if nobody takes it. -/
theorem runOn_closeOutcome (h : Shelved v.disk den s
      (s.own ++ (stage.readers.map (·.index) ++ lives)) works) : ∃ holders v',
    (closeOutcome stage).runOn ⟨s, v⟩ = (.ok (), ⟨{ s with holders }, v'⟩) ∧
      Shelved v'.disk den { s with holders } (s.own ++ lives) works ∧
      Kept den s.directory v.disk v'.disk lives works := by
  unfold closeOutcome
  split
  · next r =>
    obtain ⟨holders, v', hrelease, h', hkept⟩ :=
      (h.perm List.perm_middle (.refl works)).runOn_release
    exact ⟨holders, v', hrelease, h', hkept.right⟩
  · next hnot =>
    have hnone : stage.readers = [] := by
      unfold CopyStage.readers
      split
      · exact absurd rfl (hnot _)
      · rfl
    rw [hnone] at h
    exact ⟨s.holders, v, rfl, h, .of_eq rfl⟩

end SnapshotStore
end RaftReplica
