/-
RaftReplica/Proofs/Snapshot/Stages.lean

The stages of a copy.  It waits and nothing has happened yet, it fills its work, or it has come to
its end, where it is exact or has left nothing (`CopyOrder.At`).  Each step leads from one stage to
the next (`Ready.at_stepStage`), also if the copy is cancelled while the step is made.

* A copy that waits begins.  It reads the table of its source, makes its work and opens the first
  file, if there is one (`Ready.at_beginCopy`).
* A copy under way is filled by a piece.  What can come of it is listed by `Filling`, and each of
  these leads to a stage (`Ready.at_afterFilling`): it goes on, it is done, it was interrupted, or a
  file was refused.  In the last two cases the work is removed, and the disk is as it was.
* A copy that is done is committed and opened (`Ready.at_finishCopy`).  Its table has just the rows
  of the source, so it is exact if the table fits into a record (`Ready.exact_of_fits`), and undone
  otherwise.

Together with the stage it is said that less is left to be done (`left`), so that after enough steps
the copy is over.
-/
import RaftReplica.Proofs.Snapshot.Exact

namespace RaftReplica

open Disk SnapshotName SnapshotStore

namespace CopyOrder

variable {o : CopyOrder} {d d' : Disk} {s s' : SnapshotStore} {v v' : Volume} {w : SnapshotWriter}
  {t : Transfer} {row : String × FileMeta} {rows rest : List (String × FileMeta)} {name : String}
  {cancelled late : Bool} {m m' : Mounted SnapshotStore} {stage : CopyStage} {granted n : Nat}
  {c : Copy} {r : SnapshotReader} {e : Error}

theorem Unchanged.congr (h : o.Unchanged s) (hdir : s'.directory = s.directory)
    (hlast : s'.last = s.last) (hholders : s'.holders = s.holders) : o.Unchanged s' :=
  ⟨hdir.trans h.directory, hlast.trans h.last, hholders.trans h.holders⟩

/-- Where a copy is at a stage, if it was `cancelled`: it waits and nothing has happened, it fills its
work, it has come to its end, or it has left nothing. -/
inductive At (o : CopyOrder) (cancelled : Bool) : CopyStage → Mounted SnapshotStore → Prop
  | waiting {m : Mounted SnapshotStore} (hs : o.Unchanged m.store)
      (hnext : m.store.nextTemporary = o.store.nextTemporary) (hd : m.volume.disk = o.disk) :
      At o cancelled .waiting m
  | copying {m : Mounted SnapshotStore} {w : SnapshotWriter} {t : Transfer}
      {rest : List (String × FileMeta)} (hs : o.Unchanged m.store)
      (h : o.Underway m.volume.disk w t rest) : At o cancelled (.copying w o.info t rest) m
  | succeeded {r : SnapshotReader} {m : Mounted SnapshotStore} (hc : cancelled = false)
      (hcopyable : o.Copyable) (h : o.Exact r m) : At o cancelled (.over (.ok r)) m
  | interrupted {what : Interruption} {m : Mounted SnapshotStore} (hc : cancelled = true)
      (h : o.Undone m) : At o cancelled (.over (.error (.interrupted what))) m
  | refused {e : Error} {row : String × FileMeta} {m : Mounted SnapshotStore}
      (hrow : row ∈ o.table.files.rows) (hs : ¬ o.Sound row) (h : o.Undone m) :
      At o cancelled (.over (.error e)) m
  | tooLarge {e : Error} {m : Mounted SnapshotStore} (hc : cancelled = false)
      (hsize : Numeral.max32 < (Json.encode o.table).length) (h : o.Undone m) :
      At o cancelled (.over (.error e)) m

/-! ### The end -/

/-- A work that is given up is gone. -/
theorem Ready.runOn_abandon (h : o.Ready) (hs : o.Unchanged s) (hb : Beside o.disk o.place v.disk)
    (hdir : w.directory = o.store.directory.entry (temporary o.store.nextTemporary)) : ∃ v',
    (abandon w).runOn ⟨s, v⟩ = (.ok (), ⟨s, v'⟩) ∧ o.Undone ⟨s, v'⟩ := by
  obtain ⟨v', hdiscard, hw', hitems⟩ := Volume.runOn_discard (h.rooted _ hb.outside)
    (plain_temporary o.store.nextTemporary) hb.wellFormed
  refine ⟨v', ?_, hs, hw', fun l => ?_⟩
  · rw [abandon, hdir]
    exact Mounted.runOn_onVolume_ok hdiscard
  · rw [hitems]
    exact ite_congr rfl (fun _ => rfl) fun hl => hb.item?_ne hl

/-- A copy ends well if it is committed and opened. -/
theorem runOn_finishCopy_ok {info : SnapshotMeta} {i : Nat} {m₁ : Mounted SnapshotStore}
    (hcommit : (commit (w.setInfo info)).runOn m = (.ok i, m₁))
    (hopen : (openAt i).runOn m₁ = (.ok r, m')) :
    (finishCopy w info).runOn m = (.ok (.over (.ok r)), m') := by
  rw [finishCopy, Act.runOn_bind_ok hcommit, Act.runOn_bind_ok hopen]
  rfl

/-- The table that is written at the end is that of the source. -/
theorem Work.table_setInfo (h : o.Work o.table.files.rows d w) (hinfo : o.table.info = some o.info) :
    (w.setInfo o.info).table = o.table := by
  show SnapshotTable.mk (some o.info) w.table.files = o.table
  rw [h.table, Table.ofList_rows, ← hinfo]

section

variable (h : o.Ready) (hs : o.Unchanged s) (hwork : o.Work o.table.files.rows v.disk w)

include h hs hwork

/-- **A work with all files** becomes the latest snapshot, with the table of the source. -/
theorem Ready.exact_of_fits (hsize : (Json.encode o.table).length ≤ Numeral.max32) : ∃ r m',
    (finishCopy w o.info).runOn ⟨s, v⟩ = (.ok (.over (.ok r)), m') ∧
      m'.store.copies = s.copies ∧ o.Exact r m' := by
  have hb := hwork.beside
  have htable := hwork.table_setInfo h.info
  have hindex : (w.setInfo o.info).index = o.index := index_eq rfl
  have hdir : (w.setInfo o.info).directory =
      s.directory.entry (temporary o.store.nextTemporary) := hs.directory ▸ hwork.directory
  have hroot : Rooted v.disk.item? o.den s.directory := hs.directory ▸ h.rooted.outside hb.outside
  have leadsWork : v.disk.directoryAt (w.setInfo o.info).directory = .ok o.place := by
    rw [hdir, hs.directory, h.leads_place hb]
  have hzero : (w.setInfo o.info).index ≠ 0 := hindex ▸ Nat.ne_of_gt h.positive
  have hlast : (w.setInfo o.info).index ≠ s.last := by
    rw [hindex, hs.last]
    exact h.other
  -- the name was free at first, and the copy has only touched its work
  have hnone : v.disk.item? (o.den ++ [published (w.setInfo o.info).index]) = none := by
    rw [hb.item?_ne (mt entry_prefix_iff.1 (temporary_ne_published _ _)), hindex, h.free]
  obtain ⟨k, v₁, hflush, -⟩ := Record.runOn_save hb.wellFormed leadsWork plain_table
    (htable.symm ▸ hsize) w.sync (hwork.files _) (hwork.files _)
  obtain ⟨m₁, r, m', hpublish, -, hopen, hrereads⟩ := runOn_openAt_published hb.wellFormed hroot hdir
    hflush hzero hlast hnone (htable.symm ▸ proper_of_read h.read)
  refine ⟨r, m', runOn_finishCopy_ok (runOn_commit_published hpublish) hopen, hrereads.copies,
    hrereads.last.trans hindex, hrereads.index.trans hindex, ?_, hrereads.table.trans htable,
    fun name hname => ?_, hb.outside.trans hrereads.outside, fun l hl => ?_⟩
  · rw [hrereads.directory, hindex, SnapshotStore.place, SnapshotStore.place, hs.directory]
  · obtain ⟨row, hrow, rfl⟩ := List.mem_map.1 hname
    obtain ⟨k', bs, hread, hi⟩ := hwork.copied row hrow
    have hsound := hwork.sound row hrow
    refine ⟨bs, hread, ?_⟩
    rw [hrereads.files row.1 hsound.1 (h.names _ hname),
      Disk.read_entry leadsWork (h.plain_of_sound hsound), hi]
  · obtain ⟨rest, rfl⟩ := hl
    rw [CopyOrder.place, List.append_assoc, List.singleton_append]
    exact hrereads.gone rest

/-- A table that is too large is not written, and the work is given up. -/
theorem Ready.undone_of_tooLarge (hsize : Numeral.max32 < (Json.encode o.table).length) : ∃ e m',
    (finishCopy w o.info).runOn ⟨s, v⟩ = (.error (.error e), m') ∧
      m'.store.copies = s.copies ∧ o.Undone m' := by
  have hrefused := runOn_publish_tooLarge (w := w.setInfo o.info) (s := s) (v := v) rfl h.positive
    ((hwork.table_setInfo h.info).symm ▸ hsize)
  obtain ⟨v', habandon, hundone⟩ := h.runOn_abandon (w := w.setInfo o.info) hs hwork.beside
    hwork.directory
  exact ⟨_, _, Act.runOn_bind_error (runOn_commit_refused hrefused habandon), rfl, hundone⟩

/-- **The end of a copy** whose files were all copied. -/
theorem Ready.at_finishCopy : ∃ stage m',
    (stageOf (finishCopy w o.info)).runOn ⟨s, v⟩ = (.ok stage, m') ∧
      m'.store.copies = s.copies ∧ o.left stage = 0 ∧ o.At false stage m' := by
  rcases Nat.lt_or_ge Numeral.max32 (Json.encode o.table).length with hsize | hsize
  · obtain ⟨e, m', hrun, hcopies, hundone⟩ := h.undone_of_tooLarge hs hwork hsize
    refine ⟨.over (.error e), m', ?_, hcopies, rfl, .tooLarge rfl hsize hundone⟩
    rw [runOn_stageOf, hrun]
    rfl
  · obtain ⟨r, m', hrun, hcopies, hexact⟩ := h.exact_of_fits hs hwork hsize
    refine ⟨.over (.ok r), m', ?_, hcopies, rfl, .succeeded rfl ⟨hwork.sound, hsize⟩ hexact⟩
    rw [runOn_stageOf, hrun]
    rfl

end

/-! ### Steps -/

/-- **What follows after the work was filled further**. -/
theorem Ready.at_afterFilling (h : o.Ready) (hs : o.Unchanged s)
    (hdir : w.directory = o.store.directory.entry (temporary o.store.nextTemporary)) (hn : 0 < n)
    {x : Act Volume (Option CopyStage × SnapshotWriter)}
    (hx : Filling o cancelled n (x.runOn v).1 (x.runOn v).2.disk) : ∃ stage m',
    (stageOf (afterFilling w o.info x)).runOn ⟨s, v⟩ = (.ok stage, m') ∧
      m'.store.copies = s.copies ∧ o.left stage < n ∧ o.At cancelled stage m' := by
  rcases hrun : x.runOn v with ⟨r, v₁⟩
  rw [hrun] at hx
  have hattempt : (Mounted.onVolume x).attempt.runOn ⟨s, v⟩ = (.ok r, ⟨s, v₁⟩) := by
    rw [Act.runOn_attempt, Mounted.runOn_onVolume, hrun]
  have hfailed {e : Error} (hr : r = .error (.error e)) (hb : Beside o.disk o.place v₁.disk) :
      ∃ m', (stageOf (afterFilling w o.info x)).runOn ⟨s, v⟩ = (.ok (.over (.error e)), m') ∧
        m'.store.copies = s.copies ∧ o.Undone m' := by
    obtain ⟨v', habandon, hundone⟩ := h.runOn_abandon hs hb hdir
    refine ⟨⟨s, v'⟩, ?_, rfl, hundone⟩
    rw [runOn_stageOf, afterFilling, Act.runOn_bind_ok hattempt, hr]
    dsimp only
    rw [Act.runOn_bind_ok habandon]
    rfl
  -- one case for each thing that can come of a piece
  cases hx with
  | goes hu hleft =>
    refine ⟨_, ⟨s, v₁⟩, ?_, rfl, hleft, .copying hs hu⟩
    rw [runOn_stageOf, afterFilling, Act.runOn_bind_ok hattempt]
    rfl
  | done hc hwork =>
    obtain ⟨stage, m', hfinish, hcopies, hleft, hat⟩ := h.at_finishCopy hs hwork
    refine ⟨stage, m', ?_, hcopies, by omega, hc ▸ hat⟩
    rw [runOn_stageOf] at hfinish ⊢
    rw [afterFilling, Act.runOn_bind_ok hattempt]
    exact hfinish
  | interrupted hc hb =>
    obtain ⟨m', hrun', hcopies, hundone⟩ := hfailed rfl hb
    exact ⟨_, m', hrun', hcopies, hn, .interrupted hc hundone⟩
  | refused hrow hsound hb =>
    obtain ⟨m', hrun', hcopies, hundone⟩ := hfailed rfl hb
    exact ⟨_, m', hrun', hcopies, hn, .refused hrow hsound hundone⟩

/-- **The first step** makes the work. -/
theorem Ready.at_beginCopy (h : o.Ready) (hs : o.Unchanged s)
    (hnext : s.nextTemporary = o.store.nextTemporary) (hd : v.disk = o.disk)
    (hsource : c.source = o.source) : ∃ stage m',
    (stageOf (beginCopy c)).runOn ⟨s, v⟩ = (.ok stage, m') ∧ m'.store.copies = s.copies ∧
      o.left stage < o.left .waiting ∧ o.At c.cancelled stage m' := by
  have hroot : Rooted v.disk.item? o.den s.directory := by
    rw [hd, hs.directory]
    exact h.rooted
  obtain ⟨v', hcreate, hw', hitems⟩ := runOn_create_any (s := s) (hd ▸ h.wellFormed) hroot
  have hplace (l : Location) : v'.disk.item? l =
      if l = o.place then some .directory else if o.place <+: l then none else o.disk.item? l := by
    rw [hitems, hnext, hd, place]
  -- the table is read before anything is made
  have hload : (Mounted.onVolume (Record.load (α := SnapshotTable)
      (SnapshotTable.file c.source))).runOn ⟨s, v⟩ = (.ok o.table, ⟨s, v⟩) := by
    rw [Mounted.runOn_onVolume, Record.load, Act.runOn_reading, hsource, hd, h.read]
    rfl
  have hbegin : (beginCopy c).runOn ⟨s, v⟩ = (afterFilling
      { directory := s.directory.entry (temporary s.nextTemporary), sync := s.sync } o.info
      (do return (← nextFile c
        { directory := s.directory.entry (temporary s.nextTemporary), sync := s.sync } o.info
        o.table.files.rows,
        { directory := s.directory.entry (temporary s.nextTemporary), sync := s.sync })) :
      Act (Mounted SnapshotStore) CopyStage).runOn
        ⟨{ s with nextTemporary := s.nextTemporary + 1 }, v'⟩ := by
    rw [beginCopy, Act.runOn_bind_ok hload, h.info]
    dsimp only
    rw [Act.runOn_bind_ok hcreate]
  have hb : Beside o.disk o.place v'.disk := by
    refine ⟨hw', fun l hl => ?_⟩
    rw [hplace, Function.update_apply]
    split
    · rfl
    · next hne => exact if_neg fun hp => hl ⟨hp, hne⟩
  -- nothing is in the work yet
  have hwork : o.Work [] v'.disk
      { directory := s.directory.entry (temporary s.nextTemporary), sync := s.sync } := by
    refine ⟨hb, by rw [hs.directory, hnext], rfl, fun name => ?_, by simp, by simp⟩
    rw [hplace, if_neg (by simp), if_pos (List.prefix_append _ _)]
    simp
  rw [runOn_stageOf, hbegin, ← runOn_stageOf]
  have hs' : o.Unchanged { s with nextTemporary := s.nextTemporary + 1 } := hs.congr rfl rfl rfl
  exact h.at_afterFilling hs' hwork.directory (Nat.succ_pos _)
    (h.filling_nextFile hwork (List.nil_append _).symm hsource (Nat.lt_succ_self _))

end CopyOrder

namespace SnapshotStore

/-- The stage that a step of a copy comes to, if the copy is cancelled while the step is made or not. -/
def stepStage (late : Bool) (granted : Nat) (c : Copy) : Act (Mounted SnapshotStore) CopyStage :=
  stageOf (match c.stage with
    | .waiting => beginCopy { c with cancelled := c.cancelled || late }
    | .copying w info t rest => afterFilling w info (fillSeen late c granted w info t rest)
    | .over r => return .over r)

/-- One step of a copy, which may be cancelled while the step is made. -/
def stepSeen (late : Bool) (number granted : Nat) : Act (Mounted SnapshotStore) Unit := do
  let c := (← Mounted.stored).copy number
  let stage ← stepStage late granted c
  Mounted.update (modifyCopy number fun c => { c with cancelled := c.cancelled || late, stage })
  if c.joined then closeOutcome stage

/-- If it is not, the step is one that copies make. -/
theorem stepSeen_false (number granted : Nat) :
    stepSeen false number granted = stepCopy number granted := by
  unfold stepSeen stepStage
  simp only [fillSeen_false, Bool.or_false]
  rfl

end SnapshotStore

namespace CopyOrder

variable {o : CopyOrder} {m : Mounted SnapshotStore} {granted : Nat} {c : Copy}

/-- Whoever is in the middle of a file has a step to go. -/
theorem Ready.left_pos (h : o.Ready) {d : Disk} {w : SnapshotWriter} {t : Transfer}
    {rest : List (String × FileMeta)} (hu : o.Underway d w t rest) :
    0 < o.left (.copying w o.info t rest) := by
  rw [left]
  cases hu.reading with
  | directory _ _ hcopied =>
    rw [hcopied]
    exact Nat.add_pos_left (o.cost_pos _) _
  | file input bs _ hi hcopied =>
    have hcost : o.cost (t.name, t.expected) = bs.length + 1 := cost_eq (h.read_source hu.plain hi)
    omega

/-- **A step of a copy** that is not over. -/
theorem Ready.at_stepStage (h : o.Ready) (late : Bool) (hat : o.At c.cancelled c.stage m)
    (hsource : c.source = o.source) (hover : c.isOver = false)
    (hgranted : c.stage = .waiting ∨ 0 < granted ∧ granted ≤ Copy.pieceSize) : ∃ stage m',
    (stepStage late granted c).runOn m = (.ok stage, m') ∧ m'.store.copies = m.store.copies ∧
      o.left stage < o.left c.stage ∧ o.At (c.cancelled || late) stage m' := by
  unfold stepStage
  generalize hstage : c.stage = stage at hat hgranted
  rw [Copy.isOver, hstage] at hover
  -- one case for each stage that is not over
  cases hat with
  | waiting hs hnext hd =>
    exact h.at_beginCopy (c := { c with cancelled := c.cancelled || late }) hs hnext hd hsource
  | copying hs hu =>
    obtain ⟨hpos, hle⟩ := hgranted.resolve_left nofun
    refine h.at_afterFilling hs ?_ ?_ (h.filling_fillSeen hu hsource hpos hle)
    · obtain ⟨rows, -, hwork⟩ := hu.work
      exact hwork.directory
    · exact h.left_pos hu
  | succeeded | interrupted | refused | tooLarge => nomatch hover

/-- The store then has the copy at the next stage. -/
theorem Ready.runOn_stepSeen (h : o.Ready) (late : Bool) {number : Nat} (hc : m.store.copy number = c)
    (hat : o.At c.cancelled c.stage m) (hsource : c.source = o.source) (hjoined : c.joined = false)
    (hover : c.isOver = false)
    (hgranted : c.stage = .waiting ∨ 0 < granted ∧ granted ≤ Copy.pieceSize) : ∃ stage m',
    (stepSeen late number granted).runOn m = (.ok (), ⟨m'.store.modifyCopy number
      fun c => { c with cancelled := c.cancelled || late, stage }, m'.volume⟩) ∧
      m'.store.copies = m.store.copies ∧ o.left stage < o.left c.stage ∧
      o.At (c.cancelled || late) stage m' := by
  obtain ⟨stage, m', hrun, hstep⟩ := h.at_stepStage late hat hsource hover hgranted
  refine ⟨stage, m', ?_, hstep⟩
  rw [stepSeen, Act.runOn_bind_ok (Mounted.runOn_stored _)]
  dsimp only
  rw [hc, Act.runOn_bind_ok hrun, Act.runOn_bind_ok (Mounted.runOn_update _ _), hjoined]
  rfl

end CopyOrder
end RaftReplica
