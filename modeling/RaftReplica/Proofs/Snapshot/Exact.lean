/-
RaftReplica/Proofs/Snapshot/Exact.lean

What is said of copies: which can begin and which can come to a good end, what is there then
(`CopyOrder.Exact`) and if they fail (`CopyOrder.Undone`).  A copy fills a work of its own, file by
file and piece by piece: the files before have the bytes of their sources, the one that is open has
the first bytes of its own, and outside of the work the disk is as it was (`CopyOrder.Underway`).

A copy looks twice whether it was cancelled when it comes to the end of its last file, and it may be
cancelled between the two looks (`late`).

* `Ready` is asked of a copy that begins: the source is a snapshot apart from the store it is copied
  to, and its table is read.
* `Copyable` says of the table that every file in it can be copied: its name is allowed, the source
  has the file, and its bytes have the checksum of the table if there is one.  A copy that is not
  cancelled ends well exactly then.
* `At` says where a copy is at each of its stages, and each step leads from one to the next.
  `Filling` lists what can come of one more piece, and `filling_fillSeen` finds which it is.
* `left` counts what is still to be done, a unit for each byte and one for each file.  A step that is
  granted something makes it less (`underway_after`), so a copy comes to its end.
-/
import RaftReplica.Proofs.Snapshot.Filling
import RaftReplica.Proofs.Snapshot.Written

namespace RaftReplica

open Disk SnapshotName SnapshotStore

/-- What is to be copied, and where: `source` leads to `home`, where `table` is, and the store in the
directory at `den` is `store` on `disk` when the copy begins. -/
structure CopyOrder where
  source : Path
  home : Location
  table : SnapshotTable
  info : SnapshotMeta
  store : SnapshotStore
  den : Location
  disk : Disk

namespace CopyOrder

section Definitions

variable (o : CopyOrder)

/-- The index of the snapshot that is copied. -/
def index : Nat := o.info.lastIncluded.index

/-- Where the copy is made. -/
def place : Location := o.den ++ [temporary o.store.nextTemporary]

/-- The copy can begin: its source has a table, and is not in the directory of the store, which has
nothing of that index.  The way to the source does not lead through the work either. -/
structure Ready : Prop where
  wellFormed : o.disk.WellFormed
  rooted : Rooted o.disk.item? o.den o.store.directory
  home : o.disk.directoryAt o.source = .ok o.home
  leads : ∀ d, Beside o.disk o.place d → d.directoryAt o.source = .ok o.home
  apart : ¬ o.den <+: o.home
  read : Record.read (SnapshotTable.file o.source) o.disk = .ok o.table
  info : o.table.info = some o.info
  positive : 0 < o.index
  other : o.index ≠ o.store.last
  free : o.disk.item? (o.den ++ [published o.index]) = none
  names : ∀ name ∈ o.table.names, name ≠ SnapshotName.table ++ ".tmp"

/-- A row of the table that can be copied: its name is allowed and that of a file in the source,
which has the checksum that the row tells, if it tells one. -/
def Sound (row : String × FileMeta) : Prop :=
  isAllowed row.1 = true ∧ ∃ bs, o.disk.read (o.source.entry row.1) = .ok bs ∧
    ∀ sum ∈ row.2.checksum, Crc32.checksum bs = sum

/-- The source can be copied, and its table can be written again. -/
structure Copyable : Prop where
  sound : ∀ row ∈ o.table.files.rows, o.Sound row
  fits : (Json.encode o.table).length ≤ Numeral.max32

/-- The store is as it was when the copy began, but for its copies and the name of the next work. -/
structure Unchanged (s : SnapshotStore) : Prop where
  directory : s.directory = o.store.directory
  last : s.last = o.store.last
  holders : s.holders = o.store.holders

/-- The copy has left nothing: the store is as it was, and so is the disk, but for the work, which is
not there. -/
structure Undone (m : Mounted SnapshotStore) : Prop where
  store : o.Unchanged m.store
  wellFormed : m.volume.disk.WellFormed
  items : ∀ l, m.volume.disk.item? l = if o.place <+: l then none else o.disk.item? l

/-- The copy is the latest snapshot, and the reader finds in it what is in the source. -/
structure Exact (r : SnapshotReader) (m : Mounted SnapshotStore) : Prop where
  last : m.store.last = o.index
  index : r.index = o.index
  directory : r.directory = o.store.place o.index
  table : r.table = o.table
  files : ∀ name ∈ o.table.names, ∃ bs, o.disk.read (o.source.entry name) = .ok bs ∧
    m.volume.disk.read (r.directory.entry name) = .ok bs
  outside : Outside o.disk.item? o.den m.volume.disk
  gone : ∀ l, o.place <+: l → m.volume.disk.item? l = none

/-- The files of `rows` were copied into the work. -/
structure Work (rows : List (String × FileMeta)) (d : Disk) (w : SnapshotWriter) : Prop where
  beside : Beside o.disk o.place d
  directory : w.directory = o.store.directory.entry (temporary o.store.nextTemporary)
  table : w.table = ⟨none, .ofList rows⟩
  files : ∀ name, d.item? (o.place ++ [name]) ≠ some .directory
  sound : ∀ row ∈ rows, o.Sound row
  copied : ∀ row ∈ rows, ∃ k bs, o.disk.read (o.source.entry row.1) = .ok bs ∧
    d.item? (o.place ++ [row.1]) = some (.file k bs)

/-- A file of the source is open, and its first bytes were copied; or a directory is open. -/
inductive Reading (d : Disk) (t : Transfer) : Prop
  | directory (hi : o.disk.item? (o.home ++ [t.name]) = some .directory) (hinput : t.input = none)
      (hcopied : t.copied = 0) (ht : t.OpenIn d o.place)
  | file (input : Nat) (bs : Bytes) (hinput : t.input = some input)
      (hi : o.disk.item? (o.home ++ [t.name]) = some (.file input bs))
      (hcopied : t.copied ≤ bs.length)
      (hregister : t.register = Crc32.feedAll Crc32.start (bs.take t.copied))
      (ht : d.item? (o.place ++ [t.name]) = some (.file t.output (bs.take t.copied)))

/-- The copy is in the middle of a file; the files of `rest` are still to come. -/
structure Underway (d : Disk) (w : SnapshotWriter) (t : Transfer)
    (rest : List (String × FileMeta)) : Prop where
  allowed : isAllowed t.name = true
  plain : Path.Plain t.name
  reading : o.Reading d t
  work : ∃ rows, o.table.files.rows = rows ++ (t.name, t.expected) :: rest ∧ o.Work rows d w

/-- How many steps a file takes at most: one for each byte, and one for its end. -/
def cost (row : String × FileMeta) : Nat :=
  match o.disk.read (o.source.entry row.1) with
  | .ok bs => bs.length + 1
  | .error _ => 1

/-- How many steps these files take at most. -/
def costs : List (String × FileMeta) → Nat
  | [] => 0
  | row :: rest => o.cost row + costs rest

/-- How many steps a copy takes at most from a stage on. -/
def left : CopyStage → Nat
  | .waiting => o.costs o.table.files.rows + 1
  | .copying _ _ t rest => o.cost (t.name, t.expected) - t.copied + o.costs rest
  | .over _ => 0

end Definitions

variable {o : CopyOrder} {d d' : Disk} {s s' : SnapshotStore} {v v' : Volume} {w : SnapshotWriter}
  {t : Transfer} {row : String × FileMeta} {rows rest : List (String × FileMeta)} {name : String}
  {cancelled : Bool} {m m' : Mounted SnapshotStore} {stage : CopyStage} {n : Nat}

/-! ### The source -/

namespace Ready

variable (h : o.Ready)

include h

/-- Nothing in the source is in the work. -/
theorem not_place_isPrefix (name : String) : ¬ o.place <+: o.home ++ [name] := by
  intro hp
  rcases eq_or_below_of_below_entry ((below_entry _).trans_isPrefix hp) with he | hb
  · exact h.apart (he ▸ List.prefix_refl _)
  · exact h.apart hb.1

theorem item?_source (hb : Beside o.disk o.place d) (name : String) :
    d.item? (o.home ++ [name]) = o.disk.item? (o.home ++ [name]) :=
  hb.item?_ne (h.not_place_isPrefix name)

theorem leads_place (hb : Beside o.disk o.place d) :
    d.directoryAt (o.store.directory.entry (temporary o.store.nextTemporary)) = .ok o.place :=
  directoryAt_entry (h.rooted d hb.outside) (plain_temporary _) hb.directory

/-- What leads to where one stands is not a file. -/
theorem plain_of_sound (hs : o.Sound row) : Path.Plain row.1 := by
  obtain ⟨-, bs, hread, -⟩ := hs
  by_contra hn
  rw [read_unnamed h.wellFormed h.home hn] at hread
  nomatch hread

/-- The file of a row that can be copied. -/
theorem exists_file (hs : o.Sound row) : ∃ k bs,
    o.disk.item? (o.home ++ [row.1]) = some (.file k bs) := by
  obtain ⟨-, bs, hread, -⟩ := id hs
  rw [Disk.read_entry h.home (h.plain_of_sound hs)] at hread
  split at hread
  · next k bs' hi => exact ⟨k, bs', hi⟩
  · nomatch hread
  · nomatch hread

/-- The file is read. -/
theorem read_source (hn : Path.Plain name) {k : Nat} {bs : Bytes}
    (hi : o.disk.item? (o.home ++ [name]) = some (.file k bs)) :
    o.disk.read (o.source.entry name) = .ok bs := by
  rw [Disk.read_entry h.home hn, hi]

/-- A directory cannot be copied as a file. -/
theorem not_sound_of_directory (hn : Path.Plain row.1)
    (hi : o.disk.item? (o.home ++ [row.1]) = some .directory) : ¬ o.Sound row := by
  rintro ⟨-, bs, hread, -⟩
  rw [Disk.read_entry h.home hn, hi] at hread
  nomatch hread

omit h in
/-- No name is told twice. -/
theorem ne_of_mem (hrows : o.table.files.rows = rows ++ (name, t.expected) :: rest)
    (hrow : row ∈ rows) : row.1 ≠ name := by
  have hascending := o.table.files.ascending
  rw [hrows] at hascending
  have hlt := (List.pairwise_append.1 hascending).2.2 row hrow _ List.mem_cons_self
  exact fun he => String.lt_irrefl _ (he ▸ hlt)

end Ready

theorem cost_pos (o : CopyOrder) (row : String × FileMeta) : 0 < o.cost row := by
  unfold cost
  split <;> omega

/-- Costs add up. -/
theorem costs_append (o : CopyOrder) (rows rest : List (String × FileMeta)) :
    o.costs (rows ++ rest) = o.costs rows + o.costs rest := by
  induction rows with
  | nil => rw [costs, Nat.zero_add, List.nil_append]
  | cons row rows ih => rw [List.cons_append, costs, costs, ih, Nat.add_assoc]

/-! ### Files -/

/-- What is written to the open file leaves those before as they are. -/
theorem Work.put (h : o.Work rows d w) {k : Nat} {bs : Bytes}
    (hput : Puts d d' (o.place ++ [name]) (some (.file k bs))) (hname : ∀ row ∈ rows, row.1 ≠ name) :
    o.Work rows d' w := by
  have hne {other : String} (ho : other ≠ name) : o.place ++ [other] ≠ o.place ++ [name] :=
    fun he => ho (append_name_inj.1 he)
  refine ⟨h.beside.put (below_entry name) hput, h.directory, h.table, fun other => ?_, h.sound,
    fun row hrow => ?_⟩
  -- the file that is written, and any other
  · by_cases ho : other = name
    · rw [ho, hput.item?_self]
      simp
    · rw [hput.item?_ne (hne ho)]
      exact h.files other
  · obtain ⟨k', bs', hread, hi⟩ := h.copied row hrow
    exact ⟨k', bs', hread, by rw [hput.item?_ne (hne (hname row hrow)), hi]⟩

/-- One more file was copied, and the table of the work tells it. -/
theorem Work.add (h : o.Work rows d w) {k : Nat} {bs : Bytes} (hs : o.Sound row)
    (hread : o.disk.read (o.source.entry row.1) = .ok bs)
    (hi : d.item? (o.place ++ [row.1]) = some (.file k bs)) : o.Work (rows ++ [row]) d
      { w with table := { w.table with files := w.table.files.insert row.1 row.2 } } := by
  refine ⟨h.beside, h.directory, ?_, h.files, ?_, ?_⟩
  · rw [h.table, Table.ofList, Table.ofList, List.foldl_append]
    rfl
  · exact List.forall_mem_append.2 ⟨h.sound, List.forall_mem_singleton.2 hs⟩
  · exact List.forall_mem_append.2
      ⟨h.copied, List.forall_mem_singleton.2 ⟨k, bs, hread, hi⟩⟩

/-- What comes of filling the work further: the copy goes on, and has less than `n` steps to go; all
files were copied; or it has failed, because it was cancelled or a file cannot be copied. -/
inductive Filling (o : CopyOrder) (cancelled : Bool) (n : Nat) :
    Except Failure (Option CopyStage × SnapshotWriter) → Disk → Prop
  | goes {d : Disk} {w w' : SnapshotWriter} {t : Transfer} {rest : List (String × FileMeta)}
      (h : o.Underway d w t rest) (hleft : o.left (.copying w o.info t rest) < n) :
      Filling o cancelled n (.ok (some (.copying w o.info t rest), w')) d
  | done {d : Disk} {w : SnapshotWriter} (hc : cancelled = false)
      (h : o.Work o.table.files.rows d w) : Filling o cancelled n (.ok (none, w)) d
  | interrupted {d : Disk} {what : Interruption} (hc : cancelled = true)
      (hb : Beside o.disk o.place d) : Filling o cancelled n (.error (.error (.interrupted what))) d
  | refused {d : Disk} {e : Error} {row : String × FileMeta} (hrow : row ∈ o.table.files.rows)
      (hs : ¬ o.Sound row) (hb : Beside o.disk o.place d) :
      Filling o cancelled n (.error (.error e)) d

/-- A file that was begun is read from its start. -/
theorem Ready.reading_of_begun (h : o.Ready) (hb : Beside o.disk o.place v.disk)
    (ht : Begun v.disk o.source t)
    (hput : Puts v.disk v'.disk (o.place ++ [t.name]) (some (.file t.output []))) :
    o.Reading v'.disk t := by
  obtain ⟨node, hlookup, hinput⟩ := ht.input
  have hsource := h.item?_source hb t.name
  rw [lookup_entry (h.leads _ hb) ht.plain] at hlookup
  cases hnode : v.disk.node? (o.home ++ [t.name]) with
  | none =>
    rw [hnode] at hlookup
    cases hlookup
  | some node' =>
    rw [hnode] at hlookup
    obtain rfl := Except.ok.inj hlookup
    -- what is opened may be a directory, from which nothing can be read
    cases node' with
    | directory =>
      rw [item?_eq_directory_iff.2 hnode] at hsource
      exact .directory hsource.symm hinput ht.copied ⟨_, hput.item?_self⟩
    | file k =>
      rw [item?_eq_file_iff.2 ⟨hnode, rfl⟩] at hsource
      refine .file k _ hinput hsource.symm (ht.copied ▸ Nat.zero_le _) ?_ ?_
      · rw [ht.register, ht.copied]
        rfl
      · rw [hput.item?_self, ht.copied]
        rfl

/-- **The next file** is begun, if there is one and it can be. -/
theorem Ready.filling_nextFile (h : o.Ready) (hwork : o.Work rows v.disk w)
    (hrows : o.table.files.rows = rows ++ rest) {c : Copy} (hsource : c.source = o.source)
    (hn : o.costs rest < n) :
    Filling o c.cancelled n
      ((do return (← nextFile c w o.info rest, w) : Act Volume _).runOn v).1
      ((do return (← nextFile c w o.info rest, w) : Act Volume _).runOn v).2.disk := by
  have hb := hwork.beside
  have hnext := nextFile_openNext o.source o.info hb.wellFormed
    (hwork.directory ▸ h.leads_place hb) rest
  generalize hopen : (openNext o.source w o.info rest).runOn v = x at hnext
  rw [← hsource] at hopen
  -- three ways on: no file is left, the next one is refused, or it is opened
  cases hnext with
  | none =>
    have hrun : (nextFile c w o.info []).runOn v =
        (if c.cancelled then .error (.error (.interrupted (.copyFrom c.source.text))) else .ok none,
          v) := by
      rw [nextFile, Act.runOn_bind_ok hopen]
      cases c.cancelled <;> rfl
    rw [List.append_nil] at hrows
    cases hc : c.cancelled with
    | true =>
      rw [Act.runOn_bind_error (by rw [hrun, hc]; rfl)]
      exact .interrupted rfl hb
    | false =>
      rw [Act.runOn_bind_ok (by rw [hrun, hc]; rfl)]
      exact .done rfl (hrows ▸ hwork)
  | refused name expected rest' e why =>
    rw [Act.runOn_bind_error (by rw [nextFile, Act.runOn_bind_error hopen])]
    refine .refused (hrows ▸ List.mem_append_right _ List.mem_cons_self) (fun hs => ?_) hb
    -- a file that can be copied is opened
    have hplain := h.plain_of_sound hs
    obtain ⟨k, bs, hi⟩ := h.exists_file hs
    obtain ⟨cause, hlookup⟩ := why hs.1 hplain (hwork.files name)
    rw [← h.item?_source hb] at hi
    rw [lookup_entry (h.leads _ hb) hplain, (item?_eq_file_iff.1 hi).1] at hlookup
    cases hlookup
  | begun t rest' v' ht hput =>
    have hrun : (nextFile c w o.info ((t.name, t.expected) :: rest')).runOn v =
        (.ok (some (.copying w o.info t rest')), v') := by
      rw [nextFile, Act.runOn_bind_ok hopen]
      rfl
    rw [Act.runOn_bind_ok hrun]
    refine .goes ⟨ht.allowed, ht.plain, h.reading_of_begun hb ht hput, rows, hrows,
      hwork.put hput fun row hrow => ne_of_mem hrows hrow⟩ ?_
    rw [left, ht.copied]
    exact hn

/-! ### Pieces -/

variable {late : Bool} {granted : Nat} {c : Copy}

theorem cost_eq {bs : Bytes} (hread : o.disk.read (o.source.entry row.1) = .ok bs) :
    o.cost row = bs.length + 1 := by
  rw [cost, hread]

theorem take_add_piece {bs piece : Bytes} (hpiece : (bs.drop n).take granted = piece) :
    bs.take (n + piece.length) = bs.take n ++ piece := by
  rw [List.take_add, ← hpiece, ← List.prefix_iff_eq_take.1 (List.take_prefix granted (bs.drop n))]

/-- The sum of a file is right if the table has none, or the one that was counted. -/
theorem checkSum_eq_ok_iff {source : Path} : checkSum source t = .ok () ↔
    ∀ sum ∈ t.expected.checksum, Crc32.finish t.register = sum := by
  unfold checkSum
  cases t.expected.checksum with
  | none => simp
  | some expected => simp

/-- **A file that was copied** as a whole is the expected one, or the copy fails. -/
theorem Ready.filling_endFile (h : o.Ready) {bs : Bytes} {input : Nat}
    (hname : isAllowed t.name = true) (hn : Path.Plain t.name) (hwork : o.Work rows v.disk w)
    (hrows : o.table.files.rows = rows ++ (t.name, t.expected) :: rest)
    (hi : o.disk.item? (o.home ++ [t.name]) = some (.file input bs))
    (hregister : t.register = Crc32.feedAll Crc32.start bs)
    (ht : v.disk.item? (o.place ++ [t.name]) = some (.file t.output bs))
    (hsource : c.source = o.source) (hleft : o.costs rest < n) :
    Filling o c.cancelled n ((endFile c w o.info t rest).runOn v).1
      ((endFile c w o.info t rest).runOn v).2.disk := by
  have hread := h.read_source hn hi
  have hsum : Crc32.finish t.register = Crc32.checksum bs := by rw [hregister, Crc32.checksum]
  -- all of the file was read, so its sum tells whether the table is right about it
  have hsound : o.Sound (t.name, t.expected) ↔ checkSum c.source t = .ok () := by
    rw [checkSum_eq_ok_iff, hsum]
    refine ⟨fun ⟨_, bs', hread', hexpected⟩ => ?_, fun hexpected => ⟨hname, bs, hread, hexpected⟩⟩
    obtain rfl := Except.ok.inj (hread.symm.trans hread')
    exact hexpected
  rw [endFile]
  cases hcheck : checkSum c.source t with
  | error e =>
    rw [Act.runOn_bind_error (by rw [Act.runOn_ofExcept]; rfl)]
    have hrow : (t.name, t.expected) ∈ o.table.files.rows :=
      hrows ▸ List.mem_append_right _ List.mem_cons_self
    refine .refused hrow (fun hs => ?_) hwork.beside
    cases hcheck.symm.trans (hsound.1 hs)
  | ok u =>
    obtain ⟨v₁, hflush, hdisk⟩ := Volume.runOn_flush (v := v) w.sync t.output
    have hadd : w.addFile t.name t.expected = .ok { w with
        table := { w.table with files := w.table.files.insert t.name t.expected } } := by
      rw [SnapshotWriter.addFile, SnapshotName.check, if_pos hname]
      rfl
    rw [Act.runOn_bind_ok (Act.runOn_ofExcept_ok rfl v), Act.runOn_bind_ok hflush,
      Act.runOn_bind_ok (Act.runOn_ofExcept_ok hadd v₁)]
    have hrows' : o.table.files.rows = (rows ++ [(t.name, t.expected)]) ++ rest := by simp [hrows]
    have hwork' := hwork.add (hsound.2 hcheck) hread ht
    rw [← hdisk] at hwork'
    exact h.filling_nextFile hwork' hrows' hsource hleft

/-- **A piece that is copied** leaves the copy in the middle of its file, and nearer to its end. -/
theorem Ready.underway_after (h : o.Ready) (hu : o.Underway v.disk w t rest) {input : Nat}
    {bs piece : Bytes} (hinput : t.input = some input)
    (hi : o.disk.item? (o.home ++ [t.name]) = some (.file input bs)) (hcopied : t.copied ≤ bs.length)
    (hregister : t.register = Crc32.feedAll Crc32.start (bs.take t.copied))
    (hpiece : (bs.drop t.copied).take granted = piece) (hne : piece ≠ [])
    (hput : Puts v.disk v'.disk (o.place ++ [t.name])
      (some (.file t.output (Bytes.writeAt (bs.take t.copied) t.copied piece)))) :
    o.Underway v'.disk w (t.after piece) rest ∧
      o.left (.copying w o.info (t.after piece) rest) < o.left (.copying w o.info t rest) := by
  obtain ⟨hname, hn, -, rows, hrows, hwork⟩ := hu
  have hcost : o.cost (t.name, t.expected) = bs.length + 1 := cost_eq (h.read_source hn hi)
  have hlength : piece.length ≤ bs.length - t.copied := by
    rw [← hpiece, List.length_take, List.length_drop]
    exact Nat.min_le_right _ _
  have hsome := List.length_pos_iff.2 hne
  -- one more piece makes the first bytes that were copied longer by its length
  have htake := take_add_piece hpiece
  refine ⟨⟨hname, hn, .file input bs hinput hi ?_ ?_ ?_, rows, hrows,
    hwork.put hput fun row hrow => ne_of_mem hrows hrow⟩, ?_⟩
  · show t.copied + piece.length ≤ bs.length
    omega
  · show Crc32.feedAll t.register piece = _
    rw [Transfer.after, htake, Crc32.feedAll_append, hregister]
  · show v'.disk.item? _ = _
    rw [Transfer.after, htake, hput.item?_self]
    have hwrite := Bytes.writeAt_length (bs.take t.copied) piece
    rw [List.length_take, Nat.min_eq_left hcopied] at hwrite
    rw [hwrite]
  · show o.cost (t.name, t.expected) - (t.copied + piece.length) + _ <
      o.cost (t.name, t.expected) - t.copied + _
    rw [hcost]
    omega

/-- **A piece is copied**, and at the end of its file the next one is begun. -/
theorem Ready.filling_fillSeen (h : o.Ready) (hu : o.Underway v.disk w t rest)
    (hsource : c.source = o.source) (hpos : 0 < granted) (hgranted : granted ≤ Copy.pieceSize) :
    Filling o (c.cancelled || late) (o.left (.copying w o.info t rest))
      ((fillSeen late c granted w o.info t rest).runOn v).1
      ((fillSeen late c granted w o.info t rest).runOn v).2.disk := by
  obtain ⟨hname, hn, hreading, rows, hrows, hwork⟩ := id hu
  have hb := hwork.beside
  cases hcancelled : c.cancelled with
  | true =>
    rw [runOn_fillSeen_cancelled hcancelled]
    exact .interrupted rfl hb
  | false =>
  rw [Bool.false_or]
  cases hreading with
  | directory hi hinput hcopied ht =>
    -- nothing is read from a directory
    obtain ⟨bs, ht⟩ := ht
    have hpiece := nextPiece_nextPiece hb.wellFormed ht granted
    generalize hnext : (nextPiece granted t).runOn v = x at hpiece
    cases hpiece with
    | violated hlarge => omega
    | directory =>
      have hrow : (t.name, t.expected) ∈ o.table.files.rows :=
        hrows ▸ List.mem_append_right _ List.mem_cons_self
      rw [runOn_fillSeen_error hcancelled hnext]
      exact .refused hrow (h.not_sound_of_directory hn hi) hb
    | ended input hfile | copied input piece v' hfile => cases hinput.symm.trans hfile
  | file input bs hinput hi hcopied hregister ht =>
    have hcontent : v.disk.content input = bs := by
      rw [← h.item?_source hb] at hi
      exact (item?_eq_file_iff.1 hi).2
    have hpiece := nextPiece_nextPiece hb.wellFormed ht granted
    generalize hnext : (nextPiece granted t).runOn v = x at hpiece
    cases hpiece with
    | violated hlarge => omega
    | directory hnone => cases hnone.symm.trans hinput
    | ended input' hinput' hnil =>
      obtain rfl := Option.some.inj (hinput'.symm.trans hinput)
      rw [hcontent, List.take_eq_nil_iff, List.drop_eq_nil_iff] at hnil
      have hall : t.copied = bs.length := by omega
      rw [hall, List.take_length] at hregister ht
      rw [runOn_fillSeen_end hcancelled hnext]
      have hcost : o.cost (t.name, t.expected) = bs.length + 1 := cost_eq (h.read_source hn hi)
      have hleft : o.costs rest < o.left (.copying w o.info t rest) := by
        rw [left, hcost]
        omega
      exact h.filling_endFile (c := { c with cancelled := late }) hname hn hwork hrows hi hregister ht
        hsource hleft
    | copied input' piece v' hinput' hread hne hput =>
      obtain rfl := Option.some.inj (hinput'.symm.trans hinput)
      rw [hcontent] at hread
      obtain ⟨hu', hleft⟩ := h.underway_after hu hinput hi hcopied hregister hread hne hput
      rw [runOn_fillSeen_more hcancelled hnext]
      exact .goes hu' hleft

end CopyOrder
end RaftReplica
