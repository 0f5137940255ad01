/-
RaftReplica/Proofs/Log/Segment.lean

Segments and the rows of frames in their files.  `s.Holds d l p fs` says all that ties a segment to
the disk: its file, which is the entry of its name in the directory at `l`, is the row `fs` byte for
byte, and what the segment remembers of it is right.  A segment that holds a row is read as that row,
and each operation on it is said by the row that it holds afterwards:

* appending adds the frame of the entry (`Holds.runOn_append`);
* sealing keeps the row and changes the name (`Holds.runOn_close`);
* truncating keeps the first frames (`Holds.runOn_truncate`), and a sealed segment gets the name of
  its new range as well;
* a new segment holds the empty row (`runOn_create`), and removing one leaves nothing at its place
  (`runOn_unlink`).

On the disk all of them but the last are one relation, `Replaces`: the file that was at one place is
at another, or at the same with other bytes.  Whether a stop in between leaves something else is said
beside each operation: an append leaves some bytes of the frame, and truncating a sealed segment can
leave the file cut and not yet renamed.
-/
import RaftReplica.Log.Segment
import RaftReplica.Proofs.Disk.Crash
import RaftReplica.Proofs.Log.Encoding
import RaftReplica.Proofs.Log.FileName

namespace RaftReplica

open RaftReplica.Frame Disk

/-- The marks of the frames in a row. -/
def Frame.marksOf (fs : List Framed) : List Mark := (placed 0 fs).map fun x => ⟨x.1, x.2.term⟩

namespace Segment

/-- The place of the segment's file in the directory at `l`. -/
def place (l : Location) (s : Segment) : Location := l ++ [s.name.text]

/-- The segment is open on a file with the row `fs`, and knows where its frames stand. -/
structure Holds (d : Disk) (l : Location) (p : Path) (s : Segment) (fs : List Framed) : Prop where
  directory : s.directory = p
  file : ∃ k, s.handle = some k ∧ d.item? (s.place l) = some (.file k (bytesOf fs))
  row : Row s.first fs
  first_pos : 1 ≤ s.first
  last : s.last + 1 = s.first + fs.length
  bytes : s.bytes = (bytesOf fs).length
  marks : s.marks = marksOf fs

variable {d d' : Disk} {l : Location} {p : Path} {s : Segment} {fs : List Framed} {index : Nat}

/-- Only the file of its name matters to a segment. -/
theorem Holds.congr (h : s.Holds d l p fs) (hi : d'.item? (s.place l) = d.item? (s.place l)) :
    s.Holds d' l p fs := by
  obtain ⟨k, hk, hfile⟩ := h.file
  exact ⟨h.directory, ⟨k, hk, hi.trans hfile⟩, h.row, h.first_pos, h.last, h.bytes, h.marks⟩

/-! ### Marks -/

/-- The mark of a frame is the number of bytes before it, with its term. -/
theorem getElem?_marksOf (k : Nat) : (marksOf fs)[k]? =
    fs[k]?.map fun f => ⟨(bytesOf (fs.take k)).length, f.entry.term⟩ := by
  rw [marksOf, List.getElem?_map, getElem?_placed, Option.map_map]
  congr 1
  funext f
  show Mark.mk (0 + _) _ = _
  rw [Nat.zero_add]

/-- A frame at the end adds one mark. -/
theorem marksOf_append (f : Framed) : marksOf (fs ++ [f]) =
    marksOf fs ++ [⟨(bytesOf fs).length, f.entry.term⟩] := by
  rw [marksOf, placed_append, List.map_append, Nat.zero_add]
  rfl

/-- The marks of the first frames are the first marks. -/
theorem marksOf_take (n : Nat) : marksOf (fs.take n) = (marksOf fs).take n := by
  apply List.ext_getElem?
  intro i
  rw [List.getElem?_take, getElem?_marksOf, getElem?_marksOf, List.getElem?_take]
  split
  · next hi => rw [List.take_take, Nat.min_eq_left (by omega)]
  · rfl

/-- Where the frame at a position ends. -/
theorem Holds.endOf (h : s.Holds d l p fs) {k : Nat} (hk : k < fs.length) :
    s.endOf k = (bytesOf (fs.take (k + 1))).length := by
  rw [Segment.endOf, h.marks, getElem?_marksOf, h.bytes]
  by_cases hlast : k + 1 < fs.length
  · rw [List.getElem?_eq_getElem hlast]
    rfl
  · rw [List.getElem?_eq_none (by omega), List.take_of_length_le (by omega)]
    rfl

/-- Where the frame at a position starts, or the file ends. -/
theorem Holds.startOf (h : s.Holds d l p fs) {k : Nat} (hk : k ≤ fs.length) :
    (s.marks[k]?.map Mark.offset).getD s.bytes = (bytesOf (fs.take k)).length := by
  rw [h.marks, getElem?_marksOf, h.bytes]
  by_cases hlt : k < fs.length
  · rw [List.getElem?_eq_getElem hlt]
    rfl
  · rw [List.getElem?_eq_none (by omega), List.take_of_length_le (by omega)]
    rfl

/-! ### Reading -/

/-- A slice between two lengths is what stands between them. -/
theorem slice_append (a b c : Bytes) :
    slice (a ++ (b ++ c)) a.length (a ++ b).length = .ok b := by
  have hlen : (a ++ b).length - a.length = b.length := by
    rw [List.length_append]
    omega
  rw [slice, List.drop_left, hlen, List.take_left, if_neg (Nat.lt_irrefl _)]

/-- A segment covers the indices of its row. -/
theorem Holds.covers_iff (h : s.Holds d l p fs) :
    s.covers index = true ↔ s.first ≤ index ∧ index - s.first < fs.length := by
  have hlast := h.last
  have hpos := h.first_pos
  rw [covers, Bool.and_eq_true, decide_eq_true_eq, decide_eq_true_eq]
  omega

/-- **A segment is read** as the row that it holds. -/
theorem Holds.get (h : s.Holds d l p fs) (index : Nat) :
    s.get index d =
      .ok (if s.first ≤ index then fs[index - s.first]?.map Framed.entry else none) := by
  rw [Segment.get]
  -- inside the range a mark says where the frame is; outside nothing is read
  by_cases hcov : s.covers index = true
  · obtain ⟨hfirst, hlt⟩ := h.covers_iff.1 hcov
    obtain ⟨k, hk, hfile⟩ := h.file
    have hf : fs[index - s.first]? = some fs[index - s.first] := List.getElem?_eq_getElem hlt
    generalize fs[index - s.first] = f at hf
    have hmark : s.mark index =
        .ok ⟨(bytesOf (fs.take (index - s.first))).length, f.entry.term⟩ := by
      rw [mark, h.marks, getElem?_marksOf, hf]
      rfl
    have hslice : slice (d.content k) (bytesOf (fs.take (index - s.first))).length
        (s.endOf (index - s.first)) = .ok f.bytes := by
      rw [(item?_eq_file_iff.1 hfile).2, h.endOf hlt, bytesOf_take_succ hf]
      conv => lhs; rw [bytesOf_split hf]
      exact slice_append _ _ _
    have hdecode : decode index f.bytes = .ok f.entry := by
      have hwhole := h.row.getElem? hf
      rw [Nat.add_sub_cancel' hfirst] at hwhole
      exact hwhole.decode
    -- what the segment remembers leads to the frame, and the frame is decoded
    rw [if_pos hcov, if_pos hfirst, hf, hmark]
    simp only [Segment.file, hk]
    show ((slice _ _ _).mapError Failure.error >>= fun bs => _) = _
    rw [hslice]
    show ((decode index f.bytes).mapError _ >>= fun e => _) = _
    rw [hdecode]
    rfl
  · rw [if_neg hcov]
    have hout := mt h.covers_iff.2 hcov
    split
    · next hfirst =>
      rw [List.getElem?_eq_none (by omega)]
      rfl
    · rfl

/-- The term is known without reading the file, since it stands in the mark. -/
theorem Holds.term (h : s.Holds d l p fs) (index : Nat) : s.term index =
    .ok (((if s.first ≤ index then fs[index - s.first]? else none).map (·.entry.term)).getD 0) := by
  rw [Segment.term]
  by_cases hcov : s.covers index = true
  · obtain ⟨hfirst, hlt⟩ := h.covers_iff.1 hcov
    rw [if_pos hcov, if_pos hfirst, mark, h.marks, getElem?_marksOf, List.getElem?_eq_getElem hlt]
    rfl
  · rw [if_neg hcov]
    have hout := mt h.covers_iff.2 hcov
    split
    · next hfirst =>
      rw [List.getElem?_eq_none (by omega)]
      rfl
    · rfl

/-! ### Writing -/

variable {v : Volume} {e : Entry} {k : Nat}

theorem place_eq_of_name {s' : Segment} (h : s'.name = s.name) : s'.place l = s.place l := by
  rw [place, place, h]

/-- The disk `d'` is `d` with the file of `s'` in the place of that of `s`. -/
structure Replaces (d d' : Disk) (l : Location) (s s' : Segment) : Prop where
  wellFormed : d'.WellFormed
  item? : ∃ item, item ≠ Item.directory ∧ d'.item? =
    Function.update (Function.update d.item? (s.place l) none) (s'.place l) (some item)

/-- Every other place keeps what it has. -/
theorem Replaces.item?_ne {s' : Segment} (h : Replaces d d' l s s') {m : Location}
    (hm : m ≠ s.place l) (hm' : m ≠ s'.place l) : d'.item? m = d.item? m := by
  obtain ⟨item, -, hi⟩ := h.item?
  rw [hi, Function.update_of_ne hm', Function.update_of_ne hm]

/-- Replacing a file leads every path where it led. -/
theorem Replaces.directoryAt {s' : Segment} {q : Path} {m : Location}
    (h : Replaces d d' l s s') (hs : d.item? (s.place l) ≠ some .directory)
    (hs' : d.item? (s'.place l) ≠ some .directory) (home : d.directoryAt q = .ok m) :
    d'.directoryAt q = .ok m := by
  obtain ⟨item, -, hi⟩ := h.item?
  exact directoryAt_of_renamed hi hs hs' home

/-- Other content for a file in its place. -/
theorem replaces_of_puts {s' : Segment} {item : Item} (h : Puts d d' (s.place l) (some item))
    (hitem : item ≠ .directory) (hname : s'.name = s.name) : Replaces d d' l s s' := by
  refine ⟨h.wellFormed, item, hitem, ?_⟩
  rw [place_eq_of_name hname, Function.update_idem]
  exact h.item?

/-- There is a file at the place of a segment, so no directory is. -/
theorem Holds.item?_ne_directory (h : s.Holds d l p fs) :
    d.item? (s.place l) ≠ some .directory := by
  obtain ⟨k, -, hfile⟩ := h.file
  rw [hfile]
  simp

theorem place_inj {s' : Segment} : s.place l = s'.place l ↔ s.name = s'.name := by
  rw [place, place, append_name_inj]
  exact SegmentName.text_injective.eq_iff

/-- A sealed name can be written if its range is not empty and in bounds. -/
theorem fits_name_of_closed (h : s.isOpen = false) :
    s.name.Fits ↔ s.first ≤ s.last ∧ s.last ≤ Numeral.max64 := by
  rw [Segment.name, h]
  rfl

theorem fits_name_of_open (h : s.isOpen = true) : s.name.Fits ↔ s.first ≤ Numeral.max64 := by
  rw [Segment.name, h]
  rfl

theorem path_eq (h : s.directory = p) : s.path = p.entry s.name.text := by rw [path, h]

/-- A flush changes nothing that can be read. -/
theorem runOn_flush (sync : Bool) (s : Segment) :
    ∃ v', (s.flush sync).runOn v = (.ok (), v') ∧ v'.disk = v.disk := by
  unfold Segment.flush
  cases s.handle with
  | none => exact ⟨v, rfl, rfl⟩
  | some k => exact Volume.runOn_flush sync k

/-- The segment with the frame of one more entry. -/
def grown (s : Segment) (e : Entry) : Segment :=
  { s with
    last := s.last + 1
    bytes := s.bytes + (framed e).bytes.length
    marks := s.marks ++ [⟨s.bytes, e.term⟩] }

/-- The frame of the next entry is put behind what is in the file, whatever that is.  Until then
some of the frame's bytes may be there. -/
theorem runOn_append_file {bs : Bytes} (hw : v.disk.WellFormed) (hopen : s.isOpen = true)
    (hk : s.handle = some k) (hfile : v.disk.item? (s.place l) = some (.file k bs))
    (hend : s.bytes = bs.length) (he : encode e = .ok (framed e).bytes)
    (hindex : e.index = s.last + 1) :
    ∃ v', (s.append e).runOn v = (.ok (s.grown e), v') ∧
      Puts v.disk v'.disk (s.place l) (some (.file k (bs ++ (framed e).bytes))) ∧
      Volume.Passes (fun d => ∃ n, Puts v.disk d (s.place l)
        (some (.file k (bs ++ (framed e).bytes.take n)))) v v' := by
  obtain ⟨v', hwrite, hput⟩ := Volume.runOn_write hw hfile hend (framed e).bytes
  have hhandle : s.file = .ok k := by rw [Segment.file, hk]
  refine ⟨v', ?_, hput, Volume.passes_write hw hfile hend hwrite⟩
  rw [Segment.append, Act.runOn_bind_ok (Act.runOn_require_of hopen _ _),
    Act.runOn_bind_ok (Act.runOn_require_of (decide_eq_true hindex) _ _),
    Act.runOn_bind_ok (Act.runOn_ofExcept_ok he _),
    Act.runOn_bind_ok (Act.runOn_ofExcept_ok hhandle _), Act.runOn_bind_ok hwrite]
  rfl

/-- An open segment grows by the frame of the next entry.  Until then some of the frame's bytes may
be in its file. -/
theorem Holds.runOn_append (h : s.Holds v.disk l p fs) (hw : v.disk.WellFormed)
    (hopen : s.isOpen = true) (he : e.Fits) (hindex : e.index = s.last + 1) :
    ∃ s' v', (s.append e).runOn v = (.ok s', v') ∧ Replaces v.disk v'.disk l s s' ∧
      s'.Holds v'.disk l p (fs ++ [framed e]) ∧ s'.first = s.first ∧ s'.name = s.name ∧
      ∃ k, v.disk.item? (s.place l) = some (.file k (bytesOf fs)) ∧
        Puts v.disk v'.disk (s.place l) (some (.file k (bytesOf fs ++ (framed e).bytes))) ∧
        Volume.Passes (fun d => ∃ n, Puts v.disk d (s.place l)
          (some (.file k (bytesOf fs ++ (framed e).bytes.take n)))) v v' := by
  obtain ⟨k, hk, hfile⟩ := h.file
  obtain ⟨v', hrun, hput, hpass⟩ :=
    runOn_append_file hw hopen hk hfile h.bytes (encode_eq he) hindex
  have hname : (s.grown e).name = s.name := by simp [grown, Segment.name, hopen]
  refine ⟨s.grown e, v', hrun, replaces_of_puts hput (by simp) hname,
    ⟨h.directory, ⟨k, hk, ?_⟩, ?_, h.first_pos, ?_, ?_, ?_⟩, rfl, hname, k, hfile, hput, hpass⟩
  · rw [place_eq_of_name hname, hput.item?_self, bytesOf_concat]
  -- the frame stands where the index of the entry says
  · refine row_append_iff.2 ⟨h.row, ?_, trivial⟩
    show Framed.Whole (s.first + fs.length) (framed e)
    rw [← h.last, ← hindex]
    exact whole_framed he
  · show s.last + 1 + 1 = s.first + (fs ++ [framed e]).length
    rw [List.length_append, List.length_singleton, h.last, Nat.add_assoc]
  · show s.bytes + _ = _
    rw [bytesOf_concat, List.length_append, h.bytes]
  · show s.marks ++ _ = _
    rw [marksOf_append, h.marks, h.bytes]
    rfl

/-- A new segment has an empty file. -/
theorem runOn_create (hw : v.disk.WellFormed) (home : v.disk.directoryAt p = .ok l) {first : Nat}
    (hpos : 1 ≤ first) (hplace : v.disk.item? ((fresh p first).place l) ≠ some .directory) :
    ∃ s v', ((fresh p first).create).runOn v = (.ok s, v') ∧ Replaces v.disk v'.disk l s s ∧
      s.Holds v'.disk l p [] ∧ s.first = first ∧ s.name = .writable first := by
  obtain ⟨k, v', hcreate, hput⟩ := Volume.runOn_create home (SegmentName.plain_text _) hw hplace
  refine ⟨{ fresh p first with handle := some k }, v', ?_, replaces_of_puts hput (by simp) rfl,
    ⟨rfl, ⟨k, rfl, hput.item?_self⟩, trivial, hpos, ?_, rfl, rfl⟩, rfl, rfl⟩
  · rw [Segment.create]
    show Act.runOn (Volume.create (p.entry (fresh p first).name.text) >>= _) v = _
    rw [Act.runOn_bind_ok hcreate]
    rfl
  · show first - 1 + 1 = first + 0
    omega

/-- Sealing a segment gives its file another name, whatever is in it. -/
theorem runOn_close_file {s' : Segment} {bs : Bytes} (hdir : s.directory = p)
    (hw : v.disk.WellFormed) (home : v.disk.directoryAt p = .ok l) (hopen : s.isOpen = true)
    (sync : Bool) (hfile : v.disk.item? (s.place l) = some (.file k bs))
    (hs' : s' = { s with isOpen := false })
    (hplace : v.disk.item? (s'.place l) ≠ some .directory) :
    ∃ v', (s.close sync).runOn v = (.ok s', v') ∧ Replaces v.disk v'.disk l s s' ∧
      v'.disk.item? (s'.place l) = some (.file k bs) := by
  -- a sealed name is another one, so the file really moves
  have hne : s.name.text ≠ s'.name.text := by
    intro he
    have hname := SegmentName.text_injective he
    simp [Segment.name, hopen, hs'] at hname
  -- flushing leaves the disk as it is, so only the name changes
  obtain ⟨v₁, hflush, hdisk⟩ := runOn_flush (v := v) sync s
  rw [← hdisk] at hw home hfile hplace ⊢
  obtain ⟨v₂, hrename, hw₂, hitems⟩ := Volume.runOn_rename home (SegmentName.plain_text _) hw
    (SegmentName.plain_text _) hne hfile hplace
  have hpath : s'.path = p.entry s'.name.text := path_eq (by rw [hs', hdir])
  refine ⟨v₂, ?_, ⟨hw₂, .file k bs, by simp, hitems⟩, ?_⟩
  · rw [Segment.close, Act.runOn_bind_ok (Act.runOn_require_of hopen _ _),
      Act.runOn_bind_ok hflush, path_eq hdir, ← hs']
    dsimp only
    rw [hpath, Act.runOn_bind_ok hrename]
    rfl
  · rw [hitems]
    exact Function.update_self _ _ _

/-- Sealing a segment changes its name and nothing else. -/
theorem Holds.runOn_close (h : s.Holds v.disk l p fs) (hw : v.disk.WellFormed)
    (home : v.disk.directoryAt p = .ok l) (hopen : s.isOpen = true) (sync : Bool)
    {s' : Segment} (hs' : s' = { s with isOpen := false })
    (hplace : v.disk.item? (s'.place l) ≠ some .directory) :
    ∃ v', (s.close sync).runOn v = (.ok s', v') ∧ Replaces v.disk v'.disk l s s' ∧
      s'.Holds v'.disk l p fs := by
  obtain ⟨k, hk, hfile⟩ := h.file
  obtain ⟨v', hrun, hreplaces, hfile'⟩ :=
    runOn_close_file h.directory hw home hopen sync hfile hs' hplace
  exact ⟨v', hrun, hreplaces, by rw [hs', h.directory], ⟨k, by rw [hs', hk], hfile'⟩,
    by rw [hs']; exact h.row, by rw [hs']; exact h.first_pos, by rw [hs']; exact h.last,
    by rw [hs']; exact h.bytes, by rw [hs']; exact h.marks⟩

/-- Nothing is cut off behind the end. -/
theorem runOn_truncate_of_le {kept : Nat} (h : s.last ≤ kept) :
    (s.truncate kept).runOn v = (.ok s, v) := by
  rw [Segment.truncate, if_pos h]
  rfl

/-- The segment with the first `count` frames of its row, the last one at `kept`. -/
def cut (s : Segment) (kept count : Nat) (fs : List Framed) : Segment :=
  { s with
    last := kept
    bytes := (bytesOf (fs.take count)).length
    marks := s.marks.take count }

/-- The first frames of a row make a row for the segment that is cut there. -/
theorem Holds.cut (h : s.Holds d l p fs) {kept count : Nat} (hcount : count ≤ fs.length)
    (hkept : kept + 1 = s.first + count) (hk : s.handle = some k)
    (hfile : d'.item? ((s.cut kept count fs).place l) = some (.file k (bytesOf (fs.take count)))) :
    (s.cut kept count fs).Holds d' l p (fs.take count) := by
  refine ⟨h.directory, ⟨k, hk, hfile⟩, h.row.take count, h.first_pos, ?_, rfl, ?_⟩
  · rw [List.length_take_of_le hcount]
    exact hkept
  · rw [marksOf_take, ← h.marks]
    rfl

/-- What is cut off leaves the frames before it; a sealed segment goes by its new name.  Until it
does, its file is cut already. -/
theorem Holds.runOn_truncate (h : s.Holds v.disk l p fs) (hw : v.disk.WellFormed)
    (home : v.disk.directoryAt p = .ok l) {kept : Nat} (hfirst : s.first ≤ kept + 1)
    (hlast : kept < s.last) {s' : Segment} (hs' : s' = s.cut kept (kept + 1 - s.first) fs)
    (hplace : v.disk.item? (s'.place l) ≠ some .directory) :
    ∃ v', (s.truncate kept).runOn v = (.ok s', v') ∧ Replaces v.disk v'.disk l s s' ∧
      s'.Holds v'.disk l p (fs.take (kept + 1 - s.first)) ∧
      Volume.Passes (fun d => d = v.disk ∨ d = v'.disk ∨ s.isOpen = false ∧ ∃ k,
        Puts v.disk d (s.place l) (some (.file k (bytesOf (fs.take (kept + 1 - s.first)))))) v v' := by
  obtain ⟨k, hk, hfile⟩ := h.file
  have hend := h.last
  -- how many frames stay
  generalize hcount : kept + 1 - s.first = count at hs' ⊢
  have hlen : count ≤ fs.length := by omega
  have hkept : kept + 1 = s.first + count := by omega
  have hhandle : s.file = .ok k := by rw [Segment.file, hk]
  obtain ⟨v₁, hset, hput⟩ := Volume.runOn_setLength hw hfile (length_bytesOf_take_le count fs)
  rw [take_bytesOf] at hput
  have hstart : (s.truncate kept).runOn v =
      (if !s.isOpen then do Volume.rename s.path s'.path; return s' else return s').runOn v₁ := by
    rw [Segment.truncate, if_neg (by omega),
      Act.runOn_bind_ok (Act.runOn_require_of (decide_eq_true hfirst) _ _)]
    dsimp only
    rw [hcount, h.startOf hlen, Act.runOn_bind_ok (Act.runOn_ofExcept_ok hhandle _),
      Act.runOn_bind_ok hset, hs']
    rfl
  rw [hstart]
  subst hs'
  -- only the name of a sealed segment tells its last index
  cases hopen : s.isOpen with
  | true =>
    have hname : (s.cut kept count fs).name = s.name := by simp [Segment.cut, Segment.name, hopen]
    refine ⟨v₁, rfl, replaces_of_puts hput (by simp) hname, h.cut hlen hkept hk ?_,
      (Volume.atomic_setLength _ _).passes hset (.inl rfl) (.inr (.inl rfl))⟩
    rw [place_eq_of_name hname]
    exact hput.item?_self
  | false =>
    have hne : s.name.text ≠ (s.cut kept count fs).name.text := by
      intro he
      have hname := SegmentName.text_injective he
      simp only [Segment.cut, Segment.name, hopen] at hname
      have hsame := (SegmentName.sealed.inj hname).2
      omega
    have hplace₁ : v₁.disk.item? ((s.cut kept count fs).place l) ≠ some .directory := by
      have hother : (s.cut kept count fs).place l ≠ s.place l :=
        fun he => hne (append_name_inj.1 he).symm
      rw [hput.item?_ne hother]
      exact hplace
    obtain ⟨v₂, hrename, hw₂, hitems⟩ := Volume.runOn_rename
      (hput.directoryAt h.item?_ne_directory home) (SegmentName.plain_text _) hput.wellFormed
      (SegmentName.plain_text _) hne hput.item?_self hplace₁
    have hbetween : ∃ k, Puts v.disk v₁.disk (s.place l) (some (.file k (bytesOf (fs.take count)))) :=
      ⟨k, hput⟩
    refine ⟨v₂, ?_, ⟨hw₂, .file k (bytesOf (fs.take count)), ?_, ?_⟩, h.cut hlen hkept hk ?_,
      ((Volume.atomic_setLength _ _).passes hset (.inl rfl) (.inr (.inr ⟨rfl, hbetween⟩))).trans
        ((Volume.atomic_rename _ _).passes hrename (.inr (.inr ⟨rfl, hbetween⟩))
          (.inr (.inl rfl)))⟩
    · rw [path_eq h.directory, path_eq (s := s.cut kept count fs) h.directory]
      show Act.runOn (Volume.rename _ _ >>= _) v₁ = _
      rw [Act.runOn_bind_ok hrename]
      rfl
    · simp
    · rw [hitems, hput.item?, show l ++ [s.name.text] = s.place l from rfl, Function.update_idem]
      rfl
    · rw [hitems]
      exact Function.update_self _ _ _

/-- Removing the file of a segment, if nothing but a file has its name. -/
theorem runOn_unlink (hw : v.disk.WellFormed) (home : v.disk.directoryAt p = .ok l)
    (hdir : s.directory = p) (hi : v.disk.item? (s.place l) ≠ some .directory) :
    ∃ v', (s.unlink).runOn v = (.ok (), v') ∧ Puts v.disk v'.disk (s.place l) none := by
  rw [Segment.unlink, Act.runOn_ofStep, path_eq hdir]
  -- a file that is gone already counts as removed
  cases hitem : v.disk.item? (s.place l) with
  | none =>
    rw [Volume.runOn_removeFile_missing home (SegmentName.plain_text _) hitem]
    refine ⟨v, rfl, hw, ?_⟩
    rw [← hitem, Function.update_eq_self]
  | some item =>
    cases item with
    | directory => exact absurd hitem hi
    | file k bs =>
      obtain ⟨v', hremove, hput⟩ :=
        Volume.runOn_removeFile home (SegmentName.plain_text _) hw hitem
      rw [hremove]
      exact ⟨v', rfl, hput⟩

/-- A directory in place of the file is not removed. -/
theorem runOn_unlink_directory (home : v.disk.directoryAt p = .ok l) (hdir : s.directory = p)
    (hi : v.disk.item? (s.place l) = some .directory) :
    (s.unlink).runOn v = (.error (.error (.io .isDirectory)), v) := by
  rw [Segment.unlink, Act.runOn_ofStep, path_eq hdir,
    Volume.runOn_removeFile_directory home (SegmentName.plain_text _) hi]

/-! ### What is left of operations that were cut short -/

/-- A stop during a flush leaves the disk as it was. -/
theorem quiet_flush (sync : Bool) (s : Segment) : Volume.Quiet (s.flush sync) := by
  unfold Segment.flush
  cases s.handle with
  | none => exact Volume.quiet_pure ()
  | some k => exact Volume.quiet_flush sync k

theorem atomic_create (s : Segment) : Volume.Atomic s.create :=
  .behind (Volume.quiet_require _ _) fun _ =>
    .before (Volume.atomic_create _) fun _ => Volume.quiet_pure _

theorem atomic_close (sync : Bool) (s : Segment) : Volume.Atomic (s.close sync) :=
  .behind (Volume.quiet_require _ _) fun _ => .behind (s.quiet_flush sync) fun _ =>
    .before (Volume.atomic_rename _ _) fun _ => Volume.quiet_pure _

/-- A segment is removed at once, or not at all. -/
theorem atomic_unlink (s : Segment) : Volume.Atomic s.unlink := by
  have hsame (v : Volume) : (s.unlink.runOn v).2 = ((Volume.removeFile s.path).runOn v).2 := by
    rw [Segment.unlink, Act.runOn_ofStep]
    rcases (Volume.removeFile s.path).runOn v with ⟨r, v'⟩
    dsimp only
    split
    · next he => exact (Prod.mk.inj he).2.symm
    · rfl
  intro v P hP hP'
  rw [hsame] at hP' ⊢
  exact Volume.atomic_removeFile _ v P hP hP'

end Segment
end RaftReplica
