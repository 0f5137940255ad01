/-
RaftReplica/Proofs/Log/Written.lean

What a run of appends leaves.  Entries at indexes that follow one another, written to a new segment
one after the other, stand in its file frame by frame, and the segment is the one that knows where
(`runOn_record`).  Nothing is asked of the entries but that their bodies are not too large, so this
also holds of entries that cannot be read again.

The segment in memory after each append is described as the one that reading the file would give,
`(fresh p first).opened k fs` for the frames written so far; so the induction needs no description
of its own, and what is known of segments that were read is known of those that were
written.  Sealing the segment at the end is optional (`recordAs`), because a file is read in the same
way under both names.
-/
import RaftReplica.Proofs.Log.Loading

namespace RaftReplica

open RaftReplica.Frame Disk

/-- The indexes of the entries follow one another, from `first` on. -/
def Consecutive : Nat → List Entry → Prop
  | _, [] => True
  | first, e :: es => e.index = first ∧ Consecutive (first + 1) es

namespace Frame

variable {first : Nat} {e : Entry} {es : List Entry}

/-- The frames of the entries, one after the other. -/
def encoding (es : List Entry) : Bytes := bytesOf (es.map framed)

/-- The frame of the entry is not refused for its size. -/
def Sized (e : Entry) : Prop := (body e).length ≤ Numeral.max32

instance (e : Entry) : Decidable (Sized e) :=
  inferInstanceAs (Decidable ((body e).length ≤ Numeral.max32))

theorem encode_of_sized (he : Sized e) : encode e = .ok (framed e).bytes := by
  rw [encode, if_neg (Nat.not_lt.2 he)]
  rfl

theorem map_entry_framed (es : List Entry) : (es.map framed).map Framed.entry = es := by
  rw [List.map_map]
  exact List.map_id es

/-- Every entry takes some bytes. -/
theorem encoding_ne_nil (h : es ≠ []) : encoding es ≠ [] := by
  obtain ⟨e, es, rfl⟩ := List.exists_cons_of_ne_nil h
  have hlen := length_bytes (headerOf e (body e))
  have hhead : (headerOf e (body e)).bytes ≠ [] :=
    List.ne_nil_of_length_pos (by rw [hlen]; exact Nat.succ_pos _)
  exact List.append_ne_nil_of_left_ne_nil (List.append_ne_nil_of_left_ne_nil hhead _) _

/-- Entries that can be told stand in a row. -/
theorem row_framed (hes : Consecutive first es) (hfits : ∀ e ∈ es, e.Fits) :
    Row first (es.map framed) := by
  induction es generalizing first with
  | nil => trivial
  | cons e es ih =>
    obtain ⟨hindex, hes⟩ := hes
    refine ⟨?_, ih hes fun x hx => hfits x (List.mem_cons_of_mem _ hx)⟩
    rw [← hindex]
    exact whole_framed (hfits e List.mem_cons_self)

end Frame

namespace Segment

/-- Appends the entries. -/
def appendAll (es : List Entry) (s : Segment) : Act Volume Segment :=
  es.foldlM (fun s e => Segment.append e s) s

/-- Makes the file of a segment from `first` on and appends the entries to it. -/
def record (p : Path) (first : Nat) (es : List Entry) : Act Volume Segment := do
  appendAll es (← (fresh p first).create)

/-- The segment that was made so; if it is sealed, `closing` tells whether it is flushed first. -/
def recordAs (closing : Option Bool) (p : Path) (first : Nat) (es : List Entry) :
    Act Volume Segment := do
  let s ← record p first es
  match closing with
  | none => return s
  | some sync => s.close sync

/-- The name of its file. -/
def nameAs (closing : Option Bool) (first : Nat) (es : List Entry) : SegmentName :=
  match closing with
  | none => .writable first
  | some _ => .sealed first (first + es.length - 1)

variable {v : Volume} {l : Location} {p : Path} {first k : Nat} {fs : List Framed} {e : Entry}
  {es : List Entry}

/-- The file of a segment is read where its name is. -/
theorem read_path {d : Disk} {s : Segment} {bs : Bytes} (home : d.directoryAt p = .ok l)
    (hdir : s.directory = p) (hi : d.item? (s.place l) = some (.file k bs)) :
    d.read s.path = .ok bs := by
  rw [path_eq hdir, read_entry home (SegmentName.plain_text _), show l ++ [s.name.text] = s.place l
    from rfl, hi]

theorem first_nameAs (closing : Option Bool) : (nameAs closing first es).first = first := by
  cases closing <;> rfl

/-- The segment of a row grows by the frame of the next entry, whether or not its frames can be
read. -/
theorem runOn_append_opened (hw : v.disk.WellFormed) (hfirst : 1 ≤ first) (he : Sized e)
    (hindex : e.index = first + fs.length)
    (hi : v.disk.item? ((fresh p first).place l) = some (.file k (bytesOf fs))) :
    ∃ v', (((fresh p first).opened k fs).append e).runOn v =
        (.ok ((fresh p first).opened k (fs ++ [framed e])), v') ∧
      Puts v.disk v'.disk ((fresh p first).place l)
        (some (.file k (bytesOf (fs ++ [framed e])))) := by
  have hlast : ((fresh p first).opened k fs).last + 1 = first + fs.length := last_opened hfirst
  have hlast' : ((fresh p first).opened k (fs ++ [framed e])).last =
      ((fresh p first).opened k fs).last + 1 := by
    have hgrown : ((fresh p first).opened k (fs ++ [framed e])).last + 1 =
        first + (fs ++ [framed e]).length := last_opened hfirst
    rw [List.length_append, List.length_singleton] at hgrown
    omega
  -- the mark of the new frame is where the file ended
  have hgrown : ((fresh p first).opened k fs).grown e =
      (fresh p first).opened k (fs ++ [framed e]) := by
    show Segment.mk p first (((fresh p first).opened k fs).last + 1) true
      ((bytesOf fs).length + (framed e).bytes.length)
      (marksOf fs ++ [⟨(bytesOf fs).length, (framed e).entry.term⟩]) (some k) = _
    rw [← hlast', ← List.length_append, ← bytesOf_concat, ← marksOf_append]
    rfl
  obtain ⟨v', hrun, hput, -⟩ := runOn_append_file hw (s := (fresh p first).opened k fs) rfl rfl hi
    rfl (encode_of_sized he) (hindex.trans hlast.symm)
  rw [hgrown] at hrun
  rw [← bytesOf_concat] at hput
  exact ⟨v', hrun, hput⟩

/-- So it does with each of the entries. -/
theorem runOn_append_all (hw : v.disk.WellFormed) (hfirst : 1 ≤ first)
    (hes : Consecutive (first + fs.length) es) (hsize : ∀ e ∈ es, Sized e)
    (hi : v.disk.item? ((fresh p first).place l) = some (.file k (bytesOf fs))) :
    ∃ v', (((fresh p first).opened k fs).appendAll es).runOn v =
        (.ok ((fresh p first).opened k (fs ++ es.map framed)), v') ∧
      Puts v.disk v'.disk ((fresh p first).place l)
        (some (.file k (bytesOf (fs ++ es.map framed)))) := by
  -- on the entries, with `fs` written so far
  induction es generalizing v fs with
  | nil =>
    rw [List.map_nil, List.append_nil]
    exact ⟨v, rfl, hw.puts hi⟩
  | cons e es ih =>
    obtain ⟨hindex, hes⟩ := hes
    obtain ⟨v₁, happend, hput₁⟩ :=
      runOn_append_opened hw hfirst (hsize e List.mem_cons_self) hindex hi
    have hes : Consecutive (first + (fs ++ [framed e]).length) es := by
      rwa [List.length_append, List.length_singleton, ← Nat.add_assoc]
    obtain ⟨v₂, hrest, hput₂⟩ := ih hput₁.wellFormed hes
      (fun x hx => hsize x (List.mem_cons_of_mem _ hx)) hput₁.item?_self
    rw [List.append_assoc] at hrest hput₂
    refine ⟨v₂, ?_, hput₁.trans hput₂⟩
    rw [appendAll, List.foldlM_cons, Act.runOn_bind_ok happend]
    exact hrest

section

variable (hw : v.disk.WellFormed) (home : v.disk.directoryAt p = .ok l) (hfirst : 1 ≤ first)
  (hes : Consecutive first es) (hsize : ∀ e ∈ es, Sized e)

include hw home hfirst hes hsize

/-- **Entries that are written** to a new segment stand in its file frame by frame. -/
theorem runOn_record (hplace : v.disk.item? ((fresh p first).place l) ≠ some .directory) :
    ∃ k v', (record p first es).runOn v =
      (.ok ((fresh p first).opened k (es.map framed)), v') ∧
    Puts v.disk v'.disk ((fresh p first).place l) (some (.file k (encoding es))) := by
  obtain ⟨k, v₁, hcreate, hput₁⟩ :=
    Volume.runOn_create home (SegmentName.plain_text _) hw hplace
  have hnew : (fresh p first).create.runOn v = (.ok ((fresh p first).opened k []), v₁) := by
    rw [Segment.create]
    show Act.runOn (Volume.create (p.entry (fresh p first).name.text) >>= _) v = _
    rw [Act.runOn_bind_ok hcreate]
    rfl
  have hbehind : Consecutive (first + ([] : List Framed).length) es := hes
  obtain ⟨v₂, hrun, hput₂⟩ := runOn_append_all hput₁.wellFormed hfirst hbehind hsize
    hput₁.item?_self
  rw [List.nil_append] at hrun hput₂
  refine ⟨k, v₂, ?_, Puts.trans hput₁ hput₂⟩
  rw [record, Act.runOn_bind_ok hnew]
  exact hrun

/-- Whether the segment is left open or sealed, the file of its name holds the frames. -/
theorem runOn_recordAs (closing : Option Bool)
    (hplaces : ∀ c, v.disk.item? (l ++ [(nameAs c first es).text]) ≠ some .directory) :
    ∃ s k v', (recordAs closing p first es).runOn v = (.ok s, v') ∧ s.directory = p ∧
      s.name = nameAs closing first es ∧ v'.disk.WellFormed ∧ v'.disk.directoryAt p = .ok l ∧
      v'.disk.item? (s.place l) = some (.file k (encoding es)) := by
  have hopen : v.disk.item? ((fresh p first).place l) ≠ some .directory := hplaces none
  obtain ⟨k, v₁, hrecord, hput⟩ := runOn_record hw home hfirst hes hsize hopen
  have home₁ : v₁.disk.directoryAt p = .ok l := hput.directoryAt hopen home
  generalize hs : (fresh p first).opened k (es.map framed) = s at hrecord
  have hdir : s.directory = p := by rw [← hs]; rfl
  have hname : s.name = .writable first := by rw [← hs]; rfl
  rw [show (fresh p first).place l = s.place l from place_eq_of_name (by rw [hname]; rfl)] at hput
  rw [recordAs, Act.runOn_bind_ok hrecord]
  -- the segment stays open, or is sealed and gets another name
  cases closing with
  | none => exact ⟨s, k, v₁, rfl, hdir, hname, hput.wellFormed, home₁, hput.item?_self⟩
  | some sync =>
    let s' : Segment := { s with isOpen := false }
    have hname' : s'.name = nameAs (some sync) first es := by
      show SegmentName.sealed s.first s.last = _
      rw [← hs]
      show SegmentName.sealed first (first + (placed 0 (es.map framed)).length - 1) = _
      rw [length_placed, List.length_map]
      rfl
    have hne : s'.name ≠ s.name := by
      rw [hname, hname']
      exact nofun
    have hplace : v₁.disk.item? (s'.place l) ≠ some .directory := by
      rw [hput.item?_ne (mt place_inj.1 hne), place, hname']
      exact hplaces (some sync)
    obtain ⟨v₂, hclose, hreplaces, hfile⟩ := runOn_close_file hdir hput.wellFormed home₁
      (by rw [← hs]; rfl) sync hput.item?_self rfl hplace
    have home₂ : v₂.disk.directoryAt p = .ok l :=
      hreplaces.directoryAt (by rw [hput.item?_self]; simp) hplace home₁
    exact ⟨s', k, v₂, hclose, hdir, hname', hreplaces.wellFormed, home₂, hfile⟩

end

end Segment
end RaftReplica
