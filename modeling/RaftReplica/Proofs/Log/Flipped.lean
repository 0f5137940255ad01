/-
RaftReplica/Proofs/Log/Flipped.lean

A changed byte in a segment file is noticed, wherever it is.  In a header it is noticed by the
checksum of the header, before anything in the header is believed; so a changed length is never
taken for a write that was cut short.  In a body it is noticed by the checksum that the header
tells.  Whatever stands in front of the frame with the byte is read as before or cannot be read at
all, and reading ends there at the latest (`readFrom_flip`); so the segment is not loaded, and
nothing is cut off (`flipped_refused`).

The position of the byte decides between three cases of one frame:

* among the covered bytes of the header: the checksum that is computed differs;
* in the checksum itself: the one that is computed is the old one, and the word differs;
* in the body: the header is read as before, and tells the old checksum of the body.

The first and the third use that the checksum tells any two byte strings apart that differ in one
byte (`checksum_flip_ne`), which is proved of the polynomial and not assumed.

The entries need not be such as can be read: one with a peer whose address is not read is an error
of its own, at which reading ends before the changed byte is reached.  That is why `readFrom_framed`
has two cases, and why only entries that fit are promised to be told to the history.
-/
import RaftReplica.Proofs.Bytes.Flip
import RaftReplica.Proofs.Log.Opening
import RaftReplica.Proofs.Log.Written

namespace RaftReplica

open RaftReplica.Frame Disk

namespace Frame

open Bytes

variable {h : Header} {bs : Bytes} {pos : Nat} {x : UInt8} {e : Entry} {es : List Entry}

/-! ### Headers and bodies -/

/-- A changed byte in a header is noticed, be it in what the checksum covers or in the checksum. -/
theorem header?_flip (hpos : pos < headerSize) (hx : x ≠ 0) :
    header? (flip pos x h.bytes) = .error .headerChecksum := by
  have hlen := length_covered h
  have hsum : ofBigEndian (bigEndian 4 (Crc32.checksum h.covered).toNat) =
      (Crc32.checksum h.covered).toNat := ofBigEndian_bigEndian (UInt32.toNat_lt _)
  rw [header?, if_pos]
  -- the byte is one that the checksum covers, or one of the checksum
  by_cases hin : pos < 20
  · have hcovered : pos < h.covered.length := by rw [hlen]; exact hin
    have hflip : (flip pos x h.covered).length = 20 := by rw [length_flip, hlen]
    rw [Header.bytes, flip_append_left hcovered, List.take_left' hflip, List.drop_left' hflip, hsum]
    exact fun hsame => checksum_flip_ne hcovered hx (UInt32.toNat_inj.1 hsame)
  · have hbehind : h.covered.length ≤ pos := by omega
    have hword : pos - h.covered.length <
        (bigEndian 4 (Crc32.checksum h.covered).toNat).length := by
      rw [length_bigEndian]
      have hsize : headerSize = 24 := rfl
      omega
    rw [Header.bytes, flip_append_right hbehind, List.take_left' hlen, List.drop_left' hlen]
    exact fun hsame => ofBigEndian_flip_ne hword hx (hsame.symm.trans hsum.symm)

/-- A changed byte in a body is noticed by the checksum in the header. -/
theorem entry?_flip (hpos : pos < bs.length) (hx : x ≠ 0) :
    entry? (headerOf e bs) index (flip pos x bs) = .error (.bodyChecksum index) := by
  rw [ entry?, if_pos]
  exact fun hsame => checksum_flip_ne hpos hx (UInt32.toNat_inj.1 hsame)

/-! ### Frames -/

variable (hterm : e.term ≤ Numeral.max64) (hsize : Sized e)

include hterm hsize

theorem header?_headerOf : header? (headerOf e (body e)).bytes = .ok (headerOf e (body e)) :=
  header?_bytes hterm hsize (Nat.le_sub_one_of_lt (UInt32.toNat_lt _))

/-- Reading stops at the frame with the changed byte. -/
theorem readFrom_flip_framed (file : String) (offset index : Nat) (rest : Bytes)
    (hpos : pos < (framed e).bytes.length) (hx : x ≠ 0) :
    ∃ d, readFrom file offset index (flip pos x (framed e).bytes ++ rest) =
      ⟨[], offset, some d⟩ := by
  have hlen := length_bytes (headerOf e (body e))
  have hframed : (framed e).bytes = (headerOf e (body e)).bytes ++ body e := rfl
  rw [hframed, List.length_append] at hpos
  by_cases hin : pos < headerSize
  · have hheader : pos < (headerOf e (body e)).bytes.length := by rw [hlen]; exact hin
    have hflip : (flip pos x (headerOf e (body e)).bytes).length = headerSize := by
      rw [length_flip, hlen]
    refine ⟨.headerAt file offset .headerChecksum, ?_⟩
    rw [hframed, flip_append_left hheader, List.append_assoc, readFrom]
    simp only [List.take_left' hflip, header?_flip hin hx]
    rw [dif_neg (by omega)]
  · -- the header is read as it was written, and so tells the checksum of the body
    have hbehind : (headerOf e (body e)).bytes.length ≤ pos := by omega
    have hbody : pos - (headerOf e (body e)).bytes.length < (body e).length := by omega
    have hlength : (headerOf e (body e)).length =
        (flip (pos - (headerOf e (body e)).bytes.length) x (body e)).length := length_flip.symm
    refine ⟨.bodyIn file (.bodyChecksum index), ?_⟩
    rw [hframed, flip_append_right hbehind, List.append_assoc, readFrom]
    simp only [List.take_left' hlen, List.drop_left' hlen, header?_headerOf hterm hsize]
    rw [dif_neg (by omega), hlength, List.take_left, if_neg (Nat.lt_irrefl _),
      entry?_flip hbody hx]

/-- A frame as it was written is read, or cannot be read at all; if its entry can be told, it is that
one which is read. -/
theorem readFrom_framed (file : String) (offset index : Nat) (rest : Bytes) :
    (∃ d, readFrom file offset index ((framed e).bytes ++ rest) = ⟨[], offset, some d⟩) ∨
    ∃ e', readFrom file offset index ((framed e).bytes ++ rest) =
        (readFrom file (offset + (framed e).bytes.length) (index + 1) rest).cons offset e' ∧
      (e.Fits → e.index = index → e' = e) := by
  have hlen := length_bytes (headerOf e (body e))
  -- the header is right in any case; whether the body is read depends on its peers
  cases hentry : entry? (headerOf e (body e)) index (body e) with
  | error d =>
    refine .inl ⟨.bodyIn file d, ?_⟩
    rw [show (framed e).bytes = (headerOf e (body e)).bytes ++ body e from rfl, List.append_assoc,
      readFrom]
    simp only [List.take_left' hlen, List.drop_left' hlen, header?_headerOf hterm hsize]
    rw [dif_neg (by omega), show (headerOf e (body e)).length = (body e).length from rfl,
      List.take_left, if_neg (Nat.lt_irrefl _), hentry]
  | ok e' =>
    have hwhole : Framed.Whole index ⟨(framed e).bytes, e'⟩ :=
      ⟨_, _, _, rfl, hlen, header?_headerOf hterm hsize, rfl, hentry⟩
    refine .inr ⟨e', readFrom_append hwhole rest, fun hfits hindex => ?_⟩
    have hdecode := (whole_framed hfits).decode
    rw [hindex, hwhole.decode] at hdecode
    exact Except.ok.inj hdecode

omit hterm hsize

/-- **A changed byte in a row of frames** is found to be damage, and what can be told in front of it
is what was written. -/
theorem readFrom_flip (file : String) (offset index : Nat)
    (hterm : ∀ e ∈ es, e.term ≤ Numeral.max64) (hsize : ∀ e ∈ es, Sized e)
    (hpos : pos < (encoding es).length) (hx : x ≠ 0) :
    (∃ d, (readFrom file offset index (flip pos x (encoding es))).damage = some d) ∧
      (Consecutive index es → (∀ e ∈ es, e.Fits) → ∃ k < es.length,
        (readFrom file offset index (flip pos x (encoding es))).entries.map Prod.snd =
          es.take k) := by
  -- on the entries: the byte is in the first frame, or in what follows it
  induction es generalizing pos index offset with
  | nil => exact absurd hpos (Nat.not_lt_zero _)
  | cons e es ih =>
    have hsplit : encoding (e :: es) = (framed e).bytes ++ encoding es := rfl
    have hterm' := hterm e List.mem_cons_self
    have hsize' := hsize e List.mem_cons_self
    by_cases hin : pos < (framed e).bytes.length
    · obtain ⟨d, hread⟩ :=
        readFrom_flip_framed hterm' hsize' file offset index (encoding es) hin hx
      rw [hsplit, flip_append_left hin, hread]
      exact ⟨⟨d, rfl⟩, fun _ _ => ⟨0, Nat.succ_pos _, rfl⟩⟩
    · have hbehind : (framed e).bytes.length ≤ pos := Nat.le_of_not_lt hin
      rw [hsplit, List.length_append] at hpos
      rw [hsplit, flip_append_right hbehind]
      obtain ⟨hdamage, htold⟩ := ih (offset + (framed e).bytes.length) (index + 1)
        (fun x hx => hterm x (List.mem_cons_of_mem _ hx))
        (fun x hx => hsize x (List.mem_cons_of_mem _ hx))
        (show pos - (framed e).bytes.length < (encoding es).length by omega)
      generalize flip (pos - (framed e).bytes.length) x (encoding es) = rest at hdamage htold ⊢
      rcases readFrom_framed hterm' hsize' file offset index rest with ⟨d, hread⟩ | ⟨e', hread, he'⟩
      · rw [hread]
        exact ⟨⟨d, rfl⟩, fun _ _ => ⟨0, Nat.succ_pos _, rfl⟩⟩
      · rw [hread]
        refine ⟨hdamage, fun hes hfits => ?_⟩
        obtain ⟨k, hk, hentries⟩ := htold hes.2 fun x hx => hfits x (List.mem_cons_of_mem _ hx)
        refine ⟨k + 1, Nat.succ_lt_succ hk, ?_⟩
        rw [Contents.cons, List.map_cons, hentries, he' (hfits e List.mem_cons_self) hes.1]
        rfl

end Frame

namespace Segment

variable {m : Mounted MembershipHistory} {v : Volume} {l : Location} {p : Path} {s : Segment}
  {k first : Nat} {bs : Bytes} {es : List Entry}

/-- A damaged file is refused, once the history has heard of what stands in front of the damage; the
volume stays as it is. -/
theorem runOn_load_damaged {d : Damage} (home : m.volume.disk.directoryAt p = .ok l)
    (hdir : s.directory = p) (hi : m.volume.disk.item? (s.place l) = some (.file k bs))
    (hdamage : (readAll s.path.text s.first bs).damage = some d)
    (hempty : m.store.entries = []) :
    s.load.runOn m = (.error (.error (.corrupted d)),
      ⟨m.store.heard (memberships ((readAll s.path.text s.first bs).entries.map Prod.snd)),
        m.volume⟩) := by
  have hopen : (Volume.openFile s.path).runOn m.volume = (.ok k, m.volume) := by
    rw [path_eq hdir]
    exact Volume.runOn_openFile home (SegmentName.plain_text _) hi
  have hasc : Ascending (m.store.entries ++
      memberships ((readAll s.path.text s.first bs).entries.map Prod.snd)) := by
    obtain ⟨fs, -, -, hrow, hentries, -⟩ := exists_row s.path.text 0 s.first bs
    rw [hempty, readAll, hentries, map_snd_placed]
    exact (index_told hrow).2
  unfold Segment.load
  rw [Act.runOn_bind_ok (Mounted.runOn_onVolume_ok hopen), Act.runOn_bind_ok (Act.runOn_get _)]
  dsimp only
  rw [(item?_eq_file_iff.1 hi).2]
  show Act.runOn (tell (memberships ((readAll s.path.text s.first bs).entries.map Prod.snd)) >>= _)
    m = _
  rw [Act.runOn_bind_ok (runOn_tell hasc), hdamage]
  rfl

/-- **A changed byte is noticed.**  Entries are written to a new segment, which is left open or
sealed, and then one byte of its file is changed, whichever it is.  The segment is not loaded again
but refused as damaged, by a history that knows of nothing yet.  Neither the file nor anything else
on the volume changes; and if the entries can be told, the history has heard only of some that were
written, in their order from the first one. -/
theorem flipped_refused (hw : v.disk.WellFormed) (home : v.disk.directoryAt p = .ok l)
    (hfirst : 1 ≤ first) (hes : Consecutive first es) (hne : es ≠ [])
    (hterm : ∀ e ∈ es, e.term ≤ Numeral.max64) (hsize : ∀ e ∈ es, Sized e)
    (hplaces : ∀ c, v.disk.item? (l ++ [(nameAs c first es).text]) ≠ some .directory)
    (closing : Option Bool) :
    ∃ s v₁, (recordAs closing p first es).runOn v = (.ok s, v₁) ∧
      v₁.disk.read s.path = .ok (encoding es) ∧ encoding es ≠ [] ∧
      ∀ pos < (encoding es).length, ∀ x : UInt8, x ≠ 0 →
      ∃ v₂, (Volume.edit s.path (Bytes.flip pos x)).runOn v₁ = (.ok (), v₂) ∧
        ∀ t : Segment, t.directory = s.directory → t.name = s.name → ∃ d h,
          t.load.runOn ⟨.empty, v₂⟩ = (.error (.error (.corrupted d)), ⟨h, v₂⟩) ∧
          ((∀ e ∈ es, e.Fits) → ∃ n < es.length,
            h = MembershipHistory.empty.heard (memberships (es.take n))) := by
  obtain ⟨s, k, v₁, hrun, hdir, hname, hw₁, home₁, hi⟩ :=
    runOn_recordAs hw home hfirst hes hsize closing hplaces
  refine ⟨s, v₁, hrun, read_path home₁ hdir hi, encoding_ne_nil hne,
    fun pos hpos x hx => ?_⟩
  obtain ⟨v₂, hedit, hput⟩ :=
    Volume.runOn_edit home₁ (SegmentName.plain_text _) hw₁ hi (Bytes.flip pos x)
  rw [path_eq hdir]
  refine ⟨v₂, hedit, fun t htdir htname => ?_⟩
  rw [hdir] at htdir
  have home₂ : v₂.disk.directoryAt p = .ok l := hput.directoryAt
    (by rw [show l ++ [s.name.text] = s.place l from rfl, hi]; simp) home₁
  have hflipped : v₂.disk.item? (t.place l) = some (.file k (Bytes.flip pos x (encoding es))) := by
    rw [place_eq_of_name htname]
    exact hput.item?_self
  have htfirst : t.first = first := by
    rw [← SegmentName.first_name, htname, hname, first_nameAs]
  -- a segment of that name reads the changed file from its start
  obtain ⟨⟨d, hdamage⟩, htold⟩ := readFrom_flip t.path.text 0 t.first hterm hsize hpos hx
  refine ⟨d, _, runOn_load_damaged (m := ⟨.empty, v₂⟩) home₂ htdir hflipped hdamage rfl,
    fun hfits => ?_⟩
  obtain ⟨n, hn, hentries⟩ := htold (htfirst.symm ▸ hes) hfits
  exact ⟨n, hn, by rw [readAll, hentries]⟩

/-- With the greatest bit of the first body's length changed, the file would seem to end within that
body. -/
theorem flipped_refused_length :
    let es : List Entry := [.noOp 1 5, .ofData 2 6 [1, 2, 3]]
    ∃ s v₁ v₂ d h, (recordAs (some true) (.ofText ".") 5 es).runOn (.ofDisk .empty) = (.ok s, v₁) ∧
      (Volume.edit s.path (Bytes.flip 12 0x80)).runOn v₁ = (.ok (), v₂) ∧
      s.load.runOn ⟨.empty, v₂⟩ = (.error (.error (.corrupted d)), ⟨h, v₂⟩) := by
  intro es
  have hes : Consecutive 5 es := ⟨rfl, rfl, trivial⟩
  obtain ⟨s, v₁, hrun, -, -, hrefused⟩ := flipped_refused (v := .ofDisk .empty) (l := [])
    (p := .ofText ".") wellFormed_empty (by decide +kernel) (by decide) hes (by decide) (by decide)
    (by decide +kernel) (by rintro (_ | _ | _) <;> decide +kernel) (some true)
  obtain ⟨v₂, hedit, hload⟩ := hrefused 12 (by decide +kernel) 0x80 (by decide)
  obtain ⟨d, h, hrun', -⟩ := hload s rfl rfl
  exact ⟨s, v₁, v₂, d, h, hrun, hedit, hrun'⟩

end Segment
end RaftReplica
