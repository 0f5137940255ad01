/-
RaftReplica/Proofs/Log/Loading.lean

Opening the file of a segment.  A segment that is loaded without an error holds the whole frames at
the start of its file, what stood behind them is cut off, and the history has heard of the
memberships among them (`load_ok`).  A segment on a file of whole frames is loaded without changing
the disk (`runOn_load`), and one with an unfinished frame behind them loses just that
(`runOn_load_unfinished`).  A sealed segment that lost entries is refused (`runOn_load_lost`).

The file may hold anything.  Any bytes begin with a longest row of whole frames, which may be empty
(`exists_row`), and reading stops behind it: with damage, which is an error, or with fewer bytes
than a frame has, which are cut off.  So a load has three results and no more:

    the row, the rest cut off  |  damaged, nothing changed  |  the range is wrong

and `load_eq_tell` gives the whole of it for a row with an unfinished rest: tell the history, check
the range, cut.  The history is told before the range is checked, so a load that is refused for its
range has already told of the memberships it read.
-/
import RaftReplica.Proofs.Log.Segment
import RaftReplica.Proofs.Membership.History

namespace RaftReplica

open RaftReplica.Frame Disk

/-! ### Telling the history -/

namespace MembershipHistory

/-- The history once it has heard of further memberships. -/
def heard (h : MembershipHistory) (ms : List Membership) : MembershipHistory :=
  { h with entries := h.entries ++ ms }

theorem heard_nil (h : MembershipHistory) : h.heard [] = h := by rw [heard, List.append_nil]

theorem heard_heard (h : MembershipHistory) (ms ns : List Membership) :
    (h.heard ms).heard ns = h.heard (ms ++ ns) := by rw [heard, heard, heard, List.append_assoc]

/-- The history has no floor yet, and of the memberships that it heard of those from index `n` on
are the ones of `es`. -/
structure Tells (h : MembershipHistory) (n : Nat) (es : List Entry) : Prop where
  floor : h.floor = .initial
  ascending : Ascending h.entries
  positive : ∀ m ∈ h.entries, 1 ≤ m.index
  above : h.entries.filter (n ≤ ·.index) = Segment.memberships es

end MembershipHistory

namespace Segment

variable {m m' : Mounted MembershipHistory} {ms : List Membership}

/-- A history that hears of memberships without an error has them at its end, in order. -/
theorem tell_ok (h : (tell ms).runOn m = (.ok (), m')) :
    m' = ⟨m.store.heard ms, m.volume⟩ ∧
      (Ascending m.store.entries → Ascending m'.store.entries) := by
  -- on what is told: each membership was accepted, so it is behind the ones before it
  induction ms generalizing m with
  | nil =>
    obtain ⟨-, rfl⟩ := Prod.mk.inj h
    exact ⟨by rw [MembershipHistory.heard_nil], id⟩
  | cons a ms ih =>
    rw [tell, Act.runOn_bind_ok (Mounted.runOn_stored m)] at h
    obtain ⟨h₁, m₁, hadd, h⟩ := Act.eq_ok_of_bind h
    obtain ⟨hadd, rfl⟩ := Act.eq_ok_of_ofExcept hadd
    obtain ⟨hlast, rfl⟩ := MembershipHistory.add_eq_ok_iff.1 hadd
    rw [Act.runOn_bind_ok (Mounted.runOn_update _ m₁)] at h
    obtain ⟨hm', hasc⟩ := ih h
    refine ⟨?_, fun hbefore => hasc (hbefore.concat hlast)⟩
    rw [hm']
    show Mounted.mk ((m₁.store.heard [a]).heard ms) _ = _
    rw [MembershipHistory.heard_heard]
    rfl

/-- Memberships that come in order are all taken. -/
theorem runOn_tell (h : Ascending (m.store.entries ++ ms)) :
    (tell ms).runOn m = (.ok (), ⟨m.store.heard ms, m.volume⟩) := by
  -- on what is told; ascending indices are all that the history asks for
  induction ms generalizing m with
  | nil => rw [MembershipHistory.heard_nil]; rfl
  | cons a ms ih =>
    have hadd : m.store.add a = .ok (m.store.heard [a]) :=
      MembershipHistory.add_eq_ok_iff.2 ⟨h.lt_of_concat, rfl⟩
    rw [tell, Act.runOn_bind_ok (Mounted.runOn_stored m),
      Act.runOn_bind_ok (Act.runOn_ofExcept_ok hadd _),
      Act.runOn_bind_ok (Mounted.runOn_update _ m), ih]
    · show (Except.ok (), Mounted.mk ((m.store.heard [a]).heard ms) _) = _
      rw [MembershipHistory.heard_heard]
      rfl
    · show Ascending ((m.store.entries ++ [a]) ++ ms)
      rwa [List.append_assoc]

/-! ### Loading -/

/-- The memberships in a row. -/
def told (fs : List Framed) : List Membership := memberships (fs.map Framed.entry)

/-- The segment once its file was read and found to be a row. -/
def opened (s : Segment) (k : Nat) (fs : List Framed) : Segment :=
  s.filled k ⟨placed 0 fs, (bytesOf fs).length, none⟩

variable {d : Disk} {l : Location} {p : Path} {s s' : Segment} {fs : List Framed} {k : Nat}

/-- The last index that was read is counted from the first. -/
theorem last_opened (hfirst : 1 ≤ s.first) : (s.opened k fs).last + 1 = s.first + fs.length := by
  show s.first + (placed 0 fs).length - 1 + 1 = _
  rw [length_placed]
  omega

/-- A sealed segment that holds what its name tells, or one that is written to. -/
def RightRange (s : Segment) (fs : List Framed) : Prop :=
  s.isOpen = false → s.last + 1 = s.first + fs.length

/-- A segment whose range is right keeps its name. -/
theorem name_opened (hfirst : 1 ≤ s.first) (hrange : s.RightRange fs) :
    (s.opened k fs).name = s.name := by
  have hlast : (s.opened k fs).last + 1 = s.first + fs.length := last_opened hfirst
  unfold Segment.name
  show (if s.isOpen then _ else SegmentName.sealed s.first (s.opened k fs).last) = _
  cases hopen : s.isOpen with
  | true => rfl
  | false =>
    have hend := hrange hopen
    rw [if_neg (by decide), if_neg (by decide), show (s.opened k fs).last = s.last by omega]

/-- A file that is a row is held by the segment that reads it. -/
theorem holds_opened (hdir : s.directory = p) (hfirst : 1 ≤ s.first) (hrow : Row s.first fs)
    (hrange : s.RightRange fs) (hi : d.item? (s.place l) = some (.file k (bytesOf fs))) :
    (s.opened k fs).Holds d l p fs :=
  ⟨hdir, ⟨k, rfl, by rwa [place_eq_of_name (name_opened hfirst hrange)]⟩, hrow, hfirst,
    last_opened hfirst, rfl, rfl⟩

/-- The check passes if the name of a sealed segment told the truth. -/
theorem checkRange_eq_ok_iff (hfirst : 1 ≤ s.first) :
    s.checkRange (s.opened k fs).last = .ok () ↔ s.RightRange fs := by
  have hlast : (s.opened k fs).last + 1 = s.first + fs.length := last_opened hfirst
  unfold checkRange RightRange
  split
  · next hopen => simp [hopen]
  · next hopen =>
    simp only [Bool.not_eq_true] at hopen
    simp only [hopen, forall_const]
    split
    · simp only [reduceCtorEq, false_iff]
      omega
    · split
      · simp only [reduceCtorEq, false_iff]
        omega
      · simp only [true_iff]
        omega

/-- **What is loaded** is the row at the start of the file, and the rest is cut off. -/
theorem load_ok (hw : m.volume.disk.WellFormed) (home : m.volume.disk.directoryAt p = .ok l)
    (hdir : s.directory = p) (hfirst : 1 ≤ s.first) (h : s.load.runOn m = (.ok s', m')) :
    ∃ k fs, (∃ bs, m.volume.disk.item? (s.place l) = some (.file k bs)) ∧ Row s.first fs ∧
      s.RightRange fs ∧ s' = s.opened k fs ∧ m'.store = m.store.heard (told fs) ∧
      (Ascending m.store.entries → Ascending m'.store.entries) ∧
      Puts m.volume.disk m'.volume.disk (s.place l) (some (.file k (bytesOf fs))) := by
  unfold Segment.load at h
  obtain ⟨k, m₁, hopen, h⟩ := Act.eq_ok_of_bind h
  obtain ⟨v₁, hlook, rfl⟩ := Mounted.eq_ok_of_onVolume hopen
  rw [path_eq hdir] at hlook
  obtain ⟨hfile, rfl⟩ := Volume.eq_ok_of_look hlook
  obtain ⟨bs, hitem⟩ : ∃ bs, m.volume.disk.item? (s.place l) = some (.file k bs) :=
    exists_file_of_fileAt home (SegmentName.plain_text _) hfile
  have hcontent : m.volume.disk.content k = bs := (item?_eq_file_iff.1 hitem).2
  rw [Act.runOn_bind_ok (Act.runOn_get _)] at h
  dsimp only at h
  rw [hcontent] at h
  -- whatever bytes these are, they start with a row
  obtain ⟨fs, rest, hbs, hrow, hentries, hsize⟩ := exists_row s.path.text 0 s.first bs
  rw [Nat.zero_add] at hsize
  have hmap : (readAll s.path.text s.first bs).entries.map (·.2) = fs.map Framed.entry := by
    rw [readAll, hentries]
    exact map_snd_placed
  rw [hmap] at h
  obtain ⟨_, m₂, htell, h⟩ := Act.eq_ok_of_bind h
  obtain ⟨rfl, hasc⟩ := tell_ok htell
  cases hdamage : (readAll s.path.text s.first bs).damage with
  | some e => rw [hdamage] at h; exact absurd h (by simp)
  | none =>
    have hread : readAll s.path.text s.first bs = ⟨placed 0 fs, (bytesOf fs).length, none⟩ := by
      rw [← hentries, ← hsize, ← hdamage]
      rfl
    rw [hread] at h
    obtain ⟨_, m₃, hrun, h⟩ := Act.eq_ok_of_bind h
    obtain ⟨hcheck, rfl⟩ := Act.eq_ok_of_ofExcept hrun
    have hrange : s.RightRange fs := (checkRange_eq_ok_iff hfirst).1 hcheck
    -- what is cut off, if anything is
    have hcut : s' = s.opened k fs ∧ m'.store = m.store.heard (told fs) ∧
        Puts m.volume.disk m'.volume.disk (s.place l) (some (.file k (bytesOf fs))) := by
      by_cases hsame : (bytesOf fs).length = bs.length
      · rw [if_neg (not_not.2 hsame)] at h
        obtain ⟨hs', rfl⟩ := Prod.mk.inj h
        have hall : bytesOf fs = bs := by
          rw [hbs, List.length_append] at hsame
          rw [hbs, List.length_eq_zero_iff.1 (by omega : rest.length = 0), List.append_nil]
        refine ⟨(Except.ok.inj hs').symm, rfl, hw, ?_⟩
        show m.volume.disk.item? = _
        rw [hall, ← hitem, Function.update_eq_self]
      · rw [if_pos hsame] at h
        obtain ⟨_, m₄, hmounted, h⟩ := Act.eq_ok_of_bind h
        obtain ⟨v₄, hset, rfl⟩ := Mounted.eq_ok_of_onVolume hmounted
        obtain ⟨hs', rfl⟩ := Prod.mk.inj h
        obtain ⟨v', hset', hput⟩ := Volume.runOn_setLength hw hitem
          (n := (bytesOf fs).length) (by rw [hbs, List.length_append]; omega)
        obtain ⟨-, rfl⟩ := Prod.mk.inj (hset.symm.trans hset')
        rw [hbs, List.take_left] at hput
        exact ⟨(Except.ok.inj hs').symm, rfl, hput⟩
    obtain ⟨hs', hstore, hput⟩ := hcut
    exact ⟨k, fs, ⟨bs, hitem⟩, hrow, hrange, hs', hstore, fun ha => hstore ▸ hasc ha, hput⟩

section

variable {rest : Bytes} (home : m.volume.disk.directoryAt p = .ok l) (hdir : s.directory = p)
  (hi : m.volume.disk.item? (s.place l) = some (.file k (bytesOf fs ++ rest)))
  (hrest : Unfinished rest) (hrow : Row s.first fs)
  (hasc : Ascending (m.store.entries ++ told fs))

include home hdir hi hrest hrow hasc

omit hasc in
/-- Whole frames are read, and the history hears of them, before their range is looked at and
anything is cut off. -/
theorem load_eq_tell : s.load.runOn m = (do
    tell (told fs)
    Act.ofExcept (s.checkRange (s.opened k fs).last)
    if (bytesOf fs).length ≠ (bytesOf fs ++ rest).length then
      Mounted.onVolume (Volume.setLength k (bytesOf fs).length)
    return s.opened k fs).runOn m := by
  have hopen : (Volume.openFile s.path).runOn m.volume = (.ok k, m.volume) := by
    rw [path_eq hdir]
    exact Volume.runOn_openFile home (SegmentName.plain_text _) hi
  -- reading ends behind the row, since no frame fits into the rest
  have hread : readAll s.path.text s.first (bytesOf fs ++ rest) =
      ⟨placed 0 fs, (bytesOf fs).length, none⟩ := by
    rw [readAll, readFrom_row hrow hrest, Nat.zero_add]
  unfold Segment.load
  rw [Act.runOn_bind_ok (Mounted.runOn_onVolume_ok hopen), Act.runOn_bind_ok (Act.runOn_get _)]
  dsimp only
  rw [(item?_eq_file_iff.1 hi).2, hread]
  dsimp only
  rw [show (placed 0 fs).map (fun x => x.2) = fs.map Framed.entry from map_snd_placed]
  rfl

/-- A history that takes the memberships has heard of them by then. -/
theorem load_eq : s.load.runOn m = (do
    Act.ofExcept (s.checkRange (s.opened k fs).last)
    if (bytesOf fs).length ≠ (bytesOf fs ++ rest).length then
      Mounted.onVolume (Volume.setLength k (bytesOf fs).length)
    return s.opened k fs).runOn ⟨m.store.heard (told fs), m.volume⟩ := by
  rw [load_eq_tell home hdir hi hrest hrow, Act.runOn_bind_ok (runOn_tell hasc)]

variable (hfirst : 1 ≤ s.first)

include hfirst

/-- **A write that was cut short** is cut off, and the whole frames before it are loaded. -/
theorem runOn_load_unfinished (hrange : s.RightRange fs) (hne : rest ≠ []) {v' : Volume}
    (hset : (Volume.setLength k (bytesOf fs).length).runOn m.volume = (.ok (), v')) :
    s.load.runOn m = (.ok (s.opened k fs), ⟨m.store.heard (told fs), v'⟩) := by
  have hlen := List.length_pos_iff.2 hne
  rw [load_eq home hdir hi hrest hrow hasc,
    Act.runOn_bind_ok (Act.runOn_ofExcept_ok ((checkRange_eq_ok_iff hfirst).2 hrange) _),
    if_pos (by rw [List.length_append]; omega),
    Act.runOn_bind_ok
      (Mounted.runOn_onVolume_ok (m := ⟨m.store.heard (told fs), m.volume⟩) hset)]
  rfl

/-- **A sealed segment that lost entries** is not loaded. -/
theorem runOn_load_lost (hclosed : s.isOpen = false) {last : Nat}
    (hend : last + 1 = s.first + fs.length) (hlost : last < s.last) :
    s.load.runOn m = (.error (.error (.corrupted (.entriesLost s.path.text last))),
      ⟨m.store.heard (told fs), m.volume⟩) := by
  have hlast : (s.opened k fs).last + 1 = s.first + fs.length := last_opened hfirst
  have hcheck : s.checkRange (s.opened k fs).last =
      .error (.corrupted (.entriesLost s.path.text last)) := by
    rw [show (s.opened k fs).last = last by omega, checkRange, if_neg (by simp [hclosed]),
      if_pos hlost]
  rw [load_eq home hdir hi hrest hrow hasc, hcheck]
  rfl

end

/-- **A file of whole frames** is loaded as it is. -/
theorem runOn_load (home : m.volume.disk.directoryAt p = .ok l) (hdir : s.directory = p)
    (hfirst : 1 ≤ s.first) (hi : m.volume.disk.item? (s.place l) = some (.file k (bytesOf fs)))
    (hrow : Row s.first fs) (hrange : s.RightRange fs)
    (hasc : Ascending (m.store.entries ++ told fs)) :
    s.load.runOn m = (.ok (s.opened k fs), ⟨m.store.heard (told fs), m.volume⟩) := by
  rw [← List.append_nil (bytesOf fs)] at hi
  rw [load_eq home hdir hi unfinished_nil hrow hasc,
    Act.runOn_bind_ok (Act.runOn_ofExcept_ok ((checkRange_eq_ok_iff hfirst).2 hrange) _),
    List.append_nil, if_neg (not_not.2 rfl)]
  rfl

end Segment
end RaftReplica
