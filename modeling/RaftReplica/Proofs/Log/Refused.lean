/-
RaftReplica/Proofs/Log/Refused.lean

What is left when the process stops and is no log any more.  Two calls change the disk in steps
between which it does not store a log.  A sealed segment is cut before its name tells so
(`CutShort`), and a new start is recorded before the segments of the old log are removed
(`HalfEmptied`).

Whoever opens a directory that is refused changes nothing there, so it stays refused (`Refuses`).  A
log that is cut short is always refused; one that is half emptied is refused once its oldest segment
starts behind the new start, and is read as a log before.

Both are refused while segments are loaded, and for different reasons:

* a segment whose file has fewer entries than its name tells has lost some of them
  (`entriesLost`).  All segments before it are read first, which is why the proof needs that they
  still hold their rows and that the history takes what they tell;
* a first segment that starts behind the start that is recorded leaves a hole in front of it
  (`startsLate`), and nothing is read at all.

In both cases the names in the directory are those of the log, since the stop came between two
changes of which neither has made or removed a file of another name.
-/
import RaftReplica.Proofs.Log.Append
import RaftReplica.Proofs.Log.Reset
import RaftReplica.Proofs.Log.TruncateAfter
import RaftReplica.Proofs.Log.TruncateBefore

namespace RaftReplica

open RaftReplica.Frame Disk

namespace SegmentedLog

variable {d d' : Disk} {home : Location} {p : Path} {a b start n next : Nat}
  {ss ts : List Segment} {rows : List (List Framed)} {s : Segment} {l l₁ : SegmentedLog}
  {m : Mounted MembershipHistory}

/-- Opening a log in the directory fails with an error, and changes nothing. -/
def Refuses (d : Disk) (p : Path) (e : Error) : Prop :=
  ∀ l₁ : SegmentedLog, l₁.directory = p →
    ∃ hist, l₁.init.runOn ⟨.empty, .ofDisk d⟩ = (.error (.error e), ⟨hist, .ofDisk d⟩)

/-- Sealed segments are loaded one after the other. -/
theorem loadClosed_append (done : Loaded) : loadClosed start done (ss ++ ts) =
    loadClosed start done ss >>= fun done => loadClosed start done ts := by
  induction ss generalizing done with
  | nil => rfl
  | cons s ss ih =>
    rw [List.cons_append, loadClosed, loadClosed]
    split
    · exact ih _
    · simp only [ih, bind_assoc]

/-! ### A log that is cut short -/

/-- **A sealed segment that lost entries** is noticed once those before it were loaded. -/
theorem runOn_loadClosed_lost {v : Volume} {xs : List Segment} {fs : List Framed} {k kept : Nat}
    (leads : v.disk.directoryAt p = .ok home) (hdir : s.directory = p)
    (hsealed : ∀ x ∈ xs ++ [s], x.isOpen = false)
    (hfront : AllHold v.disk home p (xs.filter (start ≤ ·.last)) rows)
    (hc : Chained a (xs.filter (start ≤ ·.last)) s.first) (ha : a ≤ start) (hpos : 1 ≤ s.first)
    (hfile : v.disk.item? (s.place home) = some (.file k (bytesOf fs))) (hrow : Row s.first fs)
    (hend : kept + 1 = s.first + fs.length) (hlost : kept < s.last) (hle : start ≤ s.last) :
    ∃ hist, (loadClosed start {} ((xs ++ [s]).map Segment.unread)).runOn ⟨.empty, v⟩ =
      (.error (.error (.corrupted (.entriesLost s.path.text kept))), ⟨hist, v⟩) := by
  have hs := hsealed s (List.mem_append_right xs List.mem_cons_self)
  have hxs : ∀ x ∈ xs, x.isOpen = false := fun x hx => hsealed x (List.mem_append_left [s] hx)
  obtain ⟨hrows, hlen⟩ := hfront.row hc
  have hasc : Ascending (Segment.told rows.flatten ++ Segment.told fs) := by
    rw [← Segment.told_append]
    exact (Segment.index_told (row_append_iff.2 ⟨hrows, hlen ▸ hrow⟩)).2
  have hnone : Continues none start a := ha
  have hloaded : (loadClosed start {} (xs.map Segment.unread)).runOn ⟨.empty, v⟩ = _ :=
    runOn_loadClosed leads (Segment.filter_unread hxs start) hfront
      (fun x hx => hxs x (List.mem_of_mem_filter hx)) hc hnone (List.pairwise_append.1 hasc).1
  have hcheck : checkContinuity (after none (xs.filter (start ≤ ·.last))) start s.unread = .ok () :=
    checkContinuity_eq_ok_iff.2 (by rw [Segment.first_unread]; exact hnone.after hc)
  have hlast := Segment.last_unread hs
  have hfile' : v.disk.item? (s.unread.place home) = some (.file k (bytesOf fs ++ [])) := by
    rw [Segment.place_eq_of_name s.name_unread, List.append_nil, hfile]
  -- the segments in front are loaded, and the shortened one is refused when its turn comes
  have hload := Segment.runOn_load_lost
    (m := ⟨MembershipHistory.empty.heard (Segment.told rows.flatten), v⟩) leads
    (by rw [Segment.directory_unread, hdir]) hfile' unfinished_nil
    (by rwa [Segment.first_unread]) hasc (by rwa [Segment.first_unread])
    (by rw [Segment.isOpen_unread, hs]) (by rwa [Segment.first_unread]) (by rwa [hlast])
  have hpath : s.unread.path = s.path := by
    rw [Segment.path, Segment.path, Segment.directory_unread, Segment.name_unread]
  rw [hpath] at hload
  refine ⟨(MembershipHistory.empty.heard (Segment.told rows.flatten)).heard (Segment.told fs), ?_⟩
  rw [List.map_append, loadClosed_append, Act.runOn_bind_ok hloaded]
  show Act.runOn (loadClosed start _ [s.unread]) _ = _
  rw [loadClosed, if_neg (by omega), Act.runOn_bind_ok (Act.runOn_ofExcept_ok hcheck _)]
  exact Act.runOn_bind_error hload

/-- A log that is cut short is refused. -/
theorem CutShort.refused {kept : Nat} (h : CutShort d home p kept s) :
    Refuses d p (.corrupted (.entriesLost s.path.text kept)) := by
  obtain ⟨d₀, l, start, rows, xs, fs, k, rfl, h, hs, hle, hclosed, htail, hold, hfirst, hlast,
    hput⟩ := h
  intro l₁ hdir
  have leads : d.directoryAt l.directory = .ok home :=
    hput.directoryAt (h.item?_ne_directory s) h.leads
  have hrecord : Starts d l.directory l.first := hs.congr h.leads leads
    (hput.item?_ne fun he => SegmentName.text_ne_recordName s.name (append_name_inj.1 he).symm)
  -- the names are still those of the log
  obtain ⟨names, hlist, hfound⟩ := h.kept.found h.tidy.unmixed hput.wellFormed leads fun x => by
    obtain ⟨j, -, hfile⟩ := hold.file
    by_cases hx : x = s.place home
    · rw [hx, hput.item?_self, hfile]
      rfl
    · rw [hput.item?_ne hx]
  -- the segments in front of the last one are as they were
  have hsegments : l.segments = xs ++ [s] := (segments_of_none htail).trans hclosed
  have hholds := h.holds
  have hchained := h.chained
  have hnodup := h.kept.nodup_names
  rw [hsegments] at hholds hchained hnodup
  obtain ⟨low, rows', hholds, hchained, -, hlow, -, -⟩ := hholds.keepFront hchained h.start_le
  obtain ⟨front, _, -, hfront, -⟩ := hholds.split
  obtain ⟨hchain, -⟩ := chained_concat_iff.1 hchained
  have hfront : AllHold d home l.directory (xs.filter (l.first ≤ ·.last)) front := by
    refine hfront.congr fun x hx => hput.item?_ne fun hplace => ?_
    rw [List.map_append] at hnodup
    refine List.disjoint_of_nodup_append hnodup
      (List.mem_map_of_mem (List.mem_of_mem_filter hx)) ?_
    rw [Segment.place_inj.1 hplace]
    exact List.mem_cons_self
  have hlen := hold.last
  obtain ⟨hist, hloaded⟩ := runOn_loadClosed_lost (v := .ofDisk d) leads hold.directory
    (hclosed ▸ h.closed) hfront hchain hlow hold.first_pos hput.item?_self
    (hold.row.take (kept + 1 - s.first)) (by rw [List.length_take]; omega) hlast (by omega)
  refine ⟨hist, ?_⟩
  rw [← hdir] at leads hlist hrecord hfound
  rw [init_eq (v := .ofDisk d) leads hrecord hlist hfound]
  dsimp only
  rw [hclosed]
  exact Act.runOn_bind_error hloaded

/-! ### A log that is half emptied -/

/-- A log whose oldest segment starts behind the start that is recorded is refused. -/
theorem Stands.refused (h : Stands d home l a rows) (hs : Starts d l.directory next)
    (hne : l.segments ≠ []) (hlt : next < a) :
    Refuses d l.directory (.corrupted (.startsLate a next)) := by
  intro l₁ hdir
  refine ⟨.empty, ?_⟩
  obtain ⟨names, hlist, hfound⟩ := h.kept.found h.tidy.unmixed h.wellFormed h.leads fun x => Iff.rfl
  have leads := h.leads
  have hc := h.chained
  have hlate (s : Segment) (hfirst : s.first = a) :
      checkContinuity none next s.unread = .error (.corrupted (.startsLate a next)) := by
    rw [checkContinuity, Segment.first_unread, hfirst]
    exact if_pos hlt
  rw [← hdir] at leads hlist hs hfound
  rw [init_eq (v := .ofDisk d) leads hs hlist hfound]
  dsimp only
  -- the first segment is sealed, or it is the one to write to
  cases hclosed : l.closed with
  | cons s ss =>
    rw [segments, hclosed] at hc
    have hmem : s ∈ l.closed := hclosed ▸ List.mem_cons_self
    have hfirst := h.kept.first_le_last hmem
    have hlast := Segment.last_unread (h.closed s hmem)
    have ha : s.first = a := hc.1
    refine Act.runOn_bind_error ?_
    rw [List.map_cons, loadClosed, if_neg (by omega), hlate s ha]
    rfl
  | nil =>
    rw [segments, hclosed] at hc hne
    cases ht : l.tail with
    | none => exact absurd (by rw [ht]; rfl) hne
    | some t =>
      rw [ht] at hc
      rw [List.map_nil, loadClosed, Act.runOn_bind_ok (Act.runOn_pure _ _)]
      refine Act.runOn_bind_error ?_
      show Act.runOn (loadTail next {} (some t.unread)) _ = _
      rw [loadTail, hlate t hc.1]
      rfl

/-- **A log that is half emptied** is refused, or is one that goes on with the last entries of the
old log. -/
theorem HalfEmptied.refused_or_stores {last : Nat} {old : List Entry}
    (h : HalfEmptied d home p next last old) (hle : next ≤ last) :
    (∃ first, next < first ∧ Refuses d p (.corrupted (.startsLate first next))) ∨
      ∃ es, Stores d home p ⟨next, es⟩ ∧ next + es.length = last + 1 ∧ old <:+ es := by
  obtain ⟨l, a, rows, rfl, h, hs, hne, rfl, hold⟩ := h
  rcases Nat.lt_or_ge next a with hlt | ha
  · exact .inl ⟨a, hlt, h.refused hs hne hlt⟩
  · have hbound := h.bound
    have hlen := (h.holds.row h.chained).2
    refine .inr ⟨entriesFrom next a rows, h.stores hs ha (by omega), ?_, hold ha⟩
    rw [entriesFrom, List.length_drop, List.length_map]
    omega

end SegmentedLog
end RaftReplica
