/-
RaftReplica/Proofs/Log/Neat.lean

What a log leaves behind that made all its files itself.  Each frame in its rows is the one that is
written for an entry, none was written to a segment that had outgrown the largest size, and no draft
of the record is left (`Neat`).  A disk on which a log stands need not be neat, since whole frames
that somebody else wrote are read as well; but whatever the calls of a log do to the disk keeps it
neat.

Only three things ever happen to the rows, and each has its lemma:

* some of them are dropped, or cut at their ends (`of_prefixes`, `of_subset`);
* an empty one is begun, or the last one grows by a frame (`begun`, `grown`);
* nothing, while the disk changes elsewhere (`elsewhere`, `replaced`, `cleared`).

A row counts by its bytes without the last frame, which only become fewer when the row is cut; that
is why the bound needs no hypothesis about where the cut is.
-/
import RaftReplica.Proofs.Log.Standing

namespace RaftReplica

open RaftReplica.Frame Disk

/-- The front of some frames has the bytes in front. -/
theorem Frame.length_bytesOf_le {fs gs : List Framed} (h : gs <+: fs) :
    (bytesOf gs).length ≤ (bytesOf fs).length := by
  obtain ⟨hs, rfl⟩ := h
  rw [bytesOf_append, List.length_append]
  exact Nat.le_add_right _ _

/-- Without their last frames the front of some frames still is in front. -/
theorem Frame.dropLast_isPrefix {fs gs : List Framed} (h : gs <+: fs) :
    gs.dropLast <+: fs.dropLast := by
  obtain ⟨hs, rfl⟩ := h
  by_cases hnil : hs = []
  · subst hnil
    exact (List.append_nil gs).symm ▸ List.prefix_refl _
  · rw [List.dropLast_append_of_ne_nil hnil]
    exact (List.dropLast_prefix gs).trans (List.prefix_append _ _)

namespace SegmentedLog

/-- No draft of the record is there, the rows are made of the frames that are written for entries,
and each of them without its last frame is no longer than `size`. -/
structure Neat (size : Nat) (d : Disk) (home : Location) (rows : List (List Framed)) : Prop where
  draft : d.item? (home ++ [SegmentName.recordName ++ ".tmp"]) = none
  written : ∀ fs ∈ rows, ∀ f ∈ fs, ∃ e : Entry, e.Fits ∧ f = framed e
  sized : ∀ fs ∈ rows, (bytesOf fs.dropLast).length ≤ size

namespace Neat

variable {size : Nat} {d d' : Disk} {home : Location} {rows more : List (List Framed)}
  {fs : List Framed} {s s' : Segment} {gone : List Segment} (h : Neat size d home rows)

include h

/-- Rows may be cut, and may go. -/
theorem of_prefixes (hsub : ∀ gs ∈ more, ∃ fs ∈ rows, gs <+: fs) : Neat size d home more := by
  refine ⟨h.draft, fun gs hgs f hf => ?_, fun gs hgs => ?_⟩ <;> obtain ⟨fs, hfs, hpre⟩ := hsub gs hgs
  · exact h.written fs hfs f (hpre.subset hf)
  · exact Nat.le_trans (length_bytesOf_le (dropLast_isPrefix hpre)) (h.sized fs hfs)

theorem of_subset (hsub : ∀ fs ∈ more, fs ∈ rows) : Neat size d home more :=
  h.of_prefixes fun fs hfs => ⟨fs, hsub fs hfs, List.prefix_refl fs⟩

/-- A new row has no frames. -/
theorem begun : Neat size d home (rows ++ [[]]) := by
  refine ⟨h.draft, fun gs hgs => ?_, fun gs hgs => ?_⟩ <;>
    rcases List.mem_append.1 hgs with hgs | hgs
  · exact h.written gs hgs
  · rw [List.mem_singleton.1 hgs]
    nofun
  · exact h.sized gs hgs
  · rw [List.mem_singleton.1 hgs]
    exact Nat.zero_le size

theorem elsewhere (hd : d'.item? (home ++ [SegmentName.recordName ++ ".tmp"]) =
    d.item? (home ++ [SegmentName.recordName ++ ".tmp"])) : Neat size d' home rows :=
  ⟨hd.trans h.draft, h.written, h.sized⟩

theorem replaced (hr : Segment.Replaces d d' home s s') : Neat size d' home rows :=
  h.elsewhere (hr.item?_ne (fun he => SegmentName.text_ne_draft s.name (append_name_inj.1 he).symm)
    fun he => SegmentName.text_ne_draft s'.name (append_name_inj.1 he).symm)

/-- Removing segments leaves no draft. -/
theorem cleared (hclears : Clears d d' (gone.map (Segment.place home))) :
    Neat size d' home rows := by
  refine h.elsewhere (hclears.item?_ne fun hmem => ?_)
  obtain ⟨x, -, hx⟩ := List.mem_map.1 hmem
  exact SegmentName.text_ne_draft x.name (append_name_inj.1 hx)

end Neat

/-- The last row takes the frame of one more entry, if it is not too long for it. -/
theorem Neat.grown {size : Nat} {d : Disk} {home : Location} {more : List (List Framed)}
    {fs : List Framed} {e : Entry} (h : Neat size d home (more ++ [fs])) (he : e.Fits)
    (hlen : (bytesOf fs).length ≤ size) : Neat size d home (more ++ [fs ++ [framed e]]) := by
  have hfs : fs ∈ more ++ [fs] := List.mem_append_right _ List.mem_cons_self
  refine ⟨h.draft, fun gs hgs f hf => ?_, fun gs hgs => ?_⟩ <;>
    rcases List.mem_append.1 hgs with hgs | hgs
  · exact h.written gs (List.mem_append_left _ hgs) f hf
  · rw [List.mem_singleton.1 hgs] at hf
    rcases List.mem_append.1 hf with hf | hf
    · exact h.written fs hfs f hf
    · exact ⟨e, he, List.mem_singleton.1 hf⟩
  · exact h.sized gs (List.mem_append_left _ hgs)
  · rwa [List.mem_singleton.1 hgs, List.dropLast_concat]

end SegmentedLog
end RaftReplica
