/-
RaftReplica/Proofs/Log/Steady.lean

A log is opened with whatever history its owner hands over.  The history may refuse what it hears of,
and then the log is not opened; but the files that a log stands on are only read up to there, and
what is read does not depend on the history (`Steady`).  So either the log is opened as it is with an
empty history, or nothing happened to the disk (`Stands.runOn_init_any`).

`Steady v x` says of a step `x`, from the volume `v` and any history: the volume stays as it is, and
there is one result that it can have, if it has one.  Steps that are steady can be done one after the
other (`bind`), and two runs of a steady step from different histories are compared by
`runOn_bind_cases`: the second fails, or goes on as the first did.

Loading the segments of a log that stands is steady, since no file has to be cut.  Removing what is
stale is not, but it comes last and does not look at the history.
-/
import RaftReplica.Proofs.Log.Stored

namespace RaftReplica

open RaftReplica.Frame Disk

variable {α β : Type} {v : Volume}

/-- Whatever history the action is run with, it leaves the volume `v` as it is, and it has no two
results. -/
def Steady (v : Volume) (x : Act (Mounted MembershipHistory) α) : Prop :=
  ∃ o : Option α, Act.Ensures (fun m => m.volume = v) x fun a => a ∈ o

namespace Steady

variable {x y : Act (Mounted MembershipHistory) α} {f : α → Act (Mounted MembershipHistory) β}

theorem pure (a : α) : Steady v (pure a) := ⟨some a, .pure rfl⟩

theorem ofExcept (r : Except Error α) : Steady v (Act.ofExcept r) :=
  ⟨r.toOption, .ofExcept fun a ha => by rw [ha]; rfl⟩

/-- Steady steps are steady one after the other. -/
theorem bind (hx : Steady v x) (hf : ∀ a, Steady v (f a)) : Steady v (x >>= f) := by
  obtain ⟨o, hx⟩ := hx
  cases o with
  | none => exact ⟨none, hx.bind fun a ha => absurd ha (by simp)⟩
  | some a =>
    obtain ⟨o, hf⟩ := hf a
    exact ⟨o, hx.bind fun b hb => Option.some.inj hb ▸ hf⟩

/-- Only the runs on `v` count. -/
theorem congr (hy : Steady v y) (h : ∀ hist, x.runOn ⟨hist, v⟩ = y.runOn ⟨hist, v⟩) :
    Steady v x := by
  obtain ⟨o, hy⟩ := hy
  refine ⟨o, ?_⟩
  rintro ⟨hist, _⟩ rfl
  rw [h hist]
  exact hy _ rfl

/-- Telling the history changes nothing but the history. -/
theorem tell (ms : List Membership) : Steady v (Segment.tell ms) := by
  refine ⟨some (), .mono (.of_preserves (Act.Keeps.preserves ?_ v)) fun _ _ => rfl⟩
  induction ms with
  | nil => exact .pure ()
  | cons m ms ih =>
    exact .bind (fun _ => rfl) fun h => .bind (.ofExcept _) fun _ => .bind (fun _ => rfl) fun _ => ih

/-- What follows a steady action is run on the same volume, and with the same result, as it was with
another history; or the action fails, and nothing happened. -/
theorem runOn_bind_cases (hx : Steady v x) {hist₀ : MembershipHistory} {b : β}
    {m₀ : Mounted MembershipHistory} (h₀ : (x >>= f).runOn ⟨hist₀, v⟩ = (.ok b, m₀))
    (hist : MembershipHistory) :
    (∃ e m, (x >>= f).runOn ⟨hist, v⟩ = (.error e, m) ∧ m.volume = v) ∨
    ∃ a told told₀, (f a).runOn ⟨told₀, v⟩ = (.ok b, m₀) ∧
      (x >>= f).runOn ⟨hist, v⟩ = (f a).runOn ⟨told, v⟩ := by
  obtain ⟨o, hx⟩ := hx
  obtain ⟨a₀, ⟨told₀, v₀⟩, hx₀, hf₀⟩ := Act.eq_ok_of_bind h₀
  obtain ⟨hv₀, ha₀⟩ := hx ⟨hist₀, v⟩ rfl
  obtain ⟨hv, ha⟩ := hx ⟨hist, v⟩ rfl
  rw [hx₀] at hv₀ ha₀
  obtain rfl : v₀ = v := hv₀
  rcases hrun : x.runOn ⟨hist, v₀⟩ with ⟨r, ⟨told, v₁⟩⟩
  rw [hrun] at hv ha
  obtain rfl : v₁ = v₀ := hv
  cases r with
  | error e => exact .inl ⟨e, _, Act.runOn_bind_error hrun, rfl⟩
  | ok a =>
    obtain rfl : a = a₀ := Option.mem_unique (ha a rfl) (ha₀ a₀ rfl)
    exact .inr ⟨a, told, told₀, hf₀, Act.runOn_bind_ok hrun⟩

end Steady

variable {home : Location} {p : Path} {s : Segment} {fs : List Framed}

/-- **A segment on its row** is only read. -/
theorem Segment.Holds.steady_load (h : s.Holds v.disk home p fs)
    (leads : v.disk.directoryAt p = .ok home) : Steady v s.unread.load := by
  obtain ⟨k, hfile, -, -⟩ := h.eq_opened
  have hfile' : v.disk.item? (s.unread.place home) = some (.file k (bytesOf fs ++ [])) := by
    rwa [List.append_nil, place_eq_of_name (name_unread s)]
  refine Steady.congr ?_ fun hist => load_eq_tell (m := ⟨hist, v⟩) leads
    (by rw [directory_unread, h.directory]) hfile' unfinished_nil (by rw [first_unread]; exact h.row)
  -- nothing stands behind the row, so the file is not cut
  rw [List.append_nil, if_neg (not_not.2 rfl)]
  exact (Steady.tell _).bind fun _ => (Steady.ofExcept _).bind fun _ => .pure _

namespace SegmentedLog

variable {start n : Nat} {rows : List (List Framed)} {l l₁ : SegmentedLog} {done : Loaded}
  {ss : List Segment}

/-- Sealed segments are loaded without a look at the history but to tell it something. -/
theorem steady_loadClosed (h : ∀ s ∈ ss, Steady v s.load) : Steady v (loadClosed n done ss) := by
  induction ss generalizing done with
  | nil => exact .pure done
  | cons s ss ih =>
    have hrest (done : Loaded) : Steady v (loadClosed n done ss) :=
      ih fun t ht => h t (List.mem_cons_of_mem _ ht)
    unfold loadClosed
    split
    · exact hrest _
    · exact (Steady.ofExcept _).bind fun _ => (h s List.mem_cons_self).bind fun _ => hrest _

/-- The segment to write to is loaded in the same way. -/
theorem steady_loadTail {t : Option Segment} (h : ∀ s ∈ t, Steady v s.load) :
    Steady v (loadTail n done t) := by
  cases t with
  | none => exact .pure done
  | some s =>
    refine (Steady.ofExcept _).bind fun _ => (h s rfl).bind fun s => ?_
    split
    · exact .pure _
    · exact .pure _

/-- **With any history** a log that stands is opened as with an empty one, or not at all. -/
theorem Stands.runOn_init_any (h : Stands v.disk home l start rows)
    (hs : Starts v.disk l.directory n) (hdir : l₁.directory = l.directory) {l' : SegmentedLog}
    {m₀ : Mounted MembershipHistory} (h₀ : l₁.init.runOn ⟨.empty, v⟩ = (.ok l', m₀))
    (hist : MembershipHistory) :
    (∃ m, l₁.init.runOn ⟨hist, v⟩ = (.ok l', m) ∧ m.volume = m₀.volume) ∨
    ∃ e m, l₁.init.runOn ⟨hist, v⟩ = (.error e, m) ∧ m.volume = v := by
  obtain ⟨names, hlist, hfound⟩ := h.kept.found h.tidy.unmixed h.wellFormed h.leads fun _ => Iff.rfl
  have hload : ∀ s ∈ l.segments, Steady v s.unread.load := by
    intro s hs
    obtain ⟨fs, -, hold⟩ := h.holds.exists_row hs
    exact hold.steady_load h.leads
  have hclosed : Steady v (loadClosed n {} (l.closed.map Segment.unread)) := by
    refine steady_loadClosed fun t ht => ?_
    obtain ⟨s, hs, rfl⟩ := List.mem_map.1 ht
    exact hload s (mem_segments.2 (.inl hs))
  have htail (done : Loaded) : Steady v (loadTail n done (l.tail.map Segment.unread)) := by
    refine steady_loadTail fun t ht => ?_
    obtain ⟨s, hs, rfl⟩ := Option.map_eq_some_iff.1 ht
    exact hload s (mem_segments.2 (.inr hs))
  rw [← hdir] at hs hlist hfound
  have hopens := init_eq (hdir ▸ h.leads) hs hlist hfound
  rw [hopens] at h₀ ⊢
  rcases hclosed.runOn_bind_cases h₀ hist with hfails | ⟨done, told, told₀, h₀, hrun⟩
  · exact .inr hfails
  rw [hrun]
  rcases (htail done).runOn_bind_cases h₀ told with hfails | ⟨done, told, told₀, h₀, hrun⟩
  · exact .inr hfails
  -- what is left to do is about the volume
  obtain ⟨_, _, hmounted, hpure⟩ := Act.eq_ok_of_bind h₀
  obtain ⟨v', hunlink, rfl⟩ := Mounted.eq_ok_of_onVolume hmounted
  obtain ⟨hl', rfl⟩ := Prod.mk.inj hpure
  rw [hrun, Act.runOn_bind_ok (Mounted.runOn_onVolume_ok (m := ⟨told, v⟩) hunlink)]
  exact .inl ⟨_, Prod.ext hl' rfl, rfl⟩

end SegmentedLog
end RaftReplica
