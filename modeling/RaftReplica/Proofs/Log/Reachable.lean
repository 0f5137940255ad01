/-
RaftReplica/Proofs/Log/Reachable.lean

The states that a log on disk gets into.  It is opened in an empty directory, called in any way,
dropped and opened again, and the process may stop at any time on the way: while the log is opened,
or in the middle of a call, with a write that was cut short (`Reachable`).

Whatever happens, a log that is open mirrors one in memory, and a directory that nobody has open
stores such a log, or is vacant, or is refused (`Reachable.sound`).  This is kept by every call and
wherever the process stops in it; calls that end with an error or break an assertion are among them,
and so are entries that are too large to be written.

The steps are those of one log, and the induction is the usual one:

* a call leads from a log that mirrors some memory to one that mirrors another (`Mirrors.change`),
  and every disk on the way is one that `Leftover` allows;
* opening leads from what is left over to a log, or refuses and leaves the same (`Leftover.opened`);
* a stop leads from an open log to what is left over.

A batch may be taken in part, so an append is said by the prefix that was taken (`Takes`), both for
the log afterwards and for the disks that it passes.
-/
import RaftReplica.Proofs.Log.Refused

namespace RaftReplica

open RaftReplica.Frame Disk

/-- The term and the index of the entry are 64-bit numbers, and its peers have addresses that are
read.  Its body may be too long to be written. -/
structure Entry.Proper (e : Entry) : Prop where
  term : e.term ≤ Numeral.max64
  index : e.index ≤ Numeral.max64
  peers : ∀ ps, e.peers = some ps → ∀ p ∈ ps, p.ip.IsV4
  former : ∀ ps, e.former = some ps → ∀ p ∈ ps, p.ip.IsV4

theorem Entry.Proper.fits {e : Entry} (h : e.Proper) (hbody : (Frame.body e).length ≤ Numeral.max32) :
    e.Fits :=
  ⟨h.term, h.index, hbody, h.peers, h.former⟩

namespace SegmentedLog

variable {d d' : Disk} {home : Location} {p : Path} {v v' : Volume} {e : Entry} {es : List Entry}
  {l l₁ : SegmentedLog} {m : MemoryLog} {w w' : Mounted SegmentedLog}

/-! ### Appending, whatever way it ends -/

/-- From `w` to `w'` the log took some of the entries, those in front first, and nothing else was
stored meanwhile. -/
def Takes (home : Location) (m : MemoryLog) (es : List Entry) (w w' : Mounted SegmentedLog) : Prop :=
  w'.store.directory = w.store.directory ∧
  (∃ batch, batch <+: es ∧
    Mirrors w'.volume.disk home w'.store { m with entries := m.entries ++ batch }) ∧
  Volume.Passes (fun d => ∃ batch, batch <+: es ∧
    Stores d home w.store.directory { m with entries := m.entries ++ batch }) w.volume w'.volume

/-- What takes some of a batch takes some of a longer one. -/
theorem Takes.mono {es' : List Entry} (h : Takes home m es w w') (hes : es <+: es') :
    Takes home m es' w w' := by
  obtain ⟨hdir, ⟨batch, hbatch, hmirrors⟩, hpass⟩ := h
  refine ⟨hdir, ⟨batch, hbatch.trans hes, hmirrors⟩, hpass.mono ?_⟩
  rintro d ⟨batch, hbatch, hd⟩
  exact ⟨batch, hbatch.trans hes, hd⟩

/-- A log that mirrors what it did before has taken nothing. -/
theorem takes_of_mirrors (hdir : w'.store.directory = w.store.directory)
    (h : Mirrors w'.volume.disk home w'.store m)
    (hpass : Volume.Passes (Stores · home w.store.directory m) w.volume w'.volume) :
    Takes home m es w w' := by
  have hsame : ({ m with entries := m.entries ++ [] } : MemoryLog) = m := by rw [List.append_nil]
  refine ⟨hdir, ⟨[], List.nil_prefix, by rwa [hsame]⟩, hpass.mono fun d hd => ⟨[], List.nil_prefix, ?_⟩⟩
  rwa [hsame]

theorem Mirrors.takes_refl (h : Mirrors v.disk home l m) : Takes home m es ⟨l, v⟩ ⟨l, v⟩ :=
  takes_of_mirrors rfl h (.refl h.stores)

/-- An entry that is too large is not written. -/
theorem runOn_append_tooLarge {s : Segment} (hopen : s.isOpen = true) (hindex : e.index = s.last + 1)
    (hbody : ¬ (Frame.body e).length ≤ Numeral.max32) :
    (s.append e).runOn v = (.error (.error (.invalidArgument (.entryTooLarge e.index))), v) := by
  rw [Segment.append, Act.runOn_bind_ok (Act.runOn_require_of hopen _ _),
    Act.runOn_bind_ok (Act.runOn_require_of (decide_eq_true hindex) _ _), encode, if_pos (by omega)]
  rfl

/-- An entry that is too large is refused; a full segment may have been sealed for it. -/
theorem Mirrors.takes_push_tooLarge (h : Mirrors v.disk home l m) (hindex : e.index = l.last + 1)
    (hmax : e.index ≤ Numeral.max64) (hbody : ¬ (Frame.body e).length ≤ Numeral.max32) :
    ∃ f w', (push e).runOn ⟨l, v⟩ = (.error f, w') ∧ Takes home m [] ⟨l, v⟩ w' := by
  obtain ⟨start, rows, h, hs, rfl⟩ := h
  obtain ⟨s, l', v', rows', hwritable, ht, hdir, hfirst, hlast, hflat, h', hs', hpass, -⟩ :=
    h.runOn_writable hs (hindex ▸ hmax)
  obtain ⟨more, fs, -, -, -, hend, -⟩ := h'.toLies.exists_last (segments_of_tail ht)
  -- the segment is ready, and may be new, when the entry is found to be too large
  have happend := runOn_append_tooLarge (v := v') (h'.toLies.tail s ht) (by omega) hbody
  have hsame : ∀ n, entriesFrom n start rows' = entriesFrom n start rows := entriesFrom_congr hflat
  refine ⟨.error (.invalidArgument (.entryTooLarge e.index)), ⟨l', v'⟩, ?_,
    takes_of_mirrors hdir ⟨start, rows', h', hs', ?_⟩ hpass⟩
  · rw [push, Act.runOn_bind_ok (Mounted.runOn_stored _),
      Act.runOn_bind_ok (Act.runOn_require_of (decide_eq_true hindex) _ _),
      Act.runOn_bind_ok hwritable]
    refine Act.runOn_bind_error ?_
    rw [Mounted.runOn_onVolume, happend]
  · rw [hfirst, hsame]

/-- **An entry** is appended, or leaves the log as it is. -/
theorem Mirrors.push_cases (h : Mirrors v.disk home l m) (he : e.Proper) :
    (∃ l' v', (push e).runOn ⟨l, v⟩ = (.ok (), ⟨l', v'⟩) ∧ l'.directory = l.directory ∧
      Mirrors v'.disk home l' { m with entries := m.entries ++ [e] } ∧
      Volume.Passes (fun d => Stores d home l.directory m ∨
        Stores d home l.directory { m with entries := m.entries ++ [e] }) v v') ∨
    ∃ f w', (push e).runOn ⟨l, v⟩ = (.error f, w') ∧ Takes home m [] ⟨l, v⟩ w' := by
  -- an entry is taken, or it is too large, or it does not continue the log
  by_cases hindex : e.index = l.last + 1
  · by_cases hbody : (Frame.body e).length ≤ Numeral.max32
    · exact .inl (h.runOn_push (he.fits hbody) hindex)
    · exact .inr (h.takes_push_tooLarge hindex he.index hbody)
  · refine .inr ⟨.violation (.appendGap l.last), ⟨l, v⟩, ?_, h.takes_refl⟩
    rw [push, Act.runOn_bind_ok (Mounted.runOn_stored _), Act.runOn_bind, Act.runOn_require,
      decide_eq_false hindex]
    rfl

/-- A batch is taken up to the first entry that is not. -/
theorem Mirrors.takes_pushAll (h : Mirrors v.disk home l m) (hes : ∀ e ∈ es, e.Proper) :
    Takes home m es ⟨l, v⟩ ((pushAll es).runOn ⟨l, v⟩).2 := by
  -- on the batch, with the log as the entries before have left it
  induction es generalizing l v m with
  | nil => exact h.takes_refl
  | cons e es ih =>
    rw [pushAll, Act.runOn_bind_ok (Act.runOn_attempt _ _)]
    rcases h.push_cases (hes e List.mem_cons_self) with
      ⟨l', v', hpush, hdir, h', hpass⟩ | ⟨f, w', hpush, htakes⟩
    · obtain ⟨hdir', ⟨batch, hbatch, hmirrors⟩, hpass'⟩ :=
        ih h' fun e he => hes e (List.mem_cons_of_mem _ he)
      rw [hpush]
      dsimp only
      rw [Act.Keeps.state_bind fun x => .pure _]
      have hmore (more : List Entry) : ({ m with entries := m.entries ++ [e] ++ more } : MemoryLog) =
          { m with entries := m.entries ++ e :: more } := by rw [← List.append_cons]
      refine ⟨hdir'.trans hdir, ⟨e :: batch, List.cons_prefix_cons.2 ⟨rfl, hbatch⟩, ?_⟩,
        (hpass.mono ?_).trans (hpass'.mono ?_)⟩
      · rw [← hmore]
        exact hmirrors
      · rintro d (hd | hd)
        · exact ⟨[], List.nil_prefix, by rwa [List.append_nil]⟩
        · exact ⟨[e], List.cons_prefix_cons.2 ⟨rfl, List.nil_prefix⟩, hd⟩
      · rintro d ⟨batch, hbatch, hd⟩
        refine ⟨e :: batch, List.cons_prefix_cons.2 ⟨rfl, hbatch⟩, ?_⟩
        rw [← hmore, ← hdir]
        exact hd
    · rw [hpush]
      cases f <;> exact htakes.mono List.nil_prefix

/-- **Whatever is appended**, the log takes some of it, and wherever the process stops it is stored
with some of it. -/
theorem Mirrors.takes_append (h : Mirrors v.disk home l m) (hes : ∀ e ∈ es, e.Proper) :
    Takes home m es ⟨l, v⟩ ((append es).runOn ⟨l, v⟩).2 := by
  have htakes := h.takes_pushAll hes
  rcases hpush : (pushAll es).runOn ⟨l, v⟩ with ⟨r, ⟨l', v'⟩⟩
  rw [hpush] at htakes
  rw [append]
  cases r with
  | error f =>
    rw [Act.runOn_bind_error hpush]
    exact htakes
  | ok x =>
    obtain ⟨n, failure⟩ := x
    obtain ⟨v'', hflush, hsame, hquiet⟩ := runOn_flush l' v'
    -- a flush takes no entry, so it does not matter whether there is one
    have hflushed : Takes home m es ⟨l, v⟩ ⟨l', v''⟩ := by
      obtain ⟨hdir, ⟨batch, hbatch, hmirrors⟩, hpass⟩ := htakes
      exact ⟨hdir, ⟨batch, hbatch, hsame ▸ hmirrors⟩, hpass.trans (hquiet _ hpass.stop)⟩
    rw [Act.runOn_bind_ok hpush]
    dsimp only
    split
    · rw [Act.runOn_bind_ok hflush]
      cases failure with
      | none => exact hflushed
      | some e => by_cases hn : n = 0 <;> simpa [hn] using hflushed
    · cases failure with
      | none => exact htakes
      | some e => by_cases hn : n = 0 <;> simpa [hn] using htakes

/-! ### What a log goes through -/

/-- The calls that change a log. -/
inductive Change
  | append (es : List Entry)
  | truncateBefore (kept : Nat)
  | truncateAfter (kept : Nat)
  | reset (next : Nat)

namespace Change

def run : Change → Act (Mounted SegmentedLog) Unit
  | append es => do let _ ← SegmentedLog.append es
  | truncateBefore kept => SegmentedLog.truncateBefore kept
  | truncateAfter kept => SegmentedLog.truncateAfter kept
  | reset next => SegmentedLog.reset next

/-- The indexes are 64-bit numbers, and the entries are proper. -/
def Proper : Change → Prop
  | append es => ∀ e ∈ es, e.Proper
  | truncateBefore kept => kept ≤ Numeral.max64
  | truncateAfter kept => kept ≤ Numeral.max64
  | reset next => next ≤ Numeral.max64

end Change

/-- The process stops at some time in an action that is begun on the disk `d`, and leaves `d'`. -/
def StopsIn {σ α : Type} (x : Act (Mounted σ) α) (store : σ) (d d' : Disk) : Prop :=
  d.LeftBy (x.runOn ⟨store, .ofDisk d⟩).2.volume.journal.reverse d'

/-- The states of a log in the directory `p`: the log, if it is open, and the disk. -/
inductive Reachable (p : Path) : Option SegmentedLog → Disk → Prop
  | vacant {d : Disk} (h : Vacant d p) : Reachable p none d
  | opened {o : Option SegmentedLog} {d : Disk} {l₁ l : SegmentedLog}
      {m : Mounted MembershipHistory} (h : Reachable p o d) (hdir : l₁.directory = p)
      (hrun : l₁.init.runOn ⟨.empty, .ofDisk d⟩ = (.ok l, m)) : Reachable p (some l) m.volume.disk
  | called {l : SegmentedLog} {d : Disk} {c : Change} {r : Except Failure Unit}
      {w : Mounted SegmentedLog} (h : Reachable p (some l) d) (hc : c.Proper)
      (hrun : c.run.runOn ⟨l, .ofDisk d⟩ = (r, w)) : Reachable p (some w.store) w.volume.disk
  | stoppedOpening {o : Option SegmentedLog} {d d' : Disk} {l₁ : SegmentedLog}
      (h : Reachable p o d) (hdir : l₁.directory = p) (hstop : StopsIn l₁.init .empty d d') :
      Reachable p none d'
  | stopped {l : SegmentedLog} {d d' : Disk} {c : Change} (h : Reachable p (some l) d)
      (hc : c.Proper) (hstop : StopsIn c.run l d d') : Reachable p none d'

/-! ### What is true of all of them -/

/-- What the next one to open the directory may find there. -/
def Leftover (d : Disk) (p : Path) : Prop :=
  Vacant d p ∨ (∃ home m, Stores d home p m) ∨ ∃ e, Refuses d p e

theorem Mirrors.leftover (h : Mirrors d home l m) : Leftover d l.directory :=
  .inr (.inl ⟨home, m, h.stores⟩)

/-- **A call** leaves a log that mirrors one in memory, whatever way it ends, and a directory that
can be opened or is refused, wherever the process stops. -/
theorem Mirrors.change (h : Mirrors v.disk home l m) {c : Change} (hc : c.Proper) {r : Except Failure Unit}
    (hrun : c.run.runOn ⟨l, v⟩ = (r, w)) :
    w.store.directory = l.directory ∧ (∃ m', Mirrors w.volume.disk home w.store m') ∧
      Volume.Passes (Leftover · l.directory) v w.volume := by
  have hsame : Volume.Passes (Leftover · l.directory) v v := .refl h.leftover
  have hw : (c.run.runOn ⟨l, v⟩).2 = w := by rw [hrun]
  -- one case for each call; the two that are unsafe leave more kinds of disks on the way
  cases c with
  | append es =>
    obtain ⟨hdir, ⟨batch, -, hmirrors⟩, hpass⟩ := h.takes_append hc
    rw [Change.run, Act.Keeps.state_bind fun _ => .pure _] at hw
    rw [hw] at hdir hmirrors hpass
    refine ⟨hdir, ⟨_, hmirrors⟩, hpass.mono ?_⟩
    rintro d ⟨batch, -, hd⟩
    exact .inr (.inl ⟨home, _, hd⟩)
  | truncateBefore kept =>
    obtain ⟨l', v', hcall, hdir, hmirrors, hpass⟩ := h.runOn_truncateBefore hc
    obtain ⟨-, rfl⟩ := Prod.mk.inj (hcall.symm.trans hrun)
    refine ⟨hdir, ⟨_, hmirrors⟩, hpass.mono ?_⟩
    rintro d (hd | hd) <;> exact .inr (.inl ⟨home, _, hd⟩)
  | truncateAfter kept =>
    by_cases hle : l.first ≤ kept + 1
    · obtain ⟨l', v', hcall, hdir, hmirrors, hpass⟩ := h.runOn_truncateAfter hle
      obtain ⟨-, rfl⟩ := Prod.mk.inj (hcall.symm.trans hrun)
      refine ⟨hdir, ⟨_, hmirrors⟩, hpass.mono ?_⟩
      rintro d (⟨b, -, hd⟩ | ⟨s, -, hd⟩)
      · exact .inr (.inl ⟨home, _, hd⟩)
      · exact .inr (.inr ⟨_, hd.refused⟩)
    · obtain ⟨-, rfl⟩ := Prod.mk.inj ((runOn_truncateAfter_below hle).symm.trans hrun)
      exact ⟨rfl, ⟨m, h⟩, hsame⟩
  | reset next =>
    by_cases hzero : next = 0
    · subst hzero
      obtain ⟨-, rfl⟩ := Prod.mk.inj (runOn_reset_zero.symm.trans hrun)
      exact ⟨rfl, ⟨m, h⟩, hsame⟩
    · obtain ⟨l', v', hcall, hdir, hmirrors, hpass⟩ := h.runOn_reset hzero hc
      obtain ⟨-, rfl⟩ := Prod.mk.inj (hcall.symm.trans hrun)
      refine ⟨hdir, ⟨_, hmirrors⟩, hpass.mono ?_⟩
      rintro d (hd | hd | ⟨hle, hd⟩)
      · exact .inr (.inl ⟨home, _, hd⟩)
      · exact .inr (.inl ⟨home, _, hd⟩)
      · rcases hd.refused_or_stores hle with ⟨first, -, hrefuses⟩ | ⟨es, hstores, -⟩
        · exact .inr (.inr ⟨_, hrefuses⟩)
        · exact .inr (.inl ⟨home, _, hstores⟩)

/-- **Opening a directory** gives a log that mirrors one in memory, if it gives a log, and leaves
the directory to whoever opens it next wherever the process stops. -/
theorem Leftover.opened (h : Leftover d p) (hdir : l₁.directory = p) {r : Except Failure SegmentedLog}
    {w : Mounted MembershipHistory} (hrun : l₁.init.runOn ⟨.empty, .ofDisk d⟩ = (r, w)) :
    (∀ l, r = .ok l → l.directory = p ∧ ∃ home m, Mirrors w.volume.disk home l m) ∧
      Volume.Passes (Leftover · p) (.ofDisk d) w.volume := by
  rcases h with ⟨hw, v, hmake, hempty⟩ | ⟨home, m, hstores⟩ | ⟨e, hrefuses⟩
  · obtain ⟨home, l, m', hinit, hdir', hmirrors, hpass⟩ :=
      runOn_init_empty (v := .ofDisk d) hw hmake hempty hdir
    obtain ⟨rfl, rfl⟩ := Prod.mk.inj (hinit.symm.trans hrun)
    refine ⟨fun l' hl => ?_, hpass.mono ?_⟩
    · obtain rfl := Except.ok.inj hl
      exact ⟨hdir', home, _, hmirrors⟩
    · rintro d (hd | hd)
      · exact .inl hd
      · exact .inr (.inl ⟨home, _, hd⟩)
  · obtain ⟨l, m', hinit, hdir', hmirrors, hpass⟩ :=
      Stores.runOn_init (v := .ofDisk d) hstores hdir
    obtain ⟨rfl, rfl⟩ := Prod.mk.inj (hinit.symm.trans hrun)
    refine ⟨fun l' hl => ?_, hpass.mono fun d hd => .inr (.inl ⟨home, _, hd⟩)⟩
    obtain rfl := Except.ok.inj hl
    exact ⟨hdir', home, _, hmirrors⟩
  · obtain ⟨hist, hinit⟩ := hrefuses l₁ hdir
    obtain ⟨rfl, rfl⟩ := Prod.mk.inj (hinit.symm.trans hrun)
    exact ⟨fun l hl => absurd hl (by simp), .refl (.inr (.inr ⟨e, hrefuses⟩))⟩

/-- An open log mirrors one in memory; a directory that nobody has open is one that can be opened or
is refused. -/
def Sound (p : Path) : Option SegmentedLog → Disk → Prop
  | some l, d => l.directory = p ∧ ∃ home m, Mirrors d home l m
  | none, d => Leftover d p

theorem Sound.leftover {o : Option SegmentedLog} (h : Sound p o d) : Leftover d p := by
  cases o with
  | none => exact h
  | some l =>
    obtain ⟨rfl, home, m, hmirrors⟩ := h
    exact hmirrors.leftover

/-- **Every state that is reached is sound.** -/
theorem Reachable.sound {o : Option SegmentedLog} (h : Reachable p o d) : Sound p o d := by
  induction h with
  | vacant h => exact .inl h
  | opened _ hdir hrun ih => exact (ih.leftover.opened hdir hrun).1 _ rfl
  | @called l d c r w _ hc hrun ih =>
    obtain ⟨rfl, home, m, hmirrors⟩ := ih
    obtain ⟨hdir, hmirrors', -⟩ := hmirrors.change (v := .ofDisk d) hc hrun
    exact ⟨hdir, home, hmirrors'⟩
  | stoppedOpening _ hdir hstop ih =>
    obtain ⟨-, hpass⟩ := ih.leftover.opened hdir rfl
    exact hpass.left hstop
  | @stopped l d d' c _ hc hstop ih =>
    obtain ⟨rfl, home, m, hmirrors⟩ := ih
    obtain ⟨-, -, hpass⟩ := hmirrors.change (v := .ofDisk d) hc rfl
    exact hpass.left hstop

end SegmentedLog
end RaftReplica
