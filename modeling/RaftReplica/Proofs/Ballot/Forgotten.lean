/-
RaftReplica/Proofs/Ballot/Forgotten.lean

Groups that a book of ballots forgets.  Whatever was asked of a book, its record was written from the
ballots that were cast last (`BallotBook.Holds`): a call that fails leaves them as they were, and so
does the end of a process.  A book that is opened reads them again, unless one of them is for a peer
whose address is not read (`BallotBook.runOn_init_wrote`).  Then it cannot be opened, and no group
can be forgotten; otherwise one is, and the ballots of the others stay.

`Holds` is weaker than being alike to a memory: it says what a record was written from, not that it
can be read.  So it is kept by calls with any peer whatever, also with one that makes the record
unreadable:

* setting and deleting write all ballots anew, or fail and leave the record (`kept_replace`);
* initialising reads the record and changes nothing on the disk (`preserves_init`);
* a book that was not opened writes nothing.

By induction over the calls the record holds what was cast in the end (`kept_after`).  Terms are
taken to be of 64 bits, as the terms of an election are (`Bounded`); the memory of a process may be
lost at any time, since only the record is spoken of.
-/
import RaftReplica.Proofs.Ballot.Store
import RaftReplica.Proofs.Readable

namespace RaftReplica

open Json Disk Record Peer

namespace Ballots

variable {ballots : Ballots}

/-- The terms are 64-bit numbers. -/
def Bounded (ballots : Ballots) : Prop := ∀ r ∈ ballots.rows, r.2.term ≤ Numeral.max64

/-- Casting a ballot keeps the terms bounded if its own term is. -/
theorem Bounded.insert (h : ballots.Bounded) (group : String) {b : Ballot}
    (hb : b.term ≤ Numeral.max64) : Bounded (ballots.insert group b) := by
  intro r hr
  rcases Table.mem_place_value hr with hv | hr
  · exact hv ▸ hb
  · exact h r hr

theorem Bounded.erase (h : ballots.Bounded) (group : String) : Bounded (ballots.erase group) :=
  fun r hr => h r (Table.mem_erase_iff.1 hr).1

theorem Fits.erase (h : ballots.Fits) (group : String) : Fits (ballots.erase group) :=
  Nat.le_trans (length_encode_erase_le ballots group) h

/-- If all peers are read, so are those of the other groups. -/
theorem allRead_erase (h : AllRead ballots.votedFor) (group : String) :
    AllRead (votedFor (ballots.erase group)) := by
  intro p hp
  obtain ⟨r, hr, rfl⟩ := List.mem_map.1 hp
  exact h _ (List.mem_map.2 ⟨r, (Table.mem_erase_iff.1 hr).1, rfl⟩)

/-- The other groups keep their ballots. -/
theorem of_erase (ballots : Ballots) (group other : String) :
    of (ballots.erase group) other = if other = group then .initial else ballots.of other := by
  rw [of, Table.get?_erase, of]
  simp only [Table.sameKey_string_iff]
  split <;> rfl

end Ballots

namespace BallotBook

open Ballots

variable {w : Mounted BallotBook} {v v₁ : Volume} {p : Path} {home : Location}
  {ballots others : Ballots}

/-- What a book answers that cannot read its record. -/
abbrev damaged (p : Path) : Failure := .error (.corrupted (.badRecord (p.entry "merged_meta").text))

/-- **A book is opened** on what was written: it has the ballots, unless one of them is for a peer
whose address is not read. -/
theorem runOn_init_wrote (sync : Bool) (hmake : (Volume.makeDirectories p).runOn v = (.ok (), v₁))
    (h : Wrote v₁.disk home p "merged_meta" Table.empty ballots) (hb : ballots.Bounded) :
    BallotBook.init.runOn ⟨{ directory := p, sync }, v⟩ =
      if AllRead ballots.votedFor then
        (.ok (), ⟨{ directory := p, sync, current := some ballots }, v₁⟩)
      else (.error (damaged p), ⟨{ directory := p, sync }, v₁⟩) := by
  -- the record is read exactly if the peers of all ballots are; nothing else can go wrong
  have hcarries := carries_ballots hb
  split
  · next hread => exact runOn_init sync hmake (.of_wrote h (hcarries.told hread))
  · next hread =>
    -- no ballot at all is read in any case, so there is one, and the record is on the disk
    have hne : ballots ≠ Table.empty := by
      rintro rfl
      exact hread allRead_nil
    have hload := h.runOn_load?_unreadable plain_name hne (by rw [hcarries.decode?_encode, if_neg hread])
    rw [BallotBook.init, Act.runOn_bind_ok (Mounted.runOn_stored _)]
    show Act.runOn (_ >>= _) _ = _
    rw [Act.runOn_bind_ok (Mounted.runOn_onVolume_ok hmake)]
    refine Act.runOn_bind_error ?_
    rw [Mounted.runOn_onVolume, file, hload]

/-- The record of the book at `p` was written from the ballots, and if the book is open it has
them. -/
structure Holds (home : Location) (p : Path) (w : Mounted BallotBook) (ballots : Ballots) : Prop where
  directory : w.store.directory = p
  current : ∀ others ∈ w.store.current, others = ballots
  wrote : Wrote w.volume.disk home p "merged_meta" Table.empty ballots
  bounded : ballots.Bounded

namespace Holds

variable (h : Holds home p w ballots)
include h

/-- What was written fits into a record. -/
theorem fits : ballots.Fits := by
  rcases h.wrote.record with ⟨-, rfl⟩ | ⟨-, hfits⟩
  · decide +kernel
  · exact hfits

/-- A new process opens it. -/
theorem runOn_init (sync : Bool) : BallotBook.init.runOn ⟨{ directory := p, sync }, w.volume⟩ =
    if AllRead ballots.votedFor then
      (.ok (), ⟨{ directory := p, sync, current := some ballots }, w.volume⟩)
    else (.error (damaged p), ⟨{ directory := p, sync }, w.volume⟩) :=
  runOn_init_wrote sync (Volume.runOn_makeDirectories h.wrote.leads) h.wrote h.bounded

/-- A group is forgotten if the ballots are read, and then the others are read again. -/
theorem runOn_forget (hread : AllRead ballots.votedFor) (sync : Bool) (group : String) : ∃ v',
    (do BallotBook.init; BallotBook.delete group : Act (Mounted BallotBook) Unit).runOn
        ⟨{ directory := p, sync }, w.volume⟩ =
      (.ok (), ⟨{ directory := p, sync, current := some (ballots.erase group) }, v'⟩) ∧
    BallotBook.init.runOn ⟨{ directory := p, sync }, v'⟩ =
      (.ok (), ⟨{ directory := p, sync, current := some (ballots.erase group) }, v'⟩) := by
  have hinit := h.runOn_init sync
  rw [if_pos hread] at hinit
  -- what is left is read, since all of it was
  have hagain {v' : Volume}
      (hwrote : Wrote v'.disk home p "merged_meta" Table.empty (ballots.erase group)) :
      BallotBook.init.runOn ⟨{ directory := p, sync }, v'⟩ =
        (.ok (), ⟨{ directory := p, sync, current := some (ballots.erase group) }, v'⟩) := by
    rw [runOn_init_wrote sync (Volume.runOn_makeDirectories hwrote.leads) hwrote
      (h.bounded.erase group), if_pos (allRead_erase hread group)]
  have hdelete := runOn_delete (w := ⟨{ directory := p, sync, current := some ballots }, w.volume⟩)
    rfl group
  -- a group that is unknown is forgotten without a write
  cases hcontains : ballots.contains group with
  | false =>
    have hnone : ballots.get? group = none := by simpa [Table.contains] using hcontains
    have hsame : ballots.erase group = ballots := Table.erase_of_get?_eq_none hnone
    rw [if_neg (by simp [hcontains])] at hdelete
    refine ⟨w.volume, ?_, hagain (hsame.symm ▸ h.wrote)⟩
    rw [Act.runOn_bind_ok hinit, hdelete, hsame]
  | true =>
    rw [if_pos hcontains] at hdelete
    obtain ⟨v', hrun, hwrote⟩ := runOn_replace
      (w := ⟨{ directory := p, sync, current := some ballots }, w.volume⟩) h.wrote
      (h.fits.erase group)
    exact ⟨v', by rw [Act.runOn_bind_ok hinit, hdelete, hrun], hagain hwrote⟩

/-- Otherwise nothing is forgotten, and nothing changes. -/
theorem runOn_forget_unread (hread : ¬ AllRead ballots.votedFor) (sync : Bool) (group : String) :
    (do BallotBook.init; BallotBook.delete group : Act (Mounted BallotBook) Unit).runOn
        ⟨{ directory := p, sync }, w.volume⟩ =
      (.error (damaged p), ⟨{ directory := p, sync }, w.volume⟩) := by
  have hinit := h.runOn_init sync
  rw [if_neg hread] at hinit
  exact Act.runOn_bind_error hinit

end Holds

/-! ### Calls -/

/-- The book holds some ballots. -/
def Kept (home : Location) (p : Path) (w : Mounted BallotBook) : Prop :=
  ∃ ballots, Holds home p w ballots

/-- Other ballots take the place of those that it holds, if they fit into a record. -/
theorem Holds.kept_replace (h : Holds home p w ballots) (hb : others.Bounded) :
    Kept home p ((replace others).runOn w).2 := by
  obtain rfl := h.directory
  by_cases hfits : others.Fits
  · obtain ⟨v', hrun, hwrote⟩ := runOn_replace h.wrote hfits
    rw [hrun]
    exact ⟨others, rfl, fun _ ho => (Option.some.inj ho).symm, hwrote, hb⟩
  · rw [runOn_replace_tooLarge w hfits]
    exact ⟨ballots, h⟩

/-- Opening a book leaves its record as it is. -/
theorem preserves_init : Act.Preserves (Kept home p) BallotBook.init := by
  rintro ⟨⟨directory, sync, current⟩, volume⟩ ⟨ballots, h⟩
  obtain rfl : directory = p := h.directory
  cases current with
  | some others => exact ⟨ballots, h⟩
  | none =>
    refine ⟨ballots, ?_⟩
    rw [h.runOn_init sync]
    split
    · exact ⟨rfl, fun _ ho => (Option.some.inj ho).symm, h.wrote, h.bounded⟩
    · exact h

/-- A ballot is cast, or the call fails and the ballots are those that were there. -/
theorem preserves_set (group : String) {b : Ballot} (hb : b.term ≤ Numeral.max64) :
    Act.Preserves (Kept home p) (BallotBook.set group b) := by
  rintro w ⟨ballots, h⟩
  cases hcurrent : w.store.current with
  | none =>
    rw [runOn_set_unopened hcurrent]
    exact ⟨ballots, h⟩
  | some others =>
    obtain rfl := h.current others hcurrent
    rw [runOn_set hcurrent]
    exact h.kept_replace (h.bounded.insert group hb)

/-- A group is forgotten, or the call fails and the ballots are those that were there. -/
theorem preserves_delete (group : String) :
    Act.Preserves (Kept home p) (BallotBook.delete group) := by
  rintro w ⟨ballots, h⟩
  -- a book that was not opened refuses
  cases hcurrent : w.store.current with
  | none =>
    rw [runOn_delete_unopened hcurrent]
    exact ⟨ballots, h⟩
  | some others =>
    obtain rfl := h.current others hcurrent
    rw [runOn_delete hcurrent]
    split
    · exact h.kept_replace (h.bounded.erase group)
    · exact ⟨others, h⟩

end BallotBook

namespace BookCall

open BallotBook

variable {home : Location} {p : Path} {c : BookCall} {cs : List BookCall} {w : Mounted BallotBook}

/-- Ballots are cast with terms that are 64-bit numbers. -/
def Bounded : BookCall → Prop
  | set _ b => b.term ≤ Numeral.max64
  | _ => True

/-- The book after calls. -/
def after (cs : List BookCall) (w : Mounted BallotBook) : Mounted BallotBook :=
  cs.foldl (fun w c => (c.onBook.runOn w).2) w

/-- **Every call** leaves a book that holds ballots, whatever way it ends. -/
theorem preserves_onBook (hc : c.Bounded) : Act.Preserves (Kept home p) c.onBook := by
  cases c with
  | init => exact preserves_init.bind fun _ => .pure none
  | reopen sync =>
    refine .bind ?_ fun _ => preserves_init.bind fun _ => .pure none
    rintro w ⟨ballots, h⟩
    exact ⟨ballots, h.directory, nofun, h.wrote, h.bounded⟩
  | set group b => exact (preserves_set group hc).bind fun _ => .pure none
  | get group =>
    exact .bind (fun _ h => h) fun s => .bind (.ofExcept (s.get group)) fun b => .pure (some b)
  | delete group => exact (preserves_delete group).bind fun _ => .pure none

/-- So does every run of calls. -/
theorem kept_after (h : Kept home p w) (hcs : ∀ c ∈ cs, c.Bounded) : Kept home p (after cs w) := by
  induction cs generalizing w with
  | nil => exact h
  | cons c cs ih =>
    exact ih (preserves_onBook (hcs c List.mem_cons_self) w h) fun c hc => hcs c (.tail _ hc)

end BookCall
end RaftReplica
