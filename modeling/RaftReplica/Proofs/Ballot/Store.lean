/-
RaftReplica/Proofs/Ballot/Store.lean

Stores of ballots remember what they were told.  The ballots of many groups are answered as by a
memory that is given the same calls, though the book of ballots may be closed and opened again
between any two of them; the ballot of one group is the last one that was cast.

A book and a memory are alike if both have the same ballots and the book's record tells them
(`BallotBook.Alike`).  Every call keeps them alike and is answered by both in the same way
(`BookCall.alike`), and so is every run of calls.  Calls on a store that was not initialised are
refused, and a ballot that could not be written was not cast (`BallotStore.remembers`).

A record cannot be of any length, while a memory can.  So the book is compared with a memory that
refuses what does not fit into a record (`BookCall.limited`); with ballots that fit it is the memory
itself (`limited_eq`).

* One call.  `BookCall.alike` has a case for each call.  Opening again reads the record, which tells
  the ballots; setting and deleting go through one function, which writes all ballots anew
  (`alike_replace`).
* A run of calls, by induction from there (`answers_alike`, `answers_byLast`).
* The start.  A directory without a record and without a draft of one is opened with no ballots
  (`answers_opened`), like a memory that was just initialised.

The store for one group has the last ballot in place of a memory (`SingleBallot.Knows`), and its
ballot always fits.
-/
import RaftReplica.Proofs.Ballot.Record
import RaftReplica.Proofs.Table

namespace RaftReplica

open Json Disk Record

/-! ### Calls -/

/-- What is asked of the ballots of many groups; they are opened again by a new process. -/
inductive BookCall
  | init
  | reopen (sync : Bool)
  | set (group : String) (b : Ballot)
  | get (group : String)
  | delete (group : String)
  deriving DecidableEq, Repr

/-- What is asked of the ballot of one group. -/
inductive BallotCall
  | init
  | reopen (sync : Bool)
  | set (b : Ballot)
  | get
  deriving DecidableEq, Repr

/-- What calls answer, one after another. -/
def answers {κ σ α : Type} (serve : κ → σ → Except Failure α × σ) :
    List κ → σ → List (Except Failure α)
  | [], _ => []
  | c :: cs, s =>
    let (answer, s) := serve c s
    answer :: answers serve cs s

theorem answers_cons {κ σ α : Type} (serve : κ → σ → Except Failure α × σ) (c : κ) (cs : List κ)
    (s : σ) : answers serve (c :: cs) s = (serve c s).1 :: answers serve cs (serve c s).2 := rfl

/-- The ballots fit into a record. -/
def Ballots.Fits (ballots : Ballots) : Prop := (encode ballots).length ≤ Numeral.max32

instance (ballots : Ballots) : Decidable ballots.Fits :=
  inferInstanceAs (Decidable ((encode ballots).length ≤ Numeral.max32))

namespace BookCall

/-- Ballots are cast with terms and peers that can be told. -/
def Proper : BookCall → Prop
  | set _ b => b.Proper
  | _ => True

/-- Makes a call on a book. -/
def onBook : BookCall → Act (Mounted BallotBook) (Option Ballot)
  | init => do
    BallotBook.init
    return none
  | reopen sync => do
    modify fun m => ⟨{ directory := m.store.directory, sync }, m.volume.restarted⟩
    BallotBook.init
    return none
  | set group b => do
    BallotBook.set group b
    return none
  | get group => do return some (← Act.ofExcept ((← Mounted.stored).get group))
  | delete group => do
    BallotBook.delete group
    return none

/-- Makes a call on a memory, which is not opened again. -/
def onMemory : BookCall → Act BallotMemory (Option Ballot)
  | init => do
    modify BallotMemory.init
    return none
  | reopen _ => return none
  | set group b => do
    MonadState.set (← Act.ofExcept ((← MonadState.get).set group b))
    return none
  | get group => do return some (← Act.ofExcept ((← MonadState.get).get group))
  | delete group => do
    MonadState.set (← Act.ofExcept ((← MonadState.get).delete group))
    return none

/-- Makes a call on a memory, unless the ballots would not fit into a record any more. -/
def limited (c : BookCall) (m : BallotMemory) : Except Failure (Option Ballot) × BallotMemory :=
  let (answer, m') := c.onMemory.runOn m
  match m'.current with
  | none => (answer, m')
  | some ballots =>
    if ballots.Fits then (answer, m')
    else (.error (.error (.invalidArgument (.recordTooLarge (encode ballots).length))), m)

end BookCall

namespace BallotCall

/-- The ballot is cast with a term and a peer that can be told. -/
def Proper : BallotCall → Prop
  | set b => b.Proper
  | _ => True

/-- Makes a call on a single ballot. -/
def onSingle : BallotCall → Act (Mounted SingleBallot) (Option Ballot)
  | init => do
    SingleBallot.init
    return none
  | reopen sync => do
    modify fun m => ⟨{ directory := m.store.directory, sync }, m.volume.restarted⟩
    SingleBallot.init
    return none
  | set b => do
    SingleBallot.set b
    return none
  | get => do return some (← Act.ofExcept (← Mounted.stored).get)

/-- What is answered if `last` is the last ballot that was cast. -/
def byLast : BallotCall → Ballot → Except Failure (Option Ballot) × Ballot
  | set b, _ => (.ok none, b)
  | get, last => (.ok (some last), last)
  | _, last => (.ok none, last)

end BallotCall

/-! ### Many groups -/

namespace BallotBook

variable {w : Mounted BallotBook} {v v₁ : Volume} {m : BallotMemory} {p : Path} {home : Location}
  {ballots others : Ballots} {sync : Bool}

theorem plain_name : Path.Plain "merged_meta" := ⟨by decide, by decide, by decide⟩

/-- A book and a memory have the same ballots, and the record of the book tells them. -/
structure Alike (w : Mounted BallotBook) (m : BallotMemory) (ballots : Ballots) : Prop where
  book : w.store.current = some ballots
  memory : m.current = some ballots
  tells : ∃ home, Tells w.volume.disk home w.store.directory "merged_meta" Table.empty ballots
  fits : ballots.Fits
  proper : ∀ r ∈ ballots.rows, r.2.Proper

theorem told_ballots (h : ∀ r ∈ ballots.rows, r.2.Proper) : Told ballots :=
  told_table fun r hr => told_ballot (h r hr)

/-- A book that is opened has the ballots that its record tells. -/
theorem runOn_init (sync : Bool) (hmake : (Volume.makeDirectories p).runOn v = (.ok (), v₁))
    (h : Tells v₁.disk home p "merged_meta" Table.empty ballots) :
    BallotBook.init.runOn ⟨{ directory := p, sync }, v⟩ =
      (.ok (), ⟨{ directory := p, sync, current := some ballots }, v₁⟩) := by
  obtain ⟨found, hload, hfound⟩ := h.runOn_load? plain_name
  rw [BallotBook.init, Act.runOn_bind_ok (Mounted.runOn_stored _)]
  show Act.runOn (_ >>= _) _ = _
  rw [Act.runOn_bind_ok (Mounted.runOn_onVolume_ok hmake),
    Act.runOn_bind_ok (Mounted.runOn_onVolume_ok hload), ← hfound]
  rfl

/-- Ballots are replaced by others that fit into a record. -/
theorem runOn_replace (h : Wrote w.volume.disk home w.store.directory "merged_meta" Table.empty ballots)
    (hfits : others.Fits) : ∃ v',
    (replace others).runOn w = (.ok (), ⟨{ w.store with current := some others }, v'⟩) ∧
      Wrote v'.disk home w.store.directory "merged_meta" Table.empty others := by
  obtain ⟨v', hsave, -, hwrote⟩ := h.runOn_save plain_name hfits w.store.sync
  refine ⟨v', ?_, hwrote⟩
  rw [replace, Act.runOn_bind_ok (Mounted.runOn_stored _)]
  exact Act.runOn_bind_ok (Mounted.runOn_onVolume_ok hsave)

/-- Other ballots that fit are written, and both have them then. -/
theorem Alike.runOn_replace (h : Alike w m ballots) (hfits : others.Fits)
    (hproper : ∀ r ∈ others.rows, r.2.Proper) :
    ∃ w', (replace others).runOn w = (.ok (), w') ∧ Alike w' ⟨some others⟩ others := by
  obtain ⟨home, htells⟩ := h.tells
  obtain ⟨v', hrun, hwrote⟩ := BallotBook.runOn_replace htells.wrote hfits
  exact ⟨_, hrun, rfl, rfl, ⟨home, .of_wrote hwrote (told_ballots hproper)⟩, hfits, hproper⟩

/-- Others are refused. -/
theorem runOn_replace_tooLarge (w : Mounted BallotBook) (h : ¬ others.Fits) :
    (replace others).runOn w =
      (.error (.error (.invalidArgument (.recordTooLarge (encode others).length))), w) := by
  have hsave := runOn_save_tooLarge (v := w.volume) w.store.file w.store.sync (Nat.not_le.1 h)
  rw [replace, Act.runOn_bind_ok (Mounted.runOn_stored _)]
  refine Act.runOn_bind_error ?_
  rw [Mounted.runOn_onVolume, hsave]

/-- Casting a ballot writes all ballots anew, with this one among them. -/
theorem runOn_set (h : w.store.current = some ballots) (group : String) (b : Ballot) :
    (BallotBook.set group b).runOn w = (replace (ballots.insert group b)).runOn w := by
  have hall : w.store.all = .ok ballots := by rw [all, h]
  rw [BallotBook.set, Act.runOn_bind_ok (Mounted.runOn_stored _),
    Act.runOn_bind_ok (Act.runOn_ofExcept_ok hall _)]

/-- Forgetting a group writes the others anew, if there is a ballot to forget. -/
theorem runOn_delete (h : w.store.current = some ballots) (group : String) :
    (BallotBook.delete group).runOn w =
      if ballots.contains group then (replace (ballots.erase group)).runOn w else (.ok (), w) := by
  have hall : w.store.all = .ok ballots := by rw [all, h]
  rw [BallotBook.delete, Act.runOn_bind_ok (Mounted.runOn_stored _),
    Act.runOn_bind_ok (Act.runOn_ofExcept_ok hall _)]
  split <;> rfl

end BallotBook

namespace BookCall

open BallotBook

variable {w : Mounted BallotBook} {m : BallotMemory} {v v₁ : Volume} {p : Path}
  {ballots others : Ballots}

/-- A memory is given the calls that leave ballots which fit into a record. -/
theorem limited_eq {c : BookCall}
    (h : ∀ ballots, (c.onMemory.runOn m).2.current = some ballots → ballots.Fits) :
    c.limited m = c.onMemory.runOn m := by
  rw [limited]
  dsimp only
  split
  · rfl
  · next ballots hm => rw [if_pos (h ballots hm)]

/-- A memory whose ballots fit refuses nothing for the length. -/
theorem limited_of_fits {c : BookCall} {answer : Except Failure (Option Ballot)} {m' : BallotMemory}
    (hrun : c.onMemory.runOn m = (answer, m')) (hm : m'.current = some ballots)
    (hfits : ballots.Fits) : c.limited m = (answer, m') := by
  rw [limited_eq, hrun]
  intro others hothers
  rw [hrun, hm] at hothers
  exact Option.some.inj hothers ▸ hfits

/-- A call that replaces all ballots is answered alike. -/
theorem alike_replace (h : Alike w m ballots) {c : BookCall}
    {x : Act (Mounted BallotBook) Unit} (hbook : c.onBook = x >>= fun _ => pure none)
    (hx : x.runOn w = (replace others).runOn w)
    (hmemory : c.onMemory.runOn m = (.ok none, ⟨some others⟩))
    (hproper : ∀ r ∈ others.rows, r.2.Proper) :
    ∃ answer w' m', c.onBook.runOn w = (answer, w') ∧ c.limited m = (answer, m') ∧
      ∃ ballots', Alike w' m' ballots' := by
  by_cases hfits : others.Fits
  · obtain ⟨w', hrun, hw'⟩ := h.runOn_replace hfits hproper
    refine ⟨.ok none, w', _, ?_, limited_of_fits hmemory rfl hfits, others, hw'⟩
    rw [hbook, Act.runOn_bind_ok (hx.trans hrun)]
    rfl
  · refine ⟨.error (.error (.invalidArgument (.recordTooLarge (encode others).length))), w, m, ?_,
      ?_, ballots, h⟩
    · rw [hbook, Act.runOn_bind_error (hx.trans (runOn_replace_tooLarge w hfits))]
    · rw [limited, hmemory]
      simp only [if_neg hfits]

/-- **Every call** is answered by both in the same way, and leaves them alike. -/
theorem alike (h : Alike w m ballots) {c : BookCall} (hc : c.Proper) :
    ∃ answer w' m', c.onBook.runOn w = (answer, w') ∧ c.limited m = (answer, m') ∧
      ∃ ballots', Alike w' m' ballots' := by
  obtain ⟨⟨directory, sync, current⟩, volume⟩ := w
  obtain ⟨memory⟩ := m
  obtain rfl : current = some ballots := h.book
  obtain rfl : memory = some ballots := h.memory
  -- what leaves the ballots as they are
  have hsame {c : BookCall} {answer : Except Failure (Option Ballot)}
      (hm : c.onMemory.runOn ⟨some ballots⟩ = (answer, ⟨some ballots⟩)) :
      c.limited ⟨some ballots⟩ = (answer, ⟨some ballots⟩) := limited_of_fits hm rfl h.fits
  -- one case for each call; three of them leave the ballots as they are
  cases c with
  | init => exact ⟨.ok none, _, _, rfl, hsame rfl, ballots, h⟩
  | reopen sync' =>
    obtain ⟨home, htells⟩ := h.tells
    have hinit := BallotBook.runOn_init sync' (v := volume.restarted)
      (Volume.runOn_makeDirectories htells.leads) htells
    refine ⟨.ok none, ⟨{ directory, sync := sync', current := some ballots }, volume.restarted⟩, _,
      ?_, hsame rfl, ballots, rfl, rfl, ⟨home, htells⟩, h.fits, h.proper⟩
    rw [onBook, Act.runOn_bind_ok (Act.runOn_modify _ _), Act.runOn_bind_ok hinit]
    rfl
  | set group b =>
    refine alike_replace h rfl (runOn_set h.book group b) rfl fun r hr => ?_
    rcases Table.mem_place_value hr with hv | hr
    · exact hv ▸ hc
    · exact h.proper r hr
  | get group => exact ⟨.ok (some (ballots.of group)), _, _, rfl, hsame rfl, ballots, h⟩
  -- a group without a ballot is forgotten without a write, and the memory does not change either
  | delete group =>
    have hdelete := runOn_delete h.book group
    cases hcontains : ballots.contains group with
    | false =>
      rw [if_neg (by simp [hcontains])] at hdelete
      have hnone : ballots.get? group = none := by simpa [Table.contains] using hcontains
      have hmemory : (delete group).onMemory.runOn ⟨some ballots⟩ = (.ok none, ⟨some ballots⟩) := by
        show (Except.ok none, BallotMemory.mk (some (ballots.erase group))) = _
        rw [Table.erase_of_get?_eq_none hnone]
      refine ⟨.ok none, _, _, ?_, hsame hmemory, ballots, h⟩
      rw [onBook, Act.runOn_bind_ok hdelete]
      rfl
    | true =>
      rw [if_pos hcontains] at hdelete
      exact alike_replace h rfl hdelete rfl fun r hr => h.proper r (Table.mem_erase_iff.1 hr).1

/-- So is every run of calls. -/
theorem answers_alike (h : Alike w m ballots) {cs : List BookCall} (hcs : ∀ c ∈ cs, c.Proper) :
    answers (fun c => c.onBook.runOn) cs w = answers limited cs m := by
  induction cs generalizing w m ballots with
  | nil => rfl
  | cons c cs ih =>
    obtain ⟨answer, w', m', hbook, hmemory, ballots', h'⟩ := alike h (hcs c List.mem_cons_self)
    rw [answers_cons, answers_cons, hbook, hmemory, ih h' fun c hc => hcs c (.tail _ hc)]

/-- A book is opened without ballots, as a memory is. -/
theorem answers_opened {names : List String} (sync : Bool) (hw : v.disk.WellFormed)
    (hmake : (Volume.makeDirectories p).runOn v = (.ok (), v₁)) (hlist : v₁.disk.list p = .ok names)
    (hrecord : "merged_meta" ∉ names) (hdraft : "merged_meta.tmp" ∉ names) {cs : List BookCall}
    (hcs : ∀ c ∈ cs, c.Proper) :
    answers (fun c => c.onBook.runOn) (.init :: cs) ⟨{ directory := p, sync }, v⟩ =
      answers limited (.init :: cs) {} := by
  obtain ⟨home, htells⟩ := exists_tells hw (Table.empty : Ballots) hmake hlist hrecord hdraft
  have hinit : (init.onBook).runOn ⟨{ directory := p, sync }, v⟩ =
      (.ok none, ⟨{ directory := p, sync, current := some Table.empty }, v₁⟩) := by
    rw [onBook, Act.runOn_bind_ok (BallotBook.runOn_init _ hmake htells)]
    rfl
  -- no ballots fit into a record
  have hfits : Ballots.Fits Table.empty := by decide +kernel
  have hmemory : init.limited {} = (.ok none, ⟨some Table.empty⟩) := limited_of_fits rfl rfl hfits
  have halike : Alike ⟨{ directory := p, sync, current := some Table.empty }, v₁⟩
      ⟨some Table.empty⟩ Table.empty := ⟨rfl, rfl, ⟨home, htells⟩, hfits, fun r hr => nomatch hr⟩
  rw [answers_cons, answers_cons, hinit, hmemory, answers_alike halike hcs]

end BookCall

/-! ### One group -/

namespace SingleBallot

variable {w : Mounted SingleBallot} {v v₁ : Volume} {p : Path} {home : Location} {b last : Ballot}
  {sync : Bool}

theorem plain_name : Path.Plain "stable_meta" := ⟨by decide, by decide, by decide⟩

/-- The store has the ballot that its record tells. -/
structure Knows (w : Mounted SingleBallot) (last : Ballot) : Prop where
  current : w.store.current = some last
  tells : ∃ home, Tells w.volume.disk home w.store.directory "stable_meta" Ballot.initial last

/-- A store that is opened has the ballot that its record tells. -/
theorem runOn_init (sync : Bool) (hmake : (Volume.makeDirectories p).runOn v = (.ok (), v₁))
    (h : Tells v₁.disk home p "stable_meta" Ballot.initial last) :
    SingleBallot.init.runOn ⟨{ directory := p, sync }, v⟩ =
      (.ok (), ⟨{ directory := p, sync, current := some last }, v₁⟩) := by
  obtain ⟨found, hload, hfound⟩ := h.runOn_load? plain_name
  rw [SingleBallot.init, Act.runOn_bind_ok (Mounted.runOn_stored _)]
  show Act.runOn (_ >>= _) _ = _
  rw [Act.runOn_bind_ok (Mounted.runOn_onVolume_ok hmake),
    Act.runOn_bind_ok (Mounted.runOn_onVolume_ok hload), ← hfound]
  rfl

/-- A proper ballot is written, and it is the last one then. -/
theorem Knows.runOn_set (h : Knows w last) (hb : b.Proper) :
    ∃ w', (SingleBallot.set b).runOn w = (.ok (), w') ∧ Knows w' b := by
  obtain ⟨home, htells⟩ := h.tells
  obtain ⟨v', hsave, htells'⟩ := htells.runOn_save plain_name (told_ballot hb)
    (Ballot.length_encode_le hb) w.store.sync
  have hget : w.store.get = .ok last := by rw [get, h.current]
  refine ⟨⟨{ w.store with current := some b }, v'⟩, ?_, rfl, home, htells'⟩
  rw [SingleBallot.set, Act.runOn_bind_ok (Mounted.runOn_stored _),
    Act.runOn_bind_ok (Act.runOn_ofExcept_ok hget _)]
  exact Act.runOn_bind_ok (Mounted.runOn_onVolume_ok hsave)

end SingleBallot

namespace BallotCall

open SingleBallot

variable {w : Mounted SingleBallot} {v v₁ : Volume} {p : Path} {last : Ballot}

/-- **Every call** is answered by the last ballot. -/
theorem knows (h : Knows w last) {c : BallotCall} (hc : c.Proper) :
    ∃ w', c.onSingle.runOn w = ((c.byLast last).1, w') ∧ Knows w' (c.byLast last).2 := by
  obtain ⟨⟨directory, sync, current⟩, volume⟩ := w
  obtain rfl : current = some last := h.current
  -- one case for each call, as for a book
  cases c with
  | init => exact ⟨_, rfl, h⟩
  | reopen sync' =>
    obtain ⟨home, htells⟩ := h.tells
    have hinit := SingleBallot.runOn_init sync' (v := volume.restarted)
      (Volume.runOn_makeDirectories htells.leads) htells
    refine ⟨⟨{ directory, sync := sync', current := some last }, volume.restarted⟩, ?_, rfl, home,
      htells⟩
    rw [onSingle, Act.runOn_bind_ok (Act.runOn_modify _ _), Act.runOn_bind_ok hinit]
    rfl
  | set b =>
    obtain ⟨w', hrun, h'⟩ := h.runOn_set hc
    refine ⟨w', ?_, h'⟩
    rw [onSingle, Act.runOn_bind_ok hrun]
    rfl
  | get => exact ⟨_, rfl, h⟩

/-- Any calls are answered by the last ballot. -/
theorem answers_byLast (h : Knows w last) {cs : List BallotCall} (hcs : ∀ c ∈ cs, c.Proper) :
    answers (fun c => c.onSingle.runOn) cs w = answers byLast cs last := by
  induction cs generalizing w last with
  | nil => rfl
  | cons c cs ih =>
    obtain ⟨w', hrun, h'⟩ := knows h (hcs c List.mem_cons_self)
    rw [answers_cons, answers_cons, hrun, ih h' fun c hc => hcs c (.tail _ hc)]

/-- A store of one ballot is opened with the initial one. -/
theorem answers_opened {names : List String} (sync : Bool) (hw : v.disk.WellFormed)
    (hmake : (Volume.makeDirectories p).runOn v = (.ok (), v₁)) (hlist : v₁.disk.list p = .ok names)
    (hrecord : "stable_meta" ∉ names) (hdraft : "stable_meta.tmp" ∉ names) {cs : List BallotCall}
    (hcs : ∀ c ∈ cs, c.Proper) :
    answers (fun c => c.onSingle.runOn) (.init :: cs) ⟨{ directory := p, sync }, v⟩ =
      answers byLast (.init :: cs) .initial := by
  obtain ⟨home, htells⟩ := exists_tells hw Ballot.initial hmake hlist hrecord hdraft
  have hinit : (init.onSingle).runOn ⟨{ directory := p, sync }, v⟩ =
      (.ok none, ⟨{ directory := p, sync, current := some .initial }, v₁⟩) := by
    rw [onSingle, Act.runOn_bind_ok (SingleBallot.runOn_init _ hmake htells)]
    rfl
  have hknows : Knows ⟨{ directory := p, sync, current := some .initial }, v₁⟩ .initial :=
    ⟨rfl, home, htells⟩
  rw [answers_cons, answers_cons, hinit, answers_byLast hknows hcs]
  rfl

end BallotCall

/-! ### Refusals -/

/-- A store that is to remember something else once a record is saved stays as it is if the record is
not saved. -/
theorem kept_of_save_error {σ α : Type} [JsonForm α] {m m' : Mounted σ} {file : Path} {a : α}
    {sync : Bool} {f : σ → σ} {e : Failure} (hw : m.volume.disk.WellFormed)
    (h : (Mounted.onVolume (Record.save file a sync) >>= fun _ => Mounted.update f).runOn m =
      (.error e, m')) :
    m'.store = m.store ∧ m'.volume.disk.read file = m.volume.disk.read file := by
  rcases hsave : (Record.save file a sync).runOn m.volume with ⟨r, v'⟩
  cases r with
  | ok _ =>
    rw [Act.runOn_bind_ok (Mounted.runOn_onVolume_ok hsave)] at h
    exact absurd (Prod.mk.inj h).1 (by simp)
  | error e' =>
    rw [Act.runOn_bind_error (by rw [Mounted.runOn_onVolume, hsave])] at h
    obtain ⟨-, rfl⟩ := Prod.mk.inj h
    exact ⟨rfl, (read_of_save_error hw hsave).2⟩

/-- Nothing was asked of the store yet. -/
def BallotStore.unopened : BallotStore → Bool
  | memory m => m.current.isNone
  | single s => s.current.isNone
  | book b => b.current.isNone

namespace BallotBook

variable {m m' : Mounted BallotBook} {ballots : Ballots} {group : String} {b : Ballot} {e : Failure}

theorem all_unopened (h : m.store.current = none) :
    m.store.all = .error (.invalidArgument (.notInitialized "merged meta storage")) := by
  rw [all, h]

/-- Casting a ballot is refused by it. -/
theorem runOn_set_unopened (h : m.store.current = none) (group : String) (b : Ballot) :
    (BallotBook.set group b).runOn m =
      (.error (.error (.invalidArgument (.notInitialized "merged meta storage"))), m) := by
  rw [BallotBook.set, Act.runOn_bind_ok (Mounted.runOn_stored _), all_unopened h]
  rfl

/-- Forgetting a group is refused as well. -/
theorem runOn_delete_unopened (h : m.store.current = none) (group : String) :
    (BallotBook.delete group).runOn m =
      (.error (.error (.invalidArgument (.notInitialized "merged meta storage"))), m) := by
  rw [BallotBook.delete, Act.runOn_bind_ok (Mounted.runOn_stored _), all_unopened h]
  rfl

/-- Ballots that are not replaced are those that were there, in memory and on disk. -/
theorem kept_of_replace_error (hw : m.volume.disk.WellFormed)
    (h : (replace ballots).runOn m = (.error e, m')) :
    m'.store = m.store ∧ m'.volume.disk.read m.store.file = m.volume.disk.read m.store.file := by
  rw [replace, Act.runOn_bind_ok (Mounted.runOn_stored _)] at h
  exact kept_of_save_error hw h

/-- A ballot that could not be cast leaves the book and its record. -/
theorem kept_of_set_error (hw : m.volume.disk.WellFormed)
    (h : (BallotBook.set group b).runOn m = (.error e, m')) :
    m'.store = m.store ∧ m'.volume.disk.read m.store.file = m.volume.disk.read m.store.file := by
  cases hcurrent : m.store.current with
  | none =>
    rw [runOn_set_unopened hcurrent] at h
    obtain ⟨-, rfl⟩ := Prod.mk.inj h
    exact ⟨rfl, rfl⟩
  | some ballots =>
    rw [runOn_set hcurrent] at h
    exact kept_of_replace_error hw h

/-- A group that could not be forgotten leaves the book and its record. -/
theorem kept_of_delete_error (hw : m.volume.disk.WellFormed)
    (h : (BallotBook.delete group).runOn m = (.error e, m')) :
    m'.store = m.store ∧ m'.volume.disk.read m.store.file = m.volume.disk.read m.store.file := by
  cases hcurrent : m.store.current with
  | none =>
    rw [runOn_delete_unopened hcurrent] at h
    obtain ⟨-, rfl⟩ := Prod.mk.inj h
    exact ⟨rfl, rfl⟩
  | some ballots =>
    rw [runOn_delete hcurrent] at h
    split at h
    · exact kept_of_replace_error hw h
    · exact absurd (Prod.mk.inj h).1 (by simp)

end BallotBook

namespace SingleBallot

variable {m m' : Mounted SingleBallot} {b : Ballot} {e : Failure}

/-- A store for one group that was not opened refuses a ballot. -/
theorem runOn_set_unopened (h : m.store.current = none) (b : Ballot) :
    (SingleBallot.set b).runOn m =
      (.error (.error (.invalidArgument (.notInitialized "raft meta storage"))), m) := by
  have hget : m.store.get = .error (.invalidArgument (.notInitialized "raft meta storage")) := by
    rw [get, h]
  rw [SingleBallot.set, Act.runOn_bind_ok (Mounted.runOn_stored _), hget]
  rfl

/-- A ballot that is not cast leaves the one that was, in memory and on disk. -/
theorem kept_of_set_error (hw : m.volume.disk.WellFormed)
    (h : (SingleBallot.set b).runOn m = (.error e, m')) :
    m'.store = m.store ∧ m'.volume.disk.read m.store.file = m.volume.disk.read m.store.file := by
  cases hcurrent : m.store.current with
  | none =>
    rw [runOn_set_unopened hcurrent] at h
    obtain ⟨-, rfl⟩ := Prod.mk.inj h
    exact ⟨rfl, rfl⟩
  | some last =>
    have hget : m.store.get = .ok last := by rw [get, hcurrent]
    rw [SingleBallot.set, Act.runOn_bind_ok (Mounted.runOn_stored _),
      Act.runOn_bind_ok (Act.runOn_ofExcept_ok hget _)] at h
    exact kept_of_save_error hw h

end SingleBallot

namespace BallotStore

/-- Nothing is answered by a store that was not initialised, and nothing is changed. -/
theorem refused_unopened {m : Mounted BallotStore} (h : m.store.unopened = true) (group : String)
    (b : Ballot) : ∃ what,
      (BallotStore.set group b).runOn m =
        (.error (.error (.invalidArgument (.notInitialized what))), m) ∧
      m.store.get group = .error (.invalidArgument (.notInitialized what)) := by
  obtain ⟨store, volume⟩ := m
  -- each of the three stores refuses, under its own name
  cases store with
  | memory m =>
    obtain ⟨current⟩ := m
    obtain rfl : current = none := Option.isNone_iff_eq_none.1 h
    exact ⟨_, rfl, rfl⟩
  | single s =>
    obtain ⟨directory, sync, current⟩ := s
    obtain rfl : current = none := Option.isNone_iff_eq_none.1 h
    exact ⟨_, rfl, rfl⟩
  | book b =>
    obtain ⟨directory, sync, current⟩ := b
    obtain rfl : current = none := Option.isNone_iff_eq_none.1 h
    exact ⟨_, rfl, rfl⟩

/-- **Ballots are remembered.**  A book in a directory without a record answers any calls as a
memory does, where calls that leave more ballots than fit into a record are refused; a store of one
ballot answers with the last one that was cast.  Neither of them forgets anything when it is opened
again.  Before they are initialised nothing is answered and nothing changes, and a call that fails
leaves the ballots as they were, in memory and on disk. -/
theorem remembers (p : Path) (sync : Bool) :
    (∀ (v v₁ : Volume) (names : List String), v.disk.WellFormed →
      (Volume.makeDirectories p).runOn v = (.ok (), v₁) → v₁.disk.list p = .ok names →
      -- many groups
      ("merged_meta" ∉ names → "merged_meta.tmp" ∉ names →
        ∀ cs : List BookCall, (∀ c ∈ cs, c.Proper) →
          answers (fun c => c.onBook.runOn) (.init :: cs) ⟨{ directory := p, sync }, v⟩ =
            answers BookCall.limited (.init :: cs) {}) ∧
      -- one group
      ("stable_meta" ∉ names → "stable_meta.tmp" ∉ names →
        ∀ cs : List BallotCall, (∀ c ∈ cs, c.Proper) →
          answers (fun c => c.onSingle.runOn) (.init :: cs) ⟨{ directory := p, sync }, v⟩ =
            answers BallotCall.byLast (.init :: cs) .initial)) ∧
    -- a call that leaves ballots which fit into a record is one on a memory
    (∀ (c : BookCall) (m : BallotMemory),
      (∀ ballots, (c.onMemory.runOn m).2.current = some ballots → ballots.Fits) →
      c.limited m = c.onMemory.runOn m) ∧
    -- stores that were not initialised
    (∀ (m : Mounted BallotStore) (group : String) (b : Ballot), m.store.unopened = true → ∃ what,
      (BallotStore.set group b).runOn m =
        (.error (.error (.invalidArgument (.notInitialized what))), m) ∧
      m.store.get group = .error (.invalidArgument (.notInitialized what))) ∧
    (∀ (m : Mounted BallotBook) (group : String), m.store.current = none → ∃ what,
      (BallotBook.delete group).runOn m =
        (.error (.error (.invalidArgument (.notInitialized what))), m)) ∧
    -- calls that fail
    (∀ (m m' : Mounted BallotBook) (group : String) (b : Ballot) (e : Failure),
      m.volume.disk.WellFormed →
      (BallotBook.set group b).runOn m = (.error e, m') ∨
        (BallotBook.delete group).runOn m = (.error e, m') →
      m'.store = m.store ∧ m'.volume.disk.read m.store.file = m.volume.disk.read m.store.file) ∧
    (∀ (m m' : Mounted SingleBallot) (b : Ballot) (e : Failure), m.volume.disk.WellFormed →
      (SingleBallot.set b).runOn m = (.error e, m') →
      m'.store = m.store ∧ m'.volume.disk.read m.store.file = m.volume.disk.read m.store.file) := by
  refine ⟨?_, fun c m => BookCall.limited_eq, fun m group b h => refused_unopened h group b, ?_, ?_,
    ?_⟩
  · intro v v₁ names hw hmake hlist
    exact ⟨fun hrecord hdraft cs => BookCall.answers_opened sync hw hmake hlist hrecord hdraft,
      fun hrecord hdraft cs => BallotCall.answers_opened sync hw hmake hlist hrecord hdraft⟩
  · exact fun m group h => ⟨_, BallotBook.runOn_delete_unopened h group⟩
  · rintro m m' group b e hw (h | h)
    · exact BallotBook.kept_of_set_error hw h
    · exact BallotBook.kept_of_delete_error hw h
  · exact fun m m' b e hw h => SingleBallot.kept_of_set_error hw h

/-- A vote for the second replica at an address. -/
def someVote : Ballot := ⟨3, { ip := .v4 10 0 0 1, port := 7000, idx := 1 }⟩

/-- A vote outlives the process, in its own group, until the group is forgotten. -/
theorem remembers_reopened :
    answers (fun c : BookCall => c.onBook.runOn)
        [.init, .set "g \"1\"" someVote, .reopen true, .get "g \"1\"", .get "g", .delete "g \"1\"",
          .get "g \"1\""]
        ⟨{ directory := .ofText "votes", sync := false }, .ofDisk .empty⟩ =
      [.ok none, .ok none, .ok none, .ok (some someVote), .ok (some .initial), .ok none,
        .ok (some .initial)] ∧
    answers (fun c : BallotCall => c.onSingle.runOn)
        [.init, .get, .set someVote, .reopen false, .get]
        ⟨{ directory := .ofText "votes", sync := false }, .ofDisk .empty⟩ =
      [.ok none, .ok (some .initial), .ok none, .ok none, .ok (some someVote)] := by
  obtain ⟨hruns, -⟩ := remembers (.ofText "votes") false
  -- the directory is made on an empty disk, and there is nothing in it
  let made := (Volume.makeDirectories (.ofText "votes")).runOn (.ofDisk .empty)
  have hmake : made = (.ok (), made.2) := Prod.ext (by decide +kernel) rfl
  have hlist : made.2.disk.list (.ofText "votes") = .ok [] := by decide +kernel
  obtain ⟨hbook, hsingle⟩ := hruns _ _ _ wellFormed_empty hmake hlist
  have hvote : someVote.Proper := ⟨by decide, trivial⟩
  constructor
  · refine (hbook (by simp) (by simp) _ ?_).trans ?_
    · simp [BookCall.Proper, hvote]
    · decide +kernel
  · refine (hsingle (by simp) (by simp) _ ?_).trans ?_
    · simp [BallotCall.Proper, hvote]
    · decide +kernel

end BallotStore
end RaftReplica
