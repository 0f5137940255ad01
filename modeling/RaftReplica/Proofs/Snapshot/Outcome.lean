/-
RaftReplica/Proofs/Snapshot/Outcome.lean

What comes of a copy.  Things happen to it one after the other: it is cancelled, or it goes on, with
as many bytes as its throttle grants.  Whatever happens, the copy stands where copies can be
(`Course.Stands`), and each time it is granted something it comes nearer to its end.  There its slot
is given back, and the copy is exact or has left nothing.

A course is what a copy can see: the slots of its throttle, its store and the disk.  An event is a
cancellation, or a step with the bytes that were granted, in the middle of which a cancellation may
come as well.

* `Stands` says of a course which stage the copy is at (`At`), whether it holds a slot, and that its
  flag is up if a cancellation came while it was not over.
* Each event keeps this (`Stands.cancel`, `Stands.go`), and a step that was granted something leaves
  less to be done.
* A run of events keeps it by induction (`Stands.run`), and after enough steps nothing is left to be
  done, so the copy is over.

`exact_or_undone` is the result for a copy that is started, goes through any events, and is joined;
a copy that was cancelled in time has failed, and one that was not has ended well exactly if it
could be copied.
-/
import RaftReplica.Proofs.Snapshot.Stages
import RaftReplica.Snapshot.Throttle

namespace RaftReplica

open Disk SnapshotStore

/-- What happens to a copy: it is cancelled, or it goes on.  Then it is granted some bytes, should it
ask for them, and it may be cancelled `late`, that is after it has looked whether it was. -/
inductive CopyEvent
  | cancel
  | go (granted : Nat) (late : Bool)
  deriving DecidableEq

namespace CopyEvent

/-- Whether a cancellation comes with the event. -/
def cancels : CopyEvent → Bool
  | cancel => true
  | go _ late => late

/-- How many bytes the event grants. -/
def granted : CopyEvent → Nat
  | cancel => 0
  | go granted _ => granted

end CopyEvent

/-! ### Courses -/

/-- A copy on its course: the slots of its throttle, and the store that has it. -/
structure Course where
  slots : Slots
  mounted : Mounted SnapshotStore

namespace Course

/-- The copy with a number. -/
def copy (number : Nat) (k : Course) : Copy := k.mounted.store.copy number

/-- A course with its store changed. -/
def change (f : SnapshotStore → SnapshotStore) (k : Course) : Course :=
  ⟨k.slots, f k.mounted.store, k.mounted.volume⟩

/-- The copy takes a step, and at its end it gives its slot back. -/
def advance (number granted : Nat) (late : Bool) (k : Course) : Course :=
  let (_, mounted) := (stepSeen late number granted).runOn k.mounted
  let c := mounted.store.copy number
  ⟨if c.throttle.isSome && c.isOver then k.slots.giveBack else k.slots, mounted⟩

/-- The copy goes on if it can: with a slot, if it needs one, and with some bytes, if it asks. -/
def go (number granted : Nat) (late : Bool) (k : Course) : Course :=
  let c := k.copy number
  if c.isOver then k
  else
    match c.need with
    | .slot =>
      match k.slots.take? with
      | some slots => advance number 0 late ⟨slots, k.mounted⟩
      | none => k.change (refuseCopy number)
    | .bytes =>
      if granted = 0 then if late then k.change (cancelCopy number) else k
      else k.advance number granted late
    | .nothing => k.advance number Copy.pieceSize late

/-- The course after one event. -/
def next (number : Nat) (k : Course) : CopyEvent → Course
  | .cancel => k.change (cancelCopy number)
  | .go granted late => k.go number granted late

/-- The course after a run of events. -/
def run (number : Nat) (k : Course) (events : List CopyEvent) : Course :=
  events.foldl (next number) k

/-- The copy was cancelled before its end. -/
def Cancelled (number : Nat) (k : Course) (events : List CopyEvent) : Prop :=
  ∃ before e after, events = before ++ e :: after ∧ e.cancels = true ∧
    ((k.run number before).copy number).isOver = false

section

variable {k : Course} {number granted : Nat} {late : Bool} {slots : Slots}

theorem go_of_over (hover : (k.copy number).isOver = true) : k.go number granted late = k := by
  rw [go, if_pos hover]

/-- A copy that needs a slot takes it and begins. -/
theorem go_of_slot (hover : (k.copy number).isOver = false) (hneed : (k.copy number).need = .slot)
    (htake : k.slots.take? = some slots) :
    k.go number granted late = advance number 0 late ⟨slots, k.mounted⟩ := by
  rw [go, if_neg (ne_true_of_eq_false hover), hneed, htake]

/-- A copy that needs bytes goes on if it is granted some. -/
theorem go_of_bytes (hover : (k.copy number).isOver = false) (hneed : (k.copy number).need = .bytes) :
    k.go number granted late =
      if granted = 0 then if late then k.change (cancelCopy number) else k
      else k.advance number granted late := by
  rw [go, if_neg (ne_true_of_eq_false hover), hneed]

/-- A copy without a throttle goes on by a full piece. -/
theorem go_of_nothing (hover : (k.copy number).isOver = false)
    (hneed : (k.copy number).need = .nothing) :
    k.go number granted late = k.advance number Copy.pieceSize late := by
  rw [go, if_neg (ne_true_of_eq_false hover), hneed]

end

end Course

/-! ### Copies in their store -/

namespace Slots

/-- A slot that was taken and given back is free. -/
theorem giveBack_of_take? {s s' : Slots} (h : s.take? = some s') : s'.giveBack = s := by
  unfold take? at h
  split at h
  · nomatch h
  · obtain rfl := Option.some.inj h
    rfl

/-- One slot of `s` is held, or none. -/
def Held (held : Bool) (s s' : Slots) : Prop :=
  if held then s.take? = some s' else s' = s

end Slots

namespace Copy

/-- A copy holds a slot while it is made, if it has a throttle. -/
def holdsSlot (c : Copy) : Bool :=
  match c.stage with
  | .copying .. => c.throttle.isSome
  | _ => false

theorem isOver_iff {c : Copy} : c.isOver = true ↔ ∃ r, c.stage = .over r := by
  unfold isOver
  cases c.stage <;> simp

/-- Who needs something has a throttle. -/
theorem exists_throttle {c : Copy} (h : c.need ≠ .nothing) : ∃ n, c.throttle = some n := by
  cases hthrottle : c.throttle with
  | none => exact absurd (by rw [need, hthrottle]) h
  | some n => exact ⟨n, rfl⟩

/-- A copy that needs a slot has a throttle and is waiting. -/
theorem waiting_of_need {c : Copy} (h : c.need = .slot) :
    c.throttle.isSome = true ∧ c.stage = .waiting := by
  unfold need at h
  split at h
  · next hthrottle hstage => exact ⟨by rw [hthrottle]; rfl, hstage⟩
  · split at h <;> nomatch h
  · nomatch h

/-- Who needs no slot has one, or has no throttle. -/
theorem holdsSlot_of_need {c : Copy} (hover : c.isOver = false) (h : c.need ≠ .slot) :
    c.holdsSlot = c.throttle.isSome := by
  obtain ⟨source, throttle, cancelled, joined, _ | ⟨w, info, t, rest⟩ | r⟩ := c
  · cases throttle with
    | none => rfl
    | some n => exact absurd rfl h
  · rfl
  · nomatch hover

/-- A copy that is no longer waiting has its slot until it is over. -/
theorem held_after {slots slots' : Slots} (c : Copy) (hheld : slots.Held c.throttle.isSome slots')
    (hwaits : c.stage ≠ .waiting) : slots.Held c.holdsSlot
      (if c.throttle.isSome && c.isOver then slots'.giveBack else slots') := by
  unfold holdsSlot isOver
  -- the slot is held while the copy is under way, and given back when it is over
  rcases hstage : c.stage with _ | ⟨w, info, t, rest⟩ | r
  · exact absurd hstage hwaits
  · rw [Bool.and_false]
    exact hheld
  · rw [Bool.and_true]
    cases hthrottle : c.throttle.isSome with
    | true =>
      rw [hthrottle] at hheld
      exact Slots.giveBack_of_take? hheld
    | false =>
      rw [hthrottle] at hheld
      exact hheld

end Copy

namespace SnapshotStore

variable {s : SnapshotStore} {m : Mounted SnapshotStore} {n : Nat}

/-- A copy that is changed is found changed. -/
theorem copy_modifyCopy (hn : n < s.copies.length) (f : Copy → Copy) :
    (s.modifyCopy n f).copy n = f (s.copy n) := by
  rw [copy, copy, modifyCopy, List.getElem?_modify_eq, List.getElem?_eq_getElem hn]
  rfl

/-- The copy that was begun last. -/
theorem copy_append (l : List Copy) (c : Copy) :
    copy { s with copies := l ++ [c] } l.length = c := by
  rw [copy, List.getElem?_concat_length]
  rfl

/-- Who takes the outcome of a copy that is over gets what it came to. -/
theorem runOn_joinCopy_over {r : Except Error SnapshotReader}
    (hstage : (m.store.copy n).stage = .over r) (hjoined : (m.store.copy n).joined = false) :
    (joinCopy n).runOn m = (r.mapError .error,
      ⟨m.store.modifyCopy n fun c => { c with joined := true }, m.volume⟩) := by
  rw [joinCopy, Act.runOn_bind_ok (Mounted.runOn_stored _)]
  simp only [hjoined, hstage]
  exact Act.runOn_ofExcept r _

end SnapshotStore

namespace CopyOrder

variable {o : CopyOrder} {cancelled : Bool} {stage : CopyStage} {m : Mounted SnapshotStore}

/-- The number of the copy in its store. -/
def number (o : CopyOrder) : Nat := o.store.copies.length

namespace At

/-- The copies of a store are not looked at. -/
theorem withCopies (h : o.At cancelled stage m) (copies : List Copy) :
    o.At cancelled stage ⟨{ m.store with copies }, m.volume⟩ := by
  have hsame {s : SnapshotStore} (hs : o.Unchanged s) : o.Unchanged { s with copies } :=
    hs.congr rfl rfl rfl
  have hundone {m : Mounted SnapshotStore} (hm : o.Undone m) :
      o.Undone ⟨{ m.store with copies }, m.volume⟩ := ⟨hsame hm.store, hm.wellFormed, hm.items⟩
  cases h with
  | waiting hs hnext hd => exact .waiting (hsame hs) hnext hd
  | copying hs h => exact .copying (hsame hs) h
  | succeeded hc hcopyable h =>
    exact .succeeded hc hcopyable
      ⟨h.last, h.index, h.directory, h.table, h.files, h.outside, h.gone⟩
  | interrupted hc h => exact .interrupted hc (hundone h)
  | refused hrow hs h => exact .refused hrow hs (hundone h)
  | tooLarge hc hsize h => exact .tooLarge hc hsize (hundone h)

/-- Whoever is not over has not seen yet whether it was cancelled. -/
theorem unseen (h : o.At cancelled stage m) (hstage : ∀ r, stage ≠ .over r) (cancelled' : Bool) :
    o.At cancelled' stage m := by
  cases h with
  | waiting hs hnext hd => exact .waiting hs hnext hd
  | copying hs h => exact .copying hs h
  | succeeded | interrupted | refused | tooLarge => exact absurd rfl (hstage _)

/-- At no stage is more left than at the first. -/
theorem left_le (h : o.At cancelled stage m) : o.left stage ≤ o.left .waiting := by
  cases h with
  | waiting => exact Nat.le_refl _
  | copying hs h =>
    obtain ⟨rows, hrows, -⟩ := h.work
    rw [left, left, hrows, costs_append, costs]
    omega
  | succeeded | interrupted | refused | tooLarge => exact Nat.zero_le _

/-- Nobody has no step left but who is over. -/
theorem over_of_left (h : o.At cancelled stage m) (hready : o.Ready) (hleft : o.left stage = 0) :
    ∃ r, stage = .over r := by
  cases h with
  | waiting => exact absurd hleft (Nat.succ_ne_zero _)
  | copying hs h => exact absurd hleft (Nat.ne_of_gt (hready.left_pos h))
  | succeeded | interrupted | refused | tooLarge => exact ⟨_, rfl⟩

section

variable {r : Except Error SnapshotReader} {reader : SnapshotReader} {e : Error}

theorem exact (h : o.At cancelled (.over (.ok reader)) m) : o.Exact reader m := by
  cases h with
  | succeeded _ _ h => exact h

/-- A copy that has failed has left nothing. -/
theorem undone (h : o.At cancelled (.over (.error e)) m) : o.Undone m := by
  cases h with
  | interrupted _ h => exact h
  | refused _ _ h => exact h
  | tooLarge _ _ h => exact h

/-- A copy that is not cancelled works if the source can be copied, and only then. -/
theorem copyable_iff (h : o.At false (.over r) m) : (∃ reader, r = .ok reader) ↔ o.Copyable := by
  cases h with
  | succeeded _ hcopyable => exact ⟨fun _ => hcopyable, fun _ => ⟨_, rfl⟩⟩
  | interrupted hc => nomatch hc
  | refused hrow hs =>
    refine ⟨fun ⟨_, hr⟩ => (nomatch hr), fun hcopyable => ?_⟩
    exact absurd (hcopyable.sound _ hrow) hs
  | tooLarge _ hsize =>
    refine ⟨fun ⟨_, hr⟩ => (nomatch hr), fun hcopyable => ?_⟩
    exact absurd hcopyable.fits (Nat.not_le.2 hsize)

/-- One that is cancelled does not work. -/
theorem failed (h : o.At true (.over r) m) : ∃ e, r = .error e ∧
    ((∀ row ∈ o.table.files.rows, o.Sound row) → ∃ what, e = .interrupted what) := by
  cases h with
  | succeeded hc => nomatch hc
  | interrupted => exact ⟨_, rfl, fun _ => ⟨_, rfl⟩⟩
  | refused hrow hs => exact ⟨_, rfl, fun hsound => absurd (hsound _ hrow) hs⟩
  | tooLarge hc => nomatch hc

end
end At
end CopyOrder

/-! ### Events -/

namespace Course

open CopyOrder

variable {o : CopyOrder} {slots slots' : Slots} {cancelled late : Bool} {k : Course} {granted : Nat}

/-- Where the course of a copy stands: the store has it, it holds a slot while it is made, and it is
where copies are, if it was `cancelled` before its end. -/
structure Stands (o : CopyOrder) (slots : Slots) (cancelled : Bool) (k : Course) : Prop where
  found : o.number < k.mounted.store.copies.length
  source : (k.copy o.number).source = o.source
  throttle : (k.copy o.number).throttle = o.store.throttle
  joined : (k.copy o.number).joined = false
  flag : (k.copy o.number).isOver = false → (k.copy o.number).cancelled = cancelled
  slots : slots.Held (k.copy o.number).holdsSlot k.slots
  stage : o.At cancelled (k.copy o.number).stage k.mounted

namespace Stands

variable (h : o.Ready) (hk : Stands o slots cancelled k)

include hk

/-- **To cancel** matters only before the end. -/
theorem cancel : Stands o slots (cancelled || !(k.copy o.number).isOver)
    (k.change (cancelCopy o.number)) := by
  have hcopy : (k.change (cancelCopy o.number)).copy o.number =
      { k.copy o.number with cancelled := true } := copy_modifyCopy hk.found _
  have hlength : o.number < (k.change (cancelCopy o.number)).mounted.store.copies.length := by
    show o.number < (List.modify _ _ _).length
    rw [List.length_modify]
    exact hk.found
  refine ⟨hlength, ?_, ?_, ?_, fun hover => ?_, ?_, ?_⟩ <;> rw [hcopy]
  · exact hk.source
  · exact hk.throttle
  · exact hk.joined
  · rw [hcopy] at hover
    rw [show (k.copy o.number).isOver = false from hover]
    simp
  · exact hk.slots
  · refine At.withCopies ?_ _
    cases hover : (k.copy o.number).isOver with
    | true =>
      rw [Bool.not_true, Bool.or_false]
      exact hk.stage
    | false =>
      refine hk.stage.unseen (fun r hr => ?_) _
      rw [Copy.isOver_iff.2 ⟨r, hr⟩] at hover
      nomatch hover

include h in
/-- **A step** of a copy that is not over, and holds a slot if it needs one. -/
theorem advance (late : Bool) (hover : (k.copy o.number).isOver = false)
    (hheld : slots.Held (k.copy o.number).throttle.isSome slots')
    (hgranted : (k.copy o.number).stage = .waiting ∨ 0 < granted ∧ granted ≤ Copy.pieceSize) :
    Stands o slots (cancelled || late)
        (Course.advance o.number granted late ⟨slots', k.mounted⟩) ∧
      o.left ((Course.advance o.number granted late ⟨slots', k.mounted⟩).copy o.number).stage <
        o.left (k.copy o.number).stage := by
  obtain ⟨stage, m', hrun, hcopies, hleft, hat⟩ := h.runOn_stepSeen late rfl
    (hk.flag hover ▸ hk.stage) hk.source hk.joined hover hgranted
  have hcopy : (m'.store.modifyCopy o.number
      fun c => { c with cancelled := c.cancelled || late, stage }).copy o.number =
      { k.copy o.number with cancelled := (k.copy o.number).cancelled || late, stage } := by
    rw [copy_modifyCopy (hcopies ▸ hk.found), SnapshotStore.copy, hcopies]
    rfl
  have hlength : o.number < (m'.store.copies.modify o.number
      fun c => { c with cancelled := c.cancelled || late, stage }).length := by
    rw [List.length_modify, hcopies]
    exact hk.found
  rw [Course.advance, hrun]
  dsimp only
  rw [hcopy]
  refine ⟨⟨hlength, ?_, ?_, ?_, fun _ => ?_, ?_, ?_⟩, ?_⟩ <;> rw [Course.copy, hcopy]
  · exact hk.source
  · exact hk.throttle
  · exact hk.joined
  · exact congrArg (· || late) (hk.flag hover)
  · refine Copy.held_after { k.copy o.number with
      cancelled := (k.copy o.number).cancelled || late, stage } hheld fun hwaits => ?_
    rw [show stage = .waiting from hwaits] at hleft
    exact absurd hleft (Nat.not_lt.2 hk.stage.left_le)
  · exact (hk.flag hover ▸ hat).withCopies _
  · exact hleft

/-- To cancel a copy brings it no nearer to its end. -/
theorem left_cancel : o.left ((k.change (cancelCopy o.number)).copy o.number).stage =
    o.left (k.copy o.number).stage := by
  rw [Course.copy, Course.change, cancelCopy, copy_modifyCopy hk.found]
  rfl

/-- A copy that needs a slot has none yet, and gets one. -/
theorem exists_take? (hslot : o.store.throttle.isSome → slots.take? ≠ none)
    (hneed : (k.copy o.number).need = .slot) : ∃ slots',
    k.slots.take? = some slots' ∧ slots.Held (k.copy o.number).throttle.isSome slots' := by
  obtain ⟨hthrottle, hwaiting⟩ := Copy.waiting_of_need hneed
  have hheld := hk.slots
  rw [Copy.holdsSlot, hwaiting] at hheld
  obtain ⟨slots', htake⟩ := Option.ne_none_iff_exists'.1 (hslot (hk.throttle ▸ hthrottle))
  refine ⟨slots', ?_, hthrottle ▸ htake⟩
  rw [show k.slots = slots from hheld, htake]

/-- One that needs none has what it needs. -/
theorem held_of_need (hover : (k.copy o.number).isOver = false)
    (hneed : (k.copy o.number).need ≠ .slot) :
    slots.Held (k.copy o.number).throttle.isSome k.slots := by
  rw [← Copy.holdsSlot_of_need hover hneed]
  exact hk.slots

include h in
/-- **To go on**: with a slot, with the bytes that are granted, or with a whole piece. -/
theorem go (hslot : o.store.throttle.isSome → slots.take? ≠ none)
    (hover : (k.copy o.number).isOver = false) (hgranted : granted ≤ Copy.pieceSize) :
    Stands o slots (cancelled || late) (k.go o.number granted late) ∧
      o.left ((k.go o.number granted late).copy o.number).stage ≤
        o.left (k.copy o.number).stage - (if 0 < granted then 1 else 0) := by
  have hstep {slots' : Slots} {n : Nat}
      (hheld : slots.Held (k.copy o.number).throttle.isSome slots')
      (hn : (k.copy o.number).stage = .waiting ∨ 0 < n ∧ n ≤ Copy.pieceSize) :
      Stands o slots (cancelled || late) (Course.advance o.number n late ⟨slots', k.mounted⟩) ∧
        o.left ((Course.advance o.number n late ⟨slots', k.mounted⟩).copy o.number).stage ≤
          o.left (k.copy o.number).stage - (if 0 < granted then 1 else 0) := by
    obtain ⟨hstands, hleft⟩ := hk.advance h late hover hheld hn
    refine ⟨hstands, ?_⟩
    split <;> omega
  cases hneed : (k.copy o.number).need with
  | slot =>
    obtain ⟨slots', htake, hheld⟩ := hk.exists_take? hslot hneed
    rw [go_of_slot hover hneed htake]
    exact hstep hheld (.inl (Copy.waiting_of_need hneed).2)
  | bytes =>
    rw [go_of_bytes hover hneed]
    split
    · next hnone =>
      subst hnone
      cases late with
      | true =>
        have hstands := hk.cancel
        rw [hover] at hstands
        exact ⟨hstands, Nat.le_of_eq hk.left_cancel⟩
      | false =>
        rw [Bool.or_false]
        exact ⟨hk, Nat.le_refl _⟩
    · next hsome =>
      exact hstep (hk.held_of_need hover (by rw [hneed]; nofun))
        (.inr ⟨Nat.pos_of_ne_zero hsome, hgranted⟩)
  | nothing =>
    rw [go_of_nothing hover hneed]
    exact hstep (hk.held_of_need hover (by rw [hneed]; nofun)) (.inr ⟨by decide, Nat.le_refl _⟩)

include h in
/-- **Whatever happens**, the copy stands, and if it is granted something it comes nearer to its end. -/
theorem next (hslot : o.store.throttle.isSome → slots.take? ≠ none) {e : CopyEvent}
    (hgranted : e.granted ≤ Copy.pieceSize) :
    Stands o slots (cancelled || (e.cancels && !(k.copy o.number).isOver)) (k.next o.number e) ∧
      o.left ((k.next o.number e).copy o.number).stage ≤
        o.left (k.copy o.number).stage - (if 0 < e.granted then 1 else 0) := by
  -- one case for each event; a copy that is over is past all of them
  cases e with
  | cancel =>
    rw [CopyEvent.cancels, Bool.true_and]
    exact ⟨hk.cancel, Nat.le_of_eq hk.left_cancel⟩
  | go granted late =>
    rw [CopyEvent.cancels, Course.next]
    cases hover : (k.copy o.number).isOver with
    | true =>
      obtain ⟨r, hr⟩ := Copy.isOver_iff.1 hover
      rw [Bool.not_true, Bool.and_false, Bool.or_false, go_of_over hover, hr]
      exact ⟨hk, Nat.zero_le _⟩
    | false =>
      rw [Bool.not_false, Bool.and_true]
      exact hk.go h hslot hover hgranted

omit hk in
/-- A run of events cancels a copy at its first event or later. -/
theorem cancelled_cons {number : Nat} {e : CopyEvent} {events : List CopyEvent}
    (hcancelled : k.Cancelled number (e :: events)) :
    (e.cancels && !(k.copy number).isOver) = true ∨ (k.next number e).Cancelled number events := by
  obtain ⟨before, e', after, hevents, hcancels, hover⟩ := hcancelled
  cases before with
  | nil =>
    obtain ⟨rfl, -⟩ := List.cons.inj hevents
    exact .inl (by rw [hcancels, show (k.copy number).isOver = false from hover]; rfl)
  | cons first before =>
    obtain ⟨rfl, htail⟩ := List.cons.inj hevents
    exact .inr ⟨before, e', after, htail, hcancels, hover⟩

include h in
/-- **Over a whole course** the copy stands, and what it was granted has brought it so much nearer to
its end.  If it was cancelled before, that was seen; if nothing cancels it, it is not cancelled. -/
theorem run (hslot : o.store.throttle.isSome → slots.take? ≠ none) {events : List CopyEvent}
    (hgranted : ∀ e ∈ events, e.granted ≤ Copy.pieceSize) : ∃ seen,
    Stands o slots seen (k.run o.number events) ∧
      o.left ((k.run o.number events).copy o.number).stage ≤
        o.left (k.copy o.number).stage - events.countP (0 < ·.granted) ∧
      (cancelled = true ∨ k.Cancelled o.number events → seen = true) ∧
      ((∀ e ∈ events, e.cancels = false) → seen = cancelled) := by
  induction events generalizing k cancelled with
  | nil =>
    refine ⟨cancelled, hk, Nat.le_refl _, fun hcancelled => hcancelled.resolve_right ?_, fun _ => rfl⟩
    rintro ⟨before, e, after, hnil, -⟩
    exact List.append_ne_nil_of_right_ne_nil before (List.cons_ne_nil e after) hnil.symm
  | cons e events ih =>
    obtain ⟨hnext, hleft⟩ := hk.next h hslot (hgranted e List.mem_cons_self)
    obtain ⟨seen, hrun, hleft', hseen, hnone⟩ :=
      ih hnext fun e he => hgranted e (List.mem_cons_of_mem _ he)
    refine ⟨seen, hrun, Nat.le_trans hleft' ?_, fun hcancelled => hseen ?_, fun hcancels => ?_⟩
    · rw [List.countP_cons]
      simp only [decide_eq_true_eq]
      omega
    · rcases hcancelled with hcancelled | hcancelled
      · exact .inl (by rw [hcancelled, Bool.true_or])
      · exact (cancelled_cons hcancelled).imp_left fun he => by rw [he, Bool.or_true]
    · rw [hnone fun e he => hcancels e (List.mem_cons_of_mem _ he),
        hcancels e List.mem_cons_self, Bool.false_and, Bool.or_false]

/-- Who takes the outcome of a copy that is over. -/
theorem joined_of_over (hover : (k.copy o.number).isOver = true) : k.slots = slots ∧ ∃ r m',
    (joinCopy o.number).runOn k.mounted = (r.mapError .error, m') ∧
      o.At cancelled (.over r) m' := by
  obtain ⟨r, hr⟩ := Copy.isOver_iff.1 hover
  refine ⟨?_, r, _, runOn_joinCopy_over hr hk.joined, (hr ▸ hk.stage).withCopies _⟩
  have hheld := hk.slots
  rw [Copy.holdsSlot, hr] at hheld
  exact hheld

end Stands
end Course

namespace CopyOrder

open Course

variable {o : CopyOrder}

/-- A copy that has begun waits. -/
theorem stands_startCopy {uri : String} (huri : sourceOf uri = .ok o.source) {v : Volume}
    (hv : v.disk = o.disk) : ∃ m, (startCopy uri).runOn ⟨o.store, v⟩ = (.ok o.number, m) ∧
      (m.store.copy o.number).stage = .waiting ∧ ∀ slots, Stands o slots false ⟨slots, m⟩ := by
  let c : Copy := { source := o.source, throttle := o.store.throttle }
  have hcopy : ({ o.store with copies := o.store.copies ++ [c] } : SnapshotStore).copy o.number = c :=
    copy_append _ _
  refine ⟨⟨{ o.store with copies := o.store.copies ++ [c] }, v⟩, ?_, by rw [hcopy], fun slots => ?_⟩
  · rw [startCopy, Act.runOn_bind_ok (Act.runOn_ofExcept_ok huri _),
      Act.runOn_bind_ok (Mounted.runOn_stored _)]
    rfl
  · refine ⟨?_, ?_, ?_, ?_, fun _ => ?_, ?_, ?_⟩
    · show _ < (_ ++ [c]).length
      rw [List.length_append]
      exact Nat.lt_succ_self _
    all_goals rw [Course.copy, hcopy]
    · rfl
    · exact .waiting ⟨rfl, rfl, rfl⟩ rfl hv

/-- **A copy is exact, or leaves nothing.**  Whatever happens to it, if it is granted enough it comes to
its end.  There its slot is given back, and who takes its outcome has a reader that is exact, or finds
that nothing is left.  If it was not cancelled it has worked if, and only if, the source can be
copied; if it was cancelled before, it has failed, because of that or of a file that cannot be copied. -/
theorem exact_or_undone (h : o.Ready) {uri : String} (huri : sourceOf uri = .ok o.source)
    {v : Volume} (hv : v.disk = o.disk) {slots : Slots}
    (hslot : o.store.throttle.isSome → slots.take? ≠ none) : ∃ m,
    (startCopy uri).runOn ⟨o.store, v⟩ = (.ok o.number, m) ∧
      ∀ events : List CopyEvent, (∀ e ∈ events, e.granted ≤ Copy.pieceSize) →
      ∀ k, Course.run o.number ⟨slots, m⟩ events = k →
        (o.left .waiting ≤ events.countP (0 < ·.granted) → (k.copy o.number).isOver = true) ∧
        ((k.copy o.number).isOver = true → k.slots = slots ∧
          ∃ (r : Except Error SnapshotReader) (m' : Mounted SnapshotStore),
            (joinCopy o.number).runOn k.mounted = (r.mapError .error, m') ∧
            (∀ reader, r = .ok reader → o.Exact reader m') ∧
            (∀ e, r = .error e → o.Undone m') ∧
            ((∀ e ∈ events, e.cancels = false) → ((∃ reader, r = .ok reader) ↔ o.Copyable)) ∧
            (Course.Cancelled o.number ⟨slots, m⟩ events → ∃ e, r = .error e ∧
              ((∀ row ∈ o.table.files.rows, o.Sound row) → ∃ what, e = .interrupted what))) := by
  obtain ⟨m, hstart, hwaiting, hstands⟩ := stands_startCopy huri hv
  refine ⟨m, hstart, ?_⟩
  rintro events hgranted k rfl
  obtain ⟨seen, hk, hleft, hseen, hnone⟩ := (hstands slots).run h hslot hgranted
  refine ⟨fun henough => ?_, fun hover => ?_⟩
  · refine Copy.isOver_iff.2 (hk.stage.over_of_left h ?_)
    rw [Course.copy, Course.copy, hwaiting] at hleft
    rw [Course.copy]
    omega
  · obtain ⟨hslots, r, m', hjoin, hat⟩ := hk.joined_of_over hover
    exact ⟨hslots, r, m', hjoin, fun _ hr => (hr ▸ hat).exact, fun _ hr => (hr ▸ hat).undone,
      fun hcancels => (hnone hcancels ▸ hat).copyable_iff,
      fun hcancelled => (hseen (.inr hcancelled) ▸ hat).failed⟩

/-- A snapshot with a file of three bytes and an empty one, and a store at the top that is empty and
asks a throttle. -/
def ofBlobs : CopyOrder :=
  let info : SnapshotMeta := ⟨⟨1, 5⟩, .empty, .empty⟩
  let table : SnapshotTable :=
    ⟨some info, .ofList [("blob", ⟨some (Crc32.checksum [1, 2, 3])⟩), ("none", ⟨none⟩)]⟩
  { source := .ofText "from", home := ["from"], table, info
    store := { directory := .ofText "s", sync := false, throttle := some 0 }, den := ["s"]
    disk := Disk.empty.replay [.makeDirectory ["s"], .makeDirectory ["from"],
      .create ["from", "blob"], .write 0 0 [1, 2, 3], .create ["from", "none"],
      .create ["from", SnapshotName.table], .write 2 0 (Record.frame (Json.encode table))] }

/-- The copy of the example can begin. -/
theorem ready_ofBlobs : ofBlobs.Ready where
  wellFormed := wellFormed_replay _
  rooted := rooted_at_top ⟨by decide, by decide, by decide⟩ rfl (by decide) (by decide +kernel)
  home := directoryAt_top ⟨by decide, by decide, by decide⟩ rfl (by decide) (by decide +kernel)
  leads d hb := by
    refine directoryAt_top ⟨by decide, by decide, by decide⟩ rfl (by decide) ?_
    rw [hb.item?_ne (by decide)]
    decide +kernel
  apart := by decide
  read := by decide +kernel
  info := rfl
  positive := by decide
  other := by decide
  free := by decide +kernel
  names := by decide +kernel

/-- It can come to a good end. -/
theorem copyable_ofBlobs : ofBlobs.Copyable := by
  have hrows : ofBlobs.table.files.rows =
      [("blob", ⟨some (Crc32.checksum [1, 2, 3])⟩), ("none", ⟨none⟩)] := by decide +kernel
  refine ⟨fun row hrow => ?_, by decide +kernel⟩
  rw [hrows] at hrow
  simp only [List.mem_cons, List.not_mem_nil, or_false] at hrow
  rcases hrow with rfl | rfl
  · exact ⟨by decide, [1, 2, 3], by decide +kernel, fun sum hsum => Option.some.inj hsum⟩
  · exact ⟨by decide, [], by decide +kernel, fun sum hsum => nomatch hsum⟩

/-- Two bytes at a time, the snapshot is copied. -/
theorem exact_or_undone_ofBlobs : ∃ m reader m',
    (startCopy "local://from").runOn ⟨ofBlobs.store, .ofDisk ofBlobs.disk⟩ = (.ok 0, m) ∧
      (joinCopy 0).runOn (Course.run 0 ⟨⟨1, 0⟩, m⟩ (List.replicate 6 (.go 2 false))).mounted =
        (.ok reader, m') ∧ ofBlobs.Exact reader m' := by
  have huri : sourceOf "local://from" = .ok ofBlobs.source := by decide +kernel
  have hslot : ofBlobs.store.throttle.isSome → Slots.take? ⟨1, 0⟩ ≠ none := by decide
  obtain ⟨m, hstart, hcourse⟩ :=
    exact_or_undone ready_ofBlobs huri (v := .ofDisk ofBlobs.disk) rfl hslot
  obtain ⟨hover, houtcome⟩ := hcourse (List.replicate 6 (.go 2 false)) (by decide) _ rfl
  obtain ⟨-, r, m', hjoin, hexact, -, hiff, -⟩ := houtcome (hover (by decide +kernel))
  obtain ⟨reader, rfl⟩ := (hiff (by decide)).2 copyable_ofBlobs
  exact ⟨m, reader, m', hstart, hjoin, hexact reader rfl⟩

end CopyOrder
end RaftReplica
