/-
RaftReplica/Proofs/Simulation/Copies.lean

Copies in a world.  What a copy of a store does there, one step after the other, is a course
(`Hosts.stepCopy?`), so what comes of copies comes of it too.

A world has many stores and many throttles, and a copy needs one of each.  `World.course` looks at
these two alone, and the world goes on as the course does.

* A step in the world has three forms, by what the copy needs: a slot of the throttle, bytes from
  it, or nothing.  Each of them is one event of the course (`seekSlot`, `seekBytes`, and the last
  case of `stepCopy?`), with the number of bytes that the throttle granted.
* Other parts of the world stay.  The numbers of stores and throttles do not change, and a throttle
  goes on granting no more than a piece (`World.Kept`).
* A run in the world is then a run of the course, by induction (`Hosts.run`), and a cancellation in
  the world is one of the course.

From this comes `copied_or_undone`: a copy that is over in the world has given its slot back, and
the snapshot is exact or nothing of it is left.  Unless it was cancelled it has copied exactly if it
can be copied.
-/
import Mathlib.Logic.Relation
import RaftReplica.Proofs.Snapshot.Outcome
import RaftReplica.Simulation.Settling

namespace RaftReplica.Simulation

namespace AnyThrottle

variable {t : AnyThrottle} {s : Slots} {now : Nat}

/-- The throttle never grants more than a piece, if a piece is what it is asked for. -/
def Bounded : AnyThrottle → Prop
  | rate _ => True
  | gate g => ∀ n ∈ g.grants, n ≤ Copy.pieceSize

@[simp] theorem slots_setSlots : (t.setSlots s).slots = s := by cases t <;> rfl

@[simp] theorem slots_giveBack : t.giveBack.slots = t.slots.giveBack := by cases t <;> rfl

@[simp] theorem bounded_setSlots : (t.setSlots s).Bounded ↔ t.Bounded := by cases t <;> rfl

@[simp] theorem bounded_giveBack : t.giveBack.Bounded ↔ t.Bounded := by cases t <;> rfl

/-- Asking for bytes leaves the slots alone. -/
@[simp] theorem slots_ask (asked : Nat) : (t.ask now asked).2.slots = t.slots := by
  cases t with
  | rate t =>
    show (t.grant now asked).2.slots = t.slots
    unfold Throttle.grant Throttle.asOf
    split
    · rfl
    · dsimp only
      split <;> rfl
  | gate g =>
    obtain ⟨isOpen, grants, slots, holdsTasks, asked, finished⟩ := g
    cases isOpen with
    | false => rfl
    | true => cases grants <;> rfl

/-- A throttle grants no more than a piece, now and later. -/
theorem Bounded.ask (h : t.Bounded) (now : Nat) : (t.ask now Copy.pieceSize).1 ≤ Copy.pieceSize ∧
    (t.ask now Copy.pieceSize).2.Bounded := by
  cases t with
  | rate t => exact ⟨t.grant_le now _, trivial⟩
  | gate g =>
    obtain ⟨isOpen, grants, slots, holdsTasks, asked, finished⟩ := g
    cases isOpen with
    | false => exact ⟨Nat.zero_le _, h⟩
    | true =>
      cases grants with
      | nil => exact ⟨Nat.le_refl _, h⟩
      | cons n rest => exact List.forall_mem_cons.1 h

end AnyThrottle

namespace World

open SnapshotStore

variable {w w' : World} {store number throttle granted : Nat}

/-- The course of a copy in a world. -/
def course (store throttle : Nat) (w : World) : Course :=
  ⟨(w.item .throttles throttle).slots, w.item .snapshots store, w.volume⟩

section

variable {σ : Type} [Inhabited σ] {p : Part σ} (hp : ∀ w l, p.read (p.write w l) = l) {n : Nat}
  (hn : n < (p.read w).length)

include hp hn

theorem item_put (a : σ) : (w.put p n a).item p n = a := by
  rw [item, put, hp, List.getElem?_set_self hn]
  rfl

theorem item_change (f : σ → σ) : (w.change p n f).item p n = f (w.item p n) := by
  rw [item, item, change, hp, List.getElem?_modify_eq, List.getElem?_eq_getElem hn]
  rfl

end

/-- The store and the disk of a world, after an action on them. -/
theorem course_onStore {α : Type} (hstore : store < w.snapshots.length) (throttle : Nat)
    (x : Act (Mounted SnapshotStore) α) :
    ((onStore .snapshots store x).runOn w).2.course store throttle =
      ⟨(w.course store throttle).slots, (x.runOn (w.course store throttle).mounted).2⟩ := by
  rw [onStore, Act.runOn_zoom]
  show Course.mk _ (Mounted.mk ((w.put .snapshots store _).item .snapshots store) _) = _
  rw [item_put (fun _ _ => rfl) hstore]
  rfl

/-- A step of the copy in its store, with the slot given back at its end, is an advance of the
course. -/
theorem course_runCopy (hstore : store < w.snapshots.length)
    (hthrottle : ∀ n, ((Course.advance number granted false (w.course store throttle)).copy
      number).throttle = some n → n = throttle ∧ n < w.throttles.length) :
    (w.runCopy store number granted).course store throttle =
      Course.advance number granted false (w.course store throttle) := by
  have hcourse := course_onStore hstore throttle (stepCopy number granted)
  have hthrottles : ((onStore .snapshots store (stepCopy number granted)).runOn w).2.throttles =
      w.throttles := by
    rw [onStore, Act.runOn_zoom]
    rfl
  rw [Course.advance, stepSeen_false] at *
  unfold runCopy
  dsimp only at hthrottle ⊢
  generalize ((onStore .snapshots store (stepCopy number granted)).runOn w).2 = w₁ at *
  generalize (stepCopy number granted).runOn (w.course store throttle).mounted = m at *
  have hitem : w₁.item .snapshots store = m.2.store := congrArg (·.mounted.store) hcourse
  rw [hitem]
  -- without a throttle there is no slot to give back
  cases hc : (m.2.store.copy number).throttle with
  | none => exact hcourse
  | some n =>
    obtain ⟨rfl, hn⟩ := hthrottle n hc
    cases hover : (m.2.store.copy number).isOver with
    | false => exact hcourse
    | true =>
      have hlt : n < w₁.throttles.length := hthrottles ▸ hn
      show Course.mk ((w₁.change .throttles n AnyThrottle.giveBack).item .throttles n).slots
        (w₁.course store n).mounted = _
      rw [item_change (fun _ _ => rfl) hlt, AnyThrottle.slots_giveBack, hcourse,
        show (w₁.item .throttles n).slots = _ from congrArg Course.slots hcourse]
      rfl

/-- What no step of a copy changes: which stores and throttles there are, and that a throttle never
grants too much. -/
structure Kept (throttle : Nat) (w w' : World) : Prop where
  snapshots : w'.snapshots.length = w.snapshots.length
  throttles : w'.throttles.length = w.throttles.length
  bounded : (w.item .throttles throttle).Bounded → (w'.item .throttles throttle).Bounded

theorem Kept.trans {w'' : World} (h : Kept throttle w w') (h' : Kept throttle w' w'') :
    Kept throttle w w'' :=
  ⟨h'.snapshots.trans h.snapshots, h'.throttles.trans h.throttles, h'.bounded ∘ h.bounded⟩

/-- A throttle that is put back keeps the rest of the world. -/
theorem kept_put (hthrottle : throttle < w.throttles.length) {t : AnyThrottle}
    (ht : (w.item .throttles throttle).Bounded → t.Bounded) :
    Kept throttle w (w.put .throttles throttle t) := by
  refine ⟨rfl, List.length_set, fun h => ?_⟩
  rw [item_put (fun _ _ => rfl) hthrottle]
  exact ht h

/-- What is done to a store keeps the throttles. -/
theorem kept_onStore {α : Type} (x : Act (Mounted SnapshotStore) α) :
    Kept throttle w ((onStore .snapshots store x).runOn w).2 := by
  rw [onStore, Act.runOn_zoom]
  exact ⟨List.length_set, rfl, id⟩

/-- A slot that is given back keeps the rest of the world. -/
theorem kept_giveBack (n : Nat) : Kept throttle w (w.change .throttles n AnyThrottle.giveBack) := by
  refine ⟨rfl, List.length_modify _ _ _, fun h => ?_⟩
  unfold item change Part.throttles at *
  dsimp only at h ⊢
  rw [List.getElem?_modify]
  cases hi : w.throttles[throttle]? with
  | none => exact fun _ hm => nomatch hm
  | some t =>
    rw [hi] at h
    show (if n = throttle then t.giveBack else t).Bounded
    split
    · exact AnyThrottle.bounded_giveBack.2 h
    · exact h

/-- So a step of a copy does. -/
theorem kept_runCopy : Kept throttle w (w.runCopy store number granted) := by
  have hstore : Kept throttle w ((onStore .snapshots store (stepCopy number granted)).runOn w).2 :=
    kept_onStore _
  unfold runCopy
  dsimp only
  split
  · split
    · exact hstore.trans (kept_giveBack _)
    · exact hstore
  · exact hstore

/-- A change of the store is one of the course. -/
theorem course_change (hstore : store < w.snapshots.length) (throttle : Nat)
    (f : SnapshotStore → SnapshotStore) :
    (w.change .snapshots store f).course store throttle = (w.course store throttle).change f := by
  rw [course, item_change (fun _ _ => rfl) hstore]
  rfl

/-- What happens to a copy in a world: it takes a step, or it is cancelled. -/
inductive CopyStep (store number : Nat) (w : World) : World → Prop
  | go {w' : World} (h : w.stepCopy? store number = some w') : CopyStep store number w w'
  | cancel : CopyStep store number w (w.change .snapshots store (cancelCopy number))

/-- The world has the copy, in a store that asks the throttle or none. -/
structure Hosts (o : CopyOrder) (store throttle : Nat) (slots : Slots) (cancelled : Bool) (w : World) :
    Prop where
  store_lt : store < w.snapshots.length
  throttle_lt : ∀ n, o.store.throttle = some n → n = throttle ∧ n < w.throttles.length
  bounded : (w.item .throttles throttle).Bounded
  stands : Course.Stands o slots cancelled (w.course store throttle)

namespace Hosts

variable {o : CopyOrder} {slots : Slots} {cancelled : Bool}
  (hw : Hosts o store throttle slots cancelled w)

include hw

/-- A world that is kept, with a course that stands, hosts the copy still. -/
theorem of_kept {seen : Bool} (hkept : Kept throttle w w')
    (hstands : Course.Stands o slots seen (w'.course store throttle)) :
    Hosts o store throttle slots seen w' :=
  ⟨hkept.snapshots ▸ hw.store_lt, hkept.throttles ▸ hw.throttle_lt, hkept.bounded hw.bounded, hstands⟩

/-- The copy advances, maybe after something about its throttle has changed. -/
theorem runCopy (hkept : Kept throttle w w') (hstands : Course.Stands o slots cancelled
      (Course.advance o.number granted false (w'.course store throttle))) :
    (w'.runCopy store o.number granted).course store throttle =
        Course.advance o.number granted false (w'.course store throttle) ∧
      Hosts o store throttle slots cancelled (w'.runCopy store o.number granted) := by
  have hcourse : (w'.runCopy store o.number granted).course store throttle =
      Course.advance o.number granted false (w'.course store throttle) := by
    refine course_runCopy (hkept.snapshots ▸ hw.store_lt) fun n hn => ?_
    rw [hkept.throttles]
    exact hw.throttle_lt n (hstands.throttle ▸ hn)
  exact ⟨hcourse, hw.of_kept (hkept.trans kept_runCopy) (hcourse ▸ hstands)⟩

section

variable (h : o.Ready) (hslot : o.store.throttle.isSome → slots.take? ≠ none)
  (hover : ((w.course store throttle).copy o.number).isOver = false)

include h hslot hover

/-- A copy that goes on stays where copies are. -/
theorem stands_go (hgranted : granted ≤ Copy.pieceSize) :
    Course.Stands o slots cancelled ((w.course store throttle).go o.number granted false) := by
  have hgo : Course.Stands o slots (cancelled || false)
      ((w.course store throttle).go o.number granted false) :=
    (hw.stands.go h hslot hover hgranted).1
  rwa [Bool.or_false] at hgo

/-- A copy that needs a slot. -/
theorem seekSlot (hneed : ((w.course store throttle).copy o.number).need = .slot)
    (hthrottle : throttle < w.throttles.length)
    (hstep : w.seekSlot store o.number throttle = some w') :
    w'.course store throttle = (w.course store throttle).go o.number 0 false ∧
      Hosts o store throttle slots cancelled w' := by
  obtain ⟨slots', htake, -⟩ := hw.stands.exists_take? hslot hneed
  have hgo := hw.stands_go h hslot hover (Nat.zero_le _)
  rw [Course.go_of_slot hover hneed htake] at hgo ⊢
  let t := (w.item .throttles throttle).setSlots slots'
  have htake' : (w.item .throttles throttle).take? = some t := by
    rw [AnyThrottle.take?, show (w.item .throttles throttle).slots.take? = _ from htake]
    rfl
  have hcourse : (w.put .throttles throttle t).course store throttle =
      ⟨slots', (w.course store throttle).mounted⟩ := by
    show Course.mk ((w.put .throttles throttle t).item .throttles throttle).slots _ = _
    rw [item_put (fun _ _ => rfl) hthrottle, AnyThrottle.slots_setSlots]
    rfl
  unfold World.seekSlot at hstep
  dsimp only at hstep
  split at hstep
  · nomatch hstep
  · rw [htake'] at hstep
    obtain rfl := Option.some.inj hstep
    rw [← hcourse] at hgo ⊢
    exact hw.runCopy (kept_put hthrottle AnyThrottle.bounded_setSlots.2) hgo

/-- A copy that asks for bytes. -/
theorem seekBytes (hneed : ((w.course store throttle).copy o.number).need = .bytes)
    (hthrottle : throttle < w.throttles.length)
    (hstep : w.seekBytes store o.number throttle = some w') : ∃ granted, granted ≤ Copy.pieceSize ∧
      w'.course store throttle = (w.course store throttle).go o.number granted false ∧
      Hosts o store throttle slots cancelled w' := by
  unfold World.seekBytes at hstep
  dsimp only at hstep
  have hasked := hw.bounded.ask w.nanos
  have hslots : ((w.item .throttles throttle).ask w.nanos Copy.pieceSize).2.slots =
      (w.item .throttles throttle).slots := AnyThrottle.slots_ask _
  generalize (w.item .throttles throttle).ask w.nanos Copy.pieceSize = answer at *
  obtain ⟨granted, t⟩ := answer
  have hgo := hw.stands_go h hslot hover hasked.1
  refine ⟨granted, hasked.1, ?_⟩
  have hkept : Kept throttle w (w.put .throttles throttle t) := kept_put hthrottle fun _ => hasked.2
  have hcourse : (w.put .throttles throttle t).course store throttle = w.course store throttle := by
    show Course.mk ((w.put .throttles throttle t).item .throttles throttle).slots _ = _
    rw [item_put (fun _ _ => rfl) hthrottle, hslots]
    rfl
  rw [Course.go_of_bytes hover hneed] at hgo ⊢
  split at hstep
  · nomatch hstep
  · dsimp only at hstep
    split at hstep
    · next hnone =>
      obtain rfl := Option.some.inj hstep
      rw [if_pos hnone]
      exact ⟨hcourse, hw.of_kept ⟨hkept.snapshots, hkept.throttles, hkept.bounded⟩
        (hcourse ▸ hw.stands)⟩
    · next hsome =>
      obtain rfl := Option.some.inj hstep
      rw [if_neg hsome, ← hcourse] at hgo ⊢
      exact hw.runCopy hkept hgo

end

/-- **A step of a copy in a world** is one of its course. -/
theorem stepCopy? (h : o.Ready) (hslot : o.store.throttle.isSome → slots.take? ≠ none)
    (hstep : w.stepCopy? store o.number = some w') : ∃ granted, granted ≤ Copy.pieceSize ∧
      w'.course store throttle = (w.course store throttle).next o.number (.go granted false) ∧
      Hosts o store throttle slots cancelled w' := by
  unfold World.stepCopy? at hstep
  dsimp only at hstep
  rw [show (w.item .snapshots store).copy o.number = (w.course store throttle).copy o.number from rfl]
    at hstep
  cases hover : ((w.course store throttle).copy o.number).isOver with
  | true =>
    rw [hover] at hstep
    nomatch hstep
  | false =>
  rw [hover] at hstep
  -- a copy that needs something has a throttle, and it is the one of the course
  have hasks (hneed : ((w.course store throttle).copy o.number).need ≠ .nothing) :
      ((w.course store throttle).copy o.number).throttle = some throttle ∧
        throttle < w.throttles.length := by
    obtain ⟨n, hn⟩ := Copy.exists_throttle hneed
    obtain ⟨rfl, hlt⟩ := hw.throttle_lt n (hw.stands.throttle ▸ hn)
    exact ⟨hn, hlt⟩
  cases hneed : ((w.course store throttle).copy o.number).need with
  | slot =>
    obtain ⟨hthrottle, hlt⟩ := hasks (by rw [hneed]; nofun)
    rw [hneed, hthrottle] at hstep
    exact ⟨0, Nat.zero_le _, hw.seekSlot h hslot hover hneed hlt hstep⟩
  | bytes =>
    obtain ⟨hthrottle, hlt⟩ := hasks (by rw [hneed]; nofun)
    rw [hneed, hthrottle] at hstep
    exact hw.seekBytes h hslot hover hneed hlt hstep
  | nothing =>
    rw [hneed] at hstep
    obtain rfl := Option.some.inj hstep
    have hgo := hw.stands_go h hslot hover (Nat.le_refl _)
    refine ⟨Copy.pieceSize, Nat.le_refl _, ?_⟩
    rw [Course.next]
    rw [Course.go_of_nothing hover hneed] at hgo ⊢
    exact hw.runCopy ⟨rfl, rfl, id⟩ hgo

omit hw in
/-- **Whatever happens to a copy in a world**, step after step, happens to its course. -/
theorem run {seen : Bool} (hw : Hosts o store throttle slots seen w) (h : o.Ready)
    (hslot : o.store.throttle.isSome → slots.take? ≠ none)
    (hsteps : Relation.ReflTransGen (CopyStep store o.number) w w') : ∃ events seen,
      (∀ e ∈ events, e.granted ≤ Copy.pieceSize) ∧
      w'.course store throttle = (w.course store throttle).run o.number events ∧
      Hosts o store throttle slots seen w' := by
  -- by induction on the steps; each of them is one more event behind the others
  induction hsteps with
  | refl => exact ⟨[], seen, nofun, rfl, hw⟩
  | @tail w₁ w₂ _ hstep ih =>
    obtain ⟨events, seen, hgranted, hcourse, hw₁⟩ := ih
    have hrun (e : CopyEvent) : ((w.course store throttle).run o.number events).next o.number e =
        (w.course store throttle).run o.number (events ++ [e]) := by
      rw [Course.run, Course.run, List.foldl_append]
      rfl
    have hall (e : CopyEvent) (he : e.granted ≤ Copy.pieceSize) :
        ∀ e' ∈ events ++ [e], e'.granted ≤ Copy.pieceSize :=
      List.forall_mem_append.2 ⟨hgranted, List.forall_mem_singleton.2 he⟩
    cases hstep with
    | go hgo =>
      obtain ⟨granted, hle, hnext, hw₂⟩ := hw₁.stepCopy? h hslot hgo
      exact ⟨events ++ [.go granted false], seen, hall (.go granted false) hle,
        by rw [hnext, hcourse, hrun], hw₂⟩
    | cancel =>
      have hnext := course_change hw₁.store_lt throttle (cancelCopy o.number)
      refine ⟨events ++ [.cancel], _, hall .cancel (Nat.zero_le _), ?_,
        hw₁.of_kept ⟨List.length_modify _ _ _, rfl, id⟩ (hnext ▸ hw₁.stands.cancel)⟩
      rw [hnext, hcourse]
      exact hrun .cancel

omit hw in
/-- A copy that is not cancelled stands as one that was not. -/
theorem goesOn (hw : Hosts o store throttle slots cancelled w) (h : o.Ready)
    (hslot : o.store.throttle.isSome → slots.take? ≠ none)
    (hsteps : Relation.ReflTransGen (fun a b => a.stepCopy? store o.number = some b) w w') :
    Hosts o store throttle slots cancelled w' := by
  induction hsteps with
  | refl => exact hw
  | tail _ hstep ih =>
    obtain ⟨-, -, -, hnext⟩ := ih.stepCopy? h hslot hstep
    exact hnext

/-- Who takes the outcome of a copy that is over in a world. -/
theorem joined_of_over (hover : ((w.item .snapshots store).copy o.number).isOver = true) :
    (w.item .throttles throttle).slots = slots ∧ ∃ r w₁,
      (onStore .snapshots store (joinCopy o.number)).runOn w = (r.mapError .error, w₁) ∧
        o.At cancelled (.over r) (w₁.course store throttle).mounted := by
  obtain ⟨hslots, r, m, hjoin, hat⟩ := hw.stands.joined_of_over hover
  refine ⟨hslots, r, ((onStore .snapshots store (joinCopy o.number)).runOn w).2, ?_, ?_⟩
  · refine Prod.fst_eq_iff.1 ?_
    rw [onStore, Act.runOn_zoom]
    exact congrArg Prod.fst hjoin
  · rw [course_onStore hw.store_lt, hjoin]
    exact hat

end Hosts

/-- **A copy that begins in a world** has the store and the throttle that it needs. -/
theorem hosts_startCopy {o : CopyOrder} {uri : String} (huri : sourceOf uri = .ok o.source)
    (hstore : store < w.snapshots.length) (hitem : w.item .snapshots store = o.store)
    (hthrottle : ∀ n, o.store.throttle = some n → n = throttle ∧ n < w.throttles.length)
    (hbounded : (w.item .throttles throttle).Bounded) (hdisk : w.volume.disk = o.disk) : ∃ w',
    (onStore .snapshots store (startCopy uri)).runOn w = (.ok o.number, w') ∧
      Hosts o store throttle (w.item .throttles throttle).slots false w' := by
  obtain ⟨m, hstart, -, hstands⟩ := CopyOrder.stands_startCopy huri hdisk
  rw [← hitem] at hstart
  have hkept : Kept throttle w ((onStore .snapshots store (startCopy uri)).runOn w).2 := kept_onStore _
  have hcourse := course_onStore hstore throttle (startCopy uri)
  rw [show (startCopy uri).runOn (w.course store throttle).mounted = _ from hstart] at hcourse
  refine ⟨_, Prod.fst_eq_iff.1 ?_, hkept.snapshots ▸ hstore, hkept.throttles ▸ hthrottle,
    hkept.bounded hbounded, hcourse ▸ hstands _⟩
  rw [onStore, Act.runOn_zoom, show (startCopy uri).runOn ⟨w.item .snapshots store, _⟩ = _ from hstart]

/-- **What comes of a copy in a world.**  It begins in a store whose throttle, if there is one, has a
free slot.  Then the copy goes on or is cancelled, in any order; each of its steps is granted what the
throttle of the world says, at the time that it is there.  If it is over at last, its slot is free
again, and who takes its outcome finds the snapshot exactly as it is at the source, or an error and a
store as if nothing had been begun.  If it was never cancelled the source decides which. -/
theorem copied_or_undone {o : CopyOrder} (h : o.Ready) {uri : String}
    (huri : sourceOf uri = .ok o.source) (hstore : store < w.snapshots.length)
    (hitem : w.item .snapshots store = o.store)
    (hthrottle : ∀ n, o.store.throttle = some n → n = throttle ∧ n < w.throttles.length)
    (hbounded : (w.item .throttles throttle).Bounded) (hdisk : w.volume.disk = o.disk)
    (hslot : o.store.throttle.isSome → (w.item .throttles throttle).slots.take? ≠ none) : ∃ w₁,
    (onStore .snapshots store (startCopy uri)).runOn w = (.ok o.number, w₁) ∧
      ∀ w₂, Relation.ReflTransGen (CopyStep store o.number) w₁ w₂ →
        ((w₂.item .snapshots store).copy o.number).isOver = true →
          (w₂.item .throttles throttle).slots = (w.item .throttles throttle).slots ∧
          ∃ (r : Except Error SnapshotReader) (w₃ : World),
            (onStore .snapshots store (joinCopy o.number)).runOn w₂ = (r.mapError .error, w₃) ∧
            (∀ reader, r = .ok reader → o.Exact reader (w₃.course store throttle).mounted) ∧
            (∀ e, r = .error e → o.Undone (w₃.course store throttle).mounted) ∧
            (Relation.ReflTransGen (fun a b => a.stepCopy? store o.number = some b) w₁ w₂ →
              ((∃ reader, r = .ok reader) ↔ o.Copyable)) := by
  obtain ⟨w₁, hstart, hw₁⟩ := hosts_startCopy huri hstore hitem hthrottle hbounded hdisk
  refine ⟨w₁, hstart, fun w₂ hsteps hover => ?_⟩
  -- without a cancellation it is known to have seen none, otherwise it may have
  obtain ⟨seen, hw₂, hseen⟩ : ∃ seen, Hosts o store throttle _ seen w₂ ∧
      (Relation.ReflTransGen (fun a b => a.stepCopy? store o.number = some b) w₁ w₂ →
        seen = false) := by
    by_cases hgo : Relation.ReflTransGen (fun a b => a.stepCopy? store o.number = some b) w₁ w₂
    · exact ⟨false, hw₁.goesOn h hslot hgo, fun _ => rfl⟩
    · obtain ⟨-, seen, -, -, hw₂⟩ := hw₁.run h hslot hsteps
      exact ⟨seen, hw₂, fun hgo' => absurd hgo' hgo⟩
  obtain ⟨hslots, r, w₃, hjoin, hat⟩ := hw₂.joined_of_over hover
  exact ⟨hslots, r, w₃, hjoin, fun _ hr => (hr ▸ hat).exact, fun _ hr => (hr ▸ hat).undone,
    fun hgo => (hseen hgo ▸ hat).copyable_iff⟩

end World
end RaftReplica.Simulation
