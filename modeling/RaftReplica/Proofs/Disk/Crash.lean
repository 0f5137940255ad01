/-
RaftReplica/Proofs/Disk/Crash.lean

Where a process may stop.  `Passes P v v'` says that the volume came from `v` to `v'` by calls, and
that `P` holds of the disk wherever the process stops on the way.  Ways are put together end to end
(`Passes.trans`), so a long action is looked at in parts.

Most actions are easy parts: they change the disk by one call at most, so what they leave is the
disk before them or the disk after them (`Atomic`).  Only a write can be cut short, and leaves a file
that is longer by some of its bytes (`passes_write`).

A stop is a number of calls that were made, or such a number and the beginning of one more write
(`Disk.LeftBy`).  The journal of a volume is the list of calls, so a way is split where the journal
is (`LeftBy.of_append`), and nothing is said about time or about what the disk has flushed.

Actions that change nothing are `Quiet`; they may stand anywhere in a way.  An atomic action with
quiet ones before it is atomic (`Atomic.behind`), which covers the checks that calls make
first.  Making the directories of a path is neither: a stop leaves some of them, and what is kept is
that making them again gives the same (`passes_makeAll`).
-/
import RaftReplica.Proofs.Disk.Entries

namespace RaftReplica

namespace Disk

variable {d d' : Disk} {cs cs' : List Call}

theorem replay_append (d : Disk) (cs cs' : List Call) :
    d.replay (cs ++ cs') = (d.replay cs).replay cs' := List.foldl_append

/-- Without a call nothing is changed. -/
theorem LeftBy.eq_of_nil (h : d.LeftBy [] d') : d' = d := by
  cases h with
  | between n => rw [List.take_nil]; rfl
  | within n c torn hc => exact absurd hc (by simp)

/-- A process stops in the first of two parts or in the second. -/
theorem LeftBy.of_append (h : d.LeftBy (cs ++ cs') d') :
    d.LeftBy cs d' ∨ (d.replay cs).LeftBy cs' d' := by
  -- between two calls, or within a write
  cases h with
  | between n =>
    rcases Nat.le_total n cs.length with hn | hn
    · rw [List.take_append_of_le_length hn]
      exact .inl (.between n)
    · rw [List.take_append, List.take_of_length_le hn, replay_append]
      exact .inr (.between _)
  | within n c torn hc ht =>
    rcases Nat.lt_or_ge n cs.length with hn | hn
    · rw [List.getElem?_append_left hn] at hc
      rw [List.take_append_of_le_length (Nat.le_of_lt hn)]
      exact .inl (.within n c torn hc ht)
    · rw [List.getElem?_append_right hn] at hc
      rw [List.take_append, List.take_of_length_le hn, List.append_assoc, replay_append]
      exact .inr (.within _ c torn hc ht)

/-- One call is replayed by performing it. -/
theorem replay_singleton {c : Call} (h : d.perform c = .ok d') : d.replay [c] = d' := by
  show (d.perform c).toOption.getD d = d'
  rw [h]
  rfl

/-- A single call is made or not, or it is a write that was cut short. -/
theorem LeftBy.of_singleton {c : Call} (h : d.LeftBy [c] d') :
    d' = d ∨ d' = d.replay [c] ∨ ∃ torn, c.TornTo torn ∧ d' = d.replay [torn] := by
  cases h with
  | between n =>
    cases n with
    | zero => exact .inl rfl
    | succ n => exact .inr (.inl (by rw [List.take_of_length_le (by simp)]))
  | within n c' torn hc ht =>
    cases n with
    | zero => exact .inr (.inr ⟨torn, Option.some.inj hc ▸ ht, rfl⟩)
    | succ n => exact absurd hc (by simp)

end Disk

namespace Volume

open Disk

variable {α β : Type} {P Q : Disk → Prop} {v v' v'' : Volume} {r : Except Failure α}

/-- The one volume became the other by calls, and `P` holds of every disk that is left if the
process stops on the way. -/
def Passes (P : Disk → Prop) (v v' : Volume) : Prop :=
  ∃ calls, v'.journal = calls.reverse ++ v.journal ∧ v'.disk = v.disk.replay calls ∧
    ∀ d, v.disk.LeftBy calls d → P d

namespace Passes

theorem refl (h : P v.disk) : Passes P v v :=
  ⟨[], rfl, rfl, fun _ hd => hd.eq_of_nil ▸ h⟩

/-- One way after another is a way. -/
theorem trans (h : Passes P v v') (h' : Passes P v' v'') : Passes P v v'' := by
  obtain ⟨cs, hj, hd, hP⟩ := h
  obtain ⟨cs', hj', hd', hP'⟩ := h'
  refine ⟨cs ++ cs', ?_, ?_, ?_⟩
  · rw [hj', hj, List.reverse_append, List.append_assoc]
  · rw [hd', hd, replay_append]
  · intro d hleft
    rcases hleft.of_append with hleft | hleft
    · exact hP d hleft
    · exact hP' d (hd ▸ hleft)

theorem mono (h : Passes P v v') (hPQ : ∀ d, P d → Q d) : Passes Q v v' := by
  obtain ⟨cs, hj, hd, hP⟩ := h
  exact ⟨cs, hj, hd, fun d hleft => hPQ d (hP d hleft)⟩

theorem start (h : Passes P v v') : P v.disk := by
  obtain ⟨cs, -, -, hP⟩ := h
  exact hP _ (.between 0)

/-- The disk at the end is passed. -/
theorem stop (h : Passes P v v') : P v'.disk := by
  obtain ⟨cs, -, hd, hP⟩ := h
  have hend := hP _ (.between cs.length)
  rwa [List.take_length, ← hd] at hend

/-- Whatever is left is well-formed. -/
theorem wellFormed (h : Passes P v v') (hw : v.disk.WellFormed) :
    Passes (fun d => d.WellFormed ∧ P d) v v' := by
  obtain ⟨cs, hj, hd, hP⟩ := h
  refine ⟨cs, hj, hd, fun d hleft => ⟨?_, hP d hleft⟩⟩
  cases hleft with
  | between n => exact hw.replay _
  | within n c torn hc ht => exact hw.replay _

/-- What is left by the calls in the journal of a volume that had none. -/
theorem left {d d' : Disk} (h : Passes P (.ofDisk d) v') (hleft : d.LeftBy v'.journal.reverse d') :
    P d' := by
  obtain ⟨cs, hj, -, hP⟩ := h
  rw [hj] at hleft
  refine hP d' ?_
  simpa [ofDisk] using hleft

end Passes

/-! ### Actions of one call -/

/-- The action leaves the disk as it was, or as it is afterwards. -/
def Atomic (x : Act Volume α) : Prop :=
  ∀ (v : Volume) (P : Disk → Prop), P v.disk → P (x.runOn v).2.disk → Passes P v (x.runOn v).2

/-- The action does not change the disk. -/
def Quiet (x : Act Volume α) : Prop := Atomic x ∧ ∀ v, (x.runOn v).2.disk = v.disk

/-- An atomic action passes what was before it and what is after it. -/
theorem Atomic.passes {x : Act Volume α} (hx : Atomic x) (hrun : x.runOn v = (r, v'))
    (h : P v.disk) (h' : P v'.disk) : Passes P v v' := by
  have hpass := hx v P h
  rw [hrun] at hpass
  exact hpass h'

/-- A quiet action passes the disk that is there. -/
theorem Quiet.passes {x : Act Volume α} (hx : Quiet x) (hrun : x.runOn v = (r, v'))
    (h : P v.disk) : Passes P v v' := by
  have hsame := hx.2 v
  rw [hrun] at hsame
  exact hx.1.passes hrun h (hsame ▸ h)

/-- An action that leaves the volume alone is quiet. -/
theorem Quiet.of_same {x : Act Volume α} (h : ∀ v, (x.runOn v).2 = v) : Quiet x := by
  refine ⟨fun v P hP _ => ?_, fun v => by rw [h v]⟩
  rw [h v]
  exact .refl hP

theorem quiet_pure (a : α) : Quiet (pure a : Act Volume α) := .of_same fun _ => rfl

theorem quiet_fail (e : Error) : Quiet (Act.fail e : Act Volume α) := .of_same fun _ => rfl

theorem quiet_get : Quiet (get : Act Volume Volume) := .of_same fun _ => rfl

theorem quiet_look (f : Disk → Except IoCause α) : Quiet (look f) :=
  .of_same fun v => by rw [runOn_look]

theorem quiet_require (holds : Bool) (e : Violation) : Quiet (Act.require holds e) :=
  .of_same fun v => by rw [Act.runOn_require]

/-- A quiet part may come first. -/
theorem Atomic.behind {x : Act Volume α} {f : α → Act Volume β} (hx : Quiet x)
    (hf : ∀ a, Atomic (f a)) : Atomic (x >>= f) := by
  intro v P hP hP'
  rcases hr : x.runOn v with ⟨r, v₁⟩
  have hsame := hx.2 v
  rw [hr] at hsame
  cases r with
  | ok a =>
    rw [Act.runOn_bind_ok hr] at hP' ⊢
    exact (hx.passes hr hP).trans (hf a v₁ P (hsame ▸ hP) hP')
  | error e =>
    rw [Act.runOn_bind_error hr]
    exact hx.passes hr hP

/-- And a quiet part may come last. -/
theorem Atomic.before {x : Act Volume α} {f : α → Act Volume β} (hx : Atomic x)
    (hf : ∀ a, Quiet (f a)) : Atomic (x >>= f) := by
  intro v P hP hP'
  rcases hr : x.runOn v with ⟨r, v₁⟩
  cases r with
  | ok a =>
    rw [Act.runOn_bind_ok hr] at hP' ⊢
    have hP₁ : P v₁.disk := by rwa [(hf a).2 v₁] at hP'
    exact (hx.passes hr hP hP₁).trans ((hf a).1 v₁ P hP₁ hP')
  | error e =>
    rw [Act.runOn_bind_error hr] at hP' ⊢
    exact hx.passes hr hP hP'

/-- Quiet actions are quiet one after the other. -/
theorem Quiet.bind {x : Act Volume α} {f : α → Act Volume β} (hx : Quiet x)
    (hf : ∀ a, Quiet (f a)) : Quiet (x >>= f) := by
  refine ⟨.behind hx fun a => (hf a).1, ?_⟩
  intro v
  rcases hr : x.runOn v with ⟨r, v₁⟩
  have hsame := hx.2 v
  rw [hr] at hsame
  cases r with
  | ok a => rw [Act.runOn_bind_ok hr, (hf a).2 v₁, hsame]
  | error e => rw [Act.runOn_bind_error hr, hsame]

/-- A call is made wholly or not at all, unless it is a write. -/
theorem atomic_perform {c : Call} (hc : ∀ torn, ¬ c.TornTo torn) : Atomic (perform c) := by
  intro v P hP hP'
  cases hd : v.disk.perform c with
  | error e => rw [runOn_perform_error hd]; exact .refl hP
  | ok d =>
    rw [runOn_perform hd] at hP' ⊢
    refine ⟨[c], rfl, (replay_singleton hd).symm, ?_⟩
    intro d' hleft
    rcases hleft.of_singleton with rfl | rfl | ⟨torn, ht, -⟩
    · exact hP
    · rwa [replay_singleton hd]
    · exact absurd ht (hc torn)

/-- Flushing a file is quiet. -/
theorem quiet_flush (sync : Bool) (number : Nat) : Quiet (flush sync number) := by
  cases sync with
  | false => exact quiet_pure ()
  | true => exact ⟨atomic_perform (c := .flush number) nofun, fun v => rfl⟩

/-- Flushing a directory is quiet. -/
theorem quiet_flushParent (sync : Bool) (p : Path) : Quiet (flushParent sync p) := by
  cases sync with
  | false => exact quiet_pure ()
  | true =>
    exact .bind (quiet_look _) fun l =>
      ⟨atomic_perform (c := .flushDirectory l.dropLast) nofun, fun v => rfl⟩

/-- A file is made at once. -/
theorem atomic_create (p : Path) : Atomic (create p) := by
  refine .behind (quiet_look _) fun l => ?_
  split
  · exact .behind (quiet_fail _) fun _ => .before (atomic_perform nofun) fun _ => quiet_look _
  · exact .before (atomic_perform nofun) fun _ => quiet_look _

theorem atomic_setLength (number length : Nat) : Atomic (setLength number length) :=
  atomic_perform nofun

theorem atomic_removeFile (p : Path) : Atomic (removeFile p) :=
  .behind (quiet_look _) fun _ => atomic_perform nofun

/-- A file is renamed at once. -/
theorem atomic_rename (old new : Path) : Atomic (rename old new) := by
  unfold rename
  refine .behind (quiet_look _) fun l => .behind (quiet_look _) fun m => ?_
  have hcall : Atomic (perform (.rename l m)) := atomic_perform nofun
  -- the paths are checked, and then there is the one call
  have hchecked : Atomic (if old.endsInSlash || new.endsInSlash then
      Act.fail (.io .notDirectory) >>= fun _ : Unit => perform (.rename l m)
      else perform (.rename l m)) := by
    split
    · exact .behind (quiet_fail _) fun _ => hcall
    · exact hcall
  dsimp only
  split
  · refine .behind (quiet_fail _) fun _ => .behind quiet_get fun v => ?_
    split
    · exact hchecked
    · exact hcall
  · refine .behind quiet_get fun v => ?_
    split
    · exact hchecked
    · exact hcall

/-! ### Writes -/

/-- Of what is written at the end of a file any number of bytes may be there. -/
theorem passes_write {m : Location} {k pos : Nat} {bs new : Bytes} (hw : v.disk.WellFormed)
    (hi : v.disk.item? m = some (.file k bs)) (hpos : pos = bs.length)
    {r : Except Failure Unit} (hrun : (write k pos new).runOn v = (r, v')) :
    Passes (fun d => ∃ n, Puts v.disk d m (some (.file k (bs ++ new.take n)))) v v' := by
  have hput (n : Nat) : Puts v.disk (v.disk.replay [.write k pos (new.take n)]) m
      (some (.file k (bs ++ new.take n))) := by
    obtain ⟨v₁, hwrite, hput⟩ := runOn_write hw hi hpos (new.take n)
    obtain ⟨-, rfl⟩ := Prod.mk.inj (hwrite.symm.trans (runOn_perform rfl))
    exact hput
  obtain ⟨-, rfl⟩ := Prod.mk.inj (hrun.symm.trans (runOn_perform rfl))
  refine ⟨[.write k pos new], rfl, rfl, ?_⟩
  intro d hleft
  -- before the write, after it, or after some bytes of it
  rcases hleft.of_singleton with rfl | rfl | ⟨torn, ht, rfl⟩
  · refine ⟨0, hw, ?_⟩
    rw [List.take_zero, List.append_nil, ← hi, Function.update_eq_self]
  · refine ⟨new.length, ?_⟩
    have hall := hput new.length
    rwa [List.take_length] at hall ⊢
  · cases ht with
    | write number pos bytes n => exact ⟨n, hput n⟩

/-! ### Making directories -/

/-- Making a directory adds it. -/
theorem node?_of_makeDirectory {d d' : Disk} {l : Location} (hw : d.WellFormed)
    (h : d.perform (.makeDirectory l) = .ok d') :
    d'.node? = Function.update d.node? l (some .directory) := by
  have hw' := hw.perform h
  obtain ⟨-, -, rfl⟩ := makeDirectory_eq_ok_iff.1 h
  exact node?_add hw hw'

/-- A directory that is there is passed by. -/
theorem runOn_makeAll_there {start : Location} {part : String} (rest : List String)
    (h : v.disk.node? (step start part) = some .directory) :
    (makeAll start (part :: rest)).runOn v = (makeAll (step start part) rest).runOn v := by
  rw [makeAll, Act.runOn_bind_ok (Act.runOn_get v)]
  simp only [h]

/-- One that is missing is made, unless the path ends in a dot. -/
theorem runOn_makeAll_missing {start : Location} {part : String} {rest : List String}
    (h : v.disk.node? (step start part) = none) :
    (makeAll start (part :: rest)).runOn v =
      if onlyDots rest then (.error (.error (.io .missing)), v)
      else (perform (.makeDirectory (step start part)) >>= fun _ =>
        makeAll (step start part) rest).runOn v := by
  rw [makeAll, Act.runOn_bind_ok (Act.runOn_get v)]
  simp only [h]
  split <;> rfl

/-- On the disk `d`, which has all directories of `d₀`, those along a path can be made, and then the
disk is `d₁`. -/
def Resumes (d₀ d₁ : Disk) (start : Location) (parts : List String) (d : Disk) : Prop :=
  (∀ l, d₀.node? l = some .directory → d.node? l = some .directory) ∧
    ∀ u : Volume, u.disk = d → ∃ u', (makeAll start parts).runOn u = (.ok (), u') ∧ u'.disk = d₁

/-- The first directory along the path may be there already. -/
theorem Resumes.there {d₀ d d₁ : Disk} {start : Location} {part : String} {rest : List String}
    (h : Resumes d₀ d₁ (step start part) rest d)
    (hpart : d₀.node? (step start part) = some .directory) :
    Resumes d₀ d₁ start (part :: rest) d := by
  refine ⟨h.1, ?_⟩
  rintro u rfl
  rw [runOn_makeAll_there rest (h.1 _ hpart)]
  exact h.2 u rfl

/-- If some of the directories along a path were made, the others can still be made. -/
theorem passes_makeAll {start : Location} {parts : List String} (hw : v.disk.WellFormed)
    (hrun : (makeAll start parts).runOn v = (.ok (), v')) :
    Passes (Resumes v.disk v'.disk start parts) v v' := by
  -- on the parts of the path, from the directory that the parts before lead to
  induction parts generalizing start v with
  | nil =>
    obtain ⟨-, rfl⟩ := Prod.mk.inj hrun
    exact .refl ⟨fun _ h => h, fun u hu => ⟨u, rfl, hu⟩⟩
  | cons part rest ih =>
    cases hnode : v.disk.node? (step start part) with
    | some n =>
      cases n with
      | directory =>
        rw [runOn_makeAll_there rest hnode] at hrun
        exact (ih hw hrun).mono fun d hd => hd.there hnode
      | file k =>
        rw [makeAll, Act.runOn_bind_ok (Act.runOn_get v)] at hrun
        simp only [hnode] at hrun
        exact absurd hrun (by simp)
    | none =>
      rw [runOn_makeAll_missing hnode] at hrun
      split at hrun
      · exact absurd hrun (by simp)
      next hdots =>
      cases hcall : v.disk.perform (.makeDirectory (step start part)) with
      | error e =>
        rw [Act.runOn_bind_error (runOn_perform_error hcall)] at hrun
        exact absurd hrun (by simp)
      | ok d₁ =>
        rw [Act.runOn_bind_ok (runOn_perform hcall)] at hrun
        have hpass := ih (v := ⟨d₁, _⟩) (hw.perform hcall) hrun
        have hnodes := node?_of_makeDirectory hw hcall
        have hmade (d : Disk) (hd : Resumes d₁ v'.disk (step start part) rest d) :
            Resumes v.disk v'.disk start (part :: rest) d := by
          refine ⟨fun l hl => hd.1 l ?_, (hd.there (by rw [hnodes, Function.update_self])).2⟩
          rw [hnodes, Function.update_of_ne, hl]
          rintro rfl
          rw [hnode] at hl
          exact absurd hl (by simp)
        -- before the call the directory is still missing, and is made again
        have hstart : Resumes v.disk v'.disk start (part :: rest) v.disk := by
          refine ⟨fun _ h => h, fun u hu => ?_⟩
          rw [runOn_makeAll_missing (hu ▸ hnode), if_neg hdots,
            Act.runOn_bind_ok (runOn_perform (hu ▸ hcall))]
          exact hpass.start.2 _ rfl
        have hcall' : Atomic (perform (.makeDirectory (step start part))) :=
          atomic_perform (by rintro _ ⟨⟩)
        exact (hcall'.passes (runOn_perform hcall) hstart (hmade d₁ hpass.start)).trans
          (hpass.mono hmade)

/-- A directory that was made in part is made by whoever makes it again. -/
theorem passes_makeDirectories {p : Path} (hw : v.disk.WellFormed)
    (hrun : (makeDirectories p).runOn v = (.ok (), v')) :
    Passes (fun d => ∃ u, (makeDirectories p).runOn (.ofDisk d) = (.ok (), u) ∧ u.disk = v'.disk)
      v v' := by
  unfold makeDirectories at hrun ⊢
  split at hrun
  · next he =>
    obtain ⟨-, rfl⟩ := Prod.mk.inj hrun
    rw [if_pos he]
    exact .refl ⟨_, rfl, rfl⟩
  · next he =>
    rw [if_neg he]
    exact (passes_makeAll hw hrun).mono fun d hd => hd.2 _ rfl

end Volume
end RaftReplica
