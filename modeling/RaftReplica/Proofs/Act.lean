/-
RaftReplica/Proofs/Act.lean

How actions run, one equation for each way to build them, and five things that are said of an action
for all states it may be run on:

* `Keeps view x`: whatever way `x` ends, it leaves `view` of the state as it was;
* `Preserves P x`: whatever way `x` ends, `P` of the state is not lost;
* `Ensures P x Q`: neither is `P`, and `Q` holds of the result, if there is one;
* `Succeeds x`: `x` always has a result;
* an action that had a result went through all its parts (`eq_ok_of_bind`).

The first four are built up along the action, so nobody has to run it for them.  Each has a lemma for
every way of building an action that occurs here, named as the way is, and a proof about a function
is then its body read with these names:

    refine .bind (.ofExcept _) fun a => .bind .get fun s => ?_

Errors and broken assertions end an action and leave the state that was reached; nothing is
undone.  That is why `Keeps` and `Preserves` can be asked of failing runs at all, and why `attempt`,
which catches both, is no special case for them.

An action that runs on a part of the state (`zoom`) does to that part what it does alone; `Mounted`
is the case of a store with the volume that it is on.
-/
import RaftReplica.Act
import RaftReplica.Disk.Volume

namespace RaftReplica.Act

variable {σ τ α β : Type}

/-! ### Running -/

@[simp] theorem runOn_get (s : σ) : (get : Act σ σ).runOn s = (.ok s, s) := rfl

@[simp] theorem runOn_set (s t : σ) : (set t : Act σ Unit).runOn s = (.ok (), t) := rfl

@[simp] theorem runOn_modify (f : σ → σ) (s : σ) :
    (modify f : Act σ Unit).runOn s = (.ok (), f s) := rfl

@[simp] theorem runOn_throw (e : Failure) (s : σ) :
    (throw e : Act σ α).runOn s = (.error e, s) := rfl

@[simp] theorem runOn_attempt (x : Act σ α) (s : σ) :
    x.attempt.runOn s = (.ok (x.runOn s).1, (x.runOn s).2) := rfl

@[simp] theorem runOn_ignore (x : Act σ α) (s : σ) :
    x.ignore.runOn s = (.ok (), (x.runOn s).2) := rfl

@[simp] theorem runOn_zoom (get : σ → τ) (put : σ → τ → σ) (x : Act τ α) (s : σ) :
    (x.zoom get put).runOn s = ((x.runOn (get s)).1, put s (x.runOn (get s)).2) := rfl

theorem runOn_ofExcept (r : Except Error α) (s : σ) :
    (ofExcept r).runOn s = (r.mapError Failure.error, s) := by
  cases r <;> rfl

theorem runOn_require (holds : Bool) (v : Violation) (s : σ) :
    (require holds v).runOn s = (if holds then .ok () else .error (.violation v), s) := by
  cases holds <;> rfl

/-- An assertion that holds does nothing. -/
theorem runOn_require_of {holds : Bool} (h : holds = true) (v : Violation) (s : σ) :
    (require holds v).runOn s = (.ok (), s) := by
  rw [h]
  rfl

/-- An answer that is known is given. -/
theorem runOn_ofExcept_ok {r : Except Error α} {a : α} (h : r = .ok a) (s : σ) :
    (ofExcept r).runOn s = (.ok a, s) := by
  rw [h]
  rfl

/-- Reading looks at the state and leaves it. -/
theorem runOn_reading (f : σ → Except Error α) (s : σ) :
    (reading f).runOn s = ((f s).mapError Failure.error, s) := by
  simp only [reading, runOn_ofStep]
  cases f s <;> rfl

theorem runOn_bind_ok {x : Act σ α} {f : α → Act σ β} {s s' : σ} {a : α}
    (h : x.runOn s = (.ok a, s')) : (x >>= f).runOn s = (f a).runOn s' := by
  rw [runOn_bind, h]

theorem runOn_bind_error {x : Act σ α} {f : α → Act σ β} {s s' : σ} {e : Failure}
    (h : x.runOn s = (.error e, s')) : (x >>= f).runOn s = (.error e, s') := by
  rw [runOn_bind, h]

/-- An action that had a result went through its first part. -/
theorem eq_ok_of_bind {x : Act σ α} {f : α → Act σ β} {s s'' : σ} {b : β}
    (h : (x >>= f).runOn s = (.ok b, s'')) :
    ∃ a s', x.runOn s = (.ok a, s') ∧ (f a).runOn s' = (.ok b, s'') := by
  rw [runOn_bind] at h
  rcases hx : x.runOn s with ⟨r, s'⟩
  rw [hx] at h
  cases r with
  | ok a => exact ⟨a, s', rfl, h⟩
  | error e => simp at h

/-- So did a computation that changes nothing. -/
theorem exists_ok_of_bind {ε : Type} {r : Except ε α} {f : α → Except ε β} {b : β}
    (h : (r >>= f) = .ok b) : ∃ a, r = .ok a ∧ f a = .ok b := by
  cases r with
  | ok a => exact ⟨a, rfl, h⟩
  | error e => nomatch h

/-- A result is there under another name for the errors only if it was there. -/
theorem eq_ok_of_mapError {ε ε' : Type} {f : ε → ε'} {r : Except ε α} {a : α}
    (h : r.mapError f = .ok a) : r = .ok a := by
  cases r with
  | ok b => exact congrArg Except.ok (Except.ok.inj h)
  | error e => nomatch h

/-- A result that was checked is what it was checked to be. -/
theorem eq_ok_of_ofExcept {r : Except Error α} {s s' : σ} {a : α}
    (h : (ofExcept r).runOn s = (.ok a, s')) : r = .ok a ∧ s' = s := by
  rw [runOn_ofExcept] at h
  obtain ⟨hr, hs⟩ := Prod.mk.inj h
  exact ⟨eq_ok_of_mapError hr, hs.symm⟩

/-- What was read is in the state. -/
theorem eq_ok_of_reading {f : σ → Except Error α} {s s' : σ} {a : α}
    (h : (reading f).runOn s = (.ok a, s')) : f s = .ok a ∧ s' = s := by
  rw [runOn_reading] at h
  obtain ⟨hr, hs⟩ := Prod.mk.inj h
  exact ⟨eq_ok_of_mapError hr, hs.symm⟩

/-! ### What an action keeps -/

/-- Whatever way the action ends, `view` of the state is what it was. -/
def Keeps (view : σ → β) (x : Act σ α) : Prop := ∀ s, view (x.runOn s).2 = view s

namespace Keeps

variable {γ : Type} {view : σ → γ}

theorem pure (a : α) : Keeps view (pure a : Act σ α) := fun _ => rfl

theorem get : Keeps view (get : Act σ σ) := fun _ => rfl

theorem throw (e : Failure) : Keeps view (throw e : Act σ α) := fun _ => rfl

theorem fail (e : Error) : Keeps view (fail e : Act σ α) := fun _ => rfl

theorem fail_bind (e : Error) (f : α → Act σ β) : Keeps view (Act.fail e >>= f) := fun _ => rfl

theorem violate (v : Violation) : Keeps view (violate v : Act σ α) := fun _ => rfl

theorem ofExcept (r : Except Error α) : Keeps view (ofExcept r : Act σ α) := fun s => by
  rw [runOn_ofExcept]

theorem modify {f : σ → σ} (h : ∀ s, view (f s) = view s) :
    Keeps view (modify f : Act σ Unit) := h

theorem bind {x : Act σ α} {f : α → Act σ β} (hx : Keeps view x) (hf : ∀ a, Keeps view (f a)) :
    Keeps view (x >>= f) := by
  intro s
  have hs := hx s
  rw [runOn_bind]
  rcases hr : x.runOn s with ⟨r, s'⟩
  rw [hr] at hs
  cases r with
  | ok a => exact (hf a s').trans hs
  | error e => exact hs

theorem attempt {x : Act σ α} (hx : Keeps view x) : Keeps view x.attempt := hx

theorem ite {c : Prop} [Decidable c] {x y : Act σ α} (hx : Keeps view x) (hy : Keeps view y) :
    Keeps view (if c then x else y) := by
  split
  · exact hx
  · exact hy

theorem map {δ : Type} {x : Act σ α} (hx : Keeps view x) (f : γ → δ) :
    Keeps (fun s => f (view s)) x := fun s => congrArg f (hx s)

/-- What follows an action and changes nothing leaves the state that the action does. -/
theorem state_bind {x : Act σ α} {f : α → Act σ β} (hf : ∀ a, Keeps id (f a)) (s : σ) :
    ((x >>= f).runOn s).2 = (x.runOn s).2 := by
  rw [runOn_bind]
  rcases x.runOn s with ⟨r, s'⟩
  cases r with
  | ok a => exact hf a s'
  | error e => rfl

end Keeps

/-! ### What stays true -/

/-- Whatever way the action ends, `P` holds of the state if it did before. -/
def Preserves (P : σ → Prop) (x : Act σ α) : Prop := ∀ s, P s → P (x.runOn s).2

namespace Preserves

variable {P : σ → Prop}

theorem pure (a : α) : Preserves P (pure a : Act σ α) := fun _ h => h

theorem get : Preserves P (get : Act σ σ) := fun _ h => h

theorem fail (e : Error) : Preserves P (fail e : Act σ α) := fun _ h => h

theorem fail_bind (e : Error) (f : α → Act σ β) : Preserves P (Act.fail e >>= f) := fun _ h => h

theorem ofExcept (r : Except Error α) : Preserves P (ofExcept r : Act σ α) := fun s h => by
  rwa [runOn_ofExcept]

theorem ite {c : Prop} [Decidable c] {x y : Act σ α} (hx : Preserves P x) (hy : Preserves P y) :
    Preserves P (if c then x else y) := by
  split
  · exact hx
  · exact hy

theorem bind {x : Act σ α} {f : α → Act σ β} (hx : Preserves P x) (hf : ∀ a, Preserves P (f a)) :
    Preserves P (x >>= f) := by
  intro s hs
  have hs' := hx s hs
  rw [runOn_bind]
  rcases hr : x.runOn s with ⟨r, s'⟩
  rw [hr] at hs'
  cases r with
  | ok a => exact hf a s' hs'
  | error e => exact hs'

end Preserves

theorem Keeps.preserves {γ : Type} {view : σ → γ} {x : Act σ α} (hx : Keeps view x) (c : γ) :
    Preserves (fun s => view s = c) x := fun s hs => (hx s).trans hs

theorem Keeps.of_preserves {γ : Type} {view : σ → γ} {x : Act σ α}
    (h : ∀ c, Preserves (fun s => view s = c) x) : Keeps view x := fun s => h (view s) s rfl

/-- If `P` holds of the state, it does afterwards too, whatever way the action ends, and `Q` holds
of its result. -/
def Ensures (P : σ → Prop) (x : Act σ α) (Q : α → Prop) : Prop :=
  ∀ s, P s → P (x.runOn s).2 ∧ ∀ a, (x.runOn s).1 = .ok a → Q a

namespace Ensures

variable {P : σ → Prop} {Q Q' : α → Prop} {R : β → Prop}

theorem of_preserves {x : Act σ α} (h : Preserves P x) : Ensures P x fun _ => True :=
  fun s hs => ⟨h s hs, fun _ _ => trivial⟩

theorem preserves {x : Act σ α} (h : Ensures P x Q) : Preserves P x := fun s hs => (h s hs).1

theorem mono {x : Act σ α} (h : Ensures P x Q) (hQ : ∀ a, Q a → Q' a) : Ensures P x Q' :=
  fun s hs => ⟨(h s hs).1, fun a ha => hQ a ((h s hs).2 a ha)⟩

theorem pure {a : α} (h : Q a) : Ensures P (pure a : Act σ α) Q :=
  fun _ hs => ⟨hs, fun _ ha => Except.ok.inj ha ▸ h⟩

theorem get : Ensures P (get : Act σ σ) P := fun _ hs => ⟨hs, fun _ ha => Except.ok.inj ha ▸ hs⟩

theorem throw (e : Failure) : Ensures P (throw e : Act σ α) Q := fun _ hs => ⟨hs, nofun⟩

theorem fail (e : Error) : Ensures P (fail e : Act σ α) Q := fun _ hs => ⟨hs, nofun⟩

theorem fail_bind (e : Error) (f : α → Act σ β) : Ensures P (Act.fail e >>= f) R :=
  fun _ hs => ⟨hs, nofun⟩

theorem violate (v : Violation) : Ensures P (violate v : Act σ α) Q := fun _ hs => ⟨hs, nofun⟩

theorem require (holds : Bool) (v : Violation) :
    Ensures P (require holds v : Act σ Unit) fun _ => holds = true := by
  intro s hs
  rw [runOn_require]
  refine ⟨hs, fun _ ha => ?_⟩
  cases holds with
  | true => rfl
  | false => nomatch ha

theorem ofExcept {r : Except Error α} (h : ∀ a, r = .ok a → Q a) :
    Ensures P (ofExcept r : Act σ α) Q := by
  intro s hs
  rw [runOn_ofExcept]
  exact ⟨hs, fun a ha => h a (eq_ok_of_mapError ha)⟩

theorem modify {f : σ → σ} (h : ∀ s, P s → P (f s)) :
    Ensures P (modify f : Act σ Unit) fun _ => True := fun s hs => ⟨h s hs, fun _ _ => trivial⟩

theorem bind {x : Act σ α} {f : α → Act σ β} (hx : Ensures P x Q)
    (hf : ∀ a, Q a → Ensures P (f a) R) : Ensures P (x >>= f) R := by
  intro s hs
  obtain ⟨hs', hQ⟩ := hx s hs
  rw [runOn_bind]
  rcases hr : x.runOn s with ⟨r, s'⟩
  rw [hr] at hs' hQ
  cases r with
  | ok a => exact hf a (hQ a rfl) s' hs'
  | error e => exact ⟨hs', nofun⟩

theorem attempt {x : Act σ α} (hx : Ensures P x Q) :
    Ensures P x.attempt fun r => ∀ a, r = .ok a → Q a :=
  fun s hs => ⟨(hx s hs).1, fun _ hr => Except.ok.inj hr ▸ (hx s hs).2⟩

theorem ignore {x : Act σ α} (hx : Ensures P x Q) : Ensures P x.ignore fun _ => True :=
  fun s hs => ⟨(hx s hs).1, fun _ _ => trivial⟩

end Ensures

/-! ### Actions that cannot fail -/

/-- The action always has a result. -/
def Succeeds (x : Act σ α) : Prop := ∀ s, ∃ a s', x.runOn s = (.ok a, s')

namespace Succeeds

theorem pure (a : α) : Succeeds (pure a : Act σ α) := fun s => ⟨a, s, rfl⟩

theorem get : Succeeds (get : Act σ σ) := fun s => ⟨s, s, rfl⟩

theorem modify (f : σ → σ) : Succeeds (modify f : Act σ Unit) := fun s => ⟨(), f s, rfl⟩

theorem attempt (x : Act σ α) : Succeeds x.attempt := fun s => ⟨_, _, runOn_attempt x s⟩

theorem ignore (x : Act σ α) : Succeeds x.ignore := fun s => ⟨_, _, runOn_ignore x s⟩

theorem bind {x : Act σ α} {f : α → Act σ β} (hx : Succeeds x) (hf : ∀ a, Succeeds (f a)) :
    Succeeds (x >>= f) := by
  intro s
  obtain ⟨a, s', h⟩ := hx s
  obtain ⟨b, s'', h'⟩ := hf a s'
  exact ⟨b, s'', (runOn_bind_ok h).trans h'⟩

theorem zoom {get : σ → τ} {put : σ → τ → σ} {x : Act τ α} (hx : Succeeds x) :
    Succeeds (x.zoom get put) := by
  intro s
  obtain ⟨a, t, h⟩ := hx (get s)
  exact ⟨a, put s t, by rw [runOn_zoom, h]⟩

/-- An action that cannot fail and keeps `view` ends with a result and the same view. -/
theorem keeping {γ : Type} {view : σ → γ} {x : Act σ α} (hx : Succeeds x) (hk : Keeps view x)
    (s : σ) : ∃ a s', x.runOn s = (.ok a, s') ∧ view s' = view s := by
  obtain ⟨a, s', h⟩ := hx s
  have hs := hk s
  rw [h] at hs
  exact ⟨a, s', h, hs⟩

end Succeeds
end RaftReplica.Act

namespace RaftReplica.Mounted

variable {σ α : Type}

@[simp] theorem runOn_stored (m : Mounted σ) : stored.runOn m = (.ok m.store, m) := rfl

@[simp] theorem runOn_update (f : σ → σ) (m : Mounted σ) :
    (update f).runOn m = (.ok (), ⟨f m.store, m.volume⟩) := rfl

@[simp] theorem runOn_onVolume (x : Act Volume α) (m : Mounted σ) :
    (onVolume x).runOn m = ((x.runOn m.volume).1, ⟨m.store, (x.runOn m.volume).2⟩) := rfl

theorem runOn_onVolume_ok {x : Act Volume α} {m : Mounted σ} {a : α} {v : Volume}
    (h : x.runOn m.volume = (.ok a, v)) : (onVolume x).runOn m = (.ok a, ⟨m.store, v⟩) := by
  rw [runOn_onVolume, h]

/-- An action on the volume had its result there, and the store is the same. -/
theorem eq_ok_of_onVolume {x : Act Volume α} {m m' : Mounted σ} {a : α}
    (h : (onVolume x).runOn m = (.ok a, m')) :
    ∃ v, x.runOn m.volume = (.ok a, v) ∧ m' = ⟨m.store, v⟩ := by
  rw [runOn_onVolume] at h
  rcases hx : x.runOn m.volume with ⟨r, v⟩
  rw [hx] at h
  obtain ⟨rfl, rfl⟩ := Prod.mk.inj h
  exact ⟨v, rfl, rfl⟩

end RaftReplica.Mounted
