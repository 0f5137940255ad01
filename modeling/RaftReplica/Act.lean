/-
RaftReplica/Act.lean

Actions: computations that change a state and may end early.  When an action ends early, with an
error or with a broken assertion, whatever it had changed by then stays changed, as it does on a
real disk.

`Act σ α` puts the failure above the state and not below it: `ExceptT Failure (StateM σ) α` is `σ →
Except Failure α × σ`, so every run has a state to go on from, also one that failed.  The other order
would throw the half-done work away and with it all that can be said about interrupted calls.

* `runOn` opens an action, `ofStep` closes one; proofs step through a `do` block with `runOn_bind`
  and never unfold the transformers.
* `fail`, `violate` and `require` end an action early.
* `attempt` and `ignore` take a failure for a result and go on.
* `zoom` makes an action on one part of a state an action on the whole; the rest is as it was.
-/
import RaftReplica.Error

namespace RaftReplica

/-- A computation on a state `σ` with a result in `α`, or a failure. -/
abbrev Act (σ α : Type) : Type := ExceptT Failure (StateM σ) α

namespace Act

variable {σ τ α : Type}

/-- The outcome of an action and the state it leaves. -/
def runOn (x : Act σ α) (s : σ) : Except Failure α × σ := x s

/-- The action with a given outcome and a given effect. -/
def ofStep (f : σ → Except Failure α × σ) : Act σ α := f

/-- Ends with an error. -/
def fail (e : Error) : Act σ α := throw (.error e)

/-- Ends with a broken assertion. -/
def violate (v : Violation) : Act σ α := throw (.violation v)

/-- Goes on only if the assertion holds. -/
def require (holds : Bool) (v : Violation) : Act σ Unit := if holds then pure () else violate v

/-- The result of a computation that changes nothing. -/
def ofExcept : Except Error α → Act σ α
  | .ok a => pure a
  | .error e => fail e

/-- Looks at the state without changing it. -/
def reading (f : σ → Except Error α) : Act σ α := ofStep fun s =>
  match f s with
  | .ok a => (.ok a, s)
  | .error e => (.error (.error e), s)

/-- An action that cannot fail: its result tells how `x` ended. -/
def attempt (x : Act σ α) : Act σ (Except Failure α) := ofStep fun s =>
  let (r, s') := x.runOn s
  (.ok r, s')

/-- Does `x` and does not care how it ended. -/
def ignore (x : Act σ α) : Act σ Unit := do
  -- what `x` changed before it failed is kept
  let _ ← x.attempt

/-- An action on a part, as an action on the whole. -/
def zoom (get : σ → τ) (set : σ → τ → σ) (x : Act τ α) : Act σ α := ofStep fun s =>
  let (r, t) := x.runOn (get s)
  (r, set s t)

/-- The state an action leaves is the second half of its run. -/
@[simp] theorem runOn_ofStep (f : σ → Except Failure α × σ) (s : σ) :
    (ofStep f).runOn s = f s := rfl

/-- A pure action changes nothing. -/
@[simp] theorem runOn_pure (a : α) (s : σ) : (pure a : Act σ α).runOn s = (.ok a, s) := rfl

@[simp] theorem runOn_fail (e : Error) (s : σ) :
    (fail e : Act σ α).runOn s = (.error (.error e), s) := rfl

@[simp] theorem runOn_violate (v : Violation) (s : σ) :
    (violate v : Act σ α).runOn s = (.error (.violation v), s) := rfl

/-- Two actions in a row: the second one starts where the first one stopped, and is not reached if
that one failed. -/
theorem runOn_bind {β : Type} (x : Act σ α) (f : α → Act σ β) (s : σ) :
    (x >>= f).runOn s =
      match x.runOn s with
      | (.ok a, s') => (f a).runOn s'
      | (.error e, s') => (.error e, s') := by
  simp only [runOn, bind, ExceptT.bind, ExceptT.mk, StateT.bind]
  -- both sides look only at how the first action ended
  rcases x s with ⟨r, s'⟩
  cases r <;> rfl

end Act
end RaftReplica
