/-
RaftReplica/LogId.lean

Positions in the replicated log.  A position is an index together with the term of the leader that
filled it; positions are ordered by index first.

The order of the fields is not the order of comparison: the term is written first and compared last,
so the order is given here and not derived.  Two positions with one index and different terms are
different entries at one place, and the one of the greater term is the later one.

`LogId.zero` lies before every entry; logs start at index 1, so it stands for no entry at all.
-/
import RaftReplica.Text.Numeral

namespace RaftReplica

/-- A position in the log: the index of an entry and the term it was written in. -/
structure LogId where
  term : Nat
  index : Nat
  deriving DecidableEq, Repr, Inhabited

namespace LogId

/-- The position before every entry. -/
def zero : LogId := ⟨0, 0⟩

/-- Index first, then term. -/
instance : LT LogId := ⟨fun a b => a.index < b.index ∨ a.index = b.index ∧ a.term < b.term⟩

instance (a b : LogId) : Decidable (a < b) :=
  inferInstanceAs (Decidable (a.index < b.index ∨ a.index = b.index ∧ a.term < b.term))

/-- What the order says, for proofs that go on with the two numbers. -/
theorem lt_iff {a b : LogId} :
    a < b ↔ a.index < b.index ∨ a.index = b.index ∧ a.term < b.term := Iff.rfl

theorem lt_irrefl (a : LogId) : ¬ a < a := by
  simp only [lt_iff]
  omega

/-- Nothing lies before the position that stands for no entry. -/
theorem not_lt_zero (a : LogId) : ¬ a < zero := by
  simp only [lt_iff, zero]
  omega

/-- How a position is shown in messages. -/
def text (id : LogId) : String :=
  "(index=" ++ Numeral.text id.index ++ ",term=" ++ Numeral.text id.term ++ ")"

end LogId
end RaftReplica
