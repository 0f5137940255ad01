/-
RaftReplica/Ballot/Basic.lean

Ballots.  A node has to remember, across restarts, which term it is in and whom it voted for in that
term; a node that forgot could vote twice in one term, and two leaders could be elected.

A ballot is one value of two fields and not two values, because the two are only ever written
together: a vote means nothing without its term.  The stores of ballots are in `Ballot.Single`,
`Ballot.Book` and `Ballot.Store`; what they promise is in `Proofs.Ballot.Store`.
-/
import RaftReplica.Peer

namespace RaftReplica

/-- The term a node is in and the peer it voted for. -/
structure Ballot where
  term : Nat
  votedFor : Peer
  deriving DecidableEq, Repr

namespace Ballot

/-- A node that never voted starts in the first term. -/
def initial : Ballot := ⟨1, .nobody⟩

instance : Inhabited Ballot := ⟨initial⟩

end Ballot
end RaftReplica
