/-
RaftReplica/Directory.lean

The nodes of a process.  A process may host nodes of many groups; requests find their node by group
and peer.  Beside the table of all nodes there is one of the nodes of each group, in the order in
which they were registered.

The second table could be computed from the first one but for that order, so both are kept and every
change has to change both.  `Directory.add` and `Directory.remove` are the only changes, and each
answers whether it did anything.  A group whose last node goes is taken out of the table and not left
there empty.

A node is told apart from another with the same id by its mark: a node that was replaced cannot take
its successor out of the directory by leaving late.

That the two tables never disagree, over any calls in any order, is shown in `Proofs.Directory`.
-/
import RaftReplica.Peer
import RaftReplica.Table

namespace RaftReplica

instance : KeyOrder NodeId := by
  refine ⟨fun {a b c} h₁ h₂ => ?_⟩
  rcases h₁ with h₁ | ⟨g₁, k₁⟩ <;> rcases h₂ with h₂ | ⟨g₂, k₂⟩
  · exact .inl (String.lt_trans h₁ h₂)
  · exact .inl (g₂ ▸ h₁)
  · exact .inl (g₁ ▸ h₂)
  · exact .inr ⟨g₁.trans g₂, Nat.lt_trans k₁ k₂⟩

/-- A node that can be registered; `mark` tells it apart from others with the same id. -/
structure HostedNode where
  mark : Nat
  id : NodeId
  deriving DecidableEq, Repr

/-- The registered nodes, by their ids and by their groups. -/
structure Directory where
  nodes : Table NodeId HostedNode := .empty
  groups : Table String (List HostedNode) := .empty
  deriving DecidableEq

namespace Directory

/-- Registers a node, unless its id is taken. -/
def add (n : HostedNode) (d : Directory) : Bool × Directory :=
  if d.nodes.contains n.id then (false, d)
  else
    (true,
      { nodes := d.nodes.insert n.id n
        -- at the end, so a group lists its nodes in the order they came
        groups := d.groups.insert n.id.group ((d.groups.get? n.id.group).getD [] ++ [n]) })

/-- A group without its node `n`; a group without nodes is not kept. -/
def withoutNode (n : HostedNode) (groups : Table String (List HostedNode)) :
    Table String (List HostedNode) :=
  match groups.get? n.id.group with
  | none => groups
  | some members =>
    let rest := members.filter (·.mark ≠ n.mark)
    if rest.isEmpty then groups.erase n.id.group else groups.insert n.id.group rest

/-- Takes out a node, if it is this very one that is registered. -/
def remove (n : HostedNode) (d : Directory) : Bool × Directory :=
  match d.nodes.get? n.id with
  | none => (false, d)
  | some found =>
    -- another node has this id by now
    if found.mark ≠ n.mark then (false, d)
    else (true, { nodes := d.nodes.erase n.id, groups := withoutNode n d.groups })

/-- The node with a given id. -/
def get? (d : Directory) (id : NodeId) : Option HostedNode := d.nodes.get? id

/-- The nodes of a group, in the order in which they were registered. -/
def inGroup (d : Directory) (group : String) : List HostedNode :=
  (d.groups.get? group).getD []

/-- All nodes, in the order of their ids. -/
def all (d : Directory) : List HostedNode := d.nodes.rows.map (·.2)

/-- How many nodes are registered. -/
def size (d : Directory) : Nat := d.nodes.size

/-- No node is registered. -/
def isEmpty (d : Directory) : Bool := d.nodes.isEmpty

/-- How the nodes are shown in descriptions. -/
def describe (d : Directory) : String :=
  let opening := "NodeRegistry \x7b nodes: ["
  opening ++ Text.joined ", " (d.nodes.keys.map NodeId.describe) ++ "] \x7d"

end Directory
end RaftReplica
