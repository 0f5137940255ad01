/-
RaftReplica/Table.lean

Tables: rows of a key and a value, in ascending order of the keys, each key at most once.  Registered
backends, uri parameters, votes by group and the files of a snapshot are all kept this way, and
shown in this order.

Two keys count as one when neither comes before the other.  That is coarser than being equal for keys
that carry more than their order looks at, as peers do with their roles; a row that is set again
keeps the key it had.

The proof that the rows ascend is part of a table, so two tables with the same rows are equal
(`Table.ext`), and what a table is written as does not depend on the order in which its rows were
set.  For the operations to keep it, the order has only to be transitive (`KeyOrder`).

* `Table.get?` stops at the first key that is not before the one looked for.
* `Table.insert` and `Table.erase` change one row and no other.
* `Table.ofList` sets rows in their order, so of several with one key the last one counts.
-/

namespace RaftReplica

/-- An order on keys, as far as tables need one. -/
class KeyOrder (κ : Type) [LT κ] : Prop where
  trans : ∀ {a b c : κ}, a < b → b < c → a < c

instance : KeyOrder Nat := ⟨Nat.lt_trans⟩

instance : KeyOrder String := ⟨String.lt_trans⟩

/-- Rows in ascending order of their keys. -/
structure Table (κ ν : Type) [LT κ] where
  rows : List (κ × ν)
  ascending : rows.Pairwise (fun a b => a.1 < b.1)

namespace Table

variable {κ ν : Type} [LT κ]

instance [DecidableEq κ] [DecidableEq ν] : DecidableEq (Table κ ν) := fun a b =>
  if h : a.rows = b.rows then isTrue (by cases a; cases b; simp_all)
  else isFalse (fun e => h (e ▸ rfl))

/-- A table is its rows. -/
theorem ext {s t : Table κ ν} (h : s.rows = t.rows) : s = t := by
  cases s; cases t; simp_all

/-- No rows. -/
def empty : Table κ ν := ⟨[], .nil⟩

instance : Inhabited (Table κ ν) := ⟨empty⟩

/-- The keys in ascending order. -/
def keys (t : Table κ ν) : List κ := t.rows.map (·.1)

/-- The number of rows. -/
def size (t : Table κ ν) : Nat := t.rows.length

/-- There is no row. -/
def isEmpty (t : Table κ ν) : Bool := t.rows.isEmpty

variable [DecidableLT κ]

/-! ### Rows -/

/-- The value next to a key. -/
def lookup (k : κ) : List (κ × ν) → Option ν
  | [] => none
  | (k', v) :: rest => if k' < k then lookup k rest else if k < k' then none else some v

/-- Sets the value next to a key, in a new row if there is none. -/
def place (k : κ) (v : ν) : List (κ × ν) → List (κ × ν)
  | [] => [(k, v)]
  | (k', v') :: rest =>
    if k' < k then (k', v') :: place k v rest
    else if k < k' then (k, v) :: (k', v') :: rest
    -- the key stays as it was, only its value is another
    else (k', v) :: rest

/-- Setting a row brings no key but its own. -/
theorem mem_place {k : κ} {v : ν} {rows : List (κ × ν)} {r : κ × ν} (h : r ∈ place k v rows) :
    r.1 = k ∨ ∃ s ∈ rows, r.1 = s.1 := by
  induction rows with
  | nil => simp [place] at h; simp [h]
  | cons row rest ih =>
    obtain ⟨k', v'⟩ := row
    rw [place] at h
    split at h
    · rcases List.mem_cons.1 h with rfl | h
      · exact .inr ⟨_, .head _, rfl⟩
      · rcases ih h with h | ⟨s, hs, h⟩
        · exact .inl h
        · exact .inr ⟨s, .tail _ hs, h⟩
    · split at h
      · rcases List.mem_cons.1 h with rfl | h
        · exact .inl rfl
        · exact .inr ⟨r, h, rfl⟩
      · rcases List.mem_cons.1 h with rfl | h
        · exact .inr ⟨_, .head _, rfl⟩
        · exact .inr ⟨r, .tail _ h, rfl⟩

/-- Setting a row keeps the order. -/
theorem ascending_place [KeyOrder κ] {k : κ} {v : ν} {rows : List (κ × ν)}
    (h : rows.Pairwise (fun a b => a.1 < b.1)) :
    (place k v rows).Pairwise (fun a b => a.1 < b.1) := by
  induction rows with
  | nil => simp [place]
  | cons row rest ih =>
    obtain ⟨k', v'⟩ := row
    rw [List.pairwise_cons] at h
    rw [place]
    split
    · next hlt =>
      refine List.pairwise_cons.2 ⟨fun r hr => ?_, ih h.2⟩
      -- what comes behind the first row was there before or has the new key
      rcases mem_place hr with he | ⟨s, hs, he⟩
      · exact he ▸ hlt
      · exact he ▸ h.1 s hs
    · split
      · next hlt =>
        refine List.pairwise_cons.2 ⟨fun r hr => ?_, List.pairwise_cons.2 h⟩
        rcases List.mem_cons.1 hr with rfl | hr
        · exact hlt
        · exact KeyOrder.trans hlt (h.1 r hr)
      · exact List.pairwise_cons.2 ⟨h.1, h.2⟩

/-! ### Operations -/

/-- The value next to a key. -/
def get? (t : Table κ ν) (k : κ) : Option ν := lookup k t.rows

/-- There is a row for the key. -/
def contains (t : Table κ ν) (k : κ) : Bool := (t.get? k).isSome

/-- Sets the value next to a key. -/
def insert [KeyOrder κ] (t : Table κ ν) (k : κ) (v : ν) : Table κ ν :=
  ⟨place k v t.rows, ascending_place t.ascending⟩

/-- Takes the row of a key out. -/
def erase (t : Table κ ν) (k : κ) : Table κ ν :=
  ⟨t.rows.filter fun r => decide (r.1 < k) || decide (k < r.1), t.ascending.filter _⟩

/-- The table of the given rows; of rows with one key the last one counts. -/
def ofList [KeyOrder κ] (rows : List (κ × ν)) : Table κ ν :=
  rows.foldl (fun t r => t.insert r.1 r.2) empty

end Table
end RaftReplica
