/-
RaftReplica/Text/Fields.lean

Cutting a list at a separator.  `split` gives all the fields, one more than there are separators;
`cut` stops at the first separator; `cutAt` does the same for a separator of several elements.

All of them are for lists over any type, since texts are cut as lists of characters, and none of
them looks at what it cuts beyond the separator.  `cut`, `cutAt` and `dropStart?` say by their result
whether they found anything; what they found is put together again to what was cut (`eq_of_cut`,
`eq_of_dropStart?`).

Empty fields are kept: a text that ends in a separator has an empty last field, and the empty text
has one field, which is empty.  Who wants no empty fields filters them out.
-/

namespace RaftReplica.Text

variable {α : Type} [DecidableEq α]

/-- The fields between the separators, also the empty ones; never the empty list. -/
def split (sep : α) : List α → List (List α)
  | [] => [[]]
  | c :: cs =>
    if c = sep then [] :: split sep cs
    else
      match split sep cs with
      -- never so: there is always a first field for `c` to go into
      | [] => [[c]]
      | field :: rest => (c :: field) :: rest

/-- What stands before and after the first separator. -/
def cut (sep : α) : List α → Option (List α × List α)
  | [] => none
  | c :: cs => if c = sep then some ([], cs) else (cut sep cs).map fun p => (c :: p.1, p.2)

/-- `rest` of `cs = start ++ rest`, if `cs` starts so. -/
def dropStart? : List α → List α → Option (List α)
  | [], cs => some cs
  | _ :: _, [] => none
  | s :: start, c :: cs => if s = c then dropStart? start cs else none

/-- What stands before and after the first occurrence of `mark`. -/
def cutAt (mark : List α) : List α → Option (List α × List α)
  | [] => (dropStart? mark []).map fun rest => ([], rest)
  | c :: cs =>
    match dropStart? mark (c :: cs) with
    | some rest => some ([], rest)
    | none => (cutAt mark cs).map fun p => (c :: p.1, p.2)

/-! ### What the cuts keep -/

/-- Even nothing has one field. -/
theorem split_ne_nil (sep : α) (cs : List α) : split sep cs ≠ [] := by
  cases cs with
  | nil => simp [split]
  | cons c cs =>
    rw [split]
    split
    · simp
    · split <;> simp

/-- The two sides of a cut, with the separator between them, are what was cut. -/
theorem eq_of_cut {sep : α} {cs a b : List α} (h : cut sep cs = some (a, b)) :
    cs = a ++ sep :: b := by
  induction cs generalizing a with
  | nil => simp [cut] at h
  | cons c cs ih =>
    rw [cut] at h
    split at h
    · next hc => simp_all
    · obtain ⟨⟨x, y⟩, hp, he⟩ := Option.map_eq_some_iff.1 h
      obtain ⟨rfl, rfl⟩ := Prod.mk.inj he
      simp [ih hp]

/-- What is dropped and what is left are the whole. -/
theorem eq_of_dropStart? {start cs rest : List α} (h : dropStart? start cs = some rest) :
    cs = start ++ rest := by
  induction start generalizing cs with
  | nil => simpa [dropStart?] using h
  | cons s start ih =>
    cases cs with
    | nil => simp [dropStart?] at h
    | cons c cs =>
      rw [dropStart?] at h
      split at h
      · next hs => simp [hs, ih h]
      · simp at h

end RaftReplica.Text
