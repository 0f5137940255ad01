/-
RaftReplica/Proofs/Json/RoundTrip.lean

JSON that was written is read back (`readValue_render`, `parse_render`).  What can be written is a
predicate (`Writable`): numbers of other kinds are not, and neither are texts that are no text, nor
names of fields that are none.

The reader is followed on what is written for a value and anything behind it; twice the number of
bytes is enough fuel, since a value takes one byte at least and each of its parts is told apart by
another one.

The three readers, of values, items and fields, call each other, and so do the three proofs: a
mutual recursion that goes down with the value.  At each value,

* the first byte tells the kind, and it is neither a space nor a closing bracket (`exists_head`), so
  the reader takes the branch of that kind, and an item is not taken for the end of a list;
* the byte behind a part is a comma or a closing bracket, which ends a number (`Ends`) and is no
  space;
* one unit of fuel goes to the value and one to each part, which the bytes pay for
  (`length_renderItems_pos`, `length_renderFields_pos`).
-/
import RaftReplica.Proofs.Json.Reader

namespace RaftReplica.Json

open Numeral Bytes

variable {b : UInt8} {bs rest : Bytes}

/-- The value can be written: it has no number or string that is only read, and all its fields have
names. -/
inductive Writable : Json → Prop
  | null : Writable .null
  | bool (b : Bool) : Writable (.bool b)
  | nat (n : Nat) : Writable (.nat n)
  | text (s : String) : Writable (.text s)
  | list {items : List Json} (h : ∀ v ∈ items, Writable v) : Writable (.list items)
  | object {fields : List (Option String × Json)}
      (names : ∀ f ∈ fields, f.1.isSome) (values : ∀ f ∈ fields, Writable f.2) :
    Writable (.object fields)

/-! ### Where a value starts -/

/-- Nothing is skipped in front of a byte that is no space. -/
theorem skipSpaces_cons (h : isSpace b = false) (rest : Bytes) :
    skipSpaces (b :: rest) = b :: rest := by
  rw [skipSpaces, List.dropWhile_cons, h]
  rfl

/-- A digit is no space. -/
theorem isSpace_of_isDigit (h : isDigit b = true) : isSpace b = false := by
  rw [← Bool.not_eq_true]
  intro hs
  simp only [isSpace, Bool.or_eq_true, beq_iff_eq] at hs
  rcases hs with ((rfl | rfl) | rfl) | rfl <;> exact absurd h (by decide)

/-- What is written starts with a mark of its own: neither a blank nor a closing bracket. -/
theorem exists_head (j : Json) : ∃ c cs, render j = c :: cs ∧ isSpace c = false ∧
    c ≠ ascii ']' ∧ c ≠ ascii (Char.ofNat 0x7D) := by
  -- one case for each kind of value, each with a first byte of its own
  cases j with
  | nat n =>
    obtain ⟨c, cs, hcs, hc⟩ := exists_digit n
    refine ⟨c, cs, by rw [render, hcs], isSpace_of_isDigit hc, ?_, ?_⟩ <;> rintro rfl <;>
      exact absurd hc (by decide)
  | bool b => cases b <;> exact ⟨_, _, by rw [render]; rfl, by decide⟩
  | text s => exact ⟨_, _, by rw [render, renderText, List.cons_append], by decide⟩
  | list items => exact ⟨_, _, by rw [render], by decide⟩
  | object fields => exact ⟨_, _, by rw [render], by decide⟩
  | null => exact ⟨_, _, by rw [render]; rfl, by decide⟩
  | otherNumber => exact ⟨_, _, by rw [render]; rfl, by decide⟩
  | otherString => exact ⟨_, _, by rw [render]; rfl, by decide⟩

/-! ### Lists and objects -/

/-- Items are told apart by commas. -/
theorem renderItems_cons (v w : Json) (items : List Json) :
    renderItems (v :: w :: items) = render v ++ ascii ',' :: renderItems (w :: items) := by
  rw [renderItems]
  simp

/-- Fields are told apart by commas, and a name from its value by a colon. -/
theorem renderFields_cons (k : Option String) (v : Json) (f : Option String × Json)
    (fields : List (Option String × Json)) : renderFields ((k, v) :: f :: fields) =
      renderText (k.getD "") ++ ascii ':' :: render v ++ ascii ',' :: renderFields (f :: fields) := by
  rw [renderFields]
  simp

/-- Items take one byte at least, the closing bracket. -/
theorem length_renderItems_pos (items : List Json) : 0 < (renderItems items).length := by
  rcases items with - | ⟨v, - | ⟨w, items⟩⟩
  · exact Nat.one_pos
  · rw [renderItems, List.length_append]
    exact Nat.succ_pos _
  · rw [renderItems_cons, List.length_append]
    exact Nat.succ_pos _

/-- Fields take one byte at least, the closing bracket. -/
theorem length_renderFields_pos (fields : List (Option String × Json)) :
    0 < (renderFields fields).length := by
  rcases fields with - | ⟨⟨k, v⟩, - | ⟨f, fields⟩⟩
  · exact Nat.one_pos
  · rw [renderFields, List.length_append]
    exact Nat.succ_pos _
  · rw [renderFields_cons, List.length_append]
    exact Nat.succ_pos _

/-- The first field of an object is read when its value is; the mark behind it tells whether there
are more. -/
theorem readFields_first {fuel : Nat} {s : String} {v : Json}
    (hv : readValue fuel (render v ++ b :: rest) = some (v, b :: rest)) (hb : isSpace b = false) :
    readFields (fuel + 1) (renderText s ++ ascii ':' :: (render v ++ b :: rest)) =
      if b = ascii (Char.ofNat 0x7D) then some ([(some s, v)], rest)
      else if b = ascii ',' then (readFields fuel rest).map fun r => ((some s, v) :: r.1, r.2)
      else none := by
  -- the name, the colon, the value, and then the byte behind it, which decides
  obtain ⟨ps, hpieces, htext⟩ := exists_pieces_text s (ascii ':' :: (render v ++ b :: rest))
  have hbytes : renderText s ++ ascii ':' :: (render v ++ b :: rest) = ascii '"' ::
      ((ofText s).flatMap escapeByte ++ ascii '"' :: ascii ':' :: (render v ++ b :: rest)) := by
    rw [renderText]
    simp only [List.cons_append, List.append_assoc, List.nil_append]
  rw [hbytes, readFields, skipSpaces_cons (by decide)]
  dsimp only
  rw [if_pos rfl, hpieces]
  simp only [bind, Option.bind]
  rw [skipSpaces_cons (by decide)]
  dsimp only
  rw [if_pos rfl, hv]
  dsimp only
  rw [skipSpaces_cons hb, htext]
  dsimp only
  cases readFields fuel rest <;> rfl

mutual

/-- **A value** that was written is read back. -/
theorem readValue_render {j : Json} {fuel : Nat} (rest : Bytes) (hj : Writable j)
    (hrest : Ends rest) (hfuel : 2 * (render j).length ≤ fuel + 1) :
    readValue fuel (render j ++ rest) = some (j, rest) := by
  obtain ⟨c, cs, hcs, hspace, -, -⟩ := exists_head j
  obtain ⟨fuel, rfl⟩ : ∃ n, fuel = n + 1 :=
    Nat.exists_eq_add_one.2 (by rw [hcs, List.length_cons] at hfuel; omega)
  have hskip : skipSpaces (render j ++ rest) = render j ++ rest := by
    rw [hcs]
    exact skipSpaces_cons hspace _
  rw [readValue, hskip]
  -- one case for each kind that can be written; the parts of lists and objects are read by
  -- recursion
  cases hj with
  | null => rw [render]; rfl
  | bool b => cases b <;> (rw [render]; rfl)
  | nat n =>
    obtain ⟨c, cs, hc, hdigit⟩ := exists_digit n
    -- a digit is none of the six bytes that other kinds start with
    have hother : ∀ x : UInt8, isDigit x = false → c ≠ x := by
      rintro x hx rfl
      rw [hdigit] at hx
      exact Bool.noConfusion hx
    have hnumber := number_chars n hrest
    rw [render]
    rw [hc, List.cons_append] at hnumber ⊢
    dsimp only
    rw [if_neg (hother _ (by decide)), if_neg (hother _ (by decide)), if_neg (hother _ (by decide)),
      if_neg (hother _ (by decide)), if_neg (hother _ (by decide)), if_neg (hother _ (by decide))]
    exact hnumber
  | text s =>
    obtain ⟨ps, hpieces, htext⟩ := exists_pieces_text s rest
    rw [render, renderText, List.cons_append, List.cons_append, List.append_assoc,
      List.singleton_append]
    dsimp only
    rw [if_pos rfl, hpieces]
    simp only [Option.map_some, htext]
  | @list items h =>
    rw [render, List.cons_append]
    dsimp only
    rw [if_neg (by decide), if_pos rfl]
    rw [render, List.length_cons] at hfuel
    cases items with
    | nil => rw [renderItems]; rfl
    | cons v items =>
      have hread := readItems_render rest h (List.cons_ne_nil v items)
        (show 2 * (renderItems (v :: items)).length ≤ fuel by omega)
      -- the list is not empty, so a value comes first and not the closing bracket
      obtain ⟨c, cs, hv, hspace, hclose, -⟩ := exists_head v
      obtain ⟨cs, hcs⟩ : ∃ cs, renderItems (v :: items) ++ rest = c :: cs := by
        cases items with
        | nil => rw [renderItems, hv]; exact ⟨_, rfl⟩
        | cons w items => rw [renderItems_cons, hv]; exact ⟨_, rfl⟩
      rw [hcs] at hread ⊢
      rw [skipSpaces_cons hspace]
      dsimp only
      rw [if_neg hclose, hread]
      rfl
  | @object fields names values =>
    rw [render, List.cons_append]
    dsimp only
    rw [if_neg (by decide), if_neg (by decide), if_pos rfl]
    rw [render, List.length_cons] at hfuel
    cases fields with
    | nil => rw [renderFields]; rfl
    | cons f fields =>
      have hread := readFields_render rest names values (List.cons_ne_nil f fields)
        (show 2 * (renderFields (f :: fields)).length ≤ fuel by omega)
      obtain ⟨cs, hcs⟩ : ∃ cs, renderFields (f :: fields) ++ rest = ascii '"' :: cs := by
        cases fields <;> exact ⟨_, rfl⟩
      rw [hcs] at hread ⊢
      rw [skipSpaces_cons (by decide)]
      dsimp only
      rw [if_neg (by decide), hread]
      rfl

/-- The items of a list are read up to its closing bracket. -/
theorem readItems_render {items : List Json} {fuel : Nat} (rest : Bytes)
    (h : ∀ v ∈ items, Writable v) (hne : items ≠ [])
    (hfuel : 2 * (renderItems items).length ≤ fuel) :
    readItems fuel (renderItems items ++ rest) = some (items, rest) := by
  have hpos := length_renderItems_pos items
  obtain ⟨fuel, rfl⟩ : ∃ n, fuel = n + 1 := Nat.exists_eq_add_one.2 (by omega)
  -- the last item is in front of the bracket, every other one in front of a comma
  match items, hne with
  | [v], _ =>
    rw [renderItems, List.length_append, List.length_singleton] at hfuel
    rw [renderItems, List.append_assoc, List.singleton_append, readItems,
      readValue_render _ (h v List.mem_cons_self) (ends_cons (b := ascii ']') (by decide)) (by omega)]
    simp only [bind, Option.bind]
    rw [skipSpaces_cons (by decide)]
    dsimp only
    rw [if_pos rfl]
  | v :: w :: items, _ =>
    have hpos := length_renderItems_pos (w :: items)
    rw [renderItems_cons, List.length_append, List.length_cons] at hfuel
    have hread := readItems_render rest (fun x hx => h x (List.mem_cons_of_mem _ hx))
      (List.cons_ne_nil w items) (show 2 * (renderItems (w :: items)).length ≤ fuel by omega)
    rw [renderItems_cons, List.append_assoc, List.cons_append, readItems,
      readValue_render _ (h v List.mem_cons_self) (ends_cons (b := ascii ',') (by decide)) (by omega)]
    simp only [bind, Option.bind]
    rw [skipSpaces_cons (by decide)]
    dsimp only
    rw [if_neg (by decide), if_pos rfl, hread]
    rfl

/-- The fields of an object are read up to its closing bracket. -/
theorem readFields_render {fields : List (Option String × Json)} {fuel : Nat} (rest : Bytes)
    (names : ∀ f ∈ fields, f.1.isSome) (values : ∀ f ∈ fields, Writable f.2) (hne : fields ≠ [])
    (hfuel : 2 * (renderFields fields).length ≤ fuel) :
    readFields fuel (renderFields fields ++ rest) = some (fields, rest) := by
  have hpos := length_renderFields_pos fields
  obtain ⟨fuel, rfl⟩ : ∃ n, fuel = n + 1 := Nat.exists_eq_add_one.2 (by omega)
  -- as for items; a field is a name and a value
  match fields, hne with
  | [(k, v)], _ =>
    obtain ⟨s, hs⟩ := Option.isSome_iff_exists.1 (names (k, v) List.mem_cons_self)
    obtain rfl : k = some s := hs
    rw [renderFields, List.length_append, List.length_append, List.length_cons,
      List.length_singleton] at hfuel
    have hv := readValue_render (ascii (Char.ofNat 0x7D) :: rest)
      (values (some s, v) List.mem_cons_self) (ends_cons (by decide))
      (show 2 * (render v).length ≤ fuel + 1 by omega)
    rw [renderFields, Option.getD_some, List.append_assoc, List.append_assoc, List.cons_append,
      List.singleton_append, readFields_first hv (by decide), if_pos rfl]
  | (k, v) :: f :: fields, _ =>
    obtain ⟨s, hs⟩ := Option.isSome_iff_exists.1 (names (k, v) List.mem_cons_self)
    obtain rfl : k = some s := hs
    have hpos := length_renderFields_pos (f :: fields)
    rw [renderFields_cons, List.length_append, List.length_append, List.length_cons,
      List.length_cons] at hfuel
    have hv := readValue_render (ascii ',' :: (renderFields (f :: fields) ++ rest))
      (values (some s, v) List.mem_cons_self) (ends_cons (by decide))
      (show 2 * (render v).length ≤ fuel + 1 by omega)
    have hread := readFields_render rest (fun x hx => names x (List.mem_cons_of_mem _ hx))
      (fun x hx => values x (List.mem_cons_of_mem _ hx)) (List.cons_ne_nil f fields)
      (show 2 * (renderFields (f :: fields)).length ≤ fuel by omega)
    rw [renderFields_cons, Option.getD_some, List.append_assoc, List.append_assoc, List.cons_append,
      List.cons_append, readFields_first hv (by decide), if_neg (by decide), if_pos rfl, hread]
    rfl

end

/-- **What is written** for a value is read as that value. -/
theorem read?_render {j : Json} (hj : Writable j) : read? (render j) = some j := by
  have hread : readValue (2 * (render j).length + 2) (render j ++ []) = some (j, []) :=
    readValue_render [] hj (fun b hb => absurd hb (by simp)) (by omega)
  rw [List.append_nil] at hread
  rw [read?, hread]
  rfl

end RaftReplica.Json
