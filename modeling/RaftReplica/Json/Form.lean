/-
RaftReplica/Json/Form.lean

How values of the library take the form of JSON and are read back.

A structure is an object with one field for each of its own, in their order.  Reading is more
generous than writing: the fields may come in any order and among unknown ones, or without names as
a list of all of them in their order.  A field that is missing counts as null; one that is repeated
is refused.

The two halves of `JsonForm` come without laws.  That a value is read back from its own form is a
statement of its own, since for some types it needs a bound: a number of more than 64 bits is
written in full but not read.  It is `Json.Carries` in the proofs, shown for each type from the
fields it is made of.

* `ofFields` and `fields?` are the two directions for structures.
* `choice?` is for types that are nothing but names.
* `nat?` takes the largest number that the field has room for.
-/
import RaftReplica.Json.Reader
import RaftReplica.Table

namespace RaftReplica

/-- Values that have a JSON form. -/
class JsonForm (α : Type) where
  toJson : α → Json
  ofJson? : Json → Option α

namespace Json

/-- The bytes of a value's JSON form. -/
def encode {α : Type} [JsonForm α] (a : α) : Bytes := render (JsonForm.toJson a)

/-- The value whose JSON form the bytes hold. -/
def decode? {α : Type} [JsonForm α] (bs : Bytes) : Option α := (read? bs).bind JsonForm.ofJson?

/-! ### Structures -/

/-- The form of a structure. -/
def ofFields (fields : List (String × Json)) : Json :=
  .object (fields.map fun f => (some f.1, f.2))

/-- The values of all fields with a given name. -/
def valuesOf (name : String) (fields : List (Option String × Json)) : List Json :=
  (fields.filter (·.1 == some name)).map (·.2)

/-- The value of a field that occurs at most once; a missing one is null. -/
def field? (name : String) (fields : List (Option String × Json)) : Option Json :=
  match valuesOf name fields with
  -- an optional value may be left out, and for others null is refused later
  | [] => some .null
  | [v] => some v
  | _ => none

/-- The values of the named fields of a structure. -/
def fields? (names : List String) : Json → Option (List Json)
  | .object fields =>
    -- one key without text spoils the whole object, even if nobody asks for it
    if fields.all (·.1.isSome) then names.mapM (field? · fields) else none
  | .list items => if items.length = names.length then some items else none
  | _ => none

/-- A choice is given by its name, alone or as the key of a null. -/
def choice? : Json → Option String
  | .text s => some s
  | .object [(some s, .null)] => some s
  | _ => none

/-- A natural number of at most `largest`. -/
def nat? (largest : Nat) : Json → Option Nat
  | .nat n => if n ≤ largest then some n else none
  | _ => none

/-- A text, if the value is one. -/
def text? : Json → Option String
  | .text s => some s
  | _ => none

end Json

open Json

/-! ### Plain values -/

instance : JsonForm Nat := ⟨.nat, Json.nat? Numeral.max64⟩

instance : JsonForm UInt32 :=
  ⟨fun w => .nat w.toNat, fun j => (nat? Numeral.max32 j).map UInt32.ofNat⟩

instance : JsonForm UInt8 := ⟨fun b => .nat b.toNat, fun j => (nat? 255 j).map UInt8.ofNat⟩

instance : JsonForm Bool :=
  ⟨.bool, fun
    | .bool b => some b
    | _ => none⟩

instance : JsonForm String := ⟨.text, Json.text?⟩

instance {α : Type} [JsonForm α] : JsonForm (List α) :=
  ⟨fun as => .list (as.map JsonForm.toJson), fun
    | .list items => items.mapM JsonForm.ofJson?
    | _ => none⟩

instance {α : Type} [JsonForm α] : JsonForm (Option α) :=
  ⟨fun
    | some a => JsonForm.toJson a
    | none => .null, fun
    | .null => some none
    | j => (JsonForm.ofJson? j).map some⟩

/-- A table whose keys are texts is an object; of fields with one key the last counts. -/
instance {ν : Type} [JsonForm ν] : JsonForm (Table String ν) :=
  ⟨fun t => ofFields (t.rows.map fun r => (r.1, JsonForm.toJson r.2)), fun
    | .object fields =>
      (fields.mapM fun (f : Option String × Json) => do
        return (← f.1, ← JsonForm.ofJson? f.2)).map Table.ofList
    | _ => none⟩

end RaftReplica
