/-
RaftReplica/Json/Basic.lean

JSON values and their compact form.  Stored records and messages are JSON, so a value keeps what
those need: objects keep the order of their fields, and a number is a natural number.

What the library itself never writes is still told apart when it is read: a number with a sign, a
fraction or an exponent, and a string that is well formed but holds no text (a lone surrogate, or
bytes that encode nothing).  Such a value may stand in a field that nobody looks at, and then the
rest of the record is good; where a number or a text is wanted it is refused.

* `Json.escapeByte` works on bytes and not on characters, since bytes above 0x7F go into the output
  as they are.
* `Json.render` writes a value without any blanks, with one function for the rest of a list and one
  for the rest of an object, so that the recursion is on the data.

`Json.Reader` reads values, `Json.Form` ties them to types.
-/
import RaftReplica.Bytes.Basic
import RaftReplica.Text.Numeral

namespace RaftReplica

/-- A JSON value; a key without text is `none`. -/
inductive Json
  | null
  | bool (b : Bool)
  | nat (n : Nat)
  | otherNumber
  | text (s : String)
  | otherString
  | list (items : List Json)
  | object (fields : List (Option String × Json))
  deriving Repr, Inhabited

namespace Json

/-! ### Writing -/

/-- The byte of an ASCII character. -/
def ascii (c : Char) : UInt8 := UInt8.ofNat c.toNat

/-- The bytes of ASCII characters. -/
def asciis (cs : List Char) : Bytes := cs.map ascii

/-- One byte of a string; controls, quotes and backslashes are escaped. -/
def escapeByte (b : UInt8) : Bytes :=
  if b = ascii '"' then asciis ['\\', '"']
  else if b = ascii '\\' then asciis ['\\', '\\']
  else if b = 0x08 then asciis ['\\', 'b']
  else if b = 0x0C then asciis ['\\', 'f']
  else if b = 0x0A then asciis ['\\', 'n']
  else if b = 0x0D then asciis ['\\', 'r']
  else if b = 0x09 then asciis ['\\', 't']
  -- the controls that have no letter of their own
  else if b < 0x20 then
    asciis (['\\', 'u'] ++ Numeral.padTo 4 ((Numeral.digits 16 b.toNat).map Numeral.digitChar))
  else [b]

/-- A text between quotes. -/
def renderText (s : String) : Bytes :=
  ascii '"' :: (Bytes.ofText s).flatMap escapeByte ++ [ascii '"']

mutual

/-- A value without any blanks.  A number or string of the kinds that are only read is written
as null. -/
def render : Json → Bytes
  | null => asciis ['n', 'u', 'l', 'l']
  | bool true => asciis ['t', 'r', 'u', 'e']
  | bool false => asciis ['f', 'a', 'l', 's', 'e']
  | nat n => asciis (Numeral.chars n)
  | otherNumber => asciis ['n', 'u', 'l', 'l']
  | text s => renderText s
  | otherString => asciis ['n', 'u', 'l', 'l']
  | list items => ascii '[' :: renderItems items
  | object fields => ascii (Char.ofNat 0x7B) :: renderFields fields

/-- The rest of a list, with the bracket that closes it. -/
def renderItems : List Json → Bytes
  | [] => [ascii ']']
  | [v] => render v ++ [ascii ']']
  | v :: rest => render v ++ ascii ',' :: renderItems rest

/-- The rest of an object, with the brace that closes it. -/
def renderFields : List (Option String × Json) → Bytes
  | [] => [ascii (Char.ofNat 0x7D)]
  | [(k, v)] => renderText (k.getD "") ++ ascii ':' :: render v ++ [ascii (Char.ofNat 0x7D)]
  | (k, v) :: rest =>
    renderText (k.getD "") ++ ascii ':' :: render v ++ ascii ',' :: renderFields rest

end

end Json
end RaftReplica
