/-
RaftReplica/Json/Reader.lean

Reading JSON values from bytes.  A value may be surrounded by blanks and nothing else may follow it.

Strings are read in two steps: first into bytes and escaped codes, which only needs the form to be
right, and then, where a text is wanted, into a text, which also needs surrogates to come in pairs
and the bytes to encode characters.  A string of which only the first step works is a value still,
one without text.

Each reader answers with the value and the bytes that follow it, or not at all.  `readValue`,
`readItems` and `readFields` call each other, and the recursion is bounded by twice the number of
bytes: of two nested calls at least one takes a byte.  So `read?` gives enough fuel for whatever it
is given, and running out of it never decides an answer.

* `pieces` and `assemble` are the two steps for strings.
* `unsigned` refuses a zero in front of other digits, as JSON does.
* `read?` reads the one value that bytes hold.
-/
import RaftReplica.Json.Basic

namespace RaftReplica.Json

/-! ### Strings -/

/-- A piece of a string: a byte as it stands, or an escaped code. -/
inductive Piece
  | byte (b : UInt8)
  | code (n : Nat)
  deriving DecidableEq, Repr

/-- The value of a hexadecimal digit, in either case. -/
def hexValue? (b : UInt8) : Option Nat :=
  let n := b.toNat
  if 48 ≤ n ∧ n ≤ 57 then some (n - 48)
  else if 97 ≤ n ∧ n ≤ 102 then some (n - 87)
  else if 65 ≤ n ∧ n ≤ 70 then some (n - 55)
  else none

/-- The byte that a letter after a backslash stands for. -/
def shortEscape? (b : UInt8) : Option UInt8 :=
  if b = ascii '"' ∨ b = ascii '\\' ∨ b = ascii '/' then some b
  else if b = ascii 'b' then some 0x08
  else if b = ascii 'f' then some 0x0C
  else if b = ascii 'n' then some 0x0A
  else if b = ascii 'r' then some 0x0D
  else if b = ascii 't' then some 0x09
  else none

/-- The pieces of a string after its opening quote, and what follows the closing one.  Raw
controls, unknown escapes and unfinished ones are refused. -/
def pieces : Bytes → Option (List Piece × Bytes)
  | [] => none
  | b :: rest =>
    if b = ascii '"' then some ([], rest)
    else if b = ascii '\\' then
      match rest with
      | [] => none
      | e :: rest =>
        if e = ascii 'u' then
          match rest with
          -- always four digits; a code above 0xFFFF is written as two
          | h₁ :: h₂ :: h₃ :: h₄ :: rest => do
            let n := Numeral.value 16
              [← hexValue? h₁, ← hexValue? h₂, ← hexValue? h₃, ← hexValue? h₄]
            let (ps, rest) ← pieces rest
            return (.code n :: ps, rest)
          | _ => none
        else do
          let c ← shortEscape? e
          let (ps, rest) ← pieces rest
          return (.byte c :: ps, rest)
    else if b < 0x20 then none
    else do
      let (ps, rest) ← pieces rest
      return (.byte b :: ps, rest)

/-- The bytes of one character given by its code. -/
def encodeCode (n : Nat) : Bytes := Bytes.ofText (String.singleton (Char.ofNat n))

/-- The bytes of a string; a surrogate counts only as the first or second half of a pair. -/
def assemble : List Piece → Option Bytes
  | [] => some []
  | .byte b :: rest => (assemble rest).map (b :: ·)
  | .code n :: rest =>
    if 0xD800 ≤ n ∧ n < 0xDC00 then
      match rest with
      | .code m :: rest =>
        -- the two halves give ten bits each
        if 0xDC00 ≤ m ∧ m < 0xE000 then
          (assemble rest).map (encodeCode (0x10000 + (n - 0xD800) * 0x400 + (m - 0xDC00)) ++ ·)
        else none
      | _ => none
    else if 0xDC00 ≤ n ∧ n < 0xE000 then none
    else (assemble rest).map (encodeCode n ++ ·)

/-- The text that pieces make, if they make one. -/
def textOf (ps : List Piece) : Option String := (assemble ps).bind Bytes.text?

/-! ### Numbers -/

/-- A decimal digit. -/
def isDigit (b : UInt8) : Bool := ascii '0' ≤ b && b ≤ ascii '9'

/-- The value of digits. -/
def natOf (ds : Bytes) : Nat := Numeral.value 10 (ds.map fun b => b.toNat - 48)

/-- Skips a fraction, if there is one; it needs a digit. -/
def skipFraction (bs : Bytes) : Option (Bool × Bytes) :=
  match bs with
  | b :: rest =>
    if b = ascii '.' then
      if (rest.takeWhile isDigit).isEmpty then none else some (true, rest.dropWhile isDigit)
    else some (false, bs)
  | [] => some (false, [])

/-- Skips the sign of an exponent. -/
def skipSign : Bytes → Bytes
  | b :: rest => if b = ascii '+' ∨ b = ascii '-' then rest else b :: rest
  | [] => []

/-- Skips an exponent, if there is one; it needs a digit. -/
def skipExponent (bs : Bytes) : Option (Bool × Bytes) :=
  match bs with
  | b :: rest =>
    if b = ascii 'e' ∨ b = ascii 'E' then
      let rest := skipSign rest
      if (rest.takeWhile isDigit).isEmpty then none else some (true, rest.dropWhile isDigit)
    else some (false, bs)
  | [] => some (false, [])

/-- A number without its sign: digits, where a zero in front stands alone. -/
def unsigned (bs : Bytes) : Option (Json × Bytes) := do
  let ds := bs.takeWhile isDigit
  if ds.isEmpty ∨ (ds.head? = some (ascii '0') ∧ 1 < ds.length) then none
  let (hasFraction, rest) ← skipFraction (bs.dropWhile isDigit)
  let (hasExponent, rest) ← skipExponent rest
  return (if hasFraction || hasExponent then .otherNumber else .nat (natOf ds), rest)

/-- A number; only one without a sign can be a natural one. -/
def number (bs : Bytes) : Option (Json × Bytes) :=
  match bs with
  | b :: rest =>
    if b = ascii '-' then (unsigned rest).map fun p => (.otherNumber, p.2) else unsigned bs
  | [] => none

/-! ### Values -/

/-- The blanks of JSON. -/
def isSpace (b : UInt8) : Bool := b == 0x20 || b == 0x09 || b == 0x0A || b == 0x0D

/-- What is left behind blanks. -/
def skipSpaces (bs : Bytes) : Bytes := bs.dropWhile isSpace

/-- What follows a literal word. -/
def afterWord (word : List Char) (v : Json) (bs : Bytes) : Option (Json × Bytes) :=
  if asciis word <+: bs then some (v, bs.drop word.length) else none

mutual

/-- Reads a value after blanks. -/
def readValue : Nat → Bytes → Option (Json × Bytes)
  | 0, _ => none
  | fuel + 1, bs =>
    match skipSpaces bs with
    | [] => none
    | b :: rest =>
      if b = ascii '"' then
        (pieces rest).map fun (ps, rest) =>
          (match textOf ps with
            | some s => .text s
            | none => .otherString, rest)
      else if b = ascii '[' then
        match skipSpaces rest with
        | c :: after =>
          if c = ascii ']' then some (.list [], after)
          else (readItems fuel (c :: after)).map fun (vs, rest) => (.list vs, rest)
        | [] => none
      else if b = ascii (Char.ofNat 0x7B) then
        match skipSpaces rest with
        | c :: after =>
          if c = ascii (Char.ofNat 0x7D) then some (.object [], after)
          else (readFields fuel (c :: after)).map fun (fs, rest) => (.object fs, rest)
        | [] => none
      else if b = ascii 'n' then afterWord ['n', 'u', 'l', 'l'] .null (b :: rest)
      else if b = ascii 't' then afterWord ['t', 'r', 'u', 'e'] (.bool true) (b :: rest)
      else if b = ascii 'f' then afterWord ['f', 'a', 'l', 's', 'e'] (.bool false) (b :: rest)
      else number (b :: rest)

/-- Reads the items of a list up to the bracket that closes it. -/
def readItems : Nat → Bytes → Option (List Json × Bytes)
  | 0, _ => none
  | fuel + 1, bs => do
    let (v, rest) ← readValue fuel bs
    match skipSpaces rest with
    | [] => none
    | b :: rest =>
      -- an empty list was dealt with before, so a comma is followed by an item
      if b = ascii ']' then some ([v], rest)
      else if b = ascii ',' then do
        let (vs, rest) ← readItems fuel rest
        return (v :: vs, rest)
      else none

/-- Reads the fields of an object up to the brace that closes it. -/
def readFields : Nat → Bytes → Option (List (Option String × Json) × Bytes)
  | 0, _ => none
  | fuel + 1, bs =>
    match skipSpaces bs with
    | [] => none
    | q :: rest =>
      if q = ascii '"' then do
        let (ps, rest) ← pieces rest
        match skipSpaces rest with
        | [] => none
        | c :: rest =>
          if c = ascii ':' then do
            let (v, rest) ← readValue fuel rest
            match skipSpaces rest with
            | [] => none
            | b :: rest =>
              if b = ascii (Char.ofNat 0x7D) then some ([(textOf ps, v)], rest)
              else if b = ascii ',' then do
                let (fs, rest) ← readFields fuel rest
                return ((textOf ps, v) :: fs, rest)
              else none
          else none
      else none

end

/-- Reads the one value that `bs` holds. -/
def read? (bs : Bytes) : Option Json :=
  -- a value at each level costs one step, and so does what is around it
  match readValue (2 * bs.length + 2) bs with
  | some (v, rest) => if (skipSpaces rest).isEmpty then some v else none
  | none => none

end RaftReplica.Json
