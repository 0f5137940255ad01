/-
RaftReplica/Text/Numeral.lean

Numbers as text.  Decimal numbers are written with the fewest digits, or padded with zeros to a fixed
width in file names; checksums are written as eight hexadecimal digits.

A number is read from decimal digits with an optional plus sign in front; leading zeros are allowed
and a value beyond the given largest one is refused.  So several texts stand for one number, and what
is read need not be what would be written: a name with fewer zeros than usual names the same segment
or snapshot.

* `digits` and `value` are inverse for every base from two on.
* `chars`, `padded` and `hex8` write, `parse?` reads.
* `max32` and `max64` are the bounds that fields of files and settings have.
-/

namespace RaftReplica.Numeral

/-! ### Digits of a number -/

/-- The digits of `n` in front of `acc`, most significant first; `fuel` bounds their number. -/
def digitsOnto (base : Nat) : Nat → Nat → List Nat → List Nat
  | 0, _, acc => acc
  | fuel + 1, n, acc =>
    if n < base then n :: acc else digitsOnto base fuel (n / base) (n % base :: acc)

/-- The digits of `n`, most significant first; a number has at most `n + 1` of them. -/
def digits (base n : Nat) : List Nat := digitsOnto base (n + 1) n []

/-- The value of a row of digits. -/
def value (base : Nat) (ds : List Nat) : Nat := ds.foldl (fun v d => v * base + d) 0

/-- The character of a digit below sixteen. -/
def digitChar (d : Nat) : Char :=
  if d < 10 then Char.ofNat (48 + d) else Char.ofNat (87 + d)

/-- The value of a decimal digit. -/
def digitValue? (c : Char) : Option Nat :=
  if '0' ≤ c ∧ c ≤ '9' then some (c.toNat - 48) else none

/-! ### Writing -/

/-- `n` in decimal, with the fewest digits. -/
def chars (n : Nat) : List Char := (digits 10 n).map digitChar

/-- `n` in decimal, as a text. -/
def text (n : Nat) : String := String.ofList (chars n)

/-- Fills up with zeros in front to `width` characters. -/
def padTo (width : Nat) (cs : List Char) : List Char :=
  List.replicate (width - cs.length) '0' ++ cs

/-- `n` in decimal, padded with zeros to twenty digits. -/
def padded (n : Nat) : String := String.ofList (padTo 20 (chars n))

/-- A 32-bit word as eight hexadecimal digits. -/
def hex8 (w : UInt32) : String := String.ofList (padTo 8 ((digits 16 w.toNat).map digitChar))

/-! ### Reading -/

/-- The value of decimal digits, if nothing else stands between them and there is at least one. -/
def ofDigits? (cs : List Char) : Option Nat :=
  if cs.isEmpty then none else (cs.mapM digitValue?).map (value 10)

/-- Reads a number of at most `largest`: decimal digits, with an optional plus sign in front. -/
def parse? (largest : Nat) (cs : List Char) : Option Nat :=
  -- a lone plus sign leaves no digits, and is refused for that
  let ds := match cs with
    | '+' :: rest => rest
    | _ => cs
  (ofDigits? ds).filter (· ≤ largest)

/-- The largest 64-bit number. -/
def max64 : Nat := UInt64.size - 1

/-- The largest 32-bit number. -/
def max32 : Nat := UInt32.size - 1

/-- Reads a 64-bit number. -/
def parse64? (cs : List Char) : Option Nat := parse? max64 cs

example : text 0 = "0" ∧ text 1205 = "1205" := by decide
example : padded 7 = "00000000000000000007" := by decide
example : hex8 0x00c0ffee = "00c0ffee" := by decide
example : parse64? "+007".toList = some 7 ∧ parse64? "+".toList = none := by decide

end RaftReplica.Numeral
