/-
RaftReplica/Toml/Scalar.lean

Words of a TOML document that are no strings: truth values, numbers and dates.  An integer has
sixty-four bits with sign; underscores may stand between digits.

A word is tried as an integer, then as a number with a fraction or an exponent, then as a date.  Of
the last two only the kind is kept, since no setting has it; what matters is which words are
accepted, for one that is not spoils the document.  So dates are checked against the calendar, and
numbers against the largest one that can be held.

* `integer?` reads the four bases, `decimal?` refuses a zero in front.
* `isFloat` and `isDate` recognise the rest.
* `ofWord?` is the value of a word.
-/
import RaftReplica.Toml.Basic
import RaftReplica.Text.Fields
import RaftReplica.Text.Numeral

namespace RaftReplica.Toml

/-! ### Numbers -/

/-- The value of a digit in bases up to sixteen. -/
def digitValue? (base : Nat) (c : Char) : Option Nat :=
  let n := c.toNat
  let d :=
    if '0' ≤ c ∧ c ≤ '9' then n - 48
    else if 'a' ≤ c ∧ c ≤ 'f' then n - 87
    else if 'A' ≤ c ∧ c ≤ 'F' then n - 55
    else base
  if d < base then some d else none

/-- The digits of a number, where single underscores may stand between two digits. -/
def digits? (base : Nat) (cs : List Char) : Option (List Nat) :=
  ((Text.split '_' cs).mapM fun (part : List Char) =>
    if part.isEmpty then none else part.mapM (digitValue? base)).map List.flatten

/-- The value of digits. -/
def natural? (base : Nat) (cs : List Char) : Option Nat :=
  (digits? base cs).map (Numeral.value base)

/-- Decimal digits without a zero in front of others. -/
def decimal? (cs : List Char) : Option Nat :=
  if cs.head? = some '0' ∧ 1 < cs.length then none else natural? 10 cs

/-- The largest integer. -/
def maxInt : Nat := UInt64.size / 2 - 1

/-- An integer: decimal with a sign or none, or hexadecimal, octal or binary without. -/
def integer? : List Char → Option Int
  | '0' :: 'x' :: cs => ((natural? 16 cs).filter (· ≤ maxInt)).map Int.ofNat
  | '0' :: 'o' :: cs => ((natural? 8 cs).filter (· ≤ maxInt)).map Int.ofNat
  | '0' :: 'b' :: cs => ((natural? 2 cs).filter (· ≤ maxInt)).map Int.ofNat
  | '-' :: cs => ((decimal? cs).filter (· ≤ maxInt + 1)).map fun n => -Int.ofNat n
  | '+' :: cs => ((decimal? cs).filter (· ≤ maxInt)).map Int.ofNat
  | cs => ((decimal? cs).filter (· ≤ maxInt)).map Int.ofNat

/-- The word without a sign in front. -/
def unsigned : List Char → List Char
  | '+' :: cs => cs
  | '-' :: cs => cs
  | cs => cs

/-- The exponent of ten behind the letter for it; without one it is zero. -/
def exponent? : List Char → Option Int
  | [] => some 0
  | _ :: '-' :: cs => (natural? 10 cs).map fun n => -Int.ofNat n
  | _ :: cs => (natural? 10 (unsigned cs)).map Int.ofNat

/-- A number with a fraction, an exponent or both, without its sign: the digits as one number, and
the exponent of ten that goes with them. -/
def scaled? (cs : List Char) : Option (Nat × Int) := do
  let mantissa := cs.takeWhile fun c => c != 'e' && c != 'E'
  let power := cs.drop mantissa.length
  let exponent ← exponent? power
  match Text.cut '.' mantissa with
  | some (whole, fraction) =>
    let ds ← digits? 10 fraction
    let n := (← decimal? whole) * Nat.pow 10 ds.length + Numeral.value 10 ds
    return (n, exponent - ds.length)
  | none => if power.isEmpty then none else return (← decimal? mantissa, exponent)

/-- The number is so large that it rounds to infinity: at least half a step above the largest number
with 53 binary digits below `2 ^ 1024`. -/
def roundsToInfinity (n : Nat) (exponent : Int) : Bool :=
  let places := (Numeral.digits 10 n).length + exponent
  -- so far from the bound that the powers of ten need not be compared
  if n = 0 ∨ places < 300 then false
  else if 320 < places then true
  else
    -- the largest number is `2 ^ 1024 - 2 ^ 971`, and half a step is `2 ^ 970`
    let largest := Nat.pow 2 1024 - Nat.pow 2 970
    decide (largest * Nat.pow 10 (-exponent).toNat ≤ n * Nat.pow 10 exponent.toNat)

/-- A number with a fraction, an exponent or both, or one of the special values.  A negative number
may be of any size. -/
def isFloat (cs : List Char) : Bool :=
  if unsigned cs = ['i', 'n', 'f'] ∨ unsigned cs = ['n', 'a', 'n'] then true
  else
    match scaled? (unsigned cs) with
    | some (n, exponent) => cs.head? = some '-' || !roundsToInfinity n exponent
    | none => false

example : isFloat "1e308".toList = true ∧ isFloat "1e309".toList = false := by decide +kernel

/-! ### Dates -/

/-- A field of exactly `width` digits, between two bounds. -/
def dateField? (width low high : Nat) (cs : List Char) : Option Nat :=
  if cs.length = width then
    (Numeral.ofDigits? cs).filter fun n => decide (low ≤ n) && decide (n ≤ high)
  else none

/-- The number of days of a month. -/
def daysIn (year month : Nat) : Nat :=
  if month = 2 then
    if year % 4 = 0 ∧ (year % 100 ≠ 0 ∨ year % 400 = 0) then 29 else 28
  else if month = 4 ∨ month = 6 ∨ month = 9 ∨ month = 11 then 30
  else 31

/-- A day, such as 1979-05-27. -/
def isDay (cs : List Char) : Bool :=
  match Text.split '-' cs with
  | [y, m, d] =>
    match dateField? 4 0 9999 y, dateField? 2 1 12 m with
    | some year, some month => (dateField? 2 1 (daysIn year month) d).isSome
    | _, _ => false
  | _ => false

/-- A time of the day, such as 07:32:00.5. -/
def isTime (cs : List Char) : Bool :=
  let clock := cs.takeWhile (· != '.')
  let fraction := cs.drop clock.length
  let fractionFits := fraction.isEmpty || (Numeral.ofDigits? (fraction.drop 1)).isSome
  match Text.split ':' clock with
  | [h, m, s] =>
    (dateField? 2 0 23 h).isSome && (dateField? 2 0 59 m).isSome &&
      -- a minute with a leap second has sixty-one
      (dateField? 2 0 60 s).isSome && fractionFits
  | _ => false

/-- A time with the offset from universal time, or without. -/
def isTimeWithOffset (cs : List Char) : Bool :=
  let clock := cs.takeWhile fun c => c != 'Z' && c != 'z' && c != '+' && c != '-'
  match cs.drop clock.length with
  | [] => isTime clock
  | c :: offset =>
    isTime clock &&
      (if c = 'Z' ∨ c = 'z' then offset.isEmpty
        else
          match Text.split ':' offset with
          | [h, m] => (dateField? 2 0 23 h).isSome && (dateField? 2 0 59 m).isSome
          | _ => false)

/-- A day, a time, or both with a letter or a blank between them. -/
def isDate (cs : List Char) : Bool :=
  let day := cs.take 10
  match cs.drop 10 with
  | [] => isDay day || isTime cs
  | c :: time =>
    (isDay day && (c = 'T' || c = 't' || c = ' ') && isTimeWithOffset time) || isTime cs

/-! ### Words -/

/-- The characters of such words. -/
def isWordChar (c : Char) : Bool :=
  c.isAlphanum || c == '_' || c == '+' || c == '-' || c == '.' || c == ':'

/-- The value of a word. -/
def ofWord? (cs : List Char) : Option Toml :=
  if cs = ['t', 'r', 'u', 'e'] then some (.bool true)
  else if cs = ['f', 'a', 'l', 's', 'e'] then some (.bool false)
  else
    match integer? cs with
    | some n => some (.int n)
    | none => if isFloat cs then some .float else if isDate cs then some .date else none

end RaftReplica.Toml
