/-
RaftReplica/Address.lean

Internet addresses and their text.  An address of the fourth version is four numbers with dots
between them; one of the sixth is eight hexadecimal groups with colons, where the longest run of at
least two zero groups is left out, and an address that only wraps one of the fourth version shows
that one at its end.

The two directions are not of equal strength.  `Ip.chars` writes every address, but `Ip.parse?` reads
only the dotted form, since the text of a peer is cut at each colon before any part of it is looked
at.  So an address of the sixth version can be held and shown but not read back, and what follows
from that for peers is said in `Proofs.Peer`.

* `Ip.number` puts all addresses in one order, which the order of peers is built on.
* `Ip.longestZeros` finds the groups to leave out: of several longest runs the first.
* `Ip.octet?` is strict: no sign, no blank, no zero in front.
-/
import RaftReplica.Text.Fields
import RaftReplica.Text.Numeral

namespace RaftReplica

/-- An internet address. -/
inductive Ip
  | v4 (a b c d : UInt8)
  | v6 (a b c d e f g h : UInt16)
  deriving DecidableEq, Repr, Inhabited

namespace Ip

/-- The address that names no host. -/
def unspecified : Ip := v4 0 0 0 0

/-- No host is named, in either version. -/
def isUnspecified : Ip → Bool
  | v4 a b c d => a == 0 && b == 0 && c == 0 && d == 0
  | v6 a b c d e f g h =>
    a == 0 && b == 0 && c == 0 && d == 0 && e == 0 && f == 0 && g == 0 && h == 0

/-- The place of an address in the order of all addresses: the fourth version comes first. -/
def number : Ip → Nat
  | v4 a b c d => Numeral.value 256 [a.toNat, b.toNat, c.toNat, d.toNat]
  | v6 a b c d e f g h =>
    -- behind every address of the fourth version
    UInt32.size + Numeral.value 65536
      [a.toNat, b.toNat, c.toNat, d.toNat, e.toNat, f.toNat, g.toNat, h.toNat]

/-! ### Writing -/

/-- Four numbers with dots. -/
def dotted (a b c d : UInt8) : List Char :=
  Numeral.chars a.toNat ++ '.' :: Numeral.chars b.toNat ++ '.' :: Numeral.chars c.toNat ++
    '.' :: Numeral.chars d.toNat

/-- Hexadecimal groups with colons between them. -/
def groups : List Nat → List Char
  | [] => []
  | [s] => (Numeral.digits 16 s).map Numeral.digitChar
  | s :: rest => (Numeral.digits 16 s).map Numeral.digitChar ++ ':' :: groups rest

/-- The length of the run of zeros at the front. -/
def zeros (segments : List Nat) : Nat := (segments.takeWhile (· == 0)).length

/-- Start and length of the longest run of zeros, the first one of several. -/
def longestZeros : Nat → List Nat → Nat × Nat
  | _, [] => (0, 0)
  | pos, s :: rest =>
    let here := zeros (s :: rest)
    let later := longestZeros (pos + 1) rest
    -- a later run has to be longer, so of equal ones the first is left out
    if later.2 ≤ here then (pos, here) else later

/-- The groups, without their longest run of at least two zeros. -/
def compressed (segments : List Nat) : List Char :=
  let run := longestZeros 0 segments
  if 2 ≤ run.2 then
    groups (segments.take run.1) ++ [':', ':'] ++ groups (segments.drop (run.1 + run.2))
  else groups segments

/-- The two bytes of a group. -/
def octets (w : UInt16) : UInt8 × UInt8 :=
  (UInt8.ofNat (w.toNat / 256), UInt8.ofNat (w.toNat % 256))

/-- An address as text. -/
def chars : Ip → List Char
  | v4 a b c d => dotted a b c d
  | v6 a b c d e f g h =>
    -- an address of the fourth version in the clothes of the sixth
    if [a, b, c, d, e] = [0, 0, 0, 0, 0] ∧ f = 0xFFFF then
      "::ffff:".toList ++ dotted (octets g).1 (octets g).2 (octets h).1 (octets h).2
    else compressed [a.toNat, b.toNat, c.toNat, d.toNat, e.toNat, f.toNat, g.toNat, h.toNat]

/-- An address as a string. -/
def text (ip : Ip) : String := String.ofList ip.chars

/-- An address and a port; brackets set the colons of the sixth version apart. -/
def withPort (ip : Ip) (port : UInt16) : List Char :=
  match ip with
  | v4 .. => ip.chars ++ ':' :: Numeral.chars port.toNat
  | v6 .. => '[' :: ip.chars ++ ']' :: ':' :: Numeral.chars port.toNat

/-! ### Reading -/

/-- One of the four numbers: one to three digits, no zero in front, at most 255. -/
def octet? (cs : List Char) : Option UInt8 :=
  -- three digits can still be too many: 256 and above are refused below
  if cs.length ≤ 3 ∧ (cs.length = 1 ∨ cs.head? ≠ some '0') then
    (Numeral.ofDigits? cs).bind fun n => if n < 256 then some (UInt8.ofNat n) else none
  else none

/-- Reads an address of the fourth version. -/
def parse? (cs : List Char) : Option Ip :=
  match Text.split '.' cs with
  | [a, b, c, d] => do return v4 (← octet? a) (← octet? b) (← octet? c) (← octet? d)
  | _ => none

example : (v6 0 0 0 0 0 0 0 1).text = "::1" := by decide
example : (v6 0x2001 0xdb8 0 0 1 0 0 1).text = "2001:db8::1:0:0:1" := by decide
example : (v6 0 0 0 0 0 0xFFFF 0x0102 0x0304).text = "::ffff:1.2.3.4" := by decide
example : parse? "1.2.3.04".toList = none ∧ parse? "1.2.3.4".toList = some (v4 1 2 3 4) := by decide

end Ip
end RaftReplica
