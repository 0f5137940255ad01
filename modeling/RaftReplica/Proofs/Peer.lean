/-
RaftReplica/Proofs/Peer.lean

Peers read back from their text.  Only addresses of the fourth version are read, so a peer is read
back if it has such an address, and not at all if its address has the sixth version
(`Peer.ofChars?_chars_eq`).  The same holds of all peers in a value (`Peer.AllRead`).

The text of a peer is its fields with colons between them, and it is read by cutting at every
colon.  The text of a number has none, and neither has an address of the fourth version, so each
field is found where it was put (`ofChars?_chars`).  An address of the sixth version has colons
itself and stands in brackets; its first field then begins with a bracket, and no address is read
from that, whatever the other fields are (`ofFields?_bracket`).

Blanks around the text do not count, and there are none (`trim_chars`): the first character is a
digit or a bracket and the last one tells the role.
-/
import RaftReplica.Peer
import RaftReplica.Proofs.Text.Fields
import RaftReplica.Proofs.Text.Numeral

namespace RaftReplica

open Numeral Text

/-- The address has the fourth version. -/
def Ip.IsV4 : Ip → Prop
  | .v4 .. => True
  | .v6 .. => False

instance (ip : Ip) : Decidable ip.IsV4 := by
  cases ip <;> unfold Ip.IsV4 <;> infer_instance

namespace Ip

/-- Each of the four numbers is read back. -/
theorem octet?_chars (a : UInt8) : octet? (Numeral.chars a.toNat) = some a := by
  have hall : ∀ n : Fin 256, octet? (Numeral.chars n) = some (UInt8.ofNat n) := by decide +kernel
  have h := hall ⟨a.toNat, a.toNat_lt⟩
  rwa [UInt8.ofNat_toNat] at h

theorem dot_notMem_chars (n : Nat) : '.' ∉ Numeral.chars n :=
  notMem_of_ofDigits? (ofDigits?_chars n) rfl

/-- Four numbers with dots between them are an address. -/
theorem parse?_dotted (a b c d : UInt8) : parse? (dotted a b c d) = some (v4 a b c d) := by
  have hsplit : split '.' (dotted a b c d) =
      [Numeral.chars a.toNat, Numeral.chars b.toNat, Numeral.chars c.toNat,
        Numeral.chars d.toNat] := by
    simp only [dotted, List.append_assoc, List.cons_append]
    rw [split_append (dot_notMem_chars _), split_append (dot_notMem_chars _),
      split_append (dot_notMem_chars _), split_of_notMem (dot_notMem_chars _)]
  rw [parse?, hsplit]
  simp only [octet?_chars, bind, Option.bind, pure]

/-- No address starts with a bracket. -/
theorem parse?_bracket (cs : List Char) : parse? ('[' :: cs) = none := by
  obtain ⟨field, rest, hsplit⟩ := exists_split_cons (show '[' ≠ '.' by decide) cs
  -- no number begins with a bracket
  have hdigits : ofDigits? ('[' :: field) = none := by
    rw [ofDigits?, if_neg (by simp), List.mapM_cons, show digitValue? '[' = none by decide]
    rfl
  have hoctet : octet? ('[' :: field) = none := by
    rw [octet?, hdigits]
    split <;> rfl
  rw [parse?, hsplit]
  split
  · next heq =>
    obtain ⟨rfl, -⟩ := List.cons.inj heq
    rw [hoctet]
    rfl
  · rfl

end Ip

namespace Peer

/-- No digit is a blank. -/
theorem isBlank_of_digit {c : Char} (h : (digitValue? c).isSome) : isBlank c = false := by
  unfold digitValue? at h
  split at h
  · next hc =>
    have hlo : 48 ≤ c.toNat := hc.1
    have hhi : c.toNat ≤ 57 := hc.2
    unfold isBlank
    rw [← Bool.not_eq_true, List.contains_iff_mem]
    intro hm
    simp only [blankCodes, List.mem_cons, List.not_mem_nil, or_false] at hm
    omega
  · exact absurd h (by simp)

theorem colon_notMem_chars (n : Nat) : ':' ∉ Numeral.chars n :=
  notMem_of_ofDigits? (ofDigits?_chars n) rfl

theorem colon_notMem_dotted (a b c d : UInt8) : ':' ∉ Ip.dotted a b c d := by
  simp only [Ip.dotted, List.mem_append, List.mem_cons, not_or]
  simp [colon_notMem_chars]

/-- A text that starts and ends without a blank stays as it is. -/
theorem trim_of_ends {cs : List Char} {a z : Char} (ha : cs.head? = some a)
    (hz : cs.getLast? = some z) (hab : isBlank a = false) (hzb : isBlank z = false) :
    trim cs = cs := by
  have hdrop : ∀ {cs : List Char} {a : Char}, cs.head? = some a → isBlank a = false →
      cs.dropWhile isBlank = cs := by
    intro cs a ha hab
    cases cs with
    | nil => rfl
    | cons c cs =>
      obtain rfl : c = a := by simpa using ha
      rw [List.dropWhile_cons, hab]
      rfl
  rw [trim, hdrop ha hab, hdrop (by rw [List.head?_reverse, hz]) hzb, List.reverse_reverse]

/-- A number begins with something that is no blank. -/
theorem head?_chars (n : Nat) : ∃ c, (Numeral.chars n).head? = some c ∧ isBlank c = false := by
  obtain ⟨c, rest, h⟩ := List.exists_cons_of_ne_nil (chars_ne_nil n)
  refine ⟨c, by rw [h]; rfl, isBlank_of_digit ?_⟩
  exact digitValue?_isSome_of_mem (ofDigits?_chars n) (h ▸ List.mem_cons_self)

/-- The text of a peer has no blanks at its ends. -/
theorem trim_chars (p : Peer) : trim p.chars = p.chars := by
  obtain ⟨ip, port, idx, role⟩ := p
  have hlast : (chars ⟨ip, port, idx, role⟩).getLast? = some role.digit := by
    rw [chars, show [':', role.digit] = [':'] ++ [role.digit] from rfl, ← List.append_assoc,
      List.getLast?_concat]
  have hrole : isBlank role.digit = false := by cases role <;> decide
  cases ip with
  | v4 a b c d =>
    obtain ⟨z, hz, hzb⟩ := head?_chars a.toNat
    refine trim_of_ends ?_ hlast hzb hrole
    simp [chars, Ip.withPort, Ip.chars, Ip.dotted, List.head?_append, hz]
  | v6 => exact trim_of_ends rfl hlast (by decide) hrole

/-- **A peer is read back from its text.** -/
theorem ofChars?_chars {p : Peer} (h : p.ip.IsV4) : ofChars? p.chars = some p := by
  obtain ⟨ip, port, idx, role⟩ := p
  cases ip with
  | v6 => exact absurd h (by simp [Ip.IsV4])
  | v4 a b c d =>
    -- the four fields in their order
    have htext : chars ⟨.v4 a b c d, port, idx, role⟩ = Ip.dotted a b c d ++ ':' ::
        (Numeral.chars port.toNat ++ ':' :: (Numeral.chars idx.toNat ++ ':' :: [role.digit])) := by
      simp [chars, Ip.withPort, Ip.chars]
    have hrole : ':' ∉ [role.digit] := by cases role <;> decide
    have hport : port? (Numeral.chars port.toNat) = some port := by
      rw [port?, parse?_of_ofDigits? (ofDigits?_chars _) (Nat.le_sub_one_of_lt port.toNat_lt),
        Option.map_some, UInt16.ofNat_toNat]
    have hidx : idx? (Numeral.chars idx.toNat) = some idx := by
      have hle : idx.toNat ≤ max32 := Nat.le_sub_one_of_lt idx.toNat_lt
      rw [idx?, parse?_of_ofDigits? (ofDigits?_chars _) hle, Option.map_some, UInt32.ofNat_toNat]
    have hdigit : role? [role.digit] = some role := by cases role <;> rfl
    rw [ofChars?, trim_chars, htext, split_append (colon_notMem_dotted a b c d),
      split_append (colon_notMem_chars _), split_append (colon_notMem_chars _),
      split_of_notMem hrole, ofFields?]
    simp only [Ip.parse?_dotted, hport, hidx, hdigit, bind, Option.bind, pure]

/-- No peer starts with a bracket. -/
theorem ofFields?_bracket (field : List Char) (rest : List (List Char)) :
    ofFields? (('[' :: field) :: rest) = none := by
  unfold ofFields?
  split <;> first
    | rfl
    | next heq =>
      obtain ⟨rfl, -⟩ := List.cons.inj heq
      rw [Ip.parse?_bracket]
      rfl

/-- **What is read from the text of a peer**: the peer, unless its address has the sixth
version. -/
theorem ofChars?_chars_eq (p : Peer) : ofChars? p.chars = if p.ip.IsV4 then some p else none := by
  split
  · next h => exact ofChars?_chars h
  · next h =>
    obtain ⟨ip, port, idx, role⟩ := p
    cases ip with
    | v4 => exact absurd trivial h
    | v6 a b c d e f g i =>
      -- the first field starts with the bracket in front of the address
      obtain ⟨cs, hcs⟩ : ∃ cs, chars ⟨.v6 a b c d e f g i, port, idx, role⟩ = '[' :: cs :=
        ⟨_, rfl⟩
      obtain ⟨field, rest, hsplit⟩ := exists_split_cons (show '[' ≠ ':' by decide) cs
      rw [ofChars?, trim_chars, hcs, hsplit, ofFields?_bracket]

/-- All these peers have addresses that are read. -/
def AllRead (ps : List Peer) : Prop := ∀ p ∈ ps, p.ip.IsV4

instance (ps : List Peer) : Decidable (AllRead ps) :=
  inferInstanceAs (Decidable (∀ p ∈ ps, p.ip.IsV4))

@[simp] theorem allRead_nil : AllRead [] := fun _ hp => absurd hp List.not_mem_nil

@[simp] theorem allRead_singleton {p : Peer} : AllRead [p] ↔ p.ip.IsV4 := List.forall_mem_singleton

@[simp] theorem allRead_append {ps qs : List Peer} :
    AllRead (ps ++ qs) ↔ AllRead ps ∧ AllRead qs := List.forall_mem_append

theorem ite_allRead_bind {α β : Type} (ps : List Peer) (a : α) (f : α → Option β) :
    (if AllRead ps then some a else none).bind f = if AllRead ps then f a else none := by
  split <;> rfl

/-- If two rows of peers are read one after the other, both have to be read. -/
theorem ite_allRead_append {α : Type} (ps qs : List Peer) (r : Option α) :
    (if AllRead ps then (if AllRead qs then r else none) else none) =
      if AllRead (ps ++ qs) then r else none := by
  by_cases hps : AllRead ps <;> by_cases hqs : AllRead qs <;> simp [hps, hqs]

theorem toList_text (p : Peer) : p.text.toList = p.chars := String.toList_ofList

end Peer
end RaftReplica
