/-
RaftReplica/Proofs/Json/Reader.lean

Parts of JSON read back: texts, whichever of their bytes are escaped, and natural numbers.

A text is written byte by byte.  A byte is written as itself, as a backslash and a letter, or as a
code of four digits in base sixteen, and which of them it is depends on the byte alone (`Escaped`).
The reader does not know this rule; it understands any escape.  So the proof has two halves:

* every byte is written in one of the three ways (`exists_escaped`);
* whatever is written in one of these ways is one piece for the reader (`Escaped.pieces`), and the
  piece stands for the byte (`Escaped.assemble`).

A whole text then follows by induction on its bytes (`exists_pieces`), with anything behind the
closing quote left unread.

A number is written as its digits.  It has no zero in front (`no_zero_in_front`), which the reader
would refuse, and it is read to its end if neither a digit nor a fraction nor an exponent comes
behind it (`Ends`, `number_chars`).  In a list or an object a comma or a closing bracket comes there,
and nothing at the end of a file.
-/
import RaftReplica.Json.Reader
import RaftReplica.Proofs.Text.Numeral

namespace RaftReplica.Json

open Numeral Bytes

variable {b : UInt8} {bs rest : Bytes} {p : Piece} {n : Nat}

/-! ### Texts -/

/-- The byte stands for itself in a string. -/
def Unescaped (b : UInt8) : Prop := b ≠ ascii '"' ∧ b ≠ ascii '\\' ∧ ¬ b < 0x20

instance (b : UInt8) : Decidable (Unescaped b) := by unfold Unescaped; infer_instance

/-- A byte that needs no escape is written as itself. -/
theorem escapeByte_of_unescaped (h : Unescaped b) : escapeByte b = [b] := by
  obtain ⟨hquote, hslash, hlow⟩ := h
  have hne : ∀ c : UInt8, c < 0x20 → b ≠ c := by
    rintro c hc rfl
    exact hlow hc
  rw [escapeByte, if_neg hquote, if_neg hslash, if_neg (hne _ (by decide)),
    if_neg (hne _ (by decide)), if_neg (hne _ (by decide)), if_neg (hne _ (by decide)),
    if_neg (hne _ (by decide)), if_neg hlow]

/-- How a byte of a string is written, and the piece that is read for it. -/
inductive Escaped (b : UInt8) : Bytes → Piece → Prop
  | plain (h : Unescaped b) : Escaped b [b] (.byte b)
  | short {c : UInt8} (hc : shortEscape? c = some b) : Escaped b [ascii '\\', c] (.byte b)
  | control (h : b < 0x20) : Escaped b (asciis ['\\', 'u', '0', '0'] ++
      [ascii (digitChar (b.toNat / 16)), ascii (digitChar (b.toNat % 16))]) (.code b.toNat)

/-- A control byte without a letter of its own is written as a code of four digits. -/
theorem escapeByte_control (h : b < 0x20) (hlen : (escapeByte b).length ≠ 2) :
    escapeByte b = asciis ['\\', 'u', '0', '0'] ++
      [ascii (digitChar (b.toNat / 16)), ascii (digitChar (b.toNat % 16))] := by
  have hall : ∀ n : Fin 32, (escapeByte (UInt8.ofNat n)).length ≠ 2 →
      escapeByte (UInt8.ofNat n) = asciis ['\\', 'u', '0', '0'] ++
        [ascii (digitChar (n / 16)), ascii (digitChar (n % 16))] := by decide +kernel
  have hb := hall ⟨b.toNat, h⟩
  simp only [UInt8.ofNat_toNat] at hb
  exact hb hlen

/-- Every byte is written in one of the three ways. -/
theorem exists_escaped (b : UInt8) : ∃ p, Escaped b (escapeByte b) p := by
  -- by the length of what is written: one byte, two bytes, or six
  by_cases hplain : Unescaped b
  · rw [escapeByte_of_unescaped hplain]
    exact ⟨_, .plain hplain⟩
  by_cases hlen : (escapeByte b).length = 2
  · -- the escapes of two bytes are a backslash and the letter that stands for the byte
    have hshort (c : UInt8) (he : escapeByte b = [ascii '\\', c]) (hc : shortEscape? c = some b) :
        ∃ p, Escaped b (escapeByte b) p := by
      rw [he]
      exact ⟨_, .short hc⟩
    rw [escapeByte] at hlen
    -- a quote, a backslash, and the five control bytes that have a letter
    split at hlen
    · next h => subst h; exact hshort (ascii '"') (by decide) (by decide)
    split at hlen
    · next h => subst h; exact hshort (ascii '\\') (by decide) (by decide)
    split at hlen
    · next h => subst h; exact hshort (ascii 'b') (by decide) (by decide)
    split at hlen
    · next h => subst h; exact hshort (ascii 'f') (by decide) (by decide)
    split at hlen
    · next h => subst h; exact hshort (ascii 'n') (by decide) (by decide)
    split at hlen
    · next h => subst h; exact hshort (ascii 'r') (by decide) (by decide)
    split at hlen
    · next h => subst h; exact hshort (ascii 't') (by decide) (by decide)
    split at hlen
    · simp only [asciis, padTo, List.length_map, List.length_append, List.length_cons,
        List.length_replicate, List.length_nil] at hlen
      omega
    · simp at hlen
  · have hlow : b < 0x20 := by
      by_cases hlow : b < 0x20
      · exact hlow
      refine absurd ?_ hplain
      refine ⟨?_, ?_, hlow⟩ <;> rintro rfl <;> exact hlen (by decide)
    rw [escapeByte_control hlow hlen]
    exact ⟨_, .control hlow⟩

/-- A digit in base sixteen is read as its value. -/
theorem hexValue?_digitChar {d : Nat} (h : d < 16) :
    hexValue? (ascii (digitChar d)) = some d := by
  have hall : ∀ d : Fin 16, hexValue? (ascii (digitChar d)) = some d.val := by decide
  exact hall ⟨d, h⟩

theorem encodeCode_control (h : b < 0x20) : encodeCode b.toNat = [b] := by
  have hall : ∀ n : Fin 32, encodeCode n = [UInt8.ofNat n] := by decide +kernel
  simpa using hall ⟨b.toNat, h⟩

/-- The escape of a byte is read as its piece. -/
theorem Escaped.pieces (h : Escaped b bs p) (rest : Bytes) :
    pieces (bs ++ rest) = (pieces rest).map fun r => (p :: r.1, r.2) := by
  -- one case for each way to write a byte; in each of them the first byte tells which branch is
  -- taken
  cases h with
  | plain h =>
    obtain ⟨hquote, hslash, hlow⟩ := h
    rw [List.singleton_append, pieces.eq_def]
    dsimp only
    rw [if_neg hquote, if_neg hslash, if_neg hlow]
    cases pieces rest <;> rfl
  | @short c hc =>
    -- the letter of a short escape is not the one in front of a code
    have hu : c ≠ ascii 'u' := by
      rintro rfl
      rw [show shortEscape? (ascii 'u') = none by decide] at hc
      exact absurd hc (by simp)
    rw [List.cons_append, List.singleton_append, pieces.eq_def]
    dsimp only
    rw [if_neg (by decide), if_pos rfl, if_neg hu]
    simp only [bind, Option.bind, hc]
    cases pieces rest <;> rfl
  | control h =>
    have hlt : b.toNat < 32 := h
    -- the two digits behind the zeros are the byte, in base sixteen
    have hvalue : value 16 [0, 0, b.toNat / 16, b.toNat % 16] = b.toNat := by
      simp only [value, List.foldl_cons, List.foldl_nil]
      omega
    show pieces (ascii '\\' :: ascii 'u' :: ascii '0' :: ascii '0' ::
      ascii (digitChar (b.toNat / 16)) :: ascii (digitChar (b.toNat % 16)) :: rest) = _
    rw [pieces.eq_def]
    dsimp only
    rw [if_neg (by decide), if_pos rfl, if_pos rfl, hexValue?_digitChar (by omega),
      hexValue?_digitChar (by omega), show hexValue? (ascii '0') = some 0 by decide]
    simp only [bind, Option.bind, hvalue]
    cases pieces rest <;> rfl

/-- And the piece makes the byte. -/
theorem Escaped.assemble (h : Escaped b bs p) (ps : List Piece) :
    assemble (p :: ps) = (assemble ps).map (b :: ·) := by
  cases h with
  | plain h => rw [Json.assemble]
  | short hc => rw [Json.assemble]
  | control h =>
    have hlt : b.toNat < 32 := h
    rw [Json.assemble.eq_def]
    dsimp only
    rw [if_neg (by omega), if_neg (by omega), encodeCode_control h]
    rfl

/-- The bytes between the quotes are read back, whichever of them are escaped. -/
theorem exists_pieces (bs rest : Bytes) :
    ∃ ps, pieces (bs.flatMap escapeByte ++ ascii '"' :: rest) = some (ps, rest) ∧
      assemble ps = some bs := by
  -- by induction on the text: the escape of its first byte is one piece
  induction bs with
  | nil =>
    refine ⟨[], ?_, rfl⟩
    rw [List.flatMap_nil, List.nil_append, pieces.eq_def]
    rfl
  | cons b bs ih =>
    obtain ⟨p, hp⟩ := exists_escaped b
    obtain ⟨ps, hpieces, hassemble⟩ := ih
    refine ⟨p :: ps, ?_, ?_⟩
    · rw [List.flatMap_cons, List.append_assoc, hp.pieces, hpieces]
      rfl
    · rw [hp.assemble, hassemble]
      rfl

/-- **A text** is read back. -/
theorem exists_pieces_text (s : String) (rest : Bytes) :
    ∃ ps, pieces ((ofText s).flatMap escapeByte ++ ascii '"' :: rest) = some (ps, rest) ∧
      textOf ps = some s := by
  obtain ⟨ps, hpieces, hassemble⟩ := exists_pieces (ofText s) rest
  refine ⟨ps, hpieces, ?_⟩
  rw [textOf, hassemble]
  exact text?_ofText s


/-! ### Numbers -/

theorem isDigit_digitChar {d : Nat} (h : d < 10) : isDigit (ascii (digitChar d)) = true := by
  have hall : ∀ d : Fin 10, isDigit (ascii (digitChar d)) = true := by decide
  exact hall ⟨d, h⟩

theorem toNat_digitChar {d : Nat} (h : d < 10) : (ascii (digitChar d)).toNat - 48 = d := by
  have hall : ∀ d : Fin 10, (ascii (digitChar d)).toNat - 48 = d.val := by decide
  exact hall ⟨d, h⟩

/-- The digits of a number are read as the number. -/
theorem natOf_chars (n : Nat) : natOf (asciis (chars n)) = n := by
  have hmap : (asciis (chars n)).map (fun b => b.toNat - 48) = digits 10 n := by
    rw [asciis, chars, List.map_map, List.map_map]
    refine (List.map_congr_left ?_).trans (List.map_id _)
    intro d hd
    exact toNat_digitChar (lt_of_mem_digits (by omega) hd)
  rw [natOf, hmap, value_digits (by omega)]

/-- A number is written with digits only. -/
theorem isDigit_of_mem_chars {b : UInt8} (hb : b ∈ asciis (chars n)) : isDigit b = true := by
  rw [asciis, chars, List.map_map] at hb
  obtain ⟨d, hd, rfl⟩ := List.mem_map.1 hb
  exact isDigit_digitChar (lt_of_mem_digits (by omega) hd)

/-- A numeral has no zero in front unless it is the zero. -/
theorem no_zero_in_front (n : Nat) :
    ¬ ((asciis (chars n)).head? = some (ascii '0') ∧ 1 < (asciis (chars n)).length) := by
  rintro ⟨hhead, hlen⟩
  rw [asciis, chars, List.length_map, List.length_map] at hlen
  have hne := head?_digits (by omega) hlen
  rw [asciis, chars, List.head?_map, List.head?_map, Option.map_map, Option.map_eq_some_iff]
    at hhead
  obtain ⟨d, hd, hzero⟩ := hhead
  have hlt : d < 10 := lt_of_mem_digits (by omega) (List.mem_of_mem_head? hd)
  have hval := toNat_digitChar hlt
  rw [show ascii (digitChar d) = ascii '0' from hzero] at hval
  exact hne (hd.trans (congrArg some hval.symm))

/-- A number is written with one digit at least. -/
theorem exists_digit (n : Nat) :
    ∃ c cs, asciis (chars n) = c :: cs ∧ isDigit c = true := by
  obtain ⟨c, cs, hcs⟩ := List.exists_cons_of_ne_nil (chars_ne_nil n)
  refine ⟨ascii c, asciis cs, by rw [hcs]; rfl, isDigit_of_mem_chars (n := n) ?_⟩
  rw [hcs]
  exact List.mem_cons_self

/-- A number ends in front of `rest`. -/
def Ends (rest : Bytes) : Prop :=
  ∀ b ∈ rest.head?, isDigit b = false ∧ b ≠ ascii '.' ∧ ¬ (b = ascii 'e' ∨ b = ascii 'E')

/-- A number ends in front of any byte that does not go on with it. -/
theorem ends_cons (h : isDigit b = false ∧ b ≠ ascii '.' ∧ ¬ (b = ascii 'e' ∨ b = ascii 'E')) :
    Ends (b :: rest) := by
  intro c hc
  rw [List.head?_cons, Option.mem_some_iff] at hc
  exact hc ▸ h

/-- **A natural number** is read up to a byte that cannot belong to it. -/
theorem number_chars (n : Nat) (h : Ends rest) :
    number (asciis (chars n) ++ rest) = some (.nat n, rest) := by
  obtain ⟨c, cs, hcs, hc⟩ := exists_digit n
  -- the digits end where the number does, and neither a fraction nor an exponent is behind them
  have hdigits : (asciis (chars n) ++ rest).takeWhile isDigit = asciis (chars n) ∧
      (asciis (chars n) ++ rest).dropWhile isDigit = rest := by
    rw [List.takeWhile_append_of_pos fun x hx => isDigit_of_mem_chars hx,
      List.dropWhile_append_of_pos fun x hx => isDigit_of_mem_chars hx]
    cases rest with
    | nil => simp
    | cons b rest => simp [(h b rfl).1]
  have hfraction : skipFraction rest = some (false, rest) := by
    cases rest with
    | nil => rfl
    | cons b rest => rw [skipFraction, if_neg (h b rfl).2.1]
  have hexponent : skipExponent rest = some (false, rest) := by
    cases rest with
    | nil => rfl
    | cons b rest => rw [skipExponent, if_neg (h b rfl).2.2]
  have hne : (asciis (chars n)).isEmpty = false := by rw [hcs]; rfl
  have hunsigned : unsigned (asciis (chars n) ++ rest) = some (.nat n, rest) := by
    rw [unsigned, hdigits.1, hdigits.2, hne, if_neg (by simpa using no_zero_in_front n)]
    simp only [hfraction, hexponent, natOf_chars, bind, Option.bind]
    rfl
  -- a natural number has no sign, so it is read as it stands
  have hminus : c ≠ ascii '-' := by
    rintro rfl
    exact absurd hc (by decide)
  rw [hcs, List.cons_append] at hunsigned ⊢
  rw [number, if_neg hminus]
  exact hunsigned

end RaftReplica.Json
