/-
RaftReplica/Proofs/Text/Numeral.lean

Numbers read back from their decimal text, with the fewest digits or padded with zeros in front.  All
that later proofs need of a numeral is in the one equation `ofDigits? cs = some n`: it gives what
`parse?` reads, and which characters do not occur in `cs`.

Digits are produced from the last to the first and put in front of those that are there
(`digitsOnto`), with fuel for the number of digits, since each division makes the number
smaller.  Their value is the number (`value_digits`), each is below the base (`lt_of_mem_digits`),
and there are no zeros in front (`head?_digits`); the number of digits is bounded by a power of the
base (`length_digitsOnto_le`).

Reading is bounded, so a text can be a number and still be refused.  The bound stands at the use, in
`parse?_of_ofDigits?`, because the same text is read as a port, an index or a count.
-/
import Mathlib.Algebra.Group.Nat.Defs
import RaftReplica.Text.Fields
import RaftReplica.Text.Numeral

namespace RaftReplica.Numeral

variable {base fuel n k : Nat} {cs : List Char} {c : Char}

/-! ### Digits -/

/-- The digits put in front of `acc` add up to `n`. -/
theorem foldl_digitsOnto (hb : 2 ≤ base) (hf : n < fuel) (acc : List Nat) :
    (digitsOnto base fuel n acc).foldl (fun v d => v * base + d) 0 =
      acc.foldl (fun v d => v * base + d) n := by
  induction fuel generalizing n acc with
  | zero => omega
  | succ fuel ih =>
    rw [digitsOnto]
    split
    · rw [List.foldl_cons, Nat.zero_mul, Nat.zero_add]
    · next hn =>
      have hlt : n / base < n := Nat.div_lt_self (by omega) (by omega)
      rw [ih (by omega), List.foldl_cons, Nat.mul_comm, Nat.div_add_mod]

theorem value_digits (hb : 2 ≤ base) (n : Nat) : value base (digits base n) = n :=
  foldl_digitsOnto hb (Nat.lt_succ_self n) []

/-- A digit that was put in front is below the base. -/
theorem mem_digitsOnto (hb : 2 ≤ base) {acc : List Nat} {d : Nat}
    (hd : d ∈ digitsOnto base fuel n acc) : d < base ∨ d ∈ acc := by
  -- on the fuel, with the digits so far as the accumulator
  induction fuel generalizing n acc with
  | zero => exact .inr hd
  | succ fuel ih =>
    rw [digitsOnto] at hd
    split at hd
    · next hn =>
      rcases List.mem_cons.1 hd with rfl | hd
      · exact .inl hn
      · exact .inr hd
    · rcases ih hd with h | h
      · exact .inl h
      · rcases List.mem_cons.1 h with rfl | h
        · exact .inl (Nat.mod_lt _ (by omega))
        · exact .inr h

theorem lt_of_mem_digits (hb : 2 ≤ base) {d : Nat} (hd : d ∈ digits base n) : d < base :=
  (mem_digitsOnto hb hd).resolve_right (by simp)

/-- A number below a power of the base has that many digits at most. -/
theorem length_digitsOnto_le (hn : n < base ^ (k + 1)) (acc : List Nat) :
    (digitsOnto base fuel n acc).length ≤ acc.length + (k + 1) := by
  induction fuel generalizing n k acc with
  | zero => rw [digitsOnto]; omega
  | succ fuel ih =>
    rw [digitsOnto]
    split
    · rw [List.length_cons]; omega
    · next hb =>
      cases k with
      | zero => rw [Nat.zero_add, Nat.pow_one] at hn; omega
      | succ k =>
        have hlt : n / base < base ^ (k + 1) := by
          rw [Nat.pow_succ, Nat.mul_comm] at hn
          exact Nat.div_lt_of_lt_mul hn
        have hle := ih hlt (n % base :: acc)
        rw [List.length_cons] at hle
        omega

/-- With fuel enough there is at least one digit. -/
theorem digitsOnto_ne_nil (hf : n < fuel) (acc : List Nat) : digitsOnto base fuel n acc ≠ [] := by
  have hpos : ∀ fuel n acc, acc ≠ [] → digitsOnto base fuel n acc ≠ [] := by
    intro fuel
    induction fuel with
    | zero => exact fun n acc h => h
    | succ fuel ih =>
      intro n acc _
      rw [digitsOnto]
      split
      · exact List.cons_ne_nil _ _
      · exact ih _ _ (List.cons_ne_nil _ _)
  cases fuel with
  | zero => omega
  | succ fuel =>
    rw [digitsOnto]
    split
    · exact List.cons_ne_nil _ _
    · exact hpos _ _ _ (List.cons_ne_nil _ _)

theorem chars_ne_nil (n : Nat) : chars n ≠ [] := by
  rw [chars, Ne, List.map_eq_nil_iff]
  exact digitsOnto_ne_nil (Nat.lt_succ_self n) []

/-- A number below a power of ten has no more digits than its exponent tells. -/
theorem length_chars_le (hn : n < 10 ^ (k + 1)) : (chars n).length ≤ k + 1 := by
  rw [chars, List.length_map]
  refine Nat.le_trans (length_digitsOnto_le hn []) (Nat.le_of_eq ?_)
  rw [List.length_nil, Nat.zero_add]

/-- Only the number zero starts with the digit zero. -/
theorem head?_digitsOnto (hb : 2 ≤ base) (hf : n < fuel) (hn : n ≠ 0) (acc : List Nat) :
    (digitsOnto base fuel n acc).head? ≠ some 0 := by
  induction fuel generalizing n acc with
  | zero => omega
  | succ fuel ih =>
    rw [digitsOnto]
    split
    · rw [List.head?_cons, Ne, Option.some.injEq]
      exact hn
    · next hlt =>
      have hpos : 0 < n / base := Nat.div_pos (by omega) (by omega)
      have hless : n / base < n := Nat.div_lt_self (by omega) (by omega)
      exact ih (by omega) (by omega) _

/-- A number with several digits does not begin with a zero. -/
theorem head?_digits (hb : 2 ≤ base) (h : 1 < (digits base n).length) :
    (digits base n).head? ≠ some 0 := by
  refine head?_digitsOnto hb (Nat.lt_succ_self n) ?_ []
  rintro rfl
  rw [digits, digitsOnto, if_pos (by omega)] at h
  exact absurd h (by simp)

/-! ### Reading what was written -/

theorem digitValue?_digitChar {d : Nat} (hd : d < 10) : digitValue? (digitChar d) = some d := by
  have hall : ∀ d : Fin 10, digitValue? (digitChar d) = some d.val := by decide
  exact hall ⟨d, hd⟩

/-- The characters of digits are read as these digits. -/
theorem mapM_digitChar {ds : List Nat} (hds : ∀ d ∈ ds, d < 10) :
    (ds.map digitChar).mapM digitValue? = some ds := by
  induction ds with
  | nil => rfl
  | cons d ds ih =>
    rw [List.map_cons, List.mapM_cons, digitValue?_digitChar (hds d List.mem_cons_self),
      ih fun d hd => hds d (List.mem_cons_of_mem _ hd)]
    rfl

/-- The shortest numeral of a number is read as that number. -/
theorem ofDigits?_chars (n : Nat) : ofDigits? (chars n) = some n := by
  have hne : (chars n).isEmpty = false := by
    rw [← Bool.not_eq_true, List.isEmpty_iff]
    exact chars_ne_nil n
  rw [ofDigits?, hne, chars, mapM_digitChar fun d hd => lt_of_mem_digits (by omega) hd]
  exact congrArg some (value_digits (by omega) n)

/-- A zero in front changes nothing. -/
theorem ofDigits?_cons_zero (hne : cs ≠ []) : ofDigits? ('0' :: cs) = ofDigits? cs := by
  have hempty : cs.isEmpty = false := by
    rw [← Bool.not_eq_true, List.isEmpty_iff]
    exact hne
  rw [ofDigits?, ofDigits?, hempty, List.mapM_cons]
  cases cs.mapM digitValue? <;> rfl

/-- Zeros in front change nothing. -/
theorem ofDigits?_padTo (w : Nat) (hne : cs ≠ []) : ofDigits? (padTo w cs) = ofDigits? cs := by
  unfold padTo
  generalize w - cs.length = k
  induction k with
  | zero => rfl
  | succ k ih =>
    rw [List.replicate_succ, List.cons_append, ofDigits?_cons_zero, ih]
    exact fun h => hne (List.append_eq_nil_iff.1 h).2

theorem toList_padded (n : Nat) : (padded n).toList = padTo 20 (chars n) := String.toList_ofList

theorem ofDigits?_padded (n : Nat) : ofDigits? (padded n).toList = some n := by
  rw [toList_padded, ofDigits?_padTo 20 (chars_ne_nil n), ofDigits?_chars]

/-- Different numbers are padded to different texts. -/
theorem padded_injective {m n : Nat} (h : padded m = padded n) : m = n := by
  have hm := ofDigits?_padded m
  rw [h, ofDigits?_padded] at hm
  exact (Option.some.inj hm).symm

/-! ### What a numeral looks like -/

theorem ne_nil_of_ofDigits? (h : ofDigits? cs = some n) : cs ≠ [] := by
  rintro rfl
  simp [ofDigits?] at h

/-- Every character of a number is a digit. -/
theorem digitValue?_isSome_of_mem (h : ofDigits? cs = some n) (hc : c ∈ cs) :
    (digitValue? c).isSome := by
  have hmap : ∃ ds, cs.mapM digitValue? = some ds := by
    unfold ofDigits? at h
    split at h
    · exact absurd h (by simp)
    · obtain ⟨ds, hds, -⟩ := Option.map_eq_some_iff.1 h
      exact ⟨ds, hds⟩
  clear h
  induction cs with
  | nil => simp at hc
  | cons b cs ih =>
    obtain ⟨ds, hds⟩ := hmap
    rw [List.mapM_cons] at hds
    cases hb : digitValue? b with
    | none => rw [hb] at hds; simp at hds
    | some d =>
      cases hcs : cs.mapM digitValue? with
      | none => rw [hb, hcs] at hds; simp at hds
      | some ds =>
        rcases List.mem_cons.1 hc with rfl | hc
        · rw [hb]; rfl
        · exact ih hc ⟨ds, hcs⟩

/-- A character that is no digit does not occur in a numeral. -/
theorem notMem_of_ofDigits? (h : ofDigits? cs = some n) (hc : digitValue? c = none) : c ∉ cs := by
  intro hm
  have hs := digitValue?_isSome_of_mem h hm
  rw [hc] at hs
  exact absurd hs (by decide)

/-- A numeral without a sign is read if its number is not too large. -/
theorem parse?_of_ofDigits? {largest : Nat} (h : ofDigits? cs = some n) (hn : n ≤ largest) :
    parse? largest cs = some n := by
  have hplus : '+' ∉ cs := notMem_of_ofDigits? h (by decide)
  have hread : (ofDigits? cs).filter (· ≤ largest) = some n := by
    rw [h, Option.filter_some]
    simp [hn]
  unfold parse?
  cases cs with
  | nil => exact hread
  | cons c cs =>
    dsimp only
    split
    · next he => exact absurd (he ▸ List.mem_cons_self) hplus
    · exact hread

end RaftReplica.Numeral
