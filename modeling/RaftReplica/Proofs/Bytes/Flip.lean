/-
RaftReplica/Proofs/Bytes/Flip.lean

Bytes of which one was changed.  The change shows in the number that the bytes are, and in their
checksum: one step of the check can be undone, whether it is taken for the register or for the byte,
because the polynomial has the bit that shifting leaves empty.  So two rows that differ in one byte
leave different registers behind that byte, and they stay different whatever follows.

The argument has two halves, and each is about a single bit step:

* for one register the step is injective (`shiftBit_injective`): the bit that is shifted out is the
  top bit of the result, since the polynomial is added exactly if that bit was set.  Eight such steps
  make up the step of a byte, so registers that differ before a byte differ after it (`feed_inj`);
* for one register different bytes lead to different registers (`feed_right_injective`), since a
  byte is added before the steps.

No table is used here and no property of the polynomial but its top bit.
-/
import RaftReplica.Bytes.Crc32
import RaftReplica.Bytes.Word

namespace RaftReplica

/-! ### The check, one step at a time -/

namespace Crc32

variable {r s : UInt32} {b c : UInt8}

/-- The bit that falls out, by its place. -/
theorem and_one_eq_iff : r &&& 1 = 1 ↔ r.toBitVec.getLsbD 0 = true := by
  rw [← UInt32.toBitVec_inj, UInt32.toBitVec_and]
  show r.toBitVec &&& 1#32 = 1#32 ↔ _
  rw [BitVec.and_one_eq_setWidth_ofBool_getLsbD]
  cases r.toBitVec.getLsbD 0 <;> decide

theorem toBitVec_shiftBit : (shiftBit r).toBitVec =
    if r.toBitVec.getLsbD 0 then r.toBitVec >>> 1 ^^^ 0xEDB88320#32 else r.toBitVec >>> 1 := by
  rw [shiftBit]
  simp only [and_one_eq_iff]
  split <;> simp

theorem getLsbD_shiftBit : (shiftBit r).toBitVec.getLsbD 31 = r.toBitVec.getLsbD 0 := by
  rw [toBitVec_shiftBit]
  cases r.toBitVec.getLsbD 0 <;> simp

/-- Shifting out one bit can be undone. -/
theorem shiftBit_injective : Function.Injective shiftBit := by
  intro r s h
  have hlow : r.toBitVec.getLsbD 0 = s.toBitVec.getLsbD 0 := by
    rw [← getLsbD_shiftBit, ← getLsbD_shiftBit, h]
  have hhigh : r.toBitVec >>> 1 = s.toBitVec >>> 1 := by
    have h := congrArg UInt32.toBitVec h
    rw [toBitVec_shiftBit, toBitVec_shiftBit, hlow] at h
    split at h
    · exact (BitVec.xor_left_inj _).1 h
    · exact h
  refine UInt32.toBitVec_inj.1 (BitVec.eq_of_getLsbD_eq fun i _ => ?_)
  cases i with
  | zero => exact hlow
  | succ i =>
    have hbit := congrArg (·.getLsbD i) hhigh
    simpa [Nat.add_comm] using hbit

theorem feed_inj : feed r b = feed s c ↔ r ^^^ b.toUInt32 = s ^^^ c.toUInt32 := by
  simp only [feed, shiftBit_injective.eq_iff]

theorem feed_right_injective (r : UInt32) : Function.Injective (feed r) := by
  intro b c h
  rw [feed_inj, UInt32.xor_right_inj] at h
  simpa using congrArg UInt32.toUInt8 h

/-- What follows cannot make up for a difference in the register. -/
theorem feedAll_injective (bs : Bytes) : Function.Injective (feedAll · bs) := by
  induction bs with
  | nil => exact fun _ _ h => h
  | cons b bs ih =>
    intro r s h
    have h := feed_inj.1 (ih h)
    exact (UInt32.xor_left_inj _).1 h

/-- Two rows that differ in one byte have different checksums. -/
theorem checksum_inj_of_byte {front rest : Bytes} :
    checksum (front ++ b :: rest) = checksum (front ++ c :: rest) ↔ b = c := by
  refine ⟨fun h => ?_, fun h => h ▸ rfl⟩
  have h := (UInt32.xor_left_inj _).1 h
  rw [feedAll_append, feedAll_append] at h
  exact feed_right_injective _ (feedAll_injective rest h)

end Crc32

/-! ### A changed byte -/

namespace Bytes

variable {bs cs : Bytes} {pos : Nat} {x : UInt8}

/-- The bytes with `x` taken into the one at `pos`. -/
def flip (pos : Nat) (x : UInt8) (bs : Bytes) : Bytes := bs.modify pos (· ^^^ x)

@[simp] theorem length_flip : (flip pos x bs).length = bs.length := List.length_modify _ _ _

theorem flip_append_left (h : pos < bs.length) : flip pos x (bs ++ cs) = flip pos x bs ++ cs := by
  rw [flip, flip, List.modify_eq_take_drop, List.modify_eq_take_drop,
    List.take_append_of_le_length (Nat.le_of_lt h), List.drop_append_of_le_length (Nat.le_of_lt h),
    List.drop_eq_getElem_cons h, List.append_assoc]
  rfl

theorem flip_append_right (h : bs.length ≤ pos) :
    flip pos x (bs ++ cs) = bs ++ flip (pos - bs.length) x cs := by
  rw [flip, flip, List.modify_eq_take_drop, List.modify_eq_take_drop, List.take_append,
    List.take_of_length_le h, List.drop_append, List.drop_eq_nil_of_le h, List.nil_append,
    List.append_assoc]

/-- One byte is another one then, and all others are as they were. -/
theorem exists_flip (h : pos < bs.length) (hx : x ≠ 0) : ∃ front b c rest,
    bs = front ++ b :: rest ∧ flip pos x bs = front ++ c :: rest ∧ c ≠ b := by
  obtain ⟨front, b, rest, hbs, -, hflip⟩ := List.exists_of_modify (· ^^^ x) h
  refine ⟨front, b, b ^^^ x, rest, hbs, hflip, fun hsame => hx ?_⟩
  rwa [← UInt8.xor_right_inj b, UInt8.xor_zero]

/-- Only the same bytes are the same number, if there are as many. -/
theorem eq_of_ofLittleEndian (hlen : bs.length = cs.length)
    (h : ofLittleEndian bs = ofLittleEndian cs) : bs = cs := by
  induction bs generalizing cs with
  | nil => exact (List.eq_nil_of_length_eq_zero hlen.symm).symm
  | cons b bs ih =>
    cases cs with
    | nil => exact absurd hlen (Nat.succ_ne_zero _)
    | cons c cs =>
      have hb := b.toNat_lt
      have hc := c.toNat_lt
      rw [ofLittleEndian, ofLittleEndian] at h
      rw [ih (Nat.succ.inj hlen) (by omega), UInt8.toNat_inj.1 (by omega : b.toNat = c.toNat)]

/-- The number that the bytes are is another one. -/
theorem ofBigEndian_flip_ne (h : pos < bs.length) (hx : x ≠ 0) :
    ofBigEndian (flip pos x bs) ≠ ofBigEndian bs := by
  intro hsame
  have hreverse := eq_of_ofLittleEndian (by simp) hsame
  obtain ⟨front, b, c, rest, hbs, hflip, hne⟩ := exists_flip h hx
  rw [List.reverse_inj.1 hreverse, hbs, List.append_right_inj] at hflip
  exact hne (List.cons.inj hflip).1.symm

/-- So is their checksum. -/
theorem checksum_flip_ne (h : pos < bs.length) (hx : x ≠ 0) :
    Crc32.checksum (flip pos x bs) ≠ Crc32.checksum bs := by
  obtain ⟨front, b, c, rest, hbs, hflip, hne⟩ := exists_flip h hx
  rw [hflip, hbs, ne_eq, Crc32.checksum_inj_of_byte]
  exact hne

end Bytes
end RaftReplica
