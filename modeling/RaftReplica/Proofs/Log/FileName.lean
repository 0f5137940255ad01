/-
RaftReplica/Proofs/Log/FileName.lean

The names of a log's files.  A segment's name is read back as what it tells, different segments have
different names, and none of them is the name of the record or of its draft.

Every name starts with the same word, so only the rest has to be told apart (`toList_text`).  Three
kinds of rest occur:

* one that starts with a letter, of a segment that is written to;
* one that starts with a digit, of a sealed segment;
* that of the record, which is neither.

The numbers in it have a fixed number of digits, but nothing here uses that: a number contains no
bar, so cutting at the first bar finds the two numbers of a range.  Reading a name back needs the
numbers to be in bounds and the range to be one (`Fits`), since the reader refuses others; that
different segments have different names needs nothing.
-/
import RaftReplica.Log.FileName
import RaftReplica.Proofs.Disk.Entries
import RaftReplica.Proofs.Text.Fields
import RaftReplica.Proofs.Text.Numeral

namespace RaftReplica.SegmentName

open Numeral Text

/-- The numbers of the name are 64-bit numbers, and a range does not end before it starts. -/
def Fits : SegmentName → Prop
  | writable first => first ≤ max64
  | sealed first last => first ≤ last ∧ last ≤ max64

/-- What follows the start that all names have. -/
def rest : SegmentName → List Char
  | writable first => "inprogress_".toList ++ (padded first).toList
  | sealed first last => (padded first).toList ++ '_' :: (padded last).toList

theorem rest_writable (first : Nat) :
    (writable first).rest = "inprogress_".toList ++ (padded first).toList := rfl

theorem rest_sealed (first last : Nat) :
    (sealed first last).rest = (padded first).toList ++ '_' :: (padded last).toList := rfl

/-- A name is the common start and what follows it. -/
theorem toList_text (n : SegmentName) : n.text.toList = start.toList ++ n.rest := by
  cases n with
  | writable first =>
    rw [text, String.toList_append]
    rfl
  | sealed first last =>
    rw [text, String.toList_append, String.toList_append, String.toList_append,
      List.append_assoc, List.append_assoc]
    rfl

/-- A padded number starts with a digit. -/
theorem exists_digit_cons (n : Nat) :
    ∃ c rest, (padded n).toList = c :: rest ∧ (digitValue? c).isSome := by
  have h := ofDigits?_padded n
  obtain ⟨c, rest, hc⟩ := List.exists_cons_of_ne_nil (ne_nil_of_ofDigits? h)
  exact ⟨c, rest, hc, digitValue?_isSome_of_mem h (hc ▸ List.mem_cons_self)⟩

/-- A number does not begin with a letter. -/
theorem dropStart?_padded {s : Char} (hs : digitValue? s = none) (word : List Char) (n : Nat)
    (rest : List Char) : dropStart? (s :: word) ((padded n).toList ++ rest) = none := by
  obtain ⟨c, cs, hc, hdigit⟩ := exists_digit_cons n
  rw [hc, List.cons_append]
  refine dropStart?_cons_of_ne ?_ _ _
  rintro rfl
  rw [hs] at hdigit
  exact absurd hdigit (by decide)

/-- No segment is named like the record. -/
theorem dropStart?_recordName (n : SegmentName) :
    dropStart? recordName.toList n.text.toList = none := by
  rw [toList_text]
  show dropStart? (start.toList ++ "meta".toList) _ = none
  rw [dropStart?_append_left]
  cases n with
  | writable first => exact dropStart?_cons_of_ne (by decide) _ _
  | sealed first last => exact dropStart?_padded (by decide) _ _ _

/-- No segment has a name that begins as the record's does. -/
theorem text_ne_of_dropStart? (n : SegmentName) {name : String}
    (h : (dropStart? recordName.toList name.toList).isSome) : n.text ≠ name := by
  rintro rfl
  rw [dropStart?_recordName] at h
  exact absurd h (by decide)

theorem ofText?_recordName : ofText? recordName = none := by decide +kernel

theorem ofText?_draft : ofText? (recordName ++ ".tmp") = none := by decide +kernel

theorem text_ne_recordName (n : SegmentName) : n.text ≠ recordName :=
  n.text_ne_of_dropStart? (by decide)

theorem text_ne_draft (n : SegmentName) : n.text ≠ recordName ++ ".tmp" :=
  n.text_ne_of_dropStart? (by decide)

/-- The name of a segment is that of an entry of a directory. -/
theorem plain_text (n : SegmentName) : Path.Plain n.text := by
  have hne : ∀ name : String, (dropStart? start.toList name.toList).isSome = false →
      n.text ≠ name := by
    rintro name h rfl
    rw [toList_text, dropStart?_append] at h
    exact absurd h (by simp)
  exact ⟨hne _ (by decide), hne _ (by decide), hne _ (by decide)⟩

/-- **Names are read back.** -/
theorem ofText?_text {n : SegmentName} (h : n.Fits) : ofText? n.text = some n := by
  rw [ofText?, ofChars?, dropStart?_recordName, if_neg (by simp)]
  cases n with
  | writable first =>
    have hread : parse64? (padded first).toList = some first :=
      parse?_of_ofDigits? (ofDigits?_padded first) h
    rw [text, String.toList_append, dropStart?_append]
    dsimp only
    rw [hread, Option.map_some]
  | sealed first last =>
    obtain ⟨hle, hmax⟩ := h
    have hfirst : parse64? (padded first).toList = some first :=
      parse?_of_ofDigits? (ofDigits?_padded first) (Nat.le_trans hle hmax)
    have hlast : parse64? (padded last).toList = some last :=
      parse?_of_ofDigits? (ofDigits?_padded last) hmax
    have hbar : '_' ∉ (padded first).toList := notMem_of_ofDigits? (ofDigits?_padded first) rfl
    have hwritable : dropStart? writableStart.toList (text (sealed first last)).toList = none := by
      rw [toList_text]
      show dropStart? (start.toList ++ "inprogress_".toList) _ = none
      rw [dropStart?_append_left]
      exact dropStart?_padded (by decide) _ _ _
    rw [hwritable]
    dsimp only
    rw [toList_text, dropStart?_append, Option.bind_some, rest_sealed, range?, cut_append hbar]
    simp only [bind, Option.bind, hfirst, hlast, if_pos hle]

/-- Different segments have different names. -/
theorem text_injective : Function.Injective text := by
  intro m n h
  have hlist := congrArg String.toList h
  rw [toList_text, toList_text, List.append_cancel_left_eq] at hlist
  -- one begins with a letter and the other with a digit
  have hkinds (first first' last : Nat) :
      (writable first).rest ≠ (sealed first' last).rest := by
    intro he
    have hnone := dropStart?_padded (s := 'i') rfl "nprogress_".toList first'
      ('_' :: (padded last).toList)
    have hsome := dropStart?_append "inprogress_".toList (padded first).toList
    rw [show "inprogress_".toList ++ (padded first).toList = _ from he] at hsome
    exact Option.some_ne_none _ (hsome.symm.trans hnone)
  cases m with
  | writable first =>
    cases n with
    | writable first' =>
      rw [rest_writable, rest_writable] at hlist
      rw [padded_injective (String.toList_injective (List.append_cancel_left hlist))]
    | sealed first' last' => exact absurd hlist (hkinds _ _ _)
  | sealed first last =>
    cases n with
    | writable first' => exact absurd hlist.symm (hkinds _ _ _)
    | sealed first' last' =>
      have hbar (k : Nat) : '_' ∉ (padded k).toList :=
        notMem_of_ofDigits? (ofDigits?_padded k) rfl
      have hcut := congrArg (cut '_') hlist
      rw [rest_sealed, rest_sealed, cut_append (hbar first), cut_append (hbar first')] at hcut
      obtain ⟨h₁, h₂⟩ := Prod.mk.inj (Option.some.inj hcut)
      rw [padded_injective (String.toList_injective h₁),
        padded_injective (String.toList_injective h₂)]

end RaftReplica.SegmentName
