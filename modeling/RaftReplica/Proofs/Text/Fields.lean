/-
RaftReplica/Proofs/Text/Fields.lean

What the cuts of a list find when the list was put together around a separator.

There are three ways to cut: at every separator (`split`), at the first one (`cut`), and at the
first place where some other list begins (`cutAt`), which need not be a single element.  For each the
same two questions are answered.

* Put together and cut again: fields without the separator are found as they were
  (`split_intercalate`, `cut_append`, `cutAt_of_suffix`).
* Cut, and then what is known of the pieces: a field has no separator in it (`of_mem_split`,
  `notMem_of_cut`), and what is in front of a mark does not let it begin earlier
  (`cutAt_eq_some_iff`).

A mark of several elements may overlap with what stands in front of it, so that it is not enough for
the front not to contain it; `StopsAt` says what is.
-/
import RaftReplica.Text.Fields

namespace RaftReplica.Text

variable {α : Type} [DecidableEq α] {sep : α} {a b : List α}

/-- Without a separator there is one field. -/
theorem split_of_notMem (h : sep ∉ a) : split sep a = [a] := by
  induction a with
  | nil => rfl
  | cons c a ih =>
    rw [split, if_neg (List.ne_of_not_mem_cons h).symm,
      ih (List.not_mem_of_not_mem_cons h)]

/-- The first field ends at the first separator. -/
theorem split_append (h : sep ∉ a) (b : List α) : split sep (a ++ sep :: b) = a :: split sep b := by
  induction a with
  | nil => rw [List.nil_append, split, if_pos rfl]
  | cons c a ih =>
    rw [List.cons_append, split, if_neg (List.ne_of_not_mem_cons h).symm,
      ih (List.not_mem_of_not_mem_cons h)]

/-- An element that is no separator starts the first field. -/
theorem exists_split_cons {c : α} (h : c ≠ sep) (cs : List α) :
    ∃ field rest, split sep (c :: cs) = (c :: field) :: rest := by
  rw [split, if_neg h]
  cases split sep cs with
  | nil => exact ⟨[], [], rfl⟩
  | cons field rest => exact ⟨field, rest, rfl⟩

/-- What is put behind a text is put behind its last field. -/
theorem split_append_last {cs last : List α} {front : List (List α)} (hb : sep ∉ b)
    (h : split sep cs = front ++ [last]) : split sep (cs ++ b) = front ++ [last ++ b] := by
  -- along the list; what is appended goes to the last field
  induction cs generalizing front last with
  | nil =>
    have hsplit : [] ++ [[]] = front ++ [last] := h
    obtain ⟨rfl, hlast⟩ := List.append_inj' hsplit rfl
    obtain rfl := List.singleton_inj.1 hlast
    exact split_of_notMem hb
  | cons c cs ih =>
    obtain ⟨before, field, hsplit⟩ :=
      (List.eq_nil_or_concat (split sep cs)).resolve_left (split_ne_nil sep cs)
    rw [List.concat_eq_append] at hsplit
    rw [split, hsplit] at h
    rw [List.cons_append, split, ih hsplit]
    split
    · next hc =>
      rw [if_pos hc, ← List.cons_append] at h
      obtain ⟨rfl, hlast⟩ := List.append_inj' h rfl
      rw [List.singleton_inj.1 hlast]
      rfl
    · next hc =>
      rw [if_neg hc] at h
      -- the first field may be the last one
      cases before with
      | nil =>
        have hone : [] ++ [c :: field] = front ++ [last] := h
        obtain ⟨rfl, hlast⟩ := List.append_inj' hone rfl
        rw [← List.singleton_inj.1 hlast]
        rfl
      | cons first before =>
        have hmore : ((c :: first) :: before) ++ [field] = front ++ [last] := h
        obtain ⟨rfl, hlast⟩ := List.append_inj' hmore rfl
        rw [List.singleton_inj.1 hlast]
        rfl

/-- Fields that are put together with separators between them are found again. -/
theorem split_intercalate {fields : List (List α)}
    (hne : fields ≠ []) (h : ∀ field ∈ fields, sep ∉ field) :
    split sep (List.intercalate [sep] fields) = fields := by
  induction fields with
  | nil => exact absurd rfl hne
  | cons field fields ih =>
    cases fields with
    | nil => simpa [List.intercalate] using split_of_notMem (h field List.mem_cons_self)
    | cons next fields =>
      have hjoin : List.intercalate [sep] (field :: next :: fields) =
          field ++ sep :: List.intercalate [sep] (next :: fields) := by
        simp [List.intercalate]
      rw [hjoin, split_append (h field List.mem_cons_self),
        ih (List.cons_ne_nil _ _) fun f hf => h f (List.mem_cons_of_mem _ hf)]

/-- A field has no separator in it, and nothing that was not in the list. -/
theorem of_mem_split {cs field : List α} (h : field ∈ split sep cs) : field ⊆ cs ∧ sep ∉ field := by
  -- along the list, where a field begins behind each separator
  induction cs generalizing field with
  | nil =>
    obtain rfl := List.mem_singleton.1 h
    exact ⟨List.nil_subset _, List.not_mem_nil⟩
  | cons c cs ih =>
    rw [split] at h
    split at h
    · rcases List.mem_cons.1 h with rfl | h
      · exact ⟨List.nil_subset _, List.not_mem_nil⟩
      · exact ⟨List.subset_cons_of_subset _ (ih h).1, (ih h).2⟩
    · next hc =>
      obtain ⟨first, rest, hsplit⟩ := List.exists_cons_of_ne_nil (split_ne_nil sep cs)
      rw [hsplit] at h ih
      rcases List.mem_cons.1 h with rfl | h
      · obtain ⟨hsub, hnot⟩ := ih List.mem_cons_self
        exact ⟨List.cons_subset_cons _ hsub, List.not_mem_cons_of_ne_of_not_mem (Ne.symm hc) hnot⟩
      · obtain ⟨hsub, hnot⟩ := ih (List.mem_cons_of_mem _ h)
        exact ⟨List.subset_cons_of_subset _ hsub, hnot⟩

/-- A list is cut at the separator that comes first. -/
theorem cut_append (h : sep ∉ a) (b : List α) : cut sep (a ++ sep :: b) = some (a, b) := by
  induction a with
  | nil => rw [List.nil_append, cut, if_pos rfl]
  | cons c a ih =>
    rw [List.cons_append, cut, if_neg (List.ne_of_not_mem_cons h).symm,
      ih (List.not_mem_of_not_mem_cons h)]
    rfl

/-- A start that is there is dropped. -/
theorem dropStart?_append (start rest : List α) :
    dropStart? start (start ++ rest) = some rest := by
  induction start with
  | nil => rfl
  | cons s start ih => rw [List.cons_append, dropStart?, if_pos rfl, ih]

/-- A common start does not count. -/
theorem dropStart?_append_left (c a b : List α) :
    dropStart? (c ++ a) (c ++ b) = dropStart? a b := by
  induction c with
  | nil => rfl
  | cons s c ih => rw [List.cons_append, List.cons_append, dropStart?, if_pos rfl, ih]

theorem dropStart?_cons_of_ne {s c : α} (h : s ≠ c) (a b : List α) :
    dropStart? (s :: a) (c :: b) = none := by rw [dropStart?, if_neg h]

/-! ### Marks of several elements -/

/-- A start can be dropped if the list begins with it. -/
theorem dropStart?_isSome_iff {start cs : List α} : (dropStart? start cs).isSome ↔ start <+: cs := by
  refine ⟨fun h => ?_, ?_⟩
  · obtain ⟨rest, hrest⟩ := Option.isSome_iff_exists.1 h
    exact ⟨rest, (eq_of_dropStart? hrest).symm⟩
  · rintro ⟨rest, rfl⟩
    rw [dropStart?_append]
    rfl

/-- With the mark behind it, the text is not cut before its end. -/
def StopsAt (mark a : List α) : Prop := ∀ t, t <:+ a → t ≠ [] → ¬ mark <+: t ++ mark

/-- A cut is made at the first mark, and this depends on the text in front of it alone. -/
theorem cutAt_eq_some_iff {mark cs : List α} :
    cutAt mark cs = some (a, b) ↔ cs = a ++ mark ++ b ∧ StopsAt mark a := by
  have hshort (t b : List α) : mark <+: t ++ mark ++ b ↔ mark <+: t ++ mark := by
    refine ⟨fun h => ?_, fun h => h.trans (List.prefix_append _ _)⟩
    exact List.prefix_of_prefix_length_le h (List.prefix_append _ _) (by simp)
  have hnil : StopsAt mark [] := fun t ht hne => absurd (List.suffix_nil.1 ht) hne
  induction cs generalizing a with
  | nil =>
    rw [cutAt, Option.map_eq_some_iff]
    constructor
    · rintro ⟨rest, hrest, heq⟩
      obtain ⟨rfl, rfl⟩ := Prod.mk.inj heq
      exact ⟨eq_of_dropStart? hrest, hnil⟩
    · rintro ⟨heq, -⟩
      obtain ⟨hfront, rfl⟩ := List.append_eq_nil_iff.1 heq.symm
      obtain ⟨rfl, rfl⟩ := List.append_eq_nil_iff.1 hfront
      exact ⟨[], rfl, rfl⟩
  | cons c cs ih =>
    rw [cutAt]
    cases hdrop : dropStart? mark (c :: cs) with
    | some rest =>
      have heq := eq_of_dropStart? hdrop
      refine ⟨fun h => ?_, fun ⟨h, hstop⟩ => ?_⟩
      · obtain ⟨rfl, rfl⟩ := Prod.mk.inj (Option.some.inj h)
        exact ⟨heq, hnil⟩
      · cases a with
        | nil =>
          obtain rfl : rest = b := List.append_cancel_left (heq.symm.trans h)
          rfl
        | cons x a =>
          -- the mark is in front, so nothing else can be
          have hmark : mark <+: x :: a ++ mark ++ b := by
            rw [← h, heq]
            exact List.prefix_append _ _
          exact absurd ((hshort _ b).1 hmark) (hstop _ List.suffix_rfl (List.cons_ne_nil _ _))
    | none =>
      have hnot : ¬ mark <+: c :: cs := by
        rw [← dropStart?_isSome_iff, hdrop]
        simp
      rw [Option.map_eq_some_iff]
      constructor
      · rintro ⟨⟨x, y⟩, hcut, heq⟩
        obtain ⟨rfl, rfl⟩ := Prod.mk.inj heq
        obtain ⟨rfl, hstop⟩ := ih.1 hcut
        refine ⟨rfl, fun t ht hne hmark => ?_⟩
        rcases List.suffix_cons_iff.1 ht with rfl | ht
        · exact hnot ((hshort _ y).2 hmark)
        · exact hstop t ht hne hmark
      · rintro ⟨heq, hstop⟩
        cases a with
        | nil => exact absurd (heq ▸ List.prefix_append mark b) hnot
        | cons x a =>
          obtain ⟨rfl, rfl⟩ := List.cons.inj heq
          refine ⟨(a, b), ih.2 ⟨rfl, fun t ht => hstop t ?_⟩, rfl⟩
          exact ht.trans (List.suffix_cons _ _)

theorem cutAt_of_suffix {mark cs a' : List α} (h : cutAt mark cs = some (a, b)) (ha : a' <:+ a)
    (b' : List α) : cutAt mark (a' ++ mark ++ b') = some (a', b') :=
  cutAt_eq_some_iff.2 ⟨rfl, fun t ht => (cutAt_eq_some_iff.1 h).2 t (ht.trans ha)⟩

/-- In front of the first separator is none. -/
theorem notMem_of_cut {cs : List α} (h : cut sep cs = some (a, b)) : sep ∉ a := by
  induction cs generalizing a with
  | nil => exact absurd h (by simp [cut])
  | cons c cs ih =>
    rw [cut] at h
    split at h
    · obtain ⟨rfl, -⟩ := Prod.mk.inj (Option.some.inj h)
      exact List.not_mem_nil
    · next hc =>
      obtain ⟨⟨x, y⟩, hcut, heq⟩ := Option.map_eq_some_iff.1 h
      obtain ⟨rfl, rfl⟩ := Prod.mk.inj heq
      exact List.not_mem_cons_of_ne_of_not_mem (Ne.symm hc) (ih hcut)

end RaftReplica.Text
