/-
RaftReplica/Proofs/Log/Listing.lean

The segments of a directory, as its names tell them: which of the names are those of segments, and
what is found among them (`ofNames_eq_ok_iff`).  The order in which a directory lists its names does
not matter.

A listing is folded into what was found so far, name by name.  Three things may end it: a range that
starts at zero, a second segment to write to, and a failure to read the directory at all, which is
not a matter of names.  Everything else is passed over, whatever it is called.  So the fold succeeds
if and only if

* no name tells a segment that starts at zero, and
* at most one of them is of a segment to write to,

and then the sealed segments are those of the names, sorted by their first index.  The sorting is
stable, and sealed segments of one directory may have equal first indices if somebody else made
them; only where these differ the order of the listing is forgotten (`eq_of_perm`).
-/
import RaftReplica.Log.Segmented
import RaftReplica.Proofs.Log.Segment

namespace RaftReplica

/-! ### Segments before their files are read -/

namespace SegmentName

/-- The segment that a name tells of, before its file is read. -/
def segment (p : Path) : SegmentName → Segment
  | writable first => .fresh p first
  | sealed first last => .closed p first last

def isSealed : SegmentName → Bool
  | writable _ => false
  | sealed _ _ => true

theorem name_segment (p : Path) (n : SegmentName) : (n.segment p).name = n := by
  cases n <;> rfl

theorem first_name (s : Segment) : s.name.first = s.first := by
  unfold Segment.name
  cases s.isOpen <;> rfl

theorem isSealed_name (s : Segment) : s.name.isSealed = !s.isOpen := by
  unfold Segment.name
  cases s.isOpen <;> rfl

/-- What is read from a name fits. -/
theorem fits_of_ofText? {name : String} {n : SegmentName} (h : ofText? name = some n) :
    n.Fits := by
  -- a number is only read if it is in bounds
  have hnumber : ∀ {cs : List Char} {k : Nat}, Numeral.parse64? cs = some k →
      k ≤ Numeral.max64 := by
    intro cs k hk
    have hle := (Option.filter_eq_some_iff.1 hk).2
    simpa using hle
  unfold ofText? ofChars? at h
  split at h
  · exact absurd h (by simp)
  · split at h
    · obtain ⟨first, hfirst, rfl⟩ := Option.map_eq_some_iff.1 h
      exact hnumber hfirst
    · obtain ⟨rest, -, h⟩ := Option.bind_eq_some_iff.1 h
      obtain ⟨⟨a, b⟩, -, h⟩ := Option.bind_eq_some_iff.1 h
      obtain ⟨first, hfirst, h⟩ := Option.bind_eq_some_iff.1 h
      obtain ⟨last, hlast, h⟩ := Option.bind_eq_some_iff.1 h
      split at h
      · next hle =>
        rw [← Option.some.inj h]
        exact ⟨hle, hnumber hlast⟩
      · exact absurd h (by simp)

end SegmentName

namespace SegmentedLog.Found

open SegmentName

variable {p : Path} {f g : Found} {name : String} {names : List String}

/-- The names of segments among names. -/
def named (names : List String) : List SegmentName := names.filterMap ofText?

/-- The sealed segments that names tell of, and those that are written to. -/
def sealedOf (p : Path) (ns : List SegmentName) : List Segment :=
  (ns.filter isSealed).map (segment p)

def writableOf (p : Path) (ns : List SegmentName) : List Segment :=
  (ns.filter (!isSealed ·)).map (segment p)

/-- What was found is the same if the lists and the one to write to are. -/
theorem ext {f g : Found} (hclosed : f.closed = g.closed) (htail : f.tail.toList = g.tail.toList) :
    f = g := by
  obtain ⟨closed, tail⟩ := f
  obtain ⟨closed', tail'⟩ := g
  obtain rfl : closed = closed' := hclosed
  congr 1
  cases tail <;> cases tail' <;> simp_all

/-- The same, as an equivalence. -/
theorem eq_iff : f = g ↔ g.closed = f.closed ∧ g.tail.toList = f.tail.toList := by
  constructor
  · rintro rfl
    exact ⟨rfl, rfl⟩
  · rintro ⟨hc, ht⟩
    exact (ext hc ht).symm

/-- A row of at most one segment is that of a segment or none. -/
theorem exists_toList {ss : List Segment} (h : ss.length ≤ 1) :
    ∃ t : Option Segment, t.toList = ss := by
  match ss with
  | [] => exact ⟨none, rfl⟩
  | [s] => exact ⟨some s, rfl⟩
  | _ :: _ :: _ => simp at h

/-- When one more name is taken in, and what is found then. -/
theorem add_eq_ok_iff : f.add p name = .ok g ↔ (∀ n ∈ named [name], n.first ≠ 0) ∧
    g.closed = f.closed ++ sealedOf p (named [name]) ∧
    g.tail.toList = f.tail.toList ++ writableOf p (named [name]) := by
  unfold Found.add
  -- a name that is not that of a segment changes nothing
  cases hn : ofText? name with
  | none =>
    simp only [named, List.filterMap_cons, hn, List.filterMap_nil, sealedOf, writableOf,
      List.filter_nil, List.map_nil, List.append_nil, List.not_mem_nil, false_implies,
      implies_true, true_and, Except.ok.injEq]
    exact eq_iff
  | some n =>
    have hnamed : named [name] = [n] := by rw [named, List.filterMap_cons, hn]; rfl
    rw [hnamed]
    dsimp only
    by_cases hzero : n.first = 0
    · rw [if_pos hzero]
      simp [hzero]
    · rw [if_neg hzero]
      cases n with
      | writable first =>
        cases ht : f.tail with
        | some other =>
          -- a second segment to write to is refused
          dsimp only
          constructor
          · intro h
            exact absurd h (by simp)
          · rintro ⟨-, -, htail⟩
            cases hg : g.tail <;> simp [hg, writableOf, isSealed] at htail
        | none =>
          dsimp only
          rw [Except.ok.injEq]
          constructor
          · rintro rfl
            exact ⟨by simpa using hzero, by simp [sealedOf, isSealed], rfl⟩
          · rintro ⟨-, hc, htail⟩
            exact ext (by simpa [sealedOf, isSealed] using hc.symm) htail.symm
      | sealed first last =>
        dsimp only
        rw [Except.ok.injEq]
        constructor
        · rintro rfl
          exact ⟨by simpa using hzero, rfl, by simp [writableOf, isSealed]⟩
        · rintro ⟨-, hc, htail⟩
          exact ext hc.symm (by simpa [writableOf, isSealed] using htail.symm)

/-- When all names are taken in, and what is found then. -/
theorem foldlM_add_eq_ok_iff : names.foldlM (Found.add p) f = .ok g ↔
    (∀ n ∈ named names, n.first ≠ 0) ∧ g.closed = f.closed ++ sealedOf p (named names) ∧
    g.tail.toList = f.tail.toList ++ writableOf p (named names) := by
  -- on the listing; `f` is what was found before
  induction names generalizing f with
  | nil =>
    rw [List.foldlM_nil]
    show Except.ok f = Except.ok g ↔ _
    simp only [named, List.filterMap_nil, sealedOf, writableOf, List.filter_nil, List.map_nil,
      List.append_nil, List.not_mem_nil, false_implies, implies_true, true_and, Except.ok.injEq]
    exact eq_iff
  | cons name names ih =>
    have hsplit : named (name :: names) = named [name] ++ named names :=
      List.filterMap_append (l := [name])
    have hseal : sealedOf p (named (name :: names)) =
        sealedOf p (named [name]) ++ sealedOf p (named names) := by
      rw [hsplit, sealedOf, List.filter_append, List.map_append]
      rfl
    have hwrite : writableOf p (named (name :: names)) =
        writableOf p (named [name]) ++ writableOf p (named names) := by
      rw [hsplit, writableOf, List.filter_append, List.map_append]
      rfl
    rw [List.foldlM_cons, hseal, hwrite, hsplit]
    constructor
    · intro h
      cases hadd : f.add p name with
      | error e => rw [hadd] at h; exact absurd h (by simp [bind, Except.bind])
      | ok f₁ =>
        rw [hadd] at h
        obtain ⟨hne, hc, ht⟩ := add_eq_ok_iff.1 hadd
        obtain ⟨hne', hc', ht'⟩ := ih.1 h
        refine ⟨?_, by rw [hc', hc, List.append_assoc], by rw [ht', ht, List.append_assoc]⟩
        intro n hn
        exact (List.mem_append.1 hn).elim (hne n) (hne' n)
    · rintro ⟨hne, hc, ht⟩
      -- the first name can be taken in, since at most one is written to
      obtain ⟨tail, htail⟩ : ∃ tail : Option Segment,
          tail.toList = f.tail.toList ++ writableOf p (named [name]) := by
        apply exists_toList
        have hle := congrArg List.length ht
        rw [← List.append_assoc, List.length_append] at hle
        have hone : g.tail.toList.length ≤ 1 := by cases g.tail <;> simp
        omega
      have hadd : f.add p name = .ok ⟨f.closed ++ sealedOf p (named [name]), tail⟩ :=
        add_eq_ok_iff.2 ⟨fun n hn => hne n (List.mem_append_left _ hn), rfl, htail⟩
      rw [hadd]
      refine ih.2 ⟨fun n hn => hne n (List.mem_append_right _ hn), ?_, ?_⟩
      · rw [hc, List.append_assoc]
      · rw [ht, htail, List.append_assoc]

/-- **What is found** among names: no segment may start at zero, at most one is written to, and
the sealed ones are put in order. -/
theorem ofNames_eq_ok_iff : Found.ofNames p names = .ok f ↔
    (∀ n ∈ named names, n.first ≠ 0) ∧
    f.closed = (sealedOf p (named names)).mergeSort (fun a b => a.first ≤ b.first) ∧
    f.tail.toList = writableOf p (named names) := by
  unfold Found.ofNames
  constructor
  · intro h
    cases hfold : names.foldlM (Found.add p) {} with
    | error e => rw [hfold] at h; exact absurd h (by simp [bind, Except.bind])
    | ok g =>
      rw [hfold] at h
      obtain ⟨hne, hc, ht⟩ := foldlM_add_eq_ok_iff.1 hfold
      rw [← Except.ok.inj h]
      exact ⟨hne, by rw [hc]; rfl, ht⟩
  · rintro ⟨hne, hc, ht⟩
    have hfold : names.foldlM (Found.add p) {} = .ok ⟨sealedOf p (named names), f.tail⟩ :=
      foldlM_add_eq_ok_iff.2 ⟨hne, rfl, ht⟩
    rw [hfold]
    show Except.ok (Found.mk _ f.tail) = _
    rw [← hc]

/-! ### The order of the sealed segments -/

/-- Segments in the order of their first indexes are determined by which they are, if no two of
them start at the same index. -/
theorem eq_of_perm {ss ts : List Segment} (hperm : ss.Perm ts)
    (hss : ss.Pairwise (fun a b => a.first ≤ b.first))
    (hts : ts.Pairwise (fun a b => a.first < b.first)) : ss = ts := by
  refine hperm.eq_of_pairwise ?_ hss (hts.imp Nat.le_of_lt)
  intro a b ha hb hab hba
  have ha := hperm.subset ha
  obtain ⟨i, hi, rfl⟩ := List.getElem_of_mem ha
  obtain ⟨j, hj, rfl⟩ := List.getElem_of_mem hb
  have hlt := List.pairwise_iff_getElem.1 hts
  -- the first indices of the second list tell its elements apart
  rcases Nat.lt_trichotomy i j with hij | rfl | hij
  · have := hlt i j hi hj hij
    omega
  · rfl
  · have := hlt j i hj hi hij
    omega

/-- Sorting puts the first indices in order. -/
theorem pairwise_sorted (ss : List Segment) :
    (ss.mergeSort (fun a b => a.first ≤ b.first)).Pairwise (fun a b => a.first ≤ b.first) := by
  have h : (ss.mergeSort (fun a b => a.first ≤ b.first)).Pairwise
      (fun a b => decide (a.first ≤ b.first) = true) := by
    refine List.pairwise_mergeSort ?_ ?_ ss
    · intro a b c hab hbc
      simp only [decide_eq_true_eq] at *
      omega
    · intro a b
      simp only [Bool.or_eq_true, decide_eq_true_eq]
      omega
  exact h.imp fun hab => by simpa using hab

/-! ### Listings of other names -/

theorem mem_named {n : SegmentName} : n ∈ named names ↔ ∃ x ∈ names, ofText? x = some n :=
  List.mem_filterMap

/-- Names that tell nothing one asks for may be left out. -/
theorem filter_named {q : String → Bool} {r : SegmentName → Bool}
    (hq : ∀ x ∈ names, ∀ n, ofText? x = some n → r n = true → q x = true) :
    (named (names.filter q)).filter r = (named names).filter r := by
  rw [named, named, List.filterMap_filter, List.filter_filterMap, List.filter_filterMap]
  apply List.filterMap_congr
  intro x hx
  by_cases hqx : q x = true
  · rw [if_pos hqx]
  · rw [if_neg hqx, Option.filter_none]
    symm
    rw [Option.filter_eq_none_iff]
    intro n hn hr
    exact hqx (hq x hx n hn hr)

/-- Choosing among the sealed segments is choosing among their names. -/
theorem filter_sealedOf {ns : List SegmentName} (keep : Segment → Bool) :
    (sealedOf p ns).filter keep =
      (ns.filter fun n => n.isSealed && keep (n.segment p)).map (segment p) := by
  rw [sealedOf, List.filter_map, List.filter_filter]
  congr 2
  funext n
  rw [Bool.and_comm]
  rfl

/-- At most one name tells of a segment that is written to. -/
theorem eq_of_writable {m n : SegmentName} {x y : String}
    (hlen : (writableOf p (named names)).length ≤ 1) (hx : x ∈ names) (hy : y ∈ names)
    (hxm : ofText? x = some m) (hyn : ofText? y = some n) (hm : m.isSealed = false)
    (hn : n.isSealed = false) : x = y := by
  by_contra hne
  obtain ⟨rest, hrest⟩ : ∃ rest, names.Perm (x :: y :: rest) := by
    have hmem : y ∈ names.erase x := (List.mem_erase_of_ne (Ne.symm hne)).2 hy
    refine ⟨(names.erase x).erase y, (List.perm_cons_erase hx).trans ?_⟩
    exact (List.perm_cons_erase hmem).cons x
  have hperm := ((hrest.filterMap ofText?).filter (!isSealed ·)).length_eq
  rw [writableOf, List.length_map, named, hperm] at hlen
  simp [hxm, hyn, hm, hn] at hlen

end SegmentedLog.Found
end RaftReplica
