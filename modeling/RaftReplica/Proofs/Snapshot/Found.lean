/-
RaftReplica/Proofs/Snapshot/Found.lean

What a store finds when it is opened on a directory, whatever stands there (`Opened`).  Names are
read more freely than they are written: `snapshot_5` is taken for the snapshot that reaches to 5,
which the store itself calls `snapshot_00000000000000000005`, and so is a file of such a name.  The
store remembers indexes and no names, so it looks for what it has found where it would have put it.
The latest snapshot is therefore kept exactly if no other entry is taken for it
(`Opened.latest_iff`).

The store makes a list of the indexes of all names that it takes for snapshots, in ascending order,
and removes all but the last one.  So the proof is about this list:

* an index is in it if some name is taken for it (`mem_indexesOf_iff`);
* it is in it twice if two names are (`one_lt_count_indexesOf_iff`), and then one of the two is
  among those to be removed, whichever name was meant;
* what is removed is the directory with the proper name of the index, if it is there.

`Opened.of_removed` puts these together with what is known of the disk afterwards, for any list of
names that tells what is in the directory.  `init_opened` is the result for the call itself.
-/
import RaftReplica.Proofs.Snapshot.Reopening

namespace RaftReplica.SnapshotStore

open Disk SnapshotName

variable {d d' : Disk} {den : Location} {s : SnapshotStore} {v v₁ : Volume} {i j : Nat}
  {name : String} {names : List String}

/-- The entry is there, and is taken for the snapshot that reaches to the index. -/
structure TakenFor (d : Disk) (den : Location) (name : String) (i : Nat) : Prop where
  there : (d.item? (den ++ [name])).isSome
  finished : isTemporary name = false
  index : index? name = some i

/-- The snapshot that reaches to the index is there, where the store puts it. -/
def HasSnapshot (d : Disk) (den : Location) (i : Nat) : Prop :=
  i ≤ Numeral.max64 ∧ d.item? (den ++ [published i]) = some .directory

theorem HasSnapshot.takenFor (h : HasSnapshot d den i) : TakenFor d den (published i) i :=
  ⟨by rw [h.2]; rfl, isTemporary_published i, index?_published h.1⟩

/-! ### Names and indexes -/

/-- Two members of a list without repetition are different ones. -/
theorem one_lt_length_iff {α : Type} {xs : List α} (h : xs.Nodup) :
    1 < xs.length ↔ ∃ x ∈ xs, ∃ y ∈ xs, x ≠ y := by
  match xs, h with
  | [], _ => simp
  | [x], _ => simp
  | x :: y :: rest, h =>
    refine iff_of_true (by simp) ⟨x, by simp, y, by simp, ?_⟩
    rintro rfl
    simp at h

section

variable (hmem : ∀ name, name ∈ names ↔ (d.item? (den ++ [name])).isSome)

include hmem

/-- An index is found if a name is read as it. -/
theorem mem_indexesOf_iff : i ∈ indexesOf names ↔ ∃ name, TakenFor d den name i := by
  rw [mem_indexesOf]
  constructor
  · rintro ⟨name, hin, hnot, hindex⟩
    exact ⟨name, (hmem name).1 hin, hnot, hindex⟩
  · rintro ⟨name, h⟩
    exact ⟨name, (hmem name).2 h.there, h.finished, h.index⟩

/-- Below a name that is not there is nothing. -/
theorem item?_of_notMem (hw : d.WellFormed) (hname : name ∉ names) (rest : Location) :
    d.item? (den ++ name :: rest) = none := by
  rw [hmem, Option.not_isSome_iff_eq_none] at hname
  exact item?_of_entry hw hname rest

/-- An index is found twice if two names are read as it. -/
theorem one_lt_count_indexesOf_iff (hnodup : names.Nodup) :
    1 < (indexesOf names).count i ↔
      ∃ a b, a ≠ b ∧ TakenFor d den a i ∧ TakenFor d den b i := by
  have hcount : (indexesOf names).count i =
      (names.filter fun x => index? x == some i && !isTemporary x).length := by
    rw [indexesOf, (List.mergeSort_perm _ _).count_eq, List.count_filterMap, List.countP_filter,
      List.countP_eq_length_filter]
  -- a name counts for an index if it is read as that index and is not one of a work
  have htaken (x : String) :
      x ∈ names.filter (fun x => index? x == some i && !isTemporary x) ↔ TakenFor d den x i := by
    rw [List.mem_filter, hmem]
    constructor
    · rintro ⟨hthere, h⟩
      simp only [Bool.and_eq_true, beq_iff_eq, Bool.not_eq_true'] at h
      exact ⟨hthere, h.2, h.1⟩
    · exact fun h => ⟨h.there, by simp [h.index, h.finished]⟩
  rw [hcount, one_lt_length_iff (hnodup.filter _)]
  simp only [htaken]
  constructor
  · rintro ⟨a, ha, b, hb, hne⟩
    exact ⟨a, b, hne, ha, hb⟩
  · rintro ⟨a, b, hne, ha, hb⟩
    exact ⟨a, ha, b, hb, hne⟩

end

/-! ### Opening -/

/-- What opening a store makes of a directory on the disk `d`: the index `last` is reported, and the
disk `d'` is left. -/
structure Opened (d : Disk) (den : Location) (last : Nat) (d' : Disk) : Prop where
  /-- What is in the making is gone. -/
  unfinished : ∀ name rest, isTemporary name = true → d'.item? (den ++ name :: rest) = none
  /-- So is every snapshot but the one with the reported index. -/
  stale : ∀ i rest, i ≤ Numeral.max64 → i ≠ last → d'.item? (den ++ published i :: rest) = none
  read_le : ∀ name i, TakenFor d den name i → i ≤ last
  found : 0 < last → ∃ name, TakenFor d den name last
  /-- The snapshot with the reported index is there and stays if nothing else is taken for it, and
  else it does not. -/
  latest_iff : 0 < last → (HasSnapshot d den last ∧ SameEntry den (published last) d d' ↔
    HasSnapshot d den last ∧ ∀ name, TakenFor d den name last → name = published last)
  elsewhere : ∀ m, ¬ Below den m → d'.item? m = d.item? m

namespace Opened

variable {last : Nat} (h : Opened d den last d')
include h

theorem le_last (hi : HasSnapshot d den i) : i ≤ last := h.read_le _ _ hi.takenFor

/-- Without a latest snapshot there is none. -/
theorem not_hasSnapshot (hlast : last = 0) (hi : 0 < i) : ¬ HasSnapshot d den i := by
  intro hsnapshot
  have := h.le_last hsnapshot
  omega

end Opened

/-- What is left after the names in the making and some indexes were removed. -/
theorem Opened.of_removed (hw : d.WellFormed) (hnodup : names.Nodup)
    (hmem : ∀ name, name ∈ names ↔ (d.item? (den ++ [name])).isSome)
    (hitems : ∀ m, d'.item? m =
      if ∃ i ∈ (indexesOf names).dropLast, den ++ [published i] <+: m then none
      else if ∃ x ∈ names.filter isTemporary, den ++ [x] <+: m then none else d.item? m) :
    Opened d den ((indexesOf names).getLast?.getD 0) d' := by
  have htaken (i : Nat) : i ∈ indexesOf names ↔ ∃ name, TakenFor d den name i :=
    mem_indexesOf_iff hmem
  obtain ⟨hlast, hothers⟩ :=
    getLast?_eq_greatest (pairwise_mergeSort_le _) fun i => Iff.rfl (a := i ∈ indexesOf names)
  rw [← indexesOf] at hlast hothers
  simp only [one_lt_count_indexesOf_iff hmem hnodup] at hothers
  rw [hlast]
  -- an entry goes with everything below it
  have hentry (name : String) (rest : Location) : d'.item? (den ++ name :: rest) =
      if ∃ i ∈ (indexesOf names).dropLast, published i = name then none
      else if ∃ x ∈ names.filter isTemporary, x = name then none
      else d.item? (den ++ name :: rest) := by
    simp only [hitems, entry_prefix_iff]
  -- works go, stale snapshots go, and of the latest one it depends on its twins
  refine ⟨fun name rest hname => ?_, fun i rest hi hne => ?_,
    fun name i h => le_greatest ((htaken i).2 ⟨name, h⟩), fun hpos => ?_, fun _ => ?_,
    fun m hm => ?_⟩
  · rw [hentry]
    by_cases hin : name ∈ names
    · exact ite_eq_left_iff.2 fun _ => if_pos ⟨name, List.mem_filter.2 ⟨hin, hname⟩, rfl⟩
    · rw [item?_of_notMem hmem hw hin, ite_self, ite_self]
  · rw [hentry]
    by_cases hin : published i ∈ names
    · have htakenFor : TakenFor d den (published i) i :=
        ⟨(hmem _).1 hin, isTemporary_published i, index?_published hi⟩
      exact if_pos ⟨i, (hothers i).2 ⟨(htaken i).2 ⟨_, htakenFor⟩, .inl hne⟩, rfl⟩
    · rw [item?_of_notMem hmem hw hin, ite_self, ite_self]
  · refine (htaken _).1 (greatest_mem fun hnil => ?_)
    rw [hnil] at hpos
    exact absurd hpos (Nat.lt_irrefl 0)
  · refine and_congr_right fun hsnapshot => ⟨fun hsame name hname => ?_, fun hunique rest => ?_⟩
    · by_contra hne
      have hremoved := (hothers _).2 ⟨(htaken _).2 ⟨_, hname⟩,
        .inr ⟨_, _, hne, hname, hsnapshot.takenFor⟩⟩
      have hgone := hentry (published (greatest (indexesOf names))) []
      rw [if_pos ⟨_, hremoved, rfl⟩, hsame [], hsnapshot.2] at hgone
      cases hgone
    · rw [hentry, if_neg, if_neg]
      · rintro ⟨x, hx, rfl⟩
        have htemporary := (List.mem_filter.1 hx).2
        rw [isTemporary_published] at htemporary
        cases htemporary
      · rintro ⟨i, hi, he⟩
        rw [published_injective he] at hi
        obtain ⟨-, hne | ⟨a, b, hne, ha, hb⟩⟩ := (hothers _).1 hi
        · exact hne rfl
        · exact hne ((hunique a ha).trans (hunique b hb).symm)
  · rw [hitems, if_neg, if_neg]
    · rintro ⟨x, -, hx⟩
      exact (below_entry x).not_isPrefix hm hx
    · rintro ⟨i, -, hi⟩
      exact (below_entry _).not_isPrefix hm hi

/-- **A store that is opened on any directory**, to which its path leads whatever is in it, reports
the greatest index that a name is read as.  What it published with that index is kept exactly if no
other name is read so. -/
theorem init_opened (hw : v.disk.WellFormed)
    (hmake : (Volume.makeDirectories s.directory).runOn v = (.ok (), v₁))
    (hroot : Rooted v₁.disk.item? den s.directory) :
    ∃ m', init.runOn ⟨s, v⟩ = (.ok (), m') ∧ Opened v₁.disk den m'.store.last m'.volume.disk ∧
      (∀ i, HasSnapshot v₁.disk den i → i ≤ m'.store.last) ∧
      (m'.store.last = 0 → ∀ i, 0 < i → ¬ HasSnapshot v₁.disk den i) ∧
      ((∃ l, v.disk.directoryAt s.directory = .ok l) → v₁ = v) := by
  have hw₁ := Volume.preserves_makeDirectories s.directory v hw
  rw [hmake] at hw₁
  have leads := hroot v₁.disk (.refl hw₁)
  obtain ⟨names, hlist, hnodup, hmem⟩ := exists_list hw₁ leads
  obtain ⟨v', hrun, -, -, hitems⟩ := runOn_init_listed s hw₁ hroot hlist
  have hopened := Opened.of_removed hw₁ hnodup hmem hitems
  rw [← runOn_init_made hmake leads] at hrun
  refine ⟨_, hrun, hopened, fun i => hopened.le_last, fun hlast i => hopened.not_hasSnapshot hlast, ?_⟩
  rintro ⟨l, home⟩
  rw [Volume.runOn_makeDirectories home] at hmake
  exact (Prod.mk.inj hmake).2.symm

/-- A directory at the top is found. -/
theorem directoryAt_top {p : Path} (hn : Path.Plain name) (hp : p.isEmpty = false)
    (hparts : p.parts = [name]) (hi : d.item? [name] = some .directory) :
    d.directoryAt p = .ok [name] := by
  refine directoryAt_eq_ok_iff.2 ⟨?_, item?_eq_directory_iff.1 hi⟩
  rw [locate, hp, hparts]
  show Except.ok (step [] name) = _
  rw [step_plain hn]
  rfl

/-- Nothing in it matters for the way to it. -/
theorem rooted_at_top {p : Path} (hn : Path.Plain name) (hp : p.isEmpty = false)
    (hparts : p.parts = [name]) (hi : d.item? [name] = some .directory) :
    Rooted d.item? [name] p := fun d' ho =>
  directoryAt_top hn hp hparts (by rw [ho.item? _ fun hb => hb.2 rfl, hi])

/-- A snapshot, an older one, and what a writer has left. -/
def leftovers : Disk :=
  Disk.empty.replay [.makeDirectory ["s"], .makeDirectory ["s", published 2],
    .makeDirectory ["s", published 5], .create ["s", published 5, "blob"],
    .makeDirectory ["s", "temp_3"]]

/-- The snapshot stays, and the rest goes. -/
theorem init_opened_leftovers : ∃ m',
    init.runOn ⟨{ directory := .ofText "s", sync := false }, .ofDisk leftovers⟩ = (.ok (), m') ∧
      m'.store.last = 5 ∧ SameEntry ["s"] (published 5) leftovers m'.volume.disk ∧
      m'.volume.disk.item? ["s", published 2] = none ∧
      m'.volume.disk.item? ["s", "temp_3"] = none := by
  have hw : leftovers.WellFormed := wellFormed_replay _
  have hmake : (Volume.makeDirectories (.ofText "s")).runOn (.ofDisk leftovers) =
      (.ok (), .ofDisk leftovers) :=
    Volume.runOn_makeDirectories (l := ["s"]) (by decide +kernel)
  have hroot : Rooted leftovers.item? ["s"] (.ofText "s") :=
    rooted_at_top ⟨by decide, by decide, by decide⟩ rfl (by decide) (by decide +kernel)
  obtain ⟨m', hrun, hopened, hle, -⟩ :=
    init_opened (s := { directory := .ofText "s", sync := false }) hw hmake hroot
  have hfive : HasSnapshot leftovers ["s"] 5 := ⟨by decide, by decide +kernel⟩
  -- there are no names but these three
  have hnames (name : String) (h : (leftovers.item? (["s"] ++ [name])).isSome) :
      name ∈ [published 2, published 5, "temp_3"] := by
    obtain ⟨names, hlist, -, hmem⟩ := exists_list (p := .ofText "s") hw (hroot _ (.refl hw))
    have hthree : leftovers.list (.ofText "s") = .ok [published 2, published 5, "temp_3"] := by
      decide +kernel
    obtain rfl := Except.ok.inj (hthree.symm.trans hlist)
    exact (hmem name).2 h
  have htaken (name : String) (i : Nat) (h : TakenFor leftovers ["s"] name i) :
      (name = published 2 ∧ i = 2) ∨ (name = published 5 ∧ i = 5) := by
    obtain ⟨hthere, hfinished, hindex⟩ := h
    have hin := hnames name hthere
    simp only [List.mem_cons, List.not_mem_nil, or_false] at hin
    rcases hin with rfl | rfl | rfl
    · exact .inl ⟨rfl, Option.some.inj (hindex.symm.trans (index?_published (by decide)))⟩
    · exact .inr ⟨rfl, Option.some.inj (hindex.symm.trans (index?_published (by decide)))⟩
    · exact absurd hfinished (by decide)
  have hlast : m'.store.last = 5 := by
    have hpos := hle 5 hfive
    obtain ⟨name, hname⟩ := hopened.found (by omega)
    rcases htaken _ _ hname with ⟨-, h⟩ | ⟨-, h⟩ <;> omega
  refine ⟨m', hrun, hlast, ?_, hopened.stale 2 [] (by decide) (by omega),
    hopened.unfinished "temp_3" [] (by decide)⟩
  have hkept := (hopened.latest_iff (by omega)).2
  rw [hlast] at hkept
  refine (hkept ⟨hfive, fun name hname => ?_⟩).2
  rcases htaken _ _ hname with ⟨-, h⟩ | ⟨h, -⟩
  · nomatch h
  · exact h

/-- A snapshot, and a directory whose name is read as the same index. -/
def doubled : Disk :=
  Disk.empty.replay [.makeDirectory ["s"], .makeDirectory ["s", published 5],
    .create ["s", published 5, "blob"], .makeDirectory ["s", "snapshot_5"]]

/-- The snapshot is reported as the latest one, and removed. -/
theorem init_removes_latest : doubled.WellFormed ∧ HasSnapshot doubled ["s"] 5 ∧ ∃ m',
    init.runOn ⟨{ directory := .ofText "s", sync := false }, .ofDisk doubled⟩ = (.ok (), m') ∧
      m'.store.last = 5 ∧ m'.volume.disk.item? ["s", published 5] = none := by
  have hw : doubled.WellFormed := wellFormed_replay _
  have hroot : Rooted doubled.item? ["s"] (.ofText "s") :=
    rooted_at_top ⟨by decide, by decide, by decide⟩ rfl (by decide) (by decide +kernel)
  have hindexes : indexesOf [published 5, "snapshot_5"] = [5, 5] := by
    have hread : ([published 5, "snapshot_5"].filter (!isTemporary ·)).filterMap index? = [5, 5] := by
      decide +kernel
    rw [indexesOf, hread, List.mergeSort_of_pairwise (by decide)]
  have hlist : doubled.list (.ofText "s") = .ok [published 5, "snapshot_5"] := by decide +kernel
  obtain ⟨v', hrun, -, -, hitems⟩ := runOn_init_listed (v := .ofDisk doubled)
    { directory := .ofText "s", sync := false } hw hroot hlist
  rw [hindexes] at hrun hitems
  refine ⟨hw, ⟨by decide, by decide +kernel⟩, _, hrun, rfl, ?_⟩
  rw [hitems, if_pos ⟨5, by simp, List.prefix_refl _⟩]

end RaftReplica.SnapshotStore
