/-
RaftReplica/Proofs/Snapshot/Shelf.lean

A store of snapshots while it is used.  Whoever reads a snapshot has a claim on it, and the store
itself has one on the latest.  The directory of the store holds the snapshots that are claimed, the
counts say how often, and beside them are the works, the snapshots in the making (`Shelved`).

What an action does to the store is said by the claims and the works that it leaves.  It also leaves
alone what is claimed before and after, and the works of others (`Kept`).

Claims and works are lists, and only their members count, claims as often as they are there; so both
may be permuted (`Shelved.perm`), and whoever uses the store puts its own in front.  The actions are:

* holding adds a claim on a snapshot that has one already (`runOn_hold`);
* releasing takes one away (`runOn_release`), and with the last one the snapshot is removed;
* opening holds and reads the table, and releases again if it is not read (`runOn_openAt`);
* creating adds a work (`runOn_create`) and abandoning takes it away (`runOn_abandon`).

An entry of the directory goes with everything below it, so it is said of whole entries that they
are the same before and after (`SameEntry`).
-/
import RaftReplica.Proofs.Snapshot.Outside
import RaftReplica.Proofs.Table

namespace RaftReplica

open Disk

/-! ### Entries that stay -/

namespace Disk

variable {d d' d'' : Disk} {l : Location} {name : String} {k : Nat} {bs : Bytes}

/-- No entry of a directory is below another one. -/
theorem not_below_entry (a b : String) : ¬ Below (l ++ [a]) (l ++ [b]) := by
  intro hb
  obtain rfl := entry_prefix_iff.1 hb.1
  exact hb.2 rfl

/-- An entry that is not there has nothing below it. -/
theorem item?_of_entry (hw : d.WellFormed) (h : d.item? (l ++ [name]) = none) (rest : Location) :
    d.item? (l ++ name :: rest) = none := by
  cases rest with
  | nil => exact h
  | cons other rest =>
    rw [List.append_cons]
    exact item?_of_below hw (by rw [h]; simp) (below_append (by simp))

/-- The entry of a directory is the same on both disks, with all that is below it. -/
def SameEntry (l : Location) (name : String) (d d' : Disk) : Prop :=
  ∀ rest, d'.item? (l ++ name :: rest) = d.item? (l ++ name :: rest)

namespace SameEntry

theorem of_eq (h : d'.item? = d.item?) : SameEntry l name d d' := fun _ => by rw [h]

theorem trans (h : SameEntry l name d d') (h' : SameEntry l name d' d'') :
    SameEntry l name d d'' := fun rest => (h' rest).trans (h rest)

theorem of_outside {other : String} (h : Outside d.item? (l ++ [other]) d') (hne : other ≠ name) :
    SameEntry l name d d' :=
  fun _ => h.item? _ fun hb => hne (entry_prefix_iff.1 hb.1)

theorem of_removed {other : String}
    (h : ∀ m, d'.item? m = if l ++ [other] <+: m then none else d.item? m) (hne : other ≠ name) :
    SameEntry l name d d' := fun rest => by rw [h, if_neg (mt entry_prefix_iff.1 hne)]

theorem self (h : SameEntry l name d d') : d'.item? (l ++ [name]) = d.item? (l ++ [name]) := h []

/-- What is right below an entry is the same. -/
theorem below (h : SameEntry l name d d') (other : String) :
    d'.item? (l ++ [name] ++ [other]) = d.item? (l ++ [name] ++ [other]) := by
  rw [List.append_assoc]
  exact h [other]

end SameEntry
end Disk

/-! ### Names -/

theorem Path.entry_injective {p : Path} {a b : String} (h : p.entry a = p.entry b) : a = b := by
  have hbelow := congrArg Path.below h
  rwa [Path.below_entry, Path.below_entry, append_name_inj] at hbelow

namespace SnapshotName

/-- Works are told apart by their numbers. -/
theorem temporary_injective {i j : Nat} (h : temporary i = temporary j) : i = j := by
  have hlist := congrArg String.toList h
  rw [temporary, temporary, String.toList_append, String.toList_append (s := _ ++ _),
    List.append_cancel_left_eq, Numeral.text, Numeral.text, String.toList_ofList,
    String.toList_ofList] at hlist
  have hread := Numeral.ofDigits?_chars i
  rw [hlist, Numeral.ofDigits?_chars] at hread
  exact (Option.some.inj hread).symm

/-- No work has the name of a snapshot. -/
theorem temporary_ne_published (n i : Nat) : temporary n ≠ published i := by
  intro he
  have hname := isTemporary_temporary n
  rw [he, isTemporary_published] at hname
  exact absurd hname (by simp)

theorem plain_temporary (n : Nat) : Path.Plain (temporary n) :=
  plain_of_isTemporary (isTemporary_temporary n)

end SnapshotName

namespace SnapshotStore

open SnapshotName

variable {d d' d'' : Disk} {den : Location} {p q : Path} {s s' : SnapshotStore} {v : Volume}
  {claims claims' : List Nat} {works works' : List Path} {i n : Nat}

/-! ### What is kept -/

/-- The snapshots that are claimed and the works are the same on both disks. -/
structure Kept (den : Location) (p : Path) (d d' : Disk) (claims : List Nat) (works : List Path) :
    Prop where
  snapshots : ∀ i ∈ claims, SameEntry den (published i) d d'
  works : ∀ n, p.entry (temporary n) ∈ works → SameEntry den (temporary n) d d'

namespace Kept

theorem of_eq (h : d'.item? = d.item?) : Kept den p d d' claims works :=
  ⟨fun _ _ => .of_eq h, fun _ _ => .of_eq h⟩

/-- What is kept twice is kept. -/
theorem trans (h : Kept den p d d' claims works) (h' : Kept den p d' d'' claims works) :
    Kept den p d d'' claims works :=
  ⟨fun i hi => (h.snapshots i hi).trans (h'.snapshots i hi),
    fun n hn => (h.works n hn).trans (h'.works n hn)⟩

theorem mono (h : Kept den p d d' claims works) (hc : claims' ⊆ claims) (hw : works' ⊆ works) :
    Kept den p d d' claims' works' :=
  ⟨fun i hi => h.snapshots i (hc hi), fun n hn => h.works n (hw hn)⟩

theorem right (h : Kept den p d d' (claims' ++ claims) works) : Kept den p d d' claims works :=
  h.mono (List.subset_append_right claims' claims) (List.Subset.refl works)

/-- One of the works was changed, and it is not among those that are kept. -/
theorem of_outside (h : Outside d.item? (den ++ [temporary n]) d')
    (hn : p.entry (temporary n) ∉ works) : Kept den p d d' claims works := by
  refine ⟨fun i _ => .of_outside h (temporary_ne_published n i), fun m hm => .of_outside h ?_⟩
  intro he
  exact hn (he ▸ hm)

/-- One of the works was removed. -/
theorem of_removed
    (h : ∀ m, d'.item? m = if den ++ [temporary n] <+: m then none else d.item? m)
    (hn : p.entry (temporary n) ∉ works) : Kept den p d d' claims works := by
  refine ⟨fun i _ => .of_removed h (temporary_ne_published n i), fun m hm => .of_removed h ?_⟩
  intro he
  exact hn (he ▸ hm)

end Kept

/-! ### Claims and works -/

/-- The directory of the store holds the snapshots that are claimed, counted as often as they are,
and each of the works has a directory of its own. -/
structure Shelved (d : Disk) (den : Location) (s : SnapshotStore) (claims : List Nat)
    (works : List Path) : Prop where
  wellFormed : d.WellFormed
  rooted : Rooted d.item? den s.directory
  shelf : ∀ i, d.item? (den ++ [published i]) = if i ∈ claims then some .directory else none
  holders : ∀ i, s.holders.get? i = if i ∈ claims then some (claims.count i) else none
  bounds : ∀ i ∈ claims, 1 ≤ i ∧ i ≤ Numeral.max64
  names : ∀ name, (d.item? (den ++ [name])).isSome →
    (∃ i, name = published i) ∨ ∃ n < s.nextTemporary, name = temporary n
  nodup : works.Nodup
  made : ∀ q ∈ works, ∃ n < s.nextTemporary, q = s.directory.entry (temporary n) ∧
    d.item? (den ++ [temporary n]) = some .directory

namespace Shelved

section

variable (h : Shelved d den s claims works)

include h

theorem leads : d.directoryAt s.directory = .ok den := h.rooted d (.refl h.wellFormed)

/-- In which order the claims and the works are told does not matter. -/
theorem perm (hc : claims.Perm claims') (hw : works.Perm works') :
    Shelved d den s claims' works' := by
  refine ⟨h.wellFormed, h.rooted, fun i => ?_, fun i => ?_, fun i hi => h.bounds i (hc.mem_iff.2 hi),
    h.names, hw.nodup_iff.1 h.nodup, fun q hq => h.made q (hw.mem_iff.2 hq)⟩
  · rw [h.shelf]
    simp only [hc.mem_iff]
  · rw [h.holders, hc.count_eq]
    simp only [hc.mem_iff]

/-- Nothing else of the store matters. -/
theorem withStore (s' : SnapshotStore) (hd : s'.directory = s.directory)
    (hh : s'.holders = s.holders) (hn : s'.nextTemporary = s.nextTemporary) :
    Shelved d den s' claims works := by
  refine ⟨h.wellFormed, hd ▸ h.rooted, h.shelf, hh ▸ h.holders, h.bounds, hn ▸ h.names, h.nodup, ?_⟩
  rw [hd, hn]
  exact h.made

theorem sub (hw : works'.Sublist works) : Shelved d den s claims works' :=
  ⟨h.wellFormed, h.rooted, h.shelf, h.holders, h.bounds, h.names, h.nodup.sublist hw,
    fun q hq => h.made q (hw.subset hq)⟩

/-- What is below the entries does not matter. -/
theorem withEntries (hw : d'.WellFormed) (hr : Rooted d'.item? den s.directory)
    (hi : ∀ name, d'.item? (den ++ [name]) = d.item? (den ++ [name])) :
    Shelved d' den s claims works := by
  refine ⟨hw, hr, fun i => (hi _).trans (h.shelf i), h.holders, h.bounds, fun name hname => ?_,
    h.nodup, fun q hq => ?_⟩
  · exact h.names name (by rwa [hi] at hname)
  · obtain ⟨n, hn, hqn, hdir⟩ := h.made q hq
    exact ⟨n, hn, hqn, (hi _).trans hdir⟩

/-- What is changed inside of one entry does not matter. -/
theorem inside {name : String} (ho : Outside d.item? (den ++ [name]) d') :
    Shelved d' den s claims works :=
  h.withEntries ho.wellFormed (h.rooted.outside ho.of_entry)
    fun other => ho.item? _ (not_below_entry name other)

theorem item?_published (hi : i ∈ claims) : d.item? (den ++ [published i]) = some .directory := by
  rw [h.shelf, if_pos hi]

theorem item?_published_of_notMem (hi : i ∉ claims) : d.item? (den ++ [published i]) = none := by
  rw [h.shelf, if_neg hi]

/-- The store finds exactly the snapshots that are claimed. -/
theorem isThere_place (i : Nat) : d.isThere (s.place i) = decide (i ∈ claims) := by
  rw [isThere, place, lookup_entry h.leads (plain_published i)]
  by_cases hi : i ∈ claims
  · rw [item?_eq_directory_iff.1 (h.item?_published hi), decide_eq_true hi]
    rfl
  · rw [item?_eq_none_iff.1 (h.item?_published_of_notMem hi), decide_eq_false hi]
    rfl

/-- A snapshot that is there neither before nor after has not changed. -/
theorem sameEntry_of_notMem (h' : Shelved d' den s' claims' works') (hi : i ∉ claims)
    (hi' : i ∉ claims') : SameEntry den (published i) d d' := fun rest => by
  rw [item?_of_entry h.wellFormed (h.item?_published_of_notMem hi),
    item?_of_entry h'.wellFormed (h'.item?_published_of_notMem hi')]

/-- The next work has a name that is not taken. -/
theorem item?_next : d.item? (den ++ [temporary s.nextTemporary]) = none := by
  rw [← Option.not_isSome_iff_eq_none]
  intro hsome
  rcases h.names _ hsome with ⟨i, hi⟩ | ⟨n, hn, he⟩
  · exact temporary_ne_published _ i hi
  · have := temporary_injective he
    omega

/-- The next work is a new one. -/
theorem next_notMem : s.directory.entry (temporary s.nextTemporary) ∉ works := by
  intro hmem
  obtain ⟨n, hn, he, -⟩ := h.made _ hmem
  have := temporary_injective (Path.entry_injective he)
  omega

/-- A name that is removed can no longer be found, and others can. -/
theorem rooted_of_removed {name : String} (hw : d'.WellFormed)
    (hi : ∀ m, d'.item? m = if den ++ [name] <+: m then none else d.item? m) :
    Rooted d'.item? den s.directory :=
  h.rooted.outside ⟨hw, fun m hm => by rw [hi, if_neg ((below_entry name).not_isPrefix hm)]⟩

end

/-! ### Holding -/

/-- Who holds a snapshot that is claimed has one more claim on it. -/
theorem runOn_hold (h : Shelved v.disk den s claims works) (hi : i ∈ claims) : ∃ holders,
    (hold i).runOn ⟨s, v⟩ = (.ok (), ⟨{ s with holders }, v⟩) ∧
      Shelved v.disk den { s with holders } (i :: claims) works := by
  refine ⟨s.holders.insert i (claims.count i + 1), ?_, h.wellFormed, h.rooted, fun j => ?_,
    fun j => ?_, fun j hj => ?_, h.names, h.nodup, h.made⟩
  · rw [hold, Act.runOn_bind_ok (Mounted.runOn_stored _)]
    dsimp only
    rw [h.holders, if_pos hi]
    rfl
  · rw [h.shelf]
    by_cases hj : j = i <;> simp [hj, hi]
  · rw [Table.get?_insert, h.holders]
    by_cases hj : j = i
    · simp [hj, Table.sameKey_nat_iff]
    · simp [Table.sameKey_nat_iff, hj, List.count_cons_of_ne (Ne.symm hj)]
  · rcases List.mem_cons.1 hj with rfl | hj
    · exact h.bounds _ hi
    · exact h.bounds j hj

/-- A snapshot that nobody claims cannot be held. -/
theorem runOn_hold_unclaimed (h : Shelved v.disk den s claims works) (hi : i ∉ claims) :
    (hold i).runOn ⟨s, v⟩ = (.error (.error (.notFound (.snapshot i))), ⟨s, v⟩) := by
  rw [hold, Act.runOn_bind_ok (Mounted.runOn_stored _)]
  dsimp only
  rw [h.holders, if_neg hi]
  rfl

/-- Who lets a snapshot go that others have a claim on as well leaves it to them. -/
theorem runOn_release_claimed (h : Shelved v.disk den s (i :: claims) works) (hi : i ∈ claims) :
    ∃ holders, (release i).runOn ⟨s, v⟩ = (.ok (), ⟨{ s with holders }, v⟩) ∧
      Shelved v.disk den { s with holders } claims works := by
  have hpos := List.count_pos_iff.2 hi
  refine ⟨s.holders.insert i (claims.count i), ?_, h.wellFormed, h.rooted, fun j => ?_,
    fun j => ?_, fun j hj => h.bounds j (.tail _ hj), h.names, h.nodup, h.made⟩
  · rw [release, Act.runOn_bind_ok (Mounted.runOn_stored _)]
    dsimp only
    rw [h.holders, if_pos List.mem_cons_self, List.count_cons_self]
    dsimp only
    rw [if_pos (by omega)]
    rfl
  · rw [h.shelf]
    by_cases hj : j = i <;> simp [hj, hi]
  · rw [Table.get?_insert, h.holders]
    by_cases hj : j = i
    · simp [hj, hi, Table.sameKey_nat_iff]
    · simp [Table.sameKey_nat_iff, hj, List.count_cons_of_ne (Ne.symm hj)]

/-- With the last claim on it a snapshot is removed, and nothing else. -/
theorem runOn_release_last (h : Shelved v.disk den s (i :: claims) works) (hi : i ∉ claims) :
    ∃ holders v', (release i).runOn ⟨s, v⟩ = (.ok (), ⟨{ s with holders }, v'⟩) ∧
      Shelved v'.disk den { s with holders } claims works ∧
      Kept den s.directory v.disk v'.disk claims works := by
  obtain ⟨v', hdiscard, hw', hitems⟩ := Volume.runOn_discard h.leads (plain_published i) h.wellFormed
  -- the directory of the snapshot goes, and every other entry stays
  have hsame (name : String) (hne : published i ≠ name) : SameEntry den name v.disk v'.disk :=
    .of_removed hitems hne
  refine ⟨s.holders.erase i, v', ?_, ⟨hw', h.rooted_of_removed hw' hitems, fun j => ?_,
    fun j => ?_, fun j hj => h.bounds j (.tail _ hj), fun name hname => ?_, h.nodup,
    fun q hq => ?_⟩, fun j hj => ?_, fun n _ => hsame _ (temporary_ne_published n i).symm⟩
  · rw [release, Act.runOn_bind_ok (Mounted.runOn_stored _)]
    dsimp only
    rw [h.holders, if_pos List.mem_cons_self, List.count_cons_self]
    dsimp only
    rw [List.count_eq_zero_of_not_mem hi, if_neg (by omega),
      Act.runOn_bind_ok (Mounted.runOn_update _ _)]
    exact Mounted.runOn_onVolume_ok hdiscard
  · by_cases hj : j = i
    · rw [hj, hitems, if_pos (List.prefix_refl _), if_neg hi]
    · rw [(hsame _ fun he => hj (published_injective he).symm).self, h.shelf]
      simp [hj]
  · rw [Table.get?_erase, h.holders]
    by_cases hj : j = i
    · simp [hj, hi, Table.sameKey_nat_iff]
    · simp [Table.sameKey_nat_iff, hj, List.count_cons_of_ne (Ne.symm hj)]
  · refine h.names name ?_
    rw [hitems] at hname
    split at hname
    · exact absurd hname (by simp)
    · exact hname
  · obtain ⟨n, hn, hqn, hdir⟩ := h.made q hq
    exact ⟨n, hn, hqn, (hsame _ (temporary_ne_published n i).symm).self.trans hdir⟩
  · refine hsame _ fun he => hi ?_
    rwa [published_injective he]

/-- **Who lets a snapshot go** has one claim less on it; after the last one it is removed. -/
theorem runOn_release (h : Shelved v.disk den s (i :: claims) works) : ∃ holders v',
    (release i).runOn ⟨s, v⟩ = (.ok (), ⟨{ s with holders }, v'⟩) ∧
      Shelved v'.disk den { s with holders } claims works ∧
      Kept den s.directory v.disk v'.disk claims works := by
  by_cases hi : i ∈ claims
  · obtain ⟨holders, hrun, h'⟩ := h.runOn_release_claimed hi
    exact ⟨holders, v, hrun, h', .of_eq rfl⟩
  · exact h.runOn_release_last hi

/-- Whatever comes of reading a table, nothing changes by it. -/
theorem runOn_attempt_load (s : SnapshotStore) (v : Volume) (file : Path) :
    (Mounted.onVolume (Record.load (α := SnapshotTable) file)).attempt.runOn ⟨s, v⟩ =
      (.ok ((Record.read file v.disk).mapError Failure.error), ⟨s, v⟩) := by
  simp only [Act.runOn_attempt, Mounted.runOn_onVolume, Record.load, Act.runOn_reading]

/-- What is held is opened if its table can be read. -/
theorem runOn_openAt_read {table : SnapshotTable}
    (hhold : (hold i).runOn ⟨s, v⟩ = (.ok (), ⟨s', v⟩))
    (hread : Record.read (SnapshotTable.file (s'.place i)) v.disk = .ok table) :
    (openAt i).runOn ⟨s, v⟩ = (.ok ⟨i, s'.place i, table⟩, ⟨s', v⟩) := by
  have hload := runOn_attempt_load s' v (SnapshotTable.file (s'.place i))
  rw [hread] at hload
  rw [openAt, Act.runOn_bind_ok hhold, Act.runOn_bind_ok (Mounted.runOn_stored _)]
  exact Act.runOn_bind_ok hload

/-- If it cannot be read, what was held is let go again. -/
theorem runOn_openAt_unread {e : Error} {m : Mounted SnapshotStore}
    (hhold : (hold i).runOn ⟨s, v⟩ = (.ok (), ⟨s', v⟩))
    (hread : Record.read (α := SnapshotTable) (SnapshotTable.file (s'.place i)) v.disk = .error e)
    (hrelease : (release i).runOn ⟨s', v⟩ = (.ok (), m)) :
    (openAt i).runOn ⟨s, v⟩ = (.error (.error e), m) := by
  have hload := runOn_attempt_load s' v (SnapshotTable.file (s'.place i))
  rw [hread] at hload
  rw [openAt, Act.runOn_bind_ok hhold, Act.runOn_bind_ok (Mounted.runOn_stored _)]
  exact (Act.runOn_bind_ok hload).trans (Act.runOn_bind_ok hrelease)

/-- **Opening a snapshot** adds a claim, or fails and changes no claim. -/
theorem runOn_openAt (h : Shelved v.disk den s claims works) (i : Nat) :
    (∃ table holders, (openAt i).runOn ⟨s, v⟩ =
        (.ok ⟨i, s.place i, table⟩, ⟨{ s with holders }, v⟩) ∧ i ∈ claims ∧
      Record.read (SnapshotTable.file (s.place i)) v.disk = .ok table ∧
      Shelved v.disk den { s with holders } (i :: claims) works) ∨
    ∃ e holders, (openAt i).runOn ⟨s, v⟩ = (.error e, ⟨{ s with holders }, v⟩) ∧
      Shelved v.disk den { s with holders } claims works := by
  by_cases hi : i ∈ claims
  · obtain ⟨holders, hhold, h'⟩ := h.runOn_hold hi
    cases hread : Record.read (α := SnapshotTable) (SnapshotTable.file (s.place i)) v.disk with
    | ok table => exact .inl ⟨table, holders, runOn_openAt_read hhold hread, hi, rfl, h'⟩
    | error e =>
      obtain ⟨holders', hrelease, h''⟩ := h'.runOn_release_claimed hi
      exact .inr ⟨.error e, holders', runOn_openAt_unread hhold hread hrelease, h''⟩
  · refine .inr ⟨.error (.notFound (.snapshot i)), s.holders, ?_, h⟩
    rw [openAt, Act.runOn_bind_error (h.runOn_hold_unclaimed hi)]

/-- Opening the latest snapshot is the same, but a failure is not told. -/
theorem runOn_openLatest (h : Shelved v.disk den s claims works) :
    (∃ table holders, openLatest.runOn ⟨s, v⟩ =
        (.ok (some ⟨s.last, s.place s.last, table⟩), ⟨{ s with holders }, v⟩) ∧ s.last ∈ claims ∧
      Record.read (SnapshotTable.file (s.place s.last)) v.disk = .ok table ∧
      Shelved v.disk den { s with holders } (s.last :: claims) works) ∨
    ∃ holders, openLatest.runOn ⟨s, v⟩ = (.ok none, ⟨{ s with holders }, v⟩) ∧
      Shelved v.disk den { s with holders } claims works := by
  -- there is none to open, or it is opened like any other, and a failure counts as none
  by_cases hlast : s.last = 0
  · refine .inr ⟨s.holders, ?_, h⟩
    rw [openLatest, Act.runOn_bind_ok (Mounted.runOn_stored _)]
    dsimp only
    rw [if_pos hlast]
    rfl
  · have hopen : openLatest.runOn ⟨s, v⟩ = (.ok ((openAt s.last).runOn ⟨s, v⟩).1.toOption,
        ((openAt s.last).runOn ⟨s, v⟩).2) := by
      rw [openLatest, Act.runOn_bind_ok (Mounted.runOn_stored _)]
      dsimp only
      rw [if_neg hlast, Act.runOn_bind_ok (Act.runOn_attempt _ _)]
      rfl
    rcases h.runOn_openAt s.last with ⟨table, holders, hrun, hrest⟩ | ⟨e, holders, hrun, hrest⟩
    · exact .inl ⟨table, holders, by rw [hopen, hrun]; rfl, hrest⟩
    · exact .inr ⟨holders, by rw [hopen, hrun]; rfl, hrest⟩

/-! ### Works -/

/-- A snapshot that is begun is one more work, and the rest is kept. -/
theorem runOn_create (h : Shelved v.disk den s claims works) : ∃ w v', create.runOn ⟨s, v⟩ =
      (.ok w, ⟨{ s with nextTemporary := s.nextTemporary + 1 }, v'⟩) ∧
    w.directory = s.directory.entry (temporary s.nextTemporary) ∧ w.table = .empty ∧
    Shelved v'.disk den { s with nextTemporary := s.nextTemporary + 1 } claims
      (w.directory :: works) ∧ Kept den s.directory v.disk v'.disk claims works := by
  obtain ⟨v', hcreate, hput⟩ := runOn_create_puts h.wellFormed h.rooted h.item?_next
  -- only the new directory is touched, and its name was free
  have hother (name : String) (hne : name ≠ temporary s.nextTemporary) (rest : Location) :
      v'.disk.item? (den ++ name :: rest) = v.disk.item? (den ++ name :: rest) := by
    refine hput.item?_ne fun he => hne ?_
    exact (List.cons.inj (List.append_cancel_left he)).1
  have hnext (name : String) (hname : (v.disk.item? (den ++ [name])).isSome) :
      name ≠ temporary s.nextTemporary := by
    rintro rfl
    rw [h.item?_next] at hname
    exact absurd hname (by simp)
  refine ⟨_, v', hcreate, rfl,
    rfl, ⟨hput.wellFormed, ?_, fun i => ?_, h.holders, h.bounds, fun name hname => ?_,
      List.nodup_cons.2 ⟨h.next_notMem, h.nodup⟩, fun q hq => ?_⟩,
    fun i _ => hother _ (temporary_ne_published _ i).symm, fun n hmem => hother _ ?_⟩
  · exact h.rooted.outside ((Outside.refl h.wellFormed).put (below_entry _) hput)
  · rw [hother _ (temporary_ne_published _ i).symm, h.shelf]
  · by_cases hne : name = temporary s.nextTemporary
    · exact .inr ⟨_, Nat.lt_succ_self _, hne⟩
    · rw [hother name hne] at hname
      refine (h.names name hname).imp_right ?_
      rintro ⟨n, hlt, rfl⟩
      exact ⟨n, Nat.lt_succ_of_lt hlt, rfl⟩
  · rcases List.mem_cons.1 hq with rfl | hq
    · exact ⟨_, Nat.lt_succ_self _, rfl, hput.item?_self⟩
    · obtain ⟨n, hlt, hqn, hdir⟩ := h.made q hq
      refine ⟨n, Nat.lt_succ_of_lt hlt, hqn, (hother _ ?_ []).trans hdir⟩
      exact hnext _ (by rw [hdir]; rfl)
  · exact fun he => h.next_notMem (he ▸ hmem)

/-- **A work that is given up** is removed, and nothing else. -/
theorem runOn_abandon {w : SnapshotWriter} (h : Shelved v.disk den s claims (w.directory :: works)) :
    ∃ v', (abandon w).runOn ⟨s, v⟩ = (.ok (), ⟨s, v'⟩) ∧
      Shelved v'.disk den s claims works ∧ Kept den s.directory v.disk v'.disk claims works ∧
      v'.disk.isThere w.directory = false := by
  obtain ⟨n, hlt, hdir, -⟩ := h.made _ List.mem_cons_self
  have hnot : s.directory.entry (temporary n) ∉ works := by
    rw [← hdir]
    exact (List.nodup_cons.1 h.nodup).1
  obtain ⟨v', hdiscard, hw', hitems⟩ := Volume.runOn_discard h.leads (plain_temporary n) h.wellFormed
  have hsame (name : String) (hne : temporary n ≠ name) : SameEntry den name v.disk v'.disk :=
    .of_removed hitems hne
  have hrooted := h.rooted_of_removed hw' hitems
  refine ⟨v', ?_, ⟨hw', hrooted, fun i => ?_, h.holders, h.bounds,
    fun name hname => ?_, h.nodup.of_cons, fun q hq => ?_⟩, .of_removed hitems hnot, ?_⟩
  · rw [abandon, hdir]
    exact Mounted.runOn_onVolume_ok hdiscard
  · rw [(hsame _ (temporary_ne_published n i)).self, h.shelf]
  · refine h.names name ?_
    rw [hitems] at hname
    split at hname
    · exact absurd hname (by simp)
    · exact hname
  · obtain ⟨m, hm, hqm, hdir'⟩ := h.made q (.tail _ hq)
    refine ⟨m, hm, hqm, (hsame _ fun he => hnot ?_).self.trans hdir'⟩
    rwa [he, ← hqm]
  · rw [hdir, isThere, lookup_entry (hrooted _ (.refl hw')) (plain_temporary n),
      item?_eq_none_iff.1 (by rw [hitems, if_pos (List.prefix_refl _)])]
    rfl

end Shelved
end SnapshotStore
end RaftReplica
