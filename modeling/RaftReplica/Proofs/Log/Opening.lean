/-
RaftReplica/Proofs/Log/Opening.lean

Opening the segments of a directory.  Each part of it is looked at from both sides: what a run
without an error has found (`loadClosed_ok`, `loadTail_ok`), and that it does not fail on files that
are as they should be (`runOn_loadClosed`, `runOn_loadTail`).  In between stands what both sides
share: segments that follow one another, `Chained`, where the first of them is where it may be,
`Continues`.

An opening does three things, and each has its own way of being said:

* it reads a file and may cut off its end (`Rewrites`: what is a file stays one, and nothing is made
  or removed);
* it removes segments that end before the start (`Clears`: exactly the given places are empty
  afterwards);
* it tells the history the memberships it reads, which is in order because the indices along a row
  are (`index_told`).

A segment is named twice: as the listing gives it, with nothing read (`unread`), and as it is after
loading.  `eq_opened` goes from one to the other, so both sides speak of the same list of
segments.  No bound on the number of segments is needed; the inductions are on the list that is
opened.
-/
import RaftReplica.Proofs.Log.Layout
import RaftReplica.Proofs.Log.Listing

namespace RaftReplica

open RaftReplica.Frame Disk

/-- There is a file, not a directory. -/
def Item.isFile : Item → Bool
  | file _ _ => true
  | directory => false

/-! ### Segments before and after their files are read -/

namespace Segment

variable {d : Disk} {l : Location} {p : Path} {s : Segment} {fs gs : List Framed} {k a : Nat}
  {m : Mounted MembershipHistory}

/-- What the name of its file tells of a segment. -/
def unread (s : Segment) : Segment := s.name.segment s.directory

theorem name_unread (s : Segment) : s.unread.name = s.name := SegmentName.name_segment _ _

theorem unread_of_isOpen (h : s.isOpen = true) : s.unread = fresh s.directory s.first := by
  rw [unread, Segment.name, if_pos h]
  rfl

/-- A sealed one has its range, but no byte of its file. -/
theorem unread_of_closed (h : s.isOpen = false) :
    s.unread = closed s.directory s.first s.last := by
  rw [unread, Segment.name, if_neg (by simp [h])]
  rfl

/-- Its directory is known before the file is read. -/
theorem directory_unread (s : Segment) : s.unread.directory = s.directory := by
  cases h : s.isOpen with
  | true => rw [unread_of_isOpen h]; rfl
  | false => rw [unread_of_closed h]; rfl

/-- Its first index is known before the file is read. -/
theorem first_unread (s : Segment) : s.unread.first = s.first := by
  cases h : s.isOpen with
  | true => rw [unread_of_isOpen h]; rfl
  | false => rw [unread_of_closed h]; rfl

/-- Whether it is sealed is known before the file is read. -/
theorem isOpen_unread (s : Segment) : s.unread.isOpen = s.isOpen := by
  cases h : s.isOpen with
  | true => rw [unread_of_isOpen h]; rfl
  | false => rw [unread_of_closed h]; rfl

theorem last_unread (h : s.isOpen = false) : s.unread.last = s.last := by
  rw [unread_of_closed h]
  rfl

/-- The name of a sealed segment tells whether it reaches an index. -/
theorem filter_unread {ss : List Segment} (h : ∀ s ∈ ss, s.isOpen = false) (n : Nat) :
    (ss.map unread).filter (n ≤ ·.last) = (ss.filter (n ≤ ·.last)).map unread := by
  rw [List.filter_map]
  refine congrArg _ (List.filter_congr ?_)
  intro s hs
  show decide (n ≤ s.unread.last) = _
  rw [last_unread (h s hs)]

theorem unread_segment (p : Path) (n : SegmentName) : (n.segment p).unread = n.segment p := by
  cases n <;> rfl

/-- Loading a file adds nothing to what the name says. -/
theorem unread_opened (hfirst : 1 ≤ s.first) (hrange : s.RightRange fs) :
    (s.opened k fs).unread = s.unread := by
  rw [unread, name_opened hfirst hrange]
  rfl

/-- A segment that holds a row is what is read from its file. -/
theorem Holds.eq_opened (h : s.Holds d l p fs) : ∃ k,
    d.item? (s.place l) = some (.file k (bytesOf fs)) ∧ s = s.unread.opened k fs ∧
    s.unread.RightRange fs := by
  obtain ⟨k, hk, hfile⟩ := h.file
  refine ⟨k, hfile, ?_, ?_⟩
  · have hlast : s.last = s.first + (placed 0 fs).length - 1 := by
      have hend := h.last
      rw [length_placed]
      omega
    show s = ⟨s.unread.directory, s.unread.first, s.unread.first + (placed 0 fs).length - 1,
      s.unread.isOpen, (bytesOf fs).length, marksOf fs, some k⟩
    rw [directory_unread, first_unread, isOpen_unread, ← hlast, ← h.bytes, ← h.marks, ← hk]
  · intro hopen
    rw [isOpen_unread] at hopen
    rw [last_unread hopen, first_unread]
    exact h.last

/-- Reading the file of a segment again gives the segment. -/
theorem Holds.runOn_load (h : s.Holds m.volume.disk l p fs)
    (home : m.volume.disk.directoryAt p = .ok l) (hasc : Ascending (m.store.entries ++ told fs)) :
    s.unread.load.runOn m = (.ok s, ⟨m.store.heard (told fs), m.volume⟩) := by
  obtain ⟨k, hfile, hs, hrange⟩ := h.eq_opened
  have hload := Segment.runOn_load (s := s.unread) (k := k) home
    (by rw [directory_unread, h.directory]) (by rw [first_unread]; exact h.first_pos)
    (by rwa [place_eq_of_name (name_unread s)]) (by rw [first_unread]; exact h.row) hrange hasc
  rwa [← hs] at hload

theorem told_append : told (fs ++ gs) = told fs ++ told gs := by
  rw [told, told, told, memberships, List.map_append, List.filter_append, List.map_append]
  rfl

/-- Everything that is told of a row has an index in it, and they ascend. -/
theorem index_told (h : Row a fs) :
    (∀ x ∈ told fs, a ≤ x.index ∧ x.index < a + fs.length) ∧ Ascending (told fs) := by
  -- on the row: the first frame tells of its own index at most, all others of greater ones
  induction fs generalizing a with
  | nil => exact ⟨fun x hx => absurd hx (List.not_mem_nil), List.Pairwise.nil⟩
  | cons f fs ih =>
    obtain ⟨hf, hrow⟩ := h
    obtain ⟨hrange, hasc⟩ := ih hrow
    have hlen : (f :: fs).length = fs.length + 1 := rfl
    have hsplit : told (f :: fs) = told [f] ++ told fs := by
      show told ([f] ++ fs) = _
      exact told_append
    have hone : ∀ x ∈ told [f], x.index = a := by
      intro x hx
      obtain ⟨e, he, rfl⟩ := List.mem_map.1 hx
      obtain rfl := List.mem_singleton.1 (List.mem_of_mem_filter he)
      exact hf.index_eq
    rw [hsplit, hlen]
    refine ⟨?_, List.pairwise_append.2 ⟨?_, hasc, ?_⟩⟩
    · intro x hx
      rcases List.mem_append.1 hx with hx | hx
      · have hindex := hone x hx
        omega
      · have hindex := hrange x hx
        omega
    · have hle : (told [f]).length ≤ 1 := by
        rw [told, memberships, List.length_map]
        exact List.length_filter_le _ _
      -- one frame holds one membership or none
      match hlist : told [f] with
      | [] => exact List.Pairwise.nil
      | [x] => exact List.pairwise_singleton _ _
      | x :: y :: rest =>
        rw [hlist] at hle
        simp only [List.length_cons] at hle
        omega
    · intro x hx y hy
      have hindex := hone x hx
      have hindex' := hrange y hy
      omega

/-- From an index on, what is told of a row is what its entries from there on describe. -/
theorem filter_told (h : Row a fs) (c : Nat) : (told fs).filter (c ≤ ·.index) =
    memberships ((fs.map Framed.entry).drop (c - a)) := by
  have hdrop : told (fs.drop (c - a)) = memberships ((fs.map Framed.entry).drop (c - a)) := by
    rw [told, List.map_drop]
  have hsplit : told (fs.take (c - a) ++ fs.drop (c - a)) = _ := told_append
  rw [List.take_append_drop] at hsplit
  -- the row is cut at `c`: none of the first part is that late, and all of the second is
  obtain ⟨htake, hrest⟩ := row_append_iff.1 ((List.take_append_drop (c - a) fs).symm ▸ h)
  rw [hsplit, List.filter_append, ← hdrop, List.filter_eq_nil_iff.2, List.nil_append,
    List.filter_eq_self.2]
  · intro x hx
    have habove := (index_told hrest).1 x hx
    rw [List.length_take, List.length_drop] at habove
    rw [decide_eq_true_eq]
    omega
  · intro x hx
    have hbelow := (index_told htake).1 x hx
    rw [List.length_take] at hbelow
    rw [decide_eq_true_eq]
    omega

end Segment

/-! ### Chains that start late -/

variable {d d' : Disk} {home : Location} {p : Path} {a b c start : Nat} {ss : List Segment}
  {rows : List (List Framed)}

/-- Without the segments at its front that end before an index a chain still is one, and it holds
the same entries from that index on. -/
theorem AllHold.keepFront {ts : List Segment} (h : AllHold d home p (ss ++ ts) rows)
    (hc : Chained a (ss ++ ts) b) (ha : a ≤ c) :
    ∃ a' rows', AllHold d home p (ss.filter (c ≤ ·.last) ++ ts) rows' ∧
      Chained a' (ss.filter (c ≤ ·.last) ++ ts) b ∧ a ≤ a' ∧ a' ≤ c ∧ rows' <:+ rows ∧
      SegmentedLog.entriesFrom c a' rows' = SegmentedLog.entriesFrom c a rows := by
  -- on the segments: one that is dropped moves the start, and at the first that stays all stay
  induction ss generalizing a rows with
  | nil => exact ⟨a, rows, h, hc, Nat.le_refl a, ha, List.suffix_refl rows, rfl⟩
  | cons s ss ih =>
    obtain ⟨fs, more, hs, hrest, rfl⟩ := List.forall₂_cons_left_iff.1 h
    obtain ⟨rfl, hc⟩ := hc
    have hlast := hs.last
    by_cases hdrop : s.last < c
    · obtain ⟨a', rows', hold, hc', hle, ha', hsuffix, hentries⟩ := ih hrest hc (by omega)
      -- all entries of a segment that ends before `c` are before `c`
      have hgone : (fs.map Framed.entry).drop (c - s.first) = [] := by
        apply List.drop_of_length_le
        rw [List.length_map]
        omega
      rw [List.filter_cons_of_neg (by simpa using hdrop)]
      refine ⟨a', rows', hold, hc', by omega, ha', hsuffix.trans <| List.suffix_cons _ _, ?_⟩
      rw [hentries]
      show _ = ((fs ++ more.flatten).map Framed.entry).drop (c - s.first)
      rw [List.map_append, List.drop_append, hgone, List.nil_append, List.length_map,
        show c - s.first - fs.length = c - (s.last + 1) by omega]
      rfl
    · -- nothing behind the first segment that stays ends before `c`
      have hall : ∀ t ∈ s :: ss, c ≤ t.last := by
        intro t ht
        rcases List.mem_cons.1 ht with rfl | ht
        · omega
        · have hmem := List.mem_append_left ts ht
          obtain ⟨gs, -, hgs⟩ := AllHold.exists_row hrest hmem
          have hfirst := AllHold.le_first hrest hc t hmem
          have hend := hgs.last
          omega
      rw [List.filter_eq_self.2 fun t ht => by simpa using hall t ht]
      exact ⟨s.first, fs :: more, .cons hs hrest, ⟨rfl, hc⟩, Nat.le_refl _, ha,
        List.suffix_refl _, rfl⟩

/-- The same for all segments of a chain; one of which nothing is left ends where it starts. -/
theorem AllHold.keep (h : AllHold d home p ss rows) (hc : Chained a ss b) (ha : a ≤ c) :
    ∃ a' rows', AllHold d home p (ss.filter (c ≤ ·.last)) rows' ∧
      Chained a' (ss.filter (c ≤ ·.last)) (max b c) ∧ a ≤ a' ∧ a' ≤ c ∧ rows' <:+ rows ∧
      SegmentedLog.entriesFrom c a' rows' = SegmentedLog.entriesFrom c a rows := by
  rw [← List.append_nil ss] at h hc
  obtain ⟨a', rows', hold, hc', hle, ha', hsuffix, hentries⟩ := h.keepFront hc ha
  rw [List.append_nil] at hold hc'
  -- if the chain itself ends before `c`, nothing of it stays
  rcases Nat.lt_or_ge b c with hb | hb
  · have hnil : ss.filter (c ≤ ·.last) = [] := by
      apply List.filter_eq_nil_iff.2
      intro s hs
      have hend := h.last_lt hc s (List.mem_append_left [] hs)
      rw [decide_eq_true_eq]
      omega
    rw [hnil] at hold hc' ⊢
    obtain rfl : rows' = [] := List.forall₂_nil_left_iff.1 hold
    refine ⟨c, [], .nil, ?_, by omega, Nat.le_refl c, hsuffix, ?_⟩
    · show c = max b c
      omega
    · rw [← hentries]
      simp [SegmentedLog.entriesFrom]
  · rw [Nat.max_eq_left hb]
    exact ⟨a', rows', hold, hc', hle, ha', hsuffix, hentries⟩

/-! ### What comes next -/

namespace SegmentedLog

variable {next : Option Nat} {s : Segment} {ts : List Segment}

/-- What is expected next may be at `a`; the oldest segment must not start behind the log's
start. -/
def Continues (next : Option Nat) (start a : Nat) : Prop :=
  match next with
  | some n => a = n
  | none => a ≤ start

/-- The check of a segment's start passes where the relation holds. -/
theorem checkContinuity_eq_ok_iff :
    checkContinuity next start s = .ok () ↔ Continues next start s.first := by
  unfold checkContinuity Continues
  cases next with
  | some n =>
    dsimp only
    split
    · next h => simp [h]
    · next h => simp [h]
  | none =>
    dsimp only
    split
    · next h => simp only [reduceCtorEq, false_iff]; omega
    · next h => simp only [true_iff]; omega

/-- There is always somewhere to go on from. -/
theorem exists_continues (next : Option Nat) (start : Nat) : ∃ a, Continues next start a := by
  cases next with
  | none => exact ⟨start, Nat.le_refl start⟩
  | some n => exact ⟨n, rfl⟩

/-- What is expected next once further segments were loaded. -/
def after (next : Option Nat) (ss : List Segment) : Option Nat :=
  ss.foldl (fun _ s => some (s.last + 1)) next

theorem after_append : after next (ss ++ ts) = after (after next ss) ts := List.foldl_append

/-- Where a chain ends the next segment has to start. -/
theorem Continues.after (h : Continues next start a) (hc : Chained a ss b) :
    Continues (after next ss) start b := by
  induction ss generalizing a next with
  | nil => exact hc ▸ h
  | cons s ss ih =>
    have hs : Continues (some (s.last + 1)) start (s.last + 1) := rfl
    exact ih hs hc.2

/-- A chain and one that may come behind it are one. -/
theorem Continues.join {a' : Nat} (h : Continues next start a) (hc : Chained a ss b)
    (h' : Continues (SegmentedLog.after next ss) start a') (hc' : Chained a' ts c) :
    ∃ a₀, Continues next start a₀ ∧ Chained a₀ (ss ++ ts) c := by
  rcases List.eq_nil_or_concat ss with rfl | ⟨init, s, rfl⟩
  · exact ⟨a', h', hc'⟩
  · rw [List.concat_eq_append] at hc h' ⊢
    rw [after_append] at h'
    obtain rfl : a' = s.last + 1 := h'
    refine ⟨a, h, chained_append_iff.2 ⟨s.last + 1, ?_, hc'⟩⟩
    exact chained_concat_iff.2 ⟨(chained_concat_iff.1 hc).1, rfl⟩

/-- The log ends where its chain does. -/
theorem lastOf_after (hc : Chained a ss b) (ha : a ≤ start) (hb : start ≤ b) (hpos : 1 ≤ start) :
    lastOf start (after none ss) + 1 = b := by
  have hstart : Continues none start a := ha
  have hcont := hstart.after hc
  unfold lastOf
  -- without a segment the last index is the one before the start
  cases hafter : after none ss with
  | some n =>
    rw [hafter] at hcont
    obtain rfl : b = n := hcont
    dsimp only
    omega
  | none =>
    rw [hafter] at hcont
    have hle : b ≤ start := hcont
    dsimp only
    omega

/-! ### What opening does to files -/

/-- `d'` is `d` but for the content of the files at some locations. -/
structure Rewrites (d d' : Disk) (ms : List Location) : Prop where
  wellFormed : d'.WellFormed
  elsewhere : ∀ x, x ∉ ms → d'.item? x = d.item? x
  kinds : ∀ x, (d'.item? x).map Item.isFile = (d.item? x).map Item.isFile

namespace Rewrites

variable {d'' : Disk} {ms ns : List Location} {x : Location} {k : Nat} {bs bs' : Bytes}

theorem refl (h : d.WellFormed) (ms : List Location) : Rewrites d d ms :=
  ⟨h, fun _ _ => rfl, fun _ => rfl⟩

/-- One rewriting after another. -/
theorem trans (h : Rewrites d d' ms) (h' : Rewrites d' d'' ns) : Rewrites d d'' (ms ++ ns) := by
  refine ⟨h'.wellFormed, ?_, fun x => (h'.kinds x).trans (h.kinds x)⟩
  intro x hx
  rw [List.mem_append, not_or] at hx
  exact (h'.elsewhere x hx.2).trans (h.elsewhere x hx.1)

theorem mono (h : Rewrites d d' ms) (hms : ∀ x ∈ ms, x ∈ ns) : Rewrites d d' ns :=
  ⟨h.wellFormed, fun x hx => h.elsewhere x fun hmem => hx (hms x hmem), h.kinds⟩

/-- Giving a file other bytes rewrites it. -/
theorem of_puts (h : Puts d d' x (some (.file k bs))) (hx : d.item? x = some (.file k bs')) :
    Rewrites d d' [x] := by
  refine ⟨h.wellFormed, fun y hy => h.item?_ne (by simpa using hy), fun y => ?_⟩
  by_cases hy : y = x
  · rw [hy, h.item?_self, hx]
    rfl
  · rw [h.item?_ne hy]

/-- Nothing appears and nothing goes. -/
theorem isSome_iff (h : Rewrites d d' ms) (x : Location) :
    (d'.item? x).isSome ↔ (d.item? x).isSome := by
  have hkind := congrArg Option.isSome (h.kinds x)
  rw [Option.isSome_map, Option.isSome_map] at hkind
  rw [hkind]

/-- Rewriting makes no directory and removes none. -/
theorem directory_iff (h : Rewrites d d' ms) (x : Location) :
    d'.item? x = some .directory ↔ d.item? x = some .directory := by
  have hmap (o : Option Item) : o = some .directory ↔ o.map Item.isFile = some false := by
    rcases o with - | - | - <;> simp [Item.isFile]
  rw [hmap, hmap, h.kinds x]

theorem directoryAt (h : Rewrites d d' ms) (leads : d.directoryAt p = .ok home) :
    d'.directoryAt p = .ok home :=
  directoryAt_mono (fun x => (h.directory_iff x).2) leads

theorem directoryAt_before (h : Rewrites d d' ms) (leads : d'.directoryAt p = .ok home) :
    d.directoryAt p = .ok home :=
  directoryAt_mono (fun x => (h.directory_iff x).1) leads

end Rewrites

/-! ### Opening sealed segments -/

variable {cs : List Segment} {done done' : Loaded} {m m' : Mounted MembershipHistory}

/-- **Sealed segments that follow one another are loaded** as they are; those that end before the
log's start are not even looked at. -/
theorem runOn_loadClosed (leads : m.volume.disk.directoryAt p = .ok home)
    (hkept : cs.filter (start ≤ ·.last) = ss.map Segment.unread)
    (hold : AllHold m.volume.disk home p ss rows) (hclosed : ∀ s ∈ ss, s.isOpen = false)
    (hc : Chained a ss b) (ha : Continues done.next start a)
    (hasc : Ascending (m.store.entries ++ Segment.told rows.flatten)) :
    (loadClosed start done cs).runOn m =
      (.ok ⟨done.closed ++ ss, done.tail, done.doomed ++ cs.filter (·.last < start),
        after done.next ss⟩, ⟨m.store.heard (Segment.told rows.flatten), m.volume⟩) := by
  -- on the list of what was found, with what was loaded so far as the accumulator
  induction cs generalizing done ss rows a m with
  | nil =>
    obtain rfl : ss = [] := (List.map_eq_nil_iff.1 hkept.symm)
    obtain rfl : rows = [] := List.forall₂_nil_left_iff.1 hold
    rw [List.append_nil, List.filter_nil, List.append_nil]
    show _ = (_, Mounted.mk (m.store.heard []) _)
    rw [MembershipHistory.heard_nil]
    rfl
  | cons s cs ih =>
    by_cases hdoomed : s.last < start
    · rw [List.filter_cons_of_neg (by simpa using hdoomed)] at hkept
      rw [loadClosed, if_pos hdoomed, List.filter_cons_of_pos (by simpa using hdoomed),
        List.append_cons done.doomed s (cs.filter _)]
      exact ih leads hkept hold hclosed hc ha hasc
    · rw [List.filter_cons_of_pos (by simpa using hdoomed)] at hkept
      -- the segment is the first of those that stay, so it continues the chain
      obtain ⟨t, ts, rfl, rfl, hts⟩ := List.map_eq_cons_iff.1 hkept.symm
      obtain ⟨fs, more, ht, hmore, rfl⟩ := List.forall₂_cons_left_iff.1 hold
      obtain ⟨rfl, hc⟩ := hc
      rw [List.flatten_cons, Segment.told_append, ← List.append_assoc] at hasc
      have hlast := t.last_unread (hclosed t List.mem_cons_self)
      have hcheck : checkContinuity done.next start t.unread = .ok () :=
        checkContinuity_eq_ok_iff.2 (by rwa [Segment.first_unread])
      have hload := ht.runOn_load leads (List.pairwise_append.1 hasc).1
      rw [loadClosed, if_neg hdoomed, Act.runOn_bind_ok (Act.runOn_ofExcept_ok hcheck _),
        Act.runOn_bind_ok hload]
      rw [List.filter_cons_of_neg (by simpa using hdoomed), List.flatten_cons,
        Segment.told_append, ← MembershipHistory.heard_heard, List.append_cons done.closed t ts]
      have hnext : Continues (some (t.last + 1)) start (t.last + 1) := rfl
      exact ih leads hts.symm hmore (fun s hs => hclosed s (List.mem_cons_of_mem _ hs)) hc hnext
        hasc

/-- What names may tell of a sealed segment, or of one that is written to. -/
structure Told (p : Path) (sealed : Bool) (s : Segment) : Prop where
  unread : s.unread = s
  directory : s.directory = p
  isOpen : s.isOpen = !sealed
  first_pos : 1 ≤ s.first
  fits : s.name.Fits

theorem Told.first_le (h : Told p true s) : s.first ≤ s.last :=
  ((Segment.fits_name_of_closed h.isOpen).1 h.fits).1

/-- What is loaded without an error holds the row in its file. -/
theorem Told.load_ok {sealed : Bool} {s' : Segment} (hs : Told p sealed s)
    (hw : m.volume.disk.WellFormed) (leads : m.volume.disk.directoryAt p = .ok home)
    (h : s.load.runOn m = (.ok s', m')) :
    ∃ fs, s'.Holds m'.volume.disk home p fs ∧ s'.unread = s ∧ s'.first = s.first ∧
      s'.isOpen = s.isOpen ∧ (s.isOpen = false → s'.last = s.last) ∧
      m'.store = m.store.heard (Segment.told fs) ∧
      (Ascending m.store.entries → Ascending m'.store.entries) ∧
      Rewrites m.volume.disk m'.volume.disk [s'.place home] := by
  obtain ⟨k, fs, ⟨bs, hfile⟩, hrow, hrange, rfl, hstore, hasc, hput⟩ :=
    Segment.load_ok hw leads hs.directory hs.first_pos h
  have hname : (s.opened k fs).name = s.name := Segment.name_opened hs.first_pos hrange
  refine ⟨fs, Segment.holds_opened hs.directory hs.first_pos hrow hrange hput.item?_self, ?_, rfl,
    rfl, fun hopen => ?_, hstore, hasc, ?_⟩
  · rw [Segment.unread_opened hs.first_pos hrange, hs.unread]
  · have hlast : (s.opened k fs).last + 1 = s.first + fs.length :=
      Segment.last_opened hs.first_pos
    have hend := hrange hopen
    omega
  · rw [Segment.place_eq_of_name hname]
    exact .of_puts hput hfile

/-- **What is loaded of sealed segments** without an error are those that do not end before the
log's start; they follow one another. -/
theorem loadClosed_ok (hw : m.volume.disk.WellFormed)
    (leads : m.volume.disk.directoryAt p = .ok home) (hcs : ∀ s ∈ cs, Told p true s)
    (h : (loadClosed start done cs).runOn m = (.ok done', m')) :
    ∃ a b ss rows, cs.filter (start ≤ ·.last) = ss.map Segment.unread ∧
      AllHold m'.volume.disk home p ss rows ∧ (∀ s ∈ ss, s.isOpen = false) ∧
      (∀ s ∈ ss, s.first ≤ s.last) ∧ Chained a ss b ∧ Continues done.next start a ∧
      done' = ⟨done.closed ++ ss, done.tail, done.doomed ++ cs.filter (·.last < start),
        after done.next ss⟩ ∧ m'.store = m.store.heard (Segment.told rows.flatten) ∧
      (Ascending m.store.entries → Ascending m'.store.entries) ∧
      Rewrites m.volume.disk m'.volume.disk (ss.map (Segment.place home)) := by
  -- on the list of what was found, going backwards through a run without an error
  induction cs generalizing done m with
  | nil =>
    obtain ⟨hdone, rfl⟩ := Prod.mk.inj h
    obtain ⟨a, ha⟩ := exists_continues done.next start
    refine ⟨a, a, [], [], rfl, .nil, by simp, by simp, rfl, ha, ?_, ?_, id, .refl hw _⟩
    · rw [← Except.ok.inj hdone, List.filter_nil, List.append_nil, List.append_nil]
      rfl
    · exact (MembershipHistory.heard_nil _).symm
  | cons s cs ih =>
    have hrest : ∀ t ∈ cs, Told p true t := fun t ht => hcs t (List.mem_cons_of_mem _ ht)
    rw [loadClosed] at h
    by_cases hdoomed : s.last < start
    · -- a segment that ends too early is not even read
      rw [if_pos hdoomed] at h
      obtain ⟨a, b, ss, rows, hkept, hold, hopen, hle, hc, ha, hdone, hother⟩ := ih hw leads hrest h
      refine ⟨a, b, ss, rows, ?_, hold, hopen, hle, hc, ha, ?_, hother⟩
      · rwa [List.filter_cons_of_neg (by simpa using hdoomed)]
      · rw [hdone, List.filter_cons_of_pos (by simpa using hdoomed),
          List.append_cons done.doomed s (cs.filter _)]
    · rw [if_neg hdoomed] at h
      have hs := hcs s List.mem_cons_self
      obtain ⟨_, m₁, hrun, hafter⟩ := Act.eq_ok_of_bind h
      obtain ⟨hcheck, rfl⟩ := Act.eq_ok_of_ofExcept hrun
      obtain ⟨t, m₂, hload, hbehind⟩ := Act.eq_ok_of_bind hafter
      obtain ⟨fs, ht, hunread, hfirst, htopen, hlast, hstore, hasc, hrewrites⟩ :=
        hs.load_ok hw leads hload
      have hsopen : s.isOpen = false := hs.isOpen
      have hlast := hlast hsopen
      have hsle := hs.first_le
      obtain ⟨a, b, ss, rows, hkept, hold, hopen, hle, hc, ha, hdone, hstore', hasc', hrewrites'⟩ :=
        ih hrewrites.wellFormed (hrewrites.directoryAt leads) hrest hbehind
      obtain rfl : a = t.last + 1 := ha
      -- the segments behind it are other files
      have hplace : t.place home ∉ ss.map (Segment.place home) := by
        intro hmem
        obtain ⟨u, hu, hplace⟩ := List.mem_map.1 hmem
        have hname := Segment.place_inj.1 hplace
        simp only [Segment.name, hopen u hu, htopen, hsopen] at hname
        have hsame := (SegmentName.sealed.inj hname).1
        have hlater := hold.le_first hc u hu
        omega
      refine ⟨t.first, b, t :: ss, fs :: rows, ?_, .cons ?_ hold, ?_, ?_, ⟨rfl, hc⟩, ?_, ?_, ?_,
        hasc' ∘ hasc, hrewrites.trans hrewrites'⟩
      · rw [List.filter_cons_of_pos (by simpa using hdoomed), hkept, List.map_cons, hunread]
      · exact ht.congr (hrewrites'.elsewhere _ hplace)
      · intro u hu
        rcases List.mem_cons.1 hu with rfl | hu
        · rw [htopen, hsopen]
        · exact hopen u hu
      · intro u hu
        rcases List.mem_cons.1 hu with rfl | hu
        · omega
        · exact hle u hu
      · rw [hfirst]
        exact checkContinuity_eq_ok_iff.1 hcheck
      · rw [hdone, List.filter_cons_of_neg (by simpa using hdoomed),
          List.append_cons done.closed t ss]
        rfl
      · rw [hstore', hstore, MembershipHistory.heard_heard, List.flatten_cons,
          Segment.told_append]

/-! ### Opening the segment to write to -/

variable {t : Option Segment}

/-- The segment to write to is kept if it reaches the log's start. -/
theorem runOn_loadTail_of_load (hload : s.unread.load.runOn m = (.ok s, m'))
    (ha : Continues done.next start s.first) (hnone : done.tail = none) :
    (loadTail start done (some s.unread)).runOn m =
      (.ok ⟨done.closed, Option.filter (start ≤ ·.last) (some s),
        done.doomed ++ (Option.filter (·.last < start) (some s)).toList,
        after done.next (Option.filter (start ≤ ·.last) (some s)).toList⟩, m') := by
  obtain ⟨closed, tail, doomed, next⟩ := done
  obtain rfl : tail = none := hnone
  have hcheck : checkContinuity next start s.unread = .ok () :=
    checkContinuity_eq_ok_iff.2 (by rwa [Segment.first_unread])
  rw [loadTail, Act.runOn_bind_ok (Act.runOn_ofExcept_ok hcheck _), Act.runOn_bind_ok hload]
  -- whether it is kept depends on what was read, not on its name
  by_cases hstale : s.last < start
  · rw [if_pos hstale, Option.filter_some, if_neg (by simpa using hstale), Option.filter_some,
      if_pos (by simpa using hstale)]
    rfl
  · rw [if_neg hstale, Option.filter_some, if_pos (by simpa using hstale), Option.filter_some,
      if_neg (by simpa using hstale)]
    show (Except.ok (Loaded.mk closed (some s) doomed _), _) =
      (.ok ⟨closed, some s, doomed ++ [], _⟩, _)
    rw [List.append_nil]
    rfl

/-- **The segment to write to is loaded** as it is. -/
theorem runOn_loadTail (leads : m.volume.disk.directoryAt p = .ok home)
    (hold : AllHold m.volume.disk home p t.toList rows) (hc : Chained a t.toList b)
    (ha : Continues done.next start a) (hnone : done.tail = none)
    (hasc : Ascending (m.store.entries ++ Segment.told rows.flatten)) :
    (loadTail start done (t.map Segment.unread)).runOn m =
      (.ok ⟨done.closed, t.filter (start ≤ ·.last),
        done.doomed ++ (t.filter (·.last < start)).toList,
        after done.next (t.filter (start ≤ ·.last)).toList⟩,
        ⟨m.store.heard (Segment.told rows.flatten), m.volume⟩) := by
  cases t with
  | none =>
    obtain ⟨closed, tail, doomed, next⟩ := done
    obtain rfl : tail = none := hnone
    obtain rfl : rows = [] := List.forall₂_nil_left_iff.1 hold
    show (Except.ok (Loaded.mk closed none doomed next), m) =
      (.ok ⟨closed, none, doomed ++ [], next⟩, ⟨m.store.heard [], m.volume⟩)
    rw [MembershipHistory.heard_nil, List.append_nil]
  | some s =>
    obtain ⟨fs, rest, hs, hrest, rfl⟩ := List.forall₂_cons_left_iff.1 hold
    obtain rfl : rest = [] := List.forall₂_nil_left_iff.1 hrest
    obtain ⟨rfl, -⟩ := hc
    rw [show [fs].flatten = fs from List.append_nil fs] at hasc ⊢
    exact runOn_loadTail_of_load (hs.runOn_load leads hasc) ha hnone

/-- **What is loaded of the segment to write to** without an error comes behind the sealed ones. -/
theorem loadTail_ok (hw : m.volume.disk.WellFormed)
    (leads : m.volume.disk.directoryAt p = .ok home) (ht : ∀ s ∈ t, Told p false s)
    (hnone : done.tail = none) (h : (loadTail start done t).runOn m = (.ok done', m')) :
    ∃ a b u rows, t = Option.map Segment.unread u ∧ AllHold m'.volume.disk home p u.toList rows ∧
      (∀ s ∈ u, s.isOpen = true) ∧ Chained a u.toList b ∧ Continues done.next start a ∧
      done' = ⟨done.closed, u.filter (start ≤ ·.last),
        done.doomed ++ (u.filter (·.last < start)).toList,
        after done.next (u.filter (start ≤ ·.last)).toList⟩ ∧
      m'.store = m.store.heard (Segment.told rows.flatten) ∧
      (Ascending m.store.entries → Ascending m'.store.entries) ∧
      Rewrites m.volume.disk m'.volume.disk (u.toList.map (Segment.place home)) := by
  obtain ⟨closed, tail, doomed, next⟩ := done
  obtain rfl : tail = none := hnone
  cases t with
  | none =>
    obtain ⟨hdone, rfl⟩ := Prod.mk.inj h
    obtain ⟨a, ha⟩ := exists_continues next start
    refine ⟨a, a, none, [], rfl, .nil, by simp, rfl, ha, ?_, ?_, id, .refl hw _⟩
    · show done' = ⟨closed, none, doomed ++ [], next⟩
      rw [List.append_nil]
      exact (Except.ok.inj hdone).symm
    · exact (MembershipHistory.heard_nil _).symm
  | some s =>
    have hs := ht s rfl
    obtain ⟨_, m₁, hrun, hafter⟩ := Act.eq_ok_of_bind h
    obtain ⟨hcheck, rfl⟩ := Act.eq_ok_of_ofExcept hrun
    obtain ⟨u, m₂, hload, hend⟩ := Act.eq_ok_of_bind hafter
    obtain ⟨fs, hu, hunread, hfirst, hopen, -, hstore, hasc, hrewrites⟩ :=
      hs.load_ok hw leads hload
    -- the segment is read in any case, and then kept or given up
    have hdone : done' = ⟨closed, Option.filter (start ≤ ·.last) (some u),
        doomed ++ (Option.filter (·.last < start) (some u)).toList,
        after next (Option.filter (start ≤ ·.last) (some u)).toList⟩ ∧ m' = m₂ := by
      by_cases hstale : u.last < start
      · rw [if_pos hstale] at hend
        obtain ⟨hdone, rfl⟩ := Prod.mk.inj hend
        rw [Option.filter_some, if_neg (by simpa using hstale), Option.filter_some,
          if_pos (by simpa using hstale)]
        exact ⟨(Except.ok.inj hdone).symm, rfl⟩
      · rw [if_neg hstale] at hend
        obtain ⟨hdone, rfl⟩ := Prod.mk.inj hend
        rw [Option.filter_some, if_pos (by simpa using hstale), Option.filter_some,
          if_neg (by simpa using hstale), Option.toList_none, List.append_nil]
        exact ⟨(Except.ok.inj hdone).symm, rfl⟩
    obtain ⟨hdone, rfl⟩ := hdone
    refine ⟨u.first, u.last + 1, some u, [fs], ?_, .cons hu .nil, ?_, ⟨rfl, rfl⟩, ?_, hdone, ?_,
      hasc, hrewrites⟩
    · rw [Option.map_some, hunread]
    · intro x hx
      rw [← Option.some.inj hx, hopen, hs.isOpen]
      rfl
    · rw [hfirst]
      exact checkContinuity_eq_ok_iff.1 hcheck
    · rw [hstore, show [fs].flatten = fs from List.append_nil fs]

/-! ### Removing segments -/

/-- `d'` is `d` without what was at some locations. -/
structure Clears (d d' : Disk) (ms : List Location) : Prop where
  wellFormed : d'.WellFormed
  item? : ∀ x, d'.item? x = if x ∈ ms then none else d.item? x

theorem Clears.item?_ne {ms : List Location} {x : Location} (h : Clears d d' ms) (hx : x ∉ ms) :
    d'.item? x = d.item? x := by rw [h.item?, if_neg hx]

/-- Removing files leaves every directory where it is. -/
theorem Clears.directoryAt {ms : List Location} (h : Clears d d' ms)
    (hms : ∀ x ∈ ms, d.item? x ≠ some .directory) (leads : d.directoryAt p = .ok home) :
    d'.directoryAt p = .ok home := by
  refine directoryAt_mono ?_ leads
  intro x hx
  rw [h.item?_ne fun hmem => hms x hmem hx, hx]

/-- One more place is cleared. -/
theorem Clears.cons {d'' : Disk} {ms : List Location} {x : Location} (h : Puts d d' x none)
    (h' : Clears d' d'' ms) : Clears d d'' (x :: ms) := by
  refine ⟨h'.wellFormed, ?_⟩
  intro y
  rw [h'.item?]
  by_cases hy : y = x
  · subst hy
    rw [h.item?_self, ite_self, if_pos (List.mem_cons_self : y ∈ y :: ms)]
  · simp only [List.mem_cons, hy, false_or, h.item?_ne hy]

variable {v v' : Volume}

/-- The files of segments are removed one after the other, if nothing but files has their names. -/
theorem runOn_unlinkAll (hw : v.disk.WellFormed) (leads : v.disk.directoryAt p = .ok home)
    (hdir : ∀ s ∈ ss, s.directory = p)
    (hplace : ∀ s ∈ ss, v.disk.item? (s.place home) ≠ some .directory) :
    ∃ v', (unlinkAll ss).runOn v = (.ok (), v') ∧
      Clears v.disk v'.disk (ss.map (Segment.place home)) ∧
      Volume.Passes (fun d => ∃ gone, gone <+: ss ∧
        Clears v.disk d (gone.map (Segment.place home))) v v' := by
  have hnone : Clears v.disk v.disk (([] : List Segment).map (Segment.place home)) :=
    ⟨hw, fun x => by simp⟩
  -- on the segments; a stop after some of them leaves the rest, so what is gone is a prefix
  induction ss generalizing v with
  | nil => exact ⟨v, rfl, hnone, .refl ⟨[], List.prefix_refl _, hnone⟩⟩
  | cons s ss ih =>
    have hs := hplace s List.mem_cons_self
    obtain ⟨v₁, hunlink, hput⟩ := Segment.runOn_unlink hw leads (hdir s List.mem_cons_self) hs
    have hrest : ∀ t ∈ ss, v₁.disk.item? (t.place home) ≠ some .directory := by
      intro t ht
      by_cases hsame : t.place home = s.place home
      · rw [hsame, hput.item?_self]
        simp
      · rw [hput.item?_ne hsame]
        exact hplace t (List.mem_cons_of_mem _ ht)
    obtain ⟨v₂, hrun, hclears, hpass⟩ := ih hput.wellFormed (hput.directoryAt hs leads)
      (fun t ht => hdir t (List.mem_cons_of_mem _ ht)) hrest ⟨hput.wellFormed, fun x => by simp⟩
    refine ⟨v₂, ?_, .cons hput hclears, Volume.Passes.trans ?_ (hpass.mono ?_)⟩
    · rw [unlinkAll, Act.runOn_bind_ok (Act.runOn_attempt _ v), hunlink,
        Act.runOn_bind_ok (Act.runOn_attempt _ v₁), hrun]
      rfl
    · refine s.atomic_unlink.passes hunlink ⟨[], List.nil_prefix, hnone⟩ ⟨[s], ?_, ?_⟩
      · exact List.cons_prefix_cons.2 ⟨rfl, List.nil_prefix⟩
      · exact .cons hput ⟨hput.wellFormed, fun x => by simp⟩
    · rintro d ⟨gone, hgone, hd⟩
      exact ⟨s :: gone, List.cons_prefix_cons.2 ⟨rfl, hgone⟩, .cons hput hd⟩

/-- What was removed without an error was no directory. -/
theorem unlinkAll_ok (hw : v.disk.WellFormed) (leads : v.disk.directoryAt p = .ok home)
    (hdir : ∀ s ∈ ss, s.directory = p) (h : (unlinkAll ss).runOn v = (.ok (), v')) :
    (∀ s ∈ ss, v.disk.item? (s.place home) ≠ some .directory) ∧
      Clears v.disk v'.disk (ss.map (Segment.place home)) := by
  -- removing a directory is the one way to fail, so a run without an error has met none
  have hplace : ∀ s ∈ ss, v.disk.item? (s.place home) ≠ some .directory := by
    induction ss generalizing v v' with
    | nil => simp
    | cons s ss ih =>
      have hsdir := hdir s List.mem_cons_self
      rw [unlinkAll, Act.runOn_bind_ok (Act.runOn_attempt _ v),
        Act.runOn_bind_ok (Act.runOn_attempt _ _)] at h
      have hs : v.disk.item? (s.place home) ≠ some .directory := by
        intro hd
        rw [Segment.runOn_unlink_directory leads hsdir hd] at h
        exact absurd (congrArg Prod.fst h) (by simp)
      obtain ⟨v₁, hunlink, hput⟩ := Segment.runOn_unlink hw leads hsdir hs
      rw [hunlink] at h
      rcases hrest : (unlinkAll ss).runOn v₁ with ⟨r, v₂⟩
      rw [hrest] at h
      cases r with
      | error e => exact absurd (congrArg Prod.fst h) (by simp)
      | ok _ =>
        have hall := ih hput.wellFormed (hput.directoryAt hs leads)
          (fun t ht => hdir t (List.mem_cons_of_mem _ ht)) hrest
        intro t ht
        rcases List.mem_cons.1 ht with rfl | ht
        · exact hs
        · by_cases hsame : t.place home = s.place home
          · rwa [hsame]
          · rw [← hput.item?_ne hsame]
            exact hall t ht
  obtain ⟨v₁, hrun, hclears, -⟩ := runOn_unlinkAll hw leads hdir hplace
  obtain ⟨-, rfl⟩ := Prod.mk.inj (h.symm.trans hrun)
  exact ⟨hplace, hclears⟩

end SegmentedLog
end RaftReplica
