/-
RaftReplica/Proofs/Log/Torn.lean

A segment file whose end is missing.  Wherever the file is cut, it is some of its first frames and
the beginning of the next one (`exists_cut`), and the beginning of a frame is unfinished; so is
whatever is shorter than a header.  A segment that is opened on such a file keeps just the whole
frames, cuts off the rest, and goes on from there (`torn_tail_dropped`).

The number of frames that are kept is not existential: it is the `c` for which

    k < c  if and only if  the frame at k ends at the cut or before it,

for every place `k` of a frame.  `Resumes` collects what is promised of the segment that is opened
then: it holds the first `c` entries and shows nothing else (`Shows`), the history has heard their
memberships behind what it knew, the file ends behind the last of them, and the next entry is
appended there.

A short tail behind a boundary is treated with the same lemma (`resumes_of_unfinished`), whatever
bytes it has, as long as they are fewer than a header.
-/
import RaftReplica.Proofs.Log.Opening
import RaftReplica.Proofs.Log.Written

namespace RaftReplica

open RaftReplica.Frame Disk

namespace Frame

variable {index n : Nat} {fs : List Framed} {bs : Bytes}

/-- What is shorter than a header is unfinished. -/
theorem unfinished_of_length_lt (h : bs.length < headerSize) : Unfinished bs := by
  intro file offset index
  rw [readFrom, dif_pos]
  exact Nat.lt_of_le_of_lt (List.length_take_le' _ _) h

/-- **Wherever a row of frames is cut**, the frames that end before the cut are left, and an
unfinished one behind them. -/
theorem exists_cut (hrow : Row index fs) (n : Nat) : ∃ c ≤ fs.length,
    (∀ k < fs.length, k < c ↔ (bytesOf (fs.take (k + 1))).length ≤ n) ∧
      ∃ rest, (bytesOf fs).take n = bytesOf (fs.take c) ++ rest ∧ Unfinished rest := by
  -- on the row: the cut is in the first frame, or behind it
  induction fs generalizing index n with
  | nil => exact ⟨0, Nat.le_refl _, by simp, [], by simp, unfinished_nil⟩
  | cons f fs ih =>
    obtain ⟨hf, hrow⟩ := hrow
    by_cases hn : n < f.bytes.length
    · -- the cut is in the first frame
      refine ⟨0, Nat.zero_le _, fun k _ => ?_, f.bytes.take n, ?_, hf.unfinished hn⟩
      · rw [List.take_succ_cons, bytesOf_cons, List.length_append]
        omega
      · rw [bytesOf_cons, List.take_append_of_le_length (Nat.le_of_lt hn)]
        rfl
    · obtain ⟨c, hc, hends, rest, hcut, hrest⟩ := ih hrow (n - f.bytes.length)
      refine ⟨c + 1, Nat.succ_le_succ hc, fun k hk => ?_, rest, ?_, hrest⟩
      · rw [List.take_succ_cons, bytesOf_cons, List.length_append]
        cases k with
        | zero =>
          rw [List.take_zero, bytesOf_nil, List.length_nil]
          omega
        | succ k =>
          have hend := hends k (Nat.lt_of_succ_lt_succ hk)
          omega
      · rw [bytesOf_cons, List.take_append, hcut, List.take_of_length_le (by omega),
          List.take_succ_cons, bytesOf_cons, List.append_assoc]

end Frame

namespace Segment

variable {d : Disk} {v : Volume} {h : MembershipHistory} {l : Location} {p : Path} {s : Segment}
  {k first c : Nat} {rest : Bytes} {es : List Entry}

/-- The segment and its file hold the entries, from index `first` on, and nothing else. -/
structure Shows (d : Disk) (s : Segment) (first : Nat) (es : List Entry) : Prop where
  file : d.read s.path = .ok (encoding es)
  start : s.first = first
  last : s.last + 1 = first + es.length
  bytes : s.bytes = (encoding es).length
  get : ∀ i, s.get i d = .ok (if first ≤ i then es[i - first]? else none)
  term : ∀ i, s.term i =
    .ok (((if first ≤ i then es[i - first]? else none).map Entry.term).getD 0)

/-- A segment that was read from a row shows the entries in it. -/
theorem shows_opened (home : d.directoryAt p = .ok l) (hfirst : 1 ≤ first)
    (hrow : Row first (es.map framed))
    (hi : d.item? ((fresh p first).place l) = some (.file k (encoding es))) :
    ((fresh p first).opened k (es.map framed)).Shows d first es := by
  have hrange : (fresh p first).RightRange (es.map framed) := fun hclosed => nomatch hclosed
  -- a file of whole frames is held by the segment that reads it
  have hholds : ((fresh p first).opened k (es.map framed)).Holds d l p (es.map framed) :=
    holds_opened rfl hfirst hrow hrange hi
  have hname : ((fresh p first).opened k (es.map framed)).name = (fresh p first).name :=
    name_opened hfirst hrange
  have hentry (i : Nat) : (es.map framed)[i]?.map Framed.entry = es[i]? := by
    rw [← List.getElem?_map, map_entry_framed]
  refine ⟨?_, rfl, ?_, rfl, fun i => ?_, fun i => ?_⟩
  · exact read_path home rfl (by rwa [place_eq_of_name hname])
  · rw [hholds.last, List.length_map]
    rfl
  · rw [hholds.get, hentry]
    rfl
  · rw [hholds.term, ← hentry, show ((fresh p first).opened k (es.map framed)).first = first from rfl]
    split
    · rw [Option.map_map]
      rfl
    · rfl

/-- A new segment on the volume loads the first `c` of the entries, tells the history of their
memberships, cuts the rest off its file and touches nothing else; and the entry that is appended
next stands behind them. -/
def Resumes (v : Volume) (l : Location) (p : Path) (h : MembershipHistory) (first : Nat)
    (es : List Entry) (c : Nat) : Prop :=
  ∃ s v', (fresh p first).load.runOn ⟨h, v⟩ =
      (.ok s, ⟨h.heard (memberships (es.take c)), v'⟩) ∧
    s.Shows v'.disk first (es.take c) ∧
    (∀ m, m ≠ (fresh p first).place l → v'.disk.item? m = v.disk.item? m) ∧
    ∀ e : Entry, e.Fits → e.index = first + c → ∃ s' v'',
      (s.append e).runOn v' = (.ok s', v'') ∧ s'.Shows v''.disk first (es.take c ++ [e])

/-- Whole frames with something unfinished behind them are loaded, and it is cut off. -/
theorem runOn_load_cut {m : Mounted MembershipHistory} {fs : List Framed}
    (home : m.volume.disk.directoryAt p = .ok l) (hw : m.volume.disk.WellFormed)
    (hfirst : 1 ≤ first)
    (hi : m.volume.disk.item? ((fresh p first).place l) = some (.file k (bytesOf fs ++ rest)))
    (hrest : Unfinished rest) (hrow : Row first fs)
    (hasc : Ascending (m.store.entries ++ told fs)) :
    ∃ v', (fresh p first).load.runOn m =
        (.ok ((fresh p first).opened k fs), ⟨m.store.heard (told fs), v'⟩) ∧
      Puts m.volume.disk v'.disk ((fresh p first).place l) (some (.file k (bytesOf fs))) := by
  have hrange : (fresh p first).RightRange fs := fun hclosed => nomatch hclosed
  by_cases hnil : rest = []
  · rw [hnil, List.append_nil] at hi
    exact ⟨m.volume, runOn_load home rfl hfirst hi hrow hrange hasc, hw.puts hi⟩
  · obtain ⟨v', hset, hput⟩ := Volume.runOn_setLength hw hi (n := (bytesOf fs).length)
      (by rw [List.length_append]; omega)
    rw [List.take_left] at hput
    exact ⟨v', runOn_load_unfinished home rfl hi hrest hrow hasc hfirst hrange hnil hset, hput⟩

/-- Whatever unfinished bytes stand behind the first `c` frames, a new segment resumes from them. -/
theorem resumes_of_unfinished (hw : v.disk.WellFormed) (home : v.disk.directoryAt p = .ok l)
    (hfirst : 1 ≤ first) (hrow : Row first (es.map framed)) (hc : c ≤ es.length)
    (hasc : Ascending h.entries) (hbelow : ∀ m ∈ h.entries, m.index < first)
    (hi : v.disk.item? ((fresh p first).place l) =
      some (.file k (encoding (es.take c) ++ rest))) (hrest : Unfinished rest) :
    Resumes v l p h first es c := by
  have hkept : Row first ((es.take c).map framed) := by
    rw [List.map_take]
    exact hrow.take c
  have hlen : ((es.take c).map framed).length = c := by
    rw [List.length_map, List.length_take_of_le hc]
  have htold : told ((es.take c).map framed) = memberships (es.take c) := by
    rw [told, map_entry_framed]
  have hheard : Ascending (h.entries ++ told ((es.take c).map framed)) := by
    obtain ⟨hrange, htold⟩ := index_told hkept
    refine List.pairwise_append.2 ⟨hasc, htold, fun a ha b hb => ?_⟩
    exact Nat.lt_of_lt_of_le (hbelow a ha) (hrange b hb).1
  obtain ⟨v', hload, hput⟩ := runOn_load_cut (m := ⟨h, v⟩) home hw hfirst hi hrest hkept hheard
  rw [htold] at hload
  have home' : v'.disk.directoryAt p = .ok l := hput.directoryAt (by rw [hi]; simp) home
  refine ⟨_, v', hload, shows_opened home' hfirst hkept hput.item?_self,
    fun m hm => hput.item?_ne hm, fun e he hindex => ?_⟩
  obtain ⟨v'', happend, hput'⟩ := runOn_append_opened hput.wellFormed hfirst (e := e) he.body
    (by rw [hlen, hindex]) hput.item?_self
  have home'' : v''.disk.directoryAt p = .ok l :=
    hput'.directoryAt (by rw [hput.item?_self]; simp) home'
  have hmap : (es.take c).map framed ++ [framed e] = (es.take c ++ [e]).map framed := by
    rw [List.map_append, List.map_singleton]
  have hgrown : Row first ((es.take c ++ [e]).map framed) := by
    rw [← hmap]
    refine row_append_iff.2 ⟨hkept, ?_, trivial⟩
    rw [hlen, ← hindex]
    exact whole_framed he
  rw [hmap] at happend hput'
  exact ⟨_, v'', happend, shows_opened home'' hfirst hgrown hput'.item?_self⟩

/-- **A write that was cut short is forgotten**, and nothing else.  Entries are written to a new
segment from `first` on, and a history is given that knows of nothing from there on.  If the file is
cut to its first `n` bytes, a new segment on it keeps the entries whose frames end within these, and
goes on from there; and so it does if the file is cut behind one of the frames and whatever stands
there then is shorter than a header. -/
theorem torn_tail_dropped (hw : v.disk.WellFormed) (home : v.disk.directoryAt p = .ok l)
    (hplace : v.disk.item? ((fresh p first).place l) ≠ some .directory) (hfirst : 1 ≤ first)
    (hes : Consecutive first es) (hfits : ∀ e ∈ es, e.Fits) (hasc : Ascending h.entries)
    (hbelow : ∀ m ∈ h.entries, m.index < first) :
    ∃ s v₁, (record p first es).runOn v = (.ok s, v₁) ∧ s.Shows v₁.disk first es ∧
      (∀ n, ∃ v₂, (Volume.edit s.path (·.take n)).runOn v₁ = (.ok (), v₂) ∧
        ∃ c ≤ es.length, (∀ k < es.length, k < c ↔ (encoding (es.take (k + 1))).length ≤ n) ∧
          Resumes v₂ l p h first es c) ∧
      ∀ c ≤ es.length, ∀ tail : Bytes, tail.length < headerSize → ∃ v₂,
        (Volume.edit s.path fun bs => bs.take (encoding (es.take c)).length ++ tail).runOn v₁ =
          (.ok (), v₂) ∧ Resumes v₂ l p h first es c := by
  have hrow := row_framed hes hfits
  obtain ⟨k, v₁, hrun, hput⟩ :=
    runOn_record hw home hfirst hes (fun e he => (hfits e he).body) hplace
  have home₁ : v₁.disk.directoryAt p = .ok l := hput.directoryAt hplace home
  -- after an edit, what matters is how the bytes split
  have hedited (f : Bytes → Bytes) (c : Nat) (hc : c ≤ es.length) (rest : Bytes)
      (hsplit : f (encoding es) = encoding (es.take c) ++ rest) (hrest : Unfinished rest) :
      ∃ v₂, (Volume.edit ((fresh p first).opened k (es.map framed)).path f).runOn v₁ =
        (.ok (), v₂) ∧ Resumes v₂ l p h first es c := by
    obtain ⟨v₂, hedit, hput₂⟩ := Volume.runOn_edit home₁
      (SegmentName.plain_text (.writable first)) hput.wellFormed hput.item?_self f
    have home₂ : v₂.disk.directoryAt p = .ok l :=
      Puts.directoryAt hput₂ (show v₁.disk.item? ((fresh p first).place l) ≠ _ by
        rw [hput.item?_self]; simp) home₁
    refine ⟨v₂, hedit, ?_⟩
    refine resumes_of_unfinished (k := k) hput₂.wellFormed home₂ hfirst hrow hc hasc hbelow ?_ hrest
    rw [← hsplit]
    exact hput₂.item?_self
  refine ⟨_, v₁, hrun, shows_opened home₁ hfirst hrow hput.item?_self, fun n => ?_,
    fun c hc tail htail => ?_⟩
  · obtain ⟨c, hc, hends, rest, hcut, hrest⟩ := exists_cut hrow n
    rw [List.length_map] at hc hends
    rw [← List.map_take] at hcut
    obtain ⟨v₂, hedit, hresumes⟩ := hedited (·.take n) c hc rest hcut hrest
    refine ⟨v₂, hedit, c, hc, fun k hk => ?_, hresumes⟩
    rw [hends k hk, encoding, List.map_take]
  · refine hedited (fun bs => bs.take (encoding (es.take c)).length ++ tail) c hc tail ?_
      (unfinished_of_length_lt htail)
    rw [encoding, encoding, List.map_take, take_bytesOf]

/-- The last of a change of membership and some data loses its last byte; the history knows of the
membership before. -/
theorem torn_tail_dropped_lastByte :
    let voter : Peer := { ip := .v4 127 0 0 1, port := 1, idx := 0 }
    let arbiter : Peer := { ip := .v4 127 0 0 1, port := 2, idx := 7, role := .witness }
    let change : Entry := .ofPeers 1 5 [voter, arbiter] (some [voter])
    let es : List Entry := [change, .ofData 2 6 [1, 2, 3]]
    let h : MembershipHistory := ⟨[⟨⟨1, 3⟩, .ofList [voter], .empty⟩], .initial⟩
    ∃ s v₁ v₂ s' v₃, (record (.ofText ".") 5 es).runOn (.ofDisk .empty) = (.ok s, v₁) ∧
      (Volume.edit s.path (·.take ((encoding es).length - 1))).runOn v₁ = (.ok (), v₂) ∧
      (fresh (.ofText ".") 5).load.runOn ⟨h, v₂⟩ = (.ok s', ⟨h.heard [.ofEntry change], v₃⟩) ∧
      s'.Shows v₃.disk 5 [change] := by
  intro voter arbiter change es h
  have hchange : change.Fits := by
    refine ⟨by decide, by decide, by decide +kernel, fun ps hps => ?_, fun ps hps => ?_⟩
    · obtain rfl := Option.some.inj hps
      decide
    · obtain rfl := Option.some.inj hps
      decide
  have hfits : ∀ e ∈ es, e.Fits := by
    intro e he
    rcases List.mem_cons.1 he with rfl | he
    · exact hchange
    · obtain rfl := List.mem_singleton.1 he
      exact ⟨by decide, by decide, by decide, nofun, nofun⟩
  have hes : Consecutive 5 es := ⟨rfl, rfl, trivial⟩
  obtain ⟨s, v₁, hrun, -, hcut, -⟩ := torn_tail_dropped (v := .ofDisk .empty) (l := [])
    (p := .ofText ".") (h := h) wellFormed_empty (by decide +kernel) (by decide +kernel)
    (by decide) hes hfits (List.pairwise_singleton _ _) (by decide)
  obtain ⟨v₂, hedit, c, hc, hends, s', v₃, hload, hshows, -⟩ := hcut ((encoding es).length - 1)
  have hfirst : 0 < c := (hends 0 (by decide)).2 (by decide +kernel)
  have hsecond : ¬ 1 < c := mt (hends 1 (by decide)).1 (by decide +kernel)
  obtain rfl : c = 1 := by omega
  exact ⟨s, v₁, v₂, s', v₃, hrun, hedit, hload, hshows⟩

end Segment
end RaftReplica
