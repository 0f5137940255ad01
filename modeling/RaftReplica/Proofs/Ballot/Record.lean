/-
RaftReplica/Proofs/Ballot/Record.lean

Ballots in a record.  A ballot is told by its JSON form, and so is a table of ballots, whatever the
groups are called.  A store of ballots remembers what its record tells (`Record.Tells`): reading the
record gives that value, and saving another one leaves a record that tells the new value.  A record
that is not saved is the one that was there (`Record.read_of_save_error`).

The length of a record is told in 32 bits, so a value is saved only if its form is not longer than
that.  One ballot always fits (`Ballot.length_encode_le`): a term has twenty digits at most, a peer
with an address of the fourth version forty characters.  A table may be too long, but it does not
grow when a group is left out (`length_encode_erase_le`); so forgetting a group never fails for the
length.

There are two ways to speak of a record, and one is used to prove the other:

* `Wrote` says which value the record was written from, whether or not it is read again;
* `Tells` says which value it is read as.

A value that is told (`Json.Told`) makes the first into the second (`Tells.of_wrote`), and a record
that tells a value was written from it (`Tells.wrote`).  A record that is not there tells the value
that the store starts with.
-/
import RaftReplica.Ballot.Store
import RaftReplica.Proofs.Disk.Saving
import RaftReplica.Proofs.Json.Records

namespace RaftReplica

open Json JsonForm

/-! ### Told values -/

/-- The term is a 64-bit number, and the peer has an address that is read. -/
structure Ballot.Proper (b : Ballot) : Prop where
  term : b.term ≤ Numeral.max64
  votedFor : b.votedFor.ip.IsV4

namespace Json

/-- A ballot carries the peer it is for. -/
theorem carries_ballot {b : Ballot} (hterm : b.term ≤ Numeral.max64) : Carries b [b.votedFor] := by
  have hterm := told_nat hterm
  have hpeer := carries_peer b.votedFor
  refine ⟨writable_ofFields ?_, ?_⟩
  · simp only [List.forall_mem_cons, List.not_mem_nil, false_implies, implies_true, and_true]
    exact ⟨hterm.writable, hpeer.writable⟩
  · rw [ofJson?_ofFields [("term", toJson b.term), ("voted_for", toJson b.votedFor)] (by simp) rfl]
    simp only [List.map_cons, List.map_nil, Option.bind_some, bind, hterm.read, hpeer.read,
      Peer.ite_allRead_bind, pure]

theorem told_ballot {b : Ballot} (h : b.Proper) : Told b :=
  (carries_ballot h.term).told (Peer.allRead_singleton.2 h.votedFor)

/-- A byte of a text takes six bytes at most, as a code with a backslash in front. -/
theorem length_escapeByte_le (b : UInt8) : (escapeByte b).length ≤ 6 := by
  have hall : ∀ n : Fin 256, (escapeByte (UInt8.ofNat n)).length ≤ 6 := by decide +kernel
  have h := hall ⟨b.toNat, b.toNat_lt⟩
  rwa [UInt8.ofNat_toNat] at h

/-- A text takes at most six bytes for each of its own. -/
theorem length_renderText_le (s : String) : (renderText s).length ≤ 6 * s.utf8ByteSize + 2 := by
  have hflat : ∀ bs : Bytes, (bs.flatMap escapeByte).length ≤ 6 * bs.length := by
    intro bs
    induction bs with
    | nil => simp
    | cons b bs ih =>
      have := length_escapeByte_le b
      rw [List.flatMap_cons, List.length_append, List.length_cons]
      omega
  have h := hflat (Bytes.ofText s)
  have hsize : (Bytes.ofText s).length = s.utf8ByteSize := by
    rw [Bytes.ofText, Array.length_toList]
    exact String.size_toByteArray
  rw [renderText, List.length_append, List.length_cons, List.length_singleton]
  omega

/-- A character takes at most four bytes. -/
theorem utf8ByteSize_ofList_le (cs : List Char) : (String.ofList cs).utf8ByteSize ≤ 4 * cs.length := by
  induction cs with
  | nil => simp
  | cons c cs ih =>
    have hc := c.utf8Size_le_four
    rw [← List.singleton_append, String.ofList_append, String.utf8ByteSize_append,
      List.length_append, List.length_singleton]
    have hone : (String.ofList [c]).utf8ByteSize = c.utf8Size := by simp
    omega

/-- With fewer fields an object takes fewer bytes. -/
theorem length_renderFields_le {fs gs : List (Option String × Json)} (h : fs.Sublist gs) :
    (renderFields fs).length ≤ (renderFields gs).length := by
  -- by induction on what is left out; a field costs its own bytes and a comma
  induction h with
  | slnil => exact Nat.le_refl _
  | @cons fs gs g h ih =>
    refine Nat.le_trans ih ?_
    obtain - | ⟨g', gs⟩ := gs
    · exact length_renderFields_pos [g]
    · rw [renderFields_cons, List.length_append, List.length_cons]
      omega
  | @cons_cons fs gs f h ih =>
    obtain - | ⟨g, gs⟩ := gs
    · exact List.sublist_nil.1 h ▸ Nat.le_refl _
    · obtain - | ⟨f', fs⟩ := fs
      · -- the brace that closes the object is as long as a comma
        rw [renderFields, renderFields_cons]
        simp only [List.length_append, List.length_cons, List.length_nil]
        omega
      · rw [renderFields_cons, renderFields_cons]
        simp only [List.length_append, List.length_cons]
        omega

/-- So does a table without one of its rows. -/
theorem length_encode_erase_le {α : Type} [JsonForm α] (t : Table String α) (k : String) :
    (encode (t.erase k)).length ≤ (encode t).length := by
  have hrows : (t.erase k).rows.Sublist t.rows := List.filter_sublist
  show (renderFields _).length + 1 ≤ (renderFields _).length + 1
  exact Nat.succ_le_succ (length_renderFields_le ((hrows.map _).map _))

end Json

theorem Peer.length_chars_le {p : Peer} (h : p.ip.IsV4) : p.chars.length ≤ 40 := by
  obtain ⟨ip, port, idx, role⟩ := p
  cases ip with
  | v6 => exact absurd h (by simp [Ip.IsV4])
  | v4 a b c d =>
    -- four bytes of three digits, a port of five and an index of ten, with the marks between them
    have byte (x : UInt8) : (Numeral.chars x.toNat).length ≤ 2 + 1 :=
      Numeral.length_chars_le (Nat.lt_trans x.toNat_lt (by decide))
    have hport : (Numeral.chars port.toNat).length ≤ 4 + 1 :=
      Numeral.length_chars_le (Nat.lt_of_lt_of_le port.toNat_lt (by decide))
    have hidx : (Numeral.chars idx.toNat).length ≤ 9 + 1 :=
      Numeral.length_chars_le (Nat.lt_of_lt_of_le idx.toNat_lt (by decide))
    have := byte a; have := byte b; have := byte c; have := byte d
    simp only [chars, Ip.withPort, Ip.chars, Ip.dotted, List.length_append, List.length_cons,
      List.length_nil]
    omega

/-- A single ballot fits into a record. -/
theorem Ballot.length_encode_le {b : Ballot} (h : b.Proper) : (encode b).length ≤ Numeral.max32 := by
  have hterm : (Numeral.chars b.term).length ≤ 19 + 1 :=
    Numeral.length_chars_le (Nat.lt_of_le_of_lt h.term (by decide))
  have hpeer : (renderText b.votedFor.text).length ≤ 6 * (4 * 40) + 2 := by
    have hrender := length_renderText_le b.votedFor.text
    have htext : b.votedFor.text.utf8ByteSize ≤ 4 * b.votedFor.chars.length :=
      utf8ByteSize_ofList_le _
    have := Peer.length_chars_le h.votedFor
    omega
  -- the two names, the term and the text of the peer, with quotes, colons and braces
  have hfields : encode b = render (.object [(some "term", .nat b.term),
      (some "voted_for", .text b.votedFor.text)]) := rfl
  have hkeys : (renderText "term").length = 6 ∧ (renderText "voted_for").length = 11 := by
    decide +kernel
  have hmax : 2048 ≤ Numeral.max32 := by decide
  rw [hfields, render, renderFields, renderFields, Option.getD_some, Option.getD_some, render,
    render]
  · simp only [List.length_cons, List.length_append, List.length_nil, asciis, List.length_map,
      hkeys]
    omega
  · simp

/-! ### What a record was written from -/

namespace Record

open Disk

variable {α : Type} [JsonForm α] {d : Disk} {v v₁ : Volume} {home : Location} {p : Path}
  {name : String} {initial a b : α}

/-- The record in a directory was written from `a`, whether or not it can be read; where there is no
record, `a` is the initial value. -/
structure Wrote (d : Disk) (home : Location) (p : Path) (name : String) (initial a : α) : Prop where
  wellFormed : d.WellFormed
  leads : d.directoryAt p = .ok home
  draft : d.item? (home ++ [name ++ ".tmp"]) ≠ some .directory
  record : (d.item? (home ++ [name]) = none ∧ a = initial) ∨
    ((∃ k, d.item? (home ++ [name]) = some (.file k (frame (encode a)))) ∧
      (encode a).length ≤ Numeral.max32)

namespace Wrote

variable (h : Wrote v.disk home p name initial a)
include h

/-- Another value is saved, and from then on the record was written from it. -/
theorem runOn_save (hn : Path.Plain name) (hsize : (encode b).length ≤ Numeral.max32) (sync : Bool) :
    ∃ v', (save (p.entry name) b sync).runOn v = (.ok (), v') ∧
      (∃ k, v'.disk.item? (home ++ [name]) = some (.file k (frame (encode b)))) ∧
      Wrote v'.disk home p name initial b := by
  have hrecord : v.disk.item? (home ++ [name]) ≠ some .directory := by
    rcases h.record with ⟨hi, -⟩ | ⟨⟨k, hi⟩, -⟩ <;> simp [hi]
  obtain ⟨k, v', hrun, hw', hitems, -⟩ :=
    Record.runOn_save h.wellFormed h.leads hn hsize sync h.draft hrecord
  have hwritten : ∃ k, v'.disk.item? (home ++ [name]) = some (.file k (frame (encode b))) :=
    ⟨k, by rw [hitems, Function.update_self]⟩
  refine ⟨v', hrun, hwritten, hw', directoryAt_of_renamed hitems h.draft hrecord h.leads, ?_,
    .inr ⟨hwritten, hsize⟩⟩
  rw [hitems, Function.update_of_ne append_draft_ne, Function.update_self]
  simp

/-- A record that was written from a value which cannot be read is damaged. -/
theorem runOn_load?_unreadable (hn : Path.Plain name) (ha : a ≠ initial)
    (hdecode : decode? (encode a) = (none : Option α)) :
    (load? (α := α) (p.entry name)).runOn v =
      (.error (.error (.corrupted (.badRecord (p.entry name).text))), v) := by
  rw [Record.runOn_load?, read_entry (α := α) h.leads hn]
  obtain ⟨⟨k, hi⟩, hsize⟩ := h.record.resolve_left fun hnone => ha hnone.2
  have hframe : frame (encode a) = frame (encode a) ++ [] := (List.append_nil _).symm
  rw [hi]
  dsimp only
  rw [parse, hframe, unframe?_frame_append hsize]
  dsimp only
  rw [hdecode]

end Wrote

/-- The record in a directory tells `a`; where there is no record, it tells the initial value. -/
structure Tells (d : Disk) (home : Location) (p : Path) (name : String) (initial a : α) : Prop where
  wellFormed : d.WellFormed
  leads : d.directoryAt p = .ok home
  draft : d.item? (home ++ [name ++ ".tmp"]) ≠ some .directory
  record : (d.item? (home ++ [name]) = none ∧ a = initial) ∨
    ((∃ k, d.item? (home ++ [name]) = some (.file k (frame (encode a)))) ∧ Told a ∧
      (encode a).length ≤ Numeral.max32)

/-- A directory without a record tells the initial value. -/
theorem exists_tells (hw : v.disk.WellFormed) (initial : α)
    (hmake : (Volume.makeDirectories p).runOn v = (.ok (), v₁)) {names : List String}
    (hlist : v₁.disk.list p = .ok names) (hrecord : name ∉ names)
    (hdraft : name ++ ".tmp" ∉ names) : ∃ home, Tells v₁.disk home p name initial initial := by
  have hw₁ := Volume.preserves_makeDirectories p v hw
  rw [hmake] at hw₁
  obtain ⟨home, leads⟩ := directoryAt_of_list hlist
  obtain ⟨names', hlist', -, hmem⟩ := exists_list hw₁ leads
  obtain rfl := Except.ok.inj (hlist'.symm.trans hlist)
  have hnone {n : String} (hn : n ∉ names') : v₁.disk.item? (home ++ [n]) = none := by
    rwa [hmem, Option.not_isSome_iff_eq_none] at hn
  exact ⟨home, hw₁, leads, by rw [hnone hdraft]; simp, .inl ⟨hnone hrecord, rfl⟩⟩

namespace Tells

variable (h : Tells v.disk home p name initial a)
include h

/-- The record is read as what it tells. -/
theorem runOn_load? (hn : Path.Plain name) :
    ∃ found, (load? (p.entry name)).runOn v = (.ok found, v) ∧ found.getD initial = a := by
  have hread := read_entry (α := α) h.leads hn
  rw [Record.runOn_load?, hread]
  rcases h.record with ⟨hi, rfl⟩ | ⟨⟨k, hi⟩, htold, hsize⟩
  · rw [hi]
    exact ⟨none, rfl, rfl⟩
  · rw [hi]
    dsimp only
    rw [parse_frame _ hsize htold.decode?_encode]
    exact ⟨some a, rfl, rfl⟩

omit h in
theorem of_wrote (h : Wrote v.disk home p name initial a) (htold : Told a) :
    Tells v.disk home p name initial a :=
  ⟨h.wellFormed, h.leads, h.draft, h.record.imp id fun ⟨hi, hsize⟩ => ⟨hi, htold, hsize⟩⟩

theorem wrote : Wrote v.disk home p name initial a :=
  ⟨h.wellFormed, h.leads, h.draft, h.record.imp id fun ⟨hi, _, hsize⟩ => ⟨hi, hsize⟩⟩

/-- Another value is saved, and from then on the record tells it. -/
theorem runOn_save (hn : Path.Plain name) (htold : Told b)
    (hsize : (encode b).length ≤ Numeral.max32) (sync : Bool) :
    ∃ v', (save (p.entry name) b sync).runOn v = (.ok (), v') ∧
      Tells v'.disk home p name initial b := by
  obtain ⟨v', hrun, -, hwrote⟩ := h.wrote.runOn_save hn hsize sync
  exact ⟨v', hrun, .of_wrote hwrote htold⟩

end Tells
end Record
end RaftReplica
