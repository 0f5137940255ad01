/-
RaftReplica/Proofs/Uri.lean

Uris that are built from a path, and what they name.  A uri is built by putting the path behind its
scheme as it is, while a uri that is read loses its blanks, and its path ends at the first question
mark.  So it names the path it was built from exactly if the path has no such character
(`StorageUri.names_iff`).

A copy follows the text of the directory that a reader holds, not the directory itself.  Both lead
the same way: the text has a slash less where the directory's own text ends in one, and a blank part
leads nowhere.

Three uris are built from the directory of a replica, one for each of its stores, and one from the
directory of each snapshot.  What is put behind the directory is bare in all four, so each names its
path exactly if the directory is bare (`built_uris_name_iff`).

* Reading: `Bare` is proved to be necessary and sufficient in one go.  If a question mark is left
  when the blanks are gone, what is in front of it is shorter than the path; if none is left,
  nothing was dropped exactly if there were no blanks (`path_ofHalves_eq_iff`).
* Directories: the parts of a text are those of the directory up to one blank part in front of the
  last one (`exists_parts_text`), and walking over it goes nowhere (`walk_blank`).
* Readers: whoever opens a snapshot gets a reader in the directory of that snapshot
  (`ensures_openAt`, `ensures_openLatest`).
-/
import Mathlib.Data.Prod.Basic
import RaftReplica.Options
import RaftReplica.Proofs.Peer
import RaftReplica.Proofs.Snapshot.Store
import RaftReplica.Snapshot.Copying

namespace RaftReplica

/-! ### Cuts -/

namespace Text

variable {α : Type} [DecidableEq α] {sep : α} {cs : List α}

/-- A text is not cut if the mark is not in it. -/
theorem cut_eq_none_iff : cut sep cs = none ↔ sep ∉ cs := by
  induction cs with
  | nil => simp [cut]
  | cons c cs ih =>
    rw [cut, List.mem_cons, not_or]
    split
    · next hc => simp [hc]
    · next hc => simp [ih, Ne.symm hc]

/-- A separator anywhere parts the fields. -/
theorem split_append_sep (sep : α) (as bs : List α) :
    split sep (as ++ sep :: bs) = split sep as ++ split sep bs := by
  induction as with
  | nil => exact split_append List.not_mem_nil bs
  | cons a as ih =>
    rw [List.cons_append, split, split, ih]
    split
    · rfl
    · obtain ⟨field, rest, hsplit⟩ := List.exists_cons_of_ne_nil (split_ne_nil sep as)
      rw [hsplit]
      rfl

end Text

open Text

/-! ### Reading what was built -/

namespace StorageUri

variable {s t : String}

/-- The text has no blanks, and no question mark. -/
def Bare (s : String) : Prop := ∀ c ∈ s.toList, isBlank c = false ∧ c ≠ '?'

instance (s : String) : Decidable (Bare s) :=
  List.decidableBAll (fun c => isBlank c = false ∧ c ≠ '?') s.toList

theorem bare_append : Bare (s ++ t) ↔ Bare s ∧ Bare t := by
  rw [Bare, String.toList_append, List.forall_mem_append]
  rfl

/-- The uri is read as the directory at a path, without any parameters. -/
def Names (uri path : String) : Prop := parse uri = .ok ⟨"local", path, .empty⟩

/-- A uri that is built is read as its scheme and what is left of the path without blanks. -/
theorem parse_local (s : String) :
    parse ("local://" ++ s) = .ok (ofHalves "local".toList (removeBlanks s.toList)) := by
  have hmark : cutAt mark ("local://" ++ s).toList = some ("local".toList, s.toList) := by
    rw [String.toList_append]
    rfl
  have htrim : trim "local".toList = "local".toList := by decide
  rw [parse, halves?, hmark]
  dsimp only [Option.map_some]
  rw [htrim, if_neg (by decide)]

/-- The path that is read is the whole text only if nothing was taken away from it. -/
theorem path_ofHalves_eq_iff (scheme : List Char) :
    (ofHalves scheme (removeBlanks s.toList)).path = s ↔ Bare s := by
  have hpath : (ofHalves scheme (removeBlanks s.toList)).path = s ↔
      ((cut '?' (removeBlanks s.toList)).getD (removeBlanks s.toList, [])).1 = s.toList := by
    rw [← String.toList_inj, ofHalves, String.toList_ofList]
  have hself : removeBlanks s.toList = s.toList ↔ ∀ c ∈ s.toList, isBlank c = false := by
    simp [removeBlanks, List.filter_eq_self]
  rw [hpath]
  -- split as the path is cut: at the end, or at a question mark
  cases hcut : cut '?' (removeBlanks s.toList) with
  | none =>
    rw [Option.getD_none, hself]
    rw [cut_eq_none_iff] at hcut
    refine ⟨fun h c hc => ⟨h c hc, ?_⟩, fun h c hc => (h c hc).1⟩
    rintro rfl
    rw [hself.2 h] at hcut
    exact hcut hc
  | some halves =>
    obtain ⟨front, rest⟩ := halves
    rw [Option.getD_some]
    have hsplit : removeBlanks s.toList = front ++ '?' :: rest := eq_of_cut hcut
    refine ⟨fun h => ?_, fun h => ?_⟩
    · -- the front is shorter than the text
      have hlen : (removeBlanks s.toList).length ≤ s.toList.length := List.length_filter_le _ _
      rw [hsplit, List.length_append, List.length_cons, show front = s.toList from h] at hlen
      omega
    · rw [hself.2 fun c hc => (h c hc).1] at hsplit
      exact absurd rfl (h '?' (by simp [hsplit])).2

/-- A bare path is followed by no parameters. -/
theorem params_ofHalves (scheme : List Char) (h : Bare s) :
    (ofHalves scheme (removeBlanks s.toList)).params = .empty := by
  have hself : removeBlanks s.toList = s.toList :=
    List.filter_eq_self.2 fun c hc => by simp [(h c hc).1]
  have hcut : cut '?' s.toList = none := cut_eq_none_iff.2 fun hc => (h _ hc).2 rfl
  rw [ofHalves, hself, hcut]
  rfl

/-- **A uri that is built from a path** names it exactly if the path has no blanks and no question
mark. -/
theorem names_iff : Names ("local://" ++ s) s ↔ Bare s := by
  rw [Names, parse_local, Except.ok.injEq, ← path_ofHalves_eq_iff "local".toList]
  refine ⟨fun h => congrArg StorageUri.path h, fun h => ?_⟩
  have hparams := params_ofHalves "local".toList ((path_ofHalves_eq_iff _).1 h)
  cases hu : ofHalves "local".toList (removeBlanks s.toList) with
  | mk scheme path params =>
    have hscheme : String.ofList "local".toList = scheme := congrArg StorageUri.scheme hu
    rw [hu] at h hparams
    obtain rfl := hscheme
    obtain rfl : path = s := h
    obtain rfl : params = .empty := hparams
    rfl

end StorageUri

open StorageUri

/-- A copy from such a uri goes to the path it was built from exactly if it names it. -/
theorem SnapshotStore.sourceOf_eq_iff {s : String} (hs : s ≠ "") :
    sourceOf ("local://" ++ s) = .ok (.ofText s) ↔ Bare s := by
  have hscheme : (ofHalves "local".toList (removeBlanks s.toList)).scheme = "local" := rfl
  have hsource : sourceOf ("local://" ++ s) =
      (ofHalves "local".toList (removeBlanks s.toList)).requirePath.map Path.ofText := by
    rw [sourceOf, parse_local]
    dsimp only [bind, Except.bind]
    rw [if_neg fun hne => hne hscheme]
    cases (ofHalves "local".toList (removeBlanks s.toList)).requirePath <;> rfl
  rw [hsource, ← path_ofHalves_eq_iff "local".toList, requirePath]
  -- the path read is empty, which is refused, or it is the place to copy from
  split
  · next hempty =>
    rw [String.isEmpty_iff] at hempty
    exact ⟨nofun, fun h => absurd (h.symm.trans hempty) hs⟩
  · refine ⟨fun h => ?_, fun h => by rw [h]; rfl⟩
    exact congrArg Path.base (Except.ok.inj h)

/-! ### Directories and their texts -/

namespace Disk

variable {d : Disk} {l : Location} {front rest : List String}

/-- A blank part leads nowhere. -/
theorem walk_blank (hl : d.node? l = some .directory) (hrest : rest ≠ []) :
    d.walk l (front ++ "" :: rest) = d.walk l (front ++ rest) := by
  -- by induction on the parts in front of the blank one
  induction front generalizing l with
  | nil =>
    obtain ⟨part, parts, rfl⟩ := List.exists_cons_of_ne_nil hrest
    have hstep : step l "" = l := if_pos (.inl rfl)
    rw [List.nil_append, List.nil_append, walk, hstep, hl]
    simp
  | cons a front ih =>
    -- both ways take the same step first
    rw [List.cons_append, List.cons_append, walk, walk]
    · split
      · next hdir => exact ih hdir
      · rfl
      · rfl
    · simp [hrest]
    · simp

end Disk

namespace Path

variable {base name : String}

/-- The text of an entry has the parts of the entry, apart from a blank one before the last. -/
theorem exists_parts_text (base : String) (hn : '/' ∉ name.toList) :
    ∃ front, (ofText ((ofText base).entry name).text).parts = front ++ [name] ∧
      (((ofText base).entry name).parts = front ++ [name] ∨
        ((ofText base).entry name).parts = front ++ "" :: [name]) := by
  -- split as the two texts are joined: nothing in front, a slash at its end, or neither
  have hparts (s : String) : (ofText s).parts = (split '/' s.toList).map String.ofList :=
    List.append_nil _
  have hjoin (s : String) : (ofText (s ++ "/" ++ name)).parts = (ofText s).parts ++ [name] := by
    have hlist : (s ++ "/" ++ name).toList = s.toList ++ '/' :: name.toList := by simp
    rw [hparts, hlist, split_append_sep, split_of_notMem hn, List.map_append, ← hparts]
    simp
  have htext : ((ofText base).entry name).text = joinText base name := rfl
  rw [htext, joinText, parts_entry]
  split
  · next hempty =>
    rw [String.isEmpty_iff] at hempty
    refine ⟨[], ?_, .inr ?_⟩
    · rw [hparts, split_of_notMem hn]
      simp
    · rw [hempty]
      rfl
  split
  · next hslash =>
    obtain ⟨cs, hcs⟩ := List.getLast?_eq_some_iff.1 hslash
    have hbase : base = String.ofList cs ++ "/" := by
      rw [← String.toList_inj, hcs]
      simp
    refine ⟨(ofText (String.ofList cs)).parts, hbase ▸ hjoin _, .inr ?_⟩
    rw [hparts base, hcs, split_append_sep, List.map_append, ← String.toList_ofList (l := cs),
      ← hparts]
    simp [split]
  · exact ⟨(ofText base).parts, hjoin base, .inl rfl⟩

/-- **An entry and its text** lead to the same place below them, on every disk. -/
theorem lookup_text (base : String) (hn : '/' ∉ name.toList) (d : Disk) (other : String) :
    d.lookup ((ofText ((ofText base).entry name).text).entry other) =
      d.lookup (((ofText base).entry name).entry other) := by
  obtain ⟨front, htext, hentry⟩ := exists_parts_text base hn
  have hlocate : d.locate ((ofText ((ofText base).entry name).text).entry other) =
      d.locate (((ofText base).entry name).entry other) := by
    have hne (p : Path) : (p.entry other).isEmpty = false := by simp [isEmpty, entry]
    rw [Disk.locate, Disk.locate, hne, hne, parts_entry, parts_entry, htext]
    -- the same parts, or a blank one more
    rcases hentry with hentry | hentry
    · rw [hentry]
    · have hblank : d.walk [] (front ++ "" :: [name, other]) = d.walk [] (front ++ [name, other]) :=
        Disk.walk_blank rfl (by simp)
      rw [hentry]
      simpa using hblank.symm
  rw [Disk.lookup, Disk.lookup, hlocate]

end Path

/-! ### Readers and copies -/

namespace SnapshotStore

open SnapshotName

variable {p : Path}

/-- The store lives in the directory. -/
def LivesIn (p : Path) (m : Mounted SnapshotStore) : Prop := m.store.directory = p

theorem ensures_stored : Act.Ensures (LivesIn p) Mounted.stored fun s => s.directory = p :=
  fun _ hm => ⟨hm, fun _ hs => Except.ok.inj hs ▸ hm⟩

/-- A change that leaves the directory leaves the store where it is. -/
theorem ensures_update {f : SnapshotStore → SnapshotStore}
    (hf : ∀ s, (f s).directory = s.directory) :
    Act.Ensures (LivesIn p) (Mounted.update f) fun _ => True :=
  fun m hm => ⟨(hf m.store).trans hm, fun _ _ => trivial⟩

theorem ensures_onVolume {α : Type} (x : Act Volume α) :
    Act.Ensures (LivesIn p) (Mounted.onVolume x) fun _ => True :=
  fun _ hm => ⟨hm, fun _ _ => trivial⟩

/-- Holding a snapshot does not move the store. -/
theorem ensures_hold (index : Nat) : Act.Ensures (LivesIn p) (hold index) fun _ => True := by
  unfold hold
  refine .bind ensures_stored fun s _ => ?_
  split
  · exact ensures_update fun _ => rfl
  · exact .fail _

/-- Letting go of a snapshot does not move it either. -/
theorem ensures_release (index : Nat) : Act.Ensures (LivesIn p) (release index) fun _ => True := by
  unfold release
  refine .bind ensures_stored fun s _ => ?_
  split
  · exact .pure trivial
  split
  · exact ensures_update fun _ => rfl
  · exact .bind (ensures_update fun _ => rfl) fun _ _ => ensures_onVolume _

/-- What is opened is the directory of a snapshot in the store. -/
theorem ensures_openAt (index : Nat) :
    Act.Ensures (LivesIn p) (openAt index) fun r => r.directory = p.entry (published index) := by
  unfold openAt
  refine .bind (ensures_hold index) fun _ _ => .bind ensures_stored fun s hs =>
    .bind (ensures_onVolume _).attempt fun r _ => ?_
  split
  · exact .pure (by rw [place, hs])
  · exact .bind (ensures_release index) fun _ _ => .throw _

/-- A reader of the latest snapshot is in the directory of some snapshot. -/
theorem ensures_openLatest : Act.Ensures (LivesIn p) openLatest fun r =>
    ∀ reader, r = some reader → ∃ index, reader.directory = p.entry (published index) := by
  unfold openLatest
  refine .bind ensures_stored fun s _ => ?_
  split
  · exact .pure nofun
  · refine .bind (ensures_openAt s.last).attempt fun r hr => .pure fun reader hreader => ?_
    cases r with
    | ok a => exact ⟨s.last, hr reader (congrArg Except.ok (Option.some.inj hreader))⟩
    | error e => nomatch hreader

theorem slash_notMem_published (index : Nat) : '/' ∉ (published index).toList := by
  rw [published, String.toList_append, List.mem_append, not_or]
  exact ⟨by decide, Numeral.notMem_of_ofDigits? (Numeral.ofDigits?_padded index) rfl⟩

/-- The name of a snapshot's directory is bare. -/
theorem bare_published (index : Nat) : Bare (published index) := by
  refine bare_append.2 ⟨by decide, fun c hc => ?_⟩
  have hdigit := Numeral.digitValue?_isSome_of_mem (Numeral.ofDigits?_padded index) hc
  refine ⟨Peer.isBlank_of_digit hdigit, ?_⟩
  rintro rfl
  exact absurd hdigit (by decide)

/-- A bare name behind a directory is bare if the directory is. -/
theorem bare_joinText {base name : String} (hn : Bare name) :
    Bare (Path.joinText base name) ↔ Bare base := by
  have hslash : Bare "/" := by decide
  rw [Path.joinText]
  split
  · next hempty =>
    rw [String.isEmpty_iff] at hempty
    rw [hempty]
    exact ⟨fun _ => by decide, fun _ => hn⟩
  split
  · exact bare_append.trans (and_iff_left hn)
  · rw [bare_append, bare_append]
    exact (and_iff_left hn).trans (and_iff_left hslash)

/-- The path of a snapshot is not empty. -/
theorem joinText_published_ne (base : String) (index : Nat) :
    Path.joinText base (published index) ≠ "" := by
  have hname : published index ≠ "" := (plain_published index).1
  rw [Path.joinText]
  split
  · exact hname
  split
  · simp [hname]
  · simp [hname]

/-- A copy goes to the directory that its uri names. -/
theorem runOn_startCopy {uri : String} {source : Path} (h : sourceOf uri = .ok source)
    (t : SnapshotStore) (v : Volume) : (startCopy uri).runOn ⟨t, v⟩ = (.ok t.copies.length,
      ⟨{ t with copies := t.copies ++ [{ source, throttle := t.throttle }] }, v⟩) := by
  rw [startCopy, Act.runOn_bind_ok (Act.runOn_ofExcept_ok h _),
    Act.runOn_bind_ok (Mounted.runOn_stored _), Act.runOn_bind_ok (Mounted.runOn_update _ _)]
  rfl

end SnapshotStore

open SnapshotStore SnapshotName

/-- **The uris that are built for a directory** are read as its log, its ballots and its snapshots
without any parameters, exactly if its path has no blanks and no question mark.  The same goes for
the uri of every reader that a store in this directory opens: only then a copy from it into another
store goes by the text of the reader's directory, which leads to the same files on every disk. -/
theorem built_uris_name_iff (d : String) :
    (Names (Options.below d).logUri (d ++ "/log") ↔ Bare d) ∧
    (Names (Options.below d).ballotUri (d ++ "/raft_meta") ↔ Bare d) ∧
    (Names (Options.below d).snapshotUri (d ++ "/snapshot") ↔ Bare d) ∧
    ∀ (s t : SnapshotStore) (v w : Volume) (r : SnapshotReader) (m : Mounted SnapshotStore),
      s.directory = .ofText d →
      ((∃ index, (openAt index).runOn ⟨s, v⟩ = (.ok r, m)) ∨
        openLatest.runOn ⟨s, v⟩ = (.ok (some r), m)) →
      (Names r.uri r.directory.text ↔ Bare d) ∧
      (sourceOf r.uri = .ok (.ofText r.directory.text) ↔ Bare d) ∧
      (∀ (disk : Disk) (name : String),
        disk.lookup ((Path.ofText r.directory.text).entry name) =
          disk.lookup (r.directory.entry name)) ∧
      (Bare d → (startCopy r.uri).runOn ⟨t, w⟩ = (.ok t.copies.length,
        ⟨{ t with copies := t.copies ++
            [{ source := .ofText r.directory.text, throttle := t.throttle }] }, w⟩)) := by
  have hbelow {tail : String} (htail : Bare tail) :
      Names ("local://" ++ d ++ tail) (d ++ tail) ↔ Bare d := by
    rw [String.append_assoc, names_iff, bare_append, and_iff_left htail]
  refine ⟨hbelow (by decide), hbelow (by decide), hbelow (by decide), ?_⟩
  intro s t v w r m hs hopen
  -- of either reader only its directory matters
  obtain ⟨index, hr⟩ : ∃ index, r.directory = (Path.ofText d).entry (published index) := by
    rcases hopen with ⟨index, hopen⟩ | hopen
    · exact ⟨index, (ensures_openAt index ⟨s, v⟩ hs).2 r (congrArg Prod.fst hopen)⟩
    · exact (ensures_openLatest ⟨s, v⟩ hs).2 (some r) (congrArg Prod.fst hopen) r rfl
  have htext : r.directory.text = Path.joinText d (published index) := by
    rw [hr]
    rfl
  have hbare : Bare r.directory.text ↔ Bare d := htext ▸ bare_joinText (bare_published index)
  have hne : r.directory.text ≠ "" := htext ▸ joinText_published_ne d index
  have hsource : sourceOf r.uri = .ok (.ofText r.directory.text) ↔ Bare d :=
    (sourceOf_eq_iff hne).trans hbare
  refine ⟨names_iff.trans hbare, hsource, fun disk name => ?_,
    fun h => runOn_startCopy (hsource.2 h) t w⟩
  rw [hr]
  exact Path.lookup_text d (slash_notMem_published index) disk name

/-- A store that holds a snapshot, in a directory with a short name. -/
def SnapshotStore.holding : Mounted SnapshotStore :=
  ⟨{ directory := .ofText "s", sync := false, last := 5, holders := Table.empty.insert 5 1 },
    .ofDisk (Disk.empty.replay [.makeDirectory ["s"], .makeDirectory ["s", published 5],
      .create ["s", published 5, table], .write 0 0
        (Record.frame (Json.encode (SnapshotTable.mk (some ⟨⟨1, 5⟩, .empty, .empty⟩) .empty)))])⟩

/-- The latest snapshot of such a store is opened, and its uri names its directory. -/
theorem built_uris_name_iff_latest : ∃ r m, openLatest.runOn holding = (.ok (some r), m) ∧
    Names r.uri r.directory.text ∧ sourceOf r.uri = .ok (.ofText r.directory.text) := by
  let r : SnapshotReader :=
    ⟨5, (Path.ofText "s").entry (published 5), ⟨some ⟨⟨1, 5⟩, .empty, .empty⟩, .empty⟩⟩
  have hopen : openLatest.runOn holding = (.ok (some r), (openLatest.runOn holding).2) :=
    Prod.fst_eq_iff.1 (by decide +kernel)
  have hbare : Bare "s" := by decide
  obtain ⟨hnames, hsource, -, -⟩ := (built_uris_name_iff "s").2.2.2 holding.store holding.store
    holding.volume holding.volume r _ rfl (.inr hopen)
  exact ⟨r, _, hopen, hnames.2 hbare, hsource.2 hbare⟩

/-- **A blank is lost and a question mark ends the path**: the log is read as another directory, and
so is a snapshot that shall be copied. -/
theorem built_uris_mislead :
    (Options.below "a b").logUri = "local://a b/log" ∧
    StorageUri.parse "local://a b/log" = .ok ⟨"local", "ab/log", .empty⟩ ∧
    (Options.below "a?b").logUri = "local://a?b/log" ∧
    StorageUri.parse "local://a?b/log" = .ok ⟨"local", "a", Table.empty.insert "b/log" ""⟩ ∧
    sourceOf ("local://" ++ ((Path.ofText "a b").entry (published 10)).text) =
      .ok (.ofText ("ab/" ++ published 10)) :=
  ⟨by decide, by decide +kernel, by decide, by decide +kernel, by decide +kernel⟩

end RaftReplica
