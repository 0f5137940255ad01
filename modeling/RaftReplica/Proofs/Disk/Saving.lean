/-
RaftReplica/Proofs/Disk/Saving.lean

Saving a record, at any path and whatever is on the disk.  A record may be too large, its draft may
not be made, or a directory may stand in its place; a reader then finds what was there before.  A
record for which none of this is true is saved.  `Record.replaced_of_save` says both, and
`Record.runOn_save_leftover` that the draft of an earlier save is no reason.

Every path leads the same way as an entry of some directory, so it is enough to know what the calls
do to entries.  Three steps can fail, in this order:

* the text does not fit into a frame, and nothing was done (`runOn_save_tooLarge`);
* the draft cannot be made, and nothing was done (`runOn_save_undrafted`);
* the draft cannot be renamed, and stays (`runOn_save_refused`).

The third depends on the path: the empty path and a path that ends in dots or in a slash name no
entry, and an entry that is a directory is not replaced.  `Replaceable` is the conjunction of what
has to be true for a save to succeed, and `Replaced` says what follows from it and from its
negation, with an equivalence in between; so no result of a save is left open.

The cause of an error is the same on every disk where the same step fails, which is why it stands
before the quantifiers in `runOn_save_refused`.
-/
import RaftReplica.Proofs.Disk.Outside
import RaftReplica.Proofs.Disk.Record

namespace RaftReplica

open Disk

namespace Volume

variable {v v' : Volume} {p : Path} {l : Location} {name other : String} {e : Failure} {k : Nat}
  {bs : Bytes}

/-- Looking for what is not there fails and changes nothing. -/
theorem runOn_look_error {α : Type} {f : Disk → Except IoCause α} {cause : IoCause}
    (h : f v.disk = .error cause) : (look f).runOn v = (.error (.error (.io cause)), v) := by
  rw [runOn_look, h]
  rfl

theorem runOn_locateEntry_error {cause : IoCause} (h : v.disk.locateEntry p = .error cause) :
    (look (·.locateEntry p)).runOn v = (.error (.error (.io cause)), v) := runOn_look_error h

theorem runOn_locateEntry_ok (h : v.disk.locateEntry p = .ok l) :
    (look (·.locateEntry p)).runOn v = (.ok l, v) := runOn_look_ok h

/-- A file is not made in the place of a directory, and not where no path leads. -/
theorem runOn_create_refused
    (h : ∀ m, v.disk.locateEntry p = .ok m → v.disk.item? m = some .directory) :
    ∃ cause, (create p).runOn v = (.error (.error (.io cause)), v) := by
  cases hl : v.disk.locateEntry p with
  | error cause => exact ⟨cause, by rw [create, Act.runOn_bind_error (runOn_locateEntry_error hl)]⟩
  | ok m =>
    have hcall : v.disk.perform (.create m) = .error .isDirectory := by
      rw [Disk.perform, item?_eq_directory_iff.1 (h m hl)]
    refine ⟨.isDirectory, ?_⟩
    rw [create, Act.runOn_bind_ok (runOn_locateEntry_ok hl)]
    cases p.endsInSlash with
    | true => rfl
    | false => exact Act.runOn_bind_error (runOn_perform_error hcall)

/-- A file cannot be made where a directory is. -/
theorem runOn_create_directory (home : v.disk.directoryAt p = .ok l) (hn : Path.Plain name)
    (hi : v.disk.item? (l ++ [name]) = some .directory) :
    ∃ cause, (create (p.entry name)).runOn v = (.error (.error (.io cause)), v) := by
  refine runOn_create_refused fun m hm => ?_
  rw [locateEntry_entry home hn] at hm
  rw [← Except.ok.inj hm, hi]

/-- Nor is one made where one stands. -/
theorem runOn_create_here (home : v.disk.directoryAt p = .ok l) :
    ∃ cause, (create (p.entry ".")).runOn v = (.error (.error (.io cause)), v) := by
  refine runOn_create_refused fun m hm => ?_
  obtain ⟨hl, hd⟩ := directoryAt_eq_ok_iff.1 home
  have hwalk := walk_concat (locate_eq_walk_of_ok hl) hd "."
  rw [locateEntry_eq_locate (by decide)] at hm
  rw [← Path.parts_entry, locate_eq_walk_of_ok hm] at hwalk
  rw [Except.ok.inj hwalk, item?_eq_directory_iff, step, if_pos (.inr rfl), hd]

/-- A file does not get the name of a directory. -/
theorem runOn_rename_onto_directory (home : v.disk.directoryAt p = .ok l) (hn : Path.Plain name)
    (ho : Path.Plain other) (hne : name ≠ other)
    (hi : v.disk.item? (l ++ [name]) = some (.file k bs))
    (hj : v.disk.item? (l ++ [other]) = some .directory) :
    (rename (p.entry name) (p.entry other)).runOn v = (.error (.error (.io .isDirectory)), v) := by
  have hparent (a : String) : v.disk.hasParent (l ++ [a]) = .ok () := by
    rw [hasParent, List.dropLast_concat, node?_home home]
  have hapart {a b : String} (hab : a ≠ b) : ¬ l ++ [a] <+: l ++ [b] := fun hp =>
    hab (append_name_inj.1 (hp.eq_of_length (by simp)))
  have hnode := (item?_eq_file_iff.1 hi).1
  have hcall : v.disk.perform (.rename (l ++ [name]) (l ++ [other])) = .error .isDirectory := by
    rw [Disk.perform, Disk.rename, hparent, hparent]
    simp only [bind, Except.bind, hnode, if_neg (mt append_name_inj.1 hne), if_neg (hapart hne),
      if_neg (hapart hne.symm), item?_eq_directory_iff.1 hj]
  rw [rename, Act.runOn_bind_ok (runOn_locateEntry home hn),
    Act.runOn_bind_ok (runOn_locateEntry home ho), endsInDots_entry hn, endsInDots_entry ho]
  show Act.runOn (get >>= _) v = _
  rw [Act.runOn_bind_ok (Act.runOn_get v), hnode]
  simp only [endsInSlash_entry hn, endsInSlash_entry ho]
  exact runOn_perform_error hcall

/-- Nor does it get a name that leads to where one stands or up, and the reason is in the name. -/
theorem runOn_rename_unnamed (p : Path) (hother : ¬ Path.Plain other) :
    ∃ cause, ∀ {v : Volume} {l : Location} {name : String} {k : Nat} {bs : Bytes},
      v.disk.directoryAt p = .ok l → Path.Plain name →
      v.disk.item? (l ++ [name]) = some (.file k bs) →
      (rename (p.entry name) (p.entry other)).runOn v = (.error (.error (.io cause)), v) := by
  refine ⟨if (p.entry other).endsInDots then .inUse else .notDirectory, ?_⟩
  intro v l name k bs home hn hi
  obtain ⟨x, hx⟩ := exists_locateEntry home other
  rw [rename, Act.runOn_bind_ok (runOn_locateEntry home hn), Act.runOn_bind_ok (runOn_locateEntry_ok hx),
    endsInDots_entry hn]
  -- a last part that is no name is made of dots, or ends the path in a slash
  cases hdots : (p.entry other).endsInDots with
  | true => rfl
  | false =>
    have hslash := (Path.endsInSlash_or_endsInDots p hother).resolve_right (by simp [hdots])
    show Act.runOn (get >>= _) v = _
    rw [Act.runOn_bind_ok (Act.runOn_get v), (item?_eq_file_iff.1 hi).1]
    simp only [endsInSlash_entry hn, hslash]
    rfl

end Volume

namespace Record

open Volume

variable {α : Type} [JsonForm α] {v v' v₀ v₁ : Volume} {file p : Path} {l m : Location}
  {name : String} {a : α} {d d' : Disk} {e : Failure} {sync : Bool} {k : Nat} {bs : Bytes}

/-- The draft of a record is an entry, and so is the record unless its path is empty. -/
theorem exists_entry (file : Path) : ∃ (p : Path) (name : String), p.isEmpty = false ∧
    Path.SameWay (draft file) (p.entry (name ++ ".tmp")) ∧
    (file.isEmpty = false → Path.SameWay file (p.entry name)) := by
  obtain ⟨front, last, hparts⟩ := (List.eq_nil_or_concat file.parts).resolve_left file.parts_ne_nil
  rw [List.concat_eq_append] at hparts
  exact ⟨.here front, last, rfl, .below_here (Path.isEmpty_withSuffix (by decide) file)
    (Path.parts_withSuffix (by decide) hparts), fun hne => .below_here hne hparts⟩

/-- Saving at a path is saving at the entry that it leads to. -/
theorem save_entry (hfile : Path.SameWay file (p.entry name))
    (hdraft : Path.SameWay (draft file) (p.entry (name ++ ".tmp"))) (a : α) (sync : Bool) :
    save file a sync = save (p.entry name) a sync := by
  simp only [save, draft_entry, hdraft.create, hdraft.rename hfile, hfile.flushParent]

/-- A record that is too large is refused before anything is done. -/
theorem runOn_save_tooLarge (file : Path) (sync : Bool) (h : Numeral.max32 < (Json.encode a).length) :
    (save file a sync).runOn v =
      (.error (.error (.invalidArgument (.recordTooLarge (Json.encode a).length))), v) := by
  rw [save, if_pos h]
  rfl

/-- A record is not saved if its draft cannot be made. -/
theorem runOn_save_undrafted (hsize : (Json.encode a).length ≤ Numeral.max32) (sync : Bool)
    (h : ∀ m, v.disk.locateEntry (draft file) = .ok m → v.disk.item? m = some .directory) :
    ∃ cause, (save file a sync).runOn v = (.error (.error (.io cause)), v) := by
  obtain ⟨cause, hcreate⟩ := runOn_create_refused h
  refine ⟨cause, ?_⟩
  rw [save, if_neg (Nat.not_lt.2 hsize)]
  exact Act.runOn_bind_error hcreate

/-- **A record is not saved in the place of a directory**, nor under no name at all, and the reason
does not depend on what else there is.  Its draft is left behind. -/
theorem runOn_save_refused (file : Path) (hsize : (Json.encode a).length ≤ Numeral.max32)
    (sync : Bool) : ∃ cause, ∀ {v : Volume} {m : Location}, v.disk.WellFormed →
      v.disk.locateEntry (draft file) = .ok m → v.disk.item? m ≠ some .directory →
      (file.isEmpty = true ∨ v.disk.isDirectory file = true) →
      ∃ k v', (save file a sync).runOn v = (.error (.error (.io cause)), v') ∧
        Puts v.disk v'.disk m (some (.file k (frame (Json.encode a)))) := by
  obtain ⟨p, name, hp, hdraft, hfile⟩ := exists_entry file
  have hd := Path.plain_draft name
  -- the draft is written, and cannot get the name
  have hleft {cause : IoCause} {v : Volume} {m : Location} (hw : v.disk.WellFormed)
      (hm : v.disk.locateEntry (draft file) = .ok m) (hi : v.disk.item? m ≠ some .directory)
      (hrename : ∀ {w : Volume} {l : Location} {k : Nat}, m = l ++ [name ++ ".tmp"] →
        v.disk.directoryAt p = .ok l → w.disk.directoryAt p = .ok l →
        Puts v.disk w.disk m (some (.file k (frame (Json.encode a)))) →
        (Volume.rename (draft file) file).runOn w = (.error (.error (.io cause)), w)) :
      ∃ k v', (save file a sync).runOn v = (.error (.error (.io cause)), v') ∧
        Puts v.disk v'.disk m (some (.file k (frame (Json.encode a)))) := by
    rw [hdraft.locateEntry] at hm
    obtain ⟨l, home, rfl⟩ := exists_directoryAt_of_locateEntry hp hd hm
    obtain ⟨k, v', hrun, hput, -⟩ := runOn_save_drafted hdraft hw home hsize sync hi
    refine ⟨k, v', ?_, hput⟩
    rw [hrun, Act.runOn_bind_error (hrename rfl home (hput.directoryAt hi home) hput)]
  cases hne : file.isEmpty with
  | true =>
    refine ⟨.missing, fun {v m} hw hm hi _ => hleft hw hm hi ?_⟩
    rintro w l k rfl - home' -
    have hold := locateEntry_entry home' hd
    rw [← hdraft.locateEntry] at hold
    have hnew : w.disk.locateEntry file = .error .missing := by rw [locateEntry, if_pos hne]
    rw [Volume.rename, Act.runOn_bind_ok (runOn_locateEntry_ok hold),
      Act.runOn_bind_error (runOn_locateEntry_error hnew)]
  | false =>
    replace hfile := hfile hne
    by_cases hn : Path.Plain name
    · refine ⟨.isDirectory, fun {v m} hw hm hi hrecord => hleft hw hm hi ?_⟩
      rintro w l k rfl home home' hput
      have hdir := hrecord.resolve_left (by simp)
      rw [hfile.isDirectory, isDirectory_entry home hn] at hdir
      rw [hdraft.rename hfile]
      exact runOn_rename_onto_directory home' hd hn (draft_ne name) hput.item?_self
        (by rw [hput.item?_ne append_draft_ne.symm, hdir])
    · obtain ⟨cause, hcause⟩ := runOn_rename_unnamed p hn
      refine ⟨cause, fun {v m} hw hm hi _ => hleft hw hm hi ?_⟩
      rintro w l k rfl - home' hput
      rw [hdraft.rename hfile]
      exact hcause home' hd hput.item?_self

/-! ### Whatever there is -/

/-- The record can be saved on the disk: it fits and has a name, its draft can be made, and no
directory is in its place. -/
structure Replaceable (file : Path) (a : α) (d : Disk) : Prop where
  fits : (Json.encode a).length ≤ Numeral.max32
  named : file.isEmpty = false
  drafted : ∃ m, d.locateEntry (draft file) = .ok m ∧ d.item? m ≠ some .directory
  free : d.isDirectory file = false

/-- What saving a record makes of a disk.  If the record can be saved, it is in its place and there
is no draft; if not, what was there is read as before.  Nothing but these two files is touched. -/
structure Replaced (file : Path) (a : α) (d : Disk) (r : Except Failure Unit) (d' : Disk) :
    Prop where
  wellFormed : d'.WellFormed
  ok_iff : r = .ok () ↔ Replaceable file a d
  saved : r = .ok () →
    d'.read file = .ok (frame (Json.encode a)) ∧ d'.lookup (draft file) = .error .missing
  kept : r ≠ .ok () → (∃ e, r = .error (.error e)) ∧ d'.read file = d.read file
  elsewhere : ∀ m, d.locateEntry file ≠ .ok m → d.locateEntry (draft file) ≠ .ok m →
    d'.item? m = d.item? m

/-- A save that failed has replaced nothing, and a reader finds what was there. -/
theorem Replaced.of_error {cause : Error} (hw : d'.WellFormed) (h : ¬ Replaceable file a d)
    (hread : d'.read file = d.read file)
    (hitems : ∀ m, d.locateEntry (draft file) ≠ .ok m → d'.item? m = d.item? m) :
    Replaced file a d (.error (.error cause)) d' :=
  ⟨hw, iff_of_false (by simp) h, by simp, fun _ => ⟨⟨cause, rfl⟩, hread⟩, fun m _ => hitems m⟩

/-- A path that leads to a directory does so after a file was put anywhere. -/
theorem read_of_puts (hput : Puts d d' m (some (.file k bs))) (hm : d.item? m ≠ some .directory)
    (h : file.isEmpty = true ∨ d.isDirectory file = true) : d'.read file = d.read file := by
  -- such a path is never one of a file, so a file elsewhere does not change what is read
  rcases h with hne | hdir
  · have hnone (d : Disk) : d.read file = .error .missing := by
      rw [Disk.read, fileAt, lookup, Disk.locate, if_pos hne]
      rfl
    rw [hnone, hnone]
  · have hread {d : Disk} {l : Location} (home : d.directoryAt file = .ok l) :
        d.read file = .error .isDirectory := by
      obtain ⟨hl, hd⟩ := directoryAt_eq_ok_iff.1 home
      rw [Disk.read, fileAt, lookup, hl]
      simp only [bind, Except.bind, hd]
    obtain ⟨l, home⟩ := isDirectory_iff.1 hdir
    rw [hread home, hread (hput.directoryAt hm home)]

/-- A record that can be replaced is. -/
theorem Replaceable.replaced (h : Replaceable file a v.disk) (hw : v.disk.WellFormed) (sync : Bool) :
    ∃ v', (save file a sync).runOn v = (.ok (), v') ∧
      Replaced file a v.disk (.ok ()) v'.disk := by
  obtain ⟨p, name, hp, hdraft, hfile⟩ := exists_entry file
  replace hfile := hfile h.named
  obtain ⟨m, hm, hi⟩ := h.drafted
  have hfree := h.free
  rw [hdraft.locateEntry] at hm
  obtain ⟨l, home, rfl⟩ := exists_directoryAt_of_locateEntry hp (Path.plain_draft name) hm
  rw [hfile.isDirectory] at hfree
  have hn : Path.Plain name := by
    by_contra hn
    rw [isDirectory_unnamed hw home hn] at hfree
    exact Bool.false_ne_true hfree.symm
  have hrecord : v.disk.item? (l ++ [name]) ≠ some .directory := by
    rw [Ne, ← isDirectory_entry home hn, hfree]
    exact Bool.false_ne_true
  obtain ⟨k, v', hrun, hw', hitems, -⟩ := runOn_save hw home hn h.fits sync hi hrecord
  have home' := directoryAt_of_renamed hitems hi hrecord home
  rw [← save_entry hfile hdraft] at hrun
  refine ⟨v', hrun, hw', iff_of_true rfl h, fun _ => ⟨?_, ?_⟩,
    fun hr => absurd rfl hr, fun x hx hxd => ?_⟩
  · rw [hfile.read, Disk.read_entry home' hn, hitems, Function.update_self]
  · have hnone : v'.disk.item? (l ++ [name ++ ".tmp"]) = none := by
      rw [hitems, Function.update_of_ne append_draft_ne, Function.update_self]
    rw [hdraft.lookup, lookup_entry home' (Path.plain_draft name), item?_eq_none_iff.1 hnone]
  · rw [hfile.locateEntry, locateEntry_entry home hn] at hx
    rw [hdraft.locateEntry, hm] at hxd
    rw [hitems, Function.update_of_ne fun he => hx (congrArg _ he.symm),
      Function.update_of_ne fun he => hxd (congrArg _ he.symm)]

/-- If the draft can be made, only the record's own path can be the reason. -/
theorem refused_of_not_replaceable (h : ¬ Replaceable file a d)
    (hsize : (Json.encode a).length ≤ Numeral.max32) (hm : d.locateEntry (draft file) = .ok m)
    (hi : d.item? m ≠ some .directory) : file.isEmpty = true ∨ d.isDirectory file = true := by
  by_contra hfree
  simp only [not_or, Bool.not_eq_true] at hfree
  exact h ⟨hsize, hfree.1, ⟨m, hm, hi⟩, hfree.2⟩

/-- **Every save**, in the place of any path on any disk, leaves the record that was saved or the one
that was there. -/
theorem replaced_of_save (hw : v.disk.WellFormed) (file : Path) (a : α) (sync : Bool) :
    Replaced file a v.disk ((save file a sync).runOn v).1 ((save file a sync).runOn v).2.disk := by
  by_cases h : Replaceable file a v.disk
  · obtain ⟨v', hrun, hreplaced⟩ := h.replaced hw sync
    rw [hrun]
    exact hreplaced
  by_cases hsize : (Json.encode a).length ≤ Numeral.max32
  · by_cases hdrafted : ∃ m, v.disk.locateEntry (draft file) = .ok m ∧
        v.disk.item? m ≠ some .directory
    · obtain ⟨m, hm, hi⟩ := hdrafted
      have hrefused := refused_of_not_replaceable h hsize hm hi
      obtain ⟨cause, hcause⟩ := runOn_save_refused file hsize sync
      obtain ⟨k, v', hrun, hput⟩ := hcause hw hm hi hrefused
      rw [hrun]
      exact .of_error hput.wellFormed h (read_of_puts hput hi hrefused) fun x hx =>
        hput.item?_ne fun he => hx (he ▸ hm)
    · have hnot (m : Location) (hm : v.disk.locateEntry (draft file) = .ok m) :
          v.disk.item? m = some .directory := by
        by_contra hi
        exact hdrafted ⟨m, hm, hi⟩
      obtain ⟨cause, hrun⟩ := runOn_save_undrafted hsize sync hnot
      rw [hrun]
      exact .of_error hw h rfl fun _ _ => rfl
  · rw [runOn_save_tooLarge file sync (Nat.not_le.1 hsize)]
    exact .of_error hw h rfl fun _ _ => rfl

/-- **A record that is not saved** is the one that was there. -/
theorem read_of_save_error (hw : v.disk.WellFormed) (h : (save file a sync).runOn v = (.error e, v')) :
    v'.disk.WellFormed ∧ v'.disk.read file = v.disk.read file := by
  have hreplaced := replaced_of_save hw file a sync
  rw [h] at hreplaced
  exact ⟨hreplaced.wellFormed, (hreplaced.kept (by simp)).2⟩

/-- **A record that was saved** fits, and it is in its place. -/
theorem item?_of_save_ok {u : Unit} (hw : v.disk.WellFormed) (home : v.disk.directoryAt p = .ok l)
    (hn : Path.Plain name) (h : (save (p.entry name) a sync).runOn v = (.ok u, v')) :
    (Json.encode a).length ≤ Numeral.max32 ∧ ∃ k, v'.disk.item? =
      Function.update (Function.update v.disk.item? (l ++ [name ++ ".tmp"]) none) (l ++ [name])
        (some (.file k (frame (Json.encode a)))) := by
  have hreplaced := replaced_of_save hw (p.entry name) a sync
  rw [h] at hreplaced
  obtain ⟨hsize, -, ⟨m, hm, hi⟩, hfree⟩ := hreplaced.ok_iff.1 rfl
  rw [draft_entry, locateEntry_entry home (Path.plain_draft name)] at hm
  obtain rfl := Except.ok.inj hm
  have hrecord : v.disk.item? (l ++ [name]) ≠ some .directory := by
    rw [Ne, ← isDirectory_entry home hn, hfree]
    exact Bool.false_ne_true
  obtain ⟨k, w, hrun, -, hitems, -⟩ := runOn_save hw home hn hsize sync hi hrecord
  rw [hrun] at h
  obtain rfl := (Prod.mk.inj h).2
  exact ⟨hsize, k, hitems⟩

/-! ### What is left of a draft -/

section

variable {item : Option Item} (hput : Puts d d' m item) (hi : d.item? m ≠ some .directory)
  (hm : d.locateEntry (draft file) = .ok m)

include hput hi hm

theorem locateEntry_draft_of_puts : d'.locateEntry (draft file) = .ok m := by
  obtain ⟨p, name, hp, hdraft, -⟩ := exists_entry file
  have hd := Path.plain_draft name
  obtain ⟨l, home, rfl⟩ :=
    exists_directoryAt_of_locateEntry hp hd ((hdraft.locateEntry d).symm.trans hm)
  rw [hdraft.locateEntry, locateEntry_entry (hput.directoryAt hi home) hd]

theorem Replaceable.of_puts (hw : d.WellFormed) (hitem : item ≠ some .directory)
    (h : Replaceable file a d) : Replaceable file a d' := by
  have hi' : d'.item? m ≠ some .directory := hput.item?_self ▸ hitem
  refine ⟨h.fits, h.named, ⟨m, locateEntry_draft_of_puts hput hi hm, hi'⟩, ?_⟩
  by_contra hdir
  obtain ⟨l, home⟩ := isDirectory_iff.1 (Bool.not_eq_false _ ▸ hdir)
  have hfree := isDirectory_iff.2 ⟨l, (hput.back hw).directoryAt hi' home⟩
  rw [h.free] at hfree
  exact Bool.false_ne_true hfree

end

/-- **What an earlier save has left** in the place of the draft changes nothing: the record is read
as without it, and saving it again has the same result. -/
theorem runOn_save_leftover (a : α) (sync : Bool) (hw : v₀.disk.WellFormed)
    (hput : Puts v₀.disk v₁.disk m (some (.file k bs))) (hi : v₀.disk.item? m ≠ some .directory)
    (hm : v₀.disk.locateEntry (draft file) = .ok m) :
    v₁.disk.read file = v₀.disk.read file ∧
      ((save file a sync).runOn v₁).1 = ((save file a sync).runOn v₀).1 := by
  obtain ⟨p, name, hp, hdraft, hfile⟩ := exists_entry file
  have hi' : v₁.disk.item? m ≠ some .directory := by
    rw [hput.item?_self]
    simp
  have hm' := locateEntry_draft_of_puts hput hi hm
  refine ⟨?_, ?_⟩
  · obtain ⟨l, home, rfl⟩ := exists_directoryAt_of_locateEntry hp (Path.plain_draft name)
      ((hdraft.locateEntry _).symm.trans hm)
    cases hne : file.isEmpty with
    | true => exact read_of_puts hput hi (.inl hne)
    | false =>
      by_cases hn : Path.Plain name
      · rw [(hfile hne).read, (hfile hne).read, Disk.read_entry (hput.directoryAt hi home) hn,
          Disk.read_entry home hn, hput.item?_ne append_draft_ne.symm]
      · refine read_of_puts hput hi (.inr ?_)
        rw [(hfile hne).isDirectory, isDirectory_unnamed hw home hn]
  · by_cases h : Replaceable file a v₀.disk
    · obtain ⟨v, hrun, -⟩ := h.replaced hw sync
      obtain ⟨v', hrun', -⟩ := (h.of_puts hput hi hm hw (by simp)).replaced hput.wellFormed sync
      rw [hrun, hrun']
    have h' : ¬ Replaceable file a v₁.disk :=
      fun h' => h (h'.of_puts (hput.back hw) hi' hm' hput.wellFormed hi)
    by_cases hsize : (Json.encode a).length ≤ Numeral.max32
    · obtain ⟨cause, hcause⟩ := runOn_save_refused file hsize sync
      obtain ⟨-, v, hrun, -⟩ := hcause hw hm hi (refused_of_not_replaceable h hsize hm hi)
      obtain ⟨-, v', hrun', -⟩ :=
        hcause hput.wellFormed hm' hi' (refused_of_not_replaceable h' hsize hm' hi')
      rw [hrun, hrun']
    · rw [runOn_save_tooLarge file sync (Nat.not_le.1 hsize),
        runOn_save_tooLarge file sync (Nat.not_le.1 hsize)]

end Record
end RaftReplica
