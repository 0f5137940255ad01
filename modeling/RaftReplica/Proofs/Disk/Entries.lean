/-
RaftReplica/Proofs/Disk/Entries.lean

The entries of a directory.  A path to a directory, `d.directoryAt p = .ok l`, leads to its entries
by one more name, and keeps doing so while nothing but files is changed.  What the calls of a volume
do to an entry is said by one lemma for each: the calls on a file that is there, or can be made, do
not fail, and put something in its one place.

Two conditions occur throughout.  The name has to be one (`Path.Plain`), since a part that is empty
or made of dots leads elsewhere; and the item in its place has to be such that the call does what it
is for:

* `runOn_create` needs that no directory is there;
* `runOn_removeFile` and `runOn_openFile` need a file;
* `runOn_rename` needs a file under the old name and no directory under the new one.

The other results of these calls are errors that leave the disk alone; those that some proof needs
are here too (`runOn_removeFile_missing`, `runOn_removeFile_directory`).

A listing is known up to its order: the names are distinct, and a name is in it exactly if something
is in its place (`exists_list`).
-/
import Mathlib.Data.List.Nodup
import RaftReplica.Proofs.Act
import RaftReplica.Proofs.Disk.Items

namespace RaftReplica

/-- The name leads to an entry, not to where one stands or up. -/
def Path.Plain (name : String) : Prop := name ≠ "" ∧ name ≠ "." ∧ name ≠ ".."

namespace Disk

variable {d d' : Disk} {p : Path} {l : Location} {name : String} {k : Nat} {bs : Bytes}

/-! ### Where paths lead -/

theorem step_plain (hn : Path.Plain name) : step l name = l ++ [name] := by
  obtain ⟨h₁, h₂, h₃⟩ := hn
  rw [step, if_neg (by simp [h₁, h₂]), if_neg h₃]

/-- The parts of a path are walked one by one, and all but the last lead to directories. -/
theorem walk_cons_eq_ok_iff {m : Location} {part : String} {rest : List String}
    (hne : rest ≠ []) : d.walk m (part :: rest) = .ok l ↔
      d.node? (step m part) = some .directory ∧ d.walk (step m part) rest = .ok l := by
  obtain ⟨next, rest, rfl⟩ := List.exists_cons_of_ne_nil hne
  rw [walk]
  · split
    · next hs => simp [hs]
    · next hs => simp [hs]
    · next hs => simp [hs]
  · exact hne

/-- A path with another name behind it leads where the name does from there. -/
theorem walk_concat {m : Location} {parts : List String} (h : d.walk m parts = .ok l)
    (hd : d.node? l = some .directory) (name : String) :
    d.walk m (parts ++ [name]) = .ok (step l name) := by
  -- on the parts, from any directory
  induction parts generalizing m with
  | nil =>
    rw [walk] at h
    rw [List.nil_append, walk, Except.ok.inj h]
  | cons part rest ih =>
    rw [List.cons_append, walk_cons_eq_ok_iff (by simp)]
    by_cases hrest : rest = []
    · subst hrest
      rw [walk] at h
      rw [Except.ok.inj h, List.nil_append, walk]
      exact ⟨hd, rfl⟩
    · obtain ⟨hs, h⟩ := (walk_cons_eq_ok_iff hrest).1 h
      exact ⟨hs, ih h⟩

/-- A path leads nowhere with a name behind it unless it leads to a directory. -/
theorem exists_walk_of_concat {m : Location} {parts : List String}
    (h : d.walk m (parts ++ [name]) = .ok l) (hparts : parts ≠ []) :
    ∃ x, d.walk m parts = .ok x ∧ d.node? x = some .directory ∧ l = step x name := by
  induction parts generalizing m with
  | nil => exact absurd rfl hparts
  | cons part parts ih =>
    rw [List.cons_append] at h
    obtain ⟨hstep, hwalk⟩ := (walk_cons_eq_ok_iff (by simp)).1 h
    by_cases hnil : parts = []
    · subst hnil
      exact ⟨step m part, rfl, hstep, (Except.ok.inj hwalk).symm⟩
    · obtain ⟨x, hx, hdir, rfl⟩ := ih hwalk hnil
      exact ⟨x, (walk_cons_eq_ok_iff hnil).2 ⟨hstep, hx⟩, hdir, rfl⟩

/-- A walk only asks for directories: one that leads to a place on two disks leads there on a third
that has the directories which both have. -/
theorem walk_common {d₁ d₂ : Disk} (hcommon : ∀ m, d₁.node? m = some .directory →
      d₂.node? m = some .directory → d'.node? m = some .directory)
    {m : Location} {parts : List String} (h₁ : d₁.walk m parts = .ok l)
    (h₂ : d₂.walk m parts = .ok l) : d'.walk m parts = .ok l := by
  induction parts generalizing m with
  | nil => exact h₁
  | cons part rest ih =>
    by_cases hrest : rest = []
    · subst hrest
      exact h₁
    · obtain ⟨hs₁, h₁⟩ := (walk_cons_eq_ok_iff hrest).1 h₁
      obtain ⟨hs₂, h₂⟩ := (walk_cons_eq_ok_iff hrest).1 h₂
      exact (walk_cons_eq_ok_iff hrest).2 ⟨hcommon _ hs₁ hs₂, ih h₁ h₂⟩

/-- A path leads to a directory if it leads there and one is there. -/
theorem directoryAt_eq_ok_iff :
    d.directoryAt p = .ok l ↔ d.locate p = .ok l ∧ d.node? l = some .directory := by
  unfold directoryAt lookup
  cases hl : d.locate p with
  | error e => simp [bind, Except.bind]
  | ok m =>
    simp only [bind, Except.bind, Except.ok.injEq]
    cases hm : d.node? m with
    | none => simp only [reduceCtorEq, false_iff, not_and]; rintro rfl; simp [hm]
    | some n =>
      cases n with
      | directory =>
        simp only [Except.ok.injEq]
        constructor
        · rintro rfl
          exact ⟨rfl, hm⟩
        · exact fun h => h.1
      | file j => simp only [reduceCtorEq, false_iff, not_and]; rintro rfl; simp [hm]

/-- The empty path leads nowhere. -/
theorem isEmpty_of_directoryAt (h : d.directoryAt p = .ok l) : p.isEmpty = false := by
  have hl := (directoryAt_eq_ok_iff.1 h).1
  unfold locate at hl
  split at hl
  · exact absurd hl (by simp)
  · next he => exact Bool.eq_false_iff.2 he

/-- Where a path leads is found by walking its parts from the top. -/
theorem locate_eq_walk_of_ok (h : d.locate p = .ok l) : d.walk [] p.parts = .ok l := by
  unfold locate at h
  split at h
  · exact absurd h (by simp)
  · exact h

section

variable (home : d.directoryAt p = .ok l)

include home

theorem node?_home : d.node? l = some .directory := (directoryAt_eq_ok_iff.1 home).2

/-- An entry is one name further. -/
theorem locate_entry (hn : Path.Plain name) : d.locate (p.entry name) = .ok (l ++ [name]) := by
  obtain ⟨hl, hd⟩ := directoryAt_eq_ok_iff.1 home
  have hempty : (p.entry name).isEmpty = false := by simp [Path.isEmpty, Path.entry]
  rw [locate, hempty, Path.parts_entry]
  have hwalk := walk_concat (locate_eq_walk_of_ok hl) hd name
  rwa [step_plain hn] at hwalk

/-- The calls find the entry in the same place. -/
theorem locateEntry_entry (hn : Path.Plain name) :
    d.locateEntry (p.entry name) = .ok (l ++ [name]) := by
  have hparts : (p.entry name).entryParts = (p.entry name).parts := by
    rw [Path.entryParts, Path.parts_entry, List.reverse_append]
    simp [hn.1]
  have hl := locate_entry home hn
  rw [locate] at hl
  rw [locateEntry, hparts, hl]

/-- A file is found by the path of its entry. -/
theorem fileAt_entry (hn : Path.Plain name) (hi : d.item? (l ++ [name]) = some (.file k bs)) :
    d.fileAt (p.entry name) = .ok k := by
  rw [fileAt, lookup, locate_entry home hn]
  simp only [bind, Except.bind, (item?_eq_file_iff.1 hi).1]

/-- Opening finds a file, or nothing was there, or a directory. -/
theorem exists_file_of_fileAt (hn : Path.Plain name) (h : d.fileAt (p.entry name) = .ok k) :
    ∃ bs, d.item? (l ++ [name]) = some (.file k bs) := by
  rw [fileAt, lookup, locate_entry home hn] at h
  simp only [bind, Except.bind] at h
  cases hnode : d.node? (l ++ [name]) with
  | none => rw [hnode] at h; exact absurd h (by simp)
  | some n =>
    rw [hnode] at h
    cases n with
    | directory => exact absurd h (by simp)
    | file j => exact ⟨_, item?_eq_file_iff.2 ⟨by rw [hnode, Except.ok.inj h], rfl⟩⟩

/-- What is read at an entry is what is in its place. -/
theorem read_entry (hn : Path.Plain name) :
    d.read (p.entry name) = match d.item? (l ++ [name]) with
      | some (.file _ bs) => .ok bs
      | some .directory => .error .isDirectory
      | none => .error .missing := by
  rw [read, fileAt, lookup, locate_entry home hn, item?]
  simp only [bind, Except.bind]
  cases hnode : d.node? (l ++ [name]) with
  | none => rfl
  | some n => cases n <;> rfl

theorem list_eq : d.list p = .ok (d.nodes.filterMap fun n => nameBelow? l n.1) := by
  rw [list, home]
  rfl

end

/-- A name right below is the last part. -/
theorem nameBelow?_eq_some_iff {m : Location} : nameBelow? l m = some name ↔ m = l ++ [name] := by
  unfold nameBelow?
  rcases List.eq_nil_or_concat m with rfl | ⟨r, last, rfl⟩
  · simp
  · rw [List.concat_eq_append, List.dropLast_concat, List.getLast?_concat]
    constructor
    · intro h
      split at h
      · next hr => rw [hr, Option.some.inj h]
      · exact absurd h (by simp)
    · intro h
      obtain ⟨rfl, hlast⟩ := List.append_inj' h rfl
      rw [if_pos rfl, (List.cons.inj hlast).1]

/-- A directory lists the names of its entries, each of them once. -/
theorem exists_list (h : d.WellFormed) (home : d.directoryAt p = .ok l) :
    ∃ names, d.list p = .ok names ∧ names.Nodup ∧
      ∀ name, name ∈ names ↔ (d.item? (l ++ [name])).isSome := by
  refine ⟨_, list_eq home, ?_, ?_⟩
  -- distinct locations in one directory have distinct names
  · have hmap : (d.nodes.filterMap fun n => nameBelow? l n.1) =
        (d.nodes.map Prod.fst).filterMap (nameBelow? l) := by
      rw [List.filterMap_map]
      rfl
    rw [hmap]
    apply h.distinct.filterMap
    intro a a' b ha ha'
    rw [nameBelow?_eq_some_iff.1 ha, nameBelow?_eq_some_iff.1 ha']
  · intro name
    rw [List.mem_filterMap, item?_isSome_iff, Option.isSome_iff_exists]
    constructor
    · rintro ⟨x, hx, hb⟩
      exact ⟨x.2, h.node?_eq_some_iff.2 (.inr (nameBelow?_eq_some_iff.1 hb ▸ hx))⟩
    · rintro ⟨n, hn⟩
      rcases h.node?_eq_some_iff.1 hn with ⟨he, -⟩ | hm
      · simp at he
      · exact ⟨_, hm, nameBelow?_eq_some_iff.2 rfl⟩

/-- What can be listed is a directory. -/
theorem directoryAt_of_list {names : List String} (h : d.list p = .ok names) :
    ∃ l, d.directoryAt p = .ok l := by
  unfold list at h
  cases hd : d.directoryAt p with
  | error e => rw [hd] at h; exact absurd h (by simp [bind, Except.bind])
  | ok l => exact ⟨l, rfl⟩

/-- A path leads the same way on a disk with the directories that two others share. -/
theorem directoryAt_common {d₁ d₂ : Disk} (hcommon : ∀ m, d₁.item? m = some .directory →
      d₂.item? m = some .directory → d'.item? m = some .directory)
    (home₁ : d₁.directoryAt p = .ok l) (home₂ : d₂.directoryAt p = .ok l) :
    d'.directoryAt p = .ok l := by
  simp only [item?_eq_directory_iff] at hcommon
  obtain ⟨hl₁, hd₁⟩ := directoryAt_eq_ok_iff.1 home₁
  obtain ⟨hl₂, hd₂⟩ := directoryAt_eq_ok_iff.1 home₂
  refine directoryAt_eq_ok_iff.2 ⟨?_, hcommon l hd₁ hd₂⟩
  unfold locate at hl₁ hl₂ ⊢
  split at hl₁
  · exact absurd hl₁ (by simp)
  · next he =>
    rw [if_neg he] at hl₂ ⊢
    exact walk_common hcommon hl₁ hl₂

/-- With more directories a path leads where it led. -/
theorem directoryAt_mono
    (hmono : ∀ m, d.item? m = some .directory → d'.item? m = some .directory)
    (home : d.directoryAt p = .ok l) : d'.directoryAt p = .ok l :=
  directoryAt_common (fun m hm _ => hmono m hm) home home

/-- Paths to directories lead where they did if only files were put anywhere. -/
theorem Puts.directoryAt {m : Location} {item : Option Item} (h : Puts d d' m item)
    (hm : d.item? m ≠ some .directory) (home : d.directoryAt p = .ok l) :
    d'.directoryAt p = .ok l := by
  refine directoryAt_mono ?_ home
  intro x hx
  rw [h.item?, Function.update_of_ne, hx]
  rintro rfl
  exact hm hx

/-- The same for a file that got another name. -/
theorem directoryAt_of_renamed {m m' : Location} {a b : Option Item}
    (hi : d'.item? = Function.update (Function.update d.item? m a) m' b)
    (hm : d.item? m ≠ some .directory) (hm' : d.item? m' ≠ some .directory)
    (home : d.directoryAt p = .ok l) : d'.directoryAt p = .ok l := by
  refine directoryAt_mono ?_ home
  intro x hx
  rw [hi, Function.update_of_ne, Function.update_of_ne, hx]
  · rintro rfl
    exact hm hx
  · rintro rfl
    exact hm' hx

theorem Puts.item?_self {m : Location} {item : Option Item} (h : Puts d d' m item) :
    d'.item? m = item := by rw [h.item?, Function.update_self]

theorem Puts.item?_ne {m x : Location} {item : Option Item} (h : Puts d d' m item) (hx : x ≠ m) :
    d'.item? x = d.item? x := by rw [h.item?, Function.update_of_ne hx]

theorem append_name_inj {a b : String} : l ++ [a] = l ++ [b] ↔ a = b := by simp

end Disk

/-! ### Calls on an entry -/

namespace Volume

open Disk

variable {v : Volume} {p : Path} {l m : Location} {name other : String} {k : Nat} {bs : Bytes}

theorem runOn_perform {c : Call} {d : Disk} (h : v.disk.perform c = .ok d) :
    (perform c).runOn v = (.ok (), ⟨d, c :: v.journal⟩) := by
  rw [perform, Act.runOn_ofStep, h]

theorem runOn_perform_error {c : Call} {e : IoCause} (h : v.disk.perform c = .error e) :
    (perform c).runOn v = (.error (.error (.io e)), v) := by
  rw [perform, Act.runOn_ofStep, h]

theorem runOn_look {α : Type} (f : Disk → Except IoCause α) :
    (look f).runOn v = (((f v.disk).mapError Error.io).mapError Failure.error, v) := by
  rw [look, Act.runOn_reading]

theorem runOn_look_ok {α : Type} {f : Disk → Except IoCause α} {a : α} (h : f v.disk = .ok a) :
    (look f).runOn v = (.ok a, v) := by
  rw [runOn_look, h]
  rfl

/-- What is seen is there, and the volume is as before. -/
theorem eq_ok_of_look {α : Type} {f : Disk → Except IoCause α} {a : α} {v' : Volume}
    (h : (look f).runOn v = (.ok a, v')) : f v.disk = .ok a ∧ v' = v := by
  obtain ⟨hf, hv⟩ := Act.eq_ok_of_reading h
  exact ⟨Act.eq_ok_of_mapError hf, hv⟩

/-- Writing at the end of a file puts more into it. -/
theorem runOn_write (hw : v.disk.WellFormed) (hi : v.disk.item? m = some (.file k bs))
    {pos : Nat} (hpos : pos = bs.length) (new : Bytes) :
    ∃ v', (write k pos new).runOn v = (.ok (), v') ∧
      Puts v.disk v'.disk m (some (.file k (bs ++ new))) := by
  subst hpos
  refine ⟨_, runOn_perform rfl, puts_changeContent hw hi ?_⟩
  intro c hc
  rw [Content.bytes_write, hc, Bytes.writeAt_length]

/-- Cutting a file leaves what stands before the cut. -/
theorem runOn_setLength (hw : v.disk.WellFormed) (hi : v.disk.item? m = some (.file k bs))
    {n : Nat} (hn : n ≤ bs.length) : ∃ v', (setLength k n).runOn v = (.ok (), v') ∧
      Puts v.disk v'.disk m (some (.file k (bs.take n))) := by
  refine ⟨_, runOn_perform rfl, puts_changeContent hw hi ?_⟩
  intro c hc
  rw [Content.bytes_resize, hc, Bytes.resize, List.length_take, Nat.min_eq_left hn, Nat.sub_self]
  exact List.append_nil _

/-- Flushing a file changes nothing that is seen. -/
theorem runOn_flush (sync : Bool) (k : Nat) :
    ∃ v', (flush sync k).runOn v = (.ok (), v') ∧ v'.disk = v.disk := by
  cases sync with
  | false => exact ⟨v, rfl, rfl⟩
  | true => exact ⟨⟨v.disk, .flush k :: v.journal⟩, rfl, rfl⟩

section

variable (home : v.disk.directoryAt p = .ok l) (hn : Path.Plain name)

include home hn

theorem runOn_openFile (hi : v.disk.item? (l ++ [name]) = some (.file k bs)) :
    (openFile (p.entry name)).runOn v = (.ok k, v) :=
  runOn_look_ok (fileAt_entry home hn hi)

/-- A file that is edited stays where it is. -/
theorem runOn_edit (hw : v.disk.WellFormed) (hi : v.disk.item? (l ++ [name]) = some (.file k bs))
    (f : Bytes → Bytes) : ∃ v', (edit (p.entry name) f).runOn v = (.ok (), v') ∧
      Puts v.disk v'.disk (l ++ [name]) (some (.file k (f bs))) := by
  have hread : v.disk.read (p.entry name) = .ok bs := by rw [read_entry home hn, hi]
  obtain ⟨v₁, hcut, hput₁⟩ := runOn_setLength hw hi (Nat.zero_le _)
  obtain ⟨v₂, hwrite, hput₂⟩ := runOn_write hput₁.wellFormed hput₁.item?_self rfl (f bs)
  refine ⟨v₂, ?_, hput₁.trans hput₂⟩
  rw [edit, Act.runOn_bind_ok (runOn_look_ok hread), Act.runOn_bind_ok (runOn_openFile home hn hi),
    Act.runOn_bind_ok hcut]
  exact hwrite

theorem runOn_locate : (locate (p.entry name)).runOn v = (.ok (l ++ [name]), v) :=
  runOn_look_ok (locate_entry home hn)

theorem runOn_locateEntry :
    (look (·.locateEntry (p.entry name))).runOn v = (.ok (l ++ [name]), v) :=
  runOn_look_ok (locateEntry_entry home hn)

omit home in
theorem endsInDots_entry : (p.entry name).endsInDots = false := by
  have hparts : (p.entry name).entryParts = p.parts ++ [name] := by
    rw [Path.entryParts, Path.parts_entry, List.reverse_append]
    simp [hn.1]
  rw [Path.endsInDots, hparts, List.getLast?_concat]
  simp [hn.2.1, hn.2.2]

omit home in
theorem endsInSlash_entry : (p.entry name).endsInSlash = false := by
  rw [Path.endsInSlash, Path.parts_entry, List.getLast?_concat]
  simpa using hn.1

/-- An empty file is made, or the one that is there is emptied. -/
theorem runOn_create (hw : v.disk.WellFormed) (hi : v.disk.item? (l ++ [name]) ≠ some .directory) :
    ∃ k v', (create (p.entry name)).runOn v = (.ok k, v') ∧
      Puts v.disk v'.disk (l ++ [name]) (some (.file k [])) := by
  -- what the call gives is found under the name that it was made for
  have hrun : ∀ (k : Nat) (d : Disk), v.disk.perform (.create (l ++ [name])) = .ok d →
      Puts v.disk d (l ++ [name]) (some (.file k [])) →
      ∃ k v', (create (p.entry name)).runOn v = (.ok k, v') ∧
        Puts v.disk v'.disk (l ++ [name]) (some (.file k [])) := by
    intro k d hperform hput
    refine ⟨k, ⟨d, .create (l ++ [name]) :: v.journal⟩, ?_, hput⟩
    rw [create, Act.runOn_bind_ok (runOn_locateEntry home hn), endsInSlash_entry hn]
    show (perform _ >>= fun _ => look _).runOn v = _
    rw [Act.runOn_bind_ok (runOn_perform hperform)]
    exact runOn_look_ok (fileAt_entry (hput.directoryAt hi home) hn hput.item?_self)
  -- a new file, or one that loses its bytes
  cases hitem : v.disk.item? (l ++ [name]) with
  | none =>
    have hp : v.disk.HasDirectory (l ++ [name]).dropLast := by
      rw [List.dropLast_concat]
      exact hw.node?_eq_directory_iff.1 (node?_home home)
    refine hrun _ _ ?_ (puts_create hw hitem hp)
    rw [Disk.perform, item?_eq_none_iff.1 hitem]
    simp only [hasParent_of_hasDirectory hw hp]
    rfl
  | some item =>
    cases item with
    | directory => exact absurd hitem hi
    | file k bs =>
      refine hrun k _ ?_ (puts_changeContent hw hitem (f := fun _ => default) fun _ _ => rfl)
      rw [Disk.perform, (item?_eq_file_iff.1 hitem).1]

/-- A whole file is written, over the one that is there. -/
theorem runOn_fill (hw : v.disk.WellFormed) (hi : v.disk.item? (l ++ [name]) ≠ some .directory)
    (bs : Bytes) : ∃ k v', (fill (p.entry name) bs).runOn v = (.ok (), v') ∧
      Puts v.disk v'.disk (l ++ [name]) (some (.file k bs)) := by
  obtain ⟨k, v₁, hcreate, hput₁⟩ := runOn_create home hn hw hi
  obtain ⟨v₂, hwrite, hput₂⟩ := runOn_write hput₁.wellFormed hput₁.item?_self rfl bs
  refine ⟨k, v₂, ?_, hput₁.trans hput₂⟩
  rw [fill, Act.runOn_bind_ok hcreate]
  exact hwrite

/-- A file that is there is removed. -/
theorem runOn_removeFile (hw : v.disk.WellFormed)
    (hi : v.disk.item? (l ++ [name]) = some (.file k bs)) :
    ∃ v', (removeFile (p.entry name)).runOn v = (.ok (), v') ∧
      Puts v.disk v'.disk (l ++ [name]) none := by
  refine ⟨⟨v.disk.drop (l ++ [name]), .removeFile (l ++ [name]) :: v.journal⟩, ?_, puts_drop hw hi⟩
  rw [removeFile, Act.runOn_bind_ok (runOn_locate home hn)]
  apply runOn_perform
  rw [Disk.perform, (item?_eq_file_iff.1 hi).1]

/-- A file that is missing cannot be removed. -/
theorem runOn_removeFile_missing (hi : v.disk.item? (l ++ [name]) = none) :
    (removeFile (p.entry name)).runOn v = (.error (.error (.io .missing)), v) := by
  rw [removeFile, Act.runOn_bind_ok (runOn_locate home hn)]
  apply runOn_perform_error
  rw [Disk.perform, item?_eq_none_iff.1 hi]

/-- A directory is not removed in this way. -/
theorem runOn_removeFile_directory (hi : v.disk.item? (l ++ [name]) = some .directory) :
    (removeFile (p.entry name)).runOn v = (.error (.error (.io .isDirectory)), v) := by
  rw [removeFile, Act.runOn_bind_ok (runOn_locate home hn)]
  apply runOn_perform_error
  rw [Disk.perform, item?_eq_directory_iff.1 hi]

/-- Flushing a directory changes nothing that is seen. -/
theorem runOn_flushParent (sync : Bool) :
    ∃ v', (flushParent sync (p.entry name)).runOn v = (.ok (), v') ∧ v'.disk = v.disk := by
  cases sync with
  | false => exact ⟨v, rfl, rfl⟩
  | true =>
    refine ⟨⟨v.disk, .flushDirectory (l ++ [name]).dropLast :: v.journal⟩, ?_, rfl⟩
    show (locate (p.entry name) >>= fun m => perform (.flushDirectory m.dropLast)).runOn v = _
    rw [Act.runOn_bind_ok (runOn_locate home hn)]
    exact runOn_perform rfl

/-- A file gets another name in its directory, in the place of a file that has it. -/
theorem runOn_rename (hw : v.disk.WellFormed) (ho : Path.Plain other) (hne : name ≠ other)
    (hi : v.disk.item? (l ++ [name]) = some (.file k bs))
    (hj : v.disk.item? (l ++ [other]) ≠ some .directory) :
    ∃ v', (rename (p.entry name) (p.entry other)).runOn v = (.ok (), v') ∧ v'.disk.WellFormed ∧
      v'.disk.item? = Function.update (Function.update v.disk.item? (l ++ [name]) none)
        (l ++ [other]) (some (.file k bs)) := by
  have hp : v.disk.HasDirectory (l ++ [other]).dropLast := by
    rw [List.dropLast_concat]
    exact hw.node?_eq_directory_iff.1 (node?_home home)
  obtain ⟨d', hd, hw', hi'⟩ := rename_file hw hi (mt append_name_inj.1 hne) hj hp
  refine ⟨⟨d', .rename (l ++ [name]) (l ++ [other]) :: v.journal⟩, ?_, hw', hi'⟩
  rw [rename, Act.runOn_bind_ok (runOn_locateEntry home hn),
    Act.runOn_bind_ok (runOn_locateEntry home ho), endsInDots_entry hn, endsInDots_entry ho]
  show Act.runOn (get >>= _) v = _
  rw [Act.runOn_bind_ok (Act.runOn_get v), (item?_eq_file_iff.1 hi).1]
  simp only [endsInSlash_entry hn, endsInSlash_entry ho]
  exact runOn_perform hd

end

/-! ### Making directories -/

/-- Directories that are there are not made again. -/
theorem runOn_makeAll {start : Location} {parts : List String}
    (h : v.disk.walk start parts = .ok l) (hd : v.disk.node? l = some .directory) :
    (makeAll start parts).runOn v = (.ok (), v) := by
  induction parts generalizing start with
  | nil => rfl
  | cons part rest ih =>
    have hstep : v.disk.node? (step start part) = some .directory ∧
        v.disk.walk (step start part) rest = .ok l := by
      by_cases hrest : rest = []
      · subst hrest
        rw [walk] at h
        rw [Except.ok.inj h]
        exact ⟨hd, rfl⟩
      · exact (walk_cons_eq_ok_iff hrest).1 h
    rw [makeAll, Act.runOn_bind_ok (Act.runOn_get v)]
    simp only [hstep.1]
    exact ih hstep.2

/-- Nothing is made for a directory that is there. -/
theorem runOn_makeDirectories (home : v.disk.directoryAt p = .ok l) :
    (makeDirectories p).runOn v = (.ok (), v) := by
  obtain ⟨hl, hd⟩ := directoryAt_eq_ok_iff.1 home
  rw [makeDirectories, isEmpty_of_directoryAt home]
  exact runOn_makeAll (locate_eq_walk_of_ok hl) hd

/-- Whatever call is performed, the disk stays well formed. -/
theorem preserves_perform (c : Call) : Act.Preserves (fun v => v.disk.WellFormed) (perform c) := by
  intro v hv
  cases hc : v.disk.perform c with
  | ok d => rw [runOn_perform hc]; exact hv.perform hc
  | error e => rw [runOn_perform_error hc]; exact hv

/-- While directories are made the disk stays well formed. -/
theorem preserves_makeAll (start : Location) (parts : List String) :
    Act.Preserves (fun v => v.disk.WellFormed) (makeAll start parts) := by
  induction parts generalizing start with
  | nil => exact .pure ()
  | cons part rest ih =>
    refine .bind .get ?_
    intro v
    split
    · exact ih _
    · exact .fail _
    · split
      · exact .bind (.fail _) fun _ => .bind (preserves_perform _) fun _ => ih _
      · exact .bind (preserves_perform _) fun _ => ih _

/-- Making the directories of a path keeps a disk well formed, also if it fails. -/
theorem preserves_makeDirectories (p : Path) :
    Act.Preserves (fun v => v.disk.WellFormed) (makeDirectories p) := by
  unfold makeDirectories
  split
  · exact .pure ()
  · exact preserves_makeAll _ _

end Volume
end RaftReplica
