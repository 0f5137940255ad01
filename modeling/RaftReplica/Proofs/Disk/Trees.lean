/-
RaftReplica/Proofs/Disk/Trees.lean

Directories with all that is below them: one is made, goes under another name, or is removed.  What
is there afterwards is said of every location at once, so that nothing has to be known of what is
below.

With `l <+: m` for a location `m` at or below `l` the three are

    made      Puts v.disk v'.disk l (some .directory)
    removed   v'.disk.item? m  =  if l <+: m then none else v.disk.item? m
    renamed   v'.disk.item? m  =  what was at the old name, for m at or below the new one,
                                  nothing at or below the old one, and else what was there

Of what was there only one thing is asked: nothing has the new name.  A rename onto an empty
directory is also allowed by the disk; it is not needed here, because directories are renamed to
names that have been cleared.

A path leads through directories, so after such a change it may lead nowhere.  The lemmas give
locations and not paths; whoever uses them knows which paths avoid the change.
-/
import RaftReplica.Proofs.Disk.Crash
import RaftReplica.Proofs.Disk.Entries

namespace RaftReplica

namespace Disk

variable {d d' : Disk} {l m old new : Location}

/-- The location is below the directory at `l`. -/
def Below (l m : Location) : Prop := l <+: m ∧ m ≠ l

theorem below_append {rest : Location} (h : rest ≠ []) : Below l (l ++ rest) :=
  ⟨List.prefix_append l rest, by simpa using h⟩

theorem below_entry (name : String) : Below l (l ++ [name]) := below_append (by simp)

/-- What is below a place is below the directory that it is in, or is in the place itself. -/
theorem eq_or_below_of_below_entry {name : String} (h : Below l (m ++ [name])) : l = m ∨ Below l m := by
  rcases List.prefix_concat_iff.1 h.1 with he | hp
  · exact absurd he.symm h.2
  · exact (eq_or_ne l m).imp id fun hne => ⟨hp, hne.symm⟩

/-- Different names lead to different places, and below different ones. -/
theorem entry_prefix_iff {a b : String} {rest : Location} :
    l ++ [a] <+: l ++ b :: rest ↔ a = b := by
  rw [List.prefix_append_right_inj, List.cons_prefix_cons]
  exact and_iff_left List.nil_prefix

/-- What is below something that is below `l` is itself below `l`. -/
theorem Below.trans_isPrefix (h : Below l m) {x : Location} (hx : m <+: x) : Below l x := by
  refine ⟨h.1.trans hx, ?_⟩
  rintro rfl
  exact h.2 (h.1.eq_of_length_le hx.length_le).symm

/-- Nothing is below what is not a directory. -/
theorem item?_of_below (h : d.WellFormed) (hl : d.item? l ≠ some .directory) (hm : Below l m) :
    d.item? m = none := by
  rw [item?_eq_none_iff, Option.eq_none_iff_forall_ne_some]
  intro n hn
  rcases h.node?_eq_some_iff.1 hn with ⟨rfl, -⟩ | hmem
  · exact hm.2 (List.prefix_nil.1 hm.1).symm
  · exact h.not_below (h.not_hasDirectory hl) hmem hm.2 hm.1

/-- A directory that lists nothing has nothing below it. -/
theorem list_eq_nil_iff {p : Path} (h : d.WellFormed) (leads : d.directoryAt p = .ok l) :
    d.list p = .ok [] ↔ ∀ m, Below l m → d.item? m = none := by
  obtain ⟨names, hlist, -, hmem⟩ := exists_list h leads
  rw [hlist, Except.ok.injEq]
  constructor
  -- without entries there is nothing further down, since parents would be entries
  · rintro rfl m ⟨⟨rest, rfl⟩, hne⟩
    cases rest with
    | nil => exact absurd (List.append_nil l) hne
    | cons name rest =>
      have hnone : d.item? (l ++ [name]) = none := by
        rw [← Option.not_isSome_iff_eq_none, ← hmem name]
        exact List.not_mem_nil
      by_cases hnil : rest = []
      · subst hnil
        exact hnone
      · rw [List.append_cons]
        exact item?_of_below h (by rw [hnone]; simp) (below_append hnil)
  · intro hnone
    refine List.eq_nil_iff_forall_not_mem.2 fun name hname => ?_
    have hsome := (hmem name).1 hname
    rw [hnone _ (below_entry name)] at hsome
    exact absurd hsome (by simp)

/-! ### Removing -/

/-- Dropping takes away what is at the location and below it. -/
theorem item?_drop (h : d.WellFormed) (hl : l ≠ []) (m : Location) :
    (d.drop l).item? m = if l <+: m then none else d.item? m := by
  have hmem (n : Node) : (d.drop l).node? m = some n ↔ ¬ l <+: m ∧ d.node? m = some n := by
    rw [(h.drop l).node?_eq_some_iff, h.node?_eq_some_iff, drop, List.mem_filter]
    constructor
    · rintro (⟨rfl, rfl⟩ | ⟨hm, hnot⟩)
      · exact ⟨fun hp => hl (List.prefix_nil.1 hp), .inl ⟨rfl, rfl⟩⟩
      · exact ⟨by simpa using hnot, .inr hm⟩
    · rintro ⟨hnot, hroot | hm⟩
      · exact .inl hroot
      · exact .inr ⟨hm, by simpa using hnot⟩
  split
  · next hp =>
    rw [item?_eq_none_iff, Option.eq_none_iff_forall_ne_some]
    exact fun n hn => ((hmem n).1 hn).1 hp
  · next hp =>
    refine item?_congr (Option.ext fun n => ?_) fun _ _ => rfl
    rw [hmem]
    exact and_iff_right hp

/-! ### Other names -/

section

variable (h : d.WellFormed) (hnew : d.item? new = none)

include h hnew

/-- Where nothing is, nothing is below either. -/
theorem not_isPrefix_of_free {x : Location × Node} (hx : x ∈ d.nodes) : ¬ new <+: x.1 := by
  intro hpre
  have hsome : (d.item? x.1).isSome :=
    item?_isSome_iff.2 (Option.isSome_iff_exists.2 ⟨_, h.node?_eq_some_iff.2 (.inr hx)⟩)
  by_cases he : x.1 = new
  · rw [he, hnew] at hsome
    exact absurd hsome (by simp)
  · rw [item?_of_below h (by rw [hnew]; simp) ⟨hpre, he⟩] at hsome
    exact absurd hsome (by simp)

omit h in
/-- A name that nothing has is not the top. -/
theorem ne_nil_of_free {rest : Location} : new ++ rest ≠ [] := by
  intro he
  rw [(List.append_eq_nil_iff.1 he).1] at hnew
  simp [item?, node?] at hnew

variable (hp : d.HasDirectory new.dropLast) (hbelow : ¬ old <+: new)

include hp hbelow

/-- A node that is there afterwards was somewhere before. -/
theorem node?_moved (hm : m ≠ []) (n : Node) : (d.move old new).node? m = some n ↔
    ∃ x, (x, n) ∈ d.nodes ∧ moved old new x = m := by
  rw [(h.move (item?_eq_none_iff.1 hnew) hp hbelow).node?_eq_some_iff, nodes_move, List.mem_map]
  constructor
  · rintro (⟨hnil, -⟩ | ⟨x, hx, he⟩)
    · exact absurd hnil hm
    · obtain ⟨hmoved, rfl⟩ := Prod.mk.inj he
      exact ⟨x.1, hx, hmoved⟩
  · rintro ⟨x, hx, rfl⟩
    exact .inr ⟨(x, n), hx, rfl⟩

/-- What is below the new name was below the old one. -/
theorem node?_moved_new (hroot : old ≠ []) (rest : Location) :
    (d.move old new).node? (new ++ rest) = d.node? (old ++ rest) := by
  have hnil : old ++ rest ≠ [] := fun he => hroot (List.append_eq_nil_iff.1 he).1
  refine Option.ext fun n => ?_
  rw [node?_moved h hnew hp hbelow (ne_nil_of_free hnew), h.node?_eq_some_iff,
    or_iff_right (by simp [hnil])]
  constructor
  · rintro ⟨x, hx, he⟩
    by_cases hox : old <+: x
    · obtain ⟨r, rfl⟩ := hox
      rw [moved_append, List.append_cancel_left_eq] at he
      exact he ▸ hx
    · rw [moved_of_not_under hox] at he
      exact absurd ⟨rest, he.symm⟩ (not_isPrefix_of_free h hnew hx)
  · exact fun hx => ⟨_, hx, moved_append rest⟩

/-- What is elsewhere was there before. -/
theorem node?_moved_elsewhere (hm : m ≠ []) (hpre : ¬ new <+: m) (hold : ¬ old <+: m) :
    (d.move old new).node? m = d.node? m := by
  refine Option.ext fun n => ?_
  rw [node?_moved h hnew hp hbelow hm, h.node?_eq_some_iff, or_iff_right (by simp [hm])]
  constructor
  · rintro ⟨x, hx, he⟩
    by_cases hox : old <+: x
    · obtain ⟨r, rfl⟩ := hox
      rw [moved_append] at he
      exact absurd ⟨r, he⟩ hpre
    · rw [moved_of_not_under hox] at he
      exact he ▸ hx
  · exact fun hx => ⟨m, hx, moved_of_not_under hold⟩

/-- What goes under another name takes along all that is below it. -/
theorem item?_moved (hroot : old ≠ []) (m : Location) : (d.move old new).item? m =
    if new <+: m then d.item? (old ++ m.drop new.length)
    else if old <+: m then none else d.item? m := by
  -- at or below the new name, at or below the old one, or elsewhere
  split
  · next hpre =>
    obtain ⟨rest, rfl⟩ := hpre
    rw [List.drop_left]
    unfold item?
    rw [node?_moved_new h hnew hp hbelow hroot]
    rfl
  · next hpre =>
    by_cases hm : m = []
    · subst hm
      rw [if_neg (fun hp => hroot (List.prefix_nil.1 hp))]
      rfl
    split
    · next hold =>
      rw [item?_eq_none_iff, Option.eq_none_iff_forall_ne_some]
      intro n hn
      obtain ⟨x, -, he⟩ := (node?_moved h hnew hp hbelow hm n).1 hn
      rw [moved] at he
      split at he
      · exact hpre ⟨_, he⟩
      · next hox => exact hox (he ▸ hold)
    · next hold =>
      exact item?_congr (node?_moved_elsewhere h hnew hp hbelow hm hpre hold) fun _ _ => rfl

end

/-- What an entry's path finds is what is in its place. -/
theorem lookup_entry {p : Path} {name : String} (home : d.directoryAt p = .ok l)
    (hn : Path.Plain name) : d.lookup (p.entry name) =
      match d.node? (l ++ [name]) with
      | some n => .ok n
      | none => .error .missing := by
  rw [lookup, locate_entry home hn]
  rfl

/-- An entry is a directory if one is in its place. -/
theorem isDirectory_entry {p : Path} {name : String} (home : d.directoryAt p = .ok l)
    (hn : Path.Plain name) :
    d.isDirectory (p.entry name) = true ↔ d.item? (l ++ [name]) = some .directory := by
  rw [isDirectory, lookup_entry home hn, item?_eq_directory_iff]
  cases d.node? (l ++ [name]) with
  | none => simp
  | some n => cases n <;> simp

/-- A path leads to the directory that is an entry. -/
theorem directoryAt_entry {p : Path} {name : String} (home : d.directoryAt p = .ok l)
    (hn : Path.Plain name) (hd : d.item? (l ++ [name]) = some .directory) :
    d.directoryAt (p.entry name) = .ok (l ++ [name]) :=
  directoryAt_eq_ok_iff.2 ⟨locate_entry home hn, item?_eq_directory_iff.1 hd⟩

end Disk

/-! ### Directories as entries -/

namespace Volume

open Disk

variable {v : Volume} {p : Path} {l : Location} {name other : String}

/-- The first parts are there, so only the rest has to be made. -/
theorem runOn_makeAll_append {start : Location} {parts rest : List String}
    (h : v.disk.walk start parts = .ok l) (hd : v.disk.node? l = some .directory) :
    (makeAll start (parts ++ rest)).runOn v = (makeAll l rest).runOn v := by
  induction parts generalizing start with
  | nil =>
    obtain rfl : start = l := Except.ok.inj h
    rfl
  | cons part parts ih =>
    by_cases hnil : parts = []
    · subst hnil
      obtain rfl : step start part = l := Except.ok.inj h
      exact runOn_makeAll_there rest hd
    · obtain ⟨hstep, hwalk⟩ := (walk_cons_eq_ok_iff hnil).1 h
      rw [List.cons_append, runOn_makeAll_there _ hstep]
      exact ih hwalk

/-- A directory that is made is put where nothing was. -/
theorem puts_makeDirectory {d d' : Disk} (hw : d.WellFormed)
    (h : d.perform (.makeDirectory l) = .ok d') : Puts d d' l (some .directory) := by
  have hnodes := node?_of_makeDirectory hw h
  refine ⟨hw.perform h, ?_⟩
  funext m
  by_cases hm : m = l
  · subst hm
    rw [Function.update_self, item?_eq_directory_iff, hnodes, Function.update_self]
  · rw [Function.update_of_ne hm]
    obtain ⟨-, -, rfl⟩ := makeDirectory_eq_ok_iff.1 h
    exact item?_congr (by rw [hnodes, Function.update_of_ne hm]) fun _ _ => rfl

section

variable (home : v.disk.directoryAt p = .ok l) (hn : Path.Plain name)

include home hn

/-- A directory is made where nothing was. -/
theorem runOn_makeDirectories_entry (hw : v.disk.WellFormed)
    (hnone : v.disk.item? (l ++ [name]) = none) :
    ∃ v', (makeDirectories (p.entry name)).runOn v = (.ok (), v') ∧
      Puts v.disk v'.disk (l ++ [name]) (some .directory) := by
  obtain ⟨hl, hd⟩ := directoryAt_eq_ok_iff.1 home
  have hparent : v.disk.hasParent (l ++ [name]) = .ok () := by
    rw [hasParent, List.dropLast_concat, hd]
  have hcall : v.disk.perform (.makeDirectory (l ++ [name])) =
      .ok (v.disk.add (l ++ [name]) .directory) := by
    rw [Disk.perform, item?_eq_none_iff.1 hnone, hparent]
    rfl
  refine ⟨⟨v.disk.add (l ++ [name]) .directory, .makeDirectory (l ++ [name]) :: v.journal⟩, ?_,
    puts_makeDirectory hw hcall⟩
  have hempty : (p.entry name).isEmpty = false := by simp [Path.isEmpty, Path.entry]
  rw [makeDirectories, hempty, Path.parts_entry]
  show (makeAll [] (p.parts ++ [name])).runOn v = _
  rw [runOn_makeAll_append (locate_eq_walk_of_ok hl) hd, runOn_makeAll_missing
    (by rw [step_plain hn]; exact item?_eq_none_iff.1 hnone), if_neg (by decide), step_plain hn,
    Act.runOn_bind_ok (runOn_perform hcall)]
  rfl

/-- **Whatever is removed** is gone, with all that is below it, and nothing else. -/
theorem runOn_removeAll (hw : v.disk.WellFormed) :
    ∃ v', (removeAll (p.entry name)).runOn v = (.ok (), v') ∧ v'.disk.WellFormed ∧
      ∀ m, v'.disk.item? m = if l ++ [name] <+: m then none else v.disk.item? m := by
  have hlookup := lookup_entry home hn
  -- where no directory is, there is nothing below
  have hsingle {d : Disk} (hi : v.disk.item? (l ++ [name]) ≠ some .directory)
      (hput : Puts v.disk d (l ++ [name]) none) (m : Location) :
      d.item? m = if l ++ [name] <+: m then none else v.disk.item? m := by
    by_cases hm : m = l ++ [name]
    · rw [hm, hput.item?_self, if_pos (List.prefix_refl _)]
    · rw [hput.item?_ne hm]
      split
      · next hp => exact item?_of_below hw hi ⟨hp, hm⟩
      · rfl
  -- nothing there, a directory with all that is below it, or a single file
  cases hi : v.disk.item? (l ++ [name]) with
  | none =>
    have hsame : Puts v.disk v.disk (l ++ [name]) none := hw.puts hi
    refine ⟨v, ?_, hw, hsingle (by rw [hi]; simp) hsame⟩
    rw [removeAll, Act.runOn_bind_ok (Act.runOn_get v), hlookup, item?_eq_none_iff.1 hi]
    rfl
  | some item =>
    cases item with
    | directory =>
      have hnode := item?_eq_directory_iff.1 hi
      have hcall : v.disk.perform (.removeTree (l ++ [name])) = .ok (v.disk.drop (l ++ [name])) := by
        rw [Disk.perform, hnode]
      rw [hnode] at hlookup
      refine ⟨⟨v.disk.drop (l ++ [name]), .removeTree (l ++ [name]) :: v.journal⟩, ?_,
        hw.perform hcall, item?_drop hw (by simp)⟩
      rw [removeAll, Act.runOn_bind_ok (Act.runOn_get v), hlookup]
      dsimp only
      rw [remove, Act.runOn_bind_ok (runOn_look_ok hlookup)]
      dsimp only
      rw [Act.runOn_bind_ok (runOn_locate home hn), runOn_perform hcall]
    | file k bs =>
      obtain ⟨v', hremove, hput⟩ := runOn_removeFile home hn hw hi
      rw [(item?_eq_file_iff.1 hi).1] at hlookup
      refine ⟨v', ?_, hput.wellFormed, hsingle (by rw [hi]; simp) hput⟩
      rw [removeAll, Act.runOn_bind_ok (Act.runOn_get v), hlookup]
      dsimp only
      rw [remove, Act.runOn_bind_ok (runOn_look_ok hlookup)]
      exact hremove

/-- So is what is discarded. -/
theorem runOn_discard (hw : v.disk.WellFormed) :
    ∃ v', (discard (p.entry name)).runOn v = (.ok (), v') ∧ v'.disk.WellFormed ∧
      ∀ m, v'.disk.item? m = if l ++ [name] <+: m then none else v.disk.item? m := by
  obtain ⟨v', hrun, hw', hitems⟩ := runOn_removeAll home hn hw
  exact ⟨v', by rw [discard, Act.runOn_ignore, hrun], hw', hitems⟩

/-- A directory gets another name in its place. -/
theorem runOn_rename_directory (ho : Path.Plain other) (hw : v.disk.WellFormed)
    (hd : v.disk.item? (l ++ [name]) = some .directory)
    (hnone : v.disk.item? (l ++ [other]) = none) :
    ∃ v', (rename (p.entry name) (p.entry other)).runOn v = (.ok (), v') ∧ v'.disk.WellFormed ∧
      ∀ m, v'.disk.item? m =
        if l ++ [other] <+: m then v.disk.item? (l ++ [name] ++ m.drop (l ++ [other]).length)
        else if l ++ [name] <+: m then none else v.disk.item? m := by
  have hne : name ≠ other := by
    rintro rfl
    rw [hnone] at hd
    exact absurd hd (by simp)
  have hapart {a b : String} (hab : a ≠ b) : ¬ l ++ [a] <+: l ++ [b] := by
    intro hp
    exact hab (append_name_inj.1 (hp.eq_of_length (by simp)))
  have hdir := (directoryAt_eq_ok_iff.1 home).2
  have hparent (a : String) : v.disk.HasDirectory (l ++ [a]).dropLast := by
    rw [List.dropLast_concat]
    exact hw.node?_eq_directory_iff.1 hdir
  have hnode := item?_eq_directory_iff.1 hd
  have hcall : v.disk.perform (.rename (l ++ [name]) (l ++ [other])) =
      .ok (v.disk.move (l ++ [name]) (l ++ [other])) := by
    rw [Disk.perform, Disk.rename, hasParent_of_hasDirectory hw (hparent name),
      hasParent_of_hasDirectory hw (hparent other)]
    simp only [bind, Except.bind, hnode, if_neg (mt append_name_inj.1 hne), if_neg (hapart hne),
      if_neg (hapart hne.symm), item?_eq_none_iff.1 hnone]
  refine ⟨⟨v.disk.move (l ++ [name]) (l ++ [other]),
    .rename (l ++ [name]) (l ++ [other]) :: v.journal⟩, ?_, hw.perform hcall,
    item?_moved hw hnone (hparent other) (hapart hne) (by simp)⟩
  rw [rename, Act.runOn_bind_ok (runOn_locateEntry home hn),
    Act.runOn_bind_ok (runOn_locateEntry home ho), endsInDots_entry hn, endsInDots_entry ho]
  show Act.runOn (get >>= _) v = _
  rw [Act.runOn_bind_ok (Act.runOn_get v), hnode]
  exact runOn_perform hcall

end

end Volume
end RaftReplica
