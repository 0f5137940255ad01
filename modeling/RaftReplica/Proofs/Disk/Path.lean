/-
RaftReplica/Proofs/Disk/Path.lean

Paths that lead the same way.  A path is read from its parts, and a single dot in front of them leads
nowhere, so every path that is not empty leads the same way as an entry of some directory
(`Path.SameWay.below_here`).  What the calls of a volume do for the one they do for the other, so it
is enough to know what they do to entries.

A call looks at a path in four ways: where it leads, where its entry is, and whether it ends in a
slash or in dots.  `SameWay p q` asks that all four agree on every disk, and the last section goes
through the calls.

Not every path is treated as one expects.  The last part of a path may be empty, a dot or two dots,
and then its directory is that part's own directory or the one above (`isDirectory_unnamed`); such a
path can be read and never be made, renamed or removed. `Path.Plain` tells these parts from names.
-/
import RaftReplica.Proofs.Disk.Entries
import RaftReplica.Proofs.Text.Fields

namespace RaftReplica

open Disk

namespace Path

variable {p q : Path} {name last suffix : String} {front : List String}

/-- Both paths lead to the same place on every disk, and may be used for the same things. -/
structure SameWay (p q : Path) : Prop where
  locate : ∀ d : Disk, d.locate p = d.locate q
  locateEntry : ∀ d : Disk, d.locateEntry p = d.locateEntry q
  endsInSlash : p.endsInSlash = q.endsInSlash
  endsInDots : p.endsInDots = q.endsInDots

theorem SameWay.refl (p : Path) : SameWay p p := ⟨fun _ => rfl, fun _ => rfl, rfl, rfl⟩

theorem isEmpty_entry (p : Path) (name : String) : (p.entry name).isEmpty = false := by
  simp [isEmpty, entry]

theorem parts_ne_nil (p : Path) : p.parts ≠ [] := by
  simp [parts, Text.split_ne_nil]

/-- The names that lead somewhere from where one stands. -/
def here (names : List String) : Path := { base := ".", below := names }

/-- The parts of a path from here are a dot and the names. -/
theorem parts_here (names : List String) : (here names).parts = "." :: names := by
  have hdot : (Text.split '/' ".".toList).map String.ofList = ["."] := by decide
  rw [parts, here, hdot]
  rfl

theorem entry_here (names : List String) (name : String) :
    (here names).entry name = here (names ++ [name]) := rfl

/-- A dot in front of a path leads nowhere. -/
theorem walk_dot (d : Disk) {names : List String} (hne : names ≠ []) :
    d.walk [] ("." :: names) = d.walk [] names := by
  obtain ⟨name, rest, rfl⟩ := List.exists_cons_of_ne_nil hne
  rfl

/-- Without the slashes at its end the path is the same. -/
theorem entryParts_here (names : List String) :
    (here names).entryParts = "." :: (names.reverse.dropWhile (· == "")).reverse := by
  rw [entryParts, parts_here, List.reverse_cons, List.dropWhile_append]
  cases hdrop : names.reverse.dropWhile (· == "") with
  | nil => rfl
  | cons a as => simp

/-- **A path that is not empty** leads the same way as the entry with its last name. -/
theorem SameWay.below_here (hp : p.isEmpty = false) (hparts : p.parts = front ++ [last]) :
    SameWay p ((here front).entry last) := by
  have hne : front ++ [last] ≠ [] := by simp
  have hentry : ((here front).entry last).entryParts = "." :: p.entryParts := by
    rw [entry_here, entryParts_here, entryParts, hparts]
  have hplace : (here front).entry last = here (front ++ [last]) := entry_here front last
  refine ⟨fun d => ?_, fun d => ?_, ?_, ?_⟩
  · rw [Disk.locate, Disk.locate, hp, isEmpty_entry, hplace, parts_here, hparts]
    exact (walk_dot d hne).symm
  · rw [Disk.locateEntry, Disk.locateEntry, hp, isEmpty_entry, hentry]
    cases hnames : p.entryParts with
    | nil => rfl
    | cons name rest => exact (walk_dot d (by simp)).symm
  · rw [hplace, Path.endsInSlash, Path.endsInSlash, parts_here, hparts]
    simp [List.getLast?_cons]
  · unfold Path.endsInDots
    rw [hentry]
    cases hnames : p.entryParts with
    | nil => rfl
    | cons name rest => rw [List.getLast?_cons_cons]

/-- A suffix goes to the name of the entry. -/
theorem withSuffix_entry (p : Path) (name suffix : String) :
    (p.entry name).withSuffix suffix = p.entry (name ++ suffix) := by
  rw [withSuffix, below_entry, List.getLast?_concat]
  simp [entry]

theorem isEmpty_withSuffix (hs : suffix ≠ "") (p : Path) : (p.withSuffix suffix).isEmpty = false := by
  rw [withSuffix]
  split <;> simp [isEmpty, hs]

/-- A longer last name is a longer last part. -/
theorem parts_withSuffix (hs : '/' ∉ suffix.toList) (hparts : p.parts = front ++ [last]) :
    (p.withSuffix suffix).parts = front ++ [last ++ suffix] := by
  obtain ⟨base, below⟩ := p
  -- the suffix goes to the last field of the text, or to the last name below it
  rcases List.eq_nil_or_concat below with rfl | ⟨names, name, rfl⟩
  · obtain ⟨first, field, hsplit⟩ := (List.eq_nil_or_concat
      (Text.split '/' base.toList)).resolve_left (Text.split_ne_nil _ _)
    rw [List.concat_eq_append] at hsplit
    have hfields : first.map String.ofList ++ [String.ofList field] = front ++ [last] := by
      rw [← hparts]
      simp [parts, hsplit]
    obtain ⟨hfront, hlast⟩ := List.append_inj' hfields rfl
    rw [← hfront, ← List.singleton_inj.1 hlast]
    show (Text.split '/' (base ++ suffix).toList).map String.ofList ++ [] = _
    rw [String.toList_append, Text.split_append_last hs hsplit]
    simp [String.ofList_append]
  · rw [List.concat_eq_append] at hparts ⊢
    rw [parts, ← List.append_assoc] at hparts
    obtain ⟨hfront, hlast⟩ := List.append_inj' hparts rfl
    rw [← hfront, ← List.singleton_inj.1 hlast]
    simp [withSuffix, parts]

/-- A name that is longer than two dots leads to an entry. -/
theorem plain_draft (name : String) : Plain (name ++ ".tmp") := by
  have hlong {other : String} (ho : other.length < 4) : name ++ ".tmp" ≠ other := by
    rintro rfl
    have hsuffix : ".tmp".length = 4 := by decide
    rw [String.length_append, hsuffix] at ho
    omega
  exact ⟨hlong (by decide), hlong (by decide), hlong (by decide)⟩

/-- What a call that makes or removes looks at is the beginning of the path. -/
theorem entryParts_isPrefix (p : Path) : p.entryParts <+: p.parts := by
  have hsuffix := List.dropWhile_suffix (l := p.parts.reverse) (· == "")
  rw [entryParts, ← List.reverse_suffix, List.reverse_reverse]
  exact hsuffix

/-- A path that ends in another way than by an entry's name ends in a slash or in dots. -/
theorem endsInSlash_or_endsInDots (p : Path) (hn : ¬ Plain name) :
    (p.entry name).endsInSlash = true ∨ (p.entry name).endsInDots = true := by
  by_cases hblank : name = ""
  · left
    rw [endsInSlash, parts_entry, List.getLast?_concat, hblank]
    rfl
  · right
    have hparts : (p.entry name).entryParts = p.parts ++ [name] := by
      rw [entryParts, parts_entry, List.reverse_append]
      simp [hblank]
    have hdots : name = "." ∨ name = ".." := by
      by_contra hdots
      rw [not_or] at hdots
      exact hn ⟨hblank, hdots⟩
    rw [endsInDots, hparts, List.getLast?_concat]
    simpa using hdots

end Path

namespace Disk

variable {d : Disk} {p : Path} {l m : Location} {name : String} {front parts : List String}

/-- The start of a path leads somewhere if the whole of it does. -/
theorem exists_walk_of_isPrefix (hfront : front <+: parts) (h : d.walk m parts = .ok l) :
    ∃ x, d.walk m front = .ok x := by
  induction front generalizing m parts with
  | nil => exact ⟨m, rfl⟩
  | cons part front ih =>
    obtain ⟨rest, rfl⟩ := hfront
    rw [List.cons_append] at h
    by_cases hnil : front ++ rest = []
    · obtain ⟨rfl, rfl⟩ := List.append_eq_nil_iff.1 hnil
      exact ⟨l, h⟩
    · obtain ⟨hstep, hwalk⟩ := (walk_cons_eq_ok_iff hnil).1 h
      by_cases hfront : front = []
      · exact ⟨step m part, by rw [hfront, walk]⟩
      · obtain ⟨x, hx⟩ := ih (List.prefix_append front rest) hwalk
        exact ⟨x, (walk_cons_eq_ok_iff hfront).2 ⟨hstep, hx⟩⟩

/-- An entry of a directory is somewhere, whatever it is called. -/
theorem exists_locateEntry (home : d.directoryAt p = .ok l) (name : String) :
    ∃ x, d.locateEntry (p.entry name) = .ok x := by
  obtain ⟨hl, hd⟩ := directoryAt_eq_ok_iff.1 home
  have hwalk := walk_concat (locate_eq_walk_of_ok hl) hd name
  rw [← Path.parts_entry] at hwalk
  obtain ⟨x, hx⟩ := exists_walk_of_isPrefix (Path.entryParts_isPrefix _) hwalk
  exact ⟨x, by rw [locateEntry, Path.isEmpty_entry]; exact hx⟩

/-- A name that leads to where one stands or up leads to a directory. -/
theorem isDirectory_unnamed (hw : d.WellFormed) (home : d.directoryAt p = .ok l)
    (hn : ¬ Path.Plain name) : d.isDirectory (p.entry name) = true := by
  obtain ⟨hl, hd⟩ := directoryAt_eq_ok_iff.1 home
  have hlocate : d.locate (p.entry name) = .ok (step l name) := by
    rw [locate, Path.isEmpty_entry, Path.parts_entry]
    exact walk_concat (locate_eq_walk_of_ok hl) hd name
  have hparent : d.node? l.dropLast = some .directory := by
    rcases hw.node?_eq_directory_iff.1 hd with rfl | hmem
    · exact hd
    · exact hw.node?_eq_directory_iff.2 (hw.parented _ hmem)
  have hstep : d.node? (step l name) = some .directory := by
    unfold step
    split
    · exact hd
    · next hstay =>
      split
      · exact hparent
      · next hup =>
        rw [not_or] at hstay
        exact absurd ⟨hstay.1, hstay.2, hup⟩ hn
  rw [isDirectory, lookup, hlocate]
  simp only [bind, Except.bind, hstep]

/-- A path to a directory leads somewhere. -/
theorem isDirectory_iff : d.isDirectory p = true ↔ ∃ l, d.directoryAt p = .ok l := by
  simp only [isDirectory, directoryAt_eq_ok_iff, lookup]
  cases hl : d.locate p with
  | error e => simp [bind, Except.bind]
  | ok l =>
    simp only [bind, Except.bind, Except.ok.injEq, exists_eq_left']
    cases d.node? l with
    | none => simp
    | some n => cases n <;> simp

/-- An entry is somewhere only in a directory that is there. -/
theorem exists_directoryAt_of_locateEntry {x : Location} (hp : p.isEmpty = false)
    (hn : Path.Plain name) (h : d.locateEntry (p.entry name) = .ok x) :
    ∃ l, d.directoryAt p = .ok l ∧ x = l ++ [name] := by
  have hparts : (p.entry name).entryParts = p.parts ++ [name] := by
    rw [Path.entryParts, Path.parts_entry, List.reverse_append]
    simp [hn.1]
  rw [locateEntry, Path.isEmpty_entry, hparts] at h
  obtain ⟨l, hl, hdir, rfl⟩ := exists_walk_of_concat h p.parts_ne_nil
  refine ⟨l, directoryAt_eq_ok_iff.2 ⟨?_, hdir⟩, step_plain hn⟩
  rw [locate, hp]
  exact hl

end Disk

namespace Path.SameWay

variable {p q old old' new new' : Path}

theorem lookup (h : SameWay p q) (d : Disk) : d.lookup p = d.lookup q := by
  rw [Disk.lookup, Disk.lookup, h.locate]

theorem directoryAt (h : SameWay p q) (d : Disk) : d.directoryAt p = d.directoryAt q := by
  rw [Disk.directoryAt, Disk.directoryAt, h.lookup, h.locate]

theorem isDirectory (h : SameWay p q) (d : Disk) : d.isDirectory p = d.isDirectory q := by
  rw [Disk.isDirectory, Disk.isDirectory, h.lookup]

theorem fileAt (h : SameWay p q) (d : Disk) : d.fileAt p = d.fileAt q := by
  rw [Disk.fileAt, Disk.fileAt, h.lookup]

theorem read (h : SameWay p q) (d : Disk) : d.read p = d.read q := by
  rw [Disk.read, Disk.read, h.fileAt]

theorem create (h : SameWay p q) : Volume.create p = Volume.create q := by
  simp only [Volume.create, h.locateEntry, h.endsInSlash, h.fileAt]

/-- Renaming does the same for paths that lead the same way. -/
theorem rename (hold : SameWay old old') (hnew : SameWay new new') :
    Volume.rename old new = Volume.rename old' new' := by
  simp only [Volume.rename, hold.locateEntry, hold.endsInSlash, hold.endsInDots, hnew.locateEntry,
    hnew.endsInSlash, hnew.endsInDots]

theorem removeAll (h : SameWay p q) : Volume.removeAll p = Volume.removeAll q := by
  simp only [Volume.removeAll, Volume.remove, Volume.removeFile, Volume.locate, h.lookup, h.locate]

theorem flushParent (h : SameWay p q) (sync : Bool) :
    Volume.flushParent sync p = Volume.flushParent sync q := by
  simp only [Volume.flushParent, Volume.locate, h.locate]

end Path.SameWay
end RaftReplica
