/-
RaftReplica/Proofs/Disk/Outside.lean

Actions that touch nothing outside of one directory.  `Outside base home d` says that the disk is as
`base` tells but for what is below `home`; whoever only makes, renames, removes and writes files
below `home` keeps it so, whatever way it ends.

A file that is written is given by its number.  The numbers that lead outside are those that `base`
tells, so a number that it does not tell (`Free`) stays one that may be written.

There are three layers, and each is about all runs, also about those that fail:

* a call of the disk whose locations are below `home` keeps `Outside` (`perform`);
* a path leads below if it is an entry of the directory (`Rooted.under`).  The directory itself is
  found by a path that leads to it on every disk that is as `base` tells outside, so removing what
  is below cannot mislead it;
* an action is `Confined` if it keeps `Outside` and its results satisfy a condition that the next
  action may use, as that a file is free to be written.

`Mounted.Confined` is the same for actions on a store with its volume.
-/
import RaftReplica.Proofs.Disk.Record
import RaftReplica.Proofs.Disk.Trees

namespace RaftReplica

namespace Disk

variable {base : Location → Option Item} {home : Location} {d d' : Disk} {p q : Path}
  {l m : Location} {name : String} {k : Nat}

/-- The disk is as `base` tells, but for what is below `home`. -/
structure Outside (base : Location → Option Item) (home : Location) (d : Disk) : Prop where
  wellFormed : d.WellFormed
  item? : ∀ m, ¬ Below home m → d.item? m = base m

/-- The number leads to no file outside. -/
def Free (base : Location → Option Item) (home : Location) (k : Nat) : Prop :=
  ∀ m bs, ¬ Below home m → base m ≠ some (.file k bs)

/-- The call is about something below `home`. -/
def Within (base : Location → Option Item) (home : Location) : Call → Prop
  | .makeDirectory l | .create l | .removeFile l | .removeTree l => Below home l
  | .rename old new => Below home old ∧ Below home new
  | .write k _ _ | .setLength k _ => Free base home k
  | .flush _ | .flushDirectory _ => True

theorem Below.not_isPrefix (h : Below home l) (hm : ¬ Below home m) : ¬ l <+: m :=
  fun hp => hm (h.trans_isPrefix hp)

theorem Below.ne_nil (h : Below home l) : l ≠ [] := by
  rintro rfl
  exact h.2 (List.prefix_nil.1 h.1).symm

namespace Outside

theorem refl (hw : d.WellFormed) : Outside d.item? home d := ⟨hw, fun _ _ => rfl⟩

theorem congr (h : Outside base home d) (hw : d'.WellFormed)
    (hi : ∀ m, ¬ Below home m → d'.item? m = d.item? m) : Outside base home d' :=
  ⟨hw, fun m hm => (hi m hm).trans (h.item? m hm)⟩

theorem trans (h : Outside base home d) (h' : Outside d.item? home d') : Outside base home d' :=
  h.congr h'.wellFormed h'.item?

theorem of_entry (h : Outside base (home ++ [name]) d) : Outside base home d :=
  ⟨h.wellFormed, fun m hm => h.item? m fun hb => hm ((below_entry name).trans_isPrefix hb.1)⟩

/-- A file below is none outside: no two locations lead to one file. -/
theorem free (h : Outside base home d) (hl : Below home l) (hk : d.node? l = some (.file k)) :
    Free base home k := by
  intro m bs hm hbase
  rw [← h.item? m hm] at hbase
  have hw := h.wellFormed
  obtain rfl := hw.location_unique (hw.node?_eq_file_iff.1 hk)
    (hw.node?_eq_file_iff.1 (item?_eq_file_iff.1 hbase).1)
  exact hm hl

/-- Something is put below. -/
theorem put {item : Option Item} (h : Outside base home d) (hl : Below home l)
    (hput : Puts d d' l item) : Outside base home d' := by
  refine h.congr hput.wellFormed fun m hm => hput.item?_ne ?_
  rintro rfl
  exact hm hl

theorem drop (h : Outside base home d) (hl : Below home l) : Outside base home (d.drop l) :=
  h.congr (h.wellFormed.drop l) fun m hm => by
    rw [item?_drop h.wellFormed hl.ne_nil, if_neg (hl.not_isPrefix hm)]

/-- A file that is free is written. -/
theorem changeContent (h : Outside base home d) (hk : Free base home k) (f : Content → Content) :
    Outside base home (d.changeContent k f) := by
  refine h.congr (h.wellFormed.changeContent k f) fun m hm => item?_congr rfl fun j hj => ?_
  refine content_changeContent_ne f ?_
  rintro rfl
  exact hk m _ hm ((h.item? m hm).symm.trans (item?_eq_file_iff.2 ⟨hj, rfl⟩))

/-- Something below is renamed to a name below. -/
theorem move (h : Outside base home d) (hold : Below home old) (hnew : Below home new)
    (hnone : d.item? new = none) (hp : d.HasDirectory new.dropLast) (hbelow : ¬ old <+: new) :
    Outside base home (d.move old new) :=
  h.congr (h.wellFormed.move (item?_eq_none_iff.1 hnone) hp hbelow) fun m hm => by
    rw [item?_moved h.wellFormed hnone hp hbelow hold.ne_nil, if_neg (hnew.not_isPrefix hm),
      if_neg (hold.not_isPrefix hm)]

/-- Something below is renamed, and replaces what has the new name. -/
theorem rename (h : Outside base home d) (hold : Below home old) (hnew : Below home new)
    (hr : d.rename old new = .ok d') : Outside base home d' := by
  rcases rename_cases hr with ⟨-, rfl⟩ | ⟨hp, hbelow, hne, ⟨hnone, rfl⟩ | rfl⟩
  · exact h
  · exact h.move hold hnew (item?_eq_none_iff.2 hnone)
      (h.wellFormed.hasDirectory_of_hasParent hp) hbelow
  · exact (h.drop hnew).move hold hnew (item?_eq_none_iff.2 (node?_drop_self h.wellFormed hne))
      (hasDirectory_dropLast_drop (h.wellFormed.hasDirectory_of_hasParent hp) hne) hbelow

/-- A directory is made, or an empty file, where nothing was. -/
theorem add (h : Outside base home d) (hl : Below home l) {n : Node} {cs : List Content}
    (hw : WellFormed ⟨d.nodes ++ [(l, n)], d.contents ++ cs⟩) :
    Outside base home ⟨d.nodes ++ [(l, n)], d.contents ++ cs⟩ := by
  refine h.congr hw fun m hm => ?_
  have hne : m ≠ l := by
    rintro rfl
    exact hm hl
  refine item?_congr ?_ fun j hj => ?_
  · rw [node?_add h.wellFormed hw, Function.update_of_ne hne]
  · show ((d.contents ++ cs)[j]?.getD default).bytes = (d.contents[j]?.getD default).bytes
    rw [List.getElem?_append_left (h.wellFormed.number_lt hj)]

/-- **A call below `home`** changes nothing outside. -/
theorem perform {c : Call} (h : Outside base home d) (hc : Within base home c)
    (hr : d.perform c = .ok d') : Outside base home d' := by
  have hw := h.wellFormed.perform hr
  -- one case for each call
  cases c with
  | makeDirectory l =>
    obtain ⟨-, -, rfl⟩ := makeDirectory_eq_ok_iff.1 hr
    have hadd : Outside base home ⟨d.nodes ++ [(l, .directory)], d.contents ++ []⟩ :=
      h.add hc (by rwa [List.append_nil])
    rwa [List.append_nil] at hadd
  | create l =>
    obtain ⟨k, hk, rfl⟩ | ⟨-, -, rfl⟩ := create_cases hr
    · exact h.put hc
        (puts_changeContent h.wellFormed (item?_eq_file_iff.2 ⟨hk, rfl⟩) fun _ _ => rfl)
    · exact h.add hc hw
  | write k pos bytes => exact Except.ok.inj hr ▸ h.changeContent hc _
  | setLength k length => exact Except.ok.inj hr ▸ h.changeContent hc _
  | rename old new => exact h.rename hc.1 hc.2 hr
  | removeFile l => exact eq_drop_of_remove (.inl hr) ▸ h.drop hc
  | removeTree l => exact eq_drop_of_remove (.inr hr) ▸ h.drop hc
  | flush number => exact Except.ok.inj hr ▸ h
  | flushDirectory l => exact Except.ok.inj hr ▸ h

end Outside

/-! ### Paths that lead below -/

/-- Whatever is below `home`, the path leads there. -/
def Rooted (base : Location → Option Item) (home : Location) (p : Path) : Prop :=
  ∀ d, Outside base home d → d.directoryAt p = .ok home

/-- If the path leads anywhere, it leads below `home`. -/
structure Under (base : Location → Option Item) (home : Location) (q : Path) : Prop where
  locate : ∀ d l, Outside base home d → d.locate q = .ok l → Below home l
  locateEntry : ∀ d l, Outside base home d → d.locateEntry q = .ok l → Below home l

/-- Only two dots lead up. -/
theorem isPrefix_step (l : Location) (hup : name ≠ "..") : l <+: step l name := by
  unfold step
  split
  · exact List.prefix_refl l
  · exact List.prefix_append l [name]

/-- An entry with a name is found in one place. -/
theorem locateEntry_eq_locate (hn : name ≠ "") :
    d.locateEntry (p.entry name) = d.locate (p.entry name) := by
  have hparts : (p.entry name).entryParts = (p.entry name).parts := by
    rw [Path.entryParts, Path.parts_entry, List.reverse_append]
    simp [hn]
  rw [locateEntry, locate, hparts]

theorem Rooted.outside (h : Rooted base home p) (hd : Outside base home d) :
    Rooted d.item? home p := fun _ hd' => h _ (hd.trans hd')

/-- An entry of the directory is below it. -/
theorem Rooted.under (h : Rooted base home p) (hn : Path.Plain name) :
    Under base home (p.entry name) := by
  have hlocate (d : Disk) (l : Location) (hd : Outside base home d)
      (hl : d.locate (p.entry name) = .ok l) : Below home l := by
    rw [locate_entry (h d hd) hn] at hl
    exact Except.ok.inj hl ▸ below_entry name
  exact ⟨hlocate, fun d l hd hl => hlocate d l hd (locateEntry_eq_locate hn.1 ▸ hl)⟩

/-- Whatever is in an entry that is a directory, the path of the entry leads there. -/
theorem Rooted.entry (h : Rooted d.item? home p) (hn : Path.Plain name)
    (hi : d.item? (home ++ [name]) = some .directory) :
    Rooted d.item? (home ++ [name]) (p.entry name) := by
  intro d' ho
  exact directoryAt_entry (h d' ho.of_entry) hn ((ho.item? _ fun hb => hb.2 rfl).trans hi)

/-- Names that do not lead up lead below where the path does. -/
theorem Under.entry {start : String} (h : Under base home (p.entry start)) (hn : name ≠ "")
    (hup : name ≠ "..") : Under base home ((p.entry start).entry name) := by
  have hlocate (d : Disk) (l : Location) (hd : Outside base home d)
      (hl : d.locate ((p.entry start).entry name) = .ok l) : Below home l := by
    have hwalk := locate_eq_walk_of_ok hl
    rw [Path.parts_entry] at hwalk
    obtain ⟨x, hx, -, rfl⟩ := exists_walk_of_concat hwalk (by simp [Path.parts_entry])
    have hne : (p.entry start).isEmpty = false := by simp [Path.isEmpty, Path.entry]
    have hbelow := h.locate d x hd (by rw [Disk.locate, hne]; exact hx)
    exact hbelow.trans_isPrefix (isPrefix_step x hup)
  exact ⟨hlocate, fun d l hd hl => hlocate d l hd (locateEntry_eq_locate hn ▸ hl)⟩

/-- The file that such a path leads to may be written. -/
theorem Under.free (h : Under base home q) (hd : Outside base home d) (hk : d.fileAt q = .ok k) :
    Free base home k := by
  unfold fileAt lookup at hk
  cases hl : d.locate q with
  | error e => rw [hl] at hk; exact absurd hk (by simp [bind, Except.bind])
  | ok l =>
    rw [hl] at hk
    simp only [bind, Except.bind] at hk
    cases hn : d.node? l with
    | none => rw [hn] at hk; exact absurd hk (by simp)
    | some n =>
      rw [hn] at hk
      cases n with
      | directory => exact absurd hk (by simp)
      | file j =>
        obtain rfl : j = k := Except.ok.inj hk
        exact hd.free (h.locate d l hd hl) hn

end Disk

/-! ### Actions -/

namespace Volume

open Disk Act

variable {base : Location → Option Item} {home : Location} {p q r : Path} {name : String} {k : Nat}

/-- The action changes nothing outside of `home`, and `Q` holds of its result. -/
abbrev Confined {α : Type} (base : Location → Option Item) (home : Location) (x : Act Volume α)
    (Q : α → Prop) : Prop :=
  Ensures (fun v => Outside base home v.disk) x Q

/-- A call on what is below. -/
theorem confined_perform {c : Call} (hc : Within base home c) :
    Confined base home (perform c) fun _ => True := by
  intro v hv
  refine ⟨?_, fun _ _ => trivial⟩
  cases hr : v.disk.perform c with
  | ok d => rw [runOn_perform hr]; exact hv.perform hc hr
  | error e => rw [runOn_perform_error hr]; exact hv

/-- Looking changes nothing at all. -/
theorem confined_look {α : Type} {f : Disk → Except IoCause α} {Q : α → Prop}
    (h : ∀ d a, Outside base home d → f d = .ok a → Q a) : Confined base home (look f) Q := by
  intro v hv
  rw [runOn_look]
  exact ⟨hv, fun a ha => h v.disk a hv (eq_ok_of_mapError (eq_ok_of_mapError ha))⟩

/-- Reading touches nothing. -/
theorem confined_reading {α : Type} (f : Volume → Except Error α) :
    Confined base home (Act.reading f) fun _ => True := by
  intro v hv
  rw [runOn_reading]
  exact ⟨hv, fun _ _ => trivial⟩

theorem confined_locate (hq : Under base home q) : Confined base home (locate q) (Below home) :=
  confined_look fun d l hd hl => hq.locate d l hd hl

/-- A file that is made there is free to be written. -/
theorem confined_create (hq : Under base home q) :
    Confined base home (create q) (Free base home) := by
  refine .bind (confined_look fun d l hd hl => hq.locateEntry d l hd hl) fun l hl => ?_
  dsimp only
  split
  · exact .fail_bind _ _
  · exact .bind (confined_perform hl) fun _ _ => confined_look fun _ _ hd hk => hq.free hd hk

theorem confined_write (hk : Free base home k) (pos : Nat) (bs : Bytes) :
    Confined base home (write k pos bs) fun _ => True := confined_perform hk

/-- Flushing touches nothing. -/
theorem confined_flush (sync : Bool) (k : Nat) :
    Confined base home (flush sync k) fun _ => True := by
  cases sync with
  | false => exact .pure trivial
  | true => exact confined_perform (c := .flush k) trivial

/-- Flushing a directory touches nothing. -/
theorem confined_flushParent (sync : Bool) (p : Path) :
    Confined base home (flushParent sync p) fun _ => True := by
  cases sync with
  | false => exact .pure trivial
  | true =>
    exact .bind (Q := fun _ => True) (confined_look fun _ _ _ _ => trivial) fun _ _ =>
      confined_perform trivial

/-- A name below goes to a name below. -/
theorem confined_rename (hq : Under base home q) (hr : Under base home r) :
    Confined base home (rename q r) fun _ => True := by
  refine .bind (confined_look fun d l hd hl => hq.locateEntry d l hd hl) fun l hl => ?_
  refine .bind (confined_look fun d l hd hl => hr.locateEntry d l hd hl) fun m hm => ?_
  -- the paths are checked, and then there is the one call
  have hcall : Confined base home (perform (.rename l m)) fun _ => True := confined_perform ⟨hl, hm⟩
  dsimp only
  split
  · exact .fail_bind _ _
  refine .bind .get fun v _ => ?_
  split
  · split
    · exact .fail_bind _ _
    · exact hcall
  · exact hcall

theorem confined_removeFile (hq : Under base home q) :
    Confined base home (removeFile q) fun _ => True :=
  .bind (confined_locate hq) fun _ hl => confined_perform hl

/-- A directory below is removed with all that it holds. -/
theorem confined_discard (hq : Under base home q) :
    Confined base home (discard q) fun _ => True := by
  have hremove : Confined base home (remove q) fun _ => True := by
    refine .bind (Q := fun _ => True) (confined_look fun _ _ _ _ => trivial) fun n _ => ?_
    cases n with
    | directory => exact .bind (confined_locate hq) fun _ hl => confined_perform hl
    | file k => exact confined_removeFile hq
  refine .ignore (Q := fun _ => True) (.bind .get fun v _ => ?_)
  split
  · exact .pure trivial
  · exact hremove

/-- A directory is made below one that is there. -/
theorem confined_makeDirectories (hp : Rooted base home p) (hn : Path.Plain name) :
    Confined base home (makeDirectories (p.entry name)) fun _ => True := by
  intro v hv
  refine ⟨?_, fun _ _ => trivial⟩
  obtain ⟨hl, hd⟩ := directoryAt_eq_ok_iff.1 (hp v.disk hv)
  have hempty : (p.entry name).isEmpty = false := by simp [Path.isEmpty, Path.entry]
  rw [makeDirectories, hempty, Path.parts_entry]
  show Outside base home ((makeAll [] (p.parts ++ [name])).runOn v).2.disk
  rw [runOn_makeAll_append (locate_eq_walk_of_ok hl) hd]
  have hmake : Confined base home (makeAll home [name]) fun _ => True := by
    refine .bind .get fun v _ => ?_
    rw [step_plain hn]
    split
    · exact .pure trivial
    · exact .fail _
    · exact .bind (confined_perform (below_entry name)) fun _ _ => .pure trivial
  exact (hmake v hv).1

/-- A record goes below where its draft goes. -/
theorem confined_save {α : Type} [JsonForm α] (hq : Under base home (q.entry name))
    (hdraft : Under base home (q.entry (name ++ ".tmp"))) (a : α) (sync : Bool) :
    Confined base home (Record.save (q.entry name) a sync) fun _ => True := by
  rw [Record.save, Record.draft_entry]
  dsimp only
  split
  · exact .fail_bind _ _
  refine .bind (confined_create hdraft) fun k hk => .bind (confined_write hk _ _) fun _ _ => ?_
  refine .bind (confined_flush sync k) fun _ _ => .bind (confined_rename hdraft hq) fun _ _ => ?_
  exact confined_flushParent sync _

end Volume

/-! ### Stores -/

namespace Mounted

open Disk

variable {σ α : Type} {base : Location → Option Item} {home : Location} {known : σ → Prop}

/-- The action on a store changes nothing outside of `home` and leaves `known` what is known of the
store, and `Q` holds of its result. -/
abbrev Confined (base : Location → Option Item) (home : Location) (known : σ → Prop)
    (x : Act (Mounted σ) α) (Q : α → Prop) : Prop :=
  Act.Ensures (fun m => known m.store ∧ Outside base home m.volume.disk) x Q

/-- Nothing has to be known of the store. -/
def Unknown (_ : σ) : Prop := True

theorem confined_stored : Confined base home known stored known :=
  fun _ hm => ⟨hm, fun _ ha => Except.ok.inj ha ▸ hm.1⟩

theorem confined_update {f : σ → σ} (h : ∀ s, known s → known (f s)) :
    Confined base home known (update f) fun _ => True :=
  .modify fun m hm => ⟨h m.store hm.1, hm.2⟩

theorem confined_onVolume {x : Act Volume α} {Q : α → Prop} (hx : Volume.Confined base home x Q) :
    Confined base home known (onVolume x) Q :=
  fun m hm => ⟨⟨hm.1, (hx m.volume hm.2).1⟩, (hx m.volume hm.2).2⟩

end Mounted
end RaftReplica
