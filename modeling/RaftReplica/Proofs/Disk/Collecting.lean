/-
RaftReplica/Proofs/Disk/Collecting.lean

Directories that are removed under another name.  The name is put together from the text of the path,
so it is that of an entry beside the directory only if the path ends in a name; and the path has to
lead to both of them while one or the other is gone.  Whether this is so can be seen from the path
alone (`Path.Straight`), and `Volume.collect_iff` says that nothing is left of a directory exactly
if it is.

The directory is renamed to its own path with a suffix, and what has that name is removed, once
before the renaming and once after it.  A path fails to be straight in one of three ways:

* its last part is no name, so the suffix names an entry of the directory itself, and a directory
  cannot be renamed into itself;
* it goes through the directory and leaves it by two dots, so it does not lead there any more once
  the directory has another name, and the second removal finds nothing;
* it goes through what has the other name, so it does not lead there any more once that is removed.

Both directions are needed.  For a straight path the run is followed to its end, with no assumption
on what is below (`runOn_collect_straight`).  For the converse a run that ends without an error, and
after which nothing is left, is taken apart; each way of not being straight contradicts what is left
(`straight_of_collect`).

The places that a path goes through, its `stops`, are finitely many, so being straight is decidable.
-/
import Mathlib.Data.List.Infix
import RaftReplica.Proofs.Disk.Outside

namespace RaftReplica

open Disk

/-! ### Where paths go -/

namespace Disk

variable {d d' : Disk} {l m : Location} {part : String} {parts rest : List String}

/-- Each part of a way to a directory leads to one. -/
theorem walk_cons_directory_iff :
    d.walk m (part :: rest) = .ok l ∧ d.node? l = some .directory ↔
      d.node? (step m part) = some .directory ∧ d.walk (step m part) rest = .ok l ∧
        d.node? l = some .directory := by
  by_cases hrest : rest = []
  · subst hrest
    rw [walk, walk, Except.ok.injEq]
    constructor
    · rintro ⟨rfl, hl⟩
      exact ⟨hl, rfl, hl⟩
    · rintro ⟨-, rfl, hl⟩
      exact ⟨rfl, hl⟩
  · rw [walk_cons_eq_ok_iff hrest, and_assoc]

/-- A path leads to a directory if it comes by directories only. -/
theorem walk_directory_iff (hm : d.node? m = some .directory) :
    d.walk m parts = .ok l ∧ d.node? l = some .directory ↔
      (∀ front, front <+: parts → d.node? (front.foldl step m) = some .directory) ∧
        l = parts.foldl step m := by
  -- on the parts: all stops have to be directories
  induction parts generalizing m with
  | nil =>
    simp only [walk, Except.ok.injEq, List.prefix_nil, forall_eq, List.foldl_nil]
    constructor
    · rintro ⟨rfl, hl⟩
      exact ⟨hl, rfl⟩
    · rintro ⟨hl, rfl⟩
      exact ⟨rfl, hl⟩
  | cons part rest ih =>
    rw [walk_cons_directory_iff, List.foldl_cons]
    constructor
    · rintro ⟨hstep, hwalk⟩
      obtain ⟨hway, rfl⟩ := (ih hstep).1 hwalk
      refine ⟨fun front hfront => ?_, rfl⟩
      rcases List.prefix_cons_iff.1 hfront with rfl | ⟨front', rfl, hfront'⟩
      · exact hm
      · exact hway front' hfront'
    · rintro ⟨hway, rfl⟩
      have hstep := hway [part] (List.prefix_append [part] rest)
      exact ⟨hstep, (ih hstep).2 ⟨fun front hfront =>
        hway (part :: front) (List.prefix_cons_inj part |>.2 hfront), rfl⟩⟩

/-- Where a walk ends depends on its parts and not on the disk. -/
theorem eq_foldl_of_walk (h : d.walk m parts = .ok l) : l = parts.foldl step m := by
  induction parts generalizing m with
  | nil => exact (Except.ok.inj h).symm
  | cons part rest ih =>
    by_cases hrest : rest = []
    · subst hrest
      exact (Except.ok.inj h).symm
    · exact ih ((walk_cons_eq_ok_iff hrest).1 h).2

/-- Blank parts at the end lead nowhere. -/
theorem foldl_step_entryParts (p : Path) : p.entryParts.foldl step [] = p.parts.foldl step [] := by
  rw [Path.entryParts]
  generalize p.parts = parts
  -- on the parts from their end, where the empty ones are dropped
  induction parts using List.reverseRecOn with
  | nil => rfl
  | append_singleton parts part ih =>
    rw [List.reverse_append, List.reverse_singleton, List.singleton_append, List.dropWhile_cons]
    split
    · next hblank =>
      have hstep (l : Location) : step l part = l := if_pos (.inl (by simpa using hblank))
      rw [ih, List.foldl_append, List.foldl_cons, hstep, List.foldl_nil]
    · rw [List.reverse_cons, List.reverse_reverse]

end Disk

namespace Path

variable {d d' : Disk} {p : Path} {l m : Location}

/-- Where a path leads, if it leads anywhere. -/
def place (p : Path) : Location := p.parts.foldl step []

/-- What the path of a directory is called while the directory is removed. -/
def garbage (p : Path) : Path := p.withSuffix ".tmp"

/-- The last part of a path. -/
def last (p : Path) : String := p.parts.getLastD ""

/-- The path without its last part. -/
def above (p : Path) : Path := here p.parts.dropLast

/-- The places that a path comes by before its last part, from the top on. -/
def stops (p : Path) : List Location :=
  p.parts.dropLast.inits.map fun front => front.foldl step []

instance (name : String) : Decidable (Plain name) :=
  inferInstanceAs (Decidable (name ≠ "" ∧ name ≠ "." ∧ name ≠ ".."))

/-- The path ends in a name, and on its way it is never in the place that it leads to, nor in that
of the garbage. -/
structure Straight (p : Path) : Prop where
  plain : Plain p.last
  home : ∀ l ∈ p.stops, ¬ p.place <+: l
  garbage : ∀ l ∈ p.stops, ¬ p.garbage.place <+: l

instance (p : Path) : Decidable p.Straight :=
  decidable_of_iff
    (Plain p.last ∧ (∀ l ∈ p.stops, ¬ p.place <+: l) ∧ ∀ l ∈ p.stops, ¬ p.garbage.place <+: l)
    ⟨fun ⟨hplain, hhome, hgarbage⟩ => ⟨hplain, hhome, hgarbage⟩, fun h => ⟨h.plain, h.home, h.garbage⟩⟩

theorem parts_eq (p : Path) : p.parts = p.parts.dropLast ++ [p.last] := by
  obtain ⟨front, name, hparts⟩ := (List.eq_nil_or_concat p.parts).resolve_left p.parts_ne_nil
  rw [last, hparts, List.concat_eq_append, List.dropLast_concat, List.getLastD_concat]

theorem sameWay_above (hp : p.isEmpty = false) : SameWay p (p.above.entry p.last) :=
  .below_here hp p.parts_eq

theorem garbage_sameWay (p : Path) : SameWay p.garbage (p.above.entry (p.last ++ ".tmp")) :=
  .below_here (isEmpty_withSuffix (by decide) p) (parts_withSuffix (by decide) p.parts_eq)

theorem place_above (p : Path) : p.above.place = p.parts.dropLast.foldl step [] := by
  rw [above, place, parts_here]
  rfl

theorem place_eq (p : Path) : p.place = step p.above.place p.last := by
  rw [place_above, place, p.parts_eq, List.foldl_append, List.dropLast_concat]
  rfl

theorem place_garbage (p : Path) : p.garbage.place = p.above.place ++ [p.last ++ ".tmp"] := by
  rw [place_above, garbage, place, parts_withSuffix (by decide) p.parts_eq, List.foldl_append]
  exact step_plain (plain_draft p.last)

theorem place_of_plain (hn : Plain p.last) : p.place = p.above.place ++ [p.last] := by
  rw [place_eq, step_plain hn]

theorem above_garbage (p : Path) : p.garbage.above = p.above := by
  rw [above, above, garbage, parts_withSuffix (by decide) p.parts_eq, List.dropLast_concat]

/-- The path does not lead below the garbage. -/
theorem not_garbage_isPrefix (p : Path) : ¬ p.garbage.place <+: p.place := by
  intro hpre
  rw [place_garbage] at hpre
  by_cases hn : Plain p.last
  · rw [place_of_plain hn] at hpre
    have hlast := append_name_inj.1 (hpre.eq_of_length (by simp))
    exact Record.draft_ne p.last hlast
  · have hshort : p.place.length ≤ p.above.place.length := by
      rw [place_eq, step]
      split
      · exact le_refl _
      · next hstay =>
        rw [if_pos (by_contra fun hup => hn ⟨mt .inl hstay, mt .inr hstay, hup⟩),
          List.length_dropLast]
        exact Nat.sub_le _ _
    have hlong := hpre.length_le
    rw [List.length_append, List.length_singleton] at hlong
    omega

theorem mem_stops : m ∈ p.stops ↔ ∃ front, front <+: p.parts.dropLast ∧ front.foldl step [] = m := by
  rw [stops, List.mem_map]
  simp only [List.mem_inits]

/-- All but the last part of a path lead to a directory if all places on the way are directories. -/
theorem directoryAt_above_iff : d.directoryAt p.above = .ok l ↔
    (∀ m ∈ p.stops, d.node? m = some .directory) ∧ l = p.above.place := by
  have hlocate : d.locate p.above = d.walk [] ("." :: p.parts.dropLast) := by
    rw [locate, above, parts_here]
    rfl
  rw [directoryAt_eq_ok_iff, hlocate, walk_cons_directory_iff]
  show _ ∧ d.walk [] p.parts.dropLast = .ok l ∧ _ ↔ _
  rw [walk_directory_iff rfl, ← place_above]
  simp only [mem_stops, forall_exists_index, and_imp, forall_apply_eq_imp_iff₂]
  exact and_iff_right rfl

/-- A path leads somewhere only if the one above leads to a directory. -/
theorem of_locate (h : d.locate p = .ok l) :
    d.directoryAt p.above = .ok p.above.place ∧ l = p.place := by
  have hp : p.isEmpty = false := by
    by_contra hp
    rw [locate, if_pos (by simpa using hp)] at h
    exact absurd h (by simp)
  have hwalk := locate_eq_walk_of_ok ((sameWay_above hp).locate d ▸ h)
  rw [parts_entry] at hwalk
  obtain ⟨x, hx, hdir, rfl⟩ := exists_walk_of_concat hwalk p.above.parts_ne_nil
  have leads : d.directoryAt p.above = .ok x := directoryAt_eq_ok_iff.2 ⟨hx, hdir⟩
  obtain ⟨-, rfl⟩ := directoryAt_above_iff.1 leads
  exact ⟨leads, p.place_eq.symm⟩

/-- A path can only be looked up if what is above it is there. -/
theorem of_lookup {n : Node} (h : d.lookup p = .ok n) :
    d.directoryAt p.above = .ok p.above.place := by
  unfold lookup at h
  cases hl : d.locate p with
  | error e => rw [hl] at h; exact absurd h (by simp [bind, Except.bind])
  | ok l => exact (of_locate hl).1

/-- A path that leads to a directory leads to its place. -/
theorem of_directoryAt (h : d.directoryAt p = .ok l) :
    d.directoryAt p.above = .ok p.above.place ∧ l = p.place ∧ p.isEmpty = false :=
  have hlocate := of_locate (directoryAt_eq_ok_iff.1 h).1
  ⟨hlocate.1, hlocate.2, isEmpty_of_directoryAt h⟩

/-- A path that is there goes through what is above it. -/
theorem of_isThere (h : d.isThere p = true) : d.directoryAt p.above = .ok p.above.place := by
  unfold isThere at h
  cases hn : d.lookup p with
  | error e => rw [hn] at h; exact absurd h (by simp [Except.isOk, Except.toBool])
  | ok n => exact of_lookup hn

end Path

/-! ### What is removed -/

namespace Disk

/-- The disks are the same but for two places. -/
def SameBut (a b : Location) (d d' : Disk) : Prop :=
  ∀ m, ¬ a <+: m → ¬ b <+: m → d'.item? m = d.item? m

/-- Nothing is left in two places, and everything else is as it was. -/
structure Removed (a b : Location) (d d' : Disk) : Prop where
  wellFormed : d'.WellFormed
  gone : ∀ m, a <+: m ∨ b <+: m → d'.item? m = none
  sameBut : SameBut a b d d'

end Disk

namespace Path

variable {d d' : Disk} {p : Path}

/-- What is in the two places does not matter to the rest of a straight path. -/
theorem Straight.directoryAt_above (h : p.Straight) (hs : SameBut p.place p.garbage.place d d')
    (leads : d.directoryAt p.above = .ok p.above.place) :
    d'.directoryAt p.above = .ok p.above.place := by
  refine directoryAt_above_iff.2 ⟨fun m hm => ?_, rfl⟩
  rw [← item?_eq_directory_iff, hs m (h.home m hm) (h.garbage m hm), item?_eq_directory_iff]
  exact (directoryAt_above_iff.1 leads).1 m hm

/-- A straight path is not empty. -/
theorem Straight.isEmpty (h : p.Straight) : p.isEmpty = false := by
  by_contra hempty
  obtain ⟨base, below⟩ := p
  obtain ⟨hbase, hbelow⟩ : base = "" ∧ below = [] := by simpa [Path.isEmpty] using hempty
  subst hbase hbelow
  exact h.plain.1 (by decide)

/-- A straight path leads to its place if the directory above is there. -/
theorem Straight.directoryAt (h : p.Straight) (leads : d.directoryAt p.above = .ok p.above.place)
    (hi : d.item? p.place = some .directory) : d.directoryAt p = .ok p.place := by
  rw [place_of_plain h.plain] at hi ⊢
  rw [(sameWay_above h.isEmpty).directoryAt]
  exact directoryAt_entry leads h.plain hi

/-- Whatever is in its directory, a straight path leads there. -/
theorem Straight.rooted (h : p.Straight) (leads : d.directoryAt p = .ok p.place) :
    Rooted d.item? p.place p := by
  intro d' ho
  have hsame : SameBut p.place p.garbage.place d d' := fun m hm _ => ho.item? m fun hb => hm hb.1
  refine h.directoryAt (h.directoryAt_above hsame (of_directoryAt leads).1) ?_
  rw [ho.item? _ fun hb => hb.2 rfl, item?_eq_directory_iff]
  exact (directoryAt_eq_ok_iff.1 leads).2

end Path

namespace Volume

variable {v v' v₁ : Volume} {p : Path} {l : Location} {name other : String} {home : Location}

/-- A call that was made was one that the disk takes. -/
theorem eq_ok_of_perform {c : Call} {u : Unit} (h : (perform c).runOn v = (.ok u, v')) :
    v.disk.perform c = .ok v'.disk := by
  cases hc : v.disk.perform c with
  | ok d =>
    rw [runOn_perform hc] at h
    rw [← (Prod.mk.inj h).2]
  | error e =>
    rw [runOn_perform_error hc] at h
    exact absurd (Prod.mk.inj h).1 (by simp)

/-- Whatever is in an entry goes to another one that is free. -/
theorem runOn_rename_away (leads : v.disk.directoryAt p = .ok l) (hn : Path.Plain name)
    (ho : Path.Plain other) (hw : v.disk.WellFormed) (hthere : v.disk.item? (l ++ [name]) ≠ none)
    (hfree : v.disk.item? (l ++ [other]) = none) :
    ∃ v', (rename (p.entry name) (p.entry other)).runOn v = (.ok (), v') ∧ v'.disk.WellFormed ∧
      ∀ m, ¬ l ++ [other] <+: m →
        v'.disk.item? m = if l ++ [name] <+: m then none else v.disk.item? m := by
  have hne : name ≠ other := by
    rintro rfl
    exact hthere hfree
  cases hi : v.disk.item? (l ++ [name]) with
  | none => exact absurd hi hthere
  | some item =>
    cases item with
    | directory =>
      obtain ⟨v', hrename, hw', hitems⟩ := runOn_rename_directory leads hn ho hw hi hfree
      exact ⟨v', hrename, hw', fun m hm => by rw [hitems, if_neg hm]⟩
    | file k bs =>
      obtain ⟨v', hrename, hw', hitems⟩ := runOn_rename leads hn hw ho hne hi (by rw [hfree]; simp)
      refine ⟨v', hrename, hw', fun m hm => ?_⟩
      have hother : m ≠ l ++ [other] := by
        rintro rfl
        exact hm (List.prefix_refl _)
      rw [hitems, Function.update_of_ne hother]
      by_cases hm : m = l ++ [name]
      · rw [hm, Function.update_self, if_pos (List.prefix_refl _)]
      · rw [Function.update_of_ne hm]
        split
        · next hp => exact item?_of_below hw (by rw [hi]; simp) ⟨hp, hm⟩
        · rfl

/-- What no path leads to is not removed. -/
theorem eq_of_removeAll_error {e : IoCause} {u : Unit} (hlookup : v.disk.lookup p = .error e)
    (h : (removeAll p).runOn v = (.ok u, v')) : v' = v := by
  rw [removeAll, Act.runOn_bind_ok (Act.runOn_get v), hlookup] at h
  split at h
  · exact (Prod.mk.inj h).2.symm
  · obtain ⟨n, v₁, hlook, -⟩ := Act.eq_ok_of_bind h
    rw [(eq_ok_of_look hlook).1] at hlookup
    exact absurd hlookup (by simp)

/-- The garbage of an earlier time goes first. -/
theorem runOn_removeAll_garbage (hw : v.disk.WellFormed)
    (leads : v.disk.directoryAt p.above = .ok p.above.place) :
    ∃ v', (removeAll p.garbage).runOn v = (.ok (), v') ∧ v'.disk.WellFormed ∧
      ∀ m, v'.disk.item? m = if p.garbage.place <+: m then none else v.disk.item? m := by
  rw [p.garbage_sameWay.removeAll, p.place_garbage]
  exact runOn_removeAll leads (Path.plain_draft _) hw

/-- What is in the way is removed, and then the directory, if it is there. -/
theorem runOn_collect (h : (removeAll p.garbage).runOn v = (.ok (), v₁)) : (collect p).runOn v =
    if v₁.disk.isThere p then
      (rename p p.garbage >>= fun _ => removeAll p.garbage : Act Volume Unit).runOn v₁
    else (.ok (), v₁) := by
  show (removeAll p.garbage >>= fun _ => get >>= _ : Act Volume Unit).runOn v = _
  rw [Act.runOn_bind_ok h, Act.runOn_bind_ok (Act.runOn_get v₁)]
  split <;> rfl

/-- **A straight path** is collected: nothing is left of what was there, whatever it was. -/
theorem runOn_collect_straight (h : p.Straight) (hw : v.disk.WellFormed)
    (leads : v.disk.directoryAt p.above = .ok p.above.place) :
    ∃ v', (collect p).runOn v = (.ok (), v') ∧
      Removed p.place p.garbage.place v.disk v'.disk := by
  have hname := Path.place_of_plain h.plain
  obtain ⟨v₁, hclear, hw₁, hitems₁⟩ := runOn_removeAll_garbage hw leads
  have leads₁ := h.directoryAt_above (fun m _ hm => by rw [hitems₁, if_neg hm]) leads
  have hlookup := lookup_entry leads₁ h.plain
  rw [← (Path.sameWay_above h.isEmpty).lookup, ← hname] at hlookup
  rw [runOn_collect hclear]
  -- nothing is there, or a directory that is renamed and removed
  cases hnode : v₁.disk.node? p.place with
  | none =>
    rw [hnode] at hlookup
    have hthere : v₁.disk.isThere p = false := by
      rw [isThere, hlookup]
      rfl
    have hnone := item?_eq_none_iff.2 hnode
    refine ⟨v₁, by rw [hthere]; rfl, hw₁, ?_, fun m _ hm => by rw [hitems₁, if_neg hm]⟩
    rintro m (hm | hm)
    · by_cases he : m = p.place
      · rw [he, hnone]
      · exact item?_of_below hw₁ (by rw [hnone]; simp) ⟨hm, he⟩
    · rw [hitems₁, if_pos hm]
  | some n =>
    rw [hnode] at hlookup
    have hthere : v₁.disk.isThere p = true := by
      rw [isThere, hlookup]
      rfl
    have hsome : v₁.disk.item? p.place ≠ none := by
      rw [Ne, item?_eq_none_iff, hnode]
      simp
    have hfree : v₁.disk.item? p.garbage.place = none := by
      rw [hitems₁, if_pos (List.prefix_refl _)]
    rw [hname] at hsome
    rw [p.place_garbage] at hfree
    obtain ⟨v₂, hrename, hw₂, hitems₂⟩ :=
      runOn_rename_away leads₁ h.plain (Path.plain_draft _) hw₁ hsome hfree
    rw [← (Path.sameWay_above h.isEmpty).rename p.garbage_sameWay] at hrename
    rw [← hname, ← p.place_garbage] at hitems₂
    have leads₂ := h.directoryAt_above (fun m hm hm' => by rw [hitems₂ m hm', if_neg hm]) leads₁
    obtain ⟨v₃, hremove, hw₃, hitems₃⟩ := runOn_removeAll_garbage hw₂ leads₂
    refine ⟨v₃, by rw [if_pos hthere, Act.runOn_bind_ok hrename, hremove], hw₃, ?_,
      fun m hm hm' => by rw [hitems₃, if_neg hm', hitems₂ m hm', if_neg hm, hitems₁, if_neg hm']⟩
    rintro m (hm | hm)
    · rw [hitems₃]
      split
      · rfl
      · next hm' => rw [hitems₂ m hm', if_pos hm]
    · rw [hitems₃, if_pos hm]

/-- Where nothing is left, nothing is done. -/
theorem runOn_collect_gone (h : p.Straight) (leads : v.disk.directoryAt p.above = .ok p.above.place)
    (hhome : v.disk.item? p.place = none) (hgarbage : v.disk.item? p.garbage.place = none) :
    (collect p).runOn v = (.ok (), v) := by
  have hmissing {q : Path} {name : String} (hq : Path.SameWay q (p.above.entry name))
      (hn : Path.Plain name) (hi : v.disk.item? (p.above.place ++ [name]) = none) :
      v.disk.lookup q = .error .missing := by
    rw [hq.lookup, lookup_entry leads hn, item?_eq_none_iff.1 hi]
  have hlookup := hmissing p.garbage_sameWay (Path.plain_draft _) (p.place_garbage ▸ hgarbage)
  have hlookup' := hmissing (Path.sameWay_above h.isEmpty) h.plain (Path.place_of_plain h.plain ▸ hhome)
  have hclear : (removeAll p.garbage).runOn v = (.ok (), v) := by
    rw [removeAll, Act.runOn_bind_ok (Act.runOn_get v), hlookup]
    rfl
  rw [runOn_collect hclear, isThere, hlookup']
  rfl

/-- The directory is made again where nothing was. -/
theorem runOn_makeDirectories_straight (h : p.Straight) (hw : v.disk.WellFormed)
    (leads : v.disk.directoryAt p.above = .ok p.above.place)
    (hnone : v.disk.item? p.place = none) :
    ∃ v', (makeDirectories p).runOn v = (.ok (), v') ∧
      Puts v.disk v'.disk p.place (some .directory) := by
  rw [Path.place_of_plain h.plain] at hnone ⊢
  obtain ⟨v', hmake, hput⟩ := runOn_makeDirectories_entry leads h.plain hw hnone
  refine ⟨v', ?_, hput⟩
  rw [← hmake, makeDirectories, makeDirectories, h.isEmpty, Path.isEmpty_entry, Path.parts_entry,
    Path.above, Path.parts_here]
  show (makeAll [] p.parts).runOn v = (makeAll [] ("." :: (p.parts.dropLast ++ [p.last]))).runOn v
  rw [runOn_makeAll_there _ rfl, ← p.parts_eq]
  rfl

/-- A path that does not end in a name cannot be renamed: what it leads to is in use, or the
garbage would be below it. -/
theorem rename_garbage_ne_ok (hp : p.isEmpty = false) (hn : ¬ Path.Plain p.last)
    (leads : v.disk.directoryAt p.above = .ok p.above.place) :
    (rename p p.garbage).runOn v ≠ (.ok (), v') := by
  intro hrun
  rw [rename] at hrun
  obtain ⟨x, _, hlook, hrun₁⟩ := Act.eq_ok_of_bind hrun
  obtain ⟨hx, rfl⟩ := eq_ok_of_look hlook
  obtain ⟨y, _, hlook', hrun₂⟩ := Act.eq_ok_of_bind hrun₁
  obtain ⟨hy, rfl⟩ := eq_ok_of_look hlook'
  dsimp only at hrun₂
  split at hrun₂
  · exact absurd (Prod.mk.inj hrun₂).1 (by simp)
  next hdots =>
  have hway := Path.sameWay_above hp
  have hslash : p.endsInSlash = true := by
    rw [hway.endsInSlash]
    refine (Path.endsInSlash_or_endsInDots p.above hn).resolve_right fun hend => hdots ?_
    rw [hway.endsInDots, hend]
    rfl
  have hblank : p.last = "" := by
    have hlast : (p.above.parts ++ [p.last]).getLast? = some "" := by
      rw [hway.endsInSlash, Path.endsInSlash, Path.parts_entry] at hslash
      simpa using hslash
    rw [List.getLast?_concat] at hlast
    exact Option.some.inj hlast
  have hplace : x = p.above.place := by
    rw [locateEntry, hp] at hx
    rw [eq_foldl_of_walk hx, foldl_step_entryParts]
    show p.place = _
    rw [p.place_eq, hblank]
    rfl
  have hgarbage : y = p.above.place ++ [p.last ++ ".tmp"] := by
    rw [p.garbage_sameWay.locateEntry, locateEntry_entry leads (Path.plain_draft _)] at hy
    exact (Except.ok.inj hy).symm
  subst hplace hgarbage
  rw [Act.runOn_bind_ok (Act.runOn_get _), (directoryAt_eq_ok_iff.1 leads).2] at hrun₂
  rcases rename_cases (eq_ok_of_perform hrun₂) with ⟨he, -⟩ | ⟨-, hbelow, -⟩
  · exact absurd he (by simp)
  · exact hbelow (List.prefix_append _ _)

/-- **Only a straight path** is collected, if a directory is there. -/
theorem straight_of_collect (hw : v.disk.WellFormed) (leads : v.disk.directoryAt p = .ok home)
    (hrun : (collect p).runOn v = (.ok (), v'))
    (hgone : Removed home p.garbage.place v.disk v'.disk) : p.Straight := by
  obtain ⟨habove, rfl, hp⟩ := Path.of_directoryAt leads
  obtain ⟨v₁, hclear, hw₁, hitems₁⟩ := runOn_removeAll_garbage hw habove
  have hhome : v₁.disk.item? p.place = some .directory := by
    rw [hitems₁, if_neg p.not_garbage_isPrefix, item?_eq_directory_iff]
    exact (directoryAt_eq_ok_iff.1 leads).2
  rw [runOn_collect hclear] at hrun
  -- if the path does not lead there any more, the directory stays
  have hthere : v₁.disk.isThere p = true := by
    by_contra hnot
    rw [if_neg hnot] at hrun
    obtain ⟨-, rfl⟩ := Prod.mk.inj hrun
    rw [hgone.gone _ (.inl (List.prefix_refl _))] at hhome
    exact absurd hhome (by simp)
  have habove₁ := Path.of_isThere hthere
  rw [if_pos hthere] at hrun
  obtain ⟨_, v₂, hrename, hremove⟩ := Act.eq_ok_of_bind hrun
  have hplain : Path.Plain p.last := by
    by_contra hn
    exact rename_garbage_ne_ok hp hn habove₁ hrename
  have hgarbage : ∀ m ∈ p.stops, ¬ p.garbage.place <+: m := by
    intro m hm hin
    have hdir := item?_eq_directory_iff.2 ((Path.directoryAt_above_iff.1 habove₁).1 m hm)
    rw [hitems₁, if_pos hin] at hdir
    exact absurd hdir (by simp)
  refine ⟨hplain, fun m hm hin => ?_, hgarbage⟩
  -- the path does not lead to the garbage any more either, so that stays
  have hname := Path.place_of_plain hplain
  have hfree : v₁.disk.item? p.garbage.place = none := by
    rw [hitems₁, if_pos (List.prefix_refl _)]
  rw [hname] at hhome
  rw [p.place_garbage] at hfree
  obtain ⟨v₂', hrename', -, hitems₂⟩ :=
    runOn_rename_directory habove₁ hplain (Path.plain_draft _) hw₁ hhome hfree
  rw [← (Path.sameWay_above hp).rename p.garbage_sameWay, hrename] at hrename'
  obtain ⟨-, rfl⟩ := Prod.mk.inj hrename'
  rw [← p.place_garbage, ← hname] at hitems₂
  cases hlookup : v₂.disk.lookup p.garbage with
  | ok n =>
    have habove₂ := Path.of_lookup hlookup
    rw [p.above_garbage] at habove₂
    have hdir := item?_eq_directory_iff.2 ((Path.directoryAt_above_iff.1 habove₂).1 m hm)
    rw [hitems₂, if_neg (hgarbage m hm), if_pos hin] at hdir
    exact absurd hdir (by simp)
  | error e =>
    obtain rfl := eq_of_removeAll_error hlookup hremove
    have hleft := hgone.gone _ (.inr (List.prefix_refl p.garbage.place))
    rw [hitems₂, if_pos (List.prefix_refl _), List.drop_length, List.append_nil, hname, hhome] at hleft
    exact absurd hleft (by simp)

/-- **A directory is removed** with all that is in it and whatever is left of an earlier time, and
nothing else changes, exactly if its path is straight. -/
theorem collect_iff (hw : v.disk.WellFormed) (leads : v.disk.directoryAt p = .ok home) :
    (∃ v', (collect p).runOn v = (.ok (), v') ∧ Removed home p.garbage.place v.disk v'.disk) ↔
      p.Straight := by
  constructor
  · rintro ⟨v', hrun, hgone⟩
    exact straight_of_collect hw leads hrun hgone
  · intro h
    obtain ⟨habove, rfl, -⟩ := Path.of_directoryAt leads
    exact runOn_collect_straight h hw habove

end Volume
end RaftReplica
