/-
RaftReplica/Proofs/Disk/WellFormed.lean

Disks as calls make them: every name is given once, every name but the top stands in a directory,
and no file has two names.  Each call keeps this (`WellFormed.perform`), so every disk that calls
make out of an empty one has it (`wellFormed_replay`).

The five fields are about the list of names, so there is one lemma for each way in which a call
changes that list:

* a name is added (`add`), for a new directory or a new file;
* a name and all that is below it is dropped (`drop`);
* every name at or below one is changed (`move`);
* the content of a file is changed (`changeContent`), which is about no name at all.

The third is the one with an argument in it.  A renamed directory takes along what is below it, so
distinct names have to stay distinct (`moved_injOn`), and each name has to find its parent again,
renamed or not.  Both use that nothing has the new name and that the new name is not below the old
one; the calls check the second and arrange the first by dropping what is there
(`WellFormed.replace`).
-/
import Mathlib.Data.List.Induction
import RaftReplica.Disk.Basic

namespace RaftReplica

/-- The number of what is a file. -/
def Node.number? : Node → Option Nat
  | .file number => some number
  | .directory => none

namespace Disk

variable {d d' : Disk} {l old new : Location} {n : Node}

/-- There is a directory at `l`. -/
def HasDirectory (d : Disk) (l : Location) : Prop := l = [] ∨ (l, Node.directory) ∈ d.nodes

/-- Names are given once and stand in directories; no file has two names, and each has a content. -/
structure WellFormed (d : Disk) : Prop where
  distinct : (d.nodes.map Prod.fst).Nodup
  named : ∀ x ∈ d.nodes, x.1 ≠ []
  parented : ∀ x ∈ d.nodes, d.HasDirectory x.1.dropLast
  unshared : (d.nodes.filterMap fun x => x.2.number?).Nodup
  stored : ∀ x ∈ d.nodes, ∀ k, x.2 = .file k → k < d.contents.length

/-! ### Looking names up -/

/-- With distinct names a lookup finds what is in the list. -/
theorem lookup_eq_some_iff {nodes : List (Location × Node)} (h : (nodes.map Prod.fst).Nodup) :
    nodes.lookup l = some n ↔ (l, n) ∈ nodes := by
  induction nodes with
  | nil => simp
  | cons x rest ih =>
    obtain ⟨k, m⟩ := x
    rw [List.map_cons, List.nodup_cons] at h
    rw [List.lookup_cons, List.mem_cons]
    by_cases hk : l = k
    · subst hk
      rw [beq_self_eq_true]
      constructor
      · intro he
        exact .inl (by rw [Option.some.inj he])
      · rintro (he | he)
        · rw [(Prod.mk.inj he).2]
        · exact absurd (List.mem_map_of_mem he) h.1
    · rw [beq_eq_false_iff_ne.2 hk]
      show rest.lookup l = some n ↔ _
      rw [ih h.2]
      constructor
      · exact .inr
      · rintro (he | he)
        · exact absurd (Prod.mk.inj he).1 hk
        · exact he

namespace WellFormed

/-- The top is a directory; everything else is a name in the list. -/
theorem node?_eq_some_iff (h : d.WellFormed) :
    d.node? l = some n ↔ (l = [] ∧ n = .directory) ∨ (l, n) ∈ d.nodes := by
  unfold node?
  by_cases hl : l = []
  · rw [if_pos hl]
    constructor
    · intro he
      exact .inl ⟨hl, (Option.some.inj he).symm⟩
    · rintro (⟨-, rfl⟩ | hm)
      · rfl
      · exact absurd hl (h.named _ hm)
  · rw [if_neg hl, lookup_eq_some_iff h.distinct]
    constructor
    · exact .inr
    · rintro (⟨he, -⟩ | hm)
      · exact absurd he hl
      · exact hm

/-- A directory is found where there is one. -/
theorem node?_eq_directory_iff (h : d.WellFormed) :
    d.node? l = some .directory ↔ d.HasDirectory l := by
  rw [h.node?_eq_some_iff, HasDirectory]
  simp

/-- A file is found where there is one. -/
theorem node?_eq_file_iff (h : d.WellFormed) {k : Nat} :
    d.node? l = some (.file k) ↔ (l, .file k) ∈ d.nodes := by
  rw [h.node?_eq_some_iff]
  simp

/-- A name that is not found is not in the list. -/
theorem notMem_of_node? (h : d.WellFormed) (hl : d.node? l = none) : (l, n) ∉ d.nodes := by
  intro hm
  rw [h.node?_eq_some_iff.2 (.inr hm)] at hl
  exact Option.some_ne_none n hl

/-- The check of a parent asks for a directory. -/
theorem hasDirectory_of_hasParent (h : d.WellFormed) (hp : d.hasParent l = .ok ()) :
    d.HasDirectory l.dropLast := by
  unfold hasParent at hp
  split at hp
  · next hd => exact h.node?_eq_directory_iff.1 hd
  · exact absurd hp (by simp)
  · exact absurd hp (by simp)

/-- What a name leads through is a directory. -/
theorem hasDirectory_of_above (h : d.WellFormed) (hm : (l, n) ∈ d.nodes) {k : Location}
    (hk : k <+: l) (hne : k ≠ l) : d.HasDirectory k := by
  -- on the location from its end, since a name stands in the directory without its last part
  induction l using List.reverseRecOn generalizing n with
  | nil => exact absurd (List.prefix_nil.1 hk) hne
  | append_singleton l name ih =>
    have hparent := h.parented _ hm
    rw [List.dropLast_concat] at hparent
    rcases List.prefix_concat_iff.1 hk with rfl | hk
    · exact absurd rfl hne
    · by_cases hkl : k = l
      · exact hkl ▸ hparent
      · rcases hparent with rfl | hparent
        · exact absurd (List.prefix_nil.1 hk) hkl
        · exact ih hparent hk hkl

theorem not_below (h : d.WellFormed) (hl : ¬ d.HasDirectory l) {x : Location × Node}
    (hx : x ∈ d.nodes) (hne : x.1 ≠ l) : ¬ l <+: x.1 :=
  fun hp => hl (h.hasDirectory_of_above (n := x.2) hx hp hne.symm)

end WellFormed

/-! ### What calls do to names -/

theorem HasDirectory.mono (h : ∀ x ∈ d.nodes, x ∈ d'.nodes) (hl : d.HasDirectory l) :
    d'.HasDirectory l := hl.imp id (h _)

theorem wellFormed_empty : empty.WellFormed := by
  constructor <;> simp [empty]

namespace WellFormed

/-- A new name for a directory or for a file without one. -/
theorem add (h : d.WellFormed) {cs : List Content} (hl : d.node? l = none)
    (hp : d.HasDirectory l.dropLast) (hcs : d.contents.length ≤ cs.length)
    (hn : ∀ k, n = .file k → d.contents.length ≤ k ∧ k < cs.length) :
    WellFormed ⟨d.nodes ++ [(l, n)], cs⟩ := by
  have hgrow : ∀ x ∈ d.nodes, x ∈ (⟨d.nodes ++ [(l, n)], cs⟩ : Disk).nodes :=
    fun x hx => List.mem_append_left _ hx
  constructor
  · rw [List.map_append, List.nodup_append]
    refine ⟨h.distinct, by simp, ?_⟩
    rintro a ha b hb rfl
    obtain ⟨x, hx, rfl⟩ := List.mem_map.1 ha
    obtain rfl : x.1 = l := by simpa using hb
    exact h.notMem_of_node? hl hx
  · intro x hx
    rcases List.mem_append.1 hx with hx | hx
    · exact h.named x hx
    · obtain rfl := List.mem_singleton.1 hx
      rintro rfl
      simp [node?] at hl
  · intro x hx
    rcases List.mem_append.1 hx with hx | hx
    · exact (h.parented x hx).mono hgrow
    · obtain rfl := List.mem_singleton.1 hx
      exact hp.mono hgrow
  · -- a new file has a number of its own, above all that are taken
    rw [List.filterMap_append, List.nodup_append]
    refine ⟨h.unshared, ?_, ?_⟩
    · cases n <;> simp [Node.number?]
    · rintro a ha b hb rfl
      obtain ⟨x, hx, hxa⟩ := List.mem_filterMap.1 ha
      have hna : n = .file a := by
        cases n with
        | file k => simpa [Node.number?, eq_comm] using hb
        | directory => simp [Node.number?] at hb
      have hxf : x.2 = .file a := by
        cases hk : x.2 with
        | file k => simpa [Node.number?, hk] using hxa
        | directory => simp [Node.number?, hk] at hxa
      have := h.stored x hx a hxf
      have := (hn a hna).1
      omega
  · intro x hx k hk
    rcases List.mem_append.1 hx with hx | hx
    · exact Nat.lt_of_lt_of_le (h.stored x hx k hk) hcs
    · obtain rfl := List.mem_singleton.1 hx
      exact (hn k hk).2

/-- Dropping a name with all that is below keeps a disk well formed. -/
theorem drop (h : d.WellFormed) (l : Location) : (d.drop l).WellFormed := by
  have hsub : (d.drop l).nodes.Sublist d.nodes := List.filter_sublist
  constructor
  · exact h.distinct.sublist (hsub.map _)
  · exact fun x hx => h.named x (hsub.subset hx)
  · intro x hx
    obtain ⟨hx, hxl⟩ := List.mem_filter.1 hx
    refine (h.parented x hx).imp id fun hp => List.mem_filter.2 ⟨hp, ?_⟩
    -- what a kept name stands in is kept
    simp only [Bool.not_eq_true', decide_eq_false_iff_not] at hxl ⊢
    exact fun hpre => hxl (hpre.trans <| List.dropLast_prefix _)
  · exact h.unshared.sublist (hsub.filterMap _)
  · exact fun x hx => h.stored x (hsub.subset hx)

/-- Contents have no part in it. -/
theorem changeContent (h : d.WellFormed) (k : Nat) (f : Content → Content) :
    (d.changeContent k f).WellFormed := by
  refine ⟨h.distinct, h.named, h.parented, h.unshared, ?_⟩
  intro x hx j hj
  rw [Disk.changeContent, List.length_modify]
  exact h.stored x hx j hj

end WellFormed

/-! ### Other names -/

/-- The name that takes the place of `l` when `old` is renamed. -/
def moved (old new l : Location) : Location := if old <+: l then new ++ l.drop old.length else l

/-- Moving changes the names and nothing else. -/
theorem nodes_move (d : Disk) (old new : Location) :
    (d.move old new).nodes = d.nodes.map fun x => (moved old new x.1, x.2) := by
  apply List.map_congr_left
  intro x _
  rw [moved]
  split <;> rfl

theorem moved_self : moved old new old = new := by simp [moved]

theorem moved_of_not_under (h : ¬ old <+: l) : moved old new l = l := if_neg h

theorem moved_append (rest : Location) : moved old new (old ++ rest) = new ++ rest := by
  simp [moved]

namespace WellFormed

variable (h : d.WellFormed) (hnew : d.node? new = none)

include h hnew in
/-- Distinct names stay distinct, because nothing was at or below the new name. -/
theorem moved_injOn {x y : Location × Node} (hx : x ∈ d.nodes) (hy : y ∈ d.nodes)
    (he : moved old new x.1 = moved old new y.1) : x.1 = y.1 := by
  have hfree : ∀ z ∈ d.nodes, ¬ new <+: z.1 := by
    intro z hz hp
    refine h.not_below ?_ hz ?_ hp
    · rw [← h.node?_eq_directory_iff, hnew]
      exact fun he => Option.some_ne_none _ he.symm
    · rintro rfl
      exact h.notMem_of_node? (n := z.2) hnew hz
  -- both names move, one of them does, or none
  by_cases hpx : old <+: x.1 <;> by_cases hpy : old <+: y.1
  · obtain ⟨r, hr⟩ := hpx
    obtain ⟨s, hs⟩ := hpy
    rw [← hr, ← hs, moved_append, moved_append, List.append_cancel_left_eq] at he
    rw [← hr, ← hs, he]
  · obtain ⟨r, hr⟩ := hpx
    rw [← hr, moved_append, moved_of_not_under hpy] at he
    exact absurd ⟨r, he⟩ (hfree y hy)
  · obtain ⟨s, hs⟩ := hpy
    rw [← hs, moved_append, moved_of_not_under hpx] at he
    exact absurd ⟨s, he.symm⟩ (hfree x hx)
  · rwa [moved_of_not_under hpx, moved_of_not_under hpy] at he

include h hnew in
/-- What stands in a directory goes with it. -/
theorem move (hp : d.HasDirectory new.dropLast) (hbelow : ¬ old <+: new) :
    (d.move old new).WellFormed := by
  have hne : new ≠ [] := by
    rintro rfl
    simp [node?] at hnew
  -- directories that are not renamed stay where they are
  have hkeep : ∀ {x : Location}, ¬ old <+: x → d.HasDirectory x →
      (d.move old new).HasDirectory x := by
    intro x hx hd
    apply hd.imp id
    intro hm
    rw [nodes_move]
    exact List.mem_map.2 ⟨_, hm, by rw [moved_of_not_under hx]⟩
  constructor
  · rw [nodes_move, List.map_map]
    have hpw := List.pairwise_map.1 h.distinct
    refine List.pairwise_map.2 (hpw.imp_of_mem fun hx hy hxy he => hxy ?_)
    exact h.moved_injOn hnew hx hy he
  · rw [nodes_move]
    intro y hy
    obtain ⟨x, hx, rfl⟩ := List.mem_map.1 hy
    show moved old new x.1 ≠ []
    rw [moved]
    split
    · simp [hne]
    · exact h.named x hx
  · rw [nodes_move]
    intro y hy
    obtain ⟨x, hx, rfl⟩ := List.mem_map.1 hy
    show (d.move old new).HasDirectory (moved old new x.1).dropLast
    -- a name below the renamed one moves together with the directory that it stands in
    by_cases hpre : old <+: x.1
    · obtain ⟨r, hr⟩ := hpre
      rw [← hr, moved_append]
      rcases List.eq_nil_or_concat r with rfl | ⟨r, name, rfl⟩
      · -- the renamed directory itself stands where the new name does
        rw [List.append_nil]
        exact hkeep (fun hp => hbelow (hp.trans <| List.dropLast_prefix _)) hp
      · have hparent := h.parented x hx
        rw [← hr, List.concat_eq_append, ← List.append_assoc, List.dropLast_concat] at hparent
        rw [List.concat_eq_append, ← List.append_assoc, List.dropLast_concat]
        rcases hparent with hnil | hm
        · obtain ⟨rfl, rfl⟩ := List.append_eq_nil_iff.1 hnil
          exact absurd (List.nil_prefix) hbelow
        · right
          rw [nodes_move]
          exact List.mem_map.2 ⟨_, hm, by rw [moved_append]⟩
    · rw [moved_of_not_under hpre]
      exact hkeep (fun hp => hpre (hp.trans <| List.dropLast_prefix _)) (h.parented x hx)
  · rw [nodes_move, List.filterMap_map]
    exact h.unshared
  · rw [nodes_move]
    intro y hy k hk
    obtain ⟨x, hx, rfl⟩ := List.mem_map.1 hy
    exact h.stored x hx k hk

end WellFormed

/-! ### Calls -/

/-- A directory that is not below the dropped name stays. -/
theorem hasDirectory_drop (h : d.HasDirectory l) (hp : ¬ new <+: l) :
    (d.drop new).HasDirectory l := by
  refine h.imp id fun hm => List.mem_filter.2 ⟨hm, ?_⟩
  simpa using hp

/-- A dropped name is not found. -/
theorem node?_drop_self (h : d.WellFormed) (hne : l ≠ []) : (d.drop l).node? l = none := by
  cases hn : (d.drop l).node? l with
  | none => rfl
  | some n =>
    rcases (h.drop l).node?_eq_some_iff.1 hn with ⟨he, -⟩ | hm
    · exact absurd he hne
    · have := (List.mem_filter.1 hm).2
      simp at this

/-- Dropping a name does not take away the directory that it stands in. -/
theorem hasDirectory_dropLast_drop (hp : d.HasDirectory new.dropLast) (hne : new ≠ []) :
    (d.drop new).HasDirectory new.dropLast := by
  apply hasDirectory_drop hp
  intro hpre
  have hle := hpre.length_le
  have hpos := List.length_pos_iff.2 hne
  rw [List.length_dropLast] at hle
  omega

/-- Something is renamed onto what is dropped for it. -/
theorem WellFormed.replace (h : d.WellFormed) (hne : new ≠ [])
    (hp : d.HasDirectory new.dropLast) (hbelow : ¬ old <+: new) :
    ((d.drop new).move old new).WellFormed :=
  (h.drop new).move (node?_drop_self h hne) (hasDirectory_dropLast_drop hp hne) hbelow

/-- What a change of name does: nothing, or what is at the old name goes to the new one, where nothing
is or from where it is dropped. -/
theorem rename_cases (hr : d.rename old new = .ok d') : (old = new ∧ d' = d) ∨
    (d.hasParent new = .ok () ∧ ¬ old <+: new ∧ new ≠ [] ∧
      ((d.node? new = none ∧ d' = d.move old new) ∨ d' = (d.drop new).move old new)) := by
  unfold Disk.rename at hr
  cases hpo : d.hasParent old with
  | error e => rw [hpo] at hr; exact absurd hr (by simp [bind, Except.bind])
  | ok _ =>
    cases hpn : d.hasParent new with
    | error e => rw [hpo, hpn] at hr; exact absurd hr (by simp [bind, Except.bind])
    | ok _ =>
      rw [hpo, hpn] at hr
      simp only [bind, Except.bind] at hr
      split at hr
      · exact absurd hr (by simp)
      split at hr
      · next he => exact .inl ⟨he, (Except.ok.inj hr).symm⟩
      split at hr
      · exact absurd hr (by simp)
      next hbelow =>
      split at hr
      · exact absurd hr (by simp)
      next habove =>
      have hne : new ≠ [] := fun he => habove (he ▸ List.nil_prefix)
      refine .inr ⟨rfl, hbelow, hne, ?_⟩
      split at hr
      · next hnew _ => exact .inl ⟨hnew, (Except.ok.inj hr).symm⟩
      · exact .inr (Except.ok.inj hr).symm
      · exact absurd hr (by simp)
      · exact absurd hr (by simp)
      · split at hr
        · exact absurd hr (by simp)
        · exact .inr (Except.ok.inj hr).symm

/-- Renaming keeps a disk well formed. -/
theorem WellFormed.rename (h : d.WellFormed) (hr : d.rename old new = .ok d') :
    d'.WellFormed := by
  rcases rename_cases hr with ⟨-, rfl⟩ | ⟨hp, hbelow, hne, ⟨hnew, rfl⟩ | rfl⟩
  · exact h
  · exact h.move hnew (h.hasDirectory_of_hasParent hp) hbelow
  · exact h.replace hne (h.hasDirectory_of_hasParent hp) hbelow

/-- A directory is made where nothing is, in one that is there. -/
theorem makeDirectory_eq_ok_iff : d.perform (.makeDirectory l) = .ok d' ↔
    d.node? l = none ∧ d.hasParent l = .ok () ∧ d' = d.add l .directory := by
  rw [Disk.perform]
  cases d.node? l with
  | some n => simp
  | none =>
    cases d.hasParent l with
    | error e => simp [bind, Except.bind]
    | ok _ => simp [bind, Except.bind, pure, Except.pure, eq_comm]

/-- A file that is there is emptied, or one is made where nothing is, in a directory that is there. -/
theorem create_cases (hc : d.perform (.create l) = .ok d') :
    (∃ k, d.node? l = some (.file k) ∧ d' = d.changeContent k fun _ => default) ∨
      d.node? l = none ∧ d.hasParent l = .ok () ∧
        d' = { d.add l (.file d.contents.length) with contents := d.contents ++ [default] } := by
  rw [Disk.perform] at hc
  split at hc
  · next k hk => exact .inl ⟨k, hk, (Except.ok.inj hc).symm⟩
  · exact absurd hc (by simp)
  · next hl =>
    cases hp : d.hasParent l with
    | error e => rw [hp] at hc; exact absurd hc (by simp [bind, Except.bind])
    | ok _ =>
      rw [hp] at hc
      exact .inr ⟨hl, rfl, (Except.ok.inj hc).symm⟩

/-- What is removed is dropped. -/
theorem eq_drop_of_remove (hc : d.perform (.removeFile l) = .ok d' ∨
    d.perform (.removeTree l) = .ok d') : d' = d.drop l := by
  rcases hc with hc | hc <;>
  · rw [Disk.perform] at hc
    split at hc
    · exact (Except.ok.inj hc).symm
    · exact absurd hc (by simp)
    · exact absurd hc (by simp)

/-- **Every call** leaves a well-formed disk. -/
theorem WellFormed.perform (h : d.WellFormed) {c : Call} (hc : d.perform c = .ok d') :
    d'.WellFormed := by
  -- one case for each call
  cases c with
  | makeDirectory l =>
    obtain ⟨hl, hp, rfl⟩ := makeDirectory_eq_ok_iff.1 hc
    exact h.add hl (h.hasDirectory_of_hasParent hp) (Nat.le_refl _) (fun k hk => by simp at hk)
  | create l =>
    obtain ⟨k, -, rfl⟩ | ⟨hl, hp, rfl⟩ := create_cases hc
    · exact h.changeContent _ _
    · apply h.add hl (h.hasDirectory_of_hasParent hp) (by simp)
      intro k hk
      rw [← Node.file.inj hk, List.length_append]
      exact ⟨Nat.le_refl _, by simp⟩
  | write number pos bytes => exact Except.ok.inj hc ▸ h.changeContent _ _
  | setLength number length => exact Except.ok.inj hc ▸ h.changeContent _ _
  | rename old new => exact h.rename hc
  | removeFile l => exact eq_drop_of_remove (.inl hc) ▸ h.drop l
  | removeTree l => exact eq_drop_of_remove (.inr hc) ▸ h.drop l
  | flush number => exact Except.ok.inj hc ▸ h
  | flushDirectory l => exact Except.ok.inj hc ▸ h

/-- Any number of calls keeps a disk well formed. -/
theorem WellFormed.replay (h : d.WellFormed) (calls : List Call) : (d.replay calls).WellFormed := by
  unfold Disk.replay
  induction calls generalizing d with
  | nil => exact h
  | cons c calls ih =>
    rw [List.foldl_cons]
    apply ih
    cases hc : d.perform c with
    | ok d' => exact h.perform hc
    | error e => exact h

/-- **Every disk** that calls make out of an empty one is well-formed. -/
theorem wellFormed_replay (calls : List Call) : (empty.replay calls).WellFormed :=
  wellFormed_empty.replay calls

end Disk
end RaftReplica
