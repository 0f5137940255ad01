/-
RaftReplica/Proofs/Disk/Items.lean

A disk as a function from locations to items.  On a well-formed disk every call on a file changes
this function at the file's own location and, for a change of name, at the new one: nothing else is
touched, since no file has two names.

`Puts d d' l item` is the form in which this is said: the other disk is well formed, and its items
are those of the first one with `item` at `l`,

    d'.item? = Function.update d.item? l item.

With the function on the right a chain of calls is a chain of updates, and what is found at a place
afterwards is found by rewriting; no list of names is looked at again.

The numbers of files are part of an item, because calls give files by their numbers and a number
stays valid when the name changes.  That two names never share a number is `location_unique`, and it
is used in exactly one place, where a file's content is changed (`puts_changeContent`).  A renamed
file keeps its number (`item?_move`), and one that is renamed onto another takes its place
(`rename_file`).
-/
import Mathlib.Logic.Function.Basic
import RaftReplica.Proofs.Disk.WellFormed

namespace RaftReplica

/-- What is at a location: a file, by its number and its content, or a directory. -/
inductive Item
  | file (number : Nat) (bytes : Bytes)
  | directory
  deriving DecidableEq, Repr

namespace Disk

variable {d d' : Disk} {l m old new : Location} {k : Nat} {bs : Bytes}

/-- What is at a location. -/
def item? (d : Disk) (l : Location) : Option Item :=
  match d.node? l with
  | some (.file number) => some (.file number (d.content number))
  | some .directory => some .directory
  | none => none

theorem item?_eq_none_iff : d.item? l = none ↔ d.node? l = none := by
  unfold item?
  split <;> simp_all

theorem item?_eq_directory_iff : d.item? l = some .directory ↔ d.node? l = some .directory := by
  unfold item?
  split <;> simp_all

/-- A file is found with the bytes of its number. -/
theorem item?_eq_file_iff :
    d.item? l = some (.file k bs) ↔ d.node? l = some (.file k) ∧ d.content k = bs := by
  unfold item?
  split
  · next hn =>
    rw [hn]
    constructor
    · intro he
      obtain ⟨rfl, rfl⟩ := Item.file.inj (Option.some.inj he)
      exact ⟨rfl, rfl⟩
    · rintro ⟨he, rfl⟩
      rw [Node.file.inj (Option.some.inj he)]
  · next hn => simp [hn]
  · next hn => simp [hn]

theorem item?_isSome_iff : (d.item? l).isSome ↔ (d.node? l).isSome := by
  rw [← Option.ne_none_iff_isSome, ← Option.ne_none_iff_isSome, ne_eq, ne_eq, item?_eq_none_iff]

/-- Two disks with the same names and the same contents at one location agree there. -/
theorem item?_congr (hn : d'.node? l = d.node? l)
    (hc : ∀ k, d.node? l = some (.file k) → d'.content k = d.content k) :
    d'.item? l = d.item? l := by
  unfold item?
  rw [hn]
  split
  · next k hk => rw [hc k hk]
  · rfl
  · rfl

/-- `d'` is `d` but for `l`, where `item` is. -/
structure Puts (d d' : Disk) (l : Location) (item : Option Item) : Prop where
  wellFormed : d'.WellFormed
  item? : d'.item? = Function.update d.item? l item

theorem WellFormed.puts (h : d.WellFormed) {item : Option Item} (hl : d.item? l = item) :
    Puts d d l item := ⟨h, by rw [← hl, Function.update_eq_self]⟩

theorem Puts.trans {d'' : Disk} {item item' : Option Item} (h : Puts d d' l item)
    (h' : Puts d' d'' l item') : Puts d d'' l item' :=
  ⟨h'.wellFormed, by rw [h'.item?, h.item?, Function.update_idem]⟩

theorem Puts.back {item : Option Item} (h : Puts d d' l item) (hw : d.WellFormed) :
    Puts d' d l (d.item? l) :=
  ⟨hw, by rw [h.item?, Function.update_idem, Function.update_eq_self]⟩

namespace WellFormed

/-- No two names lead to one file. -/
theorem location_unique (h : d.WellFormed) (hl : (l, .file k) ∈ d.nodes)
    (hm : (m, .file k) ∈ d.nodes) : l = m := by
  obtain ⟨i, hi, hil⟩ := List.getElem_of_mem hl
  obtain ⟨j, hj, hjm⟩ := List.getElem_of_mem hm
  have hpw := List.pairwise_iff_getElem.1 (List.pairwise_filterMap.1 h.unshared)
  have hik : (d.nodes[i]).2.number? = some k := by rw [hil]; rfl
  have hjk : (d.nodes[j]).2.number? = some k := by rw [hjm]; rfl
  rcases Nat.lt_trichotomy i j with hij | rfl | hij
  · exact absurd rfl (hpw i j hi hj hij k hik k hjk)
  · exact (Prod.mk.inj (hil.symm.trans hjm)).1
  · exact absurd rfl (hpw j i hj hi hij k hjk k hik)

theorem number_lt (h : d.WellFormed) (hl : d.node? l = some (.file k)) :
    k < d.contents.length := h.stored _ (h.node?_eq_file_iff.1 hl) k rfl

end WellFormed

/-! ### Contents -/

/-- The content of the number is the one that is changed. -/
theorem content_changeContent (f : Content → Content) (hk : k < d.contents.length) :
    (d.changeContent k f).content k = (f d.contents[k]).bytes := by
  rw [content, changeContent, List.getElem?_modify_eq, List.getElem?_eq_getElem hk]
  rfl

/-- The content of another number stays. -/
theorem content_changeContent_ne (f : Content → Content) {j : Nat} (hj : k ≠ j) :
    (d.changeContent k f).content j = d.content j := by
  show ((d.contents.modify k f)[j]?.getD default).bytes = (d.contents[j]?.getD default).bytes
  rw [List.getElem?_modify_ne f _ hj]

theorem bytes_eq_content (hk : k < d.contents.length) : d.contents[k].bytes = d.content k := by
  rw [content, List.getElem?_eq_getElem hk]
  rfl

/-- Other content for a file is seen under its one name. -/
theorem puts_changeContent (h : d.WellFormed) (hl : d.item? l = some (.file k bs))
    {f : Content → Content} {new : Bytes} (hf : ∀ c : Content, c.bytes = bs → (f c).bytes = new) :
    Puts d (d.changeContent k f) l (some (.file k new)) := by
  obtain ⟨hnode, hbs⟩ := item?_eq_file_iff.1 hl
  have hk := h.number_lt hnode
  refine ⟨h.changeContent k f, ?_⟩
  funext m
  by_cases hm : m = l
  · subst hm
    rw [Function.update_self, item?_eq_file_iff]
    refine ⟨hnode, ?_⟩
    rw [content_changeContent f hk]
    exact hf _ ((bytes_eq_content hk).trans hbs)
  · rw [Function.update_of_ne hm]
    refine item?_congr rfl fun j hj => content_changeContent_ne f ?_
    rintro rfl
    exact hm (h.location_unique (h.node?_eq_file_iff.1 hj) (h.node?_eq_file_iff.1 hnode))

/-! ### Names -/

/-- A new name is found, and all others as before. -/
theorem node?_add (h : d.WellFormed) {cs : List Content} {n : Node}
    (h' : WellFormed ⟨d.nodes ++ [(l, n)], cs⟩) :
    node? ⟨d.nodes ++ [(l, n)], cs⟩ = Function.update d.node? l (some n) := by
  funext m
  by_cases hm : m = l
  · subst hm
    rw [Function.update_self, h'.node?_eq_some_iff]
    exact .inr (List.mem_append_right _ (List.mem_singleton.2 rfl))
  · rw [Function.update_of_ne hm]
    apply Option.ext
    intro n'
    rw [h'.node?_eq_some_iff, h.node?_eq_some_iff, List.mem_append, List.mem_singleton]
    refine or_congr_right ⟨?_, .inl⟩
    rintro (hx | hx)
    · exact hx
    · exact absurd (Prod.mk.inj hx).1 hm

/-- A new file is empty. -/
theorem puts_create (h : d.WellFormed) (hl : d.item? l = none) (hp : d.HasDirectory l.dropLast) :
    Puts d ⟨d.nodes ++ [(l, .file d.contents.length)], d.contents ++ [default]⟩ l
      (some (.file d.contents.length [])) := by
  have hnode := item?_eq_none_iff.1 hl
  have h' : WellFormed ⟨d.nodes ++ [(l, .file d.contents.length)], d.contents ++ [default]⟩ := by
    apply h.add hnode hp (by simp)
    intro k hk
    rw [← Node.file.inj hk, List.length_append]
    exact ⟨Nat.le_refl _, by simp⟩
  refine ⟨h', ?_⟩
  funext m
  by_cases hm : m = l
  · subst hm
    rw [Function.update_self, item?_eq_file_iff, node?_add h h', Function.update_self]
    refine ⟨rfl, ?_⟩
    show ((d.contents ++ [default])[d.contents.length]?.getD default).bytes = []
    rw [List.getElem?_concat_length]
    rfl
  · rw [Function.update_of_ne hm]
    refine item?_congr ?_ fun j hj => ?_
    · rw [node?_add h h', Function.update_of_ne hm]
    · show ((d.contents ++ [default])[j]?.getD default).bytes = (d.contents[j]?.getD default).bytes
      rw [List.getElem?_append_left (h.number_lt hj)]

/-- Dropping a file drops its own name only, since nothing is below a file. -/
theorem mem_nodes_drop (h : d.WellFormed) (hl : d.node? l = some (.file k))
    {x : Location × Node} : x ∈ (d.drop l).nodes ↔ x ∈ d.nodes ∧ x.1 ≠ l := by
  have hdir : ¬ d.HasDirectory l := by
    rw [← h.node?_eq_directory_iff, hl]
    exact fun he => Node.noConfusion (Option.some.inj he)
  rw [drop, List.mem_filter]
  apply and_congr_right
  intro hx
  simp only [Bool.not_eq_true', decide_eq_false_iff_not]
  constructor
  · rintro hp rfl
    exact hp (List.prefix_refl _)
  · exact fun hne => h.not_below hdir hx hne

/-- A file that is removed is gone, and nothing else. -/
theorem puts_drop (h : d.WellFormed) (hl : d.item? l = some (.file k bs)) :
    Puts d (d.drop l) l none := by
  obtain ⟨hnode, -⟩ := item?_eq_file_iff.1 hl
  have hmem := h.node?_eq_file_iff.1 hnode
  refine ⟨h.drop l, ?_⟩
  funext m
  by_cases hm : m = l
  · subst hm
    rw [Function.update_self, item?_eq_none_iff]
    exact node?_drop_self h (h.named _ hmem)
  · rw [Function.update_of_ne hm]
    refine item?_congr (Option.ext fun n => ?_) fun _ _ => rfl
    rw [(h.drop l).node?_eq_some_iff, h.node?_eq_some_iff, mem_nodes_drop h hnode]
    exact or_congr_right (and_iff_left hm)

/-! ### Other names -/

theorem WellFormed.not_hasDirectory (h : d.WellFormed) (hl : d.item? l ≠ some .directory) :
    ¬ d.HasDirectory l :=
  fun hd => hl (item?_eq_directory_iff.2 (h.node?_eq_directory_iff.2 hd))

/-- The names after a file was renamed. -/
theorem mem_nodes_move (h : d.WellFormed) (ho : d.item? old = some (.file k bs)) {n : Node} :
    (m, n) ∈ (d.move old new).nodes ↔
      (m = new ∧ (old, n) ∈ d.nodes) ∨ (m ≠ old ∧ (m, n) ∈ d.nodes) := by
  have hdir : ¬ d.HasDirectory old := h.not_hasDirectory (by simp [ho])
  rw [nodes_move, List.mem_map]
  constructor
  · rintro ⟨x, hx, he⟩
    obtain ⟨rfl, rfl⟩ := Prod.mk.inj he
    by_cases hxo : x.1 = old
    · exact .inl ⟨by rw [hxo, moved_self], hxo ▸ hx⟩
    · rw [moved_of_not_under (h.not_below hdir hx hxo)]
      exact .inr ⟨hxo, hx⟩
  · rintro (⟨rfl, hx⟩ | ⟨hne, hx⟩)
    · exact ⟨_, hx, by rw [moved_self]⟩
    · exact ⟨_, hx, by rw [moved_of_not_under (h.not_below hdir hx hne)]⟩

/-- A file under another name; nothing else has changed its place. -/
theorem item?_move (h : d.WellFormed) (ho : d.item? old = some (.file k bs))
    (hn : d.item? new = none) (hp : d.HasDirectory new.dropLast) (hbelow : ¬ old <+: new) :
    (d.move old new).WellFormed ∧ (d.move old new).item? =
      Function.update (Function.update d.item? old none) new (some (.file k bs)) := by
  have hnew := item?_eq_none_iff.1 hn
  have h' := h.move hnew hp hbelow
  obtain ⟨hnode, hbs⟩ := item?_eq_file_iff.1 ho
  have hmem := h.node?_eq_file_iff.1 hnode
  have hne : old ≠ new := fun he => hbelow (he ▸ List.prefix_refl _)
  refine ⟨h', ?_⟩
  funext m
  -- three kinds of places: the new one, the old one, and all others
  by_cases hm : m = new
  · subst hm
    rw [Function.update_self, item?_eq_file_iff, h'.node?_eq_file_iff, mem_nodes_move h ho]
    exact ⟨.inl ⟨rfl, hmem⟩, hbs⟩
  rw [Function.update_of_ne hm]
  by_cases hmo : m = old
  · subst hmo
    rw [Function.update_self, item?_eq_none_iff, Option.eq_none_iff_forall_ne_some]
    intro n hn
    rcases h'.node?_eq_some_iff.1 hn with ⟨rfl, -⟩ | hx
    · exact h.named _ hmem rfl
    · rcases (mem_nodes_move h ho).1 hx with ⟨he, -⟩ | ⟨he, -⟩
      · exact hm he
      · exact he rfl
  · rw [Function.update_of_ne hmo]
    refine item?_congr (Option.ext fun n => ?_) fun _ _ => rfl
    rw [h'.node?_eq_some_iff, h.node?_eq_some_iff, mem_nodes_move h ho]
    refine or_congr_right ⟨?_, fun hx => .inr ⟨hmo, hx⟩⟩
    rintro (⟨he, -⟩ | ⟨-, hx⟩)
    · exact absurd he hm
    · exact hx

theorem hasParent_of_hasDirectory (h : d.WellFormed) (hl : d.HasDirectory l.dropLast) :
    d.hasParent l = .ok () := by
  rw [hasParent, h.node?_eq_directory_iff.2 hl]

theorem WellFormed.hasDirectory_dropLast (h : d.WellFormed) (hl : d.item? l = some (.file k bs)) :
    d.HasDirectory l.dropLast :=
  h.parented _ (h.node?_eq_file_iff.1 (item?_eq_file_iff.1 hl).1)

/-- Nothing stands below a file. -/
theorem not_below_file (h : d.WellFormed) (ho : d.item? old = some (.file k bs)) (hne : old ≠ new)
    (hnew : new ≠ []) (hp : d.HasDirectory new.dropLast) : ¬ old <+: new := by
  have hmem := h.node?_eq_file_iff.1 (item?_eq_file_iff.1 ho).1
  have hold : ¬ d.HasDirectory old := h.not_hasDirectory (by simp [ho])
  intro hpre
  obtain ⟨r, name, rfl⟩ := (List.eq_nil_or_concat new).resolve_left hnew
  rw [List.concat_eq_append, List.dropLast_concat] at hp
  rw [List.concat_eq_append] at hpre hne
  rcases List.prefix_concat_iff.1 hpre with he | hpre
  · exact hne he
  · rcases hp with rfl | hp
    · exact h.named _ hmem (List.prefix_nil.1 hpre)
    · -- whatever leads to a directory is a directory itself
      by_cases he : old = r
      · exact hold (.inr (he ▸ hp))
      · exact hold (h.hasDirectory_of_above hp hpre he)

/-- A file that is renamed takes the place of a file, or a place where nothing was. -/
theorem rename_file (h : d.WellFormed) (ho : d.item? old = some (.file k bs)) (hne : old ≠ new)
    (hn : d.item? new ≠ some .directory) (hp : d.HasDirectory new.dropLast) :
    ∃ d', d.rename old new = .ok d' ∧ d'.WellFormed ∧ d'.item? =
      Function.update (Function.update d.item? old none) new (some (.file k bs)) := by
  have hnode := (item?_eq_file_iff.1 ho).1
  have hmem := h.node?_eq_file_iff.1 hnode
  have hdir : ¬ d.HasDirectory new := h.not_hasDirectory hn
  have hbelow := not_below_file h ho hne (fun hnil => hdir (.inl hnil)) hp
  have habove : ¬ new <+: old :=
    fun hpre => hdir (h.hasDirectory_of_above hmem hpre fun he => hne he.symm)
  have hpo := hasParent_of_hasDirectory h (h.hasDirectory_dropLast ho)
  have hpn := hasParent_of_hasDirectory h hp
  -- nothing has the new name, or a file that is replaced
  cases hnn : d.node? new with
  | none =>
    refine ⟨d.move old new, ?_, item?_move h ho (item?_eq_none_iff.2 hnn) hp hbelow⟩
    rw [Disk.rename, hpo, hpn]
    simp only [bind, Except.bind, hnode, hnn, if_neg hne, if_neg hbelow, if_neg habove]
  | some n =>
    cases n with
    | directory => exact absurd (item?_eq_directory_iff.2 hnn) hn
    | file j =>
      -- the file that was there is dropped first
      have hput := puts_drop h (item?_eq_file_iff.2 ⟨hnn, rfl⟩)
      have ho' : (d.drop new).item? old = some (.file k bs) := by
        rw [hput.item?, Function.update_of_ne hne, ho]
      have hn' : (d.drop new).item? new = none := by rw [hput.item?, Function.update_self]
      have hp' := hasDirectory_dropLast_drop hp (h.named _ (h.node?_eq_file_iff.1 hnn))
      obtain ⟨hw, hi⟩ := item?_move hput.wellFormed ho' hn' hp' hbelow
      refine ⟨(d.drop new).move old new, ?_, hw, hi.trans ?_⟩
      · rw [Disk.rename, hpo, hpn]
        simp only [bind, Except.bind, hnode, hnn, if_neg hne, if_neg hbelow, if_neg habove]
      · rw [hput.item?, Function.update_comm hne.symm, Function.update_idem]

end Disk
end RaftReplica
