/-
RaftReplica/Proofs/Parameters.lean

What the settings add to a uri.  A parameter is put behind the text of a uri, with a mark in front
that goes by the text: whether it has a question mark anywhere.  Whether the uri has the parameter
already goes by what is read, where blanks, empty items and repeated keys do not count.  The two
agree for every uri that a store can be made of, as no scheme with a store has a question mark: what
is read then has the parameter, and nothing else has changed (`StorageUri.parse_added`).

Not every key can be set this way, but every key can that some uri has (`StorageUri.Settable`).

The text and what is read of it are compared in two steps, and each is one lemma:

* what is behind the scheme, with blanks gone, is a path and items, and one more item behind a mark
  is one more parameter (`ofHalves_append`).  The mark is an ampersand if there is a question mark
  and a question mark otherwise, so that the new item is always an item of its own;
* the text with blanks at both ends trimmed, and the mark chosen by the whole text, is read in the
  same way (`separator_eq`, `parse_added`).  Here the scheme matters, because a question mark in it
  would choose the wrong mark.

Parameters are kept by their keys, the last one of a key counting.  What was there before is found as
before, and the new one is found under its key (`param?_filled`).  The two settings of the log are
added one after the other (`logUri_parse`), and the log that is made of the result has them unless
the uri said otherwise (`makeLog_withSettings`).
-/
import RaftReplica.Proofs.Table
import RaftReplica.Proofs.Text.Blank
import RaftReplica.Proofs.Uri
import RaftReplica.Storages

namespace RaftReplica

open Text

namespace StorageUri

variable {uri key value : String} {u w : StorageUri} {query rest : List Char}

/-! ### What is read -/

/-- A uri is read if it has a mark behind a scheme that is not blank. -/
theorem parse_eq_ok_iff : parse uri = .ok u ↔ ∃ front back,
    cutAt mark uri.toList = some (front, back) ∧ trim front ≠ [] ∧
      u = ofHalves (trim front) (removeBlanks back) := by
  rw [parse, halves?]
  -- nothing is read without a mark, and nothing with a blank scheme
  cases hcut : cutAt mark uri.toList with
  | none => simp
  | some halves =>
    obtain ⟨front, back⟩ := halves
    dsimp only [Option.map_some]
    split
    · next hempty => simp [List.isEmpty_iff.1 hempty]
    · next hne =>
      rw [List.isEmpty_iff] at hne
      rw [Except.ok.injEq]
      constructor
      · rintro rfl
        exact ⟨front, back, rfl, hne, rfl⟩
      · rintro ⟨front', back', heq, -, rfl⟩
        obtain ⟨rfl, rfl⟩ := Prod.mk.inj (Option.some.inj heq)
        rfl

/-- The key of a parameter that a uri can set. -/
def Settable (key : String) : Prop := ∀ c ∈ key.toList, isBlank c = false ∧ c ≠ '&' ∧ c ≠ '='

instance (key : String) : Decidable (Settable key) :=
  List.decidableBAll (fun c => isBlank c = false ∧ c ≠ '&' ∧ c ≠ '=') key.toList

/-- A value that stays whole where it stands. -/
def Whole (value : String) : Prop := ∀ c ∈ value.toList, isBlank c = false ∧ c ≠ '&'

/-- What a parameter is written as. -/
def pair (key value : String) : List Char := key.toList ++ '=' :: value.toList

/-- A pair is read as its key and its value, cut at the first sign between them. -/
theorem keyAndValue_pair (hk : Settable key) : keyAndValue (pair key value) = (key, value) := by
  have hnot : '=' ∉ key.toList := fun hc => (hk _ hc).2.2 rfl
  rw [keyAndValue, pair, cut_append hnot]
  simp

/-- A pair is one item. -/
theorem notMem_pair (hk : Settable key) (hv : Whole value) : '&' ∉ pair key value := by
  rw [pair, List.mem_append, List.mem_cons]
  rintro (hc | hc | hc)
  · exact (hk _ hc).2.1 rfl
  · exact absurd hc (by decide)
  · exact (hv _ hc).2 rfl

/-- A pair has no blanks. -/
theorem removeBlanks_pair (hk : Settable key) (hv : Whole value) :
    removeBlanks (pair key value) = pair key value := by
  refine List.filter_eq_self.2 fun c hc => ?_
  rw [pair, List.mem_append, List.mem_cons] at hc
  rcases hc with hc | rfl | hc
  · rw [(hk c hc).1]
    rfl
  · rfl
  · rw [(hv c hc).1]
    rfl

/-- The items of a query that count. -/
def itemsOf (query : List Char) : List (List Char) := (split '&' query).filter (!·.isEmpty)

/-- A pair alone is the only item. -/
theorem itemsOf_pair (hk : Settable key) (hv : Whole value) :
    itemsOf (pair key value) = [pair key value] := by
  have hne : (pair key value).isEmpty = false := by simp [pair]
  rw [itemsOf, split_of_notMem (notMem_pair hk hv), List.filter_cons_of_pos (by simp [hne])]
  rfl

/-- Items behind a mark come after those in front of it. -/
theorem itemsOf_append_sep (query more : List Char) :
    itemsOf (query ++ '&' :: more) = itemsOf query ++ itemsOf more := by
  rw [itemsOf, split_append_sep, List.filter_append]
  rfl

theorem paramsOf_eq (query : List Char) :
    paramsOf query = ((itemsOf query).map keyAndValue).foldl (fun t r => t.insert r.1 r.2) .empty :=
  rfl

/-- A pair alone is the only parameter. -/
theorem paramsOf_pair (hk : Settable key) (hv : Whole value) :
    paramsOf (pair key value) = Table.empty.insert key value := by
  rw [paramsOf_eq, itemsOf_pair hk hv]
  simp [keyAndValue_pair hk]

/-- A parameter behind all the others is set last. -/
theorem paramsOf_append_pair (hk : Settable key) (hv : Whole value) (query : List Char) :
    paramsOf (query ++ '&' :: pair key value) = (paramsOf query).insert key value := by
  rw [paramsOf_eq, itemsOf_append_sep, itemsOf_pair hk hv, List.map_append, List.foldl_append,
    ← paramsOf_eq]
  simp [keyAndValue_pair hk]

/-- Every key that is found was read from an item. -/
theorem exists_item_of_param (h : ((paramsOf query).get? key).isSome) :
    ∃ item ∈ itemsOf query, (keyAndValue item).1 = key := by
  -- by induction on the items, for any table to start from
  have hfold (rows : List (String × String)) (t : Table String String)
      (h : ((rows.foldl (fun t r => t.insert r.1 r.2) t).get? key).isSome) :
      (∃ r ∈ rows, r.1 = key) ∨ (t.get? key).isSome := by
    induction rows generalizing t with
    | nil => exact .inr h
    | cons r rows ih =>
      rcases ih (t.insert r.1 r.2) h with ⟨r', hr', hkey⟩ | hsome
      · exact .inl ⟨r', .tail _ hr', hkey⟩
      · rw [Table.get?_insert] at hsome
        split at hsome
        · next hsame => exact .inl ⟨r, .head _, (Table.sameKey_string_iff.1 hsame).symm⟩
        · exact .inr hsome
  rw [paramsOf_eq] at h
  obtain ⟨r, hr, hkey⟩ := (hfold _ _ h).resolve_right (by simp)
  obtain ⟨item, hitem, rfl⟩ := List.mem_map.1 hr
  exact ⟨item, hitem, hkey⟩

/-- The key of an item can be set, since it has no mark that would end it. -/
theorem settable_of_item {item : List Char} (hitem : item ∈ itemsOf query)
    (hblank : ∀ c ∈ query, isBlank c = false) : Settable (keyAndValue item).1 := by
  obtain ⟨hitem, -⟩ := List.mem_filter.1 hitem
  obtain ⟨hsub, hamp⟩ := of_mem_split hitem
  have hkey : (keyAndValue item).1.toList = ((cut '=' item).getD (item, [])).1 := by
    rw [keyAndValue, String.toList_ofList]
  intro c hc
  rw [hkey] at hc
  -- an item without a sign is all key
  have hfront : c ∈ item ∧ '=' ∉ ((cut '=' item).getD (item, [])).1 := by
    cases hcut : cut '=' item with
    | none =>
      rw [hcut] at hc
      exact ⟨hc, cut_eq_none_iff.1 hcut⟩
    | some halves =>
      obtain ⟨front, back⟩ := halves
      rw [hcut] at hc
      refine ⟨?_, notMem_of_cut hcut⟩
      rw [eq_of_cut hcut]
      exact List.mem_append_left _ hc
  refine ⟨hblank c (hsub hfront.1), ?_, ?_⟩
  · rintro rfl
    exact hamp hfront.1
  · rintro rfl
    exact hfront.2 hc

/-- What is behind a question mark is part of the text. -/
theorem cut_mark_of_rest (rest : List Char) :
    ∀ c ∈ ((cut '?' rest).getD (rest, [])).2, c ∈ rest := by
  intro c hc
  cases hcut : cut '?' rest with
  | none => exact absurd (hcut ▸ hc) (by simp)
  | some halves =>
    rw [hcut] at hc
    rw [eq_of_cut (a := halves.1) (b := halves.2) hcut]
    exact List.mem_append_right _ (List.mem_cons_of_mem _ hc)

/-- **Every key that a uri has** can be set. -/
theorem settable_of_param (h : parse uri = .ok u) (hkey : (u.param? key).isSome) :
    Settable key := by
  obtain ⟨front, back, -, -, rfl⟩ := parse_eq_ok_iff.1 h
  obtain ⟨item, hitem, rfl⟩ := exists_item_of_param hkey
  refine settable_of_item hitem fun c hc => ?_
  exact isBlank_of_mem_removeBlanks (cut_mark_of_rest _ c hc)

/-! ### What is added -/

/-- The uri with a parameter, unless it has that parameter already. -/
def filled (u : StorageUri) (key value : String) : StorageUri :=
  { u with params := if (u.param? key).isSome then u.params else u.params.insert key value }

theorem filled_of_isSome (h : (u.param? key).isSome) : u.filled key value = u := by
  rw [filled, if_pos h]

theorem filled_of_isNone (h : ¬ (u.param? key).isSome) :
    u.filled key value = { u with params := u.params.insert key value } := by rw [filled, if_neg h]

/-- After filling, a key has the value it had, or the given one if it had none; other keys are as
before. -/
theorem param?_filled (other : String) : (u.filled key value).param? other =
    if other = key then some ((u.param? key).getD value) else u.param? other := by
  by_cases hkey : (u.param? key).isSome
  · obtain ⟨v, hv⟩ := Option.isSome_iff_exists.1 hkey
    rw [filled_of_isSome hkey]
    split
    · next heq => rw [heq, hv, Option.getD_some]
    · rfl
  · rw [filled_of_isNone hkey, param?, Table.get?_insert]
    rw [Option.not_isSome_iff_eq_none] at hkey
    simp only [Table.sameKey_string_iff, hkey, Option.getD_none]
    rfl

/-- The mark in front of a parameter that is put behind a text. -/
def separator (text : List Char) : Char := if text.contains '?' then '&' else '?'

/-- One more item behind the right mark is one more parameter. -/
theorem ofHalves_append (scheme : List Char) (hk : Settable key) (hv : Whole value) :
    ofHalves scheme (rest ++ separator rest :: pair key value) =
      { ofHalves scheme rest with params := (ofHalves scheme rest).params.insert key value } := by
  unfold ofHalves separator
  -- without a question mark the item is the first one, and the path ends in front of it
  cases hcut : cut '?' rest with
  | none =>
    have hnot := cut_eq_none_iff.1 hcut
    rw [if_neg (by simpa using hnot), cut_append hnot, Option.getD_some, Option.getD_none]
    dsimp only
    rw [paramsOf_pair hk hv]
    rfl
  | some halves =>
    obtain ⟨path, query⟩ := halves
    have hrest : rest = path ++ '?' :: query := eq_of_cut hcut
    have hmem : rest.contains '?' = true := by simp [hrest]
    rw [if_pos hmem, hrest, List.append_assoc, List.cons_append, cut_append (notMem_of_cut hcut),
      Option.getD_some, Option.getD_some]
    dsimp only
    rw [paramsOf_append_pair hk hv]

/-- The text of a uri with a parameter behind it. -/
def added (uri key value : String) : String :=
  trimmed uri ++ String.ofList (separator uri.toList :: pair key value)

/-- A uri gets a default unless it has the parameter. -/
theorem withDefault_eq (h : parse uri = .ok u) (key value : String) :
    withDefault uri key value =
      .ok (if (u.param? key).isSome then uri else added uri key value) := by
  rw [withDefault, h]
  dsimp only [bind, Except.bind]
  split
  · rfl
  · refine congrArg Except.ok (String.toList_inj.1 ?_)
    simp only [added, separator, pair, String.toList_append, String.toList_ofList]
    split <;> simp

/-- Behind the mark of a uri, a question mark tells that there are parameters; in front of it there
is none if the scheme has none. -/
theorem separator_eq {front back : List Char} (hcut : cutAt mark uri.toList = some (front, back))
    (hscheme : '?' ∉ trim front) : separator uri.toList = separator (removeBlanks back) := by
  have hblank : isBlank '?' = false := by decide
  rw [mem_trim_iff hblank] at hscheme
  have hmem : '?' ∈ uri.toList ↔ '?' ∈ removeBlanks back := by
    rw [(cutAt_eq_some_iff.1 hcut).1, removeBlanks, List.mem_filter]
    simp [hscheme, hblank, mark]
  rw [separator, separator]
  simp only [List.contains_iff_mem, hmem]

/-- **A parameter that is put behind a uri** is read with it, and nothing else is read differently. -/
theorem parse_added (h : parse uri = .ok u) (hscheme : '?' ∉ u.scheme.toList)
    (hk : Settable key) (hv : Whole value) :
    parse (added uri key value) = .ok { u with params := u.params.insert key value } := by
  obtain ⟨front, back, hcut, hne, rfl⟩ := parse_eq_ok_iff.1 h
  have hsplit := (cutAt_eq_some_iff.1 hcut).1
  rw [ofHalves, String.toList_ofList] at hscheme
  -- the mark between scheme and path is not blank, so only the ends are trimmed
  have htrim : trim uri.toList = front.dropWhile isBlank ++ mark ++ trimEnd back := by
    have hslash (cs : List Char) : trimEnd ('/' :: cs) = '/' :: trimEnd cs :=
      trimEnd_append_cons (by decide) [] cs
    rw [hsplit, mark, List.append_assoc, List.cons_append, trim_append_cons (by decide)]
    simp [hslash]
  have htext : (added uri key value).toList = front.dropWhile isBlank ++ mark ++
      (trimEnd back ++ separator uri.toList :: pair key value) := by
    rw [added, trimmed, String.toList_append, String.toList_ofList, String.toList_ofList, htrim,
      List.append_assoc]
  have hcut' := cutAt_of_suffix hcut (List.dropWhile_suffix isBlank)
    (trimEnd back ++ separator uri.toList :: pair key value)
  rw [← htext] at hcut'
  -- what was added has no blanks, so it survives their removal as it is
  have hmark : isBlank (separator (removeBlanks back)) = false := by
    unfold separator
    split <;> decide
  have hrest : removeBlanks (trimEnd back ++ separator uri.toList :: pair key value) =
      removeBlanks back ++ separator (removeBlanks back) :: pair key value := by
    rw [separator_eq hcut hscheme, removeBlanks, List.filter_append, ← removeBlanks,
      removeBlanks_trimEnd, List.filter_cons_of_pos (by simp [hmark]), ← removeBlanks,
      removeBlanks_pair hk hv]
  refine parse_eq_ok_iff.2 ⟨_, _, hcut', ?_, ?_⟩
  · rwa [trim_dropWhile]
  · rw [hrest, trim_dropWhile, ofHalves_append _ hk hv]


/-! ### Schemes and values -/

/-- One of the usual backends goes by the scheme. -/
def Known (scheme : String) : Prop :=
  Backends.usual.logs.contains scheme ∨ Backends.usual.ballots.contains scheme ∨
    Backends.usual.snapshots.contains scheme

instance (scheme : String) : Decidable (Known scheme) :=
  inferInstanceAs (Decidable (_ ∨ _ ∨ _))

/-- No scheme that is known has a question mark. -/
theorem notMem_of_known {scheme : String} (h : Known scheme) : '?' ∉ scheme.toList := by
  have hkeys {β : Type} {t : Table String β} (hall : ∀ key ∈ t.keys, '?' ∉ key.toList)
      (hc : t.contains scheme) : '?' ∉ scheme.toList := by
    obtain ⟨backend, hb⟩ := Option.isSome_iff_exists.1 hc
    obtain ⟨row, hrow, hsame, -⟩ := Table.get?_eq_some_iff.1 hb
    rw [← Table.sameKey_string_iff.1 hsame]
    exact hall _ (List.mem_map_of_mem hrow)
  rcases h with h | h | h
  · exact hkeys (by decide) h
  · exact hkeys (by decide) h
  · exact hkeys (by decide) h

/-- A truth value or a number, as the settings put it into a uri. -/
def IsWord (value : String) : Prop :=
  (∃ b : Bool, value = boolWord b) ∨ ∃ n : Nat, value = Numeral.text n

/-- A truth value or a number has no character that would break an item. -/
theorem IsWord.whole (h : IsWord value) : Whole value := by
  rcases h with ⟨b, rfl⟩ | ⟨n, rfl⟩
  · have hall : ((boolWord b).toList.all fun c => !isBlank c && c != '&') = true := by
      cases b <;> decide
    intro c hc
    simpa using List.all_eq_true.1 hall c hc
  · intro c hc
    rw [Numeral.text, String.toList_ofList] at hc
    have hread := Numeral.ofDigits?_chars n
    refine ⟨Peer.isBlank_of_digit (Numeral.digitValue?_isSome_of_mem hread hc), ?_⟩
    rintro rfl
    exact Numeral.notMem_of_ofDigits? hread (by decide) hc

/-- **A default is what a uri has if it does not say otherwise.**  This holds for every key that the
uri has, and for every other one that can be set. -/
theorem exists_withDefault_iff (h : parse uri = .ok u) (hscheme : Known u.scheme)
    (hv : IsWord value) (key : String) :
    (∃ t, withDefault uri key value = .ok t ∧ parse t = .ok (u.filled key value)) ↔
      (u.param? key).isSome ∨ Settable key := by
  rw [withDefault_eq h]
  constructor
  -- the uri that comes out has the key, so the key can be set
  · rintro ⟨t, -, ht⟩
    have hsome : ((u.filled key value).param? key).isSome := by
      rw [param?_filled, if_pos rfl]
      rfl
    exact .inr (settable_of_param ht hsome)
  · intro hkey
    refine ⟨_, rfl, ?_⟩
    by_cases hsome : (u.param? key).isSome
    · rw [if_pos hsome, filled_of_isSome hsome]
      exact h
    · rw [if_neg hsome, filled_of_isNone hsome]
      exact parse_added h (notMem_of_known hscheme) (hkey.resolve_left hsome) hv.whole

/-- The keys that can be set are those that uris have. -/
theorem settable_iff : Settable key ↔ ∃ uri u, parse uri = .ok u ∧ (u.param? key).isSome := by
  constructor
  · intro hk
    have hbare : parse "local://d" = .ok ⟨"local", "d", .empty⟩ := by decide +kernel
    have hv : Whole (boolWord true) := IsWord.whole (.inl ⟨true, rfl⟩)
    refine ⟨_, _, parse_added hbare (by decide) hk hv, ?_⟩
    rw [param?, Table.get?_insert, if_pos (Table.sameKey_string_iff.2 rfl)]
    rfl
  · rintro ⟨uri, u, h, hkey⟩
    exact settable_of_param h hkey

/-! ### What is read of a default -/

/-- A default that is a truth value is read where none was given. -/
theorem boolParam_filled (b default : Bool) :
    (u.filled key (boolWord b)).boolParam key default = u.boolParam key b := by
  rw [boolParam, param?_filled, if_pos rfl, boolParam]
  cases u.param? key with
  | none => cases b <;> rfl
  | some v => rfl

/-- A default that is a number of 64 bits is read where none was given. -/
theorem natParam_filled {n : Nat} (hn : n ≤ Numeral.max64) (default : Nat) :
    (u.filled key (Numeral.text n)).natParam key default = u.natParam key n := by
  rw [natParam, param?_filled, if_pos rfl, natParam]
  cases u.param? key with
  | none =>
    have hread : Numeral.parse64? (Numeral.text n).toList = some n := by
      rw [Numeral.text, String.toList_ofList]
      exact Numeral.parse?_of_ofDigits? (Numeral.ofDigits?_chars n) hn
    rw [Option.getD_none]
    dsimp only
    rw [hread]
  | some v => rfl

theorem boolParam_filled_of_ne {other : String} (hne : other ≠ key) (default : Bool) :
    (u.filled key value).boolParam other default = u.boolParam other default := by
  rw [boolParam, param?_filled, if_neg hne, boolParam]

end StorageUri

open StorageUri

/-- A uri names the backend that is registered for its scheme. -/
theorem Backends.find_of_parse {β : Type} {t : Table String β} {backend : β} {uri : String}
    {u : StorageUri} (hu : parse uri = .ok u) (hget : t.get? u.scheme = some backend) :
    find t uri = .ok (backend, u) := by
  rw [find, hu]
  dsimp only [bind, Except.bind]
  rw [hget]
  rfl

namespace Storages

variable {o : Options} {u : StorageUri}

/-- The uri of the log as it is read, with what the settings add to it. -/
def withSettings (o : Options) (u : StorageUri) : StorageUri :=
  (u.filled "sync" (boolWord o.syncLog)).filled "max_segment_size" (Numeral.text o.maxSegmentSize)

/-- The uri of the log is read with both settings filled in. -/
theorem logUri_parse (h : parse o.logUri = .ok u) (hscheme : Known u.scheme) :
    ∃ t, logUri o = .ok t ∧ parse t = .ok (withSettings o u) := by
  obtain ⟨s, hs, hparse⟩ := (exists_withDefault_iff h hscheme (.inl ⟨o.syncLog, rfl⟩) "sync").2
    (.inr (by decide))
  obtain ⟨t, ht, hparse'⟩ := (exists_withDefault_iff hparse hscheme
    (.inr ⟨o.maxSegmentSize, rfl⟩) "max_segment_size").2 (.inr (by decide))
  refine ⟨t, ?_, hparse'⟩
  rw [logUri, hs]
  exact ht

/-- The log is made in the directory of the uri; whether it writes through, and how large its
segments may become, the uri says, or the settings do. -/
theorem makeLog_withSettings {t : String} (hmax : o.maxSegmentSize ≤ Numeral.max64)
    (ht : parse t = .ok (withSettings o u)) (hscheme : u.scheme = "local") :
    Backends.usual.makeLog t = (do
      let path ← u.requirePath
      let sync ← u.boolParam "sync" o.syncLog
      let maxSegmentSize ← u.natParam "max_segment_size" o.maxSegmentSize
      return .segmented { directory := .ofText path, sync, maxSegmentSize }) := by
  have hget : Backends.usual.logs.get? (withSettings o u).scheme = some .directory := by
    rw [show (withSettings o u).scheme = "local" from hscheme]
    decide
  have hfind := Backends.find_of_parse ht hget
  have hpath : (withSettings o u).requirePath = u.requirePath := rfl
  -- neither setting changes how the other one is read
  have hsync : (withSettings o u).boolParam "sync" true = u.boolParam "sync" o.syncLog := by
    rw [withSettings, boolParam_filled_of_ne (by decide), boolParam_filled]
  have hsize : (withSettings o u).natParam "max_segment_size" (8 * 1024 * 1024) =
      u.natParam "max_segment_size" o.maxSegmentSize := by
    rw [withSettings, natParam_filled hmax, natParam, param?_filled, if_neg (by decide), natParam]
  rw [Backends.makeLog, hfind]
  dsimp only [bind, Except.bind, pure, Except.pure]
  rw [Backends.directoryOf, hpath, hsync, hsize]
  dsimp only [bind, Except.bind, pure, Except.pure]
  cases u.requirePath with
  | error e => rfl
  | ok path =>
    dsimp only
    cases u.boolParam "sync" o.syncLog <;> rfl

/-- **Settings reach the stores without overriding a uri.**  A uri that names a usual store, with a
truth value or a number added for a key, is read with the same scheme and path, and with the same
parameters except that the key has the value if it was not there before.  This holds for every key
that some uri has; others cannot be set.  So the log is told by its uri whether to write through
and how large its segments may become, or by the settings where the uri does not say, and everything
else that the uri says is the same. -/
theorem settings_fill_uri :
    (∀ (uri : String) (u : StorageUri) (key value : String), parse uri = .ok u →
      Known u.scheme → IsWord value →
        ((∃ t, withDefault uri key value = .ok t ∧ parse t = .ok
            { u with params :=
                if (u.param? key).isSome then u.params else u.params.insert key value }) ↔
          (u.param? key).isSome ∨ Settable key)) ∧
    (∀ key, Settable key ↔ ∃ uri u, parse uri = .ok u ∧ (u.param? key).isSome) ∧
    (∀ (o : Options) (u : StorageUri), parse o.logUri = .ok u → Known u.scheme →
      o.maxSegmentSize ≤ Numeral.max64 →
        ∃ t w, logUri o = .ok t ∧ parse t = .ok w ∧ w.scheme = u.scheme ∧ w.path = u.path ∧
          (∀ key, w.param? key =
            if key = "sync" then some ((u.param? key).getD (boolWord o.syncLog))
            else if key = "max_segment_size" then
              some ((u.param? key).getD (Numeral.text o.maxSegmentSize))
            else u.param? key) ∧
          (u.scheme = "local" → Backends.usual.makeLog t = (do
            let path ← u.requirePath
            let sync ← u.boolParam "sync" o.syncLog
            let maxSegmentSize ← u.natParam "max_segment_size" o.maxSegmentSize
            return .segmented { directory := .ofText path, sync, maxSegmentSize }))) := by
  refine ⟨fun uri u key value h hscheme hv => exists_withDefault_iff h hscheme hv key,
    fun key => settable_iff, fun o u h hscheme hmax => ?_⟩
  obtain ⟨t, ht, hparse⟩ := logUri_parse h hscheme
  refine ⟨t, withSettings o u, ht, hparse, rfl, rfl, fun key => ?_,
    makeLog_withSettings hmax hparse⟩
  rw [withSettings, param?_filled]
  by_cases hsync : key = "sync"
  · rw [if_neg (by rw [hsync]; decide), param?_filled, if_pos hsync, if_pos hsync, hsync]
  · rw [if_neg hsync]
    split
    · next hsize => rw [hsize, param?_filled, if_neg (by decide)]
    · rw [param?_filled, if_neg hsync]

/-- Blanks, an empty item and a key without a value do not stand in the way of a default, and a log
follows its uri rather than the settings. -/
theorem settings_fill_uri_blanks :
    (∃ t, withDefault " local\t://da ta?a&&b=2 " "sync" (boolWord false) = .ok t ∧
      parse t = .ok ⟨"local", "data",
        ((Table.empty.insert "a" "").insert "b" "2").insert "sync" "false"⟩) ∧
    ∃ t, logUri { logUri := "local://d?sync=1", syncLog := false, maxSegmentSize := 64 } = .ok t ∧
      Backends.usual.makeLog t =
        .ok (.segmented { directory := .ofText "d", sync := true, maxSegmentSize := 64 }) := by
  obtain ⟨hdefault, -, hlog⟩ := settings_fill_uri
  refine ⟨?_, ?_⟩
  · exact (hdefault " local\t://da ta?a&&b=2 "
      ⟨"local", "data", (Table.empty.insert "a" "").insert "b" "2"⟩ "sync" (boolWord false)
      (by decide +kernel) (by decide) (.inl ⟨false, rfl⟩)).2 (.inr (by decide))
  · obtain ⟨t, w, ht, -, -, -, -, hmake⟩ :=
      hlog { logUri := "local://d?sync=1", syncLog := false, maxSegmentSize := 64 }
        ⟨"local", "d", Table.empty.insert "sync" "1"⟩ (by decide +kernel) (by decide) (by decide)
    exact ⟨t, ht, (hmake rfl).trans (by decide +kernel)⟩

/-- A scheme with a question mark would lead a default astray, but no store has one. -/
example : withDefault "a?b://d" "sync" (boolWord true) = .ok "a?b://d&sync=true" ∧
    parse "a?b://d&sync=true" = .ok ⟨"a?b", "d&sync=true", .empty⟩ := by
  decide +kernel

end Storages
end RaftReplica
