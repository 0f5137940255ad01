/-
RaftReplica/Proofs/Log/Frame.lean

Files of frames.  A row of frames is a list of entries with the bytes that each of them was read
from, at indexes that follow one another.  Whatever bytes a file holds, reading it finds a row and
what is left behind it (`exists_row`); a file that is a row, with at most an unfinished frame behind
it, is read as that row, and nothing is damaged (`readFrom_row`).

Rows are the view of a file that all proofs about segments take.  They are closed under what the log
does to files: a frame is added at the end (`bytesOf_concat`), the first frames are kept
(`Row.take`), and two rows are put together where the indices meet (`row_append_iff`).  A frame is
`Whole` for an index if reading its bytes there gives its entry; this is said with the reader alone,
so it also holds of bytes that no encoder here wrote.

What is behind a row is `Unfinished` if the reader stops at it without a complaint.  Every proper
beginning of a whole frame is (`Framed.Whole.unfinished`), which is what a write that was cut short
leaves.
-/
import RaftReplica.Log.Frame
import RaftReplica.Proofs.Peer

namespace RaftReplica.Frame

/-- An entry and the bytes of its frame. -/
structure Framed where
  bytes : Bytes
  entry : Entry
  deriving DecidableEq, Repr

/-- The bytes are a header and a body that make up the entry, at the given index. -/
def Framed.Whole (index : Nat) (f : Framed) : Prop :=
  ∃ head body h, f.bytes = head ++ body ∧ head.length = headerSize ∧ header? head = .ok h ∧
    body.length = h.length ∧ entry? h index body = .ok f.entry

/-- Whole frames, the first at the given index and each next one at the next. -/
def Row : Nat → List Framed → Prop
  | _, [] => True
  | index, f :: fs => f.Whole index ∧ Row (index + 1) fs

/-- The frames one after the other. -/
def bytesOf (fs : List Framed) : Bytes := fs.flatMap Framed.bytes

/-- The entries, with where each of them starts. -/
def placed : Nat → List Framed → List (Nat × Entry)
  | _, [] => []
  | offset, f :: fs => (offset, f.entry) :: placed (offset + f.bytes.length) fs

variable {index offset : Nat} {f : Framed} {fs gs : List Framed} {file : String}

/-! ### Rows -/

@[simp] theorem bytesOf_nil : bytesOf [] = [] := rfl

@[simp] theorem bytesOf_cons (f : Framed) (fs : List Framed) :
    bytesOf (f :: fs) = f.bytes ++ bytesOf fs := rfl

@[simp] theorem bytesOf_append (fs gs : List Framed) :
    bytesOf (fs ++ gs) = bytesOf fs ++ bytesOf gs := List.flatMap_append

theorem bytesOf_concat (fs : List Framed) (f : Framed) :
    bytesOf (fs ++ [f]) = bytesOf fs ++ f.bytes := by
  rw [bytesOf_append, bytesOf_cons, bytesOf_nil, List.append_nil]

/-- Two rows make one if the second begins where the first ends. -/
theorem row_append_iff : Row index (fs ++ gs) ↔ Row index fs ∧ Row (index + fs.length) gs := by
  induction fs generalizing index with
  | nil => simp [Row]
  | cons f fs ih =>
    rw [List.cons_append, Row, Row, ih, List.length_cons, and_assoc, Nat.add_assoc,
      Nat.add_comm 1]

theorem Row.take (h : Row index fs) (n : Nat) : Row index (fs.take n) := by
  rw [← List.take_append_drop n fs] at h
  exact (row_append_iff.1 h).1

/-- Each frame of a row is whole for the index at its place. -/
theorem Row.getElem? {k : Nat} (h : Row index fs) (hf : fs[k]? = some f) :
    f.Whole (index + k) := by
  obtain ⟨hk, rfl⟩ := List.getElem?_eq_some_iff.1 hf
  rw [← List.take_append_drop k fs, row_append_iff, List.drop_eq_getElem_cons hk,
    List.length_take_of_le (Nat.le_of_lt hk)] at h
  exact h.2.1

/-- The index of an entry is the one it was read for. -/
theorem Framed.Whole.index_eq (h : f.Whole index) : f.entry.index = index := by
  obtain ⟨head, body, hd, -, -, -, -, hentry⟩ := h
  unfold entry? at hentry
  split at hentry
  · exact absurd hentry (by simp)
  · split at hentry
    · exact absurd hentry (by simp)
    · rw [← Except.ok.inj hentry]
      rfl

/-- A whole frame is decoded as its entry. -/
theorem Framed.Whole.decode (h : f.Whole index) : decode index f.bytes = .ok f.entry := by
  obtain ⟨head, body, hd, hbytes, hhead, hheader, hbody, hentry⟩ := h
  have hlen : ¬ (head ++ body).length < headerSize := by
    rw [List.length_append, hhead]
    omega
  rw [hbytes, Frame.decode, if_neg hlen, ← hhead, List.take_left, List.drop_left]
  simp only [hheader, bind, Except.bind]
  exact hentry

/-! ### Reading files -/

/-- A whole frame is read, and reading goes on behind it. -/
theorem readFrom_append (h : f.Whole index) (rest : Bytes) :
    readFrom file offset index (f.bytes ++ rest) =
      (readFrom file (offset + f.bytes.length) (index + 1) rest).cons offset f.entry := by
  obtain ⟨head, body, hd, hbytes, hhead, hheader, hbody, hentry⟩ := h
  have htake : (f.bytes ++ rest).take headerSize = head := by
    rw [hbytes, List.append_assoc, ← hhead, List.take_left]
  have hdrop : (f.bytes ++ rest).drop headerSize = body ++ rest := by
    rw [hbytes, List.append_assoc, ← hhead, List.drop_left]
  have hsize : headerSize + hd.length = f.bytes.length := by
    rw [hbytes, List.length_append, hhead, hbody]
  rw [readFrom]
  simp only [htake, hdrop, hheader]
  rw [dif_neg (by omega), ← hbody, List.take_left, if_neg (by omega), hentry, hbody, hsize,
    List.drop_left]

/-- Nothing is read from the bytes, and nothing is wrong with them: they are too few for a frame. -/
def Unfinished (bs : Bytes) : Prop :=
  ∀ file offset index, readFrom file offset index bs = ⟨[], offset, none⟩

theorem unfinished_nil : Unfinished [] := by
  intro file offset index
  rw [readFrom, dif_pos (by simp [headerSize])]

/-- **A frame whose write was cut short** is unfinished. -/
theorem Framed.Whole.unfinished (h : f.Whole index) {n : Nat} (hn : n < f.bytes.length) :
    Unfinished (f.bytes.take n) := by
  obtain ⟨head, body, hd, hbytes, hhead, hheader, hbody, -⟩ := h
  intro file offset i
  rw [hbytes, List.length_append] at hn
  rw [hbytes, List.take_append, readFrom]
  -- not even the header is there, or the header without all of the body
  by_cases hshort : n < headerSize
  · rw [dif_pos]
    simp only [List.length_take, List.length_append]
    omega
  · -- the header is there, but not all of the body
    have htake : (head.take n ++ body.take (n - head.length)).take headerSize = head := by
      rw [List.take_of_length_le (l := head) (by omega), ← hhead, List.take_left]
    have hdrop : (head.take n ++ body.take (n - head.length)).drop headerSize =
        body.take (n - head.length) := by
      rw [List.take_of_length_le (l := head) (by omega), ← hhead, List.drop_left]
    simp only [htake, hdrop, hheader]
    rw [dif_neg (by omega), if_pos]
    simp only [List.length_take]
    omega

/-- **A file of whole frames** is read as these, without damage; a write behind them may have been
cut short. -/
theorem readFrom_row (h : Row index fs) {rest : Bytes} (hrest : Unfinished rest) :
    readFrom file offset index (bytesOf fs ++ rest) =
      ⟨placed offset fs, offset + (bytesOf fs).length, none⟩ := by
  induction fs generalizing index offset with
  | nil =>
    rw [bytesOf_nil, List.nil_append, hrest]
    rfl
  | cons f fs ih =>
    rw [bytesOf_cons, List.append_assoc, readFrom_append h.1, ih h.2, List.length_append,
      Contents.cons, placed, Nat.add_assoc]

/-- **Whatever a file holds**, what is read from it is a row at its start. -/
theorem exists_row (file : String) (offset index : Nat) (bs : Bytes) :
    ∃ fs rest, bs = bytesOf fs ++ rest ∧ Row index fs ∧
      (readFrom file offset index bs).entries = placed offset fs ∧
      (readFrom file offset index bs).size = offset + (bytesOf fs).length := by
  -- one case for each way in which reading stops, and the one in which it goes on
  fun_induction readFrom file offset index bs with
  | case1 => exact ⟨[], _, rfl, trivial, rfl, rfl⟩
  | case2 => exact ⟨[], _, rfl, trivial, rfl, rfl⟩
  | case3 => exact ⟨[], _, rfl, trivial, rfl, rfl⟩
  | case4 => exact ⟨[], _, rfl, trivial, rfl, rfl⟩
  | case5 offset index bs head hhead h hheader body hbody e hentry ih =>
    obtain ⟨fs, rest, hbs, hrow, hentries, hsize⟩ := ih
    have hheadlen : head.length = headerSize := by
      have hle : head.length ≤ headerSize := List.length_take_le _ _
      omega
    have hbodylen : body.length = h.length := by
      have hle : body.length ≤ h.length := List.length_take_le _ _
      omega
    have hsplit : bs = (head ++ body) ++ bs.drop (headerSize + h.length) := by
      rw [← List.drop_drop, List.append_assoc, List.take_append_drop, List.take_append_drop]
    have hlen : (head ++ body).length = headerSize + h.length := by
      rw [List.length_append, hheadlen, hbodylen]
    refine ⟨⟨head ++ body, e⟩ :: fs, rest, ?_, ⟨?_, hrow⟩, ?_, ?_⟩
    · rw [bytesOf_cons, List.append_assoc, ← hbs]
      exact hsplit
    · exact ⟨head, body, h, rfl, hheadlen, hheader, hbodylen, hentry⟩
    · rw [Contents.cons, placed, hentries, hlen]
    · rw [Contents.cons, hsize, bytesOf_cons, List.length_append, hlen, Nat.add_assoc]

/-! ### Where frames stand -/

@[simp] theorem length_placed : (placed offset fs).length = fs.length := by
  induction fs generalizing offset with
  | nil => rfl
  | cons f fs ih => rw [placed, List.length_cons, List.length_cons, ih]

/-- The places in a second row are counted on from the first. -/
theorem placed_append : placed offset (fs ++ gs) =
    placed offset fs ++ placed (offset + (bytesOf fs).length) gs := by
  induction fs generalizing offset with
  | nil => rfl
  | cons f fs ih =>
    rw [List.cons_append, placed, placed, ih, bytesOf_cons, List.length_append, List.cons_append,
      Nat.add_assoc]

/-- Forgetting the places leaves the entries. -/
theorem map_snd_placed : (placed offset fs).map Prod.snd = fs.map Framed.entry := by
  induction fs generalizing offset with
  | nil => rfl
  | cons f fs ih => rw [placed, List.map_cons, List.map_cons, ih]

/-- A frame starts where those before it end. -/
theorem getElem?_placed (k : Nat) : (placed offset fs)[k]? =
    fs[k]?.map fun f => (offset + (bytesOf (fs.take k)).length, f.entry) := by
  induction fs generalizing offset k with
  | nil => rfl
  | cons f fs ih =>
    cases k with
    | zero => simp [placed]
    | succ k =>
      rw [placed, List.getElem?_cons_succ, List.getElem?_cons_succ, ih, List.take_succ_cons,
        bytesOf_cons, List.length_append, Nat.add_assoc]

/-- The bytes of one frame, cut out of all of them. -/
theorem bytesOf_split {k : Nat} (hf : fs[k]? = some f) :
    bytesOf fs = bytesOf (fs.take k) ++ (f.bytes ++ bytesOf (fs.drop (k + 1))) := by
  obtain ⟨hk, rfl⟩ := List.getElem?_eq_some_iff.1 hf
  rw [← bytesOf_cons, ← List.drop_eq_getElem_cons hk, ← bytesOf_append, List.take_append_drop]

/-- One more frame is taken with its bytes. -/
theorem bytesOf_take_succ {k : Nat} (hf : fs[k]? = some f) :
    bytesOf (fs.take (k + 1)) = bytesOf (fs.take k) ++ f.bytes := by
  obtain ⟨hk, rfl⟩ := List.getElem?_eq_some_iff.1 hf
  rw [List.take_succ_eq_append_getElem hk, bytesOf_concat]

/-- The bytes up to the end of a frame are those of the frames up to it. -/
theorem take_bytesOf (n : Nat) (fs : List Framed) :
    (bytesOf fs).take (bytesOf (fs.take n)).length = bytesOf (fs.take n) := by
  conv => lhs; arg 2; rw [← List.take_append_drop n fs, bytesOf_append]
  rw [List.take_left]

/-- The first frames have no more bytes than all of them. -/
theorem length_bytesOf_take_le (n : Nat) (fs : List Framed) :
    (bytesOf (fs.take n)).length ≤ (bytesOf fs).length := by
  conv => rhs; rw [← List.take_append_drop n fs, bytesOf_append, List.length_append]
  omega

end RaftReplica.Frame
