/-
RaftReplica/Proofs/Disk/Record.lean

Records on a disk.  What a record tells depends on nothing but the item in its place (`read_entry`);
a record that is saved takes the place of the one before, and leaves no draft behind
(`runOn_save`).  If the process stops while it is saved, the old record is still there, with some
draft beside it, or the new one is.

A record is a length and that many bytes of text.  Its frame can be told from any proper beginning of
it (`unframe?_take`), and bytes behind it are not looked at (`unframe?_frame_append`).

Saving makes a draft, writes it, flushes it, and renames it onto the record.  So there are two parts:

* `runOn_save_drafted`: up to the renaming only the place of the draft has changed, and whatever is
  there is a file (`Drafted`).  This holds of any path whose draft leads the way of an entry, so it
  also serves saves that fail later;
* `runOn_save`: the renaming changes both places at once, and then the record is new.
-/
import RaftReplica.Disk.Record
import RaftReplica.Proofs.Disk.Crash
import RaftReplica.Proofs.Disk.Path

namespace RaftReplica.Record

open Disk Volume

variable {α : Type} [JsonForm α] {d d' : Disk} {v : Volume} {p : Path} {l : Location}
  {name : String} {payload : Bytes} {a : α} {k : Nat}

/-- A payload is read back, whatever stands behind it. -/
theorem unframe?_frame_append (h : payload.length ≤ Numeral.max32) (more : Bytes) :
    unframe? (frame payload ++ more) = some payload := by
  have hlt : payload.length < UInt32.size := Nat.lt_of_le_of_lt h (by decide)
  have hlen := Bytes.length_bigEndian 4 payload.length
  have hlong : ¬ (frame payload ++ more).length < 4 := by
    rw [frame, List.length_append, List.length_append, hlen]
    omega
  rw [unframe?, if_neg hlong, frame, List.append_assoc, List.take_left' hlen, List.drop_left' hlen,
    Bytes.ofBigEndian_bigEndian hlt]
  simp

/-- Nothing is read from a start of a record: its length, or the payload, is not all there. -/
theorem unframe?_take {n : Nat} (h : payload.length ≤ Numeral.max32)
    (hn : n < (frame payload).length) : unframe? ((frame payload).take n) = none := by
  have hlt : payload.length < UInt32.size := Nat.lt_of_le_of_lt h (by decide)
  have hlen := Bytes.length_bigEndian 4 payload.length
  have htotal : (frame payload).length = 4 + payload.length := by
    rw [frame, List.length_append, hlen]
  have hcut : ((frame payload).take n).length = n := by
    rw [List.length_take]
    omega
  rw [unframe?, hcut]
  -- fewer bytes than the length itself takes, or the length without all of the text
  split
  · rfl
  · next hlong =>
    have hstart : ((frame payload).take n).take 4 = Bytes.bigEndian 4 payload.length := by
      rw [List.take_take, Nat.min_eq_left (Nat.not_lt.1 hlong), frame, List.take_left' hlen]
    have hrest : (((frame payload).take n).drop 4).length < payload.length := by
      rw [List.length_drop, hcut]
      omega
    rw [hstart, Bytes.ofBigEndian_bigEndian hlt, if_pos hrest]

/-- What was framed is parsed. -/
theorem parse_frame_append (text : String) (h : (Json.encode a).length ≤ Numeral.max32)
    (hdecode : Json.decode? (Json.encode a) = some a) (more : Bytes) :
    parse text (frame (Json.encode a) ++ more) = .ok a := by
  rw [parse, unframe?_frame_append h]
  simp only [hdecode]

/-- A record that is not too long is read back from its frame. -/
theorem parse_frame (text : String) (h : (Json.encode a).length ≤ Numeral.max32)
    (hdecode : Json.decode? (Json.encode a) = some a) :
    parse text (frame (Json.encode a)) = .ok a :=
  List.append_nil (frame (Json.encode a)) ▸ parse_frame_append text h hdecode []

/-- A draft has another name than the record. -/
theorem draft_ne (name : String) : name ++ ".tmp" ≠ name := by
  intro he
  have hlen := congrArg String.length he
  rw [String.length_append] at hlen
  exact absurd hlen (by simp)

theorem append_draft_ne : l ++ [name ++ ".tmp"] ≠ l ++ [name] := mt append_name_inj.1 (draft_ne name)

theorem draft_entry : draft (p.entry name) = p.entry (name ++ ".tmp") :=
  Path.withSuffix_entry p name ".tmp"

theorem draft_sameWay (p : Path) (name : String) :
    Path.SameWay (draft (p.entry name)) (p.entry (name ++ ".tmp")) :=
  draft_entry (p := p) ▸ .refl _

section

variable (home : d.directoryAt p = .ok l) (hn : Path.Plain name)

include home hn

/-- What a record tells is in the file in its place. -/
theorem read_entry : Record.read (α := α) (p.entry name) d = match d.item? (l ++ [name]) with
    | some (.file _ bs) => parse (p.entry name).text bs
    | some .directory => .error (.io .isDirectory)
    | none => .error (.io .missing) := by
  rw [Record.read, Disk.read_entry home hn]
  cases d.item? (l ++ [name]) with
  | none => rfl
  | some item => cases item <;> rfl

/-- Disks with the same item in the place of a record tell the same. -/
theorem read_congr (home' : d'.directoryAt p = .ok l)
    (hi : d'.item? (l ++ [name]) = d.item? (l ++ [name])) :
    Record.read (α := α) (p.entry name) d' = Record.read (p.entry name) d := by
  rw [read_entry home hn, read_entry home' hn, hi]

end

/-- A record that is missing is not an error; everything else that is wrong is. -/
theorem runOn_load? : (load? (α := α) (p.entry name)).runOn v =
    ((match Record.read (p.entry name) v.disk with
      | .ok a => .ok (some a)
      | .error (.io .missing) => .ok none
      | .error e => .error (.error e)), v) := by
  rw [load?, Act.runOn_reading]
  cases Record.read (α := α) (p.entry name) v.disk with
  | ok a => rfl
  | error e =>
    cases e with
    | io cause => cases cause <;> rfl
    | _ => rfl

/-- Some file is the draft of a record, or there is none. -/
def Drafted (d d' : Disk) (l : Location) (name : String) : Prop :=
  ∃ item, item ≠ some .directory ∧ Puts d d' (l ++ [name ++ ".tmp"]) item

/-- A record is written to its draft first, and all that is left to do then is to give the draft its
name.  Up to there no file but the draft is touched. -/
theorem runOn_save_drafted {file : Path} (hfile : Path.SameWay (draft file) (p.entry (name ++ ".tmp")))
    (hw : v.disk.WellFormed) (home : v.disk.directoryAt p = .ok l)
    (hsize : (Json.encode a).length ≤ Numeral.max32) (sync : Bool)
    (hdraft : v.disk.item? (l ++ [name ++ ".tmp"]) ≠ some .directory) :
    ∃ k v₁, (save file a sync).runOn v =
        (do rename (draft file) file; flushParent sync file : Act Volume Unit).runOn v₁ ∧
      Puts v.disk v₁.disk (l ++ [name ++ ".tmp"]) (some (.file k (frame (Json.encode a)))) ∧
      Passes (Drafted v.disk · l name) v v₁ := by
  have hd := Path.plain_draft name
  obtain ⟨k, v₁, hcreate, hput₁⟩ := runOn_create home hd hw hdraft
  obtain ⟨v₂, hwrite, hput₂⟩ := runOn_write hput₁.wellFormed hput₁.item?_self
    List.length_nil.symm (frame (Json.encode a))
  obtain ⟨v₃, hflush, hdisk₃⟩ := runOn_flush (v := v₂) sync k
  -- whatever is in the place of the draft meanwhile is a file
  have hdrafted (bs : Bytes) (d : Disk) (h : Puts v₁.disk d (l ++ [name ++ ".tmp"])
      (some (.file k bs))) : Drafted v.disk d l name :=
    ⟨some (.file k bs), by simp, hput₁.trans h⟩
  have hsame : Drafted v.disk v.disk l name :=
    ⟨_, hdraft, hw, (Function.update_eq_self _ _).symm⟩
  have hmade := hdrafted [] v₁.disk (hput₁.wellFormed.puts hput₁.item?_self)
  have hwritten := hdrafted _ v₂.disk hput₂
  have hpass₁ : Passes (Drafted v.disk · l name) v v₁ :=
    (atomic_create _).passes hcreate hsame hmade
  have hpass₂ : Passes (Drafted v.disk · l name) v₁ v₂ :=
    (passes_write hput₁.wellFormed hput₁.item?_self List.length_nil.symm hwrite).mono
      fun d ⟨_, hput⟩ => hdrafted _ d hput
  have hpass₃ : Passes (Drafted v.disk · l name) v₂ v₃ :=
    (quiet_flush sync k).passes hflush hwritten
  refine ⟨k, v₃, ?_, hdisk₃ ▸ hput₁.trans hput₂, (hpass₁.trans hpass₂).trans hpass₃⟩
  rw [save, if_neg (Nat.not_lt.2 hsize)]
  show Act.runOn (Volume.create _ >>= _) v = _
  rw [hfile.create, Act.runOn_bind_ok hcreate, Act.runOn_bind_ok hwrite, Act.runOn_bind_ok hflush]

/-- **A record that is saved** is under its own name, and nothing is under that of its draft.  Up to
then no file but the draft is touched. -/
theorem runOn_save (hw : v.disk.WellFormed) (home : v.disk.directoryAt p = .ok l)
    (hn : Path.Plain name) (hsize : (Json.encode a).length ≤ Numeral.max32) (sync : Bool)
    (hdraft : v.disk.item? (l ++ [name ++ ".tmp"]) ≠ some .directory)
    (hrecord : v.disk.item? (l ++ [name]) ≠ some .directory) :
    ∃ k v', (save (p.entry name) a sync).runOn v = (.ok (), v') ∧ v'.disk.WellFormed ∧
      v'.disk.item? = Function.update (Function.update v.disk.item? (l ++ [name ++ ".tmp"]) none)
        (l ++ [name]) (some (.file k (frame (Json.encode a)))) ∧
      Passes (fun d => Drafted v.disk d l name ∨ d = v'.disk) v v' := by
  have hd := Path.plain_draft name
  have hplace : l ++ [name] ≠ l ++ [name ++ ".tmp"] := append_draft_ne.symm
  obtain ⟨k, v₁, hrun, hput, hpass⟩ :=
    runOn_save_drafted (draft_sameWay p name) hw home hsize sync hdraft
  -- only now the draft gets the record's name
  obtain ⟨v₂, hrename, hw₂, hitems₂⟩ := runOn_rename (hput.directoryAt hdraft home) hd
    hput.wellFormed hn (draft_ne name) hput.item?_self
    (by rwa [hput.item?_ne hplace])
  have hitems : v₂.disk.item? = Function.update (Function.update v.disk.item?
      (l ++ [name ++ ".tmp"]) none) (l ++ [name]) (some (.file k (frame (Json.encode a)))) := by
    rw [hitems₂, hput.item?, Function.update_idem]
  have home₂ := directoryAt_of_renamed hitems hdraft hrecord home
  obtain ⟨v₃, hparent, hdisk₃⟩ := runOn_flushParent home₂ hn sync
  have hpass₂ : Passes (fun d => Drafted v.disk d l name ∨ d = v₃.disk) v₁ v₂ :=
    (atomic_rename _ _).passes hrename (.inl hpass.stop) (.inr hdisk₃.symm)
  have hpass₃ : Passes (fun d => Drafted v.disk d l name ∨ d = v₃.disk) v₂ v₃ :=
    (quiet_flushParent sync _).passes hparent (.inr hdisk₃.symm)
  refine ⟨k, v₃, ?_, hdisk₃ ▸ hw₂, hdisk₃ ▸ hitems,
    (hpass.mono fun _ => .inl).trans (hpass₂.trans hpass₃)⟩
  rw [hrun, draft_entry, Act.runOn_bind_ok hrename, hparent]

end RaftReplica.Record
