/-
RaftReplica/Log/Frame.lean

Entries as bytes.  A frame is a header of 24 bytes and a body.  The header holds the term, the kind,
the length and the checksum of the body, and then a checksum of itself; its numbers have the most
significant byte first.  The body holds the data and the two lists of peers; its numbers have the
least significant byte first.  Frames follow one another in a segment file without anything in
between.

    | term 8 | kind 1 | zeros 3 | body length 4 | body checksum 4 | header checksum 4 |

The index of an entry is nowhere in its frame.  It follows from the place of the frame in its file,
and the file says in its name where it starts; `readFrom` counts along.

Two kinds of bad bytes are told apart.  A frame that ends too early was cut short while it was
written, and reading stops in front of it without a word.  A frame of full length whose checksums are
wrong is damage, and reading stops with the cause (`Contents.damage`).

* `encode` and `decode` are for a single frame, `readAll` is for a file.
* `body` and `fields?` are for what the checksum of the body covers.
-/
import RaftReplica.Bytes.Crc32
import RaftReplica.Bytes.Word
import RaftReplica.Entry

namespace RaftReplica.Frame

/-! ### Bodies -/

/-- A row of bytes with its length in front. -/
def block (bs : Bytes) : Bytes := Bytes.littleEndian 8 bs.length ++ bs

/-- A peer goes as its text. -/
def peerBlock (p : Peer) : Bytes := block (Bytes.ofText p.text)

/-- A list of peers that may be absent. -/
def peersField : Option (List Peer) → Bytes
  | none => [0]
  | some ps => 1 :: (Bytes.littleEndian 8 ps.length ++ ps.flatMap peerBlock)

/-- The body of an entry. -/
def body (e : Entry) : Bytes := block e.data ++ (peersField e.peers ++ peersField e.former)

/-- A number of eight bytes, and what follows it. -/
def takeWord (bs : Bytes) : Option (Nat × Bytes) :=
  if bs.length < 8 then none else some (Bytes.ofLittleEndian (bs.take 8), bs.drop 8)

/-- A row of bytes with its length in front, and what follows it. -/
def takeBlock (bs : Bytes) : Option (Bytes × Bytes) := do
  let (n, rest) ← takeWord bs
  if rest.length < n then none else some (rest.take n, rest.drop n)

/-- A peer, and what follows it. -/
def takePeer (bs : Bytes) : Option (Peer × Bytes) := do
  let (text, rest) ← takeBlock bs
  return (← Peer.ofChars? (← Bytes.text? text).toList, rest)

/-- So many peers, and what follows them. -/
def takePeers : Nat → Bytes → Option (List Peer × Bytes)
  | 0, bs => some ([], bs)
  | n + 1, bs => do
    let (p, rest) ← takePeer bs
    let (ps, rest) ← takePeers n rest
    return (p :: ps, rest)

/-- A list of peers that may be absent, and what follows it. -/
def takePeersField : Bytes → Option (Option (List Peer) × Bytes)
  | 0 :: rest => some (none, rest)
  | 1 :: rest => do
    let (n, rest) ← takeWord rest
    let (ps, rest) ← takePeers n rest
    return (some ps, rest)
  | _ => none

/-- What a body holds. -/
structure Fields where
  data : Bytes
  peers : Option (List Peer)
  former : Option (List Peer)
  deriving DecidableEq, Repr

/-- Reads a body; bytes behind it do not count. -/
def fields? (bs : Bytes) : Option Fields := do
  let (data, rest) ← takeBlock bs
  let (peers, rest) ← takePeersField rest
  let (former, _) ← takePeersField rest
  return ⟨data, peers, former⟩

/-! ### Headers -/

/-- The number of bytes in a header. -/
def headerSize : Nat := 24

/-- What a header tells of its entry. -/
structure Header where
  term : Nat
  kind : EntryKind
  length : Nat
  checksum : Nat
  deriving DecidableEq, Repr

/-- The bytes of a header that its own checksum covers. -/
def Header.covered (h : Header) : Bytes :=
  Bytes.bigEndian 8 h.term ++ (UInt8.ofNat h.kind.tag :: 0 :: 0 :: 0 ::
    (Bytes.bigEndian 4 h.length ++ Bytes.bigEndian 4 h.checksum))

/-- The bytes of a header. -/
def Header.bytes (h : Header) : Bytes :=
  h.covered ++ Bytes.bigEndian 4 (Crc32.checksum h.covered).toNat

/-- The header of an entry with a given body. -/
def headerOf (e : Entry) (bs : Bytes) : Header :=
  -- the lengths are checked where the frame is written
  ⟨e.term, e.kind, bs.length, (Crc32.checksum bs).toNat⟩

/-- Reads a header from its 24 bytes. -/
def header? (bs : Bytes) : Except Damage Header :=
  if (Crc32.checksum (bs.take 20)).toNat ≠ Bytes.ofBigEndian (bs.drop 20) then
    .error .headerChecksum
  else
    -- looked at only now, so a flipped tag is a wrong checksum and not an unknown kind
    let tag := (bs[8]?.getD 0).toNat
    match EntryKind.ofTag tag with
    | .error _ => .error (.entryType tag)
    | .ok kind =>
      .ok ⟨Bytes.ofBigEndian (bs.take 8), kind, Bytes.ofBigEndian ((bs.drop 12).take 4),
        Bytes.ofBigEndian ((bs.drop 16).take 4)⟩

/-! ### Frames -/

/-- The frame of an entry; the length of its body has to fit into four bytes. -/
def encode (e : Entry) : Except Error Bytes :=
  let bs := body e
  if Numeral.max32 < bs.length then .error (.invalidArgument (.entryTooLarge e.index))
  else .ok ((headerOf e bs).bytes ++ bs)

/-- The entry that a header and a body make up. -/
def entry? (h : Header) (index : Nat) (bs : Bytes) : Except Damage Entry :=
  if (Crc32.checksum bs).toNat ≠ h.checksum then .error (.bodyChecksum index)
  else
    match fields? bs with
    | none => .error (.undecodable index)
    | some f => .ok ⟨⟨h.term, index⟩, h.kind, f.data, f.peers, f.former⟩

/-- The entry in a frame. -/
def decode (index : Nat) (bs : Bytes) : Except Damage Entry := do
  if bs.length < headerSize then throw (.shortEntry index)
  let h ← header? (bs.take headerSize)
  entry? h index (bs.drop headerSize)

/-! ### Files of frames -/

/-- What a file of frames holds: where each of its whole entries starts, where the last one ends,
and what is damaged there, if anything is. -/
structure Contents where
  entries : List (Nat × Entry)
  size : Nat
  damage : Option Damage
  deriving DecidableEq, Repr

/-- Puts an entry in front. -/
def Contents.cons (offset : Nat) (e : Entry) (c : Contents) : Contents :=
  { c with entries := (offset, e) :: c.entries }

/-- Reads frames from `offset` on as long as whole ones are left; `file` is named where one is
damaged.  An incomplete frame at the end is no damage: its write was cut short. -/
def readFrom (file : String) (offset index : Nat) (bs : Bytes) : Contents :=
  let head := bs.take headerSize
  if _h : head.length < headerSize then ⟨[], offset, none⟩
  else
    match header? head with
    | .error d => ⟨[], offset, some (.headerAt file offset d)⟩
    | .ok h =>
      let body := (bs.drop headerSize).take h.length
      -- the header is whole and true, the body was cut short
      if body.length < h.length then ⟨[], offset, none⟩
      else
        match entry? h index body with
        | .error d => ⟨[], offset, some (.bodyIn file d)⟩
        | .ok e =>
          (readFrom file (offset + (headerSize + h.length)) (index + 1)
            (bs.drop (headerSize + h.length))).cons offset e
termination_by bs.length
decreasing_by
  -- a header takes bytes, so what is left is shorter
  simp only [head, headerSize, List.length_take, List.length_drop] at *
  omega

/-- Reads a whole file of frames. -/
def readAll (file : String) (first : Nat) (bs : Bytes) : Contents := readFrom file 0 first bs

end RaftReplica.Frame
