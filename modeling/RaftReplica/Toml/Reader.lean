/-
RaftReplica/Toml/Reader.lean

Reading TOML documents: lines with a key and a value, headers, comments and blanks.  Lists may spread
over several lines, inline tables may not.

Each reader takes characters and gives what it read with those that follow, or nothing at all: a
document with a single mistake is refused as a whole.  `read?` reads all lines one after the other;
each is a change of the document so far (`Toml.Basic`), under the header that was met last.

The recursion is bounded by the length of the text, and the depth of lists and inline tables within
each other by a fixed number.  The first bound is never met, since each step takes a character; the
second one is part of what is accepted.

* `string?` reads the four forms of strings, `keyParts?` a key with its dots.
* `readValue`, `readItems` and `readRows` read values, lists and inline tables.
* `readLines` reads the lines of a document.
-/
import RaftReplica.Toml.Scalar

namespace RaftReplica.Toml

/-! ### Blanks and comments -/

/-- The blanks within a line. -/
def isSpace (c : Char) : Bool := c == ' ' || c == '\t'

/-- What is left behind blanks. -/
def skipSpaces (cs : List Char) : List Char := cs.dropWhile isSpace

/-- A character that may stand in comments and strings: no control except the tab. -/
def isPlain (c : Char) : Bool := c == '\t' || (' ' ≤ c && c != Char.ofNat 0x7F)

/-- What follows a line break, if one stands here. -/
def afterBreak? : List Char → Option (List Char)
  | '\n' :: rest => some rest
  | '\r' :: '\n' :: rest => some rest
  | _ => none

/-- Skips a comment up to its line break. -/
def skipComment : List Char → List Char
  | '#' :: rest => rest.dropWhile isPlain
  | cs => cs

/-- What follows the end of a line: blanks, a comment, and a line break or the end. -/
def afterLine? (cs : List Char) : Option (List Char) :=
  match skipComment (skipSpaces cs) with
  | [] => some []
  | rest => afterBreak? rest

/-- Skips blanks, comments and line breaks. -/
def skipLines : Nat → List Char → List Char
  | 0, cs => cs
  | fuel + 1, cs =>
    let rest := skipComment (skipSpaces cs)
    match afterBreak? rest with
    | some after => skipLines fuel after
    | none => rest

/-! ### Strings -/

/-- The character with the given hexadecimal code; surrogates are none. -/
def ofCode? (cs : List Char) : Option Char := do
  let n := Numeral.value 16 (← cs.mapM (digitValue? 16))
  if n < 0xD800 ∨ (0xE000 ≤ n ∧ n < 0x110000) then some (Char.ofNat n) else none

/-- The character behind a backslash, and what follows it. -/
def escape? : List Char → Option (Char × List Char)
  | 'b' :: rest => some (Char.ofNat 8, rest)
  | 't' :: rest => some ('\t', rest)
  | 'n' :: rest => some ('\n', rest)
  | 'f' :: rest => some (Char.ofNat 12, rest)
  | 'r' :: rest => some ('\r', rest)
  | '"' :: rest => some ('"', rest)
  | '\\' :: rest => some ('\\', rest)
  | 'u' :: rest => if rest.length < 4 then none else (ofCode? (rest.take 4)).map (·, rest.drop 4)
  | 'U' :: rest => if rest.length < 8 then none else (ofCode? (rest.take 8)).map (·, rest.drop 8)
  | _ => none

/-- The characters of a string on one line, after its opening quote. -/
def basicString : Nat → List Char → Option (List Char × List Char)
  | 0, _ => none
  | _, [] => none
  | fuel + 1, c :: rest =>
    if c = '"' then some ([], rest)
    else if c = '\\' then do
      let (e, rest) ← escape? rest
      let (s, rest) ← basicString fuel rest
      return (e :: s, rest)
    else if isPlain c then do
      let (s, rest) ← basicString fuel rest
      return (c :: s, rest)
    else none

/-- The characters of a literal string on one line, after its opening quote. -/
def literalString (cs : List Char) : Option (List Char × List Char) :=
  let s := cs.takeWhile fun c => c != '\'' && isPlain c
  match cs.drop s.length with
  | '\'' :: rest => some (s, rest)
  | _ => none

/-- Skips blanks and line breaks. -/
def skipBlankLines : Nat → List Char → List Char
  | 0, cs => cs
  | fuel + 1, cs =>
    match afterBreak? (skipSpaces cs) with
    | some rest => skipBlankLines fuel rest
    | none => skipSpaces cs

/-- The characters of a string of several lines, after its first line break.  A backslash at the
end of a line joins it with the next text; up to two quotes may stand before the closing three. -/
def longString (quote : Char) : Nat → List Char → Option (List Char × List Char)
  | 0, _ => none
  | _, [] => none
  | fuel + 1, c :: rest =>
    if c = quote then
      match rest with
      | q₂ :: q₃ :: after =>
        if q₂ = quote ∧ q₃ = quote then
          -- more than three quotes: the first of them belong to the text
          let extra := (after.takeWhile (· == quote)).take 2
          some (extra, after.drop extra.length)
        else (longString quote fuel rest).map fun p => (c :: p.1, p.2)
      | _ => none
    else if c = '\\' ∧ quote = '"' then
      match afterBreak? (skipSpaces rest) with
      -- blanks at the start of the next line go too
      | some after => longString quote fuel (skipBlankLines rest.length after)
      | none => do
        let (e, rest) ← escape? rest
        let (s, rest) ← longString quote fuel rest
        return (e :: s, rest)
    else
      match afterBreak? (c :: rest) with
      | some after => (longString quote fuel after).map fun p => ('\n' :: p.1, p.2)
      | none =>
        if isPlain c then (longString quote fuel rest).map fun p => (c :: p.1, p.2) else none

/-- The text after three opening quotes; a line break right there does not count. -/
def longText (quote : Char) (cs : List Char) : Option (List Char × List Char) :=
  longString quote (cs.length + 1) ((afterBreak? cs).getD cs)

/-- A string as a value. -/
def string? : List Char → Option (List Char × List Char)
  | '"' :: '"' :: '"' :: rest => longText '"' rest
  | '\'' :: '\'' :: '\'' :: rest => longText '\'' rest
  | '"' :: rest => basicString (rest.length + 1) rest
  | '\'' :: rest => literalString rest
  | _ => none

/-! ### Keys -/

/-- How deep lists and inline tables may be nested, and how many parts a key may have. -/
def maxDepth : Nat := 79

/-- A character of a key without quotes. -/
def isBareKeyChar (c : Char) : Bool := c.isAlphanum || c == '_' || c == '-'

/-- One part of a key: bare, or a string on one line. -/
def keyPart? : List Char → Option (String × List Char)
  | '"' :: rest => (basicString (rest.length + 1) rest).map fun p => (String.ofList p.1, p.2)
  | '\'' :: rest => (literalString rest).map fun p => (String.ofList p.1, p.2)
  | cs =>
    let bare := cs.takeWhile isBareKeyChar
    if bare.isEmpty then none else some (String.ofList bare, cs.drop bare.length)

/-- A key of so many parts at most, with dots between them, and blanks around them. -/
def keyParts? : Nat → List Char → Option (List String × List Char)
  | 0, _ => none
  | fuel + 1, cs => do
    let (part, rest) ← keyPart? (skipSpaces cs)
    match skipSpaces rest with
    | '.' :: rest => do
      let (parts, rest) ← keyParts? fuel rest
      return (part :: parts, rest)
    | rest => return ([part], rest)

/-- A key, and what follows it. -/
def key? (cs : List Char) : Option (List String × List Char) := keyParts? maxDepth cs

/-! ### Values -/

/-- A word; a day may be followed by a blank and a time. -/
def word? (cs : List Char) : Option (Toml × List Char) :=
  let w := cs.takeWhile isWordChar
  let rest := cs.drop w.length
  let joined :=
    match rest with
    | ' ' :: c :: more =>
      if isDay w && c.isDigit then w ++ ' ' :: (c :: more).takeWhile isWordChar else w
    | _ => w
  (ofWord? joined).map (·, cs.drop joined.length)

mutual

/-- Reads a value. -/
def readValue : Nat → Nat → List Char → Option (Toml × List Char)
  | 0, _, _ => none
  | fuel + 1, depth, cs =>
    match cs with
    | [] => none
    | c :: rest =>
      if c = '"' ∨ c = '\'' then (string? cs).map fun p => (.text (String.ofList p.1), p.2)
      else if c = '[' then
        match depth with
        | 0 => none
        | depth + 1 => (readItems fuel depth rest).map fun p => (.list p.1, p.2)
      else if c = Char.ofNat 0x7B then
        match depth with
        | 0 => none
        | depth + 1 =>
          match skipSpaces rest with
          | d :: after =>
            if d = Char.ofNat 0x7D then some (.table .inline [], after)
            else
              (readRows fuel depth (.table .inline []) rest).map fun p => (p.1, p.2)
          | [] => none
      else word? cs

/-- Reads the items of a list up to the bracket that closes it. -/
def readItems : Nat → Nat → List Char → Option (List Toml × List Char)
  | 0, _, _ => none
  | fuel + 1, depth, cs =>
    match skipLines cs.length cs with
    -- also after a comma: the last item may have one
    | ']' :: rest => some ([], rest)
    | start => do
      let (v, rest) ← readValue fuel depth start
      match skipLines rest.length rest with
      | ']' :: rest => some ([v], rest)
      | ',' :: rest => do
        let (vs, rest) ← readItems fuel depth rest
        return (v :: vs, rest)
      | _ => none

/-- Reads the rows of an inline table up to the brace that closes it. -/
def readRows : Nat → Nat → Toml → List Char → Option (Toml × List Char)
  | 0, _, _, _ => none
  | fuel + 1, depth, t, cs => do
    let (path, rest) ← key? cs
    match rest with
    | '=' :: rest => do
      let (v, rest) ← readValue fuel depth (skipSpaces rest)
      let t ← addAt [] path v t
      match skipSpaces rest with
      | c :: rest =>
        if c = Char.ofNat 0x7D then some (t, rest)
        else if c = ',' then readRows fuel depth t rest
        else none
      | [] => none
    | _ => none

end

/-! ### Documents -/

/-- Reads the rest of a document, below the header `header`. -/
def readLines : Nat → List String → Toml → List Char → Option Toml
  | 0, _, _, _ => none
  | fuel + 1, header, document, cs =>
    match skipLines cs.length cs with
    | [] => some document
    | '[' :: '[' :: rest => do
      let (path, rest) ← key? rest
      match rest with
      | ']' :: ']' :: rest => do
        let rest ← afterLine? rest
        let (way, key) ← splitPath? path
        readLines fuel path (← alterAt false (extend key) way document) rest
      | _ => none
    | '[' :: rest => do
      let (path, rest) ← key? rest
      match rest with
      | ']' :: rest => do
        let rest ← afterLine? rest
        let (way, key) ← splitPath? path
        readLines fuel path (← alterAt false (define key) way document) rest
      | _ => none
    | start => do
      let (path, rest) ← key? start
      match rest with
      | '=' :: rest => do
        let (v, rest) ← readValue (rest.length + 1) maxDepth (skipSpaces rest)
        let rest ← afterLine? rest
        readLines fuel header (← addAt header path v document) rest
      | _ => none

/-- The text without a mark of its encoding in front. -/
def withoutMark : List Char → List Char
  | c :: rest => if c.toNat = 0xFEFF then rest else c :: rest
  | [] => []

/-- Reads a document. -/
def read? (s : String) : Option Toml :=
  readLines (s.toList.length + 1) [] emptyDocument (withoutMark s.toList)

end RaftReplica.Toml
