/-
RaftReplica/Text/Quoted.lean

Text between quotes, as descriptions of objects show names and paths: a quote or a backslash gets a
backslash, the usual control characters their letters, and every other character that shows nothing
on its own is written by its code point in hexadecimal.

Single quotes stand as they are, since the text is between double ones.  Which characters show
nothing is a matter of Unicode and in `Text.Unseen`.

* `quoted` is for one text, `joined` puts several together with a separator between neighbours.
-/
import RaftReplica.Text.Numeral
import RaftReplica.Text.Unseen

namespace RaftReplica.Text

/-- How one character is written between quotes. -/
def quoteChar (c : Char) : List Char :=
  if c = '"' then ['\\', '"']
  else if c = '\\' then ['\\', '\\']
  else if c = '\n' then ['\\', 'n']
  else if c = '\r' then ['\\', 'r']
  else if c = '\t' then ['\\', 't']
  else if c.toNat = 0 then ['\\', '0']
  else if isSeen c then [c]
  else ['\\', 'u', Char.ofNat 0x7B] ++ (Numeral.digits 16 c.toNat).map Numeral.digitChar ++
    [Char.ofNat 0x7D]

/-- The text between quotes. -/
def quoted (s : String) : String :=
  String.ofList ('"' :: s.toList.flatMap quoteChar ++ ['"'])

example : quoted "it's\n" = "\"it's\\n\"" := by decide +kernel

/-- Joins texts, with `sep` between neighbours. -/
def joined (sep : String) : List String → String
  | [] => ""
  | [s] => s
  | s :: rest => s ++ sep ++ joined sep rest

end RaftReplica.Text
