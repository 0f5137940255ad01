/-
RaftReplica/Text/Blank.lean

Blank characters, as the Unicode property `White_Space` lists them, and the two ways the rest of the
library uses them: peers and membership lists are trimmed at their ends, storage uris lose every
blank they contain.

Text is handled as a list of characters, so that the lemmas on lists apply.  The class of core's
`Char.isWhitespace` is smaller, as it stops at the end of ASCII: a no-break space at the end of a
peer would not be taken off by it.

* `trim` keeps blanks inside a text, `removeBlanks` keeps none.
-/

namespace RaftReplica.Text

/-! ### The property -/

/-- The code points with the property `White_Space`, in ascending order. -/
def blankCodes : List Nat :=
  [0x09, 0x0A, 0x0B, 0x0C, 0x0D, 0x20, 0x85, 0xA0, 0x1680,
   0x2000, 0x2001, 0x2002, 0x2003, 0x2004, 0x2005, 0x2006, 0x2007, 0x2008, 0x2009, 0x200A,
   0x2028, 0x2029, 0x202F, 0x205F, 0x3000]

/-- A character is blank when its code point is listed. -/
def isBlank (c : Char) : Bool := blankCodes.contains c.toNat

/-- The table has the twenty-five entries of the property. -/
example : blankCodes.length = 25 := rfl

/-- Every blank of core's ASCII class is a blank here. -/
theorem isBlank_of_isWhitespace {c : Char} (h : c.isWhitespace = true) : isBlank c = true := by
  simp only [Char.isWhitespace, Bool.or_eq_true, decide_eq_true_eq] at h
  rcases h with ((rfl | rfl) | rfl) | rfl <;> decide

/-! ### Trimming and removing -/

/-- Drops the blanks at both ends. -/
def trim (cs : List Char) : List Char :=
  ((cs.dropWhile isBlank).reverse.dropWhile isBlank).reverse

/-- Drops every blank, wherever it stands. -/
def removeBlanks (cs : List Char) : List Char := cs.filter (!isBlank ·)

theorem isBlank_of_mem_removeBlanks {c : Char} {cs : List Char} (h : c ∈ removeBlanks cs) :
    isBlank c = false := by
  simpa using (List.mem_filter.1 h).2

/-- The text without the blanks at its ends. -/
def trimmed (s : String) : String := String.ofList (trim s.toList)

end RaftReplica.Text
