import PageDiff.Text.Hex
import PageDiff.Text.Printable

/-!
# Quoted texts

How a text is shown inside a message: between quote marks, with everything that can not be printed
written as an escape.  Single marks are used unless the text holds a single mark and no double one.
-/

namespace PageDiff.Text

/-- The mark that a text is quoted with. -/
def quoteMark (cs : List Char) : Char :=
  if cs.contains '\'' && !cs.contains '"' then '"' else '\''

/-- One character inside marks `mark`. -/
def escapeWithin (mark c : Char) : List Char :=
  if c = '\\' ∨ c = mark then ['\\', c]
  else if c = '\n' then ['\\', 'n']
  else if c = '\r' then ['\\', 'r']
  else if c = '\t' then ['\\', 't']
  else if isPrintable c then [c]
  else if c.toNat < 0x100 then '\\' :: 'x' :: hexFixed 2 c.toNat
  else if c.toNat < 0x10000 then '\\' :: 'u' :: hexFixed 4 c.toNat
  else '\\' :: 'U' :: hexFixed 8 c.toNat

/-- A text between marks. -/
def quotedChars (cs : List Char) : List Char :=
  quoteMark cs :: cs.flatMap (escapeWithin (quoteMark cs)) ++ [quoteMark cs]

/-- A text between marks. -/
def quoted (s : String) : String := String.ofList (quotedChars s.toList)

end PageDiff.Text
