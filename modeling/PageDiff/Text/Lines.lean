/-!
# Lines

A text is cut into lines at line feeds only.  A file may end its lines with a carriage return as
well, or with nothing else; `unixNewlines` turns all three spellings into a line feed.
-/

namespace PageDiff.Text

/-- The lines of a text: one more than it has line feeds. -/
def lines (cs : List Char) : List (List Char) := cs.splitOn '\n'

/-- A line without the one carriage return at its end, if it has one. -/
def dropReturn (cs : List Char) : List Char :=
  if cs.getLast? = some '\r' then cs.dropLast else cs

/-- Every end of a line becomes one line feed. -/
def unixNewlines : List Char → List Char
  | [] => []
  | '\r' :: '\n' :: rest => '\n' :: unixNewlines rest
  | '\r' :: rest => '\n' :: unixNewlines rest
  | c :: rest => c :: unixNewlines rest

end PageDiff.Text
