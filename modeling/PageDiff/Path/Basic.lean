/-!
# Paths

A path is an anchor and the names from there on.  Empty names and single dots are dropped when a
path is read, and double dots are kept.
-/

namespace PageDiff

/-- Where a path starts: at the current directory, at the root, or at the root that is written with
two slashes. -/
inductive Path.Anchor
  | relative
  | root
  | doubleRoot
  deriving DecidableEq, Repr

structure Path where
  anchor : Path.Anchor := .relative
  names : List String
  deriving DecidableEq, Repr

namespace Path

def Anchor.text : Anchor → String
  | .relative => ""
  | .root => "/"
  | .doubleRoot => "//"

/-- The anchor of a text: exactly two slashes in front are kept, more are one. -/
def Anchor.ofChars : List Char → Anchor
  | '/' :: '/' :: '/' :: _ => .root
  | '/' :: '/' :: _ => .doubleRoot
  | '/' :: _ => .root
  | _ => .relative

/-- The texts between slashes. -/
def segments (cs : List Char) : List String := (cs.splitOn '/').map String.ofList

def ofString (s : String) : Path where
  anchor := .ofChars s.toList
  names := (segments s.toList).filter fun n => n != "" && n != "."

def joinNames (names : List String) : String := "/".intercalate names

/-- A path as text.  The empty path is a dot. -/
def text (p : Path) : String :=
  let t := p.anchor.text ++ joinNames p.names
  if t = "" then "." else t

def name (p : Path) : String := p.names.getLast?.getD ""

def parent (p : Path) : Path := { p with names := p.names.dropLast }

/-- One more name.  Nothing is added for an empty one. -/
def child (p : Path) (name : String) : Path :=
  if name = "" then p else { p with names := p.names ++ [name] }

end Path

end PageDiff
