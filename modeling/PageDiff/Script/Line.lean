import PageDiff.Script.Field
import PageDiff.Text.Capitals

/-!
# Lines of a script

What one line says, before it is known whether it may say so where it stands: nothing, a remark,
one of the seven directives with its argument, or something else.
-/

namespace PageDiff.Script

open PageDiff.Text

/-- The seven directives. -/
inductive Keyword
  | windowsize
  | compare
  | test
  | pathname
  | click
  | wait
  | capture
  deriving DecidableEq, Repr

def Keyword.table : List (List Char × Keyword) :=
  [("WINDOWSIZE".toList, .windowsize), ("COMPARE".toList, .compare), ("TEST".toList, .test),
    ("PATHNAME".toList, .pathname), ("CLICK".toList, .click), ("WAIT".toList, .wait),
    ("CAPTURE".toList, .capture)]

/-- The directive that a field names, in whatever case. -/
def Keyword.ofField? (field : List Char) : Option Keyword := table.lookup (capitals field)

inductive Line
  | blank
  | comment
  | directive (keyword : Keyword) (args : String)
  | unknown (text : String)
  deriving DecidableEq, Repr

/-- Reads a line whose ends are not blank. -/
def Line.ofStripped (text : List Char) : Line :=
  if text.head? = some '#' then .comment
  else
    let (field, args) := splitField text
    if field = [] then .blank
    else
      match Keyword.ofField? field with
      | some keyword => .directive keyword (String.ofList args)
      | none => .unknown (String.ofList text)

def Line.read (raw : List Char) : Line := .ofStripped (strip raw)

/-- The kinds of capture that a line can name. -/
inductive CaptureKind
  | viewport
  | fullPage
  | element
  deriving DecidableEq, Repr

/-- The kind of capture that a field names, in whatever case.  No name means the viewport. -/
def CaptureKind.ofField? (field : List Char) : Option CaptureKind :=
  [([], CaptureKind.viewport), ("VIEWPORT".toList, .viewport), ("FULLSCREEN".toList, .fullPage),
    ("ELEMENT".toList, .element)].lookup (capitals field)

end PageDiff.Script
