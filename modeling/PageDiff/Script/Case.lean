/-!
# Test cases

What a script asks for: one comparison of two pages, the actions on each page before its picture
is taken, and which part of the page the picture shows.
-/

namespace PageDiff.Script

/-- Something done on a page before its picture is taken. -/
inductive Action
  /-- A click on the first match. -/
  | click (selector : String)
  /-- A wait until something matches. -/
  | wait (selector : String)
  deriving DecidableEq, Repr

namespace Action

def kind : Action → String
  | .click _ => "click"
  | .wait _ => "wait"

def selector : Action → String
  | .click s => s
  | .wait s => s

def ofKind? (kind selector : String) : Option Action :=
  if kind = "click" then some (.click selector)
  else if kind = "wait" then some (.wait selector)
  else none

@[simp] theorem ofKind?_kind (a : Action) : ofKind? a.kind a.selector = some a := by
  cases a <;> rfl

end Action

/-- The part of a page that a picture shows. -/
inductive Capture
  | viewport
  | fullPage
  /-- The first match only. -/
  | element (selector : String)
  deriving DecidableEq, Repr

namespace Capture

def kind : Capture → String
  | .viewport => "viewport"
  | .fullPage => "fullpage"
  | .element _ => "element"

/-- The element that is shown, if only one is. -/
def selector? : Capture → Option String
  | .element s => some s
  | _ => none

end Capture

/-- One comparison: the same path of two origins, shown in the same way.  A viewport dimension of
zero means the browser's own. -/
structure TestCase where
  name : String
  pathname : String
  originA : String
  originB : String
  actions : List Action := []
  width : Int := 0
  height : Int := 0
  capture : Capture := .viewport
  deriving DecidableEq, Repr

namespace TestCase

def urlA (tc : TestCase) : String := tc.originA ++ tc.pathname

def urlB (tc : TestCase) : String := tc.originB ++ tc.pathname

/-- Whether the browser chooses both dimensions of the viewport. -/
def usesDefaultViewport (tc : TestCase) : Bool := tc.width == 0 && tc.height == 0

/-- The size of the viewport, each dimension falling back to the browser's own. -/
def viewport (tc : TestCase) (default : Int × Int) : Int × Int :=
  (if tc.width = 0 then default.1 else tc.width, if tc.height = 0 then default.2 else tc.height)

end TestCase

end PageDiff.Script
