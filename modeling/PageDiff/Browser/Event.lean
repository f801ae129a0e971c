import PageDiff.Number.Numeric
import PageDiff.Text.Utf16

/-!
# Calls to the browser

Everything that a run asks of the browser, as the events that it leaves in the trace of the run.
-/

namespace PageDiff.Browser

open PageDiff.Number PageDiff.Text

/-- What a picture shows. -/
inductive Shape
  | viewport
  | full
  | element
  deriving DecidableEq, Repr

/-- A call to the browser. -/
inductive Event
  /-- The driver of the browser starts. -/
  | start
  | launch (headless : Bool) (args : List Loose)
  /-- A context of its own for one picture, with its viewport. -/
  | newContext (width height : Int)
  /-- How many milliseconds later calls of the context may take. -/
  | defaultTimeout (milliseconds : Numeric)
  | newPage
  | goto (url : String)
  /-- A wait until the page loads nothing more. -/
  | networkIdle
  | click (selector : String)
  /-- A wait until the page holds a match. -/
  | waitAttached (selector : String)
  | locate (selector : String)
  | screenshot (shape : Shape)
  | closeContext
  | closeBrowser
  /-- The driver of the browser stops. -/
  | stop
  deriving DecidableEq, Repr

def Event.isNewContext : Event → Bool
  | .newContext _ _ => true
  | _ => false

def Event.isLaunch : Event → Bool
  | .launch _ _ => true
  | _ => false

end PageDiff.Browser
