import PageDiff.Run.Failure
import PageDiff.Run.World
import PageDiff.Script.Case

/-!
# Taking a picture of a page

Every picture is taken in a context of its own, which is closed again however the picture turns
out.  The calls follow a plan: the page is opened and loaded, the actions of the test case are done
in order, and the picture is taken.  A time limit bounds all of it.
-/

namespace PageDiff.Run

open PageDiff.Browser PageDiff.Number PageDiff.Script

/-- Something of a kind, or the name of a kind that nobody knows. -/
abbrev Kinded (α : Type) := Except String α

/-- The call that an action is. -/
def actionEvent : Action → Event
  | .click selector => .click selector
  | .wait selector => .waitAttached selector

def captureEvents : Capture → List Event
  | .viewport => [.screenshot .viewport]
  | .fullPage => [.screenshot .full]
  | .element selector => [.locate selector, .screenshot .element]

/-- The calls that open a page and do the actions on it. -/
def pageEvents (url : String) (actions : List Action) : List Event :=
  [.newPage, .goto url, .networkIdle] ++ actions.map actionEvent

def doAction (driver : Driver) : Kinded Action → Run Interruption Unit
  | .ok action => call driver (actionEvent action)
  | .error kind => throw (.fault (.value s!"Unknown action kind: {kind}"))

/-- Opens a page in a context, does the actions on it and takes the picture. -/
def onPage (driver : Driver) (url : String) (actions : List Action) (shown : Kinded Capture) :
    Run Interruption Screenshot := do
  callAll driver (pageEvents url actions)
  match shown with
  | .error kind => throw (.fault (.value s!"Unknown capture kind: {kind}"))
  | .ok capture =>
    callAll driver (captureEvents capture)
    return driver.picture (← get).trace

/-- Takes a picture in a context of its own. -/
def inContext (driver : Driver) (config : Config) (url : String) (tc : TestCase)
    (shown : Kinded Capture) : Run Interruption Screenshot := do
  let (width, height) := tc.viewport config.window
  call driver (.newContext width height)
  note (.defaultTimeout (config.timeout.scale 1000))
  (onPage driver url tc.actions shown).cleanedUp (call driver .closeContext)

/-- The fault of a picture that has taken too long. -/
def timedOut (config : Config) : Fault :=
  .timeout s!"timed out after {config.timeout.toDouble.generalText}s"

/-- What an interruption means for a picture: a time limit that has passed, a fault of the browser
and a value that does not fit are told as a missing picture, other faults as they are. -/
def asCaseFailure (config : Config) (url : String) : Interruption → CaseFailure
  | .expired | .fault (.timeout _) => .capture ⟨url, timedOut config⟩
  | .fault f => if f.isBrowser || f.isValue then .capture ⟨url, f⟩ else .fault f

/-- Takes a picture of a page, shown in a given way.  Without any time nothing is even asked of the
browser. -/
def takePicture (driver : Driver) (config : Config) (url : String) (tc : TestCase)
    (shown : Kinded Capture) : Run CaseFailure Screenshot :=
  if config.timeout.isNonpositive then throw (.capture ⟨url, timedOut config⟩)
  else (inContext driver config url tc shown).mapError (asCaseFailure config url)

/-- Takes the picture of a page that a test case asks for. -/
def takeCasePicture (driver : Driver) (config : Config) (url : String) (tc : TestCase) :
    Run CaseFailure Screenshot :=
  takePicture driver config url tc (.ok tc.capture)

end PageDiff.Run
