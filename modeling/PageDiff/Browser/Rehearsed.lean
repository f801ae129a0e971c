import PageDiff.Browser.Driver

/-!
# A rehearsed browser

A browser whose behaviour is written down in advance: the faults of each launch, and for each
context its picture and the calls that fail in it.  Contexts and launches are counted in the order
in which they are asked for, and what is not written down succeeds.
-/

namespace PageDiff.Browser.Rehearsed

/-- The calls that can be made to fail. -/
inductive Step
  | newContext
  | newPage
  | goto
  | networkIdle
  | click
  | wait
  | screenshot
  | close
  deriving DecidableEq, Repr

/-- A fault that is written down, perhaps only for one selector. -/
structure Cue where
  step : Step
  reply : Reply
  selector : Option String := none

/-- What is written down for one context. -/
structure Scene where
  picture : Screenshot
  cues : List Cue := []

/-- What is written down for a whole run. -/
structure Rehearsal where
  scenes : List (Option Scene) := []
  launches : List (Option Fault) := []

/-- One white pixel. -/
def blankPage : Screenshot :=
  .encoded { mode := .rgb, width := 1, height := 1, data := #[255, 255, 255] } ""

/-- The step that a call is, and its selector. -/
def stepOf : Event → Option (Step × Option String)
  | .newContext _ _ => some (.newContext, none)
  | .newPage => some (.newPage, none)
  | .goto _ => some (.goto, none)
  | .networkIdle => some (.networkIdle, none)
  | .click selector => some (.click, some selector)
  | .waitAttached selector => some (.wait, some selector)
  | .screenshot _ => some (.screenshot, none)
  | .closeContext => some (.close, none)
  | _ => none

namespace Scene

/-- The cue for a call: the first one for its step and its selector. -/
def cue? (s : Scene) (e : Event) : Option Cue :=
  (stepOf e).bind fun (step, selector) =>
    s.cues.find? fun c => c.step == step && (c.selector.isNone || c.selector == selector)

/-- Whether a call takes a picture without pixels, which no browser can hand over. -/
def takesEmptyPicture (s : Scene) (e : Event) : Bool :=
  match e, s.picture with
  | .screenshot _, .encoded image _ => image.isEmpty
  | _, _ => false

/-- The answer of a context to a call. -/
def reply (s : Scene) (e : Event) : Reply :=
  match s.cue? e with
  | some c => c.reply
  | none => if s.takesEmptyPicture e then .fails .emptyPicture else .done

end Scene

def Rehearsal.scene (r : Rehearsal) (i : Nat) : Scene :=
  ((r.scenes[i]?).join).getD { picture := blankPage }

/-- The browser that behaves as it is written down. -/
def driver (r : Rehearsal) : Driver where
  reply history e :=
    match e with
    | .launch _ _ =>
      match (r.launches[history.countP Event.isLaunch]?).join with
      | some fault => .fails fault
      | none => .done
    | .newContext _ _ => (r.scene (history.countP Event.isNewContext)).reply e
    | _ => (r.scene (history.countP Event.isNewContext - 1)).reply e
  picture history := (r.scene (history.countP Event.isNewContext - 1)).picture

end PageDiff.Browser.Rehearsed
