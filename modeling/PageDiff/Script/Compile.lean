import PageDiff.Script.Case
import PageDiff.Script.Error
import PageDiff.Script.Line
import PageDiff.Text.Lines
import PageDiff.Url.Check

/-!
# Compiling a script

A script is a sequence of blocks with blank lines between them.  The window size, the two origins
and the names of the test cases are kept for the whole script; the name, the path and the actions
of a test last until the next blank line.  Each capture makes a test case of what is in force.

`State.step` says what one line does and `State.run` what a list of lines does; `State.run_append`
says that a script runs line by line.
-/

namespace PageDiff.Script

open PageDiff.Text

/-- What a block has said so far. -/
structure Block where
  testName : String := ""
  pathname : String := ""
  actions : List Action := []
  deriving DecidableEq, Repr

/-- What a script has said so far. -/
structure State where
  window : Int × Int := (0, 0)
  originA : String := ""
  originB : String := ""
  block : Block := {}
  /-- The names of the test cases so far, in the order they were made. -/
  names : List String := []
  deriving DecidableEq, Repr

namespace State

/-- What a line does: the state after it, and the test case that it makes. -/
abbrev Step := Except Problem (State × Option TestCase)

/-- A step that makes no test case. -/
def quiet (s : State) : Step := .ok (s, none)

/-- A blank line forgets what the block said. -/
def forgetBlock (s : State) : State := { s with block := {} }

/-- Whether two origins have been given. -/
def hasOrigins (s : State) : Bool := s.originA != "" && s.originB != ""

/-- The size in which the following pages are shown. -/
def windowsize (s : State) (args : String) : Step :=
  match readSize args.toList with
  | .error e => .error (.size e)
  | .ok (w, h) => quiet { s with window := (w, h) }

/-- The origins that the following pages are served from. -/
def compare (s : State) (args : String) : Step :=
  match args.toList.splitOn ' ' with
  | [a, b] =>
    let originA := String.ofList a
    let originB := String.ofList b
    match Url.checkOrigin originA, Url.checkOrigin originB with
    | .error e, _ => .error (.origin originA e)
    | _, .error e => .error (.origin originB e)
    | .ok _, .ok _ => quiet { s with originA, originB }
  | _ => .error (.originCount args)

/-- The name of the test. -/
def test (s : State) (args : String) : Step :=
  if args ∈ s.names then .error (.duplicateTest args)
  else quiet { s with block := { s.block with testName := args } }

/-- The path of the page, which names the test unless it has a name. -/
def pathname (s : State) (args : String) : Step :=
  if !s.hasOrigins then .error (.noCompare "pathname")
  else
    match Url.check (s.originA ++ args), Url.check (s.originB ++ args) with
    | .error e, _ => .error (.url (s.originA ++ args) e)
    | _, .error e => .error (.url (s.originB ++ args) e)
    | .ok _, .ok _ =>
      let testName := if s.block.testName = "" then args else s.block.testName
      if testName ∈ s.names then .error (.duplicatePathname args)
      else quiet { s with block := { s.block with pathname := args, testName } }

/-- One more action before the picture. -/
def action (s : State) (directive : String) (act : String → Action) (args : String) : Step :=
  if args = "" then .error (.noSelector directive)
  else quiet { s with block := { s.block with actions := s.block.actions ++ [act args] } }

/-- A test case with a name that no test case has had. -/
def emit (s : State) (name : String) (size : Int × Int) (capture : Capture) : Step :=
  if name ∈ s.names then .error (.duplicateTest name)
  else
    .ok ({ s with names := s.names ++ [name] },
      some {
        name
        pathname := s.block.pathname
        originA := s.originA
        originB := s.originB
        actions := s.block.actions
        width := size.1
        height := size.2
        capture })

/-- The name of a test case with a size of its own. -/
def sizedName (name : String) (width height : Nat) : String := s!"{name} {width}x{height}"

/-- The name of a test case for one element. -/
def elementName (name selector : String) : String := s!"{name} {selector}"

/-- A picture of the page: its kind, and a size or a selector after it. -/
def capture (s : State) (args : String) : Step :=
  if !s.hasOrigins then .error (.noCompare "capture")
  else if s.block.pathname = "" then .error .noPathname
  else
    let name := s.block.testName
    let (kind, rest) := splitField args.toList
    let whole (shown : Capture) : Step :=
      if rest = [] then s.emit name s.window shown
      else
        match readSize rest with
        | .error e => .error (.size e)
        | .ok (w, h) => s.emit (sizedName name w h) (w, h) shown
    match CaptureKind.ofField? kind with
    | some .viewport => whole .viewport
    | some .fullPage => whole .fullPage
    | some .element =>
      if rest = [] then .error (.noSelector "capture element")
      else
        let selector := String.ofList rest
        s.emit (elementName name selector) s.window (.element selector)
    | none => .error (.captureKind (String.ofList kind))

/-- What a directive does. -/
def directive (s : State) : Keyword → String → Step
  | .windowsize => s.windowsize
  | .compare => s.compare
  | .test => s.test
  | .pathname => s.pathname
  | .click => s.action "click" .click
  | .wait => s.action "wait" .wait
  | .capture => s.capture

def obey (s : State) : Line → Step
  | .blank => quiet s.forgetBlock
  | .comment => quiet s
  | .directive keyword args => s.directive keyword args
  | .unknown text => .error (.unknownDirective text)

def step (s : State) (raw : List Char) : Step := s.obey (.read raw)

/-- What a list of lines does, the first of them numbered `n`: the state after them and the test
cases that they make, up to the first line with a problem. -/
def run (s : State) (n : Nat) :
    List (List Char) → Except (Nat × Problem) (State × List TestCase)
  | [] => .ok (s, [])
  | raw :: rest =>
    match s.step (dropReturn raw) with
    | .error problem => .error (n, problem)
    | .ok (next, made) =>
      match next.run (n + 1) rest with
      | .error e => .error e
      | .ok (last, cases) => .ok (last, made.toList ++ cases)

@[simp] theorem run_nil (s : State) (n : Nat) : s.run n [] = .ok (s, []) := rfl

/-- The lines of a script take effect one after the other. -/
theorem run_append (s : State) (n : Nat) (xs ys : List (List Char)) :
    s.run n (xs ++ ys) =
      match s.run n xs with
      | .error e => .error e
      | .ok (mid, cases) =>
        match mid.run (n + xs.length) ys with
        | .error e => .error e
        | .ok (last, more) => .ok (last, cases ++ more) := by
  induction xs generalizing s n with
  | nil =>
    simp only [List.nil_append, run_nil, List.length_nil, Nat.add_zero]
    cases s.run n ys <;> simp
  | cons x xs ih =>
    simp only [List.cons_append, run, List.length_cons]
    cases s.step (dropReturn x) with
    | error problem => rfl
    | ok r =>
      obtain ⟨next, made⟩ := r
      simp only [ih]
      rw [show n + 1 + xs.length = n + (xs.length + 1) by omega]
      cases next.run (n + 1) xs with
      | error e => rfl
      | ok m =>
        obtain ⟨mid, cases⟩ := m
        simp only
        cases mid.run (n + (xs.length + 1)) ys with
        | error e => rfl
        | ok r => simp

end State

/-- The test cases of a script, in the order of its captures. -/
def compile (text : List Char) (script : Option String := none) :
    Except CompileError (List TestCase) :=
  match State.run {} 1 (lines text) with
  | .error (n, problem) => .error { problem, line := some n, script }
  | .ok (_, cases) => .ok cases

end PageDiff.Script
