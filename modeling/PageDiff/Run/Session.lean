import PageDiff.Run.Scripts

/-!
# Running test cases one by one

Test cases may also be run one at a time, in any order.  A `Session` keeps the browser between
them as long as the script stays the same, and remembers which directories it has prepared.
-/

namespace PageDiff.Run

open PageDiff.Browser PageDiff.Script

structure ScriptedCase where
  script : Path
  testCase : TestCase
  deriving DecidableEq

/-- What a test case is called among those of all scripts. -/
def ScriptedCase.id (c : ScriptedCase) : String := s!"{c.script.name}::{c.testCase.name}"

/-- The test cases of all scripts that a pattern matches, in order. -/
def scriptedCases (pattern : String) : Run RunFailure (List ScriptedCase) := do
  let scripts ← compileMatching pattern false
  return scripts.flatMap fun (path, cases) => cases.map (⟨path, ·⟩)

/-- What is kept between two test cases. -/
structure Session where
  /-- Whether the driver of the browser has been started. -/
  started : Bool := false
  /-- Whether a browser is open. -/
  browserOpen : Bool := false
  /-- The script that a browser was last launched for. -/
  script : Option Path := none
  /-- The prepared directories by their scripts. -/
  outDirs : List (Path × Path) := []

/-- A computation that also changes a session. -/
abbrev WithSession (α : Type) := ExceptT CaseFailure (StateT Session (StateM World)) α

namespace WithSession

/-- A computation that leaves the session alone. -/
def lift (x : Run CaseFailure α) : WithSession α := fun session w =>
  let (r, w) := x w
  ((r, session), w)

/-- A change of the session alone. -/
def update (f : Session → Session) : WithSession Unit := fun session w =>
  ((.ok (), f session), w)

/-- The session as it is. -/
def session : WithSession Session := fun session w => ((.ok session, session), w)

end WithSession

namespace Session

open WithSession

def request (env : Environment) (e : Event) : WithSession Unit :=
  lift ((callUnlimited env.driver e).mapError .fault)

def closeBrowser (env : Environment) : WithSession Unit := do
  if (← session).browserOpen then
    request env .closeBrowser
    update fun s => { s with browserOpen := false }

/-- Starts the driver of the browser unless that has been done. -/
def ensureStarted (env : Environment) : WithSession Unit := do
  unless (← session).started do
    request env .start
    update fun s => { s with started := true }

def ensureBrowser (env : Environment) (config : Config) (script : Path) : WithSession Unit := do
  let s ← session
  unless s.browserOpen && s.script == some script do
    closeBrowser env
    request env (launchEvent config)
    update fun s => { s with browserOpen := true, script := some script }

/-- The directory of the artifacts of a script, which is prepared once. -/
def ensureOutDir (config : Config) (script : Path) : WithSession Path := do
  match (← session).outDirs.lookup script with
  | some out => return out
  | none =>
    let out ← lift ((freshOutputDir config script).mapError .fault)
    update fun s => { s with outDirs := (script, out) :: s.outDirs }
    return out

def run (env : Environment) (config : Config) (c : ScriptedCase) : WithSession Unit := do
  ensureStarted env
  ensureBrowser env config c.script
  let out ← ensureOutDir config c.script
  lift (comparePages env.driver config out c.testCase)

def close (env : Environment) : WithSession Unit := do
  closeBrowser env
  if (← session).started then
    request env .stop
    update fun s => { s with started := false }

/-- Runs test cases one after the other, whatever becomes of each of them. -/
def runAll (env : Environment) (config : Config) :
    List ScriptedCase → StateT Session (StateM World) (List (String × Except CaseFailure Unit))
  | [] => pure []
  | c :: cs => do
    let ended ← (run env config c).run
    let rest ← runAll env config cs
    return (c.id, ended) :: rest

end Session

/-! ### The end of a session -/

/-- A session with the loop that its work runs on. -/
structure Hosted where
  session : Session := {}
  loopClosed : Bool := false

/-- Closes a session.  However that ends, its loop is closed then. -/
def Hosted.close (env : Environment) : StateT Hosted (StateM World) (Except CaseFailure Unit) :=
  fun h w =>
    let ((ended, session), w) := Session.close env h.session w
    ((ended, { session, loopClosed := true }), w)

/-- Runs some of the test cases of a pattern in a given order and then closes the session.  Numbers
without a test case are skipped. -/
def runSelected (env : Environment) (config : Config) (pattern : String) (order : List Int) :
    Run RunFailure (List (String × Except CaseFailure Unit)) := do
  let cases ← scriptedCases pattern
  let chosen := order.filterMap fun i => if i < 0 then none else cases[i.toNat]?
  let (ended, session) ← (Session.runAll env config chosen).run {}
  let (closed, _) ← (Hosted.close env).run { session }
  match closed with
  | .ok _ => return ended
  | .error (.fault f) => throw (.fault f)
  | .error _ => return ended

end PageDiff.Run
