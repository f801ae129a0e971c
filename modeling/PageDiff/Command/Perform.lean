import PageDiff.Command.Arguments
import PageDiff.Command.Markup
import PageDiff.Command.Prompt
import PageDiff.Run.Scripts
import PageDiff.Text.Capitals

/-!
# Carrying out a request

What each command does and prints, and the code it exits with.
-/

namespace PageDiff.Command

open PageDiff.Run PageDiff.Script PageDiff.Text

/-- How a command ends early. -/
inductive Stop
  | exit (code : Nat)
  /-- A fault that no command answers for. -/
  | fault (f : Fault)
  deriving DecidableEq

def exitCode : Except Stop Unit → Nat
  | .ok _ => 0
  | .error (.exit code) => code
  | .error (.fault _) => 1

/-! ### Printing -/

def print (p : Printed) : Run ε Unit := fun w => (.ok (), { w with console := w.console ++ [p] })

/-- Prints a line. -/
def say (markup : String) : Run ε Unit := print (.line markup)

/-- Prints a line in red and stops. -/
def complain (text : String) : Run Stop α := do
  say (Markup.styled "red" text)
  throw (.exit 1)

/-- Answers for scripts that can not be found or compiled, and for nothing else. -/
def orComplain (x : Run RunFailure α) : Run Stop α := do
  match ← attempt x with
  | .ok a => return a
  | .error (.fault f) => throw (.fault f)
  | .error e => complain (Markup.escape e.message)

/-! ### Settings -/

/-- Loads settings.  Without a file the default path means the default settings, and every other
path is complained about. -/
def loadSettings (env : Environment) (path : String) : Run Stop Config := do
  match Config.load (← get).disk env.outputRoot (.ofString path) with
  | .ok config => return config
  | .error e =>
    if !e.isMissing then throw (.fault (.ofLoadError e))
    else if path = defaultConfigPath then return env.defaultConfig
    else complain s!"Config file not found: {path}"

/-! ### Checking -/

/-- Writes the report of a run if a path is given for it. -/
def writeReport (result : RunResult) (path : Option String) : Run Stop Unit :=
  match path with
  | none => pure ()
  | some path =>
    if path = "" then pure ()
    else (onDisk fun d => result.write d (.ofString path)).mapError fun e => .fault (.disk e)

/-- Runs all scripts and reports all failures together. -/
def performCheck (env : Environment) (pattern configPath : String) (reportPath : Option String) :
    Run Stop Unit := do
  let config ← loadSettings env configPath
  match ← attempt (runChecked env config pattern) with
  | .error (.run e) => orComplain (throw e)
  | .error (.notOk report result) =>
    writeReport result reportPath
    complain (Markup.escape report)
  | .ok result =>
    writeReport result reportPath
    say (Markup.styled "green" s!"All {result.total} tests passed")

/-! ### Testing -/

def resultStyle (r : CaseResult) : String := if r.passed then "green" else "red"

/-- The line about a finished test case. -/
def finishedLine (script : Path) (r : CaseResult) : String :=
  let word := Markup.styled (resultStyle r) (String.ofList (capitals r.result.toList))
  s!"{word} {Markup.escape script.name}::{Markup.escape r.testName}"

/-- A reporter that prints a line about every finished test case. -/
def printingReporter : Reporter where
  finished script r := say (finishedLine script r)

def resultRows (r : ScriptResult) : List (List String) :=
  r.cases.map fun c =>
    [Markup.escape (Path.ofString r.script).name, Markup.escape c.testName,
      Markup.styled (resultStyle c) c.result, Markup.escape (c.failureReason.getD "")]

def resultTable (r : RunResult) : Printed :=
  .table "Results" (["Script", "Test", "Result", "Reason"] :: r.scripts.flatMap resultRows)

/-- The line about the artifacts of a script. -/
def artifactLine (r : ScriptResult) : String :=
  let place := Markup.styled "blue" (Markup.escape r.outputDir)
  s!"  {Markup.escape r.script}: inspect diffs at {place}"

def performTest (env : Environment) (pattern configPath : String) : Run Stop Unit := do
  let config ← loadSettings env configPath
  let result ← orComplain (runReporting env config pattern printingReporter)
  print (resultTable result)
  (result.scripts.filter (!·.failures.isEmpty)).forM fun script => say (artifactLine script)
  unless result.ok do throw (.exit 1)

/-! ### Listing -/

def shownLabel (tc : TestCase) : String :=
  match tc.capture.selector? with
  | some selector => s!"element {selector}"
  | none => tc.capture.kind

/-- The viewport of a test case, with a remark if the browser chooses it. -/
def viewportLabel (config : Config) (tc : TestCase) : String :=
  let (width, height) := tc.viewport config.window
  let size := s!"{width}x{height}"
  if tc.usesDefaultViewport then s!"{size} (default)" else size

def listTable (config : Config) (script : Compiled) : Printed :=
  let (path, cases) := script
  .table (Markup.escape path.text)
    (["Test", "Compare", "Capture", "Viewport"] ::
      cases.map fun tc =>
        [Markup.escape tc.name, Markup.escape s!"{tc.urlA}\n{tc.urlB}",
          Markup.escape (shownLabel tc), viewportLabel config tc])

def performList (env : Environment) (pattern configPath : String) : Run Stop Unit := do
  let config ← loadSettings env configPath
  let scripts ← orComplain (compileMatching pattern false)
  scripts.forM fun script => print (listTable config script)

/-! ### Making a file of settings -/

/-- Shows what is written for a prompt. -/
def display (text : String) : Run ε Unit := fun w =>
  (.ok (), { w with output := w.output ++ text })

/-- The question that is asked before settings are overwritten. -/
def overwriteQuestion : String := s!"{defaultConfigPath} already exists. Overwrite?"

/-- Asks whether to overwrite settings.  When the lines run out the command stops. -/
def confirmOverwrite (typed : List (List Char)) : Run Stop Bool := do
  let dialogue := Dialogue.ask overwriteQuestion typed
  display dialogue.shown
  match dialogue.answer with
  | some b => return b
  | none =>
    display s!"Aborted!\n{questionText overwriteQuestion}"
    throw (.exit 1)

/-- Makes a file with the default settings.  A file that is there is overwritten if that is
wished. -/
def performInit (env : Environment) (typed : List (List Char)) : Run Stop Unit := do
  let path := Path.ofString defaultConfigPath
  let found ← (ofExcept ((← get).disk.exists? path)).mapError fun e => Stop.fault (.disk e)
  let wanted ← if found then confirmOverwrite typed else pure true
  if wanted then
    (onDisk fun d => env.defaultConfig.save d path).mapError fun e => Stop.fault (.disk e)
    say (Markup.styled "green" s!"Created {path.text}")

/-- Carries out a request, given the lines that are typed meanwhile. -/
def perform (env : Environment) (typed : List (List Char)) : Request → Run Stop Unit
  | .check pattern configPath reportPath => performCheck env pattern configPath reportPath
  | .test pattern configPath => performTest env pattern configPath
  | .list pattern configPath => performList env pattern configPath
  | .init => performInit env typed
  | .nullPath => throw (.fault (.disk .nullCharacter))

/-- The least grave level that is logged. -/
def Invocation.level (i : Invocation) : Level := if i.verbose then .debug else .info

end PageDiff.Command
