import PageDiff.Run.Discovery
import PageDiff.Run.Pages
import PageDiff.Run.Report

/-!
# Running scripts

One driver of the browser serves a whole run, and every script gets a browser of its own, which is
closed when the script is done or the run ends early.  A test case that does not pass is recorded
and does not end the run.
-/

namespace PageDiff.Run

open PageDiff.Browser PageDiff.Number PageDiff.Script PageDiff.Text

/-- Who is told about every test case, before it runs and after. -/
structure Reporter where
  started : Path → TestCase → Run RunFailure Unit := fun _ _ => pure ()
  finished : Path → CaseResult → Run RunFailure Unit := fun _ _ => pure ()

/-- A run in which nobody is told. -/
def Reporter.silent : Reporter := {}

/-- A reporter that notes down what it is told. -/
def Reporter.notes : Reporter where
  started script tc := modify fun w =>
    { w with notices := w.notices ++ [.started script tc.name] }
  finished script r := modify fun w =>
    { w with notices := w.notices ++ [.finished script r.testName r.result] }

/-- The format of the times of day in a result. -/
def timeFormat : String := "%Y-%m-%dT%H:%M:%SZ"

/-- What is recorded of how a test case ended: its result and the reason.  Only a run that has been
called off is not recorded. -/
def verdict (tc : TestCase) : Except CaseFailure Unit → Run RunFailure (String × Option String)
  | .ok _ => pure ("pass", none)
  | .error (.mismatch e) => pure ("fail", some e.message)
  | .error (.capture e) => do
    logLine .warning s!"Test {tc.name} errored: {e.message}"
    return ("error", some e.message)
  | .error (.fault .cancelled) => throw (.fault .cancelled)
  | .error (.fault f) => do
    logLine .error s!"Test {tc.name} crashed: {f.message}"
    return ("error", some s!"{f.kindName}: {f.message}")

/-- The time between two readings of the clock, as it is recorded. -/
def elapsed (start stop : Double) : Double := (stop.sub start).roundPlaces 2

def recordCase (env : Environment) (config : Config) (outDir : Path) (tc : TestCase) :
    Run RunFailure CaseResult := do
  let start ← now env
  let ended ← attempt (comparePages env.driver config outDir tc)
  let (result, failureReason) ← verdict tc ended
  let stop ← now env
  return {
    testName := tc.name
    urlA := tc.urlA
    urlB := tc.urlB
    result
    failureReason
    duration := elapsed start stop }

/-- Runs a test case between two notices. -/
def reportedCase (env : Environment) (config : Config) (reporter : Reporter) (script outDir : Path)
    (tc : TestCase) : Run RunFailure CaseResult := do
  reporter.started script tc
  let r ← recordCase env config outDir tc
  reporter.finished script r
  return r

/-- How a browser is launched. -/
def launchEvent (config : Config) : Event :=
  .launch config.headless
    (.ofString s!"--window-size={config.width},{config.height}" :: config.browserArgs)

/-- Runs the test cases of a script in a browser of its own. -/
def runScript (env : Environment) (config : Config) (reporter : Reporter) (script : Compiled) :
    Run RunFailure ScriptResult := do
  let (path, cases) := script
  let outDir ← (freshOutputDir config path).mapError RunFailure.fault
  (callUnlimited env.driver (launchEvent config)).mapError RunFailure.fault
  let results ←
    (cases.mapM (reportedCase env config reporter path outDir)).cleanedUp
      ((callUnlimited env.driver .closeBrowser).mapError RunFailure.fault)
  return { script := path.text, outputDir := outDir.text, cases := results }

def summary (pattern startedAt completedAt : String) (scripts : List ScriptResult)
    (duration : Double) : RunResult :=
  let cases := scripts.flatMap (·.cases)
  let count (result : String) : Int := cases.countP (·.result == result)
  { pattern, startedAt, completedAt, duration, scripts
    total := cases.length
    passed := count "pass"
    failed := count "fail"
    errors := count "error" }

/-- The line about a run that has come to its end. -/
def RunResult.countLine (r : RunResult) : String :=
  let counts := s!"{r.passed} passed, {r.failed} failed, {r.errors} errors"
  s!"Run complete: {counts} ({r.duration.tenthsText}s)"

def runMatching (env : Environment) (config : Config) (pattern : String)
    (reporter : Reporter := .silent) (requireTests : Bool := true) : Run RunFailure RunResult := do
  let scripts ← compileMatching pattern requireTests
  let startedAt := env.timeOfDay timeFormat
  let start ← now env
  (callUnlimited env.driver .start).mapError RunFailure.fault
  let results ←
    (scripts.mapM (runScript env config reporter)).cleanedUp
      ((callUnlimited env.driver .stop).mapError RunFailure.fault)
  let stop ← now env
  let result :=
    summary pattern startedAt (env.timeOfDay timeFormat) results (elapsed start stop)
  logLine .info result.countLine
  return result

/-- How a run in batch mode fails. -/
inductive CheckFailure
  /-- Some test case has not passed. -/
  | notOk (report : String) (result : RunResult)
  | run (e : RunFailure)

/-- Batch mode: runs all scripts and fails if any test case has not passed. -/
def runChecked (env : Environment) (config : Config) (pattern : String) :
    Run CheckFailure RunResult := do
  let result ← (runMatching env config pattern).mapError CheckFailure.run
  if result.ok then return result
  else throw (.notOk result.failureReport result)

/-- Per-test mode: runs all scripts and tells a reporter about every test case. -/
def runReporting (env : Environment) (config : Config) (pattern : String) (reporter : Reporter) :
    Run RunFailure RunResult :=
  runMatching env config pattern reporter false

end PageDiff.Run
