import PageDiff.Run.Session
import PageDiff.Suite.Registration

/-!
# Test cases for a test suite

A test that asks for test cases is run once for each test case of the scripts that the suite
selects.
-/

namespace PageDiff.Suite

open PageDiff.Run

/-- What a test asks for when it asks for test cases. -/
def caseArgument : String := "screentest_case"

/-- How a suite selects scripts: by an option, or by a setting if the option is absent or empty. -/
structure Selection where
  option : Option String := none
  setting : String := ""
  configPath : Option String := none

/-- The pattern of a selection, unless it has none. -/
def Selection.pattern? (s : Selection) : Option String :=
  [s.option.getD "", s.setting].find? (· != "")

/-- Why a suite has no test cases to run. -/
inductive Failure
  | noPattern
  | run (e : RunFailure)
  deriving DecidableEq

def noPatternMessage : String :=
  s!"{caseArgument} needs --screentest PATTERN or the {patternSetting} ini option"

/-- The settings of a suite: those of a file, or the default ones if no path is given. -/
def loadSettings (env : Environment) (path : Option String) : Run Fault Config := do
  match path.getD "" with
  | "" => return env.defaultConfig
  | path =>
    (ofExcept (Config.load (← get).disk env.outputRoot (.ofString path))).mapError
      Fault.ofLoadError

/-- The values of an argument that a test is run for. -/
structure Parameters where
  argument : String
  cases : List ScriptedCase

def Parameters.ids (p : Parameters) : List String := p.cases.map (·.id)

/-- The parameters of a test that asks for some arguments.  The settings are loaded only to be
checked. -/
def parameters (env : Environment) (s : Selection) (arguments : List String) :
    Run Failure (Option Parameters) := do
  if caseArgument ∉ arguments then return none
  match s.pattern? with
  | none => throw .noPattern
  | some pattern =>
    let _ ← (loadSettings env s.configPath).mapError fun f => Failure.run (.fault f)
    let cases ← (scriptedCases pattern).mapError Failure.run
    return some ⟨caseArgument, cases⟩

end PageDiff.Suite
