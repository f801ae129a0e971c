import PageDiff.Json.Printer
import PageDiff.Schema.Field

/-!
# Results of a run

What came of each test case, of each script and of the whole run; how results are taken from a
document and written to one.
-/

namespace PageDiff.Run

open PageDiff.Json PageDiff.Number PageDiff.Schema

structure CaseResult where
  testName : String
  urlA : String
  urlB : String
  /-- `pass`, `fail` for pages that differ, or `error`. -/
  result : String
  failureReason : Option String := none
  duration : Double := .zero
  deriving DecidableEq

def CaseResult.passed (r : CaseResult) : Bool := r.result == "pass"

structure ScriptResult where
  script : String
  outputDir : String
  cases : List CaseResult := []
  deriving DecidableEq

def ScriptResult.failures (r : ScriptResult) : List CaseResult := r.cases.filter (!·.passed)

structure RunResult where
  pattern : String
  startedAt : String
  completedAt : String := ""
  total : Int := 0
  passed : Int := 0
  failed : Int := 0
  errors : Int := 0
  duration : Double := .zero
  scripts : List ScriptResult := []
  deriving DecidableEq

/-- Whether no test case has failed, by the counts. -/
def RunResult.ok (r : RunResult) : Bool := r.failed == 0 && r.errors == 0

/-! ### Documents -/

def checkCaseResult (m : Members) : Checked CaseResult :=
  CaseResult.mk <$> required m "test_name" checkString
    <*> required m "url_a" checkString
    <*> required m "url_b" checkString
    <*> required m "result" checkString
    <*> optional m "failure_reason" none checkOptionalString
    <*> optional m "duration_seconds" .zero checkDouble

def checkScriptResult (m : Members) : Checked ScriptResult :=
  ScriptResult.mk <$> required m "script" checkString
    <*> required m "output_dir" checkString
    <*> optional m "case_results" []
      (checkList .notList (checkModel "CaseResult" checkCaseResult))

def checkRunResult (m : Members) : Checked RunResult :=
  RunResult.mk <$> required m "pattern" checkString
    <*> required m "started_at" checkString
    <*> optional m "completed_at" "" checkString
    <*> optional m "total_tests" 0 checkInteger
    <*> optional m "passed" 0 checkInteger
    <*> optional m "failed" 0 checkInteger
    <*> optional m "errors" 0 checkInteger
    <*> optional m "duration_seconds" .zero checkDouble
    <*> optional m "script_results" []
      (checkList .notList (checkModel "ScriptResult" checkScriptResult))

def CaseResult.toValue (r : CaseResult) : Value :=
  .object
    [("test_name", .string r.testName), ("url_a", .string r.urlA), ("url_b", .string r.urlB),
      ("result", .string r.result), ("failure_reason", .ofString? r.failureReason),
      ("duration_seconds", .double r.duration)]

def ScriptResult.toValue (r : ScriptResult) : Value :=
  .object
    [("script", .string r.script), ("output_dir", .string r.outputDir),
      ("case_results", .array (r.cases.map CaseResult.toValue))]

def RunResult.toValue (r : RunResult) : Value :=
  .object
    [("pattern", .string r.pattern), ("started_at", .string r.startedAt),
      ("completed_at", .string r.completedAt), ("total_tests", .int r.total),
      ("passed", .int r.passed), ("failed", .int r.failed), ("errors", .int r.errors),
      ("duration_seconds", .double r.duration),
      ("script_results", .array (r.scripts.map ScriptResult.toValue))]

end PageDiff.Run
