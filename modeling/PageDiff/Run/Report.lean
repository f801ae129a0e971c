import PageDiff.Disk.File
import PageDiff.Run.Result

/-!
# Reports of a run

The report of the failures, for people, and the report of everything, as a document.
-/

namespace PageDiff.Run

/-- The line about a test case that has not passed. -/
def CaseResult.failureLine (r : CaseResult) : String :=
  let reason := r.failureReason.getD "None"
  s!"{r.testName}: {reason}"

/-- The lines about the failures of a script: its path, where the artifacts are, and a line for each
test case that has not passed.  There are none if every test case has passed. -/
def ScriptResult.failureLines (r : ScriptResult) : List String :=
  if r.failures = [] then []
  else
    r.script :: s!"inspect diffs at {r.outputDir}" ::
      r.failures.map CaseResult.failureLine

def RunResult.failureReport (r : RunResult) : String :=
  "\n".intercalate (r.scripts.flatMap ScriptResult.failureLines)

def RunResult.document (r : RunResult) : String := Json.render r.toValue

def RunResult.write (r : RunResult) (d : Disk) (p : Path) : Disk.Outcome := d.writeText p r.document

end PageDiff.Run
