import PageDiff.Fault
import PageDiff.Script.Error

/-!
# How a test case and a run fail

A test case fails because its pages differ, because a picture could not be taken, or because of a
fault that nothing takes as an answer.
-/

namespace PageDiff.Run

open PageDiff.Text

/-- The browser has failed to give the picture of a page. -/
structure CaptureError where
  url : String
  cause : Fault
  deriving DecidableEq

/-- The words for a missing picture.  A cause without words is told by its kind. -/
def CaptureError.message (e : CaptureError) : String :=
  let detail := if e.cause.message = "" then e.cause.kindName else e.cause.message
  s!"capture {e.url}: {detail}"

/-- A picture that could not be written. -/
structure ArtifactError where
  path : String
  cause : Fault
  deriving DecidableEq

def ArtifactError.message (e : ArtifactError) : String := s!"write {e.path}: {e.cause.message}"

/-- Two pages that differ, and the picture that could not be written about it. -/
structure Mismatch where
  urlA : String
  urlB : String
  artifact : Option ArtifactError := none
  deriving DecidableEq

def Mismatch.message (e : Mismatch) : String :=
  let text := s!"{e.urlA} != {e.urlB}"
  match e.artifact with
  | none => text
  | some a => s!"{text} ({a.message})"

inductive CaseFailure
  | mismatch (e : Mismatch)
  | capture (e : CaptureError)
  | fault (f : Fault)
  deriving DecidableEq

def CaseFailure.message : CaseFailure → String
  | .mismatch e => e.message
  | .capture e => e.message
  | .fault f => f.message

inductive DiscoveryError
  | noFiles (pattern : String)
  | noTests (path : String)
  deriving DecidableEq, Repr

def DiscoveryError.message : DiscoveryError → String
  | .noFiles pattern => s!"no files match {quoted pattern}"
  | .noTests path => s!"no tests found in {quoted path}"

inductive RunFailure
  | compile (e : Script.CompileError)
  | discovery (e : DiscoveryError)
  | fault (f : Fault)
  deriving DecidableEq

def RunFailure.message : RunFailure → String
  | .compile e => e.message
  | .discovery e => e.message
  | .fault f => f.message

end PageDiff.Run
