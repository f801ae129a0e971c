import PageDiff.Run.Artifact
import PageDiff.Run.Capture
import PageDiff.Url.Check

/-!
# Running one test case

Both pages are shown one after the other.  The test case passes when the two pictures are the same
byte for byte; if they differ, the artifacts are written and the mismatch is told.
-/

namespace PageDiff.Run

open PageDiff.Browser PageDiff.Script

/-- An address that a picture is taken of. -/
def acceptUrl (url : String) : Run CaseFailure Unit :=
  match Url.check url with
  | .ok _ => pure ()
  | .error e => throw (.capture ⟨url, .url e⟩)

/-- The image of a picture.  A fault of the system is told as a missing picture. -/
def decodePicture (url : String) (s : Screenshot) : Run CaseFailure Image :=
  match s.decode with
  | .ok image => pure image
  | .error f => throw (if f.isSystem then .capture ⟨url, f⟩ else .fault f)

def reportMismatch (config : Config) (tc : TestCase) (outDir : Path) (imageA imageB : Image) :
    Run CaseFailure Unit := do
  match ArtifactPaths.ofTest outDir tc.name tc.urlA tc.urlB with
  | .error e => throw (.fault (.url e))
  | .ok paths =>
    let (d, failure) :=
      writeArtifacts (← get).disk paths imageA imageB (.double config.threshold)
    modify fun w => { w with disk := d }
    match failure with
    | some e =>
      logLine .error s!"Writing diff artifacts for {tc.name} failed: {e.message}"
      throw (.mismatch ⟨tc.urlA, tc.urlB, some e⟩)
    | none =>
      logLine .info s!"wrote diff to {outDir.text}"
      throw (.mismatch ⟨tc.urlA, tc.urlB, none⟩)

/-- Runs a test case.  It ends without a failure when the two pages look the same. -/
def comparePages (driver : Driver) (config : Config) (outDir : Path) (tc : TestCase) :
    Run CaseFailure Unit := do
  logLine .info s!"test {tc.name}"
  acceptUrl tc.urlA
  acceptUrl tc.urlB
  let screenA ← takeCasePicture driver config tc.urlA tc
  let screenB ← takeCasePicture driver config tc.urlB tc
  if screenA = screenB then
    logLine .info s!"{tc.urlA} == {tc.urlB}"
  else
    logLine .info s!"{tc.urlA} != {tc.urlB}"
    let imageA ← decodePicture tc.urlA screenA
    let imageB ← decodePicture tc.urlB screenB
    reportMismatch config tc outDir imageA imageB

end PageDiff.Run
