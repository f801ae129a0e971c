import PageDiff.Image.Compare
import PageDiff.Path.FileName
import PageDiff.Run.Failure

/-!
# Artifacts of a mismatch

When two pages differ, three pictures are written: the rendered difference and both pages.  The
three writes do not depend on each other: all of them are tried, those that succeed stay, and the
first failure in a fixed order is told.
-/

namespace PageDiff.Run

open PageDiff.Number PageDiff.Path

/-- The paths of the three pictures: the difference, the first page and the second. -/
structure ArtifactPaths where
  diff : Path
  pageA : Path
  pageB : Path
  deriving DecidableEq

def ArtifactPaths.toList (p : ArtifactPaths) : List Path := [p.diff, p.pageA, p.pageB]

/-- The name of an artifact: the test, what the picture shows, and the format. -/
def artifactName (testName shown : String) : String := s!"{testName}.{shown}.png"

def ArtifactPaths.ofTest (outDir : Path) (testName urlA urlB : String) :
    Except Url.Error ArtifactPaths := do
  let name := fileNamePart testName
  let hostA ← hostPart urlA
  let hostB ← hostPart urlB
  return {
    diff := outDir.child (artifactName name "diff")
    pageA := outDir.child (artifactName name hostA)
    pageB := outDir.child (artifactName name hostB) }

/-- Writes a picture.  One without pixels can not be encoded: then a new file is taken away again,
and a file that was there is left empty. -/
def savePicture (d : Disk) (p : Path) (image : Image) : Disk × Except Fault Unit :=
  match d.openForWriting p with
  | .error e => (d, .error (.disk e))
  | .ok place =>
    if image.isEmpty then
      let left := if (d.find? place).isSome then d.put place (.file (.bytes [])) else d
      (left, .error .emptyPicture)
    else (d.put place (.file (.picture image)), .ok ())

/-- A picture to be written, or the fault that has kept it from being made. -/
structure WriteTask where
  path : Path
  picture : Except Fault Image

def WriteTask.perform (t : WriteTask) (d : Disk) : Disk × Option ArtifactError :=
  match t.picture with
  | .error f => (d, some ⟨t.path.text, f⟩)
  | .ok image =>
    match savePicture d t.path image with
    | (d, .ok _) => (d, none)
    | (d, .error f) => (d, some ⟨t.path.text, f⟩)

/-- Writes all pictures, whatever becomes of each of them. -/
def WriteTask.performAll : List WriteTask → Disk → Disk × List (Option ArtifactError)
  | [], d => (d, [])
  | t :: ts, d =>
    let (d, e) := t.perform d
    let (d, es) := performAll ts d
    (d, e :: es)

def writeTasks (paths : ArtifactPaths) (imageA imageB : Image) (threshold : Numeric) :
    List WriteTask :=
  [⟨paths.diff, ((Image.compare imageA imageB threshold).mapError .cutoff).map (·.image)⟩,
    ⟨paths.pageA, .ok imageA⟩, ⟨paths.pageB, .ok imageB⟩]

/-- Writes the three pictures of a mismatch and tells the first failure in their order. -/
def writeArtifacts (d : Disk) (paths : ArtifactPaths) (imageA imageB : Image)
    (threshold : Numeric) : Disk × Option ArtifactError :=
  let (d, errors) := WriteTask.performAll (writeTasks paths imageA imageB threshold) d
  (d, errors.findSome? id)

end PageDiff.Run
