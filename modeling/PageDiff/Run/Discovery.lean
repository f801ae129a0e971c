import PageDiff.Disk.Glob
import PageDiff.Path.FileName
import PageDiff.Run.Failure
import PageDiff.Run.World
import PageDiff.Script.File

/-!
# Finding and compiling scripts

A run starts with the scripts that a pattern matches.  All of them are compiled before anything
else happens, in the order of their paths, and the first that does not compile ends the run.
-/

namespace PageDiff.Run

open PageDiff.Path PageDiff.Script

/-- The scripts that a pattern matches.  There is at least one. -/
def findScripts (d : Disk) (pattern : String) : Except RunFailure (List Path) :=
  match d.glob pattern with
  | .error e => .error (.fault (.disk e))
  | .ok [] => .error (.discovery (.noFiles pattern))
  | .ok paths => .ok paths

/-- A script and its test cases. -/
abbrev Compiled := Path × List TestCase

/-- Compiles one script.  If `requireTests` is set it must have a test case. -/
def compileScript (requireTests : Bool) (path : Path) : Run RunFailure Compiled := do
  let cases ← ofExcept <|
    match compileFile (← get).disk path with
    | .ok cases => .ok cases
    | .error (.compile e) => .error (.compile e)
    | .error (.fault f) => .error (.fault f)
  if requireTests && cases.isEmpty then throw (.discovery (.noTests path.text))
  logLine .info s!"Loaded {cases.length} test cases from {path.text}"
  return (path, cases)

/-- Compiles all scripts that a pattern matches. -/
def compileMatching (pattern : String) (requireTests : Bool := true) :
    Run RunFailure (List Compiled) := do
  let paths ← ofExcept (findScripts (← get).disk pattern)
  paths.mapM (compileScript requireTests)

/-- The directory of the artifacts of a script. -/
def outputDir (config : Config) (script : Path) : Path :=
  (Path.ofString config.outputRoot.shown).child (fileNamePart script.name)

/-- Makes the directory of the artifacts of a script, without what an earlier run has left there. -/
def freshOutputDir (config : Config) (script : Path) : Run Fault Path := do
  if let some e := unencodable? config.outputRoot then throw (.unencodable e)
  let out := outputDir config script
  (onDisk fun d => d.freshDirectory out).mapError Fault.disk
  return out

end PageDiff.Run
