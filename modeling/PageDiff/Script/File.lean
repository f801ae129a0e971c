import PageDiff.Fault
import PageDiff.Script.Compile

/-!
# Scripts in files

A script is read from a file as UTF-8, in which every usual end of a line counts as a line feed.
-/

namespace PageDiff.Script

open PageDiff.Text

/-- Why the script in a file gives no test cases. -/
inductive FileError
  | compile (e : CompileError)
  | fault (f : Fault)

/-- The text of a file, or why it can not be read. -/
def readText (d : Disk) (p : Path) : Except FileError (List Char) :=
  let unreadable (reason : String) : FileError :=
    .compile { problem := .unreadable reason, script := some p.text }
  match d.read p with
  | .error .nullCharacter => .error (.fault (.disk .nullCharacter))
  | .error e => .error (unreadable e.message)
  | .ok content =>
    match Utf8.decode content.data with
    | .error e => .error (unreadable e.message)
    | .ok text => .ok (unixNewlines text)

def compileFile (d : Disk) (p : Path) : Except FileError (List TestCase) :=
  match readText d p with
  | .error e => .error e
  | .ok text =>
    match compile text (some p.text) with
    | .error e => .error (.compile e)
    | .ok cases => .ok cases

end PageDiff.Script
