import PageDiff.Disk.Locate
import PageDiff.Text.Utf8

/-!
# Files and directories on a disk

Reading and writing files, making and removing directories, and listing what is below one.  An
operation refuses what a file system refuses.  One of several steps keeps the steps that were taken
before a refusal.
-/

namespace PageDiff.Disk

open PageDiff.Text

/-! ### Files -/

def read (d : Disk) (p : Path) : Except DiskError Content :=
  withPath p.text do
    match d.find? (← d.locate p.text) with
    | some (.file content) => return content
    | _ => throw .isDirectory

/-- The place of a file that is opened for writing. -/
def openForWriting (d : Disk) (p : Path) : Except DiskError Place :=
  withPath p.text do
    let (place, name) ← d.locateParent p.text
    if name = "" ∨ name = "." ∨ name = ".." then throw .isDirectory
    if nameLimit < name.utf8ByteSize then throw .nameTooLong
    if d.isDirectoryAt (place ++ [name]) then throw .isDirectory
    return place ++ [name]

def write (d : Disk) (p : Path) (content : Content) : Except DiskError Disk :=
  (d.openForWriting p).map fun place => d.put place (.file content)

/-! ### Directories -/

/-- What an operation of several steps leaves behind: the disk after the steps that were taken, and
the refusal that ended them. -/
abbrev Outcome := Disk × Except DiskError Unit

/-- The outcome of a single step, which leaves the disk alone if it is refused. -/
def outcome (d : Disk) : Except DiskError Disk → Outcome
  | .ok d => (d, .ok ())
  | .error e => (d, .error e)

def makeDirectory (d : Disk) (p : Path) : Except DiskError Disk :=
  withPath p.text do
    let (place, name) ← d.locateParent p.text
    if name = "" ∨ name = "." ∨ name = ".." then throw .exists
    if nameLimit < name.utf8ByteSize then throw .nameTooLong
    if (d.find? (place ++ [name])).isSome then throw .exists
    return d.put (place ++ [name]) .directory

/-- Makes a directory unless it is there.  The directory above it must be there. -/
def ensureDirectory (d : Disk) (p : Path) : Except DiskError Disk :=
  match d.makeDirectory p with
  | .ok d => .ok d
  | .error (.refused .noEntry path) => .error (.refused .noEntry path)
  | .error .nullCharacter => .error .nullCharacter
  | .error e => if d.isDirectory p.text then .ok d else .error e

/-- Makes a directory unless it is there, and first the directories above it. -/
def ensureDirectories (d : Disk) (p : Path) : Outcome :=
  match d.ensureDirectory p with
  | .error (.refused .noEntry path) =>
    if _h : p.names = [] then (d, .error (.refused .noEntry path))
    else
      match d.ensureDirectories p.parent with
      | (d, .error e) => (d, .error e)
      | (d, .ok _) => d.outcome (d.ensureDirectory p)
  | result => d.outcome result
  termination_by p.names.length
  decreasing_by
    simp only [Path.parent, List.length_dropLast]
    have := List.length_pos_iff.mpr _h
    omega

/-- Writes a text to a file, after making the directories above it. -/
def writeText (d : Disk) (p : Path) (text : String) : Outcome :=
  match d.ensureDirectories p.parent with
  | (d, .error e) => (d, .error e)
  | (d, .ok _) => d.outcome (d.write p (.bytes (Utf8.encode text.toList)))

/-- Takes away a directory that holds nothing more.  The path must end in its name. -/
def removeEmptied (d : Disk) (p : Path) : Except DiskError Disk :=
  withPath p.text do
    let (place, name) ← d.locateParent p.text
    if name = "" ∨ name = "." then throw .invalid
    if name = ".." then throw .notEmpty
    return d.erase (place ++ [name])

/-- Takes away everything in a directory and then the directory itself.  Its path is followed once
more for that, and may then lead nowhere. -/
def removeDirectory (d : Disk) (p : Path) : Outcome :=
  match d.locate p.text with
  | .error code => (d, .error (.refused code p.text))
  | .ok place =>
    if d.isDirectoryAt place then
      let emptied := d.empty place
      emptied.outcome (emptied.removeEmptied p)
    else (d, .error (.notEmptied .notDirectory p.text))

/-- Makes an empty directory: takes away what is there, and makes it with the directories above
it. -/
def freshDirectory (d : Disk) (p : Path) : Outcome :=
  match d.exists? p with
  | .error e => (d, .error e)
  | .ok false => d.ensureDirectories p
  | .ok true =>
    match d.removeDirectory p with
    | (d, .error e) => (d, .error e)
    | (d, .ok _) => d.ensureDirectories p

/-! ### Listing -/

/-- Everything below a directory, as paths that start with the path of the directory, in the order
of the texts of the paths. -/
def listing (d : Disk) (p : Path) : List (String × Entry) :=
  match d.locate p.text with
  | .error _ => []
  | .ok place =>
    let found := d.entries.filterMap fun e =>
      if isBelow e.1 place then
        some (({ p with names := p.names ++ e.1.drop place.length } : Path).text, e.2)
      else none
    found.mergeSort fun a b => decide (a.1 ≤ b.1)

end PageDiff.Disk
