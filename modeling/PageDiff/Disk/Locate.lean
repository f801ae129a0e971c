import PageDiff.Disk.Basic
import PageDiff.Disk.Error
import PageDiff.Path.Basic

/-!
# Finding places on a disk

A path is followed name by name, and every name in front of its last must lead to a directory.
-/

namespace PageDiff.Disk

/-! ### Following a path -/

/-- The most bytes that a name may have. -/
def nameLimit : Nat := 255

/-- The most bytes that a path may have. -/
def pathLimit : Nat := 4095

/-- One step from a directory.  A dot and an empty name stay where they are, two dots go up. -/
def enter (d : Disk) (place : Place) (name : String) : Except OsCode Place :=
  if !d.isDirectoryAt place then .error .notDirectory
  else if name = "" ∨ name = "." then .ok place
  else if name = ".." then .ok place.dropLast
  else if nameLimit < name.utf8ByteSize then .error .nameTooLong
  else if (d.find? (place ++ [name])).isSome then .ok (place ++ [name])
  else .error .noEntry

/-- Steps from a place, one name after the other. -/
def walk (d : Disk) : Place → List String → Except OsCode Place
  | place, [] => .ok place
  | place, name :: names =>
    match d.enter place name with
    | .error code => .error code
    | .ok next => d.walk next names

/-- The place where a path starts. -/
def start (d : Disk) (path : String) : Place :=
  if path.toList.head? = some '/' then [] else d.current

def locate (d : Disk) (path : String) : Except OsCode Place :=
  if pathLimit < path.utf8ByteSize then .error .nameTooLong
  else if path = "" then .error .noEntry
  else d.walk (d.start path) (Path.segments path.toList)

/-- The directory that a path leads to but for its last name, and that name. -/
def locateParent (d : Disk) (path : String) : Except OsCode (Place × String) :=
  if pathLimit < path.utf8ByteSize then .error .nameTooLong
  else if path = "" then .error .noEntry
  else
    let names := Path.segments path.toList
    match d.walk (d.start path) names.dropLast with
    | .error code => .error code
    | .ok place =>
      if d.isDirectoryAt place then .ok (place, names.getLast?.getD "") else .error .notDirectory

/-- An operation on a path, which must not hold a null character. -/
def withPath (path : String) (op : Except OsCode α) : Except DiskError α :=
  if path.toList.contains '\x00' then .error .nullCharacter
  else
    match op with
    | .error code => .error (.refused code path)
    | .ok a => .ok a

/-! ### Questions -/

/-- Whether something is there, told without errors. -/
def present (d : Disk) (path : String) : Bool :=
  !path.toList.contains '\x00' && (d.locate path).toOption.isSome

def isDirectory (d : Disk) (path : String) : Bool :=
  !path.toList.contains '\x00' &&
    match d.locate path with
    | .ok place => d.isDirectoryAt place
    | .error _ => false

/-- Whether a path exists.  A path that leads nowhere does not, a path with a name that is too long
is refused. -/
def exists? (d : Disk) (p : Path) : Except DiskError Bool :=
  if p.text.toList.contains '\x00' then .ok false
  else
    match d.locate p.text with
    | .ok _ => .ok true
    | .error .noEntry | .error .notDirectory => .ok false
    | .error code => .error (.refused code p.text)

end PageDiff.Disk
