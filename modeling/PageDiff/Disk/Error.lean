import PageDiff.Text.Quoted

/-!
# Refusals of a file system

Why a file system refuses what is asked of it, and for which path.
-/

namespace PageDiff

open PageDiff.Text

/-- Why a file system refuses. -/
inductive OsCode
  | noEntry
  | exists
  | notDirectory
  | isDirectory
  | invalid
  | nameTooLong
  | notEmpty
  deriving DecidableEq, Repr

namespace OsCode

def number : OsCode → Nat
  | .noEntry => 2
  | .exists => 17
  | .notDirectory => 20
  | .isDirectory => 21
  | .invalid => 22
  | .nameTooLong => 36
  | .notEmpty => 39

def text : OsCode → String
  | .noEntry => "No such file or directory"
  | .exists => "File exists"
  | .notDirectory => "Not a directory"
  | .isDirectory => "Is a directory"
  | .invalid => "Invalid argument"
  | .nameTooLong => "File name too long"
  | .notEmpty => "Directory not empty"

def kindName : OsCode → String
  | .noEntry => "FileNotFoundError"
  | .exists => "FileExistsError"
  | .notDirectory => "NotADirectoryError"
  | .isDirectory => "IsADirectoryError"
  | .invalid | .nameTooLong | .notEmpty => "OSError"

end OsCode

/-- A refusal, for a path. -/
inductive DiskError
  /-- The path holds a null character. -/
  | nullCharacter
  | refused (code : OsCode) (path : String)
  /-- A directory that was to be emptied is no directory. -/
  | notEmptied (code : OsCode) (path : String)
  deriving DecidableEq, Repr

def DiskError.message : DiskError → String
  | .nullCharacter => "embedded null byte"
  | .refused code path => s!"[Errno {code.number}] {code.text}: {quoted path}"
  | .notEmptied code path => s!"[Errno {code.number}] {code.text}: PosixPath({quoted path})"

end PageDiff
