import PageDiff.Url.Split

/-!
# Parts of file names

Names of tests and hosts become parts of file names.  `fileNamePart` replaces the characters that
mean something to a file system or a shell, and the dot, so that dots between parts stay readable.
-/

namespace PageDiff.Path

/-- The characters that do not stand in a part of a file name. -/
def unsafeChars : List Char := ['.', '*', '<', '>', '?', '\x60', '\'', '|', '/', '\\', ':', ' ']

/-- A text as part of a file name: every unsafe character becomes a hyphen. -/
def fileNameChars (cs : List Char) : List Char :=
  cs.map fun c => if unsafeChars.contains c then '-' else c

/-- A text as part of a file name. -/
def fileNamePart (s : String) : String := String.ofList (fileNameChars s.toList)

/-- The network location of an address as part of a file name. -/
def hostPart (url : String) : Except Url.Error String := do
  let parts ← Url.split url.toList
  return String.ofList (fileNameChars parts.netloc)

end PageDiff.Path
