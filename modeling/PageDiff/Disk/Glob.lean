import PageDiff.Disk.Locate
import PageDiff.Path.Pattern

/-!
# Paths that match a pattern

`Disk.glob` finds the paths of a disk that a pattern matches, in the order of their texts.
-/

namespace PageDiff.Disk

open PageDiff.Path.Pattern

/-- The names in a directory, none if it is no directory.  An empty path is the current one. -/
def names (d : Disk) (directory : String) (directoriesOnly : Bool) : List String :=
  match d.locate (if directory = "" then "." else directory) with
  | .error _ => []
  | .ok place =>
    if d.isDirectoryAt place then
      (d.children place).filter fun n =>
        !directoriesOnly || d.isDirectoryAt (place ++ [n])
    else []

/-- The paths below a directory, as they continue its path, none of their names hidden. -/
def namesBelow (d : Disk) : Nat → String → Bool → List String
  | 0, _, _ => []
  | depth + 1, directory, directoriesOnly =>
    ((d.names directory directoriesOnly).filter (!isHidden ·)).flatMap fun n =>
      n :: (d.namesBelow depth (join directory n) directoriesOnly).map (join n)

/-- More levels than there are below any directory. -/
def depth (d : Disk) : Nat := (d.entries.map (·.1.length)).foldl max 0 + 1

/-- What the last name of a pattern finds in a directory. -/
def globName (d : Disk) (directory pattern : String) (directoriesOnly : Bool) : List String :=
  if hasMagic pattern.toList then
    if isDeep pattern then "" :: d.namesBelow d.depth directory directoriesOnly
    else
      (d.names directory directoriesOnly).filter fun n =>
        (isHidden pattern || !isHidden n) && matchName pattern n
  else if pattern = "" then if d.isDirectory directory then [""] else []
  else if d.present (join directory pattern) then [pattern]
  else []

/-- The paths that a pattern matches, once for each way in which it matches them. -/
def globAll (d : Disk) (pattern : List Char) (directoriesOnly : Bool) : List String :=
  match h : cut pattern with
  | (front, base) =>
    let directory := String.ofList front
    let name := String.ofList base
    if !hasMagic pattern then
      if base = [] then if d.isDirectory directory then [String.ofList pattern] else []
      else if d.present (String.ofList pattern) then [String.ofList pattern]
      else []
    else if front = [] then d.globName "" name directoriesOnly
    else
      let directories :=
        if hb : front ≠ pattern ∧ hasMagic front then
          have := cut_length h hb.1
          d.globAll front true
        else [directory]
      directories.flatMap fun dir => (d.globName dir name directoriesOnly).map (join dir)
  termination_by pattern.length

/-- The paths that a pattern matches.  The empty path, which two stars in front match first, is
none. -/
def globTexts (d : Disk) (pattern : String) : List String :=
  match d.globAll pattern.toList false with
  | "" :: found => if pattern.toList.take 2 = ['*', '*'] then found else "" :: found
  | found => found

/-- The paths that a pattern matches, in the order of their texts.  The directory that is listed
first must not hold a null character. -/
def glob (d : Disk) (pattern : String) : Except DiskError (List Path) :=
  if (firstListed pattern.toList).contains '\x00' then .error .nullCharacter
  else .ok (((d.globTexts pattern).mergeSort fun a b => decide (a ≤ b)).map .ofString)

end PageDiff.Disk
