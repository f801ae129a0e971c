import PageDiff.Image.Basic

/-!
# Disks

A disk knows, for every place, whether a directory or a file is there, and where the current
directory is.  A place is the list of names that leads to it from the root.  `Disk.find?` is the
view of a disk: the lemmas say what each change of a disk does to it.
-/

namespace PageDiff

/-- What is in a file. -/
inductive Content
  | bytes (data : List UInt8)
  /-- The encoding of a picture. -/
  | picture (image : Image)
  deriving DecidableEq

/-- The first bytes of every encoded picture. -/
def Content.pictureSignature : List UInt8 := [0x89, 0x50, 0x4E, 0x47, 0x0D, 0x0A, 0x1A, 0x0A]

/-- The bytes of a file, of an encoded picture only as far as they are the same for all. -/
def Content.data : Content → List UInt8
  | .bytes data => data
  | .picture _ => pictureSignature

/-- What is at a place. -/
inductive Entry
  | directory
  | file (content : Content)
  deriving DecidableEq

/-- A disk.  Everything but the root stands in `entries`, each place once. -/
structure Disk where
  current : List String := []
  entries : List (List String × Entry) := []

namespace Disk

/-- A place: the names that lead there from the root. -/
abbrev Place := List String

/-- What is at a place. -/
def find? (d : Disk) (place : Place) : Option Entry :=
  if place = [] then some .directory else d.entries.lookup place

def isDirectoryAt (d : Disk) (place : Place) : Bool := d.find? place == some .directory

/-- Puts something at a place, in place of what was there. -/
def put (d : Disk) (place : Place) (e : Entry) : Disk :=
  { d with entries := (place, e) :: d.entries.filter (·.1 != place) }

/-- Takes away what is at a place. -/
def erase (d : Disk) (place : Place) : Disk :=
  { d with entries := d.entries.filter (·.1 != place) }

def isBelow (place above : Place) : Bool := place != above && above.isPrefixOf place

/-- Takes away everything below a place. -/
def empty (d : Disk) (place : Place) : Disk :=
  { d with entries := d.entries.filter fun e => !isBelow e.1 place }

/-- The names of what is directly below a place. -/
def children (d : Disk) (place : Place) : List String :=
  d.entries.filterMap fun e =>
    if e.1.dropLast = place ∧ e.1 ≠ [] then e.1.getLast? else none

/-! ### What is at a place after a change -/

@[simp] theorem current_put (d : Disk) (place : Place) (e : Entry) :
    (d.put place e).current = d.current := rfl

@[simp] theorem current_empty (d : Disk) (place : Place) :
    (d.empty place).current = d.current := rfl

/-- Looking up among entries of which only some are kept, by their places. -/
theorem lookup_filter (keep : Place → Bool) (entries : List (Place × Entry)) (q : Place) :
    (entries.filter fun e => keep e.1).lookup q = if keep q then entries.lookup q else none := by
  induction entries with
  | nil => simp
  | cons e entries ih =>
    obtain ⟨p, e⟩ := e
    by_cases hq : q = p
    · subst hq
      by_cases hk : keep q <;> simp [hk, ih]
    · have : (q == p) = false := by simpa using hq
      by_cases hk : keep p <;> simp [hk, ih, List.lookup_cons, this]

/-- Putting something at a place changes that place alone. -/
theorem find?_put (d : Disk) {place : Place} (hp : place ≠ []) (e : Entry) (q : Place) :
    (d.put place e).find? q = if q = place then some e else d.find? q := by
  by_cases hq : q = place
  · simp [find?, put, hq, hp]
  · have : (q == place) = false := by simpa using hq
    simp only [find?, put, List.lookup_cons, this, hq, if_false]
    rw [lookup_filter (· != place)]
    simp [hq]

/-- Taking away what is at a place changes that place alone. -/
theorem find?_erase (d : Disk) {place : Place} (hp : place ≠ []) (q : Place) :
    (d.erase place).find? q = if q = place then none else d.find? q := by
  by_cases hq : q = []
  · simp [find?, hq, hp.symm]
  · simp only [find?, erase, hq, if_false]
    rw [lookup_filter (· != place)]
    by_cases h : q = place <;> simp [h]

/-- Emptying a place takes away what is below it and nothing else. -/
theorem find?_empty (d : Disk) (place q : Place) :
    (d.empty place).find? q = if isBelow q place then none else d.find? q := by
  by_cases hq : q = []
  · subst hq
    cases place <;> simp [find?, isBelow]
  · simp only [find?, empty, hq, if_false]
    rw [lookup_filter (!isBelow · place)]
    cases isBelow q place <;> simp

end Disk

end PageDiff
