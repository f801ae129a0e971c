import PageDiff.Path.Basic
import PageDiff.Text.Hex
import PageDiff.Text.Utf16

/-!
# Loose texts as paths

The system takes a path as bytes.  There are none for half of a surrogate pair, except for those
second halves that stand for single bytes, so not every loose text can be a path.
-/

namespace PageDiff.Path

open PageDiff.Text

/-- Halves of surrogate pairs that there are no bytes for: where the first one is, and how many
stand side by side. -/
structure Unencodable where
  position : Nat
  unit : UInt16
  count : Nat
  deriving DecidableEq, Repr

def Unencodable.message (e : Unencodable) : String :=
  let code := String.ofList (hexFixed 4 e.unit.toNat)
  let last := e.position + e.count - 1
  let place :=
    if e.count = 1 then s!"character '\\u{code}' in position {e.position}"
    else s!"characters in position {e.position}-{last}"
  s!"'utf-8' codec can't encode {place}: surrogates not allowed"

/-- Whether half of a surrogate pair stands for a single byte. -/
def isByteHalf (u : UInt16) : Bool := decide (0xDC80 ≤ u.toNat) && decide (u.toNat ≤ 0xDCFF)

def isHalf : CodePoint → Bool
  | .char _ => false
  | .half _ => true

/-- The first halves of surrogate pairs that there are no bytes for. -/
def firstUnencodable (position : Nat) : List CodePoint → Option Unencodable
  | [] => none
  | .char _ :: ps => firstUnencodable (position + 1) ps
  | .half h :: ps =>
    if isByteHalf h.unit then firstUnencodable (position + 1) ps
    else some ⟨position, h.unit, (ps.takeWhile isHalf).length + 1⟩

/-- The code points of a loose text without what is dropped when a path is read. -/
def pathPoints (t : Loose) : List CodePoint :=
  let names := (t.points.splitOn (.char '/')).filter fun n => n != [] && n != [.char '.']
  (Anchor.ofChars t.shown.toList).text.toList.map .char ++ [.char '/'].intercalate names

/-- Why a loose text can not be a path, if it can not. -/
def unencodable? (t : Loose) : Option Unencodable :=
  if t.toString?.isSome then none else firstUnencodable 0 (pathPoints t)

end PageDiff.Path
