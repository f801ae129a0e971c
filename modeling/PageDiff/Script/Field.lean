import PageDiff.Text.Blank
import PageDiff.Text.Numeral
import PageDiff.Text.Quoted

/-!
# Fields of a line

A line is a first field and the text after it; only a space or a tab ends a field.  A size is two
numerals with an `x` between them.
-/

namespace PageDiff.Script

open PageDiff.Text

/-- The characters that end a field. -/
def isGap (c : Char) : Bool := c == ' ' || c == '\t'

/-- The first field, and the text after the gap behind it. -/
def splitField (cs : List Char) : List Char × List Char :=
  (cs.takeWhile (!isGap ·), (cs.dropWhile (!isGap ·)).dropWhile isGap)

/-- Why a text is no size. -/
inductive SizeError
  /-- It does not have exactly two fields. -/
  | notPair (text : String)
  /-- A field is not a numeral. -/
  | notNumeral (field text : String)
  /-- A numeral is too long. -/
  | tooLong (e : TooManyDigits)
  deriving DecidableEq, Repr

def SizeError.message : SizeError → String
  | .notPair text => s!"syntax error: windowsize {text}"
  | .notNumeral field text => s!"syntax error: invalid dimension {quoted field} in {text}"
  | .tooLong e => e.message

/-- Reads a width and a height. -/
def readSize (text : List Char) : Except SizeError (Nat × Nat) :=
  match text.splitOn 'x' with
  | [width, height] =>
    match [width, height].find? (!isNumeral ·) with
    | some field => .error (.notNumeral (String.ofList field) (String.ofList text))
    | none =>
      match readNumeral width, readNumeral height with
      | .ok w, .ok h => .ok (w, h)
      | .error e, _ => .error (.tooLong e)
      | _, .error e => .error (.tooLong e)
  | _ => .error (.notPair (String.ofList text))

end PageDiff.Script
