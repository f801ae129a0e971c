import PageDiff.Number.Text

/-!
# Numbers of two kinds

A document tells an integer from a double by how it is written, and so do the settings that keep
the kind of number they were given.
-/

namespace PageDiff.Number

/-- An integer or a double. -/
inductive Numeric
  | int (n : Int)
  | double (x : Double)
  deriving DecidableEq, Repr

namespace Numeric

def toDouble : Numeric → Double
  | .int n => .ofInt n
  | .double x => x

/-- Whether two numbers are equal, of whatever kinds. -/
def eqv : Numeric → Numeric → Bool
  | .int a, .int b => a == b
  | .double a, .double b => a.eqv b
  | .int a, .double (.finite s m e) | .double (.finite s m e), .int a =>
    let unit := min e 0
    Double.signedUnits s m e unit == a * Nat.pow 2 (-unit).toNat
  | _, _ => false

/-- The product with an integer, of the kind that the number has. -/
def scale : Numeric → Int → Numeric
  | .int a, n => .int (a * n)
  | .double x, n => .double (x.mul (.ofInt n))

def isNonpositive : Numeric → Bool
  | .int n => decide (n ≤ 0)
  | .double x => x.le .zero

def text : Numeric → String
  | .int n => toString n
  | .double x => x.text documentSpelling

end Numeric

end PageDiff.Number
