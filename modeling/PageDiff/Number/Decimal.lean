import PageDiff.Number.Double

/-!
# Decimal forms of a double

A decimal is a run of digits times a power of ten.  `Double.shortest` has the fewest digits that
read back as the same double, and of those it is the nearest to it; `Double.significant n` is the
nearest decimal with `n` digits.
-/

namespace PageDiff.Number

/-- The positive number `digits * 10 ^ exponent`. -/
structure Decimal where
  digits : Nat
  exponent : Int
  deriving DecidableEq, Repr

namespace Decimal

/-- The digits without the zeros at their end; the exponent makes up for them. -/
def normalized (digits : Nat) (exponent : Int) : Decimal :=
  if h : digits ≠ 0 ∧ digits % 10 = 0 then normalized (digits / 10) (exponent + 1)
  else ⟨digits, exponent⟩
  termination_by digits
  decreasing_by omega

def text (d : Decimal) : List Char := Nat.toDigits 10 d.digits

/-- How many of the digits stand in front of the decimal point. -/
def pointPosition (d : Decimal) : Int := d.text.length + d.exponent

def quotient (d : Decimal) : Nat × Nat :=
  (d.digits * Nat.pow 10 d.exponent.toNat, Nat.pow 10 (-d.exponent).toNat)

end Decimal

namespace Double

/-- More decimal places than any double needs in front of its first digit. -/
def leadingPlaces : Nat := 330

/-- How many digits of `m * 2 ^ e` stand in front of the decimal point; negative if zeros follow
the point. -/
def pointPosition (m : Nat) (e : Int) : Int :=
  let q := quotient m e
  ((Nat.toDigits 10 (q.1 * Nat.pow 10 leadingPlaces / q.2)).length : Int) - leadingPlaces

/-- A number in units of `10 ^ e`, as a quotient. -/
def inTens (q : Nat × Nat) (e : Int) : Nat × Nat :=
  (q.1 * Nat.pow 10 (-e).toNat, q.2 * Nat.pow 10 e.toNat)

/-- The nearest decimal with `n` digits. -/
def significant (n : Nat) (m : Nat) (e : Int) : Decimal :=
  let unit := pointPosition m e - n
  let q := inTens (quotient m e) unit
  .normalized (roundQuotient q.1 q.2) unit

/-- The two decimals with `n` digits around a double, the nearer one first. -/
def neighbours (n : Nat) (m : Nat) (e : Int) : List Decimal :=
  let unit := pointPosition m e - n
  let q := inTens (quotient m e) unit
  let nearest := roundQuotient q.1 q.2
  let below := q.1 / q.2
  [.normalized nearest unit, .normalized (if nearest = below then below + 1 else below) unit]

/-- The decimal with the value of a double, to the last digit. -/
def exact (m : Nat) (e : Int) : Decimal :=
  .normalized (m * Nat.pow 2 e.toNat * Nat.pow 5 (-e).toNat) (-((-e).toNat : Int))

/-- Whether a decimal reads back as `m * 2 ^ e`. -/
def readsBack (m : Nat) (e : Int) (d : Decimal) : Bool :=
  ofDecimal false d.digits d.exponent == .finite false m e

/-- The decimal with the fewest digits that reads back. -/
def shortest (m : Nat) (e : Int) : Decimal :=
  let candidates := (List.range 17).flatMap fun n => neighbours (n + 1) m e
  (candidates.find? (readsBack m e)).getD (exact m e)

end Double

end PageDiff.Number
