import PageDiff.Number.Rounding

/-!
# Double precision

The numbers with 53 significant bits that times, thresholds and reports are given in, as exact
values: a mantissa times a power of two.  Every operation works out the exact result and rounds it
once, to the nearest double and to the even mantissa on a tie.
-/

namespace PageDiff.Number

/-- A double: `finite negative m e` is `m * 2 ^ e` with its sign. -/
inductive Double
  | nan
  | infinity (negative : Bool)
  | finite (negative : Bool) (mantissa : Nat) (exponent : Int)
  deriving DecidableEq, Repr

namespace Double

def minExponent : Int := -1074

def maxExponent : Int := 971

def zero (negative : Bool := false) : Double := .finite negative 0 minExponent

/-- The numerator and denominator of `num / den` in units of `2 ^ e`. -/
def inUnits (num den : Nat) (e : Int) : Nat × Nat :=
  (num * Nat.pow 2 (-e).toNat, den * Nat.pow 2 e.toNat)

/-- The exponent that leaves 53 bits of `num / den`, or the smallest one if that is larger. -/
def exponentOf (num den : Nat) : Int :=
  let e : Int := (num.log2 : Int) - (den.log2 : Int) - 53
  let u := inUnits num den e
  max minExponent (if u.1 / u.2 < Nat.pow 2 53 then e else e + 1)

/-- The double next to `num / den`. -/
def ofQuotient (negative : Bool) (num den : Nat) : Double :=
  if num = 0 then zero negative
  else
    let e := exponentOf num den
    let u := inUnits num den e
    let m := roundQuotient u.1 u.2
    let (m, e) := if m = Nat.pow 2 53 then (Nat.pow 2 52, e + 1) else (m, e)
    if e > maxExponent then .infinity negative else .finite negative m e

def ofInt (n : Int) : Double := ofQuotient (decide (n < 0)) n.natAbs 1

/-- The double next to `digits * 10 ^ exponent`.  Numbers of `10 ^ 310` and above are infinite and
those below `10 ^ (-330)` are zero, so their powers of ten need not be worked out. -/
def ofDecimal (negative : Bool) (digits : Nat) (exponent : Int) : Double :=
  let size : Int := (Nat.toDigits 10 digits).length + exponent
  if digits = 0 ∨ size < -330 then zero negative
  else if 310 < size then .infinity negative
  else ofQuotient negative (digits * Nat.pow 10 exponent.toNat) (Nat.pow 10 (-exponent).toNat)

/-! ### The word of a double -/

/-- The 64 bits of a double. -/
def toBits : Double → Nat
  | .nan => 0x7FF8000000000000
  | .infinity negative => (if negative then Nat.pow 2 63 else 0) + 0x7FF0000000000000
  | .finite negative m e =>
    (if negative then Nat.pow 2 63 else 0)
      + (if m < Nat.pow 2 52 then m
        else (e - minExponent + 1).toNat * Nat.pow 2 52 + (m - Nat.pow 2 52))

/-! ### Exact values -/

def quotient (m : Nat) (e : Int) : Nat × Nat :=
  (m * Nat.pow 2 e.toNat, Nat.pow 2 (-e).toNat)

/-- A finite double with its sign, in units of `2 ^ unit`, which is at most its exponent. -/
def signedUnits (negative : Bool) (m : Nat) (e unit : Int) : Int :=
  let n : Int := m * Nat.pow 2 (e - unit).toNat
  if negative then -n else n

/-! ### Arithmetic -/

def neg : Double → Double
  | .nan => .nan
  | .infinity negative => .infinity (!negative)
  | .finite negative m e => .finite (!negative) m e

/-- The sum.  It is the negative zero only if both terms are. -/
def add : Double → Double → Double
  | .nan, _ | _, .nan => .nan
  | .infinity s, .infinity t => if s = t then .infinity s else .nan
  | .infinity s, _ | _, .infinity s => .infinity s
  | .finite s m e, .finite t n f =>
    let unit := min e f
    let sum := signedUnits s m e unit + signedUnits t n f unit
    if sum = 0 then zero (s && t && m == 0 && n == 0)
    else
      let q := quotient sum.natAbs unit
      ofQuotient (decide (sum < 0)) q.1 q.2

def sub (a b : Double) : Double := add a b.neg

def mul : Double → Double → Double
  | .nan, _ | _, .nan => .nan
  | .infinity s, .infinity t => .infinity (s != t)
  | .infinity s, .finite t n _ | .finite t n _, .infinity s =>
    if n = 0 then .nan else .infinity (s != t)
  | .finite s m e, .finite t n f =>
    let q := quotient (m * n) (e + f)
    ofQuotient (s != t) q.1 q.2

/-- The double next to a double with that many decimal places. -/
def roundPlaces (places : Nat) : Double → Double
  | .finite negative m e =>
    let q := quotient m e
    ofQuotient negative (roundQuotient (q.1 * Nat.pow 10 places) q.2) (Nat.pow 10 places)
  | x => x

/-! ### Order -/

/-- Whether one number is at most another.  Nothing is comparable to not-a-number. -/
def le : Double → Double → Bool
  | .nan, _ | _, .nan => false
  | .infinity s, .infinity t => s || !t
  | .infinity s, .finite _ _ _ => s
  | .finite _ _ _, .infinity t => !t
  | .finite s m e, .finite t n f =>
    decide (signedUnits s m e (min e f) ≤ signedUnits t n f (min e f))

/-- Whether two numbers are equal: the two zeros are, not-a-number is not even equal to itself. -/
def eqv (a b : Double) : Bool := a.le b && b.le a

/-- The integer between a finite number and zero that is nearest to the number. -/
def truncate (negative : Bool) (m : Nat) (e : Int) : Int :=
  let q := quotient m e
  if negative then -((q.1 / q.2 : Nat) : Int) else (q.1 / q.2 : Nat)

end Double

end PageDiff.Number
