import PageDiff.Number.Decimal

/-!
# Numbers as text

How numbers are written: in documents and messages with the fewest digits that read back, in a
time limit with six digits at most, in a summary with one decimal place.
-/

namespace PageDiff.Number

/-- The spelling of the numbers that have no digits. -/
structure Spelling where
  nan : String
  infinity : String
  negativeInfinity : String

def documentSpelling : Spelling := ⟨"NaN", "Infinity", "-Infinity"⟩

def messageSpelling : Spelling := ⟨"nan", "inf", "-inf"⟩

/-- Digits with a point after the first `n` of them and zeros where there are none. -/
def positional (digits : List Char) (n : Int) : List Char :=
  if n ≤ 0 then '0' :: '.' :: (List.replicate (-n).toNat '0' ++ digits)
  else
    let whole := digits.take n.toNat
    let rest := digits.drop n.toNat
    whole ++ List.replicate (n.toNat - digits.length) '0' ++ (if rest = [] then [] else '.' :: rest)

/-- Digits with a point after the first, and the exponent of ten, of two digits at least. -/
def scientific (digits : List Char) (exponent : Int) : List Char :=
  let power := Nat.toDigits 10 exponent.natAbs
  let rest := digits.drop 1
  digits.take 1 ++ (if rest = [] then [] else '.' :: rest) ++
    ['e', if exponent < 0 then '-' else '+'] ++
    List.replicate (2 - power.length) '0' ++ power

namespace Double

/-- A sign in front of the text of a size. -/
def signed (negative : Bool) (text : List Char) : String :=
  String.ofList (if negative then '-' :: text else text)

/-- A double with the fewest digits that read back.  It is written without an exponent from
`0.0001` up to `10 ^ 16`, and then it always has a point. -/
def text (spelling : Spelling) : Double → String
  | .nan => spelling.nan
  | .infinity negative => if negative then spelling.negativeInfinity else spelling.infinity
  | .finite negative m e =>
    if m = 0 then signed negative ['0', '.', '0']
    else
      let d := shortest m e
      let n := d.pointPosition
      if -4 < n ∧ n ≤ 16 then
        let body := positional d.text n
        signed negative (if body.contains '.' then body else body ++ ['.', '0'])
      else signed negative (scientific d.text (n - 1))

/-- A double with six digits at most.  It is written without an exponent from `0.0001` up to
`10 ^ 6`. -/
def generalText : Double → String
  | .nan => messageSpelling.nan
  | .infinity negative =>
    if negative then messageSpelling.negativeInfinity else messageSpelling.infinity
  | .finite negative m e =>
    if m = 0 then signed negative ['0']
    else
      let d := significant 6 m e
      let n := d.pointPosition
      if -4 < n ∧ n ≤ 6 then signed negative (positional d.text n)
      else signed negative (scientific d.text (n - 1))

/-- A double with one decimal place. -/
def tenthsText : Double → String
  | .nan => messageSpelling.nan
  | .infinity negative =>
    if negative then messageSpelling.negativeInfinity else messageSpelling.infinity
  | .finite negative m e =>
    let q := quotient m e
    let tenths := roundQuotient (q.1 * 10) q.2
    signed negative (Nat.toDigits 10 (tenths / 10) ++ '.' :: Nat.toDigits 10 (tenths % 10))

end Double

end PageDiff.Number
