import PageDiff.Number.Numeric
import PageDiff.Text.Blank
import PageDiff.Text.Numeral

/-!
# Reading numbers

Numbers in a document are read by `scanNumber`, as far as a number goes.  Numbers that stand in
texts are read by `readDouble` and `readInteger`, which take a whole text and are more lenient:
about blanks, a sign in front, underscores, and zeros that change nothing.
-/

namespace PageDiff.Number

open PageDiff.Text

/-! ### Numbers of a document -/

/-- Why no number can be made of what is there. -/
inductive ScanError
  /-- No number starts here. -/
  | noNumber
  /-- An integer whose numeral is too long. -/
  | tooLong (e : TooManyDigits)
  deriving DecidableEq, Repr

/-- The fraction behind a point, if at least one digit follows the point. -/
def scanFraction : List Char → Option (List Char) × List Char
  | '.' :: cs =>
    let digits := cs.takeWhile Char.isDigit
    if digits = [] then (none, '.' :: cs) else (some digits, cs.dropWhile Char.isDigit)
  | cs => (none, cs)

/-- The sign of an exponent, if there is one. -/
def scanSign : List Char → Bool × List Char
  | '-' :: cs => (true, cs)
  | '+' :: cs => (false, cs)
  | cs => (false, cs)

/-- The exponent behind an `e`, if at least one digit follows. -/
def scanExponent : List Char → Option Int × List Char
  | c :: cs =>
    if c = 'e' ∨ c = 'E' then
      let (negative, rest) := scanSign cs
      let digits := rest.takeWhile Char.isDigit
      if digits = [] then (none, c :: cs)
      else
        let n : Int := digitsValue digits
        (some (if negative then -n else n), rest.dropWhile Char.isDigit)
    else (none, c :: cs)
  | [] => (none, [])

/-- The whole part of a number: a zero, or digits that do not start with one. -/
def scanWhole : List Char → List Char × List Char
  | '0' :: cs => (['0'], cs)
  | cs => (cs.takeWhile Char.isDigit, cs.dropWhile Char.isDigit)

/-- The double with these digits in front of and behind the point. -/
def ofParts (negative : Bool) (whole fraction : List Char) (exponent : Int) : Double :=
  .ofDecimal negative (digitsValue (whole ++ fraction)) (exponent - fraction.length)

/-- The number at the start of a text, and what follows it.  A point or an exponent makes it a
double. -/
def scanNumber (cs : List Char) : Except ScanError (Numeric × List Char) :=
  let (negative, unsigned) :=
    match cs with
    | '-' :: rest => (true, rest)
    | _ => (false, cs)
  let (whole, afterWhole) := scanWhole unsigned
  if whole = [] then .error .noNumber
  else
    let (fraction, afterFraction) := scanFraction afterWhole
    let (exponent, rest) := scanExponent afterFraction
    match fraction, exponent with
    | none, none =>
      match readNumeral whole with
      | .error e => .error (.tooLong e)
      | .ok n => .ok (.int (if negative then -(n : Int) else n), rest)
    | _, _ => .ok (.double (ofParts negative whole (fraction.getD []) (exponent.getD 0)), rest)

/-! ### Numbers in texts -/

/-- The blanks around a number in a text: those of `isBlank` that are no separators of data. -/
def isNumberBlank (c : Char) : Bool := isBlank c && !inRanges [(0x1C, 0x1F)] c.toNat

/-- A text without its underscores, if none stands at an end of it and no two stand side by side. -/
def dropUnderscores (cs : List Char) : Option (List Char) :=
  if cs.head? = some '_' ∨ cs.getLast? = some '_' ∨
      (cs.zip cs.tail).contains ('_', '_') then none
  else some (cs.filter (· != '_'))

/-- The whole of a text as the digits of a number: digits, a point, an exponent. -/
def readDigits (negative : Bool) (cs : List Char) : Option Double :=
  let whole := cs.takeWhile Char.isDigit
  let (fraction, rest) :=
    match cs.dropWhile Char.isDigit with
    | '.' :: rest => (rest.takeWhile Char.isDigit, rest.dropWhile Char.isDigit)
    | rest => ([], rest)
  if whole = [] ∧ fraction = [] then none
  else
    match scanExponent rest with
    | (exponent, []) => some (ofParts negative whole fraction (exponent.getD 0))
    | _ => none

/-- A text without blanks and underscores as a double: digits, or the name of an infinity or of
not-a-number in any case. -/
def readPlainDouble (cs : List Char) : Option Double :=
  let (negative, body) := scanSign cs
  let name := String.ofList (body.map Char.toLower)
  if name = "inf" ∨ name = "infinity" then some (.infinity negative)
  else if name = "nan" then some .nan
  else readDigits negative body

/-- A text as a double.  There may be blanks around it or single underscores inside it, wherever
they stand, but not both. -/
def readDouble (cs : List Char) : Option Double :=
  match readPlainDouble (trimBy isNumberBlank cs) with
  | some x => some x
  | none => (dropUnderscores cs).bind readPlainDouble

/-- A text as an integer in its shortest form: perhaps a hyphen, then digits of which the first is
no zero unless it stands alone. -/
def readPlainInteger (cs : List Char) : Option Int :=
  let (negative, digits) :=
    match cs with
    | '-' :: digits => (true, digits)
    | _ => (false, cs)
  if !isNumeral digits || (digits.length != 1 && digits.head? == some '0') then none
  else
    match readNumeral digits with
    | .error _ => none
    | .ok n => some (if negative then -(n : Int) else n)

/-- A text that starts with a digit, without the zeros in front and the underscores among them.  The
last zero stays if nothing or a point follows it, and a hyphen may follow the zeros. -/
def dropZeros (cs : List Char) : Option (List Char) :=
  let isFiller (c : Char) : Bool := c == '0' || c == '_'
  match cs.takeWhile isFiller, cs.dropWhile isFiller with
  | [], c :: rest => if c.isDigit then some (c :: rest) else none
  | '0' :: fillers, c :: rest =>
    if c = '.' then
      if fillers.getLast? = some '_' then none else some ('0' :: c :: rest)
    else if c = '-' ∨ c.isDigit then some (c :: rest)
    else none
  | '0' :: fillers, [] => if fillers.getLast? = some '_' then none else some ['0']
  | _, _ => none

/-- A text without the point and the zeros at its end. -/
def dropZeroFraction (cs : List Char) : List Char :=
  match cs.dropWhile (· != '.') with
  | _ :: zeros => if !zeros.isEmpty && zeros.all (· == '0') then cs.takeWhile (· != '.') else cs
  | [] => cs

/-- A text as an integer.  There may be blanks around it, a sign and zeros in front, a point with
zeros behind it, and single underscores. -/
def readInteger (cs : List Char) : Option Int :=
  let shorten (sign digits : List Char) : Option Int := do
    let rest ← dropZeros digits
    readPlainInteger (← dropUnderscores (dropZeroFraction (sign ++ rest)))
  match trimBy isNumberBlank cs with
  | '-' :: digits => shorten ['-'] digits
  | '+' :: digits => shorten [] digits
  | digits => shorten [] digits

end PageDiff.Number
