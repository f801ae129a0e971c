/-!
# Decimal numerals

Runs of ASCII digits and the numbers they spell.  A run of more than 4300 digits is refused, zeros
in front counted.
-/

namespace PageDiff.Text

/-- A numeral that is too long to be read: the number of its digits. -/
structure TooManyDigits where
  count : Nat
  deriving DecidableEq, Repr

/-- The most digits that a numeral may have. -/
def digitLimit : Nat := 4300

def TooManyDigits.message (e : TooManyDigits) : String :=
  s!"Exceeds the limit ({digitLimit} digits) for integer string conversion: "
    ++ s!"value has {e.count} digits; use sys.set_int_max_str_digits() to increase the limit"

/-- The value of a run of digits. -/
def digitsValue (cs : List Char) : Nat := cs.foldl (fun n c => n * 10 + (c.toNat - '0'.toNat)) 0

/-- Whether a text is a run of at least one ASCII digit. -/
def isNumeral (cs : List Char) : Bool := !cs.isEmpty && cs.all Char.isDigit

/-- The value of a numeral, unless it is too long. -/
def readNumeral (cs : List Char) : Except TooManyDigits Nat :=
  if cs.length > digitLimit then .error ⟨cs.length⟩ else .ok (digitsValue cs)

end PageDiff.Text
