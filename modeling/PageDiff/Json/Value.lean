import PageDiff.Number.Numeric
import PageDiff.Text.Utf16

/-!
# Documents

The values of a JSON document.  A text of a document is spelled by UTF-16 units, which need not
stand for characters alone.  The members of an object stand in the order in which they are written;
a key may be written more than once and then its last member counts.
-/

namespace PageDiff.Json

open PageDiff.Number PageDiff.Text

/-- A value of a document. -/
inductive Value
  | null
  | bool (b : Bool)
  | number (n : Numeric)
  | string (s : String)
  /-- A text with halves of surrogate pairs that stand alone. -/
  | torn (text : Loose)
  | array (items : List Value)
  | object (members : List (String × Value))

namespace Value

def int (n : Int) : Value := .number (.int n)

def double (x : Double) : Value := .number (.double x)

def ofLoose (t : Loose) : Value :=
  match t.toString? with
  | some s => .string s
  | none => .torn t

/-- A text that is given by its units. -/
def ofUnits (units : List UInt16) : Value := ofLoose (.ofUnits units)

@[simp] theorem ofLoose_ofString (s : String) : ofLoose (.ofString s) = .string s := by
  simp [ofLoose]

theorem ofUnits_encode (s : String) : ofUnits (Utf16.encode s.toList) = .string s := by
  rw [ofUnits, Loose.ofUnits_encode]
  exact ofLoose_ofString s

def ofString? : Option String → Value
  | none => .null
  | some s => .string s

end Value

def member? (members : List (String × Value)) (key : String) : Option Value :=
  members.reverse.lookup key

end PageDiff.Json
