import PageDiff.Json.Value
import PageDiff.Number.Reading
import PageDiff.Schema.Issue
import PageDiff.Text.Quoted

/-!
# Checking values

How the values of a document are taken as texts, numbers, booleans and lists.  Numbers and booleans
are taken from every value that can mean one: from texts that spell one, from each other where
nothing is lost.
-/

namespace PageDiff.Schema

open PageDiff.Json PageDiff.Number PageDiff.Text

/-- A check of a value. -/
abbrev Check (α : Type) := Value → Checked α

/-! ### Scalars -/

/-- A text of characters alone. -/
def checkString : Check String
  | .string s => .ok s
  | .torn _ => .fail .tornText
  | _ => .fail .notString

/-- A text, whatever it holds. -/
def checkLoose : Check Loose
  | .string s => .ok (.ofString s)
  | .torn t => .ok t
  | _ => .fail .notString

/-- A text, or its absence. -/
def checkOptionalString : Check (Option String)
  | .null => .ok none
  | v => (checkString v).map some

/-- The integer that a double is, if it is below `2 ^ 63` and has no fraction. -/
def checkWhole : Double → Checked Int
  | .nan | .infinity _ => .fail .notFinite
  | .finite negative m e =>
    let q := Double.quotient m e
    if q.1 % q.2 ≠ 0 then .fail .fraction
    else if Nat.pow 2 63 ≤ q.1 / q.2 then .fail .integerSize
    else .ok (Double.truncate negative m e)

def checkInteger : Check Int
  | .number (.int n) => .ok n
  | .number (.double x) => checkWhole x
  | .bool b => .ok (if b then 1 else 0)
  | .string s =>
    match readInteger s.toList with
    | none => .fail .integerText
    | some n => .ok n
  | .torn _ => .fail .tornText
  | _ => .fail .notInteger

/-- A double.  An integer that is too large for one is none. -/
def checkDouble : Check Double
  | .number (.double x) => .ok x
  | .number (.int n) =>
    match Double.ofInt n with
    | .infinity _ => .fail .notNumber
    | x => .ok x
  | .bool b => .ok (.ofInt (if b then 1 else 0))
  | .string s =>
    match readDouble s.toList with
    | none => .fail .numberText
    | some x => .ok x
  | .torn _ => .fail .tornText
  | _ => .fail .notNumber

/-- The texts that mean true and those that mean false, in lower case. -/
def booleanTexts : List (String × Bool) :=
  [("true", true), ("t", true), ("yes", true), ("y", true), ("on", true), ("1", true),
    ("false", false), ("f", false), ("no", false), ("n", false), ("off", false), ("0", false)]

/-- The integer of 64 bits that a number is. -/
def wholeNumber? : Numeric → Option Int
  | .int n => if -(Nat.pow 2 63 : Nat) ≤ n ∧ n < (Nat.pow 2 63 : Nat) then some n else none
  | .double x =>
    match checkWhole x with
    | .ok n => some n
    | .bad _ => none

/-- A boolean.  A number means one if it is zero or one, and no other integer of 64 bits does. -/
def checkBoolean : Check Bool
  | .bool b => .ok b
  | .number n =>
    match wholeNumber? n with
    | some 0 => .ok false
    | some 1 => .ok true
    | some _ => .fail .booleanText
    | none => .fail .notBoolean
  | .string s =>
    match booleanTexts.lookup (String.ofList (s.toList.map Char.toLower)) with
    | some b => .ok b
    | none => .fail .booleanText
  | .torn _ => .fail .tornText
  | _ => .fail .notBoolean

/-! ### Lists and fields -/

/-- A list whose items all pass a check. -/
def checkList (complaint : Complaint) (check : Check α) : Check (List α)
  | .array vs => Checked.items (fun i v => (check v).within (.index i)) 0 vs
  | _ => .fail complaint

abbrev Members := List (String × Value)

/-- A member that must be there. -/
def required (members : Members) (key : String) (check : Check α) : Checked α :=
  Checked.within (.key key) <|
    match member? members key with
    | some v => check v
    | none => .fail .missing

/-- A member that has a value of its own if it is not there. -/
def optional (members : Members) (key : String) (default : α) (check : Check α) : Checked α :=
  match member? members key with
  | some v => (check v).within (.key key)
  | none => .ok default

/-- An object that describes a thing of its own. -/
def checkModel (model : String) (check : Members → Checked α) : Check α
  | .object members => check members
  | _ => .fail (.notModel model)

/-! ### Tags -/

mutual

/-- A value as plain text. -/
def plainText : Value → String
  | .null => "None"
  | .bool b => if b then "True" else "False"
  | .number (.int n) => toString n
  | .number (.double x) => x.text messageSpelling
  | .string s => quoted s
  | .torn t => quoted t.shown
  | .array vs => "[" ++ plainItems vs ++ "]"
  | .object members => "\x7b" ++ plainMembers members ++ "\x7d"

/-- The items of a list as plain text. -/
def plainItems : List Value → String
  | [] => ""
  | [v] => plainText v
  | v :: vs => plainText v ++ ", " ++ plainItems vs

/-- The members of an object as plain text. -/
def plainMembers : List (String × Value) → String
  | [] => ""
  | [(key, v)] => quoted key ++ ": " ++ plainText v
  | (key, v) :: members => quoted key ++ ": " ++ plainText v ++ ", " ++ plainMembers members

end

/-- A tag as plain text, without quotes if it is a text itself. -/
def tagText : Value → String
  | .string s => s
  | v => plainText v

/-- An object whose `kind` chooses how it is checked. -/
def checkTagged (kinds : List (String × (Members → Checked α))) : Check α
  | .object members =>
    match member? members "kind" with
    | none => .fail .noTag
    | some tag =>
      let unknown : Checked α := .fail (.unknownTag (tagText tag) (kinds.map (·.1)))
      match tag with
      | .string kind =>
        match kinds.lookup kind with
        | some check => (check members).within (.key kind)
        | none => unknown
      | _ => unknown
  | _ => .fail .notTagged

end PageDiff.Schema
