/-!
# Issues of a document

What is wrong with the values of a document that should describe a known thing: where the value
stands, and what it should have been.
-/

namespace PageDiff.Schema

/-- One step into a document. -/
inductive Step
  | key (name : String)
  | index (i : Nat)
  deriving DecidableEq, Repr

/-- What is wrong with a value. -/
inductive Complaint
  | missing
  | notString
  | tornText
  | notInteger
  | fraction
  | notFinite
  | integerSize
  | integerText
  | notNumber
  | numberText
  | notBoolean
  | booleanText
  | notList
  | notTuple
  | notModel (model : String)
  | notTagged
  | noTag
  | unknownTag (tag : String) (known : List String)
  | dimension
  | threshold
  deriving DecidableEq, Repr

namespace Complaint

def kind : Complaint → String
  | .missing => "missing"
  | .notString => "string_type"
  | .tornText => "string_unicode"
  | .notInteger => "int_type"
  | .fraction => "int_from_float"
  | .notFinite => "finite_number"
  | .integerSize => "int_parsing_size"
  | .integerText => "int_parsing"
  | .notNumber => "float_type"
  | .numberText => "float_parsing"
  | .notBoolean => "bool_type"
  | .booleanText => "bool_parsing"
  | .notList => "list_type"
  | .notTuple => "tuple_type"
  | .notModel _ => "model_type"
  | .notTagged => "model_attributes_type"
  | .noTag => "union_tag_not_found"
  | .unknownTag _ _ => "union_tag_invalid"
  | .dimension | .threshold => "value_error"

/-- Texts in single quotes with commas between them. -/
def quotedList (texts : List String) : String :=
  ", ".intercalate (texts.map fun t => s!"'{t}'")

def message : Complaint → String
  | .missing => "Field required"
  | .notString => "Input should be a valid string"
  | .tornText => "Input should be a valid string, unable to parse raw data as a unicode string"
  | .notInteger => "Input should be a valid integer"
  | .fraction => "Input should be a valid integer, got a number with a fractional part"
  | .notFinite => "Input should be a finite number"
  | .integerSize => "Unable to parse input string as an integer, exceeded maximum size"
  | .integerText => "Input should be a valid integer, unable to parse string as an integer"
  | .notNumber => "Input should be a valid number"
  | .numberText => "Input should be a valid number, unable to parse string as a number"
  | .notBoolean => "Input should be a valid boolean"
  | .booleanText => "Input should be a valid boolean, unable to interpret input"
  | .notList => "Input should be a valid list"
  | .notTuple => "Input should be a valid tuple"
  | .notModel model => s!"Input should be a valid dictionary or instance of {model}"
  | .notTagged => "Input should be a valid dictionary or object to extract fields from"
  | .noTag => "Unable to extract tag using discriminator 'kind'"
  | .unknownTag tag known =>
    s!"Input tag '{tag}' found using 'kind' does not match any of the expected tags: "
      ++ quotedList known
  | .dimension => "Value error, browser dimensions must be positive"
  | .threshold => "Value error, diff_threshold must be between 0 and 1"

end Complaint

/-- A complaint about the value at a place. -/
structure Issue where
  place : List Step
  complaint : Complaint
  deriving DecidableEq, Repr

/-- A value that has been checked, or everything that is wrong with it. -/
inductive Checked (α : Type)
  | ok (value : α)
  | bad (issues : List Issue)

namespace Checked

/-- A complaint about a value as a whole. -/
def fail (c : Complaint) : Checked α := .bad [⟨[], c⟩]

/-- Something made of a checked value. -/
def map (f : α → β) : Checked α → Checked β
  | .ok a => .ok (f a)
  | .bad issues => .bad issues

/-- One more check of a value that has passed. -/
def andThen (x : Checked α) (check : α → Checked β) : Checked β :=
  match x with
  | .ok a => check a
  | .bad issues => .bad issues

/-- What is wrong with a value, as seen from one step further out. -/
def within (step : Step) : Checked α → Checked α
  | .ok a => .ok a
  | .bad issues => .bad (issues.map fun i => { i with place := step :: i.place })

/-- Two checks side by side.  The issues of both are kept, the first one's first. -/
def both (f : Checked (α → β)) (x : Checked α) : Checked β :=
  match f, x with
  | .ok f, .ok a => .ok (f a)
  | .bad issues, .ok _ => .bad issues
  | .ok _, .bad issues => .bad issues
  | .bad issues, .bad more => .bad (issues ++ more)

instance : Applicative Checked where
  pure := .ok
  map := Checked.map
  seq f x := both f (x ())

@[simp] theorem map_ok (f : α → β) (a : α) : f <$> (.ok a : Checked α) = .ok (f a) := rfl

@[simp] theorem ok_seq_ok (f : α → β) (a : α) :
    (.ok f : Checked (α → β)) <*> .ok a = .ok (f a) :=
  rfl

/-- Side by side checks of the items of a list. -/
def items (check : Nat → α → Checked β) : Nat → List α → Checked (List β)
  | _, [] => .ok []
  | i, a :: as => List.cons <$> check i a <*> items check (i + 1) as

end Checked

end PageDiff.Schema
