import PageDiff.Schema.Field
import PageDiff.Script.Case

/-!
# Test cases in documents

`checkTestCase` takes a test case from the members of an object, and `TestCase.members` writes one
that is taken back as the same test case.
-/

namespace PageDiff.Schema

open PageDiff.Json PageDiff.Script

def checkAction : Check Action :=
  checkTagged
    [("click", fun m => (required m "selector" checkString).map .click),
      ("wait", fun m => (required m "selector" checkString).map .wait)]

def checkCapture : Check Capture :=
  checkTagged
    [("fullpage", fun _ => .ok .fullPage), ("viewport", fun _ => .ok .viewport),
      ("element", fun m => (required m "selector" checkString).map .element)]

def checkTestCase (m : Members) : Checked TestCase :=
  TestCase.mk <$> required m "name" checkString
    <*> required m "pathname" checkString
    <*> required m "origin_a" checkString
    <*> required m "origin_b" checkString
    <*> optional m "actions" [] (checkList .notTuple checkAction)
    <*> optional m "viewport_width" 0 checkInteger
    <*> optional m "viewport_height" 0 checkInteger
    <*> optional m "capture" .viewport checkCapture

def ofAction (a : Action) : Value :=
  .object [("kind", .string a.kind), ("selector", .string a.selector)]

def ofCapture (c : Capture) : Value :=
  .object <|
    ("kind", .string c.kind) ::
      match c.selector? with
      | some s => [("selector", .string s)]
      | none => []

def ofTestCase (tc : TestCase) : Members :=
  [("name", .string tc.name), ("pathname", .string tc.pathname), ("origin_a", .string tc.originA),
    ("origin_b", .string tc.originB), ("actions", .array (tc.actions.map ofAction)),
    ("viewport_width", .int tc.width), ("viewport_height", .int tc.height),
    ("capture", ofCapture tc.capture)]

end PageDiff.Schema
