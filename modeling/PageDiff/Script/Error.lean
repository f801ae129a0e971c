import PageDiff.Script.Field
import PageDiff.Url.Error

/-!
# Why a script does not compile

The causes, their wording, and where they are placed: on a line, in a script.
-/

namespace PageDiff.Script

open PageDiff.Text

/-- What is wrong with a line, or with the script as a whole. -/
inductive Problem
  | size (e : SizeError)
  | originCount (args : String)
  | origin (text : String) (e : Url.Error)
  | url (text : String) (e : Url.Error)
  | duplicateTest (name : String)
  | duplicatePathname (pathname : String)
  /-- An action or an element capture without a selector. -/
  | noSelector (directive : String)
  /-- A directive that needs two origins before there are any. -/
  | noCompare (directive : String)
  | noPathname
  | captureKind (kind : String)
  | unknownDirective (text : String)
  /-- The file with the script can not be read. -/
  | unreadable (reason : String)
  deriving DecidableEq, Repr

def Problem.message : Problem → String
  | .size e => e.message
  | .originCount args => s!"compare requires exactly two origins, got {quoted args}"
  | .origin text e => s!"invalid origin {quoted text}: {e.message}"
  | .url text e => s!"invalid url {quoted text}: {e.message}"
  | .duplicateTest name => s!"duplicate test name {quoted name}"
  | .duplicatePathname pathname => s!"duplicate test with pathname {quoted pathname}"
  | .noSelector directive => s!"{directive} requires a selector"
  | .noCompare directive => s!"missing compare for {directive}"
  | .noPathname => "missing pathname for capture"
  | .captureKind kind => s!"unknown capture kind {quoted kind}"
  | .unknownDirective text => s!"invalid syntax {quoted text}"
  | .unreadable reason => s!"cannot read script: {reason}"

/-- A message with the line and the script that it is about.  An empty name of a script is left
out. -/
def placed (message : String) (line : Option Int) (script : Option String) : String :=
  let text :=
    match line with
    | some n => s!"{message} on line {n}"
    | none => message
  match script with
  | some name => if name = "" then text else s!"{name}: {text}"
  | none => text

/-- A problem in its place. -/
structure CompileError where
  problem : Problem
  line : Option Int := none
  script : Option String := none
  deriving DecidableEq, Repr

def CompileError.message (e : CompileError) : String := placed e.problem.message e.line e.script

end PageDiff.Script
