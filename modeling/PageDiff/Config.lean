import PageDiff.Disk.File
import PageDiff.Json.Printer
import PageDiff.Json.Reader
import PageDiff.Schema.Field
import PageDiff.Text.Lines

/-!
# Settings of a run

The size of the browser's window, how it is started, how long a picture may take, how much two
pictures may differ, and where the artifacts go.  Settings are read from a JSON document and
written to one.
-/

namespace PageDiff

open PageDiff.Json PageDiff.Number PageDiff.Schema PageDiff.Text

/-- The settings of a run. -/
structure Config where
  width : Int := 1536
  height : Int := 960
  headless : Bool := true
  browserArgs : List Loose := []
  /-- The seconds that one picture may take. -/
  timeout : Numeric := .int 60
  /-- The part of the range of a channel by which two pixels may differ. -/
  threshold : Double := .ofQuotient false 1 10
  outputRoot : Loose
  deriving DecidableEq

namespace Config

/-- The size of the browser's window. -/
def window (c : Config) : Int × Int := (c.width, c.height)

/-! ### Where artifacts go -/

/-- A home directory that is only named by a tilde. -/
inductive HomeError
  | unknown
  deriving DecidableEq, Repr

def HomeError.message : HomeError → String
  | .unknown => "Could not determine home directory."

/-- The home directory that an environment names: no slash at its end, and the root if nothing is
left.  A tilde in front stands for no directory. -/
def homeDirectory (home : String) : Except HomeError Path :=
  let trimmed := (home.toList.reverse.dropWhile (· == '/')).reverse
  if trimmed.head? = some '~' then .error .unknown
  else .ok (.ofString (if trimmed = [] then "/" else String.ofList trimmed))

/-- The directory of caches: the one that an environment names, or else one below the home
directory. -/
def cacheDirectory (cache : Option String) (home : String) : Except HomeError Path :=
  match cache.getD "" with
  | "" => (homeDirectory home).map (·.child ".cache")
  | named => .ok (.ofString named)

/-- The directory of the artifacts if the settings name none. -/
def defaultOutputRoot (caches : Path) : String := (caches.child "screentest").text

/-! ### Checking -/

def checkDimension : Check Int := fun v =>
  (checkInteger v).andThen fun n => if n ≤ 0 then .fail .dimension else .ok n

def checkThreshold : Check Double := fun v =>
  (checkDouble v).andThen fun x =>
    if Double.zero.le x && x.le (.ofInt 1) then .ok x else .fail .threshold

def checkTimeout : Check Numeric := fun v => (checkDouble v).map .double

/-- Takes settings from the members of an object. -/
def check (outputRoot : String) (m : Members) : Checked Config :=
  let default : Config := { outputRoot := .ofString outputRoot }
  Config.mk <$> optional m "browser_width" default.width checkDimension
    <*> optional m "browser_height" default.height checkDimension
    <*> optional m "headless" default.headless checkBoolean
    <*> optional m "browser_args" default.browserArgs (checkList .notList checkLoose)
    <*> optional m "capture_timeout_seconds" default.timeout checkTimeout
    <*> optional m "diff_threshold" default.threshold checkThreshold
    <*> optional m "output_root" default.outputRoot checkLoose

/-! ### Documents -/

def members (c : Config) : Members :=
  [("browser_width", .int c.width), ("browser_height", .int c.height),
    ("headless", .bool c.headless),
    ("browser_args", .array (c.browserArgs.map .ofLoose)),
    ("capture_timeout_seconds", .number c.timeout), ("diff_threshold", .double c.threshold),
    ("output_root", .ofLoose c.outputRoot)]

/-- Why settings can not be taken from a text. -/
inductive Error
  | document (e : Json.Error)
  /-- The document is no object: what it is instead. -/
  | notObject (kind : String)
  | invalid (issues : List Issue)
  deriving DecidableEq

/-- The kind of a value that is no object. -/
def valueKind : Value → String
  | .null => "NoneType"
  | .bool _ => "bool"
  | .number (.int _) => "int"
  | .number (.double _) => "float"
  | .string _ | .torn _ => "str"
  | .array _ => "list"
  | .object _ => "dict"

/-- The words for settings that can not be taken.  Issues are told one by one and not in words. -/
def Error.message : Error → String
  | .document e => e.message
  | .notObject kind =>
    s!"screentest.models.config.RunnerConfig() argument after ** must be a mapping, not {kind}"
  | .invalid _ => ""

def ofValue (outputRoot : String) : Value → Except Error Config
  | .object m =>
    match check outputRoot m with
    | .ok c => .ok c
    | .bad issues => .error (.invalid issues)
  | v => .error (.notObject (valueKind v))

def ofText (outputRoot : String) (text : List Char) : Except Error Config :=
  match parse text with
  | .ok v => ofValue outputRoot v
  | .error e => .error (.document e)

def render (c : Config) : String := Json.render (.object c.members)

/-! ### Files -/

inductive LoadError
  | missing (path : String)
  | disk (e : DiskError)
  | encoding (e : Utf8.Malformed)
  | config (e : Error)

/-- Whether there is no file to load from. -/
def LoadError.isMissing : LoadError → Bool
  | .missing _ | .disk (.refused .noEntry _) => true
  | _ => false

def load (d : Disk) (outputRoot : String) (p : Path) : Except LoadError Config := do
  unless ← (d.exists? p).mapError .disk do throw (.missing p.text)
  let content ← (d.read p).mapError .disk
  let text ← (Utf8.decode content.data).mapError .encoding
  (ofText outputRoot (unixNewlines text)).mapError .config

def save (c : Config) (d : Disk) (p : Path) : Disk.Outcome := d.writeText p c.render

/-! ### Equality -/

/-- Whether a value writes out not-a-number for the time limit. -/
def spellsNan : Value → Bool
  | .object m =>
    match member? m "capture_timeout_seconds" with
    | some (.number (.double .nan)) => true
    | _ => false
  | _ => false

/-- Whether two settings are the same: numbers count by their values, of whatever kind they are. -/
def same (a b : Config) : Bool :=
  a.width == b.width && a.height == b.height && a.headless == b.headless
    && a.browserArgs == b.browserArgs && a.timeout.eqv b.timeout && a.threshold.eqv b.threshold
    && a.outputRoot == b.outputRoot

/-- Whether settings are the same as those of a document.  Not-a-number equals nothing, unless both
are spelled out in a document: there it is one and the same value. -/
def sameAsDocument (a : Config) (source : Value) (outputRoot : String) (text : List Char) : Bool :=
  match parse text with
  | .error _ => false
  | .ok v =>
    match ofValue outputRoot v with
    | .error _ => false
    | .ok b =>
      if spellsNan source && spellsNan v then
        { a with timeout := .int 0 }.same { b with timeout := .int 0 }
      else a.same b

end Config

end PageDiff
