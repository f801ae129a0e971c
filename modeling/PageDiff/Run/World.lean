import PageDiff.Browser.Driver

/-!
# The world of a run

What a run changes: the disk, the calls made to the browser, the log, the clock, what it has
reported and printed.  A `Run` is a computation on that world which may end with a failure; what it
has changed until then stays changed.
-/

namespace PageDiff

open PageDiff.Browser PageDiff.Number

namespace Run

/-- How grave a line of the log is. -/
inductive Level
  | debug
  | info
  | warning
  | error
  deriving DecidableEq, Repr

def Level.name : Level → String
  | .debug => "DEBUG"
  | .info => "INFO"
  | .warning => "WARNING"
  | .error => "ERROR"

structure LogLine where
  level : Level
  text : String
  deriving DecidableEq, Repr

/-- What a reporter is told about a test case. -/
inductive Notice
  | started (script : Path) (name : String)
  | finished (script : Path) (name result : String)
  deriving DecidableEq, Repr

/-- Something printed: a line with style tags, or a table with its headings in the first row. -/
inductive Printed
  | line (markup : String)
  | table (title : String) (rows : List (List String))
  deriving DecidableEq, Repr

/-- What a run changes. -/
structure World where
  disk : Disk
  trace : List Event := []
  log : List LogLine := []
  clock : Double := .zero
  notices : List Notice := []
  console : List Printed := []
  /-- What has been written for prompts, and what was typed after them. -/
  output : String := ""

/-- What a run depends on and does not change. -/
structure Environment where
  driver : Driver
  /-- How far the clock goes on whenever it is read. -/
  tick : Double := .zero
  /-- The time of day in a format. -/
  timeOfDay : String → String := id
  /-- The directory of caches. -/
  caches : Path

/-- The directory of the artifacts if the settings name none. -/
def Environment.outputRoot (env : Environment) : String := Config.defaultOutputRoot env.caches

def Environment.defaultConfig (env : Environment) : Config :=
  { outputRoot := .ofString env.outputRoot }

end Run

/-- A computation on the world that may fail. -/
abbrev Run (ε α : Type) := ExceptT ε (StateM Run.World) α

namespace Run

/-- Goes on with the failure put in other words. -/
def mapError (f : ε → ε') (x : Run ε α) : Run ε' α := fun w =>
  match x w with
  | (.ok a, w) => (.ok a, w)
  | (.error e, w) => (.error (f e), w)

/-- Whether a computation fails, as a value. -/
def attempt (x : Run ε α) : Run ε' (Except ε α) := fun w =>
  let (r, w) := x w
  (.ok r, w)

/-- A computation that is cleaned up after, however it ends.  A failure of the cleaning replaces how
it ended. -/
def cleanedUp (body : Run ε α) (cleanup : Run ε Unit) : Run ε α := fun w =>
  let (r, w) := body w
  match cleanup w with
  | (.ok _, w) => (r, w)
  | (.error e, w) => (.error e, w)

/-- The outcome of something that can only succeed or fail. -/
def ofExcept (r : Except ε α) : Run ε α := fun w => (r, w)

/-- What happens on the disk. -/
def onDisk (op : Disk → Disk.Outcome) : Run DiskError Unit := fun w =>
  let (d, r) := op w.disk
  (r, { w with disk := d })

/-- A question to the disk. -/
def askDisk (question : Disk → α) : Run ε α := fun w => (.ok (question w.disk), w)

/-- A line for the log. -/
def logLine (level : Level) (text : String) : Run ε Unit := fun w =>
  (.ok (), { w with log := w.log ++ [⟨level, text⟩] })

/-- The time on the clock, which goes on before it is read. -/
def now (env : Environment) : Run ε Double := fun w =>
  let t := w.clock.add env.tick
  (.ok t, { w with clock := t })

/-! ### Calls to the browser -/

/-- Why a call did not succeed. -/
inductive Interruption
  | fault (f : Fault)
  /-- The call was waited for in vain. -/
  | expired
  deriving DecidableEq

/-- A call that is only noted down. -/
def note (e : Event) : Run ε Unit := fun w => (.ok (), { w with trace := w.trace ++ [e] })

/-- A call, noted down before it is answered. -/
def call (driver : Driver) (e : Event) : Run Interruption Unit := fun w =>
  let next := { w with trace := w.trace ++ [e] }
  match driver.reply w.trace e with
  | .done => (.ok (), next)
  | .fails f => (.error (.fault f), next)
  | .hangs => (.error .expired, next)

/-- Calls one after the other, up to the first that does not succeed. -/
def callAll (driver : Driver) : List Event → Run Interruption Unit
  | [] => pure ()
  | e :: es => do
    call driver e
    callAll driver es

/-- A call that nothing limits.  If it never returns, the work is called off. -/
def callUnlimited (driver : Driver) (e : Event) : Run Fault Unit :=
  (call driver e).mapError fun
    | .fault f => f
    | .expired => .cancelled

end Run

end PageDiff
