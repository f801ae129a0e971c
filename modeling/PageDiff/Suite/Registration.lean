/-!
# Options of a test suite

What a test suite has to be told before it can run scripts: the options of its command line and the
settings of its own that select them.
-/

namespace PageDiff.Suite

/-- Something that a suite is told about. -/
inductive Registration
  /-- The options that follow belong together. -/
  | group (name : String)
  /-- An option with a value, which is absent by default. -/
  | option (flag target help placeholder : String)
  /-- A setting of the suite with its default. -/
  | setting (name help default : String)
  deriving DecidableEq, Repr

/-- The setting that selects scripts when no option does. -/
def patternSetting : String := "screentest_glob"

/-- What a suite is told, in order. -/
def registrations : List Registration :=
  [.group "screentest",
    .option "--screentest" patternSetting "glob of screentest scripts to run" "PATTERN",
    .option "--screentest-config" "screentest_config" "screentest JSON config file" "PATH",
    .setting patternSetting "glob of screentest scripts to run" ""]

end PageDiff.Suite
