import PageDiff.Config
import PageDiff.Image.Compare
import PageDiff.Path.Encoding
import PageDiff.Url.Error

/-!
# Faults

What can go wrong outside the program's own rules: in the browser, on the disk, in a document.
Which faults a step of a run takes as an answer and which it lets through is decided by their
families.
-/

namespace PageDiff

open PageDiff.Text PageDiff.Schema

/-- A fault. -/
inductive Fault
  /-- The browser refuses. -/
  | browser (text : String)
  /-- The browser has waited too long. -/
  | browserTimeout (text : String)
  /-- Something else has waited too long. -/
  | timeout (text : String)
  | value (text : String)
  | runtime (text : String)
  /-- Something is looked up that is not there. -/
  | key (name : String)
  /-- The system refuses. -/
  | system (text : String)
  | url (e : Url.Error)
  | disk (e : DiskError)
  /-- A text that can not be a path. -/
  | unencodable (e : Path.Unencodable)
  /-- Bytes that are no picture. -/
  | noPicture
  /-- A picture without pixels, which can not be encoded. -/
  | emptyPicture
  | cutoff (e : Image.CutoffError)
  | encoding (e : Utf8.Malformed)
  | config (e : Config.Error)
  | configMissing (path : String)
  /-- The work has been called off. -/
  | cancelled
  deriving DecidableEq

namespace Fault

def kindName : Fault → String
  | .browser _ => "Error"
  | .browserTimeout _ => "TimeoutError"
  | .timeout _ => "TimeoutError"
  | .value _ => "ValueError"
  | .runtime _ => "RuntimeError"
  | .key _ => "KeyError"
  | .system _ => "OSError"
  | .url _ => "ValueError"
  | .disk .nullCharacter => "ValueError"
  | .disk (.refused code _) | .disk (.notEmptied code _) => code.kindName
  | .unencodable _ => "UnicodeEncodeError"
  | .noPicture => "UnidentifiedImageError"
  | .emptyPicture => "ValueError"
  | .cutoff .nan => "ValueError"
  | .cutoff .infinite => "OverflowError"
  | .encoding _ => "UnicodeDecodeError"
  | .config (.document (.flaw ..)) => "JSONDecodeError"
  | .config (.document (.tooLong _)) => "ValueError"
  | .config (.document (.tooDeep _)) => "RecursionError"
  | .config (.notObject _) => "TypeError"
  | .config (.invalid _) => "ValidationError"
  | .configMissing _ => "FileNotFoundError"
  | .cancelled => "CancelledError"

def message : Fault → String
  | .browser text | .browserTimeout text | .timeout text | .value text | .runtime text
  | .system text => text
  | .key name => quoted name
  | .url e => e.message
  | .disk e => e.message
  | .unencodable e => e.message
  | .noPicture => "cannot identify image file <_io.BytesIO object>"
  | .emptyPicture => "cannot write empty image"
  | .cutoff e => e.message
  | .encoding e => e.message
  | .config e => e.message
  | .configMissing path => s!"Config file not found: {path}"
  | .cancelled => ""

def isBrowser : Fault → Bool
  | .browser _ | .browserTimeout _ => true
  | _ => false

def isValue : Fault → Bool
  | .value _ | .url _ | .disk .nullCharacter | .unencodable _ | .emptyPicture | .cutoff .nan
  | .encoding _ | .config (.document (.flaw ..)) | .config (.document (.tooLong _))
  | .config (.invalid _) => true
  | _ => false

def isSystem : Fault → Bool
  | .system _ | .timeout _ | .disk (.refused ..) | .disk (.notEmptied ..) | .noPicture
  | .configMissing _ => true
  | _ => false

def ofLoadError : Config.LoadError → Fault
  | .missing path => .configMissing path
  | .disk e => .disk e
  | .encoding e => .encoding e
  | .config e => .config e

end Fault

end PageDiff
