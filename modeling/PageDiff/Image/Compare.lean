import PageDiff.Image.Basic
import PageDiff.Number.Numeric

/-!
# Comparing two pictures

Two pictures are laid over white on a canvas that holds both, and a position counts as changed when
some channel differs there by more than a cutoff.  The rendered picture is red at the changed
positions and a pale grey copy of the first picture everywhere else.
-/

namespace PageDiff.Image

open PageDiff.Number

/-! ### The canvas -/

/-- One channel laid over white, to the nearest integer. -/
def overWhite (v alpha : Nat) : Nat :=
  let t := 255 * (255 - alpha) + v * alpha + 128
  (t / 256 + t) / 256

/-- A colour laid over white. -/
def Colour.flatten (c : Colour) : Colour where
  red := overWhite c.red c.alpha
  green := overWhite c.green c.alpha
  blue := overWhite c.blue c.alpha

/-- A picture laid over white on a canvas: white outside the picture. -/
def onCanvas (img : Image) (p : Nat × Nat) : Colour :=
  if p.1 < img.width ∧ p.2 < img.height then (img.colour p.1 p.2).flatten else .white

/-- The distance of two channels. -/
def distance (a b : Nat) : Nat := (a - b) + (b - a)

/-- The largest distance of a channel. -/
def Colour.difference (a b : Colour) : Nat :=
  max (max (distance a.red b.red) (distance a.green b.green)) (distance a.blue b.blue)

/-- Whether a position counts as changed. -/
def isChanged (a b : Image) (cutoff : Int) (p : Nat × Nat) : Bool :=
  decide (cutoff < (onCanvas a p).difference (onCanvas b p))

/-! ### The rendered picture -/

def Colour.brightness (c : Colour) : Nat :=
  (19595 * c.red + 38470 * c.green + 7471 * c.blue + 32768) / 65536

/-- The colour of changed positions. -/
def Colour.mark : Colour := { red := 255, green := 0, blue := 0 }

/-- The colour of an unchanged position: a tenth of its brightness, the rest white. -/
def Colour.faded (c : Colour) : Colour := .ofGrey ((2295 + c.brightness) / 10)

structure Comparison where
  image : Image
  changed : Nat
  total : Nat

/-- Compares two pictures. -/
def compareWith (a b : Image) (cutoff : Int) : Comparison :=
  let width := max a.width b.width
  let height := max a.height b.height
  { image := ofPixels width height fun p =>
      if isChanged a b cutoff p then .mark else (onCanvas a p).faded
    changed := (positions width height).countP (isChanged a b cutoff)
    total := width * height }

def Comparison.ratio (c : Comparison) : Double :=
  if c.total = 0 then .zero else .ofQuotient false c.changed c.total

/-! ### The cutoff -/

/-- A threshold that is no number of steps of a channel. -/
inductive CutoffError
  | nan
  | infinite
  deriving DecidableEq, Repr

def CutoffError.message : CutoffError → String
  | .nan => "cannot convert float NaN to integer"
  | .infinite => "cannot convert float infinity to integer"

/-- The steps of a channel that a threshold lets through: the threshold is a part of the range of a
channel, and a part of a step is cut off. -/
def cutoff (threshold : Numeric) : Except CutoffError Int :=
  match threshold.scale 255 with
  | .int n => .ok n
  | .double .nan => .error .nan
  | .double (.infinity _) => .error .infinite
  | .double (.finite negative m e) => .ok (Double.truncate negative m e)

def compare (a b : Image) (threshold : Numeric) : Except CutoffError Comparison :=
  (cutoff threshold).map (compareWith a b)

end PageDiff.Image
