/-!
# Pictures

A picture is a grid of pixels in one of six modes.  `Image.colour` reads a pixel of any mode as a
colour with an alpha channel.
-/

namespace PageDiff

/-- How the pixels of a picture are stored. -/
inductive Image.Mode
  | rgb
  | rgba
  | grey
  | greyAlpha
  /-- One byte per pixel, which is 0 for black and 255 for white. -/
  | bilevel
  /-- Two bytes per pixel, the lower one first. -/
  | deepGrey
  deriving DecidableEq, Repr

namespace Image.Mode

def table : List (String × Mode) :=
  [("RGB", .rgb), ("RGBA", .rgba), ("L", .grey), ("LA", .greyAlpha), ("1", .bilevel),
    ("I;16", .deepGrey)]

def name : Mode → String
  | .rgb => "RGB"
  | .rgba => "RGBA"
  | .grey => "L"
  | .greyAlpha => "LA"
  | .bilevel => "1"
  | .deepGrey => "I;16"

def ofName? (name : String) : Option Mode := table.lookup name

theorem ofName?_name (m : Mode) : ofName? m.name = some m := by
  cases m <;> decide

def pixelSize : Mode → Nat
  | .rgb => 3
  | .rgba => 4
  | .grey => 1
  | .greyAlpha => 2
  | .bilevel => 1
  | .deepGrey => 2

end Image.Mode

/-- A picture, row by row. -/
structure Image where
  mode : Image.Mode
  width : Nat
  height : Nat
  data : Array UInt8
  deriving DecidableEq

namespace Image

structure Colour where
  red : Nat
  green : Nat
  blue : Nat
  alpha : Nat := 255
  deriving DecidableEq, Repr

namespace Colour

def white : Colour := { red := 255, green := 255, blue := 255 }

/-- A colour with three equal channels. -/
def ofGrey (v : Nat) (alpha : Nat := 255) : Colour := { red := v, green := v, blue := v, alpha }

end Colour

/-- A byte of the data, zero if there is none. -/
def byte (img : Image) (i : Nat) : Nat := (img.data[i]?.getD 0).toNat

def colour (img : Image) (x y : Nat) : Colour :=
  let i := (y * img.width + x) * img.mode.pixelSize
  match img.mode with
  | .rgb => { red := img.byte i, green := img.byte (i + 1), blue := img.byte (i + 2) }
  | .rgba =>
    { red := img.byte i, green := img.byte (i + 1), blue := img.byte (i + 2),
      alpha := img.byte (i + 3) }
  | .grey => .ofGrey (img.byte i)
  | .greyAlpha => .ofGrey (img.byte i) (img.byte (i + 1))
  | .bilevel => .ofGrey (if img.byte i = 0 then 0 else 255)
  | .deepGrey => .ofGrey (min (img.byte i + 256 * img.byte (i + 1)) 255)

def isEmpty (img : Image) : Bool := img.width == 0 || img.height == 0

/-- The positions of a grid, row by row. -/
def positions (width height : Nat) : List (Nat × Nat) :=
  (List.range height).flatMap fun y => (List.range width).map fun x => (x, y)

/-- The picture in mode `rgb` whose pixel at each position is given. -/
def ofPixels (width height : Nat) (pixel : Nat × Nat → Colour) : Image where
  mode := .rgb
  width := width
  height := height
  data :=
    ((positions width height).flatMap fun p =>
      let c := pixel p
      [c.red.toUInt8, c.green.toUInt8, c.blue.toUInt8]).toArray

/-- The data of a picture, in which every white pixel of a bilevel picture is 255. -/
def normalizedData (mode : Mode) (data : Array UInt8) : Array UInt8 :=
  match mode with
  | .bilevel => data.map fun b => if b = 0 then 0 else 255
  | _ => data

end Image

end PageDiff
