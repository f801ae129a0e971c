import Mathlib.Algebra.Order.Group.Abs
import Mathlib.Algebra.Order.Ring.Int
import Mathlib.Tactic.Ring
import PageDiff.Proofs.Image.Pixels

/-!
# Flattening

A channel with an alpha channel is mixed with white: `alpha` parts of it and the rest of 255 parts
white, to the nearest integer.  This says which canvas shows a picture over white (`Flattens`),
without the arithmetic of bytes that `onCanvas` does; there is exactly one (`flattens_iff`).
-/

namespace PageDiff.Image

variable {v alpha m m' : ℕ} {c d : Colour} {img : Image} {A : ℕ × ℕ → Colour} {p : ℕ × ℕ}

/-! ### Mixtures -/

/-- The nearest integer to a mixture with white in 255 parts. -/
def IsMixture (v alpha m : ℕ) : Prop :=
  2 * |255 * (m : ℤ) - (alpha * v + (255 - alpha) * 255)| ≤ 255

theorem isMixture_iff : IsMixture v alpha m ↔
    -127 ≤ 255 * (m : ℤ) - (alpha * v + (255 - alpha) * 255) ∧
      255 * (m : ℤ) - (alpha * v + (255 - alpha) * 255) ≤ 127 := by
  rw [IsMixture, ← abs_le]
  omega

/-- No mixture lies half way between two integers. -/
theorem IsMixture.unique (h : IsMixture v alpha m) (h' : IsMixture v alpha m') : m = m' := by
  rw [isMixture_iff] at h h'
  omega

/-- A division by 255 to the nearest integer takes two divisions by 256. -/
theorem div_range_nearest {t : ℕ} (ht : t ≤ 65025) :
    255 * (((t + 128) / 256 + (t + 128)) / 256) ≤ t + 127 ∧
      t ≤ 255 * (((t + 128) / 256 + (t + 128)) / 256) + 127 := by
  omega

theorem isMixture_overWhite (hv : v ≤ 255) (halpha : alpha ≤ 255) :
    IsMixture v alpha (overWhite v alpha) := by
  have hprod : v * alpha ≤ 255 * alpha := Nat.mul_le_mul_right alpha hv
  obtain ⟨hhigh, hlow⟩ := div_range_nearest (t := 255 * (255 - alpha) + v * alpha) (by omega)
  have hparts : (alpha * v + (255 - alpha) * 255 : ℤ) = (255 * (255 - alpha) + v * alpha : ℕ) := by
    push_cast [halpha]
    ring
  rw [isMixture_iff, hparts, overWhite]
  omega

theorem overWhite_full (hv : v ≤ 255) : overWhite v 255 = v := by
  rw [overWhite]
  omega

theorem overWhite_clear (v : ℕ) : overWhite v 0 = 255 := by
  simp [overWhite]

theorem overWhite_le (hv : v ≤ 255) (halpha : alpha ≤ 255) : overWhite v alpha ≤ 255 := by
  have hprod : v * alpha ≤ 255 * alpha := Nat.mul_le_mul_right alpha hv
  rw [overWhite]
  omega

/-! ### Colours over white -/

/-- One colour is another one laid over white. -/
structure Colour.IsOver (c d : Colour) : Prop where
  red : IsMixture c.red c.alpha d.red
  green : IsMixture c.green c.alpha d.green
  blue : IsMixture c.blue c.alpha d.blue
  full : d.alpha = 255

theorem isOver_flatten (h : c.IsBytes) : c.IsOver c.flatten :=
  ⟨isMixture_overWhite h.red h.alpha, isMixture_overWhite h.green h.alpha,
    isMixture_overWhite h.blue h.alpha, rfl⟩

theorem isOver_iff (h : c.IsBytes) : c.IsOver d ↔ d = c.flatten := by
  constructor
  · intro hd
    have hc := isOver_flatten h
    obtain ⟨red, green, blue, alpha⟩ := d
    obtain rfl := hd.red.unique hc.red
    obtain rfl := hd.green.unique hc.green
    obtain rfl := hd.blue.unique hc.blue
    obtain rfl := hd.full
    rfl
  · rintro rfl
    exact isOver_flatten h

theorem isSolid_flatten (h : c.IsBytes) : c.flatten.IsSolid :=
  ⟨⟨overWhite_le h.red h.alpha, overWhite_le h.green h.alpha, overWhite_le h.blue h.alpha, le_rfl⟩,
    rfl⟩

/-- Nothing shows of the white below a colour that nothing shines through. -/
theorem flatten_of_isSolid (h : c.IsSolid) : c.flatten = c := by
  obtain ⟨red, green, blue, alpha⟩ := c
  obtain rfl : alpha = 255 := h.full
  rw [Colour.flatten, overWhite_full h.red, overWhite_full h.green, overWhite_full h.blue]

/-- Only white shows through a colour that is not there. -/
theorem flatten_of_clear (h : c.alpha = 0) : c.flatten = .white := by
  rw [Colour.flatten, h, overWhite_clear, overWhite_clear, overWhite_clear]
  rfl

/-! ### Canvases -/

/-- A canvas shows a picture over white, and is white outside the picture. -/
structure Flattens (img : Image) (A : ℕ × ℕ → Colour) : Prop where
  inside : ∀ p, p.1 < img.width → p.2 < img.height → (img.colour p.1 p.2).IsOver (A p)
  outside : ∀ p, img.width ≤ p.1 ∨ img.height ≤ p.2 → A p = .white

theorem onCanvas_inside (hx : p.1 < img.width) (hy : p.2 < img.height) :
    onCanvas img p = (img.colour p.1 p.2).flatten := if_pos ⟨hx, hy⟩

theorem onCanvas_outside (h : img.width ≤ p.1 ∨ img.height ≤ p.2) : onCanvas img p = .white :=
  if_neg (by omega)

theorem isSolid_onCanvas (img : Image) (p : ℕ × ℕ) : (onCanvas img p).IsSolid := by
  unfold onCanvas
  split
  · exact isSolid_flatten (isBytes_colour img p.1 p.2)
  · exact isSolid_white

/-- There is one canvas that shows a picture over white. -/
theorem flattens_iff : Flattens img A ↔ A = onCanvas img := by
  constructor
  · intro h
    ext1 p
    by_cases hin : p.1 < img.width ∧ p.2 < img.height
    · rw [onCanvas_inside hin.1 hin.2]
      exact (isOver_iff (isBytes_colour img p.1 p.2)).mp (h.inside p hin.1 hin.2)
    · have hout : img.width ≤ p.1 ∨ img.height ≤ p.2 := by omega
      rw [onCanvas_outside hout, h.outside p hout]
  · rintro rfl
    constructor
    · intro p hx hy
      rw [onCanvas_inside hx hy]
      exact isOver_flatten (isBytes_colour img p.1 p.2)
    · exact fun p hout => onCanvas_outside hout

/-- What is on a canvas stays as it is on any canvas that shows the part of it that is not white. -/
theorem onCanvas_ofPixels {width height : ℕ} (hwidth : img.width ≤ width)
    (hheight : img.height ≤ height) : onCanvas (ofPixels width height (onCanvas img)) =
      onCanvas img := by
  ext1 p
  by_cases hin : p.1 < width ∧ p.2 < height
  · rw [onCanvas_inside hin.1 hin.2, colour_ofPixels hin.1 hin.2 (isSolid_onCanvas img p),
      flatten_of_isSolid (isSolid_onCanvas img p)]
  · have hout : img.width ≤ p.1 ∨ img.height ≤ p.2 := by omega
    rw [onCanvas_outside hout, onCanvas_outside]
    rw [width_ofPixels, height_ofPixels]
    omega

/-- Two pictures that differ in the colours of clear pixels only. -/
structure SameVisible (img other : Image) : Prop where
  width : other.width = img.width
  height : other.height = img.height
  colour : ∀ x y, x < img.width → y < img.height → other.colour x y = img.colour x y ∨
    (other.colour x y).alpha = 0 ∧ (img.colour x y).alpha = 0

theorem SameVisible.onCanvas_eq {other : Image} (h : SameVisible img other) :
    onCanvas other = onCanvas img := by
  ext1 p
  by_cases hin : p.1 < img.width ∧ p.2 < img.height
  · rw [onCanvas_inside hin.1 hin.2, onCanvas_inside (h.width ▸ hin.1) (h.height ▸ hin.2)]
    obtain heq | ⟨hother, himg⟩ := h.colour p.1 p.2 hin.1 hin.2
    · rw [heq]
    · rw [flatten_of_clear hother, flatten_of_clear himg]
  · have hout : img.width ≤ p.1 ∨ img.height ≤ p.2 := by omega
    rw [onCanvas_outside hout, onCanvas_outside (by rwa [h.width, h.height])]

end PageDiff.Image
