import Mathlib.Data.Finset.Card
import Mathlib.Data.Finset.Prod
import Mathlib.Data.Finset.Range
import PageDiff.Image.Compare

/-!
# Pixels of pictures

A picture that is made of given pixels has three bytes for each of them, row by row.  Its colour at
a position is read from these bytes, and is the given one again (`colour_ofPixels`).  Positions can
be counted along the rows or as a rectangle (`countP_positions`).
-/

namespace PageDiff.Image

variable {width height x y : ℕ} {p : ℕ × ℕ}

/-! ### Positions -/

/-- Where pieces of one length are put together, each of them is found at a multiple of it. -/
theorem getElem?_flatMap_of_length {α β : Type} {f : α → List β} {n j : ℕ}
    (hf : ∀ a, (f a).length = n) (hj : j < n) (l : List α) (k : ℕ) :
    (l.flatMap f)[k * n + j]? = l[k]?.bind fun a => (f a)[j]? := by
  induction l generalizing k with
  | nil => simp
  | cons a l ih =>
    rw [List.flatMap_cons]
    cases k with
    | zero =>
      rw [List.getElem?_append_left (by rw [hf]; omega)]
      simp
    | succ k =>
      have hskip : (k + 1) * n + j - n = k * n + j := by
        rw [Nat.succ_mul]
        omega
      rw [List.getElem?_append_right (by rw [hf, Nat.succ_mul]; omega), hf, hskip, ih]
      simp

theorem getElem?_positions (hx : x < width) (hy : y < height) :
    (positions width height)[y * width + x]? = some (x, y) := by
  rw [positions, getElem?_flatMap_of_length (by simp) hx]
  simp [hx, hy]

theorem mem_positions : p ∈ positions width height ↔ p.1 < width ∧ p.2 < height := by
  obtain ⟨x, y⟩ := p
  simp only [positions, List.mem_flatMap, List.mem_range, List.mem_map, Prod.mk.injEq]
  constructor
  · rintro ⟨_, hy, _, hx, rfl, rfl⟩
    exact ⟨hx, hy⟩
  · exact fun h => ⟨y, h.2, x, h.1, rfl, rfl⟩

theorem nodup_positions (width height : ℕ) : (positions width height).Nodup := by
  rw [positions, List.nodup_flatMap]
  constructor
  · intro y _
    exact List.nodup_range.map fun a b h => (Prod.mk.inj h).1
  · refine List.nodup_range.imp fun {a b} hne => ?_
    intro q ha hb
    obtain ⟨_, -, rfl⟩ := List.mem_map.mp ha
    obtain ⟨_, -, heq⟩ := List.mem_map.mp hb
    exact hne (Prod.mk.inj heq).2.symm

/-- The positions of a rectangle. -/
def grid (width height : ℕ) : Finset (ℕ × ℕ) := Finset.range width ×ˢ Finset.range height

@[simp] theorem mem_grid : p ∈ grid width height ↔ p.1 < width ∧ p.2 < height := by
  simp [grid]

theorem card_grid (width height : ℕ) : (grid width height).card = width * height := by
  simp [grid]

theorem toFinset_positions (width height : ℕ) :
    (positions width height).toFinset = grid width height := by
  ext p
  rw [List.mem_toFinset, mem_positions, mem_grid]

/-- Positions are counted along the rows as they are in the rectangle. -/
theorem countP_positions (width height : ℕ) (q : ℕ × ℕ → Bool) :
    (positions width height).countP q = {p ∈ grid width height | q p = true}.card := by
  rw [List.countP_eq_length_filter, ← toFinset_positions, ← List.toFinset_filter,
    List.toFinset_card_of_nodup ((nodup_positions width height).filter q)]

/-! ### Colours -/

/-- All parts of a colour are bytes. -/
structure Colour.IsBytes (c : Colour) : Prop where
  red : c.red ≤ 255
  green : c.green ≤ 255
  blue : c.blue ≤ 255
  alpha : c.alpha ≤ 255

/-- A colour of bytes that nothing shines through. -/
structure Colour.IsSolid (c : Colour) : Prop extends Colour.IsBytes c where
  full : c.alpha = 255

theorem isSolid_white : Colour.white.IsSolid := ⟨by constructor <;> simp [Colour.white], rfl⟩

theorem isSolid_mark : Colour.mark.IsSolid := ⟨by constructor <;> simp [Colour.mark], rfl⟩

theorem isSolid_ofGrey {v : ℕ} (h : v ≤ 255) : (Colour.ofGrey v).IsSolid :=
  ⟨⟨h, h, h, le_rfl⟩, rfl⟩

theorem byte_le (img : Image) (i : ℕ) : img.byte i ≤ 255 := by
  have h := (img.data[i]?.getD 0).toNat_lt
  rw [byte]
  omega

theorem isBytes_colour (img : Image) (x y : ℕ) : (img.colour x y).IsBytes := by
  unfold colour
  cases img.mode with
  | rgb => exact ⟨byte_le _ _, byte_le _ _, byte_le _ _, le_rfl⟩
  | rgba => exact ⟨byte_le _ _, byte_le _ _, byte_le _ _, byte_le _ _⟩
  | grey => exact (isSolid_ofGrey (byte_le _ _)).toIsBytes
  | greyAlpha => exact ⟨byte_le _ _, byte_le _ _, byte_le _ _, byte_le _ _⟩
  | bilevel => exact (isSolid_ofGrey (by split <;> simp)).toIsBytes
  | deepGrey => exact (isSolid_ofGrey (min_le_right _ _)).toIsBytes

/-! ### Pictures that are made of pixels -/

@[simp] theorem width_ofPixels (pixel : ℕ × ℕ → Colour) :
    (ofPixels width height pixel).width = width := rfl

@[simp] theorem height_ofPixels (pixel : ℕ × ℕ → Colour) :
    (ofPixels width height pixel).height = height := rfl

theorem byte_ofPixels (pixel : ℕ × ℕ → Colour) (hx : x < width) (hy : y < height) {j : ℕ}
    (hj : j < 3) : (ofPixels width height pixel).byte ((y * width + x) * 3 + j) =
      ([(pixel (x, y)).red, (pixel (x, y)).green, (pixel (x, y)).blue][j]) % 256 := by
  have hsize : ∀ q, [(pixel q).red.toUInt8, (pixel q).green.toUInt8,
    (pixel q).blue.toUInt8].length = 3 := fun _ => rfl
  simp only [byte, ofPixels, List.getElem?_toArray]
  rw [getElem?_flatMap_of_length hsize hj, getElem?_positions hx hy]
  obtain rfl | rfl | rfl : j = 0 ∨ j = 1 ∨ j = 2 := by omega
  · simp
  · simp
  · simp

/-- The pixels of a picture are those that it was made of. -/
theorem colour_ofPixels {pixel : ℕ × ℕ → Colour} (hx : x < width) (hy : y < height)
    (h : (pixel (x, y)).IsSolid) : (ofPixels width height pixel).colour x y = pixel (x, y) := by
  have hred := byte_ofPixels pixel hx hy (j := 0) (by omega)
  have hgreen := byte_ofPixels pixel hx hy (j := 1) (by omega)
  have hblue := byte_ofPixels pixel hx hy (j := 2) (by omega)
  simp only [List.getElem_cons_zero, List.getElem_cons_succ, Nat.add_zero] at hred hgreen hblue
  rw [Nat.mod_eq_of_lt (Nat.lt_succ_of_le h.red)] at hred
  rw [Nat.mod_eq_of_lt (Nat.lt_succ_of_le h.green)] at hgreen
  rw [Nat.mod_eq_of_lt (Nat.lt_succ_of_le h.blue)] at hblue
  show Colour.mk ((ofPixels width height pixel).byte ((y * width + x) * 3))
    ((ofPixels width height pixel).byte ((y * width + x) * 3 + 1))
    ((ofPixels width height pixel).byte ((y * width + x) * 3 + 2)) 255 = pixel (x, y)
  rw [hred, hgreen, hblue, ← h.full]

end PageDiff.Image
