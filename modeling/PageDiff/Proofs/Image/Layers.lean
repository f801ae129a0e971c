import PageDiff.Proofs.Image.Flattening

/-!
# Comparing by layers

A comparison can be put together from operations on whole layers: two pictures are pasted on white,
their differences are taken channel by channel, the largest of them goes through a table that makes
a mask of it, and the mask decides where the marks cover the faded picture.  The mask is counted and
rendered on two ways.  `compareWith` does all of it at each position at once, and comes to the same
(`compareWith_eq_assemble`).
-/

namespace PageDiff.Image

variable {α β γ : Type} {width height : ℕ}

/-! ### Layers -/

/-- A value at each position, row by row. -/
def layer (width height : ℕ) (f : ℕ × ℕ → α) : List α := (positions width height).map f

/-- The same value at each position. -/
def uniform (width height : ℕ) (v : α) : List α := List.replicate (width * height) v

/-- Two channels, the first of which covers `mask` of 255 parts of the second. -/
def mix (front back mask : ℕ) : ℕ :=
  let t := back * (255 - mask) + front * mask + 128
  (t / 256 + t) / 256

/-- Two colours, the first of which covers `mask` of 255 parts of the second. -/
def Colour.mix (front back : Colour) (mask : ℕ) : Colour where
  red := Image.mix front.red back.red mask
  green := Image.mix front.green back.green mask
  blue := Image.mix front.blue back.blue mask

/-- A picture is pasted into the upper left corner of a layer, with its alpha channel as mask. -/
def paste (img : Image) (width height : ℕ) (back : List Colour) : List Colour :=
  List.zipWith (fun p c =>
    if p.1 < img.width ∧ p.2 < img.height then
      (img.colour p.1 p.2).mix c (img.colour p.1 p.2).alpha
    else c) (positions width height) back

/-- The distances of the channels of two layers. -/
def differences : List Colour → List Colour → List Colour :=
  List.zipWith fun c d =>
    { red := distance c.red d.red
      green := distance c.green d.green
      blue := distance c.blue d.blue }

/-- The larger value of two layers at each position. -/
def lighter : List ℕ → List ℕ → List ℕ := List.zipWith max

/-- For each distance, whether it is more than a cutoff. -/
def table (cutoff : ℤ) : List ℕ := (List.range 256).map fun v : ℕ => if cutoff < v then 255 else 0

/-- Looks each value of a layer up in a table. -/
def point (table : List ℕ) (values : List ℕ) : List ℕ := values.map fun v => table[v]?.getD 0

/-- Nine tenths of the second layer, the rest of the first. -/
def blend : List Colour → List Colour → List Colour :=
  List.zipWith fun c d =>
    { red := (9 * d.red + c.red) / 10
      green := (9 * d.green + c.green) / 10
      blue := (9 * d.blue + c.blue) / 10 }

/-- The first layer covers the second one where the mask says so. -/
def composite (front back : List Colour) (mask : List ℕ) : List Colour :=
  List.zipWith (fun c m => c.1.mix c.2 m) (front.zip back) mask

/-- The picture of a layer. -/
def encode (width height : ℕ) (colours : List Colour) : Image where
  mode := .rgb
  width := width
  height := height
  data := (colours.flatMap fun c => [c.red.toUInt8, c.green.toUInt8, c.blue.toUInt8]).toArray

/-- Compares two pictures layer by layer. -/
def assemble (a b : Image) (cutoff : ℤ) : Comparison :=
  let width := max a.width b.width
  let height := max a.height b.height
  let white := uniform width height Colour.white
  let first := paste a width height white
  let second := paste b width height white
  let apart := differences first second
  let delta := lighter (lighter (apart.map (·.red)) (apart.map (·.green))) (apart.map (·.blue))
  let mask := point (table cutoff) delta
  let background := blend ((first.map Colour.brightness).map fun v => Colour.ofGrey v) white
  { image := encode width height (composite (uniform width height Colour.mark) background mask)
    changed := mask.count 255
    total := width * height }

/-! ### Operations at each position -/

theorem length_positions (width height : ℕ) : (positions width height).length = width * height := by
  have h := countP_positions width height fun _ => true
  simp only [List.countP_true, Finset.filter_true, card_grid] at h
  exact h

theorem uniform_eq_layer (v : α) : uniform width height v = layer width height fun _ => v := by
  rw [uniform, layer, List.map_const', length_positions]

@[simp] theorem map_layer (g : α → β) (f : ℕ × ℕ → α) :
    (layer width height f).map g = layer width height fun p => g (f p) := by
  simp [layer]

@[simp] theorem zipWith_layer (g : α → β → γ) (f : ℕ × ℕ → α) (f' : ℕ × ℕ → β) :
    List.zipWith g (layer width height f) (layer width height f') =
      layer width height fun p => g (f p) (f' p) := by
  simp [layer, List.zipWith_map]

@[simp] theorem zip_layer (f : ℕ × ℕ → α) (f' : ℕ × ℕ → β) :
    (layer width height f).zip (layer width height f') =
      layer width height fun p => (f p, f' p) :=
  zipWith_layer Prod.mk f f'

theorem layer_id : layer width height id = positions width height := List.map_id _

theorem encode_layer (f : ℕ × ℕ → Colour) :
    encode width height (layer width height f) = ofPixels width height f := by
  simp [encode, layer, ofPixels, List.flatMap_map]

/-! ### Both ways of comparing -/

theorem mix_full {front back : ℕ} (h : front ≤ 255) : mix front back 255 = front := by
  rw [mix]
  omega

theorem mix_clear {front back : ℕ} (h : back ≤ 255) : mix front back 0 = back := by
  rw [mix]
  omega

theorem paste_uniform (img : Image) :
    paste img width height (uniform width height .white) =
      layer width height (onCanvas img) := by
  rw [paste, uniform_eq_layer, ← layer_id, zipWith_layer]
  rfl

theorem difference_le {c d : Colour} (hc : c.IsBytes) (hd : d.IsBytes) : c.difference d ≤ 255 := by
  have hred := hc.red
  have hgreen := hc.green
  have hblue := hc.blue
  have hred' := hd.red
  have hgreen' := hd.green
  have hblue' := hd.blue
  simp only [Colour.difference, distance]
  omega

/-- The largest of the differences of two layers. -/
theorem lighter_differences (f g : ℕ × ℕ → Colour) :
    let apart := differences (layer width height f) (layer width height g)
    lighter (lighter (apart.map (·.red)) (apart.map (·.green))) (apart.map (·.blue)) =
      layer width height fun p => (f p).difference (g p) := by
  simp only [differences, lighter, zipWith_layer, map_layer]
  rfl

theorem getElem?_table {cutoff : ℤ} {v : ℕ} (h : v ≤ 255) :
    (table cutoff)[v]? = some (if cutoff < v then 255 else 0) := by
  rw [table, List.getElem?_map, List.getElem?_range (by omega), Option.map_some]

theorem brightness_le {c : Colour} (h : c.IsBytes) : c.brightness ≤ 255 := by
  have hred := h.red
  have hgreen := h.green
  have hblue := h.blue
  rw [Colour.brightness]
  omega

theorem Colour.mix_full {front back : Colour} (h : front.IsSolid) : front.mix back 255 = front := by
  obtain ⟨red, green, blue, alpha⟩ := front
  obtain rfl : alpha = 255 := h.full
  rw [Colour.mix, Image.mix_full h.red, Image.mix_full h.green, Image.mix_full h.blue]

theorem Colour.mix_clear {front back : Colour} (h : back.IsSolid) : front.mix back 0 = back := by
  obtain ⟨red, green, blue, alpha⟩ := back
  obtain rfl : alpha = 255 := h.full
  rw [Colour.mix, Image.mix_clear h.red, Image.mix_clear h.green, Image.mix_clear h.blue]

/-- A faded colour is a grey of bytes. -/
theorem isSolid_faded {c : Colour} (h : c.IsBytes) : c.faded.IsSolid := by
  have hbright := brightness_le h
  exact isSolid_ofGrey (by omega)

/-- The mask is 255 at the positions that count as changed. -/
theorem mask_eq (a b : Image) (cutoff : ℤ) :
    point (table cutoff) (layer width height fun p =>
        (onCanvas a p).difference (onCanvas b p)) =
      layer width height fun p => if isChanged a b cutoff p then 255 else 0 := by
  rw [point, map_layer]
  congr 1
  ext1 p
  rw [getElem?_table (difference_le (isSolid_onCanvas a p).toIsBytes
    (isSolid_onCanvas b p).toIsBytes)]
  simp [isChanged]

/-- The marks cover the faded picture where the mask is 255. -/
theorem mix_mask (a b : Image) (cutoff : ℤ) (p : ℕ × ℕ) :
    Colour.mark.mix (onCanvas a p).faded (if isChanged a b cutoff p then 255 else 0) =
      if isChanged a b cutoff p then .mark else (onCanvas a p).faded := by
  split
  · exact Colour.mix_full isSolid_mark
  · exact Colour.mix_clear (isSolid_faded (isSolid_onCanvas a p).toIsBytes)

/-- A comparison that is put together from layers is the comparison at each position. -/
theorem compareWith_eq_assemble (a b : Image) (cutoff : ℤ) :
    compareWith a b cutoff = assemble a b cutoff := by
  simp only [assemble, paste_uniform, lighter_differences, mask_eq]
  simp only [compareWith, composite, blend, uniform_eq_layer, map_layer, zip_layer, zipWith_layer]
  congr 1
  · rw [encode_layer]
    congr 1
    ext1 p
    exact (mix_mask a b cutoff p).symm
  · rw [layer, List.count, List.countP_map]
    congr 1
    ext1 p
    cases h : isChanged a b cutoff p with
    | false => simp [h]
    | true => simp [h]

end PageDiff.Image
