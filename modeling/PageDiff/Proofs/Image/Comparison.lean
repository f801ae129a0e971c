import PageDiff.Proofs.Image.Cutoff
import PageDiff.Proofs.Image.Layers

/-!
# What a comparison is

The two pictures are laid over white on a canvas that holds both.  A position counts as changed
when some channel differs there by more than the cutoff, the rendered picture is red at exactly
these positions and grey everywhere else, and so its red pixels are as many as are counted
(`compare_correct`).
-/

namespace PageDiff.Image

open PageDiff.Number

variable {width height : ℕ} {limit : ℤ} {a b : Image} {p : ℕ × ℕ}

/-- Some channel of two colours differs by more than a limit. -/
def Differ (limit : ℤ) (c d : Colour) : Prop :=
  limit < |(c.red : ℤ) - d.red| ∨ limit < |(c.green : ℤ) - d.green| ∨
    limit < |(c.blue : ℤ) - d.blue|

instance (limit : ℤ) (c d : Colour) : Decidable (Differ limit c d) :=
  inferInstanceAs (Decidable (_ ∨ _ ∨ _))

/-- The positions of a comparison that are painted as changed. -/
def Comparison.marked (found : Comparison) : Finset (ℕ × ℕ) :=
  {p ∈ grid found.image.width found.image.height | found.image.colour p.1 p.2 = .mark}

/-- What a comparison of two canvases of one size is. -/
structure Comparison.IsOf (found : Comparison) (w h : ℕ) (limit : ℤ)
    (A B : ℕ × ℕ → Colour) : Prop where
  mode : found.image.mode = .rgb
  width : found.image.width = w
  height : found.image.height = h
  size : found.image.data.size = w * h * 3
  total : found.total = w * h
  changed : found.changed = {p ∈ grid w h | Differ limit (A p) (B p)}.card
  marked : ∀ p ∈ grid w h,
    found.image.colour p.1 p.2 = .mark ↔ Differ limit (A p) (B p)
  faded : ∀ p ∈ grid w h, ¬ Differ limit (A p) (B p) →
    found.image.colour p.1 p.2 = (A p).faded
  grey : ∀ p ∈ grid w h, ¬ Differ limit (A p) (B p) →
    ∃ v ≤ 255, found.image.colour p.1 p.2 = .ofGrey v
  red : found.marked.card = found.changed
  le : found.changed ≤ found.total

theorem cast_distance (v w : ℕ) : (distance v w : ℤ) = |(v : ℤ) - w| := by
  rw [distance]
  obtain h | h := le_total v w
  · rw [abs_of_nonpos (by omega)]
    omega
  · rw [abs_of_nonneg (by omega)]
    omega

/-- The largest difference is more than the limit when that of some channel is. -/
theorem isChanged_iff :
    isChanged a b limit p = true ↔ Differ limit (onCanvas a p) (onCanvas b p) := by
  rw [isChanged, decide_eq_true_iff, Colour.difference]
  push_cast
  rw [lt_max_iff, lt_max_iff, cast_distance, cast_distance, cast_distance, or_assoc]
  exact Iff.rfl

theorem differ_comm {c d : Colour} : Differ limit c d ↔ Differ limit d c := by
  rw [Differ, Differ, abs_sub_comm, abs_sub_comm (c.green : ℤ), abs_sub_comm (c.blue : ℤ)]

theorem not_differ_self (h : 0 ≤ limit) (c : Colour) : ¬ Differ limit c c := by
  simp [Differ, h]

theorem Differ.of_le {limit' : ℤ} {c d : Colour} (h : Differ limit' c d)
    (hle : limit ≤ limit') : Differ limit c d :=
  h.imp hle.trans_lt (Or.imp hle.trans_lt hle.trans_lt)

theorem ofGrey_ne_mark (v : ℕ) : Colour.ofGrey v ≠ .mark := by
  intro h
  have hred : v = 255 := congrArg Colour.red h
  have hgreen : v = 0 := congrArg Colour.green h
  omega

/-- The pixel of the rendered picture at a position of the canvas. -/
theorem colour_compareWith
    (hp : p ∈ grid (max a.width b.width) (max a.height b.height)) :
    (compareWith a b limit).image.colour p.1 p.2 =
      if isChanged a b limit p then .mark else (onCanvas a p).faded := by
  obtain ⟨hx, hy⟩ := mem_grid.mp hp
  apply colour_ofPixels hx hy
  split
  · exact isSolid_mark
  · exact isSolid_faded (isSolid_onCanvas a p).toIsBytes

theorem colour_compareWith_eq_mark
    (hp : p ∈ grid (max a.width b.width) (max a.height b.height)) :
    (compareWith a b limit).image.colour p.1 p.2 = .mark ↔
      Differ limit (onCanvas a p) (onCanvas b p) := by
  rw [colour_compareWith hp, ← isChanged_iff]
  split
  · next h => exact iff_of_true rfl h
  · next h => exact iff_of_false (ofGrey_ne_mark _) h

theorem changed_compareWith : (compareWith a b limit).changed =
    {p ∈ grid (max a.width b.width) (max a.height b.height) |
      Differ limit (onCanvas a p) (onCanvas b p)}.card := by
  rw [compareWith, countP_positions]
  simp only [isChanged_iff]

theorem marked_compareWith : (compareWith a b limit).marked =
    {p ∈ grid (max a.width b.width) (max a.height b.height) |
      Differ limit (onCanvas a p) (onCanvas b p)} :=
  Finset.filter_congr fun _ hp => colour_compareWith_eq_mark hp

theorem size_ofPixels (pixel : ℕ × ℕ → Colour) :
    (ofPixels width height pixel).data.size = width * height * 3 := by
  simp [ofPixels, List.length_flatMap, length_positions]

/-- A comparison with any limit is what it is meant to be. -/
theorem isOf_compareWith (a b : Image) (limit : ℤ) : (compareWith a b limit).IsOf
    (max a.width b.width) (max a.height b.height) limit (onCanvas a) (onCanvas b) where
  mode := rfl
  width := rfl
  height := rfl
  size := size_ofPixels _
  total := rfl
  changed := changed_compareWith
  marked _ hp := colour_compareWith_eq_mark hp
  faded p hp h := by rw [colour_compareWith hp, if_neg (mt isChanged_iff.mp h)]
  grey p hp h := by
    rw [colour_compareWith hp, if_neg (mt isChanged_iff.mp h)]
    have hbright := brightness_le (isSolid_onCanvas a p).toIsBytes
    exact ⟨_, by omega, rfl⟩
  red := by rw [marked_compareWith, changed_compareWith]
  le := by
    rw [changed_compareWith, compareWith, ← card_grid]
    exact Finset.card_filter_le _ _

theorem compare_eq {t : Numeric} {c : ℤ} (hc : cutoff t = .ok c) (a b : Image) :
    compare a b t = .ok (compareWith a b c) := by
  rw [compare, hc]
  rfl

/-- Two pictures of any sizes are compared as they look over white, with the threshold as a part
of the range of a channel. -/
theorem compare_correct (a b : Image) {t : Numeric} (ht : IsFraction t) {A B : ℕ × ℕ → Colour}
    (hA : Flattens a A) (hB : Flattens b B) :
    ∃ c, cutoff t = .ok c ∧ 0 ≤ c ∧ c ≤ 255 ∧ compare a b t = .ok (assemble a b c) ∧
      (assemble a b c).IsOf (max a.width b.width) (max a.height b.height) c A B := by
  obtain ⟨c, hc, hlow, hhigh⟩ := exists_cutoff ht
  obtain rfl := flattens_iff.mp hA
  obtain rfl := flattens_iff.mp hB
  refine ⟨c, hc, hlow, hhigh, ?_, ?_⟩
  · rw [compare_eq hc, compareWith_eq_assemble]
  · rw [← compareWith_eq_assemble]
    exact isOf_compareWith a b c

/-- A black pixel that white shines through. -/
def halfBlack : Image := { mode := .rgba, width := 1, height := 1, data := #[0, 0, 0, 128] }

/-- A black pixel and one that is almost white. -/
def blackAndPale : Image :=
  { mode := .rgb, width := 2, height := 1, data := #[0, 0, 0, 250, 255, 255] }

def tenth : Numeric := .double (.ofQuotient false 1 10)

theorem isFraction_tenth : IsFraction tenth := ⟨by decide +kernel, by decide +kernel⟩

theorem compare_correct_halfBlack : IsFraction tenth ∧
    Flattens halfBlack (onCanvas halfBlack) ∧ Flattens blackAndPale (onCanvas blackAndPale) ∧
    ∃ c, cutoff tenth = .ok c ∧ 0 ≤ c ∧ c ≤ 255 ∧
      compare halfBlack blackAndPale tenth = .ok (assemble halfBlack blackAndPale c) ∧
      (assemble halfBlack blackAndPale c).IsOf (max 1 2) (max 1 1) c (onCanvas halfBlack)
        (onCanvas blackAndPale) := by
  have hA : Flattens halfBlack (onCanvas halfBlack) := flattens_iff.mpr rfl
  have hB : Flattens blackAndPale (onCanvas blackAndPale) := flattens_iff.mpr rfl
  exact ⟨isFraction_tenth, hA, hB, compare_correct halfBlack blackAndPale isFraction_tenth hA hB⟩

example : (compareWith halfBlack blackAndPale 25).changed = 1 := by decide

end PageDiff.Image
