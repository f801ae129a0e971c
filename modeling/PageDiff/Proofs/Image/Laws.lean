import PageDiff.Proofs.Image.Comparison

/-!
# Laws of comparing pictures

A comparison sees nothing of two pictures but what they look like over white on the canvas that
holds both (`compareWith_congr`).  So the order of the pictures does not matter for what is counted,
a picture does not differ from itself, a larger threshold only unmarks positions, and neither white
around a picture nor the colour of its clear pixels changes anything (`compare_lawful`).
-/

namespace PageDiff.Image

open PageDiff.Number

variable {a b a' b' : Image} {limit limit' : ℤ} {width height : ℕ}

/-- A picture laid over white on a canvas. -/
def flattened (img : Image) (width height : ℕ) : Image := ofPixels width height (onCanvas img)

/-- The size of a canvas that holds a picture, and that the common canvas of it and another picture
holds. -/
structure Fits (img other : Image) (width height : ℕ) : Prop where
  width_le : img.width ≤ width
  height_le : img.height ≤ height
  le_width : width ≤ max img.width other.width
  le_height : height ≤ max img.height other.height

/-- What holds of the comparisons of two pictures with a threshold. -/
structure Lawful (a b : Image) (t : Numeric) : Prop where
  comm : ∃ found back, compare a b t = .ok found ∧ compare b a t = .ok back ∧
    back.changed = found.changed ∧ back.total = found.total ∧ back.marked = found.marked
  self : ∃ found, compare a a t = .ok found ∧ found.changed = 0 ∧ found.marked = ∅
  raised : ∀ t' c c', IsFraction t' → cutoff t = .ok c → cutoff t' = .ok c' →
    t.value ≤ t'.value ∨ c ≤ c' → ∃ found found', compare a b t = .ok found ∧
      compare a b t' = .ok found' ∧ found'.marked ⊆ found.marked ∧ found'.changed ≤ found.changed
  padded_left : ∀ width height, Fits a b width height →
    compare (a.flattened width height) b t = compare a b t
  padded_right : ∀ width height, Fits b a width height →
    compare a (b.flattened width height) t = compare a b t
  clear_left : ∀ a', SameVisible a a' → compare a' b t = compare a b t
  clear_right : ∀ b', SameVisible b b' → compare a b' t = compare a b t

/-- A comparison depends on the two canvases only. -/
theorem compareWith_congr (ha : onCanvas a' = onCanvas a) (hb : onCanvas b' = onCanvas b)
    (hwidth : max a'.width b'.width = max a.width b.width)
    (hheight : max a'.height b'.height = max a.height b.height) :
    compareWith a' b' limit = compareWith a b limit := by
  have hchanged : isChanged a' b' limit = isChanged a b limit := by
    ext1 p
    rw [isChanged, isChanged, ha, hb]
  rw [compareWith, compareWith, ha, hchanged, hwidth, hheight]

theorem marked_comm (a b : Image) (limit : ℤ) :
    (compareWith b a limit).marked = (compareWith a b limit).marked := by
  rw [marked_compareWith, marked_compareWith, max_comm b.width, max_comm b.height]
  exact Finset.filter_congr fun _ _ => differ_comm

theorem marked_self (a : Image) (h : 0 ≤ limit) : (compareWith a a limit).marked = ∅ := by
  rw [marked_compareWith, Finset.filter_eq_empty_iff]
  exact fun p _ => not_differ_self h (onCanvas a p)

/-- Positions that differ by more than a limit differ by more than any smaller one. -/
theorem marked_subset (a b : Image) (h : limit ≤ limit') :
    (compareWith a b limit').marked ⊆ (compareWith a b limit).marked := by
  rw [marked_compareWith, marked_compareWith]
  exact Finset.monotone_filter_right _ fun p _ hp => hp.of_le h

/-- As many positions are counted as are marked. -/
theorem changed_eq_card_marked (a b : Image) (limit : ℤ) :
    (compareWith a b limit).changed = (compareWith a b limit).marked.card :=
  (isOf_compareWith a b limit).red.symm

theorem Fits.onCanvas_flattened (h : Fits a b width height) :
    onCanvas (a.flattened width height) = onCanvas a :=
  onCanvas_ofPixels h.width_le h.height_le

theorem Fits.max_width (h : Fits a b width height) :
    max (a.flattened width height).width b.width = max a.width b.width :=
  le_antisymm (max_le h.le_width (le_max_right _ _)) (max_le_max_right _ h.width_le)

theorem Fits.max_height (h : Fits a b width height) :
    max (a.flattened width height).height b.height = max a.height b.height :=
  le_antisymm (max_le h.le_height (le_max_right _ _)) (max_le_max_right _ h.height_le)

/-- With every threshold that settings may have, comparing pictures follows the laws. -/
theorem compare_lawful (a b : Image) {t : Numeric} (ht : IsFraction t) : Lawful a b t := by
  obtain ⟨c, hc, hlow, -⟩ := exists_cutoff ht
  constructor
  case comm =>
    refine ⟨_, _, compare_eq hc a b, compare_eq hc b a, ?_, ?_, marked_comm a b c⟩
    · rw [changed_eq_card_marked, changed_eq_card_marked, marked_comm]
    · show max b.width a.width * max b.height a.height = max a.width b.width * max a.height b.height
      rw [max_comm b.width, max_comm b.height]
  case self =>
    have hmarked := marked_self a hlow
    refine ⟨_, compare_eq hc a a, ?_, hmarked⟩
    rw [changed_eq_card_marked, hmarked, Finset.card_empty]
  case raised =>
    intro t' c₁ c' ht' hc₁ hc' hle
    obtain rfl : c = c₁ := Except.ok.inj (hc.symm.trans hc₁)
    have hcutoff : c ≤ c' := hle.elim (fun h => cutoff_mono ht ht' h hc hc') id
    have hmarked := marked_subset a b hcutoff
    refine ⟨_, _, compare_eq hc a b, compare_eq hc' a b, hmarked, ?_⟩
    rw [changed_eq_card_marked, changed_eq_card_marked]
    exact Finset.card_le_card hmarked
  case padded_left =>
    intro width height h
    rw [compare_eq hc, compare_eq hc,
      compareWith_congr h.onCanvas_flattened rfl h.max_width h.max_height]
  case padded_right =>
    intro width height h
    have hwidth := h.max_width
    have hheight := h.max_height
    rw [max_comm, max_comm b.width] at hwidth
    rw [max_comm, max_comm b.height] at hheight
    rw [compare_eq hc, compare_eq hc, compareWith_congr rfl h.onCanvas_flattened hwidth hheight]
  case clear_left =>
    intro a' h
    rw [compare_eq hc, compare_eq hc,
      compareWith_congr h.onCanvas_eq rfl (by rw [h.width]) (by rw [h.height])]
  case clear_right =>
    intro b' h
    rw [compare_eq hc, compare_eq hc,
      compareWith_congr rfl h.onCanvas_eq (by rw [h.width]) (by rw [h.height])]

theorem compare_lawful_halfBlack : IsFraction tenth ∧ Fits halfBlack blackAndPale 2 1 ∧
    Lawful halfBlack blackAndPale tenth ∧
    compare (halfBlack.flattened 2 1) blackAndPale tenth =
      compare halfBlack blackAndPale tenth := by
  have hfits : Fits halfBlack blackAndPale 2 1 := by constructor <;> decide
  have hlaws := compare_lawful halfBlack blackAndPale isFraction_tenth
  exact ⟨isFraction_tenth, hfits, hlaws, hlaws.padded_left 2 1 hfits⟩

end PageDiff.Image
