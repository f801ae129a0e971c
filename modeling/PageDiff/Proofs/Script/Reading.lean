import PageDiff.Proofs.Text.Pieces
import PageDiff.Script.Compile

/-!
# What the words of a line say

Declarative readings of the small parts of a line: `Fields` for the first field and the text after
it, `IsSize` for a width and a height, `Asks` for what a capture asks to be shown.  Each of them is
equivalent to the reader that the compiler uses.
-/

namespace PageDiff.Script

open PageDiff.Text

/-! ### Fields -/

/-- `text` is a first field, a gap of spaces and tabs, and the rest behind the gap. -/
def Fields (text first rest : List Char) : Prop :=
  ∃ gap, text = first ++ (gap ++ rest) ∧ (∀ c ∈ first, isGap c = false) ∧
    (∀ c ∈ gap, isGap c = true) ∧ (∀ c, rest.head? = some c → isGap c = false) ∧
    (gap = [] → rest = [])

theorem fields_splitField (text : List Char) :
    Fields text (splitField text).1 (splitField text).2 := by
  unfold splitField
  set tail := text.dropWhile (!isGap ·) with htail
  refine ⟨tail.takeWhile isGap, ?_, ?_, ?_, ?_, ?_⟩
  · rw [List.takeWhile_append_dropWhile, htail, List.takeWhile_append_dropWhile]
  · intro c hc
    simpa using List.mem_takeWhile_imp hc
  · exact fun c hc => List.mem_takeWhile_imp hc
  · intro c hc
    have := List.head?_dropWhile_not isGap tail
    rw [hc] at this
    simpa using this
  · intro h
    cases ht : tail with
    | nil => rfl
    | cons c cs =>
      -- the tail starts with a gap, so the gap is not empty
      have hc : isGap c = true := by
        have := List.head?_dropWhile_not (!isGap ·) text
        rw [← htail, ht] at this
        simpa using this
      rw [ht, List.takeWhile_cons_of_pos hc] at h
      cases h

theorem fields_iff {text first rest : List Char} :
    Fields text first rest ↔ splitField text = (first, rest) := by
  constructor
  · rintro ⟨gap, rfl, hfirst, hgap, hrest, hnil⟩
    have hf : ∀ c ∈ first, (!isGap c) = true := fun c hc => by simp [hfirst c hc]
    unfold splitField
    rw [List.takeWhile_append_of_pos hf, List.dropWhile_append_of_pos hf]
    cases gap with
    | nil => simp [hnil rfl]
    | cons g gs =>
      have hg : (!isGap g) = false := by simp [hgap g (by simp)]
      rw [List.cons_append, List.takeWhile_cons_of_neg (by simp [hg]),
        List.dropWhile_cons_of_neg (by simp [hg]), ← List.cons_append,
        List.dropWhile_append_of_pos hgap]
      cases rest with
      | nil => simp
      | cons r rs => simp [hrest r rfl]
  · intro h
    have := fields_splitField text
    rwa [h] at this

/-! ### Pairs and sizes -/

/-- `text` is two texts without spaces, with one space between them. -/
def IsPair (text a b : String) : Prop :=
  text = a ++ " " ++ b ∧ ' ' ∉ a.toList ∧ ' ' ∉ b.toList

theorem splitOn_eq_pair {text a b : String} :
    text.toList.splitOn ' ' = [a.toList, b.toList] ↔ IsPair text a b := by
  constructor
  · intro h
    have htext : [' '].intercalate (text.toList.splitOn ' ') = text.toList :=
      List.intercalate_splitOn ' '
    rw [h] at htext
    have hmem : ∀ l ∈ [a.toList, b.toList], ' ' ∉ l := h ▸ not_mem_of_mem_splitOn
    refine ⟨String.toList_inj.mp ?_, hmem _ (by simp), hmem _ (by simp)⟩
    rw [← htext]
    simp
  · rintro ⟨rfl, ha, hb⟩
    have : (a ++ " " ++ b).toList = a.toList ++ ' ' :: b.toList := by simp
    rw [this, List.splitOn_append_cons_self_of_not_mem ha, List.splitOn_eq_singleton hb]

theorem IsPair.unique {text a b a' b' : String} (h : IsPair text a b) (h' : IsPair text a' b') :
    a = a' ∧ b = b' := by
  have := (splitOn_eq_pair.mpr h).symm.trans (splitOn_eq_pair.mpr h')
  simpa [String.toList_inj] using this

/-- `text` is a numeral for `w`, an `x` and a numeral for `h`. -/
def IsSize (text : List Char) (w h : Nat) : Prop :=
  ∃ width height, text = width ++ 'x' :: height ∧ isNumeral width = true ∧
    isNumeral height = true ∧ readNumeral width = .ok w ∧ readNumeral height = .ok h

theorem not_mem_x_of_isNumeral {cs : List Char} (h : isNumeral cs = true) : 'x' ∉ cs := by
  intro hx
  simp only [isNumeral, Bool.and_eq_true, List.all_eq_true] at h
  exact absurd (h.2 'x' hx) (by decide)

theorem readSize_eq_ok {text : List Char} {w h : Nat} :
    readSize text = .ok (w, h) ↔ IsSize text w h := by
  constructor
  · intro hr
    unfold readSize at hr
    split at hr
    · next width height hsplit =>
      split at hr
      · cases hr
      · next hfind =>
        simp only [List.find?_eq_none, List.mem_cons, List.not_mem_nil, or_false,
          Bool.not_eq_true, Bool.not_eq_false'] at hfind
        have htext : text = width ++ 'x' :: height := by
          have hjoin : ['x'].intercalate (text.splitOn 'x') = text := List.intercalate_splitOn 'x'
          rw [hsplit] at hjoin
          simpa using hjoin.symm
        split at hr
        · next hw hh =>
          cases hr
          exact ⟨width, height, htext, hfind width (.inl rfl), hfind height (.inr rfl), hw, hh⟩
        · cases hr
        · cases hr
    · cases hr
  · rintro ⟨width, height, rfl, hw, hh, hrw, hrh⟩
    have hsplit : (width ++ 'x' :: height).splitOn 'x' = [width, height] := by
      rw [List.splitOn_append_cons_self_of_not_mem (not_mem_x_of_isNumeral hw),
        List.splitOn_eq_singleton (not_mem_x_of_isNumeral hh)]
    simp [readSize, hsplit, hw, hh, hrw, hrh]

/-! ### Capitals -/

theorem capital_ne_nil (c : Char) : capital c ≠ [] := by
  unfold capital
  cases h : foreignCapitals.lookup c.toNat with
  | none => simp
  | some cs =>
    obtain ⟨l₁, l₂, hl, -⟩ := List.lookup_eq_some_iff.mp h
    have hmem : (c.toNat, cs) ∈ foreignCapitals := by rw [hl]; simp
    have hne : ∀ e ∈ foreignCapitals, e.2 ≠ [] := by decide
    exact hne _ hmem

theorem capitals_eq_nil {cs : List Char} : capitals cs = [] ↔ cs = [] := by
  cases cs with
  | nil => simp
  | cons c cs => simp [capitals, capital_ne_nil]

/-! ### Captures -/

/-- The words for the kinds of capture, in whatever case. -/
inductive Names (field : List Char) : CaptureKind → Prop
  | bare (h : field = []) : Names field .viewport
  | viewport (h : capitals field = "VIEWPORT".toList) : Names field .viewport
  | fullPage (h : capitals field = "FULLSCREEN".toList) : Names field .fullPage
  | element (h : capitals field = "ELEMENT".toList) : Names field .element

/-- What is shown of a page as such. -/
def CaptureKind.page? : CaptureKind → Option Capture
  | .viewport => some .viewport
  | .fullPage => some .fullPage
  | .element => none

/-- What the argument of a capture asks for: what is shown, and perhaps a size of its own. -/
inductive Asks (args : String) : Capture → Option (Nat × Nat) → Prop
  | whole {field kind shown} (fields : Fields args.toList field []) (named : Names field kind)
      (page : kind.page? = some shown) : Asks args shown none
  | sized {field kind rest shown w h} (fields : Fields args.toList field rest)
      (named : Names field kind) (page : kind.page? = some shown) (size : IsSize rest w h) :
      Asks args shown (some (w, h))
  | element {field selector} (fields : Fields args.toList field selector.toList)
      (named : Names field .element) (given : selector ≠ "") : Asks args (.element selector) none

theorem ofField?_eq_some {field : List Char} {kind : CaptureKind} :
    CaptureKind.ofField? field = some kind ↔ Names field kind := by
  unfold CaptureKind.ofField?
  constructor
  · intro h
    simp only [List.lookup_cons, List.lookup_nil] at h
    split at h
    · next hk =>
      cases h
      exact .bare (capitals_eq_nil.mp (by simpa using hk))
    · split at h
      · next hk => cases h; exact .viewport (by simpa using hk)
      · split at h
        · next hk => cases h; exact .fullPage (by simpa using hk)
        · split at h
          · next hk => cases h; exact .element (by simpa using hk)
          · cases h
  · rintro (rfl | h | h | h)
    · rfl
    · rw [h]; decide
    · rw [h]; decide
    · rw [h]; decide

theorem Names.unique {field : List Char} {kind kind' : CaptureKind} (h : Names field kind)
    (h' : Names field kind') : kind = kind' :=
  Option.some.inj ((ofField?_eq_some.mpr h).symm.trans (ofField?_eq_some.mpr h'))

theorem Fields.unique {text first rest first' rest' : List Char} (h : Fields text first rest)
    (h' : Fields text first' rest') : first = first' ∧ rest = rest' := by
  have := (fields_iff.mp h).symm.trans (fields_iff.mp h')
  exact Prod.mk.inj this

theorem IsSize.unique {text : List Char} {w h w' h' : Nat} (hs : IsSize text w h)
    (hs' : IsSize text w' h') : w = w' ∧ h = h' := by
  have := (readSize_eq_ok.mpr hs).symm.trans (readSize_eq_ok.mpr hs')
  exact Prod.mk.inj (Except.ok.inj this)

theorem ne_nil_of_isSize {text : List Char} {w h : Nat} (hs : IsSize text w h) : text ≠ [] := by
  rintro rfl
  obtain ⟨width, height, htext, -⟩ := hs
  simp at htext

/-- A capture asks for one thing. -/
theorem Asks.unique {args : String} {shown shown' : Capture} {size? size?' : Option (Nat × Nat)}
    (h : Asks args shown size?) (h' : Asks args shown' size?') :
    shown = shown' ∧ size? = size?' := by
  cases h with
  | whole fields named page =>
    cases h' with
    | whole fields' named' page' =>
      obtain ⟨rfl, -⟩ := fields.unique fields'
      obtain rfl := named.unique named'
      exact ⟨Option.some.inj (page.symm.trans page'), rfl⟩
    | sized fields' _ _ size =>
      obtain ⟨-, rfl⟩ := fields.unique fields'
      exact absurd rfl (ne_nil_of_isSize size)
    | element fields' named' =>
      obtain ⟨rfl, -⟩ := fields.unique fields'
      obtain rfl := named.unique named'
      cases page
  | sized fields named page size =>
    cases h' with
    | whole fields' =>
      obtain ⟨-, rfl⟩ := fields.unique fields'
      exact absurd rfl (ne_nil_of_isSize size)
    | sized fields' named' page' size' =>
      obtain ⟨rfl, rfl⟩ := fields.unique fields'
      obtain rfl := named.unique named'
      obtain ⟨rfl, rfl⟩ := size.unique size'
      exact ⟨Option.some.inj (page.symm.trans page'), rfl⟩
    | element fields' named' =>
      obtain ⟨rfl, -⟩ := fields.unique fields'
      obtain rfl := named.unique named'
      cases page
  | element fields named =>
    cases h' with
    | whole fields' named' page' =>
      obtain ⟨rfl, -⟩ := fields.unique fields'
      obtain rfl := named.unique named'
      cases page'
    | sized fields' named' page' =>
      obtain ⟨rfl, -⟩ := fields.unique fields'
      obtain rfl := named.unique named'
      cases page'
    | element fields' =>
      obtain ⟨-, hs⟩ := fields.unique fields'
      rw [String.toList_inj.mp hs]
      exact ⟨rfl, rfl⟩

/-! ### Lines -/

@[simp] theorem read_dropReturn (raw : List Char) : Line.read (dropReturn raw) = Line.read raw := by
  rw [Line.read, Line.read, strip_dropReturn]

theorem isBlank_of_isGap {c : Char} (h : isGap c = true) : isBlank c = true := by
  simp only [isGap, Bool.or_eq_true, beq_iff_eq] at h
  rcases h with rfl | rfl <;> decide

theorem read_eq_blank {raw : List Char} : Line.read raw = .blank ↔ strip raw = [] := by
  constructor
  · intro h
    unfold Line.read Line.ofStripped at h
    split at h
    · cases h
    · simp only at h
      split at h
      · next hfield =>
        cases hs : strip raw with
        | nil => rfl
        | cons c cs =>
          -- the first character is no gap, so it is part of the field
          have hgap : isGap c = false := by
            by_contra hc
            have hhead : (strip raw).head? = some c := by
              rw [hs]
              rfl
            have hblank := head?_strip hhead
            rw [isBlank_of_isGap (by simpa using hc)] at hblank
            cases hblank
          rw [hs, splitField, List.takeWhile_cons_of_pos (by simp [hgap])] at hfield
          cases hfield
      · split at h <;> cases h
  · intro h
    rw [Line.read, h]
    rfl

end PageDiff.Script
