import Mathlib.Data.List.TakeWhile
import PageDiff.Proofs.Outcome
import PageDiff.Url.Check

/-!
# Addresses that go on

When the text of an accepted origin goes on with the text of a path.  Its scheme stays the same,
and so does its network location unless the origin ends in it: `extended` is the network location
of the whole.  Main statement (`check_append_iff`): the whole is accepted exactly if `extended` is
in order.
-/

namespace PageDiff.Url

open PageDiff.Text

/-! ### What is accepted -/

/-- A text without controls and spaces. -/
def IsClean (cs : List Char) : Prop := ∀ c ∈ cs, isControlOrSpace c = false

/-- A network location in order: its brackets, its letters and its port. -/
structure NetlocOk (netloc : List Char) : Prop where
  brackets : checkBrackets netloc = .ok ()
  delimiters : checkDelimiters netloc = .ok ()
  port : ∃ n, port? netloc = .ok n

theorem isClean_append {u p : List Char} : IsClean (u ++ p) ↔ IsClean u ∧ IsClean p := by
  simp only [IsClean, List.forall_mem_append]

/-- Nothing is dropped from a clean text before it is split. -/
theorem IsClean.cleaned_eq {cs : List Char} (h : IsClean cs) : cleaned cs = cs := by
  have hdrop : cs.dropWhile (fun c => decide (c.toNat ≤ 0x20)) = cs := by
    cases cs with
    | nil => rfl
    | cons c cs =>
      have hc := h c (by simp)
      simp only [isControlOrSpace, Bool.or_eq_false_iff] at hc
      rw [List.dropWhile_cons_of_neg (by simp [hc.1])]
  rw [cleaned, hdrop, List.filter_eq_self]
  intro c hc
  have hclean := h c hc
  by_contra hn
  simp only [Bool.and_eq_true, bne_iff_ne, ne_eq, not_and_or, not_not] at hn
  rcases hn with (rfl | rfl) | rfl
  · exact absurd hclean (by decide)
  · exact absurd hclean (by decide)
  · exact absurd hclean (by decide)

theorem split_eq_ok {cs : List Char} {parts : Parts} : split cs = .ok parts ↔
    checkBrackets (partsOf (cleaned cs)).netloc = .ok () ∧
      checkDelimiters (partsOf (cleaned cs)).netloc = .ok () ∧ parts = partsOf (cleaned cs) := by
  simp only [split, bind_eq_ok, pure, Except.pure, Except.ok.injEq]
  constructor
  · rintro ⟨_, hb, _, hd, rfl⟩
    exact ⟨hb, hd, rfl⟩
  · rintro ⟨hb, hd, rfl⟩
    exact ⟨_, hb, _, hd, rfl⟩

theorem checkChars_eq_ok {cs : List Char} {parts : Parts} : checkChars cs = .ok parts ↔
    IsClean cs ∧ escapesOk cs = true ∧ NetlocOk (partsOf cs).netloc ∧ parts = partsOf cs := by
  unfold checkChars
  cases hf : cs.find? isControlOrSpace with
  | some c =>
    have hmem := List.mem_of_find?_eq_some hf
    have hbad := List.find?_some hf
    constructor
    · intro h
      cases h
    · rintro ⟨hclean, -⟩
      rw [hclean c hmem] at hbad
      cases hbad
  | none =>
    have hclean : IsClean cs := by simpa [IsClean] using hf
    by_cases he : escapesOk cs = true
    · simp only [he, bind_eq_ok, pure, Except.pure, Except.ok.injEq, split_eq_ok,
        hclean.cleaned_eq, if_true]
      constructor
      · rintro ⟨_, ⟨hb, hd, rfl⟩, n, hp, rfl⟩
        exact ⟨hclean, trivial, ⟨hb, hd, n, hp⟩, rfl⟩
      · rintro ⟨-, -, ⟨hb, hd, n, hp⟩, rfl⟩
        exact ⟨_, ⟨hb, hd, rfl⟩, n, hp, rfl⟩
    · simp [he, bind, Except.bind, pure, Except.pure]

theorem check_eq_ok {url : String} : check url = .ok () ↔
    IsClean url.toList ∧ escapesOk url.toList = true ∧ NetlocOk (partsOf url.toList).netloc := by
  unfold check
  constructor
  · intro h
    cases hc : checkChars url.toList with
    | error e =>
      rw [hc] at h
      cases h
    | ok parts =>
      obtain ⟨hclean, he, hok, -⟩ := checkChars_eq_ok.mp hc
      exact ⟨hclean, he, hok⟩
  · rintro ⟨hclean, he, hok⟩
    rw [checkChars_eq_ok.mpr ⟨hclean, he, hok, rfl⟩]
    rfl

theorem checkOrigin_eq_ok {origin : String} : checkOrigin origin = .ok () ↔
    check origin = .ok () ∧ (partsOf origin.toList).scheme ≠ [] ∧
      (partsOf origin.toList).netloc ≠ [] := by
  rw [check_eq_ok]
  simp only [checkOrigin, bind_eq_ok, checkChars_eq_ok]
  constructor
  · rintro ⟨_, ⟨hclean, he, hok, rfl⟩, h⟩
    refine ⟨⟨hclean, he, hok⟩, ?_⟩
    by_contra hn
    rw [not_and_or, not_not, not_not] at hn
    rw [if_pos hn] at h
    cases h
  · rintro ⟨⟨hclean, he, hok⟩, hs, hn⟩
    refine ⟨_, ⟨hclean, he, hok, rfl⟩, ?_⟩
    rw [if_neg (by simp [hs, hn])]
    rfl

/-! ### Going on -/

theorem escapesOk_cons_of_ne {c : Char} (hc : c ≠ '%') (cs : List Char) :
    escapesOk (c :: cs) = escapesOk cs := by
  rw [escapesOk]
  · exact fun _ _ _ h => absurd h hc
  · exact hc

/-- An escape that is complete stays so. -/
theorem escapesOk_append {u : List Char} (p : List Char) (h : escapesOk u = true) :
    escapesOk (u ++ p) = escapesOk p := by
  fun_induction escapesOk u with
  | case1 => rfl
  | case2 a b cs ih =>
    simp only [Bool.and_eq_true] at h
    simp only [List.cons_append, escapesOk, h.1.1, h.1.2, Bool.true_and]
    exact ih h.2
  | case3 => cases h
  | case4 c cs _ hc ih => rw [List.cons_append, escapesOk_cons_of_ne hc, ih h]

/-- A text is cut at its first `c`, whatever follows. -/
theorem cut_append {c : Char} {u : List Char} (h : c ∈ u) (p : List Char) :
    before c (u ++ p) = before c u ∧ after c (u ++ p) = after c u ++ p := by
  obtain ⟨x, y, rfl, hx⟩ := List.eq_append_cons_of_mem h
  have hpos : ∀ d ∈ x, (d != c) = true := by
    intro d hd
    rw [bne_iff_ne]
    rintro rfl
    exact hx hd
  unfold before after
  rw [List.append_assoc, List.cons_append, List.takeWhile_append_of_pos hpos,
    List.takeWhile_append_of_pos hpos, List.dropWhile_append_of_pos hpos,
    List.dropWhile_append_of_pos hpos]
  simp

theorem splitScheme_append {u : List Char} (h : (splitScheme u).1 ≠ []) (p : List Char) :
    splitScheme (u ++ p) = ((splitScheme u).1, (splitScheme u).2 ++ p) := by
  by_cases hu : (u.contains ':' && isScheme (before ':' u)) = true
  · have hmem : ':' ∈ u := by
      simp only [Bool.and_eq_true, List.contains_iff_mem] at hu
      exact hu.1
    obtain ⟨hbefore, hafter⟩ := cut_append hmem p
    have hup : ((u ++ p).contains ':' && isScheme (before ':' (u ++ p))) = true := by
      rw [hbefore]
      simp only [Bool.and_eq_true, List.contains_iff_mem, List.mem_append] at hu ⊢
      exact ⟨.inl hu.1, hu.2⟩
    rw [splitScheme, splitScheme, if_pos hu, if_pos hup, hbefore, hafter]
  · rw [splitScheme, if_neg hu] at h
    exact absurd rfl h

theorem splitNetloc_append {u : List Char} (h : (splitNetloc u).1 ≠ []) (p : List Char) :
    (splitNetloc (u ++ p)).1 = (splitNetloc u).1 ++
      if (splitNetloc u).2 = [] then p.takeWhile (!endsNetloc ·) else [] := by
  unfold splitNetloc at h
  split at h
  · next cs =>
    simp only [List.cons_append, splitNetloc]
    rw [List.takeWhile_append]
    by_cases hd : cs.dropWhile (!endsNetloc ·) = []
    · have ht : cs.takeWhile (!endsNetloc ·) = cs := by
        have := List.takeWhile_append_dropWhile (p := (!endsNetloc ·)) (l := cs)
        rwa [hd, List.append_nil] at this
      rw [if_pos (by rw [ht]), if_pos hd, ht]
    · rw [if_neg hd, if_neg, List.append_nil]
      intro hl
      have := congrArg List.length
        (List.takeWhile_append_dropWhile (p := (!endsNetloc ·)) (l := cs))
      rw [List.length_append, hl] at this
      exact hd (List.eq_nil_of_length_eq_zero (by omega))
  · exact absurd rfl h

/-- The network location of a text that goes on. -/
def extended (u p : List Char) : List Char :=
  (partsOf u).netloc ++ if (partsOf u).tail = [] then p.takeWhile (!endsNetloc ·) else []

theorem netloc_append {u : List Char} (hs : (partsOf u).scheme ≠ []) (hn : (partsOf u).netloc ≠ [])
    (p : List Char) : (partsOf (u ++ p)).netloc = extended u p := by
  change (splitNetloc (splitScheme (u ++ p)).2).1 = _
  rw [splitScheme_append hs]
  exact splitNetloc_append hn p

/-! ### Origins and paths -/

/-- A text that can stand in an address behind an origin. -/
structure PathOk (path : String) : Prop where
  clean : IsClean path.toList
  escapes : escapesOk path.toList = true

theorem pathOk_empty : PathOk "" := ⟨by simp [IsClean], rfl⟩

/-- A path fits an origin if the network location of both together is in order. -/
def Fits (origin path : String) : Prop := NetlocOk (extended origin.toList path.toList)

/-- What an origin and a path are together is accepted exactly if they fit. -/
theorem check_append_iff {origin path : String} (ho : checkOrigin origin = .ok ())
    (hp : PathOk path) : check (origin ++ path) = .ok () ↔ Fits origin path := by
  obtain ⟨hcheck, hs, hn⟩ := checkOrigin_eq_ok.mp ho
  obtain ⟨hclean, he, -⟩ := check_eq_ok.mp hcheck
  rw [check_eq_ok, String.toList_append, isClean_append, escapesOk_append _ he,
    netloc_append hs hn]
  constructor
  · exact fun h => h.2.2
  · exact fun h => ⟨⟨hclean, hp.clean⟩, hp.escapes, h⟩

theorem pathOk_of_check {origin path : String} (ho : checkOrigin origin = .ok ())
    (h : check (origin ++ path) = .ok ()) : PathOk path := by
  obtain ⟨-, he, -⟩ := check_eq_ok.mp (checkOrigin_eq_ok.mp ho).1
  rw [check_eq_ok, String.toList_append, isClean_append, escapesOk_append _ he] at h
  exact ⟨h.1.2, h.2.1⟩

/-- A path that ends a network location fits every origin. -/
theorem fits_of_endsNetloc {origin path : String} {c : Char} (ho : checkOrigin origin = .ok ())
    (hc : path.toList.head? = some c) (he : endsNetloc c = true) : Fits origin path := by
  obtain ⟨-, -, hok⟩ := check_eq_ok.mp (checkOrigin_eq_ok.mp ho).1
  have hnil : path.toList.takeWhile (!endsNetloc ·) = [] := by
    cases hp : path.toList with
    | nil => rfl
    | cons d ds =>
      rw [hp] at hc
      obtain rfl := Option.some.inj hc
      rw [List.takeWhile_cons_of_neg (by simp [he])]
  rw [Fits, extended, hnil, ite_self, List.append_nil]
  exact hok

end PageDiff.Url
