import PageDiff.Path.FileName
import PageDiff.Proofs.Url.Extension

/-!
# Addresses below an origin

An accepted origin goes on with a text that is empty or ends a network location.  The scheme and
the network location of the whole are then those of the origin, whatever follows, and no escape
lies across the seam.  Main statement (`check_below_origin`): only the characters and the escapes
of the added text decide whether the whole is accepted, and the whole has the host of the origin.
-/

namespace PageDiff.Url

open PageDiff.Path PageDiff.Text

variable {u p : List Char} {origin path : String}

/-! ### Escapes -/

/-- A text that starts with two hexadecimal digits. -/
def StartsHex (cs : List Char) : Prop :=
  ∃ a b more, cs = a :: b :: more ∧ isHexDigit a = true ∧ isHexDigit b = true

/-- Two hexadecimal digits follow every percent sign. -/
def EscapesComplete (cs : List Char) : Prop :=
  ∀ front rest, cs = front ++ '%' :: rest → StartsHex rest

theorem startsHex_iff {a b : Char} {cs : List Char} :
    StartsHex (a :: b :: cs) ↔ isHexDigit a = true ∧ isHexDigit b = true := by
  constructor
  · rintro ⟨c, d, more, h, hc, hd⟩
    obtain ⟨rfl, htail⟩ := List.cons.inj h
    obtain ⟨rfl, -⟩ := List.cons.inj htail
    exact ⟨hc, hd⟩
  · exact fun h => ⟨a, b, cs, rfl, h⟩

theorem escapesComplete_nil : EscapesComplete [] := by
  intro front rest h
  simp at h

theorem escapesComplete_cons {c : Char} {cs : List Char} : EscapesComplete (c :: cs) ↔
    (c = '%' → StartsHex cs) ∧ EscapesComplete cs := by
  constructor
  · intro h
    refine ⟨?_, fun front rest hcs => h (c :: front) rest (by rw [hcs, List.cons_append])⟩
    rintro rfl
    exact h [] cs rfl
  · rintro ⟨hfirst, hlater⟩ front rest hcs
    cases front with
    | nil =>
      obtain ⟨rfl, rfl⟩ := List.cons.inj hcs
      exact hfirst rfl
    | cons d front => exact hlater front rest (List.cons.inj hcs).2

theorem escapesOk_iff (cs : List Char) : escapesOk cs = true ↔ EscapesComplete cs := by
  fun_induction escapesOk cs with
  | case1 => simp [escapesComplete_nil]
  | case2 a b cs ih =>
    rw [escapesComplete_cons, startsHex_iff, Bool.and_eq_true, Bool.and_eq_true, ih]
    simp
  | case3 cs hshort =>
    -- fewer than two characters are left
    rw [escapesComplete_cons]
    simp only [Bool.false_eq_true, forall_const, false_iff, not_and]
    rintro ⟨a, b, more, rfl, -⟩
    exact absurd rfl (hshort a b more)
  | case4 c cs _ hc ih =>
    have hne : c ≠ '%' := fun h => hc h
    rw [escapesComplete_cons, ih]
    simp [hne]

/-! ### Where a network location ends -/

/-- A text in front of which a network location ends: it is empty, or starts with a slash, a
question mark or a hash. -/
def EndsBefore (cs : List Char) : Prop := ∀ c, cs.head? = some c → c = '/' ∨ c = '?' ∨ c = '#'

theorem EndsBefore.endsNetloc (hp : EndsBefore p) :
    ∀ c, p.head? = some c → (!endsNetloc c) = false := by
  intro c hc
  rcases hp c hc with rfl | rfl | rfl
  · rfl
  · rfl
  · rfl

/-- A text is cut at the same place, whatever is added, if the added text is cut at once. -/
theorem span_append {q : Char → Bool} (hp : ∀ c, p.head? = some c → q c = false) :
    (u ++ p).takeWhile q = u.takeWhile q ∧ (u ++ p).dropWhile q = u.dropWhile q ++ p := by
  induction u with
  | nil =>
    cases p with
    | nil => simp
    | cons c p =>
      have hc : q c = false := hp c rfl
      simp [hc]
  | cons d u ih => by_cases hd : q d = true <;> simp [hd, ih]

theorem splitNetloc_append_endsBefore (hn : (splitNetloc u).1 ≠ []) (hp : EndsBefore p) :
    splitNetloc (u ++ p) = ((splitNetloc u).1, (splitNetloc u).2 ++ p) := by
  unfold splitNetloc at hn
  split at hn
  · next cs =>
    obtain ⟨htake, hdrop⟩ := span_append (u := cs) hp.endsNetloc
    simp only [List.cons_append, splitNetloc, htake, hdrop]
  · exact absurd rfl hn

/-- The added text follows all parts of an origin. -/
theorem partsOf_append (hs : (partsOf u).scheme ≠ []) (hn : (partsOf u).netloc ≠ [])
    (hp : EndsBefore p) :
    partsOf (u ++ p) = { partsOf u with tail := (partsOf u).tail ++ p } := by
  unfold partsOf at hs hn ⊢
  simp only [splitScheme_append hs, splitNetloc_append_endsBefore hn hp]

/-! ### Origins that go on -/

/-- An origin and what it becomes with a text behind it: only the rest of the address has grown,
and both have the same host. -/
structure GoesOn (origin path : String) : Prop where
  parts : ∃ base, split origin.toList = .ok base ∧
    split (origin ++ path).toList = .ok { base with tail := base.tail ++ path.toList }
  host : ∃ host, hostPart origin = .ok host ∧ hostPart (origin ++ path) = .ok host

theorem goesOn_of_check (ho : checkOrigin origin = .ok ()) (hp : EndsBefore path.toList)
    (h : check (origin ++ path) = .ok ()) : GoesOn origin path := by
  obtain ⟨hcheck, hs, hn⟩ := checkOrigin_eq_ok.mp ho
  obtain ⟨hclean, -, hok⟩ := check_eq_ok.mp hcheck
  obtain ⟨hclean', -, hok'⟩ := check_eq_ok.mp h
  have hbase : split origin.toList = .ok (partsOf origin.toList) := by
    rw [split_eq_ok, hclean.cleaned_eq]
    exact ⟨hok.brackets, hok.delimiters, rfl⟩
  have hwhole : split (origin ++ path).toList = .ok (partsOf (origin ++ path).toList) := by
    rw [split_eq_ok, hclean'.cleaned_eq]
    exact ⟨hok'.brackets, hok'.delimiters, rfl⟩
  have hparts : partsOf (origin ++ path).toList =
      { partsOf origin.toList with tail := (partsOf origin.toList).tail ++ path.toList } := by
    rw [String.toList_append]
    exact partsOf_append hs hn hp
  refine ⟨⟨_, hbase, hparts ▸ hwhole⟩,
    String.ofList (fileNameChars (partsOf origin.toList).netloc), ?_, ?_⟩
  · rw [hostPart, hbase]
    rfl
  · rw [hostPart, hwhole, hparts]
    rfl

/-- **Addresses below an origin.**  An accepted origin that goes on with a text in front of which a
network location ends is accepted exactly if the text holds no control character and no space, and
two hexadecimal digits follow each of its percent signs.  Scheme, network location and host are
then those of the origin. -/
theorem check_below_origin (ho : checkOrigin origin = .ok ()) (hp : EndsBefore path.toList) :
    (check (origin ++ path) = .ok () ↔ IsClean path.toList ∧ EscapesComplete path.toList) ∧
      (check (origin ++ path) = .ok () → GoesOn origin path) := by
  refine ⟨?_, goesOn_of_check ho hp⟩
  obtain ⟨hcheck, hs, hn⟩ := checkOrigin_eq_ok.mp ho
  obtain ⟨hclean, he, hok⟩ := check_eq_ok.mp hcheck
  have hnetloc : (partsOf (origin.toList ++ path.toList)).netloc =
      (partsOf origin.toList).netloc := by
    rw [partsOf_append hs hn hp]
  rw [check_eq_ok, String.toList_append, isClean_append, escapesOk_append _ he, escapesOk_iff,
    hnetloc]
  constructor
  · exact fun h => ⟨h.1.2, h.2.1⟩
  · exact fun h => ⟨⟨hclean, h.1⟩, h.2, hok⟩

/-- An origin with a user, a numeric host and a port, and a query with escapes. -/
theorem check_below_origin_numericHost :
    checkOrigin "HTTP://me@[::1%25x]:80" = .ok () ∧ EndsBefore "?q=%E2%9C%93/@:80".toList ∧
      check ("HTTP://me@[::1%25x]:80" ++ "?q=%E2%9C%93/@:80") = .ok () ∧
      GoesOn "HTTP://me@[::1%25x]:80" "?q=%E2%9C%93/@:80" := by
  have ho : checkOrigin "HTTP://me@[::1%25x]:80" = .ok () := by decide +kernel
  have hp : EndsBefore "?q=%E2%9C%93/@:80".toList := by
    intro c hc
    obtain rfl : '?' = c := by simpa using hc
    exact .inr (.inl rfl)
  have hwhole : check ("HTTP://me@[::1%25x]:80" ++ "?q=%E2%9C%93/@:80") = .ok () := by
    decide +kernel
  exact ⟨ho, hp, hwhole, (check_below_origin ho hp).2 hwhole⟩

end PageDiff.Url
