import PageDiff.Proofs.Script.Spelling
import PageDiff.Proofs.Script.Step

/-!
# The layout of a script

A script may be laid out anew: its lines may be spelled in another way, comments may come and go,
and runs of blank lines may become longer or shorter.  `Relaid rows rows' follow` says that `rows'`
comes of `rows` by any number of such changes, and that the line at position `i` stands at position
`follow i` then.  Main statement (`layout_free`): the script makes the same test cases, or it is
refused where the refused line stands now.

`Agrees` compares the runs of two lists of lines.  One change in the middle of a script keeps them
in agreement (`agrees_between`), and so do all changes one after the other.
-/

namespace PageDiff.Script

open PageDiff.Text

variable {s : State} {raw raw' : List Char} {rows rows' front old new back : List (List Char)}
  {follow follow' : Nat → Nat} {i : Nat}

/-! ### Changes of layout -/

/-- A line that is a remark. -/
def IsComment (raw : List Char) : Prop := (strip raw).head? = some '#'

instance : DecidablePred IsComment :=
  fun raw => inferInstanceAs (Decidable ((strip raw).head? = some '#'))

/-- Blank lines, at least one. -/
structure IsBlankRun (gap : List (List Char)) : Prop where
  nonempty : gap ≠ []
  blank : ∀ raw ∈ gap, strip raw = []

instance (gap : List (List Char)) : Decidable (IsBlankRun gap) :=
  decidable_of_iff (gap ≠ [] ∧ ∀ raw ∈ gap, strip raw = [])
    ⟨fun h => ⟨h.1, h.2⟩, fun h => ⟨h.1, h.2⟩⟩

/-- Lines that may take the place of others. -/
inductive Change : List (List Char) → List (List Char) → Prop
  | respelled {raw raw' : List Char} (h : Line.Respelled raw raw') : Change [raw] [raw']
  | restored {raw raw' : List Char} (h : Line.Respelled raw' raw) : Change [raw] [raw']
  | inserted {raw : List Char} (h : IsComment raw) : Change [] [raw]
  | deleted {raw : List Char} (h : IsComment raw) : Change [raw] []
  | spaced {gap gap' : List (List Char)} (h : IsBlankRun gap) (h' : IsBlankRun gap') :
      Change gap gap'

/-- Where a line stands after `old` lines behind the first `front` lines have become `new` lines. -/
def moved (front old new i : Nat) : Nat := if i < front + old then i else i - old + new

theorem moved_of_lt {m n k : Nat} (h : i < m + n) : moved m n k i = i := if_pos h

theorem moved_of_le {m n k : Nat} (h : m + n ≤ i) : moved m n k i = i - n + k :=
  if_neg (Nat.not_lt.mpr h)

/-- Lines laid out anew, and where each of the old lines stands then. -/
inductive Relaid (rows : List (List Char)) : List (List Char) → (Nat → Nat) → Prop
  | refl : Relaid rows rows id
  | change {front old new back : List (List Char)} {follow : Nat → Nat}
      (earlier : Relaid rows (front ++ (old ++ back)) follow) (h : Change old new) :
      Relaid rows (front ++ (new ++ back)) (moved front.length old.length new.length ∘ follow)

/-! ### Runs in agreement -/

/-- What has become of lines, and of other lines: the same, or a refusal in both cases and the
refused line is the one that `follow` tells. -/
inductive Agrees (follow : Nat → Nat) : Except (Nat × Problem) (State × List TestCase) →
    Except (Nat × Problem) (State × List TestCase) → Prop
  | accepted (r : State × List TestCase) : Agrees follow (.ok r) (.ok r)
  | refused (i : Nat) (problem problem' : Problem) :
      Agrees follow (.error (i, problem)) (.error (follow i, problem'))

theorem Agrees.refused_at {j : Nat} (h : follow i = j) (problem problem' : Problem) :
    Agrees follow (.error (i, problem)) (.error (j, problem')) := by
  rw [← h]
  exact .refused i problem problem'

theorem Agrees.trans {x y z : Except (Nat × Problem) (State × List TestCase)}
    (h : Agrees follow x y) (h' : Agrees follow' y z) : Agrees (follow' ∘ follow) x z := by
  cases h with
  | accepted r =>
    cases h' with
    | accepted => exact .accepted r
  | refused i problem problem' =>
    cases h' with
    | refused _ _ problem'' => exact .refused i problem problem''

/-- The number of the first line only shifts the number of the refused one. -/
theorem State.run_number (s : State) (n : Nat) (rows : List (List Char)) :
    s.run n rows = (s.run 0 rows).mapError fun e => (n + e.1, e.2) := by
  induction rows generalizing s n with
  | nil => rfl
  | cons raw rows ih =>
    unfold State.run
    cases s.step (dropReturn raw) with
    | error problem => rfl
    | ok r =>
      obtain ⟨next, made⟩ := r
      simp only
      rw [ih next (n + 1), ih next (0 + 1)]
      cases next.run 0 rows with
      | error e =>
        show Except.error (n + 1 + e.1, e.2) = Except.error (n + (0 + 1 + e.1), e.2)
        rw [Nat.zero_add, Nat.add_assoc]
      | ok r => rfl

theorem State.lt_length_of_run_eq_error {problem : Problem}
    (h : s.run 0 rows = .error (i, problem)) : i < rows.length := by
  obtain ⟨before, raw, after, mid, cases, rfl, rfl, -⟩ := run_eq_error.mp h
  rw [List.length_append, List.length_cons]
  omega

/-! ### One change -/

theorem run_blankRun {gap : List (List Char)} (h : IsBlankRun gap) (s : State) (n : Nat) :
    s.run n gap = .ok (s.forgetBlock, []) := by
  obtain ⟨hne, hblank⟩ := h
  induction gap generalizing s n with
  | nil => exact absurd rfl hne
  | cons raw rest ih =>
    have hread : Line.read raw = .blank := read_eq_blank.mpr (hblank raw List.mem_cons_self)
    unfold State.run State.step
    rw [read_dropReturn, hread]
    have hrest : s.forgetBlock.run (n + 1) rest = .ok (s.forgetBlock, []) := by
      by_cases hnil : rest = []
      · rw [hnil]
        rfl
      · -- a block that is forgotten can be forgotten again
        exact ih s.forgetBlock _ hnil fun raw hraw => hblank raw (List.mem_cons_of_mem _ hraw)
    simp only [State.obey, State.quiet, hrest]
    rfl

theorem read_of_isComment (h : IsComment raw) : Line.read raw = .comment := by
  have hhash : (strip raw).head? = some '#' := h
  rw [Line.read, Line.ofStripped, if_pos hhash]

theorem run_comment (h : IsComment raw) (s : State) (n : Nat) : s.run n [raw] = .ok (s, []) := by
  unfold State.run State.step
  rw [read_dropReturn, read_of_isComment h]
  rfl

theorem agrees_of_alike (h : Line.Alike (.read raw) (.read raw')) (s : State) :
    Agrees id (s.run 0 [raw]) (s.run 0 [raw']) := by
  have hobey := h.obey s
  unfold State.run State.step
  rw [read_dropReturn, read_dropReturn]
  cases hl : s.obey (.read raw) with
  | error problem =>
    cases hr : s.obey (.read raw') with
    | error problem' => exact .refused 0 problem problem'
    | ok r =>
      rw [hl, hr] at hobey
      cases hobey
  | ok r =>
    cases hr : s.obey (.read raw') with
    | error problem =>
      rw [hl, hr] at hobey
      cases hobey
    | ok r' =>
      rw [hl, hr] at hobey
      cases hobey
      exact .accepted _

/-- On their own, lines and those that take their place agree in every state. -/
theorem Change.agrees (h : Change old new) (s : State) :
    Agrees id (s.run 0 old) (s.run 0 new) := by
  cases h with
  | respelled h => exact agrees_of_alike h.alike s
  | restored h => exact agrees_of_alike h.alike.symm s
  | inserted h =>
    rw [run_comment h]
    exact .accepted (s, [])
  | deleted h =>
    rw [run_comment h]
    exact .accepted (s, [])
  | spaced h h' =>
    rw [run_blankRun h, run_blankRun h']
    exact .accepted _

/-- Lines that agree in every state may take each other's place between other lines. -/
theorem agrees_between (h : ∀ s : State, Agrees id (s.run 0 old) (s.run 0 new)) (s : State) :
    Agrees (moved front.length old.length new.length) (s.run 0 (front ++ (old ++ back)))
      (s.run 0 (front ++ (new ++ back))) := by
  rw [State.run_append, State.run_append]
  cases hfront : s.run 0 front with
  | error e =>
    obtain ⟨i, problem⟩ := e
    have hlt := State.lt_length_of_run_eq_error hfront
    exact .refused_at (moved_of_lt (by omega)) problem problem
  | ok r =>
    obtain ⟨mid, cases⟩ := r
    simp only [State.run_append]
    rw [mid.run_number _ old, mid.run_number _ new]
    generalize hold : mid.run 0 old = x
    generalize hnew : mid.run 0 new = y
    have hxy : Agrees id x y := hold ▸ hnew ▸ h mid
    cases hxy with
    | refused i problem problem' =>
      have hlt := State.lt_length_of_run_eq_error hold
      exact .refused_at (moved_of_lt (by omega)) problem problem'
    | accepted r =>
      obtain ⟨t, more⟩ := r
      simp only [Except.mapError]
      rw [t.run_number (0 + front.length + old.length), t.run_number (0 + front.length + new.length)]
      cases hback : t.run 0 back with
      | error e =>
        obtain ⟨j, problem⟩ := e
        have hj : moved front.length old.length new.length (0 + front.length + old.length + j) =
            0 + front.length + new.length + j := by
          rw [moved_of_le (by omega)]
          omega
        exact .refused_at hj problem problem
      | ok r => exact .accepted _

/-! ### Any number of changes -/

theorem Relaid.agrees (h : Relaid rows rows' follow) :
    Agrees follow (State.run {} 0 rows) (State.run {} 0 rows') := by
  induction h with
  | refl =>
    cases State.run {} 0 rows with
    | error e => exact .refused e.1 e.2 e.2
    | ok r => exact .accepted r
  | change earlier h ih => exact ih.trans (agrees_between h.agrees {})

/-- A line with a directive, or one that nobody understands. -/
def Line.Speaks : Line → Prop
  | .blank | .comment => False
  | .directive _ _ | .unknown _ => True

theorem Line.Alike.speaks {line line' : Line} (h : Line.Alike line line') (hl : line.Speaks) :
    line'.Speaks := by
  cases h with
  | same => exact hl
  | unknown => trivial
  | capture => trivial

theorem Line.speaks_of_obey_eq_error {line : Line} {s : State} {problem : Problem}
    (h : s.obey line = .error problem) : line.Speaks := by
  cases line with
  | blank => cases h
  | comment => cases h
  | directive => trivial
  | unknown => trivial

theorem IsComment.not_speaks (h : IsComment raw) : ¬ (Line.read raw).Speaks := by
  intro hspeaks
  rw [read_of_isComment h] at hspeaks
  exact hspeaks

theorem IsBlankRun.not_speaks {gap : List (List Char)} (h : IsBlankRun gap) (hraw : raw ∈ gap) :
    ¬ (Line.read raw).Speaks := by
  intro hspeaks
  rw [read_eq_blank.mpr (h.blank raw hraw)] at hspeaks
  exact hspeaks

/-- Where a line with something to say makes way for another, the two of them say the same. -/
theorem Change.alike_of_speaks (h : Change old new) (hraw : raw ∈ old)
    (hspeaks : (Line.read raw).Speaks) :
    ∃ raw', old = [raw] ∧ new = [raw'] ∧ Line.Alike (.read raw) (.read raw') := by
  cases h with
  | @respelled _ raw' h =>
    obtain rfl := List.mem_singleton.mp hraw
    exact ⟨raw', rfl, rfl, h.alike⟩
  | @restored _ raw' h =>
    obtain rfl := List.mem_singleton.mp hraw
    exact ⟨raw', rfl, rfl, h.alike.symm⟩
  | inserted h => cases hraw
  | deleted h =>
    obtain rfl := List.mem_singleton.mp hraw
    exact absurd hspeaks h.not_speaks
  | spaced h h' => exact absurd hspeaks (h.not_speaks hraw)

/-- A line with something to say is moved to a line that says the same. -/
theorem alike_of_moved (h : Change old new) (hi : (front ++ (old ++ back))[i]? = some raw)
    (hspeaks : (Line.read raw).Speaks) :
    ∃ raw', (front ++ (new ++ back))[moved front.length old.length new.length i]? = some raw' ∧
      Line.Alike (.read raw) (.read raw') := by
  by_cases hfront : i < front.length
  · rw [List.getElem?_append_left hfront] at hi
    refine ⟨raw, ?_, .same _⟩
    rw [moved_of_lt (by omega), List.getElem?_append_left hfront]
    exact hi
  · rw [List.getElem?_append_right (by omega)] at hi
    by_cases hold : i < front.length + old.length
    · rw [List.getElem?_append_left (by omega)] at hi
      obtain ⟨raw', rfl, rfl, halike⟩ := h.alike_of_speaks (List.mem_of_getElem? hi) hspeaks
      obtain rfl : i = front.length := by
        have hlength : i < front.length + 1 := hold
        omega
      refine ⟨raw', ?_, halike⟩
      rw [moved_of_lt hold, List.getElem?_append_right (Nat.le_refl _), Nat.sub_self]
      rfl
    · rw [List.getElem?_append_right (by omega)] at hi
      refine ⟨raw, ?_, .same _⟩
      rw [moved_of_le (by omega), List.getElem?_append_right (by omega),
        List.getElem?_append_right (by omega), ← hi]
      congr 1
      omega

theorem Relaid.alike (h : Relaid rows rows' follow) (hi : rows[i]? = some raw)
    (hspeaks : (Line.read raw).Speaks) :
    ∃ raw', rows'[follow i]? = some raw' ∧ Line.Alike (.read raw) (.read raw') := by
  induction h with
  | refl => exact ⟨raw, hi, .same _⟩
  | change earlier h ih =>
    obtain ⟨mid, hmid, halike⟩ := ih
    obtain ⟨raw', hraw', halike'⟩ := alike_of_moved h hmid (halike.speaks hspeaks)
    exact ⟨raw', hraw', halike.trans halike'⟩

/-- **The layout of a script is free.**  However a script is laid out anew, it makes the same test
cases, or it is refused as before: where the refused line stands now, which is a line that says the
same. -/
theorem layout_free {text : List Char} {script : Option String}
    (h : Relaid (lines text) rows follow) (hrows : ∀ row ∈ rows, '\n' ∉ row) :
    (∀ cases, compile text script = .ok cases → compile (joinLines rows) script = .ok cases) ∧
    (∀ e, compile text script = .error e →
      ∃ i problem, e.line = some ((i + 1 : Nat) : Int) ∧
        compile (joinLines rows) script =
          .error ⟨problem, some ((follow i + 1 : Nat) : Int), script⟩ ∧
        ∃ raw raw', (lines text)[i]? = some raw ∧ rows[follow i]? = some raw' ∧
          Line.Alike (.read raw) (.read raw')) := by
  rw [compile_eq_told, compile_joinLines hrows]
  have hagrees := h.agrees
  generalize hold : State.run {} 0 (lines text) = x at hagrees
  generalize hnew : State.run {} 0 rows = y at hagrees
  rw [State.run_number _ 1 (lines text), State.run_number _ 1 rows, hold, hnew]
  cases hagrees with
  | accepted r =>
    constructor
    · intro cases h
      exact h
    · intro e h
      cases h
  | refused i problem problem' =>
    constructor
    · intro cases h
      cases h
    · intro e he
      cases he
      obtain ⟨before, raw, after, mid, made, htext, hi, -, hobey⟩ := State.run_eq_error.mp hold
      have hraw : (lines text)[i]? = some raw := by
        rw [htext, hi, Nat.zero_add, List.getElem?_append_right (Nat.le_refl _), Nat.sub_self]
        rfl
      obtain ⟨raw', hraw', halike⟩ := h.alike hraw (Line.speaks_of_obey_eq_error hobey)
      refine ⟨i, problem', ?_, ?_, raw, raw', hraw, hraw', halike⟩
      · rw [Nat.add_comm]
      · rw [Nat.add_comm (follow i)]
        rfl

/-- A block with one more line behind it. -/
def closeRows (last : List Char) : List (List Char) :=
  ["compare http://a http://b".toList, "".toList, "pathname /x".toList,
    "capture viewport 5x6".toList, last]

/-- The same lines, laid out with more space. -/
def airyRows (last : List Char) : List (List Char) :=
  [" compare \thttp://a http://b\r".toList, "".toList, "\t".toList, "pathname /x".toList,
    "# one size".toList, "Capture viewPORT\t5x6".toList, last]

/-- How a capture of the block is spelled with more space. -/
theorem change_capture : ∃ mid mid', Change ["capture viewport 5x6".toList] [mid] ∧
    Change [mid] [mid'] ∧ Change [mid'] ["Capture viewPORT\t5x6".toList] := by
  have hcapture : Line.Opens [] "capture".toList := by decide +kernel
  have hletters : SameLetters "capture".toList "Capture".toList := by decide +kernel
  have hcapital : Line.Opens [] "Capture".toList := hcapture.of_sameLetters hletters
  have hspace : IsGapRun [' '] := by decide +kernel
  have htab : IsGapRun ['\t'] := by decide +kernel
  have hkind : SameLetters "viewport".toList "viewPORT".toList := by decide +kernel
  have hword : IsWord "viewport".toList := by decide +kernel
  refine ⟨"Capture viewport 5x6".toList, "Capture viewPORT 5x6".toList, .respelled ?_,
    .respelled ?_, .respelled ?_⟩
  · exact .letters " viewport 5x6".toList hcapture hletters
  · exact .kindLetters " 5x6".toList hcapital (by decide +kernel) hspace hword hkind
  · exact .kindGap "5x6".toList hcapital (by decide +kernel) hspace (hword.of_sameLetters hkind)
      hspace htab

theorem relaid_airyRows (last : List Char) :
    ∃ follow, Relaid (closeRows last) (airyRows last) follow ∧ follow 4 = 6 := by
  have hcompare : Line.Opens [] "compare".toList := by decide +kernel
  have hspace : IsGapRun [' '] := by decide +kernel
  have hwide : IsGapRun [' ', '\t'] := by decide +kernel
  have hgap : Change ["compare http://a http://b".toList]
      ["compare \thttp://a http://b".toList] :=
    .respelled (.gap "http://a http://b".toList hcompare hspace hwide)
  have hpadded : Change ["compare \thttp://a http://b".toList]
      [" compare \thttp://a http://b".toList] :=
    .respelled (@Line.Respelled.padded [' '] [] _ (List.forall_mem_singleton.mpr rfl)
      (List.forall_mem_nil _))
  have hreturned : Change [" compare \thttp://a http://b".toList]
      [" compare \thttp://a http://b\r".toList] :=
    .respelled (.returned _)
  have hspaced : Change ["".toList] ["".toList, "\t".toList] :=
    .spaced (by decide +kernel) (by decide +kernel)
  have hinserted : Change [] ["# one size".toList] := .inserted (by decide +kernel)
  obtain ⟨mid, mid', hletters, hkind, hkindGap⟩ := change_capture
  have h₁ := @Relaid.change (closeRows last) [] _ _ _ _ .refl hgap
  have h₂ := @Relaid.change (closeRows last) [] _ _ _ _ h₁ hpadded
  have h₃ := @Relaid.change (closeRows last) [] _ _ _ _ h₂ hreturned
  have h₄ := @Relaid.change (closeRows last) [_] _ _ _ _ h₃ hspaced
  have h₅ := @Relaid.change (closeRows last) [_, _, _, _] _ _ _ _ h₄ hinserted
  have h₆ := @Relaid.change (closeRows last) [_, _, _, _, _] _ _ _ _ h₅ hletters
  have h₇ := @Relaid.change (closeRows last) [_, _, _, _, _] _ _ _ _ h₆ hkind
  have h₈ := @Relaid.change (closeRows last) [_, _, _, _, _] _ _ _ _ h₇ hkindGap
  exact ⟨_, h₈, rfl⟩

def closeCases : List TestCase :=
  [⟨"/x 5x6", "/x", "http://a", "http://b", [], 5, 6, .viewport⟩,
    ⟨"/x", "/x", "http://a", "http://b", [], 0, 0, .fullPage⟩]

theorem layout_free_airyRows :
    (compile (joinLines (closeRows "capture fullscreen".toList)) = .ok closeCases ∧
      compile (joinLines (airyRows "capture fullscreen".toList)) = .ok closeCases) ∧
    compile (joinLines (closeRows "capture full".toList)) =
      .error ⟨.captureKind "full", some 5, none⟩ ∧
    ∃ problem, compile (joinLines (airyRows "capture full".toList)) =
      .error ⟨problem, some 7, none⟩ := by
  have hok : compile (joinLines (closeRows "capture fullscreen".toList)) = .ok closeCases := by
    decide +kernel
  have herr : compile (joinLines (closeRows "capture full".toList)) =
      .error ⟨.captureKind "full", some 5, none⟩ := by decide +kernel
  have hlines : ∀ last ∈ ["capture fullscreen".toList, "capture full".toList],
      lines (joinLines (closeRows last)) = closeRows last ∧
        ∀ row ∈ airyRows last, '\n' ∉ row := by decide +kernel
  obtain ⟨hlinesOk, hrowsOk⟩ := hlines _ List.mem_cons_self
  obtain ⟨hlinesErr, hrowsErr⟩ := hlines _ (List.mem_cons_of_mem _ List.mem_cons_self)
  obtain ⟨followOk, hrelaidOk, -⟩ := relaid_airyRows "capture fullscreen".toList
  obtain ⟨follow, hrelaid, hlast⟩ := relaid_airyRows "capture full".toList
  rw [← hlinesOk] at hrelaidOk
  rw [← hlinesErr] at hrelaid
  obtain ⟨i, problem, hi, hrefused, -⟩ := (layout_free hrelaid hrowsErr).2 _ herr
  obtain rfl : i = 4 := by
    have hline : (5 : Int) = ((i + 1 : Nat) : Int) := Option.some.inj hi
    omega
  rw [hlast] at hrefused
  exact ⟨⟨hok, (layout_free hrelaidOk hrowsOk).1 _ hok⟩, herr, problem, hrefused⟩

end PageDiff.Script
