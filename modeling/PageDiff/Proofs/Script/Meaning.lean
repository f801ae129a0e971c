import PageDiff.Proofs.Script.Step

/-!
# What a script means

`DescribedBy` says what the lines in front of a capture, and the capture itself, make of a test
case.  Main statement: the test cases of a script are, capture by capture, the ones described so,
and apart from its name nothing else is left open of any of them (`compile_meaning`).  The
invariant is `Reflects`: the state of the compiler is what the lines so far leave in force.
-/

namespace PageDiff.Script

open PageDiff.Text

variable {s t : State} {made : Option TestCase} {raw : List Char} {before : List (List Char)}

/-! ### The invariant -/

/-- The size that lines leave in force: that of the last line that gives one. -/
def WindowAfter (before : List (List Char)) (window : Int × Int) : Prop :=
  match lastArgument? .windowsize before with
  | none => window = (0, 0)
  | some args => ∃ w h : Nat, IsSize args.toList w h ∧ window = ((w : Int), (h : Int))

/-- The origins that lines leave in force: those of the last line that gives them. -/
def OriginsAfter (before : List (List Char)) (originA originB : String) : Prop :=
  match lastArgument? .compare before with
  | none => originA = "" ∧ originB = ""
  | some args => IsPair args originA originB

/-- A state holds what the lines so far leave in force. -/
structure Reflects (before : List (List Char)) (s : State) : Prop where
  window : WindowAfter before s.window
  origins : OriginsAfter before s.originA s.originB
  pathname : s.block.pathname = (lastArgument? .pathname (blockOf before)).getD ""
  actions : s.block.actions = actionsOf (blockOf before)

theorem reflects_nil : Reflects [] {} := ⟨rfl, ⟨rfl, rfl⟩, rfl, rfl⟩

theorem Reflects.next (hr : Reflects before s) (he : State.Effect s (Line.read raw) t made) :
    Reflects (before ++ [raw]) t := by
  refine ⟨?_, ?_, ?_, ?_⟩
  · unfold WindowAfter
    rw [lastArgument?_concat]
    cases h : argument? .windowsize raw with
    | none =>
      rw [he.window_eq h]
      exact hr.window
    | some args => exact he.window_of_some h
  · unfold OriginsAfter
    rw [lastArgument?_concat]
    cases h : argument? .compare raw with
    | none =>
      obtain ⟨ha, hb⟩ := he.origins_eq h
      rw [ha, hb]
      exact hr.origins
    | some args => exact (he.origins_of_some h).1
  · by_cases hb : Line.read raw = .blank
    · rw [he.block_of_blank hb, blockOf_concat_of_blank hb]
      rfl
    · rw [blockOf_concat hb, lastArgument?_concat]
      cases h : argument? .pathname raw with
      | none =>
        rw [he.pathname_eq hb h, hr.pathname]
        rfl
      | some args =>
        rw [he.pathname_of_some h]
        rfl
  · by_cases hb : Line.read raw = .blank
    · rw [he.block_of_blank hb, blockOf_concat_of_blank hb]
      rfl
    · rw [blockOf_concat hb, actionsOf_concat, he.actions_eq hb, hr.actions]

/-! ### The test cases -/

/-- What a test case shows and in which size, by the argument of its capture and the size in
force. -/
def ShownAs (before : List (List Char)) (args : String) (tc : TestCase) : Prop :=
  ∃ size?, Asks args tc.capture size? ∧
    match size? with
    | some (w, h) => (tc.width, tc.height) = ((w : Int), (h : Int))
    | none => WindowAfter before (tc.width, tc.height)

/-- A test case, apart from its name, as the lines in front of its capture and the argument of the
capture describe it. -/
structure DescribedBy (before : List (List Char)) (args : String) (tc : TestCase) : Prop where
  origins : ∃ pair, lastArgument? .compare before = some pair ∧ IsPair pair tc.originA tc.originB
  pathname : lastArgument? .pathname (blockOf before) = some tc.pathname
  actions : tc.actions = actionsOf (blockOf before)
  shown : ShownAs before args tc

theorem WindowAfter.unique {window window' : Int × Int} (h : WindowAfter before window)
    (h' : WindowAfter before window') : window = window' := by
  unfold WindowAfter at h h'
  cases hl : lastArgument? .windowsize before with
  | none =>
    rw [hl] at h h'
    exact h.trans h'.symm
  | some args =>
    rw [hl] at h h'
    obtain ⟨w, k, hs, rfl⟩ := h
    obtain ⟨w', k', hs', rfl⟩ := h'
    obtain ⟨rfl, rfl⟩ := hs.unique hs'
    rfl

theorem DescribedBy.unique {args : String} {tc other : TestCase} (h : DescribedBy before args tc)
    (h' : DescribedBy before args other) : other = { tc with name := other.name } := by
  obtain ⟨pair, hp, hpair⟩ := h.origins
  obtain ⟨pair', hp', hpair'⟩ := h'.origins
  obtain rfl := Option.some.inj (hp.symm.trans hp')
  obtain ⟨hA, hB⟩ := hpair.unique hpair'
  have hpath := Option.some.inj (h.pathname.symm.trans h'.pathname)
  have hact := h.actions.trans h'.actions.symm
  obtain ⟨size?, ha, hsize⟩ := h.shown
  obtain ⟨size?', ha', hsize'⟩ := h'.shown
  obtain ⟨hcap, rfl⟩ := ha.unique ha'
  have hwh : (tc.width, tc.height) = (other.width, other.height) := by
    cases size? with
    | none => exact WindowAfter.unique hsize hsize'
    | some size => exact hsize.trans hsize'.symm
  obtain ⟨hw, hh⟩ := Prod.mk.inj hwh
  obtain ⟨name, path, A, B, acts, w, k, cap⟩ := tc
  obtain ⟨name', path', A', B', acts', w', k', cap'⟩ := other
  simp only at hA hB hpath hact hcap hw hh
  subst hA hB hpath hact hcap hw hh
  rfl

theorem describedBy_of_capture {args : String} (hr : Reflects before s)
    (he : State.Effect s (.directive .capture args) t made) :
    ∃ tc, made = some tc ∧ DescribedBy before args tc := by
  cases he with
  | @capture _ shown size? origins path asks fresh =>
    refine ⟨_, rfl, ?_, ?_, hr.actions, size?, asks, ?_⟩
    · -- without a comparison the origins would be empty
      have ho := hr.origins
      unfold OriginsAfter at ho
      cases hc : lastArgument? .compare before with
      | none =>
        rw [hc] at ho
        simp [State.hasOrigins, ho.1] at origins
      | some pair =>
        rw [hc] at ho
        exact ⟨pair, rfl, ho⟩
    · show _ = some s.block.pathname
      have hp := hr.pathname
      cases hl : lastArgument? .pathname (blockOf before) with
      | none =>
        rw [hl] at hp
        exact absurd hp path
      | some p =>
        rw [hp, hl]
        rfl
    · cases size? with
      | none => exact hr.window
      | some size => rfl

/-- The lines so far have left what is in force and have made the test cases of their captures. -/
theorem reflects_of_run {n : Nat} {raws : List (List Char)} {cases : List TestCase}
    (h : State.run {} n raws = .ok (s, cases)) :
    Reflects raws s ∧ List.Forall₂ (fun c tc => DescribedBy c.1 c.2 tc) (captures raws) cases :=
  State.run_captures (P := fun raws s _ => Reflects raws s) reflects_nil
    (fun _ _ _ _ _ _ hr he => hr.next he) (fun _ _ _ _ _ _ hr he => describedBy_of_capture hr he) h

/-- **What a script means**: one test case for each capture, in order, and each of them, apart from
its name, the one that the lines in front of its capture and the capture describe. -/
theorem compile_meaning {text : List Char} {script : Option String} {cases : List TestCase}
    (h : compile text script = .ok cases) :
    List.Forall₂ (fun c tc => DescribedBy c.1 c.2 tc ∧
      ∀ other, DescribedBy c.1 c.2 other → other = { tc with name := other.name })
      (captures (lines text)) cases := by
  obtain ⟨s, hrun⟩ := compile_eq_ok.mp h
  exact (reflects_of_run hrun).2.imp fun _ _ hd => ⟨hd, fun _ => hd.unique⟩

/-- A script of two blocks, with a size and an element of their own. -/
def twoBlocks : List Char :=
  ("compare http://a http://b\nwindowsize 8x6\npathname /x\nclick #m\ncapture\n# note\n"
    ++ "capture fullscreen 2x3\n\nPATHNAME /y\ncapture element  p q ").toList

def twoBlocksCases : List TestCase :=
  [⟨"/x", "/x", "http://a", "http://b", [.click "#m"], 8, 6, .viewport⟩,
    ⟨"/x 2x3", "/x", "http://a", "http://b", [.click "#m"], 2, 3, .fullPage⟩,
    ⟨"/y p q", "/y", "http://a", "http://b", [], 8, 6, .element "p q"⟩]

theorem compile_meaning_twoBlocks : compile twoBlocks = .ok twoBlocksCases ∧
    List.Forall₂ (fun c tc => DescribedBy c.1 c.2 tc ∧
      ∀ other, DescribedBy c.1 c.2 other → other = { tc with name := other.name })
      (captures (lines twoBlocks)) twoBlocksCases := by
  have h : compile twoBlocks = .ok twoBlocksCases := by decide +kernel
  exact ⟨h, compile_meaning h⟩

end PageDiff.Script
