import Mathlib.Data.List.Forall2
import PageDiff.Proofs.Script.Scope

/-!
# What an accepted line does

For every directive, when it is accepted and what it leaves behind.  `run_concat_eq_ok` takes a
script apart at its last line and `run_eq_error` at the first line with a problem.
-/

namespace PageDiff.Script

open PageDiff.Text

/-! ### Names and sizes of a capture -/

/-- What a capture adds to the name of its test. -/
def suffix : Capture → Option (Nat × Nat) → String
  | .element selector, _ => " " ++ selector
  | _, some (w, h) => " " ++ toString w ++ "x" ++ toString h
  | _, none => ""

def sizeOr : Option (Nat × Nat) → Int × Int → Int × Int
  | some (w, h), _ => (w, h)
  | none, window => window

namespace State

variable {s t : State} {made : Option TestCase} {args : String}

theorem sizedName_eq (name : String) (w h : Nat) :
    sizedName name w h = name ++ (" " ++ toString w ++ "x" ++ toString h) := by
  simp [sizedName, toString, String.append_assoc]

theorem elementName_eq (name selector : String) :
    elementName name selector = name ++ (" " ++ selector) := by
  simp [elementName, toString, String.append_assoc]

/-! ### Directives -/

theorem quiet_eq_ok : quiet s = .ok (t, made) ↔ t = s ∧ made = none := by
  unfold quiet
  constructor
  · intro h
    cases h
    exact ⟨rfl, rfl⟩
  · rintro ⟨rfl, rfl⟩
    rfl

theorem windowsize_eq_ok : s.windowsize args = .ok (t, made) ↔
    ∃ w h : Nat, IsSize args.toList w h ∧ t = { s with window := (w, h) } ∧ made = none := by
  unfold windowsize
  cases hr : readSize args.toList with
  | error e =>
    constructor
    · intro h; cases h
    · rintro ⟨w, h, hs, -⟩
      rw [readSize_eq_ok.mpr hs] at hr
      cases hr
  | ok size =>
    obtain ⟨w, h⟩ := size
    have hs := readSize_eq_ok.mp hr
    simp only [quiet_eq_ok]
    constructor
    · rintro ⟨rfl, rfl⟩
      exact ⟨w, h, hs, rfl, rfl⟩
    · rintro ⟨w', h', hs', rfl, rfl⟩
      obtain ⟨rfl, rfl⟩ := hs.unique hs'
      exact ⟨rfl, rfl⟩

theorem compare_eq_ok : s.compare args = .ok (t, made) ↔
    ∃ a b, IsPair args a b ∧ Url.checkOrigin a = .ok () ∧ Url.checkOrigin b = .ok () ∧
      t = { s with originA := a, originB := b } ∧ made = none := by
  unfold compare
  constructor
  · intro h
    split at h
    · next a b hsplit =>
      have hpair : IsPair args (String.ofList a) (String.ofList b) :=
        splitOn_eq_pair.mp (by simpa using hsplit)
      simp only at h
      split at h
      · cases h
      · cases h
      · next ha hb =>
        obtain ⟨rfl, rfl⟩ := quiet_eq_ok.mp h
        exact ⟨_, _, hpair, ha, hb, rfl, rfl⟩
    · cases h
  · rintro ⟨a, b, hpair, ha, hb, rfl, rfl⟩
    simp only [splitOn_eq_pair.mpr hpair, String.ofList_toList, ha, hb]
    rfl

theorem test_eq_ok : s.test args = .ok (t, made) ↔
    args ∉ s.names ∧ t = { s with block := { s.block with testName := args } } ∧ made = none := by
  unfold test
  by_cases h : args ∈ s.names
  · simp [h]
  · rw [if_neg h, quiet_eq_ok]
    simp [h]

/-- The name of the test when a path is given. -/
def nameWith (s : State) (path : String) : String :=
  if s.block.testName = "" then path else s.block.testName

theorem pathname_eq_ok : s.pathname args = .ok (t, made) ↔
    s.hasOrigins = true ∧ Url.check (s.originA ++ args) = .ok () ∧
      Url.check (s.originB ++ args) = .ok () ∧ s.nameWith args ∉ s.names ∧
      t = { s with block := { s.block with pathname := args, testName := s.nameWith args } } ∧
      made = none := by
  unfold pathname
  by_cases ho : s.hasOrigins
  · rw [if_neg (by simp [ho])]
    cases ha : Url.check (s.originA ++ args) with
    | error e => simp
    | ok _ =>
      cases hb : Url.check (s.originB ++ args) with
      | error e => simp
      | ok _ =>
        show (if s.nameWith args ∈ s.names then _ else _) = _ ↔ _
        by_cases hn : s.nameWith args ∈ s.names
        · simp [hn]
        · rw [if_neg hn, quiet_eq_ok]
          constructor
          · rintro ⟨rfl, rfl⟩
            exact ⟨ho, rfl, rfl, hn, rfl, rfl⟩
          · rintro ⟨-, -, -, -, rfl, rfl⟩
            exact ⟨rfl, rfl⟩
  · simp [ho]

theorem action_eq_ok {directive : String} {act : String → Action} :
    s.action directive act args = .ok (t, made) ↔
      args ≠ "" ∧ t = { s with block := { s.block with actions := s.block.actions ++ [act args] } } ∧
        made = none := by
  unfold action
  by_cases h : args = ""
  · simp [h]
  · rw [if_neg h, quiet_eq_ok]
    simp [h]

/-- The test case that a capture makes of what is in force. -/
def caseOf (s : State) (name : String) (size : Int × Int) (shown : Capture) : TestCase where
  name
  pathname := s.block.pathname
  originA := s.originA
  originB := s.originB
  actions := s.block.actions
  width := size.1
  height := size.2
  capture := shown

theorem emit_eq_ok {name : String} {size : Int × Int} {shown : Capture} :
    s.emit name size shown = .ok (t, made) ↔
      name ∉ s.names ∧ t = { s with names := s.names ++ [name] } ∧
        made = some (s.caseOf name size shown) := by
  unfold emit
  by_cases h : name ∈ s.names
  · simp [h]
  · rw [if_neg h]
    simp [h, caseOf, eq_comm]

theorem page_cases {kind : CaptureKind} {shown : Capture} (h : kind.page? = some shown) :
    (kind = .viewport ∧ shown = .viewport) ∨ (kind = .fullPage ∧ shown = .fullPage) := by
  cases kind with
  | viewport => exact .inl ⟨rfl, (Option.some.inj h).symm⟩
  | fullPage => exact .inr ⟨rfl, (Option.some.inj h).symm⟩
  | element => cases h

/-- What a capture does once its argument is known to ask for something. -/
theorem capture_of_asks (ho : s.hasOrigins = true) (hp : s.block.pathname ≠ "") {shown : Capture}
    {size? : Option (Nat × Nat)} (h : Asks args shown size?) :
    s.capture args =
      s.emit (s.block.testName ++ suffix shown size?) (sizeOr size? s.window) shown := by
  unfold capture
  rw [if_neg (by simp [ho]), if_neg hp]
  cases h with
  | whole fields named page =>
    rw [fields_iff.mp fields]
    simp only [ofField?_eq_some.mpr named, if_true]
    cases page_cases page with
    | inl h => obtain ⟨rfl, rfl⟩ := h; simp [suffix, sizeOr]
    | inr h => obtain ⟨rfl, rfl⟩ := h; simp [suffix, sizeOr]
  | sized fields named page size =>
    rw [fields_iff.mp fields]
    simp only [ofField?_eq_some.mpr named, if_neg (ne_nil_of_isSize size),
      readSize_eq_ok.mpr size, sizedName_eq]
    cases page_cases page with
    | inl h => obtain ⟨rfl, rfl⟩ := h; rfl
    | inr h => obtain ⟨rfl, rfl⟩ := h; rfl
  | element fields named given =>
    rw [fields_iff.mp fields]
    simp [ofField?_eq_some.mpr named, suffix, sizeOr, given, elementName_eq]

theorem asks_of_capture (h : s.capture args = .ok (t, made)) :
    s.hasOrigins = true ∧ s.block.pathname ≠ "" ∧ ∃ shown size?, Asks args shown size? := by
  unfold capture at h
  by_cases ho : s.hasOrigins
  · by_cases hp : s.block.pathname = ""
    · simp [ho, hp] at h
    · refine ⟨ho, hp, ?_⟩
      rw [if_neg (by simp [ho]), if_neg hp] at h
      have hf := fields_splitField args.toList
      cases hsf : splitField args.toList with
      | mk field rest =>
        rw [hsf] at h hf
        simp only at h hf
        cases hk : CaptureKind.ofField? field with
        | none => simp [hk] at h
        | some kind =>
          have hnamed := ofField?_eq_some.mp hk
          by_cases hr : rest = []
          · subst hr
            cases kind with
            | viewport => exact ⟨_, _, .whole hf hnamed rfl⟩
            | fullPage => exact ⟨_, _, .whole hf hnamed rfl⟩
            | element => simp [hk] at h
          · cases kind with
            | element =>
              refine ⟨.element (String.ofList rest), none, .element (by simpa using hf) hnamed ?_⟩
              intro he
              exact hr (by simpa using congrArg String.toList he)
            | viewport =>
              cases hs : readSize rest with
              | error e => simp [hk, hr, hs] at h
              | ok size => exact ⟨_, _, .sized hf hnamed rfl (readSize_eq_ok.mp hs)⟩
            | fullPage =>
              cases hs : readSize rest with
              | error e => simp [hk, hr, hs] at h
              | ok size => exact ⟨_, _, .sized hf hnamed rfl (readSize_eq_ok.mp hs)⟩
  · simp [ho] at h

/-- A capture makes the test case that it asks for, with what is in force. -/
theorem capture_eq_ok : s.capture args = .ok (t, made) ↔
    s.hasOrigins = true ∧ s.block.pathname ≠ "" ∧
      ∃ shown size?, Asks args shown size? ∧ s.block.testName ++ suffix shown size? ∉ s.names ∧
        t = { s with names := s.names ++ [s.block.testName ++ suffix shown size?] } ∧
        made = some
          (s.caseOf (s.block.testName ++ suffix shown size?) (sizeOr size? s.window) shown) := by
  constructor
  · intro h
    obtain ⟨ho, hp, shown, size?, ha⟩ := asks_of_capture h
    rw [capture_of_asks ho hp ha, emit_eq_ok] at h
    exact ⟨ho, hp, shown, size?, ha, h⟩
  · rintro ⟨ho, hp, shown, size?, ha, h⟩
    rw [capture_of_asks ho hp ha, emit_eq_ok]
    exact h

/-! ### Lines -/

/-- Everything that an accepted line can do. -/
inductive Effect (s : State) : Line → State → Option TestCase → Prop
  | blank : Effect s .blank s.forgetBlock none
  | comment : Effect s .comment s none
  | windowsize {args : String} {w h : Nat} (size : IsSize args.toList w h) :
      Effect s (.directive .windowsize args) { s with window := (w, h) } none
  | compare {args a b : String} (pair : IsPair args a b) (originA : Url.checkOrigin a = .ok ())
      (originB : Url.checkOrigin b = .ok ()) :
      Effect s (.directive .compare args) { s with originA := a, originB := b } none
  | test {args : String} (fresh : args ∉ s.names) :
      Effect s (.directive .test args) { s with block := { s.block with testName := args } } none
  | pathname {args : String} (origins : s.hasOrigins = true)
      (urlA : Url.check (s.originA ++ args) = .ok ())
      (urlB : Url.check (s.originB ++ args) = .ok ()) (fresh : s.nameWith args ∉ s.names) :
      Effect s (.directive .pathname args)
        { s with block := { s.block with pathname := args, testName := s.nameWith args } } none
  | click {args : String} (given : args ≠ "") :
      Effect s (.directive .click args)
        { s with block := { s.block with actions := s.block.actions ++ [.click args] } } none
  | wait {args : String} (given : args ≠ "") :
      Effect s (.directive .wait args)
        { s with block := { s.block with actions := s.block.actions ++ [.wait args] } } none
  | capture {args : String} {shown : Capture} {size? : Option (Nat × Nat)}
      (origins : s.hasOrigins = true) (path : s.block.pathname ≠ "")
      (asks : Asks args shown size?) (fresh : s.block.testName ++ suffix shown size? ∉ s.names) :
      Effect s (.directive .capture args)
        { s with names := s.names ++ [s.block.testName ++ suffix shown size?] }
        (some (s.caseOf (s.block.testName ++ suffix shown size?) (sizeOr size? s.window) shown))

theorem effect_of_obey {line : Line} (h : s.obey line = .ok (t, made)) : Effect s line t made := by
  cases line with
  | blank =>
    obtain ⟨rfl, rfl⟩ := quiet_eq_ok.mp h
    exact .blank
  | comment =>
    obtain ⟨rfl, rfl⟩ := quiet_eq_ok.mp h
    exact .comment
  | unknown text => cases h
  | directive k args =>
    cases k with
    | windowsize =>
      obtain ⟨w, h, hs, rfl, rfl⟩ := windowsize_eq_ok.mp h
      exact .windowsize hs
    | compare =>
      obtain ⟨a, b, hp, ha, hb, rfl, rfl⟩ := compare_eq_ok.mp h
      exact .compare hp ha hb
    | test =>
      obtain ⟨hf, rfl, rfl⟩ := test_eq_ok.mp h
      exact .test hf
    | pathname =>
      obtain ⟨ho, ha, hb, hf, rfl, rfl⟩ := pathname_eq_ok.mp h
      exact .pathname ho ha hb hf
    | click =>
      obtain ⟨hg, rfl, rfl⟩ := action_eq_ok.mp h
      exact .click hg
    | wait =>
      obtain ⟨hg, rfl, rfl⟩ := action_eq_ok.mp h
      exact .wait hg
    | capture =>
      obtain ⟨ho, hp, shown, size?, ha, hf, rfl, rfl⟩ := capture_eq_ok.mp h
      exact .capture ho hp ha hf

/-! ### What one line leaves of the state -/

namespace Effect

variable {raw : List Char}

theorem window_eq (he : Effect s (Line.read raw) t made) (hn : argument? .windowsize raw = none) :
    t.window = s.window := by
  generalize hl : Line.read raw = line at he
  cases he <;> first | rfl | simp [argument?, hl] at hn

theorem window_of_some {args : String} (he : Effect s (Line.read raw) t made)
    (hs : argument? .windowsize raw = some args) :
    ∃ w h : Nat, IsSize args.toList w h ∧ t.window = ((w : Int), (h : Int)) := by
  rw [argument?_eq_some.mp hs] at he
  cases he with
  | windowsize size => exact ⟨_, _, size, rfl⟩

theorem origins_eq (he : Effect s (Line.read raw) t made) (hn : argument? .compare raw = none) :
    t.originA = s.originA ∧ t.originB = s.originB := by
  generalize hl : Line.read raw = line at he
  cases he <;> first | exact ⟨rfl, rfl⟩ | simp [argument?, hl] at hn

theorem origins_of_some {args : String} (he : Effect s (Line.read raw) t made)
    (hs : argument? .compare raw = some args) :
    IsPair args t.originA t.originB ∧ Url.checkOrigin t.originA = .ok () ∧
      Url.checkOrigin t.originB = .ok () := by
  rw [argument?_eq_some.mp hs] at he
  cases he with
  | compare pair originA originB => exact ⟨pair, originA, originB⟩

theorem block_of_blank (he : Effect s (Line.read raw) t made) (hb : Line.read raw = .blank) :
    t.block = {} := by
  rw [hb] at he
  cases he
  rfl

theorem pathname_eq (he : Effect s (Line.read raw) t made) (hb : Line.read raw ≠ .blank)
    (hn : argument? .pathname raw = none) : t.block.pathname = s.block.pathname := by
  generalize hl : Line.read raw = line at he hb
  cases he <;> first | rfl | exact absurd rfl hb | simp [argument?, hl] at hn

theorem pathname_of_some {args : String} (he : Effect s (Line.read raw) t made)
    (hs : argument? .pathname raw = some args) : t.block.pathname = args := by
  rw [argument?_eq_some.mp hs] at he
  cases he
  rfl

theorem checks_of_pathname {args : String} (he : Effect s (Line.read raw) t made)
    (hs : argument? .pathname raw = some args) :
    s.hasOrigins = true ∧ Url.check (t.originA ++ t.block.pathname) = .ok () ∧
      Url.check (t.originB ++ t.block.pathname) = .ok () := by
  rw [argument?_eq_some.mp hs] at he
  cases he with
  | pathname origins urlA urlB => exact ⟨origins, urlA, urlB⟩

theorem actions_eq (he : Effect s (Line.read raw) t made) (hb : Line.read raw ≠ .blank) :
    t.block.actions = s.block.actions ++ (action? raw).toList := by
  generalize hl : Line.read raw = line at he hb
  cases he <;> first | exact absurd rfl hb | simp [action?, hl]

theorem made_eq_none (he : Effect s (Line.read raw) t made) (hn : argument? .capture raw = none) :
    made = none := by
  generalize hl : Line.read raw = line at he
  cases he <;> first | rfl | simp [argument?, hl] at hn

theorem testName_of_test {args : String} (he : Effect s (Line.read raw) t made)
    (h : argument? .test raw = some args) : t.block.testName = args := by
  rw [argument?_eq_some.mp h] at he
  cases he
  rfl

theorem testName_of_pathname {args : String} (he : Effect s (Line.read raw) t made)
    (h : argument? .pathname raw = some args) : t.block.testName = s.nameWith args := by
  rw [argument?_eq_some.mp h] at he
  cases he
  rfl

theorem testName_eq (he : Effect s (Line.read raw) t made) (hb : Line.read raw ≠ .blank)
    (ht : argument? .test raw = none) (hp : argument? .pathname raw = none) :
    t.block.testName = s.block.testName := by
  generalize hl : Line.read raw = line at he hb
  cases he <;> first | rfl | exact absurd rfl hb | simp [argument?, hl] at ht hp

theorem names_eq {line : Line} (he : Effect s line t made) :
    t.names = s.names ++ made.toList.map (·.name) := by
  cases he <;> simp [caseOf, forgetBlock]

end Effect

/-! ### Runs -/

/-- A script is accepted up to its last line, and then its last line is. -/
theorem run_concat_eq_ok {n : Nat} {raws : List (List Char)} {raw : List Char}
    {cases : List TestCase} : s.run n (raws ++ [raw]) = .ok (t, cases) ↔
      ∃ mid earlier made, s.run n raws = .ok (mid, earlier) ∧
        mid.obey (Line.read raw) = .ok (t, made) ∧ cases = earlier ++ made.toList := by
  rw [run_append]
  cases hr : s.run n raws with
  | error e => simp
  | ok m =>
    obtain ⟨mid, earlier⟩ := m
    simp only [run, step, read_dropReturn]
    cases ho : mid.obey (Line.read raw) with
    | error e => simp [ho]
    | ok r =>
      obtain ⟨next, made⟩ := r
      simp only [List.append_nil, Except.ok.injEq, Prod.mk.injEq]
      constructor
      · rintro ⟨rfl, rfl⟩
        exact ⟨mid, earlier, made, ⟨rfl, rfl⟩, ho, rfl⟩
      · rintro ⟨_, _, _, ⟨rfl, rfl⟩, ho', rfl⟩
        rw [ho] at ho'
        obtain ⟨rfl, rfl⟩ := Prod.mk.inj (Except.ok.inj ho')
        exact ⟨rfl, rfl⟩

/-- What holds at the start and is kept by every accepted line holds of every accepted script. -/
theorem run_induction {P : List (List Char) → State → List TestCase → Prop} (start : P [] {} [])
    (next : ∀ raws raw s t cases made, P raws s cases → Effect s (Line.read raw) t made →
      P (raws ++ [raw]) t (cases ++ made.toList)) {n : Nat} {raws : List (List Char)}
    {cases : List TestCase} (h : State.run {} n raws = .ok (s, cases)) : P raws s cases := by
  induction raws using List.reverseRecOn generalizing s cases with
  | nil =>
    obtain ⟨rfl, rfl⟩ := Prod.mk.inj (Except.ok.inj h)
    exact start
  | append_singleton raws raw ih =>
    obtain ⟨mid, earlier, made, hrun, hobey, rfl⟩ := run_concat_eq_ok.mp h
    exact next raws raw mid s earlier made (ih hrun) (effect_of_obey hobey)

/-- An invariant that says what a capture makes says it of every capture of an accepted script. -/
theorem run_captures {P : List (List Char) → State → List TestCase → Prop}
    {Q : List (List Char) × String → TestCase → Prop} (start : P [] {} [])
    (next : ∀ raws raw s t cases made, P raws s cases → Effect s (Line.read raw) t made →
      P (raws ++ [raw]) t (cases ++ made.toList))
    (capture : ∀ raws args s t cases made, P raws s cases →
      Effect s (.directive .capture args) t made → ∃ tc, made = some tc ∧ Q (raws, args) tc)
    {n : Nat} {raws : List (List Char)} {cases : List TestCase}
    (h : State.run {} n raws = .ok (s, cases)) :
    P raws s cases ∧ List.Forall₂ Q (captures raws) cases := by
  refine run_induction (P := fun raws s cases => P raws s cases ∧
    List.Forall₂ Q (captures raws) cases) ⟨start, .nil⟩ ?_ h
  rintro raws raw s t cases made ⟨hp, hq⟩ he
  refine ⟨next _ _ _ _ _ _ hp he, ?_⟩
  rw [captures_concat]
  refine List.rel_append hq ?_
  cases hc : argument? .capture raw with
  | none =>
    rw [he.made_eq_none hc]
    exact .nil
  | some args =>
    rw [argument?_eq_some.mp hc] at he
    obtain ⟨tc, rfl, hd⟩ := capture _ _ _ _ _ _ hp he
    exact .cons hd .nil

/-- A script is refused at the first line with a problem. -/
theorem run_eq_error {n m : Nat} {raws : List (List Char)} {problem : Problem} :
    s.run n raws = .error (m, problem) ↔
      ∃ before raw after mid cases, raws = before ++ raw :: after ∧ m = n + before.length ∧
        s.run n before = .ok (mid, cases) ∧ mid.obey (Line.read raw) = .error problem := by
  constructor
  · intro h
    induction raws generalizing s n with
    | nil => cases h
    | cons raw raws ih =>
      simp only [run, step, read_dropReturn] at h
      cases ho : s.obey (Line.read raw) with
      | error e =>
        rw [ho] at h
        obtain ⟨rfl, rfl⟩ := Prod.mk.inj (Except.error.inj h)
        exact ⟨[], raw, raws, s, [], rfl, rfl, rfl, ho⟩
      | ok r =>
        obtain ⟨next, made⟩ := r
        rw [ho] at h
        simp only at h
        cases hr : next.run (n + 1) raws with
        | ok r => simp [hr] at h
        | error e =>
          rw [hr] at h
          cases Except.error.inj h
          obtain ⟨before, raw', after, mid, cases, rfl, rfl, hrun, hobey⟩ := ih hr
          refine ⟨raw :: before, raw', after, mid, made.toList ++ cases, rfl, ?_, ?_, hobey⟩
          · simp only [List.length_cons]
            omega
          · simp [run, step, ho, hrun]
  · rintro ⟨before, raw, after, mid, cases, rfl, rfl, hrun, hobey⟩
    rw [run_append, hrun]
    simp [run, step, hobey]

end State

/-- What is told of a script, by what has become of its lines. -/
def told (script : Option String) :
    Except (Nat × Problem) (State × List TestCase) → Except CompileError (List TestCase)
  | .error (n, problem) => .error { problem, line := some n, script }
  | .ok (_, cases) => .ok cases

theorem told_eq_ok {script : Option String} {r : Except (Nat × Problem) (State × List TestCase)}
    {cases : List TestCase} : told script r = .ok cases ↔ ∃ s, r = .ok (s, cases) := by
  cases r with
  | error e => simp [told]
  | ok r =>
    obtain ⟨s, made⟩ := r
    simp [told]

theorem told_eq_error {script : Option String}
    {r : Except (Nat × Problem) (State × List TestCase)} {e : CompileError} :
    told script r = .error e ↔
      ∃ n problem, r = .error (n, problem) ∧ e = ⟨problem, some (n : Int), script⟩ := by
  cases r with
  | ok r => exact ⟨nofun, fun ⟨_, _, h, _⟩ => nomatch h⟩
  | error refusal =>
    constructor
    · intro h
      exact ⟨refusal.1, refusal.2, rfl, (Except.error.inj h).symm⟩
    · rintro ⟨n, problem, h, rfl⟩
      cases h
      rfl

theorem compile_eq_told (text : List Char) (script : Option String) :
    compile text script = told script (State.run {} 1 (lines text)) := by
  unfold compile told
  rfl

theorem compile_eq_ok {text : List Char} {script : Option String} {cases : List TestCase} :
    compile text script = .ok cases ↔ ∃ s, State.run {} 1 (lines text) = .ok (s, cases) := by
  rw [compile_eq_told, told_eq_ok]

theorem compile_eq_error {text : List Char} {script : Option String} {e : CompileError} :
    compile text script = .error e ↔ ∃ n problem,
      State.run {} 1 (lines text) = .error (n, problem) ∧ e = ⟨problem, some (n : Int), script⟩ := by
  rw [compile_eq_told, told_eq_error]

/-- Lines that are put together to a script are its lines.  No lines at all make a script of one
empty line, which does nothing. -/
theorem compile_joinLines {rows : List (List Char)} (h : ∀ row ∈ rows, '\n' ∉ row)
    (script : Option String) :
    compile (joinLines rows) script = told script (State.run {} 1 rows) := by
  cases rows with
  | nil => rfl
  | cons row rows => rw [compile_eq_told, lines_joinLines (List.cons_ne_nil row rows) h]

theorem compile_firstLines (k : Nat) (text : List Char) (script : Option String) :
    compile (firstLines k text) script = told script (State.run {} 1 ((lines text).take k)) := by
  refine compile_joinLines ?_ script
  intro row hrow
  exact not_mem_of_mem_splitOn row (List.mem_of_mem_take hrow)

end PageDiff.Script
