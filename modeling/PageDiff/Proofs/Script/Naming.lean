import PageDiff.Proofs.Script.Step

/-!
# What test cases are called

A test case is called after the name that its block gives it, or else after a path.  `nameAfter` is
the name that the lines of a block leave in force: the first path since the last line with a name
stands in for a name that is missing or empty, and it does so for every later path of the block as
well.  `nameFor` is the name that each path would have of its own.  Main statement
(`names_follow_iff`): the two agree exactly for the blocks that are `Settled`, and a path is refused
as a duplicate by the name that stands, not by its own.  However names come about, no two test cases
have the same one (`names_given_once`).
-/

namespace PageDiff.Script

open PageDiff.Text

variable {s t : State} {made : Option TestCase} {raw : List Char} {block : List (List Char)}

/-! ### The names of a block -/

/-- The name that the last line with a name gives, empty if there is no such line. -/
def givenName (block : List (List Char)) : String := (lastArgument? .test block).getD ""

/-- The first path since the last line with a name, empty if there is none. -/
def firstPath (block : List (List Char)) : String :=
  ((arguments .pathname (since .test block)).find? (· != "")).getD ""

/-- The name that a block leaves in force. -/
def nameAfter (block : List (List Char)) : String :=
  if givenName block = "" then firstPath block else givenName block

/-- The name of a path in a block: the given one, or else the path itself. -/
def nameFor (block : List (List Char)) (path : String) : String :=
  if givenName block = "" then path else givenName block

/-- A block has a name of its own, or has had no other path since its last line with a name. -/
def Settled (block : List (List Char)) (path : String) : Prop :=
  givenName block ≠ "" ∨ firstPath block = path

theorem nameAfter_eq_nameFor_iff {path : String} :
    nameAfter block = nameFor block path ↔ Settled block path := by
  unfold nameAfter nameFor Settled
  by_cases h : givenName block = ""
  · simp [h]
  · simp [h]

/-! ### One more line -/

theorem givenName_concat_of_none (h : argument? .test raw = none) :
    givenName (block ++ [raw]) = givenName block := by
  rw [givenName, lastArgument?_concat, h]
  rfl

theorem nameAfter_concat_test {args : String} (h : argument? .test raw = some args) :
    nameAfter (block ++ [raw]) = args := by
  have hg : givenName (block ++ [raw]) = args := by
    rw [givenName, lastArgument?_concat, h]
    rfl
  have hf : firstPath (block ++ [raw]) = "" := by
    rw [firstPath, since_concat_of_some h]
    rfl
  rw [nameAfter, hg, hf]
  by_cases ha : args = ""
  · rw [if_pos ha, ha]
  · rw [if_neg ha]

theorem firstPath_concat (ht : argument? .test raw = none) :
    firstPath (block ++ [raw]) =
      if firstPath block = "" then (argument? .pathname raw).getD "" else firstPath block := by
  unfold firstPath
  rw [since_concat_of_none ht, arguments_concat, List.find?_append]
  cases hf : (arguments .pathname (since .test block)).find? (· != "") with
  | some p =>
    have hp : p ≠ "" := by simpa using List.find?_some hf
    simp [hp]
  | none =>
    cases argument? .pathname raw with
    | none => simp
    | some p =>
      by_cases hp : p = ""
      · simp [hp]
      · simp [hp]

/-- A path stands in for a missing name. -/
theorem nameAfter_concat_pathname {args : String} (h : argument? .pathname raw = some args) :
    nameAfter (block ++ [raw]) = if nameAfter block = "" then args else nameAfter block := by
  have ht : argument? .test raw = none := by
    rw [argument?_eq_some] at h
    simp [argument?, h]
  unfold nameAfter
  rw [givenName_concat_of_none ht, firstPath_concat ht, h]
  by_cases hg : givenName block = ""
  · simp [hg]
  · simp [hg]

theorem nameAfter_concat_of_none (ht : argument? .test raw = none)
    (hp : argument? .pathname raw = none) : nameAfter (block ++ [raw]) = nameAfter block := by
  unfold nameAfter
  rw [givenName_concat_of_none ht, firstPath_concat ht, hp]
  by_cases hf : firstPath block = ""
  · simp [hf]
  · simp [hf]

/-! ### The names that the compiler keeps -/

/-- A state holds the name that the lines so far leave in force, and the names of the test cases
that they have made. -/
structure Named (before : List (List Char)) (s : State) (cases : List TestCase) : Prop where
  testName : s.block.testName = nameAfter (blockOf before)
  names : s.names = cases.map (·.name)

theorem named_nil : Named [] {} [] := ⟨rfl, rfl⟩

theorem Named.next {before : List (List Char)} {cases : List TestCase} (hn : Named before s cases)
    (he : State.Effect s (Line.read raw) t made) :
    Named (before ++ [raw]) t (cases ++ made.toList) := by
  refine ⟨?_, ?_⟩
  · by_cases hb : Line.read raw = .blank
    · rw [he.block_of_blank hb, blockOf_concat_of_blank hb]
      rfl
    · rw [blockOf_concat hb]
      cases ht : argument? .test raw with
      | some args => rw [he.testName_of_test ht, nameAfter_concat_test ht]
      | none =>
        cases hp : argument? .pathname raw with
        | some args =>
          rw [he.testName_of_pathname hp, nameAfter_concat_pathname hp, State.nameWith,
            hn.testName]
        | none => rw [he.testName_eq hb ht hp, nameAfter_concat_of_none ht hp, hn.testName]
  · rw [he.names_eq, hn.names, List.map_append]

/-! ### The names of test cases -/

/-- A test case is called after a base name, with what its capture adds to it. -/
def CalledAfter (base args : String) (tc : TestCase) : Prop :=
  ∃ size?, Asks args tc.capture size? ∧ tc.name = base ++ suffix tc.capture size?

theorem CalledAfter.unique {base base' args : String} {tc : TestCase}
    (h : CalledAfter base args tc) (h' : CalledAfter base' args tc) : base = base' := by
  obtain ⟨size?, ha, hn⟩ := h
  obtain ⟨size?', ha', hn'⟩ := h'
  obtain ⟨-, rfl⟩ := ha.unique ha'
  exact (String.append_left_inj _).mp (hn.symm.trans hn')

theorem nameFor_ne_empty {path : String} (h : path ≠ "") : nameFor block path ≠ "" := by
  unfold nameFor
  by_cases hg : givenName block = ""
  · rwa [if_pos hg]
  · rwa [if_neg hg]

theorem CalledAfter.name_ne_empty {base args : String} {tc : TestCase}
    (h : CalledAfter base args tc) (hb : base ≠ "") : tc.name ≠ "" := by
  obtain ⟨size?, -, hn⟩ := h
  rw [hn, ne_eq, String.append_eq_empty_iff]
  exact fun he => hb he.1

/-- The test case of a capture has a path, and a name that follows its block. -/
def NamedAsCompiled (c : List (List Char) × String) (tc : TestCase) : Prop :=
  tc.pathname ≠ "" ∧ CalledAfter (nameAfter (blockOf c.1)) c.2 tc

theorem namedAsCompiled_of_capture {before : List (List Char)} {cases : List TestCase}
    {args : String} (hn : Named before s cases)
    (he : State.Effect s (.directive .capture args) t made) :
    ∃ tc, made = some tc ∧ NamedAsCompiled (before, args) tc := by
  cases he with
  | capture origins path asks fresh =>
    refine ⟨_, rfl, path, _, asks, ?_⟩
    rw [← hn.testName]
    rfl

theorem named_of_run {n : Nat} {raws : List (List Char)} {cases : List TestCase}
    (h : State.run {} n raws = .ok (s, cases)) :
    Named raws s cases ∧ List.Forall₂ NamedAsCompiled (captures raws) cases :=
  State.run_captures named_nil (fun _ _ _ _ _ _ hn he => hn.next he)
    (fun _ _ _ _ _ _ hn he => namedAsCompiled_of_capture hn he) h

/-! ### Names are given once -/

/-- A test case that a line makes has a name that no earlier one has. -/
theorem State.Effect.name_fresh {line : Line} {tc : TestCase}
    (he : State.Effect s line t (some tc)) : tc.name ∉ s.names := by
  cases he with
  | capture origins path asks fresh => exact fresh

theorem names_nodup_of_run {n : Nat} {raws : List (List Char)} {cases : List TestCase}
    (h : State.run {} n raws = .ok (s, cases)) : (cases.map (·.name)).Nodup := by
  refine (State.run_induction (P := fun raws s cases => Named raws s cases ∧
    (cases.map (·.name)).Nodup) ⟨named_nil, List.nodup_nil⟩ ?_ h).2
  rintro raws raw s t cases made ⟨hn, hnodup⟩ he
  refine ⟨hn.next he, ?_⟩
  rw [List.map_append]
  cases made with
  | none => simpa using hnodup
  | some tc =>
    have hfresh : tc.name ∉ cases.map (·.name) := hn.names ▸ he.name_fresh
    refine List.nodup_append.mpr ⟨hnodup, by simp, ?_⟩
    intro name hname name' hname' heq
    obtain rfl : name' = tc.name := by simpa using hname'
    exact hfresh (heq ▸ hname)

/-- No two test cases of a compiled script have the same name. -/
theorem names_nodup_of_compile {text : List Char} {script : Option String} {cases : List TestCase}
    (h : compile text script = .ok cases) : (cases.map (·.name)).Nodup := by
  obtain ⟨s, hrun⟩ := compile_eq_ok.mp h
  exact names_nodup_of_run hrun

theorem names_of_run {n : Nat} {raws : List (List Char)} {cases : List TestCase}
    (h : State.run {} n raws = .ok (s, cases)) : s.names = cases.map (·.name) :=
  (named_of_run h).1.names

/-- Where a line gives a test a name that is taken, the script is refused. -/
theorem compile_of_takenTest {text : List Char} {script : Option String} {k : Nat} {name : String}
    {cases : List TestCase} (hk : (lines text)[k]? = some raw)
    (htest : argument? .test raw = some name)
    (hfront : compile (firstLines k text) script = .ok cases)
    (htaken : name ∈ cases.map (·.name)) :
    compile text script = .error ⟨.duplicateTest name, some ((k : Int) + 1), script⟩ := by
  rw [compile_firstLines] at hfront
  obtain ⟨mid, hrun⟩ := told_eq_ok.mp hfront
  obtain ⟨hlength, hget⟩ := List.getElem?_eq_some_iff.mp hk
  have htext : lines text = (lines text).take k ++ raw :: (lines text).drop (k + 1) := by
    rw [← hget, ← List.drop_eq_getElem_cons hlength, List.take_append_drop]
  have hobey : mid.obey (Line.read raw) = .error (.duplicateTest name) := by
    have hmem : name ∈ mid.names := by
      rw [names_of_run hrun]
      exact htaken
    rw [argument?_eq_some.mp htest]
    show mid.test name = _
    rw [State.test, if_pos hmem]
  have hfails : State.run {} 1 (lines text) = .error (1 + k, .duplicateTest name) := by
    refine State.run_eq_error.mpr ⟨_, raw, _, mid, cases, htext, ?_, hrun, hobey⟩
    rw [List.length_take_of_le (by omega)]
  refine compile_eq_error.mpr ⟨1 + k, _, hfails, ?_⟩
  congr 2
  omega

/-- **Names are given once.**  No two test cases of a script have the same name.  Whatever lines
have been accepted, the names that are taken are those of the test cases that these lines have made,
and a line that gives a test one of them is refused. -/
theorem names_given_once :
    (∀ text script cases, compile text script = .ok cases → (cases.map (·.name)).Nodup) ∧
    (∀ n raws s cases, State.run {} n raws = .ok (s, cases) →
      s.names = cases.map (·.name) ∧ s.names.Nodup) ∧
    (∀ text script k raw name cases, (lines text)[k]? = some raw →
      argument? .test raw = some name → compile (firstLines k text) script = .ok cases →
      name ∈ cases.map (·.name) →
      compile text script = .error ⟨.duplicateTest name, some ((k : Int) + 1), script⟩) := by
  refine ⟨fun text script cases h => names_nodup_of_compile h, ?_, ?_⟩
  · intro n raws s cases h
    have hnames := names_of_run h
    refine ⟨hnames, ?_⟩
    rw [hnames]
    exact names_nodup_of_run h
  · intro text script k raw name cases hk htest hfront htaken
    exact compile_of_takenTest hk htest hfront htaken

/-- A script whose second block has the name that a size gives to the test case of the first. -/
def sizedTwice : List Char :=
  ("compare http://a http://b\ntest m\npathname /x\ncapture viewport 01x1\n\n"
    ++ "test m 1x1\npathname /y\ncapture").toList

def sizedCase : TestCase := ⟨"m 1x1", "/x", "http://a", "http://b", [], 1, 1, .viewport⟩

def sizedState : State := { originA := "http://a", originB := "http://b", names := ["m 1x1"] }

theorem names_given_once_sizedTwice :
    (compile (firstLines 5 sizedTwice) = .ok [sizedCase] ∧
      ([sizedCase].map (·.name)).Nodup) ∧
    (State.run {} 1 ((lines sizedTwice).take 5) = .ok (sizedState, [sizedCase]) ∧
      sizedState.names = [sizedCase].map (·.name) ∧ sizedState.names.Nodup) ∧
    (lines sizedTwice)[5]? = some "test m 1x1".toList ∧
    argument? .test "test m 1x1".toList = some "m 1x1" ∧ "m 1x1" ∈ [sizedCase].map (·.name) ∧
    compile sizedTwice = .error ⟨.duplicateTest "m 1x1", some ((5 : Nat) + 1), none⟩ := by
  have hfront : compile (firstLines 5 sizedTwice) = .ok [sizedCase] := by decide +kernel
  have hrun : State.run {} 1 ((lines sizedTwice).take 5) = .ok (sizedState, [sizedCase]) := by
    decide +kernel
  have hk : (lines sizedTwice)[5]? = some "test m 1x1".toList := by decide +kernel
  have htest : argument? .test "test m 1x1".toList = some "m 1x1" := by decide +kernel
  have htaken : "m 1x1" ∈ [sizedCase].map (·.name) := by decide +kernel
  exact ⟨⟨hfront, names_given_once.1 _ _ _ hfront⟩,
    ⟨hrun, names_given_once.2.1 _ _ _ _ hrun⟩, hk, htest, htaken,
    names_given_once.2.2 _ _ _ _ _ _ hk htest hfront htaken⟩

/-! ### Paths refused as duplicates -/

/-- Only a path is refused as a duplicate path: when a test case is already called after the name
that the block would have. -/
theorem State.pathname_of_duplicatePathname {line : Line} {path : String}
    (h : s.obey line = .error (.duplicatePathname path)) :
    line = .directive .pathname path ∧ s.nameWith path ∈ s.names := by
  cases line with
  | blank => cases h
  | comment => cases h
  | unknown text => cases h
  | directive k args =>
    cases k with
    | pathname =>
      simp only [obey, directive, pathname] at h
      split at h
      · cases h
      · split at h
        · cases h
        · cases h
        · change (if s.nameWith args ∈ s.names then _ else _) = _ at h
          by_cases hmem : s.nameWith args ∈ s.names
          · rw [if_pos hmem] at h
            cases h
            exact ⟨rfl, hmem⟩
          · rw [if_neg hmem] at h
            cases h
    | windowsize =>
      simp only [obey, directive, windowsize, quiet] at h
      split at h <;> cases h
    | compare =>
      simp only [obey, directive, compare, quiet] at h
      split at h
      · split at h <;> cases h
      · cases h
    | test =>
      simp only [obey, directive, test, quiet] at h
      split at h <;> cases h
    | click =>
      simp only [obey, directive, action, quiet] at h
      split at h <;> cases h
    | wait =>
      simp only [obey, directive, action, quiet] at h
      split at h <;> cases h
    | capture =>
      simp only [obey, directive, capture, emit] at h
      repeat' split at h
      all_goals cases h

/-- Where a name is taken: the name that a block leaves in force is taken, and so the name of the
path itself is taken too for a settled block, and for any other block just if the path is. -/
theorem nameFor_mem_iff {path : String} {names : List String} (h : nameAfter block ∈ names) :
    nameFor block path ∈ names ↔ Settled block path ∨ path ∈ names := by
  by_cases hs : Settled block path
  · simp [← nameAfter_eq_nameFor_iff.mpr hs, h, hs]
  · have hg : givenName block = "" := by
      by_contra hg
      exact hs (.inl hg)
    simp [nameFor, hg, hs]

theorem taken_of_duplicatePathname {text : List Char} {script : Option String} {e : CompileError}
    {path : String} (h : compile text script = .error e) (hp : e.problem = .duplicatePathname path) :
    ∃ before raw after s cases, lines text = before ++ raw :: after ∧
      e.line = some ((before.length : Int) + 1) ∧ argument? .pathname raw = some path ∧
      State.run {} 1 before = .ok (s, cases) ∧
      nameAfter (blockOf before ++ [raw]) ∈ cases.map (·.name) := by
  obtain ⟨n, problem, hrun, rfl⟩ := compile_eq_error.mp h
  obtain ⟨before, raw, after, s, cases, htext, rfl, hbefore, hobey⟩ := State.run_eq_error.mp hrun
  obtain rfl : problem = .duplicatePathname path := hp
  obtain ⟨hread, hmem⟩ := State.pathname_of_duplicatePathname hobey
  have harg : argument? .pathname raw = some path := argument?_eq_some.mpr hread
  have hnamed := (named_of_run hbefore).1
  refine ⟨before, raw, after, s, cases, htext, ?_, harg, hbefore, ?_⟩
  · show some ((1 + before.length : Nat) : Int) = some ((before.length : Int) + 1)
    congr 1
    omega
  · rw [nameAfter_concat_pathname harg, ← hnamed.testName, ← hnamed.names]
    exact hmem

/-! ### Names and paths -/

/-- **What test cases are called.**  A test case is called after the name that its block leaves in
force, which is the name of its own path exactly for a settled block, and then it is not empty.  A
path is refused as a duplicate only if the name that its block leaves in force is taken. -/
theorem names_follow_iff (text : List Char) (script : Option String) :
    (∀ cases, compile text script = .ok cases →
      List.Forall₂ (fun c tc =>
        CalledAfter (nameAfter (blockOf c.1)) c.2 tc ∧
        (CalledAfter (nameFor (blockOf c.1) tc.pathname) c.2 tc ↔
          Settled (blockOf c.1) tc.pathname) ∧
        (Settled (blockOf c.1) tc.pathname → tc.name ≠ "")) (captures (lines text)) cases) ∧
    (∀ e path, compile text script = .error e → e.problem = .duplicatePathname path →
      ∃ before raw after s cases, lines text = before ++ raw :: after ∧
        e.line = some ((before.length : Int) + 1) ∧ argument? .pathname raw = some path ∧
        State.run {} 1 before = .ok (s, cases) ∧
        nameAfter (blockOf before ++ [raw]) ∈ cases.map (·.name) ∧
        (nameFor (blockOf before ++ [raw]) path ∈ cases.map (·.name) ↔
          Settled (blockOf before ++ [raw]) path ∨ path ∈ cases.map (·.name))) := by
  constructor
  · intro cases h
    obtain ⟨s, hrun⟩ := compile_eq_ok.mp h
    refine (named_of_run hrun).2.imp ?_
    rintro ⟨before, args⟩ tc ⟨hpath, hcalled⟩
    have hiff : CalledAfter (nameFor (blockOf before) tc.pathname) args tc ↔
        Settled (blockOf before) tc.pathname := by
      rw [← nameAfter_eq_nameFor_iff]
      constructor
      · exact fun h => hcalled.unique h
      · intro h
        rwa [← h]
    exact ⟨hcalled, hiff, fun hs => (hiff.mpr hs).name_ne_empty (nameFor_ne_empty hpath)⟩
  · intro e path h hp
    obtain ⟨before, raw, after, s, cases, htext, hline, harg, hrun, htaken⟩ :=
      taken_of_duplicatePathname h hp
    exact ⟨before, raw, after, s, cases, htext, hline, harg, hrun, htaken,
      nameFor_mem_iff htaken⟩

/-- A script of one block with two paths. -/
def twoPaths : List Char :=
  "compare http://a http://b
pathname /a
pathname /b
capture".toList

/-- The page of the second path is called after the first one. -/
def twoPathsCases : List TestCase :=
  [⟨"/a", "/b", "http://a", "http://b", [], 0, 0, .viewport⟩]

/-- A script with a second path after the first one has been captured. -/
def latePath : List Char :=
  "compare http://a http://b\npathname /a\ncapture\npathname /b".toList

theorem compile_twoPaths : compile twoPaths = .ok twoPathsCases := by decide +kernel

theorem names_follow_iff_paths :
    (compile twoPaths = .ok twoPathsCases ∧
      List.Forall₂ (fun c tc =>
        CalledAfter (nameAfter (blockOf c.1)) c.2 tc ∧
        (CalledAfter (nameFor (blockOf c.1) tc.pathname) c.2 tc ↔
          Settled (blockOf c.1) tc.pathname) ∧
        (Settled (blockOf c.1) tc.pathname → tc.name ≠ ""))
        (captures (lines twoPaths)) twoPathsCases) ∧
    compile latePath = .error ⟨.duplicatePathname "/b", some 4, none⟩ ∧
    ∃ before raw after s cases, lines latePath = before ++ raw :: after ∧
      some 4 = some ((before.length : Int) + 1) ∧ argument? .pathname raw = some "/b" ∧
      State.run {} 1 before = .ok (s, cases) ∧
      nameAfter (blockOf before ++ [raw]) ∈ cases.map (·.name) ∧
      (nameFor (blockOf before ++ [raw]) "/b" ∈ cases.map (·.name) ↔
        Settled (blockOf before ++ [raw]) "/b" ∨ "/b" ∈ cases.map (·.name)) := by
  have herr : compile latePath = .error ⟨.duplicatePathname "/b", some 4, none⟩ := by
    decide +kernel
  exact ⟨⟨compile_twoPaths, (names_follow_iff twoPaths none).1 _ compile_twoPaths⟩, herr,
    (names_follow_iff latePath none).2 _ _ herr rfl⟩

theorem asks_nil : Asks "" .viewport none :=
  .whole (fields_iff.mpr rfl) (.bare rfl) rfl

theorem names_stray_twoPaths : ∃ cases, compile twoPaths = .ok cases ∧
    ¬ List.Forall₂ (fun c tc => CalledAfter (nameFor (blockOf c.1) tc.pathname) c.2 tc)
      (captures (lines twoPaths)) cases := by
  refine ⟨twoPathsCases, compile_twoPaths, ?_⟩
  have hc : captures (lines twoPaths) = [(["compare http://a http://b".toList,
      "pathname /a".toList, "pathname /b".toList], "")] := by decide +kernel
  rw [hc, twoPathsCases, List.forall₂_cons]
  rintro ⟨⟨size?, hasks, hname⟩, -⟩
  obtain ⟨-, rfl⟩ := asks_nil.unique hasks
  have hb : nameFor (blockOf ["compare http://a http://b".toList, "pathname /a".toList,
      "pathname /b".toList]) "/b" = "/b" := by decide +kernel
  change "/a" = nameFor _ "/b" ++ "" at hname
  rw [hb] at hname
  exact absurd hname (by decide)

end PageDiff.Script
