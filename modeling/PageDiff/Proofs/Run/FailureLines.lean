import Mathlib.Algebra.Order.Ring.Nat
import PageDiff.Proofs.Run.Unbroken
import PageDiff.Proofs.Run.Wording

/-!
# The lines of a failure report

The report names each script with a failure, the directory of its artifacts and its failures.  The
names and the addresses in it are texts of one line, but a reason holds the words of the browser as
they are, and each line feed in them, or in the name of the directory, makes one more line.  Main
statement: `failureReport_lines`.
-/

namespace PageDiff.Run

open PageDiff.Browser PageDiff.Path PageDiff.Script PageDiff.Text

/-! ### What a report tells -/

/-- The lines of a report.  An empty one has none. -/
def reportLines (report : String) : List (List Char) :=
  if report = "" then [] else lines report.toList

/-- Why a test case has not passed, as the report says it. -/
def CaseResult.reason (c : CaseResult) : String := c.failureReason.getD "None"

namespace RunResult

/-- The scripts with a test case that has not passed. -/
def failing (r : RunResult) : List ScriptResult := r.scripts.filter (!·.failures.isEmpty)

/-- What the report tells: for each script with a failure its path, where the artifacts are, and its
failures. -/
def told (r : RunResult) : List String :=
  r.failing.flatMap fun s =>
    s.script :: s!"inspect diffs at {s.outputDir}" :: s.failures.map CaseResult.failureLine

/-- How many line feeds there are in the directories and the reasons that the report tells. -/
def feeds (r : RunResult) : Nat :=
  (r.failing.map fun s =>
    s.outputDir.toList.count '\n' + (s.failures.map (·.reason.toList.count '\n')).sum).sum

/-- Each directory and each reason that the report tells is of one line. -/
def Lined (r : RunResult) : Prop :=
  ∀ s ∈ r.failing, IsLine s.outputDir ∧ ∀ c ∈ s.failures, IsLine c.reason

/-- Scripts and test cases have names of one line. -/
def Named (r : RunResult) : Prop :=
  ∀ s ∈ r.scripts, IsLine s.script ∧ ∀ c ∈ s.cases, IsLine c.testName

variable {r : RunResult}

theorem told_eq_flatMap (r : RunResult) : r.told = r.scripts.flatMap ScriptResult.failureLines := by
  unfold told failing
  induction r.scripts with
  | nil => rfl
  | cons s ss ih =>
    rw [List.flatMap_cons, ScriptResult.failureLines]
    cases hs : s.failures with
    | nil => simpa [hs] using ih
    | cons c cs => simpa [hs] using ih

/-- The report has the lines of what it tells. -/
theorem reportLines_eq (r : RunResult) :
    reportLines r.failureReport = r.told.flatMap fun t => lines t.toList := by
  have hempty : r.failureReport = "" ↔ r.told = [] := by
    rw [told_eq_flatMap, failureReport]
    rcases failureLines_cases r.scripts with h | ⟨first, second, rest, h⟩
    · simp [h]
    · rw [h, String.intercalate_cons_cons]
      simp
  unfold reportLines
  by_cases h : r.told = []
  · rw [if_pos (hempty.mpr h), h]
    rfl
  · have hchars : r.failureReport.toList = joinLines (r.told.map String.toList) := by
      rw [failureReport, ← told_eq_flatMap, String.toList_intercalate]
      rfl
    rw [if_neg (mt hempty.mp h), hchars, lines_joinLines_flatMap (by simpa using h),
      List.flatMap_map]

/-! ### Counting lines -/

theorem count_failureLine (c : CaseResult) : c.failureLine.toList.count '\n' =
    c.testName.toList.count '\n' + c.reason.toList.count '\n' := by
  have hline : c.failureLine = c.testName ++ ": " ++ c.reason := rfl
  rw [hline, String.toList_append, String.toList_append, List.count_append, List.count_append]
  rfl

theorem count_inspect (dir : String) :
    (s!"inspect diffs at {dir}").toList.count '\n' = dir.toList.count '\n' := by
  change ("inspect diffs at " ++ dir).toList.count '\n' = _
  rw [String.toList_append, List.count_append, Nat.add_eq_right]
  decide

/-- Every text has as many lines as line feeds, and one more. -/
theorem length_flatMap_lines (ts : List String) : (ts.flatMap fun t => lines t.toList).length =
    ts.length + (ts.map (·.toList.count '\n')).sum := by
  induction ts with
  | nil => rfl
  | cons t ts ih =>
    rw [List.flatMap_cons, List.length_append, ih, length_lines, List.length_cons, List.map_cons,
      List.sum_cons]
    omega

theorem length_told (r : RunResult) :
    r.told.length = 2 * r.failing.length + (r.failing.flatMap (·.failures)).length := by
  unfold told
  induction r.failing with
  | nil => rfl
  | cons s ss ih =>
    simp only [List.flatMap_cons, List.length_append, List.length_cons, List.length_map, ih]
    omega

theorem Named.mem_failures (h : r.Named) {s : ScriptResult} (hs : s ∈ r.failing) :
    IsLine s.script ∧ ∀ c ∈ s.failures, IsLine c.testName := by
  obtain ⟨hscript, hcases⟩ := h s (List.mem_filter.mp hs).1
  exact ⟨hscript, fun c hc => hcases c (List.mem_filter.mp hc).1⟩

/-- Only directories and reasons hold line feeds. -/
theorem sum_count_told (h : r.Named) : (r.told.map (·.toList.count '\n')).sum = r.feeds := by
  have hscript : ∀ s ∈ r.failing,
      ((s.script :: s!"inspect diffs at {s.outputDir}" ::
        s.failures.map CaseResult.failureLine).map (·.toList.count '\n')).sum =
      s.outputDir.toList.count '\n' + (s.failures.map (·.reason.toList.count '\n')).sum := by
    intro s hs
    obtain ⟨hline, hnames⟩ := h.mem_failures hs
    have hcases : s.failures.map (·.failureLine.toList.count '\n') =
        s.failures.map (·.reason.toList.count '\n') := by
      refine List.map_congr_left fun c hc => ?_
      rw [count_failureLine, count_feed_eq_zero_iff.mpr (hnames c hc), Nat.zero_add]
    rw [List.map_cons, List.map_cons, List.sum_cons, List.sum_cons, List.map_map,
      count_feed_eq_zero_iff.mpr hline, count_inspect, Nat.zero_add]
    exact congrArg _ (congrArg List.sum hcases)
  rw [told, feeds, List.map_flatMap, List.flatMap_def, List.sum_flatten, List.map_map]
  exact congrArg List.sum (List.map_congr_left hscript)

theorem feeds_eq_zero_iff : r.feeds = 0 ↔ r.Lined := by
  simp only [feeds, Lined, List.sum_eq_zero_iff_forall_eq_nat, List.mem_map, forall_exists_index,
    and_imp, forall_apply_eq_imp_iff₂, Nat.add_eq_zero_iff, count_feed_eq_zero_iff]

theorem length_reportLines (h : r.Named) : (reportLines r.failureReport).length =
    2 * r.failing.length + (r.failing.flatMap (·.failures)).length + r.feeds := by
  rw [reportLines_eq, length_flatMap_lines, length_told, sum_count_told h]

/-- Everything that is told stands on a line of its own exactly if it is of one line. -/
theorem reportLines_eq_told_iff (h : r.Named) :
    reportLines r.failureReport = r.told.map String.toList ↔ r.Lined := by
  rw [← feeds_eq_zero_iff]
  constructor
  · intro heq
    have hlength := length_reportLines h
    rw [heq, List.length_map, length_told] at hlength
    omega
  · intro hzero
    rw [← sum_count_told h, List.sum_eq_zero_iff_forall_eq_nat] at hzero
    rw [reportLines_eq, ← List.flatMap_singleton' (r.told.map String.toList), List.flatMap_map]
    refine List.flatMap_congr fun t ht => lines_eq_singleton_iff.mpr ?_
    exact count_feed_eq_zero_iff.mp (hzero _ (List.mem_map_of_mem ht))

end RunResult

/-! ### What a run records -/

section Recording

variable {env : Environment} {config : Config} {reporter : Reporter} {w v : World}

/-- The result of a test case says how it has ended at some time. -/
def CaseRecorded (env : Environment) (config : Config) (outDir : Path) (tc : TestCase)
    (r : CaseResult) : Prop :=
  ∃ w : World, Records (tc, (comparePages env.driver config outDir tc w).1) r

/-- The result of a script is about it and holds the results of its test cases. -/
structure ScriptRecorded (env : Environment) (config : Config) (c : Compiled) (r : ScriptResult) :
    Prop where
  script : r.script = c.1.text
  cases : List.Forall₂ (CaseRecorded env config (outputDir config c.1)) c.2 r.cases
  outputDir : r.outputDir = (outputDir config c.1).text

/-- The results of a list of computations fit what they have been made of. -/
theorem forall₂_of_mapM {α β ε : Type} {f : α → Run ε β} {R : α → β → Prop}
    (step : ∀ a w b v, f a w = (.ok b, v) → R a b) {as : List α} {bs : List β} {w v : World}
    (h : as.mapM f w = (.ok bs, v)) : List.Forall₂ R as bs := by
  induction as generalizing w bs v with
  | nil =>
    rw [← Except.ok.inj (Prod.mk.inj h).1]
    exact .nil
  | cons a as ih =>
    rw [List.mapM_cons] at h
    obtain ⟨b, mid, hb, h⟩ := bind_apply_eq_ok h
    obtain ⟨rest, mid', hrest, h⟩ := bind_apply_eq_ok h
    rw [← Except.ok.inj (Prod.mk.inj h).1]
    exact .cons (step a w b mid hb) (ih hrest)

theorem recorded_of_verdict {tc : TestCase} {ended : Ended} {res : String × Option String}
    (h : verdict tc ended w = (.ok res, v)) : res = recorded ended := by
  by_cases hc : ended = .error (.fault .cancelled)
  · subst hc
    cases (Prod.mk.inj h).1
  · obtain ⟨log, hlog⟩ := yields_verdict (o := w.outside) tc hc w rfl
    rw [hlog] at h
    exact (Except.ok.inj (Prod.mk.inj h).1).symm

theorem caseRecorded_of_reportedCase {script outDir : Path} {tc : TestCase} {r : CaseResult}
    (h : reportedCase env config reporter script outDir tc w = (.ok r, v)) :
    CaseRecorded env config outDir tc r := by
  obtain ⟨told, done, -, hrecord, -⟩ := reportedCase_eq_ok h
  obtain ⟨start, ticked, ended, after, judged, logged, stop, -, hended, hverdict, -, rfl⟩ :=
    recordCase_eq_ok hrecord
  refine ⟨ticked, rfl, rfl, rfl, ?_⟩
  rw [hended]
  exact recorded_of_verdict hverdict

theorem scriptRecorded_of_runScript {c : Compiled} {r : ScriptResult}
    (h : runScript env config reporter c w = (.ok r, v)) : ScriptRecorded env config c r := by
  obtain ⟨path, cases⟩ := c
  obtain ⟨prepared, launched, results, ran, -, -, hcases, -, rfl⟩ := runScript_eq_ok h
  have hrecorded : List.Forall₂ (CaseRecorded env config (outputDir config path)) cases results :=
    forall₂_of_mapM (f := reportedCase env config reporter path (outputDir config path))
      (fun _ _ _ _ => caseRecorded_of_reportedCase) hcases
  exact ⟨rfl, hrecorded, rfl⟩

/-- A result of a run, whoever has been told of it, holds the results of the scripts that have been
compiled. -/
theorem recorded_of_runMatching {pattern : String} {requireTests : Bool} {result : RunResult}
    (h : runMatching env config pattern reporter requireTests w = (.ok result, v)) :
    ∃ scripts, Compiles w.disk pattern requireTests scripts ∧
      List.Forall₂ (ScriptRecorded env config) scripts result.scripts := by
  rw [runMatching_eq] at h
  obtain ⟨scripts, compiled, hcompile, h⟩ := bind_apply_eq_ok h
  refine ⟨scripts, compiles_of_compileMatching hcompile, ?_⟩
  obtain ⟨start, ticked, started, results, ran, stopped, stop, -, -, hscripts, -, rfl⟩ :=
    runCompiled_eq_ok h
  exact forall₂_of_mapM (f := runScript env config reporter)
    (fun _ _ _ _ => scriptRecorded_of_runScript) hscripts

end Recording

/-! ### The report of a run -/

section Reports

variable {env : Environment} {config : Config} {reporter : Reporter} {w v : World}
  {pattern : String} {requireTests : Bool} {result : RunResult} {outDir : Path} {tc : TestCase}
  {r : CaseResult}

theorem exists_of_mem_right {α β : Type} {R : α → β → Prop} {as : List α} {bs : List β} {b : β}
    (h : List.Forall₂ R as bs) (hb : b ∈ bs) : ∃ a ∈ as, R a b := by
  induction h with
  | nil => cases hb
  | @cons a b' as bs hab _ ih =>
    rcases List.mem_cons.mp hb with rfl | hb
    · exact ⟨a, List.mem_cons_self, hab⟩
    · obtain ⟨a', ha', hr⟩ := ih hb
      exact ⟨a', List.mem_cons_of_mem _ ha', hr⟩

theorem caseLined_of_compileFile {d : Disk} {p : Path} {cases : List TestCase}
    (h : compileFile d p = .ok cases) : ∀ tc ∈ cases, CaseLined tc := by
  unfold compileFile at h
  split at h
  · cases h
  · split at h
    · cases h
    · next hcompile =>
      rw [← Except.ok.inj h]
      exact caseLined_of_compile hcompile

/-- The results of a run are those of scripts, and of test cases whose names and addresses are of
one line. -/
theorem script_of_run
    (h : runMatching env config pattern reporter requireTests w = (.ok result, v)) :
    ∀ s ∈ result.scripts, ∃ path : Path, s.script = path.text ∧
      s.outputDir = (outputDir config path).text ∧
      ∀ r ∈ s.cases, ∃ tc, CaseLined tc ∧
        CaseRecorded env config (outputDir config path) tc r := by
  intro s hs
  obtain ⟨scripts, hcompiles, hrecorded⟩ := recorded_of_runMatching h
  obtain ⟨c, hc, hscript⟩ := exists_of_mem_right hrecorded hs
  refine ⟨c.1, hscript.script, hscript.outputDir, fun r hr => ?_⟩
  obtain ⟨tc, htc, hcase⟩ := exists_of_mem_right hscript.cases hr
  exact ⟨tc, caseLined_of_compileFile (hcompiles.compiled c hc) tc htc, hcase⟩

theorem named_of_run
    (h : runMatching env config pattern reporter requireTests w = (.ok result, v))
    (hpaths : ∀ s ∈ result.scripts, IsLine s.script) : result.Named := by
  intro s hs
  obtain ⟨path, -, -, hcases⟩ := script_of_run h s hs
  refine ⟨hpaths s hs, fun r hr => ?_⟩
  obtain ⟨tc, htc, w', hrecords⟩ := hcases r hr
  rw [hrecords.testName]
  exact htc.name

/-- Every test case that is recorded has ended in one of the ways there are. -/
theorem CaseRecorded.exists_ending (h : CaseRecorded env config outDir tc r) :
    ∃ o ended o', Ends env.driver config outDir tc o ended o' ∧
      r.reason = reasonFor ended ∧ r.result = (recorded ended).1 := by
  obtain ⟨w', hrecords⟩ := h
  obtain ⟨ended, o', hends⟩ := exists_ends env.driver config outDir tc w'.outside
  obtain ⟨log, hrun⟩ := hends.yields w' rfl
  have hverdict : (r.result, r.failureReason) = recorded ended := by
    rw [hrecords.verdict, hrun]
  obtain ⟨hresult, hreason⟩ := Prod.mk.inj hverdict
  exact ⟨_, _, _, hends, congrArg (·.getD "None") hreason, hresult⟩

/-- Only a mismatch is recorded as a failure of the test case. -/
theorem exists_mismatch {ended : Ended} (h : (recorded ended).1 = "fail") :
    ∃ e, ended = .error (.mismatch e) := by
  cases ended with
  | ok u => exact absurd h (by decide : "pass" ≠ "fail")
  | error failure =>
    cases failure with
    | mismatch e => exact ⟨e, rfl⟩
    | capture e => exact absurd h (by decide : "error" ≠ "fail")
    | fault f => exact absurd h (by decide : "error" ≠ "fail")

theorem CaseRecorded.isLine_of_fail (h : CaseRecorded env config outDir tc r)
    (hout : IsLine outDir.text) (htc : CaseLined tc) (hfail : r.result = "fail") :
    IsLine r.reason := by
  obtain ⟨o, ended, o', hends, hreason, hresult⟩ := h.exists_ending
  obtain ⟨e, rfl⟩ := exists_mismatch (hresult.symm.trans hfail)
  rw [hreason]
  exact isLine_of_mismatch hout htc hends

/-- A run whose browser speaks in single lines reports in single lines. -/
theorem lined_of_speaksLines
    (h : runMatching env config pattern reporter requireTests w = (.ok result, v))
    (hpaths : ∀ s ∈ result.scripts, IsLine s.script) (hroot : IsLine config.outputRoot.shown)
    (hs : SpeaksLines env.driver) : result.Lined := by
  intro s hfailing
  have hmem := (List.mem_filter.mp hfailing).1
  obtain ⟨path, hscript, hdir, hcases⟩ := script_of_run h s hmem
  have hout : IsLine (outputDir config path).text :=
    isLine_outputDir hroot (hscript ▸ hpaths s hmem)
  refine ⟨hdir ▸ hout, fun r hr => ?_⟩
  obtain ⟨tc, htc, hcase⟩ := hcases r (List.mem_filter.mp hr).1
  obtain ⟨o, ended, o', hends, hreason, -⟩ := hcase.exists_ending
  rw [hreason]
  exact isLine_of_ends hs hout htc hends

/-- **The lines of a failure report.**  The report of a run, whoever was told of it, has the lines
of what it tells: for each script with a failure its path, its directory and its failures.  So it
has two lines for each of these scripts and one for each failure, and one more for each line feed in
a directory or a reason, and everything stands on a line of its own exactly if there is none.  A
mismatch never puts one there, and there is none at all if neither the directory of all artifacts
nor anything that the browser says holds one. -/
theorem failureReport_lines
    (h : runMatching env config pattern reporter requireTests w = (.ok result, v))
    (hpaths : ∀ s ∈ result.scripts, IsLine s.script) :
    reportLines result.failureReport = result.told.flatMap (fun t => lines t.toList) ∧
    (reportLines result.failureReport).length =
      2 * result.failing.length + (result.failing.flatMap (·.failures)).length + result.feeds ∧
    (reportLines result.failureReport = result.told.map String.toList ↔ result.Lined) ∧
    (result.feeds = 0 ↔ result.Lined) ∧
    (∀ s ∈ result.scripts, IsLine s.outputDir → ∀ r ∈ s.cases, r.result = "fail" →
      IsLine r.reason) ∧
    (IsLine config.outputRoot.shown → SpeaksLines env.driver → result.Lined) := by
  have hnamed := named_of_run h hpaths
  refine ⟨result.reportLines_eq, RunResult.length_reportLines hnamed,
    RunResult.reportLines_eq_told_iff hnamed, RunResult.feeds_eq_zero_iff, ?_,
    lined_of_speaksLines h hpaths⟩
  intro s hs hout r hr hfail
  obtain ⟨path, -, hdir, hcases⟩ := script_of_run h s hs
  obtain ⟨tc, htc, hcase⟩ := hcases r hr
  exact hcase.isLine_of_fail (hdir ▸ hout) htc hfail

end Reports

theorem speaksLines_blackFirst : SpeaksLines blackFirst := by
  constructor
  · intro history e f h
    simp only [blackFirst, reduceCtorEq] at h
  · intro history why h
    simp only [blackFirst, Screenshot.decode, reduceCtorEq] at h

/-- What can be computed of the result of a run over `sideBySide` is so in its result. -/
theorem result_of_sideBySide {α : Type} (env : Environment) (f : RunResult → α) {a : α}
    (h : (runCompiled env sampleConfig "?.txt" .silent sideBySideScripts
      (sideBySideCompiled true)).1.toOption.map f = some a) :
    ∃ result v, runMatching env sampleConfig "?.txt" .silent true sideBySide = (.ok result, v) ∧
      f result = a := by
  rw [runMatching_eq, bind_apply_of_ok (compileMatching_sideBySide true)]
  cases hrun : runCompiled env sampleConfig "?.txt" .silent sideBySideScripts
      (sideBySideCompiled true) with
  | mk r v =>
    rw [hrun] at h
    cases r with
    | error e => cases h
    | ok result => exact ⟨result, v, rfl, Option.some.inj h⟩

/-- The first of two scripts fails, and its report has three lines. -/
theorem failureReport_lines_sideBySide : ∃ result v,
    runMatching sampleEnv sampleConfig "?.txt" .silent true sideBySide = (.ok result, v) ∧
    (∀ s ∈ result.scripts, IsLine s.script) ∧
    reportLines result.failureReport =
      ["x.txt".toList, "inspect diffs at out/x-txt".toList,
        "/1: http://a/1 != http://b/1".toList] := by
  obtain ⟨result, v, hrun, hresult⟩ := result_of_sideBySide sampleEnv
    (fun result => (result.scripts.all fun s => decide (IsLine s.script), result.told))
    (a := (true, ["x.txt", "inspect diffs at out/x-txt", "/1: http://a/1 != http://b/1"]))
    (by decide +kernel)
  obtain ⟨hall, htold⟩ := Prod.mk.inj hresult
  have hpaths : ∀ s ∈ result.scripts, IsLine s.script := by simpa using hall
  obtain ⟨-, -, hiff, -, -, hlined⟩ := failureReport_lines hrun hpaths
  refine ⟨result, v, hrun, hpaths, ?_⟩
  rw [hiff.mpr (hlined (by decide) speaksLines_blackFirst), htold]
  rfl

/-- A browser that can not open any page and says so on two lines. -/
def twoLineBrowser : Driver where
  reply _ e :=
    match e with
    | .goto _ => .fails (.browser "gone\nCall log:")
    | _ => .done
  picture _ := .encoded white ""

/-- Two scripts fail with one test case each: the report has eight lines instead of six. -/
theorem failureReport_longer_sideBySide : ∃ result v,
    runMatching { driver := twoLineBrowser, caches := .ofString "caches" } sampleConfig "?.txt"
      .silent true sideBySide = (.ok result, v) ∧
    (∀ s ∈ result.scripts, IsLine s.script) ∧
    (reportLines result.failureReport).length = 8 ∧
    2 * result.failing.length + (result.failing.flatMap (·.failures)).length = 6 := by
  obtain ⟨result, v, hrun, hresult⟩ := result_of_sideBySide
    { driver := twoLineBrowser, caches := .ofString "caches" }
    (fun result => (result.scripts.all fun s => decide (IsLine s.script),
      (reportLines result.failureReport).length,
      2 * result.failing.length + (result.failing.flatMap (·.failures)).length))
    (a := (true, 8, 6)) (by decide +kernel)
  simp only [Prod.mk.injEq, List.all_eq_true, decide_eq_true_eq] at hresult
  exact ⟨result, v, hrun, hresult⟩

end PageDiff.Run
