import Mathlib.Data.List.Forall2
import PageDiff.Command.Perform
import PageDiff.Proofs.Run.Course
import PageDiff.Proofs.Run.Evidence

/-!
# A run comes to its end

Whatever becomes of test cases, a smooth run goes through all of them.  Its result holds every
script and every test case in order, with the verdict that its ending has; the counts, the report
and batch mode agree on whether all have passed; and a reporter is told of every test case in the
same order.  Main statement: `runMatching_complete`.
-/

namespace PageDiff.Run

open PageDiff.Browser PageDiff.Script

variable {α β γ ε : Type}

/-! ### What a reporter is told -/

/-- Something that a reporter is told. -/
inductive Occasion
  | started (script : Path) (tc : TestCase)
  | finished (script : Path) (r : CaseResult)

variable {noted : Occasion → List Notice} {printed : Occasion → List Printed}

/-- The world after occasions have been noted down and printed. -/
structure Tells (noted : Occasion → List Notice) (printed : Occasion → List Printed)
    (occasions : List Occasion) (w v : World) : Prop where
  notices : v.notices = w.notices ++ occasions.flatMap noted
  console : v.console = w.console ++ occasions.flatMap printed

theorem tells_nil {w v : World} (hn : v.notices = w.notices) (hc : v.console = w.console) :
    Tells noted printed [] w v := by
  refine ⟨?_, ?_⟩
  · simpa using hn
  · simpa using hc

theorem Tells.append {first later : List Occasion} {w v u : World}
    (h : Tells noted printed first w v) (h' : Tells noted printed later v u) :
    Tells noted printed (first ++ later) w u := by
  refine ⟨?_, ?_⟩
  · rw [h'.notices, h.notices, List.flatMap_append, List.append_assoc]
  · rw [h'.console, h.console, List.flatMap_append, List.append_assoc]

/-- The world after an occasion has been noted down and printed. -/
def World.told (noted : Occasion → List Notice) (printed : Occasion → List Printed)
    (occasion : Occasion) (w : World) : World :=
  { w with
    notices := w.notices ++ noted occasion
    console := w.console ++ printed occasion }

theorem tells_told (occasion : Occasion) (w : World) :
    Tells noted printed [occasion] w (w.told noted printed occasion) := by
  refine ⟨?_, ?_⟩
  · simp [World.told]
  · simp [World.told]

/-- A reporter writes something down on every occasion, and does nothing else. -/
structure Reporter.Writes (reporter : Reporter) (noted : Occasion → List Notice)
    (printed : Occasion → List Printed) : Prop where
  started : ∀ script tc w,
    reporter.started script tc w = (.ok (), w.told noted printed (.started script tc))
  finished : ∀ script r w,
    reporter.finished script r w = (.ok (), w.told noted printed (.finished script r))

theorem silent_writes : Reporter.silent.Writes (fun _ => []) (fun _ => []) := by
  refine ⟨?_, ?_⟩
  · intro script tc w
    simp only [World.told, List.append_nil]
    rfl
  · intro script r w
    simp only [World.told, List.append_nil]
    rfl

/-- The notice of an occasion. -/
def noticeOf : Occasion → Notice
  | .started script tc => .started script tc.name
  | .finished script r => .finished script r.testName r.result

theorem notes_writes : Reporter.notes.Writes (fun o => [noticeOf o]) (fun _ => []) := by
  refine ⟨?_, ?_⟩
  · intro script tc w
    simp only [World.told, List.append_nil]
    rfl
  · intro script r w
    simp only [World.told, List.append_nil]
    rfl

/-- The line that the command prints on an occasion. -/
def lineOf : Occasion → List Printed
  | .started _ _ => []
  | .finished script r => [.line (Command.finishedLine script r)]

theorem printing_writes : Command.printingReporter.Writes (fun _ => []) lineOf := by
  refine ⟨?_, ?_⟩
  · intro script tc w
    simp only [World.told, lineOf, List.append_nil]
    rfl
  · intro script r w
    simp only [World.told, List.append_nil]
    rfl

/-! ### What is recorded -/

/-- The result and the reason that an ending has. -/
def recorded : Ended → String × Option String
  | .ok _ => ("pass", none)
  | .error (.mismatch e) => ("fail", some e.message)
  | .error (.capture e) => ("error", some e.message)
  | .error (.fault f) => ("error", some s!"{f.kindName}: {f.message}")

/-- The result of a test case is about it and says how it has ended. -/
structure Records (c : TestCase × Ended) (r : CaseResult) : Prop where
  testName : r.testName = c.1.name
  urlA : r.urlA = c.1.urlA
  urlB : r.urlB = c.1.urlB
  verdict : (r.result, r.failureReason) = recorded c.2

/-- The result of a script is about it, and it holds the results of its test cases in order. -/
structure ScriptRecords (config : Config) (s : Played) (r : ScriptResult) : Prop where
  script : r.script = s.1.text
  outputDir : r.outputDir = (outputDir config s.1).text
  cases : List.Forall₂ Records s.2 r.cases

def caseOccasions (script : Path) (tc : TestCase) (r : CaseResult) : List Occasion :=
  [.started script tc, .finished script r]

def scriptOccasions (script : Compiled) (r : ScriptResult) : List Occasion :=
  (List.zipWith (caseOccasions script.1) script.2 r.cases).flatten

/-- Before and after every test case, in order. -/
def occasions (scripts : List Compiled) (results : List ScriptResult) : List Occasion :=
  (List.zipWith scriptOccasions scripts results).flatten

/-! ### Coming to an end -/

/-- A computation succeeds, and then something holds of its result and of the world. -/
def Reaches (x : Run ε α) (w : World) (Q : α → World → Prop) : Prop :=
  ∃ a v, x w = (.ok a, v) ∧ Q a v

section Reaches

variable {x : Run ε α} {w : World} {Q : α → World → Prop}

theorem Reaches.bind {f : α → Run ε β} {Q : β → World → Prop}
    (h : Reaches x w fun a v => Reaches (f a) v Q) : Reaches (x >>= f) w Q := by
  obtain ⟨a, v, hx, b, u, hf, hq⟩ := h
  exact ⟨b, u, by rw [bind_apply_of_ok hx, hf], hq⟩

theorem reaches_pure {a : α} (h : Q a w) : Reaches (pure a : Run ε α) w Q := ⟨a, w, rfl, h⟩

theorem Reaches.mono {Q' : α → World → Prop} (h : Reaches x w Q) (hq : ∀ a v, Q a v → Q' a v) :
    Reaches x w Q' := by
  obtain ⟨a, v, hx, h⟩ := h
  exact ⟨a, v, hx, hq a v h⟩

theorem Yields.reaches {a : α} {o o' : Outside} (h : Yields x o (.ok a) o') (hw : w.outside = o)
    (hq : ∀ log, Q a (w.after o' log)) : Reaches x w Q := by
  obtain ⟨log, hx⟩ := h w hw
  exact ⟨a, _, hx, hq log⟩

theorem Reaches.mapError (h : Reaches x w Q) (f : ε → γ) : Reaches (x.mapError f) w Q := by
  obtain ⟨a, v, hx, hq⟩ := h
  exact ⟨a, v, by rw [Run.mapError, hx], hq⟩

/-- A computation that is cleaned up after succeeds if the cleaning does as well. -/
theorem Reaches.cleanedUp {y : Run ε Unit}
    (h : Reaches x w fun a v => Reaches y v fun _ u => Q a u) : Reaches (x.cleanedUp y) w Q := by
  obtain ⟨a, v, hx, u, v', hy, hq⟩ := h
  refine ⟨a, v', ?_, hq⟩
  unfold Run.cleanedUp
  rw [hx]
  simp only
  rw [hy]

end Reaches

/-- A computation succeeds with a result that fits what has been played, leaves outside what has
been left there, and has told about the result. -/
def Completes (noted : Occasion → List Notice) (printed : Occasion → List Printed) (x : Run ε β)
    (w : World) (played : γ × Outside) (fits : γ → β → Prop) (told : β → List Occasion) : Prop :=
  Reaches x w fun b v => v.outside = played.2 ∧ fits played.1 b ∧
    Tells noted printed (told b) w v

theorem mapM_completes {f : α → Run ε β} {g : α → StateM Outside γ} {P : α → Outside → Prop}
    {fits : γ → β → Prop} {told : α → β → List Occasion}
    (step : ∀ a w, P a w.outside →
      Completes noted printed (f a) w (g a w.outside) fits (told a))
    {as : List α} {w : World} (h : Along g P as w.outside) :
    Completes noted printed (as.mapM f) w ((as.mapM g) w.outside) (List.Forall₂ fits)
      fun bs => (List.zipWith told as bs).flatten := by
  induction as generalizing w with
  | nil => exact ⟨[], w, rfl, rfl, .nil, tells_nil rfl rfl⟩
  | cons a as ih =>
    obtain ⟨ha, hrest⟩ := h
    rw [List.mapM_cons, mapM_cons_apply]
    refine Reaches.bind ((step a w ha).mono ?_)
    rintro b v ⟨hv, hfits, htold⟩
    -- the rest starts with what the first one leaves outside
    rw [← hv] at hrest ⊢
    refine Reaches.bind ((ih hrest).mono ?_)
    rintro bs u ⟨hu, hfits', htold'⟩
    exact ⟨b :: bs, u, rfl, hu, .cons hfits hfits', htold.append htold'⟩

/-! ### Test cases -/

variable {env : Environment} {config : Config} {reporter : Reporter}

theorem yields_verdict (tc : TestCase) {ended : Ended} {o : Outside}
    (h : ended ≠ .error (.fault .cancelled)) :
    Yields (verdict tc ended) o (.ok (recorded ended)) o := by
  cases ended with
  | ok u => exact yields_pure _
  | error failure =>
    cases failure with
    | mismatch e => exact yields_pure _
    | capture e => exact (yields_logLine .warning _).bind (yields_pure _)
    | fault f =>
      have hf : f ≠ .cancelled := fun hf => h (by rw [hf])
      have hv : verdict tc (.error (.fault f)) = (do
          logLine .error s!"Test {tc.name} crashed: {f.message}"
          return ("error", some s!"{f.kindName}: {f.message}")) := by
        cases f <;> first | rfl | exact absurd rfl hf
      rw [hv]
      exact (yields_logLine .error _).bind (yields_pure _)

theorem recordCase_completes {outDir : Path} {tc : TestCase} {w : World}
    (h : Ordinary env.driver config outDir tc w.outside) :
    Completes noted printed (recordCase env config outDir tc) w
      (playCase env.driver config outDir tc w.outside) Records fun _ => [] := by
  rw [playCase_apply]
  unfold Ordinary at h
  have hcase := (outward_comparePages env.driver config outDir tc).yields (o := w.outside)
  generalize outcomeAt (comparePages env.driver config outDir tc) w.outside = outcome at h hcase ⊢
  obtain ⟨ended, o⟩ := outcome
  refine Reaches.bind ⟨_, { w with clock := w.clock.add env.tick }, rfl, ?_⟩
  obtain ⟨log, hrun⟩ := hcase { w with clock := w.clock.add env.tick } rfl
  refine Reaches.bind ⟨_, _, by rw [attempt, hrun], ?_⟩
  refine Reaches.bind ((yields_verdict tc h).reaches rfl fun log' => ?_)
  exact Reaches.bind ⟨_, _, rfl, _, _, rfl, rfl, ⟨rfl, rfl, rfl, rfl⟩, tells_nil rfl rfl⟩

theorem reportedCase_completes (hr : reporter.Writes noted printed) (script : Path) {outDir : Path}
    (tc : TestCase) (w : World) (h : Ordinary env.driver config outDir tc w.outside) :
    Completes noted printed (reportedCase env config reporter script outDir tc) w
      (playCase env.driver config outDir tc w.outside) Records (caseOccasions script tc) := by
  have htold : Tells noted printed [.started script tc] w _ := tells_told (.started script tc) w
  refine Reaches.bind ⟨_, _, hr.started script tc w, ?_⟩
  have hcase : Completes noted printed (recordCase env config outDir tc)
      (w.told noted printed (.started script tc)) _ _ _ := recordCase_completes h
  refine Reaches.bind (hcase.mono ?_)
  rintro r v ⟨hv, hrecords, htold'⟩
  refine Reaches.bind ⟨_, _, hr.finished script r v, r, _, rfl, hv, hrecords, ?_⟩
  exact (htold.append htold').append (tells_told (.finished script r) v)

theorem reportedCases_complete (env : Environment) (config : Config)
    (hr : reporter.Writes noted printed) (script : Path) {outDir : Path} {cases : List TestCase}
    {w : World} {o : Outside} (hw : w.outside = o)
    (h : Along (playCase env.driver config outDir) (Ordinary env.driver config outDir) cases o) :
    Completes noted printed (cases.mapM (reportedCase env config reporter script outDir)) w
      ((cases.mapM (playCase env.driver config outDir)) o) (List.Forall₂ Records)
      fun rs => (List.zipWith (caseOccasions script) cases rs).flatten := by
  subst hw
  exact mapM_completes (reportedCase_completes hr script) h

/-! ### Scripts -/

theorem request_reaches {e : Event} {w : World} {Q : Unit → World → Prop}
    (h : env.driver.reply w.trace e = .done)
    (hq : ∀ log, Q () (w.after (w.outside.called e) log)) :
    Reaches ((callUnlimited env.driver e).mapError RunFailure.fault) w Q :=
  ((yields_callUnlimited (o := w.outside) h).reaches rfl hq).mapError _

theorem scriptRecords_of_records {path : Path} {played : List (TestCase × Ended)}
    {results : List CaseResult} (h : List.Forall₂ Records played results) :
    ScriptRecords config (path, played)
      { script := path.text, outputDir := (outputDir config path).text, cases := results } := by
  refine ⟨?_, ?_, h⟩
  · simp only
  · simp only

theorem runScript_completes (env : Environment) (hr : reporter.Writes noted printed)
    (script : Compiled) (w : World)
    (h : Smooth env.driver config script w.outside) :
    Completes noted printed (runScript env config reporter script) w
      (playScript env.driver config script w.outside) (ScriptRecords config)
      (scriptOccasions script) := by
  obtain ⟨path, cases⟩ := script
  obtain ⟨d, hd⟩ := h.exists_disk
  have hclosed := h.closed
  rw [playScript_apply]
  refine Reaches.bind (Reaches.mapError ((yields_freshOutputDir h.rooted hd).reaches rfl
    fun log => ?_) _)
  refine Reaches.bind (request_reaches h.launched fun log' => ?_)
  have hcases := reportedCases_complete env config hr path
    (w := (w.after ⟨d, w.trace⟩ log).after ⟨d, w.trace ++ [launchEvent config]⟩ log')
    (opened_eq hd).symm h.ordinary
  unfold playCases at hclosed ⊢
  generalize cases.mapM (playCase env.driver config (outputDir config path))
    (w.outside.opened config path) = played at hcases hclosed ⊢
  refine Reaches.bind (Reaches.cleanedUp (hcases.mono ?_))
  rintro results v ⟨hv, hrecords, htold⟩
  rw [← hv] at hclosed
  refine request_reaches hclosed fun log'' => ?_
  refine reaches_pure ⟨?_, scriptRecords_of_records hrecords, ?_⟩
  · rw [World.outside_after, hv]
  · exact ⟨htold.notices, htold.console⟩

/-! ### Counts and reports -/

/-- The results of all test cases. -/
def RunResult.cases (r : RunResult) : List CaseResult := r.scripts.flatMap (·.cases)

/-- How many test cases have a result. -/
def RunResult.count (r : RunResult) (result : String) : Int :=
  r.cases.countP (·.result == result)

theorem Records.known {c : TestCase × Ended} {r : CaseResult} (h : Records c r) :
    r.result = "pass" ∨ r.result = "fail" ∨ r.result = "error" := by
  obtain ⟨tc, ended⟩ := c
  have hresult : r.result = (recorded ended).1 := congrArg Prod.fst h.verdict
  rw [hresult]
  cases ended with
  | ok u => exact .inl rfl
  | error failure =>
    cases failure with
    | mismatch e => exact .inr (.inl rfl)
    | capture e => exact .inr (.inr rfl)
    | fault f => exact .inr (.inr rfl)

theorem countP_results {rs : List CaseResult}
    (h : ∀ r ∈ rs, r.result = "pass" ∨ r.result = "fail" ∨ r.result = "error") :
    rs.length = rs.countP (·.result == "pass") + rs.countP (·.result == "fail") +
      rs.countP (·.result == "error") := by
  induction rs with
  | nil => rfl
  | cons r rs ih =>
    have hrest := ih fun r' hr' => h r' (by simp [hr'])
    simp only [List.length_cons, List.countP_cons]
    rcases h r (by simp) with hr | hr | hr
    · simp [hr]
      omega
    · simp [hr]
      omega
    · simp [hr]
      omega

theorem failureLines_eq_nil_iff {r : ScriptResult} :
    r.failureLines = [] ↔ ∀ c ∈ r.cases, c.result = "pass" := by
  have hfailures : r.failures = [] ↔ ∀ c ∈ r.cases, c.result = "pass" := by
    simp [ScriptResult.failures, List.filter_eq_nil_iff, CaseResult.passed]
  rw [← hfailures, ScriptResult.failureLines]
  by_cases h : r.failures = []
  · simp [h]
  · simp [h]

/-- A script with a failure has more than one line. -/
theorem failureLines_cases (rs : List ScriptResult) :
    rs.flatMap ScriptResult.failureLines = [] ∨
      ∃ first second rest, rs.flatMap ScriptResult.failureLines = first :: second :: rest := by
  induction rs with
  | nil => exact .inl rfl
  | cons r rs ih =>
    rw [List.flatMap_cons]
    by_cases h : r.failures = []
    · rw [ScriptResult.failureLines, if_pos h, List.nil_append]
      exact ih
    · rw [ScriptResult.failureLines, if_neg h]
      exact .inr ⟨_, _, _, rfl⟩

/-- The report is empty exactly if every test case has passed. -/
theorem failureReport_eq_empty_iff {r : RunResult} :
    r.failureReport = "" ↔ ∀ c ∈ r.cases, c.result = "pass" := by
  have hnil : r.scripts.flatMap ScriptResult.failureLines = [] ↔
      ∀ c ∈ r.cases, c.result = "pass" := by
    simp only [List.flatMap_eq_nil_iff, failureLines_eq_nil_iff, RunResult.cases,
      List.mem_flatMap, forall_exists_index, and_imp]
    exact ⟨fun h c s hs hc => h s hs c hc, fun h s hs c hc => h c s hs hc⟩
  rw [← hnil, RunResult.failureReport]
  rcases failureLines_cases r.scripts with h | ⟨first, second, rest, h⟩
  · simp [h]
  · rw [h, String.intercalate_cons_cons]
    simp

/-- What has been played and recorded, without the scripts. -/
theorem forall₂_records {config : Config} {played : List Played} {results : List ScriptResult}
    (h : List.Forall₂ (ScriptRecords config) played results) :
    List.Forall₂ Records (played.flatMap (·.2)) (results.flatMap (·.cases)) :=
  List.rel_flatMap h fun _ _ hs => hs.cases

theorem forall_known {cases : List (TestCase × Ended)} {results : List CaseResult}
    (h : List.Forall₂ Records cases results) :
    ∀ r ∈ results, r.result = "pass" ∨ r.result = "fail" ∨ r.result = "error" :=
  ((List.forall₂_and_left _ _).mp (h.flip.imp fun _ _ hr => ⟨hr.known, hr⟩)).1

/-- A result is consistent with what has been played: it holds every script and every test case in
order, and counts and report say of them what their results say. -/
structure Complete (config : Config) (scripts : List Compiled) (played : List Played)
    (result : RunResult) : Prop where
  covers : played.map (fun s => (s.1, s.2.map (·.1))) = scripts
  records : List.Forall₂ (ScriptRecords config) played result.scripts
  total : result.total = ((scripts.flatMap (·.2)).length : Int)
  passed : result.passed = result.count "pass"
  failed : result.failed = result.count "fail"
  errors : result.errors = result.count "error"
  sum : result.total = result.passed + result.failed + result.errors
  ok_iff : result.ok = true ↔ ∀ r ∈ result.cases, r.result = "pass"
  report_iff : result.failureReport = "" ↔ result.ok = true

theorem complete_summary {config : Config} {scripts : List Compiled} {played : List Played}
    {results : List ScriptResult} (hplayed : played.map (fun s => (s.1, s.2.map (·.1))) = scripts)
    (h : List.Forall₂ (ScriptRecords config) played results)
    (pattern startedAt completedAt : String) (duration : Number.Double) :
    Complete config scripts played (summary pattern startedAt completedAt results duration) := by
  have hcases := forall₂_records h
  have hknown := forall_known hcases
  have hsum := countP_results hknown
  have hok : (summary pattern startedAt completedAt results duration).ok = true ↔
      ∀ r ∈ results.flatMap (·.cases), r.result = "pass" := by
    simp only [summary, RunResult.ok, Bool.and_eq_true, beq_iff_eq, Int.natCast_eq_zero,
      List.countP_eq_zero]
    constructor
    · rintro ⟨hfail, herror⟩ r hr
      rcases hknown r hr with h | h | h
      · exact h
      · exact absurd h (hfail r hr)
      · exact absurd h (herror r hr)
    · intro hpass
      refine ⟨fun r hr => ?_, fun r hr => ?_⟩
      · rw [hpass r hr]
        decide
      · rw [hpass r hr]
        decide
  refine ⟨hplayed, h, ?_, rfl, rfl, rfl, ?_, hok, ?_⟩
  · rw [← hplayed, List.flatMap_map]
    change ((results.flatMap (·.cases)).length : Int) = _
    rw [← hcases.length_eq]
    simp [List.length_flatMap]
  · change ((results.flatMap (·.cases)).length : Int) = _
    rw [hsum]
    simp [summary]
  · rw [failureReport_eq_empty_iff, hok]
    rfl

/-! ### Runs -/

theorem runCompiled_completes (env : Environment) (hr : reporter.Writes noted printed)
    (pattern : String) {scripts : List Compiled} {w : World}
    (h : RunSmooth env.driver config scripts w.outside) :
    Completes noted printed (runCompiled env config pattern reporter scripts) w
      (playRun env.driver config scripts w.outside)
      (fun played result => result.pattern = pattern ∧ Complete config scripts played result)
      fun result => occasions scripts result.scripts := by
  refine Reaches.bind ⟨_, { w with clock := w.clock.add env.tick }, rfl, ?_⟩
  refine Reaches.bind (request_reaches h.started fun log => ?_)
  have hscripts : Completes noted printed (scripts.mapM (runScript env config reporter))
      (({ w with clock := w.clock.add env.tick } : World).after (w.outside.called .start) log)
      ((scripts.mapM (playScript env.driver config)) (w.outside.called .start))
      (List.Forall₂ (ScriptRecords config))
      fun rs => (List.zipWith scriptOccasions scripts rs).flatten :=
    mapM_completes (runScript_completes env hr) h.each
  have hcovers := playAll_fst env.driver config scripts (w.outside.called .start)
  have hstopped := h.stopped
  rw [playRun_apply]
  unfold playAll at hcovers hstopped ⊢
  generalize scripts.mapM (playScript env.driver config) (w.outside.called .start) = played
    at hscripts hcovers hstopped ⊢
  refine Reaches.bind (Reaches.cleanedUp (hscripts.mono ?_))
  rintro results v ⟨hv, hrecords, htold⟩
  rw [← hv] at hstopped
  refine request_reaches hstopped fun log' => ?_
  -- the clock is read once more, and the log gets its last line
  refine Reaches.bind ⟨_, _, rfl, ?_⟩
  refine Reaches.bind ⟨_, _, rfl, ?_⟩
  refine reaches_pure ⟨congrArg (Outside.called · .stop) hv, ⟨rfl, ?_⟩, ?_⟩
  · exact complete_summary hcovers hrecords _ _ _ _
  · exact ⟨htold.notices, htold.console⟩

theorem runMatching_completes (env : Environment) (hr : reporter.Writes noted printed)
    {pattern : String} {requireTests : Bool} {scripts : List Compiled} {w : World}
    (hc : Compiles w.disk pattern requireTests scripts)
    (h : RunSmooth env.driver config scripts w.outside) :
    Completes noted printed (runMatching env config pattern reporter requireTests) w
      (playRun env.driver config scripts w.outside)
      (fun played result => result.pattern = pattern ∧ Complete config scripts played result)
      fun result => occasions scripts result.scripts := by
  rw [runMatching_eq]
  refine Reaches.bind ((Compiles.yields (o := w.outside) hc).reaches rfl fun log => ?_)
  have hrun := runCompiled_completes env (w := w.after w.outside log) hr pattern h
  refine hrun.mono ?_
  rintro result v ⟨hv, hfits, htold⟩
  exact ⟨hv, hfits, htold.notices, htold.console⟩

/-- **A run comes to its end.**  If browsers can be launched and closed, directories can be prepared
and no test case is called off, a run goes through all scripts that a pattern matches: its result is
complete, and its reporter is told of every test case before and after it, in order.  Batch mode
returns the result if it is one without failures, and raises its report otherwise. -/
theorem runMatching_complete (env : Environment) (config : Config) (pattern : String)
    (scripts : List Compiled) (w : World)
    (smooth : RunSmooth env.driver config scripts w.outside) :
    (∀ reporter noted printed requireTests, reporter.Writes noted printed →
      Compiles w.disk pattern requireTests scripts →
      ∃ result v, runMatching env config pattern reporter requireTests w = (.ok result, v) ∧
        result.pattern = pattern ∧
        Complete config scripts (playRun env.driver config scripts w.outside).1 result ∧
        Tells noted printed (occasions scripts result.scripts) w v) ∧
    (Compiles w.disk pattern true scripts →
      ∃ result v, Complete config scripts (playRun env.driver config scripts w.outside).1 result ∧
        runChecked env config pattern w =
          (if result.ok then .ok result else .error (.notOk result.failureReport result), v)) := by
  refine ⟨?_, ?_⟩
  · intro reporter noted printed requireTests hr hc
    obtain ⟨result, v, hresult, -, ⟨hpattern, hcomplete⟩, htold⟩ :=
      runMatching_completes env hr hc smooth
    exact ⟨result, v, hresult, hpattern, hcomplete, htold⟩
  · intro hc
    obtain ⟨result, v, hresult, -, ⟨-, hcomplete⟩, -⟩ :=
      runMatching_completes env silent_writes hc smooth
    have hmapped : (runMatching env config pattern).mapError CheckFailure.run w =
        (.ok result, v) := by
      rw [mapError, hresult]
    refine ⟨result, v, hcomplete, ?_⟩
    rw [runChecked, bind_apply_of_ok hmapped]
    by_cases hok : result.ok = true
    · rw [if_pos hok, if_pos hok]
      rfl
    · rw [if_neg hok, if_neg hok]
      rfl

theorem compiles_sideBySide : Compiles sideBySide.disk "?.txt" true sideBySideScripts := by
  refine ⟨findScripts_sideBySide, ?_, by decide +kernel⟩
  have hcases : ∀ c ∈ sideBySideScripts,
      (compileFile sideBySide.disk c.1).toOption = some c.2 := by decide +kernel
  intro c hc
  have h := hcases c hc
  cases hf : compileFile sideBySide.disk c.1 with
  | error e =>
    rw [hf] at h
    cases h
  | ok cases =>
    rw [hf] at h
    rw [Option.some.inj h]

theorem smooth_sideBySide :
    RunSmooth blackFirst sampleConfig sideBySideScripts sideBySide.outside := by decide +kernel

/-- Of two scripts the first fails and the second passes; both are recorded, and batch mode raises
the report. -/
theorem runMatching_complete_sideBySide :
    (playRun blackFirst sampleConfig sideBySideScripts sideBySide.outside).1.map
        (fun s => (s.1.text, s.2.map fun c => (c.1.name, (recorded c.2).1))) =
      [("x.txt", [("/1", "fail")]), ("y.txt", [("/2", "pass")])] ∧
    (∃ result v, runMatching sampleEnv sampleConfig "?.txt" .notes true sideBySide =
        (.ok result, v) ∧ result.pattern = "?.txt" ∧
      Complete sampleConfig sideBySideScripts
        (playRun blackFirst sampleConfig sideBySideScripts sideBySide.outside).1 result ∧
      v.notices = (occasions sideBySideScripts result.scripts).map noticeOf) ∧
    ∃ result v, Complete sampleConfig sideBySideScripts
        (playRun blackFirst sampleConfig sideBySideScripts sideBySide.outside).1 result ∧
      runChecked sampleEnv sampleConfig "?.txt" sideBySide =
        (if result.ok then .ok result else .error (.notOk result.failureReport result), v) := by
  obtain ⟨reported, checked⟩ := runMatching_complete sampleEnv sampleConfig "?.txt"
    sideBySideScripts sideBySide smooth_sideBySide
  obtain ⟨result, v, hrun, hpattern, hcomplete, htold⟩ :=
    reported .notes _ _ true notes_writes compiles_sideBySide
  refine ⟨by decide +kernel, ⟨result, v, hrun, hpattern, hcomplete, ?_⟩,
    checked compiles_sideBySide⟩
  rw [htold.notices, List.map_eq_flatMap]
  rfl

end PageDiff.Run
