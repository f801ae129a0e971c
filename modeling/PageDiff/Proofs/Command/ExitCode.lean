import PageDiff.Proofs.Run.Unbroken

/-!
# How the commands that run scripts end

Both commands that run scripts end with success exactly if all scripts of the pattern compile and
all their test cases pass.  A check also writes its report exactly if the scripts compile, whatever
becomes of their test cases; a test shows a table with a row for each test case.  Main statement
(`outcome_of_commands`): all that holds of every run that no fault breaks off.
-/

namespace PageDiff.Command

open PageDiff.Browser PageDiff.Disk PageDiff.Run PageDiff.Script PageDiff.Text

variable {ε α : Type} {env : Environment} {config : Config} {pattern configPath : String}
  {typed : List (List Char)} {report : Option String} {result : RunResult} {w v : World}

/-! ### Steps of a command -/

/-- How a command ends whose work is good or not. -/
def endedWith (good : Bool) : Except Stop Unit := if good then .ok () else .error (.exit 1)

theorem exitCode_endedWith (good : Bool) : exitCode (endedWith good) = if good then 0 else 1 := by
  cases good <;> rfl

/-- The world with a complaint about scripts that can not be found or compiled. -/
def complained (e : RunFailure) (w : World) : World :=
  { w with console := w.console ++ [.line (Markup.styled "red" (Markup.escape e.message))] }

theorem orComplain_of_ok {x : Run RunFailure α} {a : α} (h : x w = (.ok a, v)) :
    orComplain x w = (.ok a, v) := by
  have hended : (attempt x : Run Stop _) w = (.ok (.ok a), v) := by rw [attempt, h]
  rw [orComplain, bind_apply_of_ok hended]
  rfl

/-- Scripts that can not be found or compiled are complained about. -/
theorem orComplain_of_error {x : Run RunFailure α} {e : RunFailure} (h : x w = (.error e, v))
    (he : ∀ f, e ≠ .fault f) : orComplain x w = (.error (.exit 1), complained e v) := by
  have hended : (attempt x : Run Stop _) w = (.ok (.error e), v) := by rw [attempt, h]
  rw [orComplain, bind_apply_of_ok hended]
  cases e with
  | compile e => rfl
  | discovery e => rfl
  | fault f => exact absurd rfl (he f)

theorem forM_print (f : α → Printed) (as : List α) (w : World) :
    (as.forM fun a => (print (f a) : Run ε Unit)) w =
      (.ok (), { w with console := w.console ++ as.map f }) := by
  induction as generalizing w with
  | nil =>
    rw [List.map_nil, List.append_nil]
    rfl
  | cons a as ih =>
    have hprinted : (print (f a) : Run ε Unit) w =
        (.ok (), { w with console := w.console ++ [f a] }) := rfl
    change (print (f a) >>= fun _ => as.forM fun a => print (f a)) w = _
    rw [bind_apply_of_ok hprinted, ih]
    simp

theorem forM_say (f : α → String) (as : List α) (w : World) :
    (as.forM fun a => (say (f a) : Run ε Unit)) w =
      (.ok (), { w with console := w.console ++ as.map fun a => .line (f a) }) :=
  forM_print (fun a => .line (f a)) as w

/-! ### Writing the report -/

/-- A file can be opened once the directories above it have been made. -/
def CanWrite (d : Disk) (p : Path) : Prop :=
  ∃ made q, d.ensureDirectories p.parent = (made, .ok ()) ∧ made.openForWriting p = .ok q

/-- The report of a check can be written, if there is a path for it. -/
def ReportOpen (report : Option String) (d : Disk) : Prop :=
  ∀ path, report = some path → path ≠ "" → CanWrite d (.ofString path)

theorem writeText_of_canWrite {d : Disk} {p : Path} (h : CanWrite d p) (hp : p.Sound)
    (text : String) : ∃ d', d.writeText p text = (d', .ok ()) ∧
      d'.find? (p.place d'.current) = some (.file (.bytes (Utf8.encode text.toList))) := by
  obtain ⟨made, q, hmade, hopen⟩ := h
  obtain ⟨hne, -, -, hplace⟩ := openForWriting_eq_ok hopen
  refine ⟨made.put q (.file (.bytes (Utf8.encode text.toList))), ?_, ?_⟩
  · rw [writeText, hmade]
    simp only [write, hopen]
    rfl
  · rw [current_put, ← hplace hp, find?_put _ hne, if_pos rfl]

theorem canWrite_of_writeText {d : Disk} {p : Path} (text : String)
    (h : (d.writeText p text).2 = .ok ()) : CanWrite d p := by
  unfold writeText at h
  cases hmade : d.ensureDirectories p.parent with
  | mk made r =>
    rw [hmade] at h
    cases r with
    | error e => cases h
    | ok u =>
      cases hopen : made.openForWriting p with
      | error e =>
        simp only [write, hopen] at h
        cases h
      | ok q => exact ⟨made, q, hmade, hopen⟩

/-- The report stands in its file if there is a path for it; otherwise nothing is written. -/
structure ReportKept (result : RunResult) (report : Option String) (d d' : Disk) : Prop where
  written : ∀ path, report = some path → path ≠ "" →
    d'.find? ((Path.ofString path).place d'.current) =
      some (.file (.bytes (Utf8.encode result.document.toList)))
  unasked : (∀ path, report = some path → path = "") → d' = d

theorem writeReport_of_open (h : ReportOpen report w.disk) (result : RunResult) :
    ∃ d, writeReport result report w = (.ok (), { w with disk := d }) ∧
      ReportKept result report w.disk d := by
  cases report with
  | none => exact ⟨w.disk, rfl, nofun, fun _ => rfl⟩
  | some path =>
    by_cases hpath : path = ""
    · subst hpath
      exact ⟨w.disk, rfl, fun _ he hne => absurd (Option.some.inj he).symm hne, fun _ => rfl⟩
    · obtain ⟨d, hwritten, hfound⟩ := writeText_of_canWrite (h path rfl hpath)
        (Path.sound_ofString path) result.document
      refine ⟨d, ?_, ?_, fun hnone => absurd (hnone path rfl) hpath⟩
      · have hreport : writeReport result (some path) =
            (onDisk fun d => result.write d (.ofString path)).mapError fun e => .fault (.disk e) :=
          if_neg hpath
        rw [hreport, mapError_apply, onDisk, RunResult.write, hwritten]
        rfl
      · intro path' he _
        rwa [← Option.some.inj he]

/-! ### Checking -/

theorem perform_check_of_settings (hconfig : loadSettings env configPath w = (.ok config, w)) :
    perform env typed (.check pattern configPath report) w =
      (match (runChecked env config pattern w).1 with
      | .error (.run e) => orComplain (throw e)
      | .error (.notOk text result) => do
        writeReport result report
        complain (Markup.escape text)
      | .ok result => do
        writeReport result report
        say (Markup.styled "green" s!"All {result.total} tests passed"))
        (runChecked env config pattern w).2 := by
  have hended : (attempt (runChecked env config pattern) : Run Stop _) w =
      (.ok (runChecked env config pattern w).1, (runChecked env config pattern w).2) := rfl
  change performCheck env pattern configPath report w = _
  rw [performCheck, bind_apply_of_ok hconfig]
  exact bind_apply_of_ok hended

theorem runChecked_of_ok (h : runMatching env config pattern .silent true w = (.ok result, v)) :
    runChecked env config pattern w =
      (if result.ok then .ok result else .error (.notOk result.failureReport result), v) := by
  have hmapped : (runMatching env config pattern).mapError CheckFailure.run w =
      (.ok result, v) := by rw [mapError_apply, h]; rfl
  rw [runChecked, bind_apply_of_ok hmapped]
  cases result.ok <;> rfl

theorem runChecked_of_error {e : RunFailure}
    (h : runMatching env config pattern .silent true w = (.error e, v)) :
    runChecked env config pattern w = (.error (.run e), v) := by
  have hmapped : (runMatching env config pattern).mapError CheckFailure.run w =
      (.error (.run e), v) := by rw [mapError_apply, h]; rfl
  rw [runChecked, bind_apply_of_error hmapped]

/-- What a check prints about the result of its run. -/
def checkLine (result : RunResult) : Printed :=
  if result.ok then .line (Markup.styled "green" s!"All {result.total} tests passed")
  else .line (Markup.styled "red" (Markup.escape result.failureReport))

/-- A check with a result writes its report and prints a line. -/
theorem check_of_result (typed : List (List Char))
    (hconfig : loadSettings env configPath w = (.ok config, w))
    (h : runMatching env config pattern .silent true w = (.ok result, v))
    (hopen : ReportOpen report v.disk) :
    ∃ d, ReportKept result report v.disk d ∧
      perform env typed (.check pattern configPath report) w =
        (endedWith result.ok,
          { v with disk := d, console := v.console ++ [checkLine result] }) := by
  obtain ⟨d, hwritten, hkept⟩ := writeReport_of_open hopen result
  refine ⟨d, hkept, ?_⟩
  rw [perform_check_of_settings hconfig, runChecked_of_ok h, checkLine]
  cases result.ok with
  | true =>
    simp only [if_true]
    rw [bind_apply_of_ok hwritten]
    rfl
  | false =>
    simp only [Bool.false_eq_true, if_false]
    rw [bind_apply_of_ok hwritten]
    rfl

/-- A check whose scripts can not be found or compiled says so and writes nothing. -/
theorem check_of_refusal (hconfig : loadSettings env configPath w = (.ok config, w))
    {e : RunFailure} (he : ∀ f, e ≠ .fault f)
    (h : runMatching env config pattern .silent true w = (.error e, v)) :
    perform env typed (.check pattern configPath report) w =
      (.error (.exit 1), complained e v) := by
  rw [perform_check_of_settings hconfig, runChecked_of_error h]
  exact orComplain_of_error rfl he

/-! ### Testing -/

/-- The lines about the artifacts of scripts with failures. -/
def artifactLines (result : RunResult) : List Printed :=
  (result.scripts.filter (!·.failures.isEmpty)).map fun script => .line (artifactLine script)

theorem test_of_result (hconfig : loadSettings env configPath w = (.ok config, w))
    (h : runMatching env config pattern printingReporter false w = (.ok result, v)) :
    perform env typed (.test pattern configPath) w = (endedWith result.ok,
      { v with console := v.console ++ [resultTable result] ++ artifactLines result }) := by
  have hrun : orComplain (runReporting env config pattern printingReporter) w = (.ok result, v) :=
    orComplain_of_ok h
  have htable : (print (resultTable result) : Run Stop Unit) v =
      (.ok (), { v with console := v.console ++ [resultTable result] }) := rfl
  change performTest env pattern configPath w = _
  rw [performTest, bind_apply_of_ok hconfig, bind_apply_of_ok hrun, bind_apply_of_ok htable,
    bind_apply_of_ok (forM_say _ _ _)]
  cases result.ok <;> rfl

theorem test_of_refusal (hconfig : loadSettings env configPath w = (.ok config, w))
    {e : RunFailure} (he : ∀ f, e ≠ .fault f)
    (h : runMatching env config pattern printingReporter false w = (.error e, v)) :
    perform env typed (.test pattern configPath) w = (.error (.exit 1), complained e v) := by
  have hrun : orComplain (runReporting env config pattern printingReporter) w = _ :=
    orComplain_of_error h he
  change performTest env pattern configPath w = _
  rw [performTest, bind_apply_of_ok hconfig, bind_apply_of_error hrun]

/-! ### The table -/

/-- The rows about what a reporter is told. -/
def toldRows : Occasion → List (List String)
  | .started _ _ => []
  | .finished script r =>
    [[Markup.escape script.name, Markup.escape r.testName, Markup.styled (resultStyle r) r.result,
      Markup.escape (r.failureReason.getD "")]]

/-- The row about a test case and how it has ended. -/
def endedRow (script : Path) (c : TestCase × Ended) : List String :=
  let (result, reason) := recorded c.2
  [Markup.escape script.name, Markup.escape c.1.name,
    Markup.styled (if result = "pass" then "green" else "red") result,
    Markup.escape (reason.getD "")]

/-- The table with some rows. -/
def tableOf (rows : List (List String)) : Printed :=
  .table "Results" (["Script", "Test", "Result", "Reason"] :: rows)

theorem resultStyle_eq (r : CaseResult) :
    resultStyle r = if r.result = "pass" then "green" else "red" := by
  simp only [resultStyle, CaseResult.passed, beq_iff_eq]

theorem toldRows_finished_of_records (script : Path) {c : TestCase × Ended} {r : CaseResult}
    (h : Records c r) : toldRows (.finished script r) = [endedRow script c] := by
  have hresult : r.result = (recorded c.2).1 := congrArg Prod.fst h.verdict
  have hreason : r.failureReason = (recorded c.2).2 := congrArg Prod.snd h.verdict
  simp only [toldRows, endedRow, resultStyle_eq, h.testName, hresult, hreason]

/-- The rows about a script, as its result has them, as they are told of and as its test cases have
ended. -/
theorem rows_of_records {path : Path} (hname : (Path.ofString path.text).name = path.name)
    {cases : List (TestCase × Ended)} {r : ScriptResult}
    (h : ScriptRecords config (path, cases) r) :
    resultRows r = cases.map (endedRow path) ∧
      (scriptOccasions (path, cases.map (·.1)) r).flatMap toldRows = cases.map (endedRow path) := by
  have hscript : (Path.ofString r.script).name = path.name := by rw [h.script, hname]
  have hcases : List.Forall₂ Records cases r.cases := h.cases
  unfold resultRows scriptOccasions
  rw [hscript]
  generalize r.cases = results at hcases
  clear h
  induction hcases with
  | nil => exact ⟨rfl, rfl⟩
  | cons hrecord _ ih =>
    have hrow := toldRows_finished_of_records path hrecord
    refine ⟨congrArg₂ List.cons (List.singleton_inj.mp hrow) ih.1, ?_⟩
    exact congrArg₂ List.append hrow ih.2

/-- The table of a complete result has a row for each test case in order, and so has the one of what
a reporter has been told. -/
theorem resultTable_eq {scripts : List Compiled} {played : List Played}
    (h : Complete config scripts played result)
    (hnames : ∀ c ∈ scripts, (Path.ofString c.1.text).name = c.1.name) :
    resultTable result = tableOf (played.flatMap fun s => s.2.map (endedRow s.1)) ∧
      resultTable result = tableOf ((occasions scripts result.scripts).flatMap toldRows) := by
  obtain ⟨rfl, hrecords, -⟩ := h
  rw [resultTable]
  generalize result.scripts = results at hrecords
  have hrows : results.flatMap resultRows = played.flatMap (fun s => s.2.map (endedRow s.1)) ∧
      (occasions (played.map fun s => (s.1, s.2.map (·.1))) results).flatMap toldRows =
        played.flatMap fun s => s.2.map (endedRow s.1) := by
    induction hrecords with
    | nil => exact ⟨rfl, rfl⟩
    | @cons s r played results hscript _ ih =>
      obtain ⟨hresult, htold⟩ := rows_of_records (hnames _ List.mem_cons_self) hscript
      obtain ⟨hresults, htolds⟩ := ih fun c hc => hnames c (List.mem_cons_of_mem _ hc)
      refine ⟨congrArg₂ List.append hresult hresults, ?_⟩
      rw [List.map_cons, occasions, List.zipWith_cons_cons, List.flatten_cons,
        List.flatMap_append]
      exact congrArg₂ List.append htold htolds
  exact ⟨congrArg tableOf hrows.1, congrArg tableOf (hrows.1.trans hrows.2.symm)⟩

/-- A script that a pattern matches has the name that its text has. -/
theorem name_ofString_text {d : Disk} {requireTests : Bool} {scripts : List Compiled}
    (h : Compiles d pattern requireTests scripts) :
    ∀ c ∈ scripts, (Path.ofString c.1.text).name = c.1.name := by
  intro c hc
  obtain ⟨text, htext⟩ := ofString_of_findScripts h.found c.1 (List.mem_map_of_mem hc)
  have hnames := Path.names_ofString_text (p := .ofString text) (Path.sound_ofString text)
    (Path.dot_not_mem_names_ofString text)
  rw [htext, Path.name, hnames]
  rfl

/-! ### Outcomes -/

/-- All test cases pass when they are run one after the other. -/
def AllPass (env : Environment) (config : Config) (scripts : List Compiled) (o : Outside) : Prop :=
  ∀ s ∈ (playRun env.driver config scripts o).1, ∀ c ∈ s.2, c.2 = .ok ()

theorem recorded_eq_pass_iff {ended : Ended} : (recorded ended).1 = "pass" ↔ ended = .ok () := by
  cases ended with
  | ok u => exact ⟨fun _ => rfl, fun _ => rfl⟩
  | error failure =>
    refine ⟨fun h => ?_, nofun⟩
    cases failure <;> simp [recorded] at h

theorem forall_pass_iff {cases : List (TestCase × Ended)} {results : List CaseResult}
    (h : List.Forall₂ Records cases results) :
    (∀ r ∈ results, r.result = "pass") ↔ ∀ c ∈ cases, c.2 = .ok () := by
  induction h with
  | nil => simp
  | @cons c r cases results hrecord _ ih =>
    have hresult : r.result = (recorded c.2).1 := congrArg Prod.fst hrecord.verdict
    rw [List.forall_mem_cons, List.forall_mem_cons, hresult, recorded_eq_pass_iff, ih]

/-- The result of a run is good exactly if all its test cases have passed. -/
theorem ok_iff_allPass {scripts : List Compiled} {o : Outside}
    (h : Complete config scripts (playRun env.driver config scripts o).1 result) :
    result.ok = true ↔ AllPass env config scripts o := by
  rw [h.ok_iff, RunResult.cases, forall_pass_iff (forall₂_records h.records)]
  simp only [AllPass, List.mem_flatMap, forall_exists_index, and_imp]
  exact ⟨fun hall s hs c hc => hall c s hs hc, fun hall c s hs hc => hall s hs c hc⟩

/-- How a check ends and what it leaves behind. -/
structure CheckEnds (env : Environment) (config : Config) (pattern : String)
    (report : Option String) (w : World) (ended : Except Stop Unit) (v : World) : Prop where
  exit_zero_iff : exitCode ended = 0 ↔
    ∃ scripts, Compiles w.disk pattern true scripts ∧ AllPass env config scripts w.outside
  exit_le_one : exitCode ended ≤ 1
  counted : ∀ scripts, Compiles w.disk pattern true scripts →
    AllPass env config scripts w.outside → v.console = w.console ++
      [.line (Markup.styled "green" s!"All {(scripts.flatMap (·.2)).length} tests passed")]
  reported : ∀ scripts, Compiles w.disk pattern true scripts → ∃ result,
    Complete config scripts (playRun env.driver config scripts w.outside).1 result ∧
      ReportKept result report (runMatching env config pattern .silent true w).2.disk v.disk
  unreported : (¬ ∃ scripts, Compiles w.disk pattern true scripts) → v.disk = w.disk

/-- How a test ends and what it shows. -/
structure TestEnds (env : Environment) (config : Config) (pattern : String) (w : World)
    (ended : Except Stop Unit) (v : World) : Prop where
  exit_zero_iff : exitCode ended = 0 ↔
    ∃ scripts, Compiles w.disk pattern false scripts ∧ AllPass env config scripts w.outside
  exit_le_one : exitCode ended ≤ 1
  shown : ∀ scripts, Compiles w.disk pattern false scripts → ∃ result table,
    Complete config scripts (playRun env.driver config scripts w.outside).1 result ∧
      v.console = w.console ++ (occasions scripts result.scripts).flatMap lineOf ++ [table] ++
        artifactLines result ∧
      table = tableOf ((playRun env.driver config scripts w.outside).1.flatMap
        fun s => s.2.map (endedRow s.1)) ∧
      table = tableOf ((occasions scripts result.scripts).flatMap toldRows)

theorem exit_zero_iff_of_complete {scripts : List Compiled}
    {requireTests : Bool} (hc : Compiles w.disk pattern requireTests scripts)
    (h : Complete config scripts (playRun env.driver config scripts w.outside).1 result) :
    exitCode (endedWith result.ok) = 0 ↔ ∃ scripts, Compiles w.disk pattern requireTests scripts ∧
      AllPass env config scripts w.outside := by
  have hpass : exitCode (endedWith result.ok) = 0 ↔ AllPass env config scripts w.outside := by
    rw [exitCode_endedWith, ← ok_iff_allPass h]
    cases result.ok <;> simp
  rw [hpass]
  refine ⟨fun hall => ⟨scripts, hc, hall⟩, ?_⟩
  rintro ⟨scripts', hc', hall⟩
  rwa [hc.unique hc']

theorem exitCode_endedWith_le (good : Bool) : exitCode (endedWith good) ≤ 1 := by
  rw [exitCode_endedWith]
  cases good <;> decide

theorem check_ends (typed : List (List Char))
    (hconfig : loadSettings env configPath w = (.ok config, w))
    (hrun : Unbroken (runMatching env config pattern) w)
    (hopen : ReportOpen report (runMatching env config pattern .silent true w).2.disk) :
    CheckEnds env config pattern report w
      (perform env typed (.check pattern configPath report) w).1
      (perform env typed (.check pattern configPath report) w).2 := by
  rcases hrun.course silent_writes with ⟨scripts, hc, hsmooth⟩ | ⟨hnone, e, log, he, hrefused⟩
  · obtain ⟨result, u, hresult, -, ⟨-, hcomplete⟩, htold⟩ :=
      runMatching_completes env silent_writes hc hsmooth
    rw [hresult] at hopen
    obtain ⟨d, hkept, hperform⟩ := check_of_result typed hconfig hresult hopen
    have hconsole : u.console = w.console := by
      rw [htold.console, List.flatMap_eq_nil_iff.mpr fun _ _ => rfl, List.append_nil]
    rw [hperform]
    refine ⟨exit_zero_iff_of_complete hc hcomplete, exitCode_endedWith_le _, ?_, ?_,
      fun hn => absurd ⟨scripts, hc⟩ hn⟩
    · intro scripts' hc' hall
      obtain rfl := hc.unique hc'
      have hline : checkLine result = .line (Markup.styled "green"
          s!"All {(scripts.flatMap (·.2)).length} tests passed") := by
        rw [checkLine, if_pos ((ok_iff_allPass hcomplete).mpr hall), hcomplete.total]
        rfl
      change u.console ++ [checkLine result] = _
      rw [hconsole, hline]
    · intro scripts' hc'
      obtain rfl := hc.unique hc'
      refine ⟨result, hcomplete, ?_⟩
      rw [hresult]
      exact hkept
  · rw [check_of_refusal hconfig he hrefused]
    refine ⟨?_, Nat.le_refl 1, ?_, ?_, fun _ => rfl⟩
    · refine ⟨nofun, fun ⟨scripts, hc, _⟩ => absurd ⟨scripts, hc⟩ hnone⟩
    · exact fun scripts hc _ => absurd ⟨scripts, hc⟩ hnone
    · exact fun scripts hc => absurd ⟨scripts, hc⟩ hnone

theorem test_ends (typed : List (List Char))
    (hconfig : loadSettings env configPath w = (.ok config, w))
    (hrun : Unbroken (runMatching env config pattern printingReporter false) w) :
    TestEnds env config pattern w (perform env typed (.test pattern configPath) w).1
      (perform env typed (.test pattern configPath) w).2 := by
  rcases hrun.course printing_writes with ⟨scripts, hc, hsmooth⟩ | ⟨hnone, e, log, he, hrefused⟩
  · obtain ⟨result, u, hresult, -, ⟨-, hcomplete⟩, htold⟩ :=
      runMatching_completes env printing_writes hc hsmooth
    rw [test_of_result hconfig hresult]
    refine ⟨exit_zero_iff_of_complete hc hcomplete, exitCode_endedWith_le _, ?_⟩
    intro scripts' hc'
    obtain rfl := hc.unique hc'
    obtain ⟨hplayed, htable⟩ := resultTable_eq hcomplete (name_ofString_text hc)
    refine ⟨result, resultTable result, hcomplete, ?_, hplayed, htable⟩
    change u.console ++ [resultTable result] ++ artifactLines result = _
    rw [htold.console]
  · rw [test_of_refusal hconfig he hrefused]
    refine ⟨⟨nofun, fun ⟨scripts, hc, _⟩ => absurd ⟨scripts, hc⟩ hnone⟩, Nat.le_refl 1, ?_⟩
    exact fun scripts hc => absurd ⟨scripts, hc⟩ hnone

/-- **How commands end.**  With valid settings and no fault that breaks off the run: a check whose
report can be written ends with success exactly if the scripts of the pattern compile, each with
test cases, and all of these pass, and then it tells how many there are; its report is written
exactly if the scripts compile.  A test ends with success exactly if the scripts compile and all
test cases pass, and its table has a row for each of them in order.  If all scripts have test cases
the two end alike. -/
theorem outcome_of_commands (env : Environment) (config : Config) (pattern configPath : String)
    (typed : List (List Char)) (w : World)
    (hconfig : loadSettings env configPath w = (.ok config, w)) :
    (∀ report, Unbroken (runMatching env config pattern) w →
      ReportOpen report (runMatching env config pattern .silent true w).2.disk →
      CheckEnds env config pattern report w
        (perform env typed (.check pattern configPath report) w).1
        (perform env typed (.check pattern configPath report) w).2) ∧
    (Unbroken (runMatching env config pattern printingReporter false) w →
      TestEnds env config pattern w (perform env typed (.test pattern configPath) w).1
        (perform env typed (.test pattern configPath) w).2) ∧
    (∀ report, Unbroken (runMatching env config pattern) w →
      Unbroken (runMatching env config pattern printingReporter false) w →
      ReportOpen report (runMatching env config pattern .silent true w).2.disk →
      (∀ scripts, Compiles w.disk pattern false scripts → ∀ c ∈ scripts, c.2 ≠ []) →
      exitCode (perform env typed (.check pattern configPath report) w).1 =
        exitCode (perform env typed (.test pattern configPath) w).1) := by
  refine ⟨fun report => check_ends typed hconfig, test_ends typed hconfig, ?_⟩
  intro report hcheck htest hopen htested
  have hc := check_ends typed hconfig hcheck hopen
  have ht := test_ends typed hconfig htest
  have hsame : (∃ scripts, Compiles w.disk pattern true scripts ∧
      AllPass env config scripts w.outside) ↔
      ∃ scripts, Compiles w.disk pattern false scripts ∧ AllPass env config scripts w.outside := by
    refine exists_congr fun scripts => and_congr_left fun _ => ⟨Compiles.of_tested, fun h => ?_⟩
    exact ⟨h.found, h.compiled, fun _ => htested scripts h⟩
  have hzero := hc.exit_zero_iff.trans (hsame.trans ht.exit_zero_iff.symm)
  have hcle := hc.exit_le_one
  have htle := ht.exit_le_one
  omega

instance (env : Environment) (config : Config) (scripts : List Compiled) (o : Outside) :
    Decidable (AllPass env config scripts o) :=
  inferInstanceAs
    (Decidable (∀ s ∈ (playRun env.driver config scripts o).1, ∀ c ∈ s.2, c.2 = .ok ()))

theorem loadSettings_sideBySide : loadSettings sampleEnv defaultConfigPath sideBySide =
    (.ok sampleEnv.defaultConfig, sideBySide) := rfl

theorem smooth_sideBySide_default :
    RunSmooth blackFirst sampleEnv.defaultConfig sideBySideScripts sideBySide.outside := by
  decide +kernel

theorem not_allPass_sideBySide : ¬ AllPass sampleEnv sampleEnv.defaultConfig sideBySideScripts
    sideBySide.outside := by decide +kernel

theorem reportOpen_sideBySide : ReportOpen (some "report.json")
    (runMatching sampleEnv sampleEnv.defaultConfig "?.txt" .silent true sideBySide).2.disk := by
  rintro path hpath -
  obtain rfl := Option.some.inj hpath
  rw [runMatching_eq, bind_apply_of_ok (compileMatching_sideBySide true)]
  exact canWrite_of_writeText "" (by decide +kernel)

/-- The first of two test cases fails: both commands end with failure, and the report of the check
is written nevertheless. -/
theorem outcome_of_commands_sideBySide :
    let checked := perform sampleEnv [] (.check "?.txt" defaultConfigPath (some "report.json"))
      sideBySide
    let tested := perform sampleEnv [] (.test "?.txt" defaultConfigPath) sideBySide
    CheckEnds sampleEnv sampleEnv.defaultConfig "?.txt" (some "report.json") sideBySide
      checked.1 checked.2 ∧
    TestEnds sampleEnv sampleEnv.defaultConfig "?.txt" sideBySide tested.1 tested.2 ∧
    exitCode checked.1 = exitCode tested.1 ∧ exitCode checked.1 = 1 := by
  intro checked tested
  obtain ⟨check, test, alike⟩ := outcome_of_commands sampleEnv sampleEnv.defaultConfig "?.txt"
    defaultConfigPath [] sideBySide loadSettings_sideBySide
  have hcheck : Unbroken (runMatching sampleEnv sampleEnv.defaultConfig "?.txt") sideBySide :=
    unbroken_of_smooth silent_writes compiles_sideBySide smooth_sideBySide_default
  have htest : Unbroken (runMatching sampleEnv sampleEnv.defaultConfig "?.txt" printingReporter
      false) sideBySide :=
    unbroken_of_smooth printing_writes compiles_sideBySide.of_tested smooth_sideBySide_default
  have hends := check (some "report.json") hcheck reportOpen_sideBySide
  refine ⟨hends, test htest, alike _ hcheck htest reportOpen_sideBySide ?_, ?_⟩
  · intro scripts hc
    rw [hc.unique compiles_sideBySide.of_tested]
    decide
  · have hzero : exitCode checked.1 ≠ 0 := by
      intro h
      obtain ⟨scripts, hc, hall⟩ := hends.exit_zero_iff.mp h
      rw [hc.unique compiles_sideBySide] at hall
      exact not_allPass_sideBySide hall
    have hone := hends.exit_le_one
    change exitCode checked.1 ≤ 1 at hone
    omega

end PageDiff.Command
