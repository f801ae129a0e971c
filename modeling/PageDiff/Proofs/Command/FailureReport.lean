import PageDiff.Proofs.Command.ExitCode

/-!
# The report of a failing check

A check whose run has failures writes its report file before it prints the report of the failures.
If the file can not be written, the fault ends the command and the report is never printed.  Main
statement (`failureReport_printed_iff`): a failing check prints its report exactly if there is no
path for a file, or the file there can be written.
-/

namespace PageDiff.Command

open PageDiff.Disk PageDiff.Run

variable {env : Environment} {config : Config} {pattern configPath : String}
  {typed : List (List Char)} {report : Option String} {text : String} {result : RunResult}
  {w v : World}

/-- Batch mode fails with the report of a run that has come to its end. -/
theorem runChecked_eq_notOk
    (h : runChecked env config pattern w = (.error (.notOk text result), v)) :
    runMatching env config pattern .silent true w = (.ok result, v) ∧ result.ok = false ∧
      text = result.failureReport := by
  cases hrun : runMatching env config pattern .silent true w with
  | mk r u =>
    cases r with
    | error e =>
      rw [runChecked_of_error hrun] at h
      cases (Prod.mk.inj h).1
    | ok result' =>
      rw [runChecked_of_ok hrun] at h
      obtain ⟨hended, rfl⟩ := Prod.mk.inj h
      cases hok : result'.ok with
      | true =>
        rw [hok] at hended
        cases hended
      | false =>
        rw [hok] at hended
        obtain ⟨rfl, rfl⟩ := CheckFailure.notOk.inj (Except.error.inj hended)
        exact ⟨rfl, hok, rfl⟩

/-- A run with a result has printed nothing, and its report is empty only if all has passed. -/
theorem console_of_result (h : runMatching env config pattern .silent true w = (.ok result, v)) :
    v.console = w.console ∧ (result.failureReport = "" ↔ result.ok = true) := by
  obtain ⟨scripts, -, hcomplete, htold⟩ := course_of_result silent_writes h
  refine ⟨?_, hcomplete.report_iff⟩
  rw [htold.console, List.flatMap_eq_nil_iff.mpr fun _ _ => rfl, List.append_nil]

/-- A report that can not be written is a fault of the disk. -/
theorem writeReport_of_not_open (h : ¬ ReportOpen report w.disk) (result : RunResult) :
    ∃ e d, writeReport result report w = (.error (.fault (.disk e)), { w with disk := d }) := by
  simp only [ReportOpen, not_forall] at h
  obtain ⟨path, rfl, hpath, hclosed⟩ := h
  have hreport : writeReport result (some path) =
      (onDisk fun d => result.write d (.ofString path)).mapError fun e => .fault (.disk e) :=
    if_neg hpath
  cases hwritten : w.disk.writeText (.ofString path) result.document with
  | mk d r =>
    cases r with
    | ok u => exact absurd (canWrite_of_writeText _ (by rw [hwritten])) hclosed
    | error e =>
      refine ⟨e, d, ?_⟩
      rw [hreport, mapError_apply, onDisk, RunResult.write, hwritten]
      rfl

/-- The fault ends the command before anything is printed. -/
theorem check_of_not_open (typed : List (List Char))
    (hconfig : loadSettings env configPath w = (.ok config, w))
    (h : runMatching env config pattern .silent true w = (.ok result, v))
    (hclosed : ¬ ReportOpen report v.disk) :
    ∃ e d, perform env typed (.check pattern configPath report) w =
      (.error (.fault (.disk e)), { v with disk := d }) := by
  obtain ⟨e, d, hrefused⟩ := writeReport_of_not_open hclosed result
  refine ⟨e, d, ?_⟩
  rw [perform_check_of_settings hconfig, runChecked_of_ok h]
  cases result.ok with
  | true =>
    simp only [if_true]
    rw [bind_apply_of_error hrefused]
  | false =>
    simp only [Bool.false_eq_true, if_false]
    rw [bind_apply_of_error hrefused]

/-- **When a failing check shows its report.**  A check whose run has failures ends with failure and
has a report to print.  It prints the report if no file is asked for or the file can be written;
otherwise it ends with a fault of the disk and prints nothing. -/
theorem failureReport_printed_iff (env : Environment) (config : Config)
    (pattern configPath : String) (report : Option String) (typed : List (List Char))
    (w u : World) (text : String) (result : RunResult)
    (hconfig : loadSettings env configPath w = (.ok config, w))
    (hfails : runChecked env config pattern w = (.error (.notOk text result), u)) :
    let checked := perform env typed (.check pattern configPath report) w
    let shown := Printed.line (Markup.styled "red" (Markup.escape text))
    text = result.failureReport ∧ text ≠ "" ∧ exitCode checked.1 = 1 ∧
      (checked.2.console = w.console ++ [shown] ↔ ReportOpen report u.disk) ∧
      (¬ ReportOpen report u.disk →
        checked.2.console = w.console ∧ ∃ e, checked.1 = .error (.fault (.disk e))) := by
  intro checked shown
  obtain ⟨hresult, hok, rfl⟩ := runChecked_eq_notOk hfails
  obtain ⟨hconsole, hempty⟩ := console_of_result hresult
  have htext : result.failureReport ≠ "" := by simp [hempty, hok]
  by_cases hopen : ReportOpen report u.disk
  · obtain ⟨d, -, hperform⟩ := check_of_result typed hconfig hresult hopen
    have hchecked : checked = _ := hperform
    rw [hchecked, checkLine, hok, hconsole]
    exact ⟨rfl, htext, rfl, ⟨fun _ => hopen, fun _ => rfl⟩, fun hclosed => absurd hopen hclosed⟩
  · obtain ⟨e, d, hperform⟩ := check_of_not_open typed hconfig hresult hopen
    have hchecked : checked = _ := hperform
    rw [hchecked]
    refine ⟨rfl, htext, rfl, ⟨fun hshown => ?_, fun h => absurd h hopen⟩, fun _ =>
      ⟨hconsole, e, rfl⟩⟩
    -- nothing has been printed, and the report is something
    rw [hconsole] at hshown
    simp at hshown

/-- Of two scripts the first fails. -/
theorem runChecked_sideBySide : ∃ text result u,
    runChecked sampleEnv sampleEnv.defaultConfig "?.txt" sideBySide =
      (.error (.notOk text result), u) := by
  obtain ⟨result, u, hresult, -, ⟨-, hcomplete⟩, -⟩ :=
    runMatching_completes sampleEnv silent_writes compiles_sideBySide smooth_sideBySide_default
  have hok : result.ok = false := by
    simpa using mt (ok_iff_allPass hcomplete).mp not_allPass_sideBySide
  refine ⟨result.failureReport, result, u, ?_⟩
  rw [runChecked_of_ok hresult, hok]
  rfl

theorem failureReport_printed_sideBySide : ∃ text result u,
    runChecked sampleEnv sampleEnv.defaultConfig "?.txt" sideBySide =
      (.error (.notOk text result), u) ∧
    ReportOpen (some "report.json") u.disk ∧
    (perform sampleEnv [] (.check "?.txt" defaultConfigPath (some "report.json"))
      sideBySide).2.console = [.line (Markup.styled "red" (Markup.escape text))] := by
  obtain ⟨text, result, u, hfails⟩ := runChecked_sideBySide
  have hopen : ReportOpen (some "report.json") u.disk := by
    have hdisk := reportOpen_sideBySide
    rwa [(runChecked_eq_notOk hfails).1] at hdisk
  obtain ⟨-, -, -, hshown, -⟩ := failureReport_printed_iff sampleEnv sampleEnv.defaultConfig "?.txt"
    defaultConfigPath (some "report.json") [] sideBySide u text result loadSettings_sideBySide
    hfails
  exact ⟨text, result, u, hfails, hopen, hshown.mpr hopen⟩

/-- The directory of the artifacts is no file that a report could be written to: the check fails
and prints nothing. -/
theorem failureReport_hidden_sideBySide : ∃ text result u,
    runChecked sampleEnv sampleEnv.defaultConfig "?.txt" sideBySide =
      (.error (.notOk text result), u) ∧ text = result.failureReport ∧
    (perform sampleEnv [] (.check "?.txt" defaultConfigPath (some "caches"))
      sideBySide).2.console = [] := by
  obtain ⟨text, result, u, hfails⟩ := runChecked_sideBySide
  obtain ⟨hresult, -, htext⟩ := runChecked_eq_notOk hfails
  have hclosed : ¬ ReportOpen (some "caches") u.disk := by
    have hdisk : u.disk =
        (runMatching sampleEnv sampleEnv.defaultConfig "?.txt" .silent true sideBySide).2.disk := by
      rw [hresult]
    rw [hdisk, runMatching_eq, bind_apply_of_ok (compileMatching_sideBySide true)]
    intro hopen
    obtain ⟨d, hwritten, -⟩ :=
      writeText_of_canWrite (hopen "caches" rfl (by decide)) (Path.sound_ofString _) ""
    have hrefused : (Disk.writeText (runCompiled sampleEnv sampleEnv.defaultConfig "?.txt" .silent
        sideBySideScripts (sideBySideCompiled true)).2.disk (.ofString "caches") "").2.toBool =
        false := by decide +kernel
    rw [hwritten] at hrefused
    cases hrefused
  obtain ⟨e, d, hperform⟩ := check_of_not_open [] loadSettings_sideBySide hresult hclosed
  refine ⟨text, result, u, hfails, htext, ?_⟩
  rw [hperform]
  exact (console_of_result hresult).1

end PageDiff.Command
