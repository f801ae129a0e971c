import PageDiff.Proofs.Command.ExitCode
import PageDiff.Proofs.Command.Tags

/-!
# What commands print

Every text that a command prints has one of a few forms, in which all that comes from elsewhere is
escaped; only a path of settings that are missing is printed as it was given.  Main statement
(`console_escaped`): beside that one line no tag is live but the program's own, unless the name of a
script opens a bracket that the name of its test case closes.
-/

namespace PageDiff.Command

open PageDiff.Browser PageDiff.Run PageDiff.Script PageDiff.Text Markup

variable {ε α β : Type} {env : Environment} {config : Config} {pattern path : String}
  {P : Printed → Prop} {w v : World}

/-! ### Forms -/

/-- The texts that stand alone. -/
def fixedTexts : List String :=
  ["[green]pass[/green]", "[red]fail[/red]", "[red]error[/red]",
    "[green]Created screentest.json[/green]", "Results", "Script", "Test", "Result", "Reason",
    "Compare", "Capture", "Viewport"]

/-- What stands in front of the names of a finished test case. -/
def finishedWords : List String := ["[green]PASS[/green] ", "[red]FAIL[/red] ", "[red]ERROR[/red] "]

/-- The forms of printed texts. -/
inductive Form : List Piece → Prop
  | fixed {text : String} (h : text ∈ fixedTexts) : Form [.own text]
  | shown (text : String) : Form [.foreign text]
  | complaint (text : String) : Form [.own "[red]", .foreign text, .own "[/red]"]
  | passed (count : String) :
      Form [.own "[green]All ", .foreign count, .own " tests passed[/green]"]
  | finished {word : String} (h : word ∈ finishedWords) (script name : String) :
      Form [.own word, .foreign script, .own "::", .foreign name]
  | artifacts (script outDir : String) :
      Form [.own "  ", .foreign script, .own ": inspect diffs at [blue]", .foreign outDir,
        .own "[/blue]"]

/-- The line about a finished test case in which the names of the script and of the test case make
a bracket together. -/
def Joined (ps : List Piece) : Prop :=
  ∃ word script name, ps = [.own word, .foreign script, .own "::", .foreign name] ∧
    ¬ NoTagAcross script.toList name.toList

theorem Form.separate {ps : List Piece} (h : Form ps) : Separate ps ∨ Joined ps := by
  cases h with
  | fixed h =>
    have hown : ∀ text ∈ fixedTexts, OwnText text.toList := by decide
    exact .inl (.own (hown _ h) .nil)
  | shown text => exact .inl .last
  | complaint text =>
    refine .inl (.own (by decide) (.before (noTagAcross_of_head ?_) (.own (by decide) .nil)))
    decide
  | passed count =>
    refine .inl (.own (by decide) (.before (noTagAcross_of_head ?_) (.own (by decide) .nil)))
    decide
  | @finished word h script name =>
    by_cases hjoined : NoTagAcross script.toList name.toList
    · have hown : ∀ word ∈ finishedWords, OwnText word.toList := by decide
      have hseparator : brackets "::".toList = [] := by decide
      refine .inl (.own (hown _ h) (.before ?_ (.own (by decide) .last)))
      refine hjoined.imp_right fun hname => ?_
      simp only [markup, Piece.text, String.toList_append, brackets_append, brackets_escape,
        hseparator]
      simpa using hname
    · exact .inr ⟨word, script, name, rfl, hjoined⟩
  | artifacts script outDir =>
    have hplace : brackets ": inspect diffs at [blue]".toList = ['[', ']'] := by decide
    refine .inl (.own (by decide) (.before (noTagAcross_of_head ?_) (.own (by decide)
      (.before (noTagAcross_of_head (by decide)) (.own (by decide) .nil)))))
    simp only [markup, Piece.text, String.toList_append, brackets_append, hplace]
    simp

/-- A text in one of the forms.  No tag in it is live but the program's own, unless two names make
one. -/
def Formed (s : String) : Prop :=
  ∃ ps, Form ps ∧ s = markup ps ∧
    ((liveTags false s.toList).Sublist (ps.flatMap Piece.tags) ∨ Joined ps)

theorem Form.formed {ps : List Piece} (h : Form ps) : Formed (markup ps) :=
  ⟨ps, h, rfl, h.separate.imp_left fun hs => hs.liveTags_sublist fun _ _ _ => rfl⟩

/-- The texts of something printed. -/
def texts : Printed → List String
  | .line text => [text]
  | .table title rows => title :: rows.flatten

/-- All texts of something printed have one of the forms. -/
def AllFormed (p : Printed) : Prop := ∀ s ∈ texts p, Formed s

theorem formed_fixed {s : String} (h : s ∈ fixedTexts) : Formed s := by
  have hs : markup [.own s] = s := String.append_empty
  rw [← hs]
  exact (Form.fixed h).formed

theorem formed_escape (s : String) : Formed (escape s) := by
  have hs : markup [.foreign s] = escape s := String.append_empty
  rw [← hs]
  exact (Form.shown s).formed

theorem styled_of {style opening closing : String} (hopening : "[" ++ style ++ "]" = opening)
    (hclosing : "[/" ++ style ++ "]" = closing) (s : String) :
    styled style s = opening ++ (s ++ closing) := by
  subst hopening hclosing
  change "[" ++ style ++ "]" ++ s ++ "[/" ++ style ++ "]" = _
  simp only [String.append_assoc]

theorem styled_red (s : String) : styled "red" s = "[red]" ++ (s ++ "[/red]") :=
  styled_of (by decide) (by decide) s

theorem styled_green (s : String) : styled "green" s = "[green]" ++ (s ++ "[/green]") :=
  styled_of (by decide) (by decide) s

theorem styled_blue (s : String) : styled "blue" s = "[blue]" ++ (s ++ "[/blue]") :=
  styled_of (by decide) (by decide) s

theorem formed_complaint (s : String) : Formed (styled "red" (escape s)) := by
  have hs : markup [.own "[red]", .foreign s, .own "[/red]"] = styled "red" (escape s) := by
    simp only [markup, Piece.text, styled_red, String.append_empty]
  rw [← hs]
  exact (Form.complaint s).formed

theorem formed_passed {s : String} (h : escape s = s) :
    Formed (styled "green" ("All " ++ s ++ " tests passed")) := by
  have hopen : "[green]All " = "[green]" ++ "All " := by decide
  have hclose : " tests passed[/green]" = " tests passed" ++ "[/green]" := by decide
  have hs : markup [.own "[green]All ", .foreign s, .own " tests passed[/green]"] =
      styled "green" ("All " ++ s ++ " tests passed") := by
    simp only [markup, Piece.text, h, styled_green, hopen, hclose, String.append_assoc,
      String.append_empty]
  rw [← hs]
  exact (Form.passed s).formed

/-- A result that there can be. -/
def Known (r : CaseResult) : Prop :=
  r.result = "pass" ∨ r.result = "fail" ∨ r.result = "error"

/-- What holds of the words for results and their styles. -/
theorem Known.elim {p : String → String → Prop} {r : CaseResult} (h : Known r)
    (hpass : p "green" "pass") (hfail : p "red" "fail") (herror : p "red" "error") :
    p (resultStyle r) r.result := by
  rw [resultStyle_eq]
  rcases h with h | h | h
  · rwa [h, if_pos rfl]
  · rwa [h, if_neg (by decide)]
  · rwa [h, if_neg (by decide)]

theorem formed_finishedLine (script : Path) {r : CaseResult} (h : Known r) :
    Formed (finishedLine script r) := by
  have hword : ∃ word ∈ finishedWords,
      styled (resultStyle r) (String.ofList (capitals r.result.toList)) ++ " " = word :=
    ⟨_, h.elim (p := fun style result =>
      styled style (String.ofList (capitals result.toList)) ++ " " ∈ finishedWords)
      (by decide) (by decide) (by decide), rfl⟩
  obtain ⟨word, hmem, hword⟩ := hword
  have hs : markup [.own word, .foreign script.name, .own "::", .foreign r.testName] =
      finishedLine script r := by
    change _ = styled (resultStyle r) (String.ofList (capitals r.result.toList)) ++ " " ++
      escape script.name ++ "::" ++ escape r.testName
    rw [hword]
    simp only [markup, Piece.text, String.append_assoc, String.append_empty]
  rw [← hs]
  exact (Form.finished hmem _ _).formed

theorem formed_artifactLine (r : ScriptResult) : Formed (artifactLine r) := by
  have hopen : ": inspect diffs at [blue]" = ": inspect diffs at " ++ "[blue]" := by decide
  have hs : markup [.own "  ", .foreign r.script, .own ": inspect diffs at [blue]",
      .foreign r.outputDir, .own "[/blue]"] = artifactLine r := by
    change _ = "  " ++ escape r.script ++ ": inspect diffs at " ++
      styled "blue" (escape r.outputDir)
    simp only [markup, Piece.text, styled_blue, hopen, String.append_assoc, String.append_empty]
  rw [← hs]
  exact (Form.artifacts _ _).formed

/-- The cell with a result. -/
theorem formed_resultCell {r : CaseResult} (h : Known r) :
    Formed (styled (resultStyle r) r.result) :=
  formed_fixed (h.elim (p := fun style result => styled style result ∈ fixedTexts)
    (by decide) (by decide) (by decide))

/-! ### Plain texts -/

/-- A text in which nothing has to be escaped. -/
def IsPlain (s : String) : Prop := ∀ c ∈ s.toList, c ≠ '\\' ∧ c ≠ '['

theorem IsPlain.append {s t : String} (hs : IsPlain s) (ht : IsPlain t) : IsPlain (s ++ t) := by
  intro c hc
  rw [String.toList_append, List.mem_append] at hc
  exact hc.elim (hs c) (ht c)

theorem escape_of_plain {s : String} (h : IsPlain s) : escape s = s := by
  have hopen : endsOpen s.toList = false := by
    unfold endsOpen
    cases hlast : s.toList.getLast? with
    | none => rfl
    | some c =>
      have hne := (h c (List.mem_of_getLast? hlast)).1
      simp [hne]
  rw [escape, escapeTags_of_plain h, hopen]
  simp

theorem isPlain_nat (n : Nat) : IsPlain (toString n) := by
  intro c hc
  have hdigit : c.isDigit = true := by
    refine Nat.isDigit_of_mem_toDigits (b := 10) (n := n) (by decide) (by decide) ?_
    simpa [toString, Nat.repr] using hc
  constructor
  · rintro rfl
    exact absurd hdigit (by decide)
  · rintro rfl
    exact absurd hdigit (by decide)

theorem isPlain_int (i : Int) : IsPlain (toString i) := by
  cases i with
  | ofNat n => exact isPlain_nat n
  | negSucc n =>
    have hsign : IsPlain "-" := by simp [IsPlain]
    exact hsign.append (isPlain_nat (n + 1))

theorem isPlain_viewportLabel (config : Config) (tc : TestCase) :
    IsPlain (viewportLabel config tc) := by
  have hby : IsPlain "x" := by simp [IsPlain]
  have hdefault : IsPlain " (default)" := by simp [IsPlain]
  have hsize : IsPlain (toString (tc.viewport config.window).1 ++ "x" ++
      toString (tc.viewport config.window).2) :=
    ((isPlain_int _).append hby).append (isPlain_int _)
  unfold viewportLabel
  simp only
  split
  · exact hsize.append hdefault
  · exact hsize

/-! ### Tables -/

theorem allFormed_line {s : String} (h : Formed s) : AllFormed (.line s) := by
  intro t ht
  rwa [List.mem_singleton.mp ht]

theorem allFormed_table {title : String} {headings : List String} {rows : List (List String)}
    (htitle : Formed title) (hheadings : ∀ s ∈ headings, s ∈ fixedTexts)
    (hrows : ∀ row ∈ rows, ∀ s ∈ row, Formed s) : AllFormed (.table title (headings :: rows)) := by
  intro s hs
  rw [texts, List.flatten_cons, List.mem_cons, List.mem_append] at hs
  rcases hs with rfl | hs | hs
  · exact htitle
  · exact formed_fixed (hheadings s hs)
  · obtain ⟨row, hrow, hmem⟩ := List.mem_flatten.mp hs
    exact hrows row hrow s hmem

theorem allFormed_resultTable {r : RunResult} (h : ∀ c ∈ r.cases, Known c) :
    AllFormed (resultTable r) := by
  refine allFormed_table (formed_fixed (by decide)) (by decide) ?_
  intro row hrow s hs
  obtain ⟨script, hscript, hrow⟩ := List.mem_flatMap.mp hrow
  obtain ⟨c, hc, rfl⟩ := List.mem_map.mp hrow
  simp only [List.mem_cons, List.not_mem_nil, or_false] at hs
  rcases hs with rfl | rfl | rfl | rfl
  · exact formed_escape _
  · exact formed_escape _
  · exact formed_resultCell (h c (List.mem_flatMap.mpr ⟨script, hscript, hc⟩))
  · exact formed_escape _

theorem allFormed_listTable (config : Config) (script : Compiled) :
    AllFormed (listTable config script) := by
  refine allFormed_table (formed_escape _) (by decide) ?_
  intro row hrow s hs
  obtain ⟨tc, -, rfl⟩ := List.mem_map.mp hrow
  simp only [List.mem_cons, List.not_mem_nil, or_false] at hs
  rcases hs with rfl | rfl | rfl | rfl
  · exact formed_escape _
  · exact formed_escape _
  · exact formed_escape _
  · rw [← escape_of_plain (isPlain_viewportLabel config tc)]
    exact formed_escape _

/-! ### What is printed on the way -/

/-- Only things of a kind have been printed. -/
def Prints (P : Printed → Prop) (w v : World) : Prop :=
  ∃ printed, v.console = w.console ++ printed ∧ ∀ p ∈ printed, P p

theorem prints_nothing (h : v.console = w.console) : Prints P w v := ⟨[], by simp [h], by simp⟩

theorem prints_one {p : Printed} (hp : P p) (h : v.console = w.console ++ [p]) : Prints P w v :=
  ⟨[p], h, by simpa using hp⟩

instance : IsPreorder World (Prints P) where
  refl _ := prints_nothing rfl
  trans := by
    rintro w v u ⟨first, hv, hfirst⟩ ⟨later, hu, hlater⟩
    refine ⟨first ++ later, by rw [hu, hv, List.append_assoc], fun p hp => ?_⟩
    exact (List.mem_append.mp hp).elim (hfirst p) (hlater p)

theorem ignoresLog_prints : IgnoresLog (Prints P) := fun _ _ _ => prints_nothing rfl

/-- What is decided by what is outside prints nothing. -/
theorem prints_of_outward {x : Run ε α} (h : Outward x) : Carries (Prints P) x := by
  intro w
  obtain ⟨r, o, hyields⟩ := h w.outside
  obtain ⟨log, hx⟩ := hyields w rfl
  rw [hx]
  exact prints_nothing rfl

theorem prints_print {p : Printed} (hp : P p) : Carries (Prints P) (print p : Run ε Unit) :=
  fun _ => prints_one hp rfl

theorem prints_onDisk (op : Disk → Disk.Outcome) : Carries (Prints P) (onDisk op) :=
  fun _ => prints_nothing rfl

theorem prints_compileMatching (pattern : String) (requireTests : Bool) :
    Carries (Prints P) (compileMatching pattern requireTests) := by
  intro w
  obtain ⟨log, hw⟩ := onlyLogs_compileMatching pattern requireTests w
  rw [hw]
  exact prints_nothing rfl

theorem prints_freshOutputDir (config : Config) (script : Path) :
    Carries (Prints P) (freshOutputDir config script) := by
  unfold freshOutputDir
  cases Path.unencodable? config.outputRoot with
  | some e => exact carries_throw _
  | none => exact ((prints_onDisk _).mapError _).bind fun _ => carries_pure _

/-- What is recorded is a result that there can be. -/
theorem known_of_recordCase {outDir : Path} {tc : TestCase} {r : CaseResult}
    (h : recordCase env config outDir tc w = (.ok r, v)) : Known r := by
  obtain ⟨start, ticked, ended, after, judged, logged, stop, -, -, hverdict, -, rfl⟩ :=
    recordCase_eq_ok h
  show judged.1 = "pass" ∨ judged.1 = "fail" ∨ judged.1 = "error"
  unfold verdict at hverdict
  split at hverdict
  · obtain ⟨rfl, -⟩ := pure_apply_eq_ok hverdict
    exact .inl rfl
  · obtain ⟨rfl, -⟩ := pure_apply_eq_ok hverdict
    exact .inr (.inl rfl)
  · rw [← Except.ok.inj (Prod.mk.inj hverdict).1]
    exact .inr (.inr rfl)
  · cases (Prod.mk.inj hverdict).1
  · rw [← Except.ok.inj (Prod.mk.inj hverdict).1]
    exact .inr (.inr rfl)

/-- A reporter that prints only things of a kind when it is told of results that there can be. -/
structure ReporterPrints (P : Printed → Prop) (reporter : Reporter) : Prop where
  started : ∀ script tc, Carries (Prints P) (reporter.started script tc)
  finished : ∀ script r, Known r → Carries (Prints P) (reporter.finished script r)

theorem silent_prints : ReporterPrints P .silent :=
  ⟨fun _ _ => carries_pure (), fun _ _ _ => carries_pure ()⟩

theorem printing_prints : ReporterPrints AllFormed printingReporter :=
  ⟨fun _ _ => carries_pure (), fun _ _ h =>
    prints_print (allFormed_line (formed_finishedLine _ h))⟩

/-- A run prints what its reporter prints, however it ends. -/
theorem prints_runMatching {reporter : Reporter} (hr : ReporterPrints P reporter)
    (env : Environment) (config : Config) (pattern : String) (requireTests : Bool) :
    Carries (Prints P) (runMatching env config pattern reporter requireTests) := by
  have hcall : ∀ e, Carries (Prints P) (callUnlimited env.driver e) :=
    fun e => prints_of_outward ((outward_call env.driver e).mapError _)
  have hcase : ∀ script outDir tc,
      Carries (Prints P) (reportedCase env config reporter script outDir tc) := by
    intro script outDir tc
    have hrecord : Carries (Prints P) (recordCase env config outDir tc) :=
      ignoresLog_prints.recordCase (prints_of_outward (outward_comparePages _ _ _ _))
    refine (hr.started script tc).bind fun _ => hrecord.bind_of_ok fun r w v h => ?_
    exact (hr.finished script r (known_of_recordCase h)).bind fun _ => carries_pure _
  rw [runMatching_eq]
  refine (prints_compileMatching pattern requireTests).bind fun scripts => ?_
  refine carries_runCompiled ignoresLog_prints (hcall _) (hcall _) fun script _ => ?_
  exact carries_runScript (prints_freshOutputDir config script.1) (hcall _) (hcall _)
    fun tc _ => hcase _ _ tc

/-! ### Commands -/

/-- A run tells of results that there can be. -/
theorem known_of_result {reporter : Reporter} {noted : Occasion → List Notice}
    {printed : Occasion → List Printed} (hr : reporter.Writes noted printed) {requireTests : Bool}
    {result : RunResult}
    (h : runMatching env config pattern reporter requireTests w = (.ok result, v)) :
    ∀ c ∈ result.cases, Known c := by
  obtain ⟨scripts, -, hcomplete, -⟩ := course_of_result hr h
  exact forall_known (forall₂_records hcomplete.records)

theorem prints_orComplain {x : Run RunFailure α} (hx : Carries (Prints AllFormed) x) :
    Carries (Prints AllFormed) (orComplain x) := by
  refine hx.attempt.bind fun ended => ?_
  split
  · exact carries_pure _
  · exact carries_throw _
  · exact (prints_print (allFormed_line (formed_complaint _))).bind fun _ => carries_throw _

theorem orComplain_eq_ok {x : Run RunFailure α} {a : α} (h : orComplain x w = (.ok a, v)) :
    x w = (.ok a, v) := by
  cases hx : x w with
  | mk ended u =>
    have hended : (attempt x : Run Stop _) w = (.ok ended, u) := by rw [attempt, hx]
    rw [orComplain, bind_apply_of_ok hended] at h
    cases ended with
    | ok b =>
      obtain ⟨hb, rfl⟩ := Prod.mk.inj h
      rw [Except.ok.inj hb]
    | error e => cases e <;> cases (Prod.mk.inj h).1

theorem prints_writeReport (result : RunResult) (report : Option String) :
    Carries (Prints P) (writeReport result report) := by
  unfold writeReport
  split
  · exact carries_pure ()
  · split
    · exact carries_pure ()
    · exact (prints_onDisk _).mapError _

/-! ### Settings -/

/-- There are no settings at a path, and it is not the default one. -/
def SettingsMissing (env : Environment) (path : String) (d : Disk) : Prop :=
  path ≠ defaultConfigPath ∧
    ∃ e, Config.load d env.outputRoot (.ofString path) = .error e ∧ e.isMissing = true

/-- The line about missing settings.  The path is not escaped. -/
def missingLine (path : String) : Printed :=
  .line (styled "red" ("Config file not found: " ++ path))

theorem loadSettings_of_missing (h : SettingsMissing env path w.disk) :
    loadSettings env path w =
      (.error (.exit 1), { w with console := w.console ++ [missingLine path] }) := by
  obtain ⟨hpath, e, hload, hmissing⟩ := h
  have hask : (get : Run Stop World) w = (.ok w, w) := rfl
  rw [loadSettings, bind_apply_of_ok hask, hload]
  simp only [hmissing, hpath]
  rfl

theorem loadSettings_of_not_missing (h : ¬ SettingsMissing env path w.disk) :
    ∃ r, loadSettings env path w = (r, w) := by
  have hask : (get : Run Stop World) w = (.ok w, w) := rfl
  rw [loadSettings, bind_apply_of_ok hask]
  cases hload : Config.load w.disk env.outputRoot (.ofString path) with
  | ok config => exact ⟨_, rfl⟩
  | error e =>
    cases hmissing : e.isMissing with
    | false =>
      simp only [hmissing]
      exact ⟨_, rfl⟩
    | true =>
      have hpath : path = defaultConfigPath := by
        by_contra hpath
        exact h ⟨hpath, e, hload, hmissing⟩
      simp only [hmissing, hpath]
      exact ⟨_, rfl⟩

/-- What prints formed texts only, but for the line about settings that are missing at a path. -/
def FormedBut (env : Environment) (path : String) (x : Run Stop α) : Prop :=
  ∀ w, (¬ SettingsMissing env path w.disk → Prints AllFormed w (x w).2) ∧
    (SettingsMissing env path w.disk → (x w).2.console = w.console ++ [missingLine path])

theorem formedBut_settings {f : Config → Run Stop α}
    (hf : ∀ config, Carries (Prints AllFormed) (f config)) :
    FormedBut env path (loadSettings env path >>= f) := by
  refine fun w => ⟨fun hfound => ?_, fun hmissing => ?_⟩
  · obtain ⟨r, hload⟩ := loadSettings_of_not_missing hfound
    cases r with
    | ok config =>
      rw [bind_apply_of_ok hload]
      exact hf config w
    | error e =>
      rw [bind_apply_of_error hload]
      exact prints_nothing rfl
  · rw [bind_apply_of_error (loadSettings_of_missing hmissing)]

theorem formedBut_check (env : Environment) (pattern path : String) (report : Option String) :
    FormedBut env path (performCheck env pattern path report) := by
  refine formedBut_settings fun config => ?_
  have hrun : Carries (Prints AllFormed) (runChecked env config pattern) := by
    refine ((prints_runMatching silent_prints env config pattern true).mapError _).bind fun _ => ?_
    split
    · exact carries_pure _
    · exact carries_throw _
  refine hrun.attempt.bind fun ended => ?_
  split
  · exact prints_orComplain (carries_throw _)
  · refine (prints_writeReport _ _).bind fun _ => ?_
    exact (prints_print (allFormed_line (formed_complaint _))).bind fun _ => carries_throw _
  · refine (prints_writeReport _ _).bind fun _ => prints_print (allFormed_line ?_)
    exact formed_passed (escape_of_plain (isPlain_int _))

theorem formedBut_test (env : Environment) (pattern path : String) :
    FormedBut env path (performTest env pattern path) := by
  refine formedBut_settings fun config => ?_
  have hrun := prints_runMatching printing_prints env config pattern false
  refine (prints_orComplain hrun).bind_of_ok fun result w v hresult => ?_
  have hknown := known_of_result printing_writes (orComplain_eq_ok hresult)
  refine (prints_print (allFormed_resultTable hknown)).bind fun _ => ?_
  have hline : ∀ script, Carries (Prints AllFormed) (say (artifactLine script) : Run Stop Unit) :=
    fun script => prints_print (allFormed_line (formed_artifactLine script))
  refine (carries_forM _ hline).bind fun _ => ?_
  split
  · exact carries_pure _
  · exact carries_throw _

theorem formedBut_list (env : Environment) (pattern path : String) :
    FormedBut env path (performList env pattern path) :=
  formedBut_settings fun config => (prints_orComplain (prints_compileMatching pattern false)).bind
    fun _ => carries_forM _ fun script => prints_print (allFormed_listTable config script)

theorem prints_init (env : Environment) (typed : List (List Char)) :
    Carries (Prints AllFormed) (performInit env typed) := by
  have hdisplay : ∀ text, Carries (Prints AllFormed) (display text : Run Stop Unit) :=
    fun _ _ => prints_nothing rfl
  have hfound : ∀ r : Except DiskError Bool, Carries (Prints AllFormed) (ofExcept r) :=
    fun _ _ => prints_nothing rfl
  have hconfirm : Carries (Prints AllFormed) (confirmOverwrite typed) := by
    refine (hdisplay _).bind fun _ => ?_
    split
    · exact carries_pure _
    · exact (hdisplay _).bind fun _ => carries_throw _
  have hask : Carries (Prints AllFormed) (get : Run Stop World) := fun _ => prints_nothing rfl
  have hcreate : ∀ wanted : Bool, Carries (Prints AllFormed) (if wanted then do
      (onDisk fun d => env.defaultConfig.save d (.ofString defaultConfigPath)).mapError
        fun e => Stop.fault (.disk e)
      say (styled "green" s!"Created {(Path.ofString defaultConfigPath).text}")
      else pure ()) := by
    intro wanted
    split
    · refine ((prints_onDisk _).mapError _).bind fun _ => prints_print (allFormed_line ?_)
      exact formed_fixed (by decide)
    · exact carries_pure _
  refine hask.bind fun _ => ((hfound _).mapError _).bind fun found => ?_
  dsimp only
  split
  · exact hconfirm.bind hcreate
  · exact (carries_pure _).bind hcreate

/-- Where a request looks for settings. -/
def Request.settings? : Request → Option String
  | .check _ path _ => some path
  | .test _ path => some path
  | .list _ path => some path
  | .init => none
  | .nullPath => none

/-- **Foreign text is escaped.**  Every text that a command prints is put together from texts of the
program's own and from escaped ones, and the tags that are live in it are the program's own unless
the names of a script and of its test case make one together.  If settings are missing that have
been named, nothing is printed but a line with their path, which is not escaped. -/
theorem console_escaped (env : Environment) (typed : List (List Char)) (request : Request)
    (w : World) :
    let v := (perform env typed request w).2
    ((∀ path, request.settings? = some path → ¬ SettingsMissing env path w.disk) →
      ∃ printed, v.console = w.console ++ printed ∧ ∀ p ∈ printed, AllFormed p) ∧
    ∀ path, request.settings? = some path → SettingsMissing env path w.disk →
      v.console = w.console ++ [missingLine path] := by
  intro v
  have hsettings : ∀ path, request.settings? = some path →
      FormedBut env path (perform env typed request) →
      ((∀ path, request.settings? = some path → ¬ SettingsMissing env path w.disk) →
        Prints AllFormed w v) ∧
      ∀ path, request.settings? = some path → SettingsMissing env path w.disk →
        v.console = w.console ++ [missingLine path] := by
    intro path hpath h
    refine ⟨fun hfound => (h w).1 (hfound path hpath), fun path' hpath' => ?_⟩
    obtain rfl := Option.some.inj (hpath.symm.trans hpath')
    exact (h w).2
  cases request with
  | check pattern path report => exact hsettings path rfl (formedBut_check env pattern path report)
  | test pattern path => exact hsettings path rfl (formedBut_test env pattern path)
  | list pattern path => exact hsettings path rfl (formedBut_list env pattern path)
  | init => exact ⟨fun _ => prints_init env typed w, nofun⟩
  | nullPath => exact ⟨fun _ => prints_nothing rfl, nofun⟩

/-- The brackets of a path are printed as they are, and so a tag is live that is not the
program's. -/
theorem console_unescaped_brackets :
    let shown := "[red]Config file not found: [b].json[/red]"
    (perform sampleEnv [] (.check "?.txt" "[b].json" none) sideBySide).2.console =
        [.line shown] ∧
      escape "[b].json" = "\\[b].json" ∧
      liveTags false shown.toList = ["[red]", "[b]", "[/red]"].map String.toList := by
  decide +kernel

/-- Two names that are escaped make a tag together. -/
example : "[a.txt::b]".toList ∈ liveTags false (finishedLine (.ofString "[a.txt")
    ⟨"b]", "http://a", "http://b", "pass", none, .zero⟩).toList := by decide

end PageDiff.Command
