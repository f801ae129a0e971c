import PageDiff.Proofs.Config.Saving
import PageDiff.Proofs.Run.Lifecycle
import PageDiff.Proofs.Run.Plan
import PageDiff.Proofs.Script.Meaning

/-!
# Viewports

A script gives sizes that are not negative, settings give a window that has pixels, and a dimension
of zero falls back to the window.  So every viewport has pixels (`one_le_viewport`), whichever of
its dimensions fall back.  It is the size of every context that is opened for a test case, and the
size that the list of test cases shows.  Main statement: `viewports_agree`.
-/

namespace PageDiff.Command

open PageDiff.Browser PageDiff.Config PageDiff.Run PageDiff.Script PageDiff.Text

variable {config : Config} {tc : TestCase} {width height : Int} {cases : List TestCase}

/-! ### Sizes that scripts give -/

/-- Lines leave no negative size in force. -/
theorem nonneg_of_windowAfter {before : List (List Char)} (h : WindowAfter before (width, height)) :
    0 ≤ width ∧ 0 ≤ height := by
  unfold WindowAfter at h
  split at h
  · obtain ⟨rfl, rfl⟩ := Prod.mk.inj h
    exact ⟨le_refl 0, le_refl 0⟩
  · obtain ⟨w, k, -, hsize⟩ := h
    obtain ⟨rfl, rfl⟩ := Prod.mk.inj hsize
    exact ⟨Int.natCast_nonneg w, Int.natCast_nonneg k⟩

theorem nonneg_of_shownAs {before : List (List Char)} {args : String} (h : ShownAs before args tc) :
    0 ≤ tc.width ∧ 0 ≤ tc.height := by
  obtain ⟨size?, -, hsize⟩ := h
  cases size? with
  | none => exact nonneg_of_windowAfter hsize
  | some size =>
    obtain ⟨hwidth, hheight⟩ := Prod.mk.inj hsize
    rw [hwidth, hheight]
    exact ⟨Int.natCast_nonneg _, Int.natCast_nonneg _⟩

/-- No test case of a script has a negative size. -/
theorem nonneg_of_compile {text : List Char} {script : Option String}
    (h : compile text script = .ok cases) : ∀ tc ∈ cases, 0 ≤ tc.width ∧ 0 ≤ tc.height := by
  obtain ⟨s, hrun⟩ := compile_eq_ok.mp h
  have hsizes : List.Forall₂ (fun tc (_ : List (List Char) × String) =>
      (0 ≤ tc.width ∧ 0 ≤ tc.height) ∧ True) cases (captures (lines text)) :=
    (reflects_of_run hrun).2.flip.imp fun _ _ hd => ⟨nonneg_of_shownAs hd.shown, trivial⟩
  exact ((List.forall₂_and_left _ _).mp hsizes).1

/-- A viewport has pixels if the window has, whichever dimensions fall back to it. -/
theorem one_le_viewport (hconfig : Sane config) (hwidth : 0 ≤ tc.width) (hheight : 0 ≤ tc.height) :
    1 ≤ (tc.viewport config.window).1 ∧ 1 ≤ (tc.viewport config.window).2 := by
  have hw := hconfig.width
  have hh := hconfig.height
  simp only [TestCase.viewport, Config.window]
  constructor
  · split <;> omega
  · split <;> omega

/-! ### Contexts -/

/-- A call that opens a context, if it does, opens one of a certain size. -/
def Sized (width height : Int) (e : Event) : Prop :=
  ∀ w h, e = .newContext w h → w = width ∧ h = height

theorem sized_of_onPage {e : Event} (h : OnPage e) : Sized width height e := by
  rintro w h rfl
  cases h

/-- The plan of a picture opens contexts of the size of the viewport, and a picture starts with one
if there is any time. -/
theorem calls_of_picture (driver : Driver) (config : Config) (url : String) (tc : TestCase)
    (w : World) : ∃ calls, (takeCasePicture driver config url tc w).2.trace = w.trace ++ calls ∧
      (∀ e ∈ calls, Sized (tc.viewport config.window).1 (tc.viewport config.window).2 e) ∧
      (config.timeout.isNonpositive = false → calls.head? = some (contextEvent config tc)) := by
  obtain ⟨made, closing, r, hcalls, -, hpicture⟩ := pictureAt_calls driver config url tc w.outside
  obtain ⟨log, hrun⟩ := yields_picture hpicture w rfl
  refine ⟨made ++ closing, ?_, ?_, ?_⟩
  · rw [hrun]
    rfl
  · intro e he
    rcases List.mem_append.mp he with he | he
    · rcases List.mem_cons.mp (hcalls.planned.mem he) with rfl | he
      · rintro w h heq
        obtain ⟨rfl, rfl⟩ := Event.newContext.inj heq
        exact ⟨rfl, rfl⟩
      · rcases List.mem_cons.mp he with rfl | he
        · exact nofun
        · exact sized_of_onPage (onPage_of_mem_contextPlan he)
    · rw [hcalls.closes] at he
      split at he
      · rw [List.mem_singleton.mp he]
        exact nofun
      · cases he
  · intro htime
    have hfollows := hcalls.follows htime
    cases hfollows with
    | stopped fails => rfl
    | next succeeds later => rfl

/-- Every context of a test case has the size of its viewport. -/
theorem carries_sized (driver : Driver) (config : Config) (outDir : Path) (tc : TestCase) :
    Carries (Adds (Sized (tc.viewport config.window).1 (tc.viewport config.window).2))
      (comparePages driver config outDir tc) := by
  refine sees_adds.comparePages (fun url w => ?_) fun a b w => ?_
  · obtain ⟨calls, htrace, hsized, -⟩ := calls_of_picture driver config url tc w
    exact ⟨calls, htrace, hsized⟩
  · exact (sameCalls_reportMismatch config tc outDir a b w).adds

/-! ### What is shown -/

/-- The remark on a viewport that the browser chooses. -/
def defaultRemark : String := " (default)"

theorem viewportLabel_eq (config : Config) (tc : TestCase) : viewportLabel config tc =
    toString (tc.viewport config.window).1 ++ "x" ++ toString (tc.viewport config.window).2 ++
      if tc.width = 0 ∧ tc.height = 0 then defaultRemark else "" := by
  have hdefault : tc.usesDefaultViewport = true ↔ tc.width = 0 ∧ tc.height = 0 := by
    simp [TestCase.usesDefaultViewport]
  unfold viewportLabel
  simp only [hdefault]
  split
  · rfl
  · rw [String.append_empty]
    rfl

theorem parenthesis_not_mem (n : Int) : ')' ∉ (toString n).toList := by
  have hclosing : Char.isDigit ')' = false := by decide
  have hdigits := (Number.isDigits_toDigits n.natAbs).not_mem hclosing
  rw [Number.toList_toString, Number.hyphened]
  split
  · rw [List.mem_cons, not_or]
    exact ⟨by decide, hdigits⟩
  · exact hdigits

/-- A viewport is shown with the remark exactly if both dimensions fall back: no size looks like
one. -/
theorem remark_iff (config : Config) (tc : TestCase) :
    defaultRemark.toList <:+ (viewportLabel config tc).toList ↔ tc.width = 0 ∧ tc.height = 0 := by
  rw [viewportLabel_eq]
  constructor
  · intro hsuffix
    by_contra hown
    rw [if_neg hown, String.append_empty] at hsuffix
    have hmem : ')' ∈ (toString (tc.viewport config.window).1 ++ "x" ++
        toString (tc.viewport config.window).2).toList := hsuffix.mem (by decide)
    simp only [String.toList_append, List.mem_append] at hmem
    rcases hmem with (hmem | hmem) | hmem
    · exact parenthesis_not_mem _ hmem
    · exact absurd hmem (by decide)
    · exact parenthesis_not_mem _ hmem
  · intro hdefault
    rw [if_pos hdefault, String.toList_append]
    exact List.suffix_append _ _

/-- A test case is shown in a size: what its dimensions fall back to, the contexts that are opened
for it, and what the list says. -/
structure ViewportIs (config : Config) (tc : TestCase) (width height : Int) : Prop where
  one_le_width : 1 ≤ width
  one_le_height : 1 ≤ height
  width_eq : width = if tc.width = 0 then config.width else tc.width
  height_eq : height = if tc.height = 0 then config.height else tc.height
  /-- No context of the test case has another size. -/
  contexts : ∀ driver outDir,
    Carries (Adds (Sized width height)) (comparePages driver config outDir tc)
  /-- With any time, a picture starts with a context. -/
  opened : ∀ driver url w, config.timeout.isNonpositive = false → ∃ calls,
    (takeCasePicture driver config url tc w).2.trace =
      w.trace ++ .newContext width height :: calls ∧ ∀ e ∈ calls, Sized width height e
  label : viewportLabel config tc = toString width ++ "x" ++ toString height ++
    if tc.width = 0 ∧ tc.height = 0 then defaultRemark else ""
  remark : defaultRemark.toList <:+ (viewportLabel config tc).toList ↔ tc.width = 0 ∧ tc.height = 0

theorem viewportIs_of_sane (hconfig : Sane config) (hwidth : 0 ≤ tc.width)
    (hheight : 0 ≤ tc.height) :
    ViewportIs config tc (tc.viewport config.window).1 (tc.viewport config.window).2 := by
  obtain ⟨hw, hh⟩ := one_le_viewport hconfig hwidth hheight
  refine ⟨hw, hh, rfl, rfl, fun driver outDir => carries_sized driver config outDir tc, ?_,
    viewportLabel_eq config tc, remark_iff config tc⟩
  intro driver url w htime
  obtain ⟨calls, htrace, hsized, hfirst⟩ := calls_of_picture driver config url tc w
  cases calls with
  | nil => cases hfirst htime
  | cons e rest =>
    obtain rfl : e = contextEvent config tc := Option.some.inj (hfirst htime)
    exact ⟨rest, htrace, fun e he => hsized e (List.mem_cons_of_mem _ he)⟩

theorem viewportIs_of_compile (hconfig : Obtained config) {text : List Char}
    {script : Option String} (h : compile text script = .ok cases) (htc : tc ∈ cases) :
    ∃ width height, ViewportIs config tc width height := by
  obtain ⟨hwidth, hheight⟩ := nonneg_of_compile h tc htc
  exact ⟨_, _, viewportIs_of_sane (sane_of_obtained hconfig) hwidth hheight⟩

variable {env : Environment} {configPath pattern : String} {scripts : List Compiled} {w v : World}

theorem compile_of_compileFile {d : Disk} {path : Path} (h : compileFile d path = .ok cases) :
    ∃ text, compile text (some path.text) = .ok cases := by
  unfold compileFile at h
  split at h
  · cases h
  · next text htext =>
    split at h
    · cases h
    · next hcompile =>
      cases h
      exact ⟨text, hcompile⟩

/-! ### Whole runs -/

/-- A call that opens a context, if it does, opens one for a test case of some scripts. -/
def ForSomeCase (config : Config) (scripts : List Compiled) (e : Event) : Prop :=
  ∀ width height, e = .newContext width height →
    ∃ c ∈ scripts, ∃ tc ∈ c.2, ViewportIs config tc width height

/-- Every context of a run is one for a test case of its scripts. -/
theorem contexts_of_run {reporter : Reporter} {requireTests : Bool} (hconfig : Obtained config)
    (hr : reporter.Carries SameCalls) (hscripts : Compiles w.disk pattern requireTests scripts) :
    Adds (ForSomeCase config scripts) w
      (runMatching env config pattern reporter requireTests w).2 := by
  obtain ⟨log, hcompiled⟩ := Compiles.yields (o := w.outside) hscripts w rfl
  have hcall {e : Event} (he : ∀ width height, e ≠ .newContext width height) :
      Carries (Adds (ForSomeCase config scripts)) (callUnlimited env.driver e) :=
    (carries_call env.driver fun width height heq => absurd heq (he width height)).mapError _
  have hrun : Carries (Adds (ForSomeCase config scripts))
      (runCompiled env config pattern reporter scripts) := by
    refine carries_runCompiled sees_adds.ignoresLog (hcall nofun) (hcall nofun) ?_
    intro c hc
    refine carries_runScript ((sameCalls_freshOutputDir config c.1).mono fun _ _ h => h.adds)
      (hcall nofun) (hcall nofun) ?_
    intro tc htc
    refine sees_adds.ignoresLog.reportedCase (hr.mono fun _ _ h => h.adds) c.1 ?_
    obtain ⟨text, hcompile⟩ := compile_of_compileFile (hscripts.compiled c hc)
    obtain ⟨width, height, hsize⟩ := viewportIs_of_compile hconfig hcompile htc
    refine (hsize.contexts env.driver _).mono fun w v hadds => hadds.mono ?_
    intro e he a b heq
    obtain ⟨rfl, rfl⟩ := he a b heq
    exact ⟨c, hc, tc, htc, hsize⟩
  rw [runMatching_eq, bind_apply_of_ok hcompiled]
  exact hrun (w.after w.outside log)

/-! ### The list -/

/-- Settings that a command uses have been checked. -/
theorem obtained_of_loadSettings (h : loadSettings env configPath w = (.ok config, v)) :
    Obtained config := by
  have hget : (get : Run Stop World) w = (.ok w, w) := rfl
  rw [loadSettings, bind_apply_of_ok hget] at h
  cases hload : Config.load w.disk env.outputRoot (.ofString configPath) with
  | ok found =>
    rw [hload] at h
    obtain ⟨hconfig, -⟩ := Prod.mk.inj h
    rw [← Except.ok.inj hconfig]
    exact .loaded hload
  | error e =>
    rw [hload] at h
    dsimp only at h
    split at h
    · cases (Prod.mk.inj h).1
    · split at h
      · obtain ⟨hconfig, -⟩ := Prod.mk.inj h
        rw [← Except.ok.inj hconfig]
        -- the default settings are those of an object without members
        have hchecked : Config.check env.outputRoot [] = .ok env.defaultConfig := rfl
        exact .constructed (by simp) hchecked
      · cases (Prod.mk.inj h).1

/-- A table with a row for each test case of a script, which ends with its viewport. -/
def ListsViewports (config : Config) (script : Compiled) (printed : Printed) : Prop :=
  ∃ title headings rows, printed = .table title (headings :: rows) ∧
    headings.getLast? = some "Viewport" ∧
    List.Forall₂ (fun tc row => ∃ width height, ViewportIs config tc width height ∧
      row.getLast? = some (viewportLabel config tc)) script.2 rows

theorem listsViewports_listTable (hconfig : Obtained config) {script : Compiled} {text : List Char}
    {name : Option String} (h : compile text name = .ok script.2) :
    ListsViewports config script (listTable config script) := by
  refine ⟨_, _, _, rfl, rfl, ?_⟩
  rw [List.forall₂_map_right_iff, List.forall₂_same]
  intro tc htc
  obtain ⟨width, height, hsize⟩ := viewportIs_of_compile hconfig h htc
  exact ⟨width, height, hsize, rfl⟩

theorem perform_list (typed : List (List Char))
    (hconfig : loadSettings env configPath w = (.ok config, w))
    (hscripts : Compiles w.disk pattern false scripts) :
    ∃ log, perform env typed (.list pattern configPath) w = (.ok (),
      { w with log := log, console := w.console ++ scripts.map (listTable config) }) := by
  obtain ⟨log, hcompiled⟩ := Compiles.yields (o := w.outside) hscripts w rfl
  refine ⟨log, ?_⟩
  show performList env pattern configPath w = _
  rw [performList, bind_apply_of_ok hconfig, bind_apply_of_ok (orComplain_of_ok hcompiled),
    forM_print]
  rfl

/-- **Viewports agree.**  For every script that compiles and settings that have been checked, the
viewport of a test case has pixels in both dimensions, each of them the own one unless that is zero,
and else that of the window; it is the size of every context that is opened for a page of the test
case, and is shown with the remark exactly if both dimensions fall back.  A run of scripts opens no
other contexts than these, and the list of the scripts has a row for each test case, which ends with
its viewport. -/
theorem viewports_agree (hconfig : Obtained config) {text : List Char} {script : Option String}
    (h : compile text script = .ok cases) :
    (∀ tc ∈ cases, ∃ width height, ViewportIs config tc width height) ∧
    (∀ env reporter pattern requireTests w scripts, reporter.Carries SameCalls →
      Compiles w.disk pattern requireTests scripts →
      Adds (ForSomeCase config scripts) w
        (runMatching env config pattern reporter requireTests w).2) ∧
    ∀ env typed pattern configPath w scripts,
      loadSettings env configPath w = (.ok config, w) → Compiles w.disk pattern false scripts →
      ∃ log tables, List.Forall₂ (ListsViewports config) scripts tables ∧
        perform env typed (.list pattern configPath) w =
          (.ok (), { w with log := log, console := w.console ++ tables }) := by
  refine ⟨fun tc htc => viewportIs_of_compile hconfig h htc, ?_, ?_⟩
  · intro env reporter pattern requireTests w scripts hr hscripts
    exact contexts_of_run hconfig hr hscripts
  · intro env typed pattern configPath w scripts hload hscripts
    obtain ⟨log, hlist⟩ := perform_list typed hload hscripts
    refine ⟨log, scripts.map (listTable config), ?_, hlist⟩
    rw [List.forall₂_map_right_iff, List.forall₂_same]
    intro c hc
    obtain ⟨text, hcompile⟩ := compile_of_compileFile (hscripts.compiled c hc)
    exact listsViewports_listTable hconfig hcompile

/-- A script with sizes of which both dimensions, one of them or none fall back. -/
def mixedSizes : List Char :=
  ("compare http://a http://b\nwindowsize 8x0\npathname /x\ncapture\ncapture fullscreen 0x6\n"
    ++ "capture viewport 00x0\ncapture viewport 3x4").toList

def mixedSizesCases : List TestCase :=
  [⟨"/x", "/x", "http://a", "http://b", [], 8, 0, .viewport⟩,
    ⟨"/x 0x6", "/x", "http://a", "http://b", [], 0, 6, .fullPage⟩,
    ⟨"/x 0x0", "/x", "http://a", "http://b", [], 0, 0, .viewport⟩,
    ⟨"/x 3x4", "/x", "http://a", "http://b", [], 3, 4, .viewport⟩]

theorem viewports_agree_mixedSizes :
    Obtained sampleEnv.defaultConfig ∧ compile mixedSizes = .ok mixedSizesCases ∧
    (∀ tc ∈ mixedSizesCases, ∃ width height, ViewportIs sampleEnv.defaultConfig tc width height) ∧
    mixedSizesCases.map (viewportLabel sampleEnv.defaultConfig) =
      ["8x960", "1536x6", "1536x960 (default)", "3x4"] ∧
    Adds (ForSomeCase sampleEnv.defaultConfig sideBySideScripts) sideBySide
      (runMatching sampleEnv sampleEnv.defaultConfig "?.txt" .notes false sideBySide).2 ∧
    ∃ log tables, List.Forall₂ (ListsViewports sampleEnv.defaultConfig) sideBySideScripts tables ∧
      perform sampleEnv [] (.list "?.txt" defaultConfigPath) sideBySide =
        (.ok (), { sideBySide with log := log, console := sideBySide.console ++ tables }) := by
  have hconfig : Obtained sampleEnv.defaultConfig :=
    obtained_of_loadSettings loadSettings_sideBySide
  have hcompile : compile mixedSizes = .ok mixedSizesCases := by decide +kernel
  obtain ⟨hsizes, hruns, hlist⟩ := viewports_agree hconfig hcompile
  exact ⟨hconfig, hcompile, hsizes, by decide +kernel,
    hruns sampleEnv .notes "?.txt" false sideBySide sideBySideScripts notes_sameCalls
      compiles_sideBySide.of_tested,
    hlist sampleEnv [] "?.txt" defaultConfigPath sideBySide sideBySideScripts
      loadSettings_sideBySide compiles_sideBySide.of_tested⟩

end PageDiff.Command
