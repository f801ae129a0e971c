import PageDiff.Proofs.Run.Completion
import PageDiff.Proofs.Run.Ledger

/-!
# Runs that no fault breaks off

A run ends with a result, with scripts that can not be found or compiled, or with a fault.  A smooth
run comes to its end; here is the converse: a run with a result has been smooth, and only faults end
what follows the compiling.  Main statement (`Unbroken.course`): a run that no fault breaks off
either goes smoothly through the scripts of its pattern, or they do not compile and nothing has
happened but lines of the log.
-/

namespace PageDiff.Run

open PageDiff.Browser PageDiff.Script

variable {α β γ ε : Type} {env : Environment} {config : Config} {reporter : Reporter}
  {noted : Occasion → List Notice} {printed : Occasion → List Printed} {w v : World}

/-- No fault breaks off a computation. -/
def Unbroken (x : Run RunFailure α) (w : World) : Prop := ∀ f, (x w).1 ≠ .error (.fault f)

/-! ### Only faults -/

/-- Only faults end a computation early. -/
def OnlyFaults (x : Run RunFailure α) : Prop :=
  ∀ w e, (x w).1 = .error e → ∃ f, e = .fault f

section OnlyFaults

variable {x : Run RunFailure α}

theorem Unbroken.exists_ok (h : Unbroken x w) (hx : OnlyFaults x) : ∃ a v, x w = (.ok a, v) := by
  cases hr : x w with
  | mk r v =>
    cases r with
    | ok a => exact ⟨a, v, rfl⟩
    | error e =>
      obtain ⟨f, rfl⟩ := hx w e (by rw [hr])
      exact absurd (by rw [hr]) (h f)

theorem onlyFaults_of_ok (h : ∀ w, ∃ a, (x w).1 = .ok a) : OnlyFaults x := by
  intro w e he
  obtain ⟨a, ha⟩ := h w
  rw [ha] at he
  cases he

theorem onlyFaults_pure (a : α) : OnlyFaults (pure a : Run RunFailure α) :=
  onlyFaults_of_ok fun _ => ⟨a, rfl⟩

theorem onlyFaults_mapError (x : Run Fault α) : OnlyFaults (x.mapError RunFailure.fault) := by
  intro w e he
  rw [mapError_apply] at he
  cases hr : (x w).1 with
  | ok a =>
    rw [hr] at he
    cases he
  | error f =>
    rw [hr] at he
    exact ⟨f, (Except.error.inj he).symm⟩

theorem OnlyFaults.bind {f : α → Run RunFailure β} (hx : OnlyFaults x)
    (hf : ∀ a, OnlyFaults (f a)) : OnlyFaults (x >>= f) := by
  intro w e he
  cases hr : x w with
  | mk r v =>
    cases r with
    | ok a =>
      rw [bind_apply_of_ok hr] at he
      exact hf a v e he
    | error e' =>
      rw [bind_apply_of_error hr] at he
      exact hx w e (by rw [hr]; exact congrArg Except.error (Except.error.inj he))

theorem OnlyFaults.cleanedUp {y : Run RunFailure Unit} (hx : OnlyFaults x) (hy : OnlyFaults y) :
    OnlyFaults (x.cleanedUp y) := by
  intro w e he
  unfold Run.cleanedUp at he
  cases hr : x w with
  | mk r v =>
    rw [hr] at he
    simp only at he
    cases hr' : y v with
    | mk r' v' =>
      rw [hr'] at he
      cases r' with
      | ok u => exact hx w e (by rw [hr]; exact he)
      | error e' =>
        simp only at he
        exact hy v e (by rw [hr']; exact congrArg Except.error (Except.error.inj he))

theorem onlyFaults_mapM {f : α → Run RunFailure β} (hf : ∀ a, OnlyFaults (f a)) (as : List α) :
    OnlyFaults (as.mapM f) := by
  induction as with
  | nil => exact onlyFaults_pure []
  | cons a as ih =>
    rw [List.mapM_cons]
    exact (hf a).bind fun _ => ih.bind fun _ => onlyFaults_pure _

theorem onlyFaults_logLine (level : Level) (text : String) :
    OnlyFaults (logLine level text) := onlyFaults_of_ok fun _ => ⟨(), rfl⟩

theorem onlyFaults_now (env : Environment) : OnlyFaults (now env) :=
  onlyFaults_of_ok fun _ => ⟨_, rfl⟩

theorem onlyFaults_verdict (tc : TestCase) (ended : Ended) : OnlyFaults (verdict tc ended) := by
  unfold verdict
  split
  · exact onlyFaults_pure _
  · exact onlyFaults_pure _
  · exact (onlyFaults_logLine _ _).bind fun _ => onlyFaults_pure _
  · exact fun _ _ he => ⟨_, (Except.error.inj he).symm⟩
  · exact (onlyFaults_logLine _ _).bind fun _ => onlyFaults_pure _

/-- Recording a test case and telling of it. -/
theorem onlyFaults_reportedCase (hr : reporter.Writes noted printed) (script outDir : Path)
    (tc : TestCase) : OnlyFaults (reportedCase env config reporter script outDir tc) := by
  have hstarted : OnlyFaults (reporter.started script tc) :=
    onlyFaults_of_ok fun w => ⟨(), by rw [hr.started]⟩
  have hfinished : ∀ r, OnlyFaults (reporter.finished script r) :=
    fun r => onlyFaults_of_ok fun w => ⟨(), by rw [hr.finished]⟩
  have hended : OnlyFaults (attempt (comparePages env.driver config outDir tc)) :=
    onlyFaults_of_ok fun _ => ⟨_, rfl⟩
  refine hstarted.bind fun _ => OnlyFaults.bind ?_ fun r => (hfinished r).bind fun _ =>
    onlyFaults_pure r
  exact (onlyFaults_now env).bind fun _ => hended.bind fun _ => (onlyFaults_verdict tc _).bind
    fun _ => (onlyFaults_now env).bind fun _ => onlyFaults_pure _

theorem onlyFaults_runScript (hr : reporter.Writes noted printed) (script : Compiled) :
    OnlyFaults (runScript env config reporter script) := by
  refine (onlyFaults_mapError _).bind fun outDir => (onlyFaults_mapError _).bind fun _ =>
    OnlyFaults.bind ?_ fun _ => onlyFaults_pure _
  exact (onlyFaults_mapM (onlyFaults_reportedCase hr script.1 outDir) _).cleanedUp
    (onlyFaults_mapError _)

/-- Once the scripts have been compiled only a fault ends the run early. -/
theorem onlyFaults_runCompiled (hr : reporter.Writes noted printed) (pattern : String)
    (scripts : List Compiled) :
    OnlyFaults (runCompiled env config pattern reporter scripts) := by
  refine (onlyFaults_now env).bind fun _ => (onlyFaults_mapError _).bind fun _ =>
    OnlyFaults.bind ?_ fun _ => (onlyFaults_now env).bind fun _ =>
      (onlyFaults_logLine _ _).bind fun _ => onlyFaults_pure _
  exact (onlyFaults_mapM (onlyFaults_runScript hr) scripts).cleanedUp (onlyFaults_mapError _)

end OnlyFaults

/-! ### What a result tells -/

theorem cleanedUp_apply_eq_ok {x : Run ε α} {y : Run ε Unit} {a : α}
    (h : x.cleanedUp y w = (.ok a, v)) : ∃ mid, x w = (.ok a, mid) ∧ y mid = (.ok (), v) := by
  unfold Run.cleanedUp at h
  cases hx : x w with
  | mk r mid =>
    rw [hx] at h
    simp only at h
    cases hy : y mid with
    | mk r' u =>
      rw [hy] at h
      cases r' with
      | ok _ =>
        obtain ⟨rfl, rfl⟩ := Prod.mk.inj h
        exact ⟨mid, rfl, hy⟩
      | error e => cases (Prod.mk.inj h).1

/-- What has been done for the result of a test case. -/
theorem recordCase_eq_ok {outDir : Path} {tc : TestCase} {r : CaseResult}
    (h : recordCase env config outDir tc w = (.ok r, v)) :
    ∃ start ticked ended after judged logged stop,
      (now env : Run RunFailure _) w = (.ok start, ticked) ∧
      comparePages env.driver config outDir tc ticked = (ended, after) ∧
      verdict tc ended after = (.ok judged, logged) ∧
      (now env : Run RunFailure _) logged = (.ok stop, v) ∧
      r = {
        testName := tc.name
        urlA := tc.urlA
        urlB := tc.urlB
        result := judged.1
        failureReason := judged.2
        duration := elapsed start stop } := by
  obtain ⟨start, ticked, hstart, h⟩ := bind_apply_eq_ok h
  obtain ⟨ended, after, hended, h⟩ := bind_apply_eq_ok h
  obtain ⟨judged, logged, hjudged, h⟩ := bind_apply_eq_ok h
  obtain ⟨stop, done, hstop, h⟩ := bind_apply_eq_ok h
  obtain ⟨rfl, rfl⟩ := pure_apply_eq_ok h
  exact ⟨start, ticked, ended, after, judged, logged, stop, hstart, attempt_apply_eq_ok hended,
    hjudged, hstop, rfl⟩

/-- A result of a test case is recorded between two notices. -/
theorem reportedCase_eq_ok {script outDir : Path} {tc : TestCase} {r : CaseResult}
    (h : reportedCase env config reporter script outDir tc w = (.ok r, v)) :
    ∃ told done, reporter.started script tc w = (.ok (), told) ∧
      recordCase env config outDir tc told = (.ok r, done) ∧
      reporter.finished script r done = (.ok (), v) := by
  obtain ⟨_, told, htold, h⟩ := bind_apply_eq_ok h
  obtain ⟨r', done, hdone, h⟩ := bind_apply_eq_ok h
  obtain ⟨_, finished, hfinished, h⟩ := bind_apply_eq_ok h
  obtain ⟨rfl, rfl⟩ := pure_apply_eq_ok h
  exact ⟨told, done, htold, hdone, hfinished⟩

/-- A result of a script holds those of its test cases, which have been recorded while a browser was
open. -/
theorem runScript_eq_ok {path : Path} {cases : List TestCase} {r : ScriptResult}
    (h : runScript env config reporter (path, cases) w = (.ok r, v)) :
    ∃ prepared launched results ran,
      freshOutputDir config path w = (.ok (outputDir config path), prepared) ∧
      (callUnlimited env.driver (launchEvent config)).mapError RunFailure.fault prepared =
        (.ok (), launched) ∧
      cases.mapM (reportedCase env config reporter path (outputDir config path)) launched =
        (.ok results, ran) ∧
      (callUnlimited env.driver .closeBrowser).mapError RunFailure.fault ran = (.ok (), v) ∧
      r = {
        script := path.text
        outputDir := (outputDir config path).text
        cases := results } := by
  obtain ⟨outDir, prepared, hdir, h⟩ := bind_apply_eq_ok h
  obtain ⟨_, launched, hlaunch, h⟩ := bind_apply_eq_ok h
  obtain ⟨results, closed, hclean, h⟩ := bind_apply_eq_ok h
  obtain ⟨rfl, rfl⟩ := pure_apply_eq_ok h
  obtain ⟨ran, hresults, hclose⟩ := cleanedUp_apply_eq_ok hclean
  have hfresh := mapError_apply_eq_ok hdir
  obtain ⟨rfl, -⟩ := freshOutputDir_eq_ok hfresh
  exact ⟨prepared, launched, results, ran, hfresh, hlaunch, hresults, hclose, rfl⟩

/-- A result of a run sums up those of its scripts, which have run while the driver was started. -/
theorem runCompiled_eq_ok {pattern : String} {scripts : List Compiled} {r : RunResult}
    (h : runCompiled env config pattern reporter scripts w = (.ok r, v)) :
    ∃ start ticked started results ran stopped stop,
      (now env : Run RunFailure _) w = (.ok start, ticked) ∧
      (callUnlimited env.driver .start).mapError RunFailure.fault ticked = (.ok (), started) ∧
      scripts.mapM (runScript env config reporter) started = (.ok results, ran) ∧
      (callUnlimited env.driver .stop).mapError RunFailure.fault ran = (.ok (), stopped) ∧
      r = summary pattern (env.timeOfDay timeFormat) (env.timeOfDay timeFormat) results
        (elapsed start stop) := by
  obtain ⟨start, ticked, hnow, h⟩ := bind_apply_eq_ok h
  obtain ⟨_, started, hstart, h⟩ := bind_apply_eq_ok h
  obtain ⟨results, stopped, hclean, h⟩ := bind_apply_eq_ok h
  obtain ⟨ran, hresults, hstop⟩ := cleanedUp_apply_eq_ok hclean
  obtain ⟨stop, _, -, h⟩ := bind_apply_eq_ok h
  obtain ⟨_, _, -, h⟩ := bind_apply_eq_ok h
  obtain ⟨rfl, -⟩ := pure_apply_eq_ok h
  exact ⟨start, ticked, started, results, ran, stopped, stop, hnow, hstart, hresults, hstop, rfl⟩

/-- A call that has succeeded has been answered. -/
theorem reply_of_request {driver : Driver} {e : Event} {f : Fault → ε}
    (h : (callUnlimited driver e).mapError f w = (.ok (), v)) :
    driver.reply w.trace e = .done ∧ v = w.called e := by
  rw [request_apply] at h
  obtain ⟨hreply, rfl⟩ := Prod.mk.inj h
  refine ⟨?_, rfl⟩
  by_contra hne
  obtain ⟨fault, hf⟩ := exists_granted_eq_error hne
  rw [hf] at hreply
  cases hreply

theorem Completes.outside_eq {x : Run ε β} {played : γ × Outside} {fits : γ → β → Prop}
    {told : β → List Occasion} {b : β} (h : Completes noted printed x w played fits told)
    (hx : x w = (.ok b, v)) : v.outside = played.2 := by
  obtain ⟨b', v', hx', hv, -⟩ := h
  rw [hx] at hx'
  rwa [(Prod.mk.inj hx').2]

/-- If every step with a result has been taken under a condition, all of them have been. -/
theorem along_of_mapM {f : α → Run ε β} {g : α → StateM Outside γ} {P : α → Outside → Prop}
    {fits : γ → β → Prop} {told : α → β → List Occasion}
    (only : ∀ a w b v, f a w = (.ok b, v) → P a w.outside)
    (step : ∀ a w, P a w.outside →
      Completes noted printed (f a) w (g a w.outside) fits (told a))
    {as : List α} {bs : List β} (h : as.mapM f w = (.ok bs, v)) : Along g P as w.outside := by
  induction as generalizing w bs v with
  | nil => exact trivial
  | cons a as ih =>
    rw [List.mapM_cons] at h
    obtain ⟨b, mid, hb, h⟩ := bind_apply_eq_ok h
    obtain ⟨rest, mid', hrest, -⟩ := bind_apply_eq_ok h
    have ha : P a w.outside := only a w b mid hb
    refine ⟨ha, ?_⟩
    rw [← (step a w ha).outside_eq hb]
    exact ih hrest

/-! ### Results of smooth courses -/

/-- A test case with a result has not been called off. -/
theorem ordinary_of_reportedCase (hr : reporter.Writes noted printed) {script outDir : Path}
    {tc : TestCase} {r : CaseResult}
    (h : reportedCase env config reporter script outDir tc w = (.ok r, v)) :
    Ordinary env.driver config outDir tc w.outside := by
  intro hended
  obtain ⟨told, done, hstarted, hrecord, -⟩ := reportedCase_eq_ok h
  obtain ⟨start, ticked, ended, after, judged, logged, stop, hnow, hcompared, hverdict, -⟩ :=
    recordCase_eq_ok hrecord
  rw [hr.started] at hstarted
  obtain ⟨-, rfl⟩ := Prod.mk.inj hstarted
  obtain ⟨-, rfl⟩ := Prod.mk.inj hnow
  -- neither the reporter nor the clock has changed what is outside
  obtain ⟨log, hcase⟩ := (outward_comparePages env.driver config outDir tc).yields
    (o := w.outside) { w.told noted printed (.started script tc) with clock := _ } rfl
  rw [hended] at hcase
  obtain ⟨rfl, -⟩ := Prod.mk.inj (hcompared.symm.trans hcase)
  cases (Prod.mk.inj hverdict).1

/-- A script with a result has been smooth. -/
theorem smooth_of_runScript (hr : reporter.Writes noted printed) {script : Compiled}
    {r : ScriptResult} (h : runScript env config reporter script w = (.ok r, v)) :
    Smooth env.driver config script w.outside := by
  obtain ⟨path, cases⟩ := script
  obtain ⟨prepared, launched, results, ran, hfresh, hlaunch, hcases, hclose, -⟩ :=
    runScript_eq_ok h
  have hroot : Path.unencodable? config.outputRoot = none := by
    cases hu : Path.unencodable? config.outputRoot with
    | none => rfl
    | some e =>
      unfold freshOutputDir at hfresh
      rw [hu] at hfresh
      cases (Prod.mk.inj hfresh).1
  obtain ⟨-, hdisk⟩ := freshOutputDir_eq_ok hfresh
  obtain ⟨log, hyields⟩ := yields_freshOutputDir (o := w.outside) hroot hdisk w rfl
  have htrace : prepared.trace = w.trace := by
    rw [hyields] at hfresh
    rw [← (Prod.mk.inj hfresh).2]
    rfl
  obtain ⟨hlaunched, rfl⟩ := reply_of_request hlaunch
  obtain ⟨hclosed, -⟩ := reply_of_request hclose
  have hopened : w.outside.opened config path =
      (prepared.called (launchEvent config)).outside := by
    rw [opened_eq (o := w.outside) hdisk]
    change _ = Outside.mk prepared.disk (prepared.trace ++ [launchEvent config])
    rw [htrace]
    rfl
  rw [htrace] at hlaunched
  have hordinary : Along (playCase env.driver config (outputDir config path))
      (Ordinary env.driver config (outputDir config path)) cases
      (w.outside.opened config path) := by
    rw [hopened]
    exact along_of_mapM (f := reportedCase env config reporter path (outputDir config path))
      (fun _ _ _ _ => ordinary_of_reportedCase hr) (reportedCase_completes hr path) hcases
  have hran : ran.outside = (playCases env.driver config (path, cases) w.outside).2 :=
    (reportedCases_complete env config hr path hopened.symm hordinary).outside_eq hcases
  refine ⟨hroot, congrArg Prod.snd hdisk, hlaunched, hordinary, ?_⟩
  rw [← hran]
  exact hclosed

/-- A run with a result has been smooth. -/
theorem runSmooth_of_runCompiled (hr : reporter.Writes noted printed) {pattern : String}
    {scripts : List Compiled} {r : RunResult}
    (h : runCompiled env config pattern reporter scripts w = (.ok r, v)) :
    RunSmooth env.driver config scripts w.outside := by
  obtain ⟨start, ticked, started, results, ran, stopped, stop, hnow, hstart, hscripts, hstop, -⟩ :=
    runCompiled_eq_ok h
  obtain ⟨-, rfl⟩ := Prod.mk.inj hnow
  obtain ⟨hstarted, rfl⟩ := reply_of_request hstart
  obtain ⟨hstopped, -⟩ := reply_of_request hstop
  have heach := along_of_mapM (g := playScript env.driver config) (P := Smooth env.driver config)
    (fun _ _ _ _ => smooth_of_runScript hr) (runScript_completes env hr) hscripts
  have hran := (mapM_completes (runScript_completes env hr) heach).outside_eq hscripts
  refine ⟨hstarted, heach, ?_⟩
  change env.driver.reply ran.outside.trace .stop = .done at hstopped
  rw [hran] at hstopped
  exact hstopped

/-! ### Compiling -/

theorem tested_of_compileScript {path : Path} {c : Compiled}
    (h : compileScript true path w = (.ok c, v)) : c.2 ≠ [] := by
  have hget : (get : Run RunFailure World) w = (.ok w, w) := rfl
  unfold compileScript at h
  rw [bind_apply_of_ok hget] at h
  obtain ⟨cases, mid, -, h⟩ := bind_apply_eq_ok h
  cases cases with
  | nil => cases (Prod.mk.inj h).1
  | cons tc cases =>
    rw [← Except.ok.inj (Prod.mk.inj h).1]
    exact List.cons_ne_nil _ _

theorem compileScripts_eq_ok {requireTests : Bool} {paths : List Path} {scripts : List Compiled}
    (h : paths.mapM (compileScript requireTests) w = (.ok scripts, v)) :
    scripts.map (·.1) = paths ∧ (∀ c ∈ scripts, compileFile w.disk c.1 = .ok c.2) ∧
      (requireTests = true → ∀ c ∈ scripts, c.2 ≠ []) := by
  induction paths generalizing w scripts v with
  | nil =>
    obtain ⟨hnil, -⟩ := Prod.mk.inj h
    rw [← Except.ok.inj hnil]
    simp
  | cons path paths ih =>
    rw [List.mapM_cons] at h
    obtain ⟨c, mid, hc, h⟩ := bind_apply_eq_ok h
    obtain ⟨cs, mid', hcs, h⟩ := bind_apply_eq_ok h
    obtain ⟨hcons, -⟩ := Prod.mk.inj h
    obtain ⟨rfl, hfile⟩ := compileFile_of_compileScript hc
    obtain ⟨hpaths, hfiles, htests⟩ := ih hcs
    -- compiling has left the disk alone
    have hdisk : mid.disk = w.disk := by
      obtain ⟨log, hlog⟩ := onlyLogs_compileScript requireTests c.1 w
      rw [hc] at hlog
      exact (congrArg World.disk hlog :)
    rw [hdisk] at hfiles
    rw [← Except.ok.inj hcons]
    refine ⟨by rw [List.map_cons, hpaths], ?_, ?_⟩
    · intro c' hc'
      rcases List.mem_cons.mp hc' with rfl | hc'
      · exact hfile
      · exact hfiles c' hc'
    · intro hr c' hc'
      rcases List.mem_cons.mp hc' with rfl | hc'
      · rw [hr] at hc
        exact tested_of_compileScript hc
      · exact htests hr c' hc'

/-- What has been compiled are the scripts of the pattern. -/
theorem compiles_of_compileMatching {pattern : String} {requireTests : Bool}
    {scripts : List Compiled} (h : compileMatching pattern requireTests w = (.ok scripts, v)) :
    Compiles w.disk pattern requireTests scripts := by
  have hget : (get : Run RunFailure World) w = (.ok w, w) := rfl
  unfold compileMatching at h
  rw [bind_apply_of_ok hget] at h
  obtain ⟨paths, mid, hpaths, h⟩ := bind_apply_eq_ok h
  obtain ⟨hfound, rfl⟩ := Prod.mk.inj hpaths
  obtain ⟨hscripts, hfiles, htests⟩ := compileScripts_eq_ok h
  exact ⟨by rw [hscripts]; exact hfound, hfiles, htests⟩

theorem Compiles.compileMatching_eq {pattern : String} {requireTests : Bool}
    {scripts : List Compiled} (h : Compiles w.disk pattern requireTests scripts) :
    (compileMatching pattern requireTests w).1 = .ok scripts := by
  obtain ⟨log, hw⟩ := Compiles.yields (o := w.outside) h w rfl
  rw [hw]

/-- A pattern has one list of compiled scripts at most. -/
theorem Compiles.unique {d : Disk} {pattern : String} {requireTests : Bool}
    {scripts scripts' : List Compiled} (h : Compiles d pattern requireTests scripts)
    (h' : Compiles d pattern requireTests scripts') : scripts = scripts' := by
  have hfirst := Compiles.compileMatching_eq (w := { disk := d }) h
  have hsecond := Compiles.compileMatching_eq (w := { disk := d }) h'
  exact Except.ok.inj (hfirst.symm.trans hsecond)

theorem Compiles.of_tested {d : Disk} {pattern : String} {scripts : List Compiled}
    (h : Compiles d pattern true scripts) : Compiles d pattern false scripts :=
  ⟨h.found, h.compiled, nofun⟩

/-! ### The course of a run -/

/-- **How an unbroken run goes.**  Either the scripts of the pattern compile, and the run goes
smoothly through all of them; or they do not, and the run says why and has written nothing but lines
of the log. -/
theorem Unbroken.course (hr : reporter.Writes noted printed) {pattern : String}
    {requireTests : Bool}
    (h : Unbroken (runMatching env config pattern reporter requireTests) w) :
    (∃ scripts, Compiles w.disk pattern requireTests scripts ∧
      RunSmooth env.driver config scripts w.outside) ∨
    (¬ ∃ scripts, Compiles w.disk pattern requireTests scripts) ∧
      ∃ e log, (∀ f, e ≠ .fault f) ∧
        runMatching env config pattern reporter requireTests w =
          (.error e, { w with log := log }) := by
  obtain ⟨log, hlog⟩ := onlyLogs_compileMatching pattern requireTests w
  cases hc : compileMatching pattern requireTests w with
  | mk r mid =>
    rw [hc] at hlog
    obtain rfl : mid = { w with log := log } := hlog
    unfold Unbroken at h
    rw [runMatching_eq] at h ⊢
    cases r with
    | ok scripts =>
      rw [bind_apply_of_ok hc] at h
      obtain ⟨result, v, hresult⟩ :=
        Unbroken.exists_ok h (onlyFaults_runCompiled hr pattern scripts)
      have hsmooth := runSmooth_of_runCompiled hr hresult
      exact .inl ⟨scripts, compiles_of_compileMatching hc, hsmooth⟩
    | error e =>
      rw [bind_apply_of_error hc] at h ⊢
      refine .inr ⟨?_, e, log, fun f hf => h f (by rw [hf]), rfl⟩
      rintro ⟨scripts, hcompiles⟩
      have hok := hcompiles.compileMatching_eq
      rw [hc] at hok
      cases hok

theorem unbroken_of_ok {x : Run RunFailure α} {a : α} (h : x w = (.ok a, v)) : Unbroken x w := by
  intro f hf
  rw [h] at hf
  cases hf

/-- Whether a run is broken off does not depend on who is told of it. -/
theorem unbroken_of_smooth (hr : reporter.Writes noted printed) {pattern : String}
    {requireTests : Bool} {scripts : List Compiled}
    (hc : Compiles w.disk pattern requireTests scripts)
    (h : RunSmooth env.driver config scripts w.outside) :
    Unbroken (runMatching env config pattern reporter requireTests) w := by
  obtain ⟨result, v, hresult, -⟩ := runMatching_completes env hr hc h
  exact unbroken_of_ok hresult

/-- A run with a result has been smooth, the result is complete and has been told of. -/
theorem course_of_result (hr : reporter.Writes noted printed) {pattern : String}
    {requireTests : Bool} {result : RunResult}
    (h : runMatching env config pattern reporter requireTests w = (.ok result, v)) :
    ∃ scripts, Compiles w.disk pattern requireTests scripts ∧
      Complete config scripts (playRun env.driver config scripts w.outside).1 result ∧
      Tells noted printed (occasions scripts result.scripts) w v := by
  rcases (unbroken_of_ok h).course hr with ⟨scripts, hc, hsmooth⟩ | ⟨-, e, log, -, hrefused⟩
  · obtain ⟨result', u, hresult, -, ⟨-, hcomplete⟩, htold⟩ :=
      runMatching_completes env hr hc hsmooth
    rw [h] at hresult
    obtain ⟨hsame, rfl⟩ := Prod.mk.inj hresult
    obtain rfl := Except.ok.inj hsame
    exact ⟨scripts, hc, hcomplete, htold⟩
  · rw [h] at hrefused
    cases (Prod.mk.inj hrefused).1

end PageDiff.Run
