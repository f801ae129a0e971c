import PageDiff.Proofs.Run.Evidence
import PageDiff.Proofs.Run.Ledger

/-!
# Browsers of a run

A run launches a browser for every script whose directory it has prepared, calls pages in it and
closes it before it turns to the next script or stops.  `ScriptCalls` says what is called for one
script; it keeps the calls of the run tidy, so all scripts do.  Main statement
(`run_closes_browsers`): however a run ends, every launched browser has been told to close once, at
no moment two had still to be told, and after a failure nothing but the stop of the driver follows.
-/

namespace PageDiff.Run

open PageDiff.Browser PageDiff.Script

variable {ε α β : Type} {env : Environment} {config : Config} {reporter : Reporter}

/-! ### The calls of a script -/

/-- What is called for a script: nothing if its directory can not be prepared, the launch alone if
no browser comes of it, and otherwise pages between the launch and the close of the browser. -/
inductive ScriptCalls (driver : Driver) (config : Config) (past : List Event) : List Event → Prop
  | unprepared : ScriptCalls driver config past []
  | refused (launch : driver.reply past (launchEvent config) ≠ .done) :
      ScriptCalls driver config past [launchEvent config]
  | served {pages : List Event} (launch : driver.reply past (launchEvent config) = .done)
      (calls : ∀ e ∈ pages, IsPageCall e) :
      ScriptCalls driver config past (launchEvent config :: pages ++ [.closeBrowser])

theorem sameCalls_freshOutputDir (config : Config) (script : Path) :
    Carries SameCalls (freshOutputDir config script) := by
  unfold freshOutputDir
  cases Path.unencodable? config.outputRoot with
  | some e => exact carries_throw _
  | none => exact ((sameCalls_onDisk _).mapError _).bind fun _ => carries_pure _

/-- The cases of a script call pages, and nothing else. -/
theorem carries_reportedCases (hr : reporter.Carries SameCalls) (script outDir : Path)
    (cases : List TestCase) : Carries (Adds IsPageCall)
      (cases.mapM (reportedCase env config reporter script outDir)) :=
  carries_mapM fun tc _ => sees_adds.ignoresLog.reportedCase (hr.mono fun _ _ h => h.adds) script
    (carries_comparePages env.driver config outDir tc)

/-- The call that cleans up follows what has been called, however that has ended. -/
theorem trace_cleanedUp {x : Run ε α} {y : Run ε Unit} {e : Event}
    (hy : ∀ w, (y w).2.trace = w.trace ++ [e]) (w : World) :
    ((x.cleanedUp y) w).2.trace = (x w).2.trace ++ [e] := by
  unfold Run.cleanedUp
  cases hx : x w with
  | mk r v =>
    have hv := hy v
    simp only
    cases h : y v with
    | mk r' v' =>
      rw [h] at hv
      cases r' <;> exact hv

theorem trace_request (e : Event) (w : World) :
    ((callUnlimited env.driver e).mapError RunFailure.fault w).2.trace = w.trace ++ [e] := by
  rw [request_apply]
  rfl

theorem trace_bind_of_sameCalls {x : Run ε α} {f : α → Run ε β}
    (hf : ∀ a, Carries SameCalls (f a)) (w : World) : ((x >>= f) w).2.trace = (x w).2.trace := by
  cases hx : x w with
  | mk r v =>
    cases r with
    | ok a =>
      rw [bind_apply_of_ok hx]
      exact hf a v
    | error e => rw [bind_apply_of_error hx]

theorem runScript_calls (env : Environment) (config : Config) (hr : reporter.Carries SameCalls)
    (c : Compiled) (w : World) :
    ∃ calls, (runScript env config reporter c w).2.trace = w.trace ++ calls ∧
      ScriptCalls env.driver config w.trace calls := by
  obtain ⟨path, cases⟩ := c
  have hfresh := ((sameCalls_freshOutputDir config path).mapError RunFailure.fault) w
  unfold runScript
  simp only
  cases hf : (freshOutputDir config path).mapError RunFailure.fault w with
  | mk r v =>
    rw [hf] at hfresh
    change v.trace = w.trace at hfresh
    cases r with
    | error e =>
      rw [bind_apply_of_error hf]
      exact ⟨[], by rw [hfresh, List.append_nil], .unprepared⟩
    | ok outDir =>
      rw [bind_apply_of_ok hf]
      have hlaunch := request_apply env.driver (launchEvent config) RunFailure.fault v
      rw [hfresh] at hlaunch
      by_cases hreply : env.driver.reply w.trace (launchEvent config) = .done
      · rw [hreply] at hlaunch
        rw [bind_apply_of_ok hlaunch, trace_bind_of_sameCalls fun _ => carries_pure _,
          trace_cleanedUp (trace_request _)]
        have hcases : Carries (Adds IsPageCall)
            (cases.mapM (reportedCase env config reporter path outDir)) :=
          carries_reportedCases hr path outDir cases
        obtain ⟨pages, hpages, hcalls⟩ := hcases (v.called (launchEvent config))
        refine ⟨_, ?_, .served hreply hcalls⟩
        rw [hpages]
        simp [World.called, hfresh]
      · obtain ⟨f, hf⟩ := exists_granted_eq_error hreply
        rw [hf] at hlaunch
        rw [bind_apply_of_error hlaunch]
        exact ⟨[launchEvent config], by simp [World.called, hfresh], .refused hreply⟩

theorem sameCalls_compileMatching (pattern : String) (requireTests : Bool) :
    Carries SameCalls (compileMatching pattern requireTests) := by
  intro w
  obtain ⟨log, hw⟩ := onlyLogs_compileMatching pattern requireTests w
  rw [hw]
  rfl

/-! ### All scripts -/

variable {driver : Driver} {past trace calls : List Event}

/-- The calls of a script keep the calls of a run tidy. -/
theorem Tidy.script (h : Tidy driver past trace) (hc : ScriptCalls driver config trace calls) :
    Tidy driver past (trace ++ calls) := by
  cases hc with
  | unprepared => rwa [List.append_nil]
  | refused launch => exact h.refused launch
  | @served pages launch calls =>
    have hclosed := ((h.launched launch).pages calls).closed
    simpa using hclosed

/-- A world comes after another one with tidy calls. -/
def KeepsTidy (driver : Driver) (past : List Event) (w v : World) : Prop :=
  Tidy driver past w.trace → Tidy driver past v.trace

instance : IsPreorder World (KeepsTidy driver past) where
  refl _ := id
  trans _ _ _ h h' := h' ∘ h

theorem sees_keepsTidy : SeesOutside (KeepsTidy driver past) := by
  intro w v _ htrace h
  rwa [htrace]

theorem tidy_runScript (hr : reporter.Carries SameCalls) (past : List Event) (c : Compiled) :
    Carries (KeepsTidy env.driver past) (runScript env config reporter c) := by
  intro w htidy
  obtain ⟨calls, htrace, hcalls⟩ := runScript_calls _ _ hr c w
  rw [htrace]
  exact htidy.script hcalls

theorem tidy_start (past : List Event) :
    Carries (KeepsTidy driver past) (callUnlimited driver .start) := by
  intro w htidy
  rw [callUnlimited_apply]
  refine htidy.called ?_
  cases driver.reply w.trace .start <;> rfl

theorem tidy_stop (past : List Event) :
    Carries (KeepsTidy driver past) (callUnlimited driver .stop) := by
  intro w htidy
  rw [callUnlimited_apply]
  exact htidy.called rfl

/-! ### The calls of a run -/

/-- The beginning of a run, up to the turn of a script: the start, and the scripts before. -/
def throughScripts (env : Environment) (config : Config) (reporter : Reporter)
    (done : List Compiled) : Run RunFailure (List ScriptResult) := do
  let _ ← now env
  (callUnlimited env.driver .start).mapError RunFailure.fault
  done.mapM (runScript env config reporter)

theorem mapM_apply_of_error {f : α → Run ε β} {done rest : List α} {a : α} {bs : List β} {e : ε}
    {w u v : World} (hdone : done.mapM f w = (.ok bs, u)) (ha : f a u = (.error e, v)) :
    (done ++ a :: rest).mapM f w = (.error e, v) := by
  rw [List.mapM_append, bind_apply_of_ok hdone, List.mapM_cons]
  exact bind_apply_of_error (bind_apply_of_error ha)

/-- The world in which the driver has been told to start. -/
def begun (env : Environment) (w : World) : World :=
  ((now env : Run RunFailure _) w).2.called .start

/-- What follows the start of the driver. -/
theorem begin_apply (f : Number.Double → Run RunFailure α) {w : World}
    (h : env.driver.reply w.trace .start = .done) :
    (now env >>= fun t =>
      (callUnlimited env.driver .start).mapError RunFailure.fault >>= fun _ => f t) w =
      f (w.clock.add env.tick) (begun env w) := by
  have hnow : (now env : Run RunFailure _) w = (.ok (w.clock.add env.tick), _) := rfl
  rw [bind_apply_of_ok hnow]
  refine bind_apply_of_ok (a := ()) ?_
  rw [request_apply, h]
  rfl

/-- Nothing follows if the driver does not start. -/
theorem begin_refused (env : Environment) (w : World) (f : Number.Double → Run RunFailure α)
    (h : env.driver.reply w.trace .start ≠ .done) :
    ∃ e, (now env >>= fun t =>
      (callUnlimited env.driver .start).mapError RunFailure.fault >>= fun _ => f t) w =
      (.error e, begun env w) := by
  have hnow : (now env : Run RunFailure _) w = (.ok (w.clock.add env.tick), _) := rfl
  obtain ⟨fault, hfault⟩ := exists_granted_eq_error h
  refine ⟨.fault fault, ?_⟩
  rw [bind_apply_of_ok hnow]
  refine bind_apply_of_error ?_
  rw [request_apply, hfault]
  rfl

/-- Once the driver has been started all scripts are run, and then it is told to stop. -/
theorem trace_runCompiled {pattern : String} {scripts : List Compiled} {w : World}
    (h : env.driver.reply w.trace .start = .done) :
    (runCompiled env config pattern reporter scripts w).2.trace =
      (scripts.mapM (runScript env config reporter) (begun env w)).2.trace ++ [.stop] := by
  unfold runCompiled
  simp only
  have hlog : IgnoresLog SameCalls := sees_sameCalls.ignoresLog
  rw [begin_apply _ h, trace_bind_of_sameCalls fun _ => (hlog.now env).bind fun _ =>
    (hlog.logLine _ _).bind fun _ => carries_pure _, trace_cleanedUp (trace_request _)]

theorem tidy_runCompiled (hr : reporter.Carries SameCalls) {pattern : String}
    (scripts : List Compiled) (past : List Event) :
    Carries (KeepsTidy env.driver past) (runCompiled env config pattern reporter scripts) :=
  carries_runCompiled sees_keepsTidy.ignoresLog (tidy_start past) (tidy_stop past)
    fun c _ => tidy_runScript hr past c

/-- What becomes of the browsers of a run. -/
structure ClosesBrowsers (env : Environment) (config : Config) (reporter : Reporter)
    (scripts : List Compiled) (w v : World) : Prop where
  /-- At no moment more than one browser has still to be told to close. -/
  orderly : Orderly env.driver w.trace v.trace
  /-- In the end each one that has been launched has been told so once. -/
  settled : (ledger env.driver w.trace v.trace).Settled
  /-- Nothing is launched if the driver does not start. -/
  unstarted : env.driver.reply w.trace .start ≠ .done → v.trace = w.trace ++ [.start]
  /-- A script has its pages called between the launch and the close of its own browser, and if it
  ends the run, nothing but the stop of the driver follows. -/
  turn : ∀ done c rest results u r u', scripts = done ++ c :: rest →
    throughScripts env config reporter done w = (.ok results, u) →
    runScript env config reporter c u = (r, u') →
    (∃ calls, u'.trace = u.trace ++ calls ∧ ScriptCalls env.driver config u.trace calls) ∧
      ∀ e, r = .error e → v.trace = u'.trace ++ [.stop]

theorem runCompiled_closesBrowsers (hr : reporter.Carries SameCalls) (pattern : String)
    (scripts : List Compiled) (w : World) :
    ClosesBrowsers env config reporter scripts w
      (runCompiled env config pattern reporter scripts w).2 := by
  have htidy : Tidy env.driver w.trace
      (runCompiled env config pattern reporter scripts w).2.trace :=
    tidy_runCompiled hr scripts w.trace w tidy_self
  refine ⟨htidy.orderly, htidy.settled, fun hstart => ?_, ?_⟩
  · obtain ⟨e, h⟩ := begin_refused env w _ hstart
    unfold runCompiled
    simp only
    rw [h]
    rfl
  · rintro done c rest results u r u' rfl hdone hc
    have hcalls := runScript_calls env config hr c u
    rw [hc] at hcalls
    refine ⟨hcalls, ?_⟩
    rintro e rfl
    by_cases hstart : env.driver.reply w.trace .start = .done
    · rw [throughScripts, begin_apply (fun _ => done.mapM (runScript env config reporter)) hstart]
        at hdone
      rw [trace_runCompiled hstart, mapM_apply_of_error hdone hc]
    · obtain ⟨_, h⟩ := begin_refused env w
        (fun _ => done.mapM (runScript env config reporter)) hstart
      rw [throughScripts, h] at hdone
      cases hdone

theorem notes_sameCalls : Reporter.notes.Carries SameCalls := ⟨fun _ _ _ => rfl, fun _ _ _ => rfl⟩

/-- **Every browser is closed.**  Whatever scripts are run, however the browser behaves and whoever
is told of test cases, no browser is left open when the run ends, none is launched while another one
is open, and none after a failure.  A run of a pattern runs the compiled scripts, or calls
nothing. -/
theorem run_closes_browsers (env : Environment) (config : Config)
    (hr : reporter.Carries SameCalls) (pattern : String) :
    (∀ scripts w, ClosesBrowsers env config reporter scripts w
      (runCompiled env config pattern reporter scripts w).2) ∧
    ∀ requireTests w,
      (∃ e, (runMatching env config pattern reporter requireTests w).1 = .error e ∧
        (runMatching env config pattern reporter requireTests w).2.trace = w.trace) ∨
      ∃ scripts v, compileMatching pattern requireTests w = (.ok scripts, v) ∧
        v.trace = w.trace ∧ runMatching env config pattern reporter requireTests w =
          runCompiled env config pattern reporter scripts v := by
  refine ⟨runCompiled_closesBrowsers hr pattern, fun requireTests w => ?_⟩
  have hcalls := sameCalls_compileMatching pattern requireTests w
  rw [runMatching_eq]
  cases h : compileMatching pattern requireTests w with
  | mk r v =>
    rw [h] at hcalls
    cases r with
    | error e =>
      rw [bind_apply_of_error h]
      exact .inl ⟨e, rfl, hcalls⟩
    | ok scripts =>
      rw [bind_apply_of_ok h]
      exact .inr ⟨scripts, v, rfl, hcalls, rfl⟩

/-- The sample with a browser in which every visit of a page is called off. -/
def calledOff : Environment where
  driver :=
    { reply := fun _ e => match e with
        | .goto _ => .fails .cancelled
        | _ => .done
      picture := fun _ => .encoded black "" }
  caches := .ofString "caches"

/-- Two scripts, the first of which is called off: its browser is closed and the second one gets
none. -/
theorem run_closes_browsers_calledOff :
    let v := (runCompiled calledOff sampleConfig "?.txt" .notes sideBySideScripts sideBySide).2
    ledger calledOff.driver [] v.trace = ⟨1, 1, [1]⟩ ∧
      (ledger calledOff.driver sideBySide.trace v.trace).Settled ∧
      ∃ scripts u, compileMatching "?.txt" true sideBySide = (.ok scripts, u) ∧
        runMatching calledOff sampleConfig "?.txt" .notes true sideBySide =
          runCompiled calledOff sampleConfig "?.txt" .notes scripts u := by
  obtain ⟨hrun, hmatching⟩ :=
    run_closes_browsers calledOff sampleConfig notes_sameCalls "?.txt"
  refine ⟨by decide +kernel, (hrun sideBySideScripts sideBySide).settled, ?_⟩
  rcases hmatching true sideBySide with ⟨e, he, -⟩ | ⟨scripts, u, hcompiled, -, hu⟩
  · have hcompile := compileMatching_sideBySide true
    rw [runMatching_eq, bind_apply_of_ok hcompile] at he
    exact ⟨_, _, hcompile, by rw [runMatching_eq, bind_apply_of_ok hcompile]⟩
  · exact ⟨scripts, u, hcompiled, hu⟩

end PageDiff.Run
