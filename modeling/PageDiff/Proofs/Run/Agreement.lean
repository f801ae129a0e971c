import PageDiff.Proofs.Run.Completion

/-!
# Two ways to run all test cases

A run goes through scripts and closes each browser when its script is done; a session is given one
test case after the other and finds out by itself when the script has changed.  `Between` relates a
session to the run at the end of a script: the session has still to close its last browser, or has
not even been started.  Main statement (`session_agrees`): when no script comes twice and none is
empty, both make the same calls to the browser, leave the same disk, and agree on every test case.
-/

namespace PageDiff.Run

open PageDiff.Browser PageDiff.Script

variable {α β : Type}

/-! ### Sessions and what is outside -/

namespace WithSession

/-- With a session and with `o` outside, a computation ends with `r`, with the session `s'` and with
`o'` outside.  Besides it only writes to the log. -/
def Gives (x : WithSession α) (s : Session) (o : Outside) (r : Except CaseFailure α)
    (s' : Session) (o' : Outside) : Prop :=
  ∀ w : World, w.outside = o → ∃ log, x s w = ((r, s'), w.after o' log)

variable {s s' s'' : Session} {o o' o'' : Outside}

theorem gives_pure (a : α) : Gives (pure a) s o (.ok a) s o := by
  rintro w rfl
  exact ⟨w.log, rfl⟩

theorem Gives.bind {x : WithSession α} {f : α → WithSession β} {a : α} {r : Except CaseFailure β}
    (hx : Gives x s o (.ok a) s' o') (hf : Gives (f a) s' o' r s'' o'') :
    Gives (x >>= f) s o r s'' o'' := by
  intro w hw
  obtain ⟨log, hx⟩ := hx w hw
  obtain ⟨log', hf⟩ := hf (w.after o' log) rfl
  exact ⟨log', by rw [session_bind_of_ok hx, hf, World.after_after]⟩

theorem Gives.bind_of_error {x : WithSession α} {f : α → WithSession β} {e : CaseFailure}
    (hx : Gives x s o (.error e) s' o') : Gives (x >>= f) s o (.error e) s' o' := by
  intro w hw
  obtain ⟨log, hx⟩ := hx w hw
  exact ⟨log, session_bind_of_error hx⟩

theorem gives_lift {x : Run CaseFailure α} {r : Except CaseFailure α} (h : Run.Yields x o r o') :
    Gives (lift x) s o r s o' := by
  intro w hw
  obtain ⟨log, hx⟩ := h w hw
  exact ⟨log, by rw [lift, hx]⟩

theorem gives_session : Gives session s o (.ok s) s o := by
  rintro w rfl
  exact ⟨w.log, rfl⟩

theorem gives_update (f : Session → Session) : Gives (update f) s o (.ok ()) (f s) o := by
  rintro w rfl
  exact ⟨w.log, rfl⟩

end WithSession

namespace Session

open WithSession

variable {env : Environment} {config : Config} {script : Path} {s : Session} {o : Outside}

/-! ### What a session asks for -/

theorem gives_request {e : Event} (h : env.driver.reply o.trace e = .done) :
    Gives (request env e) s o (.ok ()) s (o.called e) :=
  gives_lift ((yields_callUnlimited h).mapError _)

theorem gives_request_refused {e : Event} (h : env.driver.reply o.trace e ≠ .done) :
    ∃ failure, Gives (request env e) s o (.error failure) s (o.called e) := by
  have hcall := (((yields_call env.driver e o).mapError _).mapError CaseFailure.fault :
    Yields ((callUnlimited env.driver e).mapError CaseFailure.fault) o _ _)
  cases hr : env.driver.reply o.trace e with
  | done => exact absurd hr h
  | fails f =>
    rw [hr] at hcall
    exact ⟨.fault f, gives_lift hcall⟩
  | hangs =>
    rw [hr] at hcall
    exact ⟨.fault .cancelled, gives_lift hcall⟩

theorem gives_ensureStarted (h : s.started = false) (hr : env.driver.reply o.trace .start = .done) :
    Gives (ensureStarted env) s o (.ok ()) { s with started := true } (o.called .start) := by
  refine gives_session.bind ?_
  rw [h]
  exact (gives_request hr).bind (gives_update _)

theorem gives_ensureStarted_of_started (h : s.started = true) :
    Gives (ensureStarted env) s o (.ok ()) s o := by
  refine gives_session.bind ?_
  rw [h]
  exact gives_pure ()

theorem gives_closeBrowser (h : s.browserOpen = true)
    (hr : env.driver.reply o.trace .closeBrowser = .done) :
    Gives (closeBrowser env) s o (.ok ()) { s with browserOpen := false }
      (o.called .closeBrowser) := by
  refine gives_session.bind ?_
  rw [if_pos h]
  exact (gives_request hr).bind (gives_update _)

theorem gives_closeBrowser_of_closed (h : s.browserOpen = false) :
    Gives (closeBrowser env) s o (.ok ()) s o := by
  refine gives_session.bind ?_
  rw [if_neg (by simp [h])]
  exact gives_pure ()

theorem gives_ensureOutDir {d : Disk} (h : s.outDirs.lookup script = none)
    (hroot : Path.unencodable? config.outputRoot = none)
    (hd : o.disk.freshDirectory (outputDir config script) = (d, .ok ())) :
    Gives (ensureOutDir config script) s o (.ok (outputDir config script))
      { s with outDirs := (script, outputDir config script) :: s.outDirs } ⟨d, o.trace⟩ := by
  refine gives_session.bind ?_
  rw [h]
  have hfresh := (yields_freshOutputDir hroot hd).mapError CaseFailure.fault
  exact (gives_lift hfresh).bind ((gives_update _).bind (gives_pure _))

theorem gives_ensureOutDir_of_prepared {out : Path} (h : s.outDirs.lookup script = some out) :
    Gives (ensureOutDir config script) s o (.ok out) s o := by
  refine gives_session.bind ?_
  rw [h]
  exact gives_pure out

/-! ### Within a script -/

/-- A session whose browser is open for a script, with the directory of the script prepared. -/
structure Serving (config : Config) (script : Path) (s : Session) : Prop where
  started : s.started = true
  browserOpen : s.browserOpen = true
  serves : s.script = some script
  outDir : s.outDirs.lookup script = some (outputDir config script)

/-- What a session does before it runs a test case. -/
def prepare (env : Environment) (config : Config) (script : Path) : WithSession Path := do
  ensureStarted env
  ensureBrowser env config script
  ensureOutDir config script

/-- A session that serves the script already has nothing to prepare. -/
theorem Serving.gives_prepare (h : Serving config script s) :
    Gives (prepare env config script) s o (.ok (outputDir config script)) s o := by
  have hbrowser : Gives (ensureBrowser env config script) s o (.ok ()) s o := by
    refine gives_session.bind ?_
    rw [h.browserOpen, h.serves, if_pos (by simp)]
    exact gives_pure ()
  exact (gives_ensureStarted_of_started h.started).bind
    (hbrowser.bind (gives_ensureOutDir_of_prepared h.outDir))

theorem run_eq (c : ScriptedCase) : run env config c = prepare env config c.script >>= fun out =>
    lift (comparePages env.driver config out c.testCase) := by
  simp only [run, prepare, bind_assoc]

/-- A test case ends in a session as it ends in a run that is as far. -/
theorem gives_run {tc : TestCase} {s' : Session} {o' : Outside}
    (h : Gives (prepare env config script) s o (.ok (outputDir config script)) s' o') :
    Gives (run env config ⟨script, tc⟩) s o
      (playCase env.driver config (outputDir config script) tc o').1.2 s'
      (playCase env.driver config (outputDir config script) tc o').2 := by
  have hcase := (outward_comparePages env.driver config (outputDir config script) tc).yields
    (o := o')
  rw [run_eq]
  exact h.bind (gives_lift hcase)

theorem runAll_cons (c : ScriptedCase) (cs : List ScriptedCase) (s : Session) (w : World) :
    runAll env config (c :: cs) s w =
      let p := run env config c s w
      let q := runAll env config cs p.1.2 p.2
      (((c.id, p.1.1) :: q.1.1, q.1.2), q.2) := rfl

theorem runAll_append (xs ys : List ScriptedCase) (s : Session) (w : World) :
    runAll env config (xs ++ ys) s w =
      let p := runAll env config xs s w
      let q := runAll env config ys p.1.2 p.2
      ((p.1.1 ++ q.1.1, q.1.2), q.2) := by
  induction xs generalizing s w with
  | nil => rfl
  | cons x xs ih =>
    simp only [List.cons_append, runAll_cons, ih]

/-- With a session and with `o` outside, test cases are run one after the other, whatever becomes of
each of them. -/
def RunsAll (env : Environment) (config : Config) (cs : List ScriptedCase) (s : Session)
    (o : Outside) (ended : List (String × Ended)) (s' : Session) (o' : Outside) : Prop :=
  ∀ w : World, w.outside = o → ∃ log, runAll env config cs s w = ((ended, s'), w.after o' log)

theorem runsAll_nil : RunsAll env config [] s o [] s o := by
  rintro w rfl
  exact ⟨w.log, rfl⟩

theorem RunsAll.cons {c : ScriptedCase} {cs : List ScriptedCase} {r : Ended}
    {rest : List (String × Ended)} {s₁ s₂ : Session} {o₁ o₂ : Outside}
    (h : Gives (run env config c) s o r s₁ o₁) (hrest : RunsAll env config cs s₁ o₁ rest s₂ o₂) :
    RunsAll env config (c :: cs) s o ((c.id, r) :: rest) s₂ o₂ := by
  intro w hw
  obtain ⟨log, hrun⟩ := h w hw
  obtain ⟨log', hall⟩ := hrest (w.after o₁ log) rfl
  refine ⟨log', ?_⟩
  rw [runAll_cons, hrun]
  simp only
  rw [hall, World.after_after]

theorem RunsAll.append {xs ys : List ScriptedCase} {ended ended' : List (String × Ended)}
    {s₁ s₂ : Session} {o₁ o₂ : Outside} (h : RunsAll env config xs s o ended s₁ o₁)
    (h' : RunsAll env config ys s₁ o₁ ended' s₂ o₂) :
    RunsAll env config (xs ++ ys) s o (ended ++ ended') s₂ o₂ := by
  intro w hw
  obtain ⟨log, hxs⟩ := h w hw
  obtain ⟨log', hys⟩ := h' (w.after o₁ log) rfl
  refine ⟨log', ?_⟩
  rw [runAll_append, hxs]
  simp only
  rw [hys, World.after_after]

/-- What a session says of the test cases of a script. -/
def endings (played : Played) : List (String × Ended) :=
  played.2.map fun c => (ScriptedCase.id ⟨played.1, c.1⟩, c.2)

/-- The test cases of a script that is served already. -/
theorem Serving.runsAll (h : Serving config script s) (cases : List TestCase) :
    RunsAll env config (cases.map (⟨script, ·⟩)) s o
      (endings (script, ((cases.mapM (playCase env.driver config (outputDir config script))) o).1))
      s ((cases.mapM (playCase env.driver config (outputDir config script))) o).2 := by
  induction cases generalizing o with
  | nil => exact runsAll_nil
  | cons tc cases ih =>
    rw [mapM_cons_apply]
    exact RunsAll.cons (gives_run h.gives_prepare) ih

/-! ### From script to script -/

/-- A session at the end of the scripts `done` of a run, and what is outside then for the session
and for the run.  The session closes its browser later, and it starts later. -/
inductive Between (driver : Driver) (config : Config) (done : List Path) :
    Session → Outside → Outside → Prop
  | unstarted {o : Outside} (first : done = []) (started : driver.reply o.trace .start = .done) :
      Between driver config done {} o (o.called .start)
  | serving {s : Session} {script : Path} {o : Outside} (serving : Serving config script s)
      (last : script ∈ done) (known : ∀ e ∈ s.outDirs, e.1 ∈ done)
      (closed : driver.reply o.trace .closeBrowser = .done) :
      Between driver config done s o (o.called .closeBrowser)

variable {done : List Path} {oRun : Outside}

/-- A session turns to the next script: it calls what the run has called already, and then both open
the script. -/
theorem Between.gives_prepare (h : Between env.driver config done s o oRun) (hnew : script ∉ done)
    (hroot : Path.unencodable? config.outputRoot = none)
    (hdir : ∃ d, oRun.disk.freshDirectory (outputDir config script) = (d, .ok ()))
    (hlaunch : env.driver.reply oRun.trace (launchEvent config) = .done) :
    ∃ s', Gives (prepare env config script) s o (.ok (outputDir config script)) s'
        (oRun.opened config script) ∧
      Serving config script s' ∧ ∀ e ∈ s'.outDirs, e.1 ∈ script :: done := by
  obtain ⟨d, hd⟩ := hdir
  rw [opened_eq hd]
  cases h with
  | unstarted first started =>
    refine ⟨⟨true, true, some script, [(script, outputDir config script)]⟩, ?_,
      ⟨rfl, rfl, rfl, List.lookup_cons_self⟩, by simp⟩
    have hbrowser : Gives (ensureBrowser env config script) { started := true }
        (o.called .start) (.ok ()) ⟨true, true, some script, []⟩
        ((o.called .start).called (launchEvent config)) := by
      refine gives_session.bind ?_
      exact (gives_closeBrowser_of_closed rfl).bind
        ((gives_request hlaunch).bind (gives_update _))
    exact (gives_ensureStarted rfl started).bind (hbrowser.bind
      (gives_ensureOutDir rfl hroot hd))
  | @serving _ last _ serving hlast known closed =>
    -- the browser that is open is one of an earlier script, and so are the prepared directories
    have hother : ¬ (s.browserOpen && s.script == some script) = true := by
      have hne : last ≠ script := fun heq => hnew (heq ▸ hlast)
      simp [serving.serves, hne]
    have hlookup : s.outDirs.lookup script = none := by
      rw [List.lookup_eq_none_iff]
      intro e he
      have hne : e.1 ≠ script := fun heq => hnew (heq ▸ known e he)
      simpa using hne.symm
    refine ⟨⟨s.started, true, some script, (script, outputDir config script) :: s.outDirs⟩, ?_,
      ⟨serving.started, rfl, rfl, List.lookup_cons_self⟩, ?_⟩
    · have hbrowser : Gives (ensureBrowser env config script) s o (.ok ())
          ⟨s.started, true, some script, s.outDirs⟩
          ((o.called .closeBrowser).called (launchEvent config)) := by
        refine gives_session.bind ?_
        rw [if_neg hother]
        exact (gives_closeBrowser serving.browserOpen closed).bind
          ((gives_request hlaunch).bind (gives_update _))
      exact (gives_ensureStarted_of_started serving.started).bind (hbrowser.bind
        (gives_ensureOutDir hlookup hroot hd))
    · intro e he
      rcases List.mem_cons.mp he with rfl | he
      · exact List.mem_cons_self
      · exact List.mem_cons_of_mem _ (known e he)

/-- All test cases of a script, the first of which opens it. -/
theorem Between.runsAll_script (h : Between env.driver config done s o oRun) {c : Compiled}
    (hnew : c.1 ∉ done) (htests : c.2 ≠ []) (smooth : Smooth env.driver config c oRun) :
    ∃ s' o', RunsAll env config (c.2.map (⟨c.1, ·⟩)) s o
        (endings (playScript env.driver config c oRun).1) s' o' ∧
      Between env.driver config (c.1 :: done) s' o' (playScript env.driver config c oRun).2 := by
  obtain ⟨path, cases⟩ := c
  obtain ⟨tc, rest, rfl⟩ := List.exists_cons_of_ne_nil htests
  obtain ⟨s', hprepare, hserving, hknown⟩ :=
    h.gives_prepare hnew smooth.rooted smooth.exists_disk smooth.launched
  refine ⟨s', (playCases env.driver config (path, tc :: rest) oRun).2, ?_,
    .serving hserving List.mem_cons_self hknown smooth.closed⟩
  change RunsAll _ _ (⟨path, tc⟩ :: rest.map (⟨path, ·⟩)) _ _
    (endings (path, (playCases env.driver config (path, tc :: rest) oRun).1)) _ _
  unfold playCases
  rw [mapM_cons_apply]
  exact RunsAll.cons (gives_run hprepare) (hserving.runsAll rest)

/-- All test cases of all scripts, none of which comes twice or is empty. -/
theorem Between.runsAll (h : Between env.driver config done s o oRun) {scripts : List Compiled}
    (hpaths : (scripts.map (·.1)).Nodup) (hnew : ∀ c ∈ scripts, c.1 ∉ done)
    (htests : ∀ c ∈ scripts, c.2 ≠ [])
    (smooth : Along (playScript env.driver config) (Smooth env.driver config) scripts oRun) :
    ∃ s' o', RunsAll env config (scripts.flatMap fun c => c.2.map (⟨c.1, ·⟩)) s o
        ((playAll env.driver config scripts oRun).1.flatMap endings) s' o' ∧
      Between env.driver config ((scripts.map (·.1)).reverse ++ done) s' o'
        (playAll env.driver config scripts oRun).2 := by
  unfold playAll
  induction scripts generalizing done s o oRun with
  | nil => exact ⟨s, o, runsAll_nil, h⟩
  | cons c scripts ih =>
    obtain ⟨hfirst, hrest⟩ := smooth
    rw [List.map_cons, List.nodup_cons] at hpaths
    obtain ⟨s₁, o₁, hc, hbetween⟩ :=
      h.runsAll_script (hnew c (by simp)) (htests c (by simp)) hfirst
    -- the script that is done now does not come again
    have hnew' : ∀ c' ∈ scripts, c'.1 ∉ c.1 :: done := by
      intro c' hc' hmem
      rcases List.mem_cons.mp hmem with heq | hmem
      · exact hpaths.1 (heq ▸ List.mem_map_of_mem hc')
      · exact hnew c' (by simp [hc']) hmem
    obtain ⟨s₂, o₂, hall, hend⟩ :=
      ih hbetween hpaths.2 hnew' (fun c' hc' => htests c' (by simp [hc'])) hrest
    refine ⟨s₂, o₂, ?_, ?_⟩
    · rw [mapM_cons_apply, List.flatMap_cons, List.flatMap_cons]
      exact hc.append hall
    · rw [mapM_cons_apply, List.map_cons, List.reverse_cons, List.append_assoc]
      exact hend

/-- The end of a session and the end of a run. -/
theorem Between.gives_close (h : Between env.driver config done s o oRun) (hdone : done ≠ [])
    (hstop : env.driver.reply oRun.trace .stop = .done) :
    ∃ s', Gives (close env) s o (.ok ()) s' (oRun.called .stop) := by
  cases h with
  | unstarted first started => exact absurd first hdone
  | serving serving last known closed =>
    refine ⟨⟨false, false, s.script, s.outDirs⟩,
      (gives_closeBrowser serving.browserOpen closed).bind (gives_session.bind ?_)⟩
    rw [if_pos serving.started]
    exact (gives_request hstop).bind (gives_update _)

end Session

/-! ### Verdicts -/

theorem codeKindName_head (code : OsCode) : code.kindName.toList.head? ≠ some 'c' := by
  cases code <;> decide

/-- The name of a kind of fault does not begin as the words for a missing picture do. -/
theorem kindName_head (f : Fault) : f.kindName.toList.head? ≠ some 'c' := by
  unfold Fault.kindName
  split <;> first | decide | exact codeKindName_head _

theorem captureMessage_ne_faultText (e : CaptureError) (f : Fault) :
    e.message ≠ s!"{f.kindName}: {f.message}" := by
  intro h
  have hhead := congrArg (fun text : String => text.toList.head?) h
  have hcapture : e.message.toList.head? = some 'c' := by
    simp [CaptureError.message, toString]
  have hfault : (s!"{f.kindName}: {f.message}").toList.head? =
      f.kindName.toList.head?.or (some ':') := by
    simp [toString, List.head?_append]
  simp only [hcapture, hfault] at hhead
  cases hk : f.kindName.toList.head? with
  | none => simp [hk] at hhead
  | some c =>
    rw [hk] at hhead
    exact kindName_head f (hk.trans hhead.symm)

/-- A test case that has ended in a session, and what a run has recorded of it. -/
structure Agrees (ended : Ended) (r : CaseResult) : Prop where
  passes : ended = .ok () ↔ r.result = "pass"
  differs : (∃ e, ended = .error (.mismatch e)) ↔ r.result = "fail"
  missing : (∃ e, ended = .error (.capture e)) ↔
    r.result = "error" ∧ ∃ e : CaptureError, r.failureReason = some e.message
  crashes : (∃ f, ended = .error (.fault f)) ↔
    r.result = "error" ∧ ∃ f : Fault, r.failureReason = some s!"{f.kindName}: {f.message}"
  told : (r.result, r.failureReason) = recorded ended

theorem Records.agrees {c : TestCase × Ended} {r : CaseResult} (h : Records c r) :
    Agrees c.2 r := by
  obtain ⟨tc, ended⟩ := c
  have hverdict := h.verdict
  obtain ⟨hresult, hreason⟩ := Prod.mk.inj hverdict
  cases ended with
  | ok u =>
    change r.result = "pass" at hresult
    refine ⟨?_, ?_, ?_, ?_, hverdict⟩ <;> simp [hresult]
  | error failure =>
    cases failure with
    | mismatch e =>
      change r.result = "fail" at hresult
      refine ⟨?_, ?_, ?_, ?_, hverdict⟩ <;> simp [hresult]
    | capture e =>
      change r.result = "error" at hresult
      change r.failureReason = some e.message at hreason
      refine ⟨?_, ?_, ?_, ?_, hverdict⟩
      · simp [hresult]
      · simp [hresult]
      · exact ⟨fun _ => ⟨hresult, e, hreason⟩, fun _ => ⟨e, rfl⟩⟩
      · simpa [hresult, hreason] using fun f => captureMessage_ne_faultText e f
    | fault f =>
      change r.result = "error" at hresult
      change r.failureReason = some s!"{f.kindName}: {f.message}" at hreason
      refine ⟨?_, ?_, ?_, ?_, hverdict⟩
      · simp [hresult]
      · simp [hresult]
      · simpa [hresult, hreason] using fun e => (captureMessage_ne_faultText e f).symm
      · exact ⟨fun _ => ⟨hresult, f, hreason⟩, fun _ => ⟨f, rfl⟩⟩

/-! ### Both ways together -/

/-- The test cases of scripts, in order. -/
def casesOf (scripts : List Compiled) : List ScriptedCase :=
  scripts.flatMap fun c => c.2.map (⟨c.1, ·⟩)

theorem yields_scriptedCases {pattern : String} {scripts : List Compiled} {o : Outside}
    (h : Compiles o.disk pattern false scripts) :
    Yields (scriptedCases pattern) o (.ok (casesOf scripts)) o :=
  h.yields.bind (yields_pure _)

/-- A session says of every test case which one it is. -/
theorem endings_fst {scripts : List Compiled} {played : List Played}
    (h : played.map (fun s => (s.1, s.2.map (·.1))) = scripts) :
    (played.flatMap Session.endings).map (·.1) = (casesOf scripts).map (·.id) := by
  subst h
  induction played with
  | nil => rfl
  | cons s played ih =>
    rw [List.flatMap_cons, List.map_append, ih]
    simp [casesOf, Session.endings]

theorem endings_agree {config : Config} {played : List Played} {results : List ScriptResult}
    (h : List.Forall₂ (ScriptRecords config) played results) :
    List.Forall₂ (fun ended r => Agrees ended.2 r) (played.flatMap Session.endings)
      (results.flatMap (·.cases)) := by
  refine List.rel_flatMap h fun s r hs => ?_
  rw [Session.endings, List.forall₂_map_left_iff]
  exact hs.cases.imp fun _ _ hc => hc.agrees

theorem testNames_eq {config : Config} {scripts : List Compiled} {played : List Played}
    {result : RunResult} (h : Complete config scripts played result) :
    result.cases.map (·.testName) = (casesOf scripts).map (·.testCase.name) := by
  have hnames : result.cases.map (·.testName) = (played.flatMap (·.2)).map (·.1.name) := by
    rw [← List.forall₂_eq_eq_eq, List.forall₂_map_left_iff, List.forall₂_map_right_iff]
    exact (forall₂_records h.records).flip.imp fun _ _ hr => hr.testName
  rw [hnames, ← h.covers]
  simp [casesOf, List.map_flatMap, List.flatMap_map, Function.comp_def]

/-- **Both ways agree.**  Suppose that browsers can be launched and closed, directories can be
prepared and no test case is called off.  Then giving all test cases of a pattern to one session and
closing it makes the calls that a run of the pattern makes, leaves the disk that the run leaves, and
every test case ends in the session as the run records it. -/
theorem session_agrees (env : Environment) (config : Config) (pattern : String)
    (scripts : List Compiled) (w : World) (compiles : Compiles w.disk pattern true scripts)
    (once : (scripts.map (·.1)).Nodup)
    (smooth : RunSmooth env.driver config scripts w.outside) :
    ∃ result v, runMatching env config pattern .silent true w = (.ok result, v) ∧
      ∃ w₁ ended s w₂ s' w₃, scriptedCases pattern w = (.ok (casesOf scripts), w₁) ∧
        Session.runAll env config (casesOf scripts) {} w₁ = ((ended, s), w₂) ∧
        Session.close env s w₂ = ((.ok (), s'), w₃) ∧
        w₃.trace = v.trace ∧ w₃.disk = v.disk ∧
        ended.map (·.1) = (casesOf scripts).map (·.id) ∧
        result.cases.map (·.testName) = (casesOf scripts).map (·.testCase.name) ∧
        List.Forall₂ (fun e r => Agrees e.2 r) ended result.cases := by
  obtain ⟨result, v, hrun, hv, ⟨-, hcomplete⟩, -⟩ :=
    runMatching_completes env silent_writes compiles smooth
  have hcases : Compiles w.outside.disk pattern false scripts :=
    ⟨compiles.found, compiles.compiled, by simp⟩
  obtain ⟨log₁, h₁⟩ := yields_scriptedCases hcases w rfl
  have hstart : Session.Between env.driver config [] {} w.outside (w.outside.called .start) :=
    .unstarted rfl smooth.started
  obtain ⟨s, o, hall, hbetween⟩ := hstart.runsAll once (by simp) (compiles.tested rfl) smooth.each
  have hne : (scripts.map (·.1)).reverse ++ [] ≠ [] := by simp [compiles.ne_nil]
  obtain ⟨s', hclose⟩ := hbetween.gives_close hne smooth.stopped
  obtain ⟨log₂, h₂⟩ := hall (w.after w.outside log₁) rfl
  obtain ⟨log₃, h₃⟩ := hclose ((w.after w.outside log₁).after o log₂) rfl
  refine ⟨result, v, hrun, _, _, s, _, s', _, h₁, h₂, h₃, ?_, ?_, ?_, testNames_eq hcomplete, ?_⟩
  · exact (congrArg Outside.trace hv).symm
  · exact (congrArg Outside.disk hv).symm
  · exact endings_fst hcomplete.covers
  · exact endings_agree hcomplete.records

/-- Two scripts with a test case each: the session changes its browser between them. -/
theorem session_agrees_sideBySide :
    (casesOf sideBySideScripts).map (·.id) = ["x.txt::/1", "y.txt::/2"] ∧
    ∃ result v, runMatching sampleEnv sampleConfig "?.txt" .silent true sideBySide =
        (.ok result, v) ∧
      ∃ w₁ ended s w₂ s' w₃,
        scriptedCases "?.txt" sideBySide = (.ok (casesOf sideBySideScripts), w₁) ∧
        Session.runAll sampleEnv sampleConfig (casesOf sideBySideScripts) {} w₁ =
          ((ended, s), w₂) ∧
        Session.close sampleEnv s w₂ = ((.ok (), s'), w₃) ∧
        w₃.trace = v.trace ∧ w₃.disk = v.disk ∧
        ended.map (·.1) = (casesOf sideBySideScripts).map (·.id) ∧
        result.cases.map (·.testName) = (casesOf sideBySideScripts).map (·.testCase.name) ∧
        List.Forall₂ (fun e r => Agrees e.2 r) ended result.cases :=
  ⟨by decide +kernel, session_agrees sampleEnv sampleConfig "?.txt" sideBySideScripts sideBySide
    compiles_sideBySide (by decide +kernel) smooth_sideBySide⟩

end PageDiff.Run
