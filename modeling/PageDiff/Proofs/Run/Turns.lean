import PageDiff.Proofs.Run.Agreement
import PageDiff.Proofs.Run.Lifecycle

/-!
# Browsers and directories of a session

A session is given test cases in any order, and any of them may fail where it asks for the driver, a
browser or a directory, or while pages are compared.  `Knows` says that what it remembers fits the
calls that have been made; every test case keeps that, however it ends.  Main statement
(`session_attentive`): the pages of a test case are compared in a browser that was launched for its
script, no script has its directory prepared twice, and nothing is left open when the session has
been closed.
-/

namespace PageDiff.Run

open PageDiff.Browser PageDiff.Script

variable {env : Environment} {config : Config} {script : Path} {driver : Driver}
  {past trace es : List Event} {s s' : Session}

namespace Session

open WithSession

/-! ### What a session knows -/

/-- What a session remembers fits the calls since those of `past`. -/
structure Knows (driver : Driver) (past : List Event) (s : Session) (trace : List Event) :
    Prop where
  starts : (ledger driver past trace).starts = s.started.toNat
  stops : (ledger driver past trace).stops = 0
  tidy : s.browserOpen = false → Tidy driver past trace
  attended : s.browserOpen = true → s.started = true ∧ ∃ n, Attended driver past n trace

theorem knows_init : Knows driver past {} past := by
  refine ⟨?_, ?_, fun _ => tidy_self, fun h => Bool.noConfusion h⟩
  · rw [ledger_self]
    rfl
  · rw [ledger_self]

theorem Knows.orderly (h : Knows driver past s trace) : Orderly driver past trace := by
  cases hb : s.browserOpen with
  | false => exact (h.tidy hb).orderly
  | true =>
    obtain ⟨-, n, hn⟩ := h.attended hb
    exact hn.orderly

/-- A call that the ledger has no entry for. -/
theorem Knows.unentered (h : Knows driver past s trace) {e : Event}
    (he : (ledger driver past trace).enter e (driver.reply trace e) = ledger driver past trace) :
    Knows driver past s (trace ++ [e]) := by
  have hledger : ledger driver past (trace ++ [e]) = ledger driver past trace := by
    rw [ledger_called h.orderly.since, he]
  have horderly : Orderly driver past (trace ++ [e]) := by
    refine h.orderly.called ?_
    rw [he]
    exact h.orderly.atMostOne trace h.orderly.since List.prefix_rfl
  refine ⟨?_, ?_, fun hb => ⟨horderly, ?_⟩, fun hb => ?_⟩
  · rw [hledger, h.starts]
  · rw [hledger, h.stops]
  · rw [hledger]
    exact (h.tidy hb).settled
  · obtain ⟨hs, n, hn⟩ := h.attended hb
    refine ⟨hs, n, horderly, ?_⟩
    rw [hledger]
    exact hn.attends

theorem Knows.pages (h : Knows driver past s trace) (hes : ∀ e ∈ es, IsPageCall e) :
    Knows driver past s (trace ++ es) := by
  induction es generalizing trace with
  | nil => rwa [List.append_nil]
  | cons e es ih =>
    rw [List.append_cons]
    refine ih (h.unentered ?_) fun e' he' => hes e' (by simp [he'])
    exact Ledger.enter_pageCall _ (hes e (by simp)) _

theorem Knows.started (h : Knows driver past s trace) (hs : s.started = false)
    (hr : driver.reply trace .start = .done) :
    Knows driver past { s with started := true } (trace ++ [.start]) := by
  refine ⟨?_, ?_, fun hb => (h.tidy hb).called ?_, fun hb => ?_⟩
  · rw [ledger_called h.orderly.since, hr]
    change (ledger driver past trace).starts + 1 = 1
    rw [h.starts, hs]
    rfl
  · rw [ledger_called h.orderly.since, hr]
    exact h.stops
  · rw [hr]
    rfl
  · have hstarted := (h.attended hb).1
    rw [hs] at hstarted
    cases hstarted

theorem Knows.start_refused (h : Knows driver past s trace)
    (hr : driver.reply trace .start ≠ .done) : Knows driver past s (trace ++ [.start]) := by
  refine h.unentered ?_
  cases hreply : driver.reply trace .start with
  | done => exact absurd hreply hr
  | fails f => rfl
  | hangs => rfl

theorem Knows.browser_closed (h : Knows driver past s trace) (hb : s.browserOpen = true) :
    Knows driver past { s with browserOpen := false } (trace ++ [.closeBrowser]) := by
  obtain ⟨-, n, hn⟩ := h.attended hb
  refine ⟨?_, ?_, fun _ => hn.closed, fun hopen => Bool.noConfusion hopen⟩
  · rw [ledger_called h.orderly.since]
    exact h.starts
  · rw [ledger_called h.orderly.since]
    exact h.stops

theorem Knows.launched (h : Knows driver past s trace) (hb : s.browserOpen = false)
    (hs : s.started = true) (hr : driver.reply trace (launchEvent config) = .done) :
    Knows driver past { s with browserOpen := true, script := some script }
      (trace ++ [launchEvent config]) := by
  refine ⟨?_, ?_, fun hclosed => Bool.noConfusion hclosed, fun _ => ?_⟩
  · rw [ledger_called h.orderly.since, hr]
    exact h.starts
  · rw [ledger_called h.orderly.since, hr]
    exact h.stops
  · exact ⟨hs, _, (h.tidy hb).launched hr⟩

/-! ### A browser for a script -/

/-- How many browsers have been launched since the calls of `past`. -/
def launches (driver : Driver) (past trace : List Event) : Nat :=
  (ledger driver past trace).browsers.length

/-- A browser is open for a script: one that was open for it before, or one that has been launched
after all others. -/
inductive Opened (driver : Driver) (past : List Event) (script : Path) (s : Session)
    (trace trace' : List Event) : Prop
  | kept (opened : s.browserOpen = true) (serves : s.script = some script) (calls : trace' = trace)
  | launched (attended : Attended driver past (launches driver past trace) trace')

/-- What comes of asking for the driver and for a browser. -/
structure Readied (driver : Driver) (past : List Event) (script : Path) (s : Session)
    (o : Outside) (r : Except CaseFailure Unit) (s' : Session) (o' : Outside) : Prop where
  knows : Knows driver past s' o'.trace
  outDirs : s'.outDirs = s.outDirs
  disk : o'.disk = o.disk
  opened : s'.browserOpen = true →
    s'.script = some script ∧ Opened driver past script s o.trace o'.trace
  succeeds : r = .ok () → s'.browserOpen = true

/-- A session without a browser asks for more after a call that launches nothing. -/
theorem Readied.after_call {e : Event} {s₁ : Session} {o o' : Outside} {r : Except CaseFailure Unit}
    (h : Readied driver past script s₁ (o.called e) r s' o') (hb : s₁.browserOpen = false)
    (hd : s₁.outDirs = s.outDirs)
    (hl : launches driver past (o.trace ++ [e]) = launches driver past o.trace) :
    Readied driver past script s o r s' o' := by
  refine ⟨h.knows, h.outDirs.trans hd, h.disk, fun hopen => ?_, h.succeeds⟩
  obtain ⟨hserves, hopened⟩ := h.opened hopen
  refine ⟨hserves, ?_⟩
  cases hopened with
  | kept opened =>
    rw [hb] at opened
    cases opened
  | launched attended =>
    change Attended driver past (launches driver past (o.trace ++ [e])) o'.trace at attended
    rw [hl] at attended
    exact .launched attended

/-- The driver and a browser for a script. -/
def ready (env : Environment) (config : Config) (script : Path) : WithSession Unit := do
  ensureStarted env
  ensureBrowser env config script

theorem prepare_eq : prepare env config script =
    ready env config script >>= fun _ => ensureOutDir config script := by
  simp only [prepare, ready, bind_assoc]

section Ready

variable {o : Outside}

/-- A browser is launched when none is open. -/
theorem exists_gives_launch (config : Config) (script : Path)
    (h : Knows env.driver past s o.trace) (hb : s.browserOpen = false) (hs : s.started = true) :
    ∃ r s' o', Gives (do
        request env (launchEvent config)
        update fun s => { s with browserOpen := true, script := some script }) s o r s' o' ∧
      Readied env.driver past script s o r s' o' := by
  by_cases hr : env.driver.reply o.trace (launchEvent config) = .done
  · exact ⟨_, _, _, (gives_request hr).bind (gives_update _), h.launched hb hs hr, rfl, rfl,
      fun _ => ⟨rfl, .launched ((h.tidy hb).launched hr)⟩, fun _ => rfl⟩
  · obtain ⟨failure, hgives⟩ := gives_request_refused hr
    refine ⟨_, _, _, hgives.bind_of_error, h.unentered ?_, rfl, rfl, fun hopen => ?_, nofun⟩
    · exact Ledger.enter_launch_of_ne _ hr config
    · rw [hb] at hopen
      cases hopen

variable (hclose : ∀ history, env.driver.reply history .closeBrowser = .done)
include hclose

theorem exists_gives_ensureBrowser (config : Config) (script : Path)
    (h : Knows env.driver past s o.trace) (hs : s.started = true) :
    ∃ r s' o', Gives (ensureBrowser env config script) s o r s' o' ∧
      Readied env.driver past script s o r s' o' := by
  by_cases hserves : (s.browserOpen && s.script == some script) = true
  · have hgives : Gives (ensureBrowser env config script) s o (.ok ()) s o := by
      refine gives_session.bind ?_
      rw [if_pos hserves]
      exact gives_pure ()
    obtain ⟨hopen, hscript⟩ := Bool.and_eq_true_iff.mp hserves
    have hserved : s.script = some script := by simpa using hscript
    exact ⟨_, _, _, hgives, h, rfl, rfl, fun _ => ⟨hserved, .kept hopen hserved rfl⟩,
      fun _ => hopen⟩
  · have hask : ∀ {r s' o'}, Gives (do
          closeBrowser env
          request env (launchEvent config)
          update fun s => { s with browserOpen := true, script := some script }) s o r s' o' →
        Gives (ensureBrowser env config script) s o r s' o' := by
      intro r s' o' hgives
      refine gives_session.bind ?_
      rwa [if_neg hserves]
    cases hb : s.browserOpen with
    | false =>
      obtain ⟨r, s', o', hgives, hready⟩ := exists_gives_launch config script h hb hs
      exact ⟨r, s', o', hask ((gives_closeBrowser_of_closed hb).bind hgives), hready⟩
    | true =>
      obtain ⟨r, s', o', hgives, hready⟩ := exists_gives_launch config script
        (o := o.called .closeBrowser) (h.browser_closed hb) rfl hs
      refine ⟨r, s', o', hask ((gives_closeBrowser hb (hclose _)).bind hgives),
        hready.after_call rfl rfl ?_⟩
      rw [launches, ledger_called h.orderly.since]
      exact List.length_modifyHead

theorem exists_gives_ready (config : Config) (script : Path) (h : Knows env.driver past s o.trace) :
    ∃ r s' o', Gives (ready env config script) s o r s' o' ∧
      Readied env.driver past script s o r s' o' := by
  cases hs : s.started with
  | true =>
    obtain ⟨r, s', o', hgives, hready⟩ := exists_gives_ensureBrowser hclose config script h hs
    exact ⟨r, s', o', (gives_ensureStarted_of_started hs).bind hgives, hready⟩
  | false =>
    -- a session that has not been started has no browser
    have hb : s.browserOpen = false := by
      cases hb : s.browserOpen with
      | false => rfl
      | true =>
        rw [(h.attended hb).1] at hs
        cases hs
    by_cases hr : env.driver.reply o.trace .start = .done
    · obtain ⟨r, s', o', hgives, hready⟩ := exists_gives_ensureBrowser hclose config script
        (o := o.called .start) (h.started hs hr) rfl
      refine ⟨r, s', o', (gives_ensureStarted hs hr).bind hgives, hready.after_call hb rfl ?_⟩
      rw [launches, ledger_called h.orderly.since, hr]
      rfl
    · obtain ⟨failure, hgives⟩ := gives_request_refused (s := s) hr
      refine ⟨.error failure, s, o.called .start, Gives.bind_of_error (gives_session.bind ?_),
        h.start_refused hr, rfl, rfl, fun hopen => ?_, nofun⟩
      · rw [hs]
        exact hgives.bind_of_error
      · rw [hb] at hopen
        cases hopen

end Ready

/-! ### A directory for a script -/

/-- The directory of a script has not been prepared yet, and it can be. -/
def Fresh (config : Config) (script : Path) (p : Session × World) : Prop :=
  p.1.outDirs.lookup script = none ∧ ∃ out v, freshOutputDir config script p.2 = (.ok out, v)

/-- What comes of asking for the directory of a script. -/
structure Provides (config : Config) (script : Path) (p : Session × World)
    (r : Except CaseFailure Path) (q : Session × World) : Prop where
  session : ∃ dirs, q.1 = { p.1 with outDirs := dirs }
  calls : q.2.trace = p.2.trace
  fresh : Fresh config script p → ∃ out, q.1.outDirs = (script, out) :: p.1.outDirs
  unchanged : ¬ Fresh config script p → q.1.outDirs = p.1.outDirs
  succeeds : ∀ out, r = .ok out → ∃ dir, q.1.outDirs.lookup script = some dir
  again : ∀ dir, p.1.outDirs.lookup script = some dir → q.2 = p.2

theorem sameCalls_fresh {w v : World} {r : Except Fault Path}
    (h : freshOutputDir config script w = (r, v)) : v.trace = w.trace := by
  have hcalls := sameCalls_freshOutputDir config script w
  rwa [h] at hcalls

theorem ensureOutDir_apply (config : Config) (script : Path) (s : Session) (w : World) :
    ∃ r q, ensureOutDir config script s w = ((r, q.1), q.2) ∧
      Provides config script (s, w) r q := by
  cases hl : s.outDirs.lookup script with
  | some dir =>
    have hstale : ¬ Fresh config script (s, w) := by
      rintro ⟨hnone, -⟩
      rw [hl] at hnone
      cases hnone
    exact ⟨.ok dir, (s, w), ensureOutDir_of_prepared hl w, ⟨_, rfl⟩, rfl,
      fun h => absurd h hstale,
      fun _ => rfl, fun _ _ => ⟨dir, hl⟩, fun _ _ => rfl⟩
  | none =>
    have hagain : ∀ {q : World} dir, s.outDirs.lookup script = some dir → q = w := by
      intro q dir hdir
      rw [hl] at hdir
      cases hdir
    cases hf : freshOutputDir config script w with
    | mk r v =>
      cases r with
      | ok out =>
        exact ⟨.ok out, (_, v), ensureOutDir_of_fresh hl hf, ⟨_, rfl⟩, sameCalls_fresh hf,
          fun _ => ⟨out, rfl⟩, fun h => absurd ⟨hl, out, v, hf⟩ h,
          fun _ _ => ⟨out, List.lookup_cons_self⟩, hagain⟩
      | error f =>
        have hfails : ¬ Fresh config script (s, w) := by
          rintro ⟨-, out, v', hok⟩
          rw [hf] at hok
          cases hok
        exact ⟨_, (s, v), ensureOutDir_of_failure hl hf, ⟨_, rfl⟩, sameCalls_fresh hf,
          fun h => absurd h hfails, fun _ => rfl, nofun, hagain⟩

/-! ### Preparing for a test case -/

/-- In the turn of a test case the directory of its script is prepared. -/
def PreparesDir (env : Environment) (config : Config) (script : Path) (p : Session × World) :
    Prop :=
  ∃ q : Session × World, ready env config script p.1 p.2 = ((.ok (), q.1), q.2) ∧
    Fresh config script q

theorem preparesDir_iff {p q : Session × World}
    (h : ready env config script p.1 p.2 = ((.ok (), q.1), q.2)) :
    PreparesDir env config script p ↔ Fresh config script q := by
  constructor
  · rintro ⟨⟨s, w⟩, hready, hfresh⟩
    rw [h] at hready
    obtain ⟨hs, hw⟩ := Prod.mk.inj hready
    rwa [← show q = (s, w) from Prod.ext (Prod.mk.inj hs).2 hw] at hfresh
  · exact fun hfresh => ⟨q, h, hfresh⟩

/-- What comes of preparing for a test case. -/
structure Prepares (env : Environment) (config : Config) (past : List Event) (script : Path)
    (p : Session × World) (r : Except CaseFailure Path) (q : Session × World) : Prop where
  knows : Knows env.driver past q.1 q.2.trace
  opened : q.1.browserOpen = true →
    q.1.script = some script ∧ Opened env.driver past script p.1 p.2.trace q.2.trace
  succeeds : ∀ out, r = .ok out →
    q.1.browserOpen = true ∧ ∃ dir, q.1.outDirs.lookup script = some dir
  first : PreparesDir env config script p → ∃ dir, q.1.outDirs = (script, dir) :: p.1.outDirs
  later : ¬ PreparesDir env config script p → q.1.outDirs = p.1.outDirs
  again : ∀ dir, p.1.outDirs.lookup script = some dir →
    ¬ PreparesDir env config script p ∧ q.2.disk = p.2.disk

theorem prepare_apply (config : Config) (script : Path)
    (hclose : ∀ history, env.driver.reply history .closeBrowser = .done)
    {w : World} (h : Knows env.driver past s w.trace) :
    ∃ r q, prepare env config script s w = ((r, q.1), q.2) ∧
      Prepares env config past script (s, w) r q := by
  obtain ⟨r, s₁, o₁, hgives, hready⟩ :=
    exists_gives_ready hclose config script (o := w.outside) h
  obtain ⟨log, hr⟩ := hgives w rfl
  have hdisk : (w.after o₁ log).disk = w.disk := hready.disk
  rw [prepare_eq]
  cases r with
  | error e =>
    have hnot : ¬ PreparesDir env config script (s, w) := by
      rintro ⟨q, hq, -⟩
      rw [hr] at hq
      cases hq
    exact ⟨.error e, (s₁, w.after o₁ log), session_bind_of_error hr, hready.knows, hready.opened,
      nofun, fun hp => absurd hp hnot, fun _ => hready.outDirs, fun _ _ => ⟨hnot, hdisk⟩⟩
  | ok u =>
    obtain ⟨r, ⟨s₂, v⟩, hdir, hprovides⟩ := ensureOutDir_apply config script s₁ (w.after o₁ log)
    have hcalls : v.trace = o₁.trace := hprovides.calls
    have hfirst := preparesDir_iff (p := (s, w)) (q := (s₁, w.after o₁ log)) hr
    obtain ⟨dirs, rfl⟩ := hprovides.session
    refine ⟨r, (_, v), (session_bind_of_ok hr).trans hdir, ?_, ?_, ?_, ?_, ?_, ?_⟩
    · rw [hcalls]
      exact ⟨hready.knows.starts, hready.knows.stops, hready.knows.tidy, hready.knows.attended⟩
    · rw [hcalls]
      exact hready.opened
    · exact fun out hout => ⟨hready.succeeds rfl, hprovides.succeeds out hout⟩
    · intro hp
      obtain ⟨out, hout⟩ := hprovides.fresh (hfirst.mp hp)
      exact ⟨out, hready.outDirs ▸ hout⟩
    · intro hp
      exact (hprovides.unchanged (mt hfirst.mpr hp)).trans hready.outDirs
    · intro dir hdir
      rw [← show s₁.outDirs = s.outDirs from hready.outDirs] at hdir
      refine ⟨fun hp => ?_, (congrArg World.disk (hprovides.again dir hdir)).trans hdisk⟩
      obtain ⟨hnone, -⟩ := hfirst.mp hp
      rw [hdir] at hnone
      cases hnone

/-! ### One test case -/

/-- What comes of a test case: what has been prepared for it, and then calls to pages. -/
theorem run_apply (config : Config)
    (hclose : ∀ history, env.driver.reply history .closeBrowser = .done)
    {w : World} (h : Knows env.driver past s w.trace) (c : ScriptedCase) :
    ∃ r q, prepare env config c.script s w = ((r, q.1), q.2) ∧
      Prepares env config past c.script (s, w) r q ∧
      ∃ r' v, run env config c s w = ((r', q.1), v) ∧ Adds IsPageCall q.2 v ∧
        ∀ out, r = .ok out → (r', v) = comparePages env.driver config out c.testCase q.2 := by
  obtain ⟨r, q, hprepare, hprepares⟩ :=
    prepare_apply config c.script hclose h
  refine ⟨r, q, hprepare, hprepares, ?_⟩
  rw [run_eq]
  cases r with
  | error e => exact ⟨.error e, q.2, session_bind_of_error hprepare, refl q.2, nofun⟩
  | ok out =>
    have hpages := carries_comparePages env.driver config out c.testCase q.2
    refine ⟨_, _, session_bind_of_ok hprepare, hpages, ?_⟩
    rintro _ ⟨rfl⟩
    rfl

theorem afterAll_concat (cs : List ScriptedCase) (c : ScriptedCase) (p : Session × World) :
    afterAll env config (cs ++ [c]) p =
      ((run env config c (afterAll env config cs p).1 (afterAll env config cs p).2).1.2,
        (run env config c (afterAll env config cs p).1 (afterAll env config cs p).2).2) := by
  rw [afterAll_append, afterAll_cons]
  rfl

/-! ### Test case after test case -/

/-- A new session after test cases. -/
def afterCases (env : Environment) (config : Config) (w : World) (cs : List ScriptedCase) :
    Session × World := afterAll env config cs ({}, w)

/-- The browser that is open was launched in the turn of the first of the last test cases, and all
of these belong to one script. -/
def ServesSince (env : Environment) (config : Config) (w : World) (cs : List ScriptedCase)
    (script : Path) (trace : List Event) : Prop :=
  ∃ before during, cs = before ++ during ∧ during ≠ [] ∧ (∀ d ∈ during, d.script = script) ∧
    Attended env.driver w.trace
      (launches env.driver w.trace (afterCases env config w before).2.trace) trace

/-- The directory of a script has been prepared in the turn of one of its test cases. -/
def PreparedIn (env : Environment) (config : Config) (w : World) (cs : List ScriptedCase)
    (script : Path) : Prop :=
  ∃ before d rest, cs = before ++ d :: rest ∧ d.script = script ∧
    PreparesDir env config script (afterCases env config w before)

theorem eq_or_of_concat_eq {α : Type} {xs before rest : List α} {x d : α}
    (h : xs ++ [x] = before ++ d :: rest) :
    (xs = before ∧ x = d) ∨ ∃ rest', xs = before ++ d :: rest' := by
  rcases List.eq_nil_or_concat rest with rfl | ⟨rest', y, rfl⟩
  · obtain ⟨hxs, hx⟩ := List.append_inj' h rfl
    exact .inl ⟨hxs, List.head_eq_of_cons_eq hx⟩
  · have h' : xs ++ [x] = (before ++ d :: rest') ++ [y] := by simpa using h
    exact .inr ⟨rest', (List.append_inj' h' rfl).1⟩

variable {w : World} {cs : List ScriptedCase}

theorem preparedIn_concat {c : ScriptedCase} : PreparedIn env config w (cs ++ [c]) script ↔
    PreparedIn env config w cs script ∨
      (c.script = script ∧ PreparesDir env config script (afterCases env config w cs)) := by
  constructor
  · rintro ⟨before, d, rest, hcs, hd, hp⟩
    rcases eq_or_of_concat_eq hcs with ⟨rfl, rfl⟩ | ⟨rest', hcs⟩
    · exact .inr ⟨hd, hp⟩
    · exact .inl ⟨before, d, rest', hcs, hd, hp⟩
  · rintro (⟨before, d, rest, rfl, hd, hp⟩ | ⟨hc, hp⟩)
    · exact ⟨before, d, rest ++ [c], by simp, hd, hp⟩
    · exact ⟨cs, c, [], rfl, hc, hp⟩

/-- What a session has come to after test cases. -/
structure Attends (env : Environment) (config : Config) (w : World) (cs : List ScriptedCase) :
    Prop where
  knows : Knows env.driver w.trace (afterCases env config w cs).1
    (afterCases env config w cs).2.trace
  serves : (afterCases env config w cs).1.browserOpen = true →
    ∃ script, (afterCases env config w cs).1.script = some script ∧
      ServesSince env config w cs script (afterCases env config w cs).2.trace
  prepared : ∀ script, (∃ dir, (afterCases env config w cs).1.outDirs.lookup script = some dir) ↔
    PreparedIn env config w cs script

theorem attends_nil : Attends env config w [] := by
  refine ⟨knows_init, fun h => Bool.noConfusion h, fun script => ?_⟩
  constructor
  · rintro ⟨dir, hdir⟩
    cases hdir
  · rintro ⟨before, d, rest, hcs, -⟩
    simp at hcs

/-- A browser for the next test case serves its script since some test case. -/
theorem Attends.serves_next (h : Attends env config w cs) {c : ScriptedCase} {trace : List Event}
    (hopened : Opened env.driver w.trace c.script (afterCases env config w cs).1
      (afterCases env config w cs).2.trace trace) :
    ServesSince env config w (cs ++ [c]) c.script trace := by
  cases hopened with
  | kept opened serves calls =>
    obtain ⟨script, hscript, before, during, hcs, -, hduring, hattended⟩ := h.serves opened
    obtain rfl : c.script = script := Option.some.inj (serves.symm.trans hscript)
    refine ⟨before, during ++ [c], by rw [hcs, List.append_assoc], by simp, ?_, calls ▸ hattended⟩
    intro d hd
    rcases List.mem_append.mp hd with hd | hd
    · exact hduring d hd
    · rw [List.mem_singleton.mp hd]
  | launched attended => exact ⟨cs, [c], rfl, by simp, by simp, attended⟩

theorem ServesSince.pages (h : ServesSince env config w cs script trace)
    (hes : ∀ e ∈ es, IsPageCall e) : ServesSince env config w cs script (trace ++ es) := by
  obtain ⟨before, during, hcs, hne, hduring, hattended⟩ := h
  exact ⟨before, during, hcs, hne, hduring, hattended.pages hes⟩

theorem Attends.concat (hclose : ∀ history, env.driver.reply history .closeBrowser = .done)
    (h : Attends env config w cs) (c : ScriptedCase) : Attends env config w (cs ++ [c]) := by
  obtain ⟨r, q, -, hprepares, r', v, hrun, ⟨pages, hpages, hcalls⟩, -⟩ :=
    run_apply config hclose h.knows c
  have hafter : afterCases env config w (cs ++ [c]) = (q.1, v) := by
    unfold afterCases
    rw [afterAll_concat]
    exact congrArg (fun x : (Except CaseFailure Unit × Session) × World => (x.1.2, x.2)) hrun
  refine ⟨?_, ?_, fun script => ?_⟩
  · rw [hafter, hpages]
    exact hprepares.knows.pages hcalls
  · rw [hafter, hpages]
    intro hopen
    obtain ⟨hserved, hopened⟩ := hprepares.opened hopen
    exact ⟨c.script, hserved, (h.serves_next hopened).pages hcalls⟩
  · rw [hafter, preparedIn_concat, ← h.prepared script]
    by_cases hp : PreparesDir env config c.script (afterCases env config w cs)
    · obtain ⟨dir, hdir⟩ := hprepares.first hp
      rw [hdir]
      by_cases hc : c.script = script
      · subst hc
        exact iff_of_true ⟨dir, List.lookup_cons_self⟩ (.inr ⟨rfl, hp⟩)
      · have hne : (script == c.script) = false := by simpa using Ne.symm hc
        simp [List.lookup_cons, hne, hc]
    · rw [hprepares.later hp]
      refine ⟨.inl, ?_⟩
      rintro (hdir | ⟨rfl, hp'⟩)
      · exact hdir
      · exact absurd hp' hp

theorem attends_all (hclose : ∀ history, env.driver.reply history .closeBrowser = .done)
    (cs : List ScriptedCase) : Attends env config w cs := by
  induction cs using List.reverseRecOn with
  | nil => exact attends_nil
  | append_singleton cs c ih => exact ih.concat hclose c

/-! ### The end of a session -/

/-- Every browser has been told to close once, and the driver to stop as often as it has been
started, which is at most once. -/
structure WoundUp (driver : Driver) (past trace : List Event) : Prop where
  tidy : Tidy driver past trace
  starts : (ledger driver past trace).starts ≤ 1
  stops : (ledger driver past trace).stops = (ledger driver past trace).starts

theorem Knows.woundUp_of_unstarted (h : Knows driver past s trace) (hb : s.browserOpen = false)
    (hs : s.started = false) : WoundUp driver past trace := by
  have hstarts : (ledger driver past trace).starts = 0 := by rw [h.starts, hs]; rfl
  exact ⟨h.tidy hb, by rw [hstarts]; exact Nat.zero_le 1, by rw [hstarts, h.stops]⟩

theorem Knows.woundUp_of_stopped (h : Knows driver past s trace) (hb : s.browserOpen = false)
    (hs : s.started = true) : WoundUp driver past (trace ++ [.stop]) := by
  have hstarts : (ledger driver past trace).starts = 1 := by rw [h.starts, hs]; rfl
  refine ⟨(h.tidy hb).called rfl, ?_, ?_⟩
  · rw [ledger_called h.orderly.since]
    exact Nat.le_of_eq hstarts
  · rw [ledger_called h.orderly.since]
    change (ledger driver past trace).stops + 1 = (ledger driver past trace).starts
    rw [h.stops, hstarts]

theorem exists_gives_closeBrowser {o : Outside}
    (hclose : ∀ history, env.driver.reply history .closeBrowser = .done)
    (h : Knows env.driver past s o.trace) :
    ∃ s' o', Gives (closeBrowser env) s o (.ok ()) s' o' ∧ Knows env.driver past s' o'.trace ∧
      s'.browserOpen = false := by
  cases hb : s.browserOpen with
  | false => exact ⟨s, o, gives_closeBrowser_of_closed hb, h, hb⟩
  | true => exact ⟨_, _, gives_closeBrowser hb (hclose _), h.browser_closed hb, rfl⟩

theorem exists_gives_close {o : Outside}
    (hclose : ∀ history, env.driver.reply history .closeBrowser = .done)
    (h : Knows env.driver past s o.trace) :
    ∃ r s' o', Gives (close env) s o r s' o' ∧ WoundUp env.driver past o'.trace := by
  obtain ⟨s₁, o₁, hgives, hknows, hb⟩ := exists_gives_closeBrowser hclose h
  cases hs : s₁.started with
  | false =>
    refine ⟨.ok (), s₁, o₁, hgives.bind (gives_session.bind ?_), hknows.woundUp_of_unstarted hb hs⟩
    rw [if_neg (by simp [hs])]
    exact gives_pure ()
  | true =>
    -- the driver has been told to stop, whatever it answers
    have hwoundUp := hknows.woundUp_of_stopped hb hs
    by_cases hr : env.driver.reply o₁.trace .stop = .done
    · refine ⟨.ok (), { s₁ with started := false }, o₁.called .stop,
        hgives.bind (gives_session.bind ?_), hwoundUp⟩
      rw [if_pos hs]
      exact (gives_request hr).bind (gives_update _)
    · obtain ⟨failure, hrefused⟩ := gives_request_refused (s := s₁) hr
      refine ⟨.error failure, s₁, o₁.called .stop, hgives.bind (gives_session.bind ?_), hwoundUp⟩
      rw [if_pos hs]
      exact hrefused.bind_of_error

theorem Knows.woundUp (hclose : ∀ history, env.driver.reply history .closeBrowser = .done)
    {w : World} (h : Knows env.driver past s w.trace) :
    WoundUp env.driver past (close env s w).2.trace := by
  obtain ⟨r, s', o', hgives, hwoundUp⟩ := exists_gives_close (o := w.outside) hclose h
  obtain ⟨log, hr⟩ := hgives w rfl
  rw [hr]
  exact hwoundUp

/-! ### All together -/

/-- What a session does with browsers and directories when it is given test cases, with more of them
to come or closed at last. -/
structure Attentive (env : Environment) (config : Config) (w : World) (cs : List ScriptedCase) :
    Prop where
  /-- At no moment until the session is closed more than one browser is open, and then none is left;
  the driver has been started at most once, and stopped as often. -/
  woundUp : WoundUp env.driver w.trace
    (close env (afterCases env config w cs).1 (afterCases env config w cs).2).2.trace
  /-- The pages of the next test case are compared in an open browser, which was launched for its
  script and has served no other one; the directory of the script has been prepared by then. -/
  compares : ∀ c out s u,
    prepare env config c.script (afterCases env config w cs).1 (afterCases env config w cs).2 =
      ((.ok out, s), u) →
    run env config c (afterCases env config w cs).1 (afterCases env config w cs).2 =
        (((comparePages env.driver config out c.testCase u).1, s),
          (comparePages env.driver config out c.testCase u).2) ∧
      ServesSince env config w (cs ++ [c]) c.script u.trace ∧
      PreparedIn env config w (cs ++ [c]) c.script
  /-- Without an open browser and a directory no pages are compared. -/
  refuses : ∀ c e s u,
    prepare env config c.script (afterCases env config w cs).1 (afterCases env config w cs).2 =
      ((.error e, s), u) →
    run env config c (afterCases env config w cs).1 (afterCases env config w cs).2 =
      ((.error e, s), u)
  /-- If the directory of a script has been prepared in the turn of a test case, it is prepared in
  no other one, and before another test case of the script the disk is left alone. -/
  once : ∀ script, PreparedIn env config w cs script →
    ¬ PreparesDir env config script (afterCases env config w cs) ∧
      (prepare env config script (afterCases env config w cs).1
        (afterCases env config w cs).2).2.disk = (afterCases env config w cs).2.disk

end Session

open Session in
/-- **A session attends to its browsers.**  Suppose that browsers can always be closed.  Whatever
test cases a session is given, in whatever order, and whichever of them fail, it has at most one
browser open at a time, compares pages in a browser of their script, prepares every directory at
most once and before it is needed, and leaves nothing open. -/
theorem session_attentive (config : Config)
    (hclose : ∀ history, env.driver.reply history .closeBrowser = .done)
    (w : World) (cs : List ScriptedCase) : Attentive env config w cs := by
  have h : Attends env config w cs := attends_all hclose cs
  refine ⟨h.knows.woundUp hclose, ?_, ?_, ?_⟩
  · intro c out s u hu
    obtain ⟨r, q, hprepare, hprepares, r', v, hrun, -, hcompares⟩ :=
      run_apply config hclose h.knows c
    rw [hprepare] at hu
    obtain ⟨hrs, rfl⟩ := Prod.mk.inj hu
    obtain ⟨rfl, rfl⟩ := Prod.mk.inj hrs
    obtain ⟨hopen, dir, hdir⟩ := hprepares.succeeds out rfl
    obtain ⟨-, hopened⟩ := hprepares.opened hopen
    refine ⟨?_, h.serves_next hopened, ?_⟩
    · rw [hrun, ← hcompares out rfl]
    · rw [preparedIn_concat, ← h.prepared]
      by_cases hp : PreparesDir env config c.script (afterCases env config w cs)
      · exact .inr ⟨rfl, hp⟩
      · exact .inl ⟨dir, hprepares.later hp ▸ hdir⟩
  · intro c e s u hu
    rw [run_eq]
    exact session_bind_of_error hu
  · intro script hprepared
    obtain ⟨dir, hdir⟩ := (h.prepared script).mpr hprepared
    obtain ⟨r, q, hprepare, hprepares⟩ := prepare_apply config script hclose h.knows
    rw [hprepare]
    exact hprepares.again dir hdir

open Session in
/-- After a test case of each of two scripts the first script is turned to again: it gets a third
browser, and its directory stays as it is. -/
theorem session_attentive_backAgain :
    let c : ScriptedCase := ⟨.ofString "x.txt", caseFor "1"⟩
    let p := afterCases sampleEnv sampleConfig sideBySide sideBySideCases
    let q := afterCases sampleEnv sampleConfig sideBySide (sideBySideCases ++ [c])
    ledger blackFirst [] (close sampleEnv q.1 q.2).2.trace = ⟨1, 1, [1, 1, 1]⟩ ∧
      WoundUp blackFirst [] (close sampleEnv q.1 q.2).2.trace ∧
      ServesSince sampleEnv sampleConfig sideBySide (sideBySideCases ++ [c]) c.script
        (prepare sampleEnv sampleConfig c.script p.1 p.2).2.trace ∧
      (prepare sampleEnv sampleConfig c.script p.1 p.2).2.disk = p.2.disk := by
  intro c p q
  have hclose : ∀ history, sampleEnv.driver.reply history .closeBrowser = .done := fun _ => rfl
  have hattentive := session_attentive sampleConfig hclose sideBySide
  have hends : ∀ {x : (Except CaseFailure Path × Session) × World} {r : Except CaseFailure Path},
      x.1.1 = r → x = ((r, x.1.2), x.2) := by
    rintro ⟨⟨_, _⟩, _⟩ _ rfl
    rfl
  have hfirst := (hattentive []).compares c (outputDir sampleConfig c.script) _ _
    (hends (by decide +kernel))
  have hagain := (hattentive sideBySideCases).compares c (outputDir sampleConfig c.script) _ _
    (hends (by decide +kernel))
  have hprepared : PreparedIn sampleEnv sampleConfig sideBySide sideBySideCases c.script :=
    preparedIn_concat.mpr (.inl hfirst.2.2)
  exact ⟨by decide +kernel, (hattentive (sideBySideCases ++ [c])).woundUp, hagain.2.1,
    ((hattentive sideBySideCases).once c.script hprepared).2⟩

end PageDiff.Run
