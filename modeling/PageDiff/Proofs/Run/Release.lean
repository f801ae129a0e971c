import PageDiff.Proofs.Run.Turns

/-!
# The driver when a session has been closed

A session that is closed closes its browser first, and after that it stops the driver.  `Accounts`
says that what a session remembers of the driver fits the calls that have been made; every test case
keeps that, however it ends, also if a browser can not be closed.  Main statement
(`driver_stopped_iff`): the loop of a session is always closed, and a driver that has been started
is told to stop once, unless the last browser refuses to be closed: then it is never told.
-/

namespace PageDiff.Run

open PageDiff.Browser PageDiff.Script

variable {env : Environment} {config : Config} {driver : Driver} {past trace es : List Event}
  {s : Session} {w : World}

/-! ### Calls to the driver itself -/

/-- A call that starts or stops the driver. -/
def IsDriverCall : Event → Prop
  | .start | .stop => True
  | _ => False

theorem Ledger.enter_of_not_isDriverCall (l : Ledger) {e : Event} (he : ¬ IsDriverCall e)
    (reply : Reply) : (l.enter e reply).starts = l.starts ∧ (l.enter e reply).stops = l.stops := by
  cases e <;> cases reply <;> first | exact ⟨rfl, rfl⟩ | exact absurd trivial he

theorem IsPageCall.not_isDriverCall {e : Event} (h : IsPageCall e) : ¬ IsDriverCall e := by
  cases e <;> first | exact id | cases h

namespace Session

open WithSession

/-! ### What a session remembers of the driver -/

/-- What a session remembers of the driver fits the calls since those of `past`, and it has a
browser only from a driver that has been started. -/
structure Accounts (driver : Driver) (past : List Event) (s : Session) (trace : List Event) :
    Prop where
  since : past <+: trace
  starts : (ledger driver past trace).starts = s.started.toNat
  stops : (ledger driver past trace).stops = 0
  started : s.browserOpen = true → s.started = true

theorem accounts_init : Accounts driver past {} past := by
  refine ⟨List.prefix_rfl, ?_, ?_, nofun⟩
  · rw [ledger_self]
    rfl
  · rw [ledger_self]

/-- A call that leaves the driver as it is. -/
theorem Accounts.called (h : Accounts driver past s trace) {e : Event}
    (hstarts : ((ledger driver past trace).enter e (driver.reply trace e)).starts =
      (ledger driver past trace).starts)
    (hstops : ((ledger driver past trace).enter e (driver.reply trace e)).stops =
      (ledger driver past trace).stops) : Accounts driver past s (trace ++ [e]) := by
  refine ⟨h.since.trans (List.prefix_append _ _), ?_, ?_, h.started⟩
  · rw [ledger_called h.since, hstarts, h.starts]
  · rw [ledger_called h.since, hstops, h.stops]

theorem Accounts.calls (h : Accounts driver past s trace) (hes : ∀ e ∈ es, ¬ IsDriverCall e) :
    Accounts driver past s (trace ++ es) := by
  induction es generalizing trace with
  | nil => rwa [List.append_nil]
  | cons e es ih =>
    obtain ⟨hstarts, hstops⟩ := (ledger driver past trace).enter_of_not_isDriverCall
      (hes e (by simp)) (driver.reply trace e)
    rw [List.append_cons]
    exact ih (h.called hstarts hstops) fun e' he' => hes e' (by simp [he'])

theorem Accounts.start (h : Accounts driver past s trace) (hs : s.started = false)
    (hr : driver.reply trace .start = .done) :
    Accounts driver past { s with started := true } (trace ++ [.start]) := by
  refine ⟨h.since.trans (List.prefix_append _ _), ?_, ?_, fun _ => rfl⟩
  · rw [ledger_called h.since, hr]
    change (ledger driver past trace).starts + 1 = 1
    rw [h.starts, hs]
    rfl
  · rw [ledger_called h.since, hr]
    exact h.stops

theorem Accounts.start_refused (h : Accounts driver past s trace)
    (hr : driver.reply trace .start ≠ .done) : Accounts driver past s (trace ++ [.start]) := by
  have hsame : (ledger driver past trace).enter .start (driver.reply trace .start) =
      ledger driver past trace := by
    cases hreply : driver.reply trace .start with
    | done => exact absurd hreply hr
    | fails f => rfl
    | hangs => rfl
  refine h.called ?_ ?_
  · rw [hsame]
  · rw [hsame]

/-! ### While the driver runs -/

/-- A session that has started the driver, and whose memory fits the calls. -/
def Running (driver : Driver) (past : List Event) (p : Session × World) : Prop :=
  Accounts driver past p.1 p.2.trace ∧ p.1.started = true

/-- A running session stays one. -/
def StaysRunning (driver : Driver) (past : List Event) (p q : Session × World) : Prop :=
  Running driver past p → Running driver past q

instance : IsPreorder (Session × World) (StaysRunning driver past) where
  refl _ := id
  trans _ _ _ h h' := h' ∘ h

theorem request_eq (env : Environment) (e : Event) (s : Session) (w : World) :
    request env e s w =
      (((granted (env.driver.reply w.trace e)).mapError CaseFailure.fault, s), w.called e) := by
  rw [request, lift, request_apply]

theorem staysRunning_request {e : Event} (he : ¬ IsDriverCall e) :
    CarriesSession (StaysRunning env.driver past) (request env e) := by
  rintro s w ⟨h, hs⟩
  rw [request_eq]
  have hes : ∀ e' ∈ [e], ¬ IsDriverCall e' := by simpa using he
  exact ⟨h.calls hes, hs⟩

theorem staysRunning_update {f : Session → Session} (hf : ∀ s, (f s).started = s.started) :
    CarriesSession (StaysRunning driver past) (update f) := by
  rintro s w ⟨h, hs⟩
  have hstarted : (f s).started = true := (hf s).trans hs
  refine ⟨⟨h.since, ?_, h.stops, fun _ => hstarted⟩, hstarted⟩
  change _ = (f s).started.toNat
  rw [hf s]
  exact h.starts

theorem staysRunning_closeBrowser : CarriesSession (StaysRunning env.driver past)
    (closeBrowser env) := by
  refine carriesSession_session.bind fun s => ?_
  split
  · exact (staysRunning_request id).bind fun _ => staysRunning_update fun _ => rfl
  · exact carriesSession_pure ()

theorem staysRunning_ensureBrowser (config : Config) (script : Path) :
    CarriesSession (StaysRunning env.driver past) (ensureBrowser env config script) := by
  refine carriesSession_session.bind fun s => ?_
  split
  · exact carriesSession_pure ()
  · exact staysRunning_closeBrowser.bind fun _ => (staysRunning_request id).bind fun _ =>
      staysRunning_update fun _ => rfl

theorem staysRunning_ensureOutDir (config : Config) (script : Path) :
    CarriesSession (StaysRunning driver past) (ensureOutDir config script) := by
  rintro s w ⟨h, hs⟩
  obtain ⟨r, ⟨s', v⟩, hdir, hprovides⟩ := ensureOutDir_apply config script s w
  obtain ⟨dirs, rfl⟩ := hprovides.session
  have hcalls : v.trace = w.trace := hprovides.calls
  rw [hdir]
  refine ⟨?_, hs⟩
  rw [hcalls]
  exact ⟨h.since, h.starts, h.stops, h.started⟩

theorem staysRunning_comparePages (config : Config) (outDir : Path) (tc : TestCase) :
    CarriesSession (StaysRunning env.driver past)
      (lift (comparePages env.driver config outDir tc)) := by
  rintro s w ⟨h, hs⟩
  obtain ⟨es, hes, hpages⟩ := carries_comparePages env.driver config outDir tc w
  refine ⟨?_, hs⟩
  change Accounts env.driver past s (comparePages env.driver config outDir tc w).2.trace
  rw [hes]
  exact h.calls fun e he => (hpages e he).not_isDriverCall

/-! ### Test cases -/

theorem run_accounts (config : Config) (c : ScriptedCase)
    (h : Accounts env.driver past s w.trace) :
    Accounts env.driver past (run env config c s w).1.2 (run env config c s w).2.trace := by
  have hrest : CarriesSession (StaysRunning env.driver past) (do
      ensureBrowser env config c.script
      let out ← ensureOutDir config c.script
      lift (comparePages env.driver config out c.testCase)) :=
    (staysRunning_ensureBrowser config _).bind fun _ =>
      (staysRunning_ensureOutDir config _).bind fun _ => staysRunning_comparePages config _ _
  have hsession : (session : WithSession Session) s w = ((.ok s, s), w) := rfl
  cases hs : s.started with
  | true =>
    have hstart : ensureStarted env s w = ((.ok (), s), w) := by
      rw [ensureStarted, session_bind_of_ok hsession, if_pos hs]
      rfl
    rw [run, session_bind_of_ok hstart]
    exact (hrest s w ⟨h, hs⟩).1
  | false =>
    have hask : ensureStarted env s w = (do
        request env .start
        update fun s => { s with started := true }) s w := by
      rw [ensureStarted, session_bind_of_ok hsession, if_neg (by simp [hs])]
    have hcall := request_eq env .start s w
    by_cases hr : env.driver.reply w.trace .start = .done
    · rw [hr] at hcall
      have hstart : ensureStarted env s w =
          ((.ok (), { s with started := true }), w.called .start) := by
        rw [hask, session_bind_of_ok hcall]
        rfl
      rw [run, session_bind_of_ok hstart]
      exact (hrest _ (w.called .start) ⟨h.start hs hr, rfl⟩).1
    · obtain ⟨f, hf⟩ := exists_granted_eq_error hr
      rw [hf] at hcall
      have hstart : ensureStarted env s w = ((.error (.fault f), s), w.called .start) := by
        rw [hask]
        exact session_bind_of_error hcall
      rw [run, session_bind_of_error hstart]
      exact h.start_refused hr

/-- However test cases end, what the session remembers of the driver fits the calls. -/
theorem accounts_afterCases (env : Environment) (config : Config) (w : World)
    (cs : List ScriptedCase) : Accounts env.driver w.trace (afterCases env config w cs).1
      (afterCases env config w cs).2.trace := by
  induction cs using List.reverseRecOn with
  | nil => exact accounts_init
  | append_singleton cs c ih =>
    unfold afterCases at ih ⊢
    rw [afterAll_concat]
    exact run_accounts config c ih

/-! ### Closing -/

/-- The browser that is open can be closed, if there is one. -/
def Closable (driver : Driver) (s : Session) (trace : List Event) : Prop :=
  s.browserOpen = true → driver.reply trace .closeBrowser = .done

/-- The calls that close the browser of a session. -/
def closingCalls (s : Session) : List Event := if s.browserOpen then [.closeBrowser] else []

theorem closeBrowser_of_closable (h : Closable env.driver s w.trace) : ∃ s' v,
    closeBrowser env s w = ((.ok (), s'), v) ∧ s'.started = s.started ∧
      v.trace = w.trace ++ closingCalls s := by
  have hsession : (session : WithSession Session) s w = ((.ok s, s), w) := rfl
  cases hb : s.browserOpen with
  | false =>
    refine ⟨s, w, ?_, rfl, ?_⟩
    · rw [closeBrowser, session_bind_of_ok hsession, if_neg (by simp [hb])]
      rfl
    · rw [closingCalls, hb]
      exact (List.append_nil _).symm
  | true =>
    have hcall := request_eq env .closeBrowser s w
    rw [h hb] at hcall
    refine ⟨{ s with browserOpen := false }, w.called .closeBrowser, ?_, rfl, ?_⟩
    · rw [closeBrowser, session_bind_of_ok hsession, if_pos hb, session_bind_of_ok hcall]
      rfl
    · rw [closingCalls, hb]
      rfl

/-- A browser that refuses to be closed ends the closing of the session. -/
theorem close_of_not_closable (h : ¬ Closable env.driver s w.trace) :
    ∃ f, close env s w = ((.error (.fault f), s), w.called .closeBrowser) := by
  obtain ⟨hb, hr⟩ := Classical.not_imp.mp h
  have hsession : (session : WithSession Session) s w = ((.ok s, s), w) := rfl
  have hcall := request_eq env .closeBrowser s w
  obtain ⟨f, hf⟩ := exists_granted_eq_error hr
  rw [hf] at hcall
  refine ⟨f, session_bind_of_error ?_⟩
  rw [closeBrowser, session_bind_of_ok hsession, if_pos hb]
  exact session_bind_of_error hcall

/-- Otherwise the driver is stopped after the browser has been closed, if it has been started. -/
theorem trace_close_of_closable (h : Closable env.driver s w.trace) :
    (close env s w).2.trace =
      w.trace ++ closingCalls s ++ (if s.started then [.stop] else []) := by
  obtain ⟨s', v, hclose, hstarted, htrace⟩ := closeBrowser_of_closable h
  have hsession : (session : WithSession Session) s' v = ((.ok s', s'), v) := rfl
  rw [close, session_bind_of_ok hclose, session_bind_of_ok hsession, hstarted, ← htrace]
  cases hs : s.started with
  | false => exact (List.append_nil _).symm
  | true =>
    have hcall := request_eq env .stop s' v
    rw [if_pos rfl, if_pos rfl]
    cases hr : granted (env.driver.reply v.trace .stop) with
    | ok u =>
      rw [hr] at hcall
      rw [session_bind_of_ok hcall]
      rfl
    | error f =>
      rw [hr] at hcall
      rw [session_bind_of_error hcall]
      rfl

theorem not_isDriverCall_closingCalls : ∀ e ∈ closingCalls s, ¬ IsDriverCall e := by
  intro e he
  unfold closingCalls at he
  split at he
  · rw [List.mem_singleton.mp he]
    exact id
  · cases he

/-- How often the driver has been started and stopped when a session has been closed. -/
structure Settles (driver : Driver) (past : List Event) (s : Session) (before after : List Event) :
    Prop where
  starts : (ledger driver past after).starts = s.started.toNat
  stops : Closable driver s before → (ledger driver past after).stops = s.started.toNat
  left : ¬ Closable driver s before → (ledger driver past after).stops = 0

theorem Accounts.close (h : Accounts env.driver past s w.trace) :
    Settles env.driver past s w.trace (close env s w).2.trace := by
  by_cases hc : Closable env.driver s w.trace
  · have hclosed : Accounts env.driver past s (w.trace ++ closingCalls s) :=
      h.calls not_isDriverCall_closingCalls
    refine ⟨?_, fun _ => ?_, fun hn => absurd hc hn⟩
    · rw [trace_close_of_closable hc, ← hclosed.starts]
      cases s.started with
      | false => exact congrArg (fun t => (ledger _ _ t).starts) (List.append_nil _)
      | true => exact (congrArg Ledger.starts (ledger_called hclosed.since .stop)).trans rfl
    · rw [trace_close_of_closable hc]
      cases s.started with
      | false =>
        exact (congrArg (fun t => (ledger _ _ t).stops) (List.append_nil _)).trans hclosed.stops
      | true =>
        refine (congrArg Ledger.stops (ledger_called hclosed.since .stop)).trans ?_
        change (ledger env.driver past (w.trace ++ closingCalls s)).stops + 1 = 1
        rw [hclosed.stops]
  · obtain ⟨f, hrefused⟩ := close_of_not_closable hc
    have hasked : Accounts env.driver past s (w.trace ++ [.closeBrowser]) :=
      h.calls (by simp [IsDriverCall])
    rw [hrefused]
    exact ⟨hasked.starts, fun hclosable => absurd hclosable hc, fun _ => hasked.stops⟩

end Session

open Session in
/-- **When the driver of a session is stopped.**  Whatever test cases a session has been given, and
however the browser behaves: when the session has been closed, or has failed to be, its loop is
closed, and the driver has been stopped as often as it has been started, which is at most once,
exactly if the browser that was open last could be closed.  If it could not, the driver is left
running. -/
theorem driver_stopped_iff (env : Environment) (config : Config) (w : World)
    (cs : List ScriptedCase) :
    let p := afterCases env config w cs
    let q := Hosted.close env { session := p.1 } p.2
    let l := ledger env.driver w.trace q.2.trace
    q.1.2.loopClosed = true ∧ l.starts ≤ 1 ∧
      (l.stops = l.starts ↔ Closable env.driver p.1 p.2.trace) ∧
      (¬ Closable env.driver p.1 p.2.trace →
        l.starts = 1 ∧ l.stops = 0 ∧ ∃ f, q.1.1 = .error (.fault f)) := by
  intro p q l
  have haccounts : Accounts env.driver w.trace p.1 p.2.trace := accounts_afterCases env config w cs
  have hsettles : Settles env.driver w.trace p.1 p.2.trace q.2.trace := haccounts.close
  have hleft : ¬ Closable env.driver p.1 p.2.trace → l.starts = 1 ∧ l.stops = 0 := by
    intro hn
    obtain ⟨hopen, -⟩ := Classical.not_imp.mp hn
    refine ⟨?_, hsettles.left hn⟩
    rw [hsettles.starts, haccounts.started hopen]
    rfl
  refine ⟨rfl, ?_, ⟨fun heq => ?_, fun hc => ?_⟩, fun hn => ?_⟩
  · rw [hsettles.starts]
    exact Bool.toNat_le _
  · by_contra hn
    obtain ⟨hstarts, hstops⟩ := hleft hn
    omega
  · rw [hsettles.stops hc, hsettles.starts]
  · obtain ⟨f, hrefused⟩ := close_of_not_closable hn
    exact ⟨(hleft hn).1, (hleft hn).2, f, congrArg (fun r => r.1.1) hrefused⟩

/-- The sample with a browser that refuses to be closed. -/
def stubborn : Environment where
  driver :=
    { reply := fun _ e => match e with
        | .closeBrowser => .fails (.browser "gone")
        | _ => .done
      picture := fun _ => .encoded black "" }
  caches := .ofString "caches"

open Session in
/-- One test case passes, and closing its browser fails: the driver, which has been started, is not
stopped. -/
theorem driver_left_stubborn :
    let p := afterCases stubborn sampleConfig sideBySide (sideBySideCases.take 1)
    let q := Hosted.close stubborn { session := p.1 } p.2
    q.1.1 = .error (.fault (.browser "gone")) ∧
      ledger stubborn.driver [] q.2.trace = ⟨1, 0, [1]⟩ ∧ Event.stop ∉ q.2.trace := by
  decide +kernel

end PageDiff.Run
