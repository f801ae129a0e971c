import PageDiff.Proofs.Run.Carries

/-!
# What has become of the browsers

The calls that have been made, and the answers to them, tell how often the driver has been started
and stopped, and for every browser that has been launched how often it has been told to close.  A
call to close a browser is one to the browser launched last.  Calls are orderly if at no moment
more than one browser had still to be told to close.
-/

namespace PageDiff.Run

open PageDiff.Browser PageDiff.Script

variable {ε : Type}

/-! ### The ledger -/

structure Ledger where
  starts : Nat := 0
  stops : Nat := 0
  /-- How often each browser has been told to close, the one launched last first. -/
  browsers : List Nat := []
  deriving DecidableEq

namespace Ledger

/-- A call is entered with its answer.  Nothing has been started or launched unless the browser says
so, but it has been told to close and to stop whatever it answers. -/
def enter (l : Ledger) : Event → Reply → Ledger
  | .start, .done => { l with starts := l.starts + 1 }
  | .launch _ _, .done => { l with browsers := 0 :: l.browsers }
  | .closeBrowser, _ => { l with browsers := l.browsers.modifyHead (· + 1) }
  | .stop, _ => { l with stops := l.stops + 1 }
  | _, _ => l

/-- The ledger after more calls, made with the calls of `past` before them. -/
def after (driver : Driver) : Ledger → List Event → List Event → Ledger
  | l, _, [] => l
  | l, past, e :: es => after driver (l.enter e (driver.reply past e)) (past ++ [e]) es

/-- How many browsers have still to be told to close. -/
def unclosed (l : Ledger) : Nat := l.browsers.count 0

/-- Every browser has been told to close, and only once. -/
def Settled (l : Ledger) : Prop := ∀ n ∈ l.browsers, n = 1

/-- The browser launched last is open, and the `n` before it have each been told to close once. -/
def Attends (l : Ledger) (n : Nat) : Prop := l.browsers = 0 :: List.replicate n 1

variable {l : Ledger} {n : Nat}

theorem settled_iff : l.Settled ↔ l.browsers = List.replicate l.browsers.length 1 := by
  rw [List.eq_replicate_iff]
  exact ⟨fun h => ⟨rfl, h⟩, And.right⟩

theorem Settled.unclosed (h : l.Settled) : l.unclosed = 0 := by
  rw [Ledger.unclosed, List.count_eq_zero]
  intro hmem
  exact absurd (h 0 hmem) (by decide)

theorem Attends.unclosed (h : l.Attends n) : l.unclosed = 1 := by
  rw [Attends] at h
  rw [Ledger.unclosed, h, List.count_cons_self, List.count_replicate]
  rfl

theorem Settled.launched (h : l.Settled) (config : Config) :
    (l.enter (launchEvent config) .done).Attends l.browsers.length :=
  congrArg (List.cons 0) (settled_iff.mp h)

theorem enter_launch_of_ne (l : Ledger) {reply : Reply} (h : reply ≠ .done) (config : Config) :
    l.enter (launchEvent config) reply = l := by
  cases reply with
  | done => exact absurd rfl h
  | fails f => rfl
  | hangs => rfl

theorem Attends.closed (h : l.Attends n) (reply : Reply) :
    (l.enter .closeBrowser reply).browsers = List.replicate (n + 1) 1 := by
  change l.browsers.modifyHead (· + 1) = _
  rw [h]
  rfl

theorem after_append (driver : Driver) (l : Ledger) (past es es' : List Event) :
    l.after driver past (es ++ es') = (l.after driver past es).after driver (past ++ es) es' := by
  induction es generalizing l past with
  | nil => rw [List.append_nil]; rfl
  | cons e es ih =>
    rw [List.cons_append, after, ih, after, List.append_assoc]
    rfl

end Ledger

/-- What has become of the browsers since the calls of `past`, told from all calls. -/
def ledger (driver : Driver) (past trace : List Event) : Ledger :=
  ({} : Ledger).after driver past (trace.drop past.length)

section Ledgers

variable {driver : Driver} {past trace : List Event}

@[simp] theorem ledger_self : ledger driver past past = {} := by
  rw [ledger, List.drop_length]
  rfl

theorem ledger_append (h : past <+: trace) (es : List Event) :
    ledger driver past (trace ++ es) = (ledger driver past trace).after driver trace es := by
  obtain ⟨calls, rfl⟩ := h
  rw [ledger, ledger, List.append_assoc, List.drop_left, List.drop_left, Ledger.after_append]

theorem ledger_called (h : past <+: trace) (e : Event) :
    ledger driver past (trace ++ [e]) =
      (ledger driver past trace).enter e (driver.reply trace e) := ledger_append h [e]

end Ledgers

/-! ### Calls to pages -/

/-- A call to the browser that is open, about its pages. -/
def IsPageCall : Event → Prop
  | .start | .launch _ _ | .closeBrowser | .stop => False
  | _ => True

/-- A call about one page. -/
def OnPage : Event → Prop
  | .newPage | .goto _ | .networkIdle | .click _ | .waitAttached _ | .locate _ | .screenshot _ => True
  | _ => False

theorem Ledger.enter_pageCall (l : Ledger) {e : Event} (he : IsPageCall e) (reply : Reply) :
    l.enter e reply = l := by
  cases e <;> first | rfl | cases he

theorem ledger_pages {driver : Driver} {past trace es : List Event} (h : past <+: trace)
    (hes : ∀ e ∈ es, IsPageCall e) :
    ledger driver past (trace ++ es) = ledger driver past trace := by
  rw [ledger_append h]
  generalize ledger driver past trace = l
  induction es generalizing trace with
  | nil => rfl
  | cons e es ih =>
    rw [Ledger.after, l.enter_pageCall (hes e (by simp))]
    exact ih (h.trans (List.prefix_append _ _)) fun e' he' => hes e' (by simp [he'])

/-! ### Orderly calls -/

/-- At no moment since the calls of `past` more than one browser had still to be told to close. -/
structure Orderly (driver : Driver) (past trace : List Event) : Prop where
  since : past <+: trace
  atMostOne : ∀ moment, past <+: moment → moment <+: trace →
    (ledger driver past moment).unclosed ≤ 1

section Orderly

variable {driver : Driver} {past trace : List Event}

theorem orderly_self : Orderly driver past past := by
  refine ⟨List.prefix_rfl, fun moment hpast hmoment => ?_⟩
  rw [hmoment.eq_of_length_le hpast.length_le, ledger_self]
  exact Nat.zero_le 1

theorem Orderly.called (h : Orderly driver past trace) {e : Event}
    (he : ((ledger driver past trace).enter e (driver.reply trace e)).unclosed ≤ 1) :
    Orderly driver past (trace ++ [e]) := by
  refine ⟨h.since.trans (List.prefix_append _ _), fun moment hpast hmoment => ?_⟩
  rcases List.prefix_concat_iff.mp hmoment with rfl | hbefore
  · rwa [ledger_called h.since]
  · exact h.atMostOne moment hpast hbefore

theorem Orderly.pages (h : Orderly driver past trace) {es : List Event}
    (hes : ∀ e ∈ es, IsPageCall e) : Orderly driver past (trace ++ es) := by
  induction es generalizing trace with
  | nil => rwa [List.append_nil]
  | cons e es ih =>
    rw [List.append_cons]
    refine ih (h.called ?_) fun e' he' => hes e' (by simp [he'])
    rw [Ledger.enter_pageCall _ (hes e (by simp))]
    exact h.atMostOne trace h.since List.prefix_rfl

end Orderly

/-! ### Tidy calls -/

/-- Orderly calls after which every browser has been told to close, and only once. -/
structure Tidy (driver : Driver) (past trace : List Event) : Prop where
  orderly : Orderly driver past trace
  settled : (ledger driver past trace).Settled

/-- Orderly calls after which one browser is open, launched after `n` others. -/
structure Attended (driver : Driver) (past : List Event) (n : Nat) (trace : List Event) :
    Prop where
  orderly : Orderly driver past trace
  attends : (ledger driver past trace).Attends n

section Tidy

variable {driver : Driver} {past trace es : List Event} {n : Nat}

theorem tidy_self : Tidy driver past past := by
  refine ⟨orderly_self, ?_⟩
  rw [ledger_self, Ledger.Settled]
  simp

/-- A call after which the ledger has every browser told to close. -/
theorem Orderly.tidy (h : Orderly driver past trace) {e : Event}
    (he : ((ledger driver past trace).enter e (driver.reply trace e)).Settled) :
    Tidy driver past (trace ++ [e]) := by
  refine ⟨h.called ?_, ?_⟩
  · rw [he.unclosed]
    exact Nat.zero_le 1
  · rwa [ledger_called h.since]

/-- A call that leaves the browsers alone. -/
theorem Tidy.called (h : Tidy driver past trace) {e : Event}
    (he : ((ledger driver past trace).enter e (driver.reply trace e)).browsers =
      (ledger driver past trace).browsers) : Tidy driver past (trace ++ [e]) := by
  refine h.orderly.tidy ?_
  rw [Ledger.Settled, he]
  exact h.settled

theorem Tidy.refused (h : Tidy driver past trace) {config : Config}
    (hr : driver.reply trace (launchEvent config) ≠ .done) :
    Tidy driver past (trace ++ [launchEvent config]) := by
  refine h.called ?_
  rw [Ledger.enter_launch_of_ne _ hr]

theorem Tidy.launched (h : Tidy driver past trace) {config : Config}
    (hr : driver.reply trace (launchEvent config) = .done) :
    Attended driver past (ledger driver past trace).browsers.length
      (trace ++ [launchEvent config]) := by
  have hattends := h.settled.launched config
  rw [← hr] at hattends
  refine ⟨h.orderly.called (Nat.le_of_eq hattends.unclosed), ?_⟩
  rwa [ledger_called h.orderly.since]

theorem Attended.pages (h : Attended driver past n trace) (hes : ∀ e ∈ es, IsPageCall e) :
    Attended driver past n (trace ++ es) := by
  refine ⟨h.orderly.pages hes, ?_⟩
  rw [ledger_pages h.orderly.since hes]
  exact h.attends

theorem Attended.closed (h : Attended driver past n trace) :
    Tidy driver past (trace ++ [.closeBrowser]) := by
  refine h.orderly.tidy ?_
  rw [Ledger.Settled, h.attends.closed]
  exact fun _ => List.eq_of_mem_replicate

end Tidy

/-! ### One call -/

/-- The world after a call. -/
def World.called (w : World) (e : Event) : World := { w with trace := w.trace ++ [e] }

/-- What an answer means for a call that nothing limits. -/
def granted : Reply → Except Fault Unit
  | .done => .ok ()
  | .fails f => .error f
  | .hangs => .error .cancelled

theorem exists_granted_eq_error {reply : Reply} (h : reply ≠ .done) :
    ∃ f, granted reply = .error f := by
  cases reply with
  | done => exact absurd rfl h
  | fails f => exact ⟨f, rfl⟩
  | hangs => exact ⟨.cancelled, rfl⟩

theorem callUnlimited_apply (driver : Driver) (e : Event) (w : World) :
    callUnlimited driver e w = (granted (driver.reply w.trace e), w.called e) := by
  unfold callUnlimited Run.mapError call
  simp only
  cases driver.reply w.trace e <;> rfl

/-- A call whose failure is put in other words. -/
theorem request_apply (driver : Driver) (e : Event) (f : Fault → ε) (w : World) :
    (callUnlimited driver e).mapError f w =
      ((granted (driver.reply w.trace e)).mapError f, w.called e) := by
  rw [mapError_apply, callUnlimited_apply]

/-! ### What is called -/

/-- Only certain calls are made. -/
def Adds (P : Event → Prop) (w v : World) : Prop :=
  ∃ es, v.trace = w.trace ++ es ∧ ∀ e ∈ es, P e

/-- No call is made. -/
def SameCalls (w v : World) : Prop := v.trace = w.trace

instance : IsPreorder World SameCalls where
  refl _ := rfl
  trans _ _ _ h h' := h'.trans h

variable {P : Event → Prop}

instance : IsPreorder World (Adds P) where
  refl w := ⟨[], (List.append_nil _).symm, by simp⟩
  trans := by
    rintro w v u ⟨es, hv, hes⟩ ⟨es', hu, hes'⟩
    refine ⟨es ++ es', by rw [hu, hv, List.append_assoc], ?_⟩
    intro e he
    rcases List.mem_append.mp he with he | he
    · exact hes e he
    · exact hes' e he

theorem sameCalls_onDisk (op : Disk → Disk.Outcome) : Carries SameCalls (onDisk op) := fun _ => rfl

theorem SameCalls.adds {w v : World} (h : SameCalls w v) : Adds P w v :=
  ⟨[], by rw [h, List.append_nil], by simp⟩

theorem Adds.mono {Q : Event → Prop} {w v : World} (h : Adds P w v) (hPQ : ∀ e, P e → Q e) :
    Adds Q w v := by
  obtain ⟨es, htrace, hes⟩ := h
  exact ⟨es, htrace, fun e he => hPQ e (hes e he)⟩

theorem sees_sameCalls : SeesOutside SameCalls := fun _ _ _ htrace => htrace

theorem sees_adds : SeesOutside (Adds P) := fun _ _ _ htrace => SameCalls.adds htrace

theorem carries_note {e : Event} (he : P e) :
    Carries (Adds P) (note e : Run ε Unit) :=
  fun _ => ⟨[e], rfl, by simpa using he⟩

theorem carries_call (driver : Driver) {e : Event} (he : P e) :
    Carries (Adds P) (call driver e) := by
  intro w
  refine ⟨[e], ?_, by simpa using he⟩
  unfold call
  simp only
  cases driver.reply w.trace e <;> rfl

theorem carries_callAll (driver : Driver) {es : List Event} (hes : ∀ e ∈ es, P e) :
    Carries (Adds P) (callAll driver es) := by
  induction es with
  | nil => exact carries_pure ()
  | cons e es ih =>
    refine (carries_call driver (hes e (by simp))).bind fun _ => ih fun e' he' => ?_
    exact hes e' (by simp [he'])

theorem OnPage.isPageCall {e : Event} (h : OnPage e) : IsPageCall e := by
  cases e <;> trivial

theorem onPage_pageEvents {url : String} {actions : List Action} {e : Event}
    (he : e ∈ pageEvents url actions) : OnPage e := by
  rcases List.mem_append.mp he with he | he
  · simp only [List.mem_cons, List.not_mem_nil, or_false] at he
    rcases he with rfl | rfl | rfl <;> trivial
  · obtain ⟨action, -, rfl⟩ := List.mem_map.mp he
    cases action <;> trivial

theorem onPage_captureEvents {capture : Capture} {e : Event} (he : e ∈ captureEvents capture) :
    OnPage e := by
  cases capture <;>
    simp only [captureEvents, List.mem_cons, List.not_mem_nil, or_false] at he
  · subst he; trivial
  · subst he; trivial
  · rcases he with rfl | rfl <;> trivial

theorem carries_onPage (driver : Driver) (url : String) (actions : List Action)
    (shown : Kinded Capture) : Carries (Adds IsPageCall) (onPage driver url actions shown) := by
  refine (carries_callAll driver fun _ he => (onPage_pageEvents he).isPageCall).bind fun _ => ?_
  cases shown with
  | error kind => exact carries_throw _
  | ok capture =>
    refine (carries_callAll driver fun _ he =>
      (onPage_captureEvents he).isPageCall).bind fun _ => ?_
    exact Carries.bind (fun w => refl w) fun _ => carries_pure _

theorem carries_takePicture (driver : Driver) (config : Config) (url : String) (tc : TestCase)
    (shown : Kinded Capture) :
    Carries (Adds IsPageCall) (takePicture driver config url tc shown) := by
  unfold takePicture
  split
  · exact carries_throw _
  · refine Carries.mapError ?_ _
    refine (carries_call driver trivial).bind fun _ => (carries_note trivial).bind fun _ => ?_
    exact (carries_onPage driver url tc.actions shown).cleanedUp (carries_call driver trivial)

theorem sameCalls_reportMismatch (config : Config) (tc : TestCase) (outDir : Path) (a b : Image) :
    Carries SameCalls (reportMismatch config tc outDir a b) := by
  unfold reportMismatch
  split
  · exact carries_throw _
  · refine Carries.bind (fun w => refl w) fun w => Carries.bind (fun _ => rfl) fun _ => ?_
    split
    · exact (sees_sameCalls.ignoresLog.logLine _ _).bind fun _ => carries_throw _
    · exact (sees_sameCalls.ignoresLog.logLine _ _).bind fun _ => carries_throw _

/-- A test case calls nothing but pages of the browser that is open. -/
theorem carries_comparePages (driver : Driver) (config : Config) (outDir : Path) (tc : TestCase) :
    Carries (Adds IsPageCall) (comparePages driver config outDir tc) :=
  sees_adds.comparePages (fun url => carries_takePicture driver config url tc _)
    fun a b w => (sameCalls_reportMismatch config tc outDir a b w).adds

end PageDiff.Run
