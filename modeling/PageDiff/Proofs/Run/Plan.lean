import PageDiff.Proofs.Run.Ledger
import PageDiff.Proofs.Run.Verdict

/-!
# The plan of a picture

Every picture is taken along a plan, which is written out call by call (`picturePlan`): a context is
opened and given a time limit, the page is opened and loaded, the actions are done in their order,
and the picture is taken.  `Follows` says which calls are made along a plan: one after the other, up
to and with the first that does not succeed.  Main statement (`pictures_follow_plan`): a picture
follows its plan and then closes its context, once, whenever there is one.  The second page of a
test case is only turned to after the whole plan of the first one has succeeded and its context has
been closed.
-/

namespace PageDiff.Run

open PageDiff.Browser PageDiff.Script

variable {driver : Driver} {config : Config} {tc : TestCase} {url : String} {o : Outside}
  {past plan made closing : List Event}

/-! ### Plans -/

/-- The call that opens the context of a picture.  A dimension of zero falls back to that of the
window. -/
def contextEvent (config : Config) (tc : TestCase) : Event :=
  .newContext (if tc.width = 0 then config.width else tc.width)
    (if tc.height = 0 then config.height else tc.height)

/-- The one call of an action. -/
def actionCall : Action → Event
  | .click selector => .click selector
  | .wait selector => .waitAttached selector

/-- The calls that take a picture, the last of which is the only screenshot.  An element has to be
located first. -/
def screenshotCalls : Capture → List Event
  | .viewport => [.screenshot .viewport]
  | .fullPage => [.screenshot .full]
  | .element selector => [.locate selector, .screenshot .element]

/-- What is called in a context. -/
def contextPlan (url : String) (tc : TestCase) : List Event :=
  [.newPage, .goto url, .networkIdle] ++ tc.actions.map actionCall ++ screenshotCalls tc.capture

/-- What is called for a picture if nothing goes wrong, apart from the closing of its context. -/
def picturePlan (config : Config) (url : String) (tc : TestCase) : List Event :=
  contextEvent config tc :: .defaultTimeout (config.timeout.scale 1000) :: contextPlan url tc

/-- The plan is what is called in a context. -/
theorem contextPlan_eq (url : String) (tc : TestCase) :
    contextPlan url tc = pageEvents url tc.actions ++ captureEvents tc.capture := by
  have hactions : actionCall = actionEvent := by
    funext action
    cases action with
    | click selector => rfl
    | wait selector => rfl
  have hcapture : screenshotCalls tc.capture = captureEvents tc.capture := by
    cases tc.capture with
    | viewport => rfl
    | fullPage => rfl
    | element selector => rfl
  rw [contextPlan, pageEvents, hactions, hcapture]

/-- A plan depends on the address in one place. -/
theorem picturePlan_eq_set (config : Config) (url url' : String) (tc : TestCase) :
    picturePlan config url' tc = (picturePlan config url tc).set 3 (.goto url') := rfl

/-- Whether a call only sets a time limit, which needs no answer. -/
def setsTimeout : Event → Bool
  | .defaultTimeout _ => true
  | _ => false

/-- How a step of a plan ends. -/
def stepEnds (driver : Driver) (past : List Event) (e : Event) : Except Interruption Unit :=
  if setsTimeout e then .ok () else answered (driver.reply past e)

/-- The calls that are made along a plan: one after the other, up to and with the first that does
not succeed. -/
inductive Follows (driver : Driver) : List Event → List Event → List Event → Prop
  | done (past : List Event) : Follows driver past [] []
  | stopped {past rest : List Event} {e : Event} (fails : stepEnds driver past e ≠ .ok ()) :
      Follows driver past (e :: rest) [e]
  | next {past rest made : List Event} {e : Event} (succeeds : stepEnds driver past e = .ok ())
      (later : Follows driver (past ++ [e]) rest made) : Follows driver past (e :: rest) (e :: made)

/-- All steps of a plan succeed. -/
def AllSucceed (driver : Driver) : List Event → List Event → Prop
  | _, [] => True
  | past, e :: rest => stepEnds driver past e = .ok () ∧ AllSucceed driver (past ++ [e]) rest

theorem Follows.isPrefix (h : Follows driver past plan made) : made <+: plan := by
  induction h with
  | done => exact List.prefix_rfl
  | stopped => exact ⟨_, rfl⟩
  | next _ _ ih => exact List.cons_prefix_cons.mpr ⟨rfl, ih⟩

theorem Follows.eq_of_allSucceed (h : Follows driver past plan made)
    (hall : AllSucceed driver past plan) : made = plan := by
  induction h with
  | done => rfl
  | stopped fails => exact absurd hall.1 fails
  | next _ _ ih => rw [ih hall.2]

theorem allSucceed_append {plan' : List Event} : AllSucceed driver past (plan ++ plan') ↔
    AllSucceed driver past plan ∧ AllSucceed driver (past ++ plan) plan' := by
  induction plan generalizing past with
  | nil =>
    rw [List.append_nil]
    exact ⟨fun h => ⟨trivial, h⟩, fun h => h.2⟩
  | cons e rest ih =>
    show _ ∧ AllSucceed driver (past ++ [e]) (rest ++ plan') ↔ (_ ∧ _) ∧ _
    rw [ih, and_assoc, List.append_assoc]
    rfl

/-! ### Calls along a plan -/

theorem stepEnds_call {e : Event} (h : setsTimeout e = false) :
    stepEnds driver past e = answered (driver.reply past e) := by
  rw [stepEnds, h]
  rfl

theorem answered_eq_ok {reply : Reply} : answered reply = .ok () ↔ reply = .done := by
  cases reply with
  | done => exact ⟨fun _ => rfl, fun _ => rfl⟩
  | fails f => exact ⟨nofun, nofun⟩
  | hangs => exact ⟨nofun, nofun⟩

/-- Calls that are made one after the other follow the plan that they make up. -/
theorem yields_callAll (driver : Driver) (hplan : ∀ e ∈ plan, setsTimeout e = false)
    (o : Outside) :
    ∃ made r, Follows driver o.trace plan made ∧ (r = .ok () ↔ AllSucceed driver o.trace plan) ∧
      Yields (callAll driver plan) o r ⟨o.disk, o.trace ++ made⟩ := by
  induction plan generalizing o with
  | nil =>
    refine ⟨[], .ok (), .done _, ⟨fun _ => trivial, fun _ => rfl⟩, ?_⟩
    rw [List.append_nil]
    exact yields_pure ()
  | cons e rest ih =>
    have hends : stepEnds driver o.trace e = answered (driver.reply o.trace e) :=
      stepEnds_call (hplan e List.mem_cons_self)
    have hcall := yields_call driver e o
    rw [← hends] at hcall
    cases hr : stepEnds driver o.trace e with
    | error i =>
      rw [hr] at hcall
      refine ⟨[e], .error i, .stopped (by rw [hr]; exact nofun), ⟨nofun, ?_⟩, hcall.bind_of_error⟩
      rintro ⟨hok, -⟩
      rw [hr] at hok
      cases hok
    | ok u =>
      rw [hr] at hcall
      obtain ⟨made, r, hfollows, hiff, hrest⟩ :=
        ih (fun e' he' => hplan e' (List.mem_cons_of_mem e he')) (o.called e)
      refine ⟨e :: made, r, .next hr hfollows, ?_, ?_⟩
      · rw [hiff]
        exact ⟨fun h => ⟨hr, h⟩, fun h => h.2⟩
      · rw [List.append_cons]
        exact hcall.bind hrest

theorem callAll_append (driver : Driver) (plan plan' : List Event) :
    callAll driver (plan ++ plan') = callAll driver plan >>= fun _ => callAll driver plan' := by
  induction plan with
  | nil => rfl
  | cons e rest ih =>
    show (call driver e >>= fun _ => callAll driver (rest ++ plan')) =
      (call driver e >>= fun _ => callAll driver rest) >>= fun _ => callAll driver plan'
    rw [ih, bind_assoc]

theorem OnPage.setsTimeout_eq {e : Event} (h : OnPage e) : setsTimeout e = false := by
  cases e <;> first | rfl | cases h

theorem onPage_of_mem_contextPlan {e : Event} (he : e ∈ contextPlan url tc) : OnPage e := by
  rw [contextPlan_eq] at he
  rcases List.mem_append.mp he with he | he
  · exact onPage_pageEvents he
  · exact onPage_captureEvents he

/-! ### One picture -/

/-- The calls made for a picture: along its plan, and then for the closing of its context. -/
structure PictureCalls (driver : Driver) (config : Config) (url : String) (tc : TestCase)
    (past made closing : List Event) : Prop where
  planned : made <+: picturePlan config url tc
  /-- Without any time nothing is called. -/
  outOfTime : config.timeout.isNonpositive = true → made = []
  follows : config.timeout.isNonpositive = false →
    Follows driver past (picturePlan config url tc) made
  /-- A context is closed if it has been opened. -/
  closes : closing =
    if made ≠ [] ∧ driver.reply past (contextEvent config tc) = .done then [.closeContext] else []

/-- Every step of a picture succeeds, and so does the closing of its context. -/
def Succeeds (driver : Driver) (config : Config) (url : String) (tc : TestCase)
    (past : List Event) : Prop :=
  config.timeout.isNonpositive = false ∧
    AllSucceed driver past (picturePlan config url tc ++ [.closeContext])

theorem PictureCalls.of_succeeds (h : PictureCalls driver config url tc past made closing)
    (hall : Succeeds driver config url tc past) :
    made = picturePlan config url tc ∧ closing = [.closeContext] := by
  obtain ⟨htime, hall⟩ := hall
  obtain ⟨hplan, -⟩ := allSucceed_append.mp hall
  have hmade := (h.follows htime).eq_of_allSucceed hplan
  refine ⟨hmade, ?_⟩
  have hopened : driver.reply past (contextEvent config tc) = .done := answered_eq_ok.mp hplan.1
  have hne : made ≠ [] := by
    rw [hmade]
    exact List.cons_ne_nil _ _
  rw [h.closes, if_pos ⟨hne, hopened⟩]

theorem endsCleaned_eq_ok {ε α : Type} {r : Except ε α} {r' : Except ε Unit} :
    (∃ a, endsCleaned r r' = .ok a) ↔ (∃ a, r = .ok a) ∧ r' = .ok () := by
  cases r' with
  | ok u => exact ⟨fun h => ⟨h, rfl⟩, fun h => h.1⟩
  | error e => exact ⟨nofun, fun h => nomatch h.2⟩

/-- In a context the page is opened, and its picture is taken, along the plan. -/
theorem yields_onPage (driver : Driver) (url : String) (tc : TestCase) (o : Outside) :
    ∃ made r, Follows driver o.trace (contextPlan url tc) made ∧
      ((∃ screen, r = .ok screen) ↔ AllSucceed driver o.trace (contextPlan url tc)) ∧
      Yields (onPage driver url tc.actions (.ok tc.capture)) o r ⟨o.disk, o.trace ++ made⟩ := by
  have hplan : ∀ e ∈ contextPlan url tc, setsTimeout e = false :=
    fun e he => (onPage_of_mem_contextPlan he).setsTimeout_eq
  have honPage : onPage driver url tc.actions (.ok tc.capture) =
      callAll driver (contextPlan url tc) >>= fun _ =>
        (do return driver.picture (← get).trace) := by
    rw [contextPlan_eq, callAll_append, bind_assoc]
    rfl
  rw [honPage]
  obtain ⟨made, r, hfollows, hiff, hcalls⟩ := yields_callAll driver hplan o
  cases r with
  | ok u =>
    refine ⟨made, _, hfollows, ?_, hcalls.bind (yields_handedOver driver _)⟩
    exact ⟨fun _ => hiff.mp rfl, fun _ => ⟨_, rfl⟩⟩
  | error i =>
    refine ⟨made, .error i, hfollows, ⟨nofun, fun hall => ?_⟩, hcalls.bind_of_error⟩
    cases hiff.mpr hall

/-- However the page turns out, its context is closed. -/
theorem yields_closed (driver : Driver) (url : String) (tc : TestCase) (o : Outside) :
    ∃ made r, Follows driver o.trace (contextPlan url tc) made ∧
      ((∃ screen, r = .ok screen) ↔
        AllSucceed driver o.trace (contextPlan url tc ++ [.closeContext])) ∧
      Yields ((onPage driver url tc.actions (.ok tc.capture)).cleanedUp
        (call driver .closeContext)) o r ⟨o.disk, o.trace ++ (made ++ [.closeContext])⟩ := by
  obtain ⟨made, r, hfollows, hiff, hpage⟩ := yields_onPage driver url tc o
  have hclose := yields_call driver .closeContext ⟨o.disk, o.trace ++ made⟩
  have hends := hpage.cleanedUp hclose
  rw [Outside.called, List.append_assoc] at hends
  refine ⟨made, _, hfollows, ?_, hends⟩
  rw [endsCleaned_eq_ok, allSucceed_append, hiff]
  refine and_congr_right fun hall => ?_
  rw [hfollows.eq_of_allSucceed hall]
  exact ⟨fun h => ⟨h, trivial⟩, fun h => h.1⟩

theorem yields_inContext (driver : Driver) (config : Config) (url : String) (tc : TestCase)
    (o : Outside) : ∃ made closing r,
      Follows driver o.trace (picturePlan config url tc) made ∧
      closing = (if driver.reply o.trace (contextEvent config tc) = .done then [.closeContext]
        else []) ∧
      ((∃ screen, r = .ok screen) ↔
        AllSucceed driver o.trace (picturePlan config url tc ++ [.closeContext])) ∧
      Yields (inContext driver config url tc (.ok tc.capture)) o r
        ⟨o.disk, o.trace ++ (made ++ closing)⟩ := by
  have hcall := yields_call driver (contextEvent config tc) o
  cases hopened : answered (driver.reply o.trace (contextEvent config tc)) with
  | error i =>
    rw [hopened] at hcall
    have hfails : stepEnds driver o.trace (contextEvent config tc) ≠ .ok () := by
      intro hok
      cases hopened.symm.trans hok
    have hclosing : driver.reply o.trace (contextEvent config tc) ≠ .done := by
      intro hdone
      cases hopened.symm.trans (answered_eq_ok.mpr hdone)
    refine ⟨_, _, .error i, .stopped hfails, rfl, ⟨nofun, fun hall => absurd hall.1 hfails⟩, ?_⟩
    rw [if_neg hclosing]
    exact hcall.bind_of_error
  | ok u =>
    rw [hopened] at hcall
    have hdone := answered_eq_ok.mp hopened
    have hlimit : Yields (note (.defaultTimeout (config.timeout.scale 1000)))
        (o.called (contextEvent config tc)) (.ok () : Except Interruption Unit) _ := yields_note _ _
    obtain ⟨made, r, hfollows, hiff, hpage⟩ := yields_closed driver url tc
      ((o.called (contextEvent config tc)).called (.defaultTimeout (config.timeout.scale 1000)))
    refine ⟨_, _, r, .next hopened (.next rfl hfollows), rfl, ?_, ?_⟩
    · rw [hiff]
      exact ⟨fun h => ⟨hopened, rfl, h⟩, fun h => h.2.2⟩
    · rw [if_pos hdone, List.cons_append, List.cons_append, List.append_cons, List.append_cons]
      exact hcall.bind (hlimit.bind hpage)

theorem pictureAt_calls (driver : Driver) (config : Config) (url : String) (tc : TestCase)
    (o : Outside) : ∃ made closing r,
      PictureCalls driver config url tc o.trace made closing ∧
      ((∃ screen, r = .ok screen) ↔ Succeeds driver config url tc o.trace) ∧
      pictureAt driver config url tc o = (r, ⟨o.disk, o.trace ++ (made ++ closing)⟩) := by
  by_cases htime : config.timeout.isNonpositive = true
  · have hthrow : Yields (tryPicture driver config url tc) o (.error .expired) o := by
      rw [tryPicture, if_pos htime]
      exact yields_throw _
    refine ⟨[], [], .error .expired, ⟨List.nil_prefix, fun _ => rfl, ?_, rfl⟩, ⟨nofun, ?_⟩, ?_⟩
    · intro h
      rw [htime] at h
      cases h
    · rintro ⟨h, -⟩
      rw [htime] at h
      cases h
    · rw [List.append_nil, List.append_nil]
      exact hthrow.outcomeAt_eq
  · have hfalse : config.timeout.isNonpositive = false := by simpa using htime
    obtain ⟨made, closing, r, hfollows, hclosing, hiff, hpicture⟩ :=
      yields_inContext driver config url tc o
    have hne : made ≠ [] := by
      rintro rfl
      cases hfollows
    refine ⟨made, closing, r, ⟨hfollows.isPrefix, fun h => absurd h htime, fun _ => hfollows, ?_⟩,
      ?_, ?_⟩
    · rw [hclosing]
      simp only [ne_eq, hne, not_false_eq_true, true_and]
    · rw [hiff, Succeeds, hfalse]
      exact ⟨fun h => ⟨rfl, h⟩, fun h => h.2⟩
    · refine Yields.outcomeAt_eq ?_
      rw [tryPicture, if_neg htime]
      exact hpicture

/-- A context is closed once, if it has been opened, and not at all otherwise. -/
theorem PictureCalls.count_closeContext (h : PictureCalls driver config url tc past made closing) :
    (made ++ closing).count .closeContext =
      if made ≠ [] ∧ driver.reply past (contextEvent config tc) = .done then 1 else 0 := by
  have hplan : Event.closeContext ∉ picturePlan config url tc := by
    intro hmem
    rcases List.mem_cons.mp hmem with heq | hmem
    · cases heq
    · rcases List.mem_cons.mp hmem with heq | hmem
      · cases heq
      · exact onPage_of_mem_contextPlan hmem
  have hmade : made.count .closeContext = 0 :=
    List.count_eq_zero.mpr fun hmem => hplan (h.planned.mem hmem)
  rw [List.count_append, hmade, Nat.zero_add, h.closes]
  split
  · rfl
  · rfl

/-! ### One test case -/

/-- The calls made for the two pages of a test case. -/
inductive CaseCalls (driver : Driver) (config : Config) (tc : TestCase) (past : List Event) :
    List Event → Prop
  /-- An address is refused. -/
  | refused (address : ¬ Accepted tc) : CaseCalls driver config tc past []
  /-- The first picture does not succeed. -/
  | first {made closing : List Event} (accepted : Accepted tc)
      (a : PictureCalls driver config tc.urlA tc past made closing)
      (failed : ¬ Succeeds driver config tc.urlA tc past) :
      CaseCalls driver config tc past (made ++ closing)
  /-- The first picture succeeds: its whole plan has been followed and its context is closed when
  the second one begins. -/
  | both {made closing : List Event} (accepted : Accepted tc)
      (a : PictureCalls driver config tc.urlA tc past (picturePlan config tc.urlA tc)
        [.closeContext])
      (succeeded : Succeeds driver config tc.urlA tc past)
      (b : PictureCalls driver config tc.urlB tc
        (past ++ (picturePlan config tc.urlA tc ++ [.closeContext])) made closing) :
      CaseCalls driver config tc past
        (picturePlan config tc.urlA tc ++ [.closeContext] ++ (made ++ closing))

/-- After a first picture that fails there are no more calls. -/
theorem caseCalls_of_error {i : Interruption} {d : Disk} {trace : List Event}
    (accepted : Accepted tc)
    (h : pictureAt driver config tc.urlA tc o = (.error i, ⟨d, trace⟩)) :
    ∃ calls, trace = o.trace ++ calls ∧ CaseCalls driver config tc o.trace calls := by
  obtain ⟨made, closing, r, hcalls, hiff, hpicture⟩ :=
    pictureAt_calls driver config tc.urlA tc o
  obtain ⟨rfl, hout⟩ := Prod.mk.inj (h.symm.trans hpicture)
  obtain ⟨rfl, rfl⟩ := Outside.mk.inj hout
  refine ⟨made ++ closing, rfl, .first accepted hcalls fun hs => ?_⟩
  obtain ⟨screen, hscreen⟩ := hiff.mpr hs
  cases hscreen

/-- After a first picture that succeeds the second one is tried. -/
theorem caseCalls_of_ok {screen : Screenshot} {r : Except Interruption Screenshot} {d d' : Disk}
    {between trace : List Event} (accepted : Accepted tc)
    (hA : pictureAt driver config tc.urlA tc o = (.ok screen, ⟨d, between⟩))
    (hB : pictureAt driver config tc.urlB tc ⟨d, between⟩ = (r, ⟨d', trace⟩)) :
    ∃ calls, trace = o.trace ++ calls ∧ CaseCalls driver config tc o.trace calls := by
  obtain ⟨made, closing, rA, hcallsA, hiff, hpictureA⟩ :=
    pictureAt_calls driver config tc.urlA tc o
  obtain ⟨rfl, hout⟩ := Prod.mk.inj (hA.symm.trans hpictureA)
  obtain ⟨rfl, rfl⟩ := Outside.mk.inj hout
  have hsucceeds : Succeeds driver config tc.urlA tc o.trace := hiff.mp ⟨screen, rfl⟩
  obtain ⟨rfl, rfl⟩ := hcallsA.of_succeeds hsucceeds
  obtain ⟨made, closing, rB, hcallsB, -, hpictureB⟩ := pictureAt_calls driver config tc.urlB tc
    ⟨o.disk, o.trace ++ (picturePlan config tc.urlA tc ++ [.closeContext])⟩
  obtain ⟨-, hout⟩ := Prod.mk.inj (hB.symm.trans hpictureB)
  obtain ⟨-, rfl⟩ := Outside.mk.inj hout
  refine ⟨_, ?_, .both accepted hcallsA hsucceeds hcallsB⟩
  simp only [List.append_assoc]

theorem Ends.calls {ended : Except CaseFailure Unit} {outDir : Path} {o' : Outside}
    (h : Ends driver config outDir tc o ended o') :
    ∃ calls, o'.trace = o.trace ++ calls ∧ CaseCalls driver config tc o.trace calls := by
  have hrefused : ¬ Accepted tc → ∃ calls, o.trace = o.trace ++ calls ∧
      CaseCalls driver config tc o.trace calls :=
    fun hnot => ⟨[], (List.append_nil _).symm, .refused hnot⟩
  have htaken : ∀ {screenA screenB : Screenshot} {trace : List Event},
      Taken driver config tc o screenA screenB trace →
        ∃ calls, trace = o.trace ++ calls ∧ CaseCalls driver config tc o.trace calls := by
    intro screenA screenB trace taken
    obtain ⟨between, hA, hB⟩ := taken.pictures
    exact caseCalls_of_ok taken.accepted hA hB
  cases h with
  | addressA a =>
    refine hrefused fun accepted => ?_
    cases a.symm.trans accepted.1
  | addressB a b =>
    refine hrefused fun accepted => ?_
    cases b.symm.trans accepted.2
  | captureA accepted a told => exact caseCalls_of_error accepted a
  | captureB accepted a b told => exact caseCalls_of_ok accepted a b
  | same taken => exact htaken taken
  | decodeA taken => exact htaken taken
  | decodeB taken => exact htaken taken
  | mismatch taken => exact htaken taken

/-- **A picture follows its plan.**  Whatever the browser does, the calls for a picture are made
along its plan, up to and with the first that does not succeed, and then the context is closed,
once, if there is one.  The plan of the second page of a test case is that of the first one but for
the address, and nothing of it is called unless everything has succeeded for the first page, the
closing of its context included. -/
theorem pictures_follow_plan (driver : Driver) (config : Config) (outDir : Path) (tc : TestCase)
    (w : World) :
    (∀ url, ∃ made closing,
      (takeCasePicture driver config url tc w).2.trace = w.trace ++ (made ++ closing) ∧
      PictureCalls driver config url tc w.trace made closing ∧
      (made ++ closing).count .closeContext =
        (if made ≠ [] ∧ driver.reply w.trace (contextEvent config tc) = .done then 1 else 0) ∧
      ((∃ screen, (takeCasePicture driver config url tc w).1 = .ok screen) ↔
        Succeeds driver config url tc w.trace)) ∧
    picturePlan config tc.urlB tc = (picturePlan config tc.urlA tc).set 3 (.goto tc.urlB) ∧
    ∃ calls, (comparePages driver config outDir tc w).2.trace = w.trace ++ calls ∧
      CaseCalls driver config tc w.trace calls := by
  refine ⟨fun url => ?_, picturePlan_eq_set config _ _ tc, ?_⟩
  · obtain ⟨made, closing, r, hcalls, hiff, hpicture⟩ :=
      pictureAt_calls driver config url tc w.outside
    obtain ⟨log, hrun⟩ := yields_picture hpicture w rfl
    refine ⟨made, closing, ?_, hcalls, hcalls.count_closeContext, ?_⟩
    · rw [hrun]
      rfl
    · rw [hrun]
      refine Iff.trans ?_ hiff
      cases r with
      | ok screen => exact ⟨fun _ => ⟨_, rfl⟩, fun _ => ⟨_, rfl⟩⟩
      | error i => exact ⟨nofun, nofun⟩
  · obtain ⟨ended, o', hends⟩ := exists_ends driver config outDir tc w.outside
    obtain ⟨log, hrun⟩ := hends.yields w rfl
    obtain ⟨calls, htrace, hcalls⟩ := hends.calls
    refine ⟨calls, ?_, hcalls⟩
    rw [hrun]
    exact htrace

/-- A test case with an action of each kind, for a picture of an element, with one dimension of its
own. -/
def menuCase : TestCase :=
  ⟨"/x", "/x", "http://a", "http://b", [.click "#menu", .wait ".open"], 0, 7, .element "#box"⟩

/-- A browser that can not click in its second context. -/
def clicksOnce : Driver := Rehearsed.driver
  { scenes := [none, some
      { picture := Rehearsed.blankPage
        cues := [{ step := .click, reply := .fails (.browser "gone") }] }] }

/-- The whole plan of the first page, and that of the second one up to the click. -/
def menuCalls : List Event :=
  [.newContext 1536 7, .defaultTimeout (.int 60000), .newPage, .goto "http://a/x", .networkIdle,
    .click "#menu", .waitAttached ".open", .locate "#box", .screenshot .element, .closeContext,
    .newContext 1536 7, .defaultTimeout (.int 60000), .newPage, .goto "http://b/x", .networkIdle,
    .click "#menu", .closeContext]

theorem pictures_follow_plan_menuCase :
    (comparePages clicksOnce plainConfig (.ofString "out") menuCase
      { disk := { entries := [] } }).2.trace = menuCalls ∧
    CaseCalls clicksOnce plainConfig menuCase [] menuCalls := by
  have htrace : (comparePages clicksOnce plainConfig (.ofString "out") menuCase
      { disk := { entries := [] } }).2.trace = menuCalls := by decide +kernel
  obtain ⟨-, -, calls, hcalls, hcase⟩ := pictures_follow_plan clicksOnce plainConfig
    (.ofString "out") menuCase { disk := { entries := [] } }
  obtain rfl : menuCalls = calls := htrace.symm.trans hcalls
  exact ⟨htrace, hcase⟩

end PageDiff.Run
