import PageDiff.Proofs.Run.Frame

/-!
# What is outside

The disk and the calls made to the browser are outside the program; the log, the clock, notices and
what is printed are its own.  `Yields x o r o'` says how a computation ends and what it leaves
outside when it starts with `o` outside, and that besides it only writes to the log.  Whatever is
`Outward` depends on nothing but what is outside; running one test case is.
-/

namespace PageDiff.Run

open PageDiff.Browser PageDiff.Script

variable {ε ε' α β : Type}

/-- The disk, and the calls made to the browser. -/
structure Outside where
  disk : Disk
  trace : List Event

namespace World

def outside (w : World) : Outside := ⟨w.disk, w.trace⟩

/-- A world after something has happened outside and has been logged. -/
def after (w : World) (o : Outside) (log : List LogLine) : World :=
  { w with disk := o.disk, trace := o.trace, log }

@[simp] theorem outside_after (w : World) (o : Outside) (log : List LogLine) :
    (w.after o log).outside = o := rfl

@[simp] theorem after_after (w : World) (o o' : Outside) (log log' : List LogLine) :
    (w.after o log).after o' log' = w.after o' log' := rfl

end World

/-- How a computation ends and what it leaves outside, when nothing else has happened before. -/
def outcomeAt (x : Run ε α) (o : Outside) : Except ε α × Outside :=
  let (r, w) := x { disk := o.disk, trace := o.trace }
  (r, w.outside)

/-- With `o` outside, a computation ends with `r` and leaves `o'` outside.  Besides it only writes
to the log. -/
def Yields (x : Run ε α) (o : Outside) (r : Except ε α) (o' : Outside) : Prop :=
  ∀ w : World, w.outside = o → ∃ log, x w = (r, w.after o' log)

/-- What is outside decides how a computation ends and what it leaves outside. -/
def Outward (x : Run ε α) : Prop := ∀ o, ∃ r o', Yields x o r o'

/-! ### Outcomes -/

section Outcomes

variable {x : Run ε α} {o o' : Outside} {r : Except ε α}

theorem Yields.outcomeAt_eq (h : Yields x o r o') : outcomeAt x o = (r, o') := by
  obtain ⟨log, hx⟩ := h { disk := o.disk, trace := o.trace } rfl
  rw [outcomeAt, hx]
  rfl

theorem Outward.yields (h : Outward x) : Yields x o (outcomeAt x o).1 (outcomeAt x o).2 := by
  obtain ⟨r, o', hy⟩ := h o
  rwa [hy.outcomeAt_eq]

theorem Outward.yields_of (h : Outward x) (hx : outcomeAt x o = (r, o')) : Yields x o r o' := by
  have hy := h.yields (o := o)
  rwa [hx] at hy

/-- What a computation leaves alone is the same outside. -/
theorem outcomeAt_disk (hx : Quiet x) : (outcomeAt x o).2.disk = o.disk :=
  (hx { disk := o.disk, trace := o.trace }).symm

end Outcomes

/-! ### One after the other -/

section Parts

variable {x : Run ε α} {o o' o'' : Outside}

theorem yields_pure (a : α) : Yields (pure a : Run ε α) o (.ok a) o := by
  rintro w rfl
  exact ⟨w.log, rfl⟩

theorem yields_throw (e : ε) : Yields (throw e : Run ε α) o (.error e) o := by
  rintro w rfl
  exact ⟨w.log, rfl⟩

theorem Yields.bind {f : α → Run ε β} {a : α} {r : Except ε β} (hx : Yields x o (.ok a) o')
    (hf : Yields (f a) o' r o'') : Yields (x >>= f) o r o'' := by
  intro w hw
  obtain ⟨log, hx⟩ := hx w hw
  obtain ⟨log', hf⟩ := hf (w.after o' log) rfl
  exact ⟨log', by rw [bind_apply_of_ok hx, hf, World.after_after]⟩

theorem Yields.bind_of_error {f : α → Run ε β} {e : ε} (hx : Yields x o (.error e) o') :
    Yields (x >>= f) o (.error e) o' := by
  intro w hw
  obtain ⟨log, hx⟩ := hx w hw
  exact ⟨log, bind_apply_of_error hx⟩

theorem Yields.mapError {r : Except ε α} (hx : Yields x o r o') (f : ε → ε') :
    Yields (x.mapError f) o (r.mapError f) o' := by
  intro w hw
  obtain ⟨log, hx⟩ := hx w hw
  refine ⟨log, ?_⟩
  unfold Run.mapError
  rw [hx]
  cases r <;> rfl

theorem outward_pure (a : α) : Outward (pure a : Run ε α) := fun o => ⟨.ok a, o, yields_pure a⟩

theorem outward_throw (e : ε) : Outward (throw e : Run ε α) :=
  fun o => ⟨.error e, o, yields_throw e⟩

theorem Outward.bind {f : α → Run ε β} (hx : Outward x) (hf : ∀ a, Outward (f a)) :
    Outward (x >>= f) := by
  intro o
  obtain ⟨r, o', hx⟩ := hx o
  cases r with
  | error e => exact ⟨.error e, o', hx.bind_of_error⟩
  | ok a =>
    obtain ⟨r, o'', hf⟩ := hf a o'
    exact ⟨r, o'', hx.bind hf⟩

theorem Outward.mapError (hx : Outward x) (f : ε → ε') : Outward (x.mapError f) := by
  intro o
  obtain ⟨r, o', hx⟩ := hx o
  exact ⟨_, o', hx.mapError f⟩

/-- How a computation ends that is cleaned up after. -/
def endsCleaned (r : Except ε α) : Except ε Unit → Except ε α
  | .ok _ => r
  | .error e => .error e

theorem Yields.cleanedUp {y : Run ε Unit} {r : Except ε α} {r' : Except ε Unit}
    (hx : Yields x o r o') (hy : Yields y o' r' o'') :
    Yields (x.cleanedUp y) o (endsCleaned r r') o'' := by
  intro w hw
  obtain ⟨log, hx⟩ := hx w hw
  obtain ⟨log', hy⟩ := hy (w.after o' log) rfl
  refine ⟨log', ?_⟩
  unfold Run.cleanedUp
  rw [hx]
  simp only
  rw [hy]
  cases r' <;> rfl

theorem Outward.cleanedUp {y : Run ε Unit} (hx : Outward x) (hy : Outward y) :
    Outward (x.cleanedUp y) := by
  intro o
  obtain ⟨r, o', hx⟩ := hx o
  obtain ⟨r', o'', hy⟩ := hy o'
  exact ⟨_, o'', hx.cleanedUp hy⟩

end Parts

/-! ### Calls, questions and lines of the log -/

theorem yields_logLine {o : Outside} (level : Level) (text : String) :
    Yields (logLine level text : Run ε Unit) o (.ok ()) o := by
  rintro w rfl
  exact ⟨w.log ++ [⟨level, text⟩], rfl⟩

theorem outward_logLine (level : Level) (text : String) :
    Outward (logLine level text : Run ε Unit) := fun o => ⟨.ok (), o, yields_logLine level text⟩

theorem yields_ofExcept {o : Outside} (r : Except ε α) : Yields (ofExcept r) o r o := by
  rintro w rfl
  exact ⟨w.log, rfl⟩

/-- A computation may look at the world, but only at what is outside. -/
theorem yields_get_bind {f : World → Run ε α} {o o' : Outside} {r : Except ε α}
    (h : ∀ w : World, w.outside = o → Yields (f w) o r o') : Yields (get >>= f) o r o' := by
  intro w hw
  obtain ⟨log, hfw⟩ := h w hw w hw
  have hget : (get : Run ε World) w = (.ok w, w) := rfl
  exact ⟨log, by rw [bind_apply_of_ok hget, hfw]⟩

/-- What is outside after a call. -/
def Outside.called (o : Outside) (e : Event) : Outside := ⟨o.disk, o.trace ++ [e]⟩

theorem yields_note (e : Event) (o : Outside) :
    Yields (note e : Run ε Unit) o (.ok ()) (o.called e) := by
  rintro w rfl
  exact ⟨w.log, rfl⟩

theorem outward_note (e : Event) : Outward (note e : Run ε Unit) :=
  fun o => ⟨.ok (), o.called e, yields_note e o⟩

/-- What an answer of the browser means for a call. -/
def answered : Reply → Except Interruption Unit
  | .done => .ok ()
  | .fails f => .error (.fault f)
  | .hangs => .error .expired

theorem yields_call (driver : Driver) (e : Event) (o : Outside) :
    Yields (call driver e) o (answered (driver.reply o.trace e)) (o.called e) := by
  rintro w rfl
  refine ⟨w.log, ?_⟩
  unfold call
  change _ = (answered (driver.reply w.trace e), _)
  cases driver.reply w.trace e <;> rfl

theorem outward_call (driver : Driver) (e : Event) : Outward (call driver e) :=
  fun o => ⟨_, _, yields_call driver e o⟩

theorem outward_callAll (driver : Driver) (events : List Event) :
    Outward (callAll driver events) := by
  induction events with
  | nil => exact outward_pure ()
  | cons e es ih => exact (outward_call driver e).bind fun _ => ih

/-! ### Test cases -/

theorem yields_handedOver (driver : Driver) (o : Outside) :
    Yields (do return driver.picture (← get).trace : Run Interruption Screenshot) o
      (.ok (driver.picture o.trace)) o := by
  refine yields_get_bind fun w hw => ?_
  rw [← hw]
  exact yields_pure _

theorem outward_onPage (driver : Driver) (url : String) (actions : List Action)
    (shown : Kinded Capture) : Outward (onPage driver url actions shown) := by
  refine (outward_callAll driver _).bind fun _ => ?_
  cases shown with
  | error kind => exact outward_throw _
  | ok capture =>
    exact (outward_callAll driver _).bind fun _ o => ⟨_, o, yields_handedOver driver o⟩

theorem outward_inContext (driver : Driver) (config : Config) (url : String) (tc : TestCase)
    (shown : Kinded Capture) : Outward (inContext driver config url tc shown) := by
  refine (outward_call driver _).bind fun _ => (outward_note _).bind fun _ => ?_
  exact (outward_onPage driver url tc.actions shown).cleanedUp (outward_call driver _)

theorem outward_takePicture (driver : Driver) (config : Config) (url : String) (tc : TestCase)
    (shown : Kinded Capture) : Outward (takePicture driver config url tc shown) := by
  unfold takePicture
  split
  · exact outward_throw _
  · exact (outward_inContext driver config url tc shown).mapError _

theorem outward_acceptUrl (url : String) : Outward (acceptUrl url) := by
  unfold acceptUrl
  split
  · exact outward_pure ()
  · exact outward_throw _

theorem outward_decodePicture (url : String) (shot : Screenshot) :
    Outward (decodePicture url shot) := by
  unfold decodePicture
  split
  · exact outward_pure _
  · exact outward_throw _

/-- Telling a mismatch writes the artifacts, and tells which of them could not be written. -/
theorem yields_reportMismatch {config : Config} {tc : TestCase} {outDir : Path} {a b : Image}
    {paths : ArtifactPaths} {o : Outside} {d : Disk} {failure : Option ArtifactError}
    (h : ArtifactPaths.ofTest outDir tc.name tc.urlA tc.urlB = .ok paths)
    (hw : writeArtifacts o.disk paths a b (.double config.threshold) = (d, failure)) :
    Yields (reportMismatch config tc outDir a b) o
      (.error (.mismatch ⟨tc.urlA, tc.urlB, failure⟩)) ⟨d, o.trace⟩ := by
  rintro w rfl
  change writeArtifacts w.disk _ _ _ _ = _ at hw
  have hget : (get : Run CaseFailure World) w = (.ok w, w) := rfl
  unfold reportMismatch
  rw [h]
  simp only
  rw [bind_apply_of_ok hget, hw]
  cases failure with
  | none => exact ⟨_, rfl⟩
  | some e => exact ⟨_, rfl⟩

theorem outward_reportMismatch (config : Config) (tc : TestCase) (outDir : Path) (a b : Image) :
    Outward (reportMismatch config tc outDir a b) := by
  intro o
  cases h : ArtifactPaths.ofTest outDir tc.name tc.urlA tc.urlB with
  | error e =>
    refine ⟨.error (.fault (.url e)), o, ?_⟩
    unfold reportMismatch
    rw [h]
    exact yields_throw _
  | ok paths =>
    exact ⟨_, _, yields_reportMismatch h rfl⟩

/-- How a test case ends and what it leaves outside depends on what is outside, and on nothing
else that has happened. -/
theorem outward_comparePages (driver : Driver) (config : Config) (outDir : Path) (tc : TestCase) :
    Outward (comparePages driver config outDir tc) := by
  refine (outward_logLine _ _).bind fun _ => (outward_acceptUrl _).bind fun _ =>
    (outward_acceptUrl _).bind fun _ => (outward_takePicture _ _ _ _ _).bind fun a =>
    (outward_takePicture _ _ _ _ _).bind fun b => ?_
  split
  · exact outward_logLine _ _
  · exact (outward_logLine _ _).bind fun _ => (outward_decodePicture _ _).bind fun _ =>
      (outward_decodePicture _ _).bind fun _ => outward_reportMismatch config tc outDir _ _

end PageDiff.Run
