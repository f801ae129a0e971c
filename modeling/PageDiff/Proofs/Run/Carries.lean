import Mathlib.Order.Defs.Unbundled
import PageDiff.Proofs.Outcome
import PageDiff.Run.Session

/-!
# Where a computation takes the world

`Carries R x` says that a computation, however it ends, takes the world along a relation.  If the
relation is a preorder, whatever is put together from such computations takes the world along it as
well.  The same holds of computations that also change a session.
-/

namespace PageDiff.Run

open PageDiff.Browser PageDiff.Script

variable {ε ε' α β : Type}

/-! ### Computations on the world -/

section Worlds

variable {R : World → World → Prop} {x : Run ε α}

/-- However a computation ends, it takes the world along a relation. -/
def Carries (R : World → World → Prop) (x : Run ε α) : Prop := ∀ w, R w (x w).2

theorem mapError_apply (f : ε → ε') (w : World) :
    x.mapError f w = ((x w).1.mapError f, (x w).2) := by
  unfold Run.mapError
  cases h : x w with
  | mk r v => cases r <;> rfl

theorem Carries.mapError (hx : Carries R x) (f : ε → ε') : Carries R (x.mapError f) := by
  intro w
  rw [mapError_apply]
  exact hx w

theorem Carries.mono {R' : World → World → Prop} (hx : Carries R x)
    (h : ∀ w v, R w v → R' w v) : Carries R' x := fun w => h _ _ (hx w)

theorem Carries.attempt (hx : Carries R x) : Carries R (x.attempt : Run ε' (Except ε α)) := hx

variable [IsPreorder World R]

theorem carries_pure (a : α) : Carries R (pure a : Run ε α) := fun w => refl w

theorem carries_throw (e : ε) : Carries R (throw e : Run ε α) := fun w => refl w

/-- What follows needs to be known only for results that there can be. -/
theorem Carries.bind_of_ok {f : α → Run ε β} (hx : Carries R x)
    (hf : ∀ a w v, x w = (.ok a, v) → Carries R (f a)) : Carries R (x >>= f) := by
  intro w
  have hw := hx w
  cases h : x w with
  | mk r v =>
    rw [h] at hw
    cases r with
    | ok a =>
      rw [bind_apply_of_ok h]
      exact IsTrans.trans _ _ _ hw (hf a w v h v)
    | error e =>
      rw [bind_apply_of_error h]
      exact hw

theorem Carries.bind {f : α → Run ε β} (hx : Carries R x) (hf : ∀ a, Carries R (f a)) :
    Carries R (x >>= f) := hx.bind_of_ok fun a _ _ _ => hf a

theorem Carries.cleanedUp {y : Run ε Unit} (hx : Carries R x) (hy : Carries R y) :
    Carries R (x.cleanedUp y) := by
  intro w
  have hw := hx w
  unfold Run.cleanedUp
  cases h : x w with
  | mk r v =>
    rw [h] at hw
    have hv := hy v
    simp only
    cases h' : y v with
    | mk r' v' =>
      rw [h'] at hv
      cases r' <;> exact IsTrans.trans _ _ _ hw hv

theorem carries_mapM {f : α → Run ε β} {xs : List α} (hf : ∀ a ∈ xs, Carries R (f a)) :
    Carries R (xs.mapM f) := by
  induction xs with
  | nil => exact carries_pure []
  | cons a xs ih =>
    rw [List.mapM_cons]
    refine (hf a (by simp)).bind fun b => ?_
    exact (ih fun a' ha' => hf a' (by simp [ha'])).bind fun bs => carries_pure _

theorem carries_forM {f : α → Run ε PUnit} (xs : List α) (hf : ∀ a, Carries R (f a)) :
    Carries R (xs.forM f) := by
  induction xs with
  | nil => exact carries_pure _
  | cons a xs ih => exact (hf a).bind fun _ => ih

end Worlds

/-! ### Test cases -/

section Cases

variable {R : World → World → Prop}

/-- A relation that sees neither the log nor the clock. -/
def IgnoresLog (R : World → World → Prop) : Prop :=
  ∀ (w : World) log clock, R w { w with log := log, clock := clock }

theorem IgnoresLog.logLine (h : IgnoresLog R) (level : Level) (text : String) :
    Carries R (logLine level text : Run ε Unit) := fun w => h w _ _

theorem IgnoresLog.now (h : IgnoresLog R) (env : Environment) :
    Carries R (now env : Run ε Number.Double) := fun w => h w _ _

/-- A relation that sees only the disk and the calls made to the browser. -/
def SeesOutside (R : World → World → Prop) : Prop :=
  ∀ w v : World, v.disk = w.disk → v.trace = w.trace → R w v

theorem SeesOutside.ignoresLog (h : SeesOutside R) : IgnoresLog R := fun w _ _ => h w _ rfl rfl

/-- Whoever is told of test cases takes the world along a relation. -/
structure Reporter.Carries (R : World → World → Prop) (reporter : Reporter) : Prop where
  started : ∀ script tc, Run.Carries R (reporter.started script tc)
  finished : ∀ script r, Run.Carries R (reporter.finished script r)

theorem Reporter.Carries.mono {R' : World → World → Prop} {reporter : Reporter}
    (hr : reporter.Carries R) (h : ∀ w v, R w v → R' w v) : reporter.Carries R' where
  started script tc := (hr.started script tc).mono h
  finished script r := (hr.finished script r).mono h

variable [IsPreorder World R] {env : Environment} {config : Config} {reporter : Reporter}
  {outDir : Path} {tc : TestCase}

theorem IgnoresLog.verdict (h : IgnoresLog R) (tc : TestCase) (ended : Except CaseFailure Unit) :
    Carries R (verdict tc ended) := by
  unfold Run.verdict
  split
  · exact carries_pure _
  · exact carries_pure _
  · exact (h.logLine _ _).bind fun _ => carries_pure _
  · exact carries_throw _
  · exact (h.logLine _ _).bind fun _ => carries_pure _

/-- Addresses and images are only looked at. -/
theorem SeesOutside.comparePages {driver : Driver} (h : SeesOutside R)
    (hpicture : ∀ url, Carries R (takeCasePicture driver config url tc))
    (hreport : ∀ a b, Carries R (reportMismatch config tc outDir a b)) :
    Carries R (comparePages driver config outDir tc) := by
  have haccept : ∀ url, Carries R (acceptUrl url) := by
    intro url
    unfold acceptUrl
    split
    · exact carries_pure ()
    · exact carries_throw _
  have hdecode : ∀ url shot, Carries R (decodePicture url shot) := by
    intro url shot
    unfold decodePicture
    split
    · exact carries_pure _
    · exact carries_throw _
  have hlog := h.ignoresLog
  refine (hlog.logLine _ _).bind fun _ => (haccept _).bind fun _ => (haccept _).bind fun _ =>
    (hpicture _).bind fun a => (hpicture _).bind fun b => ?_
  split
  · exact hlog.logLine _ _
  · exact (hlog.logLine _ _).bind fun _ => (hdecode _ _).bind fun _ => (hdecode _ _).bind fun _ =>
      hreport _ _

theorem IgnoresLog.recordCase (h : IgnoresLog R)
    (hcase : Carries R (Run.comparePages env.driver config outDir tc)) :
    Carries R (recordCase env config outDir tc) := by
  refine (h.now env).bind fun _ => hcase.attempt.bind fun ended => ?_
  exact (h.verdict tc ended).bind fun _ => (h.now env).bind fun _ => carries_pure _

theorem IgnoresLog.reportedCase (h : IgnoresLog R) (hr : reporter.Carries R) (script : Path)
    (hcase : Carries R (Run.comparePages env.driver config outDir tc)) :
    Carries R (reportedCase env config reporter script outDir tc) := by
  refine (hr.started script tc).bind fun _ => (h.recordCase hcase).bind fun r => ?_
  exact (hr.finished script r).bind fun _ => carries_pure _

end Cases

/-! ### Compiling -/

/-- Nothing has changed but the log. -/
def OnlyLogs (w v : World) : Prop := ∃ log, v = { w with log := log }

instance : IsPreorder World OnlyLogs where
  refl w := ⟨w.log, rfl⟩
  trans _ _ _ := by
    rintro ⟨log, rfl⟩ ⟨log', rfl⟩
    exact ⟨log', rfl⟩

theorem onlyLogs_logLine (level : Level) (text : String) :
    Carries OnlyLogs (logLine level text : Run ε Unit) := fun w => ⟨w.log ++ [⟨level, text⟩], rfl⟩

theorem onlyLogs_ask : Carries OnlyLogs (get : Run ε World) := fun w => refl w

theorem onlyLogs_ofExcept (r : Except ε α) : Carries OnlyLogs (ofExcept r) := fun w => refl w

/-- A script is read and compiled, and the disk is only asked for that. -/
theorem onlyLogs_compileScript (requireTests : Bool) (path : Path) :
    Carries OnlyLogs (compileScript requireTests path) := by
  refine onlyLogs_ask.bind fun _ => (onlyLogs_ofExcept _).bind fun _ => ?_
  split
  · exact carries_throw _
  · exact (onlyLogs_logLine _ _).bind fun _ => carries_pure _

theorem onlyLogs_compileMatching (pattern : String) (requireTests : Bool) :
    Carries OnlyLogs (compileMatching pattern requireTests) :=
  onlyLogs_ask.bind fun _ => (onlyLogs_ofExcept _).bind fun _ =>
    carries_mapM fun path _ => onlyLogs_compileScript requireTests path

/-! ### Computations on a session -/

section Sessions

theorem session_bind_of_ok {x : WithSession α} {f : α → WithSession β} {s s' : Session}
    {w v : World} {a : α} (h : x s w = ((.ok a, s'), v)) : (x >>= f) s w = f a s' v := by
  simp only [Bind.bind, ExceptT.bind, ExceptT.mk, StateT.bind]
  rw [h]
  rfl

theorem session_bind_of_error {x : WithSession α} {f : α → WithSession β} {s s' : Session}
    {w v : World} {e : CaseFailure} (h : x s w = ((.error e, s'), v)) :
    (x >>= f) s w = ((.error e, s'), v) := by
  simp only [Bind.bind, ExceptT.bind, ExceptT.mk, StateT.bind]
  rw [h]
  rfl

variable {R : Session × World → Session × World → Prop} {env : Environment} {config : Config}

/-- However a computation ends, it takes the session and the world along a relation. -/
def CarriesSession (R : Session × World → Session × World → Prop) (x : WithSession α) : Prop :=
  ∀ s w, R (s, w) ((x s w).1.2, (x s w).2)

variable [IsPreorder (Session × World) R]

theorem carriesSession_pure (a : α) : CarriesSession R (pure a) :=
  fun s w => IsPreorder.toRefl.refl (s, w)

theorem carriesSession_session : CarriesSession R WithSession.session :=
  fun s w => IsPreorder.toRefl.refl (s, w)

theorem CarriesSession.bind {x : WithSession α} {f : α → WithSession β}
    (hx : CarriesSession R x) (hf : ∀ a, CarriesSession R (f a)) :
    CarriesSession R (x >>= f) := by
  intro s w
  have hw := hx s w
  cases h : x s w with
  | mk r v =>
    obtain ⟨r, s'⟩ := r
    rw [h] at hw
    cases r with
    | ok a =>
      rw [session_bind_of_ok h]
      exact IsTrans.trans _ _ _ hw (hf a s' v)
    | error e =>
      rw [session_bind_of_error h]
      exact hw

namespace Session

/-- A relation that requests keep, and changes of what a session knows of its browser. -/
structure Allows (env : Environment) (R : Session × World → Session × World → Prop) : Prop where
  request : ∀ e, CarriesSession R (request env e)
  update : ∀ f : Session → Session, (∀ s, (f s).outDirs = s.outDirs) →
    CarriesSession R (WithSession.update f)

theorem Allows.closeBrowser (h : Allows env R) : CarriesSession R (closeBrowser env) := by
  refine carriesSession_session.bind fun s => ?_
  split
  · exact (h.request _).bind fun _ => h.update _ fun _ => rfl
  · exact carriesSession_pure ()

theorem Allows.ensureStarted (h : Allows env R) : CarriesSession R (ensureStarted env) := by
  refine carriesSession_session.bind fun s => ?_
  split
  · exact carriesSession_pure ()
  · exact (h.request _).bind fun _ => h.update _ fun _ => rfl

theorem Allows.ensureBrowser (h : Allows env R) (script : Path) :
    CarriesSession R (ensureBrowser env config script) := by
  refine carriesSession_session.bind fun s => ?_
  split
  · exact carriesSession_pure ()
  · exact h.closeBrowser.bind fun _ => (h.request _).bind fun _ => h.update _ fun _ => rfl

theorem Allows.close (h : Allows env R) : CarriesSession R (close env) := by
  refine h.closeBrowser.bind fun _ => carriesSession_session.bind fun s => ?_
  split
  · exact (h.request _).bind fun _ => h.update _ fun _ => rfl
  · exact carriesSession_pure ()

end Session

end Sessions

end PageDiff.Run
