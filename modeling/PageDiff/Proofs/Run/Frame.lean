import PageDiff.Proofs.Disk.Frame
import PageDiff.Proofs.Run.Carries

/-!
# What a run does to the disk

`Moves R x` says that a computation, however it ends, takes the disk along a relation.  The calls
to the browser, the log and the clock leave the disk alone, a test case keeps every file, and so do
all computations that are made of such parts.
-/

namespace PageDiff.Run

open PageDiff.Browser PageDiff.Disk PageDiff.Script

variable {ε ε' α β : Type} {R : Disk → Disk → Prop}

/-- However a computation ends, the disk has moved along a relation. -/
def Moves (R : Disk → Disk → Prop) (x : Run ε α) : Prop := ∀ w, R w.disk (x w).2.disk

/-- A computation leaves the disk alone. -/
abbrev Quiet (x : Run ε α) : Prop := Moves (· = ·) x

/-- A relation of disks as one of worlds. -/
def OfDisks (R : Disk → Disk → Prop) (w v : World) : Prop := R w.disk v.disk

section Parts

variable {x : Run ε α}

theorem Moves.mapError (hx : Moves R x) (f : ε → ε') : Moves R (x.mapError f) :=
  Carries.mapError (R := OfDisks R) hx f

variable [IsPreorder Disk R]

instance : IsPreorder World (OfDisks R) where
  refl w := refl w.disk
  trans _ _ _ h h' := IsTrans.trans (r := R) _ _ _ h h'

theorem sees_ofDisks : SeesOutside (OfDisks R) := by
  intro w v hdisk _
  rw [OfDisks, hdisk]
  exact refl w.disk

theorem Quiet.moves (h : Quiet x) : Moves R x := by
  intro w
  rw [← h w]
  exact refl w.disk

theorem moves_pure (a : α) : Moves R (pure a : Run ε α) := carries_pure (R := OfDisks R) a

theorem moves_throw (e : ε) : Moves R (throw e : Run ε α) := carries_throw (R := OfDisks R) e

theorem Moves.bind {f : α → Run ε β} (hx : Moves R x) (hf : ∀ a, Moves R (f a)) :
    Moves R (x >>= f) := Carries.bind (R := OfDisks R) hx hf

theorem Moves.cleanedUp {y : Run ε Unit} (hx : Moves R x) (hy : Moves R y) :
    Moves R (x.cleanedUp y) := Carries.cleanedUp (R := OfDisks R) hx hy

theorem moves_mapM {f : α → Run ε β} {xs : List α} (hf : ∀ a ∈ xs, Moves R (f a)) :
    Moves R (xs.mapM f) := carries_mapM (R := OfDisks R) hf

end Parts

/-! ### What leaves the disk alone -/

theorem quiet_get : Quiet (get : Run ε World) := fun _ => rfl

theorem quiet_logLine (level : Level) (text : String) : Quiet (logLine level text : Run ε Unit) :=
  fun _ => rfl

theorem quiet_now (env : Environment) : Quiet (now env : Run ε Number.Double) := fun _ => rfl

theorem quiet_note (e : Event) : Quiet (note e : Run ε Unit) := fun _ => rfl

theorem quiet_call (driver : Driver) (e : Event) : Quiet (call driver e) := by
  intro w
  unfold call
  simp only
  cases driver.reply w.trace e <;> rfl

theorem quiet_callAll (driver : Driver) (events : List Event) : Quiet (callAll driver events) := by
  induction events with
  | nil => exact moves_pure ()
  | cons e es ih => exact (quiet_call driver e).bind fun _ => ih

theorem quiet_callUnlimited (driver : Driver) (e : Event) : Quiet (callUnlimited driver e) :=
  (quiet_call driver e).mapError _

theorem quiet_onPage (driver : Driver) (url : String) (actions : List Action)
    (shown : Kinded Capture) : Quiet (onPage driver url actions shown) := by
  refine (quiet_callAll driver _).bind fun _ => ?_
  cases shown with
  | error kind => exact moves_throw _
  | ok capture =>
    exact (quiet_callAll driver _).bind fun _ => quiet_get.bind fun _ => moves_pure _

theorem quiet_inContext (driver : Driver) (config : Config) (url : String) (tc : TestCase)
    (shown : Kinded Capture) : Quiet (inContext driver config url tc shown) := by
  refine (quiet_call driver _).bind fun _ => (quiet_note _).bind fun _ => ?_
  exact (quiet_onPage driver url tc.actions shown).cleanedUp (quiet_call driver _)

theorem quiet_takePicture (driver : Driver) (config : Config) (url : String) (tc : TestCase)
    (shown : Kinded Capture) : Quiet (takePicture driver config url tc shown) := by
  unfold takePicture
  split
  · exact moves_throw _
  · exact (quiet_inContext driver config url tc shown).mapError _

/-! ### Writing pictures -/

/-- A picture leaves the disk alone, or puts a file where one can be opened for it. -/
theorem savePicture_disk (d : Disk) (p : Path) (image : Image) :
    (savePicture d p image).1 = d ∨ ∃ place c, d.openForWriting p = .ok place ∧
      (savePicture d p image).1 = d.put place (.file c) := by
  unfold savePicture
  cases h : d.openForWriting p with
  | error e => exact .inl rfl
  | ok place =>
    simp only
    split
    · split
      · exact .inr ⟨place, _, rfl, rfl⟩
      · exact .inl rfl
    · exact .inr ⟨place, _, rfl, rfl⟩

/-- A task does to the disk what saving its picture does, if there is a picture. -/
theorem perform_disk (t : WriteTask) (d : Disk) : (t.perform d).1 =
    match t.picture with
    | .error _ => d
    | .ok image => (savePicture d t.path image).1 := by
  unfold WriteTask.perform
  cases t.picture with
  | error f => rfl
  | ok image =>
    simp only
    cases savePicture d t.path image with
    | mk d' r => cases r <;> rfl

theorem perform_carries [IsPreorder Disk R] {t : WriteTask}
    (h : ∀ d image, R d (savePicture d t.path image).1) (d : Disk) : R d (t.perform d).1 := by
  rw [perform_disk]
  cases t.picture with
  | error f => exact refl d
  | ok image => exact h d image

/-- What saving each of their pictures does, several tasks do. -/
theorem performAll_carries [IsPreorder Disk R] {ts : List WriteTask}
    (h : ∀ t ∈ ts, ∀ d image, R d (savePicture d t.path image).1) (d : Disk) :
    R d (WriteTask.performAll ts d).1 := by
  induction ts generalizing d with
  | nil => exact refl d
  | cons t ts ih =>
    exact IsTrans.trans _ _ _ (perform_carries (h t (by simp)) d)
      (ih (fun t' ht' => h t' (by simp [ht'])) (t.perform d).1)

theorem path_mem_of_mem_writeTasks {paths : ArtifactPaths} {a b : Image}
    {threshold : Number.Numeric} {t : WriteTask} (h : t ∈ writeTasks paths a b threshold) :
    t.path ∈ paths.toList := by
  simp only [writeTasks, List.mem_cons, List.not_mem_nil, or_false] at h
  rcases h with rfl | rfl | rfl <;> simp [ArtifactPaths.toList]

/-- Telling a mismatch does to the disk what writing the artifacts does. -/
theorem reportMismatch_disk {config : Config} {tc : TestCase} {outDir : Path} {a b : Image}
    {paths : ArtifactPaths} (h : ArtifactPaths.ofTest outDir tc.name tc.urlA tc.urlB = .ok paths)
    (w : World) :
    ((reportMismatch config tc outDir a b) w).2.disk =
      (writeArtifacts w.disk paths a b (.double config.threshold)).1 := by
  unfold reportMismatch
  rw [h]
  cases hw : writeArtifacts w.disk paths a b (.double config.threshold) with
  | mk d failure =>
    have hget : (get : Run CaseFailure World) w = (.ok w, w) := rfl
    simp only
    rw [bind_apply_of_ok hget, hw]
    cases failure <;> rfl

section Mismatches

variable {config : Config} {tc : TestCase} {outDir : Path}

/-- What saving a picture as each of its artifacts does, telling a mismatch does. -/
theorem moves_reportMismatch [IsPreorder Disk R]
    (h : ∀ paths, ArtifactPaths.ofTest outDir tc.name tc.urlA tc.urlB = .ok paths →
      ∀ p ∈ paths.toList, ∀ d image, R d (savePicture d p image).1) (a b : Image) :
    Moves R (reportMismatch config tc outDir a b) := by
  intro w
  cases hpaths : ArtifactPaths.ofTest outDir tc.name tc.urlA tc.urlB with
  | error e =>
    unfold reportMismatch
    rw [hpaths]
    exact moves_throw _ w
  | ok paths =>
    rw [reportMismatch_disk hpaths]
    exact performAll_carries (fun t ht => h paths hpaths t.path (path_mem_of_mem_writeTasks ht)) _

/-- And so does a test case. -/
theorem moves_comparePages [IsPreorder Disk R] (driver : Driver)
    (h : ∀ paths, ArtifactPaths.ofTest outDir tc.name tc.urlA tc.urlB = .ok paths →
      ∀ p ∈ paths.toList, ∀ d image, R d (savePicture d p image).1) :
    Moves R (comparePages driver config outDir tc) :=
  sees_ofDisks.comparePages (fun _ => (quiet_takePicture driver config _ tc _).moves)
    (moves_reportMismatch h)

end Mismatches

/-! ### What keeps every file -/

variable {cur : Place} {kept : Place → Prop}

theorem savePicture_keeps (d : Disk) (p : Path) (image : Image) :
    Keeps cur kept d (savePicture d p image).1 := by
  rcases savePicture_disk d p image with h | ⟨place, c, ho, h⟩
  · rw [h]
    exact refl d
  · rw [h]
    exact put_file_keeps (openForWriting_eq_ok ho).1 c

theorem performAll_keeps (ts : List WriteTask) (d : Disk) :
    Keeps cur kept d (WriteTask.performAll ts d).1 :=
  performAll_carries (fun t _ d image => savePicture_keeps d t.path image) d

theorem comparePages_keeps (driver : Driver) (config : Config) (outDir : Path) (tc : TestCase) :
    Moves (Keeps cur kept) (comparePages driver config outDir tc) :=
  moves_comparePages driver fun _ _ p _ d image => savePicture_keeps d p image

end PageDiff.Run
