import PageDiff.Proofs.Run.OutputDirs
import PageDiff.Proofs.Run.Outside

/-!
# The course of a run

How all test cases of a run end, one after the other, and what is outside meanwhile.  Each test case
finds outside what those before it have left.  A run is smooth if nothing but test cases can fail in
it: the browser answers when it is launched and closed, the directories can be prepared, and no test
case is called off.  All of that is asked of this one course only, not of every other one.
-/

namespace PageDiff.Run

open PageDiff.Browser PageDiff.Script

variable {α β γ ε : Type}

/-- How a test case ends. -/
abbrev Ended := Except CaseFailure Unit

/-- A script with how its test cases have ended. -/
abbrev Played := Path × List (TestCase × Ended)

/-! ### Test cases and scripts -/

/-- Runs one test case. -/
def playCase (driver : Driver) (config : Config) (outDir : Path) (tc : TestCase) :
    StateM Outside (TestCase × Ended) := fun o =>
  let (ended, o) := outcomeAt (comparePages driver config outDir tc) o
  ((tc, ended), o)

/-- What is outside when the directory of a script has been prepared and its browser launched. -/
def Outside.opened (o : Outside) (config : Config) (script : Path) : Outside :=
  ⟨(o.disk.freshDirectory (outputDir config script)).1, o.trace ++ [launchEvent config]⟩

/-- Runs the test cases of a script in a browser of its own. -/
def playCases (driver : Driver) (config : Config) (script : Compiled) (o : Outside) :
    List (TestCase × Ended) × Outside :=
  script.2.mapM (playCase driver config (outputDir config script.1)) (o.opened config script.1)

/-- Runs a script and closes its browser. -/
def playScript (driver : Driver) (config : Config) (script : Compiled) :
    StateM Outside Played := fun o =>
  let (cases, o) := playCases driver config script o
  ((script.1, cases), o.called .closeBrowser)

/-- Runs all scripts. -/
def playAll (driver : Driver) (config : Config) (scripts : List Compiled) :
    StateM Outside (List Played) := scripts.mapM (playScript driver config)

/-- Runs all scripts, from the start of the driver to its stop. -/
def playRun (driver : Driver) (config : Config) (scripts : List Compiled) :
    StateM Outside (List Played) := fun o =>
  let (played, o) := playAll driver config scripts (o.called .start)
  (played, o.called .stop)

theorem playCase_apply (driver : Driver) (config : Config) (outDir : Path) (tc : TestCase)
    (o : Outside) : playCase driver config outDir tc o =
      ((tc, (outcomeAt (comparePages driver config outDir tc) o).1),
        (outcomeAt (comparePages driver config outDir tc) o).2) := rfl

theorem playScript_apply (driver : Driver) (config : Config) (script : Compiled) (o : Outside) :
    playScript driver config script o = ((script.1, (playCases driver config script o).1),
      (playCases driver config script o).2.called .closeBrowser) := rfl

theorem playRun_apply (driver : Driver) (config : Config) (scripts : List Compiled) (o : Outside) :
    playRun driver config scripts o = ((playAll driver config scripts (o.called .start)).1,
      (playAll driver config scripts (o.called .start)).2.called .stop) := rfl

/-! ### One after the other -/

theorem mapM_cons_apply (f : α → StateM Outside β) (a : α) (as : List α) (o : Outside) :
    ((a :: as).mapM f) o =
      ((f a o).1 :: ((as.mapM f) (f a o).2).1, ((as.mapM f) (f a o).2).2) := by
  rw [List.mapM_cons]
  rfl

/-- A condition on every member of a list and on what is outside when its turn comes. -/
def Along (f : α → StateM Outside β) (P : α → Outside → Prop) : List α → Outside → Prop
  | [], _ => True
  | a :: as, o => P a o ∧ Along f P as (f a o).2

instance instDecidableAlong {f : α → StateM Outside β} {P : α → Outside → Prop}
    [∀ a o, Decidable (P a o)] : ∀ as o, Decidable (Along f P as o)
  | [], _ => .isTrue trivial
  | a :: as, o => @instDecidableAnd (P a o) (Along f P as (f a o).2) _
      (instDecidableAlong as (f a o).2)

/-- Every test case has an ending, in order. -/
theorem playCases_fst (driver : Driver) (config : Config) (outDir : Path) (cases : List TestCase)
    (o : Outside) :
    ((cases.mapM (playCase driver config outDir)) o).1.map (·.1) = cases := by
  induction cases generalizing o with
  | nil => rfl
  | cons tc cases ih =>
    rw [mapM_cons_apply, List.map_cons, ih]
    rfl

/-- So has every test case of every script. -/
theorem playAll_fst (driver : Driver) (config : Config) (scripts : List Compiled) (o : Outside) :
    (playAll driver config scripts o).1.map (fun s => (s.1, s.2.map (·.1))) = scripts := by
  unfold playAll
  induction scripts generalizing o with
  | nil => rfl
  | cons script scripts ih =>
    rw [mapM_cons_apply, List.map_cons, ih]
    congr 1
    exact Prod.ext rfl (playCases_fst driver config _ script.2 _)

/-! ### Smooth courses -/

/-- A test case that is not called off. -/
def Ordinary (driver : Driver) (config : Config) (outDir : Path) (tc : TestCase) (o : Outside) :
    Prop := (outcomeAt (comparePages driver config outDir tc) o).1 ≠ .error (.fault .cancelled)

/-- A script in which nothing but test cases fails. -/
structure Smooth (driver : Driver) (config : Config) (script : Compiled) (o : Outside) : Prop where
  rooted : Path.unencodable? config.outputRoot = none
  prepared : (o.disk.freshDirectory (outputDir config script.1)).2 = .ok ()
  launched : driver.reply o.trace (launchEvent config) = .done
  ordinary : Along (playCase driver config (outputDir config script.1))
    (Ordinary driver config (outputDir config script.1)) script.2 (o.opened config script.1)
  closed : driver.reply (playCases driver config script o).2.trace .closeBrowser = .done

/-- A run in which nothing but test cases fails. -/
structure RunSmooth (driver : Driver) (config : Config) (scripts : List Compiled) (o : Outside) :
    Prop where
  started : driver.reply o.trace .start = .done
  each : Along (playScript driver config) (Smooth driver config) scripts (o.called .start)
  stopped : driver.reply (playAll driver config scripts (o.called .start)).2.trace .stop = .done

instance (driver : Driver) (config : Config) (outDir : Path) (tc : TestCase) (o : Outside) :
    Decidable (Ordinary driver config outDir tc o) := inferInstanceAs (Decidable (_ ≠ _))

instance (driver : Driver) (config : Config) (script : Compiled) (o : Outside) :
    Decidable (Smooth driver config script o) :=
  decidable_of_iff
    (Path.unencodable? config.outputRoot = none ∧
      (o.disk.freshDirectory (outputDir config script.1)).2 = .ok () ∧
      driver.reply o.trace (launchEvent config) = .done ∧
      Along (playCase driver config (outputDir config script.1))
        (Ordinary driver config (outputDir config script.1)) script.2
        (o.opened config script.1) ∧
      driver.reply (playCases driver config script o).2.trace .closeBrowser = .done)
    ⟨fun ⟨r, p, l, m, c⟩ => ⟨r, p, l, m, c⟩, fun ⟨r, p, l, m, c⟩ => ⟨r, p, l, m, c⟩⟩

instance (driver : Driver) (config : Config) (scripts : List Compiled) (o : Outside) :
    Decidable (RunSmooth driver config scripts o) :=
  decidable_of_iff
    (driver.reply o.trace .start = .done ∧
      Along (playScript driver config) (Smooth driver config) scripts (o.called .start) ∧
      driver.reply (playAll driver config scripts (o.called .start)).2.trace .stop = .done)
    ⟨fun ⟨s, e, p⟩ => ⟨s, e, p⟩, fun ⟨s, e, p⟩ => ⟨s, e, p⟩⟩

/-! ### Steps of a smooth course -/

theorem yields_callUnlimited {driver : Driver} {e : Event} {o : Outside}
    (h : driver.reply o.trace e = .done) :
    Yields (callUnlimited driver e) o (.ok ()) (o.called e) := by
  have hcall := yields_call driver e o
  rw [h] at hcall
  exact hcall.mapError _

theorem yields_freshOutputDir {config : Config} {script : Path} {o : Outside} {d : Disk}
    (hroot : Path.unencodable? config.outputRoot = none)
    (h : o.disk.freshDirectory (outputDir config script) = (d, .ok ())) :
    Yields (freshOutputDir config script) o (.ok (outputDir config script)) ⟨d, o.trace⟩ := by
  have hdisk : Yields (onDisk fun d => d.freshDirectory (outputDir config script)) o (.ok ())
      ⟨d, o.trace⟩ := by
    rintro w rfl
    change w.disk.freshDirectory _ = _ at h
    exact ⟨w.log, by rw [onDisk, h]; rfl⟩
  have hmade := hdisk.mapError Fault.disk
  unfold freshOutputDir
  rw [hroot]
  exact hmade.bind (yields_pure _)

/-- The disk with the prepared directory of a script. -/
theorem Smooth.exists_disk {driver : Driver} {config : Config} {script : Compiled} {o : Outside}
    (h : Smooth driver config script o) :
    ∃ d, o.disk.freshDirectory (outputDir config script.1) = (d, .ok ()) := by
  have hprepared := h.prepared
  cases hd : o.disk.freshDirectory (outputDir config script.1) with
  | mk d r =>
    rw [hd] at hprepared
    exact ⟨d, by rw [← hprepared]⟩

theorem opened_eq {config : Config} {script : Path} {o : Outside} {d : Disk}
    (h : o.disk.freshDirectory (outputDir config script) = (d, .ok ())) :
    o.opened config script = ⟨d, o.trace ++ [launchEvent config]⟩ := by
  rw [Outside.opened, h]

/-! ### Finding and compiling -/

/-- The scripts that a pattern matches and what they compile to. -/
structure Compiles (d : Disk) (pattern : String) (requireTests : Bool) (scripts : List Compiled) :
    Prop where
  found : findScripts d pattern = .ok (scripts.map (·.1))
  compiled : ∀ c ∈ scripts, compileFile d c.1 = .ok c.2
  tested : requireTests = true → ∀ c ∈ scripts, c.2 ≠ []

/-- A pattern that matches nothing is refused. -/
theorem Compiles.ne_nil {d : Disk} {pattern : String} {requireTests : Bool}
    {scripts : List Compiled} (h : Compiles d pattern requireTests scripts) : scripts ≠ [] := by
  rintro rfl
  have hfound := h.found
  unfold findScripts at hfound
  cases hg : d.glob pattern with
  | error e =>
    rw [hg] at hfound
    cases hfound
  | ok paths =>
    rw [hg] at hfound
    cases paths with
    | nil => cases hfound
    | cons path paths => cases hfound

theorem yields_compileScript {requireTests : Bool} {c : Compiled} {o : Outside}
    (h : compileFile o.disk c.1 = .ok c.2) (ht : requireTests = true → c.2 ≠ []) :
    Yields (compileScript requireTests c.1) o (.ok c) o := by
  refine yields_get_bind fun w hw => ?_
  obtain rfl := hw
  rw [show compileFile w.disk c.1 = _ from h]
  refine (yields_ofExcept (.ok c.2)).bind ?_
  rw [if_neg (by simpa using ht)]
  exact (yields_logLine .info _).bind (yields_pure c)

theorem yields_compileScripts {requireTests : Bool} {scripts : List Compiled} {o : Outside}
    (h : ∀ c ∈ scripts, compileFile o.disk c.1 = .ok c.2)
    (ht : requireTests = true → ∀ c ∈ scripts, c.2 ≠ []) :
    Yields ((scripts.map (·.1)).mapM (compileScript requireTests)) o (.ok scripts) o := by
  induction scripts with
  | nil => exact yields_pure []
  | cons c cs ih =>
    rw [List.map_cons, List.mapM_cons]
    have hrest := ih (fun c' hc' => h c' (by simp [hc'])) fun hr c' hc' => ht hr c' (by simp [hc'])
    exact (yields_compileScript (h c (by simp)) fun hr => ht hr c (by simp)).bind
      (hrest.bind (yields_pure _))

theorem Compiles.yields {pattern : String} {requireTests : Bool} {scripts : List Compiled}
    {o : Outside} (h : Compiles o.disk pattern requireTests scripts) :
    Yields (compileMatching pattern requireTests) o (.ok scripts) o := by
  refine yields_get_bind fun w hw => ?_
  obtain rfl := hw
  rw [show findScripts w.disk pattern = _ from h.found]
  exact (yields_ofExcept _).bind (yields_compileScripts h.compiled h.tested)

end PageDiff.Run
