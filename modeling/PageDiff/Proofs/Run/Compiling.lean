import PageDiff.Proofs.Disk.Glob
import PageDiff.Proofs.Run.Course
import PageDiff.Proofs.Run.Evidence

/-!
# Nothing runs before everything compiles

A run compiles all scripts that its pattern matches, one after the other, before it does anything
else.  The first of them that can not be read or compiled, or has no test case though it must have
one, ends the run, and then nothing has been done but lines of the log.  Main statement:
`nothing_runs_before_all_compile`.
-/

namespace PageDiff.Run

open PageDiff.Disk PageDiff.Script

variable {ε α β : Type} {d : Disk} {requireTests : Bool} {path : Path} {f : RunFailure}

/-! ### One script -/

/-- A script that can not be read or compiled, or has no test case though it must have one. -/
def Broken (d : Disk) (requireTests : Bool) (path : Path) : Prop :=
  (∃ e, compileFile d path = .error e) ∨ (requireTests = true ∧ compileFile d path = .ok [])

/-- How a broken script ends a run: with a problem in the script, which it names, or by name. -/
inductive ScriptFails (d : Disk) (requireTests : Bool) (path : Path) : RunFailure → Prop
  | invalid {e : CompileError} (compiled : compileFile d path = .error (.compile e))
      (script : e.script = some path.text) : ScriptFails d requireTests path (.compile e)
  | empty (compiled : compileFile d path = .ok []) (required : requireTests = true) :
      ScriptFails d requireTests path (.discovery (.noTests path.text))

/-- A script that can be run, and its test cases. -/
def ScriptCompiles (d : Disk) (requireTests : Bool) (c : Compiled) : Prop :=
  compileFile d c.1 = .ok c.2 ∧ (requireTests = true → c.2 ≠ [])

theorem read_ne_nullCharacter (h : IsPassable path.text) : d.read path ≠ .error .nullCharacter := by
  unfold Disk.read withPath
  rw [if_neg (by simpa [IsPassable] using h)]
  split <;> simp

/-- A failure to compile a file names the file. -/
theorem script_of_compileFile {e : CompileError} (h : compileFile d path = .error (.compile e)) :
    e.script = some path.text := by
  unfold compileFile at h
  split at h
  · next e' he =>
    obtain rfl := Except.error.inj h
    unfold readText at he
    simp only at he
    split at he
    · cases he
    · rw [← FileError.compile.inj (Except.error.inj he)]
    · split at he
      · rw [← FileError.compile.inj (Except.error.inj he)]
      · cases he
  · split at h
    · next e' he =>
      rw [← FileError.compile.inj (Except.error.inj h)]
      unfold compile at he
      split at he
      · rw [← Except.error.inj he]
      · cases he
    · cases h

theorem compileFile_ne_fault (h : IsPassable path.text) (fault : Fault) :
    compileFile d path ≠ .error (.fault fault) := by
  intro he
  unfold compileFile at he
  split at he
  · next e hread =>
    rw [Except.error.inj he] at hread
    unfold readText at hread
    simp only at hread
    split at hread
    · next hnull => exact read_ne_nullCharacter h hnull
    · cases hread
    · split at hread
      · cases hread
      · cases hread
  · split at he
    · cases he
    · cases he

theorem fails_or_compiles (d : Disk) (requireTests : Bool) (h : IsPassable path.text) :
    (∃ f, ScriptFails d requireTests path f) ∨
      ∃ cases, ScriptCompiles d requireTests (path, cases) := by
  cases hc : compileFile d path with
  | error e =>
    cases e with
    | compile e => exact .inl ⟨_, .invalid hc (script_of_compileFile hc)⟩
    | fault fault => exact absurd hc (compileFile_ne_fault h fault)
  | ok cases =>
    by_cases hreq : requireTests = true ∧ cases = []
    · obtain ⟨hreq, rfl⟩ := hreq
      exact .inl ⟨_, .empty hc hreq⟩
    · exact .inr ⟨cases, hc, fun hr hnil => hreq ⟨hr, hnil⟩⟩

theorem ScriptFails.broken (h : ScriptFails d requireTests path f) :
    Broken d requireTests path := by
  cases h with
  | invalid compiled => exact .inl ⟨_, compiled⟩
  | empty compiled required => exact .inr ⟨required, compiled⟩

theorem ScriptCompiles.not_broken {c : Compiled} (h : ScriptCompiles d requireTests c) :
    ¬ Broken d requireTests c.1 := by
  obtain ⟨hc, htests⟩ := h
  rintro (⟨e, he⟩ | ⟨hrequired, hnil⟩)
  · rw [hc] at he
    cases he
  · rw [hc] at hnil
    exact htests hrequired (Except.ok.inj hnil)

theorem ScriptFails.yields {o : Outside} (h : ScriptFails o.disk requireTests path f) :
    Yields (compileScript requireTests path) o (.error f) o := by
  refine yields_get_bind fun w hw => ?_
  obtain rfl := hw
  change ScriptFails w.disk requireTests path f at h
  cases h with
  | invalid compiled =>
    rw [compiled]
    exact Yields.bind_of_error (yields_ofExcept _)
  | empty compiled required =>
    rw [compiled]
    refine (yields_ofExcept _).bind ?_
    rw [required]
    exact yields_throw _

/-! ### All scripts -/

/-- The first of several computations that fails. -/
theorem yields_mapM_error {g : α → Run ε β} {before after : List α} {a : α} {bs : List β} {e : ε}
    {o o' o'' : Outside} (hbefore : Yields (before.mapM g) o (.ok bs) o')
    (ha : Yields (g a) o' (.error e) o'') :
    Yields ((before ++ a :: after).mapM g) o (.error e) o'' := by
  rw [List.mapM_append]
  refine hbefore.bind (Yields.bind_of_error ?_)
  rw [List.mapM_cons]
  exact ha.bind_of_error

/-- Either all of several paths are those of scripts that compile, or one of them is the first that
fails. -/
theorem first_fails_or_all_compile (d : Disk) (requireTests : Bool) {paths : List Path}
    (h : ∀ p ∈ paths, IsPassable p.text) :
    (∃ (before : List Compiled) (p : Path) (after : List Path) (f : RunFailure),
      paths = before.map (·.1) ++ p :: after ∧
      (∀ c ∈ before, ScriptCompiles d requireTests c) ∧ ScriptFails d requireTests p f) ∨
    ∃ scripts : List Compiled, paths = scripts.map (·.1) ∧
      ∀ c ∈ scripts, ScriptCompiles d requireTests c := by
  induction paths with
  | nil => exact .inr ⟨[], rfl, by simp⟩
  | cons p paths ih =>
    rcases fails_or_compiles d requireTests (h p (by simp)) with
      ⟨f, hf⟩ | ⟨cases, hc⟩
    · exact .inl ⟨[], p, paths, f, rfl, by simp, hf⟩
    · rcases ih fun q hq => h q (by simp [hq]) with
        ⟨before, q, after, f, hpaths, hbefore, hf⟩ | ⟨scripts, hpaths, hall⟩
      · refine .inl ⟨(p, cases) :: before, q, after, f, by simp [hpaths], ?_, hf⟩
        intro c hmem
        rcases List.mem_cons.mp hmem with rfl | hmem
        · exact hc
        · exact hbefore c hmem
      · refine .inr ⟨(p, cases) :: scripts, by simp [hpaths], ?_⟩
        intro c hmem
        rcases List.mem_cons.mp hmem with rfl | hmem
        · exact hc
        · exact hall c hmem

section Runs

variable {pattern : String} {paths : List Path}

/-- The first script that fails ends the run, and leaves everything outside as it is. -/
theorem runMatching_fails {w : World} {before : List Compiled} {after : List Path}
    (hfound : findScripts w.disk pattern = .ok (before.map (·.1) ++ path :: after))
    (hbefore : ∀ c ∈ before, ScriptCompiles w.disk requireTests c)
    (hf : ScriptFails w.disk requireTests path f) :
    ∃ log, ∀ env config reporter, runMatching env config pattern reporter requireTests w =
      (.error f, { w with log := log }) := by
  have hcompile : Yields (compileMatching pattern requireTests) w.outside (.error f) w.outside := by
    refine yields_get_bind fun v hv => ?_
    have hfirst : Yields ((before.map (·.1)).mapM (compileScript requireTests)) w.outside
        (.ok before) w.outside :=
      yields_compileScripts (fun c hc => (hbefore c hc).1) fun hr c hc => (hbefore c hc).2 hr
    rw [show v.disk = w.disk from congrArg Outside.disk hv, hfound]
    exact (yields_ofExcept _).bind (yields_mapM_error hfirst hf.yields)
  obtain ⟨log, hw⟩ := hcompile w rfl
  refine ⟨log, fun env config reporter => ?_⟩
  rw [runMatching_eq, bind_apply_of_error hw]
  rfl

theorem runMatching_compiles {w : World} {scripts : List Compiled}
    (h : Compiles w.disk pattern requireTests scripts) :
    ∃ log, ∀ env config reporter, runMatching env config pattern reporter requireTests w =
      runCompiled env config pattern reporter scripts { w with log := log } := by
  obtain ⟨log, hw⟩ := Compiles.yields (o := w.outside) h w rfl
  refine ⟨log, fun env config reporter => ?_⟩
  rw [runMatching_eq, bind_apply_of_ok hw]
  rfl

/-- **Nothing runs before everything compiles.**  Scripts are compiled in the order of their texts.
If one of them can not be read or compiled, or has no test case though it must have one, the run
fails with the failure of the first of them, which names it, whatever the browser, the settings and
the reporter are, and nothing has changed but the log.  Otherwise all of them have compiled before
the run goes on; so they have if a call has been made or the disk has changed. -/
theorem nothing_runs_before_all_compile (requireTests : Bool) {w : World} (hd : w.disk.Nameable)
    (hfound : findScripts w.disk pattern = .ok paths) :
    (∃ texts : List String, paths = texts.map Path.ofString ∧
      texts.Perm (w.disk.globTexts pattern) ∧ texts.Pairwise (· ≤ ·)) ∧
    ((∃ p ∈ paths, Broken w.disk requireTests p) →
      ∃ before p after f log, paths = before ++ p :: after ∧
        (∀ q ∈ before, ¬ Broken w.disk requireTests q) ∧ ScriptFails w.disk requireTests p f ∧
        ∀ env config reporter, runMatching env config pattern reporter requireTests w =
          (.error f, { w with log := log })) ∧
    ((∀ p ∈ paths, ¬ Broken w.disk requireTests p) →
      ∃ scripts log, Compiles w.disk pattern requireTests scripts ∧
        ∀ env config reporter, runMatching env config pattern reporter requireTests w =
          runCompiled env config pattern reporter scripts { w with log := log }) ∧
    ∀ env config reporter v,
      (runMatching env config pattern reporter requireTests w).2 = v →
      v.trace ≠ w.trace ∨ v.disk ≠ w.disk →
        ∃ scripts, Compiles w.disk pattern requireTests scripts := by
  have hglob := glob_of_findScripts hfound
  obtain ⟨texts, hpaths, hperm, hsorted, hpassable⟩ := exists_texts_of_glob hd hglob
  refine ⟨⟨texts, hpaths, hperm, hsorted⟩, ?_⟩
  rcases first_fails_or_all_compile w.disk requireTests hpassable with
    ⟨before, p, after, f, rfl, hbefore, hf⟩ | ⟨scripts, rfl, hall⟩
  · obtain ⟨log, hrun⟩ := runMatching_fails hfound hbefore hf
    refine ⟨fun _ => ?_, fun hnone => ?_, ?_⟩
    · refine ⟨before.map (·.1), p, after, f, log, rfl, ?_, hf, hrun⟩
      intro q hq
      obtain ⟨c, hc, rfl⟩ := List.mem_map.mp hq
      exact (hbefore c hc).not_broken
    · exact absurd hf.broken (hnone p (by simp))
    · rintro env config reporter v rfl hchanged
      rw [hrun env config reporter] at hchanged
      rcases hchanged with hchanged | hchanged <;> exact absurd rfl hchanged
  · have hcompiles : Compiles w.disk pattern requireTests scripts :=
      ⟨hfound, fun c hc => (hall c hc).1, fun hr c hc => (hall c hc).2 hr⟩
    obtain ⟨log, hrun⟩ := runMatching_compiles hcompiles
    refine ⟨fun ⟨p, hp, hbroken⟩ => ?_, fun _ => ⟨scripts, log, hcompiles, hrun⟩,
      fun _ _ _ _ _ _ => ⟨scripts, hcompiles⟩⟩
    obtain ⟨c, hc, rfl⟩ := List.mem_map.mp hp
    exact absurd hbroken (hall c hc).not_broken

end Runs

/-- Two scripts, of which the second captures nothing. -/
def secondBroken : World where
  disk :=
    { entries := [(["x.txt"], .file (scriptFor "1")),
        (["y.txt"], .file (.bytes (Text.Utf8.encode "capture".toList)))] }

theorem findScripts_secondBroken : findScripts secondBroken.disk "?.txt" =
    .ok [.ofString "x.txt", .ofString "y.txt"] := by
  have htexts : secondBroken.disk.globTexts "?.txt" = ["x.txt", "y.txt"] := by decide +kernel
  rw [findScripts, glob, if_neg (by decide +kernel), htexts,
    List.mergeSort_of_pairwise (by decide +kernel)]
  rfl

/-- The first script compiles, and nothing is run, for the second one has no pages to compare. -/
theorem nothing_runs_before_all_compile_secondBroken :
    (compileFile secondBroken.disk (.ofString "x.txt")).toOption = some [caseFor "1"] ∧
      ∃ p f log, ScriptFails secondBroken.disk true p f ∧
        runMatching sampleEnv sampleConfig "?.txt" .notes true secondBroken =
          (.error f, { secondBroken with log := log }) := by
  have hnameable : secondBroken.disk.Nameable := by
    unfold Disk.Nameable
    decide +kernel
  obtain ⟨-, hfails, -⟩ := nothing_runs_before_all_compile true hnameable
    findScripts_secondBroken
  have hfile : (compileFile secondBroken.disk (.ofString "y.txt")).toBool = false := by
    decide +kernel
  have hbroken : Broken secondBroken.disk true (.ofString "y.txt") := by
    cases hc : compileFile secondBroken.disk (.ofString "y.txt") with
    | error e => exact .inl ⟨e, hc⟩
    | ok cases =>
      rw [hc] at hfile
      cases hfile
  obtain ⟨before, p, after, f, log, -, -, hf, hrun⟩ := hfails ⟨_, by simp, hbroken⟩
  exact ⟨by decide +kernel, p, f, log, hf, hrun sampleEnv sampleConfig .notes⟩

end PageDiff.Run
