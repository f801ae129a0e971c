import PageDiff.Proofs.Run.OutputDirs

/-!
# Moments of a run

A run of the first scripts, and of the first test cases of the next one, does what the whole run
does up to a moment.  Main statement (`runMatching_keeps`): if no two scripts share a directory,
every file in the directory of a script that has been begun at a moment is still there when the run
ends, however it ends.
-/

namespace PageDiff.Run

open PageDiff.Browser PageDiff.Disk PageDiff.Script

variable {ε ε' α β γ : Type} {R : Disk → Disk → Prop}

/-! ### Going on -/

/-- The second computation takes the disk on from where the first one leaves it. -/
def Ahead (R : Disk → Disk → Prop) (x : Run ε α) (y : Run ε' β) : Prop :=
  ∀ w, R (x w).2.disk (y w).2.disk

section Ahead

variable {x : Run ε α} {y : Run ε β}

theorem disk_cleanedUp {c : Run ε Unit} (hc : Quiet c) (w : World) :
    ((x.cleanedUp c) w).2.disk = (x w).2.disk := by
  unfold cleanedUp
  cases hx : x w with
  | mk r v =>
    have hv := hc v
    simp only
    cases h : c v with
    | mk r' v' =>
      rw [h] at hv
      cases r' <;> exact hv.symm

theorem Ahead.cleanedUp (h : Ahead R x y) {c : Run ε Unit} (hc : Quiet c) :
    Ahead R (x.cleanedUp c) (y.cleanedUp c) := by
  intro w
  rw [disk_cleanedUp hc, disk_cleanedUp hc]
  exact h w

variable [IsPreorder Disk R]

theorem Ahead.refl (x : Run ε α) : Ahead R x x := fun w => IsPreorder.toRefl.refl (x w).2.disk

theorem ahead_bind {f : α → Run ε β} (hf : ∀ a, Moves R (f a)) : Ahead R x (x >>= f) := by
  intro w
  cases h : x w with
  | mk r v =>
    cases r with
    | ok a =>
      rw [bind_apply_of_ok h]
      exact hf a v
    | error e =>
      rw [bind_apply_of_error h]
      exact IsPreorder.toRefl.refl v.disk

theorem ahead_after {f : α → Run ε β} {g : α → Run ε γ} (h : ∀ a, Ahead R (f a) (g a)) :
    Ahead R (x >>= f) (x >>= g) := by
  intro w
  cases hx : x w with
  | mk r v =>
    cases r with
    | ok a =>
      rw [bind_apply_of_ok hx, bind_apply_of_ok hx]
      exact h a v
    | error e =>
      rw [bind_apply_of_error hx, bind_apply_of_error hx]
      exact IsPreorder.toRefl.refl v.disk

theorem Ahead.trans_moves (h : Ahead R x y) {g : β → Run ε γ} (hg : ∀ b, Moves R (g b)) :
    Ahead R x (y >>= g) :=
  fun w => IsTrans.trans _ _ _ (h w) (ahead_bind hg w)

omit [IsPreorder Disk R] in
/-- What leaves the disk alone may follow the first computation. -/
theorem Ahead.quiet_bind (h : Ahead R x y) {f : α → Run ε γ} (hf : ∀ a, Quiet (f a)) :
    Ahead R (x >>= f) y := by
  intro w
  have hq : (x w).2.disk = ((x >>= f) w).2.disk := ahead_bind hf w
  rw [← hq]
  exact h w

theorem ahead_mapM {f : α → Run ε β} (xs : List α) {ys : List α} (hf : ∀ a ∈ ys, Moves R (f a)) :
    Ahead R (xs.mapM f) ((xs ++ ys).mapM f) := by
  rw [List.mapM_append]
  exact ahead_bind fun _ => (moves_mapM hf).bind fun _ => moves_pure _

end Ahead

/-! ### Scripts -/

variable {env : Environment} {config : Config} {reporter : Reporter} {cur : Place}
  {kept : Place → Prop}

/-- A reporter keeps every file. -/
def Reporter.KeepsFiles (reporter : Reporter) : Prop :=
  ∀ cur kept script, (∀ tc, Moves (Keeps cur kept) (reporter.started script tc)) ∧
    ∀ r, Moves (Keeps cur kept) (reporter.finished script r)

theorem silent_keepsFiles : Reporter.silent.KeepsFiles :=
  fun _ _ _ => ⟨fun _ => moves_pure (), fun _ => moves_pure ()⟩

theorem Reporter.KeepsFiles.carries (hr : reporter.KeepsFiles) :
    reporter.Carries (OfDisks (Keeps cur kept)) where
  started script := (hr cur kept script).1
  finished script := (hr cur kept script).2

theorem reportedCase_keeps (hr : reporter.KeepsFiles) (script outDir : Path) (tc : TestCase) :
    Moves (Keeps cur kept) (reportedCase env config reporter script outDir tc) :=
  sees_ofDisks.ignoresLog.reportedCase hr.carries script
    (comparePages_keeps env.driver config outDir tc)

theorem quiet_request (e : Event) :
    Quiet ((callUnlimited env.driver e).mapError RunFailure.fault) :=
  (quiet_callUnlimited env.driver e).mapError _

/-- What the directory, the calls and the test cases of a script do, running it does. -/
theorem carries_runScript {R : World → World → Prop} [IsPreorder World R] {path : Path}
    {cases : List TestCase} (hfresh : Carries R (freshOutputDir config path))
    (hlaunch : Carries R (callUnlimited env.driver (launchEvent config)))
    (hclose : Carries R (callUnlimited env.driver .closeBrowser))
    (hcase : ∀ tc ∈ cases,
      Carries R (reportedCase env config reporter path (outputDir config path) tc)) :
    Carries R (runScript env config reporter (path, cases)) := by
  refine (hfresh.mapError _).bind_of_ok fun outDir w v h => ?_
  obtain ⟨rfl, -⟩ := freshOutputDir_eq_ok (mapError_apply_eq_ok h)
  refine (hlaunch.mapError _).bind fun _ => Carries.bind ?_ fun _ => carries_pure _
  exact (carries_mapM hcase).cleanedUp (hclose.mapError _)

/-- Running a script keeps every file beside its directory. -/
theorem runScript_keeps (hr : reporter.KeepsFiles) {path : Path} (cases : List TestCase)
    (hkept : ∀ q, kept q → ¬ outPlace config cur path <+: q) :
    Moves (Keeps cur kept) (runScript env config reporter (path, cases)) :=
  carries_runScript (R := OfDisks (Keeps cur kept)) (freshOutputDir_keeps hkept)
    (quiet_callUnlimited env.driver _).moves (quiet_callUnlimited env.driver _).moves
    fun tc _ => reportedCase_keeps hr path (outputDir config path) tc

/-- The first test cases of a script, and the rest of them. -/
theorem runScript_ahead (hr : reporter.KeepsFiles) (path : Path) (cases more : List TestCase) :
    Ahead (Keeps cur kept) (runScript env config reporter (path, cases))
      (runScript env config reporter (path, cases ++ more)) := by
  refine ahead_after fun outDir => ahead_after fun _ => ?_
  refine Ahead.quiet_bind ?_ fun _ => moves_pure _
  refine Ahead.trans_moves ?_ fun _ => moves_pure _
  exact (ahead_mapM cases fun tc _ => reportedCase_keeps hr path outDir tc).cleanedUp
    (quiet_request _)

/-! ### Names of scripts -/

/-- A path without a name leads to a directory. -/
theorem name_ne_empty_of_read {d : Disk} {p : Path} {c : Content} (hp : p.Sound)
    (h : d.read p = .ok c) : p.name ≠ "" := by
  intro hname
  have hnil : p.names = [] := by
    by_contra hne
    obtain ⟨n, hn⟩ := Option.ne_none_iff_exists'.mp (mt List.getLast?_eq_none_iff.mp hne)
    rw [Path.name, hn] at hname
    exact (hp n (List.mem_of_getLast? hn)).1 hname
  obtain ⟨anchor, names⟩ := p
  obtain rfl : names = [] := hnil
  obtain ⟨q, hq, hfind⟩ := bind_eq_ok.mp (withPath_eq_ok h)
  have hdir : d.find? q = some .directory := by
    rw [locate_eq_ok hp hq]
    cases anchor with
    | root => rfl
    | doubleRoot => rfl
    | relative =>
      -- a dot is only followed from a directory
      change d.find? d.current = _
      change d.walk d.current ["."] = _ at hq
      by_cases hcur : d.isDirectoryAt d.current = true
      · simpa [isDirectoryAt] using hcur
      · rw [walk, enter, if_pos (by simp [hcur])] at hq
        cases hq
  rw [hdir] at hfind
  cases hfind

theorem read_of_compileFile {d : Disk} {p : Path} {cases : List TestCase}
    (h : compileFile d p = .ok cases) : ∃ c, d.read p = .ok c := by
  unfold compileFile readText at h
  cases hr : d.read p with
  | ok c => exact ⟨c, rfl⟩
  | error e =>
    rw [hr] at h
    cases e <;> cases h

theorem mapM_apply_eq_ok {f : α → Run ε β} {xs : List α} {ys : List β} {w v : World}
    (h : (xs.mapM f) w = (.ok ys, v)) : ∀ y ∈ ys, ∃ x ∈ xs, ∃ w' v', f x w' = (.ok y, v') := by
  induction xs generalizing ys w v with
  | nil =>
    obtain ⟨hys, -⟩ := Prod.mk.inj h
    rw [← Except.ok.inj hys]
    simp
  | cons x xs ih =>
    rw [List.mapM_cons] at h
    obtain ⟨b, mid, hb, h⟩ := bind_apply_eq_ok h
    obtain ⟨bs, mid', hbs, h⟩ := bind_apply_eq_ok h
    obtain ⟨hys, -⟩ := Prod.mk.inj h
    rw [← Except.ok.inj hys]
    intro y hy
    rcases List.mem_cons.mp hy with rfl | hy
    · exact ⟨x, by simp, _, _, hb⟩
    · obtain ⟨x', hx', hf⟩ := ih hbs y hy
      exact ⟨x', by simp [hx'], hf⟩

theorem compileFile_of_compileScript {requireTests : Bool} {path : Path} {c : Compiled}
    {w v : World} (h : compileScript requireTests path w = (.ok c, v)) :
    c.1 = path ∧ compileFile w.disk path = .ok c.2 := by
  have hget : (get : Run RunFailure World) w = (.ok w, w) := rfl
  unfold compileScript at h
  rw [bind_apply_of_ok hget] at h
  obtain ⟨cases, mid, hcases, h⟩ := bind_apply_eq_ok h
  have hfile : compileFile w.disk path = .ok cases := by
    cases hc : compileFile w.disk path with
    | ok found =>
      rw [hc] at hcases
      exact congrArg Except.ok (Except.ok.inj (Prod.mk.inj hcases).1)
    | error e =>
      rw [hc] at hcases
      cases e <;> cases (Prod.mk.inj hcases).1
  by_cases hreq : (requireTests && cases.isEmpty) = true
  · rw [if_pos hreq] at h
    cases (Prod.mk.inj h).1
  · rw [if_neg hreq] at h
    obtain ⟨hres, -⟩ := Prod.mk.inj h
    rw [← Except.ok.inj hres]
    exact ⟨rfl, hfile⟩

theorem glob_of_findScripts {d : Disk} {pattern : String} {paths : List Path}
    (h : findScripts d pattern = .ok paths) : d.glob pattern = .ok paths := by
  unfold findScripts at h
  split at h
  · cases h
  · cases h
  · next _ hg =>
    rw [← Except.ok.inj h]
    exact hg

/-- What a pattern matches has been read from texts. -/
theorem ofString_of_findScripts {d : Disk} {pattern : String} {paths : List Path}
    (h : findScripts d pattern = .ok paths) : ∀ p ∈ paths, ∃ text, p = .ofString text := by
  have hglob := glob_of_findScripts h
  unfold glob at hglob
  split at hglob
  · cases hglob
  · rw [← Except.ok.inj hglob]
    intro p hp
    obtain ⟨text, -, rfl⟩ := List.mem_map.mp hp
    exact ⟨text, rfl⟩

theorem sound_of_findScripts {d : Disk} {pattern : String} {paths : List Path}
    (h : findScripts d pattern = .ok paths) : ∀ p ∈ paths, p.Sound := by
  intro p hp
  obtain ⟨text, rfl⟩ := ofString_of_findScripts h p hp
  exact Path.sound_ofString text

/-- Every script that has been compiled has a name. -/
theorem name_ne_empty_of_compiled {pattern : String} {requireTests : Bool} {w v : World}
    {scripts : List Compiled} (h : compileMatching pattern requireTests w = (.ok scripts, v)) :
    ∀ c ∈ scripts, c.1.name ≠ "" := by
  have hget : (get : Run RunFailure World) w = (.ok w, w) := rfl
  unfold compileMatching at h
  rw [bind_apply_of_ok hget] at h
  obtain ⟨paths, mid, hpaths, h⟩ := bind_apply_eq_ok h
  have hfind : findScripts w.disk pattern = .ok paths := (Prod.mk.inj hpaths).1
  intro c hc
  obtain ⟨path, hpath, w', v', hcompile⟩ := mapM_apply_eq_ok h c hc
  obtain ⟨rfl, hfile⟩ := compileFile_of_compileScript hcompile
  obtain ⟨content, hread⟩ := read_of_compileFile hfile
  exact name_ne_empty_of_read (sound_of_findScripts hfind _ hpath) hread

/-! ### Runs -/

/-- The scripts of a run up to a moment: the first `k` of them, and of the next one the first `j`
test cases. -/
def upTo (scripts : List Compiled) (k j : Nat) : List Compiled :=
  scripts.take k ++ (scripts[k]?.map fun c => (c.1, c.2.take j)).toList

/-- A place in the directory of one of the scripts. -/
def InDirs (config : Config) (cur : Place) (scripts : List Compiled) (q : Place) : Prop :=
  ∃ c ∈ scripts, outPlace config cur c.1 <+: q

/-- No two scripts share a directory. -/
def ApartDirs (config : Config) (scripts : List Compiled) : Prop :=
  (scripts.map fun c => outputDir config c.1).Nodup

/-- What a run does with its compiled scripts. -/
def runCompiled (env : Environment) (config : Config) (pattern : String) (reporter : Reporter)
    (scripts : List Compiled) : Run RunFailure RunResult := do
  let startedAt := env.timeOfDay timeFormat
  let start ← now env
  (callUnlimited env.driver .start).mapError RunFailure.fault
  let results ←
    (scripts.mapM (runScript env config reporter)).cleanedUp
      ((callUnlimited env.driver .stop).mapError RunFailure.fault)
  let stop ← now env
  let result :=
    summary pattern startedAt (env.timeOfDay timeFormat) results (elapsed start stop)
  logLine .info result.countLine
  return result

theorem runMatching_eq (env : Environment) (config : Config) (pattern : String)
    (reporter : Reporter) (requireTests : Bool) :
    runMatching env config pattern reporter requireTests =
      compileMatching pattern requireTests >>= runCompiled env config pattern reporter := rfl

/-- Scripts that come later keep what is in the directories of the earlier ones. -/
theorem beside_later {done rest : List Compiled} (hnames : ∀ c ∈ done ++ rest, c.1.name ≠ "")
    (hdirs : ApartDirs config (done ++ rest)) {c : Compiled} (hc : c ∈ rest) {q : Place}
    (hq : InDirs config cur done q) : ¬ outPlace config cur c.1 <+: q := by
  obtain ⟨b, hb, hbq⟩ := hq
  refine not_below_other (hnames b (by simp [hb])) (hnames c (by simp [hc])) ?_ hbq
  unfold ApartDirs at hdirs
  rw [List.map_append, List.nodup_append] at hdirs
  exact hdirs.2.2 _ (List.mem_map_of_mem hb) _ (List.mem_map_of_mem hc)

/-- A moment is the end of the run, or it cuts the list of the scripts at one of them. -/
theorem upTo_cases (scripts : List Compiled) (k j : Nat) : upTo scripts k j = scripts ∨
    ∃ done path cases more rest, scripts = done ++ (path, cases ++ more) :: rest ∧
      upTo scripts k j = done ++ [(path, cases)] := by
  rcases Nat.lt_or_ge k scripts.length with hk | hk
  · refine .inr ⟨scripts.take k, scripts[k].1, scripts[k].2.take j, scripts[k].2.drop j,
      scripts.drop (k + 1), ?_, ?_⟩
    · rw [List.take_append_drop]
      change scripts = scripts.take k ++ scripts[k] :: scripts.drop (k + 1)
      rw [List.getElem_cons_drop, List.take_append_drop]
    · rw [upTo, List.getElem?_eq_getElem hk]
      rfl
  · refine .inl ?_
    simp [upTo, List.getElem?_eq_none hk, List.take_of_length_le hk]

/-- A run that is cut off, and the whole run: what is in the directories that have been begun. -/
theorem cut_ahead (hr : reporter.KeepsFiles) {done rest : List Compiled} {path : Path}
    {cases more : List TestCase}
    (hnames : ∀ c ∈ done ++ (path, cases ++ more) :: rest, c.1.name ≠ "")
    (hdirs : ApartDirs config (done ++ (path, cases ++ more) :: rest)) :
    Ahead (Keeps cur (InDirs config cur (done ++ [(path, cases)])))
      ((done ++ [(path, cases)]).mapM (runScript env config reporter))
      ((done ++ (path, cases ++ more) :: rest).mapM (runScript env config reporter)) := by
  have hlater : ∀ c ∈ rest, Moves (Keeps cur (InDirs config cur (done ++ [(path, cases)])))
      (runScript env config reporter c) := by
    intro c hc
    refine runScript_keeps hr c.2 fun q hq => ?_
    -- a script that is cut off has the directory of the whole one
    have hq' : InDirs config cur (done ++ [(path, cases ++ more)]) q := by
      obtain ⟨b, hb, hbq⟩ := hq
      rcases List.mem_append.mp hb with hb | hb
      · exact ⟨b, by simp [hb], hbq⟩
      · rw [List.mem_singleton.mp hb] at hbq
        exact ⟨(path, cases ++ more), by simp, hbq⟩
    rw [List.append_cons] at hnames hdirs
    exact beside_later hnames hdirs hc hq'
  rw [List.mapM_append, List.mapM_append]
  refine ahead_after fun _ => Ahead.quiet_bind (Ahead.trans_moves ?_ fun _ => moves_pure _)
    fun _ => moves_pure _
  rw [List.mapM_cons, List.mapM_cons]
  refine Ahead.quiet_bind ?_ fun _ => moves_pure _
  refine (runScript_ahead hr path cases more).trans_moves fun _ => ?_
  exact (moves_mapM hlater).bind fun _ => moves_pure _

theorem upTo_ahead (hr : reporter.KeepsFiles) {scripts : List Compiled}
    (hnames : ∀ c ∈ scripts, c.1.name ≠ "") (hdirs : ApartDirs config scripts) (k j : Nat) :
    Ahead (Keeps cur (InDirs config cur (upTo scripts k j)))
      ((upTo scripts k j).mapM (runScript env config reporter))
      (scripts.mapM (runScript env config reporter)) := by
  rcases upTo_cases scripts k j with he | ⟨done, path, cases, more, rest, rfl, he⟩
  · rw [he]
    exact Ahead.refl _
  · rw [he]
    exact cut_ahead hr hnames hdirs

theorem runCompiled_ahead (hr : reporter.KeepsFiles) {pattern : String} {scripts : List Compiled}
    (hnames : ∀ c ∈ scripts, c.1.name ≠ "") (hdirs : ApartDirs config scripts) (k j : Nat) :
    Ahead (Keeps cur (InDirs config cur (upTo scripts k j)))
      (runCompiled env config pattern reporter (upTo scripts k j))
      (runCompiled env config pattern reporter scripts) := by
  refine ahead_after fun _ => ahead_after fun _ => ?_
  refine Ahead.quiet_bind ?_ fun _ => (quiet_now env).bind fun _ =>
    (quiet_logLine _ _).bind fun _ => moves_pure _
  refine Ahead.trans_moves ?_ fun _ => (quiet_now env).moves.bind fun _ =>
    (quiet_logLine _ _).moves.bind fun _ => moves_pure _
  exact (upTo_ahead hr hnames hdirs k j).cleanedUp (quiet_request _)

/-- What the calls and the scripts of a run do, the run does. -/
theorem carries_runCompiled {R : World → World → Prop} [IsPreorder World R] (h : IgnoresLog R)
    {pattern : String} {scripts : List Compiled}
    (hstart : Carries R (callUnlimited env.driver .start))
    (hstop : Carries R (callUnlimited env.driver .stop))
    (hscript : ∀ c ∈ scripts, Carries R (runScript env config reporter c)) :
    Carries R (runCompiled env config pattern reporter scripts) := by
  refine (h.now env).bind fun _ => (hstart.mapError _).bind fun _ => Carries.bind ?_ fun _ =>
    (h.now env).bind fun _ => (h.logLine _ _).bind fun _ => carries_pure _
  exact (carries_mapM hscript).cleanedUp (hstop.mapError _)

theorem runCompiled_keeps (hr : reporter.KeepsFiles) {pattern : String} {scripts : List Compiled}
    (hkept : ∀ c ∈ scripts, ∀ q, kept q → ¬ outPlace config cur c.1 <+: q) :
    Moves (Keeps cur kept) (runCompiled env config pattern reporter scripts) :=
  carries_runCompiled (R := OfDisks (Keeps cur kept)) sees_ofDisks.ignoresLog
    (quiet_callUnlimited env.driver _).moves (quiet_callUnlimited env.driver _).moves
    fun c hc => runScript_keeps hr c.2 (hkept c hc)

theorem quiet_compileMatching (pattern : String) (requireTests : Bool) :
    Quiet (compileMatching pattern requireTests) := by
  intro w
  obtain ⟨log, hw⟩ := onlyLogs_compileMatching pattern requireTests w
  rw [hw]

/-- **Files stay.**  If no two scripts share a directory, a file that is in the directory of a
script at some moment after the script has been begun is still a file when the run ends. -/
theorem runMatching_keeps (hr : reporter.KeepsFiles) {pattern : String} {requireTests : Bool}
    {w v : World} {scripts : List Compiled}
    (h : compileMatching pattern requireTests w = (.ok scripts, v))
    (hdirs : ApartDirs config scripts) (k j : Nat) {q : Place}
    (hq : InDirs config w.disk.current (upTo scripts k j) q)
    (hfile : ((runCompiled env config pattern reporter (upTo scripts k j)) v).2.disk.IsFile q) :
    ((runMatching env config pattern reporter requireTests) w).2.disk.IsFile q := by
  rw [runMatching_eq, bind_apply_of_ok h]
  have hv : w.disk = v.disk := by
    have := quiet_compileMatching pattern requireTests w
    rwa [h] at this
  rw [hv] at hq
  have hcut : Moves (Keeps v.disk.current fun _ => False)
      (runCompiled env config pattern reporter (upTo scripts k j)) := runCompiled_keeps hr (by simp)
  obtain ⟨hcur, -⟩ := hcut v rfl
  exact (runCompiled_ahead hr (name_ne_empty_of_compiled h) hdirs k j v hcur).2 q hq hfile

end PageDiff.Run
