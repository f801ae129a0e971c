import PageDiff.Proofs.Run.Moments

/-!
# Moments of a session

What a session and the disk come to, test case after test case.  Main statement
(`runSelected_keeps`): if no two scripts share a directory, every file in a directory that has been
prepared at a moment is still there when the session has been closed.
-/

namespace PageDiff.Run

open PageDiff.Browser PageDiff.Disk PageDiff.Script

variable {α β : Type} {env : Environment} {config : Config} {cur : Place}

/-- Paths of scripts with a name, no two of which share a directory. -/
structure Apart (config : Config) (scripts : Path → Prop) : Prop where
  named : ∀ s, scripts s → s.name ≠ ""
  dirs : ∀ s t, scripts s → scripts t → s ≠ t → outputDir config s ≠ outputDir config t

variable {scripts : Path → Prop}

/-- The directories that a session has prepared belong to its scripts. -/
def Session.Prepared (config : Config) (scripts : Path → Prop) (s : Session) : Prop :=
  ∀ e ∈ s.outDirs, scripts e.1 ∧ e.2 = outputDir config e.1

/-- A session and a disk that come after others: prepared directories stay so, and files in them
stay files. -/
def Later (config : Config) (scripts : Path → Prop) (cur : Place) (a b : Session × Disk) : Prop :=
  a.1.Prepared config scripts → a.2.current = cur →
    b.1.Prepared config scripts ∧ b.2.current = cur ∧ (∀ e ∈ a.1.outDirs, e ∈ b.1.outDirs) ∧
      ∀ e ∈ a.1.outDirs, ∀ q, e.2.place cur <+: q → a.2.IsFile q → b.2.IsFile q

instance : IsPreorder (Session × Disk) (Later config scripts cur) where
  refl _ := fun hp hc => ⟨hp, hc, fun _ he => he, fun _ _ _ _ hf => hf⟩
  trans _ _ _ h h' := by
    intro hp hc
    obtain ⟨hp, hc, hsub, hkeep⟩ := h hp hc
    obtain ⟨hp', hc', hsub', hkeep'⟩ := h' hp hc
    exact ⟨hp', hc', fun e he => hsub' e (hsub e he), fun e he q hq hf =>
      hkeep' e (hsub e he) q hq (hkeep e he q hq hf)⟩

/-- However a computation ends, the session and the disk are later ones. -/
def Advances (config : Config) (scripts : Path → Prop) (cur : Place) (x : WithSession α) : Prop :=
  ∀ s w, Later config scripts cur (s, w.disk) ((x s w).1.2, (x s w).2.disk)

/-- A session and a world that come after others. -/
def LaterWorld (config : Config) (scripts : Path → Prop) (cur : Place) (a b : Session × World) :
    Prop := Later config scripts cur (a.1, a.2.disk) (b.1, b.2.disk)

instance : IsPreorder (Session × World) (LaterWorld config scripts cur) where
  refl a := IsPreorder.toRefl.refl (r := Later config scripts cur) (a.1, a.2.disk)
  trans _ _ _ h h' := IsTrans.trans (r := Later config scripts cur) _ _ _ h h'

theorem Advances.bind {x : WithSession α} {f : α → WithSession β}
    (hx : Advances config scripts cur x) (hf : ∀ a, Advances config scripts cur (f a)) :
    Advances config scripts cur (x >>= f) :=
  CarriesSession.bind (R := LaterWorld config scripts cur) hx hf

theorem advances_update {f : Session → Session} (hf : ∀ s, (f s).outDirs = s.outDirs) :
    Advances config scripts cur (WithSession.update f) := by
  intro s w hp hc
  change ∀ e ∈ s.outDirs, _ at hp
  rw [← hf s] at hp
  refine ⟨hp, hc, ?_, fun _ _ _ _ h => h⟩
  intro e he
  change e ∈ (f s).outDirs
  rwa [hf s]

theorem advances_lift {x : Run CaseFailure α} (hx : ∀ kept, Moves (Keeps cur kept) x) :
    Advances config scripts cur (WithSession.lift x) := by
  intro s w hp hc
  obtain ⟨hcur, hkeep⟩ := hx (fun _ => True) w hc
  exact ⟨hp, hcur, fun _ he => he, fun _ _ q _ hf => hkeep q trivial hf⟩

namespace Session

theorem allows_later : Allows env (LaterWorld config scripts cur) where
  request e := advances_lift fun _ => (quiet_callUnlimited env.driver e).moves.mapError _
  update _ hf := advances_update hf

section OutDir

variable {script : Path} {s : Session} {w v : World}

theorem ensureOutDir_of_prepared {out : Path} (h : s.outDirs.lookup script = some out) (w : World) :
    ensureOutDir config script s w = ((.ok out, s), w) := by
  have hsession : WithSession.session s w = ((.ok s, s), w) := rfl
  unfold ensureOutDir
  rw [session_bind_of_ok hsession, h]
  rfl

theorem ensureOutDir_of_fresh {out : Path} (h : s.outDirs.lookup script = none)
    (hf : freshOutputDir config script w = (.ok out, v)) : ensureOutDir config script s w =
      ((.ok out, { s with outDirs := (script, out) :: s.outDirs }), v) := by
  have hsession : WithSession.session s w = ((.ok s, s), w) := rfl
  have hlift : WithSession.lift ((freshOutputDir config script).mapError .fault) s w =
      ((.ok out, s), v) := by
    rw [WithSession.lift, mapError_apply, hf]
    rfl
  unfold ensureOutDir
  rw [session_bind_of_ok hsession, h]
  exact session_bind_of_ok hlift

theorem ensureOutDir_of_failure {f : Fault} (h : s.outDirs.lookup script = none)
    (hf : freshOutputDir config script w = (.error f, v)) :
    ensureOutDir config script s w = ((.error (.fault f), s), v) := by
  have hsession : WithSession.session s w = ((.ok s, s), w) := rfl
  have hlift : WithSession.lift ((freshOutputDir config script).mapError .fault) s w =
      ((.error (.fault f), s), v) := by
    rw [WithSession.lift, mapError_apply, hf]
    rfl
  unfold ensureOutDir
  rw [session_bind_of_ok hsession, h]
  exact session_bind_of_error hlift

end OutDir

/-- Preparing the directory of one more script keeps what is in those that are prepared. -/
theorem advances_ensureOutDir (ha : Apart config scripts) {script : Path} (hs : scripts script) :
    Advances config scripts cur (ensureOutDir config script) := by
  intro s w hp hc
  cases hl : s.outDirs.lookup script with
  | some out =>
    rw [ensureOutDir_of_prepared hl]
    exact ⟨hp, hc, fun _ he => he, fun _ _ _ _ hf => hf⟩
  | none =>
    -- the directories so far are those of other scripts
    have hkept : ∀ q, (∃ e ∈ s.outDirs, e.2.place cur <+: q) →
        ¬ outPlace config cur script <+: q := by
      rintro q ⟨e, he, hq⟩
      obtain ⟨hscript, hdir⟩ := hp e he
      have hne : e.1 ≠ script := by
        intro heq
        have := List.lookup_eq_none_iff.mp hl e he
        simp [heq] at this
      rw [hdir] at hq
      exact not_below_other (ha.named _ hscript) (ha.named _ hs) (ha.dirs _ _ hscript hs hne) hq
    have hmoves := freshOutputDir_keeps hkept w hc
    cases hfresh : freshOutputDir config script w with
    | mk r v =>
      rw [hfresh] at hmoves
      obtain ⟨hcur, hfiles⟩ := hmoves
      cases r with
      | error e =>
        rw [ensureOutDir_of_failure hl hfresh]
        exact ⟨hp, hcur, fun _ he => he, fun e he q hq hf => hfiles q ⟨e, he, hq⟩ hf⟩
      | ok out =>
        rw [ensureOutDir_of_fresh hl hfresh]
        refine ⟨?_, hcur, fun _ he => List.mem_cons_of_mem _ he, fun e he q hq hf =>
          hfiles q ⟨e, he, hq⟩ hf⟩
        intro e he
        rcases List.mem_cons.mp he with rfl | he
        · exact ⟨hs, (freshOutputDir_eq_ok hfresh).1⟩
        · exact hp e he

theorem advances_run (ha : Apart config scripts) {c : ScriptedCase} (hs : scripts c.script) :
    Advances config scripts cur (run env config c) := by
  refine Advances.bind allows_later.ensureStarted fun _ => ?_
  refine Advances.bind (allows_later.ensureBrowser _) fun _ => ?_
  refine (advances_ensureOutDir ha hs).bind fun out => ?_
  exact advances_lift fun _ => comparePages_keeps env.driver config out c.testCase

/-- The session and the world after test cases have been run. -/
def afterAll (env : Environment) (config : Config) (cs : List ScriptedCase)
    (p : Session × World) : Session × World :=
  ((runAll env config cs p.1 p.2).1.2, (runAll env config cs p.1 p.2).2)

theorem afterAll_cons (c : ScriptedCase) (cs : List ScriptedCase) (p : Session × World) :
    afterAll env config (c :: cs) p =
      afterAll env config cs ((run env config c p.1 p.2).1.2, (run env config c p.1 p.2).2) := rfl

theorem afterAll_append (xs ys : List ScriptedCase) (p : Session × World) :
    afterAll env config (xs ++ ys) p = afterAll env config ys (afterAll env config xs p) := by
  induction xs generalizing p with
  | nil => rfl
  | cons x xs ih => rw [List.cons_append, afterAll_cons, afterAll_cons, ih]

/-- What each of several test cases does, all of them do. -/
theorem afterAll_carries {R : Session × World → Session × World → Prop}
    [IsPreorder (Session × World) R] {cs : List ScriptedCase}
    (h : ∀ c ∈ cs, CarriesSession R (run env config c)) (p : Session × World) :
    R p (afterAll env config cs p) := by
  induction cs generalizing p with
  | nil => exact IsPreorder.toRefl.refl p
  | cons c cs ih =>
    rw [afterAll_cons]
    exact IsTrans.trans _ _ _ (h c (by simp) p.1 p.2)
      (ih (fun c' hc' => h c' (by simp [hc']))
        ((run env config c p.1 p.2).1.2, (run env config c p.1 p.2).2))

theorem afterAll_later (ha : Apart config scripts) {cs : List ScriptedCase}
    (hs : ∀ c ∈ cs, scripts c.script) (p : Session × World) :
    Later config scripts cur (p.1, p.2.disk)
      ((afterAll env config cs p).1, (afterAll env config cs p).2.disk) :=
  afterAll_carries (R := LaterWorld config scripts cur) (fun c hc => advances_run ha (hs c hc)) p

end Session

/-- The test cases that are chosen by their numbers. -/
def chosen (cases : List ScriptedCase) (order : List Int) : List ScriptedCase :=
  order.filterMap fun i => if i < 0 then none else cases[i.toNat]?

theorem mem_of_mem_chosen {cases : List ScriptedCase} {order : List Int} {c : ScriptedCase}
    (h : c ∈ chosen cases order) : c ∈ cases := by
  obtain ⟨i, -, hi⟩ := List.mem_filterMap.mp h
  split at hi
  · cases hi
  · exact List.mem_of_getElem? hi

/-- Chosen test cases are all run, and then the session is closed. -/
theorem runSelected_disk {pattern : String} {order : List Int} {w v : World}
    {cases : List ScriptedCase} (h : scriptedCases pattern w = (.ok cases, v))
    {p : Session × World} (hp : Session.afterAll env config (chosen cases order) ({}, v) = p) :
    (runSelected env config pattern order w).2.disk = (Session.close env p.1 p.2).2.disk := by
  subst hp
  unfold runSelected
  rw [bind_apply_of_ok h]
  have hrun : (ExceptT.lift ((Session.runAll env config (chosen cases order)).run {}) :
      Run RunFailure _) v = (.ok (Session.runAll env config (chosen cases order) {} v).1,
        (Session.runAll env config (chosen cases order) {} v).2) := rfl
  refine (congrArg (fun r : Except RunFailure _ × World => r.2.disk)
    (bind_apply_of_ok hrun)).trans ?_
  set p := Session.afterAll env config (chosen cases order) ({}, v)
  have hclose : (ExceptT.lift ((Hosted.close env).run { session := p.1 }) : Run RunFailure _) p.2 =
      (.ok (Hosted.close env { session := p.1 } p.2).1, (Session.close env p.1 p.2).2) := rfl
  refine (congrArg (fun r : Except RunFailure _ × World => r.2.disk)
    (bind_apply_of_ok hclose)).trans ?_
  obtain ⟨closed, _⟩ := (Hosted.close env { session := p.1 } p.2).1
  cases closed with
  | ok _ => rfl
  | error e => cases e <;> rfl

theorem scripts_of_scriptedCases {pattern : String} {w v : World} {cases : List ScriptedCase}
    (h : scriptedCases pattern w = (.ok cases, v)) :
    w.disk = v.disk ∧ ∀ c ∈ cases, c.script.name ≠ "" := by
  obtain ⟨compiled, mid, hcompiled, h⟩ := bind_apply_eq_ok h
  obtain ⟨hcases, rfl⟩ := Prod.mk.inj h
  refine ⟨?_, ?_⟩
  · have := quiet_compileMatching pattern false w
    rwa [hcompiled] at this
  · rw [← Except.ok.inj hcases]
    intro c hc
    obtain ⟨script, hscript, hc⟩ := List.mem_flatMap.mp hc
    obtain ⟨tc, -, rfl⟩ := List.mem_map.mp hc
    exact name_ne_empty_of_compiled hcompiled script hscript

/-- No two scripts of test cases share a directory. -/
def ApartScripts (config : Config) (cases : List ScriptedCase) : Prop :=
  ∀ c ∈ cases, ∀ c' ∈ cases, c.script ≠ c'.script →
    outputDir config c.script ≠ outputDir config c'.script

/-- The script of one of the test cases. -/
def IsScriptOf (cases : List ScriptedCase) (s : Path) : Prop := ∃ c ∈ cases, c.script = s

theorem ApartScripts.apart {cases : List ScriptedCase} (h : ApartScripts config cases)
    (hnamed : ∀ c ∈ cases, c.script.name ≠ "") : Apart config (IsScriptOf cases) := by
  refine ⟨?_, ?_⟩
  · rintro s ⟨c, hc, rfl⟩
    exact hnamed c hc
  · rintro s t ⟨c, hc, rfl⟩ ⟨c', hc', rfl⟩ hne
    exact h c hc c' hc' hne

/-- **Files stay in a session.**  If no two scripts share a directory, a file that is in a prepared
directory after some of the test cases is still a file when the session has been closed. -/
theorem runSelected_keeps {pattern : String} {order : List Int} {w v : World}
    {cases : List ScriptedCase} (h : scriptedCases pattern w = (.ok cases, v))
    (hapart : ApartScripts config cases) {n : Nat} {p : Session × World}
    (hp : Session.afterAll env config ((chosen cases order).take n) ({}, v) = p)
    {e : Path × Path} (he : e ∈ p.1.outDirs) {q : Place} (hq : e.2.place w.disk.current <+: q)
    (hfile : p.2.disk.IsFile q) : (runSelected env config pattern order w).2.disk.IsFile q := by
  obtain ⟨hdisk, hnamed⟩ := scripts_of_scriptedCases h
  have ha := hapart.apart hnamed
  have hscripts : ∀ c ∈ chosen cases order, IsScriptOf cases c.script :=
    fun c hc => ⟨c, mem_of_mem_chosen hc, rfl⟩
  set last := Session.afterAll env config ((chosen cases order).drop n) p with hlast
  have hfirst : Later config (IsScriptOf cases) w.disk.current ({}, v.disk) (p.1, p.2.disk) := by
    rw [← hp]
    exact Session.afterAll_later ha (fun c hc => hscripts c (List.mem_of_mem_take hc)) ({}, v)
  have hrest : Later config (IsScriptOf cases) w.disk.current (p.1, p.2.disk)
      (last.1, last.2.disk) :=
    Session.afterAll_later ha (fun c hc => hscripts c (List.mem_of_mem_drop hc)) p
  have hclosed : Later config (IsScriptOf cases) w.disk.current (last.1, last.2.disk)
      ((Session.close env last.1 last.2).1.2, (Session.close env last.1 last.2).2.disk) :=
    Session.allows_later.close last.1 last.2
  have hlater := IsTrans.trans _ _ _ hrest hclosed
  have hprepared : ({} : Session).Prepared config (IsScriptOf cases) := by simp [Session.Prepared]
  obtain ⟨hp', hcur, -, -⟩ := hfirst hprepared (by rw [hdisk])
  have hend : (runSelected env config pattern order w).2.disk =
      (Session.close env last.1 last.2).2.disk := by
    refine runSelected_disk h ?_
    rw [hlast, ← hp, ← Session.afterAll_append, List.take_append_drop]
  rw [hend]
  exact (hlater hp' hcur).2.2.2 e he q hq hfile

end PageDiff.Run
