import PageDiff.Proofs.Run.ArtifactNames
import PageDiff.Proofs.Run.Evidence
import PageDiff.Proofs.Run.Sessions

/-!
# Where a run touches the disk

The directory of a script lies directly below the root of all artifacts, and every artifact lies
directly in the directory of its script, whatever names and addresses there are.  So a run changes
nothing but what is in the directories of its scripts, writes files directly in them only, and makes
the directories on the way of the root.  Main statement: `effects_confined`.
-/

namespace PageDiff.Run

open PageDiff.Browser PageDiff.Disk PageDiff.Path PageDiff.Script

variable {config : Config} {scripts : Path → Prop} {s : Path} {d d' : Disk} {q : Place}

/-! ### Names -/

/-- The root of the directories of all artifacts. -/
def rootDir (config : Config) : Path := .ofString config.outputRoot.shown

/-- A path with exactly one more name, which is neither empty nor made of dots nor holds a slash. -/
def IsChildOf (p parent : Path) : Prop :=
  ∃ n, IsPlain n ∧ '/' ∉ n.toList ∧ p = { parent with names := parent.names ++ [n] }

theorem child_isChildOf {parent : Path} {n : String} (hn : IsPlain n) (hslash : '/' ∉ n.toList) :
    IsChildOf (parent.child n) parent :=
  ⟨n, hn, hslash, by rw [child, if_neg (isPlain_iff.mp hn).1]⟩

theorem IsChildOf.eq_child {p parent : Path} (h : IsChildOf p parent) :
    ∃ n, IsPlain n ∧ '/' ∉ n.toList ∧ p = parent.child n := by
  obtain ⟨n, hn, hslash, rfl⟩ := h
  exact ⟨n, hn, hslash, by rw [child, if_neg (isPlain_iff.mp hn).1]⟩

theorem outputDir_isChildOf (hs : s.name ≠ "") :
    IsChildOf (outputDir config s) (rootDir config) :=
  child_isChildOf (fileNamePart_plain hs) (not_mem_fileNamePart (by decide) _)

theorem artifacts_areChildrenOf {out : Path} {name urlA urlB : String} {paths : ArtifactPaths}
    (h : ArtifactPaths.ofTest out name urlA urlB = .ok paths) :
    ∀ p ∈ paths.toList, IsChildOf p out := by
  intro p hp
  obtain ⟨shown, hslash, rfl⟩ := (mem_artifacts h).2 p hp
  exact child_isChildOf (artifactName_plain _ _) (slash_not_mem_artifactName name hslash)

/-- The way to the directory of a script is that of the root, and then its own place. -/
theorem onWay_outputDir {cur : Place} (h : (outputDir config s).OnWay cur q) :
    (rootDir config).OnWay cur q ∨ q = outPlace config cur s := by
  obtain ⟨k, rfl⟩ := h
  rcases Nat.lt_or_ge k (outputDir config s).names.length with hk | hk
  · refine .inl ⟨k, ?_⟩
    unfold outputDir child at hk ⊢
    split
    · rfl
    · next hne =>
      rw [if_neg hne, List.length_append, List.length_singleton] at hk
      rw [front, front, List.take_append_of_le_length (by omega)]
      rfl
  · rw [front_of_length_le hk]
    exact .inr rfl

/-! ### Confined changes of the disk -/

/-- What some scripts may change on a disk.  What is lost or replaced was in their directories, new
contents are those of files directly in them, new directories are these directories themselves or
lie on the way of the root, and everything still lies in a directory. -/
structure Confined (config : Config) (scripts : Path → Prop) (d d' : Disk) : Prop where
  current : d'.current = d.current
  lost : ∀ q e, d.find? q = some e → d'.find? q ≠ some e →
    ∃ s, scripts s ∧ outPlace config d.current s <+: q
  written : ∀ q c, d'.find? q = some (.file c) → d.find? q ≠ some (.file c) →
    ∃ s n, scripts s ∧ q = outPlace config d.current s ++ [n]
  made : ∀ q, d'.find? q = some .directory → d.find? q ≠ some .directory →
    (rootDir config).OnWay d.current q ∨ ∃ s, scripts s ∧ q = outPlace config d.current s
  tree : KeepsTree d d'

instance : IsPreorder Disk (Confined config scripts) where
  refl _ := ⟨rfl, fun _ _ h h' => absurd h h', fun _ _ h h' => absurd h h',
    fun _ h h' => absurd h h', id⟩
  trans d d' d'' h h' := by
    obtain ⟨hcur, hlost, hwritten, hmade, htree⟩ := h'
    rw [h.current] at hcur hlost hwritten hmade
    refine ⟨hcur, fun q e he hne => ?_, fun q c hc hne => ?_, fun q hq hne => ?_,
      IsTrans.trans _ _ _ h.tree htree⟩
    · by_cases hmid : d'.find? q = some e
      · exact hlost q e hmid hne
      · exact h.lost q e he hmid
    · by_cases hmid : d'.find? q = some (.file c)
      · exact h.written q c hmid hne
      · exact hwritten q c hc hmid
    · by_cases hmid : d'.find? q = some .directory
      · exact h.made q hmid hne
      · exact hmade q hq hmid

/-- Preparing the directory of a script. -/
theorem freshDirectory_confined (hs : scripts s) (d : Disk) :
    Confined config scripts d (d.freshDirectory (outputDir config s)).1 := by
  have hp := sound_outputDir config s
  obtain ⟨left, hremoves, hmakes⟩ := freshDirectory_steps d hp
  have hway : ∀ q, (outputDir config s).OnWay left.current q →
      (rootDir config).OnWay d.current q ∨ q = outPlace config d.current s := by
    rw [hremoves.current]
    exact fun q => onWay_outputDir
  refine ⟨freshDirectory_current d hp, fun q e he hne => ⟨s, hs, ?_⟩, fun q c hc hne => ?_,
    fun q hq hne => ?_, freshDirectory_isTree hp⟩
  · -- making the way takes nothing away, so it has been lost before
    rcases hremoves.find q with hsame | ⟨hbelow, -⟩
    · rcases hmakes.find q with hsame' | ⟨hnone, -⟩
      · exact absurd (hsame'.trans (hsame.trans he)) hne
      · rw [hsame, he] at hnone
        cases hnone
    · exact hbelow
  · -- neither step writes a file
    rcases hmakes.find q with hsame | ⟨-, hdir, -⟩
    · rw [hsame] at hc
      rcases hremoves.find q with hsame' | ⟨-, hnone⟩
      · exact absurd (hsame'.symm.trans hc) hne
      · rw [hc] at hnone
        cases hnone
    · rw [hc] at hdir
      cases hdir
  · -- only the second step makes directories
    rcases hmakes.find q with hsame | ⟨-, -, hon⟩
    · rw [hsame] at hq
      rcases hremoves.find q with hsame' | ⟨-, hnone⟩
      · exact absurd (hsame'.symm.trans hq) hne
      · rw [hq] at hnone
        cases hnone
    · exact (hway q hon).imp_right fun heq => ⟨s, hs, heq⟩

/-- Writing a file directly in the directory of a script. -/
theorem put_file_confined (hs : scripts s) {n : String} {place : Place}
    (hplace : place = outPlace config d.current s ++ [n])
    (hparent : d.isDirectoryAt place.dropLast = true) (hfile : d.isDirectoryAt place = false)
    (c : Content) : Confined config scripts d (d.put place (.file c)) := by
  have hne : place ≠ [] := by
    rw [hplace]
    simp
  refine ⟨rfl, fun q e he hother => ⟨s, hs, ?_⟩, fun q c' hc hother => ⟨s, n, hs, ?_⟩,
    fun q hq hother => ?_, fun htree => htree.put hne hparent fun hdir => ?_⟩
  · rw [find?_put _ hne] at hother
    split at hother
    · next hq =>
      rw [hq, hplace]
      exact List.prefix_append _ _
    · exact absurd he hother
  · rw [find?_put _ hne] at hc
    split at hc
    · next hq => exact hq.trans hplace
    · exact absurd hc hother
  · rw [find?_put _ hne] at hq
    split at hq
    · cases hq
    · exact absurd hq hother
  · rw [hfile] at hdir
    cases hdir

theorem savePicture_confined (hs : scripts s) {p : Path} (hp : IsChildOf p (outputDir config s))
    (d : Disk) (image : Image) : Confined config scripts d (savePicture d p image).1 := by
  rcases savePicture_disk d p image with h | ⟨place, c, ho, h⟩
  · rw [h]
    exact refl d
  · obtain ⟨-, hparent, hfile, hplace⟩ := openForWriting_eq_ok ho
    obtain ⟨n, hn, hslash, rfl⟩ := hp.eq_child
    have hsound := (sound_outputDir config s).child hslash
    rw [h]
    exact put_file_confined hs ((hplace hsound).trans (place_child hn)) hparent hfile c

/-! ### Confined runs -/

section Runs

variable {env : Environment} {reporter : Reporter} {pattern : String}

theorem freshOutputDir_confined (hs : scripts s) :
    Moves (Confined config scripts) (freshOutputDir config s) := by
  unfold freshOutputDir
  cases unencodable? config.outputRoot with
  | some e => exact moves_throw _
  | none =>
    exact (Moves.mapError (onDisk_moves (freshDirectory_confined hs)) _).bind fun _ => moves_pure _

theorem comparePages_confined (driver : Driver) (hs : scripts s) (tc : TestCase) :
    Moves (Confined config scripts) (comparePages driver config (outputDir config s) tc) :=
  moves_comparePages driver fun _ hpaths p hp =>
    savePicture_confined hs (artifacts_areChildrenOf hpaths p hp)

theorem runScript_confined (hr : reporter.Carries (OfDisks (· = ·))) {c : Compiled}
    (hs : scripts c.1) : Moves (Confined config scripts) (runScript env config reporter c) := by
  have hreporter : reporter.Carries (OfDisks (Confined config scripts)) :=
    hr.mono fun w v (h : w.disk = v.disk) => by
      rw [OfDisks, h]
      exact refl v.disk
  exact carries_runScript (R := OfDisks (Confined config scripts)) (freshOutputDir_confined hs)
    (quiet_callUnlimited env.driver _).moves (quiet_callUnlimited env.driver _).moves
    fun tc _ => sees_ofDisks.ignoresLog.reportedCase hreporter c.1
      (comparePages_confined env.driver hs tc)

/-- A script with a name that a pattern matches on a disk. -/
def IsFound (d : Disk) (pattern : String) (s : Path) : Prop :=
  s.name ≠ "" ∧ ∃ paths, findScripts d pattern = .ok paths ∧ s ∈ paths

theorem isFound_of_compileMatching {requireTests : Bool} {w v : World} {compiled : List Compiled}
    (h : compileMatching pattern requireTests w = (.ok compiled, v)) :
    ∀ c ∈ compiled, IsFound w.disk pattern c.1 := by
  have hnames := name_ne_empty_of_compiled h
  have hget : (get : Run RunFailure World) w = (.ok w, w) := rfl
  unfold compileMatching at h
  rw [bind_apply_of_ok hget] at h
  obtain ⟨paths, mid, hpaths, h⟩ := bind_apply_eq_ok h
  intro c hc
  obtain ⟨path, hpath, w', v', hcompile⟩ := mapM_apply_eq_ok h c hc
  obtain ⟨heq, -⟩ := compileFile_of_compileScript hcompile
  refine ⟨hnames c hc, paths, (Prod.mk.inj hpaths).1, ?_⟩
  rwa [heq]

theorem runMatching_confined (hr : reporter.Carries (OfDisks (· = ·))) (requireTests : Bool)
    (w : World) : Confined config (IsFound w.disk pattern) w.disk
      ((runMatching env config pattern reporter requireTests) w).2.disk := by
  rw [runMatching_eq]
  have hquiet := quiet_compileMatching pattern requireTests w
  cases h : compileMatching pattern requireTests w with
  | mk r v =>
    rw [h] at hquiet
    cases r with
    | error e =>
      rw [bind_apply_of_error h, hquiet]
      exact refl v.disk
    | ok compiled =>
      have hfound := isFound_of_compileMatching h
      rw [bind_apply_of_ok h, hquiet] at *
      exact carries_runCompiled (R := OfDisks (Confined config (IsFound v.disk pattern)))
        sees_ofDisks.ignoresLog (quiet_callUnlimited env.driver _).moves
        (quiet_callUnlimited env.driver _).moves (fun c hc => runScript_confined hr (hfound c hc)) v

end Runs

/-! ### Confined sessions -/

section Sessions

variable {env : Environment} {pattern : String} {α : Type}

/-- The prepared directories of a session stay those of some scripts, and changes of the disk are
confined to these. -/
def ConfinedSession (config : Config) (scripts : Path → Prop) (a b : Session × World) : Prop :=
  a.1.Prepared config scripts →
    b.1.Prepared config scripts ∧ Confined config scripts a.2.disk b.2.disk

instance : IsPreorder (Session × World) (ConfinedSession config scripts) where
  refl a := fun hp => ⟨hp, refl a.2.disk⟩
  trans _ _ _ h h' := fun hp =>
    ⟨(h' (h hp).1).1, IsTrans.trans _ _ _ (h hp).2 (h' (h hp).1).2⟩

theorem confinedSession_lift {x : Run CaseFailure α} (hx : Moves (Confined config scripts) x) :
    CarriesSession (ConfinedSession config scripts) (WithSession.lift x) :=
  fun _ w hp => ⟨hp, hx w⟩

theorem allows_confinedSession : Session.Allows env (ConfinedSession config scripts) where
  request e := confinedSession_lift ((quiet_callUnlimited env.driver e).moves.mapError _)
  update f hf := by
    intro s w hp
    refine ⟨?_, refl w.disk⟩
    change ∀ e ∈ (f s).outDirs, _
    rw [hf s]
    exact hp

/-- A test case in the directory of its script, which may have been prepared before. -/
theorem confinedSession_inOutDir (hs : scripts s) (tc : TestCase) :
    CarriesSession (ConfinedSession config scripts) (Session.ensureOutDir config s >>= fun out =>
      WithSession.lift (comparePages env.driver config out tc)) := by
  intro session w hp
  -- a directory that the session remembers is the one of the script, for it stays prepared
  cases hl : session.outDirs.lookup s with
  | some out =>
    obtain ⟨before, after, hdirs, -⟩ := List.lookup_eq_some_iff.mp hl
    obtain rfl : out = outputDir config s := (hp (s, out) (by rw [hdirs]; simp)).2
    rw [session_bind_of_ok (Session.ensureOutDir_of_prepared hl w)]
    exact confinedSession_lift (comparePages_confined env.driver hs tc) session w hp
  | none =>
    have hconfined : Confined config scripts w.disk (freshOutputDir config s w).2.disk :=
      freshOutputDir_confined hs w
    cases hfresh : freshOutputDir config s w with
    | mk r v =>
      rw [hfresh] at hconfined
      cases r with
      | error f =>
        rw [session_bind_of_error (Session.ensureOutDir_of_failure hl hfresh)]
        exact ⟨hp, hconfined⟩
      | ok out =>
        obtain ⟨rfl, -⟩ := freshOutputDir_eq_ok hfresh
        rw [session_bind_of_ok (Session.ensureOutDir_of_fresh hl hfresh)]
        refine ⟨?_, IsTrans.trans _ _ _ hconfined (comparePages_confined env.driver hs tc v)⟩
        intro e he
        rcases List.mem_cons.mp he with rfl | he
        · exact ⟨hs, rfl⟩
        · exact hp e he

theorem sessionRun_confined {c : ScriptedCase} (hs : scripts c.script) :
    CarriesSession (ConfinedSession config scripts) (Session.run env config c) := by
  refine allows_confinedSession.ensureStarted.bind fun _ => ?_
  refine (allows_confinedSession.ensureBrowser _).bind fun _ => ?_
  exact confinedSession_inOutDir hs c.testCase

theorem isFound_of_scriptedCases {w v : World} {cases : List ScriptedCase}
    (h : scriptedCases pattern w = (.ok cases, v)) :
    ∀ c ∈ cases, IsFound w.disk pattern c.script := by
  obtain ⟨compiled, mid, hcompiled, h⟩ := bind_apply_eq_ok h
  obtain ⟨hcases, -⟩ := Prod.mk.inj h
  rw [← Except.ok.inj hcases]
  intro c hc
  obtain ⟨script, hscript, hc⟩ := List.mem_flatMap.mp hc
  obtain ⟨tc, -, rfl⟩ := List.mem_map.mp hc
  exact isFound_of_compileMatching hcompiled script hscript

theorem runSelected_confined (order : List Int) (w : World) :
    Confined config (IsFound w.disk pattern) w.disk
      (runSelected env config pattern order w).2.disk := by
  have hquiet : Quiet (scriptedCases pattern) :=
    (quiet_compileMatching pattern false).bind fun _ => moves_pure _
  have hdisk := hquiet w
  cases h : scriptedCases pattern w with
  | mk r v =>
    rw [h] at hdisk
    cases r with
    | error e =>
      rw [runSelected, bind_apply_of_error h, hdisk]
      exact refl v.disk
    | ok cases =>
      have hfound := isFound_of_scriptedCases h
      rw [hdisk] at hfound ⊢
      set last := Session.afterAll env config (chosen cases order) ({}, v) with hlast
      have hcases : ConfinedSession config (IsFound v.disk pattern) ({}, v) last :=
        Session.afterAll_carries (fun c hc => sessionRun_confined (hfound c (mem_of_mem_chosen hc)))
          ({}, v)
      have hclosed : ConfinedSession config (IsFound v.disk pattern) last
          ((Session.close env last.1 last.2).1.2, (Session.close env last.1 last.2).2) :=
        allows_confinedSession.close last.1 last.2
      rw [runSelected_disk h hlast.symm]
      exact (IsTrans.trans _ _ _ hcases hclosed (by simp [Session.Prepared])).2

end Sessions

/-! ### Prepared directories -/

/-- What preparing the directory of a script comes to.  Nothing is in the directory if something
was at its path before, or if no double dots are in the root.  If nothing was found at its path,
every file stays. -/
structure Readies (config : Config) (s : Path) (d d' : Disk) : Prop where
  directory : d'.isDirectoryAt (outPlace config d.current s) = true
  empty : d.exists? (outputDir config s) = .ok true ∨ ".." ∉ (rootDir config).names →
    d'.NoneBelow (outPlace config d.current s)
  files : d.exists? (outputDir config s) = .ok false → ∀ q, d'.IsFile q ↔ d.IsFile q

theorem outputDir_plain (hs : s.name ≠ "") (hup : ".." ∉ (rootDir config).names) :
    ∀ n ∈ (outputDir config s).names, IsPlain n := by
  have hroot : ∀ n ∈ (rootDir config).names, IsPlain n := by
    intro n hn
    have hkept := (List.mem_filter.mp hn).2
    rw [Bool.and_eq_true, bne_iff_ne, bne_iff_ne] at hkept
    exact isPlain_iff.mpr ⟨hkept.1, hkept.2, fun he => hup (he ▸ hn)⟩
  have hname := fileNamePart_plain hs
  intro n hn
  rw [outputDir, child, if_neg (isPlain_iff.mp hname).1] at hn
  rcases List.mem_append.mp hn with hn | hn
  · exact hroot n hn
  · rwa [List.mem_singleton.mp hn]

theorem freshDirectory_readies (hs : s.name ≠ "") (hd : d.IsTree)
    (h : d.freshDirectory (outputDir config s) = (d', .ok ())) : Readies config s d d' := by
  have hp := sound_outputDir config s
  have hnil : (outputDir config s).names ≠ [] := by
    rw [outputDir, child, if_neg (isPlain_iff.mp (fileNamePart_plain hs)).1]
    simp
  refine ⟨freshDirectory_isDirectoryAt hp h, ?_, fun hnot q => ?_⟩
  · rintro (hexists | hup)
    · exact freshDirectory_noneBelow hp hexists h
    · exact hd.freshDirectory_noneBelow hp hnil (outputDir_plain hs hup) h
  · rcases freshDirectory_eq_ok h with ⟨-, hmake⟩ | ⟨hexists, -⟩
    · have hmakes := ensureDirectories_makes d hp
      rw [hmake] at hmakes
      exact hmakes.isFile_iff
    · rw [hnot] at hexists
      cases hexists

/-- **Effects are confined.**  The directory of every script with a name lies directly below the
root, and every artifact lies directly in the directory it is written to, under a plain name each.
Changes of a disk by a test case are confined by its script, and those by a run of scripts or of
chosen test cases by the scripts that it finds, as long as nobody who is told of the test cases
changes it otherwise.  A directory that has been prepared is there; nothing is in it, unless the
root holds double dots and nothing was found at the path before, and then every file has stayed. -/
theorem effects_confined (config : Config) :
    (∀ s, s.name ≠ "" → IsChildOf (outputDir config s) (rootDir config) ∧
      ∀ cur, outPlace config cur s = (rootDir config).place cur ++ [fileNamePart s.name]) ∧
    (∀ out name urlA urlB paths, ArtifactPaths.ofTest out name urlA urlB = .ok paths →
      ∀ p ∈ paths.toList, IsChildOf p out) ∧
    (∀ driver s tc w, Confined config (s = ·) w.disk
      (comparePages driver config (outputDir config s) tc w).2.disk) ∧
    (∀ env pattern reporter requireTests w, reporter.Carries (OfDisks (· = ·)) →
      Confined config (IsFound w.disk pattern) w.disk
        (runMatching env config pattern reporter requireTests w).2.disk) ∧
    (∀ env pattern order w, Confined config (IsFound w.disk pattern) w.disk
      (runSelected env config pattern order w).2.disk) ∧
    ∀ s w out v, s.name ≠ "" → w.disk.IsTree → freshOutputDir config s w = (.ok out, v) →
      out = outputDir config s ∧ Confined config (s = ·) w.disk v.disk ∧
        Readies config s w.disk v.disk := by
  refine ⟨fun s hs => ⟨outputDir_isChildOf hs, fun cur => outPlace_eq hs⟩, ?_, ?_, ?_, ?_, ?_⟩
  · intro out name urlA urlB paths h
    exact artifacts_areChildrenOf h
  · intro driver s tc w
    have hmoves : Moves (Confined config (s = ·))
        (comparePages driver config (outputDir config s) tc) := comparePages_confined driver rfl tc
    exact hmoves w
  · intro env pattern reporter requireTests w hr
    exact runMatching_confined hr requireTests w
  · intro env pattern order w
    exact runSelected_confined order w
  · intro s w out v hs hd h
    obtain ⟨hout, hfresh⟩ := freshOutputDir_eq_ok h
    have hmoves : Moves (Confined config (s = ·)) (freshOutputDir config s) :=
      freshOutputDir_confined rfl
    have hconfined := hmoves w
    rw [h] at hconfined
    exact ⟨hout, hconfined, freshDirectory_readies hs hd hfresh⟩

/-- A directory of a script with an old file in it. -/
def leftover : World where
  disk :=
    { entries := [(["out"], .directory), (["out", "x-txt"], .directory),
        (["out", "x-txt", "old"], .file (.bytes []))] }

theorem leftover_isTree : leftover.disk.IsTree := isTree_of_entries (by decide +kernel)

/-- A test case that is called after a path that leads up has its artifacts beside those of others,
a run stays in the directories of two scripts, and nothing old is left in one that is prepared. -/
theorem effects_confined_upwards :
    (∃ paths, ArtifactPaths.ofTest (.ofString "out/x-txt") "../../x" "http://../.." "http://b" =
      .ok paths ∧ ∀ p ∈ paths.toList, IsChildOf p (.ofString "out/x-txt")) ∧
    Confined sampleConfig (IsFound sideBySide.disk "?.txt") sideBySide.disk
      (runMatching sampleEnv sampleConfig "?.txt" .notes true sideBySide).2.disk ∧
    ∃ v, freshOutputDir sampleConfig (.ofString "x.txt") leftover =
      (.ok (outputDir sampleConfig (.ofString "x.txt")), v) ∧
      v.disk.NoneBelow (outPlace sampleConfig leftover.disk.current (.ofString "x.txt")) := by
  obtain ⟨-, hartifacts, -, hruns, -, hready⟩ := effects_confined sampleConfig
  have hnotes : Reporter.notes.Carries (OfDisks (· = ·)) := ⟨fun _ _ _ => rfl, fun _ _ _ => rfl⟩
  refine ⟨?_, hruns sampleEnv "?.txt" .notes true sideBySide hnotes, ?_⟩
  · have hsome : (ArtifactPaths.ofTest (.ofString "out/x-txt") "../../x" "http://../.."
        "http://b").toOption.isSome = true := by decide +kernel
    cases h : ArtifactPaths.ofTest (.ofString "out/x-txt") "../../x" "http://../.." "http://b" with
    | error e =>
      rw [h] at hsome
      cases hsome
    | ok paths => exact ⟨paths, rfl, hartifacts _ _ _ _ _ h⟩
  · have hsome : (freshOutputDir sampleConfig (.ofString "x.txt") leftover).1.toOption.isSome =
        true := by decide +kernel
    cases h : freshOutputDir sampleConfig (.ofString "x.txt") leftover with
    | mk r v =>
      rw [h] at hsome
      cases r with
      | error e => cases hsome
      | ok out =>
        obtain ⟨rfl, -, hreadies⟩ := hready _ leftover out v (by decide +kernel) leftover_isTree h
        exact ⟨v, rfl, hreadies.empty (.inr (by decide +kernel))⟩

/-- A root by way of a directory that is not there. -/
def detourConfig : Config := { outputRoot := .ofString "missing/../out" }

/-- The directory is prepared, and the old file is still in it: as long as the directory on the
detour is not there nothing is found, and then it is made. -/
theorem leftover_kept_detour : leftover.disk.IsTree ∧
    ∃ v, freshOutputDir detourConfig (.ofString "x.txt") leftover =
        (.ok (outputDir detourConfig (.ofString "x.txt")), v) ∧
      outPlace detourConfig leftover.disk.current (.ofString "x.txt") = ["out", "x-txt"] ∧
      v.disk.find? ["out", "x-txt", "old"] = some (.file (.bytes [])) := by
  refine ⟨leftover_isTree, ?_⟩
  have hrun : (freshOutputDir detourConfig (.ofString "x.txt") leftover).1.toOption =
      some (outputDir detourConfig (.ofString "x.txt")) ∧
      (freshOutputDir detourConfig (.ofString "x.txt") leftover).2.disk.find?
        ["out", "x-txt", "old"] = some (.file (.bytes [])) := by decide +kernel
  obtain ⟨hout, hkept⟩ := hrun
  cases h : freshOutputDir detourConfig (.ofString "x.txt") leftover with
  | mk r v =>
    rw [h] at hout hkept
    cases r with
    | error e => cases hout
    | ok out =>
      obtain rfl : out = _ := Option.some.inj hout
      exact ⟨v, rfl, by decide +kernel, hkept⟩

end PageDiff.Run
