import PageDiff.Proofs.Run.Sessions

/-!
# What becomes of artifacts

Artifacts of a run, and of a session, stay where they are if no two scripts share a directory, and
are lost to the next script that has their directory prepared.  Main statement: `artifacts_kept`.
-/

namespace PageDiff.Run

open PageDiff.Browser PageDiff.Disk PageDiff.Path PageDiff.Script

/-- **What becomes of artifacts.**  Scripts share a directory exactly if their names are the same as
parts of file names.  What is written for a script lies in its directory, and if no two scripts
share one, it is there when the run or the session has ended.  If two scripts share one, preparing
it for the second of them takes away every file of the first. -/
theorem artifacts_kept (config : Config) :
    (∀ s t, outputDir config s = outputDir config t ↔
      fileNamePart s.name = fileNamePart t.name) ∧
    (∀ s name urlA urlB paths a b threshold d,
      ArtifactPaths.ofTest (outputDir config s) name urlA urlB = .ok paths →
      ∀ te ∈ (writeTasks paths a b threshold).zip
          (WriteTask.performAll (writeTasks paths a b threshold) d).2, te.2 = none →
        outPlace config d.current s <+: te.1.path.place d.current ∧
          (writeArtifacts d paths a b threshold).1.IsFile (te.1.path.place d.current)) ∧
    (∀ env pattern reporter requireTests w v scripts, Reporter.KeepsFiles reporter →
      compileMatching pattern requireTests w = (.ok scripts, v) → ApartDirs config scripts →
      ∀ k j q, InDirs config w.disk.current (upTo scripts k j) q →
        (runCompiled env config pattern reporter (upTo scripts k j) v).2.disk.IsFile q →
        (runMatching env config pattern reporter requireTests w).2.disk.IsFile q) ∧
    (∀ env pattern order w v cases, scriptedCases pattern w = (.ok cases, v) →
      ApartScripts config cases →
      ∀ n p, Session.afterAll env config ((chosen cases order).take n) ({}, v) = p →
        ∀ e ∈ p.1.outDirs, ∀ q, e.2.place w.disk.current <+: q → p.2.disk.IsFile q →
          (runSelected env config pattern order w).2.disk.IsFile q) ∧
    (∀ s t w v out q, outputDir config s = outputDir config t →
      w.disk.exists? (outputDir config t) = .ok true → freshOutputDir config t w = (.ok out, v) →
      outPlace config w.disk.current s <+: q → ¬ v.disk.IsFile q) := by
  refine ⟨fun _ _ => outputDir_eq_iff, ?_, ?_, ?_, ?_⟩
  · intro s name urlA urlB paths a b threshold d hpaths te hte hnone
    have htasks : ∀ task ∈ writeTasks paths a b threshold, task.path.Sound ∧
        outPlace config d.current s <+: task.path.place d.current := by
      intro task htask
      refine artifacts_below hpaths _ ?_
      simp only [writeTasks, List.mem_cons, List.not_mem_nil, or_false] at htask
      rcases htask with rfl | rfl | rfl <;> simp [ArtifactPaths.toList]
    exact ⟨(htasks _ (List.of_mem_zip hte).1).2,
      performAll_isFile (fun task ht => (htasks task ht).1) d te hte hnone⟩
  · intro env pattern reporter requireTests w v scripts hr h hdirs k j q hq hfile
    exact runMatching_keeps hr h hdirs k j hq hfile
  · intro env pattern order w v cases h hapart n p hp e he q hq hfile
    exact runSelected_keeps h hapart hp he hq hfile
  · intro s t w v out q hshared hexists h hq
    rw [outPlace, hshared] at hq
    exact freshOutputDir_clears hexists h hq

/-- The script of one test case. -/
def scriptFor (path : String) : Content :=
  .bytes (Text.Utf8.encode
    ("compare http://a http://b\npathname /" ++ path ++ "\ncapture").toList)

def caseFor (path : String) : TestCase :=
  ⟨"/" ++ path, "/" ++ path, "http://a", "http://b", [], 0, 0, .viewport⟩

def black : Image := ⟨.rgb, 1, 1, #[0, 0, 0]⟩

def white : Image := ⟨.rgb, 1, 1, #[255, 255, 255]⟩

/-- A browser whose first picture is black and whose others are white. -/
def blackFirst : Driver where
  reply _ _ := .done
  picture history :=
    .encoded (if history.countP Event.isNewContext = 1 then black else white) ""

def sampleEnv : Environment := { driver := blackFirst, caches := .ofString "caches" }

def sampleConfig : Config := { outputRoot := .ofString "out" }

/-- The artifacts of the first test case. -/
def firstPaths : ArtifactPaths where
  diff := .ofString "out/x-txt/-1.diff.png"
  pageA := .ofString "out/x-txt/-1.a.png"
  pageB := .ofString "out/x-txt/-1.b.png"

/-- The place of `firstPaths.pageA`. -/
def firstArtifact : Place := ["out", "x-txt", "-1.a.png"]

/-- The directory of the first artifacts, with nothing in it. -/
def preparedDisk : Disk where
  entries := [(["out"], .directory), (["out", "x-txt"], .directory)]

/-- Two scripts with different names in one directory. -/
def sideBySide : World where
  disk :=
    { entries := [(["x.txt"], .file (scriptFor "1")), (["y.txt"], .file (scriptFor "2"))] }

def sideBySideScripts : List Compiled :=
  [(.ofString "x.txt", [caseFor "1"]), (.ofString "y.txt", [caseFor "2"])]

def sideBySideCases : List ScriptedCase :=
  [⟨.ofString "x.txt", caseFor "1"⟩, ⟨.ofString "y.txt", caseFor "2"⟩]

/-- Two scripts with one name in different directories. -/
def sameName : World where
  disk :=
    { entries := [(["a"], .directory), (["a", "x.txt"], .file (scriptFor "1")),
        (["b"], .directory), (["b", "x.txt"], .file (scriptFor "2"))] }

def sameNameScripts : List Compiled :=
  [(.ofString "a/x.txt", [caseFor "1"]), (.ofString "b/x.txt", [caseFor "2"])]

theorem findScripts_sideBySide : findScripts sideBySide.disk "?.txt" =
    .ok [.ofString "x.txt", .ofString "y.txt"] := by
  have htexts : sideBySide.disk.globTexts "?.txt" = ["x.txt", "y.txt"] := by decide +kernel
  rw [findScripts, glob, if_neg (by decide +kernel), htexts,
    List.mergeSort_of_pairwise (by decide +kernel)]
  rfl

theorem findScripts_sameName : findScripts sameName.disk "**/x.txt" =
    .ok [.ofString "a/x.txt", .ofString "b/x.txt"] := by
  have htexts : sameName.disk.globTexts "**/x.txt" = ["a/x.txt", "b/x.txt"] := by decide +kernel
  rw [findScripts, glob, if_neg (by decide +kernel), htexts,
    List.mergeSort_of_pairwise (by decide +kernel)]
  rfl

theorem compileMatching_of_findScripts {pattern : String} {requireTests : Bool} {w : World}
    {paths : List Path} (h : findScripts w.disk pattern = .ok paths) :
    compileMatching pattern requireTests w = paths.mapM (compileScript requireTests) w := by
  have hget : (get : Run RunFailure World) w = (.ok w, w) := rfl
  have hpaths : (ofExcept (findScripts w.disk pattern) : Run RunFailure _) w = (.ok paths, w) := by
    rw [h]
    rfl
  rw [compileMatching, bind_apply_of_ok hget, bind_apply_of_ok hpaths]

/-- A world after scripts in it have been compiled. -/
def afterCompiling (paths : List Path) (requireTests : Bool) (w : World) : World :=
  (paths.mapM (compileScript requireTests) w).2

/-- `sideBySide` after its scripts have been compiled. -/
def sideBySideCompiled (requireTests : Bool) : World :=
  afterCompiling [.ofString "x.txt", .ofString "y.txt"] requireTests sideBySide

/-- `sameName` after its scripts have been compiled. -/
def sameNameCompiled : World :=
  afterCompiling [.ofString "a/x.txt", .ofString "b/x.txt"] true sameName

/-- `sameName` after its first script has been run. -/
def sameNameHalfway : World :=
  (runCompiled sampleEnv sampleConfig "**/x.txt" .silent (upTo sameNameScripts 0 1)
    sameNameCompiled).2

/-- The session and the world after the first test case of `sideBySide` has been run. -/
def sideBySideHalfway : Session × World :=
  Session.afterAll sampleEnv sampleConfig ((chosen sideBySideCases [0, 1]).take 1)
    ({}, sideBySideCompiled false)

theorem compileMatching_sideBySide (requireTests : Bool) :
    compileMatching "?.txt" requireTests sideBySide =
      (.ok sideBySideScripts, sideBySideCompiled requireTests) := by
  rw [compileMatching_of_findScripts findScripts_sideBySide]
  refine Prod.ext ?_ rfl
  cases requireTests with
  | true => decide +kernel
  | false => decide +kernel

theorem compileMatching_sameName :
    compileMatching "**/x.txt" true sameName = (.ok sameNameScripts, sameNameCompiled) := by
  rw [compileMatching_of_findScripts findScripts_sameName]
  exact Prod.ext (by decide +kernel) rfl

theorem scriptedCases_sideBySide : scriptedCases "?.txt" sideBySide =
    (.ok sideBySideCases, sideBySideCompiled false) := by
  rw [scriptedCases, bind_apply_of_ok (compileMatching_sideBySide false)]
  rfl

theorem performAll_firstPaths :
    (WriteTask.performAll (writeTasks firstPaths black white (.int 0)) preparedDisk).2 =
      [none, none, none] := by decide +kernel

/-- What is written is there, in the end of the run and of the session as well, and it is lost when
the directory is prepared again. -/
theorem artifacts_kept_sideBySide :
    (writeArtifacts preparedDisk firstPaths black white (.int 0)).1.IsFile
        (firstPaths.pageA.place []) ∧
    (runMatching sampleEnv sampleConfig "?.txt" .silent true sideBySide).2.disk.IsFile
        firstArtifact ∧
    (runSelected sampleEnv sampleConfig "?.txt" [0, 1] sideBySide).2.disk.IsFile firstArtifact ∧
    ¬ (freshOutputDir sampleConfig (.ofString "b/x.txt") sameNameHalfway).2.disk.IsFile
        firstArtifact := by
  obtain ⟨-, written, run, session, cleared⟩ := artifacts_kept sampleConfig
  refine ⟨?_, ?_, ?_, ?_⟩
  · refine (written (.ofString "x.txt") "/1" "http://a/1" "http://b/1" firstPaths black white
      (.int 0) preparedDisk (by decide +kernel) (⟨firstPaths.pageA, .ok black⟩, none) ?_ rfl).2
    rw [performAll_firstPaths]
    simp [writeTasks]
  · refine run sampleEnv "?.txt" .silent true sideBySide (sideBySideCompiled true)
      sideBySideScripts silent_keepsFiles (compileMatching_sideBySide true)
      (by unfold ApartDirs; decide +kernel) 0 1 firstArtifact ?_ ⟨.picture black, by decide +kernel⟩
    exact ⟨(.ofString "x.txt", [caseFor "1"]), List.mem_cons_self, by decide +kernel⟩
  · exact session sampleEnv "?.txt" [0, 1] sideBySide (sideBySideCompiled false) sideBySideCases
      scriptedCases_sideBySide (by unfold ApartScripts; decide +kernel) 1 sideBySideHalfway rfl
      (.ofString "x.txt", outputDir sampleConfig (.ofString "x.txt")) (by decide +kernel)
      firstArtifact (by decide +kernel) ⟨.picture black, by decide +kernel⟩
  · exact cleared (.ofString "a/x.txt") (.ofString "b/x.txt") sameNameHalfway
      (freshOutputDir sampleConfig (.ofString "b/x.txt") sameNameHalfway).2
      (outputDir sampleConfig (.ofString "b/x.txt")) firstArtifact (by decide +kernel)
      (by decide +kernel) (Prod.ext (by decide +kernel) rfl) (by decide +kernel)

theorem artifact_lost_sameName :
    outputDir sampleConfig (.ofString "a/x.txt") = outputDir sampleConfig (.ofString "b/x.txt") ∧
    findScripts sameName.disk "**/x.txt" = .ok [.ofString "a/x.txt", .ofString "b/x.txt"] ∧
    sameNameHalfway.disk.IsFile firstArtifact ∧
    ¬ (runMatching sampleEnv sampleConfig "**/x.txt" .silent true sameName).2.disk.IsFile
      firstArtifact := by
  refine ⟨by decide +kernel, findScripts_sameName, ⟨.picture black, by decide +kernel⟩, ?_⟩
  have hnone : (runMatching sampleEnv sampleConfig "**/x.txt" .silent true sameName).2.disk.find?
      firstArtifact = none := by
    rw [runMatching_eq, bind_apply_of_ok compileMatching_sameName]
    decide +kernel
  rintro ⟨c, hc⟩
  rw [hnone] at hc
  cases hc

end PageDiff.Run
