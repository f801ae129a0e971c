import PageDiff.Proofs.Run.ArtifactNames
import PageDiff.Proofs.Run.Evidence
import PageDiff.Proofs.Run.Verdict

/-!
# What a mismatch leaves behind

A mismatch has three pictures, and their files are called after the word for the difference and
after the two hosts.  A host may be called by that very word.  Main statement
(`mismatch_leaves_artifacts`): if every write succeeds, the files in the directory are those of the
three paths and no others, and they are three files, each with its own picture, exactly if neither
host is called so.
-/

namespace PageDiff.Run

open PageDiff.Browser PageDiff.Disk PageDiff.Path PageDiff.Script

variable {d d' : Disk} {tasks : List WriteTask} {out : Path} {n urlA urlB hostA hostB : String}
  {paths : ArtifactPaths}

/-! ### Writes that succeed -/

/-- If every task succeeds and no two have one place, each has its own picture at its place. -/
theorem performAll_contents (hp : ∀ task ∈ tasks, task.path.Sound)
    (hplaces : (tasks.map (·.path.place d.current)).Nodup)
    (hall : ∀ e ∈ (WriteTask.performAll tasks d).2, e = none) :
    ∀ task ∈ tasks, ∃ image, task.picture = .ok image ∧
      (WriteTask.performAll tasks d).1.find? (task.path.place d.current) =
        some (.file (.picture image)) := by
  induction tasks generalizing d with
  | nil => simp
  | cons first rest ih =>
    rw [WriteTask.performAll] at hall ⊢
    cases hperf : first.perform d with
    | mk mid e =>
      simp only [hperf, List.mem_cons, forall_eq_or_imp] at hall ⊢
      obtain ⟨rfl, hall⟩ := hall
      obtain ⟨image, hpic, hne, rfl⟩ := perform_eq_none (hp first (by simp)) hperf
      rw [List.map_cons, List.nodup_cons] at hplaces
      refine ⟨⟨image, hpic, ?_⟩, ?_⟩
      · -- no later task has the place of this one
        rw [performAll_beside rest fun t ht => hp t (by simp [ht])]
        · rw [find?_put _ hne, if_pos rfl]
        · intro t ht heq
          exact hplaces.1 (heq ▸ List.mem_map_of_mem ht)
      · exact ih (fun t ht => hp t (by simp [ht])) hplaces.2 hall

theorem length_performAll (tasks : List WriteTask) (d : Disk) :
    (WriteTask.performAll tasks d).2.length = tasks.length := by
  induction tasks generalizing d with
  | nil => rfl
  | cons first rest ih => simp [WriteTask.performAll, ih]

/-- If every task succeeds, there is a file at the place of each. -/
theorem performAll_allFiles (hp : ∀ task ∈ tasks, task.path.Sound)
    (hall : ∀ e ∈ (WriteTask.performAll tasks d).2, e = none) :
    ∀ task ∈ tasks, (WriteTask.performAll tasks d).1.IsFile (task.path.place d.current) := by
  intro task htask
  have hzip : (tasks.zip (WriteTask.performAll tasks d).2).map Prod.fst = tasks :=
    List.map_fst_zip (length_performAll tasks d).ge
  rw [← hzip] at htask
  obtain ⟨te, hmem, rfl⟩ := List.mem_map.mp htask
  exact performAll_isFile hp d te hmem (hall _ (List.of_mem_zip hmem).2)

/-! ### Three paths -/

/-- Hosts that differ have three different paths exactly if neither is called like the difference,
and three different places then. -/
theorem artifacts_nodup_iff (hA : hostPart urlA = .ok hostA) (hB : hostPart urlB = .ok hostB)
    (hne : hostA ≠ hostB) (h : ArtifactPaths.ofTest out n urlA urlB = .ok paths) (cur : Place) :
    (paths.toList.Nodup ↔ hostA ≠ "diff" ∧ hostB ≠ "diff") ∧
      ((paths.toList.map (·.place cur)).Nodup ↔ hostA ≠ "diff" ∧ hostB ≠ "diff") := by
  obtain ⟨_, hA', h⟩ := bind_eq_ok.mp h
  obtain ⟨_, hB', h⟩ := bind_eq_ok.mp h
  rw [hA] at hA'
  rw [hB] at hB'
  cases hA'
  cases hB'
  rw [← Except.ok.inj h]
  simp only [ArtifactPaths.toList, List.map_cons, List.map_nil, List.nodup_cons, List.mem_cons,
    List.not_mem_nil, or_false, not_or, not_false_eq_true, List.nodup_nil, and_true,
    artifact_eq_iff, place_artifact_eq_iff, true_and, hne, ne_comm]

/-! ### The directory after a mismatch -/

/-- The pictures of the two pages have been taken, they are not the same, and both can be read. -/
def Differ (driver : Driver) (config : Config) (tc : TestCase) (o : Outside)
    (imageA imageB : Image) : Prop :=
  ∃ screenA screenB trace, Taken driver config tc o screenA screenB trace ∧ screenA ≠ screenB ∧
    screenA.decode = .ok imageA ∧ screenB.decode = .ok imageB

/-- There is a file at the place of each path, everything else is as it was, and if the directory
was empty, nothing but these files is in it. -/
structure LeavesFiles (out : Path) (paths : ArtifactPaths) (d d' : Disk) : Prop where
  files : ∀ p ∈ paths.toList, d'.IsFile (p.place d.current)
  beside : ∀ q, (∀ p ∈ paths.toList, q ≠ p.place d.current) → d'.find? q = d.find? q
  below : d.NoneBelow (out.place d.current) → ∀ q, isBelow q (out.place d.current) = true →
    d'.find? q ≠ none → ∃ p ∈ paths.toList, q = p.place d.current
  inside : ∀ p ∈ paths.toList, isBelow (p.place d.current) (out.place d.current) = true

/-- The difference and both pages, each at the place of its own path. -/
structure HoldsPictures (paths : ArtifactPaths) (cur : Place) (diff imageA imageB : Image)
    (d : Disk) : Prop where
  apart : (paths.toList.map (·.place cur)).Nodup
  diff : d.find? (paths.diff.place cur) = some (.file (.picture diff))
  pageA : d.find? (paths.pageA.place cur) = some (.file (.picture imageA))
  pageB : d.find? (paths.pageB.place cur) = some (.file (.picture imageB))

section Written

variable {imageA imageB : Image} {threshold : Number.Numeric}

theorem writeArtifacts_disk (d : Disk) (paths : ArtifactPaths) (imageA imageB : Image)
    (threshold : Number.Numeric) : (writeArtifacts d paths imageA imageB threshold).1 =
      (WriteTask.performAll (writeTasks paths imageA imageB threshold) d).1 := rfl

theorem errors_of_written (h : (writeArtifacts d paths imageA imageB threshold).2 = none) :
    ∀ e ∈ (WriteTask.performAll (writeTasks paths imageA imageB threshold) d).2, e = none :=
  List.findSome?_eq_none_iff.mp h

theorem leavesFiles_of_written (hout : out.Sound)
    (hpaths : ArtifactPaths.ofTest out n urlA urlB = .ok paths)
    (h : (writeArtifacts d paths imageA imageB threshold).2 = none) :
    LeavesFiles out paths d (writeArtifacts d paths imageA imageB threshold).1 := by
  have hsound : ∀ t ∈ writeTasks paths imageA imageB threshold, t.path.Sound :=
    sound_writeTasks hout hpaths
  rw [writeArtifacts_disk]
  have hbeside : ∀ q, (∀ p ∈ paths.toList, q ≠ p.place d.current) →
      (WriteTask.performAll (writeTasks paths imageA imageB threshold) d).1.find? q = d.find? q :=
    fun q hq => performAll_beside _ hsound fun t ht => hq _ (path_mem_of_mem_writeTasks ht)
  refine ⟨?_, hbeside, ?_, ?_⟩
  · intro p hp
    have htasks : (writeTasks paths imageA imageB threshold).map (·.path) = paths.toList := rfl
    rw [← htasks] at hp
    obtain ⟨task, htask, rfl⟩ := List.mem_map.mp hp
    exact performAll_allFiles hsound (errors_of_written h) task htask
  · intro hempty q hq hfind
    by_contra hno
    refine hfind ((hbeside q ?_).trans (hempty q hq))
    exact fun p hp heq => hno ⟨p, hp, heq⟩
  · intro p hp
    obtain ⟨shown, -, rfl⟩ := (mem_artifacts hpaths).2 p hp
    rw [place_artifact, isBelow_iff]
    exact ⟨by simp, List.prefix_append _ _⟩

theorem holdsPictures_of_written (hout : out.Sound)
    (hpaths : ArtifactPaths.ofTest out n urlA urlB = .ok paths)
    (hapart : (paths.toList.map (·.place d.current)).Nodup)
    (h : (writeArtifacts d paths imageA imageB threshold).2 = none) :
    ∃ found, Image.compare imageA imageB threshold = .ok found ∧
      HoldsPictures paths d.current found.image imageA imageB
        (writeArtifacts d paths imageA imageB threshold).1 := by
  rw [writeArtifacts_disk]
  have hcontents := performAll_contents (sound_writeTasks hout hpaths) hapart (errors_of_written h)
  simp only [writeTasks, List.mem_cons, List.not_mem_nil, or_false, forall_eq_or_imp,
    forall_eq] at hcontents
  obtain ⟨⟨image, hdiff, hfindDiff⟩, ⟨_, hA, hfindA⟩, ⟨_, hB, hfindB⟩⟩ := hcontents
  cases hA
  cases hB
  cases hcompare : Image.compare imageA imageB threshold with
  | error e =>
    rw [hcompare] at hdiff
    cases hdiff
  | ok found =>
    rw [hcompare] at hdiff
    cases hdiff
    exact ⟨found, rfl, hapart, hfindDiff, hfindA, hfindB⟩

end Written

/-- When the pages of a test case differ and no write fails, the mismatch is told, and the disk is
what the writes have made of it. -/
theorem comparePages_of_differ {driver : Driver} {config : Config} {tc : TestCase} {w : World}
    {imageA imageB : Image} (hdiffer : Differ driver config tc w.outside imageA imageB)
    (hpaths : ArtifactPaths.ofTest out tc.name tc.urlA tc.urlB = .ok paths)
    (hwritten : (writeArtifacts w.disk paths imageA imageB (.double config.threshold)).2 = none) :
    (comparePages driver config out tc w).1 = .error (.mismatch ⟨tc.urlA, tc.urlB, none⟩) ∧
      (comparePages driver config out tc w).2.disk =
        (writeArtifacts w.disk paths imageA imageB (.double config.threshold)).1 := by
  obtain ⟨screenA, screenB, trace, htaken, hshots, ha, hb⟩ := hdiffer
  have hends := Ends.mismatch htaken hshots ha hb hpaths rfl (.none (errors_of_written hwritten))
  obtain ⟨log, hrun⟩ := hends.yields w rfl
  rw [hrun]
  exact ⟨rfl, rfl⟩

/-- **What a mismatch leaves behind.**  When the pages of a test case differ and no write fails, the
mismatch is told and the files in the directory are those of the three paths.  For hosts that
differ they are three files exactly if neither host is called like the difference, and then each
has its own picture. -/
theorem mismatch_leaves_artifacts {driver : Driver} {config : Config} {tc : TestCase} {w : World}
    {imageA imageB : Image} (hout : out.Sound)
    (hdiffer : Differ driver config tc w.outside imageA imageB)
    (hA : hostPart tc.urlA = .ok hostA) (hB : hostPart tc.urlB = .ok hostB) (hne : hostA ≠ hostB)
    (hpaths : ArtifactPaths.ofTest out tc.name tc.urlA tc.urlB = .ok paths)
    (hwritten : (writeArtifacts w.disk paths imageA imageB (.double config.threshold)).2 = none) :
    (comparePages driver config out tc w).1 = .error (.mismatch ⟨tc.urlA, tc.urlB, none⟩) ∧
    LeavesFiles out paths w.disk (comparePages driver config out tc w).2.disk ∧
    (paths.toList.Nodup ↔ hostA ≠ "diff" ∧ hostB ≠ "diff") ∧
    (hostA ≠ "diff" → hostB ≠ "diff" →
      ∃ found, Image.compare imageA imageB (.double config.threshold) = .ok found ∧
        HoldsPictures paths w.disk.current found.image imageA imageB
          (comparePages driver config out tc w).2.disk) := by
  obtain ⟨htold, hdisk⟩ := comparePages_of_differ hdiffer hpaths hwritten
  obtain ⟨hpathsIff, hplacesIff⟩ := artifacts_nodup_iff hA hB hne hpaths w.disk.current
  rw [hdisk]
  refine ⟨htold, leavesFiles_of_written hout hpaths hwritten, hpathsIff, fun hdiffA hdiffB => ?_⟩
  exact holdsPictures_of_written hout hpaths (hplacesIff.mpr ⟨hdiffA, hdiffB⟩) hwritten

/-! ### Two runs in an empty directory -/

/-- The directory of `preparedDisk`, with nothing in it. -/
def preparedDir : Path := .ofString "out/x-txt"

theorem sound_preparedDir : preparedDir.Sound := sound_ofString _

def preparedWorld : World := { disk := preparedDisk }

theorem noneBelow_preparedDisk : preparedDisk.NoneBelow (preparedDir.place []) := by
  have hentries : ∀ e ∈ preparedDisk.entries, isBelow e.1 (preparedDir.place []) = false := by
    decide +kernel
  intro q hq
  have hne : q ≠ [] := by
    rintro rfl
    exact absurd hq (by decide +kernel)
  rw [find?, if_neg hne, List.lookup_eq_none_iff]
  intro e he
  rw [bne_iff_ne]
  rintro rfl
  rw [hentries e he] at hq
  cases hq

/-- A picture that succeeds leaves the disk as it was. -/
theorem pictureAt_of_fst {driver : Driver} {config : Config} {url : String} {tc : TestCase}
    {o : Outside} {screen : Screenshot} (h : (pictureAt driver config url tc o).1 = .ok screen) :
    pictureAt driver config url tc o =
      (.ok screen, ⟨o.disk, (pictureAt driver config url tc o).2.trace⟩) := by
  obtain ⟨trace, ⟨i, heq⟩ | ⟨screen', heq⟩⟩ := pictureAt_cases driver config url tc o
  · rw [heq] at h
    cases h
  · rw [heq] at h ⊢
    cases h
    rfl

/-- Before a browser whose first picture is black and whose second one is white, the pages of every
accepted test case differ. -/
theorem differ_of_pictures {tc : TestCase} {o : Outside} (haccepted : Accepted tc)
    (hA : (pictureAt blackFirst sampleConfig tc.urlA tc o).1 = .ok (.encoded black ""))
    (hB : (pictureAt blackFirst sampleConfig tc.urlB tc
      ⟨o.disk, (pictureAt blackFirst sampleConfig tc.urlA tc o).2.trace⟩).1 =
        .ok (.encoded white "")) :
    Differ blackFirst sampleConfig tc o black white :=
  ⟨_, _, _, ⟨haccepted, _, pictureAt_of_fst hA, pictureAt_of_fst hB⟩, by decide +kernel, rfl, rfl⟩

theorem differ_caseFor :
    Differ blackFirst sampleConfig (caseFor "1") preparedWorld.outside black white :=
  differ_of_pictures ⟨by decide +kernel, by decide +kernel⟩ (by decide +kernel) (by decide +kernel)

theorem mismatch_leaves_artifacts_caseFor :
    LeavesFiles preparedDir firstPaths preparedDisk
      (comparePages blackFirst sampleConfig preparedDir (caseFor "1") preparedWorld).2.disk ∧
    firstPaths.toList.Nodup ∧
    ∃ found, HoldsPictures firstPaths [] found black white
      (comparePages blackFirst sampleConfig preparedDir (caseFor "1") preparedWorld).2.disk := by
  have hA : hostPart (caseFor "1").urlA = .ok "a" := by decide +kernel
  have hB : hostPart (caseFor "1").urlB = .ok "b" := by decide +kernel
  have hpaths : ArtifactPaths.ofTest preparedDir (caseFor "1").name (caseFor "1").urlA
      (caseFor "1").urlB = .ok firstPaths := by decide +kernel
  have hwritten : (writeArtifacts preparedWorld.disk firstPaths black white
      (.double sampleConfig.threshold)).2 = none := by decide +kernel
  obtain ⟨-, hleaves, hnodup, hpictures⟩ :=
    mismatch_leaves_artifacts sound_preparedDir differ_caseFor hA hB (by decide) hpaths hwritten
  obtain ⟨found, -, hholds⟩ := hpictures (by decide) (by decide)
  exact ⟨hleaves, hnodup.mpr (by decide), found.image, hholds⟩

/-- A script with a host that is called like the difference. -/
def diffHost : List Char := "compare http://diff http://b\npathname /x\ncapture".toList

def diffHostCase : TestCase := ⟨"/x", "/x", "http://diff", "http://b", [], 0, 0, .viewport⟩

/-- Two of the three paths are one. -/
def diffHostPaths : ArtifactPaths where
  diff := .ofString "out/x-txt/-x.diff.png"
  pageA := .ofString "out/x-txt/-x.diff.png"
  pageB := .ofString "out/x-txt/-x.b.png"

theorem differ_diffHost :
    Differ blackFirst sampleConfig diffHostCase preparedWorld.outside black white :=
  differ_of_pictures ⟨by decide +kernel, by decide +kernel⟩ (by decide +kernel) (by decide +kernel)

/-- The hosts differ, no write fails, and two files are left. -/
theorem artifact_shared_diffHost :
    compile diffHost = .ok [diffHostCase] ∧
    hostPart diffHostCase.urlA = .ok "diff" ∧ hostPart diffHostCase.urlB = .ok "b" ∧
    Differ blackFirst sampleConfig diffHostCase preparedWorld.outside black white ∧
    preparedDisk.NoneBelow (preparedDir.place []) ∧
    ArtifactPaths.ofTest preparedDir diffHostCase.name diffHostCase.urlA diffHostCase.urlB =
      .ok diffHostPaths ∧ ¬ diffHostPaths.toList.Nodup ∧
    (comparePages blackFirst sampleConfig preparedDir diffHostCase preparedWorld).1 =
      .error (.mismatch ⟨diffHostCase.urlA, diffHostCase.urlB, none⟩) ∧
    ∀ q, isBelow q (preparedDir.place []) = true →
      (comparePages blackFirst sampleConfig preparedDir diffHostCase preparedWorld).2.disk.find? q
        ≠ none → q = ["out", "x-txt", "-x.diff.png"] ∨ q = ["out", "x-txt", "-x.b.png"] := by
  have hpaths : ArtifactPaths.ofTest preparedDir diffHostCase.name diffHostCase.urlA
      diffHostCase.urlB = .ok diffHostPaths := by decide +kernel
  have hwritten : (writeArtifacts preparedWorld.disk diffHostPaths black white
      (.double sampleConfig.threshold)).2 = none := by decide +kernel
  obtain ⟨htold, hdisk⟩ := comparePages_of_differ differ_diffHost hpaths hwritten
  refine ⟨by decide +kernel, by decide +kernel, by decide +kernel, differ_diffHost,
    noneBelow_preparedDisk, hpaths, by decide +kernel, htold, fun q hq hfind => ?_⟩
  rw [hdisk] at hfind
  obtain ⟨p, hp, rfl⟩ := (leavesFiles_of_written sound_preparedDir hpaths hwritten).below
    noneBelow_preparedDisk q hq hfind
  have hplaces : ∀ p ∈ diffHostPaths.toList, p.place [] = ["out", "x-txt", "-x.diff.png"] ∨
      p.place [] = ["out", "x-txt", "-x.b.png"] := by decide +kernel
  exact hplaces p hp

end PageDiff.Run
