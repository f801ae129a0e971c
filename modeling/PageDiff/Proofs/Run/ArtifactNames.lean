import PageDiff.Proofs.Run.OutputDirs
import PageDiff.Proofs.Script.Naming

/-!
# Which artifacts share a file

An artifact is called after its test and what it shows, with a dot between the two that neither of
them holds, so its path says both.  The compiler keeps the names of tests apart, but not as parts
of file names.  Main statement (`artifacts_apart_iff`): the artifacts of two test cases of a script
are in different files exactly if their names differ at a character that a file name keeps, and
then neither of them writes where the other has written.
-/

namespace PageDiff.Run

open PageDiff.Disk PageDiff.Path PageDiff.Script PageDiff.Text

/-! ### Names as parts of file names -/

/-- A character that becomes a hyphen, or is one. -/
def IsFiller (c : Char) : Prop := c = '-' ∨ c ∈ unsafeChars

/-- Two characters that can not be told apart in a file name. -/
def Alike (c d : Char) : Prop := c = d ∨ (IsFiller c ∧ IsFiller d)

theorem hyphen_of_unsafe (c : Char) : (if unsafeChars.contains c then '-' else c) = '-' ↔
    IsFiller c := by
  unfold IsFiller
  by_cases hc : c ∈ unsafeChars
  · simp [hc]
  · simp [hc]

theorem alike_iff {c d : Char} :
    (if unsafeChars.contains c then '-' else c) = (if unsafeChars.contains d then '-' else d) ↔
      Alike c d := by
  have hc := hyphen_of_unsafe c
  have hd := hyphen_of_unsafe d
  unfold Alike
  by_cases hcu : c ∈ unsafeChars
  · have hcf : IsFiller c := .inr hcu
    rw [if_pos (by simpa using hcu), eq_comm, hd]
    constructor
    · exact fun hdf => .inr ⟨hcf, hdf⟩
    · rintro (rfl | ⟨-, hdf⟩)
      · exact hcf
      · exact hdf
  · rw [if_neg (by simpa using hcu)] at hc ⊢
    by_cases hdu : d ∈ unsafeChars
    · rw [if_pos (by simpa using hdu), hc]
      constructor
      · exact fun hcf => .inr ⟨hcf, .inr hdu⟩
      · rintro (rfl | ⟨hcf, -⟩)
        · exact absurd hdu hcu
        · exact hcf
    · rw [if_neg (by simpa using hdu)] at hd ⊢
      constructor
      · exact .inl
      · rintro (h | ⟨hcf, hdf⟩)
        · exact h
        · rw [hc.mpr hcf, hd.mpr hdf]

/-- Two texts are the same as parts of file names exactly if they are alike, character by
character. -/
theorem fileNamePart_eq_iff {a b : String} :
    fileNamePart a = fileNamePart b ↔ List.Forall₂ Alike a.toList b.toList := by
  rw [fileNamePart, fileNamePart, String.ofList_inj, fileNameChars, fileNameChars,
    ← List.forall₂_eq_eq_eq, List.forall₂_map_left_iff, List.forall₂_map_right_iff]
  simp only [alike_iff]

/-! ### Paths of artifacts -/

theorem before_dot {n : List Char} (h : '.' ∉ n) (rest : List Char) :
    (n ++ '.' :: rest).takeWhile (· != '.') = n := by
  rw [List.takeWhile_append_of_pos]
  · simp
  · intro c hc
    have : c ≠ '.' := fun he => h (he ▸ hc)
    simpa using this

/-- The first dot of the name of an artifact is the one behind the test. -/
theorem artifactName_eq_iff {n n' shown shown' : String} (hn : '.' ∉ n.toList)
    (hn' : '.' ∉ n'.toList) :
    artifactName n shown = artifactName n' shown' ↔ n = n' ∧ shown = shown' := by
  constructor
  · intro h
    have hchars := congrArg String.toList h
    rw [artifactName_toList, artifactName_toList] at hchars
    have htest := congrArg (List.takeWhile (· != '.')) hchars
    rw [before_dot hn, before_dot hn'] at htest
    rw [htest, List.append_cancel_left_eq, List.cons.injEq, List.append_cancel_right_eq] at hchars
    exact ⟨String.toList_inj.mp htest, String.toList_inj.mp hchars.2⟩
  · rintro ⟨rfl, rfl⟩
    rfl

theorem artifactName_ne_empty (n shown : String) : artifactName n shown ≠ "" := by
  intro h
  have hchars := congrArg String.toList h
  rw [artifactName_toList] at hchars
  simp at hchars

/-- The path of an artifact says which part of a file name its test is, and what it shows. -/
theorem artifact_eq_iff {out : Path} {n n' shown shown' : String} :
    out.child (artifactName (fileNamePart n) shown) =
        out.child (artifactName (fileNamePart n') shown') ↔
      fileNamePart n = fileNamePart n' ∧ shown = shown' := by
  have hdot : ∀ m : String, '.' ∉ (fileNamePart m).toList :=
    fun m => not_mem_fileNamePart (by decide) m
  rw [← artifactName_eq_iff (hdot n) (hdot n'), Path.child, Path.child,
    if_neg (artifactName_ne_empty _ _), if_neg (artifactName_ne_empty _ _)]
  simp

/-- So does the place where it lies. -/
theorem place_artifact_eq_iff {out : Path} {cur : Place} {n n' shown shown' : String} :
    (out.child (artifactName (fileNamePart n) shown)).place cur =
        (out.child (artifactName (fileNamePart n') shown')).place cur ↔
      fileNamePart n = fileNamePart n' ∧ shown = shown' := by
  have hdot : ∀ m : String, '.' ∉ (fileNamePart m).toList :=
    fun m => not_mem_fileNamePart (by decide) m
  rw [place_artifact, place_artifact, ← artifactName_eq_iff (hdot n) (hdot n')]
  simp

/-- What an artifact of a test case shows: the difference or the page of a host. -/
theorem mem_artifacts {out : Path} {n urlA urlB : String} {paths : ArtifactPaths}
    (h : ArtifactPaths.ofTest out n urlA urlB = .ok paths) :
    paths.diff = out.child (artifactName (fileNamePart n) "diff") ∧
      ∀ p ∈ paths.toList, ∃ shown, '/' ∉ shown.toList ∧
        p = out.child (artifactName (fileNamePart n) shown) := by
  obtain ⟨hostA, hA, h⟩ := bind_eq_ok.mp h
  obtain ⟨hostB, hB, h⟩ := bind_eq_ok.mp h
  rw [← Except.ok.inj h]
  refine ⟨rfl, ?_⟩
  intro p hp
  simp only [ArtifactPaths.toList, List.mem_cons, List.not_mem_nil, or_false] at hp
  rcases hp with rfl | rfl | rfl
  · exact ⟨"diff", by decide, rfl⟩
  · exact ⟨hostA, slash_not_mem_hostPart hA, rfl⟩
  · exact ⟨hostB, slash_not_mem_hostPart hB, rfl⟩

theorem sound_artifacts {out : Path} {n urlA urlB : String} {paths : ArtifactPaths}
    (hout : out.Sound) (h : ArtifactPaths.ofTest out n urlA urlB = .ok paths) :
    ∀ p ∈ paths.toList, p.Sound := by
  intro p hp
  obtain ⟨shown, hslash, rfl⟩ := (mem_artifacts h).2 p hp
  exact hout.child (slash_not_mem_artifactName n hslash)

theorem sound_writeTasks {out : Path} {n urlA urlB : String} {paths : ArtifactPaths}
    {a b : Image} {threshold : Number.Numeric} (hout : out.Sound)
    (h : ArtifactPaths.ofTest out n urlA urlB = .ok paths) :
    ∀ t ∈ writeTasks paths a b threshold, t.path.Sound :=
  fun t ht => sound_artifacts hout h t.path (path_mem_of_mem_writeTasks ht)

section Pairs

variable {out : Path} {n n' urlA urlB urlA' urlB' : String} {paths paths' : ArtifactPaths}

/-- The artifacts of two test cases have no path in common exactly if the names of the test cases
differ as parts of file names: otherwise both have the same difference. -/
theorem artifacts_disjoint_iff (h : ArtifactPaths.ofTest out n urlA urlB = .ok paths)
    (h' : ArtifactPaths.ofTest out n' urlA' urlB' = .ok paths') :
    paths.toList.Disjoint paths'.toList ↔ fileNamePart n ≠ fileNamePart n' := by
  obtain ⟨hdiff, hshown⟩ := mem_artifacts h
  obtain ⟨hdiff', hshown'⟩ := mem_artifacts h'
  constructor
  · intro hdisjoint hsame
    have hshared : paths.diff = paths'.diff := by rw [hdiff, hdiff', hsame]
    exact hdisjoint (a := paths.diff) (by simp [ArtifactPaths.toList])
      (by simp [hshared, ArtifactPaths.toList])
  · intro hne p hp hp'
    obtain ⟨shown, -, rfl⟩ := hshown p hp
    obtain ⟨shown', -, heq⟩ := hshown' _ hp'
    exact hne (artifact_eq_iff.mp heq).1

/-- Different paths of artifacts lead to different places. -/
theorem artifacts_places_ne {cur : Place}
    (h : ArtifactPaths.ofTest out n urlA urlB = .ok paths)
    (h' : ArtifactPaths.ofTest out n' urlA' urlB' = .ok paths')
    (hne : fileNamePart n ≠ fileNamePart n') :
    ∀ p ∈ paths.toList, ∀ p' ∈ paths'.toList, p.place cur ≠ p'.place cur := by
  intro p hp p' hp' hplace
  obtain ⟨shown, -, rfl⟩ := (mem_artifacts h).2 p hp
  obtain ⟨shown', -, rfl⟩ := (mem_artifacts h').2 p' hp'
  exact hne (place_artifact_eq_iff.mp hplace).1

end Pairs

/-! ### What a write leaves alone -/

section Writes

variable {d : Disk} {q : Place}

theorem savePicture_current (d : Disk) (p : Path) (image : Image) :
    (savePicture d p image).1.current = d.current := by
  rcases savePicture_disk d p image with h | ⟨place, c, -, h⟩
  · rw [h]
  · rw [h]
    rfl

theorem savePicture_beside {p : Path} (hp : p.Sound) (image : Image) (hq : q ≠ p.place d.current) :
    (savePicture d p image).1.find? q = d.find? q := by
  rcases savePicture_disk d p image with h | ⟨place, c, ho, h⟩
  · rw [h]
  · obtain ⟨hne, -, -, hplace⟩ := openForWriting_eq_ok ho
    rw [h, find?_put _ hne, if_neg]
    rwa [hplace hp]

theorem perform_beside {t : WriteTask} (hp : t.path.Sound) (hq : q ≠ t.path.place d.current) :
    (t.perform d).1.find? q = d.find? q ∧ (t.perform d).1.current = d.current := by
  rw [perform_disk]
  cases t.picture with
  | error f => exact ⟨rfl, rfl⟩
  | ok image => exact ⟨savePicture_beside hp image hq, savePicture_current d t.path image⟩

/-- Pictures that are written change nothing beside the places of their paths. -/
theorem performAll_beside (ts : List WriteTask) (hp : ∀ t ∈ ts, t.path.Sound)
    (hq : ∀ t ∈ ts, q ≠ t.path.place d.current) :
    (WriteTask.performAll ts d).1.find? q = d.find? q := by
  induction ts generalizing d with
  | nil => rfl
  | cons t ts ih =>
    obtain ⟨hfind, hcur⟩ := perform_beside (hp t (by simp)) (hq t (by simp))
    have hrest := ih (d := (t.perform d).1) (fun t' ht' => hp t' (by simp [ht'])) fun t' ht' => by
      rw [hcur]
      exact hq t' (by simp [ht'])
    exact hrest.trans hfind

/-- The artifacts of one test case are left alone by those of another one that has none of their
files. -/
theorem writeArtifacts_beside {out : Path} {n n' urlA urlB urlA' urlB' : String}
    {paths paths' : ArtifactPaths} (hout : out.Sound)
    (h : ArtifactPaths.ofTest out n urlA urlB = .ok paths)
    (h' : ArtifactPaths.ofTest out n' urlA' urlB' = .ok paths')
    (hne : fileNamePart n ≠ fileNamePart n') (a b : Image) (threshold : Number.Numeric)
    (d : Disk) {p : Path} (hp : p ∈ paths.toList) :
    (writeArtifacts d paths' a b threshold).1.find? (p.place d.current) =
      d.find? (p.place d.current) := by
  refine performAll_beside (writeTasks paths' a b threshold) (sound_writeTasks hout h') ?_
  intro t ht
  exact artifacts_places_ne h h' hne p hp _ (path_mem_of_mem_writeTasks ht)

end Writes

/-! ### Test cases of a script -/

/-- Two test cases whose names differ at a character that a file name keeps. -/
def DistinctFiles (c c' : TestCase) : Prop :=
  ¬ List.Forall₂ Alike c.name.toList c'.name.toList

/-- **Artifacts of different test cases.**  No two test cases of a compiled script have the same
name.  Their artifacts have no path in common exactly if the names differ at a character that a
file name keeps, and then writing the artifacts of one leaves those of the other as they are. -/
theorem artifacts_apart_iff {text : List Char} {script : Option String} {cases : List TestCase}
    (h : compile text script = .ok cases) {i j : Nat} {c c' : TestCase}
    (hi : cases[i]? = some c) (hj : cases[j]? = some c') (hij : i ≠ j) :
    c.name ≠ c'.name ∧
      ∀ out paths paths', ArtifactPaths.ofTest out c.name c.urlA c.urlB = .ok paths →
        ArtifactPaths.ofTest out c'.name c'.urlA c'.urlB = .ok paths' →
        (paths.toList.Disjoint paths'.toList ↔ DistinctFiles c c') ∧
        (out.Sound → DistinctFiles c c' → ∀ a b threshold d, ∀ p ∈ paths.toList,
          (writeArtifacts d paths' a b threshold).1.find? (p.place d.current) =
            d.find? (p.place d.current)) := by
  have hnames := names_nodup_of_compile h
  refine ⟨?_, ?_⟩
  · intro hname
    have hlt : i < (cases.map (·.name)).length := by
      rw [List.length_map]
      exact (List.getElem?_eq_some_iff.mp hi).1
    refine hij ((List.getElem?_inj hlt hnames).mp ?_)
    rw [List.getElem?_map, List.getElem?_map, hi, hj, Option.map_some, Option.map_some, hname]
  · intro out paths paths' hpaths hpaths'
    refine ⟨?_, ?_⟩
    · rw [artifacts_disjoint_iff hpaths hpaths', DistinctFiles, ne_eq, fileNamePart_eq_iff]
    · intro hout hfiles a b threshold d p hp
      rw [DistinctFiles, ← fileNamePart_eq_iff] at hfiles
      exact writeArtifacts_beside hout hpaths hpaths' hfiles a b threshold d hp

/-- A script with three pages.  A dot and a hyphen are the difference between the first two. -/
def dottedPages : List Char :=
  "compare http://a http://b
pathname /a.b
capture

pathname /a-b
capture

pathname /c
capture".toList

def dottedPagesCases : List TestCase :=
  ["/a.b", "/a-b", "/c"].map fun page => ⟨page, page, "http://a", "http://b", [], 0, 0, .viewport⟩

/-- The artifacts of a page of both origins. -/
def pageArtifacts (out : Path) (name : String) : ArtifactPaths where
  diff := out.child (artifactName name "diff")
  pageA := out.child (artifactName name "a")
  pageB := out.child (artifactName name "b")

theorem compile_dottedPages : compile dottedPages = .ok dottedPagesCases := by decide +kernel

theorem artifacts_of_dottedPages (out : Path) :
    dottedPagesCases.map (fun c => ArtifactPaths.ofTest out c.name c.urlA c.urlB) =
      ["-a-b", "-a-b", "-c"].map fun name => .ok (pageArtifacts out name) := by
  have hhosts : dottedPagesCases.map (fun c => (hostPart c.urlA, hostPart c.urlB)) =
      [(.ok "a", .ok "b"), (.ok "a", .ok "b"), (.ok "a", .ok "b")] := by decide +kernel
  have hnames : dottedPagesCases.map (fun c => fileNamePart c.name) = ["-a-b", "-a-b", "-c"] := by
    decide +kernel
  simp only [dottedPagesCases, List.map_cons, List.map_nil, List.cons.injEq, Prod.mk.injEq,
    and_true] at hhosts hnames ⊢
  simp only [ArtifactPaths.ofTest, hhosts, hnames]
  exact ⟨rfl, rfl, rfl⟩

/-- The artifacts of the first page and of the third one are apart. -/
theorem artifacts_apart_dottedPages :
    ∃ c c', dottedPagesCases[0]? = some c ∧ dottedPagesCases[2]? = some c' ∧ c.name ≠ c'.name ∧
      ∀ out, (pageArtifacts out "-a-b").toList.Disjoint (pageArtifacts out "-c").toList ∧
        (out.Sound → ∀ a b threshold d, ∀ p ∈ (pageArtifacts out "-a-b").toList,
          (writeArtifacts d (pageArtifacts out "-c") a b threshold).1.find? (p.place d.current) =
            d.find? (p.place d.current)) := by
  refine ⟨_, _, rfl, rfl, ?_⟩
  obtain ⟨hname, hpaths⟩ := artifacts_apart_iff (i := 0) (j := 2) compile_dottedPages rfl rfl
    (by decide)
  refine ⟨hname, fun out => ?_⟩
  have hartifacts := artifacts_of_dottedPages out
  simp only [dottedPagesCases, List.map_cons, List.map_nil, List.cons.injEq, and_true]
    at hartifacts
  obtain ⟨hfirst, -, hthird⟩ := hartifacts
  obtain ⟨hdisjoint, hkept⟩ := hpaths out _ _ hfirst hthird
  have hfiles : DistinctFiles ⟨"/a.b", "/a.b", "http://a", "http://b", [], 0, 0, .viewport⟩
      ⟨"/c", "/c", "http://a", "http://b", [], 0, 0, .viewport⟩ := by
    rw [DistinctFiles, ← fileNamePart_eq_iff]
    decide +kernel
  exact ⟨hdisjoint.mpr hfiles, fun hout => hkept hout hfiles⟩

/-- The first page and the second one have the same artifacts. -/
theorem artifacts_shared_dottedPages :
    compile dottedPages = .ok dottedPagesCases ∧
    ∃ c c', dottedPagesCases[0]? = some c ∧ dottedPagesCases[1]? = some c' ∧ c ≠ c' ∧
      ∀ out, ∃ paths, ArtifactPaths.ofTest out c.name c.urlA c.urlB = .ok paths ∧
        ArtifactPaths.ofTest out c'.name c'.urlA c'.urlB = .ok paths ∧
        ¬ paths.toList.Disjoint paths.toList := by
  refine ⟨compile_dottedPages, _, _, rfl, rfl, by decide, fun out => ?_⟩
  have hartifacts := artifacts_of_dottedPages out
  simp only [dottedPagesCases, List.map_cons, List.map_nil, List.cons.injEq, and_true]
    at hartifacts
  obtain ⟨hfirst, hsecond, -⟩ := hartifacts
  refine ⟨_, hfirst, hsecond, ?_⟩
  intro hdisjoint
  exact hdisjoint (List.mem_cons_self) (List.mem_cons_self)

end PageDiff.Run
