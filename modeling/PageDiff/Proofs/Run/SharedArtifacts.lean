import PageDiff.Proofs.Run.ArtifactNames

/-!
# When artifacts collide

Every artifact is called after its test and what it shows, and its name comes apart at its dots into
just these two and the format (`splitOn_artifactName`), because neither of them holds a dot.  So two
artifacts in one directory have the same path exactly if their tests are the same as parts of file
names and they have the same label (`artifact_paths_eq_iff`).  The label of a page is its host, and
that of a difference is a word that a host may be as well.
-/

namespace PageDiff.Run

open PageDiff.Disk PageDiff.Path PageDiff.Script

variable {out p p' : Path} {n n' shown shown' : String}

/-! ### Names that come apart -/

theorem not_mem_hostPart {c : Char} (hc : c ∈ unsafeChars) {url host : String}
    (h : hostPart url = .ok host) : c ∉ host.toList := by
  obtain ⟨parts, -, h⟩ := bind_eq_ok.mp h
  rw [← Except.ok.inj h, String.toList_ofList]
  exact not_mem_fileNameChars hc _

/-- The name of an artifact comes apart at its dots. -/
theorem splitOn_artifactName (hn : '.' ∉ n.toList) (hshown : '.' ∉ shown.toList) :
    (artifactName n shown).toList.splitOn '.' = [n.toList, shown.toList, ['p', 'n', 'g']] := by
  have hformat : '.' ∉ ['p', 'n', 'g'] := by decide
  rw [artifactName_toList, List.splitOn_append_cons_self_of_not_mem hn,
    List.splitOn_append_cons_self_of_not_mem hshown, List.splitOn_eq_singleton hformat]

/-! ### Artifacts of a test -/

/-- What an artifact shows: the difference, or the page at an address. -/
inductive Subject
  | difference
  | page (url : String)

/-- What stands for a subject in the name of an artifact. -/
def Subject.label : Subject → Except Url.Error String
  | .difference => .ok "diff"
  | .page url => hostPart url

/-- A path that an artifact of a test has, whatever its pages are compared with. -/
inductive IsArtifact (out : Path) (n : String) : Subject → Path → Prop
  | difference {urlA urlB : String} {paths : ArtifactPaths}
    (h : ArtifactPaths.ofTest out n urlA urlB = .ok paths) : IsArtifact out n .difference paths.diff
  | pageA {urlA urlB : String} {paths : ArtifactPaths}
    (h : ArtifactPaths.ofTest out n urlA urlB = .ok paths) :
    IsArtifact out n (.page urlA) paths.pageA
  | pageB {urlA urlB : String} {paths : ArtifactPaths}
    (h : ArtifactPaths.ofTest out n urlA urlB = .ok paths) :
    IsArtifact out n (.page urlB) paths.pageB

variable {subject subject' : Subject} {label label' : String}

theorem ofTest_of_hosts {urlA urlB hostA hostB : String} (hA : hostPart urlA = .ok hostA)
    (hB : hostPart urlB = .ok hostB) :
    ArtifactPaths.ofTest out n urlA urlB = .ok
      ⟨out.child (artifactName (fileNamePart n) "diff"),
        out.child (artifactName (fileNamePart n) hostA),
        out.child (artifactName (fileNamePart n) hostB)⟩ := by
  rw [ArtifactPaths.ofTest, hA, hB]
  rfl

/-- An artifact is below the directory, under the name of its test and its label. -/
theorem exists_label (h : IsArtifact out n subject p) : ∃ label, subject.label = .ok label ∧
    p = out.child (artifactName (fileNamePart n) label) := by
  cases h with
  | difference h => exact ⟨"diff", rfl, (mem_artifacts h).1⟩
  | pageA h =>
    obtain ⟨hostA, hA, h⟩ := bind_eq_ok.mp h
    obtain ⟨hostB, hB, h⟩ := bind_eq_ok.mp h
    rw [← Except.ok.inj h]
    exact ⟨hostA, hA, rfl⟩
  | pageB h =>
    obtain ⟨hostA, hA, h⟩ := bind_eq_ok.mp h
    obtain ⟨hostB, hB, h⟩ := bind_eq_ok.mp h
    rw [← Except.ok.inj h]
    exact ⟨hostB, hB, rfl⟩

/-- A subject with a label has one artifact. -/
theorem isArtifact_iff (hlabel : subject.label = .ok label) :
    IsArtifact out n subject p ↔ p = out.child (artifactName (fileNamePart n) label) := by
  constructor
  · intro h
    obtain ⟨found, hfound, hp⟩ := exists_label h
    rw [hlabel] at hfound
    rw [Except.ok.inj hfound]
    exact hp
  · rintro rfl
    cases subject with
    | difference =>
      obtain rfl : "diff" = label := Except.ok.inj hlabel
      have hempty : hostPart "" = .ok "" := rfl
      exact .difference (ofTest_of_hosts hempty hempty)
    | page url => exact .pageA (ofTest_of_hosts hlabel hlabel)

theorem dot_not_mem_label (h : subject.label = .ok label) : '.' ∉ label.toList := by
  cases subject with
  | difference =>
    obtain rfl : "diff" = label := Except.ok.inj h
    decide
  | page url => exact not_mem_hostPart (by decide) h

/-- The test and the subject of an artifact can be read from its name. -/
theorem splitOn_name (h : IsArtifact out n subject p) : ∃ label, subject.label = .ok label ∧
    p = out.child p.name ∧
      p.name.toList.splitOn '.' = [(fileNamePart n).toList, label.toList, ['p', 'n', 'g']] := by
  obtain ⟨label, hlabel, rfl⟩ := exists_label h
  have hname : (out.child (artifactName (fileNamePart n) label)).name =
      artifactName (fileNamePart n) label := by
    rw [Path.child, if_neg (artifactName_ne_empty _ _), Path.name, List.getLast?_concat]
    rfl
  refine ⟨label, hlabel, ?_, ?_⟩
  · rw [hname]
  · rw [hname]
    exact splitOn_artifactName (not_mem_fileNamePart (by decide) n) (dot_not_mem_label hlabel)

/-- Two artifacts have the same path exactly if they have the same test, as part of a file name, and
the same label. -/
theorem artifact_paths_eq_iff (h : IsArtifact out n subject p) (h' : IsArtifact out n' subject' p') :
    p = p' ↔ fileNamePart n = fileNamePart n' ∧ subject.label = subject'.label := by
  obtain ⟨label, hlabel, rfl⟩ := exists_label h
  obtain ⟨label', hlabel', rfl⟩ := exists_label h'
  rw [artifact_eq_iff, hlabel, hlabel', Except.ok.injEq]

/-- Different paths of artifacts lead to different places. -/
theorem artifact_places_eq_iff (h : IsArtifact out n subject p) (h' : IsArtifact out n' subject' p')
    (cur : Place) : p.place cur = p'.place cur ↔ p = p' := by
  obtain ⟨label, -, rfl⟩ := exists_label h
  obtain ⟨label', -, rfl⟩ := exists_label h'
  rw [place_artifact_eq_iff, artifact_eq_iff]

theorem hostPart_of_split {url : String} {parts : Url.Parts} (h : Url.split url.toList = .ok parts) :
    hostPart url = .ok (String.ofList (fileNameChars parts.netloc)) := by
  rw [hostPart, h]
  rfl

/-! ### Collisions -/

/-- **When artifacts collide.**  Two tests with any names, and pages at any two addresses that can be
split, have one path each for the difference and for the page.  Two pages share theirs exactly if
the names are the same as parts of file names and the hosts as well, a difference shares that of a
page exactly if the names are and the host is `diff`, and two differences exactly if the names are.
What an artifact belongs to is read from its file name alone, and artifacts that share no path share
no place. -/
theorem artifacts_shared_iff (out : Path) (n n' : String) {u u' : String}
    {parts parts' : Url.Parts} (hu : Url.split u.toList = .ok parts)
    (hu' : Url.split u'.toList = .ok parts') :
    ∃ diff diff' page page',
      (∀ p, IsArtifact out n .difference p ↔ p = diff) ∧
      (∀ p, IsArtifact out n' .difference p ↔ p = diff') ∧
      (∀ p, IsArtifact out n (.page u) p ↔ p = page) ∧
      (∀ p, IsArtifact out n' (.page u') p ↔ p = page') ∧
      (page = page' ↔ fileNamePart n = fileNamePart n' ∧ hostPart u = hostPart u') ∧
      (diff = page' ↔ fileNamePart n = fileNamePart n' ∧ hostPart u' = .ok "diff") ∧
      (diff = diff' ↔ fileNamePart n = fileNamePart n') ∧
      (∀ subject p, IsArtifact out n subject p → ∃ label, subject.label = .ok label ∧
        p = out.child p.name ∧
        p.name.toList.splitOn '.' = [(fileNamePart n).toList, label.toList, ['p', 'n', 'g']]) ∧
      ∀ subject subject' p p', IsArtifact out n subject p → IsArtifact out n' subject' p' →
        ∀ cur, p.place cur = p'.place cur ↔ p = p' := by
  have hdiff : (Subject.difference).label = .ok "diff" := rfl
  have hpage : (Subject.page u).label = _ := hostPart_of_split hu
  have hpage' : (Subject.page u').label = _ := hostPart_of_split hu'
  refine ⟨_, _, _, _, fun p => isArtifact_iff hdiff, fun p => isArtifact_iff hdiff,
    fun p => isArtifact_iff hpage, fun p => isArtifact_iff hpage', ?_, ?_, ?_, ?_, ?_⟩
  · exact artifact_paths_eq_iff ((isArtifact_iff hpage).mpr rfl) ((isArtifact_iff hpage').mpr rfl)
  · rw [artifact_paths_eq_iff ((isArtifact_iff hdiff).mpr rfl) ((isArtifact_iff hpage').mpr rfl),
      hdiff]
    exact and_congr_right' eq_comm
  · rw [artifact_paths_eq_iff ((isArtifact_iff hdiff).mpr rfl) ((isArtifact_iff hdiff).mpr rfl)]
    exact and_iff_left rfl
  · intro subject p h
    exact splitOn_name h
  · intro subject subject' p p' h h' cur
    exact artifact_places_eq_iff h h' cur

/-- A dot and a blank are alike, as are a colon and a dot: pages of two tests share a file.  It is
not that of the difference, which is shared by a page of a host of that name. -/
theorem artifacts_shared_alike :
    ∃ parts parts' parts'', Url.split "http://h:1/x".toList = .ok parts ∧
      Url.split "//h.1".toList = .ok parts' ∧ Url.split "//diff?y".toList = .ok parts'' ∧
      ∃ diff page, IsArtifact (.ofString "out") "/a.b" .difference diff ∧
        IsArtifact (.ofString "out") "/a.b" (.page "http://h:1/x") page ∧
        IsArtifact (.ofString "out") "-a b" (.page "//h.1") page ∧
        IsArtifact (.ofString "out") "-a b" (.page "//diff?y") diff ∧ diff ≠ page := by
  have hu : Url.split "http://h:1/x".toList = .ok _ := rfl
  have hu' : Url.split "//h.1".toList = .ok _ := rfl
  have hu'' : Url.split "//diff?y".toList = .ok _ := rfl
  obtain ⟨diff, -, page, page', hdiff, -, hpage, hpage', hpages, hmixed, -⟩ :=
    artifacts_shared_iff (.ofString "out") "/a.b" "-a b" hu hu'
  obtain ⟨found, -, -, page'', hfound, -, -, hpage'', -, hnamed, -⟩ :=
    artifacts_shared_iff (.ofString "out") "/a.b" "-a b" hu hu''
  have hsame : page = page' := hpages.mpr (by decide +kernel)
  have hshared : found = page'' := hnamed.mpr (by decide +kernel)
  have hone : diff = found := (hfound diff).mp ((hdiff diff).mpr rfl)
  refine ⟨_, _, _, hu, hu', hu'', diff, page, (hdiff diff).mpr rfl, (hpage page).mpr rfl,
    (hpage' page).mpr hsame, (hpage'' diff).mpr (hone.trans hshared), ?_⟩
  intro heq
  have hhost := (hmixed.mp (heq.trans hsame)).2
  revert hhost
  decide +kernel

end PageDiff.Run
