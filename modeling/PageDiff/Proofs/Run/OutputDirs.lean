import PageDiff.Proofs.Run.Frame

/-!
# Directories of artifacts

Every script has its artifacts in a directory of its own below one root, called after the last name
of the path of the script.  Two scripts have the same directory exactly if these names are the same
but for characters that a name of a file should not hold.  Otherwise nothing is below both.
-/

namespace PageDiff.Run

open PageDiff.Disk PageDiff.Path PageDiff.Script

variable {config : Config} {cur q : Place} {s t : Path}

/-! ### Parts of file names -/

theorem not_mem_fileNameChars {c : Char} (hc : c ∈ unsafeChars) (cs : List Char) :
    c ∉ fileNameChars cs := by
  intro hmem
  obtain ⟨d, -, hd⟩ := List.mem_map.mp hmem
  by_cases hu : unsafeChars.contains d = true
  · rw [if_pos hu] at hd
    rw [← hd] at hc
    exact absurd hc (by decide)
  · rw [if_neg hu] at hd
    rw [hd] at hu
    exact hu (by simpa using hc)

theorem not_mem_fileNamePart {c : Char} (hc : c ∈ unsafeChars) (text : String) :
    c ∉ (fileNamePart text).toList := by
  rw [fileNamePart, String.toList_ofList]
  exact not_mem_fileNameChars hc _

theorem fileNamePart_eq_empty {text : String} : fileNamePart text = "" ↔ text = "" := by
  rw [← String.toList_inj, fileNamePart, String.toList_ofList, fileNameChars, String.toList_empty,
    List.map_eq_nil_iff, ← String.toList_empty, String.toList_inj]

/-- Without dots, a part of a file name never leads up or stays. -/
theorem fileNamePart_plain {text : String} (h : text ≠ "") : IsPlain (fileNamePart text) := by
  have hdot := not_mem_fileNamePart (c := '.') (by decide) text
  rw [isPlain_iff]
  refine ⟨fun he => h (fileNamePart_eq_empty.mp he), ?_, ?_⟩
  · intro he
    rw [he] at hdot
    exact hdot (by decide)
  · intro he
    rw [he] at hdot
    exact hdot (by decide)

/-! ### Places of directories -/

/-- Scripts share a directory exactly if their names are the same as parts of file names. -/
theorem outputDir_eq_iff :
    outputDir config s = outputDir config t ↔ fileNamePart s.name = fileNamePart t.name := by
  constructor
  · intro h
    have hnames := congrArg Path.names h
    unfold outputDir child at hnames
    by_cases hs : fileNamePart s.name = ""
    · by_cases ht : fileNamePart t.name = ""
      · rw [hs, ht]
      · rw [if_pos hs, if_neg ht] at hnames
        simp at hnames
    · by_cases ht : fileNamePart t.name = ""
      · rw [if_neg hs, if_pos ht] at hnames
        simp at hnames
      · rw [if_neg hs, if_neg ht] at hnames
        simpa using hnames
  · intro h
    rw [outputDir, outputDir, h]

theorem sound_outputDir (config : Config) (s : Path) : (outputDir config s).Sound :=
  (sound_ofString _).child (not_mem_fileNamePart (by decide) _)

def outPlace (config : Config) (cur : Place) (s : Path) : Place := (outputDir config s).place cur

theorem outPlace_eq (hs : s.name ≠ "") :
    outPlace config cur s =
      (Path.ofString config.outputRoot.shown).place cur ++ [fileNamePart s.name] :=
  place_child (fileNamePart_plain hs)

/-- Nothing is below the directories of two scripts that do not share one. -/
theorem not_below_other (hs : s.name ≠ "") (ht : t.name ≠ "")
    (hne : outputDir config s ≠ outputDir config t) (hq : outPlace config cur s <+: q) :
    ¬ outPlace config cur t <+: q := by
  intro hq'
  rw [outPlace_eq hs] at hq
  rw [outPlace_eq ht] at hq'
  have heq := (List.prefix_of_prefix_length_le hq hq' (by simp)).eq_of_length (by simp)
  refine hne (outputDir_eq_iff.mpr ?_)
  simpa using heq

/-! ### Preparing a directory -/

variable {kept : Place → Prop}

theorem onDisk_moves {R : Disk → Disk → Prop} {op : Disk → Outcome} (h : ∀ d, R d (op d).1) :
    Moves R (onDisk op) := by
  intro w
  exact h w.disk

theorem freshOutputDir_keeps (hkept : ∀ q, kept q → ¬ outPlace config cur s <+: q) :
    Moves (Keeps cur kept) (freshOutputDir config s) := by
  unfold freshOutputDir
  cases unencodable? config.outputRoot with
  | some e => exact moves_throw _
  | none =>
    refine (Moves.mapError (onDisk_moves fun d => ?_) _).bind fun _ => moves_pure _
    exact freshDirectory_keeps (sound_outputDir config s) hkept

/-- What preparing the directory of a script does if it succeeds. -/
theorem freshOutputDir_eq_ok {w v : World} {out : Path}
    (h : freshOutputDir config s w = (.ok out, v)) :
    out = outputDir config s ∧
      w.disk.freshDirectory (outputDir config s) = (v.disk, .ok ()) := by
  unfold freshOutputDir at h
  cases hu : unencodable? config.outputRoot with
  | some e =>
    rw [hu] at h
    cases h
  | none =>
    rw [hu] at h
    obtain ⟨_, mid, hmid, hv⟩ := bind_apply_eq_ok h
    obtain ⟨hout, rfl⟩ := Prod.mk.inj hv
    refine ⟨(Except.ok.inj hout).symm, ?_⟩
    have hdisk := mapError_apply_eq_ok hmid
    cases hd : w.disk.freshDirectory (outputDir config s) with
    | mk d r =>
      simp only [onDisk, hd] at hdisk
      obtain ⟨hr, rfl⟩ := Prod.mk.inj hdisk
      rw [hr]

/-- A directory that is there and is prepared holds no file any more. -/
theorem freshOutputDir_clears {w v : World} {out : Path}
    (hexists : w.disk.exists? (outputDir config s) = .ok true)
    (h : freshOutputDir config s w = (.ok out, v))
    (hq : outPlace config w.disk.current s <+: q) : ¬ v.disk.IsFile q :=
  freshDirectory_clears (sound_outputDir config s) hexists (freshOutputDir_eq_ok h).2 hq

/-! ### Artifacts -/

/-- The picture of a task that succeeds is put at the place of its path. -/
theorem perform_eq_none {task : WriteTask} {d d' : Disk} (hp : task.path.Sound)
    (h : task.perform d = (d', none)) : ∃ image, task.picture = .ok image ∧
      task.path.place d.current ≠ [] ∧
      d' = d.put (task.path.place d.current) (.file (.picture image)) := by
  unfold WriteTask.perform at h
  cases hpic : task.picture with
  | error f =>
    rw [hpic] at h
    cases h
  | ok image =>
    rw [hpic] at h
    simp only at h
    unfold savePicture at h
    cases ho : d.openForWriting task.path with
    | error e =>
      rw [ho] at h
      cases h
    | ok place =>
      obtain ⟨hne, -, -, hplace⟩ := openForWriting_eq_ok ho
      rw [ho] at h
      simp only at h
      by_cases hempty : image.isEmpty = true
      · rw [if_pos hempty] at h
        cases h
      · rw [if_neg hempty] at h
        obtain ⟨rfl, -⟩ := Prod.mk.inj h
        rw [← hplace hp]
        exact ⟨image, rfl, hne, rfl⟩

/-- A picture that has been written is a file at the place of its path. -/
theorem perform_isFile {task : WriteTask} {d d' : Disk} (hp : task.path.Sound)
    (h : task.perform d = (d', none)) : d'.IsFile (task.path.place d.current) := by
  obtain ⟨image, -, hne, rfl⟩ := perform_eq_none hp h
  exact ⟨.picture image, by rw [find?_put _ hne, if_pos rfl]⟩

/-- Of several pictures, each one that has been written is a file in the end. -/
theorem performAll_isFile {tasks : List WriteTask} (hp : ∀ task ∈ tasks, task.path.Sound)
    (d : Disk) : ∀ te ∈ tasks.zip (WriteTask.performAll tasks d).2, te.2 = none →
      (WriteTask.performAll tasks d).1.IsFile (te.1.path.place d.current) := by
  induction tasks generalizing d with
  | nil => simp
  | cons task tasks ih =>
    rintro ⟨done, e⟩ hmem rfl
    rw [WriteTask.performAll] at hmem ⊢
    cases hperf : task.perform d with
    | mk mid e =>
      have hfirst : Keeps d.current (fun _ => True) d (task.perform d).1 :=
        perform_carries (R := Keeps d.current _)
          (fun d image => savePicture_keeps d task.path image) d
      have hmid := hfirst rfl
      rw [hperf] at hmid
      simp only [hperf, List.zip_cons_cons, List.mem_cons, Prod.mk.injEq] at hmem ⊢
      rcases hmem with ⟨rfl, rfl⟩ | hmem
      · -- later pictures keep it
        have hrest : Keeps d.current (fun _ => True) mid (WriteTask.performAll tasks mid).1 :=
          performAll_keeps tasks mid
        exact (hrest hmid.1).2 _ trivial (perform_isFile (hp done (by simp)) hperf)
      · have := ih (fun t ht => hp t (by simp [ht])) mid _ hmem rfl
        rwa [hmid.1] at this

theorem slash_not_mem_hostPart {url host : String} (h : hostPart url = .ok host) :
    '/' ∉ host.toList := by
  obtain ⟨parts, -, h⟩ := bind_eq_ok.mp h
  rw [← Except.ok.inj h, String.toList_ofList]
  exact not_mem_fileNameChars (by decide) _

theorem artifactName_toList (name shown : String) : (artifactName name shown).toList =
    name.toList ++ '.' :: (shown.toList ++ ['.', 'p', 'n', 'g']) := by
  simp [artifactName, toString]

theorem slash_not_mem_artifactName {shown : String} (name : String) (h : '/' ∉ shown.toList) :
    '/' ∉ (artifactName (fileNamePart name) shown).toList := by
  have hname := not_mem_fileNamePart (c := '/') (by decide) name
  rw [artifactName_toList]
  simp [hname, h]

/-- There is more in the name of an artifact than dots. -/
theorem artifactName_plain (name shown : String) : IsPlain (artifactName name shown) := by
  have hlen : 5 ≤ (artifactName name shown).toList.length := by
    rw [artifactName_toList]
    simp
    omega
  rintro (h | h | h)
  · rw [h] at hlen
    exact absurd hlen (by decide)
  · rw [h] at hlen
    exact absurd hlen (by decide)
  · rw [h] at hlen
    exact absurd hlen (by decide)

/-- An artifact lies directly below the directory that it is written to. -/
theorem place_artifact (out : Path) (name shown : String) :
    (out.child (artifactName name shown)).place cur =
      out.place cur ++ [artifactName name shown] :=
  place_child (artifactName_plain name shown)

/-- The artifacts of a test case lie in the directory of its script. -/
theorem artifacts_below {name urlA urlB : String} {paths : ArtifactPaths}
    (h : ArtifactPaths.ofTest (outputDir config s) name urlA urlB = .ok paths) :
    ∀ p ∈ paths.toList, p.Sound ∧ outPlace config cur s <+: p.place cur := by
  obtain ⟨hostA, hA, h⟩ := bind_eq_ok.mp h
  obtain ⟨hostB, hB, h⟩ := bind_eq_ok.mp h
  have hchild : ∀ shown : String, '/' ∉ shown.toList →
      ((outputDir config s).child (artifactName (fileNamePart name) shown)).Sound ∧
        outPlace config cur s <+:
          ((outputDir config s).child (artifactName (fileNamePart name) shown)).place cur := by
    intro shown hshown
    refine ⟨(sound_outputDir config s).child (slash_not_mem_artifactName name hshown), ?_⟩
    rw [place_artifact]
    exact List.prefix_append _ _
  rw [← Except.ok.inj h]
  intro p hp
  simp only [ArtifactPaths.toList, List.mem_cons, List.not_mem_nil, or_false] at hp
  rcases hp with rfl | rfl | rfl
  · exact hchild "diff" (by decide)
  · exact hchild hostA (slash_not_mem_hostPart hA)
  · exact hchild hostB (slash_not_mem_hostPart hB)

end PageDiff.Run
