import PageDiff.Proofs.Disk.Tree

/-!
# Files side by side

Files that are written into one directory do not come in each other's way: where one of them is
opened does not depend on which of the others have been written, not even for a path of a directory
that leads through others (`FilesIn.openForWriting_eq`).
-/

namespace PageDiff.Disk

variable {d d' : Disk} {out : Path} {n : String} {place q : Place}

/-- Two disks on which the same is found. -/
structure Same (d d' : Disk) : Prop where
  current : d'.current = d.current
  find : ∀ q, d'.find? q = d.find? q

theorem same_put_put (hne : place ≠ []) (e e' : Entry) :
    ((d.put place e).put place e').Same (d.put place e') := by
  refine ⟨rfl, fun q => ?_⟩
  rw [find?_put _ hne, find?_put _ hne, find?_put _ hne]
  split
  · rfl
  · rfl

theorem same_erase_put (hne : place ≠ []) (hnone : d.find? place = none) (e : Entry) :
    ((d.put place e).erase place).Same d := by
  refine ⟨rfl, fun q => ?_⟩
  rw [find?_erase _ hne, find?_put _ hne]
  split
  · next hq => rw [hq, hnone]
  · rfl

/-! ### The directory of a path -/

/-- The directory that a path leads to. -/
def directoryOf (d : Disk) (p : Path) : Except OsCode Place :=
  match d.walk (p.base d.current) p.names with
  | .error code => .error code
  | .ok place => if d.isDirectoryAt place then .ok place else .error .notDirectory

theorem directoryOf_eq_ok {p : Path} : d.directoryOf p = .ok place ↔
    d.walk (p.base d.current) p.names = .ok place ∧ d.isDirectoryAt place = true := by
  unfold directoryOf
  cases d.walk (p.base d.current) p.names with
  | error code => simp
  | ok found =>
    by_cases hdir : d.isDirectoryAt found = true
    · simp only [if_pos hdir, Except.ok.injEq]
      constructor
      · rintro rfl
        exact ⟨rfl, hdir⟩
      · exact And.left
    · simp only [if_neg hdir, reduceCtorEq, Except.ok.injEq, false_iff, not_and]
      rintro rfl
      exact hdir

/-- The parent of a file in a directory is that directory. -/
theorem locateParent_child (hout : out.Sound) (hn : Path.IsName n) :
    d.locateParent (out.child n).text =
      if pathLimit < (out.child n).text.utf8ByteSize then .error .nameTooLong
      else (d.directoryOf out).map (·, n) := by
  have hchild : (out.child n).names = out.names ++ [n] := by
    rw [Path.child, if_neg hn.1]
  have hbase : (out.child n).base d.current = out.base d.current := by
    rw [Path.child, if_neg hn.1]
    rfl
  have hnil : (out.child n).names ≠ [] := by simp [hchild]
  obtain ⟨hstart, k, hseg, hroot⟩ := Path.segments_text (hout.child hn.2) hnil d
  rw [locateParent, if_neg (Path.text_ne_empty _), hstart, hseg, hchild, ← List.append_assoc]
  simp only [List.dropLast_concat, List.getLast?_concat, Option.getD_some]
  rw [walk_replicate_empty hroot, hbase, directoryOf]
  cases d.walk (out.base d.current) out.names with
  | error code => rfl
  | ok place =>
    by_cases hdir : d.isDirectoryAt place = true
    · simp only [if_pos hdir]
      rfl
    · simp only [if_neg hdir]
      rfl

/-- Where a file can be opened, its path leads to a directory but for the last name. -/
theorem exists_directoryOf (hout : out.Sound) (hn : Path.IsName n)
    (h : d.openForWriting (out.child n) = .ok place) : ∃ q, d.directoryOf out = .ok q := by
  obtain ⟨⟨parent, name⟩, hl, -⟩ := bind_eq_ok.mp (withPath_eq_ok h)
  rw [locateParent_child hout hn] at hl
  split at hl
  · cases hl
  · cases hdir : d.directoryOf out with
    | error code =>
      rw [hdir] at hl
      cases hl
    | ok q => exact ⟨q, rfl⟩

/-! ### Following a path past new files -/

theorem walk_congr (hfind : ∀ q, d'.find? q = d.find? q) (place : Place) (names : List String) :
    d'.walk place names = d.walk place names := by
  induction names generalizing place with
  | nil => rfl
  | cons name names ih =>
    have henter : d'.enter place name = d.enter place name := by
      rw [enter, enter, isDirectoryAt, isDirectoryAt, hfind, hfind]
    simp only [walk, henter, ih]

theorem isSome_of_isDirectoryAt (h : d.isDirectoryAt q = true) : (d.find? q).isSome = true := by
  rw [isDirectoryAt, beq_iff_eq] at h
  rw [h]
  rfl

/-- What a step needs: only a name that makes a new place asks what is there. -/
theorem enter_eq_ok_iff {name : String} : d.enter place name = .ok q ↔
    d.isDirectoryAt place = true ∧ q = goTo place name ∧
      (IsPlain name → name.utf8ByteSize ≤ nameLimit ∧ (d.find? q).isSome = true) := by
  grind [enter, goTo, isPlain_iff]

/-- A step that leads to a directory needs nothing but directories. -/
theorem enter_of_directories (hdirs : ∀ q, d'.isDirectoryAt q = d.isDirectoryAt q) {name : String}
    (h : d.enter place name = .ok q) (hq : d.isDirectoryAt q = true) :
    d'.enter place name = .ok q := by
  rw [enter_eq_ok_iff] at h ⊢
  obtain ⟨hplace, hgo, hplain⟩ := h
  refine ⟨(hdirs place).trans hplace, hgo, fun hname => ⟨(hplain hname).1, ?_⟩⟩
  exact isSome_of_isDirectoryAt ((hdirs q).trans hq)

/-- A way that leads to a directory needs nothing but directories. -/
theorem walk_of_directories (hdirs : ∀ q, d'.isDirectoryAt q = d.isDirectoryAt q)
    {names : List String} (h : d.walk place names = .ok q) (hq : d.isDirectoryAt q = true) :
    d'.walk place names = .ok q := by
  induction names generalizing place with
  | nil => exact h
  | cons name names ih =>
    rw [walk] at h ⊢
    cases he : d.enter place name with
    | error code =>
      rw [he] at h
      cases h
    | ok next =>
      rw [he] at h
      rw [enter_of_directories hdirs he (walk_isDirectoryAt h hq 0)]
      exact ih h

/-! ### Files in one directory -/

/-- The disk is the same but for files in the directory of a path, if that can be found. -/
structure FilesIn (out : Path) (d d' : Disk) : Prop where
  current : d'.current = d.current
  directories : ∀ q, d'.isDirectoryAt q = d.isDirectoryAt q
  find : (∀ q, d'.find? q = d.find? q) ∨ ∃ place, d.directoryOf out = .ok place

theorem FilesIn.refl (out : Path) (d : Disk) : FilesIn out d d :=
  ⟨rfl, fun _ => rfl, .inl fun _ => rfl⟩

theorem FilesIn.of_same {d'' : Disk} (h : FilesIn out d d') (hsame : d'.Same d'') :
    FilesIn out d d'' := by
  refine ⟨hsame.current.trans h.current, fun q => ?_, ?_⟩
  · rw [← h.directories, isDirectoryAt, isDirectoryAt, hsame.find]
  · exact h.find.imp_left fun hfind q => (hsame.find q).trans (hfind q)

theorem FilesIn.directoryOf_eq (h : FilesIn out d d') :
    d'.directoryOf out = d.directoryOf out := by
  obtain hsame | ⟨q, hq⟩ := h.find
  · simp only [directoryOf, h.current, walk_congr hsame, h.directories]
  · obtain ⟨hwalk, hdir⟩ := directoryOf_eq_ok.mp hq
    rw [hq, directoryOf_eq_ok, h.current, h.directories]
    exact ⟨walk_of_directories h.directories hwalk hdir, hdir⟩

/-- Files in a directory do not change where one of them is opened. -/
theorem FilesIn.openForWriting_eq (h : FilesIn out d d') (hout : out.Sound) (hn : Path.IsName n) :
    d'.openForWriting (out.child n) = d.openForWriting (out.child n) := by
  simp only [openForWriting, locateParent_child hout hn, h.directoryOf_eq, h.directories]

variable {c : Content}

theorem isDirectoryAt_put_file (hne : place ≠ []) (hfile : d.isDirectoryAt place = false)
    (q : Place) : (d.put place (.file c)).isDirectoryAt q = d.isDirectoryAt q := by
  rw [isDirectoryAt_put hne]
  split
  · next hq =>
    rw [hq, hfile]
    rfl
  · rfl

theorem isDirectoryAt_erase_file (hne : place ≠ []) (hfile : d.isDirectoryAt place = false)
    (q : Place) : (d.erase place).isDirectoryAt q = d.isDirectoryAt q := by
  by_cases hq : q = place
  · rw [hq, hfile, isDirectoryAt, find?_erase _ hne, if_pos rfl]
    rfl
  · rw [isDirectoryAt, isDirectoryAt, find?_erase _ hne, if_neg hq]

theorem FilesIn.put (h : FilesIn out d d') (hout : out.Sound) (hn : Path.IsName n)
    (ho : d.openForWriting (out.child n) = .ok place) (c : Content) :
    FilesIn out d (d'.put place (.file c)) := by
  obtain ⟨hne, -, hfile, -⟩ := openForWriting_eq_ok ho
  refine ⟨h.current, fun q => ?_, .inr (exists_directoryOf hout hn ho)⟩
  rw [isDirectoryAt_put_file hne ((h.directories place).trans hfile), h.directories]

theorem FilesIn.erase (h : FilesIn out d d') (hout : out.Sound) (hn : Path.IsName n)
    (ho : d.openForWriting (out.child n) = .ok place) : FilesIn out d (d'.erase place) := by
  obtain ⟨hne, -, hfile, -⟩ := openForWriting_eq_ok ho
  refine ⟨h.current, fun q => ?_, .inr (exists_directoryOf hout hn ho)⟩
  rw [isDirectoryAt_erase_file hne ((h.directories place).trans hfile), h.directories]

end PageDiff.Disk
