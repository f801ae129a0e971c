import PageDiff.Proofs.Disk.Siblings

/-!
# What has been written is there

A file that has been opened for writing is found where its path leads, and what was written is read
from it (`read_put`), whatever the path looks like.  The way to a file needs only the directories it
leads through, and the file changes none of them.
-/

namespace PageDiff.Disk

variable {d d' : Disk} {p : Path} {place q : Place} {names : List String} {name path : String}

/-- The last name of a way is entered from where the names in front of it lead. -/
theorem walk_concat (h : d.walk place names = .ok q) (name : String) :
    d.walk place (names ++ [name]) = d.enter q name := by
  induction names generalizing place with
  | nil =>
    cases h
    simp only [List.nil_append, walk]
    cases d.enter q name with
    | error code => rfl
    | ok next => rfl
  | cons first names ih =>
    rw [walk] at h
    rw [List.cons_append, walk]
    cases he : d.enter place first with
    | error code =>
      rw [he] at h
      cases h
    | ok next =>
      rw [he] at h
      exact ih h

/-- A path that leads to a directory but for its last name leads on where that name can be entered,
on every disk with the same directories. -/
theorem locate_of_locateParent (h : d.locateParent path = .ok (place, name))
    (hcurrent : d'.current = d.current) (hdirs : ∀ q, d'.isDirectoryAt q = d.isDirectoryAt q)
    (henter : d'.enter place name = .ok q) : d'.locate path = .ok q := by
  have hdir := locateParent_directory h
  have hstart : d'.start path = d.start path := by rw [start, start, hcurrent]
  unfold locateParent at h
  rw [locate]
  split at h
  · cases h
  · next hshort =>
    split at h
    · cases h
    · next hne =>
      rw [if_neg hshort, if_neg hne, hstart]
      set names := Path.segments path.toList with hnames
      have hsegments : names ≠ [] := by simp [hnames, Path.segments, List.splitOn_ne_nil]
      dsimp only at h
      split at h
      · cases h
      · next found hwalk =>
        split at h
        · obtain ⟨rfl, rfl⟩ := Prod.mk.inj (Except.ok.inj h)
          rw [List.getLast?_eq_some_getLast hsegments, Option.getD_some] at henter
          rw [← List.dropLast_append_getLast hsegments,
            walk_concat (walk_of_directories hdirs hwalk hdir), henter]
        · cases h

/-- The place of a file that is opened for writing: a plain name in the directory that the path
leads to but for that name. -/
theorem exists_locateParent (h : d.openForWriting p = .ok q) :
    ∃ place name, d.locateParent p.text = .ok (place, name) ∧ IsPlain name ∧
      name.utf8ByteSize ≤ nameLimit ∧ q = place ++ [name] := by
  obtain ⟨⟨place, name⟩, hl, h⟩ := bind_eq_ok.mp (withPath_eq_ok h)
  by_cases hn : name = "" ∨ name = "." ∨ name = ".."
  · simp [hn, bind, Except.bind] at h
  by_cases hlong : nameLimit < name.utf8ByteSize
  · simp [hn, hlong, bind, Except.bind, pure, Except.pure] at h
  by_cases hdir : d.isDirectoryAt (place ++ [name]) = true
  · simp [hn, hlong, hdir, bind, Except.bind, pure, Except.pure] at h
  simp only [hn, hlong, hdir, bind, Except.bind, pure, Except.pure, if_false] at h
  exact ⟨place, name, hl, hn, Nat.not_lt.mp hlong, (Except.ok.inj h).symm⟩

/-- The path of a file that has been written leads to it. -/
theorem locate_put (h : d.openForWriting p = .ok q) (c : Content) :
    (d.put q (.file c)).locate p.text = .ok q := by
  obtain ⟨hne, -, hfile, -⟩ := openForWriting_eq_ok h
  obtain ⟨place, name, hl, hplain, hshort, rfl⟩ := exists_locateParent h
  have hdirs := isDirectoryAt_put_file (c := c) hne hfile
  refine locate_of_locateParent hl rfl hdirs (enter_eq_ok_iff.mpr ⟨?_, ?_, fun _ => ⟨hshort, ?_⟩⟩)
  · rw [hdirs, locateParent_directory hl]
  · exact (goTo_plain hplain place).symm
  · rw [find?_put _ hne, if_pos rfl]
    rfl

/-- **What has been written is read.** -/
theorem read_put (h : d.openForWriting p = .ok q) (c : Content) :
    (d.put q (.file c)).exists? p = .ok true ∧ (d.put q (.file c)).read p = .ok c := by
  obtain ⟨hne, -⟩ := openForWriting_eq_ok h
  have hnull : ¬ p.text.toList.contains '\x00' = true := by
    simpa [IsPassable] using withPath_passable h
  have hlocate := locate_put h c
  have hfind : (d.put q (.file c)).find? q = some (.file c) := by
    rw [find?_put _ hne, if_pos rfl]
  constructor
  · rw [exists?, if_neg hnull, hlocate]
  · unfold read withPath
    rw [if_neg hnull, hlocate]
    simp only [bind, Except.bind, hfind, pure, Except.pure]

/-- A text that has been written to a file, after the directories above it have been made, is read
from it. -/
theorem read_writeText {made : Disk} (hmade : d.ensureDirectories p.parent = (made, .ok ()))
    (hopen : made.openForWriting p = .ok q) (text : String) :
    ∃ d', d.writeText p text = (d', .ok ()) ∧ d'.exists? p = .ok true ∧
      d'.read p = .ok (.bytes (Text.Utf8.encode text.toList)) := by
  refine ⟨made.put q (.file (.bytes (Text.Utf8.encode text.toList))), ?_, read_put hopen _⟩
  rw [writeText, hmade]
  simp only [write, hopen]
  rfl

end PageDiff.Disk
