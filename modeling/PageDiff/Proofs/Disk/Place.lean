import PageDiff.Disk.File
import PageDiff.Proofs.Outcome
import PageDiff.Proofs.Text.Pieces

/-!
# Where a path leads

A path is followed on a disk name by name, and it may lead nowhere.  If it leads somewhere, then to
a place that its text alone determines, with the current directory: `Path.place`.  Each operation
on a path looks at this place and changes nothing beside it.
-/

namespace PageDiff

open PageDiff.Text

/-! ### Following names -/

namespace Disk

def goTo (place : Place) (name : String) : Place :=
  if name = "" ∨ name = "." then place else if name = ".." then place.dropLast else place ++ [name]

/-- A name that makes a new place: not empty and no dots. -/
def IsPlain (name : String) : Prop := ¬ (name = "" ∨ name = "." ∨ name = "..")

theorem isPlain_iff {name : String} : IsPlain name ↔ name ≠ "" ∧ name ≠ "." ∧ name ≠ ".." := by
  simp [IsPlain]

theorem goTo_plain {name : String} (h : IsPlain name) (place : Place) :
    goTo place name = place ++ [name] := by
  obtain ⟨hempty, hdot, hup⟩ := isPlain_iff.mp h
  rw [goTo, if_neg (by simp [hempty, hdot]), if_neg hup]

/-- Steps from a place, one name after the other. -/
def resolve (place : Place) (names : List String) : Place := names.foldl goTo place

theorem resolve_append (place : Place) (names more : List String) :
    resolve place (names ++ more) = resolve (resolve place names) more := List.foldl_append

theorem resolve_replicate_empty (place : Place) (n : Nat) :
    resolve place (List.replicate n "") = place := by
  induction n with
  | zero => rfl
  | succ n ih => exact ih

theorem enter_eq_ok {d : Disk} {place q : Place} {name : String} (h : d.enter place name = .ok q) :
    q = goTo place name := by
  unfold enter at h
  unfold goTo
  by_cases hd : d.isDirectoryAt place = true
  · rw [if_neg (by simp [hd])] at h
    by_cases hdot : name = "" ∨ name = "."
    · rw [if_pos hdot] at h ⊢
      exact (Except.ok.inj h).symm
    · rw [if_neg hdot] at h ⊢
      by_cases hup : name = ".."
      · rw [if_pos hup] at h ⊢
        exact (Except.ok.inj h).symm
      · rw [if_neg hup] at h ⊢
        split at h
        · cases h
        · split at h
          · exact (Except.ok.inj h).symm
          · cases h
  · rw [if_pos (by simp [hd])] at h
    cases h

theorem walk_eq_ok {d : Disk} {place q : Place} {names : List String}
    (h : d.walk place names = .ok q) : q = resolve place names := by
  induction names generalizing place with
  | nil => exact (Except.ok.inj h).symm
  | cons name names ih =>
    rw [walk] at h
    cases he : d.enter place name with
    | error code =>
      rw [he] at h
      cases h
    | ok next =>
      rw [he] at h
      rw [ih h, enter_eq_ok he]
      rfl

end Disk

/-! ### The place of a path -/

namespace Path

open Disk

/-- A text that can stand between two slashes. -/
def IsName (n : String) : Prop := n ≠ "" ∧ '/' ∉ n.toList

/-- A path all of whose names can stand between slashes, as in every path that has been read. -/
def Sound (p : Path) : Prop := ∀ n ∈ p.names, IsName n

theorem sound_ofString (s : String) : (ofString s).Sound := by
  intro n hn
  simp only [ofString, segments, List.mem_filter, List.mem_map, Bool.and_eq_true,
    bne_iff_ne] at hn
  obtain ⟨⟨l, hl, rfl⟩, hne, -⟩ := hn
  refine ⟨hne, ?_⟩
  rw [String.toList_ofList]
  exact not_mem_of_mem_splitOn l hl

theorem Sound.child {p : Path} (h : p.Sound) {n : String} (hn : '/' ∉ n.toList) :
    (p.child n).Sound := by
  unfold Path.child
  by_cases hempty : n = ""
  · rwa [if_pos hempty]
  · rw [if_neg hempty]
    intro m hm
    rcases List.mem_append.mp hm with hm | hm
    · exact h m hm
    · rw [List.mem_singleton.mp hm]
      exact ⟨hempty, hn⟩

theorem Sound.parent {p : Path} (h : p.Sound) : p.parent.Sound :=
  fun n hn => h n (List.dropLast_subset _ hn)

theorem segments_slash (cs : List Char) : segments ('/' :: cs) = "" :: segments cs := by
  rw [segments, List.splitOn_cons_eq_if_modifyHead, if_pos (by simp)]
  rfl

theorem segments_joinNames {names : List String} (h : ∀ n ∈ names, IsName n) (hne : names ≠ []) :
    segments (joinNames names).toList = names := by
  have hcut : (['/'].intercalate (names.map String.toList)).splitOn '/' =
      names.map String.toList := by
    refine List.splitOn_intercalate _ ?_ (by simpa using hne)
    intro l hl
    obtain ⟨n, hn, rfl⟩ := List.mem_map.mp hl
    exact (h n hn).2
  rw [segments, joinNames, String.toList_intercalate]
  change List.map String.ofList ((['/'].intercalate (names.map String.toList)).splitOn '/') = names
  rw [hcut, List.map_map]
  simp

def place (current : Place) (p : Path) : Place :=
  resolve (match p.anchor with | .relative => current | _ => []) p.names

theorem place_child {current : Place} {p : Path} {n : String} (h : IsPlain n) :
    (p.child n).place current = p.place current ++ [n] := by
  rw [child, if_neg (isPlain_iff.mp h).1]
  change resolve _ (p.names ++ [n]) = _
  rw [resolve_append]
  exact goTo_plain h _

/-- The place where the names of a path start. -/
def base (current : Place) (p : Path) : Place :=
  match p.anchor with
  | .relative => current
  | _ => []

theorem place_eq (current : Place) (p : Path) :
    p.place current = resolve (p.base current) p.names := rfl

/-- The text of a path starts where the path does, and has its names between slashes, behind empty
ones if it starts at the root. -/
theorem segments_text {p : Path} (h : p.Sound) (hnil : p.names ≠ []) (d : Disk) :
    d.start p.text = p.base d.current ∧
      ∃ n, segments p.text.toList = List.replicate n "" ++ p.names ∧
        (n = 0 ∨ p.base d.current = []) := by
  obtain ⟨anchor, names⟩ := p
  have hseg := segments_joinNames h hnil
  have hhead : (joinNames names).toList.head? ≠ some '/' := by
    -- otherwise the first name would be empty
    intro hc
    obtain ⟨cs, hcs⟩ := List.head?_eq_some_iff.mp hc
    rw [hcs, segments_slash] at hseg
    exact (h "" (by rw [← hseg]; simp)).1 rfl
  have hempty : joinNames names ≠ "" := by
    intro he
    rw [he] at hseg
    exact (h "" (by rw [← hseg]; decide)).1 rfl
  cases anchor with
  | relative =>
    have htext : (⟨.relative, names⟩ : Path).text = joinNames names := by
      simp [text, Anchor.text, hempty]
    rw [htext, hseg, start, if_neg hhead]
    exact ⟨rfl, 0, rfl, .inl rfl⟩
  | root =>
    have htext : (⟨.root, names⟩ : Path).text.toList = '/' :: (joinNames names).toList := by
      simp [text, Anchor.text, hempty]
    rw [start, htext, segments_slash, hseg, if_pos List.head?_cons]
    exact ⟨rfl, 1, rfl, .inr rfl⟩
  | doubleRoot =>
    have htext : (⟨.doubleRoot, names⟩ : Path).text.toList =
        '/' :: '/' :: (joinNames names).toList := by
      simp [text, Anchor.text, hempty]
    rw [start, htext, segments_slash, segments_slash, hseg, if_pos List.head?_cons]
    exact ⟨rfl, 2, rfl, .inr rfl⟩

/-- A path without single dots has the same names when its text is read again. -/
theorem names_ofString_text {p : Path} (h : p.Sound) (hdot : "." ∉ p.names) :
    (ofString p.text).names = p.names := by
  by_cases hnil : p.names = []
  · obtain ⟨anchor, names⟩ := p
    obtain rfl : names = [] := hnil
    cases anchor with
    | relative => rfl
    | root => rfl
    | doubleRoot => rfl
  · obtain ⟨-, n, hseg, -⟩ := segments_text h hnil {}
    have hkept : ∀ m ∈ p.names, (m != "" && m != ".") = true := by
      intro m hm
      have hne : m ≠ "." := fun he => hdot (he ▸ hm)
      simp [(h m hm).1, hne]
    change (segments p.text.toList).filter (fun m => m != "" && m != ".") = p.names
    rw [hseg, List.filter_append, List.filter_eq_self.mpr hkept]
    simp

theorem dot_not_mem_names_ofString (s : String) : "." ∉ (ofString s).names := by
  simp [ofString]

theorem text_ne_empty (p : Path) : p.text ≠ "" := by
  unfold text
  simp only
  split
  · decide
  · assumption

/-- The text of a path leads, if anywhere, to the place of the path. -/
theorem resolve_text (d : Disk) {p : Path} (h : p.Sound) :
    resolve (d.start p.text) (segments p.text.toList) = p.place d.current := by
  by_cases hnil : p.names = []
  · obtain ⟨anchor, names⟩ := p
    obtain rfl : names = [] := hnil
    cases anchor with
    | relative => rfl
    | root => rfl
    | doubleRoot => rfl
  · obtain ⟨hstart, n, hseg, -⟩ := segments_text h hnil d
    rw [hstart, hseg, resolve_append, resolve_replicate_empty, place_eq]

end Path

/-! ### Operations on a path -/

namespace Disk

variable {d : Disk} {p : Path}

theorem locate_eq_ok (hp : p.Sound) {q : Place} (h : d.locate p.text = .ok q) :
    q = p.place d.current := by
  unfold locate at h
  split at h
  · cases h
  · split at h
    · cases h
    · rw [walk_eq_ok h, Path.resolve_text d hp]

theorem locateParent_eq_ok (hp : p.Sound) {q : Place} {name : String}
    (h : d.locateParent p.text = .ok (q, name)) (hn : IsPlain name) :
    q ++ [name] = p.place d.current := by
  unfold locateParent at h
  split at h
  · cases h
  · split at h
    · cases h
    · simp only at h
      split at h
      · cases h
      · next place hwalk =>
        split at h
        · obtain ⟨rfl, rfl⟩ := Prod.mk.inj (Except.ok.inj h)
          set names := Path.segments p.text.toList with hnames
          rw [← Path.resolve_text d hp, ← hnames]
          cases hl : names.getLast? with
          | none =>
            rw [hl] at hn
            exact absurd (.inl rfl) hn
          | some name =>
            rw [hl] at hn
            rw [← List.dropLast_append_getLast? name hl, resolve_append, ← walk_eq_ok hwalk]
            rw [Option.getD_some] at hn ⊢
            exact (goTo_plain hn place).symm
        · cases h

theorem withPath_eq_ok {α : Type} {path : String} {op : Except OsCode α} {a : α}
    (h : withPath path op = .ok a) : op = .ok a := by
  unfold withPath at h
  split at h
  · cases h
  · cases op with
    | error code => cases h
    | ok b => exact congrArg Except.ok (Except.ok.inj h)

/-- A text that can be given to the system. -/
def IsPassable (text : String) : Prop := '\x00' ∉ text.toList

theorem withPath_passable {α : Type} {path : String} {op : Except OsCode α} {a : α}
    (h : withPath path op = .ok a) : IsPassable path := by
  unfold withPath at h
  split at h
  · cases h
  · next hnull => simpa [IsPassable] using hnull

theorem passable_of_present {path : String} (h : d.present path = true) : IsPassable path := by
  have := (Bool.and_eq_true_iff.mp h).1
  simpa [IsPassable] using this

theorem passable_of_isDirectory {path : String} (h : d.isDirectory path = true) :
    IsPassable path := by
  have := (Bool.and_eq_true_iff.mp h).1
  simpa [IsPassable] using this

theorem isDirectoryAt_of_isDirectory (hp : p.Sound) (h : d.isDirectory p.text = true) :
    d.isDirectoryAt (p.place d.current) = true := by
  obtain ⟨-, hdir⟩ := Bool.and_eq_true_iff.mp h
  cases hl : d.locate p.text with
  | error code =>
    rw [hl] at hdir
    cases hdir
  | ok place =>
    rw [hl] at hdir
    rwa [← locate_eq_ok hp hl]

/-- The directory that a path leads to but for its last name is one. -/
theorem locateParent_directory {path name : String} {q : Place}
    (h : d.locateParent path = .ok (q, name)) : d.isDirectoryAt q = true := by
  unfold locateParent at h
  split at h
  · cases h
  · split at h
    · cases h
    · simp only at h
      split at h
      · cases h
      · split at h
        · next hdir =>
          rw [← (Prod.mk.inj (Except.ok.inj h)).1]
          exact hdir
        · cases h

/-- A file is opened at the place of its path, in a directory and where no directory is. -/
theorem openForWriting_eq_ok {q : Place} (h : d.openForWriting p = .ok q) :
    q ≠ [] ∧ d.isDirectoryAt q.dropLast = true ∧ d.isDirectoryAt q = false ∧
      (p.Sound → q = p.place d.current) := by
  obtain ⟨⟨place, name⟩, hl, h⟩ := bind_eq_ok.mp (withPath_eq_ok h)
  by_cases hn : name = "" ∨ name = "." ∨ name = ".."
  · simp [hn, bind, Except.bind] at h
  by_cases hlong : nameLimit < name.utf8ByteSize
  · simp [hn, hlong, bind, Except.bind, pure, Except.pure] at h
  by_cases hdir : d.isDirectoryAt (place ++ [name]) = true
  · simp [hn, hlong, hdir, bind, Except.bind, pure, Except.pure] at h
  simp only [hn, hlong, hdir, bind, Except.bind, pure, Except.pure, if_false] at h
  rw [← Except.ok.inj h]
  refine ⟨by simp, ?_, by simpa using hdir, fun hp => locateParent_eq_ok hp hl hn⟩
  rw [List.dropLast_concat]
  exact locateParent_directory hl

/-- A directory is made at the place of its path, in a directory and where nothing was. -/
theorem makeDirectory_eq_ok (hp : p.Sound) {d' : Disk} (h : d.makeDirectory p = .ok d') :
    d' = d.put (p.place d.current) .directory ∧ p.place d.current ≠ [] ∧
      d.isDirectoryAt (p.place d.current).dropLast = true ∧
      d.find? (p.place d.current) = none := by
  obtain ⟨⟨place, name⟩, hl, h⟩ := bind_eq_ok.mp (withPath_eq_ok h)
  by_cases hn : name = "" ∨ name = "." ∨ name = ".."
  · simp [hn, bind, Except.bind] at h
  by_cases hlong : nameLimit < name.utf8ByteSize
  · simp [hn, hlong, bind, Except.bind, pure, Except.pure] at h
  by_cases hsome : (d.find? (place ++ [name])).isSome = true
  · simp [hn, hlong, hsome, bind, Except.bind, pure, Except.pure] at h
  simp only [hn, hlong, hsome, bind, Except.bind, pure, Except.pure, if_false] at h
  rw [← locateParent_eq_ok hp hl hn, ← Except.ok.inj h]
  refine ⟨rfl, by simp, ?_, by simpa using hsome⟩
  rw [List.dropLast_concat]
  exact locateParent_directory hl

/-- An emptied directory is taken away from the place of its path. -/
theorem removeEmptied_eq_ok (hp : p.Sound) {d' : Disk} (h : d.removeEmptied p = .ok d') :
    d' = d.erase (p.place d.current) ∧ p.place d.current ≠ [] := by
  obtain ⟨⟨place, name⟩, hl, h⟩ := bind_eq_ok.mp (withPath_eq_ok h)
  by_cases hdot : name = "" ∨ name = "."
  · simp [hdot, bind, Except.bind] at h
  by_cases hup : name = ".."
  · simp [hup, bind, Except.bind, pure, Except.pure] at h
  simp only [hdot, hup, bind, Except.bind, pure, Except.pure, if_false] at h
  have hn : IsPlain name := by
    rw [not_or] at hdot
    exact isPlain_iff.mpr ⟨hdot.1, hdot.2, hup⟩
  rw [← locateParent_eq_ok hp hl hn, ← Except.ok.inj h]
  exact ⟨rfl, by simp⟩

end Disk

end PageDiff
