import Mathlib.Order.Defs.Unbundled
import PageDiff.Proofs.Disk.Way

/-!
# Disks as trees

On a disk where everything lies in a directory, a path of plain names leads to whatever is at its
place, unless one of the names is too long.  Whatever is done to a path keeps a disk that way.
-/

namespace PageDiff.Disk

variable {d : Disk} {p : Path} {place q : Place}

/-- Nothing is below a place. -/
def NoneBelow (d : Disk) (place : Place) : Prop := ∀ q, isBelow q place = true → d.find? q = none

theorem isBelow_iff {q above : Place} : isBelow q above = true ↔ q ≠ above ∧ above <+: q := by
  simp [isBelow]

/-- Everything lies in a directory. -/
def IsTree (d : Disk) : Prop :=
  ∀ place name, d.find? (place ++ [name]) ≠ none → d.isDirectoryAt place = true

theorem isTree_of_entries (h : ∀ e ∈ d.entries, d.isDirectoryAt e.1.dropLast = true) :
    d.IsTree := by
  intro place name hfind
  rw [find?, if_neg (by simp)] at hfind
  obtain ⟨e, he⟩ := Option.ne_none_iff_exists'.mp hfind
  have hmem : (place ++ [name], e) ∈ d.entries := by
    obtain ⟨before, after, hentries, -⟩ := List.lookup_eq_some_iff.mp he
    rw [hentries]
    simp
  simpa using h _ hmem

theorem IsTree.isDirectoryAt (h : d.IsTree) {more : List String} (hmore : more ≠ [])
    (hfind : d.find? (place ++ more) ≠ none) : d.isDirectoryAt place = true := by
  induction more using List.reverseRecOn with
  | nil => exact absurd rfl hmore
  | append_singleton more name ih =>
    rw [← List.append_assoc] at hfind
    have hlast := h _ _ hfind
    by_cases hnil : more = []
    · rwa [hnil, List.append_nil] at hlast
    · refine ih hnil ?_
      rw [Disk.isDirectoryAt, beq_iff_eq] at hlast
      rw [hlast]
      simp

/-- Nothing is below a place where nothing is. -/
theorem IsTree.find?_below (h : d.IsTree) (hplace : d.find? place = none) (hq : place <+: q) :
    d.find? q = none := by
  obtain ⟨more, rfl⟩ := hq
  by_contra hfind
  by_cases hmore : more = []
  · rw [hmore, List.append_nil] at hfind
    exact hfind hplace
  · have := h.isDirectoryAt hmore hfind
    rw [Disk.isDirectoryAt, hplace] at this
    cases this

/-! ### Changes of a tree -/

/-- A disk stays a tree if it is one. -/
def KeepsTree (d d' : Disk) : Prop := d.IsTree → d'.IsTree

instance : IsPreorder Disk KeepsTree where
  refl _ := id
  trans _ _ _ h h' := h' ∘ h

theorem isDirectoryAt_put (hne : place ≠ []) (e : Entry) :
    (d.put place e).isDirectoryAt q = if q = place then e == .directory else d.isDirectoryAt q := by
  rw [Disk.isDirectoryAt, find?_put _ hne]
  split
  · cases e <;> rfl
  · rfl

/-- Something may be put into a directory, though not a file in place of a directory. -/
theorem IsTree.put (h : d.IsTree) (hne : place ≠ [])
    (hparent : d.isDirectoryAt place.dropLast = true) {e : Entry}
    (he : d.isDirectoryAt place = true → e = .directory) : (d.put place e).IsTree := by
  intro q name hfind
  rw [find?_put _ hne] at hfind
  have hdir : d.isDirectoryAt q = true := by
    by_cases hq : q ++ [name] = place
    · rwa [← hq, List.dropLast_concat] at hparent
    · rw [if_neg hq] at hfind
      exact h q name hfind
  rw [isDirectoryAt_put hne]
  split
  · next hq =>
    rw [hq] at hdir
    rw [he hdir]
    rfl
  · exact hdir

/-- Something that nothing lies in may be taken away. -/
theorem IsTree.erase (h : d.IsTree) (hne : place ≠ []) (hbelow : d.NoneBelow place) :
    (d.erase place).IsTree := by
  intro q name hfind
  rw [find?_erase _ hne] at hfind
  split at hfind
  · exact absurd rfl hfind
  · have hq : q ≠ place := by
      rintro rfl
      exact hfind (hbelow _ (isBelow_iff.mpr ⟨by simp, List.prefix_append _ _⟩))
    rw [Disk.isDirectoryAt, find?_erase _ hne, if_neg hq]
    exact h q name hfind

theorem noneBelow_empty (d : Disk) (place : Place) : (d.empty place).NoneBelow place := by
  intro q hq
  rw [find?_empty, if_pos hq]

theorem IsTree.empty (h : d.IsTree) (place : Place) : (d.empty place).IsTree := by
  intro q name hfind
  rw [find?_empty] at hfind
  split at hfind
  · exact absurd rfl hfind
  · next hnot =>
    have hq : ¬ isBelow q place = true := by
      intro hb
      obtain ⟨-, more, rfl⟩ := isBelow_iff.mp hb
      refine hnot (isBelow_iff.mpr ⟨?_, ?_⟩)
      · simp
      · rw [List.append_assoc]
        exact List.prefix_append _ _
    rw [Disk.isDirectoryAt, find?_empty, if_neg hq]
    exact h q name hfind

/-! ### Following plain names -/

theorem resolve_plain {names : List String} (h : ∀ n ∈ names, IsPlain n) (place : Place) :
    resolve place names = place ++ names := by
  induction names generalizing place with
  | nil => simp [resolve]
  | cons name names ih =>
    change resolve (goTo place name) names = _
    rw [ih (fun n hn => h n (by simp [hn])), goTo_plain (h name (by simp)), List.append_assoc]
    rfl

/-- Without double dots every step of the way goes on. -/
theorem onWay_isPrefix {cur : Place} (h : p.OnWay cur q)
    (hplain : ∀ n ∈ p.names, IsPlain n) : q <+: p.place cur := by
  obtain ⟨k, rfl⟩ := h
  have hfront : ∀ n ∈ p.names.take k, IsPlain n := fun n hn => hplain n (List.mem_of_mem_take hn)
  rw [Path.place_front, Path.place_eq, resolve_plain hplain, resolve_plain hfront]
  exact (List.prefix_append_right_inj _).mpr (List.take_prefix k _)

/-- Following plain names to something that is there is refused only for a name that is too
long. -/
theorem IsTree.walk_plain (h : d.IsTree) {names : List String} (hplain : ∀ n ∈ names, IsPlain n)
    (hfind : d.find? (place ++ names) ≠ none) :
    (∃ q, d.walk place names = .ok q) ∨ d.walk place names = .error .nameTooLong := by
  induction names generalizing place with
  | nil => exact .inl ⟨place, rfl⟩
  | cons name names ih =>
    have hdir := h.isDirectoryAt (by simp) hfind
    have hname := isPlain_iff.mp (hplain name (by simp))
    rw [List.append_cons] at hfind
    have hnext : d.find? (place ++ [name]) ≠ none := by
      by_contra hnone
      exact hfind (h.find?_below hnone (List.prefix_append _ _))
    rw [walk]
    by_cases hlong : nameLimit < name.utf8ByteSize
    · have henter : d.enter place name = .error .nameTooLong := by
        simp [enter, hdir, hname, hlong]
      rw [henter]
      exact .inr rfl
    · have henter : d.enter place name = .ok (place ++ [name]) := by
        simp [enter, hdir, hname, hlong, Option.isSome_iff_ne_none, hnext]
      rw [henter]
      exact ih (fun n hn => hplain n (by simp [hn])) hfind

theorem walk_replicate_empty {n : Nat} (h : n = 0 ∨ place = []) (names : List String) :
    d.walk place (List.replicate n "" ++ names) = d.walk place names := by
  induction n with
  | zero => rfl
  | succ n ih =>
    obtain rfl : place = [] := by simpa using h
    exact ih (.inr rfl)

/-- What is at the place of a path of plain names exists, as far as that can be told. -/
theorem IsTree.exists?_ne_false (h : d.IsTree) (hp : p.Sound) (hnil : p.names ≠ [])
    (hplain : ∀ n ∈ p.names, IsPlain n) (hnull : IsPassable p.text)
    (hfind : d.find? (p.place d.current) ≠ none) : d.exists? p ≠ .ok false := by
  obtain ⟨hstart, n, hseg, hbase⟩ := Path.segments_text hp hnil d
  rw [Path.place_eq, resolve_plain hplain] at hfind
  rw [exists?, if_neg (by simpa [IsPassable] using hnull), locate]
  by_cases hlong : pathLimit < p.text.utf8ByteSize
  · simp [hlong]
  · rw [if_neg hlong, if_neg p.text_ne_empty, hstart, hseg, walk_replicate_empty hbase]
    rcases h.walk_plain hplain hfind with ⟨q, hwalk⟩ | hwalk
    · simp [hwalk]
    · simp [hwalk]

end PageDiff.Disk
