import Mathlib.Order.Defs.Unbundled
import PageDiff.Proofs.Disk.Tree

/-!
# What operations on a disk leave alone

Making directories makes them on the way of a path only, and changes no place where something is.
Making a fresh directory takes away what is at the place of its path and below it, and beside that
only makes directories on its way.  In the end nothing is below its place if something was there
before, or if its path holds no double dots: with them the way may come into being only while the
directories are made.
-/

namespace PageDiff.Disk

variable {d d' d'' : Disk} {p : Path} {q : Place}

/-- A file is at a place. -/
def IsFile (d : Disk) (q : Place) : Prop := ∃ c, d.find? q = some (.file c)

/-! ### Making directories -/

/-- The disk is the same but for directories that have been made on the way of a path, where nothing
was. -/
structure MakesWay (p : Path) (d d' : Disk) : Prop where
  current : d'.current = d.current
  find : ∀ q, d'.find? q = d.find? q ∨
    (d.find? q = none ∧ d'.find? q = some .directory ∧ p.OnWay d.current q)

instance : IsPreorder Disk (MakesWay p) where
  refl _ := ⟨rfl, fun _ => .inl rfl⟩
  trans d d' d'' h h' := by
    refine ⟨h'.current.trans h.current, fun q => ?_⟩
    rcases h'.find q with he | ⟨hn, hd, hway⟩
    · rw [he]
      exact h.find q
    · rcases h.find q with he | ⟨-, hd', -⟩
      · rw [h.current] at hway
        exact .inr ⟨he ▸ hn, hd, hway⟩
      · rw [hn] at hd'
        cases hd'

theorem MakesWay.isFile_iff (h : MakesWay p d d') : d'.IsFile q ↔ d.IsFile q := by
  unfold IsFile
  rcases h.find q with he | ⟨hn, hd, -⟩
  · rw [he]
  · rw [hn, hd]
    simp

theorem MakesWay.noneBelow {place : Place} (h : MakesWay p d d') (hd : d.NoneBelow place)
    (hway : ∀ q, p.OnWay d.current q → ¬ isBelow q place = true) : d'.NoneBelow place := by
  intro q hbelow
  rcases h.find q with he | ⟨-, -, hq⟩
  · rw [he]
    exact hd q hbelow
  · exact absurd hbelow (hway q hq)

/-- A directory is made, or it is there. -/
theorem ensureDirectory_eq_ok (h : d.ensureDirectory p = .ok d') :
    d.makeDirectory p = .ok d' ∨ (d' = d ∧ d.isDirectory p.text = true) := by
  unfold ensureDirectory at h
  cases hm : d.makeDirectory p with
  | ok made =>
    rw [hm] at h
    exact .inl h
  | error e =>
    rw [hm] at h
    split at h
    · next heq => cases heq
    · cases h
    · cases h
    · split at h
      · next hdir => exact .inr ⟨(Except.ok.inj h).symm, hdir⟩
      · cases h

theorem ensureDirectory_makes (hp : p.Sound) {k : Nat}
    (h : d.ensureDirectory (p.front k) = .ok d') : MakesWay p d d' := by
  rcases ensureDirectory_eq_ok h with hm | ⟨rfl, -⟩
  · obtain ⟨rfl, hne, -, hnone⟩ := makeDirectory_eq_ok (hp.front k) hm
    refine ⟨rfl, fun q => ?_⟩
    rw [find?_put _ hne]
    by_cases hq : q = (p.front k).place d.current
    · rw [if_pos hq, hq]
      exact .inr ⟨hnone, rfl, k, rfl⟩
    · rw [if_neg hq]
      exact .inl rfl
  · exact refl d'

theorem ensureDirectory_keepsTree (hp : p.Sound) (h : d.ensureDirectory p = .ok d') :
    KeepsTree d d' := by
  intro hd
  rcases ensureDirectory_eq_ok h with hm | ⟨rfl, -⟩
  · obtain ⟨rfl, hne, hparent, -⟩ := makeDirectory_eq_ok hp hm
    exact hd.put hne hparent fun _ => rfl
  · exact hd

theorem ensureDirectory_isDirectoryAt (hp : p.Sound) (h : d.ensureDirectory p = .ok d') :
    IsPassable p.text ∧ d'.isDirectoryAt (p.place d.current) = true := by
  rcases ensureDirectory_eq_ok h with hm | ⟨rfl, hdir⟩
  · have hpassable := withPath_passable hm
    obtain ⟨rfl, hne, -, -⟩ := makeDirectory_eq_ok hp hm
    rw [isDirectoryAt_put hne, if_pos rfl]
    exact ⟨hpassable, rfl⟩
  · exact ⟨passable_of_isDirectory hdir, isDirectoryAt_of_isDirectory hp hdir⟩

theorem outcome_carries {R : Disk → Disk → Prop} [IsPreorder Disk R] {r : Except DiskError Disk}
    (h : ∀ d', r = .ok d' → R d d') : R d (d.outcome r).1 := by
  cases r with
  | error e => exact refl d
  | ok d' => exact h d' rfl

/-- Making a directory for some first names of a path takes the disk along a relation. -/
def StepsAlong (R : Disk → Disk → Prop) (p : Path) : Prop :=
  ∀ k d d', ensureDirectory d (p.front k) = .ok d' → R d d'

/-- Making the directories of a path is to make them for first names of it, one after the other. -/
theorem ensureDirectories_carries {R : Disk → Disk → Prop} [IsPreorder Disk R] (d : Disk)
    (h : StepsAlong R p) : R d (d.ensureDirectories p).1 := by
  have hparent : ∀ {p}, StepsAlong R p → StepsAlong R p.parent := by
    intro p h k d d' hd
    rw [Path.front_parent] at hd
    exact h _ d d' hd
  have hlast : ∀ {p}, StepsAlong R p → ∀ {d d'}, ensureDirectory d p = .ok d' → R d d' := by
    intro p h d d' hd
    rw [← Path.front_of_length_le (p := p) le_rfl] at hd
    exact h _ d d' hd
  fun_induction ensureDirectories d p with
  | case1 => exact refl _
  | case2 p path he hnames left e hleft ih =>
    have hmade := ih (hparent h)
    rwa [hleft] at hmade
  | case3 p path he hnames left _ hleft ih =>
    have hmade := ih (hparent h)
    rw [hleft] at hmade
    exact IsTrans.trans _ _ _ hmade (outcome_carries fun _ => hlast h)
  | case4 => exact outcome_carries fun _ => hlast h

theorem ensureDirectories_makes (d : Disk) (hp : p.Sound) :
    MakesWay p d (d.ensureDirectories p).1 :=
  ensureDirectories_carries d fun _ _ _ h => ensureDirectory_makes hp h

theorem ensureDirectories_keepsTree (d : Disk) (hp : p.Sound) :
    KeepsTree d (d.ensureDirectories p).1 :=
  ensureDirectories_carries d fun k _ _ h => ensureDirectory_keepsTree (hp.front k) h

theorem outcome_eq_ok {r : Except DiskError Disk} (h : d.outcome r = (d', .ok ())) :
    r = .ok d' := by
  cases r with
  | error e => cases h
  | ok left =>
    obtain ⟨rfl, -⟩ := Prod.mk.inj h
    rfl

/-- In the end there is a directory at the place of the path. -/
theorem ensureDirectories_isDirectoryAt (hp : p.Sound) (h : d.ensureDirectories p = (d', .ok ())) :
    IsPassable p.text ∧ d'.isDirectoryAt (p.place d.current) = true := by
  unfold ensureDirectories at h
  split at h
  · split at h
    · cases h
    · have hway := ensureDirectories_makes d hp.parent
      split at h
      · cases h
      · next left _ hleft =>
        rw [hleft] at hway
        rw [← hway.current]
        exact ensureDirectory_isDirectoryAt hp (outcome_eq_ok h)
  · exact ensureDirectory_isDirectoryAt hp (outcome_eq_ok h)

/-! ### Taking a directory away -/

/-- The disk is the same but for what has been taken away at a place and below it. -/
structure Removes (place : Place) (d d' : Disk) : Prop where
  current : d'.current = d.current
  find : ∀ q, d'.find? q = d.find? q ∨ (place <+: q ∧ d'.find? q = none)

theorem Removes.refl (place : Place) (d : Disk) : Removes place d d := ⟨rfl, fun _ => .inl rfl⟩

theorem Removes.beside {place : Place} (h : Removes place d d') (hq : ¬ place <+: q) :
    d'.find? q = d.find? q := (h.find q).resolve_right fun hr => hq hr.1

theorem empty_removes (d : Disk) (place : Place) : Removes place d (d.empty place) := by
  refine ⟨rfl, fun q => ?_⟩
  rw [find?_empty]
  by_cases hb : isBelow q place = true
  · rw [if_pos hb]
    exact .inr ⟨(isBelow_iff.mp hb).2, rfl⟩
  · rw [if_neg hb]
    exact .inl rfl

theorem erase_removes (d : Disk) {place : Place} (hne : place ≠ []) :
    Removes place d (d.erase place) := by
  refine ⟨rfl, fun q => ?_⟩
  rw [find?_erase _ hne]
  by_cases hq : q = place
  · rw [if_pos hq, hq]
    exact .inr ⟨List.prefix_rfl, rfl⟩
  · rw [if_neg hq]
    exact .inl rfl

theorem Removes.trans {place : Place} (h : Removes place d d') (h' : Removes place d' d'') :
    Removes place d d'' := by
  refine ⟨h'.current.trans h.current, fun q => ?_⟩
  rcases h'.find q with he | hr
  · rw [he]
    exact h.find q
  · exact .inr hr

/-- A directory is left alone, or emptied, or taken away once it has been emptied. -/
theorem removeDirectory_disk (d : Disk) (hp : p.Sound) :
    (d.removeDirectory p).1 = d ∨
      (d.removeDirectory p).1 = d.empty (p.place d.current) ∨
      (p.place d.current ≠ [] ∧
        (d.removeDirectory p).1 = (d.empty (p.place d.current)).erase (p.place d.current)) := by
  unfold removeDirectory
  cases hl : d.locate p.text with
  | error code => exact .inl rfl
  | ok place =>
    obtain rfl := locate_eq_ok hp hl
    simp only
    split
    · cases hr : (d.empty (p.place d.current)).removeEmptied p with
      | error e => exact .inr (.inl rfl)
      | ok left =>
        obtain ⟨rfl, hne⟩ := removeEmptied_eq_ok hp hr
        exact .inr (.inr ⟨hne, rfl⟩)
    · exact .inl rfl

theorem removeDirectory_removes (d : Disk) (hp : p.Sound) :
    Removes (p.place d.current) d (d.removeDirectory p).1 := by
  have hemptied := empty_removes d (p.place d.current)
  rcases removeDirectory_disk d hp with h | h | ⟨hne, h⟩
  · rw [h]
    exact .refl _ d
  · rwa [h]
  · rw [h]
    exact hemptied.trans (erase_removes _ hne)

theorem removeDirectory_isTree (hp : p.Sound) (hd : d.IsTree) : (d.removeDirectory p).1.IsTree := by
  rcases removeDirectory_disk d hp with h | h | ⟨hne, h⟩
  · rwa [h]
  · rw [h]
    exact hd.empty _
  · rw [h]
    exact (hd.empty _).erase hne (noneBelow_empty d _)

/-- What is done when a directory has been taken away. -/
theorem removeDirectory_eq_ok (hp : p.Sound) (h : d.removeDirectory p = (d', .ok ())) :
    (d.empty (p.place d.current)).removeEmptied p = .ok d' := by
  unfold removeDirectory at h
  cases hl : d.locate p.text with
  | error code =>
    rw [hl] at h
    cases h
  | ok place =>
    obtain rfl := locate_eq_ok hp hl
    rw [hl] at h
    simp only at h
    split at h
    · exact outcome_eq_ok h
    · cases h

/-- After a directory has been taken away, nothing is at its place or below it. -/
theorem removeDirectory_clears (hp : p.Sound) (h : d.removeDirectory p = (d', .ok ()))
    (hq : p.place d.current <+: q) : d'.find? q = none := by
  obtain ⟨rfl, hne⟩ := removeEmptied_eq_ok hp (removeDirectory_eq_ok hp h)
  rw [current_empty] at hne ⊢
  rw [find?_erase _ hne]
  by_cases heq : q = p.place d.current
  · rw [if_pos heq]
  · rw [if_neg heq, find?_empty, if_pos (isBelow_iff.mpr ⟨heq, hq⟩)]

/-- The way of a path does not go through what is below its place if the directory there has been
taken away: it has been followed once more after the directory had been emptied. -/
theorem removeDirectory_way (hp : p.Sound) (h : d.removeDirectory p = (d', .ok ()))
    (hway : p.OnWay d.current q) : ¬ isBelow q (p.place d.current) = true := by
  intro hbelow
  obtain ⟨k, rfl⟩ := hway
  rcases Nat.lt_or_ge k p.names.length with hk | hk
  · obtain ⟨⟨place, name⟩, hl, -⟩ :=
      bind_eq_ok.mp (withPath_eq_ok (removeDirectory_eq_ok hp h))
    have hdir := locateParent_isDirectoryAt hp hl hk
    rw [current_empty, isDirectoryAt, find?_empty, if_pos hbelow] at hdir
    cases hdir
  · rw [Path.front_of_length_le hk] at hbelow
    exact (isBelow_iff.mp hbelow).1 rfl

/-! ### Making a fresh directory -/

/-- Perhaps a directory is taken away, and then perhaps directories are made. -/
theorem freshDirectory_disk (d : Disk) (p : Path) :
    ∃ left, (left = d ∨ left = (d.removeDirectory p).1) ∧
      ((d.freshDirectory p).1 = left ∨ (d.freshDirectory p).1 = (left.ensureDirectories p).1) := by
  unfold freshDirectory
  cases d.exists? p with
  | error e => exact ⟨d, .inl rfl, .inl rfl⟩
  | ok there =>
    cases there with
    | false => exact ⟨d, .inl rfl, .inr rfl⟩
    | true =>
      refine ⟨_, .inr rfl, ?_⟩
      cases d.removeDirectory p with
      | mk left r =>
        cases r with
        | error e => exact .inl rfl
        | ok _ => exact .inr rfl

/-- Making a fresh directory takes away first and then makes a way. -/
theorem freshDirectory_steps (d : Disk) (hp : p.Sound) :
    ∃ left, Removes (p.place d.current) d left ∧ MakesWay p left (d.freshDirectory p).1 := by
  obtain ⟨left, hleft, hfresh⟩ := freshDirectory_disk d p
  refine ⟨left, ?_, ?_⟩
  · rcases hleft with rfl | rfl
    · exact .refl _ left
    · exact removeDirectory_removes d hp
  · rcases hfresh with h | h
    · rw [h]
      exact refl left
    · rw [h]
      exact ensureDirectories_makes left hp

theorem freshDirectory_isTree (hp : p.Sound) (hd : d.IsTree) : (d.freshDirectory p).1.IsTree := by
  obtain ⟨left, hleft, hfresh⟩ := freshDirectory_disk d p
  have htree : left.IsTree := by
    rcases hleft with rfl | rfl
    · exact hd
    · exact removeDirectory_isTree hp hd
  rcases hfresh with h | h
  · rwa [h]
  · rw [h]
    exact ensureDirectories_keepsTree left hp htree

theorem freshDirectory_current (d : Disk) (hp : p.Sound) :
    (d.freshDirectory p).1.current = d.current := by
  obtain ⟨left, hremoves, hmakes⟩ := freshDirectory_steps d hp
  exact hmakes.current.trans hremoves.current

/-- Beside the place of a fresh directory every file stays. -/
theorem freshDirectory_isFile (hp : p.Sound) (hq : ¬ p.place d.current <+: q)
    (h : d.IsFile q) : (d.freshDirectory p).1.IsFile q := by
  obtain ⟨left, hremoves, hmakes⟩ := freshDirectory_steps d hp
  rw [hmakes.isFile_iff, IsFile, hremoves.beside hq]
  exact h

/-- A fresh directory is made where something was, after it has been taken away, or where nothing
was found. -/
theorem freshDirectory_eq_ok (h : d.freshDirectory p = (d', .ok ())) :
    (d.exists? p = .ok false ∧ d.ensureDirectories p = (d', .ok ())) ∨
      (d.exists? p = .ok true ∧ ∃ left, d.removeDirectory p = (left, .ok ()) ∧
        left.ensureDirectories p = (d', .ok ())) := by
  unfold freshDirectory at h
  cases he : d.exists? p with
  | error e =>
    rw [he] at h
    cases h
  | ok there =>
    rw [he] at h
    cases there with
    | false => exact .inl ⟨rfl, h⟩
    | true =>
      simp only at h
      cases hr : d.removeDirectory p with
      | mk left r =>
        rw [hr] at h
        cases r with
        | error e => cases h
        | ok _ => exact .inr ⟨rfl, left, rfl, h⟩

theorem freshDirectory_isDirectoryAt (hp : p.Sound) (h : d.freshDirectory p = (d', .ok ())) :
    d'.isDirectoryAt (p.place d.current) = true := by
  rcases freshDirectory_eq_ok h with ⟨-, hmake⟩ | ⟨-, left, hr, hmake⟩
  · exact (ensureDirectories_isDirectoryAt hp hmake).2
  · have hremoves := removeDirectory_removes d hp
    rw [hr] at hremoves
    rw [← hremoves.current]
    exact (ensureDirectories_isDirectoryAt hp hmake).2

/-- Nothing is below a fresh directory where something was before. -/
theorem freshDirectory_noneBelow (hp : p.Sound) (hexists : d.exists? p = .ok true)
    (h : d.freshDirectory p = (d', .ok ())) : d'.NoneBelow (p.place d.current) := by
  rcases freshDirectory_eq_ok h with ⟨hnot, -⟩ | ⟨-, left, hr, hmake⟩
  · rw [hexists] at hnot
    cases hnot
  · have hremoves := removeDirectory_removes d hp
    have hmakes := ensureDirectories_makes left hp
    rw [hr] at hremoves
    rw [hmake] at hmakes
    refine hmakes.noneBelow ?_ fun q hway => ?_
    · exact fun q hbelow => removeDirectory_clears hp hr (isBelow_iff.mp hbelow).2
    · rw [show left.current = d.current from hremoves.current] at hway
      exact removeDirectory_way hp hr hway

/-- A fresh directory that was there before holds no file. -/
theorem freshDirectory_clears (hp : p.Sound) (hexists : d.exists? p = .ok true)
    (h : d.freshDirectory p = (d', .ok ())) (hq : p.place d.current <+: q) : ¬ d'.IsFile q := by
  rintro ⟨c, hfile⟩
  by_cases heq : q = p.place d.current
  · have hdir := freshDirectory_isDirectoryAt hp h
    rw [← heq, isDirectoryAt, hfile] at hdir
    cases hdir
  · rw [freshDirectory_noneBelow hp hexists h q (isBelow_iff.mpr ⟨heq, hq⟩)] at hfile
    cases hfile

/-- Nothing is below a fresh directory whose path has plain names only, on a disk on which
everything lies in a directory. -/
theorem IsTree.freshDirectory_noneBelow (hd : d.IsTree) (hp : p.Sound) (hnil : p.names ≠ [])
    (hplain : ∀ n ∈ p.names, IsPlain n) (h : d.freshDirectory p = (d', .ok ())) :
    d'.NoneBelow (p.place d.current) := by
  rcases freshDirectory_eq_ok h with ⟨hnot, hmake⟩ | ⟨hexists, -⟩
  · have hmakes := ensureDirectories_makes d hp
    rw [hmake] at hmakes
    have hnull := (ensureDirectories_isDirectoryAt hp hmake).1
    have hnone : d.find? (p.place d.current) = none := by
      by_contra hsome
      exact hd.exists?_ne_false hp hnil hplain hnull hsome hnot
    refine hmakes.noneBelow ?_ fun q hway hbelow => ?_
    · exact fun q hbelow => hd.find?_below hnone (isBelow_iff.mp hbelow).2
    · obtain ⟨hne, hprefix⟩ := isBelow_iff.mp hbelow
      exact hne ((onWay_isPrefix hway hplain).eq_of_length_le hprefix.length_le)
  · exact Disk.freshDirectory_noneBelow hp hexists h

/-! ### Keeping files -/

/-- With the current directory at `cur`, where it stays, every file at a kept place stays a file. -/
def Keeps (cur : Place) (kept : Place → Prop) (d d' : Disk) : Prop :=
  d.current = cur → d'.current = cur ∧ ∀ q, kept q → d.IsFile q → d'.IsFile q

variable {cur : Place} {kept : Place → Prop}

instance : IsPreorder Disk (Keeps cur kept) where
  refl _ := fun hc => ⟨hc, fun _ _ h => h⟩
  trans _ _ _ h h' := fun hc =>
    ⟨(h' (h hc).1).1, fun q hq hf => (h' (h hc).1).2 q hq ((h hc).2 q hq hf)⟩

theorem put_file_keeps {place : Place} (hne : place ≠ []) (c : Content) :
    Keeps cur kept d (d.put place (.file c)) := by
  intro hc
  refine ⟨hc, fun q _ hf => ?_⟩
  unfold IsFile
  rw [find?_put _ hne]
  by_cases hq : q = place
  · exact ⟨c, by rw [if_pos hq]⟩
  · rwa [if_neg hq]

theorem freshDirectory_keeps (hp : p.Sound) (hkept : ∀ q, kept q → ¬ p.place cur <+: q) :
    Keeps cur kept d (d.freshDirectory p).1 := by
  rintro rfl
  exact ⟨freshDirectory_current d hp, fun q hq hf => freshDirectory_isFile hp (hkept q hq) hf⟩

end PageDiff.Disk
