import PageDiff.Disk.Glob
import PageDiff.Proofs.Disk.Place

/-!
# What patterns find

No name on a disk that there can be holds a null character, and then no path that a pattern finds
holds one: the names in it come from the disk or have been looked up, and a directory that is listed
without having been looked up is refused.  The paths are found in the order of their texts.
-/

namespace PageDiff

open PageDiff.Path.Pattern

namespace Disk

/-- No name on a disk holds a null character. -/
def Nameable (d : Disk) : Prop := ∀ e ∈ d.entries, ∀ n ∈ e.1, '\x00' ∉ n.toList

end Disk

/-! ### Pieces of patterns -/

namespace Path.Pattern

variable {pattern : List Char}

/-- A part of a pattern up to a slash, without magic, is in what is listed first. -/
theorem mem_firstListed {l : List Char} (hp : hasMagic pattern = true) (hl : l <+: pattern)
    (hplain : hasMagic l = false) (hslash : l.getLast? = some '/') {c : Char} (hc : c ∈ l) :
    c ∈ firstListed pattern := by
  obtain ⟨rest, rfl⟩ := hl
  have hall : ∀ a ∈ l, (!isMagic a) = true := by
    intro a ha
    have := List.any_eq_false.mp hplain a ha
    simpa using this
  have hhead : l.reverse.dropWhile (· != '/') = l.reverse := by
    obtain ⟨cs, hcs⟩ := List.head?_eq_some_iff.mp (List.head?_reverse.trans hslash)
    rw [hcs, List.dropWhile_cons_of_neg (by simp)]
  rw [firstListed, if_pos hp, List.takeWhile_append_of_pos hall, List.reverse_append,
    List.mem_reverse, List.dropWhile_append]
  split
  · rw [hhead]
    exact List.mem_reverse.mpr hc
  · exact List.mem_append_right _ (List.mem_reverse.mpr hc)

/-- A pattern and its front have the same directory listed first. -/
theorem firstListed_of_prefix {front : List Char} (h : front <+: pattern)
    (hf : hasMagic front = true) : firstListed pattern = firstListed front := by
  obtain ⟨rest, rfl⟩ := h
  have hp : hasMagic (front ++ rest) = true := by
    rw [hasMagic, List.any_append, ← hasMagic, hf, Bool.true_or]
  have htake : (front ++ rest).takeWhile (!isMagic ·) = front.takeWhile (!isMagic ·) := by
    rw [List.takeWhile_append, if_neg]
    intro hlen
    have hall := List.takeWhile_eq_self_iff.mp
      ((List.takeWhile_prefix _).eq_of_length hlen)
    obtain ⟨a, ha, hmagic⟩ := List.any_eq_true.mp hf
    have := hall a ha
    simp [hmagic] at this
  rw [firstListed, firstListed, if_pos hp, if_pos hf, htake]

/-- What stands up to the last slash of a pattern. -/
def upToSlash (pattern : List Char) : List Char :=
  (pattern.reverse.dropWhile (· != '/')).reverse

theorem upToSlash_isPrefix (pattern : List Char) : upToSlash pattern <+: pattern := by
  have h := List.reverse_prefix.mpr (List.dropWhile_suffix (l := pattern.reverse) (· != '/'))
  rwa [List.reverse_reverse] at h

theorem getLast?_upToSlash (hne : upToSlash pattern ≠ []) :
    (upToSlash pattern).getLast? = some '/' := by
  rw [upToSlash, List.getLast?_reverse]
  have hhead := List.head?_dropWhile_not (· != '/') pattern.reverse
  cases hd : (pattern.reverse.dropWhile (· != '/')).head? with
  | none =>
    rw [upToSlash, List.head?_eq_none_iff.mp hd] at hne
    exact absurd rfl hne
  | some c =>
    rw [hd] at hhead
    simpa using hhead

theorem upToSlash_append (pattern : List Char) :
    upToSlash pattern ++ (pattern.reverse.takeWhile (· != '/')).reverse = pattern := by
  rw [upToSlash, ← List.reverse_append, List.takeWhile_append_dropWhile, List.reverse_reverse]

theorem take_eq_upToSlash (pattern : List Char) :
    pattern.take (pattern.length - (pattern.reverse.takeWhile (· != '/')).reverse.length) =
      upToSlash pattern := by
  have hlen := congrArg List.length (upToSlash_append pattern)
  rw [List.length_append] at hlen
  rw [← hlen, Nat.add_sub_cancel]
  exact (List.prefix_iff_eq_take.mp (upToSlash_isPrefix pattern)).symm

/-- The front of a pattern is what stands up to the last slash, but for slashes. -/
theorem cut_front (pattern : List Char) : ∃ slashes, (∀ c ∈ slashes, c = '/') ∧
    upToSlash pattern = (cut pattern).1 ++ slashes := by
  unfold cut
  simp only [take_eq_upToSlash]
  split
  · exact ⟨[], by simp, by simp⟩
  · refine ⟨((upToSlash pattern).reverse.takeWhile (· == '/')).reverse, ?_, ?_⟩
    · intro c hc
      simpa using List.mem_takeWhile_imp (List.mem_reverse.mp hc)
    · rw [← List.reverse_append, List.takeWhile_append_dropWhile, List.reverse_reverse]

theorem eq_front_append {front : List Char} (h : cut pattern = (front, [])) :
    ∃ slashes, (∀ c ∈ slashes, c = '/') ∧ pattern = front ++ slashes := by
  obtain ⟨slashes, hslashes, hup⟩ := cut_front pattern
  have hbase : (pattern.reverse.takeWhile (· != '/')).reverse = [] := by
    have hsnd : (cut pattern).2 = [] := by rw [h]
    unfold cut at hsnd
    simp only at hsnd
    split at hsnd <;> exact hsnd
  refine ⟨slashes, hslashes, ?_⟩
  have happend := upToSlash_append pattern
  rw [hbase, List.append_nil, hup, h] at happend
  exact happend.symm

theorem cut_front_ne (hp : hasMagic pattern = true) : (cut pattern).1 ≠ pattern := by
  obtain ⟨a, ha, hmagic⟩ := List.any_eq_true.mp hp
  intro heq
  unfold cut at heq
  simp only [take_eq_upToSlash] at heq
  split at heq
  · next hall =>
    -- a pattern of slashes has no magic
    change upToSlash pattern = pattern at heq
    rw [heq] at hall
    have hslash : a = '/' := by simpa using List.all_eq_true.mp hall a ha
    rw [hslash] at hmagic
    exact absurd hmagic (by decide)
  · -- a pattern that ends in a slash is longer than its front
    change ((upToSlash pattern).reverse.dropWhile (· == '/')).reverse = pattern at heq
    have hup : upToSlash pattern = pattern := by
      refine (upToSlash_isPrefix pattern).eq_of_length_le ?_
      have hle := (List.dropWhile_suffix (l := (upToSlash pattern).reverse) (· == '/')).length_le
      rw [← List.length_reverse, heq, List.length_reverse] at hle
      exact hle
    have hlast : (upToSlash pattern).getLast? = some '/' :=
      getLast?_upToSlash (by rw [hup]; exact List.ne_nil_of_mem ha)
    have hhead := List.head?_dropWhile_not (· == '/') (upToSlash pattern).reverse
    rw [← List.getLast?_reverse, heq, ← hup, hlast] at hhead
    exact absurd hhead (by decide)

/-- A front without magic is in what is listed first. -/
theorem front_mem_firstListed (hp : hasMagic pattern = true)
    (hplain : hasMagic (cut pattern).1 = false) :
    ∀ c ∈ (cut pattern).1, c ∈ firstListed pattern := by
  obtain ⟨slashes, hslashes, hup⟩ := cut_front pattern
  intro c hc
  have hmem : c ∈ upToSlash pattern := by
    rw [hup]
    exact List.mem_append_left _ hc
  refine mem_firstListed hp (upToSlash_isPrefix pattern) ?_
    (getLast?_upToSlash (List.ne_nil_of_mem hmem)) hmem
  have hnone : slashes.any isMagic = false := by
    rw [List.any_eq_false]
    intro a ha
    rw [hslashes a ha]
    decide
  rw [hup, hasMagic, List.any_append, hnone, Bool.or_false]
  exact hplain

end Path.Pattern

/-! ### What is found -/

namespace Disk

variable {d : Disk}

theorem mem_join {directory name : String} {c : Char} (h : c ∈ (join directory name).toList) :
    c ∈ directory.toList ∨ c = '/' ∨ c ∈ name.toList := by
  unfold join at h
  split at h
  · exact .inr (.inr h)
  · split at h
    · rw [String.toList_append] at h
      rcases List.mem_append.mp h with h | h
      · exact .inl h
      · exact .inr (.inr h)
    · rw [String.toList_append, String.toList_append] at h
      simp only [List.mem_append] at h
      rcases h with (h | h) | h
      · exact .inl h
      · exact .inr (.inl (by simpa using h))
      · exact .inr (.inr h)

theorem mem_join_of_mem {directory name : String} {c : Char} (h : c ∈ name.toList) :
    c ∈ (join directory name).toList := by
  unfold join
  split
  · exact h
  · split <;> simp [h]

theorem IsPassable.join {directory name : String} (hd : IsPassable directory)
    (hn : IsPassable name) : IsPassable (join directory name) := by
  intro h
  rcases mem_join h with h | h | h
  · exact hd h
  · exact absurd h (by decide)
  · exact hn h

theorem passable_names (h : d.Nameable) {directory : String} {only : Bool} :
    ∀ n ∈ d.names directory only, IsPassable n := by
  intro n hn
  unfold names at hn
  split at hn
  · cases hn
  · split at hn
    · obtain ⟨e, he, hlast⟩ := List.mem_filterMap.mp (List.mem_filter.mp hn).1
      split at hlast
      · exact h e he n (List.mem_of_getLast? hlast)
      · cases hlast
    · cases hn

theorem passable_namesBelow (h : d.Nameable) {depth : Nat} {directory : String} {only : Bool} :
    ∀ n ∈ d.namesBelow depth directory only, IsPassable n := by
  induction depth generalizing directory with
  | zero => simp [namesBelow]
  | succ depth ih =>
    intro n hn
    obtain ⟨m, hm, hn⟩ := List.mem_flatMap.mp hn
    have hname := passable_names h m (List.mem_filter.mp hm).1
    rcases List.mem_cons.mp hn with rfl | hn
    · exact hname
    · obtain ⟨below, hbelow, rfl⟩ := List.mem_map.mp hn
      exact hname.join (ih below hbelow)

theorem passable_globName (h : d.Nameable) {directory pattern : String} {only : Bool} :
    ∀ n ∈ d.globName directory pattern only, IsPassable n := by
  intro n hn
  unfold globName at hn
  split at hn
  · split at hn
    · rcases List.mem_cons.mp hn with rfl | hn
      · simp [IsPassable]
      · exact passable_namesBelow h n hn
    · exact passable_names h n (List.mem_filter.mp hn).1
  · split at hn
    · split at hn
      · rw [List.mem_singleton.mp hn]
        simp [IsPassable]
      · cases hn
    · split at hn
      · next hpresent =>
        rw [List.mem_singleton.mp hn]
        exact fun hc => passable_of_present hpresent (mem_join_of_mem hc)
      · cases hn

theorem passable_globAll (h : d.Nameable) {pattern : List Char} {only : Bool}
    (hfirst : '\x00' ∉ firstListed pattern) : ∀ t ∈ d.globAll pattern only, IsPassable t := by
  induction hlen : pattern.length using Nat.strong_induction_on generalizing pattern only with
  | _ len ih =>
    intro t ht
    rw [globAll] at ht
    split at ht
    next front base hcut =>
    simp only at ht
    by_cases hmagic : hasMagic pattern = true
    · rw [if_neg (by simp [hmagic])] at ht
      by_cases hfront : front = []
      · rw [if_pos hfront] at ht
        exact passable_globName h t ht
      · rw [if_neg hfront] at ht
        obtain ⟨dir, hdir, ht⟩ := List.mem_flatMap.mp ht
        obtain ⟨name, hname, rfl⟩ := List.mem_map.mp ht
        refine IsPassable.join ?_ (passable_globName h name hname)
        have hfst : (cut pattern).1 = front := by rw [hcut]
        have hne : front ≠ pattern := hfst ▸ cut_front_ne hmagic
        by_cases hf : hasMagic front = true
        · rw [dif_pos ⟨hne, hf⟩] at hdir
          refine ih front.length (hlen ▸ cut_length hcut hne) ?_ rfl dir hdir
          rwa [← firstListed_of_prefix (hfst ▸ cut_front_isPrefix pattern) hf]
        · rw [dif_neg (fun hb => hf hb.2)] at hdir
          rw [List.mem_singleton.mp hdir, IsPassable, String.toList_ofList]
          have hplain : hasMagic (cut pattern).1 = false := by rw [hfst]; simpa using hf
          exact fun hc => hfirst (front_mem_firstListed hmagic hplain _ (hfst ▸ hc))
    · rw [if_pos (by simpa using hmagic)] at ht
      split at ht
      · next hbase =>
        split at ht
        · next hdir =>
          obtain ⟨slashes, hslashes, hpattern⟩ := eq_front_append (hbase ▸ hcut)
          rw [List.mem_singleton.mp ht, IsPassable, String.toList_ofList, hpattern]
          intro hc
          rcases List.mem_append.mp hc with hc | hc
          · exact passable_of_isDirectory hdir (by rwa [String.toList_ofList])
          · exact absurd (hslashes _ hc) (by decide)
        · cases ht
      · split at ht
        · next hpresent =>
          rw [List.mem_singleton.mp ht]
          exact passable_of_present hpresent
        · cases ht

theorem passable_globTexts (h : d.Nameable) {pattern : String}
    (hfirst : '\x00' ∉ firstListed pattern.toList) : ∀ t ∈ d.globTexts pattern, IsPassable t := by
  have hall : ∀ t ∈ d.globAll pattern.toList false, IsPassable t := passable_globAll h hfirst
  intro t ht
  unfold globTexts at ht
  split at ht
  · next found hfound =>
    rw [hfound] at hall
    split at ht
    · exact hall t (List.mem_cons_of_mem _ ht)
    · exact hall t ht
  · exact hall t ht

/-! ### Paths that are found -/

/-- A character of a path that has been read from a text is one of the text, or the text is read
without it. -/
theorem mem_text_ofString {t : String} {c : Char} (h : c ∈ (Path.ofString t).text.toList) :
    c ∈ t.toList ∨ c = '/' ∨ c = '.' := by
  have hnames : ∀ n ∈ (Path.ofString t).names, ∀ c ∈ n.toList, c ∈ t.toList := by
    intro n hn c hc
    obtain ⟨l, hl, rfl⟩ := List.mem_map.mp (List.mem_filter.mp hn).1
    rw [String.toList_ofList] at hc
    exact Text.mem_of_mem_splitOn l hl hc
  unfold Path.text at h
  simp only at h
  split at h
  · exact .inr (.inr (by simpa using h))
  · rw [String.toList_append] at h
    rcases List.mem_append.mp h with h | h
    · refine .inr (.inl ?_)
      generalize (Path.ofString t).anchor = anchor at h
      cases anchor <;> simp [Path.Anchor.text] at h <;> exact h
    · rw [Path.joinNames, String.toList_intercalate] at h
      rcases Text.mem_intercalate h with h | ⟨l, hl, h⟩
      · exact .inr (.inl (by simpa using h))
      · obtain ⟨n, hn, rfl⟩ := List.mem_map.mp hl
        exact .inl (hnames n hn c h)

/-- The paths that are found are read from texts in order, and their texts can be given to the
system. -/
theorem exists_texts_of_glob (h : d.Nameable) {pattern : String} {paths : List Path}
    (hg : d.glob pattern = .ok paths) : ∃ texts : List String, paths = texts.map Path.ofString ∧
      texts.Perm (d.globTexts pattern) ∧ texts.Pairwise (· ≤ ·) ∧
      ∀ p ∈ paths, IsPassable p.text := by
  unfold glob at hg
  split at hg
  · cases hg
  · next hnull =>
    obtain rfl := Except.ok.inj hg
    refine ⟨_, rfl, List.mergeSort_perm _ _, ?_, ?_⟩
    · have hsorted : ((d.globTexts pattern).mergeSort fun a b => decide (a ≤ b)).Pairwise
          fun a b => decide (a ≤ b) = true := by
        refine List.pairwise_mergeSort (fun a b c hab hbc => ?_) (fun a b => ?_) _
        · simp only [decide_eq_true_eq] at hab hbc ⊢
          exact String.le_trans hab hbc
        · simpa using String.le_total a b
      exact hsorted.imp fun hab => by simpa using hab
    · intro p hp
      obtain ⟨t, ht, rfl⟩ := List.mem_map.mp hp
      have hpassable : IsPassable t :=
        passable_globTexts h (by simpa using hnull) t ((List.mergeSort_perm _ _).mem_iff.mp ht)
      intro hc
      rcases mem_text_ofString hc with hc | hc | hc
      · exact hpassable hc
      · exact absurd hc (by decide)
      · exact absurd hc (by decide)

end Disk

end PageDiff
