import PageDiff.Proofs.Disk.Place

/-!
# The way to a place

A path leads to its place by way of the places of its first names, all of which but the last one are
those of directories.
-/

namespace PageDiff

open PageDiff.Disk

/-! ### Places on the way -/

namespace Path

variable {p : Path} {cur q : Place}

/-- A path up to a name. -/
def front (p : Path) (k : Nat) : Path := { p with names := p.names.take k }

/-- A place that a path comes to on its way, or its own place. -/
def OnWay (p : Path) (cur q : Place) : Prop := ∃ k, q = (p.front k).place cur

theorem place_front (p : Path) (cur : Place) (k : Nat) :
    (p.front k).place cur = resolve (p.base cur) (p.names.take k) := rfl

theorem front_of_length_le {k : Nat} (h : p.names.length ≤ k) : p.front k = p := by
  rw [front, List.take_of_length_le h]

theorem front_parent (p : Path) (k : Nat) :
    p.parent.front k = p.front (min k (p.names.length - 1)) := by
  rw [front, front, parent, List.dropLast_eq_take, List.take_take]

theorem Sound.front (h : p.Sound) (k : Nat) : (p.front k).Sound :=
  fun n hn => h n (List.mem_of_mem_take hn)

end Path

namespace Disk

variable {d : Disk} {p : Path} {place q : Place}

theorem isDirectoryAt_of_enter {name : String} (h : d.enter place name = .ok q) :
    d.isDirectoryAt place = true := by
  by_contra hd
  rw [enter, if_pos (by simpa using hd)] at h
  cases h

/-- Following names that end in a directory leads through directories only. -/
theorem walk_isDirectoryAt {names : List String} (h : d.walk place names = .ok q)
    (hq : d.isDirectoryAt q = true) (k : Nat) :
    d.isDirectoryAt (resolve place (names.take k)) = true := by
  induction names generalizing place k with
  | nil =>
    rw [List.take_nil, ← walk_eq_ok h]
    exact hq
  | cons name names ih =>
    rw [walk] at h
    cases he : d.enter place name with
    | error code =>
      rw [he] at h
      cases h
    | ok next =>
      rw [he] at h
      cases k with
      | zero => exact isDirectoryAt_of_enter he
      | succ k =>
        rw [enter_eq_ok he] at h
        exact ih h k

/-- In front of the last name of a path there are directories only. -/
theorem locateParent_isDirectoryAt (hp : p.Sound) {name : String}
    (h : d.locateParent p.text = .ok (q, name)) {k : Nat} (hk : k < p.names.length) :
    d.isDirectoryAt ((p.front k).place d.current) = true := by
  have hnil : p.names ≠ [] := List.length_pos_iff.mp (Nat.zero_lt_of_lt hk)
  obtain ⟨hstart, n, hseg, -⟩ := Path.segments_text hp hnil d
  unfold locateParent at h
  split at h
  · cases h
  · split at h
    · cases h
    · simp only at h
      split at h
      · cases h
      · next parent hwalk =>
        split at h
        · next hdir =>
          have hfirst := walk_isDirectoryAt hwalk hdir (n + k)
          have htake : (List.replicate n "" ++ p.names).dropLast.take (n + k) =
              List.replicate n "" ++ p.names.take k := by
            rw [List.dropLast_append_of_ne_nil hnil, List.take_append, List.dropLast_eq_take,
              List.take_take, List.length_replicate, Nat.add_sub_cancel_left,
              Nat.min_eq_left (by omega), List.take_of_length_le (by simp)]
          rwa [hstart, hseg, htake, resolve_append, resolve_replicate_empty] at hfirst
        · cases h

end Disk

end PageDiff
