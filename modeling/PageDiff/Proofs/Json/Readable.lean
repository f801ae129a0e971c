import PageDiff.Proofs.Json.RoundTrip

/-!
# What is read can be written

Every value that is read from a document can be written and is read back (`readable_of_parse`,
`parse_render_of_parse`).  The readers call each other, so the induction is over their fuel; what a
single call gives is said once for each of them (`readValue_cases`, `readItems_cases`,
`readMembers_cases`).
-/

namespace PageDiff.Json

open PageDiff.Number PageDiff.Text

variable {cs left : List Char} {fuel room : Nat} {v : Value} {vs : List Value}
  {members : List (String × Value)}

/-! ### Single calls -/

/-- A value is a text, an array or an object with what is read behind the bracket or the brace, or a
value without parts. -/
theorem readValue_cases (h : readValue (fuel + 1) room cs = .ok (v, left)) :
    (∃ units, v = .ofUnits units) ∨
    (∃ r vs, room = r + 1 ∧ v = .array vs ∧
      (vs = [] ∨ ∃ cs left, readItems fuel r cs = .ok (vs, left))) ∨
    (∃ r members, room = r + 1 ∧ v = .object members ∧
      (members = [] ∨ ∃ cs left, readMembers fuel r cs = .ok (members, left))) ∨
    readScalar cs = .ok (v, left) := by
  unfold readValue at h
  split at h
  · split at h
    · cases h
    · cases h
      exact .inl ⟨_, rfl⟩
  · split at h
    · cases h
    · next r =>
      split at h
      · cases h
        exact .inr (.inl ⟨r, [], rfl, rfl, .inl rfl⟩)
      · split at h
        · cases h
        · next vs _ hitems =>
          cases h
          exact .inr (.inl ⟨r, vs, rfl, rfl, .inr ⟨_, _, hitems⟩⟩)
  · split at h
    · cases h
    · next r =>
      split at h
      · cases h
        exact .inr (.inr (.inl ⟨r, [], rfl, rfl, .inl rfl⟩))
      · split at h
        · cases h
        · next members _ hmembers =>
          cases h
          exact .inr (.inr (.inl ⟨r, members, rfl, rfl, .inr ⟨_, _, hmembers⟩⟩))
  · exact .inr (.inr (.inr h))

/-- The items of an array are a value and what is read behind a comma. -/
theorem readItems_cases (h : readItems (fuel + 1) room cs = .ok (vs, left)) :
    ∃ v more, vs = v :: more ∧ (∃ left, readValue fuel room cs = .ok (v, left)) ∧
      (more = [] ∨ ∃ cs left, readItems fuel room cs = .ok (more, left)) := by
  unfold readItems at h
  split at h
  · cases h
  · next hv =>
    split at h
    · cases h
      exact ⟨_, _, rfl, ⟨_, hv⟩, .inl rfl⟩
    · split at h
      · cases h
      · next hmore =>
        cases h
        exact ⟨_, _, rfl, ⟨_, hv⟩, .inr ⟨_, _, hmore⟩⟩
    · cases h

/-- The members of an object are a key, its value and what is read behind a comma. -/
theorem readMembers_cases (h : readMembers (fuel + 1) room cs = .ok (members, left)) :
    ∃ key v more, members = (key, v) :: more ∧
      (∃ cs left, readValue fuel room cs = .ok (v, left)) ∧
      (more = [] ∨ ∃ cs left, readMembers fuel room cs = .ok (more, left)) := by
  unfold readMembers at h
  split at h
  · split at h
    · cases h
    · split at h
      · split at h
        · cases h
        · next hv =>
          dsimp only at h
          split at h
          · cases h
            exact ⟨_, _, _, rfl, ⟨_, _, hv⟩, .inl rfl⟩
          · split at h
            · cases h
            · next hmore =>
              cases h
              exact ⟨_, _, _, rfl, ⟨_, _, hv⟩, .inr ⟨_, _, hmore⟩⟩
          · cases h
      · cases h
  · cases h

/-! ### All calls -/

/-- A text that splits no pair is read back. -/
theorem readable_ofLoose {t : Loose} (h : ¬ t.SplitsPair) (room : Nat) :
    (Value.ofLoose t).Readable room := by
  unfold Value.ofLoose
  split
  · trivial
  · next htorn => exact ⟨htorn, h⟩

theorem readable_ofUnits (room : Nat) (units : List UInt16) :
    (Value.ofUnits units).Readable room :=
  readable_ofLoose (Loose.joined_eq_self_iff.mp (Loose.joined_ofUnits units)) room

theorem readable_of_readConstant {r : Value × List Char} (h : readConstant cs = some r) :
    r.1.Readable room := by
  obtain ⟨⟨spelling, v⟩, hmem, hv⟩ := List.exists_of_findSome?_eq_some h
  obtain ⟨rest, -, rfl⟩ := Option.map_eq_some_iff.mp hv
  have hall : ∀ c ∈ constants, c.2.Readable room := by
    simp [constants, Value.Readable, Value.double, Numeric.Readable, Double.InFormat]
  exact hall _ hmem

theorem readable_of_readScalar (h : readScalar cs = .ok (v, left)) : v.Readable room := by
  unfold readScalar at h
  split at h
  · next r hr =>
    cases h
    exact readable_of_readConstant hr
  · split at h
    · next hn =>
      cases h
      exact readable_of_scanNumber hn
    · cases h
    · cases h

/-- What any of the readers reads can be written. -/
theorem readable_of_read (fuel : Nat) :
    (∀ room cs v left, readValue fuel room cs = .ok (v, left) → v.Readable room) ∧
    (∀ room cs vs left, readItems fuel room cs = .ok (vs, left) → ReadableItems room vs) ∧
    (∀ room cs members left, readMembers fuel room cs = .ok (members, left) →
      ReadableMembers room members) := by
  induction fuel with
  | zero => exact ⟨nofun, nofun, nofun⟩
  | succ fuel ih =>
    obtain ⟨ihValue, ihItems, ihMembers⟩ := ih
    refine ⟨fun room cs v left h => ?_, fun room cs vs left h => ?_,
      fun room cs members left h => ?_⟩
    · obtain ⟨units, rfl⟩ | ⟨r, vs, rfl, rfl, hvs⟩ | ⟨r, members, rfl, rfl, hmembers⟩ | hscalar :=
        readValue_cases h
      · exact readable_ofUnits room units
      · refine ⟨Nat.succ_pos r, ?_⟩
        obtain rfl | ⟨_, _, hitems⟩ := hvs
        · trivial
        · exact ihItems _ _ _ _ hitems
      · refine ⟨Nat.succ_pos r, ?_⟩
        obtain rfl | ⟨_, _, hread⟩ := hmembers
        · trivial
        · exact ihMembers _ _ _ _ hread
      · exact readable_of_readScalar hscalar
    · obtain ⟨v, more, rfl, ⟨_, hv⟩, hmore⟩ := readItems_cases h
      refine ⟨ihValue _ _ _ _ hv, ?_⟩
      obtain rfl | ⟨_, _, hitems⟩ := hmore
      · trivial
      · exact ihItems _ _ _ _ hitems
    · obtain ⟨key, v, more, rfl, ⟨_, _, hv⟩, hmore⟩ := readMembers_cases h
      refine ⟨ihValue _ _ _ _ hv, ?_⟩
      obtain rfl | ⟨_, _, hread⟩ := hmore
      · trivial
      · exact ihMembers _ _ _ _ hread

/-- **What is read from a document can be written.** -/
theorem readable_of_parse {text : List Char} (h : parse text = .ok v) :
    v.Readable depthLimit := by
  unfold parse at h
  dsimp only at h
  split at h
  · cases h
  · split at h
    · cases h
    · cases h
    · cases h
    · next hread =>
      split at h
      · cases h
        exact (readable_of_read _).1 _ _ _ _ hread
      · cases h

/-- A document that is written anew has the same value. -/
theorem parse_render_of_parse {text : List Char} (h : parse text = .ok v) :
    parse (render v).toList = .ok v :=
  parse_render (readable_of_parse h)

theorem readableMembers_iff : ReadableMembers room members ↔
    ∀ m ∈ members, m.2.Readable room := by
  induction members with
  | nil => simp [ReadableMembers]
  | cons m members ih => simp [ReadableMembers, ih]

theorem readableItems_iff : ReadableItems room vs ↔ ∀ v ∈ vs, v.Readable room := by
  induction vs with
  | nil => simp [ReadableItems]
  | cons v vs ih => simp [ReadableItems, ih]

end PageDiff.Json
