import PageDiff.Proofs.Schema.Fields
import PageDiff.Schema.Case

/-!
# Test cases are taken back from their records

A test case is recorded as an object.  What a recorded action does, and what a recorded capture
shows, is a matter of two members, the kind and the selector (`checkAction_eq_ok`,
`checkCapture_eq_ok`), so that a click is never taken for a wait though both have one selector.
Main statement (`testCase_taken_back`): the record of a test case, and every other object with the
same members, is taken back as that test case, with all its actions in their places.
-/

namespace PageDiff.Schema

open PageDiff.Json PageDiff.Script

variable {α : Type} {m : Members} {v : Value} {a : Action} {c : Capture} {tc : TestCase}

/-! ### Tagged objects -/

theorem mem_of_lookup {kinds : List (String × α)} {kind : String} {x : α}
    (h : kinds.lookup kind = some x) : (kind, x) ∈ kinds := by
  obtain ⟨before, after, rfl, -⟩ := List.lookup_eq_some_iff.mp h
  simp

/-- A tagged value is an object, and it is checked in the way that its kind asks for. -/
theorem checkTagged_eq_ok {kinds : List (String × (Members → Checked α))} {x : α} :
    checkTagged kinds v = .ok x ↔ ∃ m kind check, v = .object m ∧
      member? m "kind" = some (.string kind) ∧ kinds.lookup kind = some check ∧ check m = .ok x := by
  constructor
  · intro h
    unfold checkTagged at h
    split at h
    · next m =>
      split at h
      · cases h
      · next tag htag =>
        dsimp only at h
        split at h
        · next kind =>
          split at h
          · next check hcheck =>
            exact ⟨m, kind, check, rfl, htag, hcheck, Checked.within_eq_ok.mp h⟩
          · cases h
        · cases h
    · cases h
  · rintro ⟨m, kind, check, rfl, htag, hcheck, hx⟩
    simp only [checkTagged, htag, hcheck]
    exact Checked.within_eq_ok.mpr hx

/-- A selector is a text. -/
theorem selector_eq_ok {f : String → α} {x : α} :
    (required m "selector" checkString).map f = .ok x ↔
      ∃ selector, member? m "selector" = some (.string selector) ∧ f selector = x := by
  show f <$> required m "selector" checkString = .ok x ↔ _
  rw [Checked.map_eq_ok]
  constructor
  · rintro ⟨selector, h, hx⟩
    obtain ⟨v, hv, hs⟩ := required_eq_ok.mp h
    refine ⟨selector, ?_, hx⟩
    unfold checkString at hs
    split at hs
    · cases hs
      exact hv
    · cases hs
    · cases hs
  · rintro ⟨selector, hv, hx⟩
    exact ⟨selector, required_eq_ok.mpr ⟨_, hv, rfl⟩, hx⟩

/-! ### Actions and captures -/

/-- An object that names the kind of an action and its selector. -/
def IsActionRecord (v : Value) (a : Action) : Prop :=
  ∃ m, v = .object m ∧ member? m "kind" = some (.string a.kind) ∧
    member? m "selector" = some (.string a.selector)

/-- An object that names the kind of a capture, and its selector if it has one. -/
def IsCaptureRecord (v : Value) (c : Capture) : Prop :=
  ∃ m, v = .object m ∧ member? m "kind" = some (.string c.kind) ∧
    ∀ selector, c.selector? = some selector → member? m "selector" = some (.string selector)

/-- An action is taken from the objects that name it, and from nothing else. -/
theorem checkAction_eq_ok : checkAction v = .ok a ↔ IsActionRecord v a := by
  rw [checkAction, checkTagged_eq_ok]
  constructor
  · rintro ⟨m, kind, check, rfl, hkind, hcheck, ha⟩
    refine ⟨m, rfl, ?_⟩
    have hmem := mem_of_lookup hcheck
    simp only [List.mem_cons, Prod.mk.injEq, List.not_mem_nil, or_false] at hmem
    rcases hmem with ⟨rfl, rfl⟩ | ⟨rfl, rfl⟩
    · obtain ⟨selector, hselector, rfl⟩ := selector_eq_ok.mp ha
      exact ⟨hkind, hselector⟩
    · obtain ⟨selector, hselector, rfl⟩ := selector_eq_ok.mp ha
      exact ⟨hkind, hselector⟩
  · rintro ⟨m, rfl, hkind, hselector⟩
    cases a with
    | click selector =>
      exact ⟨m, _, _, rfl, hkind, rfl, selector_eq_ok.mpr ⟨selector, hselector, rfl⟩⟩
    | wait selector =>
      exact ⟨m, _, _, rfl, hkind, rfl, selector_eq_ok.mpr ⟨selector, hselector, rfl⟩⟩

/-- A capture is taken from the objects that name it, and from nothing else. -/
theorem checkCapture_eq_ok : checkCapture v = .ok c ↔ IsCaptureRecord v c := by
  rw [checkCapture, checkTagged_eq_ok]
  constructor
  · rintro ⟨m, kind, check, rfl, hkind, hcheck, hc⟩
    refine ⟨m, rfl, ?_⟩
    have hmem := mem_of_lookup hcheck
    simp only [List.mem_cons, Prod.mk.injEq, List.not_mem_nil, or_false] at hmem
    rcases hmem with ⟨rfl, rfl⟩ | ⟨rfl, rfl⟩ | ⟨rfl, rfl⟩
    · cases hc
      exact ⟨hkind, nofun⟩
    · cases hc
      exact ⟨hkind, nofun⟩
    · obtain ⟨selector, hselector, rfl⟩ := selector_eq_ok.mp hc
      refine ⟨hkind, ?_⟩
      intro named hnamed
      obtain rfl := Option.some.inj hnamed
      exact hselector
  · rintro ⟨m, rfl, hkind, hselector⟩
    cases c with
    | viewport => exact ⟨m, _, _, rfl, hkind, rfl, rfl⟩
    | fullPage => exact ⟨m, _, _, rfl, hkind, rfl, rfl⟩
    | element selector =>
      exact ⟨m, _, _, rfl, hkind, rfl, selector_eq_ok.mpr ⟨selector, hselector selector rfl, rfl⟩⟩

theorem isActionRecord_ofAction (a : Action) : IsActionRecord (ofAction a) a := ⟨_, rfl, rfl, rfl⟩

theorem isCaptureRecord_ofCapture (c : Capture) : IsCaptureRecord (ofCapture c) c := by
  refine ⟨_, rfl, ?_, ?_⟩
  · cases c <;> rfl
  · intro selector hselector
    rw [hselector]
    rfl

/-! ### Test cases -/

/-- Members that name the fields of a test case, the actions in their order. -/
structure IsCaseRecord (m : Members) (tc : TestCase) : Prop where
  name : member? m "name" = some (.string tc.name)
  pathname : member? m "pathname" = some (.string tc.pathname)
  originA : member? m "origin_a" = some (.string tc.originA)
  originB : member? m "origin_b" = some (.string tc.originB)
  actions : ∃ vs, member? m "actions" = some (.array vs) ∧ List.Forall₂ IsActionRecord vs tc.actions
  width : member? m "viewport_width" = some (.int tc.width)
  height : member? m "viewport_height" = some (.int tc.height)
  capture : ∃ v, member? m "capture" = some v ∧ IsCaptureRecord v tc.capture

theorem isCaseRecord_ofTestCase (tc : TestCase) : IsCaseRecord (ofTestCase tc) tc where
  name := rfl
  pathname := rfl
  originA := rfl
  originB := rfl
  actions := by
    refine ⟨_, rfl, ?_⟩
    rw [List.forall₂_map_left_iff, List.forall₂_same]
    exact fun a _ => isActionRecord_ofAction a
  width := rfl
  height := rfl
  capture := ⟨_, rfl, isCaptureRecord_ofCapture tc.capture⟩

/-- Members that name a test case are taken as that test case, whatever else there is. -/
theorem checkTestCase_of_record (h : IsCaseRecord m tc) : checkTestCase m = .ok tc := by
  obtain ⟨vs, hvs, hactions⟩ := h.actions
  have hlist : checkList .notTuple checkAction (.array vs) = .ok tc.actions :=
    checkList_eq_ok.mpr (hactions.imp fun _ _ ha => checkAction_eq_ok.mpr ha)
  obtain ⟨shown, hshown, hcapture⟩ := h.capture
  rw [checkTestCase, required_string h.name, required_string h.pathname, required_string h.originA,
    required_string h.originB, optional_of_member? hvs hlist, optional_integer h.width,
    optional_integer h.height, optional_of_member? hshown (checkCapture_eq_ok.mpr hcapture)]
  rfl

/-- **A test case is taken back from its record**, compiled or not: the record names its fields, its
actions one by one in their order, and is taken back as the same test case.  That is a matter of
these members alone: every object that has them is taken as this test case, and as no other. -/
theorem testCase_taken_back (tc : TestCase) :
    IsCaseRecord (ofTestCase tc) tc ∧ checkTestCase (ofTestCase tc) = .ok tc ∧
      ∀ m, IsCaseRecord m tc → ∀ other, checkTestCase m = .ok other ↔ other = tc := by
  refine ⟨isCaseRecord_ofTestCase tc, checkTestCase_of_record (isCaseRecord_ofTestCase tc), ?_⟩
  intro m hm other
  rw [checkTestCase_of_record hm]
  constructor
  · intro h
    cases h
    rfl
  · rintro rfl
    rfl

end PageDiff.Schema
