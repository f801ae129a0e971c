import PageDiff.Proofs.Json.Readable
import PageDiff.Schema.Field

/-!
# What checks give

How a check of several fields comes apart into the checks of each (`Checked.seq_eq_ok`,
`optional_eq_ok`), and what the checks of single values give: every double that is taken from a
document is one of the format (`inFormat_of_checkDouble`), and a list of texts is taken back from
its items (`checkList_ofLoose`).
-/

namespace PageDiff.Schema

open PageDiff.Json PageDiff.Number PageDiff.Text

variable {α β : Type}

/-! ### Several checks -/

namespace Checked

theorem map_eq_ok {f : α → β} {x : Checked α} {b : β} :
    f <$> x = .ok b ↔ ∃ a, x = .ok a ∧ f a = b := by
  cases x with
  | ok a => simp
  | bad issues =>
    have hbad : f <$> (.bad issues : Checked α) = .bad issues := rfl
    simp [hbad]

theorem seq_eq_ok {f : Checked (α → β)} {x : Checked α} {b : β} :
    f <*> x = .ok b ↔ ∃ g a, f = .ok g ∧ x = .ok a ∧ g a = b := by
  cases f with
  | ok g =>
    cases x with
    | ok a => simp
    | bad issues =>
      have hbad : (.ok g : Checked (α → β)) <*> .bad issues = .bad issues := rfl
      simp [hbad]
  | bad issues =>
    have hbad : ∃ more, (.bad issues : Checked (α → β)) <*> x = .bad more := by
      cases x with
      | ok a => exact ⟨_, rfl⟩
      | bad more => exact ⟨_, rfl⟩
    obtain ⟨more, hmore⟩ := hbad
    simp [hmore]

theorem within_eq_ok {step : Step} {x : Checked α} {a : α} : within step x = .ok a ↔ x = .ok a := by
  cases x with
  | ok b => rfl
  | bad issues => simp [within]

theorem andThen_eq_ok {x : Checked α} {check : α → Checked β} {b : β} :
    x.andThen check = .ok b ↔ ∃ a, x = .ok a ∧ check a = .ok b := by
  cases x with
  | ok a => simp [andThen]
  | bad issues => simp [andThen]

/-- Items are taken together if each of them is taken. -/
theorem items_eq_ok {check : β → Checked α} (step : Nat → Step) {i : Nat} {bs : List β}
    {as : List α} : items (fun i b => (check b).within (step i)) i bs = .ok as ↔
      List.Forall₂ (fun b a => check b = .ok a) bs as := by
  induction bs generalizing i as with
  | nil =>
    rw [items, List.forall₂_nil_left_iff]
    constructor
    · intro h
      cases h
      rfl
    · rintro rfl
      rfl
  | cons b bs ih =>
    rw [items, seq_eq_ok, List.forall₂_cons_left_iff]
    constructor
    · rintro ⟨f, rest, hf, hrest, rfl⟩
      obtain ⟨a, ha, rfl⟩ := map_eq_ok.mp hf
      exact ⟨a, rest, within_eq_ok.mp ha, ih.mp hrest, rfl⟩
    · rintro ⟨a, rest, ha, hrest, rfl⟩
      exact ⟨_, rest, map_eq_ok.mpr ⟨a, within_eq_ok.mpr ha, rfl⟩, ih.mpr hrest, rfl⟩

end Checked

theorem mem_of_member? {m : Members} {key : String} {v : Value} (h : member? m key = some v) :
    (key, v) ∈ m := by
  rw [member?] at h
  obtain ⟨front, back, heq, -⟩ := List.lookup_eq_some_iff.mp h
  rw [← List.mem_reverse, heq]
  simp

/-- The value of an optional field is the default or comes of a member. -/
theorem optional_eq_ok {m : Members} {key : String} {default : α} {check : Check α} {a : α}
    (h : optional m key default check = .ok a) :
    a = default ∨ ∃ v, (key, v) ∈ m ∧ check v = .ok a := by
  unfold optional at h
  split at h
  · next v hv => exact .inr ⟨v, mem_of_member? hv, Checked.within_eq_ok.mp h⟩
  · cases h
    exact .inl rfl

theorem required_eq_ok {m : Members} {key : String} {check : Check α} {a : α} :
    required m key check = .ok a ↔ ∃ v, member? m key = some v ∧ check v = .ok a := by
  rw [required, Checked.within_eq_ok]
  cases hv : member? m key with
  | none =>
    constructor
    · intro h
      cases h
    · rintro ⟨v, hsome, -⟩
      cases hsome
  | some v =>
    constructor
    · intro h
      exact ⟨v, rfl, h⟩
    · rintro ⟨w, hsome, h⟩
      obtain rfl := Option.some.inj hsome
      exact h

theorem optional_of_member? {m : Members} {key : String} {default : α} {check : Check α} {v : Value}
    {a : α} (hv : member? m key = some v) (h : check v = .ok a) :
    optional m key default check = .ok a := by
  rw [optional, hv]
  exact Checked.within_eq_ok.mpr h

theorem required_string {m : Members} {key text : String}
    (hv : member? m key = some (.string text)) : required m key checkString = .ok text :=
  required_eq_ok.mpr ⟨_, hv, rfl⟩

theorem optional_integer {m : Members} {key : String} {default n : Int}
    (hv : member? m key = some (.int n)) : optional m key default checkInteger = .ok n :=
  optional_of_member? hv rfl

theorem optional_double {m : Members} {key : String} {default x : Double}
    (hv : member? m key = some (.double x)) : optional m key default checkDouble = .ok x :=
  optional_of_member? hv rfl

/-- A list is taken from its items, one by one. -/
theorem checkList_eq_ok {complaint : Complaint} {check : Check α} {vs : List Value} {as : List α} :
    checkList complaint check (.array vs) = .ok as ↔
      List.Forall₂ (fun v a => check v = .ok a) vs as :=
  Checked.items_eq_ok .index

/-! ### Single values -/

/-- Whether a value, if it is a double, is one of the format. -/
def IsGenuine (v : Value) : Prop := ∀ x, v = .double x → x.InFormat

theorem isGenuine_of_readable {v : Value} {room : Nat} (h : v.Readable room) : IsGenuine v := by
  rintro x rfl
  exact h

/-- An integer that a double stands for has at most nineteen digits. -/
theorem readable_of_checkWhole {x : Double} {n : ℤ} (h : checkWhole x = .ok n) :
    (Numeric.int n).Readable := by
  unfold checkWhole at h
  split at h
  · cases h
  · cases h
  · next negative m e =>
    dsimp only at h
    split at h
    · cases h
    · split at h
      · cases h
      · next hsize =>
        cases h
        have habs : (Double.truncate negative m e).natAbs =
            (Double.quotient m e).1 / (Double.quotient m e).2 := by
          cases negative with
          | true => exact Int.natAbs_neg _
          | false => rfl
        have hsmall : (Double.quotient m e).1 / (Double.quotient m e).2 < 10 ^ 19 :=
          (Nat.not_le.mp hsize).trans (by norm_num)
        rw [Numeric.Readable, habs]
        have hdigits := (Nat.length_toDigits_le_iff (by norm_num) (by norm_num)).mpr hsmall
        exact hdigits.trans (by decide)

/-- Every double that is taken is one of the format. -/
theorem inFormat_of_checkDouble {v : Value} {x : Double} (hv : IsGenuine v)
    (h : checkDouble v = .ok x) : x.InFormat := by
  have hint (n : ℤ) : (Double.ofInt n).InFormat := Double.inFormat_ofQuotient _ _ one_pos
  unfold checkDouble at h
  split at h
  · cases h
    exact hv _ rfl
  · next n =>
    split at h
    · cases h
    · cases h
      exact hint n
  · cases h
    exact hint _
  · split at h
    · cases h
    · next hread =>
      cases h
      exact inFormat_of_readDouble hread
  · cases h
  · cases h

/-- Every integer that is taken is short enough to be read back. -/
theorem readable_of_checkInteger {v : Value} {room : Nat} {n : ℤ} (hv : v.Readable room)
    (h : checkInteger v = .ok n) : (Numeric.int n).Readable := by
  unfold checkInteger at h
  split at h
  · cases h
    exact hv
  · exact readable_of_checkWhole h
  · next b =>
    cases h
    cases b with
    | true => exact (by decide : (Nat.toDigits 10 1).length ≤ digitLimit)
    | false => exact (by decide : (Nat.toDigits 10 0).length ≤ digitLimit)
  · split at h
    · cases h
    · next hread =>
      cases h
      exact readable_of_readInteger hread
  · cases h
  · cases h

theorem checkLoose_ofLoose (t : Loose) : checkLoose (.ofLoose t) = .ok t := by
  unfold Value.ofLoose
  split
  · next s h => rw [checkLoose, Loose.ofString_of_toString? h]
  · rfl

/-- A list of texts is taken back from its items. -/
theorem checkList_ofLoose (complaint : Complaint) (ts : List Loose) :
    checkList complaint checkLoose (.array (ts.map .ofLoose)) = .ok ts := by
  rw [checkList_eq_ok, List.forall₂_map_left_iff, List.forall₂_same]
  exact fun t _ => checkLoose_ofLoose t

/-- What a document gives as a text splits no pair. -/
theorem not_splitsPair_of_checkLoose {v : Value} {room : Nat} {t : Loose} (hv : v.Readable room)
    (h : checkLoose v = .ok t) : ¬ t.SplitsPair := by
  unfold checkLoose at h
  split at h
  · next s =>
    cases h
    exact Loose.not_splitsPair_ofString s
  · cases h
    exact hv.2
  · cases h

/-- What holds of everything that a check takes from values that are read back holds of all that it
takes from a list of them. -/
theorem forall_of_checkList {P : α → Prop} {check : Check α} {complaint : Complaint} {v : Value}
    {room : Nat} {as : List α}
    (hcheck : ∀ {room v a}, Value.Readable room v → check v = .ok a → P a)
    (hv : v.Readable room) (h : checkList complaint check v = .ok as) : ∀ a ∈ as, P a := by
  cases v with
  | array vs =>
    have hitems := (List.forall₂_and_left _ _).mpr
      ⟨readableItems_iff.mp hv.2, checkList_eq_ok.mp h⟩
    have htaken : List.Forall₂ (fun a v => P a ∧ check v = .ok a) as vs :=
      hitems.flip.imp fun _ _ hd => ⟨hcheck hd.1 hd.2, hd.2⟩
    exact ((List.forall₂_and_left _ _).mp htaken).1
  | _ => cases h

end PageDiff.Schema
