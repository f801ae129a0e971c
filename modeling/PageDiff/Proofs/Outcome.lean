import PageDiff.Run.World

/-!
# Computations that may fail

How a computation that may fail comes apart: as a value (`Except`) and on the world of a run
(`Run`), where a failure keeps what has been changed until then.
-/

namespace PageDiff

variable {ε ε' α β : Type}

theorem bind_eq_ok {x : Except ε α} {f : α → Except ε β} {b : β} :
    x >>= f = .ok b ↔ ∃ a, x = .ok a ∧ f a = .ok b := by
  cases x with
  | error e => simp [bind, Except.bind]
  | ok a => simp [bind, Except.bind]

theorem bind_eq_error {x : Except ε α} {f : α → Except ε β} {e : ε} :
    x >>= f = .error e ↔ x = .error e ∨ ∃ a, x = .ok a ∧ f a = .error e := by
  cases x with
  | error e' => simp [bind, Except.bind]
  | ok a => simp [bind, Except.bind]

namespace Run

variable {x : Run ε α} {f : α → Run ε β} {w v : World}

theorem bind_apply_of_ok {a : α} (h : x w = (.ok a, v)) : (x >>= f) w = f a v := by
  simp only [bind, ExceptT.bind, ExceptT.mk, StateT.bind]
  rw [h]
  rfl

theorem bind_apply_of_error {e : ε} (h : x w = (.error e, v)) : (x >>= f) w = (.error e, v) := by
  simp only [bind, ExceptT.bind, ExceptT.mk, StateT.bind]
  rw [h]
  rfl

theorem bind_apply_eq_ok {b : β} (h : (x >>= f) w = (.ok b, v)) :
    ∃ a mid, x w = (.ok a, mid) ∧ f a mid = (.ok b, v) := by
  cases hx : x w with
  | mk r mid =>
    cases r with
    | ok a => exact ⟨a, mid, rfl, by rwa [bind_apply_of_ok hx] at h⟩
    | error e =>
      rw [bind_apply_of_error hx] at h
      cases h

theorem pure_apply_eq_ok {a b : α} (h : (pure a : Run ε α) w = (.ok b, v)) : b = a ∧ v = w := by
  obtain ⟨hb, hv⟩ := Prod.mk.inj h
  exact ⟨(Except.ok.inj hb).symm, hv.symm⟩

theorem attempt_apply_eq_ok {r : Except ε α} (h : (x.attempt : Run ε' _) w = (.ok r, v)) :
    x w = (r, v) := by
  obtain ⟨hr, hv⟩ := Prod.mk.inj h
  rw [← Except.ok.inj hr, ← hv]
  rfl

theorem mapError_apply_eq_ok {g : ε → ε'} {a : α} (h : x.mapError g w = (.ok a, v)) :
    x w = (.ok a, v) := by
  unfold mapError at h
  cases hx : x w with
  | mk r mid =>
    rw [hx] at h
    cases r with
    | ok b =>
      obtain ⟨hb, rfl⟩ := Prod.mk.inj h
      rw [Except.ok.inj hb]
    | error e => cases (Prod.mk.inj h).1

end Run

end PageDiff
