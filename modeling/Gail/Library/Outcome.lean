import Mathlib.Init

/-! Computations that may fail. -/
namespace Gail.Library
universe u v
variable {ε : Type u} {α β : Type v}

/-- A sequence that succeeds has succeeded at every step. -/
theorem ok_of_bind {step : Except ε α} {rest : α → Except ε β} {result : β}
    (h : step >>= rest = .ok result) : ∃ value, step = .ok value ∧ rest value = .ok result := by
  cases step with
  | error error => cases h
  | ok value => exact ⟨value, rfl, h⟩

theorem ok_of_ite {p : Prop} [Decidable p] {error : ε} {rest : Except ε β} {result : β}
    (h : (if p then .error error else rest) = .ok result) : ¬ p ∧ rest = .ok result := by
  by_cases hp : p
  · rw [if_pos hp] at h
    cases h
  · rw [if_neg hp] at h
    exact ⟨hp, h⟩

theorem ok_of_toOption {result : Except ε α} {value : α} (h : result.toOption = some value) :
    result = .ok value := by
  cases result with
  | error error => cases h
  | ok found => rw [Option.some.inj h]

theorem ok_of_toBool {result : Except ε α} (h : result.toBool = true) : ∃ value, result = .ok value := by
  cases result with
  | error error => cases h
  | ok value => exact ⟨value, rfl⟩

/-- What every step leads from one place of a list to the next, all of them lead from the first to behind the last. -/
theorem foldlM_zipIdx {items : List α} {step : β → α × Nat → Option β} (invariant : Nat → β → Prop)
    (hstep : ∀ item place acc, items[place]? = some item → invariant place acc →
      ∃ next, step acc (item, place) = some next ∧ invariant (place + 1) next) {start : β} (h : invariant 0 start) :
    ∃ final, items.zipIdx.foldlM step start = some final ∧ invariant items.length final := by
  have hrun : ∀ (rest done : List α) (acc : β), items = done ++ rest → invariant done.length acc →
      ∃ final, (rest.zipIdx done.length).foldlM step acc = some final ∧ invariant items.length final := by
    intro rest
    induction rest with
    | nil =>
      intro done acc hitems hacc
      rw [List.append_nil] at hitems
      exact ⟨acc, rfl, hitems ▸ hacc⟩
    | cons item rest ih =>
      intro done acc hitems hacc
      obtain ⟨next, hnext, hinvariant⟩ := hstep item done.length acc (by rw [hitems]; simp) hacc
      obtain ⟨final, hfinal, hlast⟩ := ih (done ++ [item]) next (by rw [hitems]; simp) (by simpa using hinvariant)
      refine ⟨final, ?_, hlast⟩
      rw [List.zipIdx_cons, List.foldlM_cons, hnext]
      simpa using hfinal
  exact hrun items [] start rfl h

end Gail.Library
