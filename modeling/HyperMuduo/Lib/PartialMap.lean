import Mathlib.Logic.Function.Basic

/-!
# Maps as functions to `Option`

A map that changes at one key at a time is a function `f : α → Option β`, changed by
`Function.update`. Each lemma says what an updated map has at a key, from what the update put there
and what was there before.
-/

namespace HyperMuduo.Lib

variable {α β : Type} [DecidableEq α] {f : α → Option β} {a a' : α} {b b' : β}

/-- An entry of the map after one was put in. -/
theorem update_some_inv (h : Function.update f a (some b) a' = some b') :
    a' = a ∧ b' = b ∨ a' ≠ a ∧ f a' = some b' := by
  by_cases ha : a' = a
  · subst ha
    rw [Function.update_self] at h
    exact Or.inl ⟨rfl, (Option.some.inj h).symm⟩
  · rw [Function.update_of_ne ha] at h
    exact Or.inr ⟨ha, h⟩

/-- An entry of the map after one was taken out. -/
theorem update_none_inv (h : Function.update f a none a' = some b') : a' ≠ a ∧ f a' = some b' := by
  by_cases ha : a' = a
  · subst ha
    rw [Function.update_self] at h
    exact absurd h (by simp)
  · rw [Function.update_of_ne ha] at h
    exact ⟨ha, h⟩

/-- Taking an entry out adds none. -/
theorem update_none_of_none (a : α) (h : f a' = none) : Function.update f a none a' = none := by
  by_cases ha : a' = a
  · rw [ha, Function.update_self]
  · rw [Function.update_of_ne ha]
    exact h

end HyperMuduo.Lib
