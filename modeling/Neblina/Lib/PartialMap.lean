import Mathlib.Logic.Function.Basic

/-!
# `Lib.PartialMap` — the entries of a partial map after an update

A partial map is a function to `Option`, and `Function.update` enters a value under a key (`some v`) or
erases the key (`none`). The lemmas read an entry of the new map back in the old one, which is what an
invariant over all entries of a map needs.
-/

namespace PartialMap

variable {α β : Type} [DecidableEq α] {m : α → Option β} {key x : α} {v y : β}

/-- The entries after `key` was erased. -/
theorem erase_eq_some : Function.update m key none x = some y ↔ x ≠ key ∧ m x = some y := by
  by_cases h : x = key
  · rw [h, Function.update_self]
    simp
  · rw [Function.update_of_ne h]
    simp [h]

/-- The entries after `v` was entered under `key`. -/
theorem enter_eq_some :
    Function.update m key (some v) x = some y ↔ (x = key ∧ y = v) ∨ (x ≠ key ∧ m x = some y) := by
  by_cases h : x = key
  · rw [h, Function.update_self, Option.some.injEq]
    simp [eq_comm]
  · rw [Function.update_of_ne h]
    simp [h]

/-- The keys after a value was entered under `key`. -/
theorem isSome_enter :
    (Function.update m key (some v) x).isSome ↔ x = key ∨ (m x).isSome := by
  by_cases h : x = key
  · rw [h, Function.update_self]
    simp
  · rw [Function.update_of_ne h]
    simp [h]

end PartialMap
