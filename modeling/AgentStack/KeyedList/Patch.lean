import Mathlib.Logic.Function.Basic
import Mathlib.Data.List.Basic

/-! Changes to a total function, applied one after the other. -/
namespace AgentStack.KeyedList

variable {κ α : Type} [DecidableEq κ]

def patch (f : κ → α) (changes : List (κ × α)) : κ → α :=
  changes.foldl (fun f change => Function.update f change.1 change.2) f

/-- Changes to the values of `g` give those, and leave the rest. -/
theorem patch_apply {f g : κ → α} {changes : List (κ × α)} (h : ∀ c ∈ changes, c.2 = g c.1)
    (k : κ) : patch f changes k = if k ∈ changes.map Prod.fst then g k else f k := by
  induction changes generalizing f with
  | nil => rfl
  | cons c changes ih =>
    rw [List.forall_mem_cons] at h
    have hrest := ih (f := Function.update f c.1 c.2) h.2
    rw [patch, List.foldl_cons]
    rw [patch] at hrest
    simp only [hrest, List.map_cons, List.mem_cons]
    by_cases hk : k = c.1
    · subst hk
      simp [h.1]
    · simp only [Function.update_of_ne hk, hk, false_or]

/-- Changes to the values of `g` at every key where `f` differs from it. -/
theorem patch_eq {f g : κ → α} {changes : List (κ × α)} (h : ∀ c ∈ changes, c.2 = g c.1)
    (hall : ∀ k, f k ≠ g k → k ∈ changes.map Prod.fst) : patch f changes = g := by
  funext k
  rw [patch_apply h]
  split
  next => rfl
  next hk => exact not_not.mp fun hne => hk (hall k hne)

end AgentStack.KeyedList
