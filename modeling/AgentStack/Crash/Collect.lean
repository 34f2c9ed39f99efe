import AgentStack.Crash.Triple
import Mathlib.Data.List.Forall2

/-! A program run on each element of a list, for its results. -/
namespace AgentStack.Crash

variable {σ ε α β : Type}

theorem Within.mapM {rel : σ → σ → Prop} [Std.Refl rel] [IsTrans σ rel] {f : α → Program σ ε β}
    (xs : List α) (hf : ∀ x ∈ xs, Within rel (f x)) : Within rel (xs.mapM f) := by
  induction xs with
  | nil =>
    rw [List.mapM_nil]
    exact Within.pure []
  | cons x xs ih =>
    rw [List.mapM_cons]
    refine (hf x List.mem_cons_self).bind fun y => ?_
    exact (ih fun z hz => hf z (List.mem_cons_of_mem x hz)).bind fun _ => Within.pure _

/-- `I` holds of the elements done so far; each result is related to its element. -/
theorem Triple.mapM_ends {f : α → Program σ ε β} {R : α → β → Prop} {I : List α → σ → Prop}
    {E C : σ → Prop} (xs : List α)
    (hstep : ∀ done x rest, done ++ x :: rest = xs →
      Triple (I done) (f x) (Ends (fun y t => R x y ∧ I (done ++ [x]) t) E) C) :
    Triple (I []) (xs.mapM f) (Ends (fun ys t => List.Forall₂ R xs ys ∧ I xs t) E) C := by
  suffices h : ∀ rest done, done ++ rest = xs → Triple (I done) (rest.mapM f)
      (Ends (fun ys t => List.Forall₂ R rest ys ∧ I xs t) E) C from h xs [] rfl
  intro rest
  induction rest with
  | nil =>
    intro done hdone
    rw [List.append_nil] at hdone
    subst hdone
    rw [List.mapM_nil]
    exact Triple.of_forall fun s hs => Triple.returns_ends ⟨List.Forall₂.nil, hs⟩
  | cons x rest ih =>
    intro done hdone
    have hnext : done ++ [x] ++ rest = xs := by
      rw [← hdone]
      simp
    rw [List.mapM_cons]
    refine (hstep done x rest hdone).bind_ends fun y => Triple.of_forall ?_
    rintro s ⟨hxy, hs⟩
    refine ((ih (done ++ [x]) hnext).pre ?_).bind_ends fun ys => Triple.of_forall ?_
    · rintro t rfl
      exact hs
    · rintro t ⟨hall, ht⟩
      exact Triple.returns_ends ⟨List.Forall₂.cons hxy hall, ht⟩

/-- As `mapM_ends`, for a loop without results. -/
theorem Triple.each_ends {f : α → Program σ ε Unit} {I : List α → σ → Prop} {E C : σ → Prop}
    (xs : List α) (hstep : ∀ done x rest, done ++ x :: rest = xs →
      Triple (I done) (f x) (Ends (fun _ => I (done ++ [x])) E) C) :
    Triple (I []) (Program.each xs f) (Ends (fun _ => I xs) E) C := by
  suffices h : ∀ rest done, done ++ rest = xs → Triple (I done) (Program.each rest f)
      (Ends (fun _ => I xs) E) C from h xs [] rfl
  intro rest
  induction rest with
  | nil =>
    intro done hdone
    rw [List.append_nil] at hdone
    subst hdone
    exact Triple.of_forall fun s hs => Triple.returns_ends hs
  | cons x rest ih =>
    intro done hdone
    have hnext : done ++ [x] ++ rest = xs := by
      rw [← hdone]
      simp
    rw [Program.each_cons]
    exact (hstep done x rest hdone).bind_ends fun _ => ih (done ++ [x]) hnext

/-- What is known of every result is known of this one. -/
theorem Triple.ends_out {P E C : σ → Prop} {p : Program σ ε α} {R : α → σ → Prop} {K : α → Prop}
    (h : Triple P p (Ends R E) C) (hK : ∀ s a, p.out s = .ok a → K a) :
    Triple P p (Ends (fun a t => K a ∧ R a t) E) C := by
  intro s hs
  obtain ⟨hcrash, hends⟩ := h s hs
  refine ⟨hcrash, ?_⟩
  cases hout : p.out s with
  | ok a =>
    rw [hout] at hends
    exact ⟨hK s a hout, hends⟩
  | error e =>
    rw [hout] at hends
    exact hends

end AgentStack.Crash
