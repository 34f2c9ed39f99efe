import AgentStack.Crash.Triple

/-! Cleaning up after a program that raises. -/
namespace AgentStack.Crash

variable {σ ε α : Type}

/-- `cleanup` runs when `p` raises, and the error of `p` goes on; an error of `cleanup` replaces
it. -/
def Program.rescue (p : Program σ ε α) (cleanup : Program σ ε Unit) : Program σ ε α := ⟨fun s =>
  match p.out s with
  | .ok _ => p.run s
  | .error e => ⟨(p.run s).trace ++ (cleanup.run (p.final s)).trace,
    match cleanup.out (p.final s) with
      | .ok () => .error e
      | .error e' => .error e'⟩⟩

namespace Program

variable {p : Program σ ε α} {cleanup : Program σ ε Unit} {s : σ}

theorem rescue_of_ok {a : α} (h : p.out s = .ok a) : (p.rescue cleanup).run s = p.run s := by
  simp only [rescue, h]

theorem rescue_of_error {e : ε} (h : p.out s = .error e)
    (hc : cleanup.out (p.final s) = .ok ()) :
    (p.rescue cleanup).out s = .error e ∧
      (p.rescue cleanup).final s = cleanup.final (p.final s) := by
  have hrun : (p.rescue cleanup).run s =
      ⟨(p.run s).trace ++ (cleanup.run (p.final s)).trace, .error e⟩ := by
    simp only [rescue, h, hc]
  constructor
  · exact congrArg Run.out hrun
  · rw [final_of_run hrun, getLastD_append]
    rfl

end Program

/-- Where the program raises, the cleanup takes over from what it left. -/
theorem Triple.rescue {P C Q E : σ → Prop} {R : α → σ → Prop} {p : Program σ ε α}
    {cleanup : Program σ ε Unit} (hp : Triple P p (Ends R E) C)
    (hc : Triple E cleanup (Returns fun _ => Q) C) :
    Triple P (p.rescue cleanup) (Ends R Q) C := by
  intro s hs
  obtain ⟨hcrash, hends⟩ := hp s hs
  cases hout : p.out s with
  | ok a =>
    rw [hout] at hends
    have hrun : (p.rescue cleanup).run s = p.run s := Program.rescue_of_ok hout
    rw [Program.out, Program.final, hrun]
    refine ⟨hcrash, ?_⟩
    change Ends R Q (p.out s) _
    rw [hout]
    exact hends
  | error e =>
    rw [hout] at hends
    obtain ⟨hclean, ⟨⟩, hdone, hq⟩ := hc _ hends
    obtain ⟨herror, hfinal⟩ := Program.rescue_of_error hout hdone
    rw [herror, hfinal]
    refine ⟨?_, hq⟩
    have hrun : (p.rescue cleanup).run s =
        ⟨(p.run s).trace ++ (cleanup.run (p.final s)).trace, .error e⟩ := by
      simp only [Program.rescue, hout, hdone]
    rw [hrun]
    intro c hm
    rcases List.mem_append.mp hm with hm | hm
    · exact hcrash c hm
    · exact hclean c hm

namespace Within

variable {rel : σ → σ → Prop} {p : Program σ ε α}

/-- What is read may be used in what follows. -/
theorem read_bind {β γ : Type} {g : σ → β} {f : β → Program σ ε γ}
    (hf : ∀ s, Within rel (f (g s))) : Within rel (Program.read g >>= f) := by
  intro s c hc
  rw [Program.bind_of_pure (Program.read_run _ _)] at hc
  exact hf s s c hc

theorem rescue [Std.Refl rel] [IsTrans σ rel] {cleanup : Program σ ε Unit} (hp : Within rel p)
    (hc : Within rel cleanup) : Within rel (p.rescue cleanup) := by
  intro s c hm
  cases hout : p.out s with
  | ok a =>
    rw [Program.rescue_of_ok hout] at hm
    exact hp s c hm
  | error e =>
    simp only [Program.rescue, hout] at hm
    rcases List.mem_append.mp hm with hm | hm
    · exact hp s c hm
    · exact trans_of rel (hp.final s) (hc _ c hm)

end Within
end AgentStack.Crash
