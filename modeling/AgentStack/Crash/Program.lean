import Mathlib.Data.List.Basic

/-! Programs over a store that outlives the process. Every effect on the store is a point
at which the process can stop; the store then stays as the last effect left it. -/
namespace AgentStack.Crash

variable {σ ε α β γ : Type}

/-- The stores an execution passes through, one after each of its effects, and how the
execution ends. -/
structure Run (σ ε α : Type) where
  trace : List σ
  out : Except ε α

structure Program (σ ε α : Type) where
  run : σ → Run σ ε α

namespace Program

def out (p : Program σ ε α) (s : σ) : Except ε α := (p.run s).out

/-- The store an execution ends in: the last one it passed through, or the one it began
with when it had no effect. -/
def final (p : Program σ ε α) (s : σ) : σ := (p.run s).trace.getLastD s

/-- Every store a crash can leave, the one before the first effect included. -/
def states (p : Program σ ε α) (s : σ) : List σ := s :: (p.run s).trace

protected def pure (a : α) : Program σ ε α := ⟨fun _ => ⟨[], .ok a⟩⟩

/-- Sequencing. The second program starts in the store the first one ended in; an error
of the first skips it. -/
protected def bind (p : Program σ ε α) (f : α → Program σ ε β) : Program σ ε β := ⟨fun s =>
  match p.run s with
  | ⟨t, .ok a⟩ => let r := (f a).run (t.getLastD s); ⟨t ++ r.trace, r.out⟩
  | ⟨t, .error e⟩ => ⟨t, .error e⟩⟩

instance : Monad (Program σ ε) where
  pure := Program.pure
  bind := Program.bind

def throw (e : ε) : Program σ ε α := ⟨fun _ => ⟨[], .error e⟩⟩

/-- A look at the store: no effect. -/
def read (f : σ → α) : Program σ ε α := ⟨fun s => ⟨[], .ok (f s)⟩⟩

/-- A look at the store that can refuse what it finds: no effect. -/
def inspect (f : σ → Except ε α) : Program σ ε α := ⟨fun s => ⟨[], f s⟩⟩

/-- One effect, or an error and no effect. -/
def attempt (f : σ → Except ε σ) : Program σ ε Unit := ⟨fun s =>
  match f s with
  | .ok s' => ⟨[s'], .ok ()⟩
  | .error e => ⟨[], .error e⟩⟩

def lift (o : Except ε α) : Program σ ε α := ⟨fun _ => ⟨[], o⟩⟩

/-- `cleanup` runs however `p` ends; an error of `cleanup` replaces the outcome of `p`. -/
def protect (p : Program σ ε α) (cleanup : Program σ ε Unit) : Program σ ε α := ⟨fun s =>
  ⟨(p.run s).trace ++ (cleanup.run (p.final s)).trace, match cleanup.out (p.final s) with
    | .ok () => p.out s
    | .error e => .error e⟩⟩

def mapError (h : ε → ε) (p : Program σ ε α) : Program σ ε α := ⟨fun s =>
  ⟨(p.run s).trace, match p.out s with
    | .ok a => .ok a
    | .error e => .error (h e)⟩⟩

/-- A program on one part of the store, as one on all of it. -/
def onPart {τ : Type} (view : σ → τ) (put : τ → σ → σ) (p : Program τ ε α) : Program σ ε α :=
  ⟨fun s => ⟨(p.run (view s)).trace.map (put · s), p.out (view s)⟩⟩

/-- Run `f` on each element in order. -/
def each (xs : List α) (f : α → Program σ ε Unit) : Program σ ε Unit :=
  match xs with
  | [] => pure ()
  | x :: xs => f x >>= fun _ => each xs f

/-- Run `p` where `test` holds of the store, else do nothing. -/
def whenever (test : σ → Bool) (p : Program σ ε Unit) : Program σ ε Unit :=
  read test >>= fun b => if b then p else pure ()

theorem getLastD_append (s : σ) (t u : List σ) :
    (t ++ u).getLastD s = u.getLastD (t.getLastD s) := by
  cases u with
  | nil => simp
  | cons x u => simp [List.getLastD_eq_getLast?, List.getLast?_append, List.getLast?_cons]

theorem mapError_out (h : ε → ε) (p : Program σ ε α) (s : σ) :
    (mapError h p).out s = match p.out s with
      | .ok a => .ok a
      | .error e => .error (h e) := rfl

theorem protect_out (p : Program σ ε α) (cleanup : Program σ ε Unit) (s : σ) :
    (p.protect cleanup).out s = match cleanup.out (p.final s) with
      | .ok () => p.out s
      | .error e => .error e := rfl

theorem final_mem_states (p : Program σ ε α) (s : σ) : p.final s ∈ p.states s := by
  unfold final states
  rcases List.eq_nil_or_concat (p.run s).trace with h | ⟨t, x, h⟩ <;> simp [h]

@[simp] theorem mem_states {p : Program σ ε α} {s c : σ} :
    c ∈ p.states s ↔ c = s ∨ c ∈ (p.run s).trace := List.mem_cons

/-- The state at a position of the run, the first one past its end. -/
theorem getD_mem_states (p : Program σ ε α) (s : σ) (k : Nat) :
    (p.states s).getD k s ∈ p.states s := by
  rw [List.getD_eq_getElem?_getD]
  rcases h : (p.states s)[k]? with _ | c
  · exact List.mem_cons_self
  · exact List.mem_of_getElem? h

@[simp] theorem pure_run (a : α) (s : σ) :
    (Pure.pure a : Program σ ε α).run s = ⟨[], .ok a⟩ := rfl

@[simp] theorem throw_run (e : ε) (s : σ) :
    (throw e : Program σ ε α).run s = ⟨[], .error e⟩ := rfl

@[simp] theorem read_run (f : σ → α) (s : σ) :
    (read f : Program σ ε α).run s = ⟨[], .ok (f s)⟩ := rfl

@[simp] theorem inspect_run (f : σ → Except ε α) (s : σ) : (inspect f).run s = ⟨[], f s⟩ := rfl

@[simp] theorem lift_run (o : Except ε α) (s : σ) : (lift o).run s = ⟨[], o⟩ := rfl

theorem attempt_ok {f : σ → Except ε σ} {s s' : σ} (h : f s = .ok s') :
    (attempt f).run s = ⟨[s'], .ok ()⟩ := by simp [attempt, h]

theorem attempt_error {f : σ → Except ε σ} {s : σ} {e : ε} (h : f s = .error e) :
    (attempt f).run s = ⟨[], .error e⟩ := by simp [attempt, h]

theorem bind_of_ok {p : Program σ ε α} {f : α → Program σ ε β} {s : σ} {t : List σ} {a : α}
    (h : p.run s = ⟨t, .ok a⟩) : (p >>= f).run s =
      ⟨t ++ ((f a).run (t.getLastD s)).trace, ((f a).run (t.getLastD s)).out⟩ := by
  change (Program.bind p f).run s = _
  simp [Program.bind, h]

/-- Sequencing after a program with no effect. -/
theorem bind_of_pure {p : Program σ ε α} {f : α → Program σ ε β} {s : σ} {a : α}
    (h : p.run s = ⟨[], .ok a⟩) : (p >>= f).run s = (f a).run s := by
  rw [bind_of_ok h]
  rfl

theorem bind_of_error {p : Program σ ε α} {f : α → Program σ ε β} {s : σ} {t : List σ} {e : ε}
    (h : p.run s = ⟨t, .error e⟩) : (p >>= f).run s = ⟨t, .error e⟩ := by
  change (Program.bind p f).run s = _
  simp [Program.bind, h]

/-- The two ways a sequence of programs can go. -/
theorem bind_cases (p : Program σ ε α) (f : α → Program σ ε β) (s : σ) :
    (∃ a, p.out s = .ok a ∧ (p >>= f).run s =
        ⟨(p.run s).trace ++ ((f a).run (p.final s)).trace, ((f a).run (p.final s)).out⟩) ∨
      ∃ e, p.out s = .error e ∧ (p >>= f).run s = ⟨(p.run s).trace, .error e⟩ := by
  unfold out final
  rcases h : p.run s with ⟨t, a | a⟩
  · exact .inr ⟨a, rfl, bind_of_error h⟩
  · exact .inl ⟨a, rfl, bind_of_ok h⟩

/-- What follows a program that returns starts from its last store. -/
theorem bind_ends_of_ok {p : Program σ ε α} {f : α → Program σ ε β} {s : σ} {a : α}
    (h : p.out s = .ok a) :
    (p >>= f).out s = (f a).out (p.final s) ∧ (p >>= f).final s = (f a).final (p.final s) := by
  obtain ⟨b, hb, hr⟩ | ⟨e, he, -⟩ := bind_cases p f s
  · rw [h] at hb
    cases hb
    constructor
    · rw [out, hr]
      rfl
    · rw [final, hr, getLastD_append]
      rfl
  · rw [h] at he
    cases he

theorem bind_ends_of_error {p : Program σ ε α} {f : α → Program σ ε β} {s : σ} {e : ε}
    (h : p.out s = .error e) :
    (p >>= f).out s = .error e ∧ (p >>= f).final s = p.final s := by
  obtain ⟨b, hb, -⟩ | ⟨e', he, hr⟩ := bind_cases p f s
  · rw [h] at hb
    cases hb
  · rw [h] at he
    cases he
    rw [out, final, hr]
    exact ⟨rfl, rfl⟩

/-- A sequence that returns. -/
theorem bind_out_eq_ok {p : Program σ ε α} {f : α → Program σ ε β} {s : σ} {b : β}
    (h : (p >>= f).out s = .ok b) :
    ∃ a, p.out s = .ok a ∧ (f a).out (p.final s) = .ok b ∧
      (p >>= f).final s = (f a).final (p.final s) := by
  obtain ⟨a, ha, hr⟩ | ⟨e, -, hr⟩ := bind_cases p f s
  · refine ⟨a, ha, ?_, ?_⟩
    · rw [out, hr] at h
      exact h
    · rw [final, hr, getLastD_append]
      rfl
  · rw [out, hr] at h
    cases h

theorem lift_out_eq_ok {o : Except ε α} {f : α → Program σ ε β} {s : σ} {b : β}
    (h : (lift o >>= f).out s = .ok b) : ∃ a, o = .ok a ∧ (f a).out s = .ok b := by
  obtain ⟨a, ha, hf, -⟩ := bind_out_eq_ok h
  exact ⟨a, ha, hf⟩

theorem inspect_out_eq_ok {g : σ → Except ε α} {f : α → Program σ ε β} {s : σ} {b : β}
    (h : (inspect g >>= f).out s = .ok b) : ∃ a, g s = .ok a ∧ (f a).out s = .ok b := by
  obtain ⟨a, ha, hf, -⟩ := bind_out_eq_ok h
  exact ⟨a, ha, hf⟩

@[ext] theorem ext {p q : Program σ ε α} (h : ∀ s, p.run s = q.run s) : p = q := by
  cases p
  cases q
  congr
  funext s
  exact h s

instance : LawfulMonad (Program σ ε) := by
  refine LawfulMonad.mk' _ ?_ ?_ ?_
  · intro α p
    ext s
    rcases hr : p.run s with ⟨t, e | a⟩
    · exact bind_of_error hr
    · change (p >>= fun a => Pure.pure (id a)).run s = _
      rw [bind_of_ok hr]
      simp
  · intro α β a f
    ext s
    exact bind_of_pure (pure_run a s)
  · intro α β γ p f g
    ext s
    rcases hr : p.run s with ⟨t, e | a⟩
    · rw [bind_of_error hr, bind_of_error (bind_of_error hr)]
    · have hf := bind_of_ok (f := f) hr
      rw [bind_of_ok hr]
      rcases hfr : (f a).run (t.getLastD s) with ⟨u, e | b⟩
      · rw [hfr] at hf
        rw [bind_of_error hf, bind_of_error hfr]
      · rw [hfr] at hf
        rw [bind_of_ok hf, bind_of_ok hfr, getLastD_append, List.append_assoc]

theorem protect_of_ok {p : Program σ ε α} {cleanup : Program σ ε Unit} {s : σ} {t u : List σ}
    {a : α} (hp : p.run s = ⟨t, .ok a⟩) (hc : cleanup.run (t.getLastD s) = ⟨u, .ok ()⟩) :
    (p.protect cleanup).run s = ⟨t ++ u, .ok a⟩ := by
  simp only [protect, out, final, hp, hc]

theorem final_of_run {p : Program σ ε α} {s : σ} {r : Run σ ε α} (h : p.run s = r) :
    p.final s = r.trace.getLastD s := by rw [final, h]

theorem whenever_true {p : Program σ ε Unit} {s : σ} (test : σ → Bool) (h : test s = true) :
    (whenever test p).run s = p.run s := by
  rw [whenever, bind_of_pure (read_run test s), if_pos h]

theorem whenever_false {p : Program σ ε Unit} {s : σ} (test : σ → Bool) (h : test s = false) :
    (whenever test p).run s = ⟨[], .ok ()⟩ := by
  rw [whenever, bind_of_pure (read_run test s), h]
  rfl

@[simp] theorem each_nil (f : α → Program σ ε Unit) : each [] f = Pure.pure () := rfl

@[simp] theorem each_cons (x : α) (xs : List α) (f : α → Program σ ε Unit) :
    each (x :: xs) f = f x >>= fun _ => each xs f := rfl

end Program
end AgentStack.Crash
