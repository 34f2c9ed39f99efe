import AgentStack.Crash.Program

/-! Pre- and postconditions with a crash condition: what holds of the store at every point
where the process can stop, next to what holds when it returns or raises. -/
namespace AgentStack.Crash

variable {σ ε α β : Type}

/-- From a store with `P`, `p` passes through stores with `C` only and ends with `Q`. -/
def Triple (P : σ → Prop) (p : Program σ ε α) (Q : Except ε α → σ → Prop) (C : σ → Prop) :
    Prop :=
  ∀ s, P s → (∀ c ∈ (p.run s).trace, C c) ∧ Q (p.out s) (p.final s)

/-- The postcondition of a program that returns. -/
def Returns (Q : α → σ → Prop) : Except ε α → σ → Prop := fun o s => ∃ a, o = .ok a ∧ Q a s

/-- The postcondition of a program that raises. -/
def Raises (Q : σ → Prop) : Except ε α → σ → Prop := fun o s => (∃ e, o = .error e) ∧ Q s

/-- The postcondition of a program that may return or raise. -/
def Ends (Q : α → σ → Prop) (E : σ → Prop) : Except ε α → σ → Prop
  | .ok a, s => Q a s
  | .error _, s => E s

/-- `rel` holds between the store a program starts in and every store it passes through. -/
def Within (rel : σ → σ → Prop) (p : Program σ ε α) : Prop := ∀ s, ∀ c ∈ (p.run s).trace, rel s c

/-- `rel` holds between the store a program starts in and the one it ends in. -/
def Leaves (rel : σ → σ → Prop) (p : Program σ ε α) : Prop := ∀ s, rel s (p.final s)

theorem ends_const {I : σ → Prop} : Ends (fun _ : α => I) I = fun (_ : Except ε α) => I := by
  funext o
  cases o <;> rfl

namespace Triple

variable {P P' : σ → Prop} {C C' : σ → Prop} {p : Program σ ε α} {Q Q' : Except ε α → σ → Prop}

theorem weaken (h : Triple P p Q C) (hp : ∀ s, P' s → P s) (hq : ∀ o s, Q o s → Q' o s)
    (hc : ∀ s, C s → C' s) : Triple P' p Q' C' := fun s hs =>
  ⟨fun c hm => hc c ((h s (hp s hs)).1 c hm), hq _ _ (h s (hp s hs)).2⟩

theorem post (h : Triple P p Q C) (hq : ∀ o s, Q o s → Q' o s) : Triple P p Q' C :=
  h.weaken (fun _ h => h) hq (fun _ h => h)

theorem pre (h : Triple P p Q C) (hp : ∀ s, P' s → P s) : Triple P' p Q C :=
  h.weaken hp (fun _ _ h => h) (fun _ h => h)

theorem crash (h : Triple P p Q C) (hc : ∀ s, C s → C' s) : Triple P p Q C' :=
  h.weaken (fun _ h => h) (fun _ _ h => h) hc

/-- Programs that run alike from a store. -/
theorem of_run_eq {s : σ} {q : Program σ ε α} (h : p.run s = q.run s)
    (hq : Triple (· = s) q Q C) : Triple (· = s) p Q C := by
  rintro s rfl
  have := hq s rfl
  unfold Program.out Program.final at this ⊢
  rwa [h]

/-- Two statements about the same execution. -/
theorem and (h : Triple P p Q C) (h' : Triple P p Q' C') :
    Triple P p (fun o s => Q o s ∧ Q' o s) fun s => C s ∧ C' s := fun s hs =>
  ⟨fun c hc => ⟨(h s hs).1 c hc, (h' s hs).1 c hc⟩, (h s hs).2, (h' s hs).2⟩

/-- A triple is a statement about each store on its own. -/
theorem of_forall (h : ∀ s, P s → Triple (· = s) p Q C) : Triple P p Q C :=
  fun s hs => h s hs s rfl

theorem pure {R : α → σ → Prop} (a : α) :
    Triple (R a) (Pure.pure a : Program σ ε α) (Returns R) C := fun _ hs =>
  ⟨by simp, a, rfl, hs⟩

theorem throw {R : σ → Prop} (e : ε) :
    Triple R (Program.throw e : Program σ ε α) (Raises R) C := fun _ hs =>
  ⟨by simp, ⟨e, rfl⟩, hs⟩

theorem inspect (f : σ → Except ε α) (h : ∀ s, P s → Q (f s) s) :
    Triple P (Program.inspect f) Q C := fun s hs => ⟨by simp, h s hs⟩

theorem attempt {Q : Except ε Unit → σ → Prop} (f : σ → Except ε σ)
    (hok : ∀ s s', P s → f s = .ok s' → C s' ∧ Q (.ok ()) s')
    (herr : ∀ s e, P s → f s = .error e → Q (.error e) s) : Triple P (Program.attempt f) Q C := by
  intro s hs
  unfold Program.final Program.out
  cases h : f s with
  | ok s' => simpa [Program.attempt_ok h] using hok s s' hs h
  | error e => simpa [Program.attempt_error h] using herr s e hs h

theorem bind {R : Except ε α → σ → Prop} {f : α → Program σ ε β} {Q : Except ε β → σ → Prop}
    (hp : Triple P p R C) (hf : ∀ a, Triple (R (.ok a)) (f a) Q C)
    (he : ∀ e s, R (.error e) s → Q (.error e) s) : Triple P (p >>= f) Q C := by
  intro s hs
  obtain ⟨hc, hr⟩ := hp s hs
  obtain ⟨a, ho, h⟩ | ⟨e, ho, h⟩ := Program.bind_cases p f s
  · have hfa := hf a (p.final s) (by simpa [ho] using hr)
    rw [Program.out, Program.final, h]
    refine ⟨fun c hm => ?_, ?_⟩
    · rcases List.mem_append.mp hm with hm | hm
      · exact hc c hm
      · exact hfa.1 c hm
    · rw [Program.getLastD_append]; exact hfa.2
  · rw [Program.out, Program.final, h]
    refine ⟨hc, he e _ ?_⟩
    rw [← ho]
    exact hr

/-- Sequencing after a program with no effect. -/
theorem bind_run {s : σ} {f : α → Program σ ε β} {Q : Except ε β → σ → Prop} {a : α}
    (h : p.run s = ⟨[], .ok a⟩) (hf : Triple (· = s) (f a) Q C) :
    Triple (· = s) (p >>= f) Q C := by
  rintro s rfl
  have hr := Program.bind_of_pure (f := f) h
  unfold Program.out Program.final
  rw [hr]
  exact hf s rfl

theorem returns {s : σ} {R : α → σ → Prop} {a : α} (h : R a s) :
    Triple (· = s) (Pure.pure a : Program σ ε α) (Returns R) C := by
  rintro s rfl
  exact ⟨by simp, a, rfl, h⟩

/-- The branch `whenever` takes is known in the store it starts in. -/
theorem whenever {s : σ} {p : Program σ ε Unit} {Q : Except ε Unit → σ → Prop} (test : σ → Bool)
    (ht : test s = true → Triple (· = s) p Q C) (hf : test s = false → Q (.ok ()) s) :
    Triple (· = s) (Program.whenever test p) Q C := by
  rintro s rfl
  unfold Program.out Program.final
  cases h : test s with
  | true =>
    rw [Program.whenever_true test h]
    exact ht h s rfl
  | false =>
    rw [Program.whenever_false test h]
    exact ⟨by simp, hf h⟩

/-- Sequencing when the first program is known to return. -/
theorem bind_returns {R : α → σ → Prop} {f : α → Program σ ε β} {Q : Except ε β → σ → Prop}
    (hp : Triple P p (Returns R) C) (hf : ∀ a, Triple (R a) (f a) Q C) :
    Triple P (p >>= f) Q C := by
  refine hp.bind (fun a => (hf a).pre ?_) ?_
  · rintro s ⟨b, hb, hs⟩
    cases hb
    exact hs
  · rintro e s ⟨b, hb, -⟩
    cases hb

theorem ends {R : α → σ → Prop} {E : σ → Prop} (hp : Triple P p (Returns R) C) :
    Triple P p (Ends R E) C := by
  refine hp.post ?_
  rintro o s ⟨a, rfl, hs⟩
  exact hs

/-- Sequencing of programs that may raise. -/
theorem bind_ends {R : α → σ → Prop} {f : α → Program σ ε β} {Q : β → σ → Prop} {E : σ → Prop}
    (hp : Triple P p (Ends R E) C) (hf : ∀ a, Triple (R a) (f a) (Ends Q E) C) :
    Triple P (p >>= f) (Ends Q E) C := hp.bind hf fun _ _ h => h

theorem ends_weaken {R R' : α → σ → Prop} {E E' : σ → Prop} (h : Triple P p (Ends R E) C)
    (hr : ∀ a s, R a s → R' a s) (he : ∀ s, E s → E' s) : Triple P p (Ends R' E') C := by
  refine h.post ?_
  rintro (e | a) s hs
  · exact he s hs
  · exact hr a s hs

/-- A program known to raise at once. -/
theorem raised {s : σ} {R : α → σ → Prop} {E : σ → Prop} {e : ε} (h : p.run s = ⟨[], .error e⟩)
    (hE : E s) : Triple (· = s) p (Ends R E) C := by
  rintro s rfl
  unfold Program.out Program.final
  rw [h]
  exact ⟨by simp, hE⟩

theorem bind_raised {s : σ} {f : α → Program σ ε β} {R : β → σ → Prop} {E : σ → Prop} {e : ε}
    (h : p.run s = ⟨[], .error e⟩) (hE : E s) : Triple (· = s) (p >>= f) (Ends R E) C :=
  raised (Program.bind_of_error h) hE

/-- Sequencing after a check that reads the store. -/
theorem inspect_bind_ends {s : σ} {g : σ → Except ε α} {f : α → Program σ ε β} {R : β → σ → Prop}
    {E : σ → Prop} (hE : E s) (hf : ∀ a, g s = .ok a → Triple (· = s) (f a) (Ends R E) C) :
    Triple (· = s) (Program.inspect g >>= f) (Ends R E) C := by
  cases hg : g s with
  | ok a => exact bind_run (by rw [Program.inspect_run, hg]) (hf a hg)
  | error e => exact bind_raised (by rw [Program.inspect_run, hg]) hE

theorem lift_bind_ends {s : σ} {o : Except ε α} {f : α → Program σ ε β} {R : β → σ → Prop}
    {E : σ → Prop} (hE : E s) (hf : ∀ a, o = .ok a → Triple (· = s) (f a) (Ends R E) C) :
    Triple (· = s) (Program.lift o >>= f) (Ends R E) C :=
  inspect_bind_ends (g := fun _ => o) hE hf

theorem throw_ends {s : σ} {R : α → σ → Prop} {E : σ → Prop} {e : ε} (hE : E s) :
    Triple (· = s) (Program.throw e : Program σ ε α) (Ends R E) C :=
  raised (Program.throw_run e s) hE

theorem returns_ends {s : σ} {R : α → σ → Prop} {E : σ → Prop} {a : α} (h : R a s) :
    Triple (· = s) (Pure.pure a : Program σ ε α) (Ends R E) C :=
  (returns h).ends

theorem protect {cleanup : Program σ ε Unit} {R : Except ε α → σ → Prop} (hp : Triple P p R C)
    (hc : ∀ o, Triple (R o) cleanup (Returns fun _ => Q o) C) :
    Triple P (p.protect cleanup) Q C := by
  intro s hs
  obtain ⟨hcp, hr⟩ := hp s hs
  obtain ⟨hcc, ⟨⟨⟩, hout, hq⟩⟩ := hc _ _ hr
  refine ⟨fun c hm => ?_, ?_⟩
  · rcases List.mem_append.mp hm with hm | hm
    · exact hcp c hm
    · exact hcc c hm
  · have hf : (p.protect cleanup).final s = cleanup.final (p.final s) :=
      Program.getLastD_append _ _ _
    have ho : (p.protect cleanup).out s = p.out s := by
      rw [Program.protect_out, hout]
    rw [hf, ho]
    exact hq

/-- Translating errors changes nothing for a program that returns. -/
theorem mapError {R : α → σ → Prop} (h : ε → ε) (hp : Triple P p (Returns R) C) :
    Triple P (p.mapError h) (Returns R) C := by
  intro s hs
  obtain ⟨hc, a, ho, hr⟩ := hp s hs
  refine ⟨hc, a, ?_, hr⟩
  rw [Program.mapError_out, ho]

/-- The result is dropped. -/
theorem ignore {R : α → σ → Prop} {S : Unit → σ → Prop} (hp : Triple P p (Returns R) C)
    (h : ∀ a s, R a s → S () s) : Triple P (p >>= fun _ => Pure.pure ()) (Returns S) C :=
  hp.bind_returns fun a => of_forall fun s hs => returns (h a s hs)

/-- A loop: `I` is kept by the step for each element, in order. -/
theorem each {γ : Type} {f : γ → Program σ ε Unit} (I : List γ → σ → Prop) (xs : List γ)
    (hstep : ∀ x rest, (∃ before, before ++ x :: rest = xs) →
      Triple (I (x :: rest)) (f x) (Returns fun _ => I rest) C) :
    Triple (I xs) (Program.each xs f) (Returns fun _ => I []) C := by
  suffices h : ∀ before rest, before ++ rest = xs →
      Triple (I rest) (Program.each rest f) (Returns fun _ => I []) C from h [] xs rfl
  intro before rest
  induction rest generalizing before with
  | nil => exact fun _ => pure (R := fun _ => I []) ()
  | cons x rest ih =>
    intro h
    exact (hstep x rest ⟨before, h⟩).bind_returns fun _ => ih (before ++ [x]) (by simp [h])

/-- What holds of a store throughout holds of all the stores of a run. -/
theorem states (h : Triple P p Q C) {s c : σ} (hs : P s) (hC : C s) (hc : c ∈ p.states s) : C c := by
  rcases Program.mem_states.mp hc with rfl | hc
  · exact hC
  · exact (h s hs).1 c hc

/-- What a triple says about one run. -/
theorem run {R : α → σ → Prop} (h : Triple P p (Returns R) C) {s : σ} (hs : P s) :
    ∃ a, p.out s = .ok a ∧ R a (p.final s) := (h s hs).2

end Triple

namespace Within

variable {rel : σ → σ → Prop} {p : Program σ ε α}

theorem final [Std.Refl rel] (h : Within rel p) (s : σ) : rel s (p.final s) := by
  rcases Program.mem_states.mp (p.final_mem_states s) with hs | hs
  · rw [hs]; exact Std.Refl.refl s
  · exact h s _ hs

theorem states [Std.Refl rel] (h : Within rel p) {s c : σ} (hc : c ∈ p.states s) : rel s c := by
  rcases Program.mem_states.mp hc with rfl | hc
  · exact Std.Refl.refl c
  · exact h s c hc

/-- One run in full: how it ends, and what it passes through. -/
theorem triple (h : Within rel p) (s : σ) :
    Triple (· = s) p (fun o t => o = p.out s ∧ t = p.final s) (rel s) := by
  rintro s rfl
  exact ⟨h s, rfl, rfl⟩

theorem mono {rel' : σ → σ → Prop} (h : Within rel p) (hr : ∀ s c, rel s c → rel' s c) :
    Within rel' p := fun s c hc => hr s c (h s c hc)

theorem pure (a : α) : Within rel (Pure.pure a : Program σ ε α) := fun _ _ hc => by simp at hc

theorem throw (e : ε) : Within rel (Program.throw e : Program σ ε α) :=
  fun _ _ hc => by simp at hc

theorem read (f : σ → α) : Within rel (Program.read f : Program σ ε α) :=
  fun _ _ hc => by simp at hc

theorem inspect (f : σ → Except ε α) : Within rel (Program.inspect f) :=
  fun _ _ hc => by simp at hc

theorem lift (o : Except ε α) : Within rel (Program.lift o : Program σ ε α) :=
  fun _ _ hc => by simp at hc

theorem attempt (f : σ → Except ε σ) (h : ∀ s s', f s = .ok s' → rel s s') :
    Within rel (Program.attempt f) := by
  intro s c hc
  cases hf : f s with
  | ok s' =>
    obtain rfl : c = s' := by simpa [Program.attempt_ok hf] using hc
    exact h s c hf
  | error e => simp [Program.attempt_error hf] at hc

theorem bind [Std.Refl rel] [IsTrans σ rel] {f : α → Program σ ε β} (hp : Within rel p)
    (hf : ∀ a, Within rel (f a)) : Within rel (p >>= f) := by
  intro s c hc
  obtain ⟨a, -, h⟩ | ⟨e, -, h⟩ := Program.bind_cases p f s
  · rw [h] at hc
    rcases List.mem_append.mp hc with hc | hc
    · exact hp s c hc
    · exact trans_of rel (hp.final s) (hf a _ c hc)
  · rw [h] at hc
    exact hp s c hc

theorem lift_bind {o : Except ε α} {f : α → Program σ ε β}
    (hf : ∀ a, o = .ok a → Within rel (f a)) : Within rel (Program.lift o >>= f) := by
  cases o with
  | ok a =>
    intro s c hc
    rw [Program.bind_of_pure (Program.lift_run _ _)] at hc
    exact hf a rfl s c hc
  | error e =>
    intro s c hc
    rw [Program.bind_of_error (Program.lift_run _ _)] at hc
    cases hc

theorem protect [Std.Refl rel] [IsTrans σ rel] {cleanup : Program σ ε Unit} (hp : Within rel p)
    (hc : Within rel cleanup) : Within rel (p.protect cleanup) := by
  intro s c hm
  rcases List.mem_append.mp hm with hm | hm
  · exact hp s c hm
  · exact trans_of rel (hp.final s) (hc _ c hm)

theorem mapError {h : ε → ε} (hp : Within rel p) : Within rel (p.mapError h) := hp

/-- Whatever the program does to its part of the store. -/
theorem onPart {τ : Type} {view : σ → τ} {put : τ → σ → σ} (q : Program τ ε α)
    (h : ∀ s r, rel s (put r s)) : Within rel (q.onPart view put) := by
  intro s c hc
  obtain ⟨r, -, rfl⟩ := List.mem_map.mp hc
  exact h s r

theorem each [Std.Refl rel] [IsTrans σ rel] {γ : Type} {f : γ → Program σ ε Unit} (xs : List γ)
    (hf : ∀ x ∈ xs, Within rel (f x)) : Within rel (Program.each xs f) := by
  induction xs with
  | nil => exact pure ()
  | cons x xs ih =>
    exact (hf x List.mem_cons_self).bind fun _ => ih fun y hy => hf y (List.mem_cons_of_mem x hy)

theorem ite {b : Prop} [Decidable b] {q : Program σ ε α} (hp : Within rel p) (hq : Within rel q) :
    Within rel (if b then p else q) := by
  split
  · exact hp
  · exact hq

theorem whenever [Std.Refl rel] [IsTrans σ rel] {b : σ → Bool} {q : Program σ ε Unit}
    (h : Within rel q) : Within rel (Program.whenever b q) := by
  refine (read b).bind fun yes => ?_
  exact h.ite (.pure ())

theorem leaves [Std.Refl rel] (h : Within rel p) : Leaves rel p := fun s => h.final s

end Within

namespace Leaves

variable {rel : σ → σ → Prop} {p : Program σ ε α}

theorem mono {rel' : σ → σ → Prop} (h : Leaves rel p) (hr : ∀ s c, rel s c → rel' s c) :
    Leaves rel' p := fun s => hr _ _ (h s)

theorem bind [IsTrans σ rel] {f : α → Program σ ε β} (hp : Leaves rel p)
    (hf : ∀ a, Leaves rel (f a)) : Leaves rel (p >>= f) := by
  intro s
  obtain ⟨a, -, h⟩ | ⟨e, -, h⟩ := Program.bind_cases p f s
  · rw [Program.final, h, Program.getLastD_append]
    exact trans_of rel (hp s) (hf a _)
  · rw [Program.final, h]
    exact hp s

theorem lift_bind [Std.Refl rel] {o : Except ε α} {f : α → Program σ ε β}
    (hf : ∀ a, o = .ok a → Leaves rel (f a)) : Leaves rel (Program.lift o >>= f) := by
  cases o with
  | ok a =>
    intro s
    rw [Program.final, Program.bind_of_pure (Program.lift_run _ _)]
    exact hf a rfl s
  | error e =>
    intro s
    rw [Program.final, Program.bind_of_error (Program.lift_run _ _)]
    exact Std.Refl.refl s

theorem ite {b : Prop} [Decidable b] {q : Program σ ε α} (hp : Leaves rel p) (hq : Leaves rel q) :
    Leaves rel (if b then p else q) := by
  split
  · exact hp
  · exact hq

theorem mapError {h : ε → ε} (hp : Leaves rel p) : Leaves rel (p.mapError h) := hp

theorem each [Std.Refl rel] [IsTrans σ rel] {γ : Type} {f : γ → Program σ ε Unit} (xs : List γ)
    (hf : ∀ x ∈ xs, Leaves rel (f x)) : Leaves rel (Program.each xs f) := by
  induction xs with
  | nil => exact (Within.pure ()).leaves
  | cons x xs ih =>
    exact (hf x List.mem_cons_self).bind fun _ => ih fun y hy => hf y (List.mem_cons_of_mem x hy)

/-- What every store of `rel` keeps is kept. -/
theorem triple {P : σ → Prop} (h : Leaves rel p) (hP : ∀ s t, rel s t → P s → P t) :
    Triple P p (Ends (fun _ => P) P) fun _ => True := by
  intro s hs
  refine ⟨fun _ _ => trivial, ?_⟩
  have hend := hP s _ (h s) hs
  cases p.out s with
  | ok a => exact hend
  | error e => exact hend

end Leaves
end AgentStack.Crash
