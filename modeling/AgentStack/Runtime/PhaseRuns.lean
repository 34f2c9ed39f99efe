import Mathlib.Logic.Relation
import AgentStack.Runtime.TaskSteps

/-! A transaction phase by phase: if each phase leads on or sticks, so does the whole run. -/
namespace AgentStack.Runtime

open AgentStack.Core FileTree Crash Reconcile

variable {host : Host} {L : Layout} {v v' : View} {s c : FS}

/-- The store shows `K`, or shows it beside a leftover in the journal directory. -/
def Leaves (host : Host) (L : Layout) (K : View → Prop) (c : FS) : Prop :=
  ∃ v b, K v ∧ Shows host L { v with residue := b } c

theorem Leaves.of_shows {K : View → Prop} (h : Shows host L v c) (hK : K v) : Leaves host L K c :=
  ⟨v, v.residue, hK, h⟩

theorem Leaves.mono {K K' : View → Prop} (h : Leaves host L K c) (hK : ∀ v, K v → K' v) :
    Leaves host L K' c := by
  obtain ⟨v, b, hv, hs⟩ := h
  exact ⟨v, b, hK v hv, hs⟩

/-- Where a step of a transaction ends that leads to a view with `R`. -/
def Arrives (host : Host) (L : Layout) (R : View → Prop) (j : TaskJournal) (t : FS) : Prop :=
  ∃ v, R v ∧ j = v.journal ∧ Shows host L v t

/-- The advance that ends each phase. -/
theorem advance_arrives {phase : Phase} {outcome : Option Outcome} {R K : View → Prop}
    {E : FS → Prop} {j : TaskJournal} (h : Shows host L v s) (hj : j = v.journal)
    (ha : j.CanAdvance phase outcome) (hK : K v)
    (hR : R { v with journal := v.journal.advanced phase outcome })
    (hRK : ∀ v, R v → K v) :
    Triple (· = s) (advanceTaskJournal host j phase outcome)
      (Ends (Arrives host L R) E) (Leaves host L K) := by
  subst hj
  refine (advanceTaskJournal_spec h ha).weaken (fun _ h => h) ?_ ?_
  · rintro o t ⟨j, rfl, rfl, ht⟩
    exact ⟨_, hR, rfl, ht⟩
  · rintro c (hc | hc)
    · exact ⟨v, true, hK, hc⟩
    · exact .of_shows hc (hRK _ hR)

/-- The phase that follows in the list. -/
def phaseAfter (phase : Phase) : List Phase → Phase
  | [] => .complete
  | p :: rest => if p = phase then rest.headD .complete else phaseAfter phase rest

variable {step : TaskJournal → Prog TaskJournal} {Next Cut : View → View → Prop}
  {Stuck : View → Prop}

/-- Every view a run passes through comes from one where a phase began. -/
def RunCut (Next Cut : View → View → Prop) (v w : View) : Prop :=
  ∃ u, Relation.ReflTransGen Next v u ∧ Cut u w

theorem RunCut.head {u w : View} (h : Next v u) (hw : RunCut Next Cut u w) :
    RunCut Next Cut v w := by
  obtain ⟨x, hx, hc⟩ := hw
  exact ⟨x, .head h hx, hc⟩

/-- Where a run ends that sticks. -/
def RunSticks (host : Host) (L : Layout) (Next Cut : View → View → Prop) (Stuck : View → Prop)
    (v : View) (t : FS) : Prop :=
  ∃ u, Relation.ReflTransGen Next v u ∧ Stuck u ∧ Leaves host L (Cut u) t

/-- The cascade follows the phases. -/
theorem runPhases_refines (I : View → Prop) (phases : List Phase) (hnodup : phases.Nodup)
    (hlast : .complete ∉ phases) (hI : ∀ v v', I v → Next v v' → I v')
    (hnext : ∀ v v', Next v v' → v.journal.phase ∈ phases →
      v'.journal.phase = phaseAfter v.journal.phase phases)
    (hstep : ∀ v s, I v → Shows host L v s → v.journal.phase ∈ phases →
      Triple (· = s) (step v.journal) (Ends (Arrives host L (Next v))
        fun t => Stuck v ∧ Leaves host L (Cut v) t) (Leaves host L (Cut v)))
    (hv : I v) (h : Shows host L v s)
    (hphase : v.journal.phase ∈ phases ∨ v.journal.phase = .complete) :
    Triple (· = s) (runPhases step phases v.journal)
      (Ends (Arrives host L fun u => Relation.ReflTransGen Next v u ∧
          u.journal.phase = .complete)
        (RunSticks host L Next Cut Stuck v))
      (Leaves host L (RunCut Next Cut v)) := by
  induction phases generalizing v s with
  | nil =>
    have hc := hphase.resolve_left List.not_mem_nil
    exact (Triple.returns (R := fun j t => Arrives host L (fun u =>
      Relation.ReflTransGen Next v u ∧ u.journal.phase = .complete) j t)
      ⟨v, ⟨.refl, hc⟩, rfl, h⟩).ends
  | cons p rest ih =>
    rw [List.nodup_cons] at hnodup
    have hrest : Phase.complete ∉ rest := fun h => hlast (List.mem_cons_of_mem p h)
    have hrestNext : ∀ v v', Next v v' → v.journal.phase ∈ rest →
        v'.journal.phase = phaseAfter v.journal.phase rest := by
      intro v v' hvv hm
      rw [hnext v v' hvv (List.mem_cons_of_mem p hm), phaseAfter, if_neg]
      rintro rfl
      exact hnodup.1 hm
    have htail : ∀ {u : View} {t : FS}, I u → Shows host L u t →
        (u.journal.phase ∈ rest ∨ u.journal.phase = .complete) →
        Triple (· = t) (runPhases step rest u.journal)
          (Ends (Arrives host L fun x => Relation.ReflTransGen Next u x ∧
              x.journal.phase = .complete)
            (RunSticks host L Next Cut Stuck u))
          (Leaves host L (RunCut Next Cut u)) := fun hu ht hp =>
      ih hnodup.2 hrest hrestNext
        (fun v s hv hs hm => hstep v s hv hs (List.mem_cons_of_mem p hm)) hu ht hp
    unfold runPhases
    by_cases hp : v.journal.phase = p
    · rw [if_pos hp]
      have hmem : v.journal.phase ∈ p :: rest := hp ▸ List.mem_cons_self
      have hfirst : Triple (· = s) (step v.journal) (Ends (Arrives host L (Next v))
          (RunSticks host L Next Cut Stuck v)) (Leaves host L (RunCut Next Cut v)) := by
        refine (hstep v s hv h hmem).weaken (fun _ h => h) ?_
          fun c hc => hc.mono fun w hw => ⟨v, .refl, hw⟩
        rintro (e | j) t ht
        · exact ⟨v, .refl, ht⟩
        · exact ht
      refine hfirst.bind_ends fun j => Triple.of_forall fun t ⟨u, hvu, hj, hu⟩ => ?_
      · have hup : u.journal.phase ∈ rest ∨ u.journal.phase = .complete := by
          rw [hnext v u hvu hmem, phaseAfter, if_pos hp.symm]
          cases rest with
          | nil => exact .inr rfl
          | cons q rest => exact .inl List.mem_cons_self
        subst hj
        refine (htail (hI v u hv hvu) hu hup).weaken (fun _ h => h) ?_ ?_
        · rintro (e | j) x hx
          · obtain ⟨y, hy, hs⟩ := hx
            exact ⟨y, .head hvu hy, hs⟩
          · obtain ⟨y, ⟨hy, hc⟩, hj, hs⟩ := hx
            exact ⟨y, ⟨.head hvu hy, hc⟩, hj, hs⟩
        · exact fun c hc => hc.mono fun w hw => hw.head hvu
    · rw [if_neg hp]
      refine htail hv h ?_
      rcases hphase with hm | hm
      · exact .inl ((List.mem_cons.mp hm).resolve_left hp)
      · exact .inr hm

end AgentStack.Runtime
