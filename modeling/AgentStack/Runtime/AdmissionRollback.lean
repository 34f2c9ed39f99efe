import AgentStack.Runtime.AdmissionRuns
import AgentStack.Runtime.Observed
import AgentStack.Runtime.Recovery

/-! Rollback of an admission that was cut short before its commit, and of such a rollback. -/
namespace AgentStack.Runtime

open AgentStack.Core FileTree Crash Reconcile

variable {host : Host} {L : Layout} {header : AdmissionHeader} {v₀ v v' u : View} {s c : FS}

/-- What holds at a phase on the way forward and is lost on the way back. -/
structure Forward (host : Host) (L : Layout) (header : AdmissionHeader) (v₀ : View)
    (phase : Phase) (v : View) : Prop where
  original : phase ∈ [.planned, .staged] → AllOriginal host v.place header.metadataMutations
  candidate : phase ∉ [.planned, .staged, .taskMoved] →
    AllCandidate host v.place header.metadataMutations
  absent : phase = .planned → v.place header.tree = noTree
  unspent : phase ∈ rollbackPhases →
    v.ledger = ProofStage.absent.ledger header L.transactionId v₀.ledger ∨
      v.ledger = ProofStage.reserved.ledger header L.transactionId v₀.ledger
  reserved : phase ≠ .planned → v.ledger ≠ v₀.ledger
  active : phase ∉ rollbackPhases →
    v.place header.tree [integrationName] = some (integrationNode header.activeIntegration)

theorem AllOriginal.setPlace {ms : List MetadataMutation} {p : Path} {t : Subtree}
    (h : AllOriginal host v.place ms) (hp : p ∉ ms.map mutationPath) :
    AllOriginal host (v.setPlace p t).place ms := by
  intro m hm
  have hne : mutationPath m ≠ p := by
    rintro rfl
    exact hp (List.mem_map_of_mem hm)
  rw [observedIn_setPlace hne]
  exact h m hm

theorem AllCandidate.setPlace {ms : List MetadataMutation} {p : Path} {t : Subtree}
    (h : AllCandidate host v.place ms) (hp : p ∉ ms.map mutationPath) :
    AllCandidate host (v.setPlace p t).place ms := by
  intro m hm
  have hne : mutationPath m ≠ p := by
    rintro rfl
    exact hp (List.mem_map_of_mem hm)
  rw [observedIn_setPlace hne]
  exact h m hm

variable (A : Admission host L header v₀)

include A in
theorem Admission.forward : Forward host L header v₀ v₀.journal.phase v₀ := by
  rw [A.planned]
  exact ⟨fun _ => A.original, fun h => absurd (by decide) h, fun _ => A.absent,
    fun _ => .inl rfl, fun h => absurd rfl h, fun h => absurd (by decide) h⟩

include A in
theorem Admission.reserved_ne :
    ProofStage.reserved.ledger header L.transactionId v₀.ledger ≠ v₀.ledger ∧
      ProofStage.consumed.ledger header L.transactionId v₀.ledger ≠ v₀.ledger := by
  refine ⟨fun h => ?_, fun h => ?_⟩
  · have := ProofStage.ledger_injective (b := .absent) A.fresh h
    cases this
  · have := ProofStage.ledger_injective (b := .absent) A.fresh h
    cases this

include A in
theorem Forward.next (F : Forward host L header v₀ v.journal.phase v)
    (h : AdmissionNext host L header v₀ v v') :
    Forward host L header v₀ v'.journal.phase v' := by
  cases h with
  | staged phase free =>
    rw [phase] at F
    change Forward host L header v₀ .staged _
    exact ⟨fun _ => F.original (by decide), fun h => absurd (by decide) h,
      fun h => absurd h (by decide), fun _ => .inr rfl, fun _ => A.reserved_ne.1,
      fun h => absurd (by decide) h⟩
  | moved phase absent staging dir =>
    rw [phase] at F
    change Forward host L header v₀ .taskMoved _
    exact ⟨fun h => absurd h (by decide), fun h => absurd (by decide) h,
      fun h => absurd h (by decide), fun _ => F.unspent (by decide),
      fun _ => F.reserved (by decide), fun h => absurd (by decide) h⟩
  | stands phase present =>
    rw [phase] at F
    change Forward host L header v₀ .taskMoved _
    exact ⟨fun h => absurd h (by decide), fun h => absurd (by decide) h,
      fun h => absurd h (by decide), fun _ => F.unspent (by decide),
      fun _ => F.reserved (by decide), fun h => absurd (by decide) h⟩
  | applied phase off candidate =>
    rw [phase] at F
    change Forward host L header v₀ .metadataApplied _
    exact ⟨fun h => absurd h (by decide), fun _ => candidate, fun h => absurd h (by decide),
      fun _ => F.unspent (by decide), fun _ => F.reserved (by decide),
      fun h => absurd (by decide) h⟩
  | activated phase integration =>
    rw [phase] at F
    change Forward host L header v₀ .admissionCommitted _
    refine ⟨fun h => absurd h (by decide), fun _ => (F.candidate (by decide)).setPlace A.outside,
      fun h => absurd h (by decide), fun h => absurd h (by decide),
      fun _ => F.reserved (by decide), fun _ => ?_⟩
    change (v.setPlace header.tree _).place header.tree [integrationName] = _
    rw [View.setPlace_place_self, withIntegration_self]
  | pending phase =>
    rw [phase] at F
    change Forward host L header v₀ .cleanupPending _
    exact ⟨fun h => absurd h (by decide), fun _ => F.candidate (by decide),
      fun h => absurd h (by decide), fun h => absurd h (by decide),
      fun _ => F.reserved (by decide), fun _ => F.active (by decide)⟩
  | complete phase =>
    rw [phase] at F
    change Forward host L header v₀ .complete _
    exact ⟨fun h => absurd h (by decide), fun _ => F.candidate (by decide),
      fun h => absurd h (by decide), fun h => absurd h (by decide), fun _ => A.reserved_ne.2,
      fun _ => F.active (by decide)⟩

include A in
theorem Forward.run (F : Forward host L header v₀ v.journal.phase v)
    (h : AdmissionRun host L header v₀ v v') : Forward host L header v₀ v'.journal.phase v' := by
  induction h with
  | refl => exact F
  | tail _ hn ih => exact ih.next A hn

theorem AdmissionView.withResidue (I : AdmissionView host L header v₀ v) (b : Bool) :
    AdmissionView host L header v₀ { v with residue := b } :=
  ⟨I.journal, I.ledger, I.staging, I.tree, I.integration, I.metadata, I.outbox, I.known,
    I.reached⟩

theorem Forward.withResidue {phase : Phase} (F : Forward host L header v₀ phase v) (b : Bool) :
    Forward host L header v₀ phase { v with residue := b } :=
  ⟨F.original, F.candidate, F.absent, F.unspent, F.reserved, F.active⟩

include A in
/-- Every store an admission can be cut short in. -/
theorem Admission.crash (h : Shows host L v₀ s) {recovery : Bool}
    (hc : c ∈ (resumeAdmission host header recovery v₀.journal).states s) :
    Leaves host L (AdmissionRunCut host L header v₀ v₀) c := by
  rcases Program.mem_states.mp hc with rfl | hc
  · exact .of_shows h ⟨v₀, .refl, .same⟩
  · refine (A.resume_refines A.start h recovery (.inl ?_) s rfl).1 c hc
    rw [A.planned]
    decide

include A in
theorem Admission.taskRef_eq (I : AdmissionView host L header v₀ v) (h : Shows host L v s) :
    v.journal.taskRef = L.taskRef := by
  have := (validateJournal_ok.mp h.journals.valid).2.2.2.2.2.1
  rw [this, I.journal, A.taskRef]
  simp [A.immutableHeader, Header.taskRef]

include A in
theorem Admission.recoverJournal_eq (I : AdmissionView host L header v₀ v) (action : RecoveryAction) :
    recoverJournal host v.journal action = match action with
      | .resume => resumeAdmission host header true v.journal
      | .rollback => rollbackAdmission host header v.journal := by
  have ho : v.journal.operation = .admission := I.operation A
  have hh : v.journal.immutableHeader = .admission header := by
    rw [I.journal]
    exact A.immutableHeader
  unfold recoverJournal
  rw [ho, hh]
  cases action <;> rfl

include A in
/-- Rollback through the recovery entry. -/
theorem Admission.recover_rollback (I : AdmissionView host L header v₀ v) (h : Shows host L v s)
    (hr : v.residue = false) (hphase : v.journal.phase ∈ rollbackPhases) :
    Triple (· = s) (recoverTaskTransactionInternal host L.transactionId .rollback)
      (Ends (fun _ t => v.ledger ≠ ProofStage.consumed.ledger header L.transactionId v₀.ledger ∧
          ∃ v', RollbackEnd host L header v₀ v v' ∧ Shows host L v' t)
        fun t => v.ledger = ProofStage.consumed.ledger header L.transactionId v₀.ledger ∧
          Leaves host L (RollbackCut host L header v₀ v) t)
      (Leaves host L (RollbackCut host L header v₀ v)) := by
  refine Triple.of_run_eq (recover_run h hr (A.taskRef_eq I h) .rollback) ?_
  rw [A.recoverJournal_eq I]
  exact A.rollback_refines I h hphase

include A in
theorem Admission.observe (h : Shows host L v s) {m : MetadataMutation}
    (hm : m ∈ header.metadataMutations) :
    observeFileState host (mutationPath m) none s = observedIn host v.place (mutationPath m) :=
  observe_place h (A.mutations.places m hm)

section Again

/-- A view part of the way back from `v`. -/
def Halfway (host : Host) (L : Layout) (header : AdmissionHeader) (v₀ v w : View) : Prop :=
  ∃ g f l, Undoing host header v g ∧ Thinned v.staging f ∧
    (l = v.ledger ∨ l = ProofStage.reserved.ledger header L.transactionId v₀.ledger ∨
      l = ProofStage.consumed.ledger header L.transactionId v₀.ledger) ∧
    w = { v with ledger := l, staging := f, place := g }

theorem RollbackCut.cases (h : RollbackCut host L header v₀ v v') :
    Halfway host L header v₀ v v' ∨ RollbackEnd host L header v₀ v v' := by
  cases h with
  | undoing places staging ledger => exact .inl ⟨_, _, _, places, staging, ledger, rfl⟩
  | done h => exact .inr h

include A in
theorem Admission.undoing_self (I : AdmissionView host L header v₀ v) (h : Shows host L v s) :
    Undoing host header v v.place :=
  ⟨(h.places _ A.place).thinned, fun _ => rfl, fun _ _ _ => rfl, fun _ _ _ => rfl, I.metadata⟩

include A in
theorem Halfway.refl (I : AdmissionView host L header v₀ v) (h : Shows host L v s) :
    Halfway host L header v₀ v v :=
  ⟨_, _, _, A.undoing_self I h, h.staging.thinned, .inl rfl, rfl⟩

theorem Undoing.trans {g k : Path → Subtree} {f : Subtree} {l : ReplayLedger}
    (h : Undoing host header v g)
    (h' : Undoing host header { v with ledger := l, staging := f, place := g } k) :
    Undoing host header v k where
  tree := h.tree.trans h'.tree
  kept hp := (h'.kept hp).trans (h.kept hp)
  off p hne hp := (h'.off p hne hp).trans (h.off p hne hp)
  still hp p hne := (h'.still hp p hne).trans (h.still hp p hne)
  mixed := h'.mixed

theorem Halfway.trans (h : Halfway host L header v₀ v u) (h' : Halfway host L header v₀ u v') :
    Halfway host L header v₀ v v' := by
  obtain ⟨g, f, l, hU, hf, hl, rfl⟩ := h
  obtain ⟨k, f', l', hU', hf', hl', rfl⟩ := h'
  refine ⟨k, f', l', hU.trans hU', hf.trans hf', ?_, rfl⟩
  rcases hl' with rfl | hl'
  · exact hl
  · exact .inr hl'

theorem Thinned.noTree {f : Subtree} (h : Thinned noTree f) : f = noTree := by
  refine h.eq_noTree ?_
  rcases h.kept [] with he | he
  · exact he
  · exact he

theorem AdmissionView.halfway (I : AdmissionView host L header v₀ v)
    (h : Halfway host L header v₀ v v') : AdmissionView host L header v₀ v' := by
  obtain ⟨g, f, l, hU, hf, hl, rfl⟩ := h
  refine ⟨I.journal, ?_, hf.staging_shape I.staging, hU.tree.dirOrNone I.tree, ?_, hU.mixed,
    I.outbox, I.known, fun hp => I.reached (hp.imp_left fun hne he => hne ?_)⟩
  · rcases hl with rfl | rfl | rfl
    · exact I.ledger
    · exact ⟨.reserved, rfl⟩
    · exact ⟨.consumed, rfl⟩
  · rcases hU.tree.kept [integrationName] with he | he
    · change g header.tree [integrationName] = none ∨ g header.tree [integrationName] = _ ∨
        g header.tree [integrationName] = _
      rw [he]
      exact I.integration
    · exact .inl he
  · have := hU.tree
    rw [he] at this
    exact this.noTree

include A in
/-- Every store that interrupted rollbacks leave is part of the way back. -/
theorem Admission.interrupted {c₀ : FS} (I : AdmissionView host L header v₀ v)
    (h : Shows host L v c₀) (hr : v.residue = false) (hphase : v.journal.phase ∈ rollbackPhases)
    (hi : Interrupted host L.transactionId c₀ c) :
    Leaves host L (Halfway host L header v₀ v) c := by
  induction hi with
  | start => exact .of_shows h (Halfway.refl A I h)
  | @again d e hd he hun ih =>
    obtain ⟨w, b, hw, hs⟩ := ih
    have hI := (I.halfway hw).withResidue b
    obtain ⟨g, f, l, hU, hf, hl, hweq⟩ := id hw
    have hwphase : w.journal.phase ∈ rollbackPhases := by
      rw [hweq]
      exact hphase
    have hwres : w.residue = false := by
      rw [hweq]
      exact hr
    cases b with
    | true =>
      obtain ⟨e, hrun⟩ := recover_residue hs rfl (A.taskRef_eq hI hs) .rollback
      simp only [Program.mem_states, hrun, List.not_mem_nil, or_false] at he
      subst he
      exact ⟨w, true, hw, hs⟩
    | false =>
      have hs' : Shows host L w d := by
        have : ({ w with residue := false } : View) = w := by rw [← hwres]
        rwa [this] at hs
      rcases Program.mem_states.mp he with rfl | he
      · exact .of_shows hs' hw
      · obtain ⟨y, b, hy, hs₂⟩ :=
          (A.recover_rollback (I.halfway hw) hs' hwres hwphase _ rfl).1 _ he
        rcases hy.cases with hy | ⟨k, -, -, -, rfl⟩
        · exact ⟨y, b, hw.trans hy, hs₂⟩
        · exact absurd (hs₂.journals.phaseIs_iff.mpr rfl) hun

end Again

end AgentStack.Runtime
