import AgentStack.FileTree.Frames
import AgentStack.Runtime.TaskSteps
import AgentStack.SampleHost

/-! Callers of `advance_task_journal` on one transaction, each with a journal it read before. -/
namespace AgentStack.Runtime

open AgentStack.Core FileTree Crash Reconcile DirTree

variable {host : Host} {transactionId : String} {s : FS} {d j : TaskJournal} {phase : Phase}
  {outcome : Option Outcome} {rollbackState : Option Json}

def phaseRank (operation : Operation) (phase : Phase) : Nat := (phaseOrder operation phase).getD 0

def TaskJournal.rank (j : TaskJournal) : Nat := phaseRank j.operation j.phase

/-- The same journal, perhaps at another phase. -/
def TaskJournal.CopyOf (j d : TaskJournal) : Prop :=
  j = { d with phase := j.phase, outcome := j.outcome, rollbackState := j.rollbackState }

/-- `advance_task_journal` finds nothing to object to. -/
structure TaskJournal.Accepts (host : Host) (j : TaskJournal) (phase : Phase)
    (outcome : Option Outcome) : Prop where
  forward : j.rank ≤ phaseRank j.operation phase
  valid : validateJournal host (j.advanced phase outcome) (some j.transactionId) = .ok ()

/-- The rollback state a journal carries is not looked at. -/
theorem TaskJournal.Accepts.advanced {j : TaskJournal} (h : j.Accepts host phase outcome) :
    validateJournal host (j.advanced phase outcome rollbackState) (some j.transactionId) = .ok () :=
  validateJournal_ok.mpr (validateJournal_ok.mp h.valid)

/-- What may follow a stored journal: never an earlier phase, nothing after a complete one, and
the same binding. -/
structure TaskJournal.Onward (d d' : TaskJournal) : Prop where
  phase : d.rank ≤ d'.rank
  complete : d.phase = .complete → d' = d
  binding : d'.journalBindingDigest = d.journalBindingDigest

theorem TaskJournal.Onward.refl (d : TaskJournal) : d.Onward d := ⟨le_refl _, fun _ => rfl, rfl⟩

theorem TaskJournal.Onward.trans {d d' d'' : TaskJournal} (h : d.Onward d') (h' : d'.Onward d'') :
    d.Onward d'' where
  phase := h.phase.trans h'.phase
  complete := by
    intro hc
    have hd := h.complete hc
    rw [hd] at h'
    exact h'.complete hc
  binding := h'.binding.trans h.binding

/-- Callers on one transaction: the store, and what each has read. -/
structure Callers (ι : Type) where
  store : FS
  held : ι → Option TaskJournal

inductive CallerStep (ι : Type)
  | read (caller : ι)
  | advance (caller : ι) (phase : Phase) (outcome : Option Outcome) (rollbackState : Option Json)

namespace Callers

variable {ι : Type} [DecidableEq ι]

/-- Nobody has read anything yet. -/
def start (s : FS) : Callers ι := ⟨s, fun _ => none⟩

/-- One step. A call lands whole: what it writes is settled by the copy it was given, and its
one rename is all that others can see. -/
def step (host : Host) (transactionId : String) (m : Callers ι) : CallerStep ι → Callers ι
  | .read caller =>
    match readTaskJournal host transactionId m.store with
    | .ok j => ⟨m.store, Function.update m.held caller (some j)⟩
    | .error _ => m
  | .advance caller phase outcome rollbackState =>
    match m.held caller with
    | none => m
    | some j =>
      let call := advanceTaskJournal host j phase outcome rollbackState
      match call.out m.store with
      | .ok j' => ⟨call.final m.store, Function.update m.held caller (some j')⟩
      | .error _ => ⟨call.final m.store, m.held⟩

def run (host : Host) (transactionId : String) (m : Callers ι) (steps : List (CallerStep ι)) :
    Callers ι :=
  steps.foldl (step host transactionId) m

/-- The step asks for no phase before the stored one, and of a complete journal for no other
outcome or rollback state. -/
def Timely (host : Host) (transactionId : String) (m : Callers ι) : CallerStep ι → Prop
  | .read _ => True
  | .advance caller phase outcome rollbackState => ∀ j d, m.held caller = some j →
    j.Accepts host phase outcome → readTaskJournal host transactionId m.store = .ok d →
      d.rank ≤ phaseRank d.operation phase ∧ (d.phase = .complete →
        outcome.or j.outcome = d.outcome ∧ rollbackState.getD j.rollbackState = d.rollbackState)

/-- The transaction's journal is stored, and the callers hold copies of it. -/
structure Holds (host : Host) (transactionId : String) (m : Callers ι) (d : TaskJournal) :
    Prop where
  shape : m.store.WellFormed
  stored : readTaskJournal host transactionId m.store = .ok d
  copies : ∀ caller j, m.held caller = some j →
    j.CopyOf d ∧ validateJournal host j (some transactionId) = .ok ()

end Callers

/-! ### One call -/

section Call

theorem valid_none (h : validateJournal host j (some transactionId) = .ok ()) :
    validateJournal host j none = .ok () := by
  have hv := validateJournal_ok.mp h
  exact validateJournal_ok.mpr ⟨hv.1, by simp, hv.2.2⟩

theorem rank_of_phaseOrder {n : Nat} (h : phaseOrder j.operation j.phase = some n) :
    j.rank = n := by
  simp [TaskJournal.rank, phaseRank, h]

/-- The last phase of every operation. -/
theorem phase_complete {operation : Operation}
    (hphase : (phaseOrder operation phase).isSome)
    (h : phaseRank operation .complete ≤ phaseRank operation phase) : phase = .complete := by
  cases operation <;> cases phase <;> simp_all [phaseRank, phaseOrder]

theorem readTaskJournal_eq_ok (h : readTaskJournal host transactionId s = .ok d) :
    checkTransactionId transactionId = .ok () ∧
      (∃ m, s.get (journalFile transactionId) = some (.file (.taskJournal d) m)) ∧
      validateJournal host d (some transactionId) = .ok () := by
  obtain ⟨⟨⟩, hid, h⟩ := bind_eq_ok h
  split at h
  · next found m hget =>
    obtain ⟨⟨⟩, hvalid, h⟩ := bind_eq_ok h
    cases h
    exact ⟨hid, ⟨m, hget⟩, hvalid⟩
  · cases h
  · cases h

theorem readTaskJournal_update {t : FS} (hid : checkTransactionId transactionId = .ok ())
    (hvalid : validateJournal host j (some transactionId) = .ok ())
    (ht : t.get = Function.update s.get (journalFile transactionId)
      (some (.file (.taskJournal j) 0o600))) :
    readTaskJournal host transactionId t = .ok j := by
  unfold readTaskJournal
  rw [hid, ht, Function.update_self]
  simp [hvalid]

variable (rollbackState) in
/-- A call whose checks pass puts its candidate in place, whatever is stored there. -/
theorem advance_accepted (hwf : s.WellFormed) (hread : readTaskJournal host transactionId s = .ok d)
    (hj : validateJournal host j (some transactionId) = .ok ()) (ha : j.Accepts host phase outcome) :
    Triple (· = s) (advanceTaskJournal host j phase outcome rollbackState)
      (Returns fun j' t => j' = j.advanced phase outcome rollbackState ∧ t.WellFormed ∧
        readTaskJournal host transactionId t = .ok (j.advanced phase outcome rollbackState))
      fun _ => True := by
  obtain ⟨hid, ⟨m, hget⟩, -⟩ := readTaskJournal_eq_ok hread
  obtain rfl : j.transactionId = transactionId := by
    have := (validateJournal_ok.mp hj).2.1 rfl
    exact (Option.some.inj this).symm
  have hdir : s.realDir journalRoot := by
    apply hwf.parent_realDir (n := journalName j.transactionId)
    rw [← journalFile, hget]
    rfl
  have hfile : ¬ s.realDir (journalFile j.transactionId) := by
    rintro ⟨m', hm'⟩
    rw [hget] at hm'
    cases hm'
  obtain ⟨-, -, hcurrent, -⟩ := validateJournal_ok.mp hj
  obtain ⟨-, -, hnext, -⟩ := validateJournal_ok.mp ha.valid
  obtain ⟨current, hcurrent⟩ := Option.isSome_iff_exists.mp hcurrent
  obtain ⟨next, hnext⟩ := Option.isSome_iff_exists.mp hnext
  change phaseOrder j.operation phase = some next at hnext
  have hle : ¬ next < current := by
    have := ha.forward
    simp only [TaskJournal.rank, phaseRank, hcurrent, hnext, Option.getD_some] at this
    omega
  unfold advanceTaskJournal
  refine Triple.bind_run (by rw [Program.lift_run, valid_none hj]) ?_
  rw [hnext, hcurrent]
  simp only [if_neg hle]
  refine Triple.bind_run (by rw [Program.lift_run]; exact congrArg _ ha.advanced) ?_
  refine Triple.bind_run (a := journalFile j.transactionId) ?_ ?_
  · rw [Program.lift_run, journalPath]
    change Run.mk [] (checkTransactionId j.transactionId >>= _) = _
    rw [hid]
    rfl
  have hput : Triple (· = s) _ _ fun _ => True :=
    (atomicJson_update host (j.advanced phase outcome rollbackState) j.transactionId (hwf.reaches hdir)
      fun m' hm' => hfile ⟨m', hm'⟩).crash fun _ _ => trivial
  refine hput.bind_returns fun _ => Triple.of_forall fun t ht => Triple.returns ⟨rfl, ?_, ?_⟩
  · exact hwf.update ht (by rwa [journalFile, parent_append]) (by simp [journalFile]) hfile
  · exact readTaskJournal_update hid ha.advanced ht

variable (rollbackState) in
theorem advance_refused (hj : validateJournal host j (some transactionId) = .ok ())
    (ha : ¬ j.Accepts host phase outcome) :
    ∃ e, (advanceTaskJournal host j phase outcome rollbackState).run s = ⟨[], .error e⟩ := by
  obtain rfl : j.transactionId = transactionId := by
    have := (validateJournal_ok.mp hj).2.1 rfl
    exact (Option.some.inj this).symm
  unfold advanceTaskJournal
  rw [Program.bind_of_pure (by rw [Program.lift_run, valid_none hj])]
  split
  · next next current hnext hcurrent =>
    by_cases hlt : next < current
    · rw [if_pos hlt]
      exact ⟨_, rfl⟩
    · rw [if_neg hlt]
      have hinvalid : ∃ e, validateJournal host (j.advanced phase outcome rollbackState)
          (some j.transactionId) = .error e := by
        cases hv : validateJournal host (j.advanced phase outcome rollbackState)
          (some j.transactionId) with
        | error e => exact ⟨e, rfl⟩
        | ok u =>
          refine absurd ⟨?_, validateJournal_ok.mpr (validateJournal_ok.mp hv)⟩ ha
          rw [rank_of_phaseOrder hcurrent, phaseRank, hnext]
          simpa using hlt
      obtain ⟨e, he⟩ := hinvalid
      exact ⟨e, Program.bind_of_error (by rw [Program.lift_run]; exact congrArg _ he)⟩
  · exact ⟨_, rfl⟩

end Call

/-! ### Runs -/

theorem TaskJournal.CopyOf.trans {d' : TaskJournal} (h : j.CopyOf d) (h' : d'.CopyOf d) :
    j.CopyOf d' := by
  unfold TaskJournal.CopyOf at h h' ⊢
  rw [h, h']

variable (phase outcome rollbackState) in
theorem TaskJournal.CopyOf.advanced (h : j.CopyOf d) :
    (j.advanced phase outcome rollbackState).CopyOf d := by
  unfold TaskJournal.CopyOf at h ⊢
  rw [h]
  rfl

/-- What an accepted call writes follows the stored journal exactly when the call is timely. -/
theorem onward_advanced (hcopy : j.CopyOf d)
    (hphase : (phaseOrder j.operation phase).isSome) :
    d.Onward (j.advanced phase outcome rollbackState) ↔
      d.rank ≤ phaseRank d.operation phase ∧ (d.phase = .complete →
        outcome.or j.outcome = d.outcome ∧
          rollbackState.getD j.rollbackState = d.rollbackState) := by
  have hop : j.operation = d.operation := by rw [hcopy]
  have hrank : (j.advanced phase outcome rollbackState).rank = phaseRank d.operation phase := by
    rw [← hop]
    rfl
  have hout : (j.advanced phase outcome rollbackState).outcome = outcome.or j.outcome := by
    cases outcome <;> rfl
  have hstate : (j.advanced phase outcome rollbackState).rollbackState =
    rollbackState.getD j.rollbackState := rfl
  constructor
  · intro h
    refine ⟨hrank ▸ h.phase, fun hc => ?_⟩
    rw [← hout, ← hstate, h.complete hc]
    exact ⟨rfl, rfl⟩
  · rintro ⟨hle, hsame⟩
    refine ⟨hrank ▸ hle, fun hc => ?_, ?_⟩
    · have hlast : phase = .complete := by
        apply phase_complete hphase
        rw [hop, ← hc]
        exact hle
      have hadv := hcopy.advanced phase outcome rollbackState
      unfold TaskJournal.CopyOf at hadv
      rw [hadv, hout, hstate, (hsame hc).1, (hsame hc).2]
      show { d with phase := phase } = d
      rw [hlast, ← hc]
    · have hadv := hcopy.advanced phase outcome rollbackState
      unfold TaskJournal.CopyOf at hadv
      rw [hadv]

namespace Callers

variable {ι : Type} [DecidableEq ι] {m : Callers ι}

omit [DecidableEq ι] in
theorem start_holds (hwf : s.WellFormed) (h : readTaskJournal host transactionId s = .ok d) :
    (start s : Callers ι).Holds host transactionId d :=
  ⟨hwf, h, by simp [start]⟩

theorem Holds.update (h : m.Holds host transactionId d) {t : FS} {d' : TaskJournal}
    (hwf : t.WellFormed) (hread : readTaskJournal host transactionId t = .ok d')
    (hcopy : d'.CopyOf d) (caller : ι) :
    Holds host transactionId ⟨t, Function.update m.held caller (some d')⟩ d' := by
  refine ⟨hwf, hread, fun other j hj => ?_⟩
  change Function.update m.held caller (some d') other = some j at hj
  rw [Function.update_apply] at hj
  split at hj
  · cases hj
    exact ⟨rfl, (readTaskJournal_eq_ok hread).2.2⟩
  · obtain ⟨hc, hv⟩ := h.copies other j hj
    exact ⟨hc.trans hcopy, hv⟩

/-- Each step leaves a journal in place, and it follows the one before when the step is timely,
and only then. -/
theorem step_onward (h : m.Holds host transactionId d) (e : CallerStep ι) :
    ∃ d', (m.step host transactionId e).Holds host transactionId d' ∧
      (d.Onward d' ↔ m.Timely host transactionId e) := by
  cases e with
  | read caller =>
    refine ⟨d, ?_, by simp [Timely, TaskJournal.Onward.refl]⟩
    simp only [step, h.stored]
    exact h.update h.shape h.stored rfl caller
  | advance caller phase outcome rollbackState =>
    cases hheld : m.held caller with
    | none =>
      refine ⟨d, by simpa only [step, hheld] using h, ?_⟩
      simp [Timely, hheld, TaskJournal.Onward.refl]
    | some j =>
      obtain ⟨hcopy, hvalid⟩ := h.copies caller j hheld
      by_cases ha : j.Accepts host phase outcome
      · obtain ⟨-, j', hout, hj', hwf, hread⟩ :=
          advance_accepted rollbackState h.shape h.stored hvalid ha m.store rfl
        subst hj'
        refine ⟨j.advanced phase outcome rollbackState, ?_, ?_⟩
        · simp only [step, hheld, hout]
          exact h.update hwf hread (hcopy.advanced _ _ _) caller
        · have hnext : (phaseOrder j.operation phase).isSome :=
            (validateJournal_ok.mp ha.valid).2.2.1
          rw [onward_advanced hcopy hnext]
          simp [Timely, hheld, ha, h.stored]
      · obtain ⟨e, hrun⟩ := advance_refused (s := m.store) rollbackState hvalid ha
        refine ⟨d, ?_, fun _ j' d' hj' ha' _ => ?_, fun _ => TaskJournal.Onward.refl d⟩
        · simp only [step, hheld, Program.out, Program.final, hrun]
          exact h
        · rw [hheld] at hj'
          cases hj'
          exact absurd ha' ha

theorem run_append (steps more : List (CallerStep ι)) :
    m.run host transactionId (steps ++ more) =
      (m.run host transactionId steps).run host transactionId more :=
  List.foldl_append ..

theorem run_holds (h : m.Holds host transactionId d) (steps : List (CallerStep ι)) :
    ∃ d', (m.run host transactionId steps).Holds host transactionId d' := by
  induction steps generalizing m d with
  | nil => exact ⟨d, h⟩
  | cons e steps ih =>
    obtain ⟨d', h', -⟩ := step_onward h e
    exact ih h'

theorem run_onward (h : m.Holds host transactionId d) (steps : List (CallerStep ι))
    (htimely : ∀ before e rest, steps = before ++ e :: rest →
      (m.run host transactionId before).Timely host transactionId e) :
    ∃ d', (m.run host transactionId steps).Holds host transactionId d' ∧ d.Onward d' := by
  induction steps generalizing m d with
  | nil => exact ⟨d, h, TaskJournal.Onward.refl d⟩
  | cons e steps ih =>
    obtain ⟨d', h', honward⟩ := step_onward h e
    have hfirst : d.Onward d' := honward.mpr (htimely [] e steps rfl)
    obtain ⟨d'', h'', hrest⟩ := ih h' fun before e' rest hsplit =>
      htimely (e :: before) e' rest (by rw [hsplit]; rfl)
    exact ⟨d'', h'', hfirst.trans hrest⟩

end Callers

/-- Any callers in any order: the stored journal only moves onward between any two moments if
and only if every call is timely. -/
theorem callers_onward {ι : Type} [DecidableEq ι] (hwf : s.WellFormed)
    (h : readTaskJournal host transactionId s = .ok d) (steps : List (CallerStep ι)) :
    (∀ before between rest, steps = before ++ between ++ rest → ∃ d d',
        readTaskJournal host transactionId
          ((Callers.start s).run host transactionId before).store = .ok d ∧
        readTaskJournal host transactionId
          ((Callers.start s).run host transactionId (before ++ between)).store = .ok d' ∧
        d.Onward d') ↔
      ∀ before e rest, steps = before ++ e :: rest →
        ((Callers.start s).run host transactionId before).Timely host transactionId e := by
  have hstart : (Callers.start s : Callers ι).Holds host transactionId d :=
    Callers.start_holds hwf h
  constructor
  · intro honward before e rest hsplit
    obtain ⟨d₁, h₁⟩ := Callers.run_holds hstart before
    obtain ⟨d₂, h₂, hiff⟩ := Callers.step_onward h₁ e
    obtain ⟨e₁, e₂, hr₁, hr₂, ho⟩ := honward before [e] rest (by rw [hsplit]; simp)
    rw [Callers.run_append] at hr₂
    obtain rfl := Except.ok.inj (h₁.stored.symm.trans hr₁)
    obtain rfl := Except.ok.inj (h₂.stored.symm.trans hr₂)
    exact hiff.mp ho
  · intro htimely before between rest hsplit
    obtain ⟨d₁, h₁⟩ := Callers.run_holds hstart before
    obtain ⟨d₂, h₂, ho⟩ := Callers.run_onward h₁ between fun first e later hfirst => by
      rw [← Callers.run_append]
      exact htimely (before ++ first) e (later ++ rest) (by rw [hsplit, hfirst]; simp)
    refine ⟨d₁, d₂, h₁.stored, ?_, ho⟩
    rw [Callers.run_append]
    exact h₂.stored

/-- A claim of a task under way. -/
def sampleClaiming (phase : Phase) (outcome : Option Outcome) : TaskJournal :=
  ⟨sampleTransaction, .claim, sampleTask, "tasks/t",
    .singleFile ⟨sampleTask, "tasks/t", sampleActive, sampleActive⟩, sampleDigest 61, phase,
    outcome, [], "\x7b\x7d"⟩

def sampleClaims : FS :=
  ⟨[([], .dir 0o755), (controlDir, .dir 0o755), (journalRoot, .dir 0o755),
    (journalFile sampleTransaction, .file (.taskJournal (sampleClaiming .planned none)) 0o600)]⟩

/-- Two callers that read the journal before either writes. -/
def sampleCallers : List (CallerStep Bool) :=
  [.read true, .read false, .advance true .cleanupPending none none,
    .advance false .integrationCommitted none none]

theorem sampleClaims_read : sampleClaims.WellFormed ∧
    readTaskJournal sampleHost sampleTransaction sampleClaims =
      .ok (sampleClaiming .planned none) := by
  decide

theorem callers_onward_two :
    (∀ before between rest, sampleCallers = before ++ between ++ rest → ∃ d d',
        readTaskJournal sampleHost sampleTransaction
          ((Callers.start sampleClaims).run sampleHost sampleTransaction before).store = .ok d ∧
        readTaskJournal sampleHost sampleTransaction ((Callers.start sampleClaims).run sampleHost
          sampleTransaction (before ++ between)).store = .ok d' ∧
        d.Onward d') ↔
      ∀ before e rest, sampleCallers = before ++ e :: rest →
        ((Callers.start sampleClaims).run sampleHost sampleTransaction before).Timely sampleHost
          sampleTransaction e :=
  callers_onward sampleClaims_read.1 sampleClaims_read.2 sampleCallers

/-- The second caller moves the journal from its cleanup back to its commit. -/
theorem stale_caller_regresses :
    readTaskJournal sampleHost sampleTransaction
        ((Callers.start sampleClaims).run sampleHost sampleTransaction
          (sampleCallers.take 3)).store = .ok (sampleClaiming .cleanupPending none) ∧
      readTaskJournal sampleHost sampleTransaction
        ((Callers.start sampleClaims).run sampleHost sampleTransaction sampleCallers).store =
          .ok (sampleClaiming .integrationCommitted none) ∧
      ¬ (sampleClaiming .cleanupPending none).Onward
        (sampleClaiming .integrationCommitted none) := by
  refine ⟨by decide, by decide, fun h => ?_⟩
  have := h.phase
  simp [TaskJournal.rank, phaseRank, sampleClaiming, phaseOrder] at this

end AgentStack.Runtime
