import AgentStack.Runtime.OutboxSteps
import AgentStack.Runtime.PhaseRuns

/-! An admission: what its start has made sure of and what its request must be, what any crash
keeps, and what each phase does to the store. -/
namespace AgentStack.Runtime

open AgentStack.Core FileTree Crash Reconcile

/-- How far the approval proof of an admission is spent. -/
inductive ProofStage
  | absent
  | reserved
  | consumed
  deriving DecidableEq, Repr

variable {host : Host} {L : Layout} {header : AdmissionHeader} {v₀ v v' : View} {s c : FS}

/-- The ledger at a stage, from the one the admission found. -/
def ProofStage.ledger (header : AdmissionHeader) (transactionId : String) (base : ReplayLedger) :
    ProofStage → ReplayLedger
  | .absent => base
  | .reserved => { base with
      entries := putEntry base.entries header.proof.proofKey (header.reservation transactionId) }
  | .consumed => { base with
      entries := putEntry (putEntry base.entries header.proof.proofKey
        (header.reservation transactionId)) header.proof.proofKey
        (header.tombstone transactionId) }

def ProofStage.entry (header : AdmissionHeader) (transactionId : String) :
    ProofStage → Option ReplayEntry
  | .absent => none
  | .reserved => some (header.reservation transactionId)
  | .consumed => some (header.tombstone transactionId)

theorem ProofStage.lookup {transactionId : String} {base : ReplayLedger}
    (h : base.entries.lookup header.proof.proofKey = none) (stage : ProofStage) :
    (stage.ledger header transactionId base).entries.lookup header.proof.proofKey =
      stage.entry header transactionId := by
  cases stage with
  | absent => exact h
  | reserved => simp [ProofStage.ledger, ProofStage.entry, lookup_putEntry]
  | consumed => simp [ProofStage.ledger, ProofStage.entry, lookup_putEntry]

def AdmissionHeader.tree (header : AdmissionHeader) : Path := segments header.taskRef

/-- The whole tree the admission stages. -/
def AdmissionHeader.staged (host : Host) (header : AdmissionHeader) : Subtree :=
  taskTree host header.taskFiles header.admittingIntegration

def AdmissionHeader.effects (header : AdmissionHeader) (transactionId : String) : EffectContext :=
  ⟨"task-admit", header.taskId, transactionId, header.admittedAt⟩

/-- What `admit_task` has made sure of when the planned journal is in place, and what it takes
for granted of the machine: the hash separates the two integrations. -/
structure AdmissionStart (host : Host) (L : Layout) (header : AdmissionHeader) (v : View) :
    Prop where
  operation : v.journal.operation = .admission
  immutableHeader : v.journal.immutableHeader = .admission header
  planned : v.journal.phase = .planned
  outcome : v.journal.outcome = none
  taskRef : L.taskRef = header.taskRef
  quiet : v.residue = false
  proof : header.ProofValid host
  registered : v.Registered header
  fresh : v.entry header.proof.proofKey = none
  window : header.proof.validatedAt ≤ header.admittedAt ∧
    header.admittedAt ≤ header.proof.proofExpiresAt
  unstaged : v.staging = noTree
  place : header.tree ∈ L.places
  absent : v.place header.tree = noTree
  files : ∀ item ∈ header.taskFiles, item.Valid host
  separate : host.hashBytes (.integration header.admittingIntegration) ≠
    host.hashBytes (.integration header.activeIntegration)
  admitting : ∃ x, validateIntegration host header.admittingIntegration = .ok x
  active : ∃ x, validateIntegration host header.activeIntegration = .ok x
  uncommitted : header.admittingIntegration.lifecycle.status = .admitting
  committed : header.activeIntegration.lifecycle.status = .active ∧
    header.activeIntegration.lifecycle.stateRevision = 2
  context : (header.effects L.transactionId).Valid

/-- An admission whose request can be carried out. Nothing looks at this beforehand: each metadata
mutation has a path of its own among the places of the layout, apart from the task tree and the
control files, states that are plain and have their bytes, and begins at its original; the effects
can be enqueued. -/
structure Admission (host : Host) (L : Layout) (header : AdmissionHeader) (v : View) : Prop
    extends AdmissionStart host L header v where
  mutations : Mutable host L (v.reach header.tree) header.metadataMutations
  outside : header.tree ∉ header.metadataMutations.map mutationPath
  original : AllOriginal host v.place header.metadataMutations
  effects : ∀ e ∈ header.outboxEffects, e.Valid
  distinct : (header.effects L.transactionId).Separate host header.outboxEffects
  free : ∀ e ∈ header.outboxEffects,
    v.outbox ((header.effects L.transactionId).itemName host e) = none

/-- What every crash of an admission or of its recovery leaves true. -/
structure AdmissionView (host : Host) (L : Layout) (header : AdmissionHeader) (v₀ v : View) :
    Prop where
  journal : v.journal = { v₀.journal with phase := v.journal.phase, outcome := v.journal.outcome }
  ledger : ∃ stage : ProofStage, v.ledger = stage.ledger header L.transactionId v₀.ledger
  staging : v.staging = noTree ∨ ∃ t, v.staging = stagingOf host t ∧ DirOrNone t ∧
    (t [integrationName] = none ∨
      t [integrationName] = some (integrationNode header.admittingIntegration))
  tree : DirOrNone (v.place header.tree)
  integration : v.place header.tree [integrationName] = none ∨
    v.place header.tree [integrationName] = some (integrationNode header.admittingIntegration) ∨
    v.place header.tree [integrationName] = some (integrationNode header.activeIntegration)
  metadata : Mixed host v.place header.metadataMutations
  outbox : (header.effects L.transactionId).PartQueued host header.outboxEffects v₀.outbox v.outbox
  known : ∀ p, v₀.reached p → v.reached p
  reached : (v.place header.tree ≠ noTree ∨ v.journal.phase ∉ [.planned, .staged]) →
    ∀ m ∈ header.metadataMutations, v.reached (mutationPath m)

theorem Admission.start (A : Admission host L header v₀) :
    AdmissionView host L header v₀ v₀ where
  journal := rfl
  ledger := ⟨.absent, rfl⟩
  staging := .inl A.unstaged
  tree := .inl (by rw [A.absent]; rfl)
  integration := .inl (by rw [A.absent]; rfl)
  metadata := fun m hm => .inl (A.original m hm)
  outbox := .refl _ _
  known _ h := h
  reached h := by simp [A.absent, A.planned] at h

section Operations

variable (A : Admission host L header v₀) (I : AdmissionView host L header v₀ v)

include A in
theorem Admission.reserve_spec (h : Shows host L v s) {stage : ProofStage}
    (hl : v.ledger = stage.ledger header L.transactionId v₀.ledger) (hs : stage ≠ .consumed)
    (recovery : Bool) :
    Triple (· = s) (reserveFromHeader host L.transactionId header recovery)
      (Returns fun _ => Shows host L
        { v with ledger := ProofStage.reserved.ledger header L.transactionId v₀.ledger })
      fun c => Shows host L v c ∨ Shows host L
        { v with ledger := ProofStage.reserved.ledger header L.transactionId v₀.ledger } c := by
  have hr : v.Registered header := by
    unfold View.Registered
    rw [hl]
    cases stage <;> exact A.registered
  have hentry : v.entry header.proof.proofKey = stage.entry header L.transactionId := by
    rw [View.entry, hl, ProofStage.lookup A.fresh]
  cases stage with
  | absent =>
    have hv : v.withEntry header.proof.proofKey (header.reservation L.transactionId) =
        { v with ledger := ProofStage.reserved.ledger header L.transactionId v₀.ledger } := by
      rw [View.withEntry, hl]
      rfl
    have := @reserve_new _ _ _ _ _ h A.proof hr recovery hentry (.inr A.window)
    rwa [hv] at this
  | reserved =>
    rintro s rfl
    have hrun := @reserve_again _ _ _ _ _ h A.proof hr recovery hentry
    unfold Program.out Program.final
    rw [hrun]
    refine ⟨by simp, (), rfl, ?_⟩
    rw [← hl]
    exact h
  | consumed => exact absurd rfl hs

include A in
theorem Admission.reserve_consumed (h : Shows host L v s)
    (hl : v.ledger = ProofStage.consumed.ledger header L.transactionId v₀.ledger)
    (recovery : Bool) :
    ∃ e, (reserveFromHeader host L.transactionId header recovery).run s = ⟨[], .error e⟩ := by
  have hr : v.Registered header := by
    unfold View.Registered
    rw [hl]
    exact A.registered
  refine reserve_blocked (e := header.tombstone L.transactionId) h A.proof hr ?_ ?_
  · rw [View.entry, hl, ProofStage.lookup A.fresh]
    rfl
  · simp [AdmissionHeader.tombstone, AdmissionHeader.reservation]

include A in
theorem Admission.consume_spec (h : Shows host L v s) {stage : ProofStage}
    (hl : v.ledger = stage.ledger header L.transactionId v₀.ledger) (hs : stage ≠ .absent) :
    Triple (· = s) (consumeFromHeader host L.transactionId header)
      (Returns fun _ => Shows host L
        { v with ledger := ProofStage.consumed.ledger header L.transactionId v₀.ledger })
      fun c => Shows host L v c ∨ Shows host L
        { v with ledger := ProofStage.consumed.ledger header L.transactionId v₀.ledger } c := by
  have hentry : v.entry header.proof.proofKey = stage.entry header L.transactionId := by
    rw [View.entry, hl, ProofStage.lookup A.fresh]
  cases stage with
  | absent => exact absurd rfl hs
  | reserved =>
    have hv : v.withEntry header.proof.proofKey (header.tombstone L.transactionId) =
        { v with ledger := ProofStage.consumed.ledger header L.transactionId v₀.ledger } := by
      rw [View.withEntry, hl]
      rfl
    have := consume_reserved h A.proof hentry
    rwa [hv] at this
  | consumed =>
    rintro s rfl
    have hrun := consume_again h A.proof hentry
    unfold Program.out Program.final
    rw [hrun]
    refine ⟨by simp, (), rfl, ?_⟩
    rw [← hl]
    exact h

theorem Mutable.mono {ms : List MetadataMutation} (h : Mutable host L v ms)
    (hr : ∀ m ∈ ms, v'.reached (mutationPath m)) : Mutable host L v' ms :=
  ⟨h.valid, h.places, h.distinct, hr⟩

theorem staging_task_none {t : Subtree} (h : Shows host L v s) (hst : v.staging = stagingOf host t)
    (ht : t [] = none) : t = noTree := by
  funext r
  have hstg : StagingShows L.transactionId (stagingOf host t) s := hst ▸ h.staging
  have := (h.staging.closed.below ["task"]).absent (r := [])
    (by simpa [stagingTask] using (hstg.task []).trans ht) r
  rw [List.append_nil] at this
  exact (hstg.task r).symm.trans this

end Operations

/-- The staging area once staging is done or skipped. -/
def View.stagedArea (host : Host) (header : AdmissionHeader) (v : View) : Subtree :=
  if (v.staging ["task"]).isSome then v.staging else stagingOf host (header.staged host)

/-- The store when the tree `t` has been moved out of the staging area. -/
def View.arrived (host : Host) (header : AdmissionHeader) (v : View) (t : Subtree) : View :=
  ((v.reach header.tree).setPlace header.tree t).setStaging (stagingOf host noTree)

def View.atPhase (v : View) (phase : Phase) : View :=
  { v with journal := v.journal.advanced phase none }

/-- An admission one phase on. -/
inductive AdmissionNext (host : Host) (L : Layout) (header : AdmissionHeader) (v₀ v : View) :
    View → Prop
  | staged (phase : v.journal.phase = .planned)
    (free : v.staging ["task"] = none → FreeAll host (bareTree host) header.taskFiles) :
    AdmissionNext host L header v₀ v (View.atPhase
      { v with
        ledger := ProofStage.reserved.ledger header L.transactionId v₀.ledger
        staging := v.stagedArea host header } .staged)
  | moved {t : Subtree} {m : FileTree.Mode} (phase : v.journal.phase = .staged)
    (absent : v.place header.tree = noTree) (staging : v.staging = stagingOf host t)
    (dir : t [] = some (.dir m)) :
    AdmissionNext host L header v₀ v ((v.arrived host header t).atPhase .taskMoved)
  | stands (phase : v.journal.phase = .staged) (present : v.place header.tree ≠ noTree) :
    AdmissionNext host L header v₀ v (v.atPhase .taskMoved)
  | applied {g : Path → Subtree} (phase : v.journal.phase = .taskMoved)
    (off : OffMetadata header.metadataMutations v.place g)
    (candidate : AllCandidate host g header.metadataMutations) :
    AdmissionNext host L header v₀ v (View.atPhase { v with place := g } .metadataApplied)
  | activated (phase : v.journal.phase = .metadataApplied)
    (integration : v.place header.tree [integrationName] ≠ none) :
    AdmissionNext host L header v₀ v ((v.setPlace header.tree
      (withIntegration (v.place header.tree) header.activeIntegration)).atPhase
        .admissionCommitted)
  | pending (phase : v.journal.phase = .admissionCommitted) :
    AdmissionNext host L header v₀ v (v.atPhase .cleanupPending)
  | complete (phase : v.journal.phase = .cleanupPending) :
    AdmissionNext host L header v₀ v
      { v with
        journal := v.journal.advanced .complete (some .committed)
        ledger := ProofStage.consumed.ledger header L.transactionId v₀.ledger
        staging := noTree
        outbox := (header.effects L.transactionId).queued host header.outboxEffects v₀.outbox }

/-- An admission cut short inside a phase, or one phase on. -/
inductive AdmissionCut (host : Host) (L : Layout) (header : AdmissionHeader) (v₀ v : View) :
    View → Prop
  | same : AdmissionCut host L header v₀ v v
  | next {v' : View} (h : AdmissionNext host L header v₀ v v') : AdmissionCut host L header v₀ v v'
  | staging {f : Subtree} (phase : v.journal.phase = .planned)
    (area : f = v.staging ∨ v.staging ["task"] = none ∧
      (Unstaged host f ∨ Staged host header f)) :
    AdmissionCut host L header v₀ v { v with
      ledger := ProofStage.reserved.ledger header L.transactionId v₀.ledger
      staging := f }
  | arrived {t : Subtree} {m : FileTree.Mode} (phase : v.journal.phase = .staged)
    (absent : v.place header.tree = noTree) (staging : v.staging = stagingOf host t)
    (dir : t [] = some (.dir m)) : AdmissionCut host L header v₀ v (v.arrived host header t)
  | applying {g : Path → Subtree} (phase : v.journal.phase = .taskMoved)
    (off : OffMetadata header.metadataMutations v.place g)
    (mixed : Mixed host g header.metadataMutations) :
    AdmissionCut host L header v₀ v { v with place := g }
  | littered {x : String} {n : Node Content} (phase : v.journal.phase = .metadataApplied)
    (integration : v.place header.tree [integrationName] =
      some (integrationNode header.admittingIntegration)) (reserved : Reserved x)
    (absent : v.place header.tree [x] = none) :
    AdmissionCut host L header v₀ v (v.setPlace header.tree
      (Function.update (v.place header.tree) [x] (some n)))
  | activated (phase : v.journal.phase = .metadataApplied)
    (integration : v.place header.tree [integrationName] ≠ none) :
    AdmissionCut host L header v₀ v (v.setPlace header.tree
      (withIntegration (v.place header.tree) header.activeIntegration))
  | cleaning {items : Items} {f : Subtree} (phase : v.journal.phase = .cleanupPending)
    (outbox : (header.effects L.transactionId).PartQueued host header.outboxEffects v₀.outbox
      items) (thinned : Thinned v.staging f) :
    AdmissionCut host L header v₀ v { v with
      ledger := ProofStage.consumed.ledger header L.transactionId v₀.ledger
      outbox := items
      staging := f }

theorem canAdvance_admission {j : TaskJournal} {phase : Phase} {outcome : Option Outcome}
    (ho : j.operation = .admission) {n k : Nat} (hn : phaseOrder .admission phase = some n)
    (hk : phaseOrder .admission j.phase = some k) (hle : k ≤ n)
    (hc : phase = .complete → outcome.isSome) : j.CanAdvance phase outcome :=
  ⟨n, k, by rw [ho, hn], by rw [ho, hk], hle, hc⟩

/-- What keeps a phase from being left. -/
inductive AdmissionStuck (host : Host) (L : Layout) (header : AdmissionHeader) (v₀ v : View) :
    Prop
  | consumed (phase : v.journal.phase = .planned)
    (ledger : v.ledger = ProofStage.consumed.ledger header L.transactionId v₀.ledger)
  | nested (phase : v.journal.phase = .planned) (files : ¬ Unnested header.taskFiles)
  | missing (phase : v.journal.phase = .staged) (absent : v.place header.tree = noTree)
    (task : v.staging ["task"] = none)
  | bare (phase : v.journal.phase = .metadataApplied)
    (integration : v.place header.tree [integrationName] = none)
  | unreserved (phase : v.journal.phase = .cleanupPending) (ledger : v.ledger = v₀.ledger)

/-- Where a phase ends that cannot be left. -/
def Sticks (host : Host) (L : Layout) (header : AdmissionHeader) (v₀ v : View) (t : FS) : Prop :=
  AdmissionStuck host L header v₀ v ∧ Leaves host L (AdmissionCut host L header v₀ v) t

/-- What is proved of each phase: it leads to the next, or sticks. -/
def Refines (host : Host) (L : Layout) (header : AdmissionHeader) (v₀ v : View)
    (p : Prog TaskJournal) (s : FS) : Prop :=
  Triple (· = s) p (Ends (Arrives host L (AdmissionNext host L header v₀ v))
    (Sticks host L header v₀ v)) (Leaves host L (AdmissionCut host L header v₀ v))

section Phases

variable (A : Admission host L header v₀) (I : AdmissionView host L header v₀ v)
  (h : Shows host L v s)

include A I in
theorem AdmissionView.operation : v.journal.operation = .admission := by
  rw [I.journal]
  exact A.operation

include A I h

theorem Admission.planned_refines (hp : v.journal.phase = .planned) (recovery : Bool) :
    Refines host L header v₀ v (admissionStep host header recovery v.journal) s := by
  have hid : v.journal.transactionId = L.transactionId := h.journals.transactionId_eq
  obtain ⟨stage, hl⟩ := I.ledger
  have hsame : Leaves host L (AdmissionCut host L header v₀ v) s := .of_shows h .same
  unfold Refines admissionStep
  simp only [hp, hid]
  by_cases hs : stage = .consumed
  · obtain ⟨e, he⟩ := A.reserve_consumed h (hs ▸ hl) recovery
    exact Triple.bind_raised he ⟨.consumed hp (hs ▸ hl), hsame⟩
  -- the proof is reserved, whether it was before or not
  set w : View := { v with
    ledger := ProofStage.reserved.ledger header L.transactionId v₀.ledger } with hw
  have hcut : AdmissionCut host L header v₀ v w := .staging hp (.inl rfl)
  refine ((A.reserve_spec h hl hs recovery).crash ?_).ends.bind_ends fun _ =>
    Triple.of_forall fun t ht => ?_
  · rintro c (hc | hc)
    · exact .of_shows hc .same
    · exact .of_shows hc hcut
  -- the tree is staged, unless one is there
  have hend : ∀ {f : Subtree} {u : FS}, f = v.stagedArea host header →
      (v.staging ["task"] = none → FreeAll host (bareTree host) header.taskFiles) →
      Shows host L (w.setStaging f) u →
      Triple (· = u) (advanceTaskJournal host v.journal .staged none)
        (Ends (Arrives host L (AdmissionNext host L header v₀ v)) (Sticks host L header v₀ v))
        (Leaves host L (AdmissionCut host L header v₀ v)) := by
    rintro f u rfl hfree hu
    refine advance_arrives hu rfl (canAdvance_admission (I.operation A) rfl (by rw [hp]; rfl)
      (Nat.zero_le 1) (by simp)) (.staging hp ?_) (.staged hp hfree) fun _ h => .next h
    by_cases hn : (v.staging ["task"]).isSome
    · exact .inl (if_pos hn)
    · have hnone : v.staging ["task"] = none := by simpa using hn
      exact .inr ⟨hnone, .inr ⟨if_neg hn, hfree hnone⟩⟩
  by_cases hn : (v.staging ["task"]).isSome
  · have hrun : (stageFromHeader host L.transactionId header).run t = ⟨[], .ok ()⟩ := by
      rcases I.staging with hno | ⟨f, hf, hdir, -⟩
      · rw [hno] at hn
        cases hn
      · rw [hf, stagingOf_task] at hn
        obtain ⟨m, hm⟩ := hdir.resolve_left fun hnone => by simp [hnone] at hn
        exact stageFromHeader_present ht hf hm
    refine Triple.bind_run hrun (hend (if_pos hn).symm (fun hnone => ?_) ?_)
    · rw [hnone] at hn
      cases hn
    · exact ht
  · have hst : w.staging = noTree ∨ w.staging = stagingOf host noTree := by
      rcases I.staging with hno | ⟨f, hf, -, -⟩
      · exact .inl hno
      · refine .inr (hf.trans ?_)
        rw [staging_task_none h hf (by simpa [hf] using hn)]
    have hnone : v.staging ["task"] = none := by simpa using hn
    have hstage : Triple (· = t) (stageFromHeader host L.transactionId header) (Ends
        (fun _ u => FreeAll host (bareTree host) header.taskFiles ∧
          Shows host L (w.setStaging (stagingOf host (header.staged host))) u)
        (Sticks host L header v₀ v)) (Leaves host L (AdmissionCut host L header v₀ v)) := by
      refine (stageFromHeader_spec ht hst A.files).weaken (fun _ h => h) ?_ fun c ⟨f, hf, hc⟩ =>
        .of_shows hc (.staging hp (.inr ⟨hnone, hf⟩))
      rintro (e | a) u ⟨f, hf, hu, hok, hfit⟩
      · refine ⟨.nested hp fun hun => ?_, .of_shows hu (.staging hp (.inr ⟨hnone, hf⟩))⟩
        have := hfit hun
        cases this
      · obtain ⟨rfl, hfree⟩ := hok rfl
        exact ⟨hfree, hu⟩
    exact hstage.bind_ends fun _ => Triple.of_forall fun u hu =>
      hend (if_neg hn).symm (fun _ => hu.1) hu.2

theorem Admission.staged_refines (hp : v.journal.phase = .staged) (recovery : Bool) :
    Refines host L header v₀ v (admissionStep host header recovery v.journal) s := by
  have hid : v.journal.transactionId = L.transactionId := h.journals.transactionId_eq
  have href : v.journal.taskRef = header.taskRef := by
    have := (validateJournal_ok.mp h.journals.valid).2.2.2.2.2.1
    rw [this, I.journal]
    simp [A.immutableHeader, Header.taskRef]
  have hcan : v.journal.CanAdvance .taskMoved none :=
    canAdvance_admission (I.operation A) rfl (by rw [hp]; rfl) (Nat.le_succ 1) (by simp)
  unfold Refines admissionStep
  simp only [hp, hid, href]
  by_cases hno : v.place header.tree = noTree
  · rcases htask : v.staging ["task"] with _ | n
    · obtain ⟨e, he⟩ := moveStagedTask_missing h A.place hno htask
      exact Triple.bind_raised he ⟨.missing hp hno htask, .of_shows h .same⟩
    · obtain ⟨f, hf, hdir⟩ : ∃ f, v.staging = stagingOf host f ∧ DirOrNone f := by
        rcases I.staging with hn | ⟨f, hf, hdir, -⟩
        · rw [hn] at htask
          cases htask
        · exact ⟨f, hf, hdir⟩
      rw [hf, stagingOf_task] at htask
      obtain ⟨m, hm⟩ := hdir.resolve_left fun hnone => by rw [hnone] at htask; cases htask
      have hcut : AdmissionCut host L header v₀ v (v.arrived host header f) := .arrived hp hno hf hm
      have hmove : Triple (· = s) (moveStagedTask host L.transactionId header.taskRef)
          (Returns fun _ => Shows host L (v.arrived host header f))
          fun c => Shows host L v c ∨ Shows host L (v.arrived host header f) c :=
        moveStagedTask_spec h A.place hno hf hm
      refine (hmove.crash ?_).ends.bind_ends fun _ => Triple.of_forall fun t ht => ?_
      · rintro c (hc | hc)
        · exact .of_shows hc .same
        · exact .of_shows hc hcut
      · exact advance_arrives ht rfl hcan hcut (.moved hp hno hf hm) fun _ h => .next h
  · refine Triple.bind_run (moveStagedTask_present h A.place I.tree hno) ?_
    exact advance_arrives h rfl hcan .same (.stands hp hno) fun _ h => .next h

theorem Admission.taskMoved_refines (hp : v.journal.phase = .taskMoved) (recovery : Bool) :
    Refines host L header v₀ v (admissionStep host header recovery v.journal) s := by
  have hmut : Mutable host L v header.metadataMutations :=
    A.mutations.mono (I.reached (.inr (by simp [hp])))
  unfold Refines admissionStep
  simp only [hp]
  refine ((applyMetadata_spec h hmut I.metadata).crash ?_).ends.bind_ends fun _ =>
    Triple.of_forall fun t ⟨g, ht, hoff, hall⟩ => ?_
  · rintro c ⟨g, hc, hoff, hmix⟩
    exact .of_shows hc (.applying hp hoff hmix)
  · exact advance_arrives ht rfl (canAdvance_admission (I.operation A) rfl (by rw [hp]; rfl)
      (Nat.le_succ 2) (by simp)) (.applying hp hoff fun m hm => .inr (hall m hm))
      (.applied hp hoff hall) fun _ h => .next h

theorem Admission.metadataApplied_refines (hp : v.journal.phase = .metadataApplied)
    (recovery : Bool) :
    Refines host L header v₀ v (admissionStep host header recovery v.journal) s := by
  have href : v.journal.taskRef = header.taskRef := by
    have := (validateJournal_ok.mp h.journals.valid).2.2.2.2.2.1
    rw [this, I.journal]
    simp [A.immutableHeader, Header.taskRef]
  have hcan : v.journal.CanAdvance .admissionCommitted none :=
    canAdvance_admission (I.operation A) rfl (by rw [hp]; rfl) (Nat.le_succ 3) (by simp)
  have hne : integrationState host header.taskRef header.admittingIntegration ≠
      integrationState host header.taskRef header.activeIntegration := by
    simpa [integrationState, regularState] using A.separate
  unfold Refines admissionStep
  simp only [hp, href]
  rcases I.integration with hi | hi | hi
  · have habsent : ∀ i, integrationOf host (segments header.taskRef)
        (v.place (segments header.taskRef)) ≠ .ok (integrationState host header.taskRef i) := by
      intro i
      have hi : v.place (segments header.taskRef) [integrationName] = none := hi
      rw [integrationOf, hi]
      simp [describe, absentState, integrationState, regularState]
    obtain ⟨e, he⟩ := casIntegration_error h A.place I.tree (habsent _) (habsent _)
    exact Triple.bind_raised he ⟨.bare hp hi, .of_shows h .same⟩
  · have hset : v.place header.tree [integrationName] ≠ none := by
      rw [hi]
      simp
    have hcas := casIntegration_spec h A.place I.tree (integrationOf_node hi) hne
    refine (hcas.crash ?_).ends.bind_ends fun _ => Triple.of_forall fun t ht => ?_
    · rintro c (hc | ⟨x, n, hx, hn, hc⟩)
      · exact .of_shows hc (.activated hp hset)
      · exact .of_shows hc (.littered hp hi hx hn)
    · exact advance_arrives ht rfl hcan (.activated hp hset) (.activated hp hset) fun _ h => .next h
  · have hset : v.place header.tree [integrationName] ≠ none := by
      rw [hi]
      simp
    have hv : v.setPlace header.tree (withIntegration (v.place header.tree)
        header.activeIntegration) = v := by
      rw [withIntegration, ← hi, Function.update_eq_self, View.setPlace_eq_self]
    refine Triple.bind_run (casIntegration_done h A.place I.tree (integrationOf_node hi)) ?_
    refine advance_arrives h rfl hcan .same ?_ fun _ h => .next h
    have hnext : AdmissionNext host L header v₀ v _ := .activated hp hset
    rwa [hv] at hnext

theorem Admission.admissionCommitted_refines (hp : v.journal.phase = .admissionCommitted)
    (recovery : Bool) :
    Refines host L header v₀ v (admissionStep host header recovery v.journal) s := by
  unfold Refines admissionStep
  simp only [hp]
  exact advance_arrives h rfl (canAdvance_admission (I.operation A) rfl (by rw [hp]; rfl)
    (Nat.le_succ 4) (by simp)) .same (.pending hp) fun _ h => .next h

theorem Admission.cleanupPending_refines (hp : v.journal.phase = .cleanupPending)
    (recovery : Bool) :
    Refines host L header v₀ v (admissionStep host header recovery v.journal) s := by
  have hid : v.journal.transactionId = L.transactionId := h.journals.transactionId_eq
  have hdir : DirOrNone v.staging := by
    rcases I.staging with hn | ⟨f, hf, -⟩
    · exact .inl (by rw [hn]; rfl)
    · exact .inr ⟨_, by rw [hf]; rfl⟩
  obtain ⟨stage, hl⟩ := I.ledger
  unfold Refines admissionStep
  simp only [hp, hid]
  by_cases hs : stage = .absent
  · have hnone : v.entry header.proof.proofKey = none := by
      rw [View.entry, hl, ProofStage.lookup A.fresh, hs]
      rfl
    obtain ⟨e, he⟩ := consume_missing h A.proof hnone
    exact Triple.bind_raised he ⟨.unreserved hp (by rw [hl, hs]; rfl), .of_shows h .same⟩
  -- consumed, queued, cleared: each from any part of the way
  refine ((A.consume_spec h hl hs).crash ?_).ends.bind_ends fun _ =>
    Triple.of_forall fun t ht => ?_
  · rintro c (hc | hc)
    · exact .of_shows hc .same
    · exact .of_shows hc (.cleaning hp I.outbox h.staging.thinned)
  have hqueue := enqueueHeaderEffects_spec (x := header.effects L.transactionId) ht A.context
    A.effects A.distinct A.free I.outbox
  refine (hqueue.crash ?_).ends.bind_ends fun _ => Triple.of_forall fun u hu => ?_
  · rintro c ⟨items, hpart, hc⟩
    exact .of_shows hc (.cleaning hp hpart h.staging.thinned)
  have hall : (header.effects L.transactionId).PartQueued host header.outboxEffects v₀.outbox
      ((header.effects L.transactionId).queued host header.outboxEffects v₀.outbox) :=
    fun _ => .inr rfl
  refine ((removeStaging_spec hu hdir).crash ?_).ends.bind_ends fun _ =>
    Triple.of_forall fun w hw => ?_
  · rintro c ⟨f, hf, hc⟩
    exact .of_shows hc (.cleaning hp hall hf)
  · exact advance_arrives hw rfl (canAdvance_admission (I.operation A) rfl (by rw [hp]; rfl)
      (Nat.le_succ 5) (by simp))
      (.cleaning hp hall .gone) (.complete hp)
      fun _ h => .next h

end Phases

end AgentStack.Runtime
