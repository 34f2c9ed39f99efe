import AgentStack.Runtime.TaskRequests

/-! What each request may do to the integration document. -/
namespace AgentStack.Runtime

open AgentStack.Core FileTree Crash Reconcile

def ModeState.phase : ModeState → Option HeavyPhase
  | .trellisNative _ => none
  | .speckitSuperpowers heavy => some heavy.phase

def ModeState.claim : ModeState → Option ExecutorClaim
  | .trellisNative _ => none
  | .speckitSuperpowers heavy => heavy.executorClaim

def ModeState.flags : ModeState → Option (List (String × Bool))
  | .trellisNative _ => none
  | .speckitSuperpowers heavy => some heavy.completionFlags

def Integration.revision (d : Integration) : Int := d.lifecycle.stateRevision

def Integration.claim (d : Integration) : Option ExecutorClaim := d.modeState.claim

def Integration.Valid (host : Host) (d : Integration) : Prop :=
  ∃ v, validateIntegration host d = .ok v

/-- What no request changes. -/
structure SameTask (d d' : Integration) : Prop where
  admission : d'.admission = d.admission
  workflow : d'.workflowContract = d.workflowContract
  mode : d'.modeState.mode = d.modeState.mode

theorem SameTask.refl (d : Integration) : SameTask d d := ⟨rfl, rfl, rfl⟩

theorem SameTask.trans {d e f : Integration} (h : SameTask d e) (h' : SameTask e f) :
    SameTask d f :=
  ⟨h'.admission.trans h.admission, h'.workflow.trans h.workflow, h'.mode.trans h.mode⟩

variable {host : Host} {d d' : Integration} {v : VerifiedIntegration}

theorem validateLifecycle_eq_ok {l : Lifecycle} {r : LifecycleStatus × Int}
    (h : validateLifecycle l = .ok r) : r = (l.status, l.stateRevision) := by
  obtain ⟨_, -, h⟩ := bind_eq_ok h
  dsimp only at h
  split_ifs at h <;> first
    | exact (Except.ok.inj h).symm
    | exact (Except.ok.inj (bind_eq_ok h).choose_spec.2).symm
    | exact absurd h (by simp)

theorem validateAdmission_eq_ok {a : AdmissionRecord} {r : String × String}
    (h : validateAdmission host a = .ok r) : r.1 = a.taskId := by
  simp only [validateAdmission] at h
  split_ifs at h
  iterate 16 obtain ⟨_, -, h⟩ := bind_eq_ok h
  rw [← Except.ok.inj h]

theorem validateHeavyBranch_eq_ok {heavy : HeavyState} {revision : Int}
    {r : HeavyPhase × Option ExecutorClaim} (h : validateHeavyBranch heavy revision = .ok r) :
    r = (heavy.phase, heavy.executorClaim) ∧
      (heavy.executorClaim ≠ none → heavy.phase = .implementing) := by
  simp only [validateHeavyBranch] at h
  split_ifs at h
  obtain ⟨_, -, h⟩ := bind_eq_ok h
  cases hc : heavy.executorClaim with
  | none =>
    rw [hc] at h
    exact ⟨(Except.ok.inj h).symm, fun h => absurd rfl h⟩
  | some claim =>
    rw [hc] at h
    obtain ⟨_, hclaim, h⟩ := bind_eq_ok h
    refine ⟨(Except.ok.inj h).symm, fun _ => ?_⟩
    by_contra hphase
    simp [validateClaim, hphase] at hclaim

/-- What validation reads off a document. -/
structure Reads (d : Integration) (v : VerifiedIntegration) : Prop where
  taskId : v.taskId = d.admission.taskId
  status : v.lifecycleStatus = d.lifecycle.status
  revision : v.stateRevision = d.revision
  phase : v.phase = d.modeState.phase
  claim : v.executorClaim = d.claim
  legal : d.claim ≠ none → d.modeState.phase = some .implementing

theorem validateIntegration_reads (h : validateIntegration host d = .ok v) : Reads d v := by
  obtain ⟨surfaces, -, h⟩ := bind_eq_ok h
  obtain ⟨⟨status, revision⟩, hl, h⟩ := bind_eq_ok h
  obtain ⟨⟨taskId, taskRef⟩, ha, h⟩ := bind_eq_ok h
  have hlife := validateLifecycle_eq_ok hl
  have hid := validateAdmission_eq_ok ha
  simp only [Prod.mk.injEq] at hlife hid
  obtain ⟨rfl, rfl⟩ := hlife
  subst hid
  cases hm : d.modeState with
  | trellisNative ref =>
    rw [hm] at h
    obtain ⟨_, -, h⟩ := bind_eq_ok h
    split_ifs at h
    rw [← Except.ok.inj h]
    constructor <;> simp [ModeState.phase, ModeState.claim, Integration.claim,
      Integration.revision, hm]
  | speckitSuperpowers heavy =>
    rw [hm] at h
    obtain ⟨⟨phase, claim⟩, hb, h⟩ := bind_eq_ok h
    obtain ⟨hpair, hlegal⟩ := validateHeavyBranch_eq_ok hb
    simp only [Prod.mk.injEq] at hpair
    obtain ⟨rfl, rfl⟩ := hpair
    rw [← Except.ok.inj h]
    constructor <;> simp only [ModeState.phase, ModeState.claim, Integration.claim,
      Integration.revision, hm]
    intro hc
    rw [hlegal hc]

theorem validated_eq_ok (h : validated host d = .ok d') : d' = d ∧ d.Valid host := by
  obtain ⟨v, hv, hd⟩ := bind_eq_ok h
  exact ⟨(Except.ok.inj hd).symm, v, hv⟩

theorem Integration.Valid.revision_pos (h : d.Valid host) : 1 ≤ d.revision := by
  obtain ⟨v, hv⟩ := h
  obtain ⟨surfaces, -, hv⟩ := bind_eq_ok hv
  obtain ⟨r, hl, -⟩ := bind_eq_ok hv
  obtain ⟨_, hpos, -⟩ := bind_eq_ok hl
  by_contra hlt
  simp only [Integration.revision, not_le] at hlt
  simp [requirePositive, hlt] at hpos

/-! ### What the requests do -/

/-- A request raised the revision and nothing of the task's identity. -/
structure Exchanged (host : Host) (raise : Int) (d d' : Integration) : Prop where
  valid : d'.Valid host
  same : SameTask d d'
  revision : d'.revision = d.revision + raise

theorem claimAfter_eq_ok {request : TaskClaimRequest} (hv : Reads d v)
    (h : claimAfter host request d v = .ok d') :
    Exchanged host 1 d d' ∧ d.claim = none ∧ d.modeState.phase = some .implementing ∧
      d'.lifecycle.status = d.lifecycle.status := by
  unfold claimAfter at h
  cases hm : d.modeState with
  | trellisNative ref =>
    rw [hm] at h
    cases h
  | speckitSuperpowers heavy =>
    rw [hm] at h
    simp only at h
    split_ifs at h with hphase hclaim
    obtain ⟨_, -, h⟩ := bind_eq_ok h
    obtain ⟨rfl, hvalid⟩ := validated_eq_ok h
    have hnone : d.claim = none := by
      rw [← hv.claim]
      simpa using hclaim
    refine ⟨⟨hvalid, ⟨rfl, rfl, ?_⟩, ?_⟩, hnone, ?_, rfl⟩
    · simp [ModeState.mode, hm]
    · simp [Integration.revision, hv.revision]
    · rw [← hm, ← hv.phase]
      exact not_not.mp hphase

/-- Afterwards somebody holds the claim. -/
theorem claimAfter_claim {request : TaskClaimRequest} (h : claimAfter host request d v = .ok d') :
    d'.claim ≠ none := by
  unfold claimAfter at h
  cases hm : d.modeState with
  | trellisNative ref =>
    rw [hm] at h
    cases h
  | speckitSuperpowers heavy =>
    rw [hm] at h
    simp only at h
    split_ifs at h
    obtain ⟨_, -, h⟩ := bind_eq_ok h
    obtain ⟨rfl, -⟩ := validated_eq_ok h
    simp [Integration.claim, ModeState.claim]

theorem releaseAfter_eq_ok {request : TaskReleaseRequest} (hv : Reads d v)
    (h : releaseAfter host request d v = .ok d') :
    Exchanged host 1 d d' ∧ d'.lifecycle.status = d.lifecycle.status ∧ d'.claim = none ∧
      d'.modeState.flags = d.modeState.flags ∧ ∃ claim, d.claim = some claim ∧
      claim.claimId = request.claimId ∧ claim.actor = request.actor := by
  unfold releaseAfter at h
  split at h
  · rename_i claim heavy hclaim hm
    split_ifs at h with hid
    obtain ⟨rfl, hvalid⟩ := validated_eq_ok h
    push Not at hid
    refine ⟨⟨hvalid, ⟨rfl, rfl, ?_⟩, ?_⟩, rfl, rfl, ?_, claim, ?_, hid⟩
    · simp [ModeState.mode, hm]
    · simp [Integration.revision, hv.revision]
    · simp [ModeState.flags, hm]
    · rw [← hv.claim, hclaim]
  · cases h

/-- A transition of the heavy branch changes its phase and flags. -/
theorem heavyTransition_eq_ok {request : TaskTransitionRequest} {heavy : HeavyState}
    {target : LifecycleStatus} {lifecycle : Lifecycle}
    (h : heavyTransition host request d heavy target lifecycle = .ok d') :
    d'.Valid host ∧ ∃ phase, d' = { d with
      lifecycle := lifecycle
      modeState := .speckitSuperpowers { heavy with
        phase := phase
        completionFlags := request.completionFlags.getD heavy.completionFlags } } ∧
      (target = .completed →
        (request.completionFlags.getD heavy.completionFlags).all (·.2) = true) := by
  unfold heavyTransition at h
  simp only at h
  split_ifs at h with hflags
  have hall : target = .completed →
      (request.completionFlags.getD heavy.completionFlags).all (·.2) = true := by
    intro ht
    by_contra hne
    exact hflags ⟨ht, hne⟩
  split at h
  · obtain ⟨rfl, hvalid⟩ := validated_eq_ok h
    exact ⟨hvalid, heavy.phase, rfl, hall⟩
  · split at h
    · rename_i phase hphase
      obtain ⟨rfl, hvalid⟩ := validated_eq_ok h
      exact ⟨hvalid, phase, rfl, hall⟩
    · obtain ⟨_, -, h⟩ := bind_eq_ok h
      obtain ⟨_, -, h⟩ := bind_eq_ok h
      cases h

theorem transitionAfter_eq_ok {request : TaskTransitionRequest} (hv : Reads d v)
    (h : transitionAfter host request d v = .ok d') :
    Exchanged host 1 d d' ∧ d'.claim = d.claim ∧
      (d.claim ≠ none → request.targetPhase = some "implementing") ∧
      lifecycleStatus? request.targetLifecycleStatus = some d'.lifecycle.status ∧
      ∀ flags, d'.modeState.flags = some flags →
        request.completionFlags.or d.modeState.flags = some flags ∧
          (d'.lifecycle.status = .completed → flags.all (·.2) = true) := by
  unfold transitionAfter at h
  split at h
  · cases h
  · rename_i target htarget
    have hallowed : target ∈ allowedTargets v.lifecycleStatus := by
      by_contra hne
      rw [if_pos hne] at h
      cases h
    rw [if_neg (not_not_intro hallowed)] at h
    cases hm : d.modeState with
    | trellisNative ref =>
      rw [hm] at h
      simp only at h
      split_ifs at h
      obtain ⟨rfl, hvalid⟩ := validated_eq_ok h
      refine ⟨⟨hvalid, ⟨rfl, rfl, ?_⟩, ?_⟩, ?_, ?_, htarget, ?_⟩
      · rw [hm]
      · simp [Integration.revision, TaskTransitionRequest.lifecycle, hv.revision]
      · simp [Integration.claim, hm]
      · intro hclaim
        simp [Integration.claim, ModeState.claim, hm] at hclaim
      · intro flags hflags
        simp [ModeState.flags] at hflags
    | speckitSuperpowers heavy =>
      rw [hm] at h
      simp only at h
      split_ifs at h with hblocked
      obtain ⟨hvalid, phase, rfl, hall⟩ := heavyTransition_eq_ok h
      refine ⟨⟨hvalid, ⟨rfl, rfl, ?_⟩, ?_⟩, ?_, ?_, htarget, ?_⟩
      · simp [ModeState.mode, hm]
      · simp [Integration.revision, TaskTransitionRequest.lifecycle, hv.revision]
      · simp [Integration.claim, ModeState.claim, hm]
      · intro hclaim
        by_contra hphase
        rw [← hv.claim] at hclaim
        exact hblocked ⟨Option.isSome_iff_ne_none.mpr hclaim, hphase⟩
      · intro flags hflags
        have hget : request.completionFlags.getD heavy.completionFlags = flags :=
          Option.some.inj hflags
        rw [hget] at hall
        refine ⟨?_, hall⟩
        rw [← hget]
        cases request.completionFlags <;> rfl

theorem archiveIntegrations_eq_ok {transactionId : String} {archivedAt : Time}
    {marking archived : Integration}
    (h : archiveIntegrations host d transactionId archivedAt = .ok (marking, archived)) :
    Exchanged host 1 d marking ∧ Exchanged host 2 d archived ∧ marking.claim = d.claim ∧
      archived.claim = d.claim := by
  obtain ⟨v, hv, h⟩ := bind_eq_ok h
  have hrev := (validateIntegration_reads hv).revision
  obtain ⟨m, hm, h⟩ := bind_eq_ok h
  obtain ⟨a, ha, h⟩ := bind_eq_ok h
  obtain ⟨rfl, rfl⟩ := Prod.mk.inj (Except.ok.inj h)
  obtain ⟨rfl, hmvalid⟩ := validated_eq_ok hm
  obtain ⟨rfl, havalid⟩ := validated_eq_ok ha
  refine ⟨⟨hmvalid, ⟨rfl, rfl, rfl⟩, ?_⟩, ⟨havalid, ⟨rfl, rfl, rfl⟩, ?_⟩, rfl, rfl⟩
  · simp [Integration.revision, hrev]
  · simp [Integration.revision, hrev]

theorem checkArchivable_eq_ok (hv : Reads d v) (h : checkArchivable d v = .ok ()) :
    d.lifecycle.status = .completed ∧ d.claim = none ∧
      ∀ flags, d.modeState.flags = some flags → flags ≠ [] ∧ flags.all (·.2) = true := by
  unfold checkArchivable at h
  split_ifs at h with hdone
  push Not at hdone
  refine ⟨hv.status ▸ hdone.1, ?_, ?_⟩
  · rw [← hv.claim]
    simpa using hdone.2
  · intro flags hflags
    cases hm : d.modeState with
    | trellisNative ref => simp [ModeState.flags, hm] at hflags
    | speckitSuperpowers heavy =>
      rw [hm] at h
      simp only at h
      split_ifs at h with hopen
      push Not at hopen
      obtain rfl : heavy.completionFlags = flags := by
        simpa [ModeState.flags, hm] using hflags
      exact hopen

/-- Nothing of the task is open: no live claim, and in the heavy mode all of some flags set. -/
def Integration.Closed (d : Integration) : Prop :=
  d.claim = none ∧ ∀ flags, d.modeState.flags = some flags → flags ≠ [] ∧ flags.all (·.2) = true

theorem checkArchivable_iff (hv : Reads d v) :
    checkArchivable d v = .ok () ↔ d.lifecycle.status = .completed ∧ d.Closed := by
  constructor
  · exact checkArchivable_eq_ok hv
  · rintro ⟨hstatus, hclaim, hflags⟩
    have hopen : ¬ (v.lifecycleStatus ≠ .completed ∨ v.executorClaim.isSome = true) := by
      rw [hv.status, hv.claim, hstatus, hclaim]
      simp
    rw [checkArchivable, if_neg hopen]
    cases hm : d.modeState with
    | trellisNative ref => rfl
    | speckitSuperpowers heavy =>
      obtain ⟨hne, hall⟩ := hflags heavy.completionFlags (by rw [hm]; rfl)
      exact if_neg (by simp only [hne, hall]; simp)

end AgentStack.Runtime
