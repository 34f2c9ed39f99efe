import AgentStack.Host

/-! Validation of integration documents. -/
namespace AgentStack.Runtime

open AgentStack.Core

def transitionFailure (message : String) (details : List (String × String)) : Failure :=
  ⟨.runtime, "AWP_TASK_TRANSITION_INVALID", message, details⟩

structure VerifiedIntegration where
  mode : Mode
  taskId : String
  taskRef : String
  lifecycleStatus : LifecycleStatus
  stateRevision : Int
  taskContractSurfaces : List SurfacePin
  phase : Option HeavyPhase
  executorClaim : Option ExecutorClaim
  deriving DecidableEq, Repr

def requireString (value field : String) : Except Failure Unit :=
  if isToken value then .ok ()
  else .error (transitionFailure "integration string is invalid" [("field", field)])

def requireDigest (value field : String) : Except Failure Unit := do
  requireString value field
  if isDigest value then .ok ()
  else .error (transitionFailure "integration digest is invalid" [("field", field)])

def requireUuid (value field : String) : Except Failure Unit := do
  requireString value field
  match parseUuid value with
  | none => .error (transitionFailure "integration UUID is invalid" [("field", field)])
  | some parsed =>
    if parsed = value then .ok ()
    else .error (transitionFailure "integration UUID is not canonical" [("field", field)])

def requirePositive (value : Int) (field : String) : Except Failure Unit :=
  if value < 1 then
    .error (transitionFailure "integration integer is invalid" [("field", field)])
  else .ok ()

def requireTaskRef (host : Host) (value field : String) : Except Failure String := do
  requireString value field
  match normalizePath host.nfc value with
  | .ok p => .ok (joinPath p)
  | .error _ => .error (transitionFailure "integration task ref is invalid" [("field", field)])

def mandatorySurfaces : List String := ["runtime-control-plane", "surface-registry"]

def validateWorkflow (workflow : WorkflowContract) : Except Failure (List SurfacePin) := do
  if workflow.version ≠ 1 ∨ workflow.routeContractVersion ≠ 1 then
    .error (transitionFailure "workflow contract version is unsupported" [])
  else
    requireDigest workflow.profileDigestAtAdmission
      "workflow_contract.profile_digest_at_admission"
    requireDigest workflow.lockDigestAtAdmission "workflow_contract.lock_digest_at_admission"
    requireDigest workflow.artifactBundleDigestAtAdmission
      "workflow_contract.artifact_bundle_digest_at_admission"
    requireDigest workflow.policyDigestAtAdmission
      "workflow_contract.policy_digest_at_admission"
    requireString workflow.adapterId "workflow_contract.adapter_id"
    requireString workflow.adapterVersionAtAdmission
      "workflow_contract.adapter_version_at_admission"
    workflow.taskContractSurfaces.forM fun pin => do
      requireString pin.surfaceId "surface_id"
      requireDigest pin.surfaceDigest "surface_digest"
    let pins := workflow.taskContractSurfaces
    let identifiers := pins.map (·.surfaceId)
    if pins = [] then .error (transitionFailure "task contract surface set is empty" [])
    else if ¬ identifiers.Pairwise (· ≤ ·) then
      .error (transitionFailure "task contract surfaces are not sorted" [])
    else if ¬ identifiers.Nodup then
      .error (transitionFailure "task contract surfaces contain duplicates" [])
    else
      match mandatorySurfaces.filter (· ∉ identifiers) with
      | [] => .ok pins
      | missing => .error (transitionFailure "mandatory task contract surfaces are missing"
          [("surfaces", ",".intercalate missing)])

def validateLifecycle (lifecycle : Lifecycle) : Except Failure (LifecycleStatus × Int) := do
  requirePositive lifecycle.stateRevision "lifecycle.state_revision"
  if lifecycle.status = .admitting then
    if lifecycle.stateRevision ≠ 1 ∨ lifecycle.admittedAt.isSome ∨ lifecycle.archivedAt.isSome then
      .error (transitionFailure "admitting lifecycle must be uncommitted revision 1" [])
    else pure ()
  else
    if lifecycle.stateRevision < 2 ∨ lifecycle.admittedAt.isNone then
      .error (transitionFailure
        "committed lifecycle requires admitted revision 2 or later" [])
    else if lifecycle.status = .archived then
      if lifecycle.archivedAt.isNone then
        .error (transitionFailure "archived lifecycle requires archived_at" [])
      else pure ()
    else if lifecycle.archivedAt.isSome then
      .error (transitionFailure "non-archived lifecycle cannot set archived_at" [])
    else pure ()
  if lifecycle.status = .blocked then
    requireString (lifecycle.blockedReason.getD "") "lifecycle.blocked_reason"
  else if lifecycle.blockedReason.isSome then
    .error (transitionFailure "blocked_reason is legal only for blocked lifecycle" [])
  else pure ()
  return (lifecycle.status, lifecycle.stateRevision)

def validateAdmission (host : Host) (admission : AdmissionRecord) :
    Except Failure (String × String) := do
  if admission.operation ≠ "create-integrated-task" then
    .error (transitionFailure "integration admission operation is invalid" [])
  else
    requireUuid admission.taskId "admission.task_id"
    let taskRef ← requireTaskRef host admission.taskRef "admission.task_ref"
    requireString admission.intentId "admission.intent_id"
    requireDigest admission.intentDigest "admission.intent_digest"
    requireDigest admission.candidateTreeDigest "admission.candidate_tree_digest"
    requireDigest admission.routeDecisionDigest "admission.route_decision_digest"
    requireDigest admission.approvalProofDigest "admission.approval_proof_digest"
    requireUuid admission.taskTransactionId "admission.task_transaction_id"
    requireUuid admission.workspaceInstanceIdAtAdmission
      "admission.workspace_instance_id_at_admission"
    requireUuid admission.routeDecisionId "admission.route_decision_id"
    requireUuid admission.approvalId "admission.approval_id"
    requireDigest admission.approvalChallenge "admission.approval_challenge"
    requireString admission.approvalVerifierId "admission.approval_verifier_id"
    requireString admission.approvalVerifierVersion "admission.approval_verifier_version"
    requireString admission.approvedBy "admission.approved_by"
    requireString admission.approvalMechanism "admission.approval_mechanism"
    return (admission.taskId, taskRef)

def validateClaim (phase : HeavyPhase) (revision : Int) (claim : ExecutorClaim) :
    Except Failure Unit := do
  if phase ≠ .implementing then
    .error (transitionFailure "executor claim is legal only during implementing" [])
  else
    requireUuid claim.claimId "executor_claim.claim_id"
    requireString claim.executor "executor_claim.executor"
    requireString claim.actor "executor_claim.actor"
    requirePositive claim.baseRevision "executor_claim.base_revision"
    if revision ≤ claim.baseRevision then
      .error (transitionFailure
        "executor claim base revision must precede current revision" [])
    else pure ()

def validateHeavyBranch (branch : HeavyState) (revision : Int) :
    Except Failure (HeavyPhase × Option ExecutorClaim) := do
  if branch.routerContractVersion ≠ 1 then
    .error (transitionFailure "heavy router contract version is unsupported" [])
  else
    requireString branch.activeFeature "active_feature"
    match branch.executorClaim with
    | none => return (branch.phase, none)
    | some claim =>
      validateClaim branch.phase revision claim
      return (branch.phase, some claim)

def validateIntegration (host : Host) (candidate : Integration) :
    Except Failure VerifiedIntegration := do
  let surfaces ← validateWorkflow candidate.workflowContract
  let (status, revision) ← validateLifecycle candidate.lifecycle
  let (taskId, taskRef) ← validateAdmission host candidate.admission
  match candidate.modeState with
  | .trellisNative branchRef =>
    let ref ← requireTaskRef host branchRef "trellis_native.task_ref"
    if ref ≠ taskRef then
      .error (transitionFailure
        "mode-specific task ref differs from admission-time task ref" [])
    else
      return ⟨.trellisNative, taskId, taskRef, status, revision, surfaces, none, none⟩
  | .speckitSuperpowers branch =>
    let (phase, claim) ← validateHeavyBranch branch revision
    return ⟨.speckitSuperpowers, taskId, taskRef, status, revision, surfaces, some phase, claim⟩

end AgentStack.Runtime
