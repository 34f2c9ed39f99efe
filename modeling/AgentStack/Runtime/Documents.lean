import AgentStack.Core.Canonical
import AgentStack.Reconcile.FileState

/-! The documents the task runtime keeps, as the values their canonical JSON stands for.
Times are UTC instants. -/
namespace AgentStack.Runtime

open AgentStack.Core FileTree Reconcile

abbrev Time := Int

/-- JSON the runtime only carries. -/
abbrev Json := String

inductive Mode
  | trellisNative
  | speckitSuperpowers
  deriving DecidableEq, Repr

inductive LifecycleStatus
  | admitting
  | active
  | blocked
  | completed
  | archiving
  | archived
  deriving DecidableEq, Repr

inductive HeavyPhase
  | specifying
  | planning
  | implementing
  | verifying
  | finishing
  deriving DecidableEq, Repr

structure SurfacePin where
  surfaceId : String
  surfaceDigest : String
  deriving DecidableEq, Repr

structure WorkflowContract where
  version : Int
  profileDigestAtAdmission : String
  lockDigestAtAdmission : String
  artifactBundleDigestAtAdmission : String
  policyDigestAtAdmission : String
  adapterId : String
  adapterVersionAtAdmission : String
  routeContractVersion : Int
  taskContractSurfaces : List SurfacePin
  deriving DecidableEq, Repr

structure Lifecycle where
  status : LifecycleStatus
  stateRevision : Int
  admittedAt : Option Time
  archivedAt : Option Time
  blockedReason : Option String
  lastTransition : List (String × String)
  deriving DecidableEq, Repr

structure AdmissionRecord where
  operation : String
  taskId : String
  taskRef : String
  intentId : String
  intentDigest : String
  taskTransactionId : String
  candidateTreeDigest : String
  workspaceInstanceIdAtAdmission : String
  routeDecisionId : String
  routeDecisionDigest : String
  approvalId : String
  approvalChallenge : String
  approvalProofDigest : String
  approvalVerifierId : String
  approvalVerifierVersion : String
  approvedBy : String
  approvalMechanism : String
  approvedAt : Time
  deriving DecidableEq, Repr

structure ExecutorClaim where
  claimId : String
  executor : String
  actor : String
  claimedAt : Time
  baseRevision : Int
  deriving DecidableEq, Repr

structure HeavyState where
  routerContractVersion : Int
  phase : HeavyPhase
  executorClaim : Option ExecutorClaim
  activeFeature : String
  canonicalArtifacts : Json
  referenceOnlyArtifacts : Json
  completionFlags : List (String × Bool)
  deriving DecidableEq, Repr

/-- The branch of an integration its mode selects. -/
inductive ModeState
  | trellisNative (taskRef : String)
  | speckitSuperpowers (state : HeavyState)
  deriving DecidableEq, Repr

def ModeState.mode : ModeState → Mode
  | .trellisNative _ => .trellisNative
  | .speckitSuperpowers _ => .speckitSuperpowers

structure Integration where
  workflowContract : WorkflowContract
  lifecycle : Lifecycle
  admission : AdmissionRecord
  modeState : ModeState
  deriving DecidableEq, Repr

inductive ReplayState
  | reserved
  | consumed
  deriving DecidableEq, Repr

/-- A ledger entry as stored under its proof key. -/
structure ReplayEntry where
  boundTransactionId : String
  state : ReplayState
  validatedAt : Time
  proofExpiresAt : Time
  consumedAt : Option Time
  deriving DecidableEq, Repr

structure ReplayLedger where
  projectId : String
  workspaceInstanceId : String
  entries : List (String × ReplayEntry)
  deriving DecidableEq, Repr

inductive DeliveryState
  | pending
  | delivered
  | failed
  deriving DecidableEq, Repr

structure Delivery where
  state : DeliveryState
  attemptCount : Int
  lastAttemptAt : Option Time
  deliveredAt : Option Time
  failure : Option Json
  /-- Fields of other names. -/
  others : List (String × Json)
  deriving DecidableEq, Repr

structure EffectIdentity where
  operation : String
  taskId : String
  transactionId : String
  effectKind : String
  handlerId : String
  handlerVersion : String
  payloadDigest : String
  deriving DecidableEq, Repr

structure OutboxDocument where
  effectId : String
  identity : EffectIdentity
  payload : Json
  idempotencyKey : String
  createdAt : Time
  delivery : Delivery
  deriving DecidableEq, Repr

/-- A task file as an admission journal carries it. -/
structure FileDocument where
  path : Path
  mode : FileTree.Mode
  content : Bytes
  byteHash : String
  deriving DecidableEq, Repr

structure MetadataMutation where
  original : FileState
  candidate : FileState
  originalBytes : Option Bytes
  candidateBytes : Option Bytes
  deriving DecidableEq, Repr

structure OutboxEffect where
  effectKind : String
  handlerId : String
  handlerVersion : String
  payload : Json
  deriving DecidableEq, Repr

structure ProofProjection where
  approvalId : String
  approvalChallenge : String
  routeDecisionDigest : String
  validatedAt : Time
  proofExpiresAt : Time
  proofKey : String
  deriving DecidableEq, Repr

structure RuntimeReference where
  runtimeRole : String
  releaseId : String
  releaseManifestDigest : String
  deriving DecidableEq, Repr

structure AdmissionHeader where
  taskId : String
  taskRef : String
  projectId : String
  workspaceInstanceId : String
  proof : ProofProjection
  taskFiles : List FileDocument
  metadataMutations : List MetadataMutation
  admittingIntegration : Integration
  activeIntegration : Integration
  outboxEffects : List OutboxEffect
  admittedAt : Time
  recoveryRuntime : Option RuntimeReference
  deriving DecidableEq, Repr

structure ArchiveHeader where
  taskId : String
  taskRef : String
  archiveRef : String
  beforeIntegration : Integration
  archivingIntegration : Integration
  archivedIntegration : Integration
  metadataMutations : List MetadataMutation
  outboxEffects : List OutboxEffect
  archivedAt : Time
  deriving DecidableEq, Repr

structure SingleFileHeader where
  taskId : String
  taskRef : String
  beforeIntegration : Integration
  afterIntegration : Integration
  deriving DecidableEq, Repr

inductive Operation
  | admission
  | claim
  | transition
  | release
  | archive
  deriving DecidableEq, Repr

inductive Header
  | admission (header : AdmissionHeader)
  | archive (header : ArchiveHeader)
  | singleFile (header : SingleFileHeader)
  deriving DecidableEq, Repr

def Header.taskId : Header → String
  | .admission h => h.taskId
  | .archive h => h.taskId
  | .singleFile h => h.taskId

def Header.taskRef : Header → String
  | .admission h => h.taskRef
  | .archive h => h.taskRef
  | .singleFile h => h.taskRef

/-- The runtime the header pins for recovery; only admissions record one. -/
def Header.recoveryRuntime : Header → Option RuntimeReference
  | .admission h => h.recoveryRuntime
  | .archive _ => none
  | .singleFile _ => none

inductive Phase
  | planned
  | staged
  | taskMoved
  | metadataApplied
  | admissionCommitted
  | stateMarked
  | archiveCommitted
  | integrationCommitted
  | cleanupPending
  | complete
  deriving DecidableEq, Repr

inductive Outcome
  | committed
  | rolledBack
  deriving DecidableEq, Repr

structure TaskJournal where
  transactionId : String
  operation : Operation
  taskId : String
  taskRef : String
  immutableHeader : Header
  journalBindingDigest : String
  phase : Phase
  outcome : Option Outcome
  diagnostics : List Json
  rollbackState : Json
  deriving DecidableEq, Repr

/-- A task layout as the workspace records it. -/
structure LayoutSnapshot where
  layoutDigest : String
  normalized : Json
  deriving DecidableEq, Repr

structure WorkspaceDocument where
  projectId : String
  workspaceInstanceId : String
  localStateReleaseId : String
  localStateReleaseVersion : String
  localStateReleaseManifestDigest : String
  localStateContractDigest : String
  trellisTaskLayout : LayoutSnapshot
  workspaceSchema : Int
  approvalReplaySchema : Int
  taskOutboxSchema : Int
  deriving DecidableEq, Repr

inductive RegistrationPhase
  | planned
  | workspaceWritten
  | registrationCommitted
  | cleanupPending
  | complete
  deriving DecidableEq, Repr

/-- A registration. `rollbackState` is what a rollback records: whether it removed the
workspace. -/
structure RegistrationJournal where
  transactionId : String
  projectId : String
  workspaceInstanceId : String
  workspaceCandidate : WorkspaceDocument
  workspaceCandidateDigest : String
  replayCandidate : ReplayLedger
  replayCandidateDigest : String
  recoveryRuntime : RuntimeReference
  phase : RegistrationPhase
  rollbackState : Option Bool
  deriving DecidableEq, Repr

/-- A document of clone-local state, before or after its migration. -/
inductive LocalDocument
  | workspace (document : WorkspaceDocument)
  | replayLedger (document : ReplayLedger)
  | outboxItem (document : OutboxDocument)
  | other (payload : Bytes)
  deriving DecidableEq, Repr

inductive LocalKind
  | approvalReplay
  | taskOutbox
  | workspace
  deriving DecidableEq, Repr

structure MigrationRecord where
  path : Path
  kind : LocalKind
  preimageState : FileState
  candidateState : FileState
  preimageDocument : LocalDocument
  candidateDocument : LocalDocument
  deriving DecidableEq, Repr

structure SchemasSnapshot where
  schemaBundleDigest : String
  normalized : Json
  deriving DecidableEq, Repr

/-- What a migration was admitted on. -/
structure MigrationHeader where
  transactionId : String
  projectId : String
  workspaceInstanceId : String
  sourceLayout : LayoutSnapshot
  targetLayout : LayoutSnapshot
  sourceSchemas : SchemasSnapshot
  targetSchemas : SchemasSnapshot
  taskSnapshot : Json
  taskFindings : Json
  taskQuiescenceDigest : String
  fileRecords : List MigrationRecord
  deriving DecidableEq, Repr

inductive MigrationPhase
  | planned
  | localCandidatesApplied
  | workspaceCommitted
  | cleanupPending
  | complete
  deriving DecidableEq, Repr

/-- A migration. `rollbackState` is what a rollback records: the paths it restored. -/
structure MigrationJournal where
  immutableHeader : MigrationHeader
  journalBindingDigest : String
  phase : MigrationPhase
  rollbackState : Option (List String)
  deriving DecidableEq, Repr

end AgentStack.Runtime
