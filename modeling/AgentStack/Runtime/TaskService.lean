import AgentStack.FileTree.Removal
import AgentStack.Reconcile.Locks
import AgentStack.Runtime.Integration
import AgentStack.Runtime.Outbox
import AgentStack.Runtime.Replay
import AgentStack.Runtime.TaskJournal

/-! Task admission and archive: the recoverable steps, and their recovery. -/
namespace AgentStack.Runtime

open AgentStack.Core FileTree Crash Reconcile

structure TaskMutationResult where
  transactionId : String
  taskId : String
  taskRef : String
  lifecycleStatus : LifecycleStatus
  stateRevision : Int
  mode : Mode
  phase : Option HeavyPhase
  executorClaim : Option ExecutorClaim
  outcome : Outcome
  deriving DecidableEq, Repr

def taskFailure (code message : String) : Failure := ⟨.runtime, code, message, []⟩

def recoveryRequired (message : String) : Failure :=
  taskFailure "AWP_TASK_TRANSACTION_RECOVERY_REQUIRED" message

def stale (message : String) : Failure := taskFailure "AWP_TASK_STATE_STALE" message

def taskLockPath (host : Host) (taskRef : String) : Path :=
  [".agent-workflow", "local", "task-locks", host.sha256 (.text taskRef) ++ ".lock"]

def taskLock (host : Host) (taskRef : String) : Prog Unit := do
  let path := taskLockPath host taskRef
  DirTree.mkdirs host.dirMode (parent path)
  let linked ← Program.read fun s => s.isSymlink (parent path)
  if linked then Program.throw (stale "task lock root is a symlink")
  else openCreate path 0o600

def maintenancePath : Path := [".agent-workflow", "maintenance.json"]

def maintenanceClear (s : FS) : Except Failure Unit :=
  if s.exists maintenancePath || s.isSymlink maintenancePath then
    .error (stale "maintenance blocks task mutation")
  else .ok ()

def noOtherTransaction (host : Host) (current : Option String) (s : FS) :
    Except Failure Unit := do
  let journals ← unfinishedTaskJournals host s
  match journals.find? fun j => some j.transactionId ≠ current with
  | some j => .error ⟨.runtime, "AWP_TASK_TRANSACTION_RECOVERY_REQUIRED",
      "another unfinished task transaction blocks mutation",
      [("transaction_id", j.transactionId)]⟩
  | none => .ok ()

def stagingRoot (transactionId : String) : Path :=
  [".agent-workflow", "local", "task-staging", transactionId]

def stagingTask (transactionId : String) : Path := stagingRoot transactionId ++ ["task"]

def integrationName : String := "integration.yaml"

def integrationFile (taskRef : String) : Path := segments taskRef ++ [integrationName]

def integrationMode : FileTree.Mode := 0o640

def writeNewFile (host : Host) (path : Path) (payload : Content) (mode : FileTree.Mode) :
    Prog Unit := do
  DirTree.mkdirs host.dirMode (parent path)
  let taken ← Program.read fun s => s.exists path || s.isSymlink path
  if taken then
    Program.throw ⟨.runtime, "AWP_TASK_STATE_STALE", "task staging file already exists",
      [("path", joinPath path)]⟩
  else DirTree.replaceFile host.names (rewritePrefix path) path payload mode (pure ())

def stageFile (host : Host) (staging : Path) (item : FileDocument) : Prog Unit :=
  if host.hashBytes (.bytes item.content) ≠ item.byteHash then
    Program.throw (recoveryRequired "task file bytes differ")
  else writeNewFile host (staging ++ item.path) (.bytes item.content) item.mode

def stageFromHeader (host : Host) (transactionId : String) (header : AdmissionHeader) :
    Prog Unit := do
  let staging := stagingTask transactionId
  let present ← Program.read fun s => s.exists staging
  if present then return ()
  else
    DirTree.mkdirs host.dirMode (parent staging)
    DirTree.syscall (DirTree.mkdir host.dirMode staging)
    Program.each header.taskFiles (stageFile host staging)
    writeNewFile host (staging ++ [integrationName]) (.integration header.admittingIntegration)
      integrationMode

def moveStagedTask (host : Host) (transactionId taskRef : String) : Prog Unit := do
  let staging := stagingTask transactionId
  let target := segments taskRef
  let present ← Program.read fun s => s.exists target
  if present then return ()
  else
    let ready ← Program.read fun s => s.isDir staging && !s.isSymlink staging
    if !ready then Program.throw (recoveryRequired "task staging tree is missing")
    else
      DirTree.mkdirs host.dirMode (parent target)
      DirTree.syscall (DirTree.rename staging target)

/-- One mutation, unless its candidate is already there. -/
def applyMutation (host : Host) (mutation : MetadataMutation) : Prog Unit := do
  let current ← Program.inspect (observeFileState host mutation.original.path none)
  if current = mutation.candidate then return ()
  else
    let _ ← compareAndSwap host mutation.original mutation.candidate
      (mutation.candidateBytes.map .bytes)

def restoreMutation (host : Host) (mutation : MetadataMutation) : Prog Unit := do
  let current ← Program.inspect (observeFileState host mutation.candidate.path none)
  if current = mutation.original then return ()
  else
    let _ ← compareAndSwap host mutation.candidate mutation.original
      (mutation.originalBytes.map .bytes)

def applyMetadata (host : Host) (mutations : List MetadataMutation) : Prog Unit :=
  Program.each mutations (applyMutation host)

def restoreMetadata (host : Host) (mutations : List MetadataMutation) : Prog Unit :=
  Program.each mutations.reverse (restoreMutation host)

def integrationState (host : Host) (taskRef : String) (document : Integration) : FileState :=
  regularState (integrationFile taskRef) (host.hashBytes (.integration document)) integrationMode
    none

def casIntegration (host : Host) (taskRef : String) (before after : Integration) :
    Prog Unit := do
  let expected := integrationState host taskRef before
  let candidate := integrationState host taskRef after
  let current ← Program.inspect (observeFileState host expected.path none)
  if current = candidate then return ()
  else
    let _ ← compareAndSwap host expected candidate (some (.integration after))

def enqueueHeaderEffects (host : Host) (effects : List OutboxEffect) (taskId transactionId
    operation : String) (createdAt : Time) : Prog Unit :=
  Program.each effects fun effect => do
    let _ ← enqueueEffect host operation taskId transactionId effect createdAt

def result (host : Host) (transactionId taskRef : String) (document : Integration)
    (outcome : Outcome) : Except Failure TaskMutationResult := do
  let verified ← validateIntegration host document
  return ⟨transactionId, verified.taskId, taskRef, verified.lifecycleStatus,
    verified.stateRevision, verified.mode, verified.phase, verified.executorClaim, outcome⟩

def reservationOf (transactionId : String) (header : AdmissionHeader) (recovery : Bool) :
    Reservation :=
  ⟨header.projectId, header.workspaceInstanceId, header.proof.approvalId,
    header.proof.approvalChallenge, header.proof.routeDecisionDigest, transactionId,
    header.proof.validatedAt, header.proof.proofExpiresAt, header.admittedAt, recovery⟩

def reserveFromHeader (host : Host) (transactionId : String) (header : AdmissionHeader)
    (recovery : Bool) : Prog Unit := do
  let _ ← reserveProof host (reservationOf transactionId header recovery)

def consumeFromHeader (host : Host) (transactionId : String) (header : AdmissionHeader) :
    Prog Unit := do
  let _ ← consumeProof host header.proof.proofKey transactionId header.admittedAt

/-- `shutil.rmtree`, where there is something to remove. -/
def removeStaging (transactionId : String) : Prog Unit :=
  Program.whenever (fun s => s.exists (stagingRoot transactionId))
    (DirTree.rmtree (stagingRoot transactionId))

/-- A cascade `if phase == …`: each phase of the list in turn, the journal's own first. -/
def runPhases (step : TaskJournal → Prog TaskJournal) : List Phase → TaskJournal →
    Prog TaskJournal
  | [], journal => return journal
  | phase :: rest, journal =>
    if journal.phase = phase then do
      let journal ← step journal
      runPhases step rest journal
    else runPhases step rest journal

/-- What `_resume_admission` does at one phase; the journal it returns is at the next. -/
def admissionStep (host : Host) (header : AdmissionHeader) (recovery : Bool)
    (journal : TaskJournal) : Prog TaskJournal :=
  match journal.phase with
  | .planned => do
    reserveFromHeader host journal.transactionId header recovery
    stageFromHeader host journal.transactionId header
    advanceTaskJournal host journal .staged none
  | .staged => do
    moveStagedTask host journal.transactionId journal.taskRef
    advanceTaskJournal host journal .taskMoved none
  | .taskMoved => do
    applyMetadata host header.metadataMutations
    advanceTaskJournal host journal .metadataApplied none
  | .metadataApplied => do
    casIntegration host journal.taskRef header.admittingIntegration header.activeIntegration
    advanceTaskJournal host journal .admissionCommitted none
  | .admissionCommitted => advanceTaskJournal host journal .cleanupPending none
  | .cleanupPending => do
    consumeFromHeader host journal.transactionId header
    enqueueHeaderEffects host header.outboxEffects header.taskId journal.transactionId
      "task-admit" header.admittedAt
    removeStaging journal.transactionId
    advanceTaskJournal host journal .complete (some .committed)
  | _ => return journal

def admissionPhases : List Phase :=
  [.planned, .staged, .taskMoved, .metadataApplied, .admissionCommitted, .cleanupPending]

def resumeAdmission (host : Host) (header : AdmissionHeader) (recovery : Bool)
    (journal : TaskJournal) : Prog TaskMutationResult := do
  let _ ← runPhases (admissionStep host header recovery) admissionPhases journal
  Program.lift (result host journal.transactionId journal.taskRef header.activeIntegration
    .committed)

def removeTaskTree (taskRef : String) : Prog Unit :=
  Program.whenever (fun s => s.exists (segments taskRef)) do
    let real ← Program.read fun s => s.isRealDir (segments taskRef)
    if real then DirTree.rmtree (segments taskRef)
    else Program.throw (stale "task tree has invalid type")

def rollbackAdmission (host : Host) (header : AdmissionHeader) (journal : TaskJournal) :
    Prog TaskMutationResult := do
  if journal.phase ∈ [.admissionCommitted, .cleanupPending, .complete] then
    Program.throw (recoveryRequired "committed admission cannot roll back")
  else
    if journal.phase = .metadataApplied then restoreMetadata host header.metadataMutations
    if journal.phase ∈ [.taskMoved, .metadataApplied] then removeTaskTree journal.taskRef
    removeStaging journal.transactionId
    reserveFromHeader host journal.transactionId header true
    consumeFromHeader host journal.transactionId header
    let _ ← advanceTaskJournal host journal .complete (some .rolledBack)
    Program.lift (result host journal.transactionId journal.taskRef header.admittingIntegration
      .rolledBack)

/-- `os.replace` of the task directory onto the archive ref, unless something is there. -/
def moveToArchive (host : Host) (source destination : String) : Prog Unit := do
  let present ← Program.read fun s => s.exists (segments destination)
  if present then return ()
  else
    DirTree.mkdirs host.dirMode (parent (segments destination))
    let there ← Program.read fun s => s.exists (segments source)
    if there then DirTree.syscall (DirTree.rename (segments source) (segments destination))
    else Program.throw (OfOsError.ofOsError ⟨.notFound, segments source⟩)

/-- What `_resume_archive` does at one phase. -/
def archiveStep (host : Host) (header : ArchiveHeader) (journal : TaskJournal) :
    Prog TaskJournal :=
  match journal.phase with
  | .planned => do
    casIntegration host header.taskRef header.beforeIntegration header.archivingIntegration
    advanceTaskJournal host journal .stateMarked none
  | .stateMarked => do
    moveToArchive host header.taskRef header.archiveRef
    advanceTaskJournal host journal .taskMoved none
  | .taskMoved => do
    applyMetadata host header.metadataMutations
    advanceTaskJournal host journal .metadataApplied none
  | .metadataApplied => do
    casIntegration host header.archiveRef header.archivingIntegration header.archivedIntegration
    advanceTaskJournal host journal .archiveCommitted none
  | .archiveCommitted => advanceTaskJournal host journal .cleanupPending none
  | .cleanupPending => do
    enqueueHeaderEffects host header.outboxEffects header.taskId journal.transactionId
      "task-archive" header.archivedAt
    advanceTaskJournal host journal .complete (some .committed)
  | _ => return journal

def archivePhases : List Phase :=
  [.planned, .stateMarked, .taskMoved, .metadataApplied, .archiveCommitted, .cleanupPending]

def resumeArchive (host : Host) (header : ArchiveHeader) (journal : TaskJournal) :
    Prog TaskMutationResult := do
  let _ ← runPhases (archiveStep host header) archivePhases journal
  Program.lift (result host journal.transactionId header.archiveRef header.archivedIntegration
    .committed)

/-- The task directory, put back where it came from. -/
def moveFromArchive (source destination : String) : Prog Unit := do
  let present ← Program.read fun s => s.exists (segments source)
  if present then Program.throw (stale "archive source unexpectedly exists")
  else DirTree.syscall (DirTree.rename (segments destination) (segments source))

def rollbackArchive (host : Host) (header : ArchiveHeader) (journal : TaskJournal) :
    Prog TaskMutationResult := do
  if journal.phase ∈ [.archiveCommitted, .cleanupPending, .complete] then
    Program.throw (recoveryRequired "committed archive cannot roll back")
  else
    if journal.phase = .metadataApplied then restoreMetadata host header.metadataMutations
    if journal.phase ∈ [.taskMoved, .metadataApplied] then
      moveFromArchive header.taskRef header.archiveRef
    if journal.phase ∈ [.stateMarked, .taskMoved, .metadataApplied] then
      casIntegration host header.taskRef header.archivingIntegration header.beforeIntegration
    let _ ← advanceTaskJournal host journal .complete (some .rolledBack)
    Program.lift (result host journal.transactionId header.taskRef header.beforeIntegration
      .rolledBack)

inductive RecoveryAction
  | resume
  | rollback
  deriving DecidableEq, Repr

/-- The branch of recovery a journal's operation selects. -/
def recoverJournal (host : Host) (journal : TaskJournal) (action : RecoveryAction) :
    Prog TaskMutationResult :=
  match journal.operation, journal.immutableHeader, action with
  | .admission, .admission header, .resume => resumeAdmission host header true journal
  | .admission, .admission header, .rollback => rollbackAdmission host header journal
  | .archive, .archive header, .resume => resumeArchive host header journal
  | .archive, .archive header, .rollback => rollbackArchive host header journal
  | .admission, _, _ => Program.throw (keyError "proof")
  | .archive, _, _ => Program.throw (keyError "archive_ref")
  | _, _, .resume =>
    Program.throw (recoveryRequired "single-file mutation recovery is cleanup-only")
  | _, _, .rollback =>
    Program.throw (recoveryRequired "committed single-file mutation cannot roll back")

/-- `with gate: with lock: checks`, before a task operation or its recovery acts. -/
def enterTask (host : Host) (taskRef : String) (current : Option String) : Prog Unit := do
  acquireRuntimeStateGate host
  taskLock host taskRef
  Program.inspect maintenanceClear
  Program.inspect (noOtherTransaction host current)

def recoverTaskTransactionInternal (host : Host) (transactionId : String)
    (action : RecoveryAction) : Prog TaskMutationResult := do
  let journal ← Program.inspect (readTaskJournal host transactionId)
  enterTask host journal.taskRef (some transactionId)
  recoverJournal host journal action

end AgentStack.Runtime
