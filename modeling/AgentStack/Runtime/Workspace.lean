import AgentStack.Reconcile.Cas
import AgentStack.Reconcile.Locks
import AgentStack.Reconcile.Ownership
import AgentStack.Runtime.Replay
import AgentStack.Runtime.TaskService

/-! Clone-local workspace registration, and its recovery. -/
namespace AgentStack.Runtime

open AgentStack.Core FileTree Crash Reconcile

def registrationFailure (message : String) (details : List (String × String)) : Failure :=
  ⟨.runtime, "AWP_WORKSPACE_REGISTRATION_REQUIRED", message, details⟩

def registrationRecovery (message : String) (details : List (String × String)) : Failure :=
  ⟨.runtime, "AWP_WORKSPACE_REGISTRATION_RECOVERY_REQUIRED", message, details⟩

def workspacePath : Path := [".agent-workflow", "local", "workspace.json"]

def workspaceTransactionRoot : Path := [".agent-workflow", "local", "workspace-transactions"]

def workspaceTransaction (transactionId : String) : Path :=
  workspaceTransactionRoot ++ [transactionId ++ ".json"]

def managedIgnoreBlock : String :=
  "# BEGIN AGENT-WORKFLOW-PACK EPHEMERAL\n" ++
  ".agent-workflow/local/\n" ++
  ".agent-workflow/task-transactions/\n" ++
  ".agent-workflow/transactions/\n" ++
  ".agent-workflow/reconcile.lock\n" ++
  ".agent-workflow/runtime-state.lock\n" ++
  ".agent-workflow/maintenance.json\n" ++
  "# END AGENT-WORKFLOW-PACK EPHEMERAL\n"

def RegistrationPhase.rank : RegistrationPhase → Nat
  | .planned => 0
  | .workspaceWritten => 1
  | .registrationCommitted => 2
  | .cleanupPending => 3
  | .complete => 4

/-! ### Manifest -/

structure LocalContract where
  releaseId : String
  releaseVersion : String
  workspaceSchema : Int
  approvalReplaySchema : Int
  taskOutboxSchema : Int
  trellisTaskLayoutDigest : String
  contractDigest : String
  deriving DecidableEq, Repr

structure CommittedManifest where
  schemaVersion : Int
  projectId : String
  releaseId : String
  packVersion : String
  releaseManifestDigest : String
  localStateContract : LocalContract
  deriving DecidableEq, Repr

def workspaceUuid (value field : String) : Except Failure Unit :=
  match parseUuid value with
  | none => .error (registrationFailure "workspace identity is invalid" [("field", field)])
  | some parsed =>
    if parsed = value then .ok ()
    else .error (registrationFailure "workspace identity is not canonical" [("field", field)])

def workspaceDigest (value field : String) : Except Failure Unit :=
  if isDigest value then .ok ()
  else .error (registrationFailure "workspace digest is invalid" [("field", field)])

def checkLocalContract (host : Host) (contract : LocalContract) : Except Failure Unit := do
  if contract.contractDigest ≠ host.sha256 (.localContract contract.releaseId
      contract.releaseVersion contract.workspaceSchema contract.approvalReplaySchema
      contract.taskOutboxSchema contract.trellisTaskLayoutDigest) then
    .error (registrationFailure "local-state contract digest is stale" [])
  else if contract.workspaceSchema ≠ 1 ∨ contract.approvalReplaySchema ≠ 1 ∨
      contract.taskOutboxSchema ≠ 1 then
    .error (registrationFailure "local-state schema version is unsupported" [])
  else do
    workspaceDigest contract.releaseId "local_state_contract.release_id"
    workspaceDigest contract.trellisTaskLayoutDigest
      "local_state_contract.trellis_task_layout_digest"
    workspaceDigest contract.contractDigest "local_state_contract.contract_digest"
    if contract.releaseVersion = "" then
      .error (registrationFailure "local-state release version is invalid" [])
    else .ok ()

def validateManifest (host : Host) (manifest : CommittedManifest) (layout : LayoutSnapshot) :
    Except Failure Unit := do
  if manifest.schemaVersion ≠ 1 then
    .error (registrationFailure "committed Manifest schema is unsupported" [])
  else do
    workspaceUuid manifest.projectId "project_id"
    checkLocalContract host manifest.localStateContract
    if manifest.releaseId ≠ manifest.localStateContract.releaseId ∨
        manifest.packVersion ≠ manifest.localStateContract.releaseVersion ∨
        manifest.localStateContract.trellisTaskLayoutDigest ≠ layout.layoutDigest then
      .error (registrationFailure "Manifest local-state contract is inconsistent" [])
    else workspaceDigest manifest.releaseManifestDigest "release_manifest_digest"

def workspaceDocument (manifest : CommittedManifest) (layout : LayoutSnapshot)
    (workspaceInstanceId : String) : WorkspaceDocument :=
  let contract := manifest.localStateContract
  ⟨manifest.projectId, workspaceInstanceId, contract.releaseId, contract.releaseVersion,
    manifest.releaseManifestDigest, contract.contractDigest, layout, contract.workspaceSchema,
    contract.approvalReplaySchema, contract.taskOutboxSchema⟩

def replayDocument (projectId workspaceInstanceId : String) : ReplayLedger :=
  ⟨projectId, workspaceInstanceId, []⟩

/-! ### Journal -/

def registrationJournal (host : Host) (transactionId : String) (workspace : WorkspaceDocument)
    (replay : ReplayLedger) (recoveryRuntime : RuntimeReference) : RegistrationJournal :=
  ⟨transactionId, workspace.projectId, workspace.workspaceInstanceId, workspace,
    host.hashBytes (.workspace workspace), replay, host.hashBytes (.replayLedger replay),
    recoveryRuntime, .planned, none⟩

def validateRegistration (host : Host) (journal : RegistrationJournal) : Except Failure Unit := do
  workspaceUuid journal.transactionId "transaction_id"
  workspaceUuid journal.projectId "project_id"
  workspaceUuid journal.workspaceInstanceId "workspace_instance_id"
  if journal.workspaceCandidateDigest ≠ host.hashBytes (.workspace journal.workspaceCandidate) ∨
      journal.replayCandidateDigest ≠ host.hashBytes (.replayLedger journal.replayCandidate) then
    .error (registrationRecovery "workspace registration candidate digest changed" [])
  else .ok ()

def loadRegistration (host : Host) (transactionId : String) (s : FS) :
    Except Failure RegistrationJournal :=
  match s.get (workspaceTransaction transactionId) with
  | some (.file (.registration journal) _) => do
    validateRegistration host journal
    return journal
  | some (.file (.bytes _) _) =>
    .error (registrationRecovery "workspace registration journal is invalid" [])
  | some (.file _ _) =>
    .error (registrationRecovery "workspace registration journal fields are not closed" [])
  | _ => .error (registrationRecovery "workspace registration journal is unavailable" [])

/-- Rewrites a document through a file beside it. -/
def putDocument (host : Host) (path : Path) (document : Content) : Prog Unit := do
  DirTree.mkdirs host.dirMode (parent path)
  DirTree.replaceFile host.names (rewritePrefix path) path document 0o600 (pure ())

/-- What is stored under the journal's own name allows it to be written. -/
def checkRegistration (host : Host) (journal : RegistrationJournal) (s : FS) :
    Except Failure Unit :=
  let path := workspaceTransaction journal.transactionId
  if s.exists path || s.isSymlink path then do
    let existing ← loadRegistration host journal.transactionId s
    if existing ≠ { journal with
        phase := existing.phase
        rollbackState := existing.rollbackState } then
      .error (registrationRecovery "workspace registration immutable evidence changed" [])
    else if journal.phase.rank < existing.phase.rank then
      .error (registrationRecovery "workspace registration phase regressed" [])
    else .ok ()
  else .ok ()

def writeRegistration (host : Host) (journal : RegistrationJournal) : Prog Unit := do
  Program.lift (validateRegistration host journal)
  Program.inspect (checkRegistration host journal)
  putDocument host (workspaceTransaction journal.transactionId) (.registration journal)

def RegistrationJournal.moved (journal : RegistrationJournal) (phase : RegistrationPhase)
    (rollbackState : Option Bool) : RegistrationJournal :=
  { journal with
    phase := phase
    rollbackState := if rollbackState.isSome then rollbackState else journal.rollbackState }

def advanceRegistration (host : Host) (journal : RegistrationJournal) (phase : RegistrationPhase)
    (rollbackState : Option Bool) : Prog RegistrationJournal := do
  writeRegistration host (journal.moved phase rollbackState)
  return journal.moved phase rollbackState

/-! ### Surroundings -/

/-- What lies outside the project's tree: the outcome of the out-of-tree lock, what `git` says of
a path, and which other files are JSON of a complete transaction. -/
structure Surroundings where
  bootstrap : Except Failure Unit
  ignores : Path → Bool
  tracks : Path → Bool
  complete : Bytes → Bool

def ignorePath : Path := [".gitignore"]

/-- A text as `read_text` returns it: each of the three line ends is a line feed. -/
def universalNewlines : List Char → List Char
  | '\r' :: '\n' :: cs => '\n' :: universalNewlines cs
  | '\r' :: cs => '\n' :: universalNewlines cs
  | c :: cs => c :: universalNewlines cs
  | [] => []

theorem universalNewlines_eq {cs : List Char} (h : '\r' ∉ cs) : universalNewlines cs = cs := by
  fun_induction universalNewlines cs with
  | case1 cs ih => simp at h
  | case2 cs _ ih => simp at h
  | case3 c cs _ _ ih => rw [ih fun hc => h (List.mem_cons_of_mem _ hc)]
  | case4 => rfl

def ignoreText (s : FS) : Except Failure String :=
  match s.get ignorePath with
  | some (.file (.bytes content) _) =>
    match decode? content with
    | some text => .ok (String.ofList (universalNewlines text.toList))
    | none => .error ⟨.core, "UnicodeDecodeError", "", []⟩
  | some (.file _ _) => .ok ""
  | _ => .error (registrationFailure "managed ignore marker is unavailable" [])

def validateIgnoreAndTracking (around : Surroundings) (s : FS) : Except Failure Unit := do
  let text ← ignoreText s
  if ¬ managedIgnoreBlock.toList <:+: text.toList then
    .error (registrationFailure "managed ignore marker is invalid" [])
  else do
    [workspacePath, replayPath, workspaceTransactionRoot ++ ["probe.json"]].forM fun path =>
      if around.ignores path then .ok ()
      else .error (registrationFailure "workspace local state is not ignored"
        [("path", joinPath path)])
    [workspacePath, replayPath].forM fun path =>
      if around.tracks path then .error (registrationFailure "workspace local state is tracked"
        [("path", joinPath path)])
      else .ok ()

/-- The file is JSON of a complete transaction. -/
def isComplete (around : Surroundings) : Content → Bool
  | .bytes payload => around.complete payload
  | .taskJournal journal => journal.phase = .complete
  | .registration journal => journal.phase = .complete
  | .migration journal => journal.phase = .complete
  | _ => false

/-- The first entry of a transaction directory that is not known to be complete. -/
def unfinishedIn (around : Surroundings) (own : Path) (directory : Path) (s : FS) : Option Path :=
  if s.isSymlink directory then some directory
  else if ¬ s.exists directory then none
  else if ¬ s.isDir directory then some directory
  else (((listing s directory).filter fun n => ".json".toList <:+ n.toList).map
    (directory ++ [·])).find? fun path =>
      decide (path ≠ own) && match s.get path with
        | some (.file content _) => !isComplete around content
        | _ => true

def unfinishedExternalState (around : Surroundings) (transactionId : String) (s : FS) :
    Option Path :=
  if s.exists maintenancePath || s.isSymlink maintenancePath then some maintenancePath
  else [[".agent-workflow", "transactions"], journalRoot, workspaceTransactionRoot].findSome?
    fun directory => unfinishedIn around (workspaceTransaction transactionId) directory s

/-! ### Registration -/

inductive Relation
  | absent
  | candidate
  | third
  deriving DecidableEq, Repr

def localCandidate (host : Host) (path : Path) (document : Content) : FileState :=
  regularState path (host.hashBytes document) 0o600 none

def candidateRelation (host : Host) (path : Path) (document : Content) (s : FS) :
    Except Failure Relation := do
  let observed ← observeFileState host path none s
  return if observed = absentState path none then .absent
    else if observed = localCandidate host path document then .candidate
    else .third

structure WorkspaceRegistrationResult where
  committed : Bool
  workspace : WorkspaceDocument
  replay : ReplayLedger
  journalPath : Path
  deriving DecidableEq, Repr

def RegistrationJournal.result (journal : RegistrationJournal) (committed : Bool) :
    WorkspaceRegistrationResult :=
  ⟨committed, journal.workspaceCandidate, journal.replayCandidate,
    workspaceTransaction journal.transactionId⟩

/-- One file of the pair, where it is absent. -/
def createLocal (host : Host) (relation : Relation) (path : Path) (document : Content) :
    Prog Unit :=
  if relation = .absent then do
    let _ ← compareAndSwap host (absentState path none) (localCandidate host path document)
      (some document)
  else return ()

/-- The phase, unless it was reached before. -/
def reachRegistration (host : Host) (journal : RegistrationJournal) (phase : RegistrationPhase) :
    Prog RegistrationJournal :=
  if journal.phase.rank < phase.rank then advanceRegistration host journal phase none
  else return journal

/-- The steps of a registration, once the files on disk were compared with their candidates. -/
def commitRegistration (host : Host) (journal : RegistrationJournal)
    (workspaceRelation replayRelation : Relation) : Prog WorkspaceRegistrationResult := do
  createLocal host workspaceRelation workspacePath (.workspace journal.workspaceCandidate)
  let journal ← reachRegistration host journal .workspaceWritten
  createLocal host replayRelation replayPath (.replayLedger journal.replayCandidate)
  let journal ← reachRegistration host journal .registrationCommitted
  let journal ← reachRegistration host journal .cleanupPending
  let journal ← reachRegistration host journal .complete
  return journal.result true

def finishRegistration (host : Host) (journal : RegistrationJournal) :
    Prog WorkspaceRegistrationResult := do
  let workspaceRelation ← Program.inspect
    (candidateRelation host workspacePath (.workspace journal.workspaceCandidate))
  let replayRelation ← Program.inspect
    (candidateRelation host replayPath (.replayLedger journal.replayCandidate))
  if workspaceRelation = .third ∨ replayRelation = .third ∨
      replayRelation = .candidate ∧ workspaceRelation ≠ .candidate then
    Program.throw (registrationRecovery
      "workspace registration encountered an external third state" [])
  else if RegistrationPhase.registrationCommitted.rank ≤ journal.phase.rank ∧
      ¬ (workspaceRelation = .candidate ∧ replayRelation = .candidate) then
    Program.throw (registrationRecovery
      "committed workspace registration pair is missing or inconsistent" [])
  else commitRegistration host journal workspaceRelation replayRelation

structure RegistrationRequest where
  manifest : CommittedManifest
  layout : LayoutSnapshot
  transactionId : String
  workspaceInstanceId : String
  recoveryRuntime : RuntimeReference

def RegistrationRequest.journal (host : Host) (request : RegistrationRequest) :
    RegistrationJournal :=
  registrationJournal host request.transactionId
    (workspaceDocument request.manifest request.layout request.workspaceInstanceId)
    (replayDocument request.manifest.projectId request.workspaceInstanceId)
    request.recoveryRuntime

/-- The locks of a registration, and what has to hold of the checkout. -/
def enterRegistration (host : Host) (around : Surroundings) : Prog Unit := do
  Program.lift around.bootstrap
  acquireProjectLocks host
  Program.inspect (validateIgnoreAndTracking around)

/-- The clone has no workspace yet, and nothing else is under way. -/
def checkFresh (host : Host) (around : Surroundings) (journal : RegistrationJournal) (s : FS) :
    Except Failure Unit := do
  let own := workspaceTransaction journal.transactionId
  if s.exists own || s.isSymlink own then do
    let existing ← loadRegistration host journal.transactionId s
    if existing.phase ≠ .complete then
      .error (registrationRecovery "workspace registration transaction requires recovery" [])
  match unfinishedExternalState around journal.transactionId s with
  | some path => .error (registrationRecovery
      "unrelated maintenance or transaction blocks registration" [("path", joinPath path)])
  | none => do
    let workspaceRelation ← candidateRelation host workspacePath
      (.workspace journal.workspaceCandidate) s
    if workspaceRelation ≠ .absent then
      .error (registrationFailure "workspace is not a fresh unregistered clone" [])
    else do
      let replayRelation ← candidateRelation host replayPath
        (.replayLedger journal.replayCandidate) s
      if replayRelation ≠ .absent ∨ s.exists own then
        .error (registrationFailure "workspace is not a fresh unregistered clone" [])
      else .ok ()

/-- Creates the workspace and replay pair; the creation of the replay ledger is the commit. -/
def registerWorkspace (host : Host) (around : Surroundings) (request : RegistrationRequest) :
    Prog WorkspaceRegistrationResult := do
  Program.lift (workspaceUuid request.transactionId "transaction_id")
  Program.lift (workspaceUuid request.workspaceInstanceId "workspace_instance_id")
  Program.lift (validateManifest host request.manifest request.layout)
  let journal := request.journal host
  enterRegistration host around
  Program.inspect (checkFresh host around journal)
  writeRegistration host journal
  finishRegistration host journal

/-! ### Recovery -/

/-- The workspace file, where it is the candidate. -/
def removeLocal (host : Host) (relation : Relation) (path : Path) (document : Content) :
    Prog Unit :=
  if relation = .candidate then do
    let _ ← compareAndSwap host (localCandidate host path document) (absentState path none) none
  else return ()

/-- The undoing of an uncommitted registration. -/
def rollbackRegistration (host : Host) (journal : RegistrationJournal)
    (workspaceRelation : Relation) : Prog WorkspaceRegistrationResult := do
  removeLocal host workspaceRelation workspacePath (.workspace journal.workspaceCandidate)
  let changed ← advanceRegistration host journal .cleanupPending (some true)
  let _ ← advanceRegistration host changed .complete none
  return journal.result false

/-- One direction of recovery, once the journal is loaded. -/
def resumeOrRollback (host : Host) (action : RecoveryAction) (journal : RegistrationJournal) :
    Prog WorkspaceRegistrationResult := do
  let workspaceRelation ← Program.inspect
    (candidateRelation host workspacePath (.workspace journal.workspaceCandidate))
  let replayRelation ← Program.inspect
    (candidateRelation host replayPath (.replayLedger journal.replayCandidate))
  if workspaceRelation = .third ∨ replayRelation = .third ∨
      replayRelation = .candidate ∧ workspaceRelation ≠ .candidate then
    Program.throw (registrationRecovery
      "workspace registration recovery found an external third state" [])
  else match action with
    | .rollback =>
      if workspaceRelation = .candidate ∧ replayRelation = .candidate then
        Program.throw (registrationRecovery
          "committed workspace registration cannot be rolled back" [])
      else rollbackRegistration host journal workspaceRelation
    | .resume => finishRegistration host journal

def recoverWorkspaceRegistration (host : Host) (around : Surroundings) (transactionId : String)
    (action : RecoveryAction) : Prog WorkspaceRegistrationResult := do
  Program.lift (workspaceUuid transactionId "transaction_id")
  enterRegistration host around
  let journal ← Program.inspect (loadRegistration host transactionId)
  resumeOrRollback host action journal

end AgentStack.Runtime
