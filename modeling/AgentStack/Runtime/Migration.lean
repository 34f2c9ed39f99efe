import AgentStack.Runtime.Workspace

/-! Migration of clone-local state, and its recovery. The workspace file is the commit. -/
namespace AgentStack.Runtime

open AgentStack.Core FileTree Crash Reconcile

def migrationFailure (code message : String) (details : List (String × String)) : Failure :=
  ⟨.runtime, code, message, details⟩

def migrationRecovery (message : String) (details : List (String × String)) : Failure :=
  migrationFailure "AWP_WORKSPACE_MIGRATION_RECOVERY_REQUIRED" message details

def MigrationPhase.rank : MigrationPhase → Nat
  | .planned => 0
  | .localCandidatesApplied => 1
  | .workspaceCommitted => 2
  | .cleanupPending => 3
  | .complete => 4

/-! ### Plan -/

/-- The file of a local document. Of other bytes, `isJson` says whether they are the canonical
text of an object. -/
def loadLocalDocument (isJson : Bytes → Bool) (path : Path) (s : FS) :
    Except Failure LocalDocument :=
  match s.get path with
  | some (.file (.workspace document) _) => .ok (.workspace document)
  | some (.file (.replayLedger document) _) => .ok (.replayLedger document)
  | some (.file (.outboxItem document) _) => .ok (.outboxItem document)
  | some (.file (.bytes payload) _) =>
    if isJson payload then .ok (.other payload)
    else .error (migrationRecovery "workspace local-state file is not canonical JSON"
      [("path", joinPath path)])
  | some (.file _ _) => .error (migrationRecovery "workspace local-state file is invalid"
      [("path", joinPath path)])
  | _ => .error (migrationRecovery "workspace local-state file is unavailable"
      [("path", joinPath path)])

def outboxDocuments (isJson : Bytes → Bool) (s : FS) :
    Except Failure (List (Path × LocalDocument)) :=
  if s.isSymlink outboxRoot then .error (migrationRecovery "task outbox root is a symlink" [])
  else if ¬ s.exists outboxRoot then .ok []
  else if ¬ s.isDir outboxRoot then
    .error (migrationRecovery "task outbox root is not a directory" [])
  else (listing s outboxRoot).mapM fun n => do
    let path := outboxRoot ++ [n]
    if s.isSymlink path ∨ ¬ s.isFile path ∨ suffix n ≠ ".json" then
      .error (migrationRecovery "task outbox contains an unexpected entry"
        [("path", joinPath path)])
    else do
      let document ← loadLocalDocument isJson path s
      return (path, document)

/-- A record of the file as it is, and as it will be. -/
def migrationFileRecord (host : Host) (path : Path) (kind : LocalKind)
    (preimageDocument candidateDocument : LocalDocument) (s : FS) :
    Except Failure MigrationRecord := do
  let observed ← observeFileState host path none s
  match observed.mode with
  | none => .error (migrationRecovery "workspace local-state preimage is not a regular file"
      [("path", joinPath path)])
  | some mode =>
    if ¬ observed.exists ∨ observed.fileType ≠ .regular then
      .error (migrationRecovery "workspace local-state preimage is not a regular file"
        [("path", joinPath path)])
    else if observed.byteHash ≠ some (host.hashBytes preimageDocument.content) then
      .error (migrationRecovery "workspace local-state preimage bytes changed"
        [("path", joinPath path)])
    else return ⟨path, kind, observed,
      regularState path (host.hashBytes candidateDocument.content) mode none,
      preimageDocument, candidateDocument⟩

/-- What a migration is given. `migrate` carries a document over the compatibility edge, `target`
makes the new workspace document, `identity` reads the project and the instance off one, and
`admission` is what else is checked before any record is built: the contracts, the source pair and
the task gate. -/
structure MigrationRequest where
  sourceLayout : LayoutSnapshot
  targetLayout : LayoutSnapshot
  sourceSchemas : SchemasSnapshot
  targetSchemas : SchemasSnapshot
  taskSnapshot : Json
  taskFindings : Json
  taskQuiescenceDigest : String
  isJson : Bytes → Bool
  migrate : Path → LocalDocument → Except Failure LocalDocument
  target : LocalDocument → LocalDocument
  identity : LocalDocument → String × String
  admission : FS → Except Failure Unit

def buildMigrationRecords (host : Host) (request : MigrationRequest)
    (workspace replay : LocalDocument) (s : FS) : Except Failure (List MigrationRecord) := do
  let migrated ← request.migrate replayPath replay
  let first ← migrationFileRecord host replayPath .approvalReplay replay migrated s
  let documents ← outboxDocuments request.isJson s
  let middle ← documents.mapM fun item => do
    let migrated ← request.migrate item.1 item.2
    migrationFileRecord host item.1 .taskOutbox item.2 migrated s
  let last ← migrationFileRecord host workspacePath .workspace workspace
    (request.target workspace) s
  return first :: (middle ++ [last])

def migrationJournal (host : Host) (transactionId : String) (request : MigrationRequest)
    (workspace : LocalDocument) (records : List MigrationRecord) : MigrationJournal :=
  let header : MigrationHeader := ⟨transactionId, (request.identity workspace).1,
    (request.identity workspace).2, request.sourceLayout, request.targetLayout,
    request.sourceSchemas, request.targetSchemas, request.taskSnapshot, request.taskFindings,
    request.taskQuiescenceDigest, records⟩
  ⟨header, host.sha256 (.migrationBinding header), .planned, none⟩

/-! ### Journal -/

def validateMigrationRecord (host : Host) (record : MigrationRecord) : Except Failure Unit := do
  let preimage ← FileState.fromDocument host.nfc record.preimageState
  let candidate ← FileState.fromDocument host.nfc record.candidateState
  if preimage.path ≠ record.path ∨ candidate.path ≠ record.path then
    .error (migrationRecovery "workspace migration file path changed" [])
  else if preimage.byteHash ≠ some (host.hashBytes record.preimageDocument.content) ∨
      candidate.byteHash ≠ some (host.hashBytes record.candidateDocument.content) then
    .error (migrationRecovery "workspace migration file document digest changed"
      [("path", joinPath record.path)])
  else .ok ()

/-- The files a migration may touch. -/
def migratable (path : Path) : Bool :=
  path = replayPath ∨ path = workspacePath ∨ outboxRoot <+: path ∧ path ≠ outboxRoot

def validateMigration (host : Host) (journal : MigrationJournal) : Except Failure Unit := do
  let header := journal.immutableHeader
  if journal.journalBindingDigest ≠ host.sha256 (.migrationBinding header) then
    .error (migrationRecovery "workspace migration journal contract is invalid" [])
  else do
    workspaceUuid header.transactionId "transaction_id"
    workspaceUuid header.projectId "project_id"
    workspaceUuid header.workspaceInstanceId "workspace_instance_id"
    header.fileRecords.forM (validateMigrationRecord host)
    let paths := header.fileRecords.map MigrationRecord.path
    if ¬ paths.Nodup ∨ paths.getLast? ≠ some workspacePath then
      .error (migrationRecovery
        "workspace migration records are duplicated or commit point is not last" [])
    else if ¬ paths.all migratable then
      .error (migrationRecovery "workspace migration record exceeds local-state authority" [])
    else .ok ()

def loadMigration (host : Host) (transactionId : String) (s : FS) :
    Except Failure MigrationJournal :=
  match s.get (workspaceTransaction transactionId) with
  | some (.file (.migration journal) _) => do
    validateMigration host journal
    return journal
  | some (.file (.bytes _) _) =>
    .error (migrationRecovery "workspace migration journal is invalid" [])
  | some (.file _ _) =>
    .error (migrationRecovery "workspace migration journal fields are not closed" [])
  | _ => .error (migrationRecovery "workspace migration journal is unavailable" [])

/-- What is stored under the journal's own name allows it to be written. -/
def checkMigration (host : Host) (journal : MigrationJournal) (s : FS) : Except Failure Unit :=
  let path := workspaceTransaction journal.immutableHeader.transactionId
  if s.exists path || s.isSymlink path then do
    let existing ← loadMigration host journal.immutableHeader.transactionId s
    if existing.immutableHeader ≠ journal.immutableHeader ∨
        existing.journalBindingDigest ≠ journal.journalBindingDigest then
      .error (migrationRecovery "workspace migration immutable evidence changed" [])
    else if journal.phase.rank < existing.phase.rank then
      .error (migrationRecovery "workspace migration phase regressed" [])
    else .ok ()
  else .ok ()

def writeMigrationJournal (host : Host) (journal : MigrationJournal) : Prog Unit := do
  Program.lift (validateMigration host journal)
  Program.inspect (checkMigration host journal)
  putDocument host (workspaceTransaction journal.immutableHeader.transactionId)
    (.migration journal)

def MigrationJournal.moved (journal : MigrationJournal) (phase : MigrationPhase)
    (rollbackState : Option (List String)) : MigrationJournal :=
  { journal with
    phase := phase
    rollbackState := if rollbackState.isSome then rollbackState else journal.rollbackState }

def advanceMigration (host : Host) (journal : MigrationJournal) (phase : MigrationPhase)
    (rollbackState : Option (List String)) : Prog MigrationJournal := do
  writeMigrationJournal host (journal.moved phase rollbackState)
  return journal.moved phase rollbackState

/-- The phase, unless it was reached before. -/
def reachMigration (host : Host) (journal : MigrationJournal) (phase : MigrationPhase) :
    Prog MigrationJournal :=
  if journal.phase.rank < phase.rank then advanceMigration host journal phase none
  else return journal

/-! ### Records -/

inductive RecordRelation
  | candidate
  | preimage
  | third
  deriving DecidableEq, Repr

def recordRelation (host : Host) (record : MigrationRecord) (s : FS) :
    Except Failure RecordRelation := do
  let observed ← observeFileState host record.preimageState.path none s
  return if observed = record.candidateState then .candidate
    else if observed = record.preimageState then .preimage
    else .third

/-- Each record with how its file compares. -/
def recordRelations (host : Host) (records : List MigrationRecord) (s : FS) :
    Except Failure (List (MigrationRecord × RecordRelation)) :=
  records.mapM fun record => do
    let relation ← recordRelation host record s
    Except.ok (record, relation)

def applyRecord (host : Host) (record : MigrationRecord) : Prog Unit := do
  let _ ← compareAndSwap host record.preimageState record.candidateState
    (some record.candidateDocument.content)

def restoreRecord (host : Host) (record : MigrationRecord) : Prog Unit := do
  let relation ← Program.inspect (recordRelation host record)
  if relation = .third then
    Program.throw (migrationRecovery "workspace migration rollback found an external third state"
      [("path", joinPath record.path)])
  else if relation = .candidate ∧ record.candidateState ≠ record.preimageState then do
    let _ ← compareAndSwap host record.candidateState record.preimageState
      (some record.preimageDocument.content)
  else return ()

/-! ### Migration -/

/-- What the scanner found of tasks. -/
structure ScannedTasks where
  snapshot : Json
  findings : Json
  taskQuiescenceDigest : String
  deriving DecidableEq, Repr

structure WorkspaceMigrationResult where
  committed : Bool
  workspace : LocalDocument
  replay : LocalDocument
  journalPath : Path
  deriving DecidableEq, Repr

def MigrationHeader.tasks (header : MigrationHeader) : ScannedTasks :=
  ⟨header.taskSnapshot, header.taskFindings, header.taskQuiescenceDigest⟩

def requireSameSnapshot (actual expected : ScannedTasks) : Except Failure Unit :=
  if actual = expected then .ok ()
  else .error (migrationFailure "AWP_TASK_QUIESCENCE_CHANGED"
    "task quiescence evidence changed during workspace migration"
    [("latest_task_quiescence_digest", actual.taskQuiescenceDigest)])

def rescan (scanner : FS → Except Failure ScannedTasks) (expected : ScannedTasks) (s : FS) :
    Except Failure Unit := do
  let latest ← scanner s
  requireSameSnapshot latest expected

/-- The local records are applied, and the workspace after them. -/
def commitMigration (host : Host) (scanner : FS → Except Failure ScannedTasks) (fresh : Bool)
    (journal : MigrationJournal) (localRecords : List (MigrationRecord × RecordRelation))
    (workspaceRecord : MigrationRecord) : Prog MigrationJournal := do
  Program.each localRecords fun item =>
    if fresh ∨ item.2 = .preimage then applyRecord host item.1 else return ()
  let journal ← reachMigration host journal .localCandidatesApplied
  Program.inspect (rescan scanner journal.immutableHeader.tasks)
  applyRecord host workspaceRecord
  advanceMigration host journal .workspaceCommitted none

def indexError : Failure := ⟨.core, "IndexError", "list index out of range", []⟩

def stopIteration : Failure := ⟨.core, "StopIteration", "", []⟩

/-- The documents of one side of the plan. -/
def MigrationJournal.result (journal : MigrationJournal) (committed : Bool)
    (side : MigrationRecord → LocalDocument) (workspaceRecord : MigrationRecord) :
    Except Failure WorkspaceMigrationResult :=
  match journal.immutableHeader.fileRecords.find? (·.kind = .approvalReplay) with
  | none => .error stopIteration
  | some replayRecord => .ok ⟨committed, side workspaceRecord, side replayRecord,
      workspaceTransaction journal.immutableHeader.transactionId⟩

def finishWorkspaceMigration (host : Host) (scanner : FS → Except Failure ScannedTasks)
    (fresh : Bool) (journal : MigrationJournal) : Prog WorkspaceMigrationResult := do
  let records := journal.immutableHeader.fileRecords
  match records.getLast? with
  | none => Program.throw indexError
  | some workspaceRecord => do
    let relations ← Program.inspect (recordRelations host records)
    let committed := decide (relations.getLast? = some (workspaceRecord, .candidate))
    if relations.any (·.2 = .third) then
      Program.throw (migrationRecovery
        "workspace migration encountered an external third state" [])
    else if committed ∧ relations.dropLast.any (·.2 ≠ .candidate) then
      Program.throw (migrationRecovery
        "committed workspace migration has incomplete local candidates" [])
    else if MigrationPhase.workspaceCommitted.rank ≤ journal.phase.rank ∧ ¬ committed then
      Program.throw (migrationRecovery "committed workspace migration is missing" [])
    else do
      let journal ← if committed then pure journal
        else commitMigration host scanner fresh journal relations.dropLast workspaceRecord
      let journal ← reachMigration host journal .cleanupPending
      let journal ← reachMigration host journal .complete
      Program.lift (journal.result true MigrationRecord.candidateDocument workspaceRecord)

/-- Its own name is not in use. -/
def checkUnused (host : Host) (transactionId : String) (s : FS) : Except Failure Unit :=
  let path := workspaceTransaction transactionId
  if s.exists path || s.isSymlink path then do
    let existing ← loadMigration host transactionId s
    if existing.phase ≠ .complete then
      .error (migrationRecovery "workspace migration transaction requires explicit recovery" [])
    else .error (migrationRecovery "workspace migration transaction id is reused" [])
  else .ok ()

/-- The plan, from the state on disk. -/
def planMigration (host : Host) (around : Surroundings) (transactionId : String)
    (request : MigrationRequest) (s : FS) : Except Failure MigrationJournal := do
  let workspace ← loadLocalDocument request.isJson workspacePath s
  let replay ← loadLocalDocument request.isJson replayPath s
  checkUnused host transactionId s
  request.admission s
  match unfinishedExternalState around transactionId s with
  | some path => .error (migrationRecovery
      "unrelated maintenance or transaction blocks workspace migration"
      [("path", joinPath path)])
  | none => do
    let records ← buildMigrationRecords host request workspace replay s
    return migrationJournal host transactionId request workspace records

/-- Migrates clone-local state with the workspace file as the commit. -/
def migrateWorkspace (host : Host) (around : Surroundings)
    (scanner : FS → Except Failure ScannedTasks) (transactionId : String)
    (request : MigrationRequest) : Prog WorkspaceMigrationResult := do
  Program.lift (workspaceUuid transactionId "transaction_id")
  acquireProjectLocks host
  let journal ← Program.inspect (planMigration host around transactionId request)
  writeMigrationJournal host journal
  finishWorkspaceMigration host scanner true journal

/-! ### Recovery -/

/-- The layouts and schemas a recovery is given. -/
structure ScannerContext where
  sourceLayout : LayoutSnapshot
  targetLayout : LayoutSnapshot
  sourceSchemas : SchemasSnapshot
  targetSchemas : SchemasSnapshot

def validateScannerContext (header : MigrationHeader) (context : ScannerContext) :
    Except Failure Unit :=
  if header.sourceLayout ≠ context.sourceLayout ∨ header.targetLayout ≠ context.targetLayout ∨
      header.sourceSchemas ≠ context.sourceSchemas ∨
      header.targetSchemas ≠ context.targetSchemas then
    .error (migrationRecovery "workspace migration recovery scanner context changed" [])
  else .ok ()

def restoredPaths (records : List MigrationRecord) : List String :=
  (records.map fun record => joinPath record.path).insertionSort (· ≤ ·)

/-- The local records are restored from the last to the first. -/
def rollbackMigration (host : Host) (journal : MigrationJournal)
    (workspaceRecord : MigrationRecord) : Prog WorkspaceMigrationResult := do
  let localRecords := journal.immutableHeader.fileRecords.dropLast.reverse
  Program.each localRecords (restoreRecord host)
  let changed ← advanceMigration host journal .cleanupPending (some (restoredPaths localRecords))
  let _ ← advanceMigration host changed .complete none
  Program.lift (journal.result false MigrationRecord.preimageDocument workspaceRecord)

def recoverWorkspaceMigration (host : Host) (scanner : FS → Except Failure ScannedTasks)
    (context : ScannerContext) (transactionId : String) (action : RecoveryAction) :
    Prog WorkspaceMigrationResult := do
  Program.lift (workspaceUuid transactionId "transaction_id")
  acquireProjectLocks host
  let journal ← Program.inspect (loadMigration host transactionId)
  Program.lift (validateScannerContext journal.immutableHeader context)
  match journal.immutableHeader.fileRecords.getLast? with
  | none => Program.throw indexError
  | some workspaceRecord => do
    let workspaceRelation ← Program.inspect (recordRelation host workspaceRecord)
    match action with
    | .rollback =>
      if workspaceRelation = .candidate then
        Program.throw (migrationRecovery
          "committed workspace migration cannot be rolled back" [])
      else if workspaceRelation = .third then
        Program.throw (migrationRecovery
          "workspace migration rollback found an external third state" [])
      else rollbackMigration host journal workspaceRecord
    | .resume => finishWorkspaceMigration host scanner false journal

end AgentStack.Runtime
