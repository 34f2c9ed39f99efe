import AgentStack.Core.Fields
import AgentStack.Reconcile.Cas
import AgentStack.Reconcile.Locks
import AgentStack.Reconcile.Probe

/-! The lifecycle transaction that applies a saved plan: its journal, its maintenance marker, and
the Manifest that is committed last. -/
namespace AgentStack.Reconcile

open AgentStack.Core FileTree Crash

/-! ### Documents -/

inductive LifecyclePhase
  | planned
  | probing
  | prepared
  | applying
  | filesApplied
  | manifestCommitted
  | cleanupPending
  | complete
  deriving DecidableEq, Repr

/-- `_PHASE_ORDER`. -/
def LifecyclePhase.order : LifecyclePhase → Nat
  | .planned => 0
  | .probing => 1
  | .prepared => 2
  | .applying => 3
  | .filesApplied => 4
  | .manifestCommitted => 5
  | .cleanupPending => 6
  | .complete => 7

/-- A scan of the tasks, by the canonical texts of its parts. -/
structure TaskState where
  snapshot : String
  findings : String
  taskQuiescenceDigest : String
  deriving DecidableEq, Repr

structure LifecycleHeader where
  transactionId : String
  operation : String
  taskQuiescenceDigest : String
  candidateManifestGeneration : Int
  baselineManifestDigest : String
  deriving DecidableEq, Repr

/-- A Manifest; `body` is the canonical text of what the lifecycle does not look at. -/
structure ManifestDocument where
  generation : Int
  lastTransactionId : String
  lastTransactionBindingDigest : String
  body : String
  deriving DecidableEq, Repr

structure MaintenanceMarker where
  transactionId : String
  journalBindingDigest : String
  planDigest : String
  taskQuiescenceDigest : String
  candidateManifestGeneration : Int
  deriving DecidableEq, Repr

structure FileRecord where
  path : Path
  originalState : FileState
  candidateState : FileState
  candidateContent : Option Content
  backupPath : Option Path
  backupByteHash : Option String
  applied : Bool
  deriving DecidableEq, Repr

structure LifecycleJournal where
  header : LifecycleHeader
  journalBindingDigest : String
  taskState : TaskState
  planDigest : String
  candidateManifestDigest : String
  candidateManifest : ManifestDocument
  phase : LifecyclePhase
  fileRecords : List FileRecord
  createdDirectories : List Path
  rolledBack : Bool
  deriving DecidableEq, Repr

/-- A JSON object in a file of the control directory. -/
inductive LifecycleDocument
  | journal (document : LifecycleJournal)
  | marker (document : MaintenanceMarker)
  | manifest (document : ManifestDocument)
  | other
  deriving DecidableEq, Repr

/-- The machine, with the canonical texts of the documents: reading one back gives the document,
and `load` gives nothing for what is no object. -/
structure LifecycleHost extends Host where
  content : LifecycleDocument → Content
  load : Content → Option LifecycleDocument
  load_content : ∀ document, load (content document) = some document
  journalBinding : LifecycleHeader → String

def transactionRoot : Path := controlDir ++ ["transactions"]

def transactionPath (transactionId : String) : Path := transactionRoot ++ [transactionId ++ ".json"]

def maintenancePath : Path := controlDir ++ ["maintenance.json"]

def manifestPath : Path := controlDir ++ ["manifest.json"]

/-- `f"{n:04d}"`. -/
def fourDigits (n : Nat) : String :=
  let digits := Nat.repr n
  String.ofList (List.replicate (4 - digits.length) '0') ++ digits

def backupPath (transactionId : String) (n : Nat) : Path :=
  transactionRoot ++ [transactionId ++ ".data", "backups", fourDigits n ++ ".bin"]

/-! ### The plan -/

structure FilePrecondition where
  path : Path
  observed : FileState
  action : String
  reasonCode : String
  candidateContent : Option Content
  deriving DecidableEq, Repr

/-- A saved plan; `candidateManifest` is what `render_candidate_manifest` makes of it. -/
structure SavedPlan where
  operation : String
  transactionId : String
  taskQuiescenceDigest : String
  candidateManifestGeneration : Int
  manifestDigest : String
  taskState : TaskState
  preconditions : List FilePrecondition
  candidateFileStates : List FileState
  header : LifecycleHeader
  journalBindingDigest : String
  planDigest : String
  candidateManifestDigest : String
  candidateManifest : ManifestDocument

abbrev Scanner := FS → Except Failure TaskState

/-- A filesystem under probe: how it takes names, what else it answers, and the hash of the
evidence. -/
structure ProbedFilesystem where
  rules : NameRules
  answers : ProbeAnswers
  hasher : Hasher

/-- What an apply is called with. -/
structure ApplyContext where
  planDigest : String
  /-- The outcome of `validate_saved_plan_envelope`. -/
  admission : Except Failure Unit
  scanner : Option Scanner
  hasRoot : Bool
  hasLayouts : Bool
  hasSchemas : Bool
  /-- The outcome of taking the lock outside the tree, where its root is given. -/
  bootstrapLock : Option (Except Failure Unit)
  /-- The outcome of `build_first_init_local_state`: the workspace and the replay ledger. -/
  localState : Except Failure (Content × Content)
  filesystem : ProbedFilesystem

def stableReasons : List String :=
  ["already-current", "create-once-already-consumed", "user-owned-no-write-authority",
    "adopted-drift-is-observed"]

/-- `_is_true_noop`. -/
def SavedPlan.isTrueNoop (plan : SavedPlan) : Bool :=
  plan.operation = "sync" && plan.candidateFileStates.isEmpty &&
    plan.preconditions.all fun p => p.action = "no-op" && p.reasonCode ∈ stableReasons

def SavedPlan.candidateOf (plan : SavedPlan) (path : Path) : Option FileState :=
  plan.candidateFileStates.reverse.find? fun f => f.path = path

/-- The preconditions that have a candidate. -/
def SavedPlan.planned (plan : SavedPlan) : List (FilePrecondition × FileState) :=
  plan.preconditions.filterMap fun p => (plan.candidateOf p.path).map fun candidate => (p, candidate)

def plannedRecord (transactionId : String) (n : Nat) (p : FilePrecondition × FileState) :
    FileRecord where
  path := p.1.path
  originalState := p.1.observed
  candidateState := p.2
  candidateContent := p.1.candidateContent
  backupPath := if p.1.observed.exists then some (backupPath transactionId n) else none
  backupByteHash := none
  applied := false

def localRecord (host : Host) (path : Path) (content : Content) : FileRecord where
  path := path
  originalState := absentState path none
  candidateState := regularState path (host.hashBytes content) 0o600 none
  candidateContent := some content
  backupPath := none
  backupByteHash := none
  applied := false

def localFile (n : String) : Path := controlDir ++ ["local", n]

/-- `_file_records`. -/
def SavedPlan.fileRecords (host : Host) (plan : SavedPlan) (context : ApplyContext) :
    Except Failure (List FileRecord) := do
  let records := plan.planned.mapIdx (plannedRecord plan.transactionId)
  if plan.operation = "init" then
    let (workspace, replay) ← context.localState
    return records ++ [localRecord host (localFile "workspace.json") workspace,
      localRecord host (localFile "approval-replay.json") replay]
  else return records

def SavedPlan.marker (plan : SavedPlan) : MaintenanceMarker where
  transactionId := plan.transactionId
  journalBindingDigest := plan.journalBindingDigest
  planDigest := plan.planDigest
  taskQuiescenceDigest := plan.taskQuiescenceDigest
  candidateManifestGeneration := plan.candidateManifestGeneration

/-- `build_lifecycle_journal`. -/
def SavedPlan.journal (plan : SavedPlan) (records : List FileRecord) (created : List Path) :
    LifecycleJournal where
  header := plan.header
  journalBindingDigest := plan.journalBindingDigest
  taskState := plan.taskState
  planDigest := plan.planDigest
  candidateManifestDigest := plan.candidateManifestDigest
  candidateManifest := plan.candidateManifest
  phase := .planned
  fileRecords := records
  createdDirectories := created
  rolledBack := false

/-! ### The journal -/

section Journal

variable (host : LifecycleHost)

/-- `LifecycleJournal.from_document`. -/
def LifecycleJournal.check (j : LifecycleJournal) : Except Failure Unit := do
  Core.check (isDigest j.journalBindingDigest)
    (recoveryRequired "reconcile digest is invalid" [("field", "journal_binding_digest")])
  Core.check (j.journalBindingDigest = host.journalBinding j.header)
    (recoveryRequired "lifecycle journal immutable binding changed" [])
  Core.check (isDigest j.planDigest)
    (recoveryRequired "reconcile digest is invalid" [("field", "plan_digest")])
  Core.check (isDigest j.candidateManifestDigest)
    (recoveryRequired "reconcile digest is invalid" [("field", "candidate_manifest_digest")])

def loadJournal (path : Path) (s : FS) : Except Failure LifecycleJournal :=
  match s.get path with
  | some (.file c _) =>
    match host.load c with
    | some (.journal j) => do
      j.check host
      return j
    | some _ => .error (recoveryRequired "lifecycle journal fields are not closed" [])
    | none => .error (recoveryRequired "lifecycle journal is invalid" [])
  | _ => .error (recoveryRequired "lifecycle journal is unavailable" [])

/-- The fields that no update of a journal may change. -/
def LifecycleJournal.immutable (j : LifecycleJournal) : LifecycleJournal :=
  { j with phase := .planned, fileRecords := [], rolledBack := false }

/-- The stored journal is an earlier version of `j`. -/
def LifecycleJournal.follows (j : LifecycleJournal) (s : FS) : Except Failure Unit := do
  let existing ← loadJournal host (transactionPath j.header.transactionId) s
  Core.check (existing.immutable = j.immutable)
    (recoveryRequired "lifecycle journal immutable evidence changed" [])
  Core.check (existing.phase.order ≤ j.phase.order)
    (recoveryRequired "lifecycle journal phase regressed" [])

/-- `_atomic_json`. -/
def lifecycleJson (path : Path) (document : LifecycleDocument) : Prog Unit := do
  DirTree.mkdirs host.dirMode (parent path)
  DirTree.replaceFile host.names ("." ++ name path ++ ".") path (host.content document) 0o600
    (pure ())

def writeJournal (j : LifecycleJournal) : Prog Unit := do
  Program.lift (j.check host)
  let path := transactionPath j.header.transactionId
  Program.whenever (fun s => s.exists path || s.isSymlink path) (Program.inspect (j.follows host))
  lifecycleJson host path (.journal j)

def advanceJournal (j : LifecycleJournal) (phase : LifecyclePhase) (records : List FileRecord)
    (rolledBack : Bool) : Except Failure LifecycleJournal := do
  let changed := { j with phase := phase, fileRecords := records, rolledBack := rolledBack }
  changed.check host
  return changed

/-- `advance_journal` and `write_journal`, one after the other. -/
def recordPhase (j : LifecycleJournal) (phase : LifecyclePhase) (records : List FileRecord) :
    Prog LifecycleJournal := do
  let changed ← Program.lift (advanceJournal host j phase records j.rolledBack)
  writeJournal host changed
  return changed

end Journal

/-! ### The maintenance marker and the Manifest -/

section Marker

variable (host : LifecycleHost)

def maintenanceCorrupt (message : String) : Failure :=
  ⟨.renderer, "AWP_MAINTENANCE_CORRUPT", message, []⟩

def writeMaintenance (marker : MaintenanceMarker) : Prog Unit := do
  let present ← Program.read fun s => s.exists maintenancePath || s.isSymlink maintenancePath
  if present then Program.throw (maintenanceCorrupt "maintenance marker already exists")
  else
    DirTree.replaceFile host.names ".maintenance." maintenancePath (host.content (.marker marker))
      0o600 (pure ())

def removeMaintenance (marker : MaintenanceMarker) : Prog Unit := do
  Program.inspect fun s => match s.get maintenancePath with
    | some (.file c _) => check (c = host.content (.marker marker))
        (maintenanceCorrupt "maintenance marker binding changed")
    | _ => .error (maintenanceCorrupt "maintenance marker is missing")
  DirTree.syscall (DirTree.unlink maintenancePath)

def manifestState (manifestDigest : String) : FileState :=
  regularState manifestPath manifestDigest 0o644 none

def manifestPrecondition (operation manifestDigest : String) : FileState :=
  if operation = "init" then absentState manifestPath none else manifestState manifestDigest

/-- The Manifest is exchanged by a compare-and-swap from its precondition. -/
def commitManifest (operation baselineDigest candidateDigest : String)
    (manifest : ManifestDocument) : Prog Unit := do
  let _ ← compareAndSwap host.toHost (manifestPrecondition operation baselineDigest)
    (manifestState candidateDigest) (some (host.content (.manifest manifest)))

end Marker

/-! ### The files -/

section Files

variable (host : LifecycleHost)

def applyCasFailure (message : String) : Failure :=
  ⟨.renderer, "AWP_FILE_CAS_MISMATCH", message, []⟩

/-- The directories above a path that are missing. -/
def missingAbove (path : Path) (s : FS) : Except Failure (List Path) := do
  (parent path).inits.tail.forM fun q =>
    if s.isSymlink q then .error (applyCasFailure "candidate directory path is a symlink")
    else if s.exists q && !s.isDir q then
      .error (applyCasFailure "candidate directory path is not a directory")
    else .ok ()
  return (parent path).inits.tail.filter fun q => !s.exists q

/-- By depth, and by text in one depth. -/
def shallowFirst (a b : Path) : Prop :=
  a.length < b.length ∨ a.length = b.length ∧ joinPath a ≤ joinPath b

instance : DecidableRel shallowFirst := fun _ _ => inferInstanceAs (Decidable (_ ∨ _))

/-- `_created_directories`. -/
def createdDirectories (records : List FileRecord) (s : FS) : Except Failure (List Path) := do
  let missing ← records.mapM fun r =>
    if r.candidateState.exists then missingAbove r.candidateState.path s else .ok []
  return missing.flatten.dedup.insertionSort shallowFirst

def prepareBackup (r : FileRecord) : Prog FileRecord :=
  match r.backupPath with
  | some backup =>
    if !r.originalState.exists then pure r
    else do
      let payload ← Program.inspect fun s => match s.get r.originalState.path with
        | some (.file c _) => do
          check (some (host.hashBytes c) = r.originalState.byteHash)
            (applyCasFailure "backup source bytes changed")
          return c
        | _ => .error (applyCasFailure "backup source changed type")
      DirTree.mkdirs host.dirMode (parent backup)
      DirTree.syscall (DirTree.truncate host.fileMode backup)
      DirTree.syscall (DirTree.write payload backup)
      let mode ← Program.lift (require r.originalState.mode (keyError "mode"))
      DirTree.syscall (DirTree.chmod mode backup)
      return { r with backupByteHash := r.originalState.byteHash }
  | none => pure r

/-- `_prepare_backups`. -/
def prepareBackups (records : List FileRecord) (created : List Path) : Prog (List FileRecord) := do
  Program.each created fun d => DirTree.syscall (DirTree.mkdir host.dirMode d)
  records.mapM (prepareBackup host)

def applyRecord (r : FileRecord) : Prog FileRecord := do
  let _ ← compareAndSwap host.toHost r.originalState r.candidateState r.candidateContent
  return { r with applied := true }

/-- `_apply_file_records`. -/
def applyFileRecords (records : List FileRecord) : Prog (List FileRecord) :=
  records.mapM (applyRecord host)

def removeBackup (backup : Path) : Prog Unit :=
  Program.whenever (fun s => s.exists backup) do
    Program.inspect fun s => check (!s.isSymlink backup && s.isFile backup)
      (recoveryRequired "backup path changed type" [])
    DirTree.syscall (DirTree.unlink backup)

/-- `_cleanup_transaction_data`. -/
def cleanupTransactionData (records : List FileRecord) : Prog Unit := do
  let backups := records.filterMap (·.backupPath)
  Program.each backups removeBackup
  let directories := (backups.flatMap fun b => [parent b, parent (parent b)]).dedup
  Program.each (directories.insertionSort fun a b => b.length ≤ a.length) fun d =>
    Program.whenever (fun s => s.exists d) (DirTree.syscall (DirTree.rmdir d))

end Files

/-! ### Applying a plan -/

section Apply

variable (host : LifecycleHost)

def requireSameTaskState (scanner : Scanner) (expected : TaskState) : Prog Unit :=
  Program.inspect fun s => do
    let actual ← scanner s
    check (actual = expected) ⟨.renderer, "AWP_TASK_QUIESCENCE_CHANGED",
      "task quiescence evidence changed during reconcile apply",
      [("latest_task_quiescence_digest", actual.taskQuiescenceDigest)]⟩

/-- The locks of an apply or a recovery: an init takes the one outside the tree first. -/
def lifecycleLocks (operation missing : String) (bootstrapLock : Option (Except Failure Unit)) :
    Prog Unit := do
  if operation = "init" then
    let outcome ← Program.lift (require bootstrapLock
      ⟨.renderer, "AWP_RECONCILE_LOCKED", missing, []⟩)
    Program.lift outcome
  acquireProjectLocks host.toHost

/-! ### The probe -/

def probeRoot (transactionId : String) : Path := [".agent-workflow-probe-" ++ transactionId]

/-- What the probe sees of a tree: the directory it works in. -/
def residueAt (p : Path) (s : FS) : Residue :=
  match s.get p with
  | none => .absent
  | some (.dir _) => .directory ((s.children p).map fun n =>
      (n, match s.get (p ++ [n]) with
        | some (.file (.bytes content) _) => .file content
        | _ => .other))
  | some _ => .notDirectory

/-- The tree with these probe files instead; the probe makes no other entries. -/
def putEntries (p : Path) (entries : List (String × ProbeEntry)) (s : FS) : FS :=
  entries.foldl (fun t e => match e.2 with
    | .file content => t.set (p ++ [e.1]) (.file (.bytes content) 0o644)
    | .other => t) s

def putResidue (p : Path) (r : Residue) (s : FS) : FS :=
  match r with
  | .absent => s.without p
  | .notDirectory => s
  | .directory entries => putEntries p entries ((s.without p).set p (.dir 0o700))

/-- `run_write_probe` on a project. -/
def writeProbe (filesystem : ProbedFilesystem) (transactionId : String) : Prog Unit := do
  let _ ← (runWriteProbe filesystem.hasher filesystem.rules filesystem.answers
    transactionId).onPart (residueAt (probeRoot transactionId))
      (putResidue (probeRoot transactionId))

/-- `str.rstrip(".")`. -/
def dropDots (value : String) : String :=
  String.ofList (value.toList.reverse.dropWhile (· = '.')).reverse

def probedActivity (operation : String) : String :=
  if operation = "init" then "Initialization"
  else if operation = "sync" then "Synchronization"
  else if operation = "repair" then "Repair"
  else if operation = "upgrade" then "Upgrade"
  else match operation.toList with
    | [] => ""
    | c :: cs => String.ofList (c.toUpper :: cs.map Char.toLower)

def recoveryCommand (transactionId : String) : String :=
  ".agent-workflow/bin/agent-stack recover --transaction " ++ transactionId ++
    " --rollback --json"

/-- What `_run_lifecycle_probe` makes of a failure of the probe. -/
def lifecycleProbeFailure (transactionId operation : String) (e : Failure) : Failure :=
  if e.code ≠ "AWP_FILESYSTEM_UNSUPPORTED" then e
  else
    let advice := if filesystemRecommendedAction.toList <:+: e.message.toList then []
      else [dropDots filesystemRecommendedAction]
    let last := if operation = "init" then
        "Start again from a clean clone under /home/<user>/... and carry over " ++
          "reviewed uncommitted changes without copying .agent-workflow"
      else "Before retrying, run `" ++ recoveryCommand transactionId ++ "`"
    let parts := [dropDots e.message,
      probedActivity operation ++ " stopped during filesystem probing; it is not retrying",
      "No managed project files were applied"] ++ advice ++ [last]
    ⟨.renderer, e.code, ". ".intercalate parts ++ ".",
      e.details ++ [("transaction_id", transactionId), ("operation", operation),
        ("failure_phase", "probing"), ("recommended_action", filesystemRecommendedAction),
        ("faq_url", filesystemFaqUrl),
        if operation = "init" then ("recovery_action", "create-clean-wsl-native-clone")
        else ("recovery_command", recoveryCommand transactionId)]⟩

structure ApplyResult where
  transactionId : String
  committed : Bool
  noOp : Bool
  deriving DecidableEq, Repr

/-- From the journal to the marker: everything a recovery needs is on disk before a file of the
project changes. -/
def prepareTransaction (plan : SavedPlan) (context : ApplyContext) (records : List FileRecord)
    (created : List Path) : Prog (LifecycleJournal × List FileRecord) := do
  let planned := plan.journal records created
  writeJournal host planned
  let probing ← recordPhase host planned .probing planned.fileRecords
  Program.mapError (lifecycleProbeFailure plan.transactionId plan.operation)
    (writeProbe context.filesystem plan.transactionId)
  let records ← prepareBackups host records created
  let prepared ← recordPhase host probing .prepared records
  writeMaintenance host plan.marker
  return (prepared, records)

/-- After the Manifest: the journal follows, and what the transaction needed is removed. -/
def finishTransaction (j : LifecycleJournal) (records : List FileRecord)
    (removeMarker : Prog Unit) : Prog LifecycleJournal := do
  let committed ← recordPhase host j .manifestCommitted records
  let pending ← recordPhase host committed .cleanupPending records
  removeMarker
  cleanupTransactionData records
  recordPhase host pending .complete records

/-- The part of `apply_plan` that runs under the locks. -/
def applyLocked (plan : SavedPlan) (context : ApplyContext) (scanner : Scanner) :
    Prog ApplyResult := do
  requireSameTaskState scanner plan.taskState
  let records ← Program.lift (plan.fileRecords host.toHost context)
  let created ← Program.inspect (createdDirectories records)
  let (prepared, records) ← prepareTransaction host plan context records created
  let applying ← recordPhase host prepared .applying records
  let records ← applyFileRecords host records
  let applied ← recordPhase host applying .filesApplied records
  requireSameTaskState scanner plan.taskState
  commitManifest host plan.operation plan.manifestDigest plan.candidateManifestDigest
    plan.candidateManifest
  let _ ← finishTransaction host applied records (removeMaintenance host plan.marker)
  return ⟨plan.transactionId, true, false⟩

def applyPlan (plan : SavedPlan) (context : ApplyContext) : Prog ApplyResult := do
  Program.lift (check (context.planDigest = plan.planDigest)
    (recoveryRequired "apply approval does not bind the saved plan" []))
  Program.lift context.admission
  if plan.isTrueNoop then return ⟨plan.transactionId, false, true⟩
  else
    let scanner ← Program.lift (require context.scanner
      (recoveryRequired "production scanner port is not bound" []))
    Program.lift (check context.hasRoot
      (recoveryRequired "apply context lacks project root" []))
    Program.lift (check context.hasLayouts
      (recoveryRequired "apply context lacks verified layouts" []))
    Program.lift (check context.hasSchemas
      (recoveryRequired "apply context lacks verified schemas" []))
    lifecycleLocks host plan.operation "init apply lacks bootstrap lock root" context.bootstrapLock
    applyLocked host plan context scanner

end Apply

/-! ### Recovery -/

section Recovery

variable (host : LifecycleHost)

inductive RecoveryAction
  | resume
  | rollback
  deriving DecidableEq, Repr

/-- What a recovery is called with. -/
structure RecoveryContext where
  scanner : Option Scanner
  /-- The outcome of `_scanner_inputs`. -/
  scannerInputs : Except Failure Unit
  bootstrapLock : Option (Except Failure Unit)
  filesystem : ProbedFilesystem

structure LifecycleRecovery where
  transactionId : String
  committed : Bool
  rolledBack : Bool
  deriving DecidableEq, Repr

/-- `_marker`, from the journal's header. -/
def LifecycleJournal.marker (j : LifecycleJournal) : MaintenanceMarker where
  transactionId := j.header.transactionId
  journalBindingDigest := j.journalBindingDigest
  planDigest := j.planDigest
  taskQuiescenceDigest := j.header.taskQuiescenceDigest
  candidateManifestGeneration := j.header.candidateManifestGeneration

/-- The Manifest is the one that the transaction commits. -/
def ManifestDocument.commits (m : ManifestDocument) (j : LifecycleJournal) : Bool :=
  m.generation = j.header.candidateManifestGeneration &&
    m.lastTransactionId = j.header.transactionId &&
    m.lastTransactionBindingDigest = j.journalBindingDigest

/-- `_manifest_committed`. -/
def manifestCommitted (j : LifecycleJournal) (s : FS) : Except Failure Bool :=
  match s.get manifestPath with
  | some (.symlink _) => .error (recoveryRequired "Manifest path became a symlink" [])
  | some (.file c _) =>
    match host.load c with
    | some (.manifest m) => .ok (m.commits j)
    | some _ => .ok false
    | none => .error (recoveryRequired "Manifest is invalid during recovery" [])
  | _ => .ok false

/-- `_physical_projection`. -/
def FileState.physical (f : FileState) : FileState := { f with managedBlockHash := none }

def currentMatches (expected : FileState) (s : FS) : Bool :=
  match observeFileState host.toHost expected.path none s with
  | .ok current => current.physical = expected.physical
  | .error _ => false

def backupContent (r : FileRecord) (s : FS) : Except Failure (Option Content) :=
  if !r.originalState.exists then .ok none
  else match r.backupPath with
    | none => .error (recoveryRequired "journal backup path is missing" [])
    | some backup =>
      match s.get backup with
      | some (.file c _) => do
        check (some (host.hashBytes c) = r.originalState.byteHash)
          (recoveryRequired "journal backup bytes changed" [])
        return some c
      | _ => .error (recoveryRequired "journal backup is unavailable" [])

def rollbackConflict (message : String) (path : Path) : Failure :=
  ⟨.renderer, "AWP_ROLLBACK_CONFLICT", message, [("path", joinPath path)]⟩

def rollbackRecord (r : FileRecord) : Prog FileRecord := do
  let back ← Program.read (currentMatches host r.originalState)
  if back then return { r with applied := false }
  else
    Program.inspect fun s => check (currentMatches host r.candidateState s)
      (rollbackConflict "current state is neither original nor candidate" r.originalState.path)
    let payload ← Program.inspect (backupContent host r)
    let _ ← compareAndSwap host.toHost r.candidateState r.originalState payload
    return { r with applied := false }

/-- `_rollback_files`: the last record first. -/
def rollbackFiles (records : List FileRecord) : Prog (List FileRecord) := do
  let restored ← records.reverse.mapM (rollbackRecord host)
  return restored.reverse

def resumeRecord (r : FileRecord) : Prog FileRecord := do
  let done ← Program.read (currentMatches host r.candidateState)
  if done then return { r with applied := true }
  else
    Program.inspect fun s => check (currentMatches host r.originalState s)
      (casFailure "resume current state is neither original nor candidate" r.originalState.path)
    let _ ← compareAndSwap host.toHost r.originalState r.candidateState r.candidateContent
    return { r with applied := true }

/-- `_resume_files`. -/
def resumeFiles (records : List FileRecord) : Prog (List FileRecord) :=
  records.mapM (resumeRecord host)

def removeCreated (d : Path) : Prog Unit :=
  Program.whenever (fun s => s.exists d) do
    Program.inspect fun s => check (!s.isSymlink d && s.isDir d && (s.children d).isEmpty)
      (rollbackConflict "transaction-created directory changed or is not empty" d)
    DirTree.syscall (DirTree.rmdir d)

/-- `_cleanup_created_directories`: the deepest first. -/
def cleanupCreatedDirectories (directories : List Path) : Prog Unit :=
  Program.each (directories.insertionSort fun a b => b.length ≤ a.length) removeCreated

def removeMarkerIfPresent (marker : MaintenanceMarker) : Prog Unit :=
  Program.whenever (fun s => s.exists maintenancePath || s.isSymlink maintenancePath)
    (removeMaintenance host marker)

def ensureMarker (j : LifecycleJournal) (allowCreate : Bool) : Prog Unit := do
  let present ← Program.read fun s => s.exists maintenancePath || s.isSymlink maintenancePath
  if present then
    Program.inspect fun s => match s.get maintenancePath with
      | some (.file c _) => check (c = host.content (.marker j.marker))
          (maintenanceCorrupt "maintenance marker binding changed")
      | _ => .error (maintenanceCorrupt "maintenance marker binding changed")
  else if allowCreate then writeMaintenance host j.marker
  else Program.throw (maintenanceCorrupt "maintenance marker is missing after apply began")

/-- `_require_recovery_scan`. -/
def requireRecoveryScan (context : RecoveryContext) (j : LifecycleJournal) : Prog Unit := do
  let scanner ← Program.lift (require context.scanner
    (recoveryRequired "resume scanner port is not bound" []))
  Program.lift context.scannerInputs
  Program.inspect fun s => do
    let actual ← scanner s
    check (actual = j.taskState) ⟨.renderer, "AWP_TASK_QUIESCENCE_CHANGED",
      "task evidence changed during resume", []⟩

/-- `_cleanup_committed`. -/
def cleanupCommitted (j : LifecycleJournal) (records : List FileRecord) : Prog Unit :=
  if j.phase = .complete then do
    removeMarkerIfPresent host j.marker
    cleanupTransactionData records
  else if j.phase = .cleanupPending then do
    removeMarkerIfPresent host j.marker
    cleanupTransactionData records
    let _ ← recordPhase host j .complete records
  else do
    let _ ← finishTransaction host j records (removeMarkerIfPresent host j.marker)

def rollbackTransaction (j : LifecycleJournal) : Prog Unit := do
  let records ← rollbackFiles host j.fileRecords
  cleanupCreatedDirectories j.createdDirectories
  removeMarkerIfPresent host j.marker
  cleanupTransactionData records
  let complete ← Program.lift (advanceJournal host j .complete records true)
  writeJournal host complete

/-- The part of a resume that catches up with a probe or with backups that were cut off. -/
def resumePreparation (transactionId : String) (context : RecoveryContext)
    (j : LifecycleJournal) : Prog (LifecycleJournal × List FileRecord) :=
  if j.phase = .planned ∨ j.phase = .probing then do
    let probing ← recordPhase host j .probing j.fileRecords
    writeProbe context.filesystem transactionId
    let records ← prepareBackups host j.fileRecords j.createdDirectories
    let prepared ← recordPhase host probing .prepared records
    return (prepared, records)
  else pure (j, j.fileRecords)

def startApplying (j : LifecycleJournal) (records : List FileRecord) : Prog LifecycleJournal :=
  if j.phase = .prepared then recordPhase host j .applying records else pure j

def resumeTransaction (transactionId : String) (context : RecoveryContext)
    (j : LifecycleJournal) : Prog Unit := do
  let (j, records) ← resumePreparation host transactionId context j
  ensureMarker host j (j.phase = .prepared)
  let applying ← startApplying host j records
  let records ← resumeFiles host records
  let applied ← recordPhase host applying .filesApplied records
  requireRecoveryScan context applied
  commitManifest host j.header.operation j.header.baselineManifestDigest
    j.candidateManifestDigest j.candidateManifest
  let _ ← finishTransaction host applied records (removeMarkerIfPresent host j.marker)

/-- `_PRECOMMIT_PHASES`. -/
def LifecyclePhase.precommit (phase : LifecyclePhase) : Bool := phase.order < 5

def recoverCommitted (transactionId : String) (action : RecoveryAction) (j : LifecycleJournal) :
    Prog LifecycleRecovery := do
  if action = .rollback then
    Program.throw (recoveryRequired "committed transaction cannot be rolled back" [])
  else
    cleanupCommitted host j j.fileRecords
    return ⟨transactionId, true, false⟩

def recoverUncommitted (transactionId : String) (action : RecoveryAction)
    (context : RecoveryContext) (j : LifecycleJournal) : Prog LifecycleRecovery := do
  Program.lift (check j.phase.precommit
    (recoveryRequired "journal claims post-commit without a matching Manifest" []))
  if action = .rollback then
    rollbackTransaction host j
    return ⟨transactionId, false, true⟩
  else
    resumeTransaction host transactionId context j
    return ⟨transactionId, true, false⟩

/-- The part of `recover_transaction` that runs under the locks. -/
def recoverLocked (transactionId : String) (action : RecoveryAction) (context : RecoveryContext)
    (j : LifecycleJournal) : Prog LifecycleRecovery := do
  let committed ← Program.inspect (manifestCommitted host j)
  if committed then recoverCommitted host transactionId action j
  else recoverUncommitted host transactionId action context j

def recoverTransaction (transactionId : String) (action : RecoveryAction)
    (context : RecoveryContext) : Prog LifecycleRecovery := do
  let j ← Program.inspect (loadJournal host (transactionPath transactionId))
  lifecycleLocks host j.header.operation "init recovery lacks bootstrap lock root"
    context.bootstrapLock
  recoverLocked host transactionId action context j

end Recovery

end AgentStack.Reconcile
