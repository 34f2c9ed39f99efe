import AgentStack.Runtime.TaskService

/-! Requests on an admitted task: claim, release, transition and archive. Each call checks first
and then exchanges the integration document under a journal. -/
namespace AgentStack.Runtime

open AgentStack.Core FileTree Crash Reconcile

structure TaskClaimRequest where
  taskRef : String
  taskId : String
  expectedRevision : Int
  claimId : String
  executor : String
  actor : String
  claimedAt : Time
  deriving DecidableEq, Repr

structure TaskReleaseRequest where
  taskRef : String
  taskId : String
  expectedRevision : Int
  claimId : String
  actor : String
  deriving DecidableEq, Repr

structure TaskTransitionRequest where
  taskRef : String
  taskId : String
  expectedRevision : Int
  transitionId : String
  targetLifecycleStatus : String
  targetPhase : Option String
  completionFlags : Option (List (String × Bool))
  changedAt : Time
  deriving DecidableEq, Repr

structure TaskArchiveRequest where
  transactionId : String
  taskRef : String
  taskId : String
  expectedRevision : Int
  archiveRoot : String
  metadataMutations : List MetadataMutation
  archivedAt : Time
  outboxEffects : List OutboxEffect
  deriving DecidableEq, Repr

/-! ### Texts -/

def lifecycleStatus? : String → Option LifecycleStatus
  | "admitting" => some .admitting
  | "active" => some .active
  | "blocked" => some .blocked
  | "completed" => some .completed
  | "archiving" => some .archiving
  | "archived" => some .archived
  | _ => none

def heavyPhase? : String → Option HeavyPhase
  | "specifying" => some .specifying
  | "planning" => some .planning
  | "implementing" => some .implementing
  | "verifying" => some .verifying
  | "finishing" => some .finishing
  | _ => none

/-- Year, month and day of a day counted from 1970-01-01. -/
def civilDate (days : Int) : Int × Int × Int :=
  let z := days + 719468
  let era := z / 146097
  let doe := z % 146097
  let yoe := (doe - doe / 1460 + doe / 36524 - doe / 146096) / 365
  let doy := doe - (365 * yoe + yoe / 4 - yoe / 100)
  let mp := (5 * doy + 2) / 153
  let month := if mp < 10 then mp + 3 else mp - 9
  (yoe + 400 * era + if month ≤ 2 then 1 else 0, month, doy - (153 * mp + 2) / 5 + 1)

def padded (width : Nat) (n : Int) : String :=
  let digits := (toString n.toNat).toList
  String.ofList (List.replicate (width - digits.length) '0' ++ digits)

/-- `isoformat` of an instant, counted in microseconds, with `Z` for the UTC offset. -/
def format (time : Time) : String :=
  let seconds := time / 1000000
  let (year, month, day) := civilDate (seconds / 86400)
  let micros := time % 1000000
  padded 4 year ++ "-" ++ padded 2 month ++ "-" ++ padded 2 day ++ "T" ++
    padded 2 (seconds % 86400 / 3600) ++ ":" ++ padded 2 (seconds % 3600 / 60) ++ ":" ++
    padded 2 (seconds % 60) ++ (if micros = 0 then "" else "." ++ padded 6 micros) ++ "Z"

/-! ### Checks -/

def taskUuid (value field : String) : Except Failure Unit :=
  match parseUuid value with
  | none => .error (transitionFailure "task UUID is invalid" [("field", field)])
  | some canonical =>
    if canonical = value then .ok ()
    else .error (transitionFailure "task UUID is not canonical" [("field", field)])

def normalizedTaskRef (host : Host) (value : String) : Except Failure String :=
  match normalizePath host.nfc value with
  | .ok path => .ok (joinPath path)
  | .error _ => .error ⟨.runtime, "AWP_TASK_REF_CONFLICT", "task ref is invalid",
      [("task_ref", value)]⟩

def readIntegrationPath (host : Host) (path : Path) (s : FS) :
    Except Failure (Integration × VerifiedIntegration) :=
  match s.get path with
  | some (.file (.integration document) _) => do
    let verified ← validateIntegration host document
    return (document, verified)
  | some (.file (.bytes _) _) => .error (stale "integration file is corrupt")
  -- canonical documents of other kinds have no mode
  | some (.file _ _) =>
    .error (transitionFailure "integration string is invalid" [("field", "mode")])
  | _ => .error (stale "integration file is corrupt")

def loadTask (host : Host) (taskRef taskId : String) (expectedRevision : Int) (s : FS) :
    Except Failure (Integration × VerifiedIntegration) := do
  let normalized ← normalizedTaskRef host taskRef
  let (document, verified) ← readIntegrationPath host (integrationFile normalized) s
  taskUuid taskId "task_id"
  if verified.taskId ≠ taskId then
    .error (taskFailure "AWP_TASK_ID_CONFLICT" "task ID differs from integration")
  else if verified.stateRevision ≠ expectedRevision then
    .error (stale "task revision changed")
  else return (document, verified)

/-- A document that passes validation. -/
def validated (host : Host) (document : Integration) : Except Failure Integration := do
  let _ ← validateIntegration host document
  return document

/-! ### The document a request asks for -/

def claimAfter (host : Host) (request : TaskClaimRequest) (before : Integration)
    (verified : VerifiedIntegration) : Except Failure Integration :=
  match before.modeState with
  | .trellisNative _ =>
    .error (transitionFailure "claim requires heavy implementing phase" [])
  | .speckitSuperpowers heavy =>
    if verified.phase ≠ some .implementing then
      .error (transitionFailure "claim requires heavy implementing phase" [])
    else if verified.executorClaim.isSome then
      .error (stale "task already has an executor claim")
    else do
      taskUuid request.claimId "claim_id"
      validated host { before with
        lifecycle := { before.lifecycle with
          stateRevision := verified.stateRevision + 1
          lastTransition := [("operation", "claim"), ("claim_id", request.claimId)] }
        modeState := .speckitSuperpowers { heavy with
          executorClaim := some ⟨request.claimId, request.executor, request.actor,
            request.claimedAt, request.expectedRevision⟩ } }

def releaseAfter (host : Host) (request : TaskReleaseRequest) (before : Integration)
    (verified : VerifiedIntegration) : Except Failure Integration :=
  match verified.executorClaim, before.modeState with
  | some claim, .speckitSuperpowers heavy =>
    if claim.claimId ≠ request.claimId ∨ claim.actor ≠ request.actor then
      .error (transitionFailure "release claim identity differs" [])
    else
      validated host { before with
        lifecycle := { before.lifecycle with
          stateRevision := verified.stateRevision + 1
          lastTransition := [("operation", "release"), ("claim_id", request.claimId)] }
        modeState := .speckitSuperpowers { heavy with executorClaim := none } }
  | _, _ => .error (transitionFailure "release claim identity differs" [])

def allowedTargets : LifecycleStatus → List LifecycleStatus
  | .active => [.active, .blocked, .completed]
  | .blocked => [.active, .blocked, .completed]
  | .completed => [.completed]
  | _ => []

/-- The lifecycle after a transition. -/
def TaskTransitionRequest.lifecycle (request : TaskTransitionRequest) (before : Lifecycle)
    (target : LifecycleStatus) (revision : Int) : Lifecycle :=
  { before with
    status := target
    stateRevision := revision + 1
    blockedReason := if target = .blocked then some request.transitionId else none
    lastTransition := [("operation", "transition"), ("transition_id", request.transitionId),
      ("changed_at", format request.changedAt)] }

/-- The phase, flags and validation of a transition in the heavy mode. -/
def heavyTransition (host : Host) (request : TaskTransitionRequest) (before : Integration)
    (heavy : HeavyState) (target : LifecycleStatus) (lifecycle : Lifecycle) :
    Except Failure Integration :=
  let flagged := { heavy with
    completionFlags := request.completionFlags.getD heavy.completionFlags }
  let after (state : HeavyState) : Integration :=
    { before with lifecycle := lifecycle, modeState := .speckitSuperpowers state }
  if target = .completed ∧ ¬ flagged.completionFlags.all (·.2) then
    .error (transitionFailure "heavy completion flags are incomplete" [])
  else
    match request.targetPhase with
    | none => validated host (after flagged)
    | some text =>
      match heavyPhase? text with
      | some phase => validated host (after { flagged with phase := phase })
      | none => do
        let _ ← validated host (after flagged)
        requireString text "speckit_superpowers.phase"
        .error (transitionFailure "heavy phase is not closed" [("phase", text)])

def transitionAfter (host : Host) (request : TaskTransitionRequest) (before : Integration)
    (verified : VerifiedIntegration) : Except Failure Integration :=
  match lifecycleStatus? request.targetLifecycleStatus with
  | none => .error (transitionFailure "lifecycle transition is illegal" [])
  | some target =>
    if target ∉ allowedTargets verified.lifecycleStatus then
      .error (transitionFailure "lifecycle transition is illegal" [])
    else
      let lifecycle := request.lifecycle before.lifecycle target verified.stateRevision
      match before.modeState with
      | .trellisNative _ =>
        if request.targetPhase.isSome then
          .error (transitionFailure "Trellis-native has no heavy phase" [])
        else validated host { before with lifecycle := lifecycle }
      | .speckitSuperpowers heavy =>
        if verified.executorClaim.isSome ∧ request.targetPhase ≠ some "implementing" then
          .error (transitionFailure "unresolved executor claim blocks phase exit" [])
        else heavyTransition host request before heavy target lifecycle

def deriveArchiveRef (host : Host) (archiveRoot taskId admissionRef : String) :
    Except Failure String := do
  let root ← normalizedTaskRef host archiveRoot
  taskUuid taskId "task_id"
  let ref ← normalizedTaskRef host admissionRef
  let path ← normalizePath host.nfc (root ++ "/" ++ name (segments ref) ++ "--" ++ taskId)
  return joinPath path

/-- The documents that mark a task as archiving and as archived. -/
def archiveIntegrations (host : Host) (before : Integration) (transactionId : String)
    (archivedAt : Time) : Except Failure (Integration × Integration) := do
  let verified ← validateIntegration host before
  let marking ← validated host { before with
    lifecycle := { before.lifecycle with
      status := .archiving
      stateRevision := verified.stateRevision + 1
      lastTransition := [("operation", "task-archive"), ("transaction_id", transactionId)] } }
  let archived ← validated host { marking with
    lifecycle := { marking.lifecycle with
      status := .archived
      stateRevision := verified.stateRevision + 2
      archivedAt := some archivedAt } }
  return (marking, archived)

def archiveBlocked (message : String) : Failure := taskFailure "AWP_TASK_ARCHIVE_BLOCKED" message

/-- What an archive asks of the document. -/
def checkArchivable (before : Integration) (verified : VerifiedIntegration) :
    Except Failure Unit :=
  if verified.lifecycleStatus ≠ .completed ∨ verified.executorClaim.isSome then
    .error (archiveBlocked "task is not completed and claim-free")
  else
    match before.modeState with
    | .trellisNative _ => .ok ()
    | .speckitSuperpowers heavy =>
      if heavy.completionFlags = [] ∨ ¬ heavy.completionFlags.all (·.2) then
        .error (archiveBlocked "completion flags are incomplete")
      else .ok ()

def checkMutation (mutation : MetadataMutation) : Except Failure Unit :=
  if mutation.original.path ≠ mutation.candidate.path then
    .error (transitionFailure "metadata mutation changes path" [])
  else .ok ()

/-- The header of an archive, once its checks pass. -/
def archiveHeader (host : Host) (request : TaskArchiveRequest) (taskRef : String)
    (before : Integration) (verified : VerifiedIntegration) (s : FS) :
    Except Failure ArchiveHeader := do
  checkArchivable before verified
  let destination ← deriveArchiveRef host request.archiveRoot request.taskId verified.taskRef
  if s.exists (segments destination) then
    .error (archiveBlocked "archive destination already exists")
  else
    let (marking, archived) ←
      archiveIntegrations host before request.transactionId request.archivedAt
    request.metadataMutations.forM checkMutation
    return ⟨verified.taskId, taskRef, destination, before, marking, archived,
      request.metadataMutations, request.outboxEffects, request.archivedAt⟩

/-! ### The calls -/

/-- What claim, release and transition share up to the document they ask for. -/
def prepareMutation (host : Host) (ref taskId : String) (expectedRevision : Int)
    (next : Integration → VerifiedIntegration → Except Failure Integration) :
    Prog (String × Integration × Integration) := do
  let taskRef ← Program.lift (normalizedTaskRef host ref)
  enterTask host taskRef none
  let (before, verified) ← Program.inspect (loadTask host taskRef taskId expectedRevision)
  let after ← Program.lift (next before verified)
  return (taskRef, before, after)

/-- One exchange of the integration document, journalled. -/
def singleFileMutation (host : Host) (transactionId taskRef : String) (operation : Operation)
    (before after : Integration) : Prog TaskMutationResult := do
  let verified ← Program.lift (validateIntegration host before)
  let journal ← createTaskJournal host transactionId operation verified.taskId taskRef
    (.singleFile ⟨verified.taskId, taskRef, before, after⟩)
  casIntegration host taskRef before after
  let journal ← advanceTaskJournal host journal .integrationCommitted none
  let journal ← advanceTaskJournal host journal .cleanupPending none
  let _ ← advanceTaskJournal host journal .complete (some .committed)
  Program.lift (result host transactionId taskRef after .committed)

/-- `transactionId` is the UUID the call draws. -/
def claimTask (host : Host) (transactionId : String) (request : TaskClaimRequest) :
    Prog TaskMutationResult := do
  let (taskRef, before, after) ← prepareMutation host request.taskRef request.taskId
    request.expectedRevision (claimAfter host request)
  singleFileMutation host transactionId taskRef .claim before after

def releaseTask (host : Host) (transactionId : String) (request : TaskReleaseRequest) :
    Prog TaskMutationResult := do
  let (taskRef, before, after) ← prepareMutation host request.taskRef request.taskId
    request.expectedRevision (releaseAfter host request)
  singleFileMutation host transactionId taskRef .release before after

def transitionTask (host : Host) (transactionId : String) (request : TaskTransitionRequest) :
    Prog TaskMutationResult := do
  let (taskRef, before, after) ← prepareMutation host request.taskRef request.taskId
    request.expectedRevision (transitionAfter host request)
  singleFileMutation host transactionId taskRef .transition before after

def prepareArchive (host : Host) (request : TaskArchiveRequest) : Prog ArchiveHeader := do
  let taskRef ← Program.lift (normalizedTaskRef host request.taskRef)
  Program.lift (taskUuid request.transactionId "transaction_id")
  enterTask host taskRef none
  let (before, verified) ← Program.inspect
    (loadTask host taskRef request.taskId request.expectedRevision)
  Program.inspect (archiveHeader host request taskRef before verified)

def archiveTask (host : Host) (request : TaskArchiveRequest) : Prog TaskMutationResult := do
  let header ← prepareArchive host request
  let journal ← createTaskJournal host request.transactionId .archive header.taskId header.taskRef
    (.archive header)
  resumeArchive host header journal

/-- A call, with the UUID it draws where it draws one. -/
inductive Call
  | claim (transactionId : String) (request : TaskClaimRequest)
  | release (transactionId : String) (request : TaskReleaseRequest)
  | transition (transactionId : String) (request : TaskTransitionRequest)
  | archive (request : TaskArchiveRequest)
  deriving DecidableEq, Repr

def Call.run (host : Host) : Call → Prog TaskMutationResult
  | .claim transactionId request => claimTask host transactionId request
  | .release transactionId request => releaseTask host transactionId request
  | .transition transactionId request => transitionTask host transactionId request
  | .archive request => archiveTask host request

def Call.taskRef : Call → String
  | .claim _ request => request.taskRef
  | .release _ request => request.taskRef
  | .transition _ request => request.taskRef
  | .archive request => request.taskRef

def Call.expectedRevision : Call → Int
  | .claim _ request => request.expectedRevision
  | .release _ request => request.expectedRevision
  | .transition _ request => request.expectedRevision
  | .archive request => request.expectedRevision

/-! A call in two parts: what it checks and announces, and what it then does. -/

inductive Exchange
  | document (transactionId taskRef : String) (before after : Integration)
  | archive (header : ArchiveHeader)
  deriving DecidableEq, Repr

def announceMutation (host : Host) (transactionId : String) (operation : Operation)
    (ref taskId : String) (expectedRevision : Int)
    (next : Integration → VerifiedIntegration → Except Failure Integration) :
    Prog (Exchange × TaskJournal) := do
  let (taskRef, before, after) ← prepareMutation host ref taskId expectedRevision next
  let verified ← Program.lift (validateIntegration host before)
  let journal ← createTaskJournal host transactionId operation verified.taskId taskRef
    (.singleFile ⟨verified.taskId, taskRef, before, after⟩)
  return (.document transactionId taskRef before after, journal)

/-- A call up to its journal: every check it makes before it touches the task. -/
def Call.announce (host : Host) : Call → Prog (Exchange × TaskJournal)
  | .claim transactionId request => announceMutation host transactionId .claim request.taskRef
      request.taskId request.expectedRevision (claimAfter host request)
  | .release transactionId request => announceMutation host transactionId .release
      request.taskRef request.taskId request.expectedRevision (releaseAfter host request)
  | .transition transactionId request => announceMutation host transactionId .transition
      request.taskRef request.taskId request.expectedRevision (transitionAfter host request)
  | .archive request => do
    let header ← prepareArchive host request
    let journal ← createTaskJournal host request.transactionId .archive header.taskId
      header.taskRef (.archive header)
    return (.archive header, journal)

def Exchange.carryOut (host : Host) : Exchange → TaskJournal → Prog TaskMutationResult
  | .document transactionId taskRef before after, journal => do
    casIntegration host taskRef before after
    let journal ← advanceTaskJournal host journal .integrationCommitted none
    let journal ← advanceTaskJournal host journal .cleanupPending none
    let _ ← advanceTaskJournal host journal .complete (some .committed)
    Program.lift (result host transactionId taskRef after .committed)
  | .archive header, journal => resumeArchive host header journal

theorem Call.run_eq (host : Host) (c : Call) :
    c.run host = c.announce host >>= fun x => x.1.carryOut host x.2 := by
  cases c with
  | claim transactionId request =>
    simp only [Call.run, Call.announce, announceMutation, claimTask, singleFileMutation,
      Exchange.carryOut, bind_assoc, pure_bind]
  | release transactionId request =>
    simp only [Call.run, Call.announce, announceMutation, releaseTask, singleFileMutation,
      Exchange.carryOut, bind_assoc, pure_bind]
  | transition transactionId request =>
    simp only [Call.run, Call.announce, announceMutation, transitionTask, singleFileMutation,
      Exchange.carryOut, bind_assoc, pure_bind]
  | archive request =>
    simp only [Call.run, Call.announce, archiveTask, Exchange.carryOut, bind_assoc, pure_bind]

end AgentStack.Runtime
