import AgentStack.Core.Surfaces
import AgentStack.Runtime.TaskService

/-! Loading the runtime of an existing task: authorization of one entry, and the units of the
pinned closure as immutable bytes. -/
namespace AgentStack.Runtime

open AgentStack.Core JsonText FileTree Crash Reconcile

structure RuntimeEntryDescriptor where
  entryId : String
  owningSurfaceId : String
  allowedModes : List Mode
  allowedLifecycleStatuses : List LifecycleStatus
  allowedPhases : List HeavyPhase
  claimPolicy : String
  deriving DecidableEq, Repr

/-- The package tree is given beside the request. -/
structure TaskRuntimeLoadRequest where
  taskRef : String
  taskId : String
  expectedStateRevision : Int
  expectedLifecycleStatus : LifecycleStatus
  expectedPhase : Option HeavyPhase
  expectedClaim : Option ExecutorClaim
  surfaceId : String
  runtimeEntryId : String
  registry : VerifiedSurfaceRegistry
  contractEvidence : List Members
  runtimeEntries : List (String × RuntimeEntryDescriptor)

structure DispatchUnit where
  unitId : String
  owningSurfaceId : String
  distributionScope : String
  normalizedPath : String
  mode : FileTree.Mode
  byteHash : String
  content : Content
  deriving DecidableEq, Repr

structure ImmutableDispatchBundle where
  taskId : String
  taskRef : String
  stateRevision : Int
  mode : Mode
  lifecycleStatus : LifecycleStatus
  phase : Option HeavyPhase
  surfaceId : String
  runtimeEntryId : String
  authorizedSurfaceIds : List String
  units : List DispatchUnit
  deriving DecidableEq, Repr

def denied (message : String) : Failure := taskFailure "AWP_TASK_RUNTIME_LOAD_DENIED" message

def mismatch (message : String) (details : List (String × String)) : Failure :=
  ⟨.runtime, "AWP_TASK_SURFACE_MISMATCH", message, details⟩

def loadTaskRef (host : Host) (value : String) : Except Failure String :=
  match normalizePath host.nfc value with
  | .ok path => .ok (joinPath path)
  | .error _ => .error (denied "task ref is invalid")

def readLoadedIntegration (taskRef : String) (s : FS) : Except Failure Content :=
  match s.get (integrationFile taskRef) with
  | some (.file c m) =>
    if m ≠ integrationMode then .error (stale "integration mode changed")
    else match c with
      | .bytes _ => .error (stale "integration is corrupt")
      | c => .ok c
  | _ => .error (stale "integration is missing or has invalid type")

/-- The surfaces that a surface reaches, itself included, in the registry's order. -/
def runtimeClosure (registry : VerifiedSurfaceRegistry) (surfaceId : String) :
    Except Failure (List String) := do
  check (surfaceId ∈ surfaceIds registry.surfaces) (mismatch "requested surface is unknown" [])
  let result := reachedFrom registry.surfaces [surfaceId]
  let missing := Core.mandatorySurfaces.filter (· ∉ result)
  check (missing = []) (mismatch "runtime surface closure omits mandatory meta-surfaces"
    [("missing", joinTexts (sortStrings missing))])
  return registry.topologicalSurfaceIds.filter (· ∈ result)

/-- `seen` is the evidence before. -/
def evidenceMap (seen : List (String × Members)) :
    List Members → Except Failure (List (String × Members))
  | [] => .ok seen
  | item :: items => do
    let unitId ← require ((stringValue? (getField item "unit_id")).filter
      (· ∉ seen.map Prod.fst)) (mismatch "contract evidence identity is invalid" [])
    evidenceMap (seen ++ [(unitId, item)]) items

/-- The directories above a unit, the root among them. -/
def unitParents (path : Path) : List Path := (List.range path.length).map path.take

def readUnit (host : Host) (registry : VerifiedSurfaceRegistry) (package s : FS)
    (unitId : String) : Except Failure DispatchUnit := do
  let descriptor ← require (unitAt registry unitId) (keyError unitId)
  let tree := if descriptor.distributionScope = "runtime-package" then package else s
  check (decide (tree.realDir []))
    (mismatch (descriptor.distributionScope ++ " root is unavailable") [])
  let path ← normalizePath host.nfc descriptor.normalizedPath
  check ((unitParents path).all fun d => decide (tree.realDir d))
    (mismatch "runtime unit parent changed type" [("path", joinPath path)])
  match tree.get path with
  | some (.file c m) =>
    return ⟨unitId, descriptor.owningSurfaceId, descriptor.distributionScope,
      descriptor.normalizedPath, m, host.hashBytes c, c⟩
  | some (.dir _) =>
    .error (mismatch "runtime unit is not a regular file" [("unit_id", unitId)])
  | _ => .error (mismatch "runtime unit is missing or unreadable" [("unit_id", unitId)])

def unitNamed (units : List DispatchUnit) (unitId : String) : Option DispatchUnit :=
  units.find? (·.unitId = unitId)

/-- The evidence of one unit, with what was read in place of what was expected. -/
def observedUnit (expected : List (String × Members)) (units : List DispatchUnit)
    (unitId : String) : Except Failure Members := do
  let contract ← require (expected.lookup unitId) (mismatch "contract evidence is incomplete" [])
  match unitNamed units unitId with
  | none => return contract
  | some unit =>
    return [("unit_id", .string unitId), ("byte_hash", .string unit.byteHash),
      ("mode", .string (modeText unit.mode)),
      ("contract_digest", getField contract "contract_digest"),
      ("distributions", getField contract "distributions")]

def observedEvidence (registry : VerifiedSurfaceRegistry) (expected : List (String × Members))
    (units : List DispatchUnit) : Except Failure (List Members) :=
  (registry.units.map (·.unitId)).mapM (observedUnit expected units)

def requestedEntry (request : TaskRuntimeLoadRequest) :
    Except Failure RuntimeEntryDescriptor := do
  check (isSurfaceSuffix request.runtimeEntryId.toList) (denied "runtime entry ID is invalid")
  let entry ← require ((request.runtimeEntries.lookup request.runtimeEntryId).filter
    fun entry => entry.entryId = request.runtimeEntryId) (denied "runtime entry is not registered")
  check (entry.owningSurfaceId = request.surfaceId)
    (denied "runtime entry owner differs from request")
  check (entry.claimPolicy ∈ ["forbidden", "optional", "required"])
    (denied "runtime entry claim policy is invalid")
  return entry

def validateLoaded (host : Host) (content : Content) :
    Except Failure VerifiedIntegration :=
  match content with
  | .integration document =>
    match validateIntegration host document with
    | .ok verified => .ok verified
    | .error f =>
      .error (taskFailure (if (f.message.splitOn "surface").length > 1
        then "AWP_TASK_SURFACE_MISMATCH" else "AWP_TASK_STATE_STALE")
        "integration contract is invalid")
  -- documents of other kinds fail before a surface is looked at
  | _ => .error (stale "integration contract is invalid")

def validateLoadedState (host : Host) (request : TaskRuntimeLoadRequest) (content : Content) :
    Except Failure VerifiedIntegration := do
  let verified ← validateLoaded host content
  check (verified.taskId = request.taskId) (stale "task identity differs")
  check (verified.stateRevision = request.expectedStateRevision) (stale "task revision changed")
  check (verified.lifecycleStatus = request.expectedLifecycleStatus)
    (stale "task lifecycle changed")
  check (verified.lifecycleStatus ∉
      [LifecycleStatus.admitting, LifecycleStatus.archiving, LifecycleStatus.archived])
    (denied "task lifecycle is not runnable")
  check (verified.phase = request.expectedPhase) (stale "task phase changed")
  check (verified.executorClaim = request.expectedClaim) (stale "task executor claim changed")
  return verified

def admitEntry (entry : RuntimeEntryDescriptor) (verified : VerifiedIntegration) :
    Except Failure Unit := do
  check (verified.mode ∈ entry.allowedModes) (denied "runtime entry rejects task mode")
  check (verified.lifecycleStatus ∈ entry.allowedLifecycleStatuses)
    (denied "runtime entry rejects lifecycle")
  check (entry.allowedPhases = [] || verified.phase.any (· ∈ entry.allowedPhases))
    (denied "runtime entry rejects phase")
  check (entry.claimPolicy ≠ "forbidden" || verified.executorClaim.isNone)
    (denied "runtime entry forbids claims")
  check (entry.claimPolicy ≠ "required" || verified.executorClaim.isSome)
    (denied "runtime entry requires a claim")

def pinnedDigests (pins : List SurfacePin) : List (String × String) :=
  pins.map fun pin => (pin.surfaceId, pin.surfaceDigest)

def checkPinned (closure : List String) (pinned : List (String × String)) : Except Failure Unit :=
  let missing := closure.filter (· ∉ pinned.map Prod.fst)
  check (missing = []) (mismatch "task does not pin the complete runtime surface closure"
    [("missing", joinTexts (sortStrings missing))])

def checkSameDigest (message : String) (digests expected : List (String × String))
    (surfaceId : String) : Except Failure Unit := do
  let d ← require (digests.lookup surfaceId) (keyError surfaceId)
  let e ← require (expected.lookup surfaceId) (keyError surfaceId)
  check (d = e) (mismatch message [("surface_id", surfaceId)])

/-- Only a failure of the package's core is answered. -/
def surfaceDigestsOr (H : Hasher) (message : String) (registry : VerifiedSurfaceRegistry)
    (evidence : List Members) : Except Failure (List (String × String)) :=
  match computeSurfaceDigests H registry evidence with
  | .ok digests => .ok digests
  | .error f => .error (if f.kind = .core then mismatch message [] else f)

def closureUnitIds (registry : VerifiedSurfaceRegistry) (closure : List String) :
    Except Failure (List String) := do
  let owned ← closure.mapM fun surfaceId =>
    require ((surfaceAt registry.surfaces surfaceId).map (·.ownedUnitIds)) (keyError surfaceId)
  return owned.flatten

def checkUnchanged (host : Host) (registry : VerifiedSurfaceRegistry) (package s : FS)
    (first : DispatchUnit) : Except Failure Unit := do
  let second ← readUnit host registry package s first.unitId
  check (second.byteHash = first.byteHash && second.mode = first.mode)
    (mismatch "runtime unit changed during load" [("unit_id", first.unitId)])

def noMaintenance (s : FS) : Except Failure Unit :=
  check (!(s.exists maintenancePath || s.isSymlink maintenancePath))
    (denied "maintenance blocks runtime load")

def noUnfinished (host : Host) (s : FS) : Except Failure Unit :=
  match unfinishedTaskJournals host s with
  | .error f =>
    if f.kind = .runtime then
      .error (recoveryRequired "task transaction state blocks runtime load")
    else .error f
  | .ok journals => check (journals = [])
    (recoveryRequired "unfinished task transaction blocks runtime load")

/-- What is done while the runtime state is locked. -/
def loadLocked (host : Host) (H : Hasher) (request : TaskRuntimeLoadRequest) (taskRef : String)
    (package s : FS) : Except Failure ImmutableDispatchBundle := do
  let registry := request.registry
  noMaintenance s
  noUnfinished host s
  let content ← readLoadedIntegration taskRef s
  let verified ← validateLoadedState host request content
  let entry ← requestedEntry request
  admitEntry entry verified
  let closure ← runtimeClosure registry request.surfaceId
  let pinned := pinnedDigests verified.taskContractSurfaces
  checkPinned closure pinned
  let expected ← evidenceMap [] request.contractEvidence
  let current ← surfaceDigestsOr H "current surface contract is invalid" registry
    request.contractEvidence
  closure.forM (checkSameDigest "current surface contract differs from task pin" current pinned)
  let unitIds ← closureUnitIds registry closure
  let units ← unitIds.mapM (readUnit host registry package s)
  let observed ← observedEvidence registry expected units
  let found ← surfaceDigestsOr H "observed runtime surface is invalid" registry observed
  closure.forM (checkSameDigest "observed runtime surface differs from current contract" found
    current)
  let again ← readLoadedIntegration taskRef s
  check (again = content) (stale "task integration changed during load")
  let _ ← validateLoadedState host request again
  units.forM (checkUnchanged host registry package s)
  return ⟨verified.taskId, taskRef, verified.stateRevision, verified.mode,
    verified.lifecycleStatus, verified.phase, request.surfaceId, request.runtimeEntryId, closure,
    units⟩

def loadTaskRuntime (host : Host) (H : Hasher) (request : TaskRuntimeLoadRequest) (package : FS) :
    Prog ImmutableDispatchBundle := do
  let taskRef ← Program.lift (loadTaskRef host request.taskRef)
  acquireRuntimeStateGate host
  Program.inspect (loadLocked host H request taskRef package)

end AgentStack.Runtime
