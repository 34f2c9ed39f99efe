import AgentStack.Core.Impact
import Mathlib.Data.String.Basic

/-! Task quiescence and the task gates of the operations. -/
namespace AgentStack.Core

open JsonText JsonValue KeyedList

inductive FindingKind
  | layoutAmbiguous
  | unknownEntry
  | collision
  | scanLimit
  | interpretationConflict
  | unfinishedTaskTransaction
  | nonArchivedTask
  | layoutStateStranded
  deriving DecidableEq, Repr

def FindingKind.text : FindingKind → String
  | .layoutAmbiguous => "layout-ambiguous"
  | .unknownEntry => "unknown-entry"
  | .collision => "collision"
  | .scanLimit => "scan-limit"
  | .interpretationConflict => "interpretation-conflict"
  | .unfinishedTaskTransaction => "unfinished-task-transaction"
  | .nonArchivedTask => "non-archived-task"
  | .layoutStateStranded => "layout-state-stranded"

def findingKinds : List FindingKind :=
  [.layoutAmbiguous, .unknownEntry, .collision, .scanLimit, .interpretationConflict,
    .unfinishedTaskTransaction, .nonArchivedTask, .layoutStateStranded]

def findingKind? (kind : String) : Option FindingKind := findingKinds.find? (·.text = kind)

def FindingKind.ambiguous : FindingKind → Bool
  | .layoutAmbiguous | .unknownEntry | .collision | .scanLimit | .interpretationConflict => true
  | _ => false

def FindingKind.blocked : FindingKind → Bool
  | .unfinishedTaskTransaction | .nonArchivedTask | .layoutStateStranded => true
  | _ => false

def findingFields : FindingKind → List String
  | .layoutAmbiguous => ["kind", "finding_id", "normalized_path", "evidence_class", "parser_id",
      "parser_version", "evidence_schema_id", "evidence_schema_version"]
  | .unknownEntry => ["kind", "finding_id", "normalized_path", "root_contract_id"]
  | .collision => ["kind", "finding_id", "normalized_aliases", "collision_class"]
  | .scanLimit => ["kind", "finding_id", "contract_id", "limit_kind", "configured_limit"]
  | .interpretationConflict => ["kind", "finding_id", "task_id", "task_ref", "current_path",
      "conflicting_fields"]
  | .unfinishedTaskTransaction => ["kind", "finding_id", "journal_path", "task_id", "task_ref",
      "operation", "phase"]
  | .nonArchivedTask => ["kind", "finding_id", "task_id", "current_path", "lifecycle_status",
      "mode", "pinned_surfaces"]
  | .layoutStateStranded => ["kind", "finding_id", "normalized_path", "semantic_role",
      "source_visibility", "target_visibility"]

def nonArchivedStatuses : List String :=
  ["admitting", "active", "blocked", "completed", "archiving"]

structure SurfacePin where
  surfaceId : String
  surfaceDigest : String
  deriving DecidableEq, Repr

structure TaskFact where
  taskId : String
  currentPath : String
  lifecycleStatus : String
  mode : String
  pinnedSurfaces : List SurfacePin
  deriving DecidableEq, Repr

structure FindingFact where
  kind : FindingKind
  findingId : String
  taskId : Option String
  path : Option String
  lifecycleStatus : Option String
  mode : Option String
  pinnedSurfaces : List SurfacePin
  deriving DecidableEq, Repr

inductive TaskQuiescence
  | ambiguous
  | blocked
  | quiescent
  deriving DecidableEq, Repr

structure WorkspaceTaskState where
  evaluatorId : String
  evaluatorVersion : Int
  taskQuiescence : TaskQuiescence
  evidenceKinds : List String
  deriving DecidableEq, Repr

inductive BlockerCode
  | layoutAmbiguous
  | recoveryBlock
  | activeTaskBlock
  | stateStranded
  deriving DecidableEq, Repr

def BlockerCode.text : BlockerCode → String
  | .layoutAmbiguous => "AWP_WORKSPACE_TASK_LAYOUT_AMBIGUOUS"
  | .recoveryBlock => "AWP_WORKSPACE_TASK_RECOVERY_BLOCK"
  | .activeTaskBlock => "AWP_WORKSPACE_ACTIVE_TASK_BLOCK"
  | .stateStranded => "AWP_WORKSPACE_LAYOUT_STATE_STRANDED"

structure TaskGateBlocker where
  code : BlockerCode
  findingId : String
  taskId : Option String
  path : Option String
  surfaceId : Option String
  authorityId : Option String
  deriving DecidableEq, Repr

structure TaskGateResult where
  evaluatorId : String
  evaluatorVersion : Int
  operation : String
  blockers : List TaskGateBlocker
  primaryEvaluatorBlocker : Option BlockerCode
  deriving DecidableEq, Repr

def workspaceStateEvaluatorId : String := "agent-workflow.workspace-state-quiescence"

def taskGateEvaluatorId : String := "agent-workflow.task-gate"

def evaluatorVersion : Int := 1

def policyFailure (message : String) : Failure := schemaFailure message []

/-! ### Evidence -/

def surfacePin (label : String) (index : Nat) (raw : JsonValue) : Except Failure SurfacePin := do
  let label := label ++ "[" ++ toString index ++ "]"
  let pin ← mappingOf policyFailure raw label
  check (fieldsAre pin ["surface_id", "surface_digest"])
    (policyFailure (label ++ " fields are not closed"))
  let surfaceId ← stringOf policyFailure (getField pin "surface_id") (label ++ ".surface_id")
  let surfaceDigest ← sha256Of policyFailure (getField pin "surface_digest")
    (label ++ ".surface_digest")
  return ⟨surfaceId, surfaceDigest⟩

def surfacePins (v : JsonValue) (label : String) : Except Failure (List SurfacePin) := do
  let pins ← enumerateM (surfacePin label) 0 (← arrayOf policyFailure v label)
  let ordered := pins.insertionSort fun a b => a.surfaceId ≤ b.surfaceId
  check (pins = ordered ∧ (pins.map (·.surfaceId)).Nodup)
    (policyFailure (label ++ " must be unique and sorted by surface_id"))
  return ordered

def taskFields : List String :=
  ["task_id", "admission_task_ref", "current_path", "source_role", "target_role",
    "integration_byte_hash", "integration_mode", "integration_schema_id",
    "integration_schema_version", "lifecycle_status", "revision", "mode", "task_contract_digest",
    "task_contract_surfaces"]

def taskRoles : List String := ["absent", "active", "archive"]

def isInt : JsonValue → Bool
  | .int _ | .bool _ => true
  | _ => false

def isNonnegativeInt : JsonValue → Bool
  | .int n => 0 ≤ n
  | _ => false

section Evidence

variable (H : Hasher)

def taskFact (index : Nat) (raw : JsonValue) : Except Failure TaskFact := do
  let label := "snapshot.tasks[" ++ toString index ++ "]"
  let task ← mappingOf policyFailure raw label
  check (fieldsAre task taskFields)
    (schemaFailure "task snapshot record fields are not closed" [("index", toString index)])
  let taskId ← uuidOf policyFailure (getField task "task_id") (label ++ ".task_id")
  let currentPath ← pathOf policyFailure H.nfc (getField task "current_path")
    (label ++ ".current_path")
  let _ ← stringOf policyFailure (getField task "admission_task_ref") "task admission ref"
  let source ← inStrings (getField task "source_role") taskRoles
  let roles ← if source then inStrings (getField task "target_role") taskRoles else .ok false
  check roles
    (schemaFailure "task source/target roles are invalid" [("task_id", taskId)])
  let _ ← sha256Of policyFailure (getField task "integration_byte_hash") "integration byte hash"
  check ((normalizeModeValue (getField task "integration_mode")).isOk)
    (schemaFailure "integration mode is invalid" [("task_id", taskId)])
  let _ ← stringOf policyFailure (getField task "integration_schema_id") "integration schema id"
  check (isInt (getField task "integration_schema_version"))
    (policyFailure "integration schema version must be an integer")
  let status ← stringOf policyFailure (getField task "lifecycle_status") "lifecycle status"
  check (status ∈ nonArchivedStatuses ++ ["archived"])
    (schemaFailure "task lifecycle status is invalid" [("task_id", taskId)])
  check (isNonnegativeInt (getField task "revision"))
    (schemaFailure "task revision must be a nonnegative integer" [("task_id", taskId)])
  let mode ← stringOf policyFailure (getField task "mode") "task mode"
  check (mode ∈ ["trellis-native", "speckit-superpowers"])
    (schemaFailure "task mode is invalid" [("task_id", taskId)])
  let _ ← sha256Of policyFailure (getField task "task_contract_digest") "task contract digest"
  let pins ← surfacePins (getField task "task_contract_surfaces") "task contract surfaces"
  return ⟨taskId, currentPath, status, mode, pins⟩

/-- The loop over the tasks; `tasks` are those read before. -/
def taskFactsFrom (tasks : List TaskFact) (index : Nat) :
    List JsonValue → Except Failure (List TaskFact)
  | [] => .ok tasks
  | raw :: raws => do
    let task ← taskFact H index raw
    check (task.taskId ∉ tasks.map (·.taskId) ∧ task.currentPath ∉ tasks.map (·.currentPath))
      (schemaFailure "task identity or current path is duplicated" [("task_id", task.taskId)])
    taskFactsFrom (tasks ++ [task]) (index + 1) raws

def taskFacts (snapshot : Members) : Except Failure (List TaskFact) := do
  taskFactsFrom H [] 0 (← arrayOf policyFailure (getField snapshot "tasks") "snapshot.tasks")

def metadataFields : List String :=
  ["path", "byte_hash", "mode", "parser_id", "parser_version", "classifier_id",
    "classifier_version", "parsed_task_refs", "semantic_role", "classification"]

def validateMetadata (index : Nat) (raw : JsonValue) : Except Failure Unit := do
  let metadata ← mappingOf policyFailure raw ("snapshot.metadata[" ++ toString index ++ "]")
  check (fieldsAre metadata metadataFields)
    (schemaFailure "metadata snapshot record fields are not closed"
      [("index", toString index)])
  let _ ← pathOf policyFailure H.nfc (getField metadata "path") "metadata path"
  let _ ← sha256Of policyFailure (getField metadata "byte_hash") "metadata byte hash"

def journalFields : List String :=
  ["journal_path", "byte_hash", "mode", "schema_id", "schema_version", "operation", "phase",
    "task_id", "task_ref", "terminal"]

def isBool : JsonValue → Bool
  | .bool _ => true
  | _ => false

def validateJournal (index : Nat) (raw : JsonValue) : Except Failure Unit := do
  let journal ← mappingOf policyFailure raw ("snapshot.task_journals[" ++ toString index ++ "]")
  check (fieldsAre journal journalFields)
    (schemaFailure "task-journal snapshot record fields are not closed"
      [("index", toString index)])
  let _ ← pathOf policyFailure H.nfc (getField journal "journal_path") "task journal path"
  let _ ← sha256Of policyFailure (getField journal "byte_hash") "task journal byte hash"
  let _ ← uuidOf policyFailure (getField journal "task_id") "task journal task_id"
  check (isBool (getField journal "terminal"))
    (policyFailure "task journal terminal flag must be boolean")

def validateSnapshotCollections (snapshot : Members) : Except Failure Unit := do
  let _ ← ["source_layout_digest", "target_layout_digest", "source_schema_bundle_digest",
    "target_schema_bundle_digest"].mapM fun label =>
      sha256Of policyFailure (getField snapshot label) ("snapshot." ++ label)
  let metadata ← arrayOf policyFailure (getField snapshot "metadata") "snapshot.metadata"
  let _ ← enumerateM (validateMetadata H) 0 metadata
  let journals ← arrayOf policyFailure (getField snapshot "task_journals") "snapshot.task_journals"
  let _ ← enumerateM (validateJournal H) 0 journals

def findingKind (finding : Members) (name : String) : Except Failure FindingKind :=
  match findingKind? name with
  | some kind =>
    if fieldsAre finding (findingFields kind) then .ok kind
    else .error (schemaFailure "finding branch fields are not closed" [("kind", name)])
  | none => .error (schemaFailure "finding branch fields are not closed" [("kind", name)])

def findingTask (finding : Members) : Except Failure (Option String) :=
  if hasKey finding "task_id" then
    (uuidOf policyFailure (getField finding "task_id") "finding task_id").map some
  else .ok none

def findingPath (finding : Members) : Except Failure (Option String) :=
  let pathAt (key : String) : Except Failure (Option String) :=
    (pathOf policyFailure H.nfc (getField finding key) ("finding " ++ key)).map some
  if hasKey finding "current_path" then pathAt "current_path"
  else if hasKey finding "journal_path" then pathAt "journal_path"
  else if hasKey finding "normalized_path" then pathAt "normalized_path"
  else .ok none

def collisionPath (finding : Members) : Except Failure (Option String) := do
  let raws ← arrayOf policyFailure (getField finding "normalized_aliases") "normalized aliases"
  let aliases ← enumerateM (fun _ raw => pathOf policyFailure H.nfc raw "collision alias") 0 raws
  return (sortStrings aliases).head?

/-- `seen` are the ids of the findings before. -/
def findingFact (seen : List String) (index : Nat) (raw : JsonValue) :
    Except Failure FindingFact := do
  let finding ← mappingOf policyFailure raw ("findings.findings[" ++ toString index ++ "]")
  let name ← stringOf policyFailure (getField finding "kind") "finding kind"
  let kind ← findingKind finding name
  let findingId ← stringOf policyFailure (getField finding "finding_id") "finding id"
  check (findingId ∉ seen)
    (schemaFailure "finding id is duplicated" [("finding_id", findingId)])
  let taskId ← findingTask finding
  let path ← findingPath H finding
  let path ← if kind = .collision then collisionPath H finding else .ok path
  if kind = .nonArchivedTask then do
    let status ← stringOf policyFailure (getField finding "lifecycle_status")
      "finding lifecycle status"
    check (status ∈ nonArchivedStatuses)
      (policyFailure "non-archived finding has an archived/invalid status")
    let mode ← stringOf policyFailure (getField finding "mode") "finding task mode"
    let pins ← surfacePins (getField finding "pinned_surfaces") "finding pinned surfaces"
    return ⟨kind, findingId, taskId, path, some status, some mode, pins⟩
  else return ⟨kind, findingId, taskId, path, none, none, []⟩

def findingFactsFrom (seen : List String) (index : Nat) :
    List JsonValue → Except Failure (List FindingFact)
  | [] => .ok []
  | raw :: raws => do
    let fact ← findingFact H seen index raw
    let facts ← findingFactsFrom (fact.findingId :: seen) (index + 1) raws
    return fact :: facts

def parseFindings (document : Members) : Except Failure (List FindingFact) := do
  check (fieldsAre document ["schema_id", "schema_version", "findings"])
    (policyFailure "task findings fields are not closed")
  check (isString (getField document "schema_id") "agent-workflow.task-findings" &&
      isOne (getField document "schema_version"))
    (policyFailure "task findings schema identity/version is invalid")
  let raws ← arrayOf policyFailure (getField document "findings") "findings.findings"
  findingFactsFrom H [] 0 raws

def snapshotFields : List String :=
  ["schema_id", "schema_version", "source_layout_digest", "target_layout_digest",
    "source_schema_bundle_digest", "target_schema_bundle_digest", "tasks", "metadata",
    "task_journals", "finding_ids", "task_quiescence_digest"]

def snapshotFindingIds (snapshot : Members) : Except Failure (List String) := do
  let raws ← arrayOf policyFailure (getField snapshot "finding_ids") "snapshot.finding_ids"
  match raws.mapM stringValue? with
  | some ids => return ids
  | none => .error (policyFailure "snapshot finding_ids must contain strings")

/-- The journal under a path, the last one of that path. -/
def journalAt (journals : List JsonValue) (path : String) : Option JsonValue :=
  journals.reverse.find? fun journal => isString (fieldOf journal "journal_path") path

def isFalse : JsonValue → Bool
  | .bool b => !b
  | _ => false

def isTrue : JsonValue → Bool
  | .bool b => b
  | _ => false

def taskAgrees (tasks : List TaskFact) (fact : FindingFact) : Bool :=
  match tasks.find? (·.taskId = fact.taskId.getD "") with
  | some task =>
    some task.currentPath = fact.path ∧ some task.lifecycleStatus = fact.lifecycleStatus ∧
      some task.mode = fact.mode ∧ task.pinnedSurfaces = fact.pinnedSurfaces
  | none => false

def journalAgrees (journals : List JsonValue) (fact : FindingFact) : Bool :=
  match journalAt journals (fact.path.getD "") with
  | some journal => isFalse (fieldOf journal "terminal")
  | none => false

def checkFinding (tasks : List TaskFact) (journals : List JsonValue) (fact : FindingFact) :
    Except Failure Unit := do
  check (fact.kind ≠ .nonArchivedTask ∨ taskAgrees tasks fact)
    (schemaFailure "non-archived finding disagrees with task snapshot"
      [("finding_id", fact.findingId)])
  check (fact.kind ≠ .unfinishedTaskTransaction ∨ journalAgrees journals fact)
    (schemaFailure "unfinished transaction finding disagrees with journal snapshot"
      [("finding_id", fact.findingId)])

/-- The documents agree as far as the findings go: nothing asks for a finding. -/
def validatedEvidence (snapshot findings : Members) :
    Except Failure (List TaskFact × List FindingFact) := do
  check (fieldsAre snapshot snapshotFields) (policyFailure "task snapshot fields are not closed")
  check (isString (getField snapshot "schema_id") "agent-workflow.task-quiescence-snapshot" &&
      isOne (getField snapshot "schema_version"))
    (policyFailure "task snapshot schema identity/version is invalid")
  let expected ← sha256Of policyFailure (getField snapshot "task_quiescence_digest")
    "task_quiescence_digest"
  let projection := snapshot.filter fun m => m.1 ≠ "task_quiescence_digest"
  let actual ← digest H "agent-workflow.task-quiescence.v1" (.object projection)
  check (actual = expected)
    (policyFailure "task snapshot digest does not match its canonical projection")
  let tasks ← taskFacts H snapshot
  validateSnapshotCollections H snapshot
  let facts ← parseFindings H findings
  let ids ← snapshotFindingIds snapshot
  check (ids = sortStrings ids ∧ ids = sortStrings (facts.map (·.findingId)))
    (policyFailure "snapshot and finding identity sets disagree")
  let journals ← arrayOf policyFailure (getField snapshot "task_journals") "snapshot.task_journals"
  let _ ← enumerateM (fun _ fact => checkFinding tasks journals fact) 0 facts
  return (tasks, facts)

/-! ### Policies -/

def evaluateWorkspaceStateQuiescence (snapshot findings : Members) :
    Except Failure WorkspaceTaskState := do
  let (_, facts) ← validatedEvidence H snapshot findings
  let state := if facts.any (·.kind.ambiguous) then TaskQuiescence.ambiguous
    else if facts.any (·.kind.blocked) then .blocked
    else .quiescent
  return ⟨workspaceStateEvaluatorId, evaluatorVersion, state,
    sortStrings (facts.map (·.kind.text)).dedup⟩

end Evidence

def blocker (code : BlockerCode) (fact : FindingFact) (surfaceId : Option String) :
    TaskGateBlocker :=
  ⟨code, fact.findingId, fact.taskId, fact.path, surfaceId, none⟩

/-- A later change of a surface takes the place of an earlier one. -/
def surfaceChangeAt (impact : CandidateImpact) (surfaceId : String) : Option SurfaceChange :=
  impact.surfaceChanges.reverse.find? (·.surfaceId = surfaceId)

def pinnedDigest (fact : FindingFact) (surfaceId : String) : Option String :=
  (fact.pinnedSurfaces.reverse.find? (·.surfaceId = surfaceId)).map (·.surfaceDigest)

def surfaceBlocker (fact : FindingFact) (impact : CandidateImpact) (surfaceId : String) :
    Option TaskGateBlocker := do
  let change ← surfaceChangeAt impact surfaceId
  let pinned ← pinnedDigest fact surfaceId
  if change.contractBeforeDigest ≠ pinned then blocker .layoutAmbiguous fact surfaceId
  else if change.changeKind = "repair" then
    if change.contractBeforeDigest = change.afterDigest ∧ change.afterDigest = pinned ∧
        impact.authorityChanges = [] then none
    else blocker .layoutAmbiguous fact surfaceId
  else if change.changeKind = "contract-change" ∧ change.afterDigest ≠ pinned then
    blocker .activeTaskBlock fact surfaceId
  else none

def taskBlocker (fact : FindingFact) (impact : CandidateImpact) : Option TaskGateBlocker :=
  let changed := impact.surfaceChanges.map (·.surfaceId)
  let pinned := fact.pinnedSurfaces.map (·.surfaceId)
  let matching := sortStrings (changed.filter (· ∈ pinned)).dedup
  match matching.findSome? (surfaceBlocker fact impact) with
  | some found => found
  | none =>
    if fact.mode = some "speckit-superpowers" ∧ impact.contractChanging then
      some (blocker .activeTaskBlock fact none)
    else none

def classOrder : BlockerCode → Nat
  | .layoutAmbiguous => 0
  | .recoveryBlock => 1
  | .activeTaskBlock => 2
  | .stateStranded => 3

def blockerSortKey (b : TaskGateBlocker) : List String :=
  [b.taskId.getD "", b.path.getD "", b.surfaceId.getD "", b.authorityId.getD "", b.findingId]

def BlockerLe (a b : TaskGateBlocker) : Prop :=
  classOrder a.code < classOrder b.code ∨
    classOrder a.code = classOrder b.code ∧ blockerSortKey a ≤ blockerSortKey b

instance : DecidableRel BlockerLe := fun a b =>
  inferInstanceAs (Decidable (_ ∨ _ ∧ blockerSortKey a ≤ blockerSortKey b))

def gateOperations : List String := ["init", "sync", "repair", "upgrade", "workspace-migrate"]

def newWorkspace (operation : String) : Bool := operation ∈ ["init", "workspace-migrate"]

def findingBlocker (operation : String) (impact : CandidateImpact) (fact : FindingFact) :
    Option TaskGateBlocker :=
  if fact.kind.ambiguous then some (blocker .layoutAmbiguous fact none)
  else if fact.kind = .unfinishedTaskTransaction then some (blocker .recoveryBlock fact none)
  else if fact.kind = .nonArchivedTask then
    if newWorkspace operation then some (blocker .activeTaskBlock fact none)
    else taskBlocker fact impact
  else if fact.kind = .layoutStateStranded ∧ (newWorkspace operation ∨
      impact.authorityChanges.any (·.authorityId = "trellis-layout")) then
    some (blocker .stateStranded fact none)
  else none

def evaluateTaskGate (H : Hasher) (operation : String) (impact : CandidateImpact)
    (snapshot findings : Members) : Except Failure TaskGateResult := do
  check (operation ∈ gateOperations)
    (schemaFailure "task-gate operation is unsupported" [("operation", operation)])
  let (_, facts) ← validatedEvidence H snapshot findings
  if operation = "sync" ∧ impact.impactKind = "none" ∧ impact.authorityChanges = [] ∧
      impact.surfaceChanges = [] then
    return ⟨taskGateEvaluatorId, 1, operation, [], none⟩
  let blockers := (facts.filterMap (findingBlocker operation impact)).insertionSort BlockerLe
  return ⟨taskGateEvaluatorId, evaluatorVersion, operation, blockers,
    blockers.head?.map (·.code)⟩

/-- Where a workspace is made anew every finding blocks. -/
theorem findingBlocker_newWorkspace {operation : String} (hop : newWorkspace operation = true)
    (impact : CandidateImpact) (fact : FindingFact) :
    (findingBlocker operation impact fact).isSome := by
  unfold findingBlocker
  cases hkind : fact.kind <;> simp [FindingKind.ambiguous, hop]

end AgentStack.Core
