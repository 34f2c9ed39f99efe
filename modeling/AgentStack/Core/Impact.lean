import AgentStack.Core.Surfaces

/-! The impact of a candidate on authorities and runtime surfaces. -/
namespace AgentStack.Core

open JsonText JsonValue

def authorityIds : List String :=
  ["artifact-bundle", "profile", "release-identity", "route-policy", "router-contract",
    "surface-registry", "trellis-layout", "workflow-lock"]

inductive CandidateOperation
  | init
  | sync
  | repair
  | upgrade
  deriving DecidableEq, Repr

def CandidateOperation.parse? : JsonValue → Option CandidateOperation
  | .string "init" => some .init
  | .string "sync" => some .sync
  | .string "repair" => some .repair
  | .string "upgrade" => some .upgrade
  | _ => none

structure AuthorityChange where
  authorityId : String
  beforeDigest : String
  afterDigest : String
  deriving DecidableEq, Repr

def AuthorityChange.document (change : AuthorityChange) : JsonValue :=
  .object [("authority_id", .string change.authorityId),
    ("before_digest", .string change.beforeDigest), ("after_digest", .string change.afterDigest)]

structure SurfaceChange where
  surfaceId : String
  changeKind : String
  contractBeforeDigest : String
  observedBeforeDigest : String
  afterDigest : String
  deriving DecidableEq, Repr

def SurfaceChange.document (change : SurfaceChange) : JsonValue :=
  .object [("surface_id", .string change.surfaceId),
    ("change_kind", .string change.changeKind),
    ("contract_before_digest", .string change.contractBeforeDigest),
    ("observed_before_digest", .string change.observedBeforeDigest),
    ("after_digest", .string change.afterDigest)]

structure CandidateImpact where
  impactKind : String
  authorityChanges : List AuthorityChange
  surfaceChanges : List SurfaceChange
  contractChanging : Bool
  candidateImpactDigest : String
  deriving DecidableEq, Repr

def impactFailure (message : String) (details : List (String × String)) : Failure :=
  ⟨.core, "AWP_CANDIDATE_IMPACT_INVALID", message, details⟩

/-! ### Vectors -/

abbrev Digests := List (String × String)

def digestValue (v : JsonValue) (label : String) : Except Failure String :=
  require ((stringValue? v).filter fun s => s = canonicalNullText || isDigest s)
    (impactFailure (label ++ " must be lowercase SHA-256 or canonical-null") [])

def impactMapping (v : JsonValue) (label : String) : Except Failure Members :=
  require (members? v) (impactFailure (label ++ " must be a string-keyed object") [])

def digestEntry (label : String) (m : String × JsonValue) : Except Failure (String × String) := do
  let d ← digestValue m.2 (label ++ "." ++ m.1)
  return (m.1, d)

def authorityMap (v : JsonValue) (label : String) : Except Failure Digests := do
  let raw ← impactMapping v label
  let unknown := sortStrings ((raw.map Prod.fst).filter (· ∉ authorityIds))
  check (unknown = []) (impactFailure "authority vector contains unknown ids"
    [("authority_ids", joinTexts unknown)])
  raw.mapM (digestEntry label)

def surfaceEntry (label : String) (m : String × JsonValue) :
    Except Failure (String × String) := do
  check (isStripped m.1)
    (impactFailure (label ++ " contains an invalid surface id") [("surface_id", m.1)])
  digestEntry label m

def surfaceMap (v : JsonValue) (label : String) : Except Failure Digests := do
  let raw ← impactMapping v label
  raw.mapM (surfaceEntry label)

def impactStringSet (v : JsonValue) (label : String) : Except Failure (List String) := do
  let raws ← require (items? v) (impactFailure (label ++ " must be a string array") [])
  let values ← require (raws.mapM fun raw => (stringValue? raw).filter (· ≠ ""))
    (impactFailure (label ++ " must contain nonempty strings") [])
  check (decide values.Nodup) (impactFailure (label ++ " contains duplicates") [])
  return sortStrings values

def valueAt (values : Digests) (identity : String) : String :=
  (values.lookup identity).getD canonicalNullText

/-! ### Changes -/

def authorityChange? (current candidate : Digests) (authorityId : String) :
    Option AuthorityChange :=
  let before := valueAt current authorityId
  let after := valueAt candidate authorityId
  if before ≠ after then some ⟨authorityId, before, after⟩ else none

def authorityChangesOf (current candidate : Digests) : List AuthorityChange :=
  authorityIds.filterMap (authorityChange? current candidate)

def contractChange? (current observed candidate : Digests) (surfaceId : String) :
    Except Failure (Option SurfaceChange) := do
  let before := valueAt current surfaceId
  let observedBefore := valueAt observed surfaceId
  let after := valueAt candidate surfaceId
  check (observedBefore = before)
    (impactFailure "ordinary candidate impact cannot absorb observed runtime drift"
      [("surface_id", surfaceId)])
  return if after ≠ before then some ⟨surfaceId, "contract-change", before, observedBefore, after⟩
    else none

/-- The ids in any of the vectors. -/
def idsOf (vectors : List Digests) : List String :=
  sortStrings (vectors.flatMap fun vector => vector.map Prod.fst).dedup

def contractChanges (current observed candidate : Digests) :
    Except Failure (List SurfaceChange) := do
  let changes ← (idsOf [current, candidate, observed]).mapM
    (contractChange? current observed candidate)
  return changes.filterMap id

/-- `current == candidate`, as dictionaries. -/
def sameDigests (current candidate : Digests) : Bool :=
  (idsOf [current, candidate]).all fun identity =>
    current.lookup identity = candidate.lookup identity

def repairChange (current observed candidate : Digests) (surfaceId : String) :
    Except Failure SurfaceChange := do
  let before ← require (current.lookup surfaceId) (keyError surfaceId)
  let after ← require (candidate.lookup surfaceId) (keyError surfaceId)
  return ⟨surfaceId, "repair", before, valueAt observed surfaceId, after⟩

def repairChanges (current observed candidate : Digests) (selected : List String) :
    Except Failure (List SurfaceChange) := do
  check (sameDigests current candidate)
    (impactFailure "repair must preserve the complete surface contract" [])
  check (selected ≠ [])
    (impactFailure "repair requires an explicit nonempty surface selection" [])
  let unknown := sortStrings (selected.filter (· ∉ current.map Prod.fst))
  check (unknown = []) (impactFailure "repair selects an unknown contract surface"
    [("surface_ids", joinTexts unknown)])
  let drifted := (idsOf [current, observed]).filter fun surfaceId =>
    valueAt observed surfaceId ≠ valueAt current surfaceId
  check (drifted ⊆ selected ∧ selected ⊆ drifted)
    (impactFailure "repair selection must exactly cover observed runtime drift"
      [("selected_surface_ids", joinTexts selected), ("drifted_surface_ids", joinTexts drifted)])
  selected.mapM (repairChange current observed candidate)

def impactProjection (impactKind : String) (authorityChanges : List AuthorityChange)
    (surfaceChanges : List SurfaceChange) : JsonValue :=
  .object [("schema_id", .string "agent-workflow.candidate-impact"), ("schema_version", .int 1),
    ("impact_kind", .string impactKind),
    ("authority_changes", .array (authorityChanges.map (·.document))),
    ("surface_changes", .array (surfaceChanges.map (·.document)))]

/-- The vectors of one comparison, as they are read from its documents. -/
structure ImpactVectors where
  currentAuthorities : Digests
  candidateAuthorities : Digests
  currentSurfaces : Digests
  observedSurfaces : Digests
  candidateSurfaces : Digests

def impactVectors (currentContract observedState candidateIr : Members) :
    Except Failure ImpactVectors := do
  let currentAuthorities ← authorityMap (getField currentContract "authority_digests")
    "current_contract.authority_digests"
  let candidateAuthorities ← authorityMap (getField candidateIr "authority_digests")
    "candidate_ir.authority_digests"
  let currentSurfaces ← surfaceMap (getField currentContract "surface_digests")
    "current_contract.surface_digests"
  let observedSurfaces ← surfaceMap (getField observedState "surface_digests")
    "observed_state.surface_digests"
  let candidateSurfaces ← surfaceMap (getField candidateIr "surface_digests")
    "candidate_ir.surface_digests"
  return ⟨currentAuthorities, candidateAuthorities, currentSurfaces, observedSurfaces,
    candidateSurfaces⟩

def impactSurfaceChanges (operation : CandidateOperation) (vectors : ImpactVectors)
    (authorityChanges : List AuthorityChange) (sameGraph : Bool) (candidateIr : Members) :
    Except Failure (List SurfaceChange) :=
  if operation = .repair then do
    check (authorityChanges = []) (impactFailure "repair must preserve every authority digest" [])
    check sameGraph (impactFailure "repair must preserve the registry graph" [])
    let selected ← impactStringSet (getField candidateIr "repair_surface_ids")
      "candidate_ir.repair_surface_ids"
    repairChanges vectors.currentSurfaces vectors.observedSurfaces vectors.candidateSurfaces
      selected
  else do
    let selected ← impactStringSet (getFieldOr candidateIr "repair_surface_ids" (.array []))
      "candidate_ir.repair_surface_ids"
    check (selected = [])
      (impactFailure "non-repair operation may not select repair surfaces" [])
    contractChanges vectors.currentSurfaces vectors.observedSurfaces vectors.candidateSurfaces

def computeCandidateImpact (H : Hasher) (currentContract observedState candidateIr : Members) :
    Except Failure CandidateImpact := do
  let supported ← inStrings (getField candidateIr "operation")
    ["init", "sync", "repair", "upgrade"]
  let operation ← require
    (if supported then CandidateOperation.parse? (getField candidateIr "operation") else none)
    (impactFailure "candidate operation is unsupported" [])
  let vectors ← impactVectors currentContract observedState candidateIr
  let unclassified ← impactStringSet
    (getFieldOr observedState "unclassified_runtime_units" (.array []))
    "observed_state.unclassified_runtime_units"
  check (unclassified = [])
    (coverageFailure "runtime-visible units are absent from the frozen surface inventory"
      [("unit_ids", joinTexts unclassified)])
  let currentGraph ← digestValue (getField currentContract "registry_graph_digest")
    "current_contract.registry_graph_digest"
  let candidateGraph ← digestValue (getField candidateIr "registry_graph_digest")
    "candidate_ir.registry_graph_digest"
  let authorityChanges :=
    authorityChangesOf vectors.currentAuthorities vectors.candidateAuthorities
  let surfaceChanges ← impactSurfaceChanges operation vectors authorityChanges
    (currentGraph = candidateGraph) candidateIr
  check (operation ≠ .upgrade || authorityChanges.any (·.authorityId = "release-identity"))
    (impactFailure "upgrade must change release-identity" [])
  let impactKind := if authorityChanges = [] ∧ surfaceChanges = [] then "none"
    else "runtime-visible"
  let contractChanging := authorityChanges ≠ [] ||
    surfaceChanges.any (·.changeKind = "contract-change")
  let d ← digest H "agent-workflow.candidate-impact.v1"
    (impactProjection impactKind authorityChanges surfaceChanges)
  return ⟨impactKind, authorityChanges, surfaceChanges, contractChanging, d⟩

end AgentStack.Core
