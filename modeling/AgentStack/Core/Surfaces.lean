import AgentStack.Core.Fields
import AgentStack.RefGraph.Digest

/-! The registry of runtime surfaces, the evidence about its units and the digests of its
surfaces. -/
namespace AgentStack.Core

open JsonText JsonValue FileTree RefGraph

structure SurfaceDescriptor where
  surfaceId : String
  surfaceKind : String
  descriptorVersion : Int
  digestRecipeId : String
  ownedUnitIds : List String
  references : List String
  contractChangeClass : String
  deriving DecidableEq, Repr

structure RuntimeUnitDescriptor where
  unitId : String
  unitKind : String
  distributionScope : String
  normalizedPath : String
  owningSurfaceId : String
  leafRecipeId : String
  deriving DecidableEq, Repr

/-- Descriptors stand in the order of their ids. -/
structure VerifiedSurfaceRegistry where
  surfaces : List SurfaceDescriptor
  units : List RuntimeUnitDescriptor
  topologicalSurfaceIds : List String
  registryDigest : String
  deriving DecidableEq, Repr

structure UnitEvidence where
  unitId : String
  byteHash : String
  mode : FileTree.Mode
  contractDigest : String
  distributions : List String
  leafDigest : String
  deriving DecidableEq, Repr

def graphFailure (message : String) (details : List (String × String)) : Failure :=
  ⟨.core, "AWP_SURFACE_GRAPH_INVALID", message, details⟩

def coverageFailure (message : String) (details : List (String × String)) : Failure :=
  ⟨.core, "AWP_SURFACE_COVERAGE_INVALID", message, details⟩

def canonicalNullText : String := "canonical-null"

/-- `f"{mode:04o}"`. -/
def modeText (m : FileTree.Mode) : String :=
  String.ofList ['0', Nat.digitChar (m.val / 64), Nat.digitChar (m.val / 8 % 8),
    Nat.digitChar (m.val % 8)]

def texts (l : List String) : JsonValue := .array (l.map .string)

def joinTexts (l : List String) : String := ",".intercalate l

/-! ### The registry -/

def stringSet (v : JsonValue) (label : String) : Except Failure (List String) := do
  let value ← require ((items? v).bind fun raws => raws.mapM stringValue?)
    (graphFailure (label ++ " must be a string array") [])
  let normalized := sortStrings value.dedup
  check (normalized.length = value.length) (graphFailure (label ++ " contains duplicates") [])
  return normalized

def isLowerAlnum (c : Char) : Bool := ('a' ≤ c ∧ c ≤ 'z') ∨ ('0' ≤ c ∧ c ≤ '9')

/-- `^[a-z0-9][a-z0-9._-]*$`. -/
def isSurfaceSuffix (cs : List Char) : Bool :=
  match cs with
  | [] => false
  | c :: cs => isLowerAlnum c && cs.all fun c => isLowerAlnum c || c ∈ ['.', '_', '-']

def exactSurfaceIds : List String :=
  ["runtime-control-plane", "surface-registry", "trellis-runtime", "trellis-layout", "route-policy"]

/-- The kinds whose ids have suffixes, and how many parts such an id has. -/
def surfaceParts : List (String × Nat) :=
  [("router", 2), ("platform-adapter", 2), ("hook", 3), ("agent", 3), ("skill", 2),
    ("runtime-entry", 2)]

def surfaceKind (surfaceId : String) : Option String :=
  if surfaceId ∈ exactSurfaceIds then some surfaceId
  else match splitChars ':' (charsOf surfaceId) with
    | [] => none
    | kind :: suffixes =>
      if surfaceParts.lookup (String.ofList kind) = some (suffixes.length + 1) ∧
          suffixes.all isSurfaceSuffix then some (String.ofList kind)
      else none

def surfaceFields : List String :=
  ["surface_id", "surface_kind", "descriptor_version", "digest_recipe_id", "owned_unit_ids",
    "references", "contract_change_class"]

/-- `seen` are the ids of the surfaces before. -/
def surfaceDescriptor (seen : List String) (raw : JsonValue) :
    Except Failure SurfaceDescriptor := do
  let members ← require (members? raw) (graphFailure "surface descriptor fields are not closed" [])
  check (fieldsAre members surfaceFields)
    (graphFailure "surface descriptor fields are not closed" [])
  let surfaceId ← require (stringValue? (getField members "surface_id"))
    (graphFailure "surface identity and kind must be strings" [])
  let kind ← require (stringValue? (getField members "surface_kind"))
    (graphFailure "surface identity and kind must be strings" [])
  let details := [("surface_id", surfaceId)]
  check (surfaceKind surfaceId = some kind)
    (graphFailure "surface id is outside the reserved namespace or disagrees with kind" details)
  check (surfaceId ∉ seen) (graphFailure "duplicate surface id" details)
  check (isOne (getField members "descriptor_version"))
    (graphFailure "surface descriptor version is unsupported" details)
  check (isString (getField members "digest_recipe_id") "surface-content-v1")
    (graphFailure "surface digest recipe is unsupported" details)
  check (isString (getField members "contract_change_class") "runtime-visible")
    (graphFailure "surface contract change class must be runtime-visible" [])
  let ownedUnits ← stringSet (getField members "owned_unit_ids") "owned_unit_ids"
  let references ← stringSet (getField members "references") "references"
  check (ownedUnits ≠ [])
    (coverageFailure "every surface must own at least one runtime unit" details)
  return ⟨surfaceId, kind, 1, "surface-content-v1", ownedUnits, references, "runtime-visible"⟩

def surfaceDescriptorsFrom (seen : List String) :
    List JsonValue → Except Failure (List SurfaceDescriptor)
  | [] => .ok []
  | raw :: raws => do
    let surface ← surfaceDescriptor seen raw
    let surfaces ← surfaceDescriptorsFrom (surface.surfaceId :: seen) raws
    return surface :: surfaces

def mandatorySurfaces : List String := ["runtime-control-plane", "surface-registry"]

def parseSurfaces (document : Members) : Except Failure (List SurfaceDescriptor) := do
  check (fieldsAre document ["schema_id", "schema_version", "surfaces"])
    (graphFailure "runtime-surface registry fields are not closed" [])
  check (isString (getField document "schema_id") "agent-workflow.runtime-surface-registry" &&
      isOne (getField document "schema_version"))
    (graphFailure "runtime-surface registry schema identity/version is invalid" [])
  let raws ← require (items? (getField document "surfaces"))
    (graphFailure "surfaces must be an array" [])
  let surfaces ← surfaceDescriptorsFrom [] raws
  match mandatorySurfaces.find? fun m => m ∉ surfaces.map (·.surfaceId) with
  | some missing =>
    .error (graphFailure "mandatory runtime meta-surface is missing" [("surface_id", missing)])
  | none => return surfaces

def expectedDistributions : List (String × List String) :=
  [("runtime-package", ["git-checkout", "sdist", "wheel"]),
    ("rendered-project", ["rendered-project"])]

def isUnitKind (cs : List Char) : Bool :=
  match cs with
  | [] => false
  | c :: cs => ('a' ≤ c ∧ c ≤ 'z') && cs.all fun c => isLowerAlnum c || c = '-'

def isUnitName (cs : List Char) : Bool :=
  match cs with
  | [] => false
  | c :: cs => isLowerAlnum c && cs.all fun c => isLowerAlnum c || c ∈ ['.', '_', ':', '/', '-']

/-- The kind of a unit id, which stands before its first colon. -/
def unitKind? (unitId : String) : Option String :=
  let kind := (charsOf unitId).takeWhile (· ≠ ':')
  match (charsOf unitId).dropWhile (· ≠ ':') with
  | ':' :: name => if isUnitKind kind && isUnitName name then some (String.ofList kind) else none
  | _ => none

def unitFields : List String :=
  ["unit_id", "unit_kind", "distribution_scope", "normalized_path", "owning_surface_id",
    "leaf_recipe_id", "runtime_visible"]

def isTrueValue : JsonValue → Bool
  | .bool b => b
  | _ => false

section Registry

variable (H : Hasher) (casefold : String → String)

/-- The checks of one unit on its own. -/
def unitDescriptor (raw : JsonValue) : Except Failure RuntimeUnitDescriptor := do
  let members ← require (members? raw)
    (coverageFailure "runtime-unit descriptor fields are not closed" [])
  check (fieldsAre members unitFields)
    (coverageFailure "runtime-unit descriptor fields are not closed" [])
  let unitId ← require (stringValue? (getField members "unit_id"))
    (coverageFailure "runtime unit id is invalid" [])
  let details := [("unit_id", unitId)]
  let kind ← require (unitKind? unitId) (coverageFailure "runtime unit id is invalid" details)
  check (isString (getField members "unit_kind") kind)
    (coverageFailure "runtime unit kind disagrees with id" details)
  let owner ← require (stringValue? (getField members "owning_surface_id"))
    (coverageFailure "runtime unit owner must be a surface id" details)
  let known ← inStrings (getField members "distribution_scope") (expectedDistributions.map (·.1))
  check known (coverageFailure "runtime unit distribution scope is invalid" details)
  let value ← require (stringValue? (getField members "normalized_path"))
    (coverageFailure "runtime unit path must be a string" details)
  let path ← normalizePath H.nfc value
  check (isString (getField members "leaf_recipe_id") "bytes-mode-contract-v1")
    (coverageFailure "runtime unit leaf recipe is unsupported" details)
  check (isTrueValue (getField members "runtime_visible"))
    (coverageFailure "inventory may contain only runtime-visible units" details)
  return ⟨unitId, kind, (stringValue? (getField members "distribution_scope")).getD "",
    joinPath path, owner, "bytes-mode-contract-v1"⟩

/-- `seen` are the units before. -/
def runtimeUnit (seen : List RuntimeUnitDescriptor) (raw : JsonValue) :
    Except Failure RuntimeUnitDescriptor := do
  let unit ← unitDescriptor H raw
  check (unit.unitId ∉ seen.map (·.unitId))
    (coverageFailure "duplicate runtime unit id" [("unit_id", unit.unitId)])
  match seen.find? fun u => casefold u.normalizedPath = casefold unit.normalizedPath with
  | some first =>
    .error (coverageFailure "runtime unit paths collide after normalization"
      [("path", unit.normalizedPath), ("first_unit", first.unitId), ("second_unit", unit.unitId)])
  | none => return unit

def runtimeUnitsFrom (seen : List RuntimeUnitDescriptor) :
    List JsonValue → Except Failure (List RuntimeUnitDescriptor)
  | [] => .ok seen
  | raw :: raws => do
    let unit ← runtimeUnit H casefold seen raw
    runtimeUnitsFrom (seen ++ [unit]) raws

def parseUnits (document : Members) : Except Failure (List RuntimeUnitDescriptor) := do
  check (fieldsAre document ["schema_id", "schema_version", "units"])
    (coverageFailure "runtime-unit inventory fields are not closed" [])
  check (isString (getField document "schema_id") "agent-workflow.runtime-unit-inventory" &&
      isOne (getField document "schema_version"))
    (coverageFailure "runtime-unit inventory schema identity/version is invalid" [])
  let raws ← require (items? (getField document "units"))
    (coverageFailure "runtime units must be an array" [])
  runtimeUnitsFrom H casefold [] raws

def surfaceIds (surfaces : List SurfaceDescriptor) : List String := surfaces.map (·.surfaceId)

def surfaceAt (surfaces : List SurfaceDescriptor) (surfaceId : String) : Option SurfaceDescriptor :=
  surfaces.find? (·.surfaceId = surfaceId)

def referencesOf (surfaces : List SurfaceDescriptor) (surfaceId : String) : List String :=
  ((surfaceAt surfaces surfaceId).map (·.references)).getD []

def checkReference (surfaces : List SurfaceDescriptor) (surfaceId reference : String) :
    Except Failure Unit := do
  check (reference ∈ surfaceIds surfaces) (graphFailure "surface reference is dangling"
    [("surface_id", surfaceId), ("reference", reference)])
  check (reference ≠ surfaceId)
    (graphFailure "surface may not reference itself" [("surface_id", surfaceId)])

/-- The heap of ready surfaces gives out the least id. -/
def topologicalOrder (surfaces : List SurfaceDescriptor) : Except Failure (List String) := do
  surfaces.forM fun surface =>
    surface.references.forM (checkReference surfaces surface.surfaceId)
  let ordered := order (surfaceIds surfaces) (referencesOf surfaces) (· ≤ ·)
  check (ordered.length = surfaces.length) (graphFailure "surface reference graph is cyclic"
    [("surfaces", joinTexts (sortStrings ((surfaceIds surfaces).filter (· ∉ ordered))))])
  return ordered

/-- The surfaces that can be reached from a stack of them. -/
def reachedFrom (surfaces : List SurfaceDescriptor) (pending : List String) : List String :=
  visit (referencesOf surfaces)
    (steps (surfaceIds surfaces) (referencesOf surfaces) [] pending) [] pending

def transitiveReferences (surfaceId : String) (surfaces : List SurfaceDescriptor) : List String :=
  reachedFrom surfaces (referencesOf surfaces surfaceId).reverse

/-- The loop over the owned units of the surfaces, as pairs of a unit and its owner. -/
def claimOwners (claimed : List (String × String)) :
    List (String × String) → Except Failure (List (String × String))
  | [] => .ok claimed
  | claim :: claims =>
    match claimed.lookup claim.1 with
    | some first => .error (coverageFailure "runtime unit is multiply owned"
        [("unit_id", claim.1), ("first_owner", first), ("second_owner", claim.2)])
    | none => claimOwners (claimed ++ [claim]) claims

def ownershipClaims (surfaces : List SurfaceDescriptor) : List (String × String) :=
  surfaces.flatMap fun surface => surface.ownedUnitIds.map fun unitId => (unitId, surface.surfaceId)

def checkOwner (surfaces : List SurfaceDescriptor) (claimed : List (String × String))
    (unit : RuntimeUnitDescriptor) : Except Failure Unit := do
  let details := [("unit_id", unit.unitId)]
  check (unit.owningSurfaceId ∈ surfaceIds surfaces)
    (coverageFailure "runtime unit owner does not exist" details)
  check (claimed.lookup unit.unitId = some unit.owningSurfaceId)
    (coverageFailure "runtime unit owner disagrees with surface descriptor" details)

def taskLoadableKinds : List String :=
  ["trellis-runtime", "router", "platform-adapter", "hook", "agent", "skill", "runtime-entry"]

def checkLoadable (surfaces : List SurfaceDescriptor) (surface : SurfaceDescriptor) :
    Except Failure Unit :=
  if surface.surfaceKind ∈ taskLoadableKinds then
    let missing := mandatorySurfaces.filter (· ∉ transitiveReferences surface.surfaceId surfaces)
    check (missing = [])
      (coverageFailure "task-loadable surface omits mandatory transitive runtime surfaces"
        [("surface_id", surface.surfaceId), ("missing", joinTexts (sortStrings missing))])
  else .ok ()

def sortSurfaces (surfaces : List SurfaceDescriptor) : List SurfaceDescriptor :=
  surfaces.insertionSort fun a b => a.surfaceId ≤ b.surfaceId

def sortUnits (units : List RuntimeUnitDescriptor) : List RuntimeUnitDescriptor :=
  units.insertionSort fun a b => a.unitId ≤ b.unitId

def registryProjection (surfaces : List SurfaceDescriptor) (units : List RuntimeUnitDescriptor) :
    JsonValue :=
  .object [("schema_id", .string "agent-workflow.runtime-surface-registry"),
    ("schema_version", .int 1),
    ("surfaces", .array ((sortSurfaces surfaces).map fun surface => .object
      [("surface_id", .string surface.surfaceId), ("surface_kind", .string surface.surfaceKind),
        ("descriptor_version", .int surface.descriptorVersion),
        ("digest_recipe_id", .string surface.digestRecipeId),
        ("owned_unit_ids", texts surface.ownedUnitIds), ("references", texts surface.references),
        ("contract_change_class", .string surface.contractChangeClass)])),
    ("inventory", .array ((sortUnits units).map fun unit => .object
      [("unit_id", .string unit.unitId), ("unit_kind", .string unit.unitKind),
        ("distribution_scope", .string unit.distributionScope),
        ("normalized_path", .string unit.normalizedPath),
        ("owning_surface_id", .string unit.owningSurfaceId),
        ("leaf_recipe_id", .string unit.leafRecipeId)]))]

def validateSurfaceRegistry (registryDocument inventoryDocument : Members) :
    Except Failure VerifiedSurfaceRegistry := do
  let surfaces ← parseSurfaces registryDocument
  let units ← parseUnits H casefold inventoryDocument
  let ordered ← topologicalOrder surfaces
  let claimed ← claimOwners [] (ownershipClaims surfaces)
  let claimedIds := claimed.map (·.1)
  let unitIds := units.map (·.unitId)
  check (claimedIds ⊆ unitIds ∧ unitIds ⊆ claimedIds)
    (coverageFailure "surface ownership and unit inventory differ"
      [("unowned", joinTexts (sortStrings (unitIds.filter (· ∉ claimedIds)))),
        ("unknown", joinTexts (sortStrings (claimedIds.filter (· ∉ unitIds))))])
  units.forM (checkOwner surfaces claimed)
  surfaces.forM (checkLoadable surfaces)
  let registryDigest ← digest H "agent-workflow.surface-registry.v1"
    (registryProjection surfaces units)
  return ⟨sortSurfaces surfaces, sortUnits units, ordered, registryDigest⟩

end Registry

/-! ### Evidence and digests -/

section Digests

variable (H : Hasher)

def evidenceFields : List String :=
  ["unit_id", "byte_hash", "mode", "contract_digest", "distributions"]

def leafProjection (unitId leafRecipeId byteHash : String) (mode : FileTree.Mode)
    (contractDigest : String) : JsonValue :=
  .object [("unit_id", .string unitId), ("leaf_recipe_id", .string leafRecipeId),
    ("byte_hash", .string byteHash), ("mode", .string (modeText mode)),
    ("contract_digest", .string contractDigest)]

/-- The hash of the canonical bytes, without a domain. -/
def leafDigest (v : JsonValue) : Except Failure String :=
  (canonicalJsonBytes H.toEncoding v).map H.sha256

def unitAt (registry : VerifiedSurfaceRegistry) (unitId : String) : Option RuntimeUnitDescriptor :=
  registry.units.find? (·.unitId = unitId)

/-- A mode is an integer or a text. -/
def evidenceMode (v : JsonValue) (details : List (String × String)) :
    Except Failure FileTree.Mode :=
  match v with
  | .int _ | .string _ => normalizeModeValue v
  | _ => .error (coverageFailure "runtime unit mode is missing or invalid" details)

def evidenceDistributions (v : JsonValue) (details : List (String × String)) :
    Except Failure (List String) := do
  let value ← require ((items? v).bind fun raws => raws.mapM stringValue?)
    (coverageFailure "runtime unit distributions must be a string array" [])
  let distributions := sortStrings value.dedup
  check (distributions.length = value.length)
    (coverageFailure "runtime unit distributions contain duplicates" details)
  return distributions

/-- `seen` are the ids of the units before. -/
def unitEvidence (registry : VerifiedSurfaceRegistry) (seen : List String) (raw : Members) :
    Except Failure UnitEvidence := do
  check (fieldsAre raw evidenceFields)
    (coverageFailure "runtime unit evidence fields are not closed" [])
  let unit ← require ((stringValue? (getField raw "unit_id")).bind (unitAt registry))
    (coverageFailure "runtime unit evidence identity is unknown" [])
  let details := [("unit_id", unit.unitId)]
  check (unit.unitId ∉ seen) (coverageFailure "duplicate runtime unit evidence" details)
  let byteHash := (stringValue? (getField raw "byte_hash")).getD ""
  let contractDigest := (stringValue? (getField raw "contract_digest")).getD ""
  check (isDigest byteHash) (coverageFailure "runtime unit byte hash is missing or invalid" details)
  check (isDigest contractDigest || contractDigest = canonicalNullText)
    (coverageFailure "runtime unit contract digest is missing or invalid" details)
  let mode ← evidenceMode (getField raw "mode") details
  let distributions ← evidenceDistributions (getField raw "distributions") details
  let expected := (expectedDistributions.lookup unit.distributionScope).getD []
  check (distributions = expected)
    (coverageFailure "runtime unit distribution ownership is not equivalent"
      (details ++ [("expected", joinTexts expected), ("observed", joinTexts distributions)]))
  let leaf ← leafDigest H
    (leafProjection unit.unitId unit.leafRecipeId byteHash mode contractDigest)
  return ⟨unit.unitId, byteHash, mode, contractDigest, distributions, leaf⟩

def unitEvidenceFrom (registry : VerifiedSurfaceRegistry) (seen : List UnitEvidence) :
    List Members → Except Failure (List UnitEvidence)
  | [] => .ok seen
  | raw :: raws => do
    let evidence ← unitEvidence H registry (seen.map (·.unitId)) raw
    unitEvidenceFrom registry (seen ++ [evidence]) raws

def parseEvidence (registry : VerifiedSurfaceRegistry) (evidence : List Members) :
    Except Failure (List UnitEvidence) := do
  let parsed ← unitEvidenceFrom H registry [] evidence
  let parsedIds := parsed.map (·.unitId)
  let unitIds := registry.units.map (·.unitId)
  check (parsedIds ⊆ unitIds ∧ unitIds ⊆ parsedIds)
    (coverageFailure "runtime unit evidence is incomplete"
      [("missing", joinTexts (sortStrings (unitIds.filter (· ∉ parsedIds)))),
        ("unknown", joinTexts (sortStrings (parsedIds.filter (· ∉ unitIds))))])
  return parsed

def evidenceAt (evidence : List UnitEvidence) (unitId : String) : Option UnitEvidence :=
  evidence.find? (·.unitId = unitId)

def leafOf (evidence : List UnitEvidence) (unitId : String) : Except Failure (String × String) :=
  require ((evidenceAt evidence unitId).map fun unit => (unitId, unit.leafDigest)) (keyError unitId)

def referenceDigest (digests : List (String × String)) (reference : String) :
    Except Failure (String × String) :=
  require ((digests.lookup reference).map fun d => (reference, d)) (keyError reference)

def pairDocument (key value : String) (pair : String × String) : JsonValue :=
  .object [(key, .string pair.1), (value, .string pair.2)]

def surfaceProjection (surface : SurfaceDescriptor) (leaves references : List (String × String)) :
    JsonValue :=
  .object [("surface_id", .string surface.surfaceId), ("surface_kind", .string surface.surfaceKind),
    ("descriptor_version", .int surface.descriptorVersion),
    ("digest_recipe_id", .string surface.digestRecipeId),
    ("owned_units", .array (leaves.map (pairDocument "unit_id" "leaf_digest"))),
    ("references", .array (references.map (pairDocument "surface_id" "surface_digest")))]

def surfaceDigest (surface : SurfaceDescriptor) (leaves references : List (String × String)) :
    Except Failure String :=
  digest H "agent-workflow.runtime-surface.v1" (surfaceProjection surface leaves references)

/-- The loop over the surfaces; `digests` are those of the surfaces before. -/
def computeDigestsFrom (registry : VerifiedSurfaceRegistry) (evidence : List UnitEvidence)
    (digests : List (String × String)) : List String → Except Failure (List (String × String))
  | [] => .ok digests
  | surfaceId :: surfaceIds => do
    let surface ← require (surfaceAt registry.surfaces surfaceId) (keyError surfaceId)
    let leaves ← surface.ownedUnitIds.mapM (leafOf evidence)
    let references ← surface.references.mapM (referenceDigest digests)
    let d ← surfaceDigest H surface leaves references
    computeDigestsFrom registry evidence (digests ++ [(surfaceId, d)]) surfaceIds

def computeDigests (registry : VerifiedSurfaceRegistry) (evidence : List UnitEvidence) :
    Except Failure (List (String × String)) :=
  computeDigestsFrom H registry evidence [] registry.topologicalSurfaceIds

def computeSurfaceDigests (registry : VerifiedSurfaceRegistry) (evidence : List Members) :
    Except Failure (List (String × String)) := do
  let parsed ← parseEvidence H registry evidence
  computeDigests H registry parsed

end Digests
end AgentStack.Core
