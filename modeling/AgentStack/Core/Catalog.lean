import AgentStack.Core.Surfaces

/-! The catalog of entries, the capabilities of platforms, and the closure of a profile. -/
namespace AgentStack.Core

open JsonText JsonValue KeyedList RefGraph

inductive CapabilityLevel
  | unsupported
  | instructionOnly
  | enforced
  deriving DecidableEq, Repr

namespace CapabilityLevel

def rank : CapabilityLevel → Nat
  | unsupported => 0
  | instructionOnly => 1
  | enforced => 2

def value : CapabilityLevel → String
  | unsupported => "unsupported"
  | instructionOnly => "instruction-only"
  | enforced => "enforced"

def parse? : JsonValue → Option CapabilityLevel
  | .string "unsupported" => some unsupported
  | .string "instruction-only" => some instructionOnly
  | .string "enforced" => some enforced
  | _ => none

end CapabilityLevel

abbrev Capabilities := List (String × CapabilityLevel)

structure ResolvedProfile where
  skillsEnable : List String
  skillsDisable : List String
  defaultPlatforms : List String
  requiredCapabilities : Capabilities

structure CatalogEntry where
  entryId : String
  kind : String
  dependencies : List String
  conflicts : List String
  references : List String
  platforms : List String
  requiredCapabilities : Capabilities
  mandatory : Bool
  discoverable : Bool
  deriving DecidableEq, Repr

structure CatalogClosure where
  orderedIds : List String
  referenceIds : List String
  discoverableIds : List String
  entries : List CatalogEntry
  deriving DecidableEq, Repr

structure CapabilityResult where
  capabilityId : String
  required : CapabilityLevel
  observed : CapabilityLevel
  platform : String
  deriving DecidableEq, Repr

def catalogFailure (message : String) (details : List (String × String)) : Failure :=
  ⟨.core, "AWP_CATALOG_CLOSURE_BLOCKED", message, details⟩

def capabilityFailure (message : String) (details : List (String × String)) : Failure :=
  ⟨.core, "AWP_CAPABILITY_INSUFFICIENT", message, details⟩

/-- `sorted(set(members) - fields)`. -/
def unknownFields (ms : Members) (fields : List String) : List String :=
  sortStrings ((ms.map Prod.fst).filter (· ∉ fields))

def boolValue? : JsonValue → Option Bool
  | .bool b => some b
  | _ => none

def normalizeStringSet (nfc : String → String) (values : List String) : List String :=
  (values.map nfc).dedup.insertionSort fun a b => utf16 a ≤ utf16 b

def stringArray (nfc : String → String) (v : JsonValue) (field : String) :
    Except Failure (List String) := do
  let values ← require ((items? v).bind fun raws => raws.mapM stringValue?)
    (catalogFailure "catalog field must be a string array" [("field", field)])
  return normalizeStringSet nfc values

def capabilityLevel (field : String) (m : String × JsonValue) :
    Except Failure (String × CapabilityLevel) := do
  let level ← require (CapabilityLevel.parse? m.2) (catalogFailure "invalid capability level"
    [("field", field), ("capability_id", m.1)])
  return (m.1, level)

/-- `dict(sorted(capabilities.items()))`. -/
def sortCapabilities (capabilities : Capabilities) : Capabilities :=
  capabilities.insertionSort fun a b => a.1 ≤ b.1

def capabilityMapping (v : JsonValue) (field : String) : Except Failure Capabilities := do
  let members ← require (members? v)
    (catalogFailure "capability field must be an object" [("field", field)])
  let levels ← members.mapM (capabilityLevel field)
  return sortCapabilities levels

/-! ### Capabilities of platforms -/

def manifestFields : List String :=
  ["schema_id", "schema_version", "platform", "adapter_id", "adapter_version", "harness_id",
    "harness_version", "probe_suite_id", "probe_suite_version", "capabilities",
    "approval_verifiers", "evidence_digest"]

def manifestCapabilities (platform : String) (v : JsonValue) : Except Failure Capabilities :=
  match capabilityMapping v "capabilities" with
  | .ok capabilities => .ok capabilities
  | .error f => .error (capabilityFailure f.message (("platform", platform) :: f.details))

abbrev PlatformCapabilities := List (String × Capabilities)

/-- `seen` are the platforms of the manifests before. -/
def parseManifest (seen : List String) (manifest : Members) :
    Except Failure (String × Capabilities) := do
  let unknown := unknownFields manifest manifestFields
  check (unknown = [])
    (capabilityFailure "unknown CapabilityManifest fields" [("fields", joinTexts unknown)])
  check (isString (getField manifest "schema_id") "agent-workflow.capability-manifest")
    (capabilityFailure "CapabilityManifest schema_id is invalid" [])
  check (isOne (getField manifest "schema_version"))
    (capabilityFailure "CapabilityManifest schema_version is unsupported" [])
  let platform ← require ((stringValue? (getField manifest "platform")).filter (· ≠ ""))
    (capabilityFailure "CapabilityManifest platform is invalid" [])
  check (platform ∉ seen)
    (capabilityFailure "duplicate CapabilityManifest platform" [("platform", platform)])
  check ((stringValue? (getField manifest "evidence_digest")).any isDigest)
    (capabilityFailure "CapabilityManifest evidence digest is invalid" [("platform", platform)])
  let capabilities ← manifestCapabilities platform (getField manifest "capabilities")
  return (platform, capabilities)

def parseManifestsFrom (seen : PlatformCapabilities) :
    List Members → Except Failure PlatformCapabilities
  | [] => .ok seen
  | manifest :: manifests => do
    let parsed ← parseManifest (seen.map Prod.fst) manifest
    parseManifestsFrom (seen ++ [parsed]) manifests

def parseManifests (manifests : List Members) : Except Failure PlatformCapabilities :=
  parseManifestsFrom [] manifests

def observedLevel (byPlatform : PlatformCapabilities) (platform capabilityId : String) :
    CapabilityLevel :=
  (((byPlatform.lookup platform).getD []).lookup capabilityId).getD .unsupported

def capabilityResult (byPlatform : PlatformCapabilities) (required : String × CapabilityLevel)
    (platform : String) : Except Failure CapabilityResult := do
  let observed := observedLevel byPlatform platform required.1
  check (required.2.rank ≤ observed.rank)
    (capabilityFailure "platform capability is below the profile minimum"
      [("platform", platform), ("capability_id", required.1), ("required", required.2.value),
        ("observed", observed.value)])
  return ⟨required.1, required.2, observed, platform⟩

def evaluateCapabilities (profile : ResolvedProfile) (manifests : List Members) :
    Except Failure (List CapabilityResult) := do
  let byPlatform ← parseManifests manifests
  check (profile.requiredCapabilities = [] || profile.defaultPlatforms ≠ [])
    (capabilityFailure "profile requires capabilities but selects no platform" [])
  let results ← (sortCapabilities profile.requiredCapabilities).mapM fun required =>
    profile.defaultPlatforms.mapM (capabilityResult byPlatform required)
  return results.flatten

/-! ### Entries -/

def catalogFields : List String := ["schema_id", "schema_version", "entries"]

def entryFields : List String :=
  ["id", "kind", "dependencies", "conflicts", "references", "platforms", "required_capabilities",
    "mandatory", "discoverable"]

/-- The kind in an id `^[a-z][a-z0-9-]*:[a-z0-9][a-z0-9._-]*$`. -/
def stableKind? (entryId : String) : Option String :=
  match splitChars ':' entryId.toList with
  | [kind, entryName] =>
    if isUnitKind kind && isSurfaceSuffix entryName then some (String.ofList kind) else none
  | _ => none

/-- The id and the kind of an entry. -/
def entryIdentity (members : Members) : Except Failure (String × String) := do
  let unknown := unknownFields members entryFields
  check (unknown = [])
    (catalogFailure "unknown catalog entry fields" [("fields", joinTexts unknown)])
  let entryId := (stringValue? (getField members "id")).getD ""
  let details := [("entry_id", entryId)]
  let kind ← require (stableKind? entryId) (catalogFailure "catalog entry id is invalid" details)
  check (isString (getField members "kind") kind)
    (catalogFailure "catalog entry kind disagrees with its id" details)
  return (entryId, kind)

section Entries

variable (nfc : String → String)

def entryContent (members : Members) (identity : String × String) :
    Except Failure CatalogEntry := do
  let details := [("entry_id", identity.1)]
  let mandatory ← require (boolValue? (getFieldOr members "mandatory" (.bool false)))
    (catalogFailure "catalog entry flags must be booleans" details)
  let discoverable ← require (boolValue? (getFieldOr members "discoverable" (.bool true)))
    (catalogFailure "catalog entry flags must be booleans" details)
  let dependencies ← stringArray nfc (getFieldOr members "dependencies" (.array [])) "dependencies"
  let conflicts ← stringArray nfc (getFieldOr members "conflicts" (.array [])) "conflicts"
  let references ← stringArray nfc (getFieldOr members "references" (.array [])) "references"
  let platforms ← stringArray nfc (getFieldOr members "platforms" (.array [])) "platforms"
  let requiredCapabilities ← capabilityMapping
    (getFieldOr members "required_capabilities" (.object [])) "required_capabilities"
  return ⟨identity.1, identity.2, dependencies, conflicts, references, platforms,
    requiredCapabilities, mandatory, discoverable⟩

/-- `seen` are the ids of the entries before. -/
def catalogEntry (seen : List String) (raw : JsonValue) : Except Failure CatalogEntry := do
  let members ← require (members? raw) (catalogFailure "catalog entry must be an object" [])
  let identity ← entryIdentity members
  check (identity.1 ∉ seen)
    (catalogFailure "duplicate catalog entry id" [("entry_id", identity.1)])
  entryContent nfc members identity

def parseCatalog (document : Members) : Except Failure (List CatalogEntry) := do
  let unknown := unknownFields document catalogFields
  check (unknown = []) (catalogFailure "unknown catalog fields" [("fields", joinTexts unknown)])
  check (isString (getField document "schema_id") "agent-workflow.catalog" &&
      isOne (getField document "schema_version"))
    (catalogFailure "catalog schema identity/version is invalid" [])
  let raws ← require (items? (getField document "entries"))
    (catalogFailure "catalog entries must be an array" [])
  seenM (catalogEntry nfc) (·.entryId) [] raws

end Entries

def entryAt (entries : List CatalogEntry) (entryId : String) : Option CatalogEntry :=
  entries.find? (·.entryId = entryId)

def entryIsSupported (entry : CatalogEntry) (selectedPlatforms : List String)
    (byPlatform : PlatformCapabilities) : Bool :=
  let candidates := selectedPlatforms.filter fun platform =>
    entry.platforms = [] || platform ∈ entry.platforms
  if entry.platforms ≠ [] && candidates = [] then false
  else if entry.requiredCapabilities = [] then true
  else candidates.any fun platform => entry.requiredCapabilities.all fun required =>
    required.2.rank ≤ (observedLevel byPlatform platform required.1).rank

/-! ### The closure -/

structure Selection where
  selected : List String
  referenceIds : List String

def Selection.note (viaReference : Bool) (entryId : String) (s : Selection) : Selection :=
  if viaReference then { s with referenceIds := s.referenceIds.insert entryId } else s

/-- Recursion without end. -/
def recursionError : Failure :=
  ⟨.assertion, "RecursionError", "maximum recursion depth exceeded", []⟩

def addEntry (profile : ResolvedProfile) (byPlatform : PlatformCapabilities)
    (entries : List CatalogEntry) : ℕ → Bool → Selection → String → Except Failure Selection
  | 0, _, _, _ => .error recursionError
  | fuel + 1, viaReference, s, entryId =>
    if entryId ∈ s.selected then .ok (s.note viaReference entryId)
    else do
      let details := [("entry_id", entryId)]
      check (entryId ∉ profile.skillsDisable)
        (catalogFailure "disabled entry cannot enter closure" details)
      let entry ← require (entryAt entries entryId)
        (catalogFailure "catalog dependency/reference is missing" details)
      check (entryIsSupported entry profile.defaultPlatforms byPlatform)
        (catalogFailure "catalog entry is platform/capability incompatible" details)
      let s := Selection.note viaReference entryId { s with selected := entryId :: s.selected }
      let s ← entry.dependencies.foldlM (addEntry profile byPlatform entries fuel false) s
      entry.references.foldlM (addEntry profile byPlatform entries fuel true) s

/-- The enabled, the mandatory and the platforms' entries. -/
def closureSeeds (profile : ResolvedProfile) (entries : List CatalogEntry) : List String :=
  sortStrings (profile.skillsEnable ++ (entries.filter (·.mandatory)).map (·.entryId) ++
    (profile.defaultPlatforms.map ("platform:" ++ ·)).filter
      (· ∈ entries.map (·.entryId))).dedup

def checkConflicts (entries : List CatalogEntry) (selected : List String) (entryId : String) :
    Except Failure Unit :=
  let conflicts := (((entryAt entries entryId).map (·.conflicts)).getD []).filter (· ∈ selected)
  check (conflicts = []) (catalogFailure "catalog conflict in complete closure"
    [("entry_id", entryId), ("conflicts", joinTexts (sortStrings conflicts))])

/-- `set(entry.dependencies) | set(entry.references)`. -/
def prerequisites (entries : List CatalogEntry) (entryId : String) : List String :=
  ((entryAt entries entryId).map fun entry => (entry.dependencies ++ entry.references).dedup).getD []

def checkPrerequisite (selected : List String) (entryId prerequisite : String) :
    Except Failure Unit :=
  check (prerequisite ∈ selected) (catalogFailure "closure prerequisite was not selected"
    [("entry_id", entryId), ("prerequisite", prerequisite)])

def stableTopologicalOrder (selected : List String) (entries : List CatalogEntry) :
    Except Failure (List String) := do
  selected.forM fun entryId =>
    (prerequisites entries entryId).forM (checkPrerequisite selected entryId)
  let ordered := order selected (prerequisites entries) (· ≤ ·)
  check (ordered.length = selected.length) (catalogFailure "catalog dependency/reference cycle"
    [("entries", joinTexts (sortStrings (selected.filter (· ∉ ordered))))])
  return ordered

def resolveCatalogClosure (nfc : String → String) (profile : ResolvedProfile) (document : Members)
    (manifests : List Members) : Except Failure CatalogClosure := do
  let _ ← evaluateCapabilities profile manifests
  let byPlatform ← parseManifests manifests
  let entries ← parseCatalog nfc document
  let selection ← (closureSeeds profile entries).foldlM
    (addEntry profile byPlatform entries (entries.length + 1) false) ⟨[], []⟩
  let selected := sortStrings selection.selected
  selected.forM (checkConflicts entries selected)
  let ordered ← stableTopologicalOrder selected entries
  let chosen := selected.filterMap (entryAt entries)
  return ⟨ordered, sortStrings selection.referenceIds,
    (chosen.filter (·.discoverable)).map (·.entryId), chosen⟩

end AgentStack.Core
