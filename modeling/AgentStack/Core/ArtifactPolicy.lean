import AgentStack.Core.Catalog

/-! Artifact definitions: their targets, ownership and protected paths. -/
namespace AgentStack.Core

open JsonText JsonValue KeyedList FileTree

def artifactFailure (message : String) (details : List (String × String)) : Failure :=
  ⟨.core, "AWP_ARTIFACT_POLICY_INVALID", message, details⟩

def protectedFailure (message : String) (details : List (String × String)) : Failure :=
  ⟨.core, "AWP_PROTECTED_PATH_VIOLATION", message, details⟩

/-- `value is None`. -/
def isNull (v : JsonValue) : Bool :=
  match v with
  | .null => true
  | _ => false

def requireMapping (v : JsonValue) (label : String) : Except Failure Members :=
  require (members? v) (artifactFailure (label ++ " must be an object") [])

def requirePositiveInt (v : JsonValue) (label : String) : Except Failure Int :=
  match v with
  | .int n =>
    if 1 ≤ n then .ok n else .error (artifactFailure (label ++ " must be a positive integer") [])
  | _ => .error (artifactFailure (label ++ " must be a positive integer") [])

/-- `^[a-z][a-z0-9._-]*$`. -/
def isStableToken (value : String) : Bool :=
  match charsOf value with
  | [] => false
  | c :: cs => ('a' ≤ c ∧ c ≤ 'z') && cs.all fun c => isLowerAlnum c || c ∈ ['.', '_', '-']

def requireStableToken (v : JsonValue) (label : String) : Except Failure String :=
  require ((stringValue? v).filter isStableToken)
    (artifactFailure (label ++ " must be a stable id") [])

/-! ### The order of paths -/

section Order

variable (casefold : String → String)

/-- `value.rstrip("/")`. -/
def stripSlashes (value : String) : String :=
  String.ofList ((charsOf value).reverse.dropWhile (· = '/')).reverse

def sameOrDescendant (path root : String) : Bool :=
  let rootKey := casefold (stripSlashes root)
  casefold path = rootKey || (charsOf (rootKey ++ "/")).isPrefixOf (charsOf (casefold path))

def pathsOverlap (first second : String) : Bool :=
  sameOrDescendant casefold first second || sameOrDescendant casefold second first

end Order

/-! ### Protected paths -/

def controlPaths : List String :=
  [".agent-workflow/manifest.json", ".agent-workflow/workflow.lock",
    ".agent-workflow/reconcile.lock", ".agent-workflow/runtime-state.lock",
    ".agent-workflow/maintenance.json", ".agent-workflow/runtime"]

/-- `normalize_path`, as a text. -/
def normalizePathText (nfc : String → String) (value : String) : Except Failure String :=
  (normalizePath nfc value).map joinPath

def deriveProtectedPaths (nfc : String → String) (activeRoot archiveRoot : String) :
    Except Failure (List String) := do
  let active ← normalizePathText nfc activeRoot
  let archive ← normalizePathText nfc archiveRoot
  return [".git/**", active ++ "/**", archive ++ "/**", ".trellis/workspace/**", "specs/**",
    ".agent-workflow/local/**", ".agent-workflow/task-transactions/**",
    ".agent-workflow/transactions/**"]

/-- `value.removesuffix("/**")`. -/
def removeGlob (value : String) : String :=
  if "/**".toList.isSuffixOf (charsOf value) then
    String.ofList (charsOf value).dropLast.dropLast.dropLast
  else value

def protectedRoots (nfc : String → String) (activeRoot archiveRoot : String) :
    Except Failure (List String) := do
  let patterns ← deriveProtectedPaths nfc activeRoot archiveRoot
  return patterns.map removeGlob

/-! ### Targets -/

inductive OwnershipClass
  | managed
  | overlayManaged
  | createOnceThenUserOwned
  | adopted
  | userOwned
  deriving DecidableEq, Repr

def OwnershipClass.text : OwnershipClass → String
  | managed => "managed"
  | overlayManaged => "overlay-managed"
  | createOnceThenUserOwned => "create-once-then-user-owned"
  | adopted => "adopted"
  | userOwned => "user-owned"

def ownershipClasses : List OwnershipClass :=
  [.managed, .overlayManaged, .createOnceThenUserOwned, .adopted, .userOwned]

/-- The merge strategy and the mode policy that are legal for an ownership. -/
def OwnershipClass.contract : OwnershipClass → String × String
  | managed => ("whole-file", "exact")
  | overlayManaged => ("marked-block", "preserve")
  | createOnceThenUserOwned => ("whole-file", "exact")
  | adopted => ("observe-baseline", "preserve")
  | userOwned => ("none", "preserve")

structure ArtifactTarget where
  path : String
  ownership : OwnershipClass
  mergeStrategy : String
  modePolicy : String
  mode : Option Mode
  markers : Option (String × String)
  deriving DecidableEq, Repr

structure ArtifactDefinition where
  definitionId : String
  source : String
  targets : List ArtifactTarget
  forbiddenPaths : List String
  validators : List (String × Int)
  deriving DecidableEq, Repr

def targetFields : List String :=
  ["path", "ownership", "merge_strategy", "mode_policy", "mode", "markers"]

def definitionFields : List String :=
  ["schema_id", "schema_version", "id", "source", "targets", "forbidden_paths", "validators"]

def targetMode (raw : Members) (modePolicy path : String) : Except Failure (Option Mode) := do
  let rawMode := getField raw "mode"
  if modePolicy = "exact" then
    check (!isNull rawMode) (artifactFailure "exact mode policy requires mode" [("path", path)])
    let mode ← normalizeModeValue rawMode
    return some mode
  else
    check (isNull rawMode)
      (artifactFailure "preserve mode policy forbids a candidate mode" [("path", path)])
    return none

def markerPair (raw : JsonValue) (path : String) : Except Failure (String × String) := do
  let markers ← requireMapping raw "markers"
  check (fieldsAre markers ["begin", "end"])
    (artifactFailure "marker pair must contain only begin and end" [("path", path)])
  let invalid := artifactFailure "marker pair is invalid" [("path", path)]
  let first ← require ((stringValue? (getField markers "begin")).filter (· ≠ "")) invalid
  let last ← require ((stringValue? (getField markers "end")).filter (· ≠ "")) invalid
  check (first ≠ last) invalid
  check (¬ (first.toList <:+: last.toList) ∧ ¬ (last.toList <:+: first.toList))
    (artifactFailure "marker pair may not nest or overlap" [("path", path)])
  return (first, last)

def targetMarkers (raw : Members) (ownership : OwnershipClass) (path : String) :
    Except Failure (Option (String × String)) := do
  let rawMarkers := getField raw "markers"
  if ownership = .overlayManaged then
    let markers ← markerPair rawMarkers path
    return some markers
  else
    check (isNull rawMarkers)
      (artifactFailure "markers are legal only for overlay-managed targets" [("path", path)])
    return none

section Definitions

variable (nfc casefold : String → String)

def assertArtifactTargetAllowed (path : String) (ownership : OwnershipClass)
    (forbidden : List String) : Except Failure Unit := do
  let roots ← protectedRoots nfc ".trellis/tasks" ".trellis/tasks/archive"
  (roots ++ controlPaths ++ forbidden).forM fun root =>
    check (!sameOrDescendant casefold path root)
      (protectedFailure "artifact target overlaps a protected authority"
        [("path", path), ("root", root)])
  check (!sameOrDescendant casefold path ".trellis/spec" || ownership = .createOnceThenUserOwned)
    (protectedFailure ".trellis/spec may only be seeded as create-once-then-user-owned"
      [("path", path)])

def validateTarget (forbidden : List String) (raw : Members) : Except Failure ArtifactTarget := do
  let unknown := unknownFields raw targetFields
  check (unknown = [])
    (artifactFailure "unknown artifact target fields" [("fields", joinTexts unknown)])
  let pathValue ← require (stringValue? (getField raw "path"))
    (artifactFailure "artifact target path must be a string" [])
  let path ← normalizePathText nfc pathValue
  let ownership ← require (stringValue? (getField raw "ownership"))
    (artifactFailure "ownership must be a string" [])
  let mergeStrategy ← require (stringValue? (getField raw "merge_strategy"))
    (artifactFailure "merge strategy must be a string" [])
  let modePolicy ← require (stringValue? (getField raw "mode_policy"))
    (artifactFailure "ownership, merge strategy, and mode policy must be strings" [])
  let legal ← require (ownershipClasses.find? fun legal =>
      legal.text = ownership ∧ legal.contract = (mergeStrategy, modePolicy))
    (artifactFailure "illegal ownership/merge/mode combination" [("path", path),
      ("ownership", ownership), ("merge_strategy", mergeStrategy), ("mode_policy", modePolicy)])
  let mode ← targetMode raw modePolicy path
  let markers ← targetMarkers raw legal path
  assertArtifactTargetAllowed nfc casefold path legal forbidden
  return ⟨path, legal, mergeStrategy, modePolicy, mode, markers⟩

/-! ### Definitions -/

/-- What the definitions before have taken: ids, paths by their keys, and marker pairs. -/
structure Taken where
  ids : List String
  paths : List (String × String)
  markers : List ((String × String) × String)

def takeTarget (definitionId : String) (taken : Taken) (target : ArtifactTarget) :
    Except Failure Taken := do
  let key := casefold target.path
  check (taken.paths.lookup key = none)
    (artifactFailure "multiple definitions manage the same normalized target"
      [("path", target.path), ("first_definition", (taken.paths.lookup key).getD ""),
        ("second_definition", definitionId)])
  let paths := (key, definitionId) :: taken.paths
  if let some pair := target.markers then
    check (taken.markers.lookup pair = none)
      (artifactFailure "marker pair must be globally unique"
        [("first_path", (taken.markers.lookup pair).getD ""), ("second_path", target.path)])
    return { taken with paths := paths, markers := (pair, target.path) :: taken.markers }
  else return { taken with paths := paths }

def artifactValidator (raw : JsonValue) : Except Failure (String × Int) := do
  let validator ← requireMapping raw "validator"
  check (fieldsAre validator ["id", "version"])
    (artifactFailure "validator must contain only id and version" [])
  let validatorId ← requireStableToken (getField validator "id") "validator id"
  let version ← requirePositiveInt (getField validator "version") "validator version"
  return (validatorId, version)

def artifactValidators (v : JsonValue) : Except Failure (List (String × Int)) := do
  let raws ← require (items? v) (artifactFailure "validators must be an array" [])
  let validators ← raws.mapM artifactValidator
  check (decide validators.Nodup) (artifactFailure "duplicate artifact validator" [])
  return validators.insertionSort fun a b => a.1 < b.1 ∨ a.1 = b.1 ∧ a.2 ≤ b.2

def artifactTarget (forbidden : List String) (raw : JsonValue) : Except Failure ArtifactTarget := do
  let target ← requireMapping raw "artifact target"
  validateTarget nfc casefold forbidden target

def forbiddenPaths (raw : Members) : Except Failure (List String) := do
  let values ← require ((items? (getFieldOr raw "forbidden_paths" (.array []))).bind fun raws =>
      raws.mapM stringValue?)
    (artifactFailure "forbidden_paths must be a string array" [])
  values.mapM (normalizePathText nfc)

def validateDefinition (taken : Taken) (raw : Members) :
    Except Failure (ArtifactDefinition × Taken) := do
  let unknown := unknownFields raw definitionFields
  check (unknown = [])
    (artifactFailure "unknown artifact definition fields" [("fields", joinTexts unknown)])
  check (isString (getField raw "schema_id") "agent-workflow.artifact-definition" &&
      isOne (getField raw "schema_version"))
    (artifactFailure "artifact definition schema identity/version is invalid" [])
  let definitionId ← requireStableToken (getField raw "id") "definition id"
  check (definitionId ∉ taken.ids)
    (artifactFailure "duplicate artifact definition id" [("definition_id", definitionId)])
  let sourceValue ← require (stringValue? (getField raw "source"))
    (artifactFailure "artifact source must be a path" [])
  let source ← normalizePathText nfc sourceValue
  let forbidden ← forbiddenPaths nfc raw
  let rawTargets ← require ((items? (getField raw "targets")).filter (· ≠ []))
    (artifactFailure "artifact definition requires at least one target" [])
  let targets ← rawTargets.mapM (artifactTarget nfc casefold forbidden)
  let taken ← targets.foldlM (takeTarget casefold definitionId)
    { taken with ids := definitionId :: taken.ids }
  let validators ← artifactValidators (getFieldOr raw "validators" (.array []))
  return (⟨definitionId, source, targets, forbidden, validators⟩, taken)

def validateDefinitionsFrom (taken : Taken) : List Members →
    Except Failure (List ArtifactDefinition)
  | [] => .ok []
  | raw :: raws => do
    let (verified, taken) ← validateDefinition nfc casefold taken raw
    let rest ← validateDefinitionsFrom taken raws
    return verified :: rest

def validateArtifactDefinitions (definitions : List Members) :
    Except Failure (List ArtifactDefinition) :=
  validateDefinitionsFrom nfc casefold ⟨[], [], []⟩ definitions

end Definitions

end AgentStack.Core
