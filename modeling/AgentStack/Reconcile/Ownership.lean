import AgentStack.Host
import AgentStack.KeyedList.Basic
import Mathlib.Data.List.Sort
import Mathlib.Data.String.Basic

/-! Ownership decisions: what a staged tree does to each path the Manifest or the tree names. -/
namespace AgentStack.Reconcile

open AgentStack.Core FileTree AgentStack.Runtime

inductive Ownership
  | managed
  | overlayManaged
  | adopted
  | createOnceThenUserOwned
  | userOwned
  | other (name : String)
  deriving DecidableEq, Repr

inductive MergeStrategy
  | wholeFile
  | markedBlock
  | observeBaseline
  | other (name : String)
  deriving DecidableEq, Repr

inductive ModePolicy
  | exact
  | preserve
  | other (name : String)
  deriving DecidableEq, Repr

inductive Action
  | noOp
  | create
  | replace
  | restorativeRepair
  | updateManagedBlock
  | adoptBaseline
  deriving DecidableEq, Repr

inductive PlanOperation
  | repair
  | other (name : String)
  deriving DecidableEq, Repr

structure Markers where
  «begin» : String
  «end» : String
  deriving DecidableEq, Repr

/-- `none` for the hash and the mode is the canonical null. -/
structure StagedFile where
  path : String
  definitionId : String
  surfaceId : String
  ownership : Ownership
  mergeStrategy : MergeStrategy
  candidateByteHash : Option String
  modePolicy : ModePolicy
  candidateMode : Option FileTree.Mode
  candidateBytes : Bytes
  deriving DecidableEq, Repr

/-- The rendered files, each recorded with the hash of its own bytes. -/
structure StagedRenderTree (host : Host) where
  files : List StagedFile
  hashed : ∀ r ∈ files, r.candidateByteHash = some (host.hashBytes (.bytes r.candidateBytes))

structure ArtifactTarget where
  path : String
  ownership : Ownership
  mergeStrategy : MergeStrategy
  modePolicy : ModePolicy
  markers : Option Markers
  deriving DecidableEq, Repr

structure ArtifactDefinition where
  id : String
  targets : List ArtifactTarget
  deriving DecidableEq, Repr

/-- A target under the definition that names it. -/
structure DefinedTarget where
  target : ArtifactTarget
  definitionId : String
  deriving DecidableEq, Repr

structure ManifestRecord where
  path : String
  definitionId : String
  ownership : Ownership
  fileState : FileState
  managedBlockHash : Option String
  createdOnce : Bool
  markers : Option Markers
  deriving DecidableEq, Repr

structure ObservedFile where
  state : FileState
  content : Option String
  deriving DecidableEq, Repr

inductive MarkerState
  | notApplicable
  | unique
  deriving DecidableEq, Repr

structure OwnershipObservation where
  path : String
  fileState : FileState
  markerState : MarkerState
  managedBlockHash : Option String
  deriving DecidableEq, Repr

structure OwnershipDecision where
  path : String
  definitionId : String
  ownership : Ownership
  observedFileState : FileState
  baselineFileState : FileState
  candidateFileState : FileState
  action : Action
  reasonCode : String
  deriving DecidableEq, Repr

structure OwnershipPlan where
  decisions : List OwnershipDecision
  observations : List OwnershipObservation
  preconditions : List OwnershipDecision
  candidateFileStates : List FileState
  candidateContents : List (String × Bytes)
  manifestFileRecords : List ManifestRecord
  hasFileChanges : Bool
  hasManifestChanges : Bool
  deriving DecidableEq, Repr

def ownershipFailure (code message path : String) : Failure :=
  ⟨.renderer, code, message, [("path", path)]⟩

abbrev conflict (message path : String) : Failure :=
  ownershipFailure "AWP_OWNERSHIP_CONFLICT" message path

abbrev drift (message path : String) : Failure :=
  ownershipFailure "AWP_OWNERSHIP_DRIFT" message path

/-! ### Text and bytes -/

/-- `text.encode("utf-8")`. -/
def encode (text : String) : Bytes := text.toByteArray.data.toList

/-- The text the bytes are the UTF-8 encoding of. -/
def decode? (content : Bytes) : Option String := String.fromUTF8? ⟨content.toArray⟩

@[simp] theorem decode?_encode (text : String) : decode? (encode text) = some text := by
  unfold decode? encode String.fromUTF8?
  have hvalid : text.toByteArray.IsValidUTF8 := text.isValidUTF8
  split
  · rfl
  · next h =>
    simp at h
    exact absurd hvalid h

def newline : Bytes := [10]

/-- `content.index(token)`. -/
def indexOf? (token : Bytes) : Bytes → Option Nat
  | [] => if token = [] then some 0 else none
  | b :: content =>
    if token.isPrefixOf (b :: content) then some 0 else (indexOf? token content).map (· + 1)

/-- `content.count(token)` after the next `skip` bytes: occurrences do not overlap. -/
def countFrom (token : Bytes) : Nat → Bytes → Nat
  | _, [] => 0
  | 0, b :: content =>
    if token.isPrefixOf (b :: content) then 1 + countFrom token (token.length - 1) content
    else countFrom token 0 content
  | skip + 1, _ :: content => countFrom token skip content

def count (token content : Bytes) : Nat := countFrom token 0 content

/-! ### Paths and states -/

/-- The normalized spelling of a path. -/
def normalizedPath (nfc : String → String) (value : String) : Except Failure String :=
  (normalizePath nfc value).map joinPath

def rendererFailure (message : String) (details : List (String × String)) : Failure :=
  ⟨.renderer, "AWP_RECONCILE_RECOVERY_REQUIRED", message, details⟩

def digestOrNull (value : Option String) : Bool := value.all isDigest

def FileState.fromDocument (nfc : String → String) (document : FileState) :
    Except Failure FileState := do
  if !digestOrNull document.byteHash then
    .error (rendererFailure "reconcile digest is invalid" [("field", "byte_hash")])
  else if document.exists && document.fileType = .absent then
    .error (rendererFailure "existing FileState cannot have absent type" [])
  else if !document.exists && (document.fileType ≠ .absent || document.byteHash ≠ none) then
    .error (rendererFailure "absent FileState has candidate bytes or type" [])
  else
    let path ← normalizePath nfc (joinPath document.path)
    if !digestOrNull document.managedBlockHash then
      .error (rendererFailure "reconcile digest is invalid" [("field", "managed_block_hash")])
    else .ok { document with path := path }

def candidateState (record : StagedFile) : FileState :=
  { path := segments record.path, «exists» := true, fileType := .regular,
    byteHash := record.candidateByteHash, mode := record.candidateMode, nonSymlink := true,
    managedBlockHash := none }

def absent (path : String) : FileState := absentState (segments path) none

/-! ### Reading the inputs -/

/-- `_observed`: the state and the text found at a path, with what is recorded of them. -/
def observedItem (host : Host) (path : String) (item : ObservedFile) :
    Except Failure (FileState × Option Bytes × OwnershipObservation) := do
  let state ← FileState.fromDocument host.nfc item.state
  let content := item.content.map encode
  if state.path ≠ segments path then .error (conflict "observed path identity differs" path)
  else if !state.exists && content.isSome then
    .error (conflict "absent observation has content" path)
  else if content.any fun c => some (host.hashBytes (.bytes c)) ≠ state.byteHash then
    .error (conflict "observed bytes differ from FileState" path)
  else .ok (state, content, ⟨path, state, .notApplicable, none⟩)

def addTargets (nfc : String → String) (definitionId : String)
    (targets : List (String × DefinedTarget)) :
    List ArtifactTarget → Except Failure (List (String × DefinedTarget))
  | [] => .ok targets
  | target :: rest => do
    let path ← normalizedPath nfc target.path
    if path ∈ targets.map Prod.fst then .error (conflict "artifact target repeats" path)
    else addTargets nfc definitionId ((path, ⟨target, definitionId⟩) :: targets) rest

/-- `_definitions`: every target under its normalized path. -/
def definitions (nfc : String → String) (targets : List (String × DefinedTarget)) :
    List ArtifactDefinition → Except Failure (List (String × DefinedTarget))
  | [] => .ok targets
  | definition :: rest => do
    let targets ← addTargets nfc definition.id targets definition.targets
    definitions nfc targets rest

/-- `_manifest_records`: every record under its normalized path. -/
def manifestRecords (nfc : String → String) (indexed : List (String × ManifestRecord)) :
    List ManifestRecord → Except Failure (List (String × ManifestRecord))
  | [] => .ok indexed
  | record :: rest => do
    let path ← normalizedPath nfc record.path
    if path ∈ indexed.map Prod.fst then .error (conflict "Manifest file path repeats" path)
    else manifestRecords nfc (indexed ++ [(path, record)]) rest

/-- `staged_by_path`: of two files with one path the later counts. -/
def stagedAt (files : List StagedFile) (path : String) : Option StagedFile :=
  files.reverse.find? (·.path = path)

structure ControlTarget where
  definitionId : String
  path : String
  mode : FileTree.Mode
  deriving DecidableEq, Repr

def reconcilerControlTargets : List ControlTarget :=
  [⟨"project-launcher", ".agent-workflow/bin/agent-stack", 0o755⟩,
   ⟨"runtime-control", ".agent-workflow/runtime-control.json", 0o644⟩,
   ⟨"project-workflow-lock", ".agent-workflow/workflow.lock", 0o644⟩]

def controlDiffers (control : ControlTarget) (record : StagedFile) : Bool :=
  record.definitionId ≠ control.definitionId || record.surfaceId ≠ "runtime-control-plane" ||
    record.ownership ≠ .managed || record.mergeStrategy ≠ .wholeFile ||
    record.modePolicy ≠ .exact || record.candidateMode ≠ some control.mode

/-- The Reconciler's own files are targets of its own, whatever the definitions say. -/
def controlTargets (files : List StagedFile) (targets : List (String × DefinedTarget)) :
    List ControlTarget → Except Failure (List (String × DefinedTarget))
  | [] => .ok targets
  | control :: rest =>
    match stagedAt files control.path with
    | none => controlTargets files targets rest
    | some record =>
      if controlDiffers control record then
        .error (conflict "Reconciler control target contract differs" control.path)
      else
        controlTargets files ((control.path, ⟨⟨control.path, .managed, .wholeFile, .exact, none⟩,
          control.definitionId⟩) :: targets) rest

/-! ### Overlay blocks -/

structure OverlayParts where
  before : Bytes
  block : Bytes
  after : Bytes
  markers : Markers
  deriving DecidableEq, Repr

def markersOf (value : Option Markers) (path : String) : Except Failure Markers :=
  match value with
  | none => .error ⟨.renderer, "AWP_OWNERSHIP_CONFLICT", "ownership object is invalid",
      [("field", "markers")]⟩
  | some markers =>
    if markers.begin = "" || markers.«end» = "" then
      .error (conflict "marker pair is invalid" path)
    else .ok markers

def Markers.beginToken (m : Markers) : Bytes := encode m.begin ++ newline

def Markers.endToken (m : Markers) : Bytes := encode m.«end» ++ newline

def overlayParts (content : Option Bytes) (value : Option Markers) (path : String) :
    Except Failure OverlayParts := do
  match content with
  | none => .error (conflict "overlay target is absent" path)
  | some content =>
    let markers ← markersOf value path
    if count markers.beginToken content ≠ 1 || count markers.endToken content ≠ 1 then
      .error (conflict "overlay markers are missing or duplicated" path)
    else
      match indexOf? markers.beginToken content, indexOf? markers.endToken content with
      | some beginAt, some endAt =>
        let blockAt := beginAt + markers.beginToken.length
        if endAt < blockAt then
          .error (conflict "overlay markers are nested or reversed" path)
        else
          .ok ⟨content.take beginAt, (content.take endAt).drop blockAt,
            content.drop (endAt + markers.endToken.length), markers⟩
      | _, _ => .error ⟨.core, "ValueError", "subsection not found", []⟩

/-- Where a block goes: the parts around the one there, or the end of a text without markers. -/
def overlayPlace (content : Option Bytes) (value : Option Markers) (markers : Markers)
    (enrolled : Bool) (path : String) : Except Failure (OverlayParts × Bool) :=
  let text := content.getD []
  if !enrolled && count markers.beginToken text = 0 && count markers.endToken text = 0 then
    let ended := if text = [] || newline.isSuffixOf text then text else text ++ newline
    .ok (⟨ended, [], [], markers⟩, true)
  else (overlayParts content value path).map (·, false)

def OverlayParts.withBlock (parts : OverlayParts) (block : Bytes) : Bytes :=
  parts.before ++ parts.markers.beginToken ++ block ++ parts.markers.endToken ++ parts.after

/-! ### One path -/

structure PathPlan where
  decision : OwnershipDecision
  observation : OwnershipObservation
  candidate : Option FileState
  contents : Option Bytes
  record : Option ManifestRecord
  deriving DecidableEq, Repr

def manifestRecord (staged : StagedFile) (state : FileState) (ownership : Ownership)
    (managedBlockHash : Option String) (createdOnce : Bool) (markers : Option Markers) :
    ManifestRecord :=
  ⟨staged.path, staged.definitionId, ownership, state, managedBlockHash, createdOnce, markers⟩

def ownershipDecision (staged : StagedFile) (observed baseline candidate : FileState)
    (action : Action) (reasonCode : String) : OwnershipDecision :=
  ⟨staged.path, staged.definitionId, staged.ownership, observed, baseline, candidate, action,
    reasonCode⟩

/-- What the decision on one path reads. -/
structure PathView where
  observed : FileState
  content : Option Bytes
  observation : OwnershipObservation
  baseline : FileState
  previous : Option ManifestRecord

variable (host : Host)

/-- The entry a path of the Manifest has after the staged tree dropped it. -/
def retiredFile (path : String) (old : ManifestRecord) : StagedFile :=
  { path := path, definitionId := old.definitionId, surfaceId := "retired",
    ownership := old.ownership,
    mergeStrategy := if old.ownership = .overlayManaged then .markedBlock else .wholeFile,
    candidateByteHash := none,
    modePolicy := if old.ownership = .overlayManaged then .preserve else .exact,
    candidateMode := none, candidateBytes := [] }

/-- What becomes of a dropped path: its candidate, the bytes written and why. -/
def retiredCandidate (path : String) (old : ManifestRecord) (view : PathView) :
    Except Failure (FileState × Option Bytes × String) :=
  match old.ownership with
  | .overlayManaged => do
    -- The recorded hash is a text in any case: a digest, or the canonical null no block hashes to.
    let parts ← overlayParts view.content old.markers path
    if some (host.hashBytes (.bytes parts.block)) ≠ old.managedBlockHash then
      .error (drift "managed overlay block drifted" path)
    else
      let bytes := parts.before ++ parts.after
      .ok ({ path := segments path, «exists» := true, fileType := .regular,
             byteHash := some (host.hashBytes (.bytes bytes)), mode := view.observed.mode,
             nonSymlink := true, managedBlockHash := none },
        some bytes, "retire-managed-block")
  | .managed =>
    if view.observed ≠ view.baseline then
      .error (drift "managed retirement preimage drifted" path)
    else .ok (absent path, none, "retire-managed-file")
  | _ => .ok (view.observed, none, "retire-ownership-record")

def planRetired (path : String) (old : ManifestRecord) (view : PathView) :
    Except Failure PathPlan := do
  let (candidate, contents, reason) ← retiredCandidate host path old view
  .ok ⟨ownershipDecision (retiredFile path old) view.observed view.baseline candidate .replace
      reason, view.observation, if candidate ≠ view.observed then some candidate else none,
    contents, none⟩

/-- A path plan that leaves the file alone. -/
def keepFile (record : StagedFile) (view : PathView) (candidate : FileState) (action : Action)
    (reason : String) (next : Option ManifestRecord) : PathPlan :=
  ⟨ownershipDecision record view.observed view.baseline candidate action reason,
    view.observation, none, none, next⟩

/-- A path plan that writes `contents` in the candidate's state. -/
def writeFile (record : StagedFile) (view : PathView) (candidate : FileState) (contents : Bytes)
    (action : Action) (reason : String) (next : Option ManifestRecord) : PathPlan :=
  ⟨ownershipDecision record view.observed view.baseline candidate action reason,
    view.observation, some candidate, some contents, next⟩

def planManaged (operation : PlanOperation) (record : StagedFile) (view : PathView) :
    Except Failure PathPlan :=
  let candidate := candidateState record
  let next := some (manifestRecord record candidate record.ownership none false none)
  let write (action : Action) (reason : String) :=
    writeFile record view candidate record.candidateBytes action reason next
  match view.previous with
  | none =>
    if !view.observed.exists then .ok (write .create "managed-target-absent")
    else if view.observed = candidate then
      .ok (keepFile record view candidate .noOp "enroll-matching-candidate" next)
    else .error (conflict "unmanaged target differs" record.path)
  | some _ =>
    if view.observed ≠ view.baseline then
      if operation = .repair && candidate = view.baseline then
        .ok (write .restorativeRepair "restore-managed-contract")
      else .error (drift "managed target drifted" record.path)
    else if candidate ≠ view.observed then
      .ok (write .replace "managed-candidate-changed")
    else .ok (keepFile record view candidate .noOp "already-current" next)

/-- The action on an overlay block whose place was found. -/
def overlayAction (operation : PlanOperation) (path : String) (inserted : Bool)
    (observedBlockHash candidateBlockHash : String) (previous : Option ManifestRecord) :
    Except Failure (Action × String) :=
  match previous with
  | none =>
    if inserted then .ok (.create, "insert-managed-block")
    else if observedBlockHash ≠ candidateBlockHash then
      .error (conflict "unmanaged overlay block differs" path)
    else .ok (.noOp, "enroll-matching-overlay")
  | some old =>
    if some observedBlockHash ≠ old.managedBlockHash then
      if operation = .repair && some candidateBlockHash = old.managedBlockHash then
        .ok (.restorativeRepair, "restore-managed-block")
      else .error (drift "managed overlay block drifted" path)
    else if candidateBlockHash ≠ observedBlockHash then
      .ok (.updateManagedBlock, "managed-block-candidate-changed")
    else .ok (.noOp, "already-current")

def overlayCandidate (path : String) (observed : FileState) (bytes : Bytes)
    (candidateBlockHash : String) : FileState :=
  { path := segments path, «exists» := true, fileType := .regular,
    byteHash := some (host.hashBytes (.bytes bytes)),
    mode := if !observed.exists then some 0o644 else observed.mode,
    nonSymlink := true, managedBlockHash := some candidateBlockHash }

def planOverlay (operation : PlanOperation) (record : StagedFile) (target : ArtifactTarget)
    (view : PathView) : Except Failure PathPlan := do
  let markers ← markersOf target.markers record.path
  let (parts, inserted) ←
    overlayPlace view.content target.markers markers view.previous.isSome record.path
  let observedBlockHash := host.hashBytes (.bytes parts.block)
  let candidateBlockHash := host.hashBytes (.bytes record.candidateBytes)
  let view := { view with observation :=
    { view.observation with markerState := .unique, managedBlockHash := some observedBlockHash } }
  let (action, reason) ← overlayAction operation record.path inserted observedBlockHash
    candidateBlockHash view.previous
  let bytes := parts.withBlock record.candidateBytes
  let candidate := overlayCandidate host record.path view.observed bytes candidateBlockHash
  let fresh := manifestRecord record candidate record.ownership (some candidateBlockHash) false
    (some parts.markers)
  if action ≠ .noOp then .ok (writeFile record view candidate bytes action reason (some fresh))
  else .ok (keepFile record view candidate action reason (some (view.previous.getD fresh)))

def planAdopted (record : StagedFile) (view : PathView) : PathPlan :=
  let next (state : FileState) :=
    some (manifestRecord record state record.ownership none false none)
  match view.previous with
  | none => keepFile record view view.observed .adoptBaseline "record-observed-baseline"
      (next view.observed)
  | some _ => keepFile record view view.observed .noOp "adopted-drift-is-observed"
      (next view.baseline)

def planCreateOnce (record : StagedFile) (view : PathView) : Except Failure PathPlan :=
  let candidate := candidateState record
  if view.previous.any (·.createdOnce) then
    .ok (keepFile record view view.observed .noOp "create-once-already-consumed" view.previous)
  else if view.observed.exists || view.baseline.exists then
    .error (conflict "create-once target lacks historical absence" record.path)
  else
    .ok (writeFile record view candidate record.candidateBytes .create
      "create-once-original-absence"
      (some (manifestRecord record candidate .userOwned none true none)))

def planUserOwned (record : StagedFile) (view : PathView) : PathPlan :=
  keepFile record view view.observed .noOp "user-owned-no-write-authority" view.previous

/-- The target a staged file is declared by, when their contracts agree. -/
def stagedTarget (targets : List (String × DefinedTarget)) (record : StagedFile) :
    Except Failure ArtifactTarget :=
  match targets.lookup record.path with
  | none => .error (conflict "staged target lacks its definition" record.path)
  | some defined =>
    if defined.definitionId ≠ record.definitionId then
      .error (conflict "staged target lacks its definition" record.path)
    else if defined.target.ownership ≠ record.ownership ||
        defined.target.mergeStrategy ≠ record.mergeStrategy ||
        defined.target.modePolicy ≠ record.modePolicy then
      .error (conflict "staged ownership contract differs" record.path)
    else .ok defined.target

def planStaged (operation : PlanOperation) (targets : List (String × DefinedTarget))
    (record : StagedFile) (view : PathView) : Except Failure PathPlan := do
  let target ← stagedTarget targets record
  match record.ownership with
  | .managed => planManaged operation record view
  | .overlayManaged => planOverlay host operation record target view
  | .adopted => .ok (planAdopted record view)
  | .createOnceThenUserOwned => planCreateOnce record view
  | .userOwned => .ok (planUserOwned record view)
  | .other _ => .error (conflict "ownership class is unsupported" record.path)

/-- `observed_files[path]`. -/
def observedAt (observed : List (String × ObservedFile)) (path : String) :
    Except Failure ObservedFile :=
  match observed.lookup path with
  | some item => .ok item
  | none => .error (keyError path)

/-- The state the Manifest last recorded for the path. -/
def baselineState (nfc : String → String) (path : String) (old : Option ManifestRecord) :
    Except Failure FileState :=
  match old with
  | some old => FileState.fromDocument nfc old.fileState
  | none => .ok (absent path)

/-- What the loop reads at one path. -/
def pathView (previous : List (String × ManifestRecord))
    (observed : List (String × ObservedFile)) (path : String) : Except Failure PathView := do
  let item ← observedAt observed path
  let (state, content, observation) ← observedItem host path item
  let baseline ← baselineState host.nfc path (previous.lookup path)
  .ok ⟨state, content, observation, baseline, previous.lookup path⟩

/-- One turn of the loop over all paths. -/
def planPath (operation : PlanOperation) (targets : List (String × DefinedTarget))
    (files : List StagedFile) (previous : List (String × ManifestRecord))
    (observed : List (String × ObservedFile)) (path : String) : Except Failure PathPlan := do
  let view ← pathView host previous observed path
  match stagedAt files path, view.previous with
  | some record, _ => planStaged host operation targets record view
  | none, some old => planRetired host path old view
  | none, none => .error assertionError

/-! ### The whole plan -/

/-- `sorted(set(paths))`. -/
def sortedPaths (paths : List String) : List String := paths.dedup.insertionSort (· ≤ ·)

def sameSet (xs ys : List String) : Bool := xs.all (· ∈ ys) && ys.all (· ∈ xs)

/-- What the loop collected, sorted as the plan keeps it. -/
def ownershipPlan (previous : List (String × ManifestRecord))
    (plans : List (String × PathPlan)) : OwnershipPlan :=
  let decisions := plans.map (·.2.decision)
  let states := plans.filterMap (·.2.candidate)
  let contents := KeyedList.collect (·.contents) plans
  let records := (plans.filterMap (·.2.record)).insertionSort fun a b => a.path ≤ b.path
  { decisions := decisions
    observations := plans.map (·.2.observation)
    preconditions := decisions
    candidateFileStates := states.insertionSort fun a b => joinPath a.path ≤ joinPath b.path
    candidateContents := contents.insertionSort fun a b => a.1 ≤ b.1
    manifestFileRecords := records
    hasFileChanges := !states.isEmpty
    hasManifestChanges :=
      records ≠ (previous.insertionSort fun a b => a.1 ≤ b.1).map Prod.snd }

def planOwnership (staged : StagedRenderTree host) (artifactDefinitions : List ArtifactDefinition)
    (manifestFiles : List ManifestRecord) (observedFiles : List (String × ObservedFile))
    (operation : PlanOperation) : Except Failure OwnershipPlan := do
  let targets ← definitions host.nfc [] artifactDefinitions
  let previous ← manifestRecords host.nfc [] manifestFiles
  let targets ← controlTargets staged.files targets reconcilerControlTargets
  let allPaths := sortedPaths (staged.files.map (·.path) ++ previous.map Prod.fst)
  if !sameSet (observedFiles.map Prod.fst) allPaths then
    .error ⟨.renderer, "AWP_OWNERSHIP_CONFLICT",
      "observed file set differs from staged/Manifest authority", []⟩
  else
    let plans ← allPaths.mapM fun path => do
      let plan ← planPath host operation targets staged.files previous observedFiles path
      .ok (path, plan)
    .ok (ownershipPlan previous plans)

end AgentStack.Reconcile
