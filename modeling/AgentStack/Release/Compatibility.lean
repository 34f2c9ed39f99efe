import AgentStack.Core.Surfaces

/-! Directed compatibility of releases. -/
namespace AgentStack.Release

open AgentStack.Core JsonText KeyedList

def lifecycleFailure (code message : String) (details : List (String × String)) : Failure :=
  ⟨.lifecycle, code, message, details⟩

def compatibilityFailure (message : String) (details : List (String × String)) : Failure :=
  lifecycleFailure "AWP_RELEASE_COMPATIBILITY_INVALID" message details

def schemaFields : List String :=
  ["manifest", "workflow_lock", "integration", "task_transaction", "workspace", "approval_replay",
    "task_outbox"]

def targetBundleFields : List String :=
  ["trust_policy", "workflow_lock", "artifact", "schema", "migration", "launcher"]

def edgeFields : List String :=
  ["from_release_id", "to_release_id", "from_version", "to_version", "trust_policy_digest",
    "target_bundles", "schema_transitions", "local_state_contracts", "trellis_task_layouts",
    "migrations"]

/-! ### Releases -/

structure ReleaseIdentity where
  repositoryId : String
  distributionName : String
  version : String
  authority : isStripped repositoryId ∧ isStripped distributionName ∧ isStripped version

def ReleaseIdentity.releaseId (H : Hasher) (identity : ReleaseIdentity) : Except Failure String := do
  let bytes ← canonicalJsonBytes H.toEncoding (.object
    [("repository_id", .string identity.repositoryId),
      ("distribution_name", .string identity.distributionName),
      ("version", .string identity.version)])
  return H.sha256 bytes

structure VerifiedRelease where
  identity : ReleaseIdentity
  bundles : List (String × String)
  compatibility : Option Members

/-- The state a project has on disk: every persistent schema has a positive version. -/
structure LocalStateContract where
  contractDigest : String
  trellisTaskLayoutDigest : String
  schemaVersions : List (String × Int)
  digests : isDigest contractDigest ∧ isDigest trellisTaskLayoutDigest
  closed : (schemaVersions.map Prod.fst).Nodup ∧
    ∀ field, field ∈ schemaVersions.map Prod.fst ↔ field ∈ schemaFields
  positive : ∀ v ∈ schemaVersions, 0 < v.2

/-! ### Edges -/

structure SchemaTransition where
  «from» : Int
  «to» : Int
  deriving DecidableEq, Repr

structure DigestPair where
  «from» : String
  «to» : String
  deriving DecidableEq, Repr

structure CompatibilityEdge where
  fromReleaseId : String
  toReleaseId : String
  fromVersion : String
  toVersion : String
  trustPolicyDigest : String
  targetBundles : List (String × String)
  schemaTransitions : List (String × SchemaTransition)
  localStateContracts : DigestPair
  trellisTaskLayouts : DigestPair
  migrations : List (String × String)
  deriving DecidableEq, Repr

def sha256Field (v : JsonValue) (field : String) : Except Failure String :=
  require ((stringValue? v).filter (isDigest ·))
    (compatibilityFailure "compatibility digest is invalid" [("field", field)])

def stringField (v : JsonValue) (field : String) : Except Failure String :=
  require ((stringValue? v).filter (· ≠ ""))
    (compatibilityFailure "compatibility string is invalid" [("field", field)])

def mappingField (v : JsonValue) (field : String) : Except Failure Members :=
  require (members? v) (compatibilityFailure "compatibility object is invalid" [("field", field)])

def transitionVersion (transition : Members) (side field : String) : Except Failure Int :=
  match getField transition side with
  | .int n =>
    if 0 < n then .ok n
    else .error (compatibilityFailure "schema transition version is invalid" [("field", field)])
  | _ => .error (compatibilityFailure "schema transition version is invalid" [("field", field)])

def schemaTransition (v : JsonValue) (field : String) : Except Failure SchemaTransition := do
  let transition ← mappingField v field
  check (fieldsAre transition ["from", "to"])
    (compatibilityFailure "schema transition fields are not closed" [("field", field)])
  let before ← transitionVersion transition "from" field
  let after ← transitionVersion transition "to" field
  return ⟨before, after⟩

def digestPair (v : JsonValue) (field : String) : Except Failure DigestPair := do
  let pair ← mappingField v field
  check (fieldsAre pair ["from", "to"])
    (compatibilityFailure "digest transition fields are not closed" [("field", field)])
  let before ← sha256Field (getField pair "from") (field ++ ".from")
  let after ← sha256Field (getField pair "to") (field ++ ".to")
  return ⟨before, after⟩

def bundleField (bundles : Members) (field : String) : Except Failure (String × String) := do
  let d ← sha256Field (getField bundles field) ("target_bundles." ++ field)
  return (field, d)

def transitionField (transitions : Members) (field : String) :
    Except Failure (String × SchemaTransition) := do
  let transition ← schemaTransition (getField transitions field) ("schema_transitions." ++ field)
  return (field, transition)

/-- `seen` are the ids of the migrations before. -/
def migrationField (seen : List String) (raw : JsonValue) : Except Failure (String × String) := do
  let migration ← mappingField raw "migrations"
  check (fieldsAre migration ["migration_id", "migration_digest"])
    (compatibilityFailure "migration fields are not closed" [])
  let migrationId ← stringField (getField migration "migration_id") "migration_id"
  check (migrationId ∉ seen)
    (compatibilityFailure "migration ID repeats" [("migration_id", migrationId)])
  let d ← sha256Field (getField migration "migration_digest") "migration_digest"
  return (migrationId, d)

def normalizeEdge (value : JsonValue) : Except Failure CompatibilityEdge := do
  let edge ← mappingField value "edge"
  check (fieldsAre edge edgeFields)
    (compatibilityFailure "compatibility edge fields are not closed" [])
  let bundles ← mappingField (getField edge "target_bundles") "target_bundles"
  check (fieldsAre bundles targetBundleFields)
    (compatibilityFailure "target bundle identities are not closed" [])
  let normalizedBundles ← (sortStrings targetBundleFields).mapM (bundleField bundles)
  let transitions ← mappingField (getField edge "schema_transitions") "schema_transitions"
  check (fieldsAre transitions schemaFields)
    (compatibilityFailure "schema transition domains are not closed" [])
  let normalizedTransitions ← (sortStrings schemaFields).mapM (transitionField transitions)
  let contracts ← digestPair (getField edge "local_state_contracts") "local_state_contracts"
  let layouts ← digestPair (getField edge "trellis_task_layouts") "trellis_task_layouts"
  let rawMigrations ← require (items? (getField edge "migrations"))
    (compatibilityFailure "compatibility migrations must be an array" [])
  let migrations ← seenM migrationField Prod.fst [] rawMigrations
  let changed : Bool := contracts.«from» ≠ contracts.«to» || layouts.«from» ≠ layouts.«to» ||
    normalizedTransitions.any fun t => t.2.«from» ≠ t.2.«to»
  check (!changed || migrations ≠ [])
    (compatibilityFailure "contract-changing edge has no exact migration" [])
  let fromReleaseId ← sha256Field (getField edge "from_release_id") "from_release_id"
  let toReleaseId ← sha256Field (getField edge "to_release_id") "to_release_id"
  let fromVersion ← stringField (getField edge "from_version") "from_version"
  let toVersion ← stringField (getField edge "to_version") "to_version"
  let trust ← sha256Field (getField edge "trust_policy_digest") "trust_policy_digest"
  return ⟨fromReleaseId, toReleaseId, fromVersion, toVersion, trust, normalizedBundles,
    normalizedTransitions, contracts, layouts, migrations⟩

/-- The edges a release declares, if it declares any document. -/
def compatibilityEdges (H : Hasher) (release : VerifiedRelease) :
    Except Failure (Option (List CompatibilityEdge)) := do
  match release.compatibility with
  | none => return none
  | some document =>
    check (fieldsAre document ["schema_id", "schema_version", "release_id", "edges"])
      (compatibilityFailure "compatibility document fields are not closed" [])
    let releaseId ← release.identity.releaseId H
    check (isString (getField document "schema_id") "agent-workflow.release-compatibility" &&
        isOne (getField document "schema_version") &&
        isString (getField document "release_id") releaseId)
      (compatibilityFailure "compatibility document owner identity is invalid" [])
    let rawEdges ← require (items? (getField document "edges"))
      (compatibilityFailure "compatibility edges must be an array" [])
    let normalized ← rawEdges.mapM normalizeEdge
    check (decide (normalized.map fun edge => (edge.fromReleaseId, edge.toReleaseId)).Nodup)
      (compatibilityFailure "directed compatibility edge repeats" [])
    return some normalized

/-- One end of an edge: the id and the version of a release. -/
structure ReleaseEnd where
  releaseId : String
  version : String
  deriving DecidableEq, Repr

def releaseEnd (H : Hasher) (release : VerifiedRelease) : Except Failure ReleaseEnd := do
  let releaseId ← release.identity.releaseId H
  return ⟨releaseId, release.identity.version⟩

def matching (edges : Option (List CompatibilityEdge)) (source target : ReleaseEnd) :
    List CompatibilityEdge :=
  (edges.getD []).filter fun edge =>
    edge.fromReleaseId = source.releaseId && edge.toReleaseId = target.releaseId &&
      edge.fromVersion = source.version && edge.toVersion = target.version

/-! ### Bindings -/

def CompatibilityEdge.mismatches (edge : CompatibilityEdge) (localState : LocalStateContract) :
    List String :=
  sortStrings ((localState.schemaVersions.filter fun v =>
    (edge.schemaTransitions.lookup v.1).map (·.«from») ≠ some v.2).map Prod.fst)

def validateLocalState (edge : CompatibilityEdge) (localState : LocalStateContract) :
    Except Failure Unit := do
  check (edge.localStateContracts.«from» = localState.contractDigest)
    (compatibilityFailure "source local-state contract does not match edge" [])
  check (edge.trellisTaskLayouts.«from» = localState.trellisTaskLayoutDigest)
    (compatibilityFailure "source Trellis layout does not match edge" [])
  check (edge.mismatches localState = [])
    (compatibilityFailure "source persistent schema versions do not match edge"
      [("fields", joinTexts (edge.mismatches localState))])

def validateBinding (edge : CompatibilityEdge) (source target : VerifiedRelease)
    (localState : Option LocalStateContract) : Except Failure Unit := do
  let actualTarget := (sortStrings targetBundleFields).map fun field =>
    (field, target.bundles.lookup field)
  check (edge.targetBundles.map (fun b => (b.1, some b.2)) = actualTarget)
    (compatibilityFailure "edge target bundle identities do not match release" [])
  let trust := some edge.trustPolicyDigest
  check (trust = source.bundles.lookup "trust_policy" &&
      trust = target.bundles.lookup "trust_policy" &&
      trust = edge.targetBundles.lookup "trust_policy")
    (compatibilityFailure "ordinary edge changes the trust root" [])
  match localState with
  | none => return ()
  | some localState => validateLocalState edge localState

/-! ### Classification -/

inductive Relationship
  | equal
  | migrationRequired
  | ahead
  | missing
  | diverged
  deriving DecidableEq, Repr

inductive EdgeOwner
  | current
  | target
  deriving DecidableEq, Repr

structure CompatibilityResult where
  relationship : Relationship
  edgeOwner : Option EdgeOwner := none
  edge : Option CompatibilityEdge := none
  targetLocalStateContractDigest : Option String := none
  targetTrellisTaskLayoutDigest : Option String := none
  deriving DecidableEq, Repr

/-- What the classification reads of both releases. -/
structure EdgeView where
  current : ReleaseEnd
  target : ReleaseEnd
  currentEdges : Option (List CompatibilityEdge)
  targetEdges : Option (List CompatibilityEdge)

def EdgeView.forward (view : EdgeView) : List (EdgeOwner × CompatibilityEdge) :=
  (matching view.currentEdges view.current view.target).map (EdgeOwner.current, ·) ++
    (matching view.targetEdges view.current view.target).map (EdgeOwner.target, ·)

def EdgeView.reverse (view : EdgeView) : List CompatibilityEdge :=
  matching view.currentEdges view.target view.current ++
    matching view.targetEdges view.target view.current

def classifyReverse (view : EdgeView) (current target : VerifiedRelease) :
    Except Failure CompatibilityResult := do
  check (view.reverse.length ≤ 1)
    (compatibilityFailure "multiple owners claim the same reverse edge" [])
  match view.reverse with
  | edge :: _ =>
    validateBinding edge target current none
    return ⟨.ahead, none, none, none, none⟩
  | [] =>
    if view.currentEdges.isNone || view.targetEdges.isNone then
      return ⟨.missing, none, none, none, none⟩
    else return ⟨.diverged, none, none, none, none⟩

def classifyEdges (view : EdgeView) (current target : VerifiedRelease)
    (localState : LocalStateContract) : Except Failure CompatibilityResult := do
  check (view.forward.length ≤ 1)
    (compatibilityFailure "multiple owners claim the same directed edge" [])
  match view.forward with
  | (owner, selected) :: _ =>
    validateBinding selected current target (some localState)
    return ⟨.migrationRequired, some owner, some selected, some selected.localStateContracts.«to»,
      some selected.trellisTaskLayouts.«to»⟩
  | [] => classifyReverse view current target

def classifyCompatibility (H : Hasher) (current target : VerifiedRelease)
    (localState : LocalStateContract) : Except Failure CompatibilityResult := do
  let currentEnd ← releaseEnd H current
  let targetEnd ← releaseEnd H target
  if currentEnd.releaseId = targetEnd.releaseId then return ⟨.equal, none, none, none, none⟩
  else
    let currentEdges ← compatibilityEdges H current
    let targetEdges ← compatibilityEdges H target
    classifyEdges ⟨currentEnd, targetEnd, currentEdges, targetEdges⟩ current target localState

/-! ### Both directions -/

variable {H : Hasher} {A B : VerifiedRelease} {view : EdgeView} {edge : CompatibilityEdge}
  {localState : LocalStateContract}

/-- The state on disk is the one the edge starts from. -/
structure CompatibilityEdge.StartsFrom (edge : CompatibilityEdge)
    (localState : LocalStateContract) : Prop where
  contract : edge.localStateContracts.«from» = localState.contractDigest
  layout : edge.trellisTaskLayouts.«from» = localState.trellisTaskLayoutDigest
  versions : ∀ v ∈ localState.schemaVersions,
    (edge.schemaTransitions.lookup v.1).map (·.«from») = some v.2

theorem validateLocalState_of_startsFrom (h : edge.StartsFrom localState) :
    validateLocalState edge localState = .ok () := by
  have hnone : edge.mismatches localState = [] := by
    have hfilter : localState.schemaVersions.filter (fun v =>
        (edge.schemaTransitions.lookup v.1).map (·.«from») ≠ some v.2) = [] := by
      rw [List.filter_eq_nil_iff]
      intro v hv
      simpa using h.versions v hv
    rw [CompatibilityEdge.mismatches, hfilter]
    rfl
  simp only [validateLocalState, h.contract, h.layout, hnone, check, decide_true, if_true,
    bind_ok_eq]

theorem validateBinding_some :
    validateBinding edge A B (some localState) = .ok () ↔
      validateBinding edge A B none = .ok () ∧ validateLocalState edge localState = .ok () := by
  constructor
  · intro h
    obtain ⟨_, hbundles, h⟩ := bind_eq_ok h
    obtain ⟨_, htrust, h⟩ := bind_eq_ok h
    constructor
    · simp only [validateBinding, hbundles, htrust, bind_ok_eq]
      rfl
    · exact h
  · rintro ⟨hbinding, hstate⟩
    obtain ⟨_, hbundles, hbinding⟩ := bind_eq_ok hbinding
    obtain ⟨_, htrust, -⟩ := bind_eq_ok hbinding
    simp only [validateBinding, hbundles, htrust, bind_ok_eq, hstate]

/-- The same pair, seen from the other release. -/
def EdgeView.swap (view : EdgeView) : EdgeView :=
  ⟨view.target, view.current, view.targetEdges, view.currentEdges⟩

theorem EdgeView.forward_swap (view : EdgeView) :
    (view.swap.forward.map Prod.snd).Perm view.reverse := by
  simp only [forward, swap, reverse, List.map_append, List.map_map, Function.comp_def, List.map_id']
  exact List.perm_append_comm

theorem EdgeView.forward_swap_eq_nil (view : EdgeView) :
    view.swap.forward = [] ↔ view.reverse = [] := by
  rw [← List.map_eq_nil_iff (f := Prod.snd)]
  constructor
  · intro h
    exact (h ▸ view.forward_swap.symm).eq_nil
  · intro h
    exact (h ▸ view.forward_swap).eq_nil

theorem EdgeView.forward_swap_eq_singleton (h : view.reverse = [edge]) :
    ∃ owner, view.swap.forward = [(owner, edge)] := by
  have hperm := view.forward_swap
  rw [h, List.perm_singleton] at hperm
  obtain ⟨pair, hpair, rfl⟩ := List.map_eq_singleton_iff.mp hperm
  exact ⟨pair.1, hpair⟩

/-- What the classification of a pair reads. -/
structure View (H : Hasher) (A B : VerifiedRelease) (view : EdgeView) : Prop where
  current : releaseEnd H A = .ok view.current
  target : releaseEnd H B = .ok view.target
  apart : view.current.releaseId ≠ view.target.releaseId
  currentEdges : compatibilityEdges H A = .ok view.currentEdges
  targetEdges : compatibilityEdges H B = .ok view.targetEdges

theorem View.swap (h : View H A B view) : View H B A view.swap :=
  ⟨h.target, h.current, h.apart.symm, h.targetEdges, h.currentEdges⟩

theorem View.classify (h : View H A B view) (localState : LocalStateContract) :
    classifyCompatibility H A B localState = classifyEdges view A B localState := by
  simp only [classifyCompatibility, h.current, h.target, h.currentEdges, h.targetEdges, bind_ok_eq,
    if_neg h.apart]

/-- The relationship a classification returns. -/
def Classified (H : Hasher) (A B : VerifiedRelease) (localState : LocalStateContract)
    (relationship : Relationship) : Prop :=
  ∃ result, classifyCompatibility H A B localState = .ok result ∧
    result.relationship = relationship

theorem view_of_classified {relationship : Relationship}
    (h : Classified H A B localState relationship) (hne : relationship ≠ .equal) :
    ∃ view, View H A B view := by
  obtain ⟨result, hresult, rfl⟩ := h
  obtain ⟨currentEnd, hcurrent, hresult⟩ := bind_eq_ok hresult
  obtain ⟨targetEnd, htarget, hresult⟩ := bind_eq_ok hresult
  split at hresult
  next =>
    cases hresult
    exact absurd rfl hne
  next hapart =>
    obtain ⟨currentEdges, hcurrentEdges, hresult⟩ := bind_eq_ok hresult
    obtain ⟨targetEdges, htargetEdges, hresult⟩ := bind_eq_ok hresult
    exact ⟨⟨currentEnd, targetEnd, currentEdges, targetEdges⟩, hcurrent, htarget, hapart,
      hcurrentEdges, htargetEdges⟩

/-- What each relationship says of the edges between two releases. -/
def Between (view : EdgeView) (A B : VerifiedRelease) (localState : LocalStateContract) :
    Relationship → Prop
  | .equal => False
  | .migrationRequired => ∃ owner edge, view.forward = [(owner, edge)] ∧
      validateBinding edge A B (some localState) = .ok ()
  | .ahead => view.forward = [] ∧ ∃ edge, view.reverse = [edge] ∧
      validateBinding edge B A none = .ok ()
  | .missing => view.forward = [] ∧ view.reverse = [] ∧
      (view.currentEdges.isNone || view.targetEdges.isNone) = true
  | .diverged => view.forward = [] ∧ view.reverse = [] ∧
      (view.currentEdges.isNone || view.targetEdges.isNone) = false

theorem classifyReverse_between {result : CompatibilityResult} (hforward : view.forward = [])
    (h : classifyReverse view A B = .ok result) : Between view A B localState result.relationship := by
  obtain ⟨_, hone, h⟩ := bind_eq_ok h
  have hone := of_decide_eq_true (check_eq_ok.mp hone)
  cases hreverse : view.reverse with
  | cons edge rest =>
    rw [hreverse] at h hone
    obtain ⟨_, hbinding, h⟩ := bind_eq_ok h
    cases h
    have hrest : rest = [] := by
      rw [List.length_cons] at hone
      exact List.length_eq_zero_iff.mp (by omega)
    subst hrest
    exact ⟨hforward, edge, hreverse, hbinding⟩
  | nil =>
    rw [hreverse] at h
    simp only at h
    split at h
    next hmissing =>
      cases h
      exact ⟨hforward, hreverse, hmissing⟩
    next hmissing =>
      cases h
      exact ⟨hforward, hreverse, Bool.eq_false_iff.mpr hmissing⟩

theorem classifyEdges_between {result : CompatibilityResult}
    (h : classifyEdges view A B localState = .ok result) :
    Between view A B localState result.relationship := by
  obtain ⟨_, hone, h⟩ := bind_eq_ok h
  have hone := of_decide_eq_true (check_eq_ok.mp hone)
  cases hforward : view.forward with
  | cons selected rest =>
    rw [hforward] at h hone
    obtain ⟨_, hbinding, h⟩ := bind_eq_ok h
    cases h
    have hrest : rest = [] := by
      rw [List.length_cons] at hone
      exact List.length_eq_zero_iff.mp (by omega)
    subst hrest
    exact ⟨selected.1, selected.2, hforward, hbinding⟩
  | nil =>
    rw [hforward] at h
    exact classifyReverse_between hforward h

theorem between_classifyEdges {relationship : Relationship}
    (h : Between view A B localState relationship) : ∃ result,
      classifyEdges view A B localState = .ok result ∧ result.relationship = relationship := by
  cases relationship with
  | equal => exact h.elim
  | migrationRequired =>
    obtain ⟨owner, edge, hforward, hbinding⟩ := h
    simp [classifyEdges, hforward, hbinding, check]
  | ahead =>
    obtain ⟨hforward, edge, hreverse, hbinding⟩ := h
    simp [classifyEdges, classifyReverse, hforward, hreverse, hbinding, check]
  | missing =>
    obtain ⟨hforward, hreverse, hmissing⟩ := h
    simp [classifyEdges, classifyReverse, hforward, hreverse, hmissing, check]
  | diverged =>
    obtain ⟨hforward, hreverse, hmissing⟩ := h
    simp [classifyEdges, classifyReverse, hforward, hreverse, hmissing, check]

theorem View.classified_iff (h : View H A B view) (relationship : Relationship) :
    Classified H A B localState relationship ↔ Between view A B localState relationship := by
  rw [Classified, h.classify]
  constructor
  · rintro ⟨result, hresult, rfl⟩
    exact classifyEdges_between hresult
  · exact between_classifyEdges

/-- The edges the two releases declare from one to the other. -/
def DeclaredEdges (H : Hasher) (A B : VerifiedRelease) (edges : List CompatibilityEdge) : Prop :=
  ∃ view, View H A B view ∧ edges = view.forward.map Prod.snd

/-- Without an edge either way the classification does not depend on the direction. -/
theorem unrelated_symm {localState' : LocalStateContract} {relationship : Relationship}
    (hunrelated : relationship = .missing ∨ relationship = .diverged)
    (h : Classified H A B localState relationship) :
    Classified H B A localState' relationship := by
  have hne : relationship ≠ .equal := by
    rcases hunrelated with rfl | rfl <;> decide
  obtain ⟨view, hview⟩ := view_of_classified h hne
  rw [hview.classified_iff] at h
  rw [hview.swap.classified_iff]
  have hswap : view.swap.swap = view := rfl
  rcases hunrelated with rfl | rfl
  · obtain ⟨hforward, hreverse, hmissing⟩ := h
    refine ⟨view.forward_swap_eq_nil.mpr hreverse, ?_, (Bool.or_comm _ _).trans hmissing⟩
    rw [← view.swap.forward_swap_eq_nil, hswap]
    exact hforward
  · obtain ⟨hforward, hreverse, hmissing⟩ := h
    refine ⟨view.forward_swap_eq_nil.mpr hreverse, ?_, (Bool.or_comm _ _).trans hmissing⟩
    rw [← view.swap.forward_swap_eq_nil, hswap]
    exact hforward

/-- The classifications of a pair of releases and of the pair turned around. -/
theorem compatibility_dual (H : Hasher) (A B : VerifiedRelease) :
    (∀ localState, Classified H A B localState .ahead →
      ∃ edge, DeclaredEdges H B A [edge] ∧ ∀ localState', edge.StartsFrom localState' →
        Classified H B A localState' .migrationRequired) ∧
    (∀ localState, Classified H B A localState .migrationRequired → DeclaredEdges H A B [] →
      ∀ localState', Classified H A B localState' .ahead) ∧
    (∀ localState localState', Classified H A B localState .missing ↔
      Classified H B A localState' .missing) ∧
    (∀ localState localState', Classified H A B localState .diverged ↔
      Classified H B A localState' .diverged) := by
  refine ⟨?_, ?_, ?_, ?_⟩
  · intro localState h
    obtain ⟨view, hview⟩ := view_of_classified h (by decide)
    rw [hview.classified_iff] at h
    obtain ⟨-, edge, hreverse, hbinding⟩ := h
    obtain ⟨owner, hforward⟩ := EdgeView.forward_swap_eq_singleton hreverse
    refine ⟨edge, ⟨view.swap, hview.swap, by rw [hforward]; rfl⟩, fun localState' hstarts => ?_⟩
    rw [hview.swap.classified_iff]
    exact ⟨owner, edge, hforward,
      validateBinding_some.mpr ⟨hbinding, validateLocalState_of_startsFrom hstarts⟩⟩
  · intro localState h hnone localState'
    obtain ⟨view, hview, hforward⟩ := hnone
    have hswap : view.swap.swap = view := rfl
    rw [hview.swap.classified_iff] at h
    rw [hview.classified_iff]
    obtain ⟨owner, edge, hback, hbinding⟩ := h
    have hreverse : view.reverse = [edge] := by
      have hperm := view.forward_swap
      rw [hback] at hperm
      exact (List.singleton_perm.mp hperm).symm
    exact ⟨List.map_eq_nil_iff.mp hforward.symm, edge, hreverse,
      (validateBinding_some.mp hbinding).1⟩
  · intro localState localState'
    exact ⟨unrelated_symm (Or.inl rfl), unrelated_symm (Or.inl rfl)⟩
  · intro localState localState'
    exact ⟨unrelated_symm (Or.inr rfl), unrelated_symm (Or.inr rfl)⟩

/-! ### A release with a newer one -/

/-- Two digests, by the length of what is hashed. -/
def parityHasher : Hasher where
  toTextEncoding := sampleTextEncoding
  sha256 bytes := String.ofList (List.replicate 64 (if bytes.length % 2 = 0 then 'b' else 'a'))
  sha256_isDigest bytes := by
    split <;> decide

def sampleDigest (c : Char) : String := String.ofList (List.replicate 64 c)

def sampleIdentity (version : String) (h : isStripped version) : ReleaseIdentity :=
  ⟨"repository", "agent-workflow-pack", version, by decide, by decide, h⟩

def sampleBundles : List (String × String) :=
  targetBundleFields.map fun field => (field, sampleDigest 'c')

def samplePair : JsonValue :=
  .object [("from", .string (sampleDigest 'd')), ("to", .string (sampleDigest 'd'))]

/-- From version 1.0 to version 1.10. -/
def sampleEdge : JsonValue :=
  .object [("from_release_id", .string (sampleDigest 'b')),
    ("to_release_id", .string (sampleDigest 'a')), ("from_version", .string "1.0"),
    ("to_version", .string "1.10"), ("trust_policy_digest", .string (sampleDigest 'c')),
    ("target_bundles", .object (sampleBundles.map fun b => (b.1, .string b.2))),
    ("schema_transitions", .object (schemaFields.map fun field =>
      (field, .object [("from", .int 1), ("to", .int 1)]))),
    ("local_state_contracts", samplePair), ("trellis_task_layouts", samplePair),
    ("migrations", .array [])]

def sampleOlder : VerifiedRelease :=
  ⟨sampleIdentity "1.0" (by decide), sampleBundles, none⟩

def sampleNewer : VerifiedRelease :=
  ⟨sampleIdentity "1.10" (by decide), sampleBundles, some
    [("schema_id", .string "agent-workflow.release-compatibility"), ("schema_version", .int 1),
      ("release_id", .string (sampleDigest 'a')), ("edges", .array [sampleEdge])]⟩

def sampleLocalState : LocalStateContract where
  contractDigest := sampleDigest 'd'
  trellisTaskLayoutDigest := sampleDigest 'd'
  schemaVersions := schemaFields.map (·, 1)
  digests := by decide
  closed := by
    constructor
    · decide
    · simp [List.map_map, Function.comp_def]
  positive := by decide

theorem compatibility_dual_sample :
    Classified parityHasher sampleNewer sampleOlder sampleLocalState .ahead ∧
      ∃ edge, DeclaredEdges parityHasher sampleOlder sampleNewer [edge] := by
  have hahead : (classifyCompatibility parityHasher sampleNewer sampleOlder
      sampleLocalState).toOption.map (·.relationship) = some .ahead := by
    decide
  obtain ⟨result, hresult, hrelationship⟩ := Option.map_eq_some_iff.mp hahead
  have hclassified : Classified parityHasher sampleNewer sampleOlder sampleLocalState .ahead :=
    ⟨result, eq_ok_of_toOption hresult, hrelationship⟩
  obtain ⟨edge, hedge, -⟩ :=
    (compatibility_dual parityHasher sampleNewer sampleOlder).1 sampleLocalState hclassified
  exact ⟨hclassified, edge, hedge⟩

end AgentStack.Release
