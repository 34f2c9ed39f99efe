import AgentStack.Core.ArtifactPolicy

/-! The targets of accepted definitions, under the order of paths. -/
namespace AgentStack.Core

open JsonText JsonValue KeyedList FileTree

section Order

variable {casefold : String → String} {path root : String}

def StrictlyBelow (casefold : String → String) (path root : String) : Prop :=
  (casefold root ++ "/").toList <+: (casefold path).toList

instance (casefold : String → String) (path root : String) :
    Decidable (StrictlyBelow casefold path root) :=
  inferInstanceAs (Decidable (_ <+: _))

/-- A path has no slash at its end. -/
def Unslashed (path : String) : Prop := stripSlashes path = path

theorem sameOrDescendant_iff (hroot : Unslashed root) :
    sameOrDescendant casefold path root = true ↔
      casefold path = casefold root ∨ StrictlyBelow casefold path root := by
  unfold Unslashed at hroot
  simp only [sameOrDescendant, hroot, charsOf_eq, Bool.or_eq_true, decide_eq_true_eq,
    List.isPrefixOf_iff_prefix, StrictlyBelow]

theorem pathsOverlap_iff (hpath : Unslashed path) (hroot : Unslashed root) :
    pathsOverlap casefold path root = true ↔ casefold path = casefold root ∨
      StrictlyBelow casefold path root ∨ StrictlyBelow casefold root path := by
  rw [pathsOverlap, Bool.or_eq_true, sameOrDescendant_iff hroot, sameOrDescendant_iff hpath,
    eq_comm (a := casefold root)]
  tauto

/-- What is strictly below has another key. -/
theorem StrictlyBelow.ne (h : StrictlyBelow casefold path root) :
    casefold path ≠ casefold root := by
  intro heq
  have hlength := h.length_le
  rw [heq, String.toList_append, List.length_append] at hlength
  simp at hlength

theorem mem_tail_splitChars {cs : List Char} (h : cs.getLast? = some '/') :
    [] ∈ (splitChars '/' cs).tail := by
  induction cs with
  | nil => cases h
  | cons c cs ih =>
    cases cs with
    | nil =>
      have hc : c = '/' := by simpa using h
      subst hc
      simp [splitChars]
    | cons d cs =>
      rw [List.getLast?_cons_cons] at h
      have hmem := ih h
      rw [splitChars]
      split
      next => exact List.mem_of_mem_tail hmem
      next =>
        cases hs : splitChars '/' (d :: cs) with
        | nil => exact absurd hs (splitChars_ne_nil _ _)
        | cons piece rest =>
          rw [hs] at hmem
          exact hmem

theorem unslashed_of_getLast (h : path.toList.getLast? ≠ some '/') : Unslashed path := by
  rw [Unslashed, stripSlashes]
  have hdrop : path.toList.reverse.dropWhile (· = '/') = path.toList.reverse := by
    cases hr : path.toList.reverse with
    | nil => rfl
    | cons c cs =>
      have hlast : path.toList.getLast? = some c := by
        rw [← List.head?_reverse, hr, List.head?_cons]
      have hc : c ≠ '/' := by
        intro hc
        rw [hlast, hc] at h
        exact h rfl
      rw [List.dropWhile_cons_of_neg]
      simpa using hc
  rw [charsOf_eq, hdrop, List.reverse_reverse, String.ofList_toList]

theorem normalizePathText_unslashed {nfc : String → String} {value : String}
    (h : normalizePathText nfc value = .ok path) : Unslashed path := by
  rw [normalizePathText] at h
  cases hp : normalizePath nfc value with
  | error e =>
    rw [hp] at h
    cases h
  | ok pieces =>
    rw [hp] at h
    cases h
    have hpieces := normalizePath_eq_ok hp
    rw [hpieces, joinPath_segments]
    apply unslashed_of_getLast
    intro hlast
    have hmem := List.mem_of_mem_tail (mem_tail_splitChars hlast)
    simp only [normalizePath, charsOf_eq] at hp
    split_ifs at hp with h1 h2 h3 h4 h5
    apply h5
    rw [List.any_eq_true]
    exact ⟨"", List.mem_map.mpr ⟨[], hmem, rfl⟩, by decide⟩

end Order

/-! ### Protected roots -/

/-- The protected roots under the locked task roots, and the control paths. -/
def guardedRoots : List String :=
  [".git", ".trellis/tasks", ".trellis/tasks/archive", ".trellis/workspace", "specs",
    ".agent-workflow/local", ".agent-workflow/task-transactions",
    ".agent-workflow/transactions"] ++ controlPaths

theorem guardedRoots_unslashed : ∀ root ∈ guardedRoots, Unslashed root := by
  unfold Unslashed
  decide

theorem protectedRoots_eq (E : TextEncoding) :
    (protectedRoots E.nfc ".trellis/tasks" ".trellis/tasks/archive").map (· ++ controlPaths) =
      .ok guardedRoots := by
  have hactive : E.nfc ".trellis/tasks" = ".trellis/tasks" :=
    E.nfc_ascii _ (by decide)
  have harchive : E.nfc ".trellis/tasks/archive" = ".trellis/tasks/archive" :=
    E.nfc_ascii _ (by decide)
  have hpaths : normalizePathText E.nfc ".trellis/tasks" = .ok ".trellis/tasks" ∧
      normalizePathText E.nfc ".trellis/tasks/archive" = .ok ".trellis/tasks/archive" := by
    simp only [normalizePathText, normalizePath, hactive, harchive]
    exact ⟨eq_ok_of_toOption (by decide), eq_ok_of_toOption (by decide)⟩
  simp only [protectedRoots, deriveProtectedPaths, hpaths.1, hpaths.2, bind_ok_eq]
  exact eq_ok_of_toOption (by decide)

/-! ### Targets -/

section Targets

variable {nfc casefold : String → String} {forbidden : List String} {target : ArtifactTarget}

theorem assertArtifactTargetAllowed_eq_ok {E : TextEncoding} {path : String}
    {ownership : OwnershipClass} {u : Unit}
    (h : assertArtifactTargetAllowed E.nfc casefold path ownership forbidden = .ok u) :
    ∀ root ∈ guardedRoots, sameOrDescendant casefold path root = false := by
  obtain ⟨roots, hroots, h⟩ := bind_eq_ok h
  obtain ⟨_, hall, -⟩ := bind_eq_ok h
  have heq := protectedRoots_eq E
  rw [hroots] at heq
  have heq : roots ++ controlPaths = guardedRoots := Except.ok.inj heq
  rw [heq] at hall
  intro root hroot
  have hcheck := forM_eq_ok hall root (List.mem_append_left _ hroot)
  simpa using check_eq_ok.mp hcheck

/-- What a target of an accepted definition is. -/
structure TargetAccepted (nfc casefold : String → String) (raw : JsonValue)
    (target : ArtifactTarget) : Prop where
  path : ∃ members value, raw = .object members ∧ getField members "path" = .string value ∧
    normalizePathText nfc value = .ok target.path
  outside : ∀ root ∈ guardedRoots, sameOrDescendant casefold target.path root = false

theorem artifactTarget_eq_ok {E : TextEncoding} {raw : JsonValue}
    (h : artifactTarget E.nfc casefold forbidden raw = .ok target) :
    TargetAccepted E.nfc casefold raw target := by
  obtain ⟨members, hmembers, h⟩ := bind_eq_ok h
  obtain ⟨_, -, h⟩ := bind_eq_ok h
  obtain ⟨value, hvalue, h⟩ := bind_eq_ok h
  obtain ⟨path, hpath, h⟩ := bind_eq_ok h
  obtain ⟨_, -, h⟩ := bind_eq_ok h
  obtain ⟨_, -, h⟩ := bind_eq_ok h
  obtain ⟨_, -, h⟩ := bind_eq_ok h
  obtain ⟨legal, -, h⟩ := bind_eq_ok h
  obtain ⟨_, -, h⟩ := bind_eq_ok h
  obtain ⟨_, -, h⟩ := bind_eq_ok h
  obtain ⟨_, hallowed, h⟩ := bind_eq_ok h
  cases h
  constructor
  · exact ⟨members, value, members?_eq_some.mp (require_eq_ok.mp hmembers),
      stringValue?_eq_some.mp (require_eq_ok.mp hvalue), hpath⟩
  · exact assertArtifactTargetAllowed_eq_ok hallowed

/-! ### Keys -/

def Taken.keys (taken : Taken) : List String := taken.paths.map Prod.fst

def targetKeys (casefold : String → String) (targets : List ArtifactTarget) : List String :=
  targets.map fun target => casefold target.path

theorem takeTarget_keys {definitionId : String} {taken taken' : Taken}
    (h : takeTarget casefold definitionId taken target = .ok taken') :
    taken'.keys = casefold target.path :: taken.keys ∧ casefold target.path ∉ taken.keys := by
  obtain ⟨_, hfree, h⟩ := bind_eq_ok h
  have hfree := of_decide_eq_true (check_eq_ok.mp hfree)
  have hnot : casefold target.path ∉ taken.keys := by
    rw [Taken.keys, ← lookup_isSome_iff_mem, hfree]
    simp
  cases hm : target.markers with
  | none =>
    rw [hm] at h
    cases h
    exact ⟨rfl, hnot⟩
  | some pair =>
    rw [hm] at h
    obtain ⟨_, -, h⟩ := bind_eq_ok h
    cases h
    exact ⟨rfl, hnot⟩

theorem takeTargets_keys {definitionId : String} {targets : List ArtifactTarget}
    {taken taken' : Taken}
    (h : targets.foldlM (takeTarget casefold definitionId) taken = .ok taken') :
    taken'.keys = (targetKeys casefold targets).reverse ++ taken.keys ∧
      (taken.keys.Nodup → taken'.keys.Nodup) := by
  induction targets generalizing taken with
  | nil =>
    cases h
    exact ⟨rfl, id⟩
  | cons target targets ih =>
    rw [List.foldlM_cons] at h
    obtain ⟨next, hnext, h⟩ := bind_eq_ok h
    obtain ⟨hkeys, hnot⟩ := takeTarget_keys hnext
    obtain ⟨hrest, hnodup⟩ := ih h
    constructor
    · rw [hrest, hkeys, targetKeys, targetKeys, List.map_cons, List.reverse_cons,
        List.append_assoc, List.singleton_append]
    · intro htaken
      apply hnodup
      rw [hkeys, List.nodup_cons]
      exact ⟨hnot, htaken⟩

theorem validateDefinition_keys {taken taken' : Taken} {raw : Members}
    {verified : ArtifactDefinition}
    (h : validateDefinition nfc casefold taken raw = .ok (verified, taken')) :
    taken'.keys = (targetKeys casefold verified.targets).reverse ++ taken.keys ∧
      (taken.keys.Nodup → taken'.keys.Nodup) := by
  obtain ⟨_, -, h⟩ := bind_eq_ok h
  obtain ⟨_, -, h⟩ := bind_eq_ok h
  obtain ⟨definitionId, -, h⟩ := bind_eq_ok h
  obtain ⟨_, -, h⟩ := bind_eq_ok h
  obtain ⟨_, -, h⟩ := bind_eq_ok h
  obtain ⟨source, -, h⟩ := bind_eq_ok h
  obtain ⟨forbidden, -, h⟩ := bind_eq_ok h
  obtain ⟨rawTargets, -, h⟩ := bind_eq_ok h
  obtain ⟨targets, -, h⟩ := bind_eq_ok h
  obtain ⟨next, hnext, h⟩ := bind_eq_ok h
  obtain ⟨validators, -, h⟩ := bind_eq_ok h
  cases h
  have hkeys := takeTargets_keys hnext
  exact hkeys

theorem validateDefinitionsFrom_keys {taken : Taken} {raws : List Members}
    {verified : List ArtifactDefinition}
    (h : validateDefinitionsFrom nfc casefold taken raws = .ok verified)
    (htaken : taken.keys.Nodup) :
    (targetKeys casefold (verified.flatMap (·.targets)) ++ taken.keys).Nodup := by
  induction raws generalizing taken verified with
  | nil =>
    cases h
    exact htaken
  | cons raw raws ih =>
    obtain ⟨first, hfirst, h⟩ := bind_eq_ok h
    obtain ⟨rest, hrest, h⟩ := bind_eq_ok h
    cases h
    have hstep : validateDefinition nfc casefold taken raw = .ok (first.1, first.2) := hfirst
    obtain ⟨hkeys, hnodup⟩ := validateDefinition_keys hstep
    have hall := ih hrest (hnodup htaken)
    rw [hkeys] at hall
    refine (List.Perm.nodup_iff ?_).mp hall
    rw [List.flatMap_cons, targetKeys, targetKeys, targetKeys, List.map_append]
    rw [← List.append_assoc]
    apply List.Perm.append_right
    exact (List.Perm.append_left _ (List.reverse_perm _)).trans List.perm_append_comm

/-- The paths of the targets that the documents of the definitions name, normalized. -/
def documentTargetPaths (nfc : String → String) (definitions : List Members) : List String :=
  (definitions.flatMap fun raw => itemsOf (getField raw "targets")).filterMap fun target =>
    (stringValue? (fieldOf target "path")).bind fun value =>
      (normalizePathText nfc value).toOption

def targetPaths (verified : List ArtifactDefinition) : List String :=
  verified.flatMap fun d => d.targets.map (·.path)

theorem filterMap_targets {E : TextEncoding} {raws : List JsonValue} {targets : List ArtifactTarget}
    (h : List.Forall₂ (TargetAccepted E.nfc casefold) raws targets) :
    (raws.filterMap fun target => (stringValue? (fieldOf target "path")).bind fun value =>
      (normalizePathText E.nfc value).toOption) = targets.map (·.path) := by
  induction h with
  | nil => rfl
  | @cons raw target _ _ hfirst _ ih =>
    obtain ⟨members, value, hraw, hvalue, hpath⟩ := hfirst.path
    have hsome : ((stringValue? (fieldOf (JsonValue.object members) "path")).bind fun value =>
        (normalizePathText E.nfc value).toOption) = some target.path := by
      rw [fieldOf, hvalue, stringValue?, Option.bind_some, hpath]
      rfl
    simp only [hraw, List.filterMap_cons, hsome, List.map_cons, ih]

/-- The targets of an accepted definition. -/
theorem validateDefinition_targets {E : TextEncoding} {taken taken' : Taken} {raw : Members}
    {verified : ArtifactDefinition}
    (h : validateDefinition E.nfc casefold taken raw = .ok (verified, taken')) :
    ∃ raws, getField raw "targets" = .array raws ∧
      List.Forall₂ (TargetAccepted E.nfc casefold) raws verified.targets := by
  obtain ⟨_, -, h⟩ := bind_eq_ok h
  obtain ⟨_, -, h⟩ := bind_eq_ok h
  obtain ⟨definitionId, -, h⟩ := bind_eq_ok h
  obtain ⟨_, -, h⟩ := bind_eq_ok h
  obtain ⟨_, -, h⟩ := bind_eq_ok h
  obtain ⟨source, -, h⟩ := bind_eq_ok h
  obtain ⟨forbidden, -, h⟩ := bind_eq_ok h
  obtain ⟨rawTargets, hraws, h⟩ := bind_eq_ok h
  obtain ⟨targets, htargets, h⟩ := bind_eq_ok h
  obtain ⟨next, -, h⟩ := bind_eq_ok h
  obtain ⟨validators, -, h⟩ := bind_eq_ok h
  cases h
  obtain ⟨hitems, -⟩ := Option.filter_eq_some_iff.mp (require_eq_ok.mp hraws)
  exact ⟨rawTargets, items?_eq_some.mp hitems,
    (mapM_eq_ok.mp htargets).imp fun _ _ htarget => artifactTarget_eq_ok htarget⟩

theorem validateDefinitionsFrom_targets {E : TextEncoding} {taken : Taken} {raws : List Members}
    {verified : List ArtifactDefinition}
    (h : validateDefinitionsFrom E.nfc casefold taken raws = .ok verified) :
    documentTargetPaths E.nfc raws = targetPaths verified ∧
      ∀ path ∈ targetPaths verified, Unslashed path ∧
        ∀ root ∈ guardedRoots, sameOrDescendant casefold path root = false := by
  induction raws generalizing taken verified with
  | nil =>
    cases h
    exact ⟨rfl, fun path hpath => absurd hpath List.not_mem_nil⟩
  | cons raw raws ih =>
    obtain ⟨first, hfirst, h⟩ := bind_eq_ok h
    obtain ⟨rest, hrest, h⟩ := bind_eq_ok h
    cases h
    obtain ⟨hpaths, hall⟩ := ih hrest
    have hstep : validateDefinition E.nfc casefold taken raw = .ok (first.1, first.2) := hfirst
    obtain ⟨items, hitems, htargets⟩ := validateDefinition_targets hstep
    constructor
    · rw [documentTargetPaths, List.flatMap_cons, List.filterMap_append, hitems, itemsOf,
        filterMap_targets htargets, targetPaths, List.flatMap_cons, ← targetPaths, ← hpaths]
      rfl
    · intro path hpath
      rw [targetPaths, List.flatMap_cons, List.mem_append] at hpath
      rcases hpath with hpath | hpath
      · obtain ⟨target, htarget, rfl⟩ := List.mem_map.mp hpath
        obtain ⟨item, -, haccepted⟩ := forall₂_right htargets target htarget
        obtain ⟨members, value, -, -, hnormal⟩ := haccepted.path
        exact ⟨normalizePathText_unslashed hnormal, haccepted.outside⟩
      · exact hall path hpath

end Targets

/-! ### Collisions -/

/-- No path meets a guarded root, and no two meet. -/
structure TargetsApart (casefold : String → String) (paths : List String) : Prop where
  roots : ∀ path ∈ paths, ∀ root ∈ guardedRoots, pathsOverlap casefold path root = false
  targets : paths.Pairwise fun first second => pathsOverlap casefold first second = false

/-- No path is above a guarded root, or above another. -/
structure NoneAbove (casefold : String → String) (paths : List String) : Prop where
  roots : ∀ path ∈ paths, ∀ root ∈ guardedRoots, ¬ StrictlyBelow casefold root path
  targets : paths.Pairwise fun first second =>
    ¬ StrictlyBelow casefold first second ∧ ¬ StrictlyBelow casefold second first

theorem artifact_targets_apart_iff (E : TextEncoding) (casefold : String → String)
    (definitions : List Members) (verified : List ArtifactDefinition)
    (h : validateArtifactDefinitions E.nfc casefold definitions = .ok verified) :
    TargetsApart casefold (targetPaths verified) ↔
      NoneAbove casefold (documentTargetPaths E.nfc definitions) := by
  obtain ⟨hpaths, hall⟩ := validateDefinitionsFrom_targets h
  have hkeys := validateDefinitionsFrom_keys h List.nodup_nil
  have hdistinct : (targetPaths verified).Pairwise fun first second =>
      casefold first ≠ casefold second := by
    rw [← List.pairwise_map (R := (· ≠ ·)), targetPaths, List.map_flatMap]
    simpa [targetKeys, Taken.keys, List.map_flatMap, List.Nodup, Function.comp_def] using hkeys
  have hroot : ∀ path ∈ targetPaths verified, ∀ root ∈ guardedRoots,
      (pathsOverlap casefold path root = false ↔ ¬ StrictlyBelow casefold root path) := by
    intro path hpath root hroot
    obtain ⟨hun, houtside⟩ := hall path hpath
    have hnot := houtside root hroot
    rw [← Bool.not_eq_true, sameOrDescendant_iff (guardedRoots_unslashed root hroot)] at hnot
    rw [← Bool.not_eq_true, pathsOverlap_iff hun (guardedRoots_unslashed root hroot)]
    tauto
  have hpair : ∀ first ∈ targetPaths verified, ∀ second ∈ targetPaths verified,
      casefold first ≠ casefold second → (pathsOverlap casefold first second = false ↔
        ¬ StrictlyBelow casefold first second ∧ ¬ StrictlyBelow casefold second first) := by
    intro first hfirst second hsecond hne
    rw [← Bool.not_eq_true, pathsOverlap_iff (hall first hfirst).1 (hall second hsecond).1]
    tauto
  rw [hpaths]
  constructor
  · intro hapart
    constructor
    · intro path hpath root hr
      exact (hroot path hpath root hr).mp (hapart.roots path hpath root hr)
    · refine (hdistinct.and hapart.targets).imp_of_mem fun hfirst hsecond hboth => ?_
      exact (hpair _ hfirst _ hsecond hboth.1).mp hboth.2
  · intro hnone
    constructor
    · intro path hpath root hr
      exact (hroot path hpath root hr).mpr (hnone.roots path hpath root hr)
    · refine (hdistinct.and hnone.targets).imp_of_mem fun hfirst hsecond hboth => ?_
      exact (hpair _ hfirst _ hsecond hboth.1).mpr hboth.2

/-! ### Definitions whose targets meet -/

def sampleManagedTarget (path : String) : JsonValue :=
  .object [("path", .string path), ("ownership", .string "managed"),
    ("merge_strategy", .string "whole-file"), ("mode_policy", .string "exact"),
    ("mode", .string "0644")]

def sampleDefinition (definitionId : String) (targets : List String) : Members :=
  [("schema_id", .string "agent-workflow.artifact-definition"), ("schema_version", .int 1),
    ("id", .string definitionId), ("source", .string "overlays/file.txt"),
    ("targets", .array (targets.map sampleManagedTarget))]

/-- The first target is above the second, and the third above the control paths. -/
def sampleDefinitions : List Members :=
  [sampleDefinition "docs" ["docs"], sampleDefinition "guide" ["docs/guide.md"],
    sampleDefinition "control" [".agent-workflow"]]

theorem sampleDefinitions_accepted : (validateArtifactDefinitions sampleTextEncoding.nfc id
    sampleDefinitions).toOption.map targetPaths =
      some ["docs", "docs/guide.md", ".agent-workflow"] := by
  decide

theorem artifact_targets_apart_iff_sample :
    TargetsApart id ["docs", "docs/guide.md", ".agent-workflow"] ↔
      NoneAbove id (documentTargetPaths sampleTextEncoding.nfc sampleDefinitions) := by
  obtain ⟨verified, hverified, hpaths⟩ := Option.map_eq_some_iff.mp sampleDefinitions_accepted
  have hiff := artifact_targets_apart_iff sampleTextEncoding id _ verified
    (eq_ok_of_toOption hverified)
  rw [hpaths] at hiff
  exact hiff

theorem artifact_targets_meet : ∃ verified, validateArtifactDefinitions sampleTextEncoding.nfc id
    sampleDefinitions = .ok verified ∧
    pathsOverlap id "docs" "docs/guide.md" = true ∧
    pathsOverlap id ".agent-workflow" ".agent-workflow/manifest.json" = true ∧
    ¬ TargetsApart id (targetPaths verified) := by
  obtain ⟨verified, hverified, hpaths⟩ := Option.map_eq_some_iff.mp sampleDefinitions_accepted
  have hdocs : pathsOverlap id "docs" "docs/guide.md" = true := by decide
  refine ⟨verified, eq_ok_of_toOption hverified, hdocs, by decide, ?_⟩
  intro hapart
  have htargets := hapart.targets
  rw [hpaths] at htargets
  simp only [List.pairwise_cons] at htargets
  have hfalse := htargets.1 "docs/guide.md" (by simp)
  rw [hdocs] at hfalse
  cases hfalse

end AgentStack.Core
