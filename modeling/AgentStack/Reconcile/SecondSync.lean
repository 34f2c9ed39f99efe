import AgentStack.Reconcile.OwnershipReplan
import AgentStack.SampleHost

/-! A second sync: planning again over the tree and the Manifest the first plan leaves. -/
namespace AgentStack.Reconcile

open AgentStack.Core FileTree AgentStack.Runtime KeyedList

variable {host : Host} {nfc : String → String}

/-! ### The Manifest index -/

theorem manifestRecords_eq_ok {records : List ManifestRecord}
    {indexed result : List (String × ManifestRecord)} (hkeys : (indexed.map Prod.fst).Nodup)
    (hnormal : ∀ e ∈ indexed, normalizedPath nfc e.2.path = .ok e.1)
    (h : manifestRecords nfc indexed records = .ok result) :
    (result.map Prod.fst).Nodup ∧ ∀ e ∈ result, normalizedPath nfc e.2.path = .ok e.1 := by
  induction records generalizing indexed with
  | nil =>
    cases h
    exact ⟨hkeys, hnormal⟩
  | cons r records ih =>
    obtain ⟨path, hpath, h⟩ := bind_eq_ok h
    split at h
    · cases h
    · rename_i hfree
      apply ih _ _ h
      · rw [List.map_append, List.map_singleton, List.nodup_append]
        refine ⟨hkeys, List.nodup_singleton _, ?_⟩
        intro a ha b hb hab
        rw [List.mem_singleton.mp hb] at hab
        rw [hab] at ha
        exact hfree ha
      · intro e he
        rcases List.mem_append.mp he with he | he
        · exact hnormal e he
        · rw [List.mem_singleton.mp he]
          exact hpath

/-- Records with distinct normalized paths are indexed under them. -/
theorem manifestRecords_keyed (entries indexed : List (String × ManifestRecord))
    (hkeys : ((indexed ++ entries).map Prod.fst).Nodup)
    (hnormal : ∀ e ∈ entries, normalizedPath nfc e.2.path = .ok e.1) :
    manifestRecords nfc indexed (entries.map Prod.snd) = .ok (indexed ++ entries) := by
  induction entries generalizing indexed with
  | nil => simp [manifestRecords]
  | cons e entries ih =>
    have hpath := hnormal e (by simp)
    have hfree : e.1 ∉ indexed.map Prod.fst := by
      intro hmem
      rw [List.map_append, List.map_cons, List.nodup_append] at hkeys
      exact hkeys.2.2 _ hmem _ (List.mem_cons_self ..) rfl
    rw [List.map_cons, manifestRecords, hpath, bind_ok_eq, if_neg hfree]
    have hnext := ih (indexed ++ [(e.1, e.2)]) (by simpa using hkeys)
      fun e' he' => hnormal e' (List.mem_cons_of_mem _ he')
    rw [hnext]
    simp

/-! ### Runs of the loop -/

/-- A plan with the inputs its loop reads and the plans of its paths. -/
structure PlanRun (host : Host) (staged : StagedRenderTree host)
    (artifactDefinitions : List ArtifactDefinition) (manifestFiles : List ManifestRecord)
    (observedFiles : List (String × ObservedFile)) (operation : PlanOperation)
    (targets : List (String × DefinedTarget)) (previous : List (String × ManifestRecord))
    (plans : List (String × PathPlan)) : Prop where
  declared : ∃ declared, definitions host.nfc [] artifactDefinitions = .ok declared ∧
    controlTargets staged.files declared reconcilerControlTargets = .ok targets
  index : manifestRecords host.nfc [] manifestFiles = .ok previous
  observed : sameSet (observedFiles.map Prod.fst)
    (sortedPaths (staged.files.map (·.path) ++ previous.map Prod.fst)) = true
  paths : plans.map Prod.fst = sortedPaths (staged.files.map (·.path) ++ previous.map Prod.fst)
  planned : ∀ e ∈ plans,
    planPath host operation targets staged.files previous observedFiles e.1 = .ok e.2

variable {staged : StagedRenderTree host} {artifactDefinitions : List ArtifactDefinition}
  {manifestFiles : List ManifestRecord} {observedFiles : List (String × ObservedFile)}
  {operation : PlanOperation} {targets : List (String × DefinedTarget)}
  {previous : List (String × ManifestRecord)} {plans : List (String × PathPlan)}

theorem planOwnership_eq_ok {plan : OwnershipPlan} :
    planOwnership host staged artifactDefinitions manifestFiles observedFiles operation =
        .ok plan ↔
      ∃ targets previous plans, PlanRun host staged artifactDefinitions manifestFiles
        observedFiles operation targets previous plans ∧ plan = ownershipPlan previous plans := by
  constructor
  · intro h
    obtain ⟨declared, hdeclared, h⟩ := bind_eq_ok h
    obtain ⟨previous, hprevious, h⟩ := bind_eq_ok h
    obtain ⟨targets, htargets, h⟩ := bind_eq_ok h
    simp only at h
    split at h
    · cases h
    · rename_i hsame
      obtain ⟨plans, hplans, h⟩ := bind_eq_ok h
      obtain ⟨hpaths, hplanned⟩ := (mapM_keyed_eq_ok _ _ _).mp hplans
      cases h
      exact ⟨targets, previous, plans, ⟨⟨declared, hdeclared, htargets⟩, hprevious,
        by simpa using hsame, hpaths, hplanned⟩, rfl⟩
  · rintro ⟨targets, previous, plans, hrun, rfl⟩
    obtain ⟨declared, hdeclared, htargets⟩ := hrun.declared
    have hplans := (mapM_keyed_eq_ok _ _ _).mpr ⟨hrun.paths, hrun.planned⟩
    simp only [planOwnership, hdeclared, hrun.index, htargets, bind_ok_eq]
    rw [if_neg (by simp [hrun.observed]), hplans]
    rfl

theorem mem_sortedPaths {paths : List String} {path : String} :
    path ∈ sortedPaths paths ↔ path ∈ paths := by
  simp [sortedPaths, List.mem_insertionSort]

theorem stagedAt_path {files : List StagedFile} {path : String} {record : StagedFile}
    (h : stagedAt files path = some record) : record.path = path ∧ record ∈ files := by
  have hpath := List.find?_some h
  have hmem := List.mem_of_find?_eq_some h
  exact ⟨by simpa using hpath, by simpa using hmem⟩

theorem stagedAt_isSome {files : List StagedFile} {path : String} :
    (stagedAt files path).isSome = true ↔ path ∈ files.map (·.path) := by
  simp [stagedAt, List.find?_isSome, List.mem_map]

namespace PlanRun

theorem indexed (hrun : PlanRun host staged artifactDefinitions manifestFiles observedFiles
    operation targets previous plans) :
    (previous.map Prod.fst).Nodup ∧
      ∀ e ∈ previous, normalizedPath host.nfc e.2.path = .ok e.1 :=
  manifestRecords_eq_ok (by simp) (by simp) hrun.index

theorem recorded (hrun : PlanRun host staged artifactDefinitions manifestFiles observedFiles
    operation targets previous plans) (path : String) :
    ∀ old ∈ previous.lookup path, normalizedPath host.nfc old.path = .ok path := by
  intro old hold
  obtain ⟨hkeys, hnormal⟩ := hrun.indexed
  exact hnormal _ ((lookup_eq_some hkeys path old).mp hold)

theorem nodup (hrun : PlanRun host staged artifactDefinitions manifestFiles observedFiles
    operation targets previous plans) : (plans.map Prod.fst).Nodup := by
  rw [hrun.paths]
  exact nodup_dedup_insertionSort _

/-- The plan of a staged path and what it was made from. -/
theorem staged_plan (hnfc : ∀ s, host.nfc (host.nfc s) = host.nfc s)
    (hrun : PlanRun host staged artifactDefinitions manifestFiles observedFiles operation targets
      previous plans) {record : StagedFile} {plan : PathPlan}
    (hplan : (record.path, plan) ∈ plans)
    (hrecord : stagedAt staged.files record.path = some record) :
    ∃ view item, view.Sound host record.path ∧ view.previous = previous.lookup record.path ∧
      observedFiles.lookup record.path = some item ∧ view.content = item.content.map encode ∧
      observedItem host record.path item =
        .ok (view.observed, view.content, view.observation) ∧
      planStaged host operation targets record view = .ok plan ∧ plan.Sound host record.path := by
  have hpath := hrun.planned _ hplan
  obtain ⟨view, hview, hpath⟩ := bind_eq_ok hpath
  obtain ⟨hsound, hprevious, item, hitem, hcontent, hread⟩ :=
    pathView_eq_ok hnfc (hrun.recorded record.path) hview
  simp only [hrecord] at hpath
  have hhashed := staged.hashed record (stagedAt_path hrecord).2
  exact ⟨view, item, hsound, hprevious, hitem, hcontent, hread, hpath,
    planStaged_sound hnfc hpath hsound hhashed⟩

/-- A path the staged tree dropped leaves no record. -/
theorem dropped_plan (hrun : PlanRun host staged artifactDefinitions manifestFiles observedFiles
    operation targets previous plans) {path : String} {plan : PathPlan}
    (hplan : (path, plan) ∈ plans) (hdropped : stagedAt staged.files path = none) :
    plan.record = none ∧ ∀ s ∈ plan.candidate, s.path = segments path := by
  have hpath := hrun.planned _ hplan
  obtain ⟨view, hview, hpath⟩ := bind_eq_ok hpath
  simp only [hdropped] at hpath
  cases hp : view.previous with
  | none =>
    rw [hp] at hpath
    cases hpath
  | some old =>
    rw [hp] at hpath
    exact planRetired_candidate hpath

theorem candidate_path (hnfc : ∀ s, host.nfc (host.nfc s) = host.nfc s)
    (hrun : PlanRun host staged artifactDefinitions manifestFiles observedFiles operation targets
      previous plans) {path : String} {plan : PathPlan} (hplan : (path, plan) ∈ plans) :
    ∀ s ∈ plan.candidate, s.path = segments path := by
  cases hs : stagedAt staged.files path with
  | none => exact (hrun.dropped_plan hplan hs).2
  | some record =>
    have hpath := (stagedAt_path hs).1
    subst hpath
    obtain ⟨-, -, -, -, -, -, -, -, hsound⟩ := hrun.staged_plan hnfc hplan hs
    intro s hcandidate
    exact (hsound.state s hcandidate).1

theorem plan_unique (hrun : PlanRun host staged artifactDefinitions manifestFiles observedFiles
    operation targets previous plans) {path : String} {plan other : PathPlan}
    (hplan : (path, plan) ∈ plans) (hother : (path, other) ∈ plans) : other = plan := by
  have h1 := (lookup_eq_some hrun.nodup path plan).mpr hplan
  have h2 := (lookup_eq_some hrun.nodup path other).mpr hother
  exact Option.some.inj (h2.symm.trans h1)

end PlanRun

/-! ### The tree a plan leaves -/

/-- What is observed at a path once the candidate contents of the plan are in place. -/
def OwnershipPlan.observedFile (plan : OwnershipPlan) (path : String) (item : ObservedFile) :
    ObservedFile :=
  match plan.candidateFileStates.find? (·.path = segments path) with
  | none => item
  | some state => ⟨state.onDisk, (plan.candidateContents.lookup path).bind decode?⟩

/-- The host tree once the candidate contents of the plan are in place. -/
def OwnershipPlan.applied (plan : OwnershipPlan) (observedFiles : List (String × ObservedFile)) :
    List (String × ObservedFile) :=
  observedFiles.map fun e => (e.1, plan.observedFile e.1 e.2)

/-- What the second planning observes: the paths it plans, in the tree the first one left. -/
def OwnershipPlan.observedAgain (plan : OwnershipPlan) (staged : StagedRenderTree host)
    (observedFiles : List (String × ObservedFile)) : List (String × ObservedFile) :=
  (plan.applied observedFiles).filter fun e => (stagedAt staged.files e.1).isSome

theorem find?_candidate (hnfc : ∀ s, host.nfc (host.nfc s) = host.nfc s)
    (hrun : PlanRun host staged artifactDefinitions manifestFiles observedFiles operation targets
      previous plans) {path : String} {plan : PathPlan} (hplan : (path, plan) ∈ plans) :
    (ownershipPlan previous plans).candidateFileStates.find? (·.path = segments path) =
      plan.candidate := by
  have hmem (s : FileState) : s ∈ (ownershipPlan previous plans).candidateFileStates ↔
      ∃ e ∈ plans, e.2.candidate = some s := by
    simp [ownershipPlan, List.mem_insertionSort]
  have howner : ∀ s ∈ (ownershipPlan previous plans).candidateFileStates,
      s.path = segments path → plan.candidate = some s := by
    intro s hs hpath
    obtain ⟨⟨path', plan'⟩, he, hcandidate⟩ := (hmem s).mp hs
    have hsame : path' = path :=
      segments_injective ((hrun.candidate_path hnfc he s hcandidate).symm.trans hpath)
    subst hsame
    rw [← hrun.plan_unique hplan he]
    exact hcandidate
  cases hc : plan.candidate with
  | none =>
    rw [List.find?_eq_none]
    intro s hs hpath
    have := howner s hs (by simpa using hpath)
    rw [hc] at this
    cases this
  | some s =>
    apply find?_eq_some_of_unique
    · exact (hmem s).mpr ⟨_, hplan, hc⟩
    · simpa using hrun.candidate_path hnfc hplan s hc
    · intro s' hs' hpath
      have := howner s' hs' (by simpa using hpath)
      exact Option.some.inj (this.symm.trans hc)

theorem lookup_contents (hrun : PlanRun host staged artifactDefinitions manifestFiles
    observedFiles operation targets previous plans) {path : String} {plan : PathPlan}
    (hplan : (path, plan) ∈ plans) :
    (ownershipPlan previous plans).candidateContents.lookup path = plan.contents :=
  lookup_of_perm_collect hrun.nodup (List.perm_insertionSort _ _) hplan

/-- The tree a plan leaves is what its path plans leave. -/
theorem observedFile_eq (hnfc : ∀ s, host.nfc (host.nfc s) = host.nfc s)
    (hrun : PlanRun host staged artifactDefinitions manifestFiles observedFiles operation targets
      previous plans) {path : String} {plan : PathPlan} (hplan : (path, plan) ∈ plans)
    (item : ObservedFile) :
    (ownershipPlan previous plans).observedFile path item = plan.observed item := by
  have hstate := find?_candidate hnfc hrun hplan
  cases hc : plan.candidate with
  | none => simp [OwnershipPlan.observedFile, PathPlan.observed, hstate, hc]
  | some s =>
    simp [OwnershipPlan.observedFile, PathPlan.observed, hstate, hc, lookup_contents hrun hplan]

/-! ### The second run -/

theorem sameSet_iff {xs ys : List String} : sameSet xs ys = true ↔ ∀ a, a ∈ xs ↔ a ∈ ys := by
  simp only [sameSet, Bool.and_eq_true, List.all_eq_true, decide_eq_true_eq]
  constructor
  · intro h a
    exact ⟨h.1 a, h.2 a⟩
  · intro h
    exact ⟨fun a => (h a).mp, fun a => (h a).mpr⟩

/-- The records a plan leaves, under their paths. -/
structure Kept (host : Host) (staged : StagedRenderTree host) (plans : List (String × PathPlan))
    (records : List ManifestRecord) (kept : List (String × ManifestRecord)) : Prop where
  index : manifestRecords host.nfc [] records = .ok kept
  lookup : ∀ path plan, (path, plan) ∈ plans → kept.lookup path = plan.record
  staged : ∀ path ∈ kept.map Prod.fst, (stagedAt staged.files path).isSome = true

/-- A path whose plan leaves a record is a staged path. -/
theorem staged_of_record (hrun : PlanRun host staged artifactDefinitions manifestFiles
    observedFiles operation targets previous plans) {path : String} {plan : PathPlan}
    {record : ManifestRecord} (hplan : (path, plan) ∈ plans) (hr : plan.record = some record) :
    (stagedAt staged.files path).isSome = true := by
  cases hs : stagedAt staged.files path with
  | none =>
    rw [(hrun.dropped_plan hplan hs).1] at hr
    cases hr
  | some r => rfl

theorem exists_kept (hnfc : ∀ s, host.nfc (host.nfc s) = host.nfc s)
    (hrun : PlanRun host staged artifactDefinitions manifestFiles observedFiles operation targets
      previous plans) :
    ∃ kept, Kept host staged plans (ownershipPlan previous plans).manifestFileRecords kept := by
  let entries := collect (fun plan : PathPlan => plan.record) plans
  let kept := entries.insertionSort fun a b => a.2.path ≤ b.2.path
  have hperm : kept.Perm entries := List.perm_insertionSort _ _
  have hmem {path : String} {r : ManifestRecord} (h : (path, r) ∈ kept) :
      ∃ plan, (path, plan) ∈ plans ∧ plan.record = some r := mem_collect.mp (hperm.mem_iff.mp h)
  have hkeys : (kept.map Prod.fst).Nodup :=
    (hperm.map Prod.fst).nodup_iff.mpr ((keys_collect_sublist _ plans).nodup hrun.nodup)
  have hrecords : (ownershipPlan previous plans).manifestFileRecords = kept.map Prod.snd := by
    have hsort := List.map_insertionSort (fun a b : String × ManifestRecord => a.2.path ≤ b.2.path)
      (fun a b : ManifestRecord => a.path ≤ b.path) Prod.snd entries fun _ _ _ _ => Iff.rfl
    have hvalues : entries.map Prod.snd = plans.filterMap (·.2.record) := values_collect _ plans
    rw [hvalues] at hsort
    exact hsort.symm
  have hnormal : ∀ e ∈ kept, normalizedPath host.nfc e.2.path = .ok e.1 := by
    intro e he
    obtain ⟨plan, hplan, hr⟩ := hmem he
    obtain ⟨record, hs⟩ := Option.isSome_iff_exists.mp (staged_of_record hrun hplan hr)
    have hown := (stagedAt_path hs).1
    rw [← hown] at hplan hs ⊢
    obtain ⟨-, -, -, -, -, -, -, -, hsound⟩ := hrun.staged_plan hnfc hplan hs
    exact hsound.recorded _ hr
  refine ⟨kept, ?_, ?_, ?_⟩
  · rw [hrecords]
    simpa using manifestRecords_keyed kept [] (by simpa using hkeys) hnormal
  · intro path plan hplan
    exact lookup_of_perm_collect hrun.nodup hperm hplan
  · intro path hpath
    obtain ⟨e, he, rfl⟩ := List.mem_map.mp hpath
    obtain ⟨plan, hplan, hr⟩ := hmem he
    exact staged_of_record hrun hplan hr

/-- The paths of the second run are the staged paths of the first. -/
theorem sortedPaths_again (previous : List (String × ManifestRecord))
    {kept : List (String × ManifestRecord)}
    (hkept : ∀ path ∈ kept.map Prod.fst, (stagedAt staged.files path).isSome = true) :
    sortedPaths (staged.files.map (·.path) ++ kept.map Prod.fst) =
      (sortedPaths (staged.files.map (·.path) ++ previous.map Prod.fst)).filter
        fun path => (stagedAt staged.files path).isSome := by
  apply dedup_insertionSort_eq_filter
  intro path
  rw [List.mem_append, List.mem_append, stagedAt_isSome]
  constructor
  · rintro (h | h)
    · exact ⟨Or.inl h, h⟩
    · have := stagedAt_isSome.mp (hkept path h)
      exact ⟨Or.inl this, this⟩
  · intro h
    exact Or.inl h.2

section SecondRun

variable {kept : List (String × ManifestRecord)}

theorem lookup_observedAgain (hnfc : ∀ s, host.nfc (host.nfc s) = host.nfc s)
    (hrun : PlanRun host staged artifactDefinitions manifestFiles observedFiles operation targets
      previous plans) {record : StagedFile} {plan : PathPlan} {item : ObservedFile}
    (hplan : (record.path, plan) ∈ plans)
    (hrecord : stagedAt staged.files record.path = some record)
    (hitem : observedFiles.lookup record.path = some item) :
    ((ownershipPlan previous plans).observedAgain staged observedFiles).lookup record.path =
      some (plan.observed item) := by
  have hstaged : (stagedAt staged.files record.path).isSome = true := by rw [hrecord]; rfl
  rw [OwnershipPlan.observedAgain,
    lookup_filter_key (fun path => (stagedAt staged.files path).isSome) _ hstaged,
    OwnershipPlan.applied, lookup_map, hitem, Option.map_some,
    observedFile_eq hnfc hrun hplan]

/-- The view the second run has of a staged path follows the first run's plan of it. -/
theorem exists_again (hnfc : ∀ s, host.nfc (host.nfc s) = host.nfc s)
    (hrun : PlanRun host staged artifactDefinitions manifestFiles observedFiles operation targets
      previous plans)
    (hkept : Kept host staged plans (ownershipPlan previous plans).manifestFileRecords kept)
    {record : StagedFile} {plan : PathPlan} (hplan : (record.path, plan) ∈ plans)
    (hrecord : stagedAt staged.files record.path = some record) (operation' : PlanOperation) :
    ∃ view again item, view.Sound host record.path ∧
      observedFiles.lookup record.path = some item ∧ view.content = item.content.map encode ∧
      view.previous = previous.lookup record.path ∧
      planStaged host operation targets record view = .ok plan ∧ view.Follows host plan again ∧
      planPath host operation' targets staged.files kept
          ((ownershipPlan previous plans).observedAgain staged observedFiles) record.path =
        planStaged host operation' targets record again := by
  obtain ⟨view, item, hv, hprevious, hitem, hcontent, hread, hfirst, hsound⟩ :=
    hrun.staged_plan hnfc hplan hrecord
  have hobserved := lookup_observedAgain hnfc hrun hplan hrecord hitem
  obtain ⟨again, hagain, hn⟩ := pathView_next hsound hread hobserved (hkept.lookup _ _ hplan)
  refine ⟨view, again, item, hv, hitem, hcontent, hprevious, hfirst, hn, ?_⟩
  simp only [planPath, hagain, hrecord, bind_ok_eq]

theorem mem_paths_again (hrun : PlanRun host staged artifactDefinitions manifestFiles
    observedFiles operation targets previous plans)
    (hkept : ∀ path ∈ kept.map Prod.fst, (stagedAt staged.files path).isSome = true)
    {path : String} :
    path ∈ sortedPaths (staged.files.map (·.path) ++ kept.map Prod.fst) ↔
      (∃ plan, (path, plan) ∈ plans) ∧ (stagedAt staged.files path).isSome = true := by
  rw [sortedPaths_again previous hkept, List.mem_filter, ← hrun.paths]
  simp [List.mem_map]

theorem observed_again (hrun : PlanRun host staged artifactDefinitions manifestFiles
    observedFiles operation targets previous plans)
    (hkept : ∀ path ∈ kept.map Prod.fst, (stagedAt staged.files path).isSome = true)
    (plan : OwnershipPlan) :
    sameSet ((plan.observedAgain staged observedFiles).map Prod.fst)
      (sortedPaths (staged.files.map (·.path) ++ kept.map Prod.fst)) = true := by
  rw [sameSet_iff]
  intro path
  have hfirst := sameSet_iff.mp hrun.observed path
  rw [sortedPaths_again previous hkept, List.mem_filter, ← hfirst]
  simp only [OwnershipPlan.observedAgain, OwnershipPlan.applied, List.mem_map, List.mem_filter]
  constructor
  · rintro ⟨e, ⟨⟨e', he', rfl⟩, hstaged⟩, rfl⟩
    exact ⟨⟨e', he', rfl⟩, hstaged⟩
  · rintro ⟨⟨e, he, rfl⟩, hstaged⟩
    exact ⟨_, ⟨⟨e, he, rfl⟩, hstaged⟩, rfl⟩

/-- Two runs that leave the same records on the staged paths leave the same Manifest. -/
theorem records_again (hrun : PlanRun host staged artifactDefinitions manifestFiles
    observedFiles operation targets previous plans)
    (hkept : ∀ path ∈ kept.map Prod.fst, (stagedAt staged.files path).isSome = true)
    {plans' : List (String × PathPlan)}
    (hpaths' : plans'.map Prod.fst =
      sortedPaths (staged.files.map (·.path) ++ kept.map Prod.fst))
    (hsame : ∀ path plan plan', (path, plan) ∈ plans → (path, plan') ∈ plans' →
      plan'.record = plan.record) :
    (ownershipPlan kept plans').manifestFileRecords =
      (ownershipPlan previous plans).manifestFileRecords := by
  let recordAt (path : String) := (plans.lookup path).bind (·.record)
  have hfirst : plans.filterMap (·.2.record) = (plans.map Prod.fst).filterMap recordAt := by
    apply filterMap_eq_of_key
    rintro ⟨path, plan⟩ he
    simp only [recordAt, (lookup_eq_some hrun.nodup path plan).mpr he, Option.bind_some]
  have hsecond : plans'.filterMap (·.2.record) = (plans'.map Prod.fst).filterMap recordAt := by
    apply filterMap_eq_of_key
    rintro ⟨path, plan'⟩ he
    have hmem : path ∈ plans'.map Prod.fst := List.mem_map.mpr ⟨_, he, rfl⟩
    rw [hpaths', mem_paths_again hrun hkept] at hmem
    obtain ⟨⟨plan, hplan⟩, -⟩ := hmem
    simp only [recordAt, (lookup_eq_some hrun.nodup path plan).mpr hplan, Option.bind_some]
    exact hsame path plan plan' hplan he
  have hnone : ∀ path ∈ plans.map Prod.fst, (stagedAt staged.files path).isSome = false →
      recordAt path = none := by
    intro path hpath hdropped
    obtain ⟨⟨path', plan⟩, he, hown⟩ := List.mem_map.mp hpath
    have hown : path' = path := hown
    subst hown
    have hdropped : stagedAt staged.files path' = none := by simpa using hdropped
    simp only [recordAt, (lookup_eq_some hrun.nodup path' plan).mpr he, Option.bind_some,
      (hrun.dropped_plan he hdropped).1]
  have hall : plans'.filterMap (·.2.record) = plans.filterMap (·.2.record) := by
    rw [hsecond, hfirst, hpaths', sortedPaths_again previous hkept, ← hrun.paths,
      List.filterMap_filter]
    apply List.filterMap_congr
    intro path hpath
    cases hs : (stagedAt staged.files path).isSome with
    | true => rfl
    | false => exact (hnone path hpath hs).symm
  show (plans'.filterMap (·.2.record)).insertionSort _ = _
  rw [hall]
  rfl

end SecondRun

/-- Every overlay block of the staged tree lasts in the text it goes into. -/
def OverlaysLast (host : Host) (staged : StagedRenderTree host)
    (artifactDefinitions : List ArtifactDefinition) (manifestFiles : List ManifestRecord)
    (observedFiles : List (String × ObservedFile)) : Prop :=
  ∀ declared targets previous, definitions host.nfc [] artifactDefinitions = .ok declared →
    controlTargets staged.files declared reconcilerControlTargets = .ok targets →
    manifestRecords host.nfc [] manifestFiles = .ok previous →
    ∀ record item, stagedAt staged.files record.path = some record →
      observedFiles.lookup record.path = some item →
      record.Lasts host targets (item.content.map encode) (previous.lookup record.path).isSome

/-- A second sync succeeds, decides no-op for every path and keeps the Manifest records. -/
def SecondSyncNoOp (host : Host) (staged : StagedRenderTree host)
    (artifactDefinitions : List ArtifactDefinition) (observedFiles : List (String × ObservedFile))
    (plan : OwnershipPlan) (operation : PlanOperation) : Prop :=
  ∃ again, planOwnership host staged artifactDefinitions plan.manifestFileRecords
      (plan.observedAgain staged observedFiles) operation = .ok again ∧
    (∀ d ∈ again.decisions, d.action = .noOp) ∧
    again.manifestFileRecords = plan.manifestFileRecords

theorem secondSyncNoOp_of_lasts (hnfc : ∀ s, host.nfc (host.nfc s) = host.nfc s)
    {plan : OwnershipPlan} {operation' : PlanOperation}
    (h : planOwnership host staged artifactDefinitions manifestFiles observedFiles operation =
      .ok plan)
    (hlasts : OverlaysLast host staged artifactDefinitions manifestFiles observedFiles) :
    SecondSyncNoOp host staged artifactDefinitions observedFiles plan operation' := by
  obtain ⟨targets, previous, plans, hrun, rfl⟩ := planOwnership_eq_ok.mp h
  obtain ⟨declared, hdeclared, htargets⟩ := hrun.declared
  obtain ⟨kept, hkept⟩ := exists_kept hnfc hrun
  have hpaths := sortedPaths_again previous hkept.staged
  set observed' := (ownershipPlan previous plans).observedAgain staged observedFiles with hobs
  -- every staged path is settled
  have hsettled : ∀ path plan, (path, plan) ∈ plans →
      (stagedAt staged.files path).isSome = true →
      Settled (planPath host operation' targets staged.files kept observed' path) plan.record := by
    intro path plan hplan hstaged
    obtain ⟨record, hrecord⟩ := Option.isSome_iff_exists.mp hstaged
    have hown := (stagedAt_path hrecord).1
    subst hown
    obtain ⟨view, again, item, hv, hitem, hcontent, hprevious, hfirst, hn, hpath⟩ :=
      exists_again hnfc hrun hkept hplan hrecord operation'
    rw [hpath]
    apply planStaged_again hnfc hfirst hv (staged.hashed record (stagedAt_path hrecord).2) hn
    rw [hcontent, hprevious]
    exact hlasts declared targets previous hdeclared htargets hrun.index record item hrecord hitem
  -- so the loop of the second run goes through
  obtain ⟨plans', hplans'⟩ := mapM_keyed_isOk
    (planPath host operation' targets staged.files kept observed')
    (sortedPaths (staged.files.map (·.path) ++ kept.map Prod.fst)) (by
      intro path hpath
      obtain ⟨⟨plan, hplan⟩, hstaged⟩ := (mem_paths_again hrun hkept.staged).mp hpath
      obtain ⟨plan', hplan', -⟩ := hsettled path plan hplan hstaged
      exact ⟨plan', hplan'⟩)
  obtain ⟨hpaths', hplanned'⟩ := (mapM_keyed_eq_ok _ _ _).mp hplans'
  have hagain : ∀ path plan', (path, plan') ∈ plans' → plan'.decision.action = .noOp ∧
      ∀ plan, (path, plan) ∈ plans → plan'.record = plan.record := by
    intro path plan' he
    have hmem : path ∈ plans'.map Prod.fst := List.mem_map.mpr ⟨_, he, rfl⟩
    rw [hpaths', mem_paths_again hrun hkept.staged] at hmem
    obtain ⟨⟨plan, hplan⟩, hstaged⟩ := hmem
    obtain ⟨plan'', hplan'', haction, hrecord⟩ := hsettled path plan hplan hstaged
    have : plan'' = plan' := Except.ok.inj (hplan''.symm.trans (hplanned' _ he))
    subst this
    refine ⟨haction, ?_⟩
    intro other hother
    rw [hrun.plan_unique hplan hother]
    exact hrecord
  have hrun' : PlanRun host staged artifactDefinitions
      (ownershipPlan previous plans).manifestFileRecords observed' operation' targets kept
      plans' :=
    ⟨⟨declared, hdeclared, htargets⟩, hkept.index, observed_again hrun hkept.staged _, hpaths',
      hplanned'⟩
  refine ⟨_, planOwnership_eq_ok.mpr ⟨targets, kept, plans', hrun', rfl⟩, ?_, ?_⟩
  · intro d hd
    obtain ⟨⟨path, plan'⟩, he, rfl⟩ := List.mem_map.mp hd
    exact (hagain path plan' he).1
  · apply records_again hrun hkept.staged hpaths'
    intro path plan plan' hplan hplan'
    exact (hagain path plan' hplan').2 plan hplan

theorem lasts_of_secondSyncNoOp (hnfc : ∀ s, host.nfc (host.nfc s) = host.nfc s)
    {plan : OwnershipPlan} {operation' : PlanOperation}
    (h : planOwnership host staged artifactDefinitions manifestFiles observedFiles operation =
      .ok plan)
    (hagain : SecondSyncNoOp host staged artifactDefinitions observedFiles plan operation') :
    OverlaysLast host staged artifactDefinitions manifestFiles observedFiles := by
  obtain ⟨targets, previous, plans, hrun, rfl⟩ := planOwnership_eq_ok.mp h
  obtain ⟨declared, hdeclared, htargets⟩ := hrun.declared
  obtain ⟨kept, hkept⟩ := exists_kept hnfc hrun
  obtain ⟨again, hsecond, hnoop, -⟩ := hagain
  obtain ⟨targets', kept', plans', hrun', rfl⟩ := planOwnership_eq_ok.mp hsecond
  obtain ⟨declared', hdeclared', htargets'⟩ := hrun'.declared
  have hsame : declared' = declared := Except.ok.inj (hdeclared'.symm.trans hdeclared)
  subst hsame
  have hsame : targets' = targets := Except.ok.inj (htargets'.symm.trans htargets)
  subst hsame
  have hsame : kept' = kept := Except.ok.inj (hrun'.index.symm.trans hkept.index)
  subst hsame
  intro declared₀ targets₀ previous₀ hdeclared₀ htargets₀ hprevious₀ record item hrecord hitem
  have hsame : declared₀ = declared' := Except.ok.inj (hdeclared₀.symm.trans hdeclared)
  subst hsame
  have hsame : targets₀ = targets' := Except.ok.inj (htargets₀.symm.trans htargets)
  subst hsame
  have hsame : previous₀ = previous := Except.ok.inj (hprevious₀.symm.trans hrun.index)
  subst hsame
  have hstaged : (stagedAt staged.files record.path).isSome = true := by rw [hrecord]; rfl
  have hpath : record.path ∈ plans.map Prod.fst := by
    rw [hrun.paths, mem_sortedPaths, List.mem_append]
    exact Or.inl (stagedAt_isSome.mp hstaged)
  obtain ⟨⟨path, plan⟩, hplan, hown⟩ := List.mem_map.mp hpath
  have hown : path = record.path := hown
  subst hown
  have hpath' : record.path ∈ plans'.map Prod.fst := by
    rw [hrun'.paths, mem_paths_again hrun hkept.staged]
    exact ⟨⟨plan, hplan⟩, hstaged⟩
  obtain ⟨⟨path', plan'⟩, hplan', hown'⟩ := List.mem_map.mp hpath'
  have hown' : path' = record.path := hown'
  subst hown'
  have haction : plan'.decision.action = .noOp :=
    hnoop _ (List.mem_map.mpr ⟨_, hplan', rfl⟩)
  obtain ⟨view, again, item', hv, hitem', hcontent, hprevious, hfirst, hn, hloop⟩ :=
    exists_again hnfc hrun hkept hplan hrecord operation'
  have hsame : item' = item := Option.some.inj (hitem'.symm.trans hitem)
  subst hsame
  have hturn := hrun'.planned _ hplan'
  rw [hloop] at hturn
  rw [← hcontent, ← hprevious]
  exact lasts_of_planStaged_again hfirst hn hturn haction

/-- A second sync is a strict no-op exactly when every overlay block lasts in its text. -/
theorem second_sync_noOp_iff (hnfc : ∀ s, host.nfc (host.nfc s) = host.nfc s)
    {plan : OwnershipPlan} (operation' : PlanOperation)
    (h : planOwnership host staged artifactDefinitions manifestFiles observedFiles operation =
      .ok plan) :
    SecondSyncNoOp host staged artifactDefinitions observedFiles plan operation' ↔
      OverlaysLast host staged artifactDefinitions manifestFiles observedFiles := by
  constructor
  · exact lasts_of_secondSyncNoOp hnfc h
  · exact secondSyncNoOp_of_lasts hnfc h

section Sample

def sampleMarkers : Markers := ⟨"<b>", "<e>"⟩

def sampleOverlay (block : String) : StagedFile where
  path := "AGENTS.md"
  definitionId := "agents"
  surfaceId := "launcher:agents"
  ownership := .overlayManaged
  mergeStrategy := .markedBlock
  candidateByteHash := some (sampleHost.hashBytes (.bytes (encode block)))
  modePolicy := .preserve
  candidateMode := none
  candidateBytes := encode block

def sampleStaged (block : String) : StagedRenderTree sampleHost where
  files := [sampleOverlay block]
  hashed r hr := by
    rw [List.mem_singleton.mp hr]
    rfl

def sampleDefinitions : List ArtifactDefinition :=
  [⟨"agents", [⟨"AGENTS.md", .overlayManaged, .markedBlock, .preserve, some sampleMarkers⟩]⟩]

def sampleObserved : List (String × ObservedFile) := [("AGENTS.md", ⟨absent "AGENTS.md", none⟩)]

/-- The first sync of a project without `AGENTS.md`. -/
def sampleSync (block : String) : Except Failure OwnershipPlan :=
  planOwnership sampleHost (sampleStaged block) sampleDefinitions [] sampleObserved (.other "sync")

/-- The second sync, over what the first one left. -/
def sampleSecondSync (block : String) (plan : OwnershipPlan) : Except Failure OwnershipPlan :=
  planOwnership sampleHost (sampleStaged block) sampleDefinitions plan.manifestFileRecords
    (plan.observedAgain (sampleStaged block) sampleObserved) (.other "sync")

/-- The rendered block holds the end marker's own line. -/
theorem second_sync_repeated_marker : ∃ plan, sampleSync "<e>\n" = .ok plan ∧
    ¬SecondSyncNoOp sampleHost (sampleStaged "<e>\n") sampleDefinitions sampleObserved plan
      (.other "sync") := by
  have hfirst : (sampleSync "<e>\n").isOk = true := by decide
  have hsecond : (sampleSync "<e>\n" >>= sampleSecondSync "<e>\n").isOk = false := by
    decide
  obtain ⟨plan, hplan⟩ := exists_of_isOk hfirst
  refine ⟨plan, hplan, ?_⟩
  rintro ⟨again, hagain, -⟩
  have hagain : sampleSecondSync "<e>\n" plan = .ok again := hagain
  rw [hplan, bind_ok_eq, hagain] at hsecond
  cases hsecond

theorem second_sync_noOp_iff_plain_block : ∃ plan, sampleSync "x\n" = .ok plan ∧
    OverlaysLast sampleHost (sampleStaged "x\n") sampleDefinitions [] sampleObserved := by
  have hfirst : (sampleSync "x\n").isOk = true := by decide
  have hsecond : (do
      let plan ← sampleSync "x\n"
      let again ← sampleSecondSync "x\n" plan
      if again.decisions.all (·.action = .noOp) &&
        again.manifestFileRecords = plan.manifestFileRecords then .ok () else
        .error assertionError : Except Failure Unit).isOk = true := by
    decide
  obtain ⟨plan, hplan⟩ := exists_of_isOk hfirst
  rw [hplan, bind_ok_eq] at hsecond
  obtain ⟨_, hsecond⟩ := exists_of_isOk hsecond
  obtain ⟨again, hagain, hsecond⟩ := bind_eq_ok hsecond
  split at hsecond
  · rename_i hsame
    simp only [Bool.and_eq_true, List.all_eq_true, decide_eq_true_eq] at hsame
    exact ⟨plan, hplan, (second_sync_noOp_iff (fun _ => rfl) (.other "sync") hplan).mp
      ⟨again, hagain, hsame⟩⟩
  · cases hsecond

end Sample

end AgentStack.Reconcile
