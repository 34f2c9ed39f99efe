import AgentStack.Reconcile.SecondSync
import Mathlib.Algebra.GroupWithZero.Nat

/-! Sequences of syncs: how often a path is created while trees, definitions and files change. -/
namespace AgentStack.Reconcile

open AgentStack.Core FileTree AgentStack.Runtime KeyedList

/-- One sync: the tree it renders, what declares it, and the files the user left. -/
structure Sync (host : Host) where
  staged : StagedRenderTree host
  artifactDefinitions : List ArtifactDefinition
  observedFiles : List (String × ObservedFile)
  operation : PlanOperation

variable {host : Host}

def Sync.plan (sync : Sync host) (manifestFiles : List ManifestRecord) :
    Except Failure OwnershipPlan :=
  planOwnership host sync.staged sync.artifactDefinitions manifestFiles sync.observedFiles
    sync.operation

/-- The plans a sequence of syncs commits. A sync that is refused commits nothing, and any other
leaves the Manifest records of its plan to the next. -/
def committedPlans (manifestFiles : List ManifestRecord) : List (Sync host) → List OwnershipPlan
  | [] => []
  | sync :: rest =>
    match sync.plan manifestFiles with
    | .error _ => committedPlans manifestFiles rest
    | .ok plan => plan :: committedPlans plan.manifestFileRecords rest

def OwnershipPlan.creates (path : String) (plan : OwnershipPlan) : Nat :=
  plan.decisions.countP fun d => d.path = path && d.action = .create

/-- How many create decisions of the plans have the path as their target. -/
def creates (path : String) (plans : List OwnershipPlan) : Nat :=
  (plans.map (·.creates path)).sum

/-- The Manifest has a record of an existing file at the path. -/
def recordsFile (nfc : String → String) (path : String) (manifestFiles : List ManifestRecord) :
    Bool :=
  match manifestRecords nfc [] manifestFiles with
  | .error _ => false
  | .ok previous => (previous.lookup path).any (·.fileState.exists)

/-- No sync that commits leaves out of its tree the path of a file the Manifest records. -/
def KeepsRecorded (path : String) (manifestFiles : List ManifestRecord) :
    List (Sync host) → Prop
  | [] => True
  | sync :: rest =>
    match sync.plan manifestFiles with
    | .error _ => KeepsRecorded path manifestFiles rest
    | .ok plan =>
      (recordsFile host.nfc path manifestFiles = true →
        path ∈ sync.staged.files.map (·.path)) ∧
        KeepsRecorded path plan.manifestFileRecords rest

/-! ### One path -/

variable {operation : PlanOperation} {record : StagedFile} {view : PathView} {plan : PathPlan}
  {targets : List (String × DefinedTarget)}

/-- A plan decides about its own path, and its record keeps the file the Manifest records there.
A create decision is made where none is recorded, and records one. -/
structure PathPlan.CreatesOnce (path : String) (view : PathView) (plan : PathPlan) : Prop where
  path : plan.decision.path = path
  kept : (∃ old ∈ view.previous, old.fileState.exists = true) →
    (∃ r ∈ plan.record, r.fileState.exists = true) ∧ plan.decision.action ≠ .create
  recorded : plan.decision.action = .create → ∃ r ∈ plan.record, r.fileState.exists = true

theorem planManaged_createsOnce (h : planManaged operation record view = .ok plan) :
    plan.CreatesOnce record.path view := by
  obtain ⟨hrecord, -⟩ := planManaged_eq_ok h
  have hexists : ∃ r ∈ plan.record, r.fileState.exists = true := ⟨_, hrecord, rfl⟩
  simp only [planManaged] at h
  cases hp : view.previous with
  | none =>
    simp only [hp] at h
    split_ifs at h with h1 h2
    · cases h
      exact ⟨rfl, by simp [hp], fun _ => hexists⟩
    · cases h
      exact ⟨rfl, by simp [hp], fun _ => hexists⟩
  | some old =>
    simp only [hp] at h
    split_ifs at h with h1 h2 h3
    · cases h
      exact ⟨rfl, fun _ => ⟨hexists, by simp [writeFile, ownershipDecision]⟩, fun _ => hexists⟩
    · cases h
      exact ⟨rfl, fun _ => ⟨hexists, by simp [writeFile, ownershipDecision]⟩, fun _ => hexists⟩
    · cases h
      exact ⟨rfl, fun _ => ⟨hexists, by simp [keepFile, ownershipDecision]⟩, fun _ => hexists⟩

theorem overlayAction_create {path : String} {inserted : Bool}
    {observedHash candidateHash reason : String} {old : ManifestRecord} :
    overlayAction operation path inserted observedHash candidateHash (some old) ≠
      .ok (.create, reason) := by
  intro h
  simp only [overlayAction] at h
  split_ifs at h with h1 h2 h3
  · cases h
  · cases h
  · cases h

theorem planOverlay_path {target : ArtifactTarget}
    (h : planOverlay host operation record target view = .ok plan) :
    plan.decision.path = record.path := by
  simp only [planOverlay] at h
  obtain ⟨markers, -, h⟩ := bind_eq_ok h
  obtain ⟨⟨parts, inserted⟩, -, h⟩ := bind_eq_ok h
  obtain ⟨⟨action, reason⟩, -, h⟩ := bind_eq_ok h
  split_ifs at h
  · cases h
    rfl
  · cases h
    rfl

theorem planOverlay_createsOnce {target : ArtifactTarget}
    (h : planOverlay host operation record target view = .ok plan) :
    plan.CreatesOnce record.path view := by
  obtain ⟨markers, parts, inserted, -, hrun⟩ := planOverlay_eq_ok h
  obtain ⟨reason, hdecided⟩ := hrun.decided
  have hplaced : (parts.placed host record view).fileState.exists = true := rfl
  constructor
  · exact planOverlay_path h
  · rintro ⟨old, hold, hexists⟩
    have hold : view.previous = some old := hold
    rw [hold] at hdecided
    constructor
    · by_cases hnoop : plan.decision.action = .noOp
      · have hkept := (hrun.kept hnoop).2
        rw [hold] at hkept
        exact ⟨old, hkept, hexists⟩
      · exact ⟨_, (hrun.written hnoop).2.2, hplaced⟩
    · intro hcreate
      rw [hcreate] at hdecided
      exact overlayAction_create hdecided
  · intro hcreate
    have hwrite : plan.decision.action ≠ .noOp := by simp [hcreate]
    exact ⟨_, (hrun.written hwrite).2.2, hplaced⟩

/-- The state the Manifest records exists when the baseline read from it does. -/
theorem PathView.Sound.baseline_exists {path : String} (hv : view.Sound host path)
    {old : ManifestRecord} (hold : view.previous = some old) :
    view.baseline.exists = old.fileState.exists := by
  obtain ⟨-, -, -, -, path, -, hs⟩ := fromDocument_eq_ok (hv.baseline old hold)
  rw [hs]

theorem planAdopted_createsOnce (hv : view.Sound host record.path) :
    (planAdopted record view).CreatesOnce record.path view := by
  obtain ⟨-, hrecord⟩ := planAdopted_record record view
  have haction : (planAdopted record view).decision.action ≠ .create := by
    cases hp : view.previous with
    | none => simp [planAdopted, hp, keepFile, ownershipDecision]
    | some old => simp [planAdopted, hp, keepFile, ownershipDecision]
  constructor
  · cases hp : view.previous with
    | none => simp [planAdopted, hp, keepFile, ownershipDecision]
    | some old => simp [planAdopted, hp, keepFile, ownershipDecision]
  · rintro ⟨old, hold, hexists⟩
    have hold : view.previous = some old := hold
    refine ⟨⟨_, hrecord, ?_⟩, haction⟩
    rw [hold, Option.isSome_some, if_pos rfl]
    exact (hv.baseline_exists hold).trans hexists
  · intro hcreate
    exact absurd hcreate haction

/-- A path whose file the Manifest records is consumed: creating it is refused. -/
theorem planCreateOnce_createsOnce (h : planCreateOnce record view = .ok plan)
    (hv : view.Sound host record.path) : plan.CreatesOnce record.path view := by
  simp only [planCreateOnce] at h
  split_ifs at h with hconsumed hpresent
  · cases h
    constructor
    · rfl
    · rintro ⟨old, hold, hexists⟩
      exact ⟨⟨old, hold, hexists⟩, by simp [keepFile, ownershipDecision]⟩
    · intro hcreate
      simp [keepFile, ownershipDecision] at hcreate
  · cases h
    constructor
    · rfl
    · rintro ⟨old, hold, hexists⟩
      exfalso
      apply hpresent
      rw [hv.baseline_exists hold, hexists, Bool.or_true]
    · intro _
      exact ⟨_, rfl, rfl⟩

theorem planUserOwned_createsOnce :
    (planUserOwned record view).CreatesOnce record.path view := by
  constructor
  · rfl
  · rintro ⟨old, hold, hexists⟩
    exact ⟨⟨old, hold, hexists⟩, by simp [planUserOwned, keepFile, ownershipDecision]⟩
  · intro hcreate
    simp [planUserOwned, keepFile, ownershipDecision] at hcreate

theorem planStaged_createsOnce (h : planStaged host operation targets record view = .ok plan)
    (hv : view.Sound host record.path) : plan.CreatesOnce record.path view := by
  obtain ⟨target, -, h⟩ := bind_eq_ok h
  cases ho : record.ownership with
  | managed =>
    rw [ho] at h
    exact planManaged_createsOnce h
  | overlayManaged =>
    rw [ho] at h
    exact planOverlay_createsOnce h
  | adopted =>
    rw [ho] at h
    cases h
    exact planAdopted_createsOnce hv
  | createOnceThenUserOwned =>
    rw [ho] at h
    exact planCreateOnce_createsOnce h hv
  | userOwned =>
    rw [ho] at h
    cases h
    exact planUserOwned_createsOnce
  | other name =>
    rw [ho] at h
    cases h

/-- A dropped path is not created. -/
theorem planRetired_decision {path : String} {old : ManifestRecord}
    (h : planRetired host path old view = .ok plan) :
    plan.decision.path = path ∧ plan.decision.action ≠ .create := by
  obtain ⟨⟨candidate, contents, reason⟩, -, h⟩ := bind_eq_ok h
  cases h
  exact ⟨rfl, by simp [ownershipDecision]⟩

/-! ### One plan -/

section Planned

variable {staged : StagedRenderTree host} {artifactDefinitions : List ArtifactDefinition}
  {manifestFiles : List ManifestRecord} {observedFiles : List (String × ObservedFile)}
  {previous : List (String × ManifestRecord)} {plans : List (String × PathPlan)}

theorem PlanRun.createsOnce (hnfc : ∀ s, host.nfc (host.nfc s) = host.nfc s)
    (hrun : PlanRun host staged artifactDefinitions manifestFiles observedFiles operation targets
      previous plans) {path : String} (hplan : (path, plan) ∈ plans)
    (hstaged : path ∈ staged.files.map (·.path)) :
    ∃ view, view.previous = previous.lookup path ∧ plan.CreatesOnce path view := by
  obtain ⟨record, hrecord⟩ := Option.isSome_iff_exists.mp (stagedAt_isSome.mpr hstaged)
  have hown := (stagedAt_path hrecord).1
  subst hown
  obtain ⟨view, -, hv, hprevious, -, -, -, hloop, -⟩ := hrun.staged_plan hnfc hplan hrecord
  exact ⟨view, hprevious, planStaged_createsOnce hloop hv⟩

theorem PlanRun.dropped_decision (hrun : PlanRun host staged artifactDefinitions manifestFiles
    observedFiles operation targets previous plans) {path : String} (hplan : (path, plan) ∈ plans)
    (hdropped : path ∉ staged.files.map (·.path)) :
    plan.decision.path = path ∧ plan.decision.action ≠ .create := by
  have hnone : stagedAt staged.files path = none := by
    rw [← stagedAt_isSome] at hdropped
    simpa using hdropped
  obtain ⟨view, -, hloop⟩ := bind_eq_ok (hrun.planned _ hplan)
  simp only [hnone] at hloop
  cases hp : view.previous with
  | none =>
    rw [hp] at hloop
    cases hloop
  | some old =>
    rw [hp] at hloop
    exact planRetired_decision hloop

theorem PlanRun.decision_path (hnfc : ∀ s, host.nfc (host.nfc s) = host.nfc s)
    (hrun : PlanRun host staged artifactDefinitions manifestFiles observedFiles operation targets
      previous plans) {path : String} (hplan : (path, plan) ∈ plans) :
    plan.decision.path = path := by
  by_cases hstaged : path ∈ staged.files.map (·.path)
  · obtain ⟨view, -, honce⟩ := hrun.createsOnce hnfc hplan hstaged
    exact honce.path
  · exact (hrun.dropped_decision hplan hstaged).1

/-- One plan decides about each path once. -/
theorem PlanRun.creates_le_one (hnfc : ∀ s, host.nfc (host.nfc s) = host.nfc s)
    (hrun : PlanRun host staged artifactDefinitions manifestFiles observedFiles operation targets
      previous plans) (path : String) : (ownershipPlan previous plans).creates path ≤ 1 := by
  have hpaths : (ownershipPlan previous plans).decisions.map (·.path) = plans.map Prod.fst := by
    simp only [ownershipPlan, List.map_map]
    apply List.map_congr_left
    rintro ⟨path', plan⟩ hplan
    exact hrun.decision_path hnfc hplan
  have hnodup : ((ownershipPlan previous plans).decisions.map (·.path)).Nodup := by
    rw [hpaths]
    exact hrun.nodup
  have hcount := List.nodup_iff_count_le_one.mp hnodup path
  rw [List.count_eq_countP, List.countP_map] at hcount
  apply le_trans _ hcount
  apply List.countP_mono_left
  intro d _ hd
  have hd : d.path = path ∧ d.action = .create := by simpa using hd
  simpa using hd.1

/-- A create decision of a plan is the one on a path of the tree. -/
theorem PlanRun.exists_created (hnfc : ∀ s, host.nfc (host.nfc s) = host.nfc s)
    (hrun : PlanRun host staged artifactDefinitions manifestFiles observedFiles operation targets
      previous plans) {path : String} (h : 0 < (ownershipPlan previous plans).creates path) :
    ∃ plan, (path, plan) ∈ plans ∧ path ∈ staged.files.map (·.path) ∧
      plan.decision.action = .create := by
  obtain ⟨d, hd, hcreate⟩ := List.countP_pos_iff.mp h
  have hcreate : d.path = path ∧ d.action = .create := by simpa using hcreate
  obtain ⟨⟨path', plan⟩, hplan, rfl⟩ := List.mem_map.mp hd
  have hsame : path' = path := (hrun.decision_path hnfc hplan).symm.trans hcreate.1
  subst hsame
  have hstaged : path' ∈ staged.files.map (·.path) := by
    by_contra hdropped
    exact (hrun.dropped_decision hplan hdropped).2 hcreate.2
  exact ⟨plan, hplan, hstaged, hcreate.2⟩

theorem recordsFile_eq_true {path : String} (hindex : manifestRecords host.nfc [] manifestFiles =
    .ok previous) : recordsFile host.nfc path manifestFiles = true ↔
      ∃ old ∈ previous.lookup path, old.fileState.exists = true := by
  rw [recordsFile, hindex]
  exact Option.any_eq_true _ _

/-- The Manifest a plan leaves records a file where the plan's own record does. -/
theorem PlanRun.recordsFile_next (hnfc : ∀ s, host.nfc (host.nfc s) = host.nfc s)
    (hrun : PlanRun host staged artifactDefinitions manifestFiles observedFiles operation targets
      previous plans) {path : String} (hplan : (path, plan) ∈ plans)
    (h : ∃ r ∈ plan.record, r.fileState.exists = true) :
    recordsFile host.nfc path (ownershipPlan previous plans).manifestFileRecords = true := by
  obtain ⟨kept, hkept⟩ := exists_kept hnfc hrun
  rw [recordsFile_eq_true hkept.index, hkept.lookup path plan hplan]
  exact h

end Planned

variable {manifestFiles : List ManifestRecord} {path : String} {sync : Sync host}

variable (path) in
theorem Sync.creates_le_one (hnfc : ∀ s, host.nfc (host.nfc s) = host.nfc s)
    {plan : OwnershipPlan} (h : sync.plan manifestFiles = .ok plan) : plan.creates path ≤ 1 := by
  obtain ⟨targets, previous, plans, hrun, rfl⟩ := planOwnership_eq_ok.mp h
  exact hrun.creates_le_one hnfc path

/-- Creating a file records it. -/
theorem Sync.recordsFile_of_creates (hnfc : ∀ s, host.nfc (host.nfc s) = host.nfc s)
    {plan : OwnershipPlan} (h : sync.plan manifestFiles = .ok plan) (hc : 0 < plan.creates path) :
    recordsFile host.nfc path plan.manifestFileRecords = true := by
  obtain ⟨targets, previous, plans, hrun, rfl⟩ := planOwnership_eq_ok.mp h
  obtain ⟨plan, hplan, hstaged, hcreate⟩ := hrun.exists_created hnfc hc
  obtain ⟨view, -, honce⟩ := hrun.createsOnce hnfc hplan hstaged
  exact hrun.recordsFile_next hnfc hplan (honce.recorded hcreate)

/-- A sync that stages a recorded file keeps its record and creates nothing there. -/
theorem Sync.keeps_record (hnfc : ∀ s, host.nfc (host.nfc s) = host.nfc s)
    {plan : OwnershipPlan} (h : sync.plan manifestFiles = .ok plan)
    (hrecords : recordsFile host.nfc path manifestFiles = true)
    (hstaged : path ∈ sync.staged.files.map (·.path)) :
    recordsFile host.nfc path plan.manifestFileRecords = true ∧ plan.creates path = 0 := by
  obtain ⟨targets, previous, plans, hrun, rfl⟩ := planOwnership_eq_ok.mp h
  have hmem : path ∈ plans.map Prod.fst := by
    rw [hrun.paths, mem_sortedPaths, List.mem_append]
    exact Or.inl hstaged
  obtain ⟨⟨path', plan⟩, hplan, hown⟩ := List.mem_map.mp hmem
  have hown : path' = path := hown
  subst hown
  obtain ⟨view, hprevious, honce⟩ := hrun.createsOnce hnfc hplan hstaged
  rw [recordsFile_eq_true hrun.index, ← hprevious] at hrecords
  obtain ⟨hkept, hidle⟩ := honce.kept hrecords
  constructor
  · exact hrun.recordsFile_next hnfc hplan hkept
  · by_contra hcreates
    obtain ⟨other, hother, -, hcreate⟩ := hrun.exists_created hnfc (Nat.pos_of_ne_zero hcreates)
    rw [hrun.plan_unique hplan hother] at hcreate
    exact hidle hcreate

/-! ### A run of syncs -/

/-- A recorded file that every sync stages is not created again. -/
theorem creates_eq_zero (hnfc : ∀ s, host.nfc (host.nfc s) = host.nfc s) (syncs : List (Sync host))
    (hrecords : recordsFile host.nfc path manifestFiles = true)
    (h : KeepsRecorded path manifestFiles syncs) :
    creates path (committedPlans manifestFiles syncs) = 0 := by
  induction syncs generalizing manifestFiles with
  | nil => rfl
  | cons sync rest ih =>
    rw [KeepsRecorded] at h
    rw [committedPlans]
    cases hplan : sync.plan manifestFiles with
    | error e =>
      rw [hplan] at h
      exact ih hrecords h
    | ok plan =>
      rw [hplan] at h
      obtain ⟨hstaged, hrest⟩ := h
      obtain ⟨hnext, hidle⟩ := sync.keeps_record hnfc hplan hrecords (hstaged hrecords)
      have htail := ih hnext hrest
      simp only [creates, List.map_cons, List.sum_cons] at htail ⊢
      omega

theorem keepsRecorded_of_staged (syncs : List (Sync host))
    (h : ∀ sync ∈ syncs, path ∈ sync.staged.files.map (·.path)) :
    KeepsRecorded path manifestFiles syncs := by
  induction syncs generalizing manifestFiles with
  | nil => trivial
  | cons sync rest ih =>
    have hrest : ∀ sync ∈ rest, path ∈ sync.staged.files.map (·.path) :=
      fun sync hsync => h sync (List.mem_cons_of_mem _ hsync)
    rw [KeepsRecorded]
    cases sync.plan manifestFiles with
    | error e => exact ih hrest
    | ok plan => exact ⟨fun _ => h sync (List.mem_cons_self ..), ih hrest⟩

/-- A path is created at most once in a run whose syncs keep staging the files recorded. -/
theorem created_at_most_once (hnfc : ∀ s, host.nfc (host.nfc s) = host.nfc s) (path : String)
    (manifestFiles : List ManifestRecord) (syncs : List (Sync host))
    (h : KeepsRecorded path manifestFiles syncs) :
    creates path (committedPlans manifestFiles syncs) ≤ 1 := by
  induction syncs generalizing manifestFiles with
  | nil => simp [committedPlans, creates]
  | cons sync rest ih =>
    rw [KeepsRecorded] at h
    rw [committedPlans]
    cases hplan : sync.plan manifestFiles with
    | error e =>
      rw [hplan] at h
      exact ih manifestFiles h
    | ok plan =>
      rw [hplan] at h
      have hone := Sync.creates_le_one path hnfc hplan
      have htail : creates path (committedPlans plan.manifestFileRecords rest) + plan.creates path
          ≤ 1 := by
        by_cases hcreates : 0 < plan.creates path
        · have hnext := sync.recordsFile_of_creates hnfc hplan hcreates
          have hzero := creates_eq_zero hnfc rest hnext h.2
          omega
        · have hrest := ih plan.manifestFileRecords h.2
          omega
      simp only [creates, List.map_cons, List.sum_cons] at htail ⊢
      omega

section Sample

def sampleNotes : StagedFile where
  path := "NOTES.md"
  definitionId := "notes"
  surfaceId := "launcher:notes"
  ownership := .createOnceThenUserOwned
  mergeStrategy := .wholeFile
  candidateByteHash := some (sampleHost.hashBytes (.bytes (encode "x\n")))
  modePolicy := .exact
  candidateMode := some 0o644
  candidateBytes := encode "x\n"

/-- A sync that stages the create-once file over what the user left of it. -/
def sampleNotesSync (observed : ObservedFile) : Sync sampleHost where
  staged := ⟨[sampleNotes], fun r hr => by rw [List.mem_singleton.mp hr]; rfl⟩
  artifactDefinitions :=
    [⟨"notes", [⟨"NOTES.md", .createOnceThenUserOwned, .wholeFile, .exact, none⟩]⟩]
  observedFiles := [("NOTES.md", observed)]
  operation := .other "sync"

/-- A sync whose tree has dropped the create-once file. -/
def sampleDroppedSync (observed : ObservedFile) : Sync sampleHost where
  staged := ⟨[], fun _ hr => absurd hr List.not_mem_nil⟩
  artifactDefinitions := []
  observedFiles := [("NOTES.md", observed)]
  operation := .other "sync"

def sampleDeleted : ObservedFile := ⟨absent "NOTES.md", none⟩

def sampleWritten : ObservedFile := ⟨candidateState sampleNotes, some "x\n"⟩

theorem created_at_most_once_kept :
    creates "NOTES.md" (committedPlans [] [sampleNotesSync sampleDeleted,
      sampleNotesSync sampleWritten, sampleNotesSync sampleDeleted]) = 1 := by
  apply le_antisymm
  · apply created_at_most_once (fun _ => rfl)
    apply keepsRecorded_of_staged
    intro sync hsync
    simp only [List.mem_cons, List.not_mem_nil, or_false] at hsync
    rcases hsync with rfl | rfl | rfl
    · exact List.mem_cons_self ..
    · exact List.mem_cons_self ..
    · exact List.mem_cons_self ..
  · decide

/-- The tree drops the file, the user deletes it, and the tree brings it back. -/
theorem created_twice :
    creates "NOTES.md" (committedPlans [] [sampleNotesSync sampleDeleted,
      sampleDroppedSync sampleWritten, sampleNotesSync sampleDeleted]) = 2 := by
  decide

end Sample

end AgentStack.Reconcile
