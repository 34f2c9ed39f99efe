import AgentStack.Reconcile.LifecycleRuns
import AgentStack.Reconcile.ProbeRecovery
import AgentStack.SampleHost
import Mathlib.Data.Countable.Basic
import Mathlib.Logic.Equiv.List
import Mathlib.Tactic.DeriveCountable

/-! What holds of every tree that an apply of a plan and the recoveries after it can leave, each of
them stopped anywhere: its files and its Manifest go together. -/
namespace AgentStack.Reconcile.Lifecycle

open AgentStack.Core FileTree Crash DirTree AgentStack.Runtime

variable {host : LifecycleHost} {plan : SavedPlan} {context : ApplyContext}
  {records : List FileRecord} {s₀ s t : FS} {j : LifecycleJournal} {base : Option (Node Content)}

/-- The Manifest that a plan commits, in place. -/
def committedManifest (host : LifecycleHost) (plan : SavedPlan) : Option (Node Content) :=
  some (.file (host.content (.manifest plan.candidateManifest)) 0o644)

theorem physical_physical (f : FileState) : f.physical.physical = f.physical := rfl

theorem currentMatches_of_shown {f : FileState} (hclear : s.Clear (parent f.path))
    (h : Shown host f (s.get f.path)) : currentMatches host f s = true := by
  unfold currentMatches
  rw [observeFileState_eq host.toHost hclear, h]
  exact decide_eq_true (physical_physical f)

/-- The way to a file is clear. -/
theorem Inv.clear {j₀ : LifecycleJournal} (hs : Inv host j₀ base s) {r : FileRecord}
    (hr : r ∈ j₀.fileRecords) (h : Sound host j₀) : s.Clear (parent r.originalState.path) := by
  refine ⟨hs.shape.1, fun q hq => ?_⟩
  refine hs.standing.ways r hr q (hq.trans (List.dropLast_prefix _)) ?_
  rintro rfl
  have hne : r.originalState.path ≠ [] := by
    intro hnil
    exact h.not_control hr (by rw [hnil]; exact List.nil_prefix)
  have hlen := hq.length_le
  have hparent := congrArg List.length (parent_append_name hne)
  rw [List.length_append, List.length_singleton] at hparent
  omega

theorem Inv.candidates {created : List Path} (hs : Inv host (plan.journal records created) base s)
    (h : Sound host (plan.journal records created))
    (hall : AllAt host (plan.journal records created) (·.candidateState) s) :
    ∀ r ∈ records, currentMatches host r.candidateState s = true := by
  intro r hr
  have hpath := h.paths r hr
  refine currentMatches_of_shown ?_ ?_
  · rw [hpath]
    exact hs.clear hr h
  · rw [hpath]
    exact hall r hr

theorem Inv.originals {created : List Path} (hs : Inv host (plan.journal records created) base s)
    (h : Sound host (plan.journal records created))
    (hall : AllAt host (plan.journal records created) (·.originalState) s) :
    ∀ r ∈ records, currentMatches host r.originalState s = true :=
  fun r hr => currentMatches_of_shown (hs.clear hr h) (hall r hr)

/-- A journal that was written can be loaded again. -/
theorem Written.loaded {j₀ : LifecycleJournal} {phases : LifecyclePhase → Prop}
    (hs : Written host j₀ phases s) (hcheck : j₀.check host = .ok ()) :
    ∃ j, loadJournal host (transactionPath j₀.header.transactionId) s = .ok j ∧ phases j.phase := by
  obtain ⟨j, m, hget, hj, hphase⟩ := hs
  have hsame : j.check host = j₀.check host := congrArg (fun j => j.check host) hj.immutable
  refine ⟨j, ?_, hphase⟩
  unfold loadJournal
  rw [hget]
  simp only [host.load_content]
  rw [hsame, hcheck]
  rfl

/-- A tree in which the transaction is over: without a marker, and either with all of it or with
nothing of it. -/
structure Concluded (host : LifecycleHost) (plan : SavedPlan) (records : List FileRecord)
    (s₀ : FS) (j : LifecycleJournal) (s : FS) : Prop where
  marker : s.get maintenancePath = none
  outcome : s.get manifestPath = committedManifest host plan ∧
      (∀ r ∈ records, currentMatches host r.candidateState s = true) ∨
    s.get manifestPath = s₀.get manifestPath ∧
      (∀ r ∈ records, currentMatches host r.originalState s = true) ∧
      ∀ d ∈ j.createdDirectories, s.get d = none

/-- Once the journal says that the transaction is over, it is. -/
theorem lifecycle_complete (h : Ready host plan context records s₀)
    (hs : Reached host plan context s₀ s)
    (hload : loadJournal host (transactionPath plan.transactionId) s = .ok j)
    (hphase : j.phase = .complete) : Concluded host plan records s₀ j s := by
  obtain ⟨created, hsound, hinv⟩ := hs.inv h
  have hid : (plan.journal records created).header.transactionId = plan.transactionId := h.named
  rw [← hid] at hload
  obtain ⟨hversion, hloaded⟩ := hinv.loaded hload
  have hcreated : j.createdDirectories = created :=
    congrArg (fun j => j.createdDirectories) hversion.immutable
  cases hloaded with
  | stage hopen => exact absurd hphase hopen
  | ended _ hover =>
    have hsettled := hover.2.settled
    refine ⟨hsettled.marker, ?_⟩
    rcases hsettled.outcome with hmanifest | ⟨hmanifest, hall, hgone⟩
    · have hall := hinv.standing.committed hmanifest
      exact Or.inl ⟨hmanifest, hinv.candidates hsound hall⟩
    · refine Or.inr ⟨hmanifest, hinv.originals hsound hall, ?_⟩
      rw [hcreated]
      exact hgone

/-- A committed transaction stays committed, whatever is asked of the recoveries after it. -/
theorem lifecycle_commit_stays (h : Ready host plan context records s₀)
    (hs : Reached host plan context s₀ s)
    (hcommitted : s.get manifestPath = committedManifest host plan) (ht : Recovers host plan s t) :
    t.get manifestPath = committedManifest host plan ∧
      ∀ r ∈ records, currentMatches host r.candidateState t = true := by
  obtain ⟨created, hsound, hinv⟩ := hs.inv h
  -- The committed Manifest takes the place of the one the plan began with.
  have hown : Inv host (plan.journal records created) (committedManifest host plan) s := by
    constructor
    · exact hinv.shape
    · exact ⟨hinv.standing.ways, hinv.standing.sides, Or.inl hcommitted, hinv.standing.committed⟩
    · exact hinv.journal.imp_right fun hdone =>
        ⟨hdone.1, hdone.2.marker, Or.inl hcommitted⟩
  have hmanifest : ∀ u, Inv host (plan.journal records created) (committedManifest host plan) u →
      u.get manifestPath = manifestNode host (plan.journal records created) :=
    fun u hu => hu.standing.manifest.elim id id
  have hid : (plan.journal records created).header.transactionId = plan.transactionId := h.named
  have hlater : Inv host (plan.journal records created) (committedManifest host plan) t := by
    induction ht with
    | start => exact hown
    | recover action recovery _ hu ih =>
      rw [← hid] at hu
      exact (recoverTransaction_committed hsound action recovery).states ⟨ih, hmanifest _ ih⟩ ih hu
  exact ⟨hmanifest t hlater,
    hlater.candidates hsound (hlater.standing.committed (hmanifest t hlater))⟩

/-- What a transaction that ended well leaves: its journal says so, its marker is gone, and the
Manifest and every file are at the given state. -/
structure Finished (host : LifecycleHost) (plan : SavedPlan) (records : List FileRecord)
    (manifest : Option (Node Content)) (state : FileRecord → FileState) (s : FS) : Prop where
  marker : s.get maintenancePath = none
  journal : ∃ j m, s.get (transactionPath plan.transactionId) =
    some (.file (host.content (.journal j)) m) ∧ j.phase = .complete
  manifest : s.get manifestPath = manifest
  files : ∀ r ∈ records, currentMatches host (state r) s = true

theorem Ready.journal_written (h : Ready host plan context records s₀) {created : List Path}
    (hs : Written host (plan.journal records created) (· = .complete) s) :
    ∃ j m, s.get (transactionPath plan.transactionId) =
      some (.file (host.content (.journal j)) m) ∧ j.phase = .complete := by
  obtain ⟨j, m, hget, -, hphase⟩ := hs
  have hid : (plan.journal records created).header.transactionId = plan.transactionId := h.named
  rw [hid] at hget
  exact ⟨j, m, hget, hphase⟩

theorem Over.finished_commit (h : Ready host plan context records s₀) {created : List Path}
    (hsound : Sound host (plan.journal records created))
    (hs : In (Over host (plan.journal records created) base (committedManifest host plan)) s) :
    Finished host plan records (committedManifest host plan) (·.candidateState) s := by
  have hinv := Over.inv hs
  constructor
  · exact hs.2.settled.marker
  · exact h.journal_written hs.2.journal
  · exact hs.2.manifest
  · exact hinv.candidates hsound (hinv.standing.committed hs.2.manifest)

theorem Over.finished_rollback (h : Ready host plan context records s₀) {created : List Path}
    (hsound : Sound host (plan.journal records created))
    (hbase : base ≠ manifestNode host (plan.journal records created))
    (hs : In (Over host (plan.journal records created) base base) s) :
    Finished host plan records base (·.originalState) s := by
  constructor
  · exact hs.2.settled.marker
  · exact h.journal_written hs.2.journal
  · exact hs.2.manifest
  · refine (Over.inv hs).originals hsound ?_
    rcases hs.2.settled.outcome with hmanifest | ⟨-, hall, -⟩
    · exact absurd (hs.2.manifest.symm.trans hmanifest) hbase
    · exact hall

theorem applyPlan_over (h : Ready host plan context records s₀) {r : ApplyResult}
    (hout : (applyPlan host plan context).out s₀ = .ok r) (hr : r.committed = true) :
    ∃ created, Sound host (plan.journal records created) ∧
      In (Over host (plan.journal records created) (s₀.get manifestPath)
        (committedManifest host plan)) ((applyPlan host plan context).final s₀) := by
  have hend := (applyPlan_inv h s₀ rfl).2
  rw [hout] at hend
  exact hend.2 hr

/-- An apply that reports a commit has committed everything. -/
theorem applyPlan_commits (h : Ready host plan context records s₀) {r : ApplyResult}
    (hout : (applyPlan host plan context).out s₀ = .ok r) (hr : r.committed = true) :
    Finished host plan records (committedManifest host plan) (·.candidateState)
      ((applyPlan host plan context).final s₀) := by
  obtain ⟨created, hsound, hover⟩ := applyPlan_over h hout hr
  exact Over.finished_commit h hsound hover

/-- A recovery that returns from any tree the transaction can leave has done what it reports: all
of it is committed, or all of it is undone. -/
theorem recoverTransaction_reports (h : Ready host plan context records s₀)
    (hs : Reached host plan context s₀ s) {action : RecoveryAction} {recovery : RecoveryContext}
    {r : LifecycleRecovery}
    (hout : (recoverTransaction host plan.transactionId action recovery).out s = .ok r) :
    r.rolledBack = !r.committed ∧
      if r.committed then
        Finished host plan records (committedManifest host plan) (·.candidateState)
          ((recoverTransaction host plan.transactionId action recovery).final s)
      else
        Finished host plan records (s₀.get manifestPath) (·.originalState)
          ((recoverTransaction host plan.transactionId action recovery).final s) := by
  obtain ⟨created, hsound, hinv⟩ := hs.inv h
  have hend := (h.recover_inv action recovery hsound s hinv).2
  rw [hout] at hend
  refine ⟨hend.one, ?_⟩
  have hover := hend.ended
  cases hcommitted : r.committed with
  | true =>
    rw [hcommitted, if_pos rfl] at hover
    rw [if_pos rfl]
    exact Over.finished_commit h hsound hover
  | false =>
    rw [hcommitted, if_neg Bool.false_ne_true] at hover
    rw [if_neg Bool.false_ne_true]
    have hbase := (h.uncommitted_base created).ne hsound hover.2.manifest
    exact Over.finished_rollback h hsound hbase hover

/-! ### A sample

Its documents have contents of one byte; any other document has a longer one. -/

theorem string_countable : Countable String := by
  have hcode : Function.Injective fun c : Char => c.toNat := fun c d h =>
    Char.ext (UInt32.toNat_inj.mp h)
  have hlist : Function.Injective fun v : String => v.toList.map fun c => c.toNat := fun a b h =>
    String.ext (hcode.list_map h)
  exact hlist.countable

theorem byte_countable : Countable UInt8 := by
  have hvalue : Function.Injective UInt8.toNat := fun a b h => UInt8.toNat_inj.mp h
  exact hvalue.countable

attribute [instance] string_countable byte_countable

deriving instance Countable for FileType

theorem fileState_countable : Countable FileState := by
  have hparts : Function.Injective fun f : FileState => (f.path, f.exists, f.fileType, f.byteHash,
      f.mode, f.nonSymlink, f.managedBlockHash) := by
    rintro ⟨⟩ ⟨⟩ h
    simpa using h
  exact hparts.countable

attribute [instance] fileState_countable

deriving instance Countable for Runtime.SurfacePin, WorkflowContract, LifecycleStatus,
  Runtime.Lifecycle, AdmissionRecord, HeavyPhase, ExecutorClaim, HeavyState, ModeState, Integration,
  ReplayState, ReplayEntry, ReplayLedger, EffectIdentity, DeliveryState, Delivery, OutboxDocument,
  Operation, ProofProjection, FileDocument, MetadataMutation, OutboxEffect, RuntimeReference,
  AdmissionHeader, ArchiveHeader, SingleFileHeader, Header, Phase, LayoutSnapshot, SchemasSnapshot,
  LocalKind, WorkspaceDocument, LocalDocument, MigrationRecord, MigrationHeader, Runtime.Outcome,
  TaskJournal, RegistrationPhase, RegistrationJournal, MigrationPhase, MigrationJournal, Content

deriving instance Countable for LifecycleHeader, TaskState, ManifestDocument, LifecyclePhase,
  FileRecord, LifecycleJournal, MaintenanceMarker, LifecycleDocument

def sampleTaskState : TaskState := ⟨"none", "none", sampleDigest 1⟩

def sampleManifest : ManifestDocument := ⟨2, "t1", sampleDigest 5, "body"⟩

def sampleFilesystem : ProbedFilesystem := ⟨⟨false, false⟩, sampleAnswers, sampleProbeHasher⟩

def sampleContext : ApplyContext where
  planDigest := sampleDigest 2
  admission := .ok ()
  scanner := some fun _ => .ok sampleTaskState
  hasRoot := true
  hasLayouts := true
  hasSchemas := true
  bootstrapLock := none
  localState := .error (recoveryRequired "" [])
  filesystem := sampleFilesystem

end AgentStack.Reconcile.Lifecycle
