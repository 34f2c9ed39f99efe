import AgentStack.Runtime.AdmissionSteps
import AgentStack.SampleHost

/-! What a store shows a transaction, read off the store itself, and a store to begin from. -/
namespace AgentStack.Runtime

open AgentStack.Core FileTree Crash Reconcile

variable {host : Host} {L : Layout} {journal : TaskJournal} {ledger : ReplayLedger} {s : FS}

def View.of (L : Layout) (journal : TaskJournal) (ledger : ReplayLedger) (s : FS) : View where
  journal := journal
  residue := false
  ledger := ledger
  staging r := s.get (stagingRoot L.transactionId ++ r)
  outbox n := s.get (outboxRoot ++ [n])
  place p r := s.get (p ++ r)
  reached p := s.realDir (parent p)

/-- A journal of another transaction, done with. -/
def completeEntry (host : Host) (s : FS) (n : String) : Bool :=
  suffix n = ".json" && match readTaskJournal host (stem n) s with
    | .ok j => j.phase = .complete
    | .error _ => false

/-- What can be checked of a store entry by entry before a transaction acts on it. -/
structure StoreReady (host : Host) (L : Layout) (journal : TaskJournal) (ledger : ReplayLedger)
    (s : FS) : Prop where
  wellFormed : s.WellFormed
  directories : ∀ d ∈ [controlDir, localDir, localDir ++ ["task-locks"], journalRoot], s.realDir d
  locks : ∀ p ∈ [controlDir ++ ["runtime-state.lock"], taskLockPath host L.taskRef],
    s.get p = some (.file ∅ 0o600)
  maintenance : s.get maintenancePath = none
  areas : ∀ d ∈ [localDir ++ ["task-staging"], outboxRoot], s.get d = none ∨ s.realDir d
  above : ∀ p ∈ L.places, ∀ q ∈ (parent p).inits, s.get q = none ∨ s.realDir q
  stored : s.get (journalFile L.transactionId) = some (.file (.taskJournal journal) 0o600)
  valid : validateJournal host journal (some L.transactionId) = .ok ()
  others : ∀ n ∈ s.children journalRoot, n = journalName L.transactionId ∨ completeEntry host s n
  spent : s.get replayPath = some (.file (.replayLedger ledger) 0o600)
  project : replayUuid ledger.projectId "project_id" = .ok ()
  workspace : replayUuid ledger.workspaceInstanceId "workspace_instance_id" = .ok ()
  entries : ∀ e ∈ ledger.entries,
    replayDigest e.1 "proof_key" = .ok () ∧ checkEntry e.1 e.2 = .ok ()

theorem completeEntry_iff {n : String} : completeEntry host s n = true ↔
    suffix n = ".json" ∧ ∃ j, readTaskJournal host (stem n) s = .ok j ∧ j.phase = .complete := by
  unfold completeEntry
  rcases readTaskJournal host (stem n) s with e | j
  · simp
  · simp

/-- The checks are all that is needed for the store to show its own view. -/
theorem StoreReady.shows (h : StoreReady host L journal ledger s) :
    Shows host L (View.of L journal ledger s) s where
  skeleton :=
    { root := h.wellFormed.1
      control := h.directories _ (by simp)
      gate := ⟨∅, 0o600, h.locks _ (by simp)⟩
      locals := h.directories _ (by simp)
      locks := h.directories _ (by simp)
      lock := ⟨∅, 0o600, h.locks _ (by simp)⟩
      maintenance := h.maintenance
      journals := h.directories _ (by simp)
      staging := h.areas _ (by simp)
      outbox := h.areas _ (by simp)
      clear := fun p hp =>
        ⟨h.wellFormed.1, fun q hq => h.above p hp q ((List.mem_inits q _).mpr hq)⟩ }
  journals :=
    { stored := h.stored
      valid := h.valid
      others := fun n hn hne =>
        .inl (completeEntry_iff.mp ((h.others n (DirTree.mem_children.mpr hn)).resolve_left hne))
      residue := fun hr => by cases hr }
  ledger := ⟨h.spent, h.project, h.workspace, h.entries⟩
  staging := ⟨fun _ => rfl, h.wellFormed.closedAt _⟩
  outbox _ _ := rfl
  places _ _ := ⟨fun _ => rfl, h.wellFormed.closedAt _⟩
  reached _ _ hr := hr

section Sample

def sampleLedger : ReplayLedger := ⟨"00000000-0000-4000-8000-000000000006", sampleWorkspace, []⟩

/-- A store with the planned journal in place, and `entries` of the project. -/
def sampleStore (journal : TaskJournal) (entries : List (Path × Node Content)) : FS :=
  ⟨[([], .dir 0o755), (controlDir, .dir 0o755),
    (controlDir ++ ["runtime-state.lock"], .file ∅ 0o600), (localDir, .dir 0o755),
    (localDir ++ ["task-locks"], .dir 0o755), (taskLockPath sampleHost "tasks/t", .file ∅ 0o600),
    (journalRoot, .dir 0o755), (journalFile sampleTransaction, .file (.taskJournal journal) 0o600),
    (replayPath, .file (.replayLedger sampleLedger) 0o600)] ++ entries⟩

end Sample

end AgentStack.Runtime
