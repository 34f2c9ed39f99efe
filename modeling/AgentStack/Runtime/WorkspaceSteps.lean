import AgentStack.Runtime.Frames
import AgentStack.Runtime.Watched
import AgentStack.Runtime.Workspace

/-! The steps of a registration: each changes its journal or one of its two files. -/
namespace AgentStack.Runtime

open AgentStack.Core FileTree Crash Reconcile DirTree

variable {host : Host} {around : Surroundings} {s t : FS}

/-! ### Locks -/

def lockFile (n : String) : Path := controlDir ++ [n]

/-- Both project locks were taken once. -/
structure Locked (s : FS) : Prop where
  reconcile : ∃ c m, s.get (lockFile "reconcile.lock") = some (.file c m)
  runtime : ∃ c m, s.get (lockFile "runtime-state.lock") = some (.file c m)

/-- What taking the locks may touch. -/
def LockPath (q : Path) : Prop :=
  q <+: lockFile "reconcile.lock" ∨ q <+: lockFile "runtime-state.lock"

variable (host) in
theorem acquireProjectLocks_locks : Within (Frame LockPath) (acquireProjectLocks host) := by
  apply acquireProjectLocks_frame
  rintro n (rfl | rfl) q hq
  · exact Or.inl hq
  · exact Or.inr hq

theorem openCreate_file {p : Path} {m : FileTree.Mode} (h : (openCreate p m).out s = .ok ()) :
    ∃ c k, ((openCreate p m).final s).get p = some (.file c k) := by
  obtain ⟨-, -, hlook, hfinal⟩ := Program.bind_out_eq_ok h
  rw [openCreate, hfinal]
  rw [Program.out, Program.inspect_run] at hlook
  split at hlook
  · next c k hget => exact ⟨c, k, hget⟩
  · cases hlook
  · cases hlook

theorem advisoryLock_file {p : Path} (h : (advisoryLock host p).out s = .ok ()) :
    ∃ c k, ((advisoryLock host p).final s).get p = some (.file c k) := by
  obtain ⟨-, -, hopen, hfinal⟩ := Program.bind_out_eq_ok h
  rw [advisoryLock, hfinal]
  apply openCreate_file
  simp only [Program.mapError, Program.out] at hopen ⊢
  split at hopen
  · next hout => exact hout
  · cases hopen

theorem acquireProjectLocks_locked (h : (acquireProjectLocks host).out s = .ok ()) :
    Locked ((acquireProjectLocks host).final s) := by
  obtain ⟨-, -, h, hfinal⟩ := Program.bind_out_eq_ok h
  obtain ⟨-, -, h, hfinal'⟩ := Program.bind_out_eq_ok h
  obtain ⟨⟨⟩, hfirst, hsecond, hfinal''⟩ := Program.bind_out_eq_ok h
  rw [acquireProjectLocks, hfinal, hfinal', hfinal'']
  constructor
  · obtain ⟨c, k, hget⟩ := advisoryLock_file hfirst
    have hkeep : Within (Frame fun q => q <+: lockFile "runtime-state.lock")
        (advisoryLock host (lockFile "runtime-state.lock")) := by
      refine (realDirectory_within true (mkdirs_frame _ _ ?_)).bind fun _ => ?_
      · intro q hq
        exact hq.trans (List.dropLast_prefix _)
      · exact Within.mapError (openCreate_within (create_frame (by simp [lockFile])
          List.prefix_rfl))
    refine ⟨c, k, ((hkeep.final _).off _ ?_).trans hget⟩
    decide
  · exact advisoryLock_file hsecond

/-- Locks that were taken once are there to be taken again. -/
theorem acquireProjectLocks_run (hwf : s.WellFormed) (h : Locked s) :
    (acquireProjectLocks host).run s = ⟨[], .ok ()⟩ := by
  have hcontrol : s.Reaches controlDir := by
    apply hwf.reaches
    apply hwf.parent_realDir (n := "reconcile.lock")
    obtain ⟨c, m, hget⟩ := h.reconcile
    rw [lockFile] at hget
    rw [hget]
    rfl
  have hroot : s.Reaches [] := Reaches.root (hcontrol [] List.nil_prefix)
  have hlock : ∀ n, (∃ c m, s.get (lockFile n) = some (.file c m)) →
      (advisoryLock host (controlDir ++ [n])).run s = ⟨[], .ok ()⟩ := fun n hn =>
    advisoryLock_run (by simpa using hcontrol) hn
  unfold acquireProjectLocks
  rw [Program.bind_of_pure (realDirectory_run hroot),
    Program.bind_of_pure (realDirectory_run hcontrol),
    Program.bind_of_pure (hlock _ h.reconcile)]
  exact hlock _ h.runtime

/-- Where nothing else is under way, the way to the transactions is clear. -/
theorem unfinished_clear {transactionId : String} (hlocal : s.Clear localDir)
    (h : unfinishedExternalState around transactionId s = none) :
    s.Clear workspaceTransactionRoot := by
  have hroot : unfinishedIn around (workspaceTransaction transactionId) workspaceTransactionRoot
      s = none := by
    unfold unfinishedExternalState at h
    split at h
    · cases h
    · exact List.findSome?_eq_none_iff.mp h _ (by simp)
  refine ⟨hlocal.1, fun q hq => ?_⟩
  rcases List.prefix_concat_iff.mp (show q <+: localDir ++ ["workspace-transactions"] from hq) with
    rfl | hq'
  · change s.get workspaceTransactionRoot = none ∨ s.realDir workspaceTransactionRoot
    unfold unfinishedIn at hroot
    match hget : s.get workspaceTransactionRoot with
    | none => exact Or.inl rfl
    | some (.dir m) => exact Or.inr ⟨m, hget⟩
    | some (.file c m) => simp [DirTree.isSymlink, DirTree.exists, DirTree.isDir, hget] at hroot
    | some (.symlink k) => simp [DirTree.isSymlink, hget] at hroot
  · exact hlocal.2 q hq'

/-! ### What a registration shows -/

section Stands

variable {j : RegistrationJournal} {w r g : Option (Node Content)}

/-- A registration on disk: its journal, the workspace and the replay file, with the locks and
the ignore file beside them. -/
structure Stands (j : RegistrationJournal) (w r g : Option (Node Content)) (s : FS) : Prop where
  shape : s.WellFormed
  locked : Locked s
  ignore : s.get ignorePath = g
  journal : ∃ m, s.get (workspaceTransaction j.transactionId) = some (.file (.registration j) m)
  workspace : s.get workspacePath = w
  replay : s.get replayPath = r

def RegistrationPath (transactionId : String) (q : Path) : Prop :=
  q = lockFile "reconcile.lock" ∨ q = lockFile "runtime-state.lock" ∨ q = ignorePath ∨
    q = workspaceTransaction transactionId ∨ q = workspacePath ∨ q = replayPath

theorem ignorePath_steady : Steady ignorePath := by
  intro d
  constructor
  · rintro ⟨x, -, -, hx⟩
    have := congrArg (fun p => (name p).toList) hx
    simp [ignorePath, name, casPrefix] at this
  · rintro p ⟨x, -, -, hx⟩
    have := congrArg (fun p => (name p).toList.count '.') hx
    simp [ignorePath, name, rewritePrefix, List.count_append] at this

theorem registrationPath_steady {transactionId : String} (hid : transactionId.toList ≠ [])
    {q : Path} (hq : RegistrationPath transactionId q) : Steady q := by
  rcases hq with rfl | rfl | rfl | rfl | rfl | rfl
  · exact steady_of_head (c := 'r') rfl (by decide)
  · exact steady_of_head (c := 'r') rfl (by decide)
  · exact ignorePath_steady
  · exact steady_of_suffix (by rw [workspaceTransaction, name_append]; exact suffix_journalName hid)
  · exact steady_of_head (c := 'w') rfl (by decide)
  · exact steady_of_head (c := 'a') rfl (by decide)

/-- The view of a store whose registration stands. -/
theorem Stands.watches (h : Stands j w r g s) (hid : j.transactionId.toList ≠ []) :
    Watches (RegistrationPath j.transactionId) s.get s :=
  ⟨h.shape, fun _ _ => rfl, fun _ hq => registrationPath_steady hid hq⟩

theorem reaches_transactions (hwf : s.WellFormed) {transactionId : String} {n : Node Content}
    (h : s.get (workspaceTransaction transactionId) = some n) :
    s.Reaches workspaceTransactionRoot := by
  apply hwf.reaches
  apply hwf.parent_realDir (n := transactionId ++ ".json")
  rw [workspaceTransaction] at h
  rw [h]
  rfl

theorem Stands.reaches (h : Stands j w r g s) : s.Reaches workspaceTransactionRoot := by
  obtain ⟨m, hget⟩ := h.journal
  exact reaches_transactions h.shape hget

theorem Stands.locals (h : Stands j w r g s) : s.realDir localDir :=
  h.reaches _ (by decide)

theorem workspaceTransaction_ne {transactionId : String} {q : Path} (hq : q.length ≤ 3) :
    q ≠ workspaceTransaction transactionId := by
  rintro rfl
  simp [workspaceTransaction, workspaceTransactionRoot] at hq

/-- Nothing changed at the watched paths. -/
theorem Stands.kept (h : Stands j w r g s)
    (ht : Watches (RegistrationPath j.transactionId) s.get t) : Stands j w r g t := by
  have hsame : ∀ q, RegistrationPath j.transactionId q → t.get q = s.get q := ht.shows
  refine ⟨ht.shape, ⟨?_, ?_⟩, ?_, ?_, ?_, ?_⟩
  · rw [hsame _ (Or.inl rfl)]
    exact h.locked.reconcile
  · rw [hsame _ (Or.inr (Or.inl rfl))]
    exact h.locked.runtime
  · rw [hsame _ (by simp [RegistrationPath])]
    exact h.ignore
  · rw [hsame _ (by simp [RegistrationPath])]
    exact h.journal
  · rw [hsame _ (by simp [RegistrationPath])]
    exact h.workspace
  · rw [hsame _ (by simp [RegistrationPath])]
    exact h.replay

/-- A watched path other than the changed one. -/
private theorem same {transactionId : String} {p q : Path} {n : Option (Node Content)}
    (ht : Watches (RegistrationPath transactionId) (Function.update s.get p n) t)
    (hq : RegistrationPath transactionId q) (hne : q ≠ p) : t.get q = s.get q := by
  rw [ht.shows q hq, Function.update_of_ne hne]

/-- The locks and the ignore file are beside whatever a registration changes. -/
private theorem Stands.beside (h : Stands j w r g s) {transactionId : String} {p : Path}
    {n : Option (Node Content)}
    (ht : Watches (RegistrationPath transactionId) (Function.update s.get p n) t)
    (hp : 3 ≤ p.length) : Locked t ∧ t.get ignorePath = g := by
  have hne : ∀ q : Path, q.length ≤ 2 → q ≠ p := by
    rintro q hq rfl
    omega
  refine ⟨⟨?_, ?_⟩, ?_⟩
  · rw [same ht (by simp [RegistrationPath]) (hne _ (by decide))]
    exact h.locked.reconcile
  · rw [same ht (by simp [RegistrationPath]) (hne _ (by decide))]
    exact h.locked.runtime
  · rw [same ht (by simp [RegistrationPath]) (hne _ (by decide))]
    exact h.ignore

theorem Stands.put_workspace (h : Stands j w r g s) {n : Option (Node Content)}
    (ht : Watches (RegistrationPath j.transactionId) (Function.update s.get workspacePath n) t) :
    Stands j n r g t := by
  obtain ⟨hlocked, hignore⟩ := h.beside ht (by decide)
  refine ⟨ht.shape, hlocked, hignore, ?_, ?_, ?_⟩
  · rw [same ht (by simp [RegistrationPath]) (workspaceTransaction_ne (by decide)).symm]
    exact h.journal
  · rw [ht.shows _ (by simp [RegistrationPath]), Function.update_self]
  · rw [same ht (by simp [RegistrationPath]) (by decide)]
    exact h.replay

theorem Stands.put_replay (h : Stands j w r g s) {n : Option (Node Content)}
    (ht : Watches (RegistrationPath j.transactionId) (Function.update s.get replayPath n) t) :
    Stands j w n g t := by
  obtain ⟨hlocked, hignore⟩ := h.beside ht (by decide)
  refine ⟨ht.shape, hlocked, hignore, ?_, ?_, ?_⟩
  · rw [same ht (by simp [RegistrationPath]) (workspaceTransaction_ne (by decide)).symm]
    exact h.journal
  · rw [same ht (by simp [RegistrationPath]) (by decide)]
    exact h.workspace
  · rw [ht.shows _ (by simp [RegistrationPath]), Function.update_self]

theorem Stands.put_journal (h : Stands j w r g s) {j' : RegistrationJournal}
    {m : FileTree.Mode} (hid : j'.transactionId = j.transactionId)
    (ht : Watches (RegistrationPath j.transactionId) (Function.update s.get
      (workspaceTransaction j.transactionId) (some (.file (.registration j') m))) t) :
    Stands j' w r g t := by
  obtain ⟨hlocked, hignore⟩ := h.beside ht
    (by simp [workspaceTransaction, workspaceTransactionRoot])
  refine ⟨ht.shape, hlocked, hignore, ⟨m, ?_⟩, ?_, ?_⟩
  · rw [hid, ht.shows _ (by simp [RegistrationPath]), Function.update_self]
  · rw [same ht (by simp [RegistrationPath]) (workspaceTransaction_ne (by decide))]
    exact h.workspace
  · rw [same ht (by simp [RegistrationPath]) (workspaceTransaction_ne (by decide))]
    exact h.replay

/-! ### Steps -/

theorem workspaceUuid_ne_nil {value field : String} {u : Unit}
    (h : workspaceUuid value field = .ok u) : value.toList ≠ [] := by
  intro hn
  have hnone : parseUuid (String.ofList []) = none := by decide
  rw [← String.ofList_toList (s := value), hn, workspaceUuid, hnone] at h
  cases h

/-- Everything a registration journal is checked for. -/
theorem validateRegistration_ok : validateRegistration host j = .ok () ↔
    workspaceUuid j.transactionId "transaction_id" = .ok () ∧
      workspaceUuid j.projectId "project_id" = .ok () ∧
      workspaceUuid j.workspaceInstanceId "workspace_instance_id" = .ok () ∧
      j.workspaceCandidateDigest = host.hashBytes (.workspace j.workspaceCandidate) ∧
      j.replayCandidateDigest = host.hashBytes (.replayLedger j.replayCandidate) := by
  unfold validateRegistration
  cases workspaceUuid j.transactionId "transaction_id" with
  | error e => simp
  | ok a =>
    cases workspaceUuid j.projectId "project_id" with
    | error e => simp
    | ok b =>
      cases workspaceUuid j.workspaceInstanceId "workspace_instance_id" with
      | error e => simp
      | ok c =>
        simp only [bind_ok_eq, true_and]
        split
        · next h => simp only [reduceCtorEq, false_iff]; tauto
        · next h => simp only [true_iff]; tauto

theorem validateRegistration_moved {phase : RegistrationPhase} {rollbackState : Option Bool}
    (h : validateRegistration host j = .ok ()) :
    validateRegistration host (j.moved phase rollbackState) = .ok () :=
  validateRegistration_ok.mpr (validateRegistration_ok.mp h)

/-- The workspace file is created where it is absent. -/
theorem createWorkspace_stands {relation : Relation} {c : Content}
    (hid : j.transactionId.toList ≠ []) (h : Stands j w r g s)
    (hw : relation = .absent ↔ w = none) :
    Triple (· = s) (createLocal host relation workspacePath c)
      (Returns fun _ => Stands j (w.or (some (.file c 0o600))) r g)
      (fun u => Stands j w r g u ∨ Stands j (w.or (some (.file c 0o600))) r g u) := by
  unfold createLocal
  by_cases habs : relation = .absent
  · obtain rfl := hw.mp habs
    rw [if_pos habs]
    have hswap := (h.watches hid).swap host (absentState workspacePath none)
      (.regular workspacePath c 0o600 none) rfl (by simp [regularState, workspacePath])
      (by simp [RegistrationPath, regularState]) h.locals
      (by simp [regularState, h.workspace, describe, absentState]) (by simp [absentState])
    refine (hswap.ignore fun _ t ht => h.put_workspace ht).crash fun u hu => ?_
    rcases hu with hu | hu
    · exact Or.inl (h.kept hu)
    · exact Or.inr (h.put_workspace hu)
  · rw [if_neg habs]
    obtain ⟨n, rfl⟩ := Option.ne_none_iff_exists'.mp (mt hw.mpr habs)
    exact Triple.returns h

theorem createReplay_stands {relation : Relation} {c : Content}
    (hid : j.transactionId.toList ≠ []) (h : Stands j w r g s)
    (hr : relation = .absent ↔ r = none) :
    Triple (· = s) (createLocal host relation replayPath c)
      (Returns fun _ => Stands j w (r.or (some (.file c 0o600))) g)
      (fun u => Stands j w r g u ∨ Stands j w (r.or (some (.file c 0o600))) g u) := by
  unfold createLocal
  by_cases habs : relation = .absent
  · obtain rfl := hr.mp habs
    rw [if_pos habs]
    have hswap := (h.watches hid).swap host (absentState replayPath none)
      (.regular replayPath c 0o600 none) rfl (by simp [regularState, replayPath])
      (by simp [RegistrationPath, regularState]) h.locals
      (by simp [regularState, h.replay, describe, absentState]) (by simp [absentState])
    refine (hswap.ignore fun _ t ht => h.put_replay ht).crash fun u hu => ?_
    rcases hu with hu | hu
    · exact Or.inl (h.kept hu)
    · exact Or.inr (h.put_replay hu)
  · rw [if_neg habs]
    obtain ⟨n, rfl⟩ := Option.ne_none_iff_exists'.mp (mt hr.mpr habs)
    exact Triple.returns h

/-- The workspace file is removed where it is the candidate. -/
theorem removeWorkspace_stands {relation : Relation} {document : Content}
    (hid : j.transactionId.toList ≠ []) (h : Stands j w r g s)
    (hw : relation = .candidate →
      describe host workspacePath none w = .ok (localCandidate host workspacePath document))
    (hnone : relation ≠ .candidate → w = none) :
    Triple (· = s) (removeLocal host relation workspacePath document)
      (Returns fun _ => Stands j none r g)
      (fun u => Stands j w r g u ∨ Stands j none r g u) := by
  unfold removeLocal
  by_cases hcand : relation = .candidate
  · rw [if_pos hcand]
    have hswap := (h.watches hid).swap host
      (localCandidate host workspacePath document) (.absent workspacePath) rfl
      (by simp [absentState, workspacePath]) (by simp [RegistrationPath, absentState]) h.locals
      (by simpa [absentState, localCandidate, regularState, h.workspace] using hw hcand)
      (by simp [localCandidate, regularState])
    refine (hswap.ignore fun _ t ht => h.put_workspace ht).crash fun u hu => ?_
    rcases hu with hu | hu
    · exact Or.inl (h.kept hu)
    · exact Or.inr (h.put_workspace hu)
  · rw [if_neg hcand]
    obtain rfl := hnone hcand
    exact Triple.returns h

theorem loadRegistration_stands (hvalid : validateRegistration host j = .ok ())
    (h : Stands j w r g s) : loadRegistration host j.transactionId s = .ok j := by
  obtain ⟨m, hget⟩ := h.journal
  simp [loadRegistration, hget, hvalid]

/-- A journal moves on, with what it records of a rollback. -/
theorem advanceRegistration_stands {phase : RegistrationPhase} {rollbackState : Option Bool}
    (hvalid : validateRegistration host j = .ok ()) (h : Stands j w r g s)
    (hle : j.phase.rank ≤ phase.rank) :
    Triple (· = s) (advanceRegistration host j phase rollbackState)
      (Returns fun j' t => j' = j.moved phase rollbackState ∧
        Stands (j.moved phase rollbackState) w r g t)
      (fun u => Stands j w r g u ∨ Stands (j.moved phase rollbackState) w r g u) := by
  have hid : j.transactionId.toList ≠ [] :=
    workspaceUuid_ne_nil (validateRegistration_ok.mp hvalid).1
  obtain ⟨m, hget⟩ := h.journal
  have hcheck : checkRegistration host (j.moved phase rollbackState) s = .ok () := by
    have hload : loadRegistration host (j.moved phase rollbackState).transactionId s = .ok j :=
      loadRegistration_stands hvalid h
    unfold checkRegistration
    rw [hload]
    simp [RegistrationJournal.moved, Nat.not_lt.mpr hle]
  have hpar : parent (workspaceTransaction j.transactionId) = workspaceTransactionRoot :=
    parent_append _ _
  have hrewrite := (h.watches hid).rewrite host (p := workspaceTransaction j.transactionId)
    (c := .registration (j.moved phase rollbackState)) (by simp [workspaceTransaction])
    (by simp [RegistrationPath]) (by rw [hpar]; exact h.reaches _ List.prefix_rfl)
    (by rw [hget]; simp)
  unfold advanceRegistration writeRegistration
  refine Triple.bind_returns (R := fun _ => Stands (j.moved phase rollbackState) w r g) ?_
    fun _ => Triple.of_forall fun t ht => Triple.returns ⟨rfl, ht⟩
  refine Triple.bind_run (by rw [Program.lift_run, validateRegistration_moved hvalid]) ?_
  refine Triple.bind_run (by rw [Program.inspect_run, hcheck]) ?_
  unfold putDocument
  refine Triple.bind_run (mkdirs_run ?_) ?_
  · show s.Reaches (parent (workspaceTransaction j.transactionId))
    rw [hpar]
    exact h.reaches
  refine hrewrite.weaken (fun _ hs => hs) ?_ fun u hu => ?_
  · rintro o t ⟨a, ho, ht⟩
    exact ⟨a, ho, h.put_journal rfl ht⟩
  · rcases hu with hu | hu
    · exact Or.inl (h.kept hu)
    · exact Or.inr (h.put_journal rfl hu)

/-! ### Relations -/

/-- How a file compares with its candidate. -/
def nodeRelation (host : Host) (path : Path) (document : Content) (n : Option (Node Content)) :
    Except Failure Relation := do
  let observed ← describe host path none n
  return if observed = absentState path none then .absent
    else if observed = localCandidate host path document then .candidate
    else .third

variable (host) in
theorem candidateRelation_eq {p : Path} (h : s.Clear (parent p)) (document : Content) :
    candidateRelation host p document s = nodeRelation host p document (s.get p) := by
  rw [candidateRelation, observeFileState_eq host h]
  rfl

theorem Stands.workspaceRelation (h : Stands j w r g s) (document : Content) :
    candidateRelation host workspacePath document s =
      nodeRelation host workspacePath document w := by
  rw [candidateRelation_eq host (h.shape.reaches h.locals).clear, h.workspace]

theorem Stands.replayRelation (h : Stands j w r g s) (document : Content) :
    candidateRelation host replayPath document s = nodeRelation host replayPath document r := by
  rw [candidateRelation_eq host (h.shape.reaches h.locals).clear, h.replay]

variable (host) in
theorem nodeRelation_absent {p : Path} {document : Content} {n : Option (Node Content)} :
    nodeRelation host p document n = .ok .absent ↔ n = none := by
  constructor
  · intro h
    obtain ⟨observed, hobs, h⟩ := bind_eq_ok h
    split at h
    · next heq =>
      subst heq
      match n with
      | none => rfl
      | some (.file c m) => cases hobs
      | some (.dir m) => cases hobs
      | some (.symlink k) => cases hobs
    · split at h <;> cases h
  · rintro rfl
    simp [nodeRelation, describe]

theorem nodeRelation_candidate {p : Path} {document : Content} {n : Option (Node Content)}
    (h : nodeRelation host p document n = .ok .candidate) :
    describe host p none n = .ok (localCandidate host p document) := by
  obtain ⟨observed, hobs, h⟩ := bind_eq_ok h
  split at h
  · cases h
  · split at h
    · next heq => rw [hobs, heq]
    · cases h

theorem nodeRelation_document (host : Host) (p : Path) (document : Content) :
    nodeRelation host p document (some (.file document 0o600)) = .ok .candidate := by
  simp [nodeRelation, describe, localCandidate, regularState, absentState]

/-! ### Commit and rollback -/

/-- The journal at a phase it had reached before or reaches now. -/
def RegistrationJournal.reached (j : RegistrationJournal) (phase : RegistrationPhase) :
    RegistrationJournal :=
  if j.phase.rank < phase.rank then j.moved phase none else j

theorem RegistrationJournal.reached_rank (j : RegistrationJournal) (phase : RegistrationPhase) :
    (j.reached phase).phase.rank = max j.phase.rank phase.rank := by
  unfold RegistrationJournal.reached
  split
  · simp only [RegistrationJournal.moved]
    omega
  · omega

@[simp] theorem RegistrationJournal.reached_transactionId (phase : RegistrationPhase) :
    (j.reached phase).transactionId = j.transactionId := by
  unfold RegistrationJournal.reached
  split <;> rfl

@[simp] theorem RegistrationJournal.reached_workspaceCandidate (phase : RegistrationPhase) :
    (j.reached phase).workspaceCandidate = j.workspaceCandidate := by
  unfold RegistrationJournal.reached
  split <;> rfl

@[simp] theorem RegistrationJournal.reached_replayCandidate (phase : RegistrationPhase) :
    (j.reached phase).replayCandidate = j.replayCandidate := by
  unfold RegistrationJournal.reached
  split <;> rfl

@[simp] theorem RegistrationJournal.reached_rollbackState (phase : RegistrationPhase) :
    (j.reached phase).rollbackState = j.rollbackState := by
  unfold RegistrationJournal.reached
  split <;> rfl

theorem validateRegistration_reached (phase : RegistrationPhase)
    (h : validateRegistration host j = .ok ()) :
    validateRegistration host (j.reached phase) = .ok () := by
  unfold RegistrationJournal.reached
  split
  · exact validateRegistration_moved h
  · exact h

theorem reachRegistration_stands {phase : RegistrationPhase}
    (hvalid : validateRegistration host j = .ok ()) (h : Stands j w r g s) :
    Triple (· = s) (reachRegistration host j phase)
      (Returns fun j' t => j' = j.reached phase ∧ Stands (j.reached phase) w r g t)
      (fun u => Stands j w r g u ∨ Stands (j.reached phase) w r g u) := by
  unfold reachRegistration RegistrationJournal.reached
  by_cases hlt : j.phase.rank < phase.rank
  · rw [if_pos hlt, if_pos hlt]
    exact advanceRegistration_stands hvalid h (by omega)
  · rw [if_neg hlt, if_neg hlt]
    exact Triple.returns ⟨rfl, h⟩

section Commit

/-- A store in which some registration within `P` stands. -/
def StandsIn (P : RegistrationJournal → Option (Node Content) → Option (Node Content) → Prop)
    (g : Option (Node Content)) (u : FS) : Prop :=
  ∃ j w r, P j w r ∧ Stands j w r g u

variable {P : RegistrationJournal → Option (Node Content) → Option (Node Content) → Prop}

def RegistrationJournal.workspaceFile (j : RegistrationJournal) : Node Content :=
  .file (.workspace j.workspaceCandidate) 0o600

def RegistrationJournal.replayFile (j : RegistrationJournal) : Node Content :=
  .file (.replayLedger j.replayCandidate) 0o600

/-- Another moment of one registration. -/
def SameRegistration (j j' : RegistrationJournal) : Prop :=
  j' = { j with phase := j'.phase, rollbackState := j'.rollbackState }

theorem SameRegistration.refl (j : RegistrationJournal) : SameRegistration j j := rfl

theorem SameRegistration.trans {j j' j'' : RegistrationJournal} (h : SameRegistration j j')
    (h' : SameRegistration j' j'') : SameRegistration j j'' := by
  unfold SameRegistration at h h' ⊢
  rw [h', h]

theorem SameRegistration.moved {j' : RegistrationJournal} {phase : RegistrationPhase}
    {rollbackState : Option Bool} (h : SameRegistration j j') :
    SameRegistration j (j'.moved phase rollbackState) := by
  unfold SameRegistration at h ⊢
  rw [h]
  rfl

theorem SameRegistration.reached {j' : RegistrationJournal} (phase : RegistrationPhase)
    (h : SameRegistration j j') : SameRegistration j (j'.reached phase) := by
  unfold RegistrationJournal.reached
  split
  · exact h.moved
  · exact h

theorem SameRegistration.valid {j' : RegistrationJournal} (h : SameRegistration j j')
    (hvalid : validateRegistration host j = .ok ()) : validateRegistration host j' = .ok () := by
  rw [validateRegistration_ok] at hvalid ⊢
  rw [h]
  exact hvalid

theorem SameRegistration.files {j' : RegistrationJournal} (h : SameRegistration j j') :
    j'.workspaceFile = j.workspaceFile ∧ j'.replayFile = j.replayFile := by
  rw [h]
  exact ⟨rfl, rfl⟩

/-- The moments of a commit. -/
structure CommitPath (j : RegistrationJournal) (w r : Option (Node Content))
    (P : RegistrationJournal → Option (Node Content) → Option (Node Content) → Prop) : Prop where
  start : P j w r
  workspace : P j (w.or (some j.workspaceFile)) r
  written : P (j.reached .workspaceWritten) (w.or (some j.workspaceFile)) r
  later : ∀ j', SameRegistration j j' → j'.rollbackState = j.rollbackState →
    P j' (w.or (some j.workspaceFile)) (r.or (some j.replayFile))

theorem Triple.standing {α : Type} {p : Prog α} {Q : Except Failure α → FS → Prop}
    {j' : RegistrationJournal} {w' r' : Option (Node Content)}
    (h : Triple (· = s) p Q fun u => Stands j w r g u ∨ Stands j' w' r' g u) (h₁ : P j w r)
    (h₂ : P j' w' r') : Triple (· = s) p Q (StandsIn P g) := by
  refine h.crash fun u hu => ?_
  rcases hu with hu | hu
  · exact ⟨_, _, _, h₁, hu⟩
  · exact ⟨_, _, _, h₂, hu⟩

/-- A commit creates what is absent and takes the journal to its end. -/
theorem commitRegistration_stands {workspaceRelation replayRelation : Relation}
    (hvalid : validateRegistration host j = .ok ()) (h : Stands j w r g s)
    (hw : workspaceRelation = .absent ↔ w = none) (hr : replayRelation = .absent ↔ r = none)
    (hP : CommitPath j w r P) :
    Triple (· = s) (commitRegistration host j workspaceRelation replayRelation)
      (Returns fun result t => result.committed = true ∧ ∃ j', SameRegistration j j' ∧
        j'.phase.rank = 4 ∧ j'.rollbackState = j.rollbackState ∧
        Stands j' (w.or (some j.workspaceFile)) (r.or (some j.replayFile)) g t)
      (StandsIn P g) := by
  have hid : j.transactionId.toList ≠ [] :=
    workspaceUuid_ne_nil (validateRegistration_ok.mp hvalid).1
  have h₁ := (SameRegistration.refl j).reached .workspaceWritten
  have h₂ := h₁.reached .registrationCommitted
  have h₃ := h₂.reached .cleanupPending
  have h₄ := h₃.reached .complete
  have hvalid₁ := validateRegistration_reached .workspaceWritten hvalid
  have hvalid₂ := validateRegistration_reached .registrationCommitted hvalid₁
  have hvalid₃ := validateRegistration_reached .cleanupPending hvalid₂
  unfold commitRegistration
  refine (Triple.standing (createWorkspace_stands hid h hw) hP.start hP.workspace).bind_returns
    fun _ => Triple.of_forall fun s₁ hs₁ => ?_
  refine (Triple.standing (reachRegistration_stands hvalid hs₁) hP.workspace
    hP.written).bind_returns fun j₁ => Triple.of_forall ?_
  rintro s₂ ⟨rfl, hs₂⟩
  rw [RegistrationJournal.reached_replayCandidate]
  refine (Triple.standing (createReplay_stands (by simpa using hid) hs₂ hr) hP.written
    (hP.later _ h₁ (by simp))).bind_returns fun _ => Triple.of_forall fun s₃ hs₃ => ?_
  refine (Triple.standing (reachRegistration_stands hvalid₁ hs₃) (hP.later _ h₁ (by simp))
    (hP.later _ h₂ (by simp))).bind_returns fun j₂ => Triple.of_forall ?_
  rintro s₄ ⟨rfl, hs₄⟩
  refine (Triple.standing (reachRegistration_stands hvalid₂ hs₄) (hP.later _ h₂ (by simp))
    (hP.later _ h₃ (by simp))).bind_returns fun j₃ => Triple.of_forall ?_
  rintro s₅ ⟨rfl, hs₅⟩
  refine (Triple.standing (reachRegistration_stands hvalid₃ hs₅) (hP.later _ h₃ (by simp))
    (hP.later _ h₄ (by simp))).bind_returns fun j₄ => Triple.of_forall ?_
  rintro s₆ ⟨rfl, hs₆⟩
  refine Triple.returns ⟨rfl, _, h₄, ?_, by simp, hs₆⟩
  simp only [RegistrationJournal.reached_rank]
  cases j.phase <;> decide

/-- The moments of a rollback. -/
structure RollbackPath (j : RegistrationJournal) (w r : Option (Node Content))
    (P : RegistrationJournal → Option (Node Content) → Option (Node Content) → Prop) : Prop where
  start : P j w r
  removed : P j none r
  later : ∀ j', SameRegistration j j' → j'.rollbackState = some true → 3 ≤ j'.phase.rank →
    P j' none r

/-- A rollback removes the workspace file, and ends the journal unless it has ended. -/
theorem rollbackRegistration_stands {workspaceRelation : Relation}
    (hvalid : validateRegistration host j = .ok ()) (h : Stands j w r g s)
    (hw : workspaceRelation = .candidate → describe host workspacePath none w =
      .ok (localCandidate host workspacePath (.workspace j.workspaceCandidate)))
    (hnone : workspaceRelation ≠ .candidate → w = none) (hP : RollbackPath j w r P)
    (hphase : j.phase.rank < 4) :
    Triple (· = s) (rollbackRegistration host j workspaceRelation)
      (Returns fun result t => result.committed = false ∧ ∃ j', SameRegistration j j' ∧
        j'.phase.rank = 4 ∧ j'.rollbackState = some true ∧ Stands j' none r g t)
      (StandsIn P g) := by
  have hid : j.transactionId.toList ≠ [] :=
    workspaceUuid_ne_nil (validateRegistration_ok.mp hvalid).1
  have h₁ : SameRegistration j (j.moved .cleanupPending (some true)) := rfl
  have h₂ : SameRegistration j ((j.moved .cleanupPending (some true)).moved .complete none) := rfl
  have hp₁ := hP.later _ h₁ rfl (show 3 ≤ RegistrationPhase.cleanupPending.rank by decide)
  have hp₂ := hP.later _ h₂ rfl (show 3 ≤ RegistrationPhase.complete.rank by decide)
  unfold rollbackRegistration
  refine (Triple.standing (removeWorkspace_stands hid h hw hnone) hP.start hP.removed).bind_returns
    fun _ => Triple.of_forall fun s₁ hs₁ => ?_
  refine (Triple.standing (advanceRegistration_stands hvalid hs₁
    (by show j.phase.rank ≤ 3; omega)) hP.removed hp₁).bind_returns fun j₁ => Triple.of_forall ?_
  rintro s₂ ⟨rfl, hs₂⟩
  refine (Triple.standing (advanceRegistration_stands (validateRegistration_moved hvalid) hs₂
    (show RegistrationPhase.cleanupPending.rank ≤ RegistrationPhase.complete.rank by decide))
    hp₁ hp₂).bind_returns fun j₂ => Triple.of_forall ?_
  rintro s₃ ⟨rfl, hs₃⟩
  exact Triple.returns ⟨rfl, _, h₂, rfl, rfl, hs₃⟩

/-- Once its journal is complete, a rollback removes the workspace file all the same, and then
raises. -/
theorem rollbackRegistration_complete {workspaceRelation : Relation}
    (hvalid : validateRegistration host j = .ok ()) (h : Stands j w r g s)
    (hw : workspaceRelation = .candidate → describe host workspacePath none w =
      .ok (localCandidate host workspacePath (.workspace j.workspaceCandidate)))
    (hnone : workspaceRelation ≠ .candidate → w = none) (hstart : P j w r)
    (hremoved : P j none r) (hphase : j.phase.rank = 4) :
    Triple (· = s) (rollbackRegistration host j workspaceRelation)
      (Raises (Stands j none r g)) (StandsIn P g) := by
  have hid : j.transactionId.toList ≠ [] :=
    workspaceUuid_ne_nil (validateRegistration_ok.mp hvalid).1
  unfold rollbackRegistration
  refine (Triple.standing (removeWorkspace_stands hid h hw hnone) hstart hremoved).bind_returns
    fun _ => Triple.of_forall fun s₁ hs₁ => ?_
  have hcheck : ∃ e,
      checkRegistration host (j.moved .cleanupPending (some true)) s₁ = .error e := by
    have hload : loadRegistration host (j.moved .cleanupPending (some true)).transactionId s₁ =
        .ok j := loadRegistration_stands hvalid hs₁
    obtain ⟨m, hget⟩ := hs₁.journal
    have hexists : s₁.exists (workspaceTransaction
        (j.moved .cleanupPending (some true)).transactionId) = true := by
      show s₁.exists (workspaceTransaction j.transactionId) = true
      simp [DirTree.exists, hget]
    have hlt : RegistrationPhase.cleanupPending.rank < j.phase.rank := by
      rw [hphase]
      decide
    unfold checkRegistration
    simp only [hexists, Bool.true_or, if_true, hload, bind_ok_eq]
    exact ⟨_, by simp [RegistrationJournal.moved, hlt]; rfl⟩
  obtain ⟨e, he⟩ := hcheck
  have hrun : (advanceRegistration host j .cleanupPending (some true)).run s₁ = ⟨[], .error e⟩ := by
    unfold advanceRegistration writeRegistration
    apply Program.bind_of_error
    rw [Program.bind_of_pure (by rw [Program.lift_run, validateRegistration_moved hvalid])]
    exact Program.bind_of_error (by rw [Program.inspect_run, he])
  intro t ht
  subst ht
  unfold Program.out Program.final
  rw [Program.bind_of_error hrun]
  exact ⟨by simp, ⟨e, rfl⟩, hs₁⟩

/-- The files are those of another clone, or of no registration. -/
def Foreign (workspaceRelation replayRelation : Relation) : Prop :=
  workspaceRelation = .third ∨ replayRelation = .third ∨
    replayRelation = .candidate ∧ workspaceRelation ≠ .candidate

instance (a b : Relation) : Decidable (Foreign a b) := by unfold Foreign; infer_instance

/-- How both files compare with their candidates. -/
structure Compared (host : Host) (j : RegistrationJournal) (w r : Option (Node Content))
    (workspaceRelation replayRelation : Relation) : Prop where
  workspace : nodeRelation host workspacePath (.workspace j.workspaceCandidate) w =
    .ok workspaceRelation
  replay : nodeRelation host replayPath (.replayLedger j.replayCandidate) r = .ok replayRelation

variable {workspaceRelation replayRelation : Relation}

theorem resumeOrRollback_compare (h : Stands j w r g s)
    (hc : Compared host j w r workspaceRelation replayRelation) (action : RecoveryAction) :
    (resumeOrRollback host action j).run s =
      (if Foreign workspaceRelation replayRelation then
        Program.throw (registrationRecovery
          "workspace registration recovery found an external third state" [])
      else match action with
        | .rollback =>
          if workspaceRelation = .candidate ∧ replayRelation = .candidate then
            Program.throw (registrationRecovery
              "committed workspace registration cannot be rolled back" [])
          else rollbackRegistration host j workspaceRelation
        | .resume => finishRegistration host j : Prog WorkspaceRegistrationResult).run s := by
  unfold resumeOrRollback
  rw [Program.bind_of_pure (by rw [Program.inspect_run, h.workspaceRelation, hc.workspace]),
    Program.bind_of_pure (by rw [Program.inspect_run, h.replayRelation, hc.replay])]
  rfl

theorem finishRegistration_compare (h : Stands j w r g s)
    (hc : Compared host j w r workspaceRelation replayRelation) :
    (finishRegistration host j).run s =
      (if Foreign workspaceRelation replayRelation then
        Program.throw (registrationRecovery
          "workspace registration encountered an external third state" [])
      else if RegistrationPhase.registrationCommitted.rank ≤ j.phase.rank ∧
          ¬ (workspaceRelation = .candidate ∧ replayRelation = .candidate) then
        Program.throw (registrationRecovery
          "committed workspace registration pair is missing or inconsistent" [])
      else commitRegistration host j workspaceRelation replayRelation :
        Prog WorkspaceRegistrationResult).run s := by
  unfold finishRegistration
  rw [Program.bind_of_pure (by rw [Program.inspect_run, h.workspaceRelation, hc.workspace]),
    Program.bind_of_pure (by rw [Program.inspect_run, h.replayRelation, hc.replay])]
  rfl

/-- Files that cannot be compared stop a recovery at once. -/
theorem resumeOrRollback_unreadable (h : Stands j w r g s) (action : RecoveryAction)
    (hc : ¬ ∃ a b, Compared host j w r a b) :
    ∃ e, (resumeOrRollback host action j).run s = ⟨[], .error e⟩ := by
  unfold resumeOrRollback
  cases hw : nodeRelation host workspacePath (.workspace j.workspaceCandidate) w with
  | error e =>
    exact ⟨e, Program.bind_of_error (by rw [Program.inspect_run, h.workspaceRelation, hw])⟩
  | ok a =>
    rw [Program.bind_of_pure (by rw [Program.inspect_run, h.workspaceRelation, hw])]
    cases hr : nodeRelation host replayPath (.replayLedger j.replayCandidate) r with
    | error e =>
      exact ⟨e, Program.bind_of_error (by rw [Program.inspect_run, h.replayRelation, hr])⟩
    | ok b => exact absurd ⟨a, b, hw, hr⟩ hc

end Commit

end Stands

end AgentStack.Runtime
