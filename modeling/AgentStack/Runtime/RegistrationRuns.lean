import AgentStack.Runtime.WorkspaceRuns

/-! Registrations cut short anywhere, and recovered in either direction any number of times. -/
namespace AgentStack.Runtime

open AgentStack.Core FileTree Crash Reconcile DirTree

variable {host : Host} {around : Surroundings} {request : RegistrationRequest} {s t : FS}
  {j : RegistrationJournal} {w r g : Option (Node Content)}

inductive RegistrationCall
  | register
  | recover (action : RecoveryAction)

def RegistrationCall.run (host : Host) (around : Surroundings) (request : RegistrationRequest) :
    RegistrationCall → Prog WorkspaceRegistrationResult
  | .register => registerWorkspace host around request
  | .recover action => recoverWorkspaceRegistration host around request.transactionId action

/-- The stores that calls for one registration lead to, each call cut short after any of its
effects or run to its end. -/
inductive RegistrationReach (host : Host) (request : RegistrationRequest) (s : FS) : FS → Prop
  | start : RegistrationReach host request s s
  | call {t u : FS} (around : Surroundings) (c : RegistrationCall)
    (h : RegistrationReach host request s t) (hu : u ∈ (c.run host around request).states t) :
    RegistrationReach host request s u

/-- What a journal says of the two files. -/
structure Sound (host : Host) (request : RegistrationRequest) (j : RegistrationJournal)
    (w r : Option (Node Content)) : Prop where
  same : SameRegistration (request.journal host) j
  valid : validateRegistration host j = .ok ()
  workspace : w = none ∨ w = some j.workspaceFile
  replay : r = none ∨ r = some j.replayFile ∧ w = some j.workspaceFile
  committed : 2 ≤ j.phase.rank → j.rollbackState = none → r ≠ none
  undone : j.rollbackState ≠ none → w = none ∧ r = none ∧ 3 ≤ j.phase.rank

theorem Sound.files_open (h : Sound host request j w r) (hr : r ≠ none) :
    j.rollbackState = none ∧ w = some j.workspaceFile ∧ r = some j.replayFile := by
  obtain ⟨hrep, hwork⟩ := h.replay.resolve_left hr
  refine ⟨?_, hwork, hrep⟩
  by_contra hback
  exact hr (h.undone hback).2.1

/-- The three ways the files compare with their candidates. -/
theorem Sound.compared (h : Sound host request j w r) :
    w = none ∧ r = none ∧ Compared host j w r .absent .absent ∨
      w = some j.workspaceFile ∧ r = none ∧ Compared host j w r .candidate .absent ∨
      w = some j.workspaceFile ∧ r = some j.replayFile ∧
        Compared host j w r .candidate .candidate := by
  have hworkspace := nodeRelation_document host workspacePath (.workspace j.workspaceCandidate)
  have hreplay := nodeRelation_document host replayPath (.replayLedger j.replayCandidate)
  rcases h.replay with rfl | ⟨rfl, rfl⟩
  · rcases h.workspace with rfl | rfl
    · exact Or.inl ⟨rfl, rfl, (nodeRelation_absent _).mpr rfl, (nodeRelation_absent _).mpr rfl⟩
    · exact Or.inr (Or.inl ⟨rfl, rfl, hworkspace, (nodeRelation_absent _).mpr rfl⟩)
  · exact Or.inr (Or.inr ⟨rfl, rfl, hworkspace, hreplay⟩)

/-! ### Resume -/

/-- Both files stand. -/
theorem Sound.both {j' : RegistrationJournal} (h : Sound host request j w r)
    (hsame : SameRegistration j j') (hopen : j'.rollbackState = none) :
    Sound host request j' (some j.workspaceFile) (some j.replayFile) := by
  obtain ⟨hwork, hrep⟩ := hsame.files
  refine ⟨h.same.trans hsame, hsame.valid h.valid, ?_, ?_, ?_, ?_⟩
  · rw [hwork]
    exact Or.inr rfl
  · rw [hwork, hrep]
    exact Or.inr ⟨rfl, rfl⟩
  · simp
  · exact fun hback => absurd hopen hback

theorem Sound.filled (h : Sound host request j w r) :
    w.or (some j.workspaceFile) = some j.workspaceFile ∧
      r.or (some j.replayFile) = some j.replayFile := by
  constructor
  · rcases h.workspace with rfl | rfl <;> rfl
  · rcases h.replay with rfl | ⟨rfl, -⟩ <;> rfl

theorem Sound.commitPath (h : Sound host request j w r) (hopen : j.rollbackState = none) :
    CommitPath j w r (Sound host request) := by
  obtain ⟨hw, hr⟩ := h.filled
  have hrep : r = none ∨ r = some j.replayFile := h.replay.imp_right And.left
  refine ⟨h, ?_, ?_, ?_⟩
  · rw [hw]
    exact ⟨h.same, h.valid, Or.inr rfl, hrep.imp_right fun hr => ⟨hr, rfl⟩, h.committed,
      fun hback => absurd hopen hback⟩
  · rw [hw]
    have hsame : SameRegistration j (j.reached .workspaceWritten) :=
      (SameRegistration.refl j).reached _
    obtain ⟨hwork, hreplay⟩ := hsame.files
    refine ⟨h.same.trans hsame, hsame.valid h.valid, ?_, ?_, ?_, ?_⟩
    · rw [hwork]
      exact Or.inr rfl
    · rw [hwork, hreplay]
      exact hrep.imp_right fun hr => ⟨hr, rfl⟩
    · rw [RegistrationJournal.reached_rank]
      intro hrank _
      apply h.committed ?_ hopen
      change 2 ≤ max j.phase.rank 1 at hrank
      omega
    · rw [RegistrationJournal.reached_rollbackState]
      exact fun hback => absurd hopen hback
  · intro j' hsame hback
    rw [hw, hr]
    exact h.both hsame (hback.trans hopen)

/-- As long as no rollback is recorded, a resume commits. -/
theorem resume_commits (h : Sound host request j w r) (hs : Stands j w r g s)
    (hopen : j.rollbackState = none) :
    Triple (· = s) (resumeOrRollback host .resume j)
      (Returns fun result t => result.committed = true ∧ ∃ j', Sound host request j'
        (some j.workspaceFile) (some j.replayFile) ∧
        Stands j' (some j.workspaceFile) (some j.replayFile) g t)
      (StandsIn (Sound host request) g) := by
  obtain ⟨hw, hr⟩ := h.filled
  have hcommit : ∀ a b, Compared host j w r a b → ¬ Foreign a b →
      (2 ≤ j.phase.rank → a = .candidate ∧ b = .candidate) →
      Triple (· = s) (resumeOrRollback host .resume j)
        (Returns fun result t => result.committed = true ∧ ∃ j', Sound host request j'
          (some j.workspaceFile) (some j.replayFile) ∧
          Stands j' (some j.workspaceFile) (some j.replayFile) g t)
        (StandsIn (Sound host request) g) := by
    intro a b hc hforeign hdone
    have hrun := resumeOrRollback_compare hs hc .resume
    rw [if_neg hforeign] at hrun
    refine Triple.of_run_eq hrun (Triple.of_run_eq (finishRegistration_compare hs hc) ?_)
    rw [if_neg hforeign, if_neg fun hphase => hphase.2 (hdone hphase.1)]
    have habs : (a = .absent ↔ w = none) ∧ (b = .absent ↔ r = none) := by
      constructor
      · rw [← nodeRelation_absent host (p := workspacePath), hc.workspace,
          Except.ok.injEq]
      · rw [← nodeRelation_absent host (p := replayPath), hc.replay, Except.ok.injEq]
    refine (commitRegistration_stands h.valid hs habs.1 habs.2 (h.commitPath hopen)).post ?_
    rintro o t ⟨result, ho, hcommitted, j', hsame, -, hback, hs'⟩
    rw [hw, hr] at hs'
    exact ⟨result, ho, hcommitted, j', h.both hsame (hback.trans hopen), hs'⟩
  have hrank : r = none → ¬ 2 ≤ j.phase.rank := fun hnone hrank => h.committed hrank hopen hnone
  rcases h.compared with ⟨-, hnone, hc⟩ | ⟨-, hnone, hc⟩ | ⟨-, -, hc⟩
  · exact hcommit _ _ hc (by decide) fun hphase => absurd hphase (hrank hnone)
  · exact hcommit _ _ hc (by decide) fun hphase => absurd hphase (hrank hnone)
  · exact hcommit _ _ hc (by decide) fun _ => ⟨rfl, rfl⟩

/-- A recorded rollback is never resumed. -/
theorem resume_refused (h : Sound host request j w r) (hs : Stands j w r g s)
    (hback : j.rollbackState ≠ none) :
    ∃ e, (resumeOrRollback host .resume j).run s = ⟨[], .error e⟩ := by
  obtain ⟨rfl, rfl, hrank⟩ := h.undone hback
  have hc : Compared host j none none .absent .absent :=
    ⟨(nodeRelation_absent _).mpr rfl, (nodeRelation_absent _).mpr rfl⟩
  have hrun := resumeOrRollback_compare hs hc .resume
  rw [if_neg (by decide)] at hrun
  replace hrun := hrun.trans (finishRegistration_compare hs hc)
  have hphase : RegistrationPhase.registrationCommitted.rank ≤ j.phase.rank := by
    change 2 ≤ j.phase.rank
    omega
  rw [if_neg (by decide), if_pos ⟨hphase, by decide⟩] at hrun
  exact ⟨_, hrun⟩

/-! ### Rollback -/

theorem Sound.rollbackPath (h : Sound host request j w none) :
    RollbackPath j w none (Sound host request) := by
  refine ⟨h, ?_, ?_⟩
  · refine ⟨h.same, h.valid, Or.inl rfl, Or.inl rfl, h.committed, fun hback => ?_⟩
    exact ⟨rfl, rfl, (h.undone hback).2.2⟩
  · intro j' hsame hback hrank
    refine ⟨h.same.trans hsame, hsame.valid h.valid, Or.inl rfl, Or.inl rfl, ?_, ?_⟩
    · rw [hback]
      rintro - ⟨⟩
    · exact fun _ => ⟨rfl, rfl, hrank⟩

/-- Before the commit, a rollback leaves neither file. -/
theorem rollback_undoes (h : Sound host request j w none) (hs : Stands j w none g s) :
    Triple (· = s) (resumeOrRollback host .rollback j)
      (fun o t =>
        StandsIn (fun j' w' r' => Sound host request j' w' r' ∧ w' = none ∧ r' = none) g t ∧
          (j.phase ≠ .complete → ∃ result, o = .ok result ∧ result.committed = false))
      (StandsIn (Sound host request) g) := by
  have hpath := h.rollbackPath
  have hundo : ∀ a, Compared host j w none a .absent → a ≠ .third →
      Triple (· = s) (resumeOrRollback host .rollback j)
        (fun o t => StandsIn
          (fun j' w' r' => Sound host request j' w' r' ∧ w' = none ∧ r' = none) g t ∧
          (j.phase ≠ .complete → ∃ result, o = .ok result ∧ result.committed = false))
        (StandsIn (Sound host request) g) := by
    intro a hc ha
    have hcand : a = .candidate → describe host workspacePath none w =
        .ok (localCandidate host workspacePath (.workspace j.workspaceCandidate)) := by
      rintro rfl
      exact nodeRelation_candidate hc.workspace
    have hnone : a ≠ .candidate → w = none := by
      intro hne
      have habs : a = .absent := by cases a <;> simp_all
      apply (nodeRelation_absent host (p := workspacePath)).mp
      rw [hc.workspace, habs]
    have hforeign : ¬ Foreign a .absent := by
      unfold Foreign
      simp [ha]
    have hrun := resumeOrRollback_compare hs hc .rollback
    rw [if_neg hforeign] at hrun
    simp only [reduceCtorEq, and_false, if_false] at hrun
    refine Triple.of_run_eq hrun ?_
    by_cases hphase : j.phase = .complete
    · refine (rollbackRegistration_complete h.valid hs hcand hnone hpath.start hpath.removed
        (by rw [hphase]; rfl)).post ?_
      rintro o t ⟨-, hs'⟩
      exact ⟨⟨_, _, _, ⟨hpath.removed, rfl, rfl⟩, hs'⟩, fun hne => absurd hphase hne⟩
    · have hlt : j.phase.rank < 4 := by
        cases hj : j.phase <;> simp_all [RegistrationPhase.rank]
      refine (rollbackRegistration_stands h.valid hs hcand hnone hpath hlt).post ?_
      rintro o t ⟨result, ho, hcommitted, j', hsame, hrank, hback, hs'⟩
      have hp' := hpath.later j' hsame hback (by omega)
      exact ⟨⟨_, _, _, ⟨hp', rfl, rfl⟩, hs'⟩, fun _ => ⟨result, ho, hcommitted⟩⟩
  rcases h.compared with ⟨-, -, hc⟩ | ⟨-, -, hc⟩ | ⟨-, hr, -⟩
  · exact hundo _ hc (by decide)
  · exact hundo _ hc (by decide)
  · cases hr

/-- After the commit, no rollback does anything. -/
theorem rollback_refused (h : Sound host request j w r) (hs : Stands j w r g s) (hr : r ≠ none) :
    ∃ e, (resumeOrRollback host .rollback j).run s = ⟨[], .error e⟩ := by
  rcases h.compared with ⟨-, hnone, -⟩ | ⟨-, hnone, -⟩ | ⟨-, -, hc⟩
  · exact absurd hnone hr
  · exact absurd hnone hr
  · have hrun := resumeOrRollback_compare hs hc .rollback
    rw [if_neg (by decide)] at hrun
    exact ⟨_, hrun⟩

/-! ### Calls on a registration that stands -/

variable (host around) in
theorem enterRegistration_still (hs : Stands j w r g s) :
    ∃ o, (enterRegistration host around).run s = ⟨[], o⟩ := by
  unfold enterRegistration
  cases hboot : around.bootstrap with
  | error e => exact ⟨_, Program.bind_of_error (Program.lift_run _ s)⟩
  | ok u =>
    rw [Program.bind_of_pure (Program.lift_run _ s),
      Program.bind_of_pure (acquireProjectLocks_run hs.shape hs.locked)]
    exact ⟨_, Program.inspect_run _ s⟩

theorem resumeOrRollback_standing {action : RecoveryAction} (h : Sound host request j w r)
    (hs : Stands j w r g s) :
    Triple (· = s) (resumeOrRollback host action j) (fun _ => StandsIn (Sound host request) g)
      (StandsIn (Sound host request) g) := by
  have hin : StandsIn (Sound host request) g s := ⟨j, w, r, h, hs⟩
  have hraised : (∃ e, (resumeOrRollback host action j).run s = ⟨[], .error e⟩) →
      Triple (· = s) (resumeOrRollback host action j) (fun _ => StandsIn (Sound host request) g)
        (StandsIn (Sound host request) g) := by
    rintro ⟨e, he⟩
    rw [← ends_const]
    exact Triple.raised he hin
  cases action with
  | resume =>
    by_cases hopen : j.rollbackState = none
    · refine (resume_commits h hs hopen).post ?_
      rintro o t ⟨result, -, -, j', hp, ht⟩
      exact ⟨j', _, _, hp, ht⟩
    · exact hraised (resume_refused h hs hopen)
  | rollback =>
    by_cases hr : r = none
    · subst hr
      refine (rollback_undoes h hs).post ?_
      rintro o t ⟨⟨j', w', r', hp, ht⟩, -⟩
      exact ⟨j', w', r', hp.1, ht⟩
    · exact hraised (rollback_refused h hs hr)

theorem Sound.transactionId (h : Sound host request j w r) :
    j.transactionId = request.transactionId := by
  rw [h.same]
  rfl

/-! ### The registration -/

theorem checkFresh_rest (h : checkFresh host around j s = .ok ()) :
    (match unfinishedExternalState around j.transactionId s with
      | some path => Except.error (registrationRecovery
          "unrelated maintenance or transaction blocks registration" [("path", joinPath path)])
      | none => do
        let workspaceRelation ← candidateRelation host workspacePath
          (.workspace j.workspaceCandidate) s
        if workspaceRelation ≠ .absent then
          .error (registrationFailure "workspace is not a fresh unregistered clone" [])
        else do
          let replayRelation ← candidateRelation host replayPath
            (.replayLedger j.replayCandidate) s
          if replayRelation ≠ .absent ∨ s.exists (workspaceTransaction j.transactionId) then
            .error (registrationFailure "workspace is not a fresh unregistered clone" [])
          else .ok ()) = Except.ok () := by
  unfold checkFresh at h
  by_cases hown : (s.exists (workspaceTransaction j.transactionId) ||
      s.isSymlink (workspaceTransaction j.transactionId)) = true
  · rw [if_pos hown] at h
    obtain ⟨existing, -, h⟩ := bind_eq_ok h
    by_cases hphase : existing.phase ≠ .complete
    · rw [if_pos hphase] at h
      cases h
    · rw [if_neg hphase] at h
      exact h
  · rw [if_neg hown] at h
    exact h

theorem checkFresh_eq_ok (h : checkFresh host around j s = .ok ()) :
    s.exists (workspaceTransaction j.transactionId) = false ∧
      unfinishedExternalState around j.transactionId s = none ∧
      candidateRelation host workspacePath (.workspace j.workspaceCandidate) s = .ok .absent ∧
      candidateRelation host replayPath (.replayLedger j.replayCandidate) s = .ok .absent := by
  have hrest := checkFresh_rest h
  split at hrest
  · cases hrest
  · next hclear =>
    obtain ⟨a, ha, hrest⟩ := bind_eq_ok hrest
    split at hrest
    · cases hrest
    · next habs =>
      obtain ⟨b, hb, hrest⟩ := bind_eq_ok hrest
      split at hrest
      · cases hrest
      · next hboth =>
        rw [not_or, not_not] at hboth
        rw [not_not] at habs
        exact ⟨by simpa using hboth.2, hclear, habs ▸ ha, hboth.1 ▸ hb⟩

theorem clear_transactions (h : checkFresh host around j s = .ok ()) :
    s.Clear workspaceTransactionRoot := by
  obtain ⟨-, hun, hw, -⟩ := checkFresh_eq_ok h
  obtain ⟨observed, hobs, -⟩ := bind_eq_ok hw
  obtain ⟨⟨⟩, htarget, -⟩ := bind_eq_ok hobs
  exact unfinished_clear (clear_of_target htarget) hun

/-- Nothing of the registration is on disk. -/
structure Unbegun (request : RegistrationRequest) (s : FS) : Prop where
  shape : s.WellFormed
  journal : s.get (workspaceTransaction request.transactionId) = none
  workspace : s.get workspacePath = none
  replay : s.get replayPath = none

theorem Unbegun.off {P : Path → Prop} (h : Unbegun request s) (hf : Frame P s t)
    (hP : ∀ q, P q → q.length ≤ 3 ∧ q ≠ workspacePath ∧ q ≠ replayPath) : Unbegun request t := by
  refine ⟨hf.shape h.shape, ?_, ?_, ?_⟩
  · rw [hf.off, h.journal]
    exact fun hq => workspaceTransaction_ne (hP _ hq).1 rfl
  · rw [hf.off, h.workspace]
    exact fun hq => (hP _ hq).2.1 rfl
  · rw [hf.off, h.replay]
    exact fun hq => (hP _ hq).2.2 rfl

/-- Nothing of the registration is on disk, or it stands. -/
def Begun (host : Host) (request : RegistrationRequest) (s : FS) : Prop :=
  Unbegun request s ∨ ∃ g, StandsIn (Sound host request) g s

theorem Unbegun.watched (h : Unbegun request s)
    (ht : Watches (RegistrationPath request.transactionId) s.get t) : Unbegun request t := by
  refine ⟨ht.shape, ?_, ?_, ?_⟩
  · rw [ht.shows _ (by simp [RegistrationPath]), h.journal]
  · rw [ht.shows _ (by simp [RegistrationPath]), h.workspace]
  · rw [ht.shows _ (by simp [RegistrationPath]), h.replay]

/-- The first journal makes the registration stand. -/
theorem Unbegun.stands (h : Unbegun request s) (hlocked : Locked s) {m : FileTree.Mode}
    (hid : j.transactionId = request.transactionId)
    (ht : Watches (RegistrationPath request.transactionId) (Function.update s.get
      (workspaceTransaction request.transactionId) (some (.file (.registration j) m))) t) :
    Stands j none none (s.get ignorePath) t := by
  have hsame : ∀ q, RegistrationPath request.transactionId q → q.length ≤ 3 →
      t.get q = s.get q := by
    intro q hq hlen
    rw [ht.shows q hq, Function.update_of_ne (workspaceTransaction_ne hlen)]
  refine ⟨ht.shape, ⟨?_, ?_⟩, ?_, ⟨m, ?_⟩, ?_, ?_⟩
  · rw [hsame _ (by simp [RegistrationPath]) (by decide)]
    exact hlocked.reconcile
  · rw [hsame _ (by simp [RegistrationPath]) (by decide)]
    exact hlocked.runtime
  · exact hsame _ (by simp [RegistrationPath]) (by decide)
  · rw [hid, ht.shows _ (by simp [RegistrationPath]), Function.update_self]
  · rw [hsame _ (by simp [RegistrationPath]) (by decide), h.workspace]
  · rw [hsame _ (by simp [RegistrationPath]) (by decide), h.replay]

theorem Sound.begin (hvalid : validateRegistration host (request.journal host) = .ok ()) :
    Sound host request (request.journal host) none none := by
  refine ⟨SameRegistration.refl _, hvalid, Or.inl rfl, Or.inl rfl, ?_, ?_⟩
  · intro hrank
    exact absurd hrank (show ¬ 2 ≤ RegistrationPhase.planned.rank by decide)
  · intro hback
    exact absurd rfl hback

/-- The journal is written for the first time. -/
theorem writeRegistration_begins
    (hvalid : validateRegistration host (request.journal host) = .ok ())
    (hclear : s.Clear workspaceTransactionRoot) (hlocked : Locked s) (h : Unbegun request s) :
    Triple (· = s) (writeRegistration host (request.journal host))
      (Returns fun _ t => ∃ g, Stands (request.journal host) none none g t)
      (Begun host request) := by
  have hown : workspaceTransaction (request.journal host).transactionId =
      workspaceTransaction request.transactionId := rfl
  have hcheck : checkRegistration host (request.journal host) s = .ok () := by
    unfold checkRegistration
    rw [hown, if_neg (by simp [DirTree.exists, DirTree.isSymlink, h.journal])]
  have hpar : parent (workspaceTransaction request.transactionId) = workspaceTransactionRoot :=
    parent_append _ _
  have hid : request.transactionId.toList ≠ [] :=
    workspaceUuid_ne_nil (validateRegistration_ok.mp hvalid).1
  have hwatch : Watches (RegistrationPath request.transactionId) s.get s :=
    ⟨h.shape, fun _ _ => rfl, fun _ hq => registrationPath_steady hid hq⟩
  have hoff : ∀ q, RegistrationPath request.transactionId q → ¬ q <+: workspaceTransactionRoot := by
    rintro q (rfl | rfl | rfl | rfl | rfl | rfl)
    · decide
    · decide
    · decide
    · intro hpre
      have := hpre.length_le
      simp [workspaceTransaction, workspaceTransactionRoot] at this
    · decide
    · decide
  have hfirst := hwatch.first host (p := workspaceTransaction request.transactionId)
    (c := .registration (request.journal host)) (by simp [workspaceTransaction])
    (by simp [RegistrationPath]) (by rw [hpar]; exact hclear) h.journal (by rw [hpar]; exact hoff)
  unfold writeRegistration
  refine Triple.bind_run (by rw [Program.lift_run, hvalid]) ?_
  refine Triple.bind_run (by rw [Program.inspect_run, hcheck]) ?_
  unfold putDocument
  rw [hown]
  refine hfirst.weaken (fun _ hs => hs) ?_ fun u hu => ?_
  · rintro o u ⟨a, ho, hu⟩
    exact ⟨a, ho, _, h.stands hlocked rfl hu⟩
  · rcases hu with hu | hu
    · exact Or.inl (h.watched hu)
    · exact Or.inr ⟨_, _, _, _, Sound.begin hvalid, h.stands hlocked rfl hu⟩

theorem requested_valid (hid : workspaceUuid request.transactionId "transaction_id" = .ok ())
    (hinstance : workspaceUuid request.workspaceInstanceId "workspace_instance_id" = .ok ())
    (hmanifest : validateManifest host request.manifest request.layout = .ok ()) :
    validateRegistration host (request.journal host) = .ok () := by
  have hproject : workspaceUuid request.manifest.projectId "project_id" = .ok () := by
    unfold validateManifest at hmanifest
    split at hmanifest
    · cases hmanifest
    · obtain ⟨⟨⟩, hproject, -⟩ := bind_eq_ok hmanifest
      exact hproject
  exact validateRegistration_ok.mpr ⟨hid, hproject, hinstance, rfl, rfl⟩

theorem enter_begun (h : Begun host request s) :
    Triple (· = s) (enterRegistration host around)
      (Ends (fun _ t => Locked t ∧ Begun host request t) (Begun host request))
      (Begun host request) := by
  rcases h with h | ⟨g, j, w, r, hp, hs⟩
  · have hoff : ∀ q, LockPath q → q.length ≤ 3 ∧ q ≠ workspacePath ∧ q ≠ replayPath := by
      intro q hq
      have hlen : q.length ≤ 2 := by
        rcases hq with hq | hq
        · exact hq.length_le
        · exact hq.length_le
      refine ⟨by omega, ?_, ?_⟩
      · rintro rfl
        exact absurd hlen (by decide)
      · rintro rfl
        exact absurd hlen (by decide)
    have hrun := (enterRegistration_locks host around).triple s
    refine (hrun.weaken (fun _ hs => hs) ?_ fun u hu => Or.inl (h.off hu hoff))
    rintro o t ⟨rfl, rfl⟩
    have ht := h.off ((enterRegistration_locks host around).final s) hoff
    cases ho : (enterRegistration host around).out s with
    | error e => exact Or.inl ht
    | ok u => exact ⟨(enterRegistration_ok ho).1, Or.inl ht⟩
  · have hin : Begun host request s := Or.inr ⟨g, j, w, r, hp, hs⟩
    obtain ⟨o, ho⟩ := enterRegistration_still host around hs
    cases o with
    | error e => exact Triple.raised ho hin
    | ok u =>
      rintro s rfl
      unfold Program.out Program.final
      rw [ho]
      exact ⟨by simp, hs.locked, hin⟩

theorem register_begun (h : Begun host request s) :
    Triple (· = s) (registerWorkspace host around request) (fun _ => Begun host request)
      (Begun host request) := by
  rw [← ends_const]
  unfold registerWorkspace
  refine Triple.lift_bind_ends h fun _ hid => ?_
  refine Triple.lift_bind_ends h fun _ hinstance => ?_
  refine Triple.lift_bind_ends h fun _ hmanifest => ?_
  have hvalid := requested_valid hid hinstance hmanifest
  refine (enter_begun h).bind_ends fun _ => Triple.of_forall ?_
  rintro t ⟨hlocked, ht⟩
  refine Triple.inspect_bind_ends ht fun _ hfresh => ?_
  have habsent := (checkFresh_eq_ok hfresh).1
  rcases ht with ht | ⟨g, j, w, r, hp, hs⟩
  · refine (writeRegistration_begins hvalid (clear_transactions hfresh) hlocked ht).bind_returns
      fun _ => Triple.of_forall ?_
    rintro u ⟨g, hs⟩
    have hc : Compared host (request.journal host) none none .absent .absent :=
      ⟨(nodeRelation_absent _).mpr rfl, (nodeRelation_absent _).mpr rfl⟩
    have hrun := finishRegistration_compare hs hc
    rw [if_neg (by decide), if_neg fun hphase => absurd hphase.1
      (show ¬ RegistrationPhase.registrationCommitted.rank ≤ RegistrationPhase.planned.rank by
        decide)] at hrun
    refine Triple.of_run_eq hrun ?_
    have hp := Sound.begin hvalid
    refine ((commitRegistration_stands hvalid hs (by simp) (by simp)
      (hp.commitPath rfl)).ends.ends_weaken ?_ fun _ hu => hu).crash fun c hc => Or.inr ⟨g, hc⟩
    rintro result t ⟨-, j', hsame, -, hback, hs'⟩
    exact Or.inr ⟨g, j', _, _, hp.both hsame hback, hs'⟩
  · obtain ⟨m, hget⟩ := hs.journal
    change t.exists (workspaceTransaction request.transactionId) = false at habsent
    rw [hp.transactionId] at hget
    simp [DirTree.exists, hget] at habsent

theorem recover_begun {action : RecoveryAction} (h : Begun host request s) :
    Triple (· = s) (recoverWorkspaceRegistration host around request.transactionId action)
      (fun _ => Begun host request) (Begun host request) := by
  rw [← ends_const]
  unfold recoverWorkspaceRegistration
  refine Triple.lift_bind_ends h fun _ _ => ?_
  refine (enter_begun h).bind_ends fun _ => Triple.of_forall ?_
  rintro t ⟨-, ht⟩
  refine Triple.inspect_bind_ends ht fun j' hload => ?_
  obtain ⟨⟨m, hget⟩, -⟩ := loadRegistration_eq_ok hload
  rcases ht with ht | ⟨g, j, w, r, hp, hs⟩
  · rw [ht.journal] at hget
    cases hget
  · obtain rfl : j = j' := by
      obtain ⟨m', hget'⟩ := hs.journal
      rw [hp.transactionId, hget] at hget'
      cases hget'
      rfl
    rw [ends_const]
    exact (resumeOrRollback_standing hp hs).weaken (fun _ hs => hs)
      (fun _ _ ht => Or.inr ⟨g, ht⟩) fun _ hu => Or.inr ⟨g, hu⟩

theorem call_begun (c : RegistrationCall) (h : Begun host request s)
    (ht : t ∈ (c.run host around request).states s) : Begun host request t := by
  cases c with
  | register => exact (register_begun h).states rfl h ht
  | recover action => exact (recover_begun h).states rfl h ht

theorem reach_begun (hs : Begun host request s) (h : RegistrationReach host request s t) :
    Begun host request t := by
  induction h with
  | start => exact hs
  | call around c _ hu ih => exact call_begun c ih hu

/-! ### Safety -/

/-- What a registration owes in every store it leads to. -/
structure RegistrationSafe (host : Host) (request : RegistrationRequest) (t : FS) : Prop where
  paired : t.get replayPath ≠ none → t.get workspacePath ≠ none
  complete : ∀ j m, t.get (workspaceTransaction request.transactionId) =
      some (.file (.registration j) m) → j.phase = .complete →
    t.get workspacePath = some (request.journal host).workspaceFile ∧
        t.get replayPath = some (request.journal host).replayFile ∨
      t.get workspacePath = none ∧ t.get replayPath = none
  resume : ∀ j m around, t.get (workspaceTransaction request.transactionId) =
      some (.file (.registration j) m) → t.get replayPath = none → j.rollbackState = none →
      around.bootstrap = .ok () → validateIgnoreAndTracking around t = .ok () →
    ∃ result, (recoverWorkspaceRegistration host around request.transactionId .resume).out t =
        .ok result ∧ result.committed = true ∧
      ((recoverWorkspaceRegistration host around request.transactionId .resume).final t).get
        workspacePath = some (request.journal host).workspaceFile ∧
      ((recoverWorkspaceRegistration host around request.transactionId .resume).final t).get
        replayPath = some (request.journal host).replayFile
  rollback : ∀ j m around, t.get (workspaceTransaction request.transactionId) =
      some (.file (.registration j) m) → t.get replayPath = none →
      around.bootstrap = .ok () → validateIgnoreAndTracking around t = .ok () →
    ((recoverWorkspaceRegistration host around request.transactionId .rollback).final t).get
        workspacePath = none ∧
      ((recoverWorkspaceRegistration host around request.transactionId .rollback).final t).get
        replayPath = none ∧
      (j.phase ≠ .complete → ∃ result,
        (recoverWorkspaceRegistration host around request.transactionId .rollback).out t =
          .ok result ∧ result.committed = false)

theorem Begun.standing (h : Begun host request t) {j : RegistrationJournal} {m : FileTree.Mode}
    (hget : t.get (workspaceTransaction request.transactionId) =
      some (.file (.registration j) m)) :
    ∃ w r, Sound host request j w r ∧ Stands j w r (t.get ignorePath) t := by
  rcases h with h | ⟨g, j', w, r, hp, hs⟩
  · rw [h.journal] at hget
    cases hget
  · obtain ⟨m', hget'⟩ := hs.journal
    rw [hp.transactionId, hget] at hget'
    cases hget'
    exact ⟨w, r, hp, { hs with ignore := rfl }⟩

/-- Where a registration stands, a recovery whose checks pass enters at once. -/
theorem recover_enters (action : RecoveryAction) (hp : Sound host request j w r)
    (hs : Stands j w r (t.get ignorePath) t) (hboot : around.bootstrap = .ok ())
    (hcheck : validateIgnoreAndTracking around t = .ok ()) :
    (recoverWorkspaceRegistration host around request.transactionId action).out t =
        (resumeOrRollback host action j).out t ∧
      (recoverWorkspaceRegistration host around request.transactionId action).final t =
        (resumeOrRollback host action j).final t := by
  have hpassed : Passed around (t.get ignorePath) :=
    ⟨hboot, fun u hu => (validateIgnoreAndTracking_congr hu).trans hcheck⟩
  have hrun := enterRegistration_run host hpassed hs
  have hload := loadRegistration_stands hp.valid hs
  have hid := (validateRegistration_ok.mp hp.valid).1
  rw [hp.transactionId] at hload hid
  have henter : Entered host around request.transactionId t j :=
    ⟨hid, by rw [Program.out, hrun], hload⟩
  have hfinal : (enterRegistration host around).final t = t := Program.final_of_run hrun
  have hends := recover_entered action henter
  rw [hfinal] at hends
  exact hends

theorem Begun.safe (h : Begun host request t) : RegistrationSafe host request t := by
  constructor
  case paired =>
    rcases h with h | ⟨g, j, w, r, hp, hs⟩
    · exact fun hr => absurd h.replay hr
    · rw [hs.replay, hs.workspace]
      intro hr
      rw [(hp.files_open hr).2.1]
      exact Option.some_ne_none _
  case complete =>
    intro j m hget hphase
    obtain ⟨w, r, hp, hs⟩ := h.standing hget
    obtain ⟨hwork, hreplay⟩ := hp.same.files
    rw [hs.workspace, hs.replay, ← hwork, ← hreplay]
    by_cases hopen : j.rollbackState = none
    · have hr := hp.committed (by rw [hphase]; decide) hopen
      exact Or.inl (hp.files_open hr).2
    · obtain ⟨hw, hr, -⟩ := hp.undone hopen
      exact Or.inr ⟨hw, hr⟩
  case resume =>
    intro j m around hget hr hopen hboot hcheck
    obtain ⟨w, r, hp, hs⟩ := h.standing hget
    obtain ⟨hwork, hreplay⟩ := hp.same.files
    obtain ⟨ho, hf⟩ := recover_enters .resume hp hs hboot hcheck
    obtain ⟨result, hout, hcommitted, j', -, hs'⟩ := (resume_commits hp hs hopen).run rfl
    rw [ho, hf, ← hwork, ← hreplay]
    exact ⟨result, hout, hcommitted, hs'.workspace, hs'.replay⟩
  case rollback =>
    intro j m around hget hr hboot hcheck
    obtain ⟨w, r, hp, hs⟩ := h.standing hget
    obtain rfl : r = none := hs.replay.symm.trans hr
    obtain ⟨ho, hf⟩ := recover_enters .rollback hp hs hboot hcheck
    obtain ⟨-, ⟨j', w', r', ⟨-, rfl, rfl⟩, hs'⟩, hreturns⟩ := rollback_undoes hp hs t rfl
    rw [ho, hf]
    exact ⟨hs'.workspace, hs'.replay, hreturns⟩

/-- A registration is safe in every store that crashes, resumes and rollbacks lead to from a clone
that was not registered. -/
theorem registration_crash_safe (hwf : s.WellFormed)
    (hjournal : s.get (workspaceTransaction request.transactionId) = none)
    (hworkspace : s.get workspacePath = none) (hreplay : s.get replayPath = none)
    (h : RegistrationReach host request s t) : RegistrationSafe host request t :=
  (reach_begun (Or.inl ⟨hwf, hjournal, hworkspace, hreplay⟩) h).safe

theorem registration_crash_safe_registered :
    RegistrationSafe sampleHost sampleRequest
      ((registerWorkspace sampleHost sampleAround sampleRequest).final (sampleCheckout [])) := by
  apply registration_crash_safe (s := sampleCheckout []) (by decide) rfl rfl rfl
  exact .call sampleAround .register .start (Program.final_mem_states _ _)

end AgentStack.Runtime
