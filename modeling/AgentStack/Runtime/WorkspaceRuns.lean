import AgentStack.Runtime.WorkspaceSteps
import AgentStack.SampleHost

/-! Registrations and their recoveries, cut short anywhere and repeated in any order. -/
namespace AgentStack.Runtime

open AgentStack.Core FileTree Crash Reconcile DirTree

variable {host : Host} {around : Surroundings} {s t : FS} {j : RegistrationJournal}
  {w r g : Option (Node Content)} {transactionId : String} {action : RecoveryAction}

/-! ### Entering -/

variable (host around) in
theorem enterRegistration_locks : Within (Frame LockPath) (enterRegistration host around) :=
  (Within.lift _).bind fun _ => (acquireProjectLocks_locks host).bind fun _ => Within.inspect _

theorem validateIgnoreAndTracking_congr (h : t.get ignorePath = s.get ignorePath) :
    validateIgnoreAndTracking around t = validateIgnoreAndTracking around s := by
  unfold validateIgnoreAndTracking ignoreText
  rw [h]

theorem not_lockPath {q : Path} (h : 2 < q.length) : ¬ LockPath q := by
  rintro (hq | hq)
  · have := hq.length_le
    simp [lockFile, controlDir] at this
    omega
  · have := hq.length_le
    simp [lockFile, controlDir] at this
    omega

theorem ignorePath_not_lock : ¬ LockPath ignorePath := by
  rintro (hq | hq)
  · exact absurd hq (by decide)
  · exact absurd hq (by decide)

/-- What was entered is locked, and passed its checks. -/
structure Passed (around : Surroundings) (g : Option (Node Content)) : Prop where
  bootstrap : around.bootstrap = .ok ()
  ignored : ∀ s : FS, s.get ignorePath = g → validateIgnoreAndTracking around s = .ok ()

theorem enterRegistration_ok (h : (enterRegistration host around).out s = .ok ()) :
    Locked ((enterRegistration host around).final s) ∧ Passed around (s.get ignorePath) := by
  obtain ⟨⟨⟩, hboot, h, hfinal⟩ := Program.bind_out_eq_ok h
  obtain ⟨⟨⟩, hlocks, hcheck, hfinal'⟩ := Program.bind_out_eq_ok h
  have hsame : ((acquireProjectLocks host).final s).get ignorePath = s.get ignorePath :=
    ((acquireProjectLocks_locks host).final s).off _ ignorePath_not_lock
  constructor
  · rw [enterRegistration, hfinal]
    exact (congrArg Locked hfinal').mpr (acquireProjectLocks_locked hlocks)
  · refine ⟨hboot, fun u hu => ?_⟩
    rw [validateIgnoreAndTracking_congr (hu.trans hsame.symm)]
    exact hcheck

variable (host) in
theorem enterRegistration_run (hp : Passed around g) (h : Stands j w r g s) :
    (enterRegistration host around).run s = ⟨[], .ok ()⟩ := by
  unfold enterRegistration
  rw [Program.bind_of_pure (by rw [Program.lift_run, hp.bootstrap]),
    Program.bind_of_pure (acquireProjectLocks_run h.shape h.locked), Program.inspect_run,
    hp.ignored s h.ignore]

/-- A recovery that gets as far as its journal. -/
structure Entered (host : Host) (around : Surroundings) (transactionId : String) (s : FS)
    (j : RegistrationJournal) : Prop where
  identity : workspaceUuid transactionId "transaction_id" = .ok ()
  enter : (enterRegistration host around).out s = .ok ()
  load : loadRegistration host transactionId s = .ok j

theorem loadRegistration_congr
    (h : t.get (workspaceTransaction transactionId) = s.get (workspaceTransaction transactionId)) :
    loadRegistration host transactionId t = loadRegistration host transactionId s := by
  unfold loadRegistration
  rw [h]

theorem loadRegistration_eq_ok (h : loadRegistration host transactionId s = .ok j) :
    (∃ m, s.get (workspaceTransaction transactionId) = some (.file (.registration j) m)) ∧
      validateRegistration host j = .ok () := by
  unfold loadRegistration at h
  split at h
  · next found m hget =>
    obtain ⟨⟨⟩, hvalid, h⟩ := bind_eq_ok h
    cases h
    exact ⟨⟨m, hget⟩, hvalid⟩
  · cases h
  · cases h
  · cases h

theorem enter_journal (transactionId : String) :
    ((enterRegistration host around).final s).get (workspaceTransaction transactionId) =
      s.get (workspaceTransaction transactionId) :=
  ((enterRegistration_locks host around).final s).off _ (not_lockPath (by
    simp [workspaceTransaction, workspaceTransactionRoot]))

variable (action) in
theorem recover_entered (h : Entered host around transactionId s j) :
    (recoverWorkspaceRegistration host around transactionId action).out s =
        (resumeOrRollback host action j).out ((enterRegistration host around).final s) ∧
      (recoverWorkspaceRegistration host around transactionId action).final s =
        (resumeOrRollback host action j).final ((enterRegistration host around).final s) := by
  have hload : loadRegistration host transactionId ((enterRegistration host around).final s) =
      .ok j := by
    rw [loadRegistration_congr (enter_journal transactionId), h.load]
  have hid : (Program.lift (workspaceUuid transactionId "transaction_id") : Prog Unit).out s =
      .ok () := by
    rw [Program.out, Program.lift_run, h.identity]
  have hinspect : (Program.inspect (loadRegistration host transactionId)).out
      ((enterRegistration host around).final s) = .ok j := by
    rw [Program.out, Program.inspect_run, hload]
  unfold recoverWorkspaceRegistration
  obtain ⟨ho, hf⟩ := Program.bind_ends_of_ok (f := fun _ => do
    enterRegistration host around
    let journal ← Program.inspect (loadRegistration host transactionId)
    resumeOrRollback host action journal) hid
  obtain ⟨ho', hf'⟩ := Program.bind_ends_of_ok (f := fun _ => do
    let journal ← Program.inspect (loadRegistration host transactionId)
    resumeOrRollback host action journal) h.enter
  obtain ⟨ho'', hf''⟩ := Program.bind_ends_of_ok (f := resumeOrRollback host action) hinspect
  rw [show (Program.lift (workspaceUuid transactionId "transaction_id") : Prog Unit).final s = s
    from rfl] at ho hf
  rw [show (Program.inspect (loadRegistration host transactionId)).final
    ((enterRegistration host around).final s) = (enterRegistration host around).final s
    from rfl] at ho'' hf''
  constructor
  · rw [ho, ho', ho'']
  · rw [hf, hf', hf'']

variable (action) in
/-- Where it does not get that far, it raises and leaves but lock files behind. -/
theorem recover_not_entered (h : ¬ ∃ j, Entered host around transactionId s j) :
    ∃ e, (recoverWorkspaceRegistration host around transactionId action).out s = .error e ∧
      Frame LockPath s
        ((recoverWorkspaceRegistration host around transactionId action).final s) := by
  unfold recoverWorkspaceRegistration
  cases hid : workspaceUuid transactionId "transaction_id" with
  | error e => exact ⟨e, rfl, Std.Refl.refl s⟩
  | ok u =>
    have hlocks := enterRegistration_locks host around
    rw [show ∀ f : Unit → Prog WorkspaceRegistrationResult,
      (Program.lift (.ok u) >>= f) = f u from fun f =>
        Program.ext fun s => Program.bind_of_pure (Program.lift_run _ s)]
    cases henter : (enterRegistration host around).out s with
    | error e =>
      obtain ⟨ho, hf⟩ := Program.bind_ends_of_error (f := fun _ => do
        let journal ← Program.inspect (loadRegistration host transactionId)
        resumeOrRollback host action journal) henter
      exact ⟨e, ho, hf ▸ hlocks.final s⟩
    | ok v =>
      obtain ⟨ho, hf⟩ := Program.bind_ends_of_ok (f := fun _ => do
        let journal ← Program.inspect (loadRegistration host transactionId)
        resumeOrRollback host action journal) henter
      cases hload : loadRegistration host transactionId s with
      | ok j => exact absurd ⟨j, hid, henter, hload⟩ h
      | error e =>
        have hout : (Program.inspect (loadRegistration host transactionId)).out
            ((enterRegistration host around).final s) = .error e := by
          rw [← hload]
          exact loadRegistration_congr (enter_journal transactionId)
        obtain ⟨ho', hf'⟩ := Program.bind_ends_of_error (f := resumeOrRollback host action) hout
        exact ⟨e, ho.trans ho', (hf.trans hf').symm ▸ hlocks.final s⟩

/-- A recovery that entered finds the registration as the tree has it. -/
theorem Entered.stands (hwf : s.WellFormed) (h : Entered host around transactionId s j)
    (hown : j.transactionId = transactionId) :
    Stands j (s.get workspacePath) (s.get replayPath) (s.get ignorePath)
      ((enterRegistration host around).final s) := by
  have hframe := (enterRegistration_locks host around).final s
  obtain ⟨⟨m, hget⟩, -⟩ := loadRegistration_eq_ok h.load
  refine ⟨hframe.shape hwf, (enterRegistration_ok h.enter).1, hframe.off _ ignorePath_not_lock,
    ⟨m, ?_⟩, ?_, ?_⟩
  · rw [hown, enter_journal, hget]
  · exact hframe.off _ (not_lockPath (by decide))
  · exact hframe.off _ (not_lockPath (by decide))

/-! ### One recovery -/

section Recovery

variable {a b : Relation}

/-- What a recovery returns or raises, and what it leaves of the two files. -/
structure RecoveryEnds (w r : Option (Node Content)) (committed : Option Bool)
    (o : Except Failure WorkspaceRegistrationResult) (t : FS) : Prop where
  out : (o.toOption.map WorkspaceRegistrationResult.committed) = committed
  workspace : t.get workspacePath = w
  replay : t.get replayPath = r

theorem ends_of_raise {p : Prog WorkspaceRegistrationResult} (h : Stands j w r g s)
    (hp : ∃ e, p.run s = ⟨[], .error e⟩) : RecoveryEnds w r none (p.out s) (p.final s) := by
  obtain ⟨e, he⟩ := hp
  unfold Program.out Program.final
  rw [he]
  exact ⟨rfl, h.workspace, h.replay⟩

theorem Foreign.not_absent (hf : ¬ Foreign a b) (hboth : ¬ (a = .candidate ∧ b = .candidate)) :
    b = .absent ∧ a ≠ .third := by
  unfold Foreign at hf
  cases a <;> cases b <;> simp_all

/-- A resume commits, or raises before it touches either file. -/
theorem resume_ends (hvalid : validateRegistration host j = .ok ()) (h : Stands j w r g s)
    (hc : Compared host j w r a b) :
    (∃ w' r', RecoveryEnds w' r' (some true) ((resumeOrRollback host .resume j).out s)
        ((resumeOrRollback host .resume j).final s)) ∨
      RecoveryEnds w r none ((resumeOrRollback host .resume j).out s)
        ((resumeOrRollback host .resume j).final s) := by
  have hrun := resumeOrRollback_compare h hc .resume
  by_cases hf : Foreign a b
  · rw [if_pos hf] at hrun
    exact Or.inr (ends_of_raise h ⟨_, hrun⟩)
  rw [if_neg hf] at hrun
  replace hrun := hrun.trans (finishRegistration_compare h hc)
  rw [if_neg hf] at hrun
  split at hrun
  · exact Or.inr (ends_of_raise h ⟨_, hrun⟩)
  · have hw : a = .absent ↔ w = none := by
      rw [← nodeRelation_absent host (p := workspacePath), hc.workspace, Except.ok.injEq]
    have hr : b = .absent ↔ r = none := by
      rw [← nodeRelation_absent host (p := replayPath), hc.replay, Except.ok.injEq]
    obtain ⟨-, result, hout, hcommitted, j', -, -, -, hs⟩ := commitRegistration_stands hvalid h
      hw hr (P := fun _ _ _ => True) ⟨trivial, trivial, trivial, fun _ _ _ => trivial⟩ s rfl
    left
    unfold Program.out at hout
    unfold Program.final at hs
    unfold Program.out Program.final
    rw [hrun]
    refine ⟨_, _, ?_, hs.workspace, hs.replay⟩
    rw [hout]
    exact congrArg some hcommitted

/-- A rollback raises before it touches either file, or goes by the phase of its journal. -/
theorem rollback_ends (hvalid : validateRegistration host j = .ok ()) (h : Stands j w r g s)
    (hc : Compared host j w r a b) :
    RecoveryEnds
      (if b = .absent ∧ a ≠ .third then none else w) r
      (if b = .absent ∧ a ≠ .third ∧ j.phase ≠ .complete then some false else none)
      ((resumeOrRollback host .rollback j).out s)
      ((resumeOrRollback host .rollback j).final s) := by
  have hrun := resumeOrRollback_compare h hc .rollback
  by_cases hf : Foreign a b
  · rw [if_pos hf] at hrun
    have hno : ¬ (b = .absent ∧ a ≠ .third) := by
      rintro ⟨rfl, ha⟩
      unfold Foreign at hf
      simp_all
    rw [if_neg hno, if_neg fun h => hno ⟨h.1, h.2.1⟩]
    exact ends_of_raise h ⟨_, hrun⟩
  rw [if_neg hf] at hrun
  by_cases hboth : a = .candidate ∧ b = .candidate
  · simp only [if_pos hboth] at hrun
    have hno : ¬ (b = .absent ∧ a ≠ .third) := by
      rintro ⟨rfl, -⟩
      cases hboth.2
    rw [if_neg hno, if_neg fun h => hno ⟨h.1, h.2.1⟩]
    exact ends_of_raise h ⟨_, hrun⟩
  simp only [if_neg hboth] at hrun
  obtain ⟨hb, ha⟩ := Foreign.not_absent hf hboth
  have hcand : a = .candidate → describe host workspacePath none w =
      .ok (localCandidate host workspacePath (.workspace j.workspaceCandidate)) := by
    intro hacand
    apply nodeRelation_candidate
    rw [← hacand]
    exact hc.workspace
  have hnone : a ≠ .candidate → w = none := by
    intro hacand
    have habs : a = .absent := by cases a <;> simp_all
    apply (nodeRelation_absent host (p := workspacePath)).mp
    rw [hc.workspace, habs]
  unfold Program.out Program.final
  rw [hrun, if_pos ⟨hb, ha⟩]
  by_cases hphase : j.phase = .complete
  · obtain ⟨-, ⟨e, he⟩, hs⟩ := rollbackRegistration_complete hvalid h hcand hnone
      (P := fun _ _ _ => True) trivial trivial (by rw [hphase]; rfl) s rfl
    rw [if_neg fun h => h.2.2 hphase]
    unfold Program.out at he
    unfold Program.final at hs
    refine ⟨?_, hs.workspace, hs.replay⟩
    rw [he]
    rfl
  · have hlt : j.phase.rank < 4 := by
      cases hj : j.phase <;> simp_all [RegistrationPhase.rank]
    obtain ⟨-, result, hout, hcommitted, j', -, -, -, hs⟩ := rollbackRegistration_stands hvalid h
      hcand hnone (P := fun _ _ _ => True) ⟨trivial, trivial, fun _ _ _ _ => trivial⟩ hlt s rfl
    rw [if_pos ⟨hb, ha, hphase⟩]
    unfold Program.out at hout
    unfold Program.final at hs
    refine ⟨?_, hs.workspace, hs.replay⟩
    rw [hout]
    exact congrArg some hcommitted

end Recovery

/-- The journal records the commit, and no rollback. -/
def RegistrationJournal.RecordsCommit (j : RegistrationJournal) : Prop :=
  RegistrationPhase.registrationCommitted.rank ≤ j.phase.rank ∧ j.rollbackState = none

/-- A rollback that finds no replay file undoes what it should keep: the workspace file of a
complete transaction, or a commit that the journal records. -/
def Undoes (action : RecoveryAction) (j : RegistrationJournal) (a b : Relation) : Prop :=
  action = .rollback ∧ b = .absent ∧ a ≠ .third ∧
    (j.phase = .complete ∧ a = .candidate ∨ j.phase ≠ .complete ∧ j.RecordsCommit)

/-- What a recovery owes: nothing changed when it raises, and a recorded commit stands. -/
def KeepsFiles (s : FS) (recorded : Prop) (o : Except Failure WorkspaceRegistrationResult)
    (t : FS) : Prop :=
  (∀ e, o = .error e →
      t.get workspacePath = s.get workspacePath ∧ t.get replayPath = s.get replayPath) ∧
    (recorded → ∀ result, o = .ok result → result.committed = true)

theorem RecoveryEnds.keepsFiles {committed : Option Bool} {recorded : Prop}
    {o : Except Failure WorkspaceRegistrationResult} (h : RecoveryEnds w r committed o t) :
    KeepsFiles s recorded o t ↔
      (committed = none → w = s.get workspacePath ∧ r = s.get replayPath) ∧
        (recorded → committed ≠ some false) := by
  unfold KeepsFiles
  rw [h.workspace, h.replay]
  cases o with
  | error e =>
    obtain rfl : none = committed := h.out
    simp
  | ok result =>
    obtain rfl : some result.committed = committed := h.out
    simp

/-- A recovery that raises leaves both files alone and none undoes a recorded commit, unless it
is a rollback that finds the replay file gone. -/
theorem failed_recovery_keeps_files (hwf : s.WellFormed)
    (hown : ∀ j, loadRegistration host transactionId s = .ok j →
      j.transactionId = transactionId) :
    KeepsFiles s (∃ j, loadRegistration host transactionId s = .ok j ∧ j.RecordsCommit)
        ((recoverWorkspaceRegistration host around transactionId action).out s)
        ((recoverWorkspaceRegistration host around transactionId action).final s) ↔
      ¬ ∃ j a b, Entered host around transactionId s j ∧
        candidateRelation host workspacePath (.workspace j.workspaceCandidate) s = .ok a ∧
        candidateRelation host replayPath (.replayLedger j.replayCandidate) s = .ok b ∧
        Undoes action j a b := by
  by_cases hent : ∃ j, Entered host around transactionId s j
  · obtain ⟨j, hj⟩ := hent
    have hstands := hj.stands hwf (hown j hj.load)
    have hvalid := (loadRegistration_eq_ok hj.load).2
    have hfound : ∀ j', loadRegistration host transactionId s = .ok j' → j' = j := by
      intro j' hj'
      exact Except.ok.inj (hj'.symm.trans hj.load)
    have hrecorded : (∃ j, loadRegistration host transactionId s = .ok j ∧ j.RecordsCommit) ↔
        j.RecordsCommit := by
      constructor
      · rintro ⟨j', hj', hr⟩
        exact hfound j' hj' ▸ hr
      · exact fun hr => ⟨j, hj.load, hr⟩
    have hreach : s.Reaches localDir := by
      obtain ⟨⟨m, hget⟩, -⟩ := loadRegistration_eq_ok hj.load
      intro q hq
      exact reaches_transactions hwf hget q (hq.trans (by decide))
    have hiff : (∃ j a b, Entered host around transactionId s j ∧
        candidateRelation host workspacePath (.workspace j.workspaceCandidate) s = .ok a ∧
        candidateRelation host replayPath (.replayLedger j.replayCandidate) s = .ok b ∧
        Undoes action j a b) ↔ ∃ a b, Compared host j (s.get workspacePath) (s.get replayPath) a b ∧
          Undoes action j a b := by
      have hw := candidateRelation_eq host (p := workspacePath) hreach.clear
        (.workspace j.workspaceCandidate)
      have hr := candidateRelation_eq host (p := replayPath) hreach.clear
        (.replayLedger j.replayCandidate)
      constructor
      · rintro ⟨j', a, b, hj', ha, hb, hu⟩
        obtain rfl := hfound j' hj'.load
        exact ⟨a, b, ⟨hw.symm.trans ha, hr.symm.trans hb⟩, hu⟩
      · rintro ⟨a, b, hc, hu⟩
        exact ⟨j, a, b, hj, hw.trans hc.workspace, hr.trans hc.replay, hu⟩
    obtain ⟨ho, hf⟩ := recover_entered action hj
    rw [hiff, ho, hf, hrecorded]
    by_cases hc : ∃ a b, Compared host j (s.get workspacePath) (s.get replayPath) a b
    · obtain ⟨a, b, hc⟩ := hc
      have hunique : (∃ a b, Compared host j (s.get workspacePath) (s.get replayPath) a b ∧
          Undoes action j a b) ↔ Undoes action j a b := by
        constructor
        · rintro ⟨a', b', hc', hu⟩
          obtain rfl := Except.ok.inj (hc.workspace.symm.trans hc'.workspace)
          obtain rfl := Except.ok.inj (hc.replay.symm.trans hc'.replay)
          exact hu
        · exact fun hu => ⟨a, b, hc, hu⟩
      rw [hunique]
      cases action with
      | resume =>
        refine iff_of_true ?_ fun h => by cases h.1
        rcases resume_ends hvalid hstands hc with ⟨w', r', hends⟩ | hends
        · exact hends.keepsFiles.mpr ⟨fun h => (by cases h), fun _ h => by cases h⟩
        · exact hends.keepsFiles.mpr ⟨fun _ => ⟨rfl, rfl⟩, fun _ h => by cases h⟩
      | rollback =>
        rw [(rollback_ends hvalid hstands hc).keepsFiles]
        have hw : s.get workspacePath = none ↔ a = .absent := by
          rw [← nodeRelation_absent host (p := workspacePath), hc.workspace,
            Except.ok.injEq]
        unfold Undoes
        by_cases hphase : j.phase = .complete
        · cases a <;> cases b <;> simp_all [eq_comm]
        · cases a <;> cases b <;> simp_all
    · refine iff_of_true ?_ fun ⟨a, b, hab, _⟩ => hc ⟨a, b, hab⟩
      have hends := ends_of_raise hstands (resumeOrRollback_unreadable hstands action hc)
      exact hends.keepsFiles.mpr ⟨fun _ => ⟨rfl, rfl⟩, fun _ h => by cases h⟩
  · obtain ⟨e, hout, hframe⟩ := recover_not_entered action hent
    refine iff_of_true ⟨fun _ _ => ⟨hframe.off _ (not_lockPath (by decide)),
      hframe.off _ (not_lockPath (by decide))⟩, fun _ result hok => ?_⟩
      fun ⟨j, a, b, hj, _⟩ => hent ⟨j, hj⟩
    rw [hout] at hok
    cases hok

/-! ### A registration to try -/

section Sample

def sampleAround : Surroundings := ⟨.ok (), fun _ => true, fun _ => false, fun _ => false⟩

def sampleManifest : CommittedManifest :=
  ⟨1, sampleTask, sampleDigest 1, "1", sampleDigest 2,
    ⟨sampleDigest 1, "1", 1, 1, 1, sampleDigest 4, sampleDigest 63⟩⟩

def sampleRequest : RegistrationRequest :=
  ⟨sampleManifest, ⟨sampleDigest 4, "\x7b\x7d"⟩, sampleTransaction, sampleWorkspace,
    ⟨"pack", sampleDigest 1, sampleDigest 2⟩⟩

/-- The request's journal at some phase. -/
def sampleRegistration (phase : RegistrationPhase) : RegistrationJournal :=
  (sampleRequest.journal sampleHost).moved phase none

/-- A checkout whose locks were taken before. -/
def sampleCheckout (files : List (Path × Node Content)) : FS :=
  ⟨[([], .dir 0o755), (controlDir, .dir 0o755), (lockFile "reconcile.lock", .file (.bytes []) 0o600),
    (lockFile "runtime-state.lock", .file (.bytes []) 0o600), (localDir, .dir 0o755),
    (workspaceTransactionRoot, .dir 0o755),
    (ignorePath, .file (.bytes (encode managedIgnoreBlock)) 0o644)] ++ files⟩

/-- A finished registration that lost its replay file. -/
def sampleLost (phase : RegistrationPhase) : FS :=
  sampleCheckout
    [(workspaceTransaction sampleTransaction, .file (.registration (sampleRegistration phase)) 0o600),
      (workspacePath, (sampleRegistration phase).workspaceFile)]

theorem ignoreText_encode {text : String} {m : FileTree.Mode}
    (h : s.get ignorePath = some (.file (.bytes (encode text)) m)) (hplain : '\r' ∉ text.toList) :
    ignoreText s = .ok text := by
  simp only [ignoreText, h, decode?_encode]
  rw [universalNewlines_eq hplain, String.ofList_toList]

theorem sampleAround_validate {text : String} (htext : ignoreText s = .ok text)
    (hblock : managedIgnoreBlock.toList <:+: text.toList) :
    validateIgnoreAndTracking sampleAround s = .ok () := by
  unfold validateIgnoreAndTracking
  rw [htext, bind_ok_eq, if_neg (not_not.mpr hblock)]
  rfl

theorem managedIgnoreBlock_plain : '\r' ∉ managedIgnoreBlock.toList := by
  unfold managedIgnoreBlock
  simp only [String.toList_append, List.mem_append, not_or]
  and_intros <;> decide

theorem samplePassed {m : FileTree.Mode} :
    Passed sampleAround (some (.file (.bytes (encode managedIgnoreBlock)) m)) where
  bootstrap := rfl
  ignored _ h :=
    sampleAround_validate (ignoreText_encode h managedIgnoreBlock_plain) List.infix_rfl

theorem sampleRegistration_valid (phase : RegistrationPhase) :
    validateRegistration sampleHost (sampleRegistration phase) = .ok () := by
  have huuid : workspaceUuid sampleTransaction "transaction_id" = .ok () ∧
      workspaceUuid sampleTask "project_id" = .ok () ∧
      workspaceUuid sampleWorkspace "workspace_instance_id" = .ok () := by
    decide
  exact validateRegistration_ok.mpr ⟨huuid.1, huuid.2.1, huuid.2.2, rfl, rfl⟩

theorem sampleLost_stands (phase : RegistrationPhase) :
    Stands (sampleRegistration phase) (some (sampleRegistration phase).workspaceFile) none
      (some (.file (.bytes (encode managedIgnoreBlock)) 0o644)) (sampleLost phase) := by
  refine ⟨?_, ⟨⟨_, _, rfl⟩, ⟨_, _, rfl⟩⟩, rfl, ⟨0o600, rfl⟩, rfl, rfl⟩
  cases phase <;> decide

theorem sampleLost_load (phase : RegistrationPhase) :
    loadRegistration sampleHost sampleTransaction (sampleLost phase) =
      .ok (sampleRegistration phase) :=
  loadRegistration_stands (j := sampleRegistration phase) (sampleRegistration_valid phase)
    (sampleLost_stands phase)

theorem sampleLost_enter (phase : RegistrationPhase) :
    (enterRegistration sampleHost sampleAround).run (sampleLost phase) = ⟨[], .ok ()⟩ :=
  enterRegistration_run _ samplePassed (sampleLost_stands phase)

theorem sampleLost_entered (phase : RegistrationPhase) :
    Entered sampleHost sampleAround sampleTransaction (sampleLost phase)
      (sampleRegistration phase) where
  identity := (validateRegistration_ok.mp (sampleRegistration_valid phase)).1
  enter := by rw [Program.out, sampleLost_enter]
  load := sampleLost_load phase

/-- An interrupted registration is rolled back as it should be. -/
theorem failed_recovery_keeps_files_written :
    KeepsFiles (sampleLost .workspaceWritten)
      (∃ j, loadRegistration sampleHost sampleTransaction (sampleLost .workspaceWritten) = .ok j ∧
        j.RecordsCommit)
      ((recoverWorkspaceRegistration sampleHost sampleAround sampleTransaction .rollback).out
        (sampleLost .workspaceWritten))
      ((recoverWorkspaceRegistration sampleHost sampleAround sampleTransaction .rollback).final
        (sampleLost .workspaceWritten)) := by
  apply (failed_recovery_keeps_files (sampleLost_stands _).shape ?_).mpr
  · rintro ⟨j, a, b, hent, -, -, hu⟩
    obtain rfl := Except.ok.inj ((sampleLost_load _).symm.trans hent.load)
    obtain ⟨-, -, -, ⟨hphase, -⟩ | ⟨-, hrank, -⟩⟩ := hu
    · cases hphase
    · exact absurd hrank (by decide)
  · intro j hj
    obtain rfl := Except.ok.inj ((sampleLost_load _).symm.trans hj)
    rfl

/-- The rollback of a complete registration whose replay file is gone removes the workspace file
before it raises. -/
theorem failed_recovery_removes_workspace :
    ¬ KeepsFiles (sampleLost .complete)
      (∃ j, loadRegistration sampleHost sampleTransaction (sampleLost .complete) = .ok j ∧
        j.RecordsCommit)
      ((recoverWorkspaceRegistration sampleHost sampleAround sampleTransaction .rollback).out
        (sampleLost .complete))
      ((recoverWorkspaceRegistration sampleHost sampleAround sampleTransaction .rollback).final
        (sampleLost .complete)) := by
  have hstands := sampleLost_stands .complete
  have hcompared : Compared sampleHost (sampleRegistration .complete)
      (some (sampleRegistration .complete).workspaceFile) none .candidate .absent :=
    ⟨nodeRelation_document _ _ _, (nodeRelation_absent _).mpr rfl⟩
  have hfinal : (enterRegistration sampleHost sampleAround).final (sampleLost .complete) =
      sampleLost .complete :=
    Program.final_of_run (sampleLost_enter .complete)
  obtain ⟨ho, hf⟩ := recover_entered .rollback (sampleLost_entered .complete)
  rw [ho, hf, hfinal]
  intro h
  obtain ⟨hsame, -⟩ := (rollback_ends (sampleRegistration_valid .complete) hstands
    hcompared).keepsFiles.mp h
  have hgone := (hsame (if_neg fun h => h.2.2 rfl)).1
  rw [if_pos ⟨rfl, by decide⟩, hstands.workspace] at hgone
  cases hgone

end Sample

end AgentStack.Runtime
