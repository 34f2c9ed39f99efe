import AgentStack.Runtime.AdmissionSteps

/-! Runs of an admission: every view a crash can leave, from whatever phase it is resumed. -/
namespace AgentStack.Runtime

open AgentStack.Core FileTree Crash Reconcile

variable {host : Host} {L : Layout} {header : AdmissionHeader} {v₀ v v' : View} {s c : FS}

section Preserved

theorem Thinned.staging_shape {f g : Subtree} {i : Integration} (h : Thinned f g)
    (hf : f = noTree ∨ ∃ t, f = stagingOf host t ∧ DirOrNone t ∧ (t [integrationName] = none ∨
      t [integrationName] = some (integrationNode i))) :
    g = noTree ∨ ∃ t, g = stagingOf host t ∧ DirOrNone t ∧ (t [integrationName] = none ∨
      t [integrationName] = some (integrationNode i)) := by
  rcases hg : g [] with _ | n
  · exact .inl (h.eq_noTree hg)
  · rcases hf with rfl | ⟨t, rfl, hdir, hint⟩
    · rcases h.kept [] with he | he
      · rw [hg] at he
        cases he
      · rw [hg] at he
        cases he
    · refine .inr ⟨fun r => g ("task" :: r), funext fun r => ?_, ?_, ?_⟩
      · rcases r with _ | ⟨a, r⟩
        · rcases h.kept [] with he | he
          · exact he
          · rw [hg] at he
            cases he
        · by_cases ha : a = "task"
          · subst ha
            rw [stagingOf_task]
          · rw [stagingOf_other ha]
            rcases h.kept (a :: r) with he | he
            · rw [he, stagingOf_other ha]
            · exact he
      · rcases h.kept ["task"] with he | he
        · rw [DirOrNone, he, stagingOf_task]
          exact hdir
        · exact .inl he
      · change g ["task", integrationName] = none ∨ g ["task", integrationName] = _
        rcases h.kept ["task", integrationName] with he | he
        · rw [he, stagingOf_task]
          exact hint
        · exact .inl he

theorem stagingOf_injective {f g : Subtree} (h : stagingOf host f = stagingOf host g) : f = g := by
  funext r
  rw [← @stagingOf_task host f, h, stagingOf_task]

theorem Shell.withFiles {files : List FileDocument} {g : Subtree} (hg : Shell host g)
    (hfiles : ∀ item ∈ files, item.Valid host) : Shell host (withFiles host files g) := by
  induction files generalizing g with
  | nil => exact hg
  | cons item files ih =>
    exact ih (hg.withFile (hfiles item List.mem_cons_self)) fun x hx =>
      hfiles x (List.mem_cons_of_mem item hx)

theorem taskTree_root {files : List FileDocument} {i : Integration}
    (hfiles : ∀ item ∈ files, item.Valid host) :
    taskTree host files i [] = some (.dir host.dirMode) := by
  rw [taskTree, withIntegration, Function.update_of_ne (by simp)]
  exact (Shell.bareTree.withFiles hfiles).root

@[simp] theorem withIntegration_self (f : Subtree) (i : Integration) :
    withIntegration f i [integrationName] = some (integrationNode i) := Function.update_self _ _ _

theorem observedIn_setPlace {p q : Path} {t : Subtree} (h : q ≠ p) :
    observedIn host (v.setPlace p t).place q = observedIn host v.place q := by
  rw [observedIn, observedIn, View.setPlace_place_of_ne v h]

theorem Mixed.setPlace {ms : List MetadataMutation} {p : Path} {t : Subtree}
    (h : Mixed host v.place ms) (hp : p ∉ ms.map mutationPath) :
    Mixed host (v.setPlace p t).place ms := by
  intro m hm
  have hne : mutationPath m ≠ p := by
    rintro rfl
    exact hp (List.mem_map_of_mem hm)
  rw [observedIn_setPlace hne]
  exact h m hm

theorem DirOrNone.withIntegration {f : Subtree} {i : Integration} (h : DirOrNone f) :
    DirOrNone (withIntegration f i) := by
  rw [DirOrNone, Runtime.withIntegration, Function.update_of_ne (by simp)]
  exact h

variable (A : Admission host L header v₀)

include A in
theorem Admission.staged_root : header.staged host [] = some (.dir host.dirMode) :=
  taskTree_root A.files

/-- What is known of a tree that leaves the staging area. -/
theorem AdmissionView.staging_tree (I : AdmissionView host L header v₀ v) {t : Subtree}
    (hst : v.staging = stagingOf host t) : DirOrNone t ∧ (t [integrationName] = none ∨
      t [integrationName] = some (integrationNode header.admittingIntegration)) := by
  rcases I.staging with hn | ⟨t', ht', h⟩
  · have := congrFun (hn.symm.trans hst) []
    cases this
  · rw [stagingOf_injective (hst.symm.trans ht')]
    exact h

include A in
theorem AdmissionView.withArrived (I : AdmissionView host L header v₀ v) {t : Subtree}
    (hst : v.staging = stagingOf host t) :
    AdmissionView host L header v₀ (v.arrived host header t) := by
  obtain ⟨hdir, hint⟩ := I.staging_tree hst
  have hplace : (v.arrived host header t).place header.tree = t :=
    View.setPlace_place_self (v.reach header.tree) header.tree t
  refine ⟨I.journal, I.ledger, .inr ⟨noTree, rfl, .inl rfl, .inl rfl⟩, ?_, ?_,
    I.metadata.setPlace (v := v.reach header.tree) A.outside, I.outbox,
    fun p hp => .inl (I.known p hp), fun _ m hm => ?_⟩
  · rw [hplace]
    exact hdir
  · rw [hplace]
    exact hint.imp id .inl
  · rcases A.mutations.reached m hm with hr | hr
    · exact .inl (I.known _ hr)
    · exact .inr hr

theorem AdmissionView.withStaging (I : AdmissionView host L header v₀ v) (stage : ProofStage)
    {f : Subtree}
    (hf : f = noTree ∨ ∃ t, f = stagingOf host t ∧ DirOrNone t ∧ (t [integrationName] = none ∨
      t [integrationName] = some (integrationNode header.admittingIntegration))) :
    AdmissionView host L header v₀ { v with
      ledger := stage.ledger header L.transactionId v₀.ledger
      staging := f } :=
  ⟨I.journal, ⟨stage, rfl⟩, hf, I.tree, I.integration, I.metadata, I.outbox, I.known, I.reached⟩

theorem Unstaged.shape {f : Subtree} (h : Unstaged host f) :
    f = noTree ∨ ∃ t, f = stagingOf host t ∧ DirOrNone t ∧ (t [integrationName] = none ∨
      t [integrationName] = some (integrationNode header.admittingIntegration)) := by
  rcases h with rfl | rfl | ⟨g, hg, rfl⟩
  · exact .inl rfl
  · exact .inr ⟨noTree, rfl, .inl rfl, .inl rfl⟩
  · exact .inr ⟨g, rfl, .inr ⟨_, hg.root⟩, .inl hg.bare⟩

include A in
theorem Admission.staged_shape : ∃ t, stagingOf host (header.staged host) = stagingOf host t ∧
    DirOrNone t ∧ (t [integrationName] = none ∨
      t [integrationName] = some (integrationNode header.admittingIntegration)) :=
  ⟨header.staged host, rfl, .inr ⟨_, A.staged_root⟩, .inr (by
    rw [AdmissionHeader.staged, taskTree, withIntegration_self])⟩

theorem AdmissionView.withPlace (I : AdmissionView host L header v₀ v) {g : Path → Subtree}
    (hg : g header.tree = v.place header.tree) (hm : Mixed host g header.metadataMutations) :
    AdmissionView host L header v₀ { v with place := g } := by
  refine ⟨I.journal, I.ledger, I.staging, ?_, ?_, hm, I.outbox, I.known, ?_⟩
  · change DirOrNone (g header.tree)
    rw [hg]
    exact I.tree
  · change g header.tree [integrationName] = none ∨ g header.tree [integrationName] = _ ∨
      g header.tree [integrationName] = _
    rw [hg]
    exact I.integration
  · change (g header.tree ≠ noTree ∨ _) → _
    rw [hg]
    exact I.reached

include A in
theorem AdmissionView.withTree (I : AdmissionView host L header v₀ v) {t : Subtree}
    (hdir : DirOrNone t) (hint : t [integrationName] = none ∨
      t [integrationName] = some (integrationNode header.admittingIntegration) ∨
      t [integrationName] = some (integrationNode header.activeIntegration))
    (hr : v.journal.phase ∉ [.planned, .staged]) :
    AdmissionView host L header v₀ (v.setPlace header.tree t) := by
  refine ⟨I.journal, I.ledger, I.staging, ?_, ?_, I.metadata.setPlace A.outside, I.outbox, I.known,
    fun _ => I.reached (.inr hr)⟩
  · rw [View.setPlace_place_self]
    exact hdir
  · rw [View.setPlace_place_self]
    exact hint

theorem AdmissionView.advanced (I : AdmissionView host L header v₀ v) (phase : Phase)
    (outcome : Option Outcome)
    (hr : v.place header.tree ≠ noTree ∨ v.journal.phase ∉ [.planned, .staged] ∨
      phase ∈ [.planned, .staged]) :
    AdmissionView host L header v₀ { v with journal := v.journal.advanced phase outcome } := by
  refine ⟨?_, I.ledger, I.staging, I.tree, I.integration, I.metadata, I.outbox, I.known, ?_⟩
  · change v.journal.advanced phase outcome = _
    conv_lhs => rw [TaskJournal.advanced, I.journal]
    rfl
  · rintro (hp | hp)
    · exact I.reached (.inl hp)
    · rcases hr with hr | hr | hr
      · exact I.reached (.inl hr)
      · exact I.reached (.inr hr)
      · exact absurd hr hp

include A in
theorem AdmissionView.next (I : AdmissionView host L header v₀ v)
    (h : AdmissionNext host L header v₀ v v') : AdmissionView host L header v₀ v' := by
  cases h with
  | staged phase free =>
    refine (I.withStaging .reserved ?_).advanced _ _ (.inr (.inr (by simp)))
    unfold View.stagedArea
    split
    · exact I.staging
    · exact .inr A.staged_shape
  | @moved t m phase absent staging dir =>
    refine (I.withArrived A staging).advanced _ _ (.inl ?_)
    have hplace : (v.arrived host header t).place header.tree = t :=
      View.setPlace_place_self (v.reach header.tree) header.tree t
    rw [hplace]
    rintro rfl
    cases dir
  | stands phase present => exact I.advanced _ _ (.inl present)
  | applied phase off candidate =>
    exact (I.withPlace (off _ A.outside) fun m hm => .inr (candidate m hm)).advanced _ _
      (.inr (.inl (by simp [phase])))
  | activated phase integration =>
    exact (I.withTree A I.tree.withIntegration (.inr (.inr (withIntegration_self _ _)))
      (by simp [phase])).advanced _ _ (.inr (.inl (by simp [phase])))
  | pending phase => exact I.advanced _ _ (.inr (.inl (by simp [phase])))
  | complete phase =>
    have := (I.withStaging .consumed (f := noTree) (.inl rfl)).advanced .complete
      (some .committed) (.inr (.inl (by simp [phase])))
    exact ⟨this.journal, this.ledger, this.staging, this.tree, this.integration, this.metadata,
      fun _ => .inr rfl, this.known, this.reached⟩

end Preserved

section Resume

variable (A : Admission host L header v₀)

include A in
theorem Admission.phase_refines (I : AdmissionView host L header v₀ v) (h : Shows host L v s)
    (recovery : Bool) (hp : v.journal.phase ∈ admissionPhases) :
    Refines host L header v₀ v (admissionStep host header recovery v.journal) s := by
  simp only [admissionPhases, List.mem_cons, List.not_mem_nil, or_false] at hp
  rcases hp with hp | hp | hp | hp | hp | hp
  · exact A.planned_refines I h hp recovery
  · exact A.staged_refines I h hp recovery
  · exact A.taskMoved_refines I h hp recovery
  · exact A.metadataApplied_refines I h hp recovery
  · exact A.admissionCommitted_refines I h hp recovery
  · exact A.cleanupPending_refines I h hp recovery

theorem AdmissionNext.phase (h : AdmissionNext host L header v₀ v v') :
    v'.journal.phase = phaseAfter v.journal.phase admissionPhases := by
  cases h with
  | staged phase free => rw [phase]; rfl
  | moved phase absent staging dir => rw [phase]; rfl
  | stands phase present => rw [phase]; rfl
  | applied phase off candidate => rw [phase]; rfl
  | activated phase integration => rw [phase]; rfl
  | pending phase => rw [phase]; rfl
  | complete phase => rw [phase]; rfl

/-- What resuming an admission does to the store, from any phase. -/
abbrev AdmissionRun (host : Host) (L : Layout) (header : AdmissionHeader) (v₀ : View) :
    View → View → Prop :=
  Relation.ReflTransGen (AdmissionNext host L header v₀)

abbrev AdmissionRunCut (host : Host) (L : Layout) (header : AdmissionHeader) (v₀ : View) :
    View → View → Prop :=
  RunCut (AdmissionNext host L header v₀) (AdmissionCut host L header v₀)

abbrev AdmissionSticks (host : Host) (L : Layout) (header : AdmissionHeader) (v₀ v : View) :
    FS → Prop :=
  RunSticks host L (AdmissionNext host L header v₀) (AdmissionCut host L header v₀)
    (AdmissionStuck host L header v₀) v

include A in
theorem Admission.resume_refines (I : AdmissionView host L header v₀ v) (h : Shows host L v s)
    (recovery : Bool)
    (hp : v.journal.phase ∈ admissionPhases ∨ v.journal.phase = .complete) :
    Triple (· = s) (resumeAdmission host header recovery v.journal)
      (Ends (fun _ t => ∃ u, AdmissionRun host L header v₀ v u ∧ u.journal.phase = .complete ∧
          Shows host L u t)
        (AdmissionSticks host L header v₀ v))
      (Leaves host L (AdmissionRunCut host L header v₀ v)) := by
  obtain ⟨x, hx⟩ := A.active
  unfold resumeAdmission
  refine (runPhases_refines (AdmissionView host L header v₀) admissionPhases (by decide)
    (by decide) (fun v v' hv hn => hv.next A hn) (fun v v' hn _ => hn.phase)
    (fun v s hv hs hm => A.phase_refines hv hs recovery hm) I h hp).bind_ends fun j =>
      Triple.of_forall fun t ⟨u, ⟨hrun, hc⟩, hj, hu⟩ => ?_
  have hok : ∃ r, (Program.lift (result host v.journal.transactionId v.journal.taskRef
      header.activeIntegration .committed) : Prog TaskMutationResult).run t = ⟨[], .ok r⟩ :=
    ⟨_, by rw [Program.lift_run, result, hx]; rfl⟩
  obtain ⟨r, hr⟩ := hok
  rintro t rfl
  unfold Program.out Program.final
  rw [hr]
  exact ⟨by simp, u, hrun, hc, hu⟩

theorem AdmissionView.run (A : Admission host L header v₀) (I : AdmissionView host L header v₀ v)
    (h : AdmissionRun host L header v₀ v v') : AdmissionView host L header v₀ v' := by
  induction h with
  | refl => exact I
  | tail _ hn ih => exact ih.next A hn

end Resume

section Rollback

theorem ProofStage.ledger_injective {transactionId : String} {base : ReplayLedger}
    (hb : base.entries.lookup header.proof.proofKey = none) {a b : ProofStage}
    (h : a.ledger header transactionId base = b.ledger header transactionId base) : a = b := by
  have he : a.entry header transactionId = b.entry header transactionId := by
    rw [← ProofStage.lookup hb, h, ProofStage.lookup hb]
  cases a <;> cases b <;>
    simp_all [ProofStage.entry, AdmissionHeader.tombstone, AdmissionHeader.reservation]

/-- Places part of the way back: what a rollback from the journal's phase may have undone. -/
structure Undoing (host : Host) (header : AdmissionHeader) (v : View) (g : Path → Subtree) :
    Prop where
  tree : Thinned (v.place header.tree) (g header.tree)
  kept : v.journal.phase ∉ [.taskMoved, .metadataApplied] →
    g header.tree = v.place header.tree
  off : ∀ p, p ≠ header.tree → p ∉ header.metadataMutations.map mutationPath → g p = v.place p
  still : v.journal.phase ≠ .metadataApplied → ∀ p, p ≠ header.tree → g p = v.place p
  mixed : Mixed host g header.metadataMutations

/-- A rollback that got through. -/
def RollbackEnd (host : Host) (L : Layout) (header : AdmissionHeader) (v₀ v v' : View) : Prop :=
  ∃ g, Undoing host header v g ∧
    (v.journal.phase ∈ [.taskMoved, .metadataApplied] → g header.tree = noTree) ∧
    (v.journal.phase = .metadataApplied → AllOriginal host g header.metadataMutations) ∧
    v' = { v with
      journal := v.journal.advanced .complete (some .rolledBack)
      ledger := ProofStage.consumed.ledger header L.transactionId v₀.ledger
      staging := noTree
      place := g }

/-- A rollback cut short. -/
inductive RollbackCut (host : Host) (L : Layout) (header : AdmissionHeader) (v₀ v : View) :
    View → Prop
  | undoing {g : Path → Subtree} {f : Subtree} {l : ReplayLedger}
    (places : Undoing host header v g) (staging : Thinned v.staging f)
    (ledger : l = v.ledger ∨
      l = ProofStage.reserved.ledger header L.transactionId v₀.ledger ∨
      l = ProofStage.consumed.ledger header L.transactionId v₀.ledger) :
    RollbackCut host L header v₀ v { v with ledger := l, staging := f, place := g }
  | done {v' : View} (h : RollbackEnd host L header v₀ v v') : RollbackCut host L header v₀ v v'

/-- The phases a rollback may start from. -/
def rollbackPhases : List Phase := [.planned, .staged, .taskMoved, .metadataApplied]

variable (A : Admission host L header v₀) (I : AdmissionView host L header v₀ v)

include A I in
/-- What every rollback ends with, once metadata and tree are undone. -/
private theorem Admission.rollback_tail {g : Path → Subtree}
    (h : Shows host L { v with place := g } s) (hg : Undoing host header v g)
    (hphase : v.journal.phase ∈ rollbackPhases)
    (htree : v.journal.phase ∈ [.taskMoved, .metadataApplied] → g header.tree = noTree)
    (hmeta : v.journal.phase = .metadataApplied → AllOriginal host g header.metadataMutations) :
    Triple (· = s) (do
        removeStaging v.journal.transactionId
        reserveFromHeader host v.journal.transactionId header true
        consumeFromHeader host v.journal.transactionId header
        let _ ← advanceTaskJournal host v.journal .complete (some .rolledBack)
        Program.lift (result host v.journal.transactionId v.journal.taskRef
          header.admittingIntegration .rolledBack))
      (Ends (fun _ t => v.ledger ≠ ProofStage.consumed.ledger header L.transactionId v₀.ledger ∧
          ∃ v', RollbackEnd host L header v₀ v v' ∧ Shows host L v' t)
        fun t => v.ledger = ProofStage.consumed.ledger header L.transactionId v₀.ledger ∧
          Leaves host L (RollbackCut host L header v₀ v) t)
      (Leaves host L (RollbackCut host L header v₀ v)) := by
  have hid : v.journal.transactionId = L.transactionId := h.journals.transactionId_eq
  have hdir : DirOrNone v.staging := by
    rcases I.staging with hn | ⟨f, hf, -⟩
    · exact .inl (by rw [hn]; rfl)
    · exact .inr ⟨_, by rw [hf]; rfl⟩
  obtain ⟨x, hx⟩ := A.admitting
  obtain ⟨stage, hl⟩ := I.ledger
  rw [hid]
  refine ((removeStaging_spec h hdir).crash ?_).ends.bind_ends fun _ =>
    Triple.of_forall fun t ht => ?_
  · rintro c ⟨f, hf, hc⟩
    exact .of_shows hc (.undoing hg hf (.inl rfl))
  by_cases hs : stage = .consumed
  · obtain ⟨e, he⟩ := A.reserve_consumed ht (hs ▸ hl) true
    exact Triple.bind_raised he ⟨hs ▸ hl, .of_shows ht (.undoing hg .gone (.inl rfl))⟩
  have hne : v.ledger ≠ ProofStage.consumed.ledger header L.transactionId v₀.ledger := by
    intro he
    rw [hl] at he
    exact hs (ProofStage.ledger_injective A.fresh he)
  refine ((A.reserve_spec ht hl hs true).crash ?_).ends.bind_ends fun _ =>
    Triple.of_forall fun u hu => ?_
  · rintro c (hc | hc)
    · exact .of_shows hc (.undoing hg .gone (.inl rfl))
    · exact .of_shows hc (.undoing hg .gone (.inr (.inl rfl)))
  have hstage : ProofStage.reserved ≠ .absent := by decide
  refine ((A.consume_spec hu rfl hstage).crash ?_).ends.bind_ends fun _ =>
    Triple.of_forall fun w hw => ?_
  · rintro c (hc | hc)
    · exact .of_shows hc (.undoing hg .gone (.inr (.inl rfl)))
    · exact .of_shows hc (.undoing hg .gone (.inr (.inr rfl)))
  -- the journal's last phase can be reached from each of these
  have hcan : v.journal.CanAdvance .complete (some .rolledBack) := by
    have hop : v.journal.operation = .admission := by
      rw [I.journal]
      exact A.operation
    simp only [rollbackPhases, List.mem_cons, List.not_mem_nil, or_false] at hphase
    rcases hphase with hp | hp | hp | hp <;>
      exact canAdvance_admission hop rfl (by rw [hp]; rfl) (by decide) (by simp)
  have hend : RollbackEnd host L header v₀ v _ := ⟨g, hg, htree, hmeta, rfl⟩
  refine ((advanceTaskJournal_spec hw hcan).crash ?_).bind_returns fun _ =>
    Triple.of_forall fun y ⟨_, hy⟩ => ?_
  · rintro c (hc | hc)
    · exact ⟨_, true, .undoing hg .gone (.inr (.inr rfl)), hc⟩
    · exact .of_shows hc (.done hend)
  have hok : ∃ r, (Program.lift (result host L.transactionId v.journal.taskRef
      header.admittingIntegration .rolledBack) : Prog TaskMutationResult).run y = ⟨[], .ok r⟩ :=
    ⟨_, by rw [Program.lift_run, result, hx]; rfl⟩
  obtain ⟨r, hr⟩ := hok
  rintro y rfl
  unfold Program.out Program.final
  rw [hr]
  exact ⟨by simp, hne, _, hend, hy⟩

include A in
/-- Any part of the way down is one of undoing. -/
private theorem Admission.undoing {g : Path → Subtree} {k : Subtree}
    (hk : Thinned (v.place header.tree) k)
    (hoff : OffMetadata header.metadataMutations v.place g)
    (hmix : Mixed host g header.metadataMutations)
    (hstill : v.journal.phase ≠ .metadataApplied → g = v.place)
    (hkept : v.journal.phase ∉ [.taskMoved, .metadataApplied] → k = v.place header.tree) :
    Undoing host header v (Function.update g header.tree k) := by
  refine ⟨?_, fun hp => ?_, fun p hne hp => ?_, fun hp p hne => ?_,
    hmix.setPlace (v := { v with place := g }) A.outside⟩
  · rw [Function.update_self]
    exact hk
  · rw [Function.update_self]
    exact hkept hp
  · rw [Function.update_of_ne hne]
    exact hoff p hp
  · rw [Function.update_of_ne hne, hstill hp]

include A I in
theorem Admission.rollback_refines (h : Shows host L v s)
    (hphase : v.journal.phase ∈ rollbackPhases) :
    Triple (· = s) (rollbackAdmission host header v.journal)
      (Ends (fun _ t => v.ledger ≠ ProofStage.consumed.ledger header L.transactionId v₀.ledger ∧
          ∃ v', RollbackEnd host L header v₀ v v' ∧ Shows host L v' t)
        fun t => v.ledger = ProofStage.consumed.ledger header L.transactionId v₀.ledger ∧
          Leaves host L (RollbackCut host L header v₀ v) t)
      (Leaves host L (RollbackCut host L header v₀ v)) := by
  have href : v.journal.taskRef = header.taskRef := by
    have := (validateJournal_ok.mp h.journals.valid).2.2.2.2.2.1
    rw [this, I.journal]
    simp [A.immutableHeader, Header.taskRef]
  have hthin := (h.places _ A.place).thinned
  have hself : Function.update v.place header.tree (v.place header.tree) = v.place :=
    Function.update_eq_self _ _
  -- the tree goes once the metadata is `g`
  have hremove : ∀ {g : Path → Subtree} {t : FS}, Shows host L { v with place := g } t →
      v.journal.phase ∈ [.taskMoved, .metadataApplied] →
      OffMetadata header.metadataMutations v.place g → Mixed host g header.metadataMutations →
      (v.journal.phase ≠ .metadataApplied → g = v.place) →
      (v.journal.phase = .metadataApplied → AllOriginal host g header.metadataMutations) →
      Triple (· = t) (do
          removeTaskTree header.taskRef
          removeStaging v.journal.transactionId
          reserveFromHeader host v.journal.transactionId header true
          consumeFromHeader host v.journal.transactionId header
          let _ ← advanceTaskJournal host v.journal .complete (some .rolledBack)
          Program.lift (result host v.journal.transactionId header.taskRef
            header.admittingIntegration .rolledBack))
        (Ends (fun _ t => v.ledger ≠ ProofStage.consumed.ledger header L.transactionId v₀.ledger ∧
            ∃ v', RollbackEnd host L header v₀ v v' ∧ Shows host L v' t)
          fun t => v.ledger = ProofStage.consumed.ledger header L.transactionId v₀.ledger ∧
            Leaves host L (RollbackCut host L header v₀ v) t)
        (Leaves host L (RollbackCut host L header v₀ v)) := by
    intro g t ht hp hoff hmix hstill hall
    have htree : g header.tree = v.place header.tree := hoff _ A.outside
    have hdir : DirOrNone (({ v with place := g } : View).place (segments header.taskRef)) := by
      change DirOrNone (g header.tree)
      rw [htree]
      exact I.tree
    have hU : ∀ k, Thinned (v.place header.tree) k →
        Undoing host header v (Function.update g header.tree k) := fun k hk =>
      A.undoing hk hoff hmix hstill fun hn => absurd hp hn
    refine ((removeTaskTree_spec ht A.place hdir).crash ?_).ends.bind_ends fun _ =>
      Triple.of_forall fun u hu => ?_
    · rintro c ⟨k, hk, hc⟩
      have hk : Thinned (g header.tree) k := hk
      rw [htree] at hk
      exact .of_shows hc (.undoing (hU k hk) h.staging.thinned (.inl rfl))
    · have := A.rollback_tail I (g := Function.update g header.tree noTree) hu (hU _ .gone)
        hphase (fun _ => Function.update_self _ _ _) fun hm m hx => by
          have hne : mutationPath m ≠ header.tree := by
            intro he
            exact A.outside (he ▸ List.mem_map_of_mem hx)
          rw [observedIn, Function.update_of_ne hne]
          exact hall hm m hx
      rwa [href] at this
  have hU₀ : Undoing host header v v.place := by
    have := A.undoing (g := v.place) hthin (fun _ _ => rfl) I.metadata (fun _ => rfl)
      fun _ => rfl
    rwa [hself] at this
  unfold rollbackAdmission
  rw [href]
  have hearly : v.journal.phase ∉ [.taskMoved, .metadataApplied] →
      v.journal.phase ≠ .metadataApplied := fun hn he => hn (by simp [he])
  simp only [rollbackPhases, List.mem_cons, List.not_mem_nil, or_false] at hphase
  rcases hphase with hp | hp | hp | hp
  · have := A.rollback_tail I (g := v.place) h hU₀ (by simp [rollbackPhases, hp])
      (fun hm => by simp [hp] at hm) fun hm => by simp [hp] at hm
    simpa [hp, href] using this
  · have := A.rollback_tail I (g := v.place) h hU₀ (by simp [rollbackPhases, hp])
      (fun hm => by simp [hp] at hm) fun hm => by simp [hp] at hm
    simpa [hp, href] using this
  · have := hremove (g := v.place) h (by simp [hp]) (fun _ _ => rfl) I.metadata (fun _ => rfl)
      fun hm => by simp [hp] at hm
    simpa [hp] using this
  · have hmut : Mutable host L v header.metadataMutations :=
      A.mutations.mono (I.reached (.inr (by simp [hp])))
    have hcut : ∀ c, (∃ g, Shows host L { v with place := g } c ∧
        OffMetadata header.metadataMutations v.place g ∧ Mixed host g header.metadataMutations) →
        Leaves host L (RollbackCut host L header v₀ v) c := by
      rintro c ⟨g, hc, hoff, hmix⟩
      have hg : Function.update g header.tree (v.place header.tree) = g := by
        rw [← hoff _ A.outside, Function.update_eq_self]
      have := A.undoing hthin hoff hmix (fun hn => absurd hp hn) fun _ => rfl
      rw [hg] at this
      exact .of_shows hc (.undoing this h.staging.thinned (.inl rfl))
    have hundo := (restoreMetadata_spec h hmut I.metadata).crash hcut
    have := hundo.ends.bind_ends fun _ => Triple.of_forall fun t ht =>
      hremove ht.choose_spec.1 (by simp [hp]) ht.choose_spec.2.1
        (fun m hm => .inl (ht.choose_spec.2.2 m hm)) (fun hn => absurd hp hn)
        fun _ => ht.choose_spec.2.2
    simpa [hp] using this

end Rollback

end AgentStack.Runtime
