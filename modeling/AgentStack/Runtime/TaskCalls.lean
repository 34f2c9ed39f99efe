import AgentStack.Runtime.Frames
import AgentStack.Runtime.TaskDocuments

/-! What a call on a task leaves of its integration document, from any store. -/
namespace AgentStack.Runtime

open AgentStack.Core FileTree Crash Reconcile DirTree

variable {host : Host} {s t : FS} {ref : String} {before after : Integration}

/-! ### The integration file -/

theorem integrationFile_ne_nil : integrationFile ref ≠ [] := by simp [integrationFile]

theorem name_integrationFile : name (integrationFile ref) = integrationName := by
  simp [integrationFile]

theorem integrationFile_not_temp :
    ¬ IsTemp casPrefix (parent (integrationFile ref)) (integrationFile ref) := by
  rintro ⟨x, -, -, h⟩
  have hname := congrArg name h
  rw [name_integrationFile, name_append] at hname
  have := congrArg (fun n => n.toList.head?) hname
  simp [integrationName, casPrefix] at this

/-- A document at its file. -/
def DocumentAt (s : FS) (ref : String) (d : Integration) : Prop :=
  s.get (integrationFile ref) = some (.file (.integration d) integrationMode)

/-- A swap of a regular file either puts its bytes there or leaves the tree alone. -/
theorem compareAndSwap_regular {p : Path} {expected : FileState} {c : Content}
    {m : FileTree.Mode} {managed : Option String} (hp : p ≠ [])
    (htmp : ¬ IsTemp casPrefix (parent p) p) (hpath : expected.path = p) :
    Triple (· = s)
      (compareAndSwap host expected (regularState p (host.hashBytes c) m managed) (some c))
      (Ends (fun _ t => t.get = Function.update s.get p (some (.file c m)))
        fun t => t.get = s.get ∨ t.get = Function.update s.get p (some (.file c m)))
      fun _ => True := by
  have hlook : ∀ f : FS → Except Failure Unit,
      Triple (C := fun _ : FS => True) (· = s) (Program.inspect f) fun _ t => t = s :=
    fun f => Triple.inspect f fun t ht => ht
  have hput : Triple (· = s)
      (replaceFile host.names casPrefix p c m (Program.inspect (assertState host expected)))
      (Ends (fun _ t => t.get = Function.update s.get p (some (.file c m)))
        fun t => t.get = s.get) fun _ => True := by
    have hany : Triple (· = s) (replaceFile host.names casPrefix p c m
        (Program.inspect (assertState host expected))) _ _ := replaceFile_any hp htmp fun t _ => rfl
    refine (hany.crash fun _ _ => trivial).post fun o t h => ?_
    cases h with
    | done dir file get => exact get
    | failed e get why => exact get
  unfold compareAndSwap
  rw [if_neg (by simp [regularState, hpath])]
  refine (hlook _).bind (fun _ => ?_) fun e t ht => Or.inl (by rw [ht])
  refine (hlook _).bind (fun _ => ?_) fun e t ht => Or.inl (by rw [ht])
  simp only [regularState, Bool.not_true, Bool.false_eq_true, if_false, ne_eq,
    not_true_eq_false, or_self, replaceTarget, hpath]
  refine (Triple.inspect (C := fun _ => True) (Q := fun _ t => t = s) _ fun t ht => ht).bind
    (fun ready => ?_) fun e t ht => Or.inl (by rw [ht])
  split
  · rintro t rfl
    exact ⟨by simp, Or.inl rfl⟩
  · refine hput.bind (fun _ => ?_) fun e t ht => Or.inl ht
    refine Triple.of_forall fun t ht => ?_
    have ht' : t.get = Function.update s.get p (some (.file c m)) := ht
    refine (Triple.inspect (C := fun _ => True) (Q := fun _ u => u = t) _ fun u hu => hu).bind
      (fun result => ?_) fun e u hu => Or.inr (by rw [hu, ht'])
    split
    · rintro u rfl
      exact ⟨by simp, Or.inr ht'⟩
    · rintro u rfl
      exact ⟨by simp, ht'⟩

/-- The exchange of the document: done when it returns, and otherwise done or not. -/
theorem casIntegration_ends (hdoc : DocumentAt s ref before)
    (hsep : host.hashBytes (.integration before) ≠ host.hashBytes (.integration after)) :
    Triple (· = s) (casIntegration host ref before after)
      (Ends (fun _ t => DocumentAt t ref after)
        fun t => DocumentAt t ref before ∨ DocumentAt t ref after) fun _ => True := by
  have hcurrent : ∀ current, observeFileState host (integrationFile ref) none s = .ok current →
      current = integrationState host ref before := by
    intro current h
    obtain ⟨_, -, h⟩ := bind_eq_ok h
    rw [hdoc] at h
    exact (Except.ok.inj h).symm
  unfold casIntegration
  have hlook : Triple (C := fun _ : FS => True) (· = s)
      (Program.inspect (observeFileState host (integrationState host ref before).path none))
      fun o t => t = s ∧
        ∀ current, o = .ok current → current = integrationState host ref before := by
    refine Triple.inspect _ ?_
    rintro t rfl
    exact ⟨rfl, hcurrent⟩
  refine hlook.bind (fun current => ?_) fun e t ht => Or.inl (by rw [ht.1]; exact hdoc)
  refine Triple.of_forall fun t ht => ?_
  obtain ⟨rfl, hc⟩ := ht
  have hne : current ≠ integrationState host ref after := by
    rw [hc current rfl]
    intro h
    apply hsep
    simpa [integrationState, regularState] using h
  rw [if_neg hne]
  have hdone : ∀ u : FS, u.get = Function.update t.get (integrationFile ref)
      (some (.file (.integration after) integrationMode)) → DocumentAt u ref after := by
    intro u hu
    rw [DocumentAt, hu, Function.update_self]
  have hswap : Triple (· = t) (compareAndSwap host (integrationState host ref before)
      (integrationState host ref after) (some (.integration after))) _ _ :=
    compareAndSwap_regular integrationFile_ne_nil integrationFile_not_temp rfl
  refine hswap.bind (fun _ => ?_) ?_
  · intro u hu
    exact ⟨by simp, hdone u hu⟩
  · intro e u hu
    rcases hu with hu | hu
    · refine Or.inl ?_
      rw [DocumentAt, hu]
      exact hdoc
    · exact Or.inr (hdone u hu)

/-! ### What the bookkeeping leaves alone -/

/-- No integration file lies on the path. -/
def Plain (q : Path) : Prop := integrationName ∉ q

theorem integrationFile_not_plain : ¬ Plain (integrationFile ref) := by
  simp [Plain, integrationFile]

theorem Plain.above {p q : Path} (hp : Plain p) (h : q <+: p) : Plain q :=
  fun hq => hp (h.subset hq)

theorem plain_lock (taskRef : String) : Plain (taskLockPath host taskRef) := by
  intro h
  simp only [taskLockPath, List.mem_cons, List.not_mem_nil, or_false] at h
  rcases h with h | h | h | h
  · exact absurd h (by decide)
  · exact absurd h (by decide)
  · exact absurd h (by decide)
  · have := congrArg (fun n => n.toList.getLast?) h
    simp [integrationName] at this

theorem plain_gate : Plain (controlDir ++ ["runtime-state.lock"]) := by
  unfold Plain
  decide

theorem plain_journal (transactionId : String) : Plain (journalFile transactionId) := by
  intro h
  simp only [journalFile, journalRoot, journalName, List.cons_append, List.nil_append,
    List.mem_cons, List.not_mem_nil, or_false] at h
  rcases h with h | h | h
  · exact absurd h (by decide)
  · exact absurd h (by decide)
  · have := congrArg (fun n => n.toList.getLast?) h
    simp [integrationName] at this

theorem plain_outbox (effectId : String) : Plain (outboxPath effectId) := by
  intro h
  simp only [outboxPath, outboxRoot, List.cons_append, List.nil_append,
    List.mem_cons, List.not_mem_nil, or_false] at h
  rcases h with h | h | h | h
  · exact absurd h (by decide)
  · exact absurd h (by decide)
  · exact absurd h (by decide)
  · have := congrArg (fun n => n.toList.getLast?) h
    simp [integrationName] at this

theorem enterTask_plain (taskRef : String) (current : Option String) :
    Leaves (Frame Plain) (enterTask host taskRef current) :=
  (enterTask_frame taskRef current (fun _ => plain_gate.above)
    fun _ => (plain_lock taskRef).above).leaves

section Journal

variable {transactionId taskId taskRef : String} {operation : Operation} {header : Header}
  {document : TaskJournal} {phase : Phase} {outcome : Option Outcome}

theorem createTaskJournal_plain :
    Leaves (Frame Plain)
      (createTaskJournal host transactionId operation taskId taskRef header) :=
  createTaskJournal_leaves fun _ => (plain_journal transactionId).above

theorem advanceTaskJournal_plain :
    Leaves (Frame Plain) (advanceTaskJournal host document phase outcome) :=
  advanceTaskJournal_leaves fun _ => (plain_journal document.transactionId).above

theorem createTaskJournal_out {journal : TaskJournal}
    (h : (createTaskJournal host transactionId operation taskId taskRef header).out s =
      .ok journal) : journal.phase = .planned := by
  obtain ⟨path, -, h⟩ := Program.lift_out_eq_ok h
  obtain ⟨present, -, h, -⟩ := Program.bind_out_eq_ok h
  split at h
  · cases h
  · obtain ⟨_, -, h⟩ := Program.lift_out_eq_ok h
    obtain ⟨_, -, h, -⟩ := Program.bind_out_eq_ok h
    rw [← Except.ok.inj h]

theorem advanceTaskJournal_out {journal : TaskJournal}
    (h : (advanceTaskJournal host document phase outcome).out s = .ok journal) :
    journal.phase = phase := by
  obtain ⟨_, -, h⟩ := Program.lift_out_eq_ok h
  split at h
  · split at h
    · cases h
    · obtain ⟨_, -, h⟩ := Program.lift_out_eq_ok h
      obtain ⟨_, -, h⟩ := Program.lift_out_eq_ok h
      obtain ⟨_, -, h, -⟩ := Program.bind_out_eq_ok h
      rw [← Except.ok.inj h]
      rfl
  · cases h

/-- A journal step keeps what its frame keeps, and returns the journal at its new phase. -/
theorem advanceTaskJournal_ends {P : FS → Prop}
    (hP : ∀ s t, Frame Plain s t → P s → P t) :
    Triple P (advanceTaskJournal host document phase outcome)
      (Ends (fun journal t => P t ∧ journal.phase = phase) P) fun _ => True := by
  intro s hs
  have hkeep := (advanceTaskJournal_plain.triple hP (p := advanceTaskJournal host document phase
    outcome)) s hs
  refine ⟨hkeep.1, ?_⟩
  cases ho : (advanceTaskJournal host document phase outcome).out s with
  | ok journal =>
    rw [ho] at hkeep
    exact ⟨hkeep.2, advanceTaskJournal_out ho⟩
  | error e =>
    rw [ho] at hkeep
    exact hkeep.2

end Journal

/-! ### Where an archive has the document -/

/-- The document at one of two refs, and no integration file at the other. -/
structure Placed (s : FS) (at_ away : String) (d : Integration) : Prop where
  shape : s.WellFormed
  document : DocumentAt s at_ d
  gone : s.get (integrationFile away) = none

theorem Placed.frame {W : Path → Prop} {a b : String} {d : Integration} (h : Placed s a b d)
    (hf : Frame W s t) (ha : ¬ W (integrationFile a)) (hb : ¬ W (integrationFile b)) :
    Placed t a b d := by
  constructor
  · exact hf.shape h.shape
  · rw [DocumentAt, hf.off _ ha]
    exact h.document
  · rw [hf.off _ hb]
    exact h.gone

theorem Placed.plain {a b : String} {d : Integration} (h : Placed s a b d)
    (hf : Frame Plain s t) : Placed t a b d :=
  h.frame hf integrationFile_not_plain integrationFile_not_plain

theorem Placed.ne {a b : String} {d : Integration} (h : Placed s a b d) :
    integrationFile b ≠ integrationFile a := by
  intro heq
  have hgone := h.gone
  rw [heq, h.document] at hgone
  cases hgone

/-- The exchange of the document where it is. -/
theorem Placed.exchange {a b : String} {d d' : Integration}
    (hsep : host.hashBytes (.integration d) ≠ host.hashBytes (.integration d')) :
    Triple (Placed · a b d) (casIntegration host a d d')
      (Ends (fun _ t => Placed t a b d') fun t => Placed t a b d ∨ Placed t a b d')
      fun _ => True := by
  intro s hs
  refine ⟨fun _ _ => trivial, ?_⟩
  have hframe : Frame (· = integrationFile a) s ((casIntegration host a d d').final s) :=
    casIntegration_leaves _ _ _ (W := (· = integrationFile a)) rfl s
  have hplace : ∀ d'', DocumentAt ((casIntegration host a d d').final s) a d'' →
      Placed ((casIntegration host a d d').final s) a b d'' := by
    intro d'' hdoc
    refine ⟨hframe.shape hs.shape, hdoc, ?_⟩
    rw [hframe.off _ hs.ne]
    exact hs.gone
  have hends := (casIntegration_ends hs.document hsep s rfl).2
  cases ho : (casIntegration host a d d').out s with
  | ok u =>
    rw [ho] at hends
    exact hplace d' hends
  | error e =>
    rw [ho] at hends
    exact hends.imp (hplace d) (hplace d')

/-- Without the file there is nothing to exchange. -/
theorem Placed.missing {a b : String} {d d' d'' : Integration} :
    Triple (Placed · a b d) (casIntegration host b d' d'')
      (Ends (fun _ _ => False) fun t => Placed t a b d) fun _ => True := by
  refine Triple.of_forall fun s hs => ?_
  have hobs : ∀ m, observeFileState host (integrationFile b) none s = .ok m →
      m = absentState (integrationFile b) none := by
    intro m h
    obtain ⟨_, -, h⟩ := bind_eq_ok h
    rw [hs.gone] at h
    exact (Except.ok.inj h).symm
  have hlook : Triple (C := fun _ : FS => True) (· = s)
      (Program.inspect (observeFileState host (integrationState host b d').path none))
      fun o t => t = s ∧ ∀ m, o = .ok m → m = absentState (integrationFile b) none := by
    refine Triple.inspect _ ?_
    rintro t rfl
    exact ⟨rfl, hobs⟩
  refine hlook.bind (fun m => ?_) fun e t ht => by rw [Ends, ht.1]; exact hs
  refine Triple.of_forall fun t ht => ?_
  obtain ⟨rfl, hm⟩ := ht
  have hne : m ≠ integrationState host b d'' := by
    rw [hm m rfl]
    simp [absentState, integrationState, regularState]
  rw [if_neg hne]
  have hassert : ∃ e, assertState host (integrationState host b d') t = .error e := by
    unfold assertState
    cases ho : observeFileState host (integrationFile b) none t with
    | error e =>
      refine ⟨e, ?_⟩
      change (observeFileState host (integrationFile b) none t >>= _) = _
      rw [ho]
      rfl
    | ok m' =>
      have hne' : m' ≠ integrationState host b d' := by
        rw [hobs m' ho]
        simp [absentState, integrationState, regularState]
      refine ⟨casFailure "current file state differs from approved precondition"
        (integrationFile b), ?_⟩
      change (observeFileState host (integrationFile b) none t >>= _) = _
      rw [ho, bind_ok_eq, if_neg hne']
      rfl
  obtain ⟨e, he⟩ := hassert
  have hswap : Triple (C := fun _ : FS => True) (· = t)
      (compareAndSwap host (integrationState host b d') (integrationState host b d'')
        (some (.integration d''))) (Ends (fun _ _ => False) fun u => Placed u a b d) := by
    have hpath : (integrationState host b d').path = (integrationState host b d'').path := rfl
    unfold compareAndSwap
    rw [if_neg (not_not_intro hpath)]
    refine Triple.bind (R := fun _ u => u = t) (Triple.inspect _ fun u hu => hu)
      (fun _ => ?_) fun e u hu => by rw [Ends, hu]; exact hs
    exact Triple.bind_raised (by rw [Program.inspect_run, he]) hs
  exact hswap.bind_ends fun _ u hu => hu.elim

end AgentStack.Runtime
