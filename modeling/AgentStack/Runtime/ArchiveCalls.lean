import AgentStack.Core.Paths
import AgentStack.Runtime.TaskCalls

/-! What an archive leaves of the integration document, from any store. -/
namespace AgentStack.Runtime

open AgentStack.Core FileTree Crash Reconcile DirTree

variable {host : Host} {s t : FS} {a b : String} {d : Integration}

theorem Placed.realDir (h : Placed s a b d) : s.realDir (segments a) :=
  h.shape.parent_realDir (n := integrationName) (by
    have := h.document
    rw [DocumentAt, integrationFile] at this
    rw [this]
    rfl)

theorem segments_ne_nil (ref : String) : segments ref ≠ [] := by
  simpa [segments] using splitChars_ne_nil '/' ref.toList

/-- The task directory renamed. -/
theorem Placed.renamed (h : Placed s a b d) (hfree : ¬ s.realDir (segments b))
    (hr : rename (segments a) (segments b) s = .ok t) : Placed t b a d ∨ Placed t a b d := by
  have hsrc := h.realDir
  have hshape : t.WellFormed :=
    (rename_frame (segments_ne_nil b) (segments_ne_nil a) hr).shape h.shape
  obtain rfl | ⟨-, hab, hpre, hmove⟩ := rename_eq_ok hr
  · exact Or.inr h
  · rcases hmove with ⟨-, -, rfl⟩ | ⟨n, hn, hnd, -, -⟩
    · have hpre' : ¬ segments b <+: segments a := by
        rintro ⟨r, hr⟩
        by_cases hrn : r = []
        · rw [hrn, List.append_nil] at hr
          exact hab hr.symm
        · obtain ⟨k, hk⟩ := hsrc
          rw [← hr, h.shape.no_children hfree hrn] at hk
          cases hk
      have hget := get_move s hpre hpre'
      refine Or.inl ⟨hshape, ?_, ?_⟩
      · rw [DocumentAt, hget, integrationFile, if_pos (List.prefix_append _ _), List.drop_left]
        exact h.document
      · have hoff : ¬ segments b <+: integrationFile a := by
          intro hb
          rcases List.prefix_concat_iff.mp hb with hb | hb
          · apply hpre
            rw [hb]
            exact List.prefix_append _ _
          · exact hpre' hb
        rw [hget, if_neg hoff, integrationFile, if_pos (List.prefix_append _ _)]
    · obtain ⟨k, hk⟩ := hsrc
      rw [hk] at hn
      exact absurd (Option.some.inj hn).symm (hnd k)

theorem not_prefix_of_parent {p q : Path} (hp : p ≠ []) (hpq : p <+: q) : ¬ q <+: parent p := by
  intro hq
  have h₁ := hpq.length_le
  have h₂ := hq.length_le
  have h₃ : 0 < p.length := List.length_pos_iff.mpr hp
  simp only [parent, List.length_dropLast] at h₂
  omega

theorem Placed.made {m : FileTree.Mode} (hs : Placed s a b d)
    (hfree : ¬ s.realDir (segments b)) :
    Triple (· = s) (DirTree.mkdirs m (parent (segments b)) : Prog Unit)
      (Ends (fun _ t => Placed t a b d ∧ ¬ t.realDir (segments b)) fun t => Placed t a b d)
      fun _ => True := by
  rintro s rfl
  refine ⟨fun _ _ => trivial, ?_⟩
  set t := (DirTree.mkdirs m (parent (segments b)) : Prog Unit).final s with htdef
  have hkeeps : Keeps (fun _ => False) s t := (mkdirs_keeps m _).leaves s
  have hframe : Frame (· <+: parent (segments b)) s t :=
    (mkdirs_frame m _ fun _ h => h).leaves s
  have hb := segments_ne_nil b
  have hplaced : Placed t a b d := by
    refine ⟨hframe.shape hs.shape, hkeeps.off _ _ hs.document not_false, ?_⟩
    have hpre : segments b <+: integrationFile b := List.prefix_append _ _
    rw [hframe.off _ (not_prefix_of_parent hb hpre)]
    exact hs.gone
  have hstill : ¬ t.realDir (segments b) := by
    rintro ⟨k, hk⟩
    rw [hframe.off _ (not_prefix_of_parent hb List.prefix_rfl)] at hk
    exact hfree ⟨k, hk⟩
  cases (DirTree.mkdirs m (parent (segments b)) : Prog Unit).out s with
  | ok u => exact ⟨hplaced, hstill⟩
  | error e => exact hplaced

/-- The move of the task directory to the archive, unless something is there. -/
theorem Placed.moved :
    Triple (Placed · a b d) (moveToArchive host a b)
      (Ends (fun _ t => Placed t b a d ∨ Placed t a b d) fun t => Placed t a b d)
      fun _ => True := by
  refine Triple.of_forall fun s hs => ?_
  refine Triple.bind_run (Program.read_run _ _) ?_
  split
  · rintro t rfl
    exact ⟨by simp, Or.inr hs⟩
  · rename_i hp
    have hfree : ¬ s.realDir (segments b) := by
      rintro ⟨k, hk⟩
      simp [DirTree.exists, hk] at hp
    refine (hs.made hfree).bind_ends fun _ => Triple.of_forall fun t ht => ?_
    refine Triple.bind_run (Program.read_run _ _) ?_
    split
    · apply Triple.attempt
      · rintro t' u rfl hu
        exact ⟨trivial, ht.1.renamed ht.2 (ok_of_mapError hu)⟩
      · rintro t' e rfl -
        exact ht.1
    · rintro t' rfl
      exact ⟨by simp, ht.1⟩

/-! ### The archive's phases -/

/-- The next phase of a cascade, at the phase the journal was left at, and the rest of it. -/
theorem runPhases_next {step : TaskJournal → Prog TaskJournal} {phase : Phase}
    {rest : List Phase} {P : FS → Prop} {Q : TaskJournal → FS → Prop} {E : FS → Prop}
    {R : TaskJournal → FS → Prop}
    (hstep : ∀ j : TaskJournal, j.phase = phase → Triple P (step j) (Ends Q E) fun _ => True)
    (hrest : ∀ j, Triple (Q j) (runPhases step rest j) (Ends R E) fun _ => True)
    (journal : TaskJournal) :
    Triple (fun s => P s ∧ journal.phase = phase) (runPhases step (phase :: rest) journal)
      (Ends R E) fun _ => True := by
  refine Triple.of_forall fun s hs => ?_
  rw [runPhases, if_pos hs.2]
  refine ((hstep journal hs.2).pre ?_).bind_ends hrest
  rintro t rfl
  exact hs.1

/-- Where an archive that raises can have the document. -/
def Unfinished (header : ArchiveHeader) (t : FS) : Prop :=
  Placed t header.taskRef header.archiveRef header.beforeIntegration ∨
    Placed t header.taskRef header.archiveRef header.archivingIntegration ∨
    Placed t header.archiveRef header.taskRef header.archivingIntegration ∨
    Placed t header.archiveRef header.taskRef header.archivedIntegration

section Phases

variable {header : ArchiveHeader} {journal : TaskJournal} {P Q E : FS → Prop} {α : Type}

/-- A phase's work, then its journal step. -/
theorem then_advance {p : Prog α} {phase : Phase} {outcome : Option Outcome}
    (hp : Triple P p (Ends (fun _ => Q) E) fun _ => True)
    (hQ : ∀ s t, Frame Plain s t → Q s → Q t) (hE : ∀ t, Q t → E t) :
    Triple P (p >>= fun _ => advanceTaskJournal host journal phase outcome)
      (Ends (fun j t => Q t ∧ j.phase = phase) E) fun _ => True := by
  refine hp.bind_ends fun _ => ?_
  exact (advanceTaskJournal_ends hQ).ends_weaken (fun _ _ h => h) hE

/-- Marked as archiving, moved or not yet. -/
def Marked (header : ArchiveHeader) (t : FS) : Prop :=
  Placed t header.archiveRef header.taskRef header.archivingIntegration ∨
    Placed t header.taskRef header.archiveRef header.archivingIntegration

theorem Marked.unfinished (h : Marked header t) : Unfinished header t := by
  rcases h with h | h
  · exact Or.inr (Or.inr (Or.inl h))
  · exact Or.inr (Or.inl h)

theorem Marked.frame {W : Path → Prop} (h : Marked header s) (hf : Frame W s t)
    (ha : ¬ W (integrationFile header.taskRef)) (hb : ¬ W (integrationFile header.archiveRef)) :
    Marked header t := by
  rcases h with h | h
  · exact Or.inl (h.frame hf hb ha)
  · exact Or.inr (h.frame hf ha hb)

theorem Marked.plain (h : Marked header s) (hf : Frame Plain s t) : Marked header t :=
  h.frame hf integrationFile_not_plain integrationFile_not_plain

theorem planned_ends (h : journal.phase = .planned)
    (hmark : host.hashBytes (.integration header.beforeIntegration) ≠
      host.hashBytes (.integration header.archivingIntegration)) :
    Triple (Placed · header.taskRef header.archiveRef header.beforeIntegration)
      (archiveStep host header journal)
      (Ends (fun j t => Placed t header.taskRef header.archiveRef header.archivingIntegration ∧
        j.phase = .stateMarked) (Unfinished header)) fun _ => True := by
  rw [archiveStep, h]
  refine then_advance (Placed.exchange hmark |>.ends_weaken (fun _ _ h => h) ?_)
    (fun _ _ hf hp => hp.plain hf) fun t ht => Or.inr (Or.inl ht)
  rintro t (ht | ht)
  · exact Or.inl ht
  · exact Or.inr (Or.inl ht)

theorem stateMarked_ends (h : journal.phase = .stateMarked) :
    Triple (Placed · header.taskRef header.archiveRef header.archivingIntegration)
      (archiveStep host header journal)
      (Ends (fun j t => Marked header t ∧ j.phase = .taskMoved) (Unfinished header))
      fun _ => True := by
  rw [archiveStep, h]
  refine then_advance (Placed.moved.ends_weaken (fun _ _ h => h) ?_)
    (fun _ _ hf hp => Marked.plain hp hf) fun t ht => Marked.unfinished ht
  intro t ht
  exact Or.inr (Or.inl ht)

theorem taskMoved_ends (h : journal.phase = .taskMoved)
    (hspare : ∀ m ∈ header.metadataMutations,
      m.original.path ≠ integrationFile header.taskRef ∧
        m.original.path ≠ integrationFile header.archiveRef) :
    Triple (Marked header) (archiveStep host header journal)
      (Ends (fun j t => Marked header t ∧ j.phase = .metadataApplied) (Unfinished header))
      fun _ => True := by
  rw [archiveStep, h]
  have hmeta : Leaves (Frame fun q => ∃ m ∈ header.metadataMutations, q = m.original.path)
      (applyMetadata host header.metadataMutations) :=
    applyMetadata_leaves fun m hm => ⟨m, hm, rfl⟩
  have hkeep : Triple (Marked header) (applyMetadata host header.metadataMutations) _ _ :=
    hmeta.triple fun s t hf hs => hs.frame hf
      (fun ⟨m, hm, hq⟩ => (hspare m hm).1 hq.symm) fun ⟨m, hm, hq⟩ => (hspare m hm).2 hq.symm
  refine then_advance (hkeep.ends_weaken (fun _ _ h => h) ?_)
    (fun _ _ hf hp => Marked.plain hp hf) fun t ht => Marked.unfinished ht
  intro t ht
  exact Marked.unfinished ht

theorem metadataApplied_ends (h : journal.phase = .metadataApplied)
    (hdone : host.hashBytes (.integration header.archivingIntegration) ≠
      host.hashBytes (.integration header.archivedIntegration)) :
    Triple (Marked header) (archiveStep host header journal)
      (Ends (fun j t => Placed t header.archiveRef header.taskRef header.archivedIntegration ∧
        j.phase = .archiveCommitted) (Unfinished header)) fun _ => True := by
  rw [archiveStep, h]
  have hcas : Triple (Marked header) (casIntegration host header.archiveRef
      header.archivingIntegration header.archivedIntegration)
      (Ends (fun _ t => Placed t header.archiveRef header.taskRef header.archivedIntegration)
        (Unfinished header)) fun _ => True := by
    refine Triple.of_forall fun s hs => ?_
    rcases hs with hs | hs
    · refine ((Placed.exchange hdone).pre ?_).ends_weaken (fun _ _ h => h) ?_
      · rintro t rfl
        exact hs
      · rintro t (ht | ht)
        · exact Or.inr (Or.inr (Or.inl ht))
        · exact Or.inr (Or.inr (Or.inr ht))
    · refine ((Placed.missing (a := header.taskRef) (d := header.archivingIntegration)).pre
        ?_).ends_weaken (fun _ _ h => h.elim) ?_
      · rintro t rfl
        exact hs
      · intro t ht
        exact Or.inr (Or.inl ht)
  exact then_advance hcas (fun _ _ hf hp => hp.plain hf) fun t ht => Or.inr (Or.inr (Or.inr ht))

theorem archiveCommitted_ends (h : journal.phase = .archiveCommitted) :
    Triple (Placed · header.archiveRef header.taskRef header.archivedIntegration)
      (archiveStep host header journal)
      (Ends (fun j t => Placed t header.archiveRef header.taskRef header.archivedIntegration ∧
        j.phase = .cleanupPending) (Unfinished header)) fun _ => True := by
  rw [archiveStep, h]
  refine (advanceTaskJournal_ends fun _ _ hf hp => hp.plain hf).ends_weaken (fun _ _ h => h) ?_
  intro t ht
  exact Or.inr (Or.inr (Or.inr ht))

theorem cleanupPending_ends (h : journal.phase = .cleanupPending) :
    Triple (Placed · header.archiveRef header.taskRef header.archivedIntegration)
      (archiveStep host header journal)
      (Ends (fun j t => Placed t header.archiveRef header.taskRef header.archivedIntegration ∧
        j.phase = .complete) (Unfinished header)) fun _ => True := by
  rw [archiveStep, h]
  have hplain : Leaves (Frame Plain) (enqueueHeaderEffects host header.outboxEffects header.taskId
      journal.transactionId "task-archive" header.archivedAt) :=
    enqueueHeaderEffects_leaves fun effectId _ => (plain_outbox effectId).above
  have hkeep : Triple (Placed · header.archiveRef header.taskRef header.archivedIntegration)
      (enqueueHeaderEffects host header.outboxEffects header.taskId journal.transactionId
        "task-archive" header.archivedAt) _ _ := hplain.triple fun s t hf hs => hs.plain hf
  refine then_advance (hkeep.ends_weaken (fun _ _ h => h) ?_)
    (fun _ _ hf hp => hp.plain hf) fun t ht => Or.inr (Or.inr (Or.inr ht))
  intro t ht
  exact Or.inr (Or.inr (Or.inr ht))

end Phases

/-- An archive that returns has moved the task and archived it, and one that raises has the task
at one of its two refs. -/
theorem resumeArchive_ends {header : ArchiveHeader} {journal : TaskJournal}
    (hphase : journal.phase = .planned)
    (hmark : host.hashBytes (.integration header.beforeIntegration) ≠
      host.hashBytes (.integration header.archivingIntegration))
    (hdone : host.hashBytes (.integration header.archivingIntegration) ≠
      host.hashBytes (.integration header.archivedIntegration))
    (hspare : ∀ m ∈ header.metadataMutations,
      m.original.path ≠ integrationFile header.taskRef ∧
        m.original.path ≠ integrationFile header.archiveRef) :
    Triple (Placed · header.taskRef header.archiveRef header.beforeIntegration)
      (resumeArchive host header journal)
      (Ends (fun _ t => Placed t header.archiveRef header.taskRef header.archivedIntegration)
        (Unfinished header)) fun _ => True := by
  have hphases : Triple
      (fun s => Placed s header.taskRef header.archiveRef header.beforeIntegration ∧
        journal.phase = .planned)
      (runPhases (archiveStep host header) archivePhases journal)
      (Ends (fun _ t => Placed t header.archiveRef header.taskRef header.archivedIntegration)
        (Unfinished header)) fun _ => True := by
    refine runPhases_next (fun j hj => planned_ends hj hmark) ?_ journal
    refine runPhases_next (fun j hj => stateMarked_ends hj) ?_
    refine runPhases_next (fun j hj => taskMoved_ends hj hspare) ?_
    refine runPhases_next (fun j hj => metadataApplied_ends hj hdone) ?_
    refine runPhases_next (fun j hj => archiveCommitted_ends hj) ?_
    refine runPhases_next (fun j hj => cleanupPending_ends hj) fun j t ht => ?_
    exact ⟨by simp [runPhases], ht.1⟩
  refine Triple.bind_ends ((hphases.pre fun s hs => ⟨hs, hphase⟩)) fun j t ht => ?_
  refine ⟨by simp, ?_⟩
  rw [Program.out, Program.lift_run]
  cases result host journal.transactionId header.archiveRef header.archivedIntegration
      .committed with
  | ok r => exact ht
  | error e => exact Or.inr (Or.inr (Or.inr ht))

end AgentStack.Runtime
