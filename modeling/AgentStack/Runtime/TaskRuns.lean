import AgentStack.Runtime.TaskMachine
import AgentStack.SampleHost

/-! Runs of calls on one task, each step of them lawful. -/
namespace AgentStack.Runtime

open AgentStack.Core FileTree Crash Reconcile DirTree

variable {host : Host} {s t : FS}

/-! ### One call -/

/-- A well-formed store with the document in place. -/
structure Stays (ref : String) (d : Integration) (t : FS) : Prop where
  shape : t.WellFormed
  document : DocumentAt t ref d

theorem Stays.plain {ref : String} {d : Integration} (h : Stays ref d s)
    (hf : Frame Plain s t) : Stays ref d t := by
  refine ⟨hf.shape h.shape, ?_⟩
  rw [DocumentAt, hf.off _ integrationFile_not_plain]
  exact h.document

theorem Stays.exists {ref : String} {d : Integration} (h : Stays ref d t) :
    t.exists (integrationFile ref) = true := by
  have := h.document
  rw [DocumentAt] at this
  simp [DirTree.exists, this]

theorem carryOut_document (transactionId : String) {ref : String} {d after : Integration}
    (journal : TaskJournal)
    (hsep : host.hashBytes (.integration d) ≠ host.hashBytes (.integration after)) :
    Triple (Stays ref d)
      (Exchange.carryOut host (.document transactionId ref d after) journal)
      (Ends (fun _ => Stays ref after) fun t => Stays ref d t ∨ Stays ref after t)
      fun _ => True := by
  have hcas : Triple (Stays ref d) (casIntegration host ref d after)
      (Ends (fun _ => Stays ref after) fun t => Stays ref d t ∨ Stays ref after t)
      fun _ => True := by
    intro s hs
    refine ⟨fun _ _ => trivial, ?_⟩
    have hframe := casIntegration_leaves host d after
      (W := (· = integrationFile ref)) rfl s
    have hends := (casIntegration_ends hs.document hsep s rfl).2
    cases ho : (casIntegration host ref d after).out s with
    | ok u =>
      rw [ho] at hends
      exact ⟨hframe.shape hs.shape, hends⟩
    | error e =>
      rw [ho] at hends
      rcases hends with h | h
      · exact Or.inl ⟨hframe.shape hs.shape, h⟩
      · exact Or.inr ⟨hframe.shape hs.shape, h⟩
  have hadvance : ∀ (j : TaskJournal) phase outcome, Triple (Stays ref after)
      (advanceTaskJournal host j phase outcome)
      (Ends (fun _ => Stays ref after) fun t => Stays ref d t ∨ Stays ref after t)
      fun _ => True := by
    intro j phase outcome
    exact (advanceTaskJournal_plain.triple fun _ _ hf hs => hs.plain hf).ends_weaken
      (fun _ _ h => h) fun t ht => Or.inr ht
  refine hcas.bind_ends fun _ => (hadvance _ _ _).bind_ends fun j => ?_
  refine (hadvance _ _ _).bind_ends fun j => (hadvance _ _ _).bind_ends fun j => ?_
  intro t ht
  refine ⟨by simp, ?_⟩
  rw [Program.out, Program.lift_run]
  cases result host transactionId ref after .committed with
  | ok r => exact ht
  | error e => exact Or.inr ht

theorem DocumentAt.unique {ref : String} {d d' : Integration} {k : FileTree.Mode}
    (h : DocumentAt s ref d)
    (h' : s.get (integrationFile ref) = some (.file (.integration d') k)) : d' = d := by
  rw [DocumentAt, h'] at h
  simp only [Option.some.injEq, Node.file.injEq, Content.integration.injEq] at h
  exact h.1

theorem DocumentAt.exists {ref : String} {d : Integration} (h : DocumentAt s ref d) :
    s.exists (integrationFile ref) = true := by
  unfold DocumentAt at h
  simp [DirTree.exists, h]

section Step

variable {c : Call} {m : Moment} {d d' : Integration}

theorem Moment.after_ref (h : ((m.after host c).store).exists (integrationFile m.ref) = true) :
    (m.after host c).ref = m.ref := if_pos h

/-- A call that raised and left the document alone. -/
theorem Lawful.unchanged (hraised : ¬ c.succeeds host m)
    (href : (m.after host c).ref = m.ref) : Lawful host c m d d where
  same := SameTask.refl d
  patched := Or.inl rfl
  grows := le_refl _
  expected := fun h => absurd h hraised
  raised := fun h => absurd h hraised
  refused := fun _ => ⟨href, rfl⟩
  taken := fun h h' => absurd h h'
  removed := fun _ h h' => absurd h h'

/-- A call that has exchanged the document. -/
theorem Lawful.exchanged {raise : Int} (hex : Exchanged host raise d d') (hpos : 0 ≤ raise)
    (hpatch : (∃ v, validateIntegration host d = .ok v ∧ c.Patches host d v d') ∨
      ∃ request, c = .archive request)
    (hdone : c.succeeds host m → raise = c.raise) (hexp : c.expectedRevision = d.revision)
    (hok : ¬ c.refused host m)
    (htaken : d.claim = none → d'.claim ≠ none →
      (∃ transactionId request, c = .claim transactionId request) ∧
        d.modeState.phase = some .implementing)
    (hremoved : ∀ claim, d.claim = some claim → d'.claim ≠ some claim →
      ∃ transactionId request, c = .release transactionId request ∧
        request.claimId = claim.claimId ∧ request.actor = claim.actor) :
    Lawful host c m d d' where
  same := hex.same
  patched := Or.inr hpatch
  grows := by
    have := hex.revision
    omega
  expected := fun _ => hexp
  raised := by
    intro hs
    rw [hex.revision, hdone hs]
  refused := fun h => absurd h hok
  taken := htaken
  removed := hremoved

/-- A refused call has changed nothing but locks and journals. -/
theorem refused_step (h : Holds host m d) {e : Failure}
    (hann : (c.announce host).out m.store = .error e) :
    Holds host (m.after host c) d ∧ Lawful host c m d d := by
  have hrun : (c.run host).run m.store =
      ⟨((c.announce host).run m.store).trace, .error e⟩ := by
    rw [c.run_eq host]
    exact Program.bind_of_error (by rw [← hann]; rfl)
  have hstands : Stays m.ref d (m.after host c).store := by
    have hfinal : (c.run host).final m.store = (c.announce host).final m.store := by
      rw [Program.final, hrun]
      rfl
    change Stays m.ref d ((c.run host).final m.store)
    rw [hfinal]
    exact Stays.plain ⟨h.shape, h.document⟩ (announce_plain host c m.store)
  have href := Moment.after_ref hstands.exists
  refine ⟨⟨hstands.shape, ?_, h.valid⟩, Lawful.unchanged ?_ href⟩
  · rw [href]
    exact hstands.document
  · rintro ⟨r, hr⟩
    rw [Program.out, hrun] at hr
    cases hr

/-- An announced call goes on from where its announcement ends. -/
theorem announced_run {x : Exchange} {journal : TaskJournal}
    (hann : (c.announce host).out m.store = .ok (x, journal)) :
    (c.run host).out m.store =
        (x.carryOut host journal).out ((c.announce host).final m.store) ∧
      (m.after host c).store =
        (x.carryOut host journal).final ((c.announce host).final m.store) := by
  have hrun := Program.bind_cases (c.announce host) (fun x => x.1.carryOut host x.2) m.store
  rw [hann] at hrun
  obtain ⟨y, hy, hr⟩ | ⟨e, he, -⟩ := hrun
  · obtain rfl := Except.ok.inj hy
    rw [← c.run_eq host] at hr
    constructor
    · rw [Program.out, hr]
      rfl
    · change (c.run host).final m.store = _
      rw [Program.final, hr, Program.getLastD_append]
      rfl
  · cases he

theorem document_step (h : Holds host m d) (hon : c.On host m) {transactionId taskRef : String}
    {before after : Integration} {v : VerifiedIntegration} {journal : TaskJournal}
    (hann : (c.announce host).out m.store =
      .ok (.document transactionId taskRef before after, journal))
    (hx : Announced host m.store before v c (.document transactionId taskRef before after)) :
    ∃ d', Holds host (m.after host c) d' ∧ Lawful host c m d d' := by
  obtain ⟨hex, hraise, htaken, hremoved⟩ := hx.after_lawful
  obtain ⟨href, hload, hasked⟩ := hx
  obtain ⟨k, hfile⟩ := hload.file
  obtain rfl := hon.own taskRef before k href hfile
  obtain rfl : before = d := h.document.unique hfile
  have hexp : c.expectedRevision = before.revision :=
    hload.revision.symm.trans (validateIntegration_reads hload.valid).revision
  have hok : ¬ c.refused host m := by
    rintro ⟨e, he⟩
    rw [hann] at he
    cases he
  obtain ⟨hout, hstore⟩ := announced_run hann
  have hstart : Stays m.ref before ((c.announce host).final m.store) :=
    Stays.plain ⟨h.shape, h.document⟩ (announce_plain host c m.store)
  have hend := (carryOut_document transactionId journal
    (hon.separated _ _ hann) _ hstart).2
  rw [← hstore] at hend
  have hhold : ∀ d', Stays m.ref d' (m.after host c).store → d'.Valid host →
      Holds host (m.after host c) d' := by
    intro d' hs hv
    refine ⟨hs.shape, ?_, hv⟩
    rw [Moment.after_ref hs.exists]
    exact hs.document
  have hexchanged : Lawful host c m before after :=
    Lawful.exchanged hex (by omega) (Or.inl ⟨v, hload.valid, hasked⟩) (fun _ => hraise.symm)
      hexp hok htaken hremoved
  cases ho : (Exchange.carryOut host (.document transactionId m.ref before after) journal).out
      ((c.announce host).final m.store) with
  | ok r =>
    rw [ho] at hend
    exact ⟨after, hhold after hend hex.valid, hexchanged⟩
  | error e =>
    rw [ho] at hend
    have hraised : ¬ c.succeeds host m := by
      rintro ⟨r, hr⟩
      rw [hout, ho] at hr
      cases hr
    rcases hend with hend | hend
    · exact ⟨before, hhold before hend h.valid,
        Lawful.unchanged hraised (Moment.after_ref hend.exists)⟩
    · exact ⟨after, hhold after hend hex.valid, hexchanged⟩

theorem archive_step (h : Holds host m d) (hon : c.On host m) {header : ArchiveHeader}
    {before : Integration} {v : VerifiedIntegration} {journal : TaskJournal}
    (hann : (c.announce host).out m.store = .ok (.archive header, journal))
    (hphase : journal.phase = .planned)
    (hx : Announced host m.store before v c (.archive header)) :
    ∃ d', Holds host (m.after host c) d' ∧ Lawful host c m d d' := by
  obtain ⟨hmark, hdone⟩ := hon.separated _ _ hann
  have hspare := hon.spares _ _ hann
  have hok : ¬ c.refused host m := by
    rintro ⟨e, he⟩
    rw [hann] at he
    cases he
  obtain - | ⟨href, hload, hbefore, harch, hdocs, hfree⟩ := hx
  rename_i request
  obtain ⟨k, hfile⟩ := hload.file
  have hown := hon.own header.taskRef before k href hfile
  rw [hown] at hfile
  obtain rfl : before = d := h.document.unique hfile
  have hreads := validateIntegration_reads hload.valid
  obtain ⟨hexm, hexa, hcm, hca⟩ := archiveIntegrations_eq_ok hdocs
  have hnone : before.claim = none := (checkArchivable_eq_ok hreads harch).2.1
  have hexp : (Call.archive request).expectedRevision = before.revision :=
    hload.revision.symm.trans hreads.revision
  obtain ⟨hout, hstore⟩ := announced_run hann
  have hframe := announce_plain host (.archive request) m.store
  have hstart : Placed ((Call.announce host (.archive request)).final m.store) header.taskRef
      header.archiveRef header.beforeIntegration := by
    refine ⟨hframe.shape h.shape, ?_, ?_⟩
    · rw [hbefore, hown]
      exact (Stays.plain ⟨h.shape, h.document⟩ hframe).document
    · rw [hframe.off _ integrationFile_not_plain]
      exact hfree h.shape
  have hend := (resumeArchive_ends hphase hmark hdone hspare _ hstart).2
  have hstore' : (m.after host (.archive request)).store =
      (resumeArchive host header journal).final
        ((Call.announce host (.archive request)).final m.store) := hstore
  have hout' : ((Call.archive request).run host).out m.store =
      (resumeArchive host header journal).out
        ((Call.announce host (.archive request)).final m.store) := hout
  rw [← hstore', ← hout'] at hend
  rw [hown, hbefore] at hstart
  -- where the task is told to be after the call
  have hhere : ∀ d', Placed (m.after host (.archive request)).store header.taskRef
      header.archiveRef d' → d'.Valid host → Holds host (m.after host (.archive request)) d' := by
    intro d' hp hv
    have hs : Stays m.ref d' (m.after host (.archive request)).store := by
      rw [← hown]
      exact ⟨hp.shape, hp.document⟩
    refine ⟨hp.shape, ?_, hv⟩
    rw [Moment.after_ref hs.exists]
    exact hs.document
  have hthere : ∀ d', Placed (m.after host (.archive request)).store header.archiveRef
      header.taskRef d' → d'.Valid host → Holds host (m.after host (.archive request)) d' := by
    intro d' hp hv
    have hgone : ((m.after host (.archive request)).store).exists
        (integrationFile m.ref) = false := by
      rw [← hown]
      simp [DirTree.exists, hp.gone]
    have href' : (m.after host (.archive request)).ref = header.archiveRef := by
      show (if (m.after host (.archive request)).store.exists (integrationFile m.ref) then m.ref
        else Call.destination host (.archive request) m) = _
      rw [hgone, if_neg (by simp), Call.destination, hann]
    refine ⟨hp.shape, ?_, hv⟩
    rw [href']
    exact hp.document
  have hlawful : ∀ raise d', Exchanged host raise before d' → 0 ≤ raise → d'.claim = before.claim →
      ((Call.archive request).succeeds host m → raise = 2) →
      Lawful host (.archive request) m before d' := by
    intro raise d' hex hpos hclaim hsucc
    refine Lawful.exchanged hex hpos (Or.inr ⟨request, rfl⟩) hsucc hexp hok ?_ ?_
    · intro _ hne
      rw [hclaim] at hne
      exact absurd hnone hne
    · intro claim hsome
      rw [hnone] at hsome
      cases hsome
  cases ho : ((Call.archive request).run host).out m.store with
  | ok r =>
    rw [ho] at hend
    exact ⟨header.archivedIntegration, hthere _ hend hexa.valid,
      hlawful 2 _ hexa (by omega) hca fun _ => rfl⟩
  | error e =>
    rw [ho] at hend
    have hraised : ¬ (Call.archive request).succeeds host m := by
      rintro ⟨r, hr⟩
      rw [ho] at hr
      cases hr
    rcases hend with hend | hend | hend | hend
    · rw [hbefore] at hend
      refine ⟨before, hhere _ hend h.valid, ?_⟩
      refine hlawful 0 _ ⟨h.valid, SameTask.refl _, by omega⟩ (by omega) rfl ?_
      exact fun hs => absurd hs hraised
    · exact ⟨_, hhere _ hend hexm.valid,
        hlawful 1 _ hexm (by omega) hcm fun hs => absurd hs hraised⟩
    · exact ⟨_, hthere _ hend hexm.valid,
        hlawful 1 _ hexm (by omega) hcm fun hs => absurd hs hraised⟩
    · exact ⟨_, hthere _ hend hexa.valid,
        hlawful 2 _ hexa (by omega) hca fun hs => absurd hs hraised⟩

/-- Every call on a task is lawful, and leaves the task in place or in its archive. -/
theorem call_lawful (hnfc : ∀ x, host.nfc (host.nfc x) = host.nfc x) (h : Holds host m d)
    (hon : c.On host m) : ∃ d', Holds host (m.after host c) d' ∧ Lawful host c m d d' := by
  cases hann : (c.announce host).out m.store with
  | error e => exact ⟨d, refused_step h hann⟩
  | ok y =>
    obtain ⟨x, journal⟩ := y
    obtain ⟨hphase, before, v, hx⟩ := announce_out hnfc hann
    cases x with
    | document transactionId taskRef before' after =>
      obtain ⟨⟩ := id hx
      exact document_step h hon hann hx
    | archive header => exact archive_step h hon hann hphase hx

end Step

/-! ### Runs -/

section Runs

variable {m₀ m : Moment} {d₀ : Integration} {turns : List (Moment × Call)}

/-- The calls of a run, each a lawful step of the one task. -/
theorem Turns.lawful (hnfc : ∀ x, host.nfc (host.nfc x) = host.nfc x) (h₀ : Holds host m₀ d₀)
    (h : Turns host m₀ turns m) :
    (∃ d, Holds host m d ∧ SameTask d₀ d ∧ d₀.revision ≤ d.revision) ∧
      ∀ turn ∈ turns, ∃ d d', Holds host turn.1 d ∧ SameTask d₀ d ∧ d₀.revision ≤ d.revision ∧
        Holds host (turn.1.after host turn.2) d' ∧ Lawful host turn.2 turn.1 d d' := by
  induction h generalizing d₀ with
  | nil m => exact ⟨⟨d₀, h₀, SameTask.refl d₀, le_refl _⟩, by simp⟩
  | cons c on rest ih =>
    obtain ⟨d', h', hlaw⟩ := call_lawful hnfc h₀ on
    obtain ⟨⟨d, hd, hsame, hrev⟩, hturns⟩ := ih h'
    refine ⟨⟨d, hd, hlaw.same.trans hsame, hlaw.grows.trans hrev⟩, ?_⟩
    intro turn hturn
    rcases List.mem_cons.mp hturn with rfl | hturn
    · exact ⟨d₀, d', h₀, SameTask.refl d₀, le_refl _, h', hlaw⟩
    · obtain ⟨e, e', he, hesame, herev, he', helaw⟩ := hturns turn hturn
      exact ⟨e, e', he, hlaw.same.trans hesame, hlaw.grows.trans herev, he', helaw⟩

/-- Calls that succeed on the same task name different revisions. -/
theorem Turns.pairwise (hnfc : ∀ x, host.nfc (host.nfc x) = host.nfc x) (h₀ : Holds host m₀ d₀)
    (h : Turns host m₀ turns m) :
    turns.Pairwise fun a b => a.2.succeeds host a.1 → b.2.succeeds host b.1 →
      a.2.expectedRevision ≠ b.2.expectedRevision := by
  induction h generalizing d₀ with
  | nil m => exact List.Pairwise.nil
  | cons c on rest ih =>
    obtain ⟨d', h', hlaw⟩ := call_lawful hnfc h₀ on
    refine List.Pairwise.cons ?_ (ih h')
    intro turn hturn ha hb
    obtain ⟨e, e', -, -, herev, -, helaw⟩ := (rest.lawful hnfc h').2 turn hturn
    have hfirst := hlaw.expected ha
    have hraised := hlaw.raised ha
    have hsecond := helaw.expected hb
    have hpos : 1 ≤ c.raise := by
      cases c <;> simp [Call.raise]
    show c.expectedRevision ≠ turn.2.expectedRevision
    omega

end Runs

/-! ### A task to try -/

section Sample

/-- A project with one task in it. -/
def sampleProject (d : Integration) : FS :=
  ⟨[([], .dir 0o755), (controlDir, .dir 0o755), (["tasks"], .dir 0o755),
    (["tasks", "t"], .dir 0o755),
    (integrationFile "tasks/t", .file (.integration d) integrationMode)]⟩

def sampleMoment (d : Integration) : Moment := ⟨sampleProject d, "tasks/t"⟩

def sampleTransition (status : String) (flags : Option (List (String × Bool))) : Call :=
  .transition sampleTransaction ⟨"tasks/t", sampleTask, 2, "step", status, none, flags, 7⟩

/-- A second transition, from where the first leaves the task. -/
def sampleNextTransition (status : String) : Call :=
  .transition "10000000-0000-4000-8000-000000000002"
    ⟨"tasks/t", sampleTask, 3, "next", status, none, none, 8⟩

theorem sample_integrationFile :
    integrationFile "tasks/t" = ["tasks", "t", "integration.yaml"] := by
  decide

theorem sampleMoment_holds {d : Integration} (h : d.Valid sampleHost) :
    Holds sampleHost (sampleMoment d) d where
  shape := by
    simp [sampleMoment, sampleProject, sample_integrationFile, DirTree.WellFormed, realDir,
      DirTree.get, controlDir, parent, List.lookup_cons]
  document := by
    simp [DocumentAt, sampleMoment, sampleProject, sample_integrationFile, DirTree.get,
      controlDir, List.lookup_cons]
  valid := h

theorem revisions_apart {d d' : Integration} (hpos : 1 ≤ d.revision)
    (h : d'.revision = d.revision + 1) :
    sampleHost.hashBytes (.integration d) ≠ sampleHost.hashBytes (.integration d') := by
  apply hashBytes_integration_ne
  simp only [Integration.revision] at hpos h
  omega

/-- The sample's hash tells the documents of every exchange apart. -/
theorem sample_separated {c : Call} {x : Exchange} {journal : TaskJournal}
    (h : (c.announce sampleHost).out s = .ok (x, journal)) : x.Separated sampleHost := by
  obtain ⟨-, d, v, hx⟩ := announce_out (fun _ => rfl) h
  cases x with
  | document transactionId taskRef before after =>
    obtain ⟨⟩ := id hx
    have hvalid : d.Valid sampleHost := by
      obtain ⟨-, hload, -⟩ := hx
      exact ⟨v, hload.valid⟩
    exact revisions_apart hvalid.revision_pos hx.after_lawful.1.revision
  | archive header =>
    obtain - | ⟨-, hload, hbefore, -, hdocs, -⟩ := hx
    obtain ⟨hm, ha, -⟩ := archiveIntegrations_eq_ok hdocs
    have hpos : 1 ≤ d.revision := (show d.Valid sampleHost from ⟨v, hload.valid⟩).revision_pos
    constructor
    · rw [hbefore]
      exact revisions_apart hpos hm.revision
    · apply revisions_apart hm.valid.revision_pos
      rw [ha.revision, hm.revision]
      omega

theorem sample_own {c : Call} {m : Moment} (hc : c.taskRef = "tasks/t") (hm : m.ref = "tasks/t")
    (taskRef : String) (h : normalizedTaskRef sampleHost c.taskRef = .ok taskRef) :
    taskRef = m.ref := by
  have hnorm : normalizedTaskRef sampleHost "tasks/t" = .ok "tasks/t" := by decide
  rw [hc, hnorm] at h
  rw [hm]
  exact (Except.ok.inj h).symm

/-- A transition of the sample task, at any moment that has it at its place. -/
theorem sampleTransition_on {m : Moment} (hm : m.ref = "tasks/t") (transactionId : String)
    (request : TaskTransitionRequest) (hr : request.taskRef = "tasks/t") :
    (Call.transition transactionId request).On sampleHost m where
  own := fun taskRef _ _ h _ =>
    sample_own (c := .transition transactionId request) hr hm taskRef h
  separated := fun _ _ h => sample_separated h
  spares := by
    intro x j h
    obtain ⟨-, d', v, hx⟩ := announce_out (fun _ => rfl) h
    cases hx with
    | document => exact trivial

end Sample

/-- Calls of any kinds, in any order and with any requests, on an admitted task. -/
theorem calls_keep_task (hnfc : ∀ x, host.nfc (host.nfc x) = host.nfc x) {m₀ m : Moment}
    {d₀ : Integration} {turns : List (Moment × Call)} (h₀ : Holds host m₀ d₀)
    (h : Turns host m₀ turns m) :
    (∃ d, Holds host m d ∧ SameTask d₀ d) ∧
      (∀ turn ∈ turns, ∃ d d', Holds host turn.1 d ∧ SameTask d₀ d ∧
        Holds host (turn.1.after host turn.2) d' ∧ Lawful host turn.2 turn.1 d d') ∧
      turns.Pairwise fun a b => a.2.succeeds host a.1 → b.2.succeeds host b.1 →
        a.2.expectedRevision ≠ b.2.expectedRevision := by
  obtain ⟨⟨d, hd, hsame, -⟩, hturns⟩ := h.lawful hnfc h₀
  refine ⟨⟨d, hd, hsame⟩, fun turn hturn => ?_, h.pairwise hnfc h₀⟩
  obtain ⟨e, e', he, hesame, -, he', helaw⟩ := hturns turn hturn
  exact ⟨e, e', he, hesame, he', helaw⟩

/-- The sample task after it was blocked. -/
def sampleBlocked : Moment :=
  (sampleMoment sampleActive).after sampleHost (sampleTransition "blocked" none)

/-- The sample task is blocked and taken up again. -/
theorem calls_keep_task_resumed :
    Turns sampleHost (sampleMoment sampleActive)
        [(sampleMoment sampleActive, sampleTransition "blocked" none),
          (sampleBlocked, sampleNextTransition "active")]
        (sampleBlocked.after sampleHost (sampleNextTransition "active")) ∧
      (sampleTransition "blocked" none).succeeds sampleHost (sampleMoment sampleActive) ∧
      (sampleNextTransition "active").succeeds sampleHost sampleBlocked ∧
      ∃ d, Holds sampleHost (sampleBlocked.after sampleHost (sampleNextTransition "active")) d ∧
        SameTask sampleActive d := by
  have hblocked : sampleBlocked.ref = "tasks/t" := by decide +kernel
  have hoks : (((sampleTransition "blocked" none).run sampleHost).out
        (sampleMoment sampleActive).store).isOk = true ∧
      (((sampleNextTransition "active").run sampleHost).out sampleBlocked.store).isOk = true := by
    decide +kernel
  have hrun : Turns sampleHost (sampleMoment sampleActive)
      [(sampleMoment sampleActive, sampleTransition "blocked" none),
        (sampleBlocked, sampleNextTransition "active")] _ :=
    .cons _ (sampleTransition_on rfl _ _ rfl)
      (.cons _ (sampleTransition_on hblocked _ _ rfl) (.nil _))
  exact ⟨hrun, exists_of_isOk hoks.1, exists_of_isOk hoks.2,
    (calls_keep_task (fun _ => rfl) (sampleMoment_holds (sampleIntegration_valid rfl)) hrun).1⟩

def sampleCompleted : Integration := sampleIntegration ⟨.completed, 2, some 5, none, none, []⟩

def sampleArchiveRef : String := "archive/t--" ++ sampleTask

/-- An archive with a metadata mutation of the archived integration file. -/
def sampleArchive : Call :=
  .archive ⟨sampleTransaction, "tasks/t", sampleTask, 2, "archive",
    [⟨regularState (integrationFile sampleArchiveRef) (sampleDigest 3) integrationMode none,
      regularState (integrationFile sampleArchiveRef) (sampleDigest 17) integrationMode none,
      none, some [1]⟩], 9, []⟩

def sampleArchived : Moment := (sampleMoment sampleCompleted).after sampleHost sampleArchive

theorem sampleArchived_store :
    sampleArchived.store.get (integrationFile "tasks/t") = none ∧
      sampleArchived.store.get (integrationFile sampleArchiveRef) =
        some (.file (.bytes [1]) integrationMode) := by
  decide +kernel

/-- The mutation replaces the document by other bytes. -/
theorem archive_overwrites_document :
    Holds sampleHost (sampleMoment sampleCompleted) sampleCompleted ∧
      (∀ taskRef, normalizedTaskRef sampleHost sampleArchive.taskRef = .ok taskRef →
        taskRef = (sampleMoment sampleCompleted).ref) ∧
      (∀ x j, (sampleArchive.announce sampleHost).out (sampleMoment sampleCompleted).store =
        .ok (x, j) → x.Separated sampleHost) ∧
      sampleArchived.store.get (integrationFile "tasks/t") = none ∧
      sampleArchived.store.get (integrationFile sampleArchiveRef) =
        some (.file (.bytes [1]) integrationMode) := by
  exact ⟨sampleMoment_holds (sampleIntegration_valid rfl),
    fun taskRef h => sample_own rfl rfl taskRef h, fun _ _ h => sample_separated h,
    sampleArchived_store⟩

/-! ### Completion -/

/-- `archive_task` finds nothing to object to in the document. -/
def Integration.Archivable (host : Host) (d : Integration) : Prop :=
  ∃ v, validateIntegration host d = .ok v ∧ checkArchivable d v = .ok ()

theorem Integration.Valid.archivable_iff {d : Integration} (h : d.Valid host) :
    d.Archivable host ↔ d.lifecycle.status = .completed ∧ d.Closed := by
  constructor
  · rintro ⟨v, hv, hcheck⟩
    exact (checkArchivable_iff (validateIntegration_reads hv)).mp hcheck
  · intro hclosed
    obtain ⟨v, hv⟩ := h
    exact ⟨v, hv, (checkArchivable_iff (validateIntegration_reads hv)).mpr hclosed⟩

/-- A call that does not leave a completed task open: no claim on a completed task that would be
granted, and no completion of a heavy task without flags or under a live claim. -/
def Call.Closes (c : Call) (d : Integration) : Prop :=
  match c with
  | .claim .. => ¬ (d.lifecycle.status = .completed ∧ d.claim = none ∧
      d.modeState.phase = some .implementing)
  | .transition _ request => request.targetLifecycleStatus = "completed" →
      ∀ flags, d.modeState.flags = some flags →
        request.completionFlags.getD flags ≠ [] ∧
          ¬ (d.claim ≠ none ∧ request.targetPhase = some "implementing")
  | _ => True

theorem lifecycleStatus_completed {text : String}
    (h : lifecycleStatus? text = some .completed) : text = "completed" := by
  unfold lifecycleStatus? at h
  split at h <;> simp_all

/-- Documents of one mode have completion flags alike. -/
theorem flags_of_mode {m m' : ModeState} {flags : List (String × Bool)} (h : m'.mode = m.mode)
    (hf : m.flags = some flags) : ∃ flags', m'.flags = some flags' := by
  cases m with
  | trellisNative ref => cases hf
  | speckitSuperpowers heavy =>
    cases m' with
    | trellisNative ref => cases h
    | speckitSuperpowers heavy' => exact ⟨heavy'.completionFlags, rfl⟩

theorem flags_of_or {new old : Option (List (String × Bool))} {flags flags' : List (String × Bool)}
    (hold : old = some flags) (h : new.or old = some flags') : new.getD flags = flags' := by
  cases new <;> simp_all

/-- One patch of a call: what it completes is closed exactly if the call closes it. -/
theorem patched_closed_iff {c : Call} {d d' : Integration} {v : VerifiedIntegration}
    (hv : validateIntegration host d = .ok v) (hp : c.Patches host d v d')
    (h : d.lifecycle.status = .completed → d.Closed) :
    (d'.lifecycle.status = .completed → d'.Closed) ↔ c.Closes d := by
  have hreads := validateIntegration_reads hv
  cases c with
  | claim transactionId request =>
    obtain ⟨-, hnone, hphase, hstatus⟩ := claimAfter_eq_ok hreads hp
    constructor
    · rintro hclosed ⟨hdone, -, -⟩
      exact claimAfter_claim hp (hclosed (hstatus.trans hdone)).1
    · intro hc hdone
      exact absurd ⟨hstatus ▸ hdone, hnone, hphase⟩ hc
  | release transactionId request =>
    obtain ⟨-, hstatus, hnone, hflags, -⟩ := releaseAfter_eq_ok hreads hp
    refine iff_of_true (fun hdone => ⟨hnone, fun flags hf => ?_⟩) trivial
    rw [hflags] at hf
    exact (h (hstatus ▸ hdone)).2 flags hf
  | transition transactionId request =>
    obtain ⟨hex, hclaim, hphase, htarget, hflags⟩ := transitionAfter_eq_ok hreads hp
    constructor
    · intro hclosed hrequest flags hf
      rw [hrequest] at htarget
      obtain ⟨hnone, hall⟩ := hclosed (Option.some.inj htarget).symm
      refine ⟨fun hempty => ?_, fun hlive => hlive.1 (hclaim ▸ hnone)⟩
      obtain ⟨flags', hf'⟩ := flags_of_mode hex.same.mode hf
      have hget := flags_of_or hf (hflags flags' hf').1
      exact (hall flags' hf').1 (hget.symm.trans hempty)
    · intro hc hdone
      rw [hdone] at htarget
      have hclose := hc (lifecycleStatus_completed htarget)
      constructor
      · rw [hclaim]
        by_contra hlive
        cases hm : d.modeState with
        | trellisNative ref => simp [Integration.claim, ModeState.claim, hm] at hlive
        | speckitSuperpowers heavy =>
          exact (hclose heavy.completionFlags (by rw [hm]; rfl)).2 ⟨hlive, hphase hlive⟩
      · intro flags hf
        obtain ⟨hor, hall⟩ := hflags flags hf
        obtain ⟨old, hold⟩ := flags_of_mode hex.same.mode.symm hf
        refine ⟨?_, hall hdone⟩
        rw [← flags_of_or hold hor]
        exact (hclose old hold).1
  | archive request => exact hp.elim

/-- Claims, releases and transitions that close what they complete leave no completed task that
could not be archived. -/
theorem completed_archivable (hnfc : ∀ x, host.nfc (host.nfc x) = host.nfc x) {m₀ m : Moment}
    {d₀ : Integration} {turns : List (Moment × Call)} (h₀ : Holds host m₀ d₀)
    (hactive : d₀.lifecycle.status = .active) (h : Turns host m₀ turns m)
    (hcalls : ∀ turn ∈ turns, ∀ request, turn.2 ≠ .archive request)
    (hcloses : ∀ turn ∈ turns, ¬ turn.2.refused host turn.1 →
      ∀ d, Holds host turn.1 d → turn.2.Closes d) :
    ∃ d, Holds host m d ∧ (d.lifecycle.status = .completed → d.Archivable host) := by
  suffices hinv : ∀ {m₀ m : Moment} {d₀ : Integration} {turns : List (Moment × Call)},
      Holds host m₀ d₀ → (d₀.lifecycle.status = .completed → d₀.Closed) →
      Turns host m₀ turns m → (∀ turn ∈ turns, ∀ request, turn.2 ≠ .archive request) →
      (∀ turn ∈ turns, ¬ turn.2.refused host turn.1 →
        ∀ d, Holds host turn.1 d → turn.2.Closes d) →
      ∃ d, Holds host m d ∧ (d.lifecycle.status = .completed → d.Closed) by
    have hstart : d₀.lifecycle.status = .completed → d₀.Closed := by
      intro hdone
      rw [hactive] at hdone
      cases hdone
    obtain ⟨d, hd, hclosed⟩ := hinv h₀ hstart h hcalls hcloses
    exact ⟨d, hd, fun hdone => hd.valid.archivable_iff.mpr ⟨hdone, hclosed hdone⟩⟩
  intro m₀ m d₀ turns h₀ hinv h hcalls hcloses
  induction h generalizing d₀ with
  | nil m => exact ⟨d₀, h₀, hinv⟩
  | @cons m _ _ c on rest ih =>
    obtain ⟨d', h', hlaw⟩ := call_lawful hnfc h₀ on
    refine ih h' ?_ (fun turn ht => hcalls turn (List.mem_cons_of_mem _ ht))
      fun turn ht => hcloses turn (List.mem_cons_of_mem _ ht)
    rcases hlaw.patched with rfl | ⟨v, hv, hp⟩ | ⟨request, hr⟩
    · exact hinv
    · by_cases hrefused : c.refused host m
      · obtain ⟨-, rfl⟩ := hlaw.refused hrefused
        exact hinv
      · exact (patched_closed_iff hv hp hinv).mpr
          (hcloses _ List.mem_cons_self hrefused d₀ h₀)
    · exact absurd hr (hcalls _ List.mem_cons_self request)

def sampleHeavy (status : LifecycleStatus) (revision : Int)
    (transition : List (String × String)) (flags : List (String × Bool)) : Integration :=
  ⟨sampleContract, ⟨status, revision, some 5, none, none, transition⟩, sampleRecord,
    .speckitSuperpowers ⟨1, .implementing, none, "feature", "\x7b\x7d", "[]", flags⟩⟩

theorem sampleHeavy_valid {status : LifecycleStatus} {revision : Int}
    {transition : List (String × String)} {flags : List (String × Bool)}
    (h : (validateLifecycle ⟨status, revision, some 5, none, none, transition⟩).isOk = true) :
    (sampleHeavy status revision transition flags).Valid sampleHost := by
  obtain ⟨pins, hpins⟩ := sampleContract_valid
  obtain ⟨⟨status', revision'⟩, hl⟩ := exists_of_isOk h
  refine ⟨⟨.speckitSuperpowers, sampleTask, "tasks/t", status', revision', pins,
    some .implementing, none⟩, ?_⟩
  have hfeature : requireString "feature" "active_feature" = .ok () := by decide
  simp [validateIntegration, sampleHeavy, hpins, hl, sampleRecord_valid, validateHeavyBranch,
    hfeature]

/-- A heavy task under way. -/
def sampleOpen (flags : List (String × Bool)) : Integration := sampleHeavy .active 2 [] flags

theorem completed_archivable_flags :
    Turns sampleHost (sampleMoment (sampleOpen []))
        [(sampleMoment (sampleOpen []), sampleTransition "completed" (some [("tests", true)]))]
        ((sampleMoment (sampleOpen [])).after sampleHost
          (sampleTransition "completed" (some [("tests", true)]))) ∧
      ∃ d, Holds sampleHost ((sampleMoment (sampleOpen [])).after sampleHost
          (sampleTransition "completed" (some [("tests", true)]))) d ∧
        (d.lifecycle.status = .completed → d.Archivable sampleHost) := by
  have hholds := sampleMoment_holds (sampleHeavy_valid rfl : (sampleOpen []).Valid sampleHost)
  have hrun : Turns sampleHost (sampleMoment (sampleOpen []))
      [(sampleMoment (sampleOpen []), sampleTransition "completed" (some [("tests", true)]))] _ :=
    .cons _ (sampleTransition_on rfl _ _ rfl) (.nil _)
  refine ⟨hrun, completed_archivable (fun _ => rfl) hholds rfl hrun ?_ ?_⟩
  · simp [sampleTransition]
  · simp only [List.mem_singleton, forall_eq]
    intro _ d hd _ flags _
    obtain rfl := hholds.document.unique hd.document
    simp [sampleHeavy, Integration.claim, ModeState.claim]

/-- The same task after it was completed without flags. -/
def sampleClosed : Integration :=
  sampleHeavy .completed 3 [("operation", "transition"), ("transition_id", "step"),
    ("changed_at", format 7)] []

def sampleReopened : Moment :=
  (sampleMoment (sampleOpen [("tests", false)])).after sampleHost
    (sampleTransition "completed" (some []))

theorem sampleClosed_stored : DocumentAt sampleReopened.store "tasks/t" sampleClosed := by
  unfold DocumentAt
  decide +kernel

theorem sampleReopened_ref : sampleReopened.ref = "tasks/t" :=
  Moment.after_ref sampleClosed_stored.exists

/-- A heavy task is completed with no flags at all, and then cannot be archived. -/
theorem completed_without_flags :
    Turns sampleHost (sampleMoment (sampleOpen [("tests", false)]))
        [(sampleMoment (sampleOpen [("tests", false)]), sampleTransition "completed" (some []))]
        ((sampleMoment (sampleOpen [("tests", false)])).after sampleHost
          (sampleTransition "completed" (some []))) ∧
      ∃ d, Holds sampleHost
          ((sampleMoment (sampleOpen [("tests", false)])).after sampleHost
            (sampleTransition "completed" (some []))) d ∧
        d.lifecycle.status = .completed ∧ ¬ d.Archivable sampleHost := by
  have hvalid : (sampleOpen [("tests", false)]).Valid sampleHost := sampleHeavy_valid rfl
  have hon : (sampleTransition "completed" (some [])).On sampleHost
      (sampleMoment (sampleOpen [("tests", false)])) := sampleTransition_on rfl _ _ rfl
  obtain ⟨d, hd, -⟩ := call_lawful (fun _ => rfl) (sampleMoment_holds hvalid) hon
  refine ⟨.cons _ hon (.nil _), d, hd, ?_⟩
  obtain rfl := sampleClosed_stored.unique (sampleReopened_ref ▸ hd.document)
  refine ⟨rfl, ?_⟩
  rw [hd.valid.archivable_iff]
  rintro ⟨-, -, hflags⟩
  exact (hflags [] rfl).1 rfl

end AgentStack.Runtime
