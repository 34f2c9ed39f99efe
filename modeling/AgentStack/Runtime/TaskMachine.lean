import AgentStack.Runtime.ArchiveCalls

/-! An admitted task under calls in any order: what each call may do to its integration
document. -/
namespace AgentStack.Runtime

open AgentStack.Core FileTree Crash Reconcile DirTree

variable {host : Host} {s t : FS}

/-- A store, and the ref under which a task stands in it. -/
structure Moment where
  store : FS
  ref : String
  deriving Repr

/-- The task's document is in place and valid. -/
structure Holds (host : Host) (m : Moment) (d : Integration) : Prop where
  shape : m.store.WellFormed
  document : DocumentAt m.store m.ref d
  valid : d.Valid host

def Call.succeeds (host : Host) (c : Call) (m : Moment) : Prop :=
  ∃ r, (c.run host).out m.store = .ok r

/-- The call fails one of its checks. -/
def Call.refused (host : Host) (c : Call) (m : Moment) : Prop :=
  ∃ e, (c.announce host).out m.store = .error e

/-- By how much a call raises the revision. -/
def Call.raise : Call → Int
  | .archive _ => 2
  | _ => 1

/-- The ref the call would leave the task under. -/
def Call.destination (host : Host) (c : Call) (m : Moment) : String :=
  match (c.announce host).out m.store with
  | .ok (.archive header, _) => header.archiveRef
  | _ => m.ref

/-- The moment after a call: the task is where it was, unless it is gone from there. -/
def Moment.after (host : Host) (m : Moment) (c : Call) : Moment :=
  let store := (c.run host).final m.store
  ⟨store, if store.exists (integrationFile m.ref) then m.ref else c.destination host m⟩

/-- The hash tells the documents of the exchange apart. -/
def Exchange.Separated (host : Host) : Exchange → Prop
  | .document _ _ before after =>
    host.hashBytes (.integration before) ≠ host.hashBytes (.integration after)
  | .archive header =>
    host.hashBytes (.integration header.beforeIntegration) ≠
        host.hashBytes (.integration header.archivingIntegration) ∧
      host.hashBytes (.integration header.archivingIntegration) ≠
        host.hashBytes (.integration header.archivedIntegration)

/-- No metadata mutation of the exchange names the task's own integration file. -/
def Exchange.Spares : Exchange → Prop
  | .document .. => True
  | .archive header => ∀ m ∈ header.metadataMutations,
    m.original.path ≠ integrationFile header.taskRef ∧
      m.original.path ≠ integrationFile header.archiveRef

/-- A call on the task: it names no other integration document, and what it announces can be
told apart and spares the document. -/
structure Call.On (host : Host) (c : Call) (m : Moment) : Prop where
  own : ∀ taskRef d k, normalizedTaskRef host c.taskRef = .ok taskRef →
    m.store.get (integrationFile taskRef) = some (.file (.integration d) k) → taskRef = m.ref
  separated : ∀ x j, (c.announce host).out m.store = .ok (x, j) → x.Separated host
  spares : ∀ x j, (c.announce host).out m.store = .ok (x, j) → x.Spares

/-- The patch of a claim, release or transition. -/
def Call.Patches (host : Host) (c : Call) (d : Integration) (v : VerifiedIntegration)
    (d' : Integration) : Prop :=
  match c with
  | .claim _ request => claimAfter host request d v = .ok d'
  | .release _ request => releaseAfter host request d v = .ok d'
  | .transition _ request => transitionAfter host request d v = .ok d'
  | .archive _ => False

/-- What a call may do. -/
structure Lawful (host : Host) (c : Call) (m : Moment) (d d' : Integration) : Prop where
  same : SameTask d d'
  patched : d' = d ∨ (∃ v, validateIntegration host d = .ok v ∧ c.Patches host d v d') ∨
    ∃ request, c = .archive request
  grows : d.revision ≤ d'.revision
  expected : c.succeeds host m → c.expectedRevision = d.revision
  raised : c.succeeds host m → d'.revision = d.revision + c.raise
  refused : c.refused host m → (m.after host c).ref = m.ref ∧ d' = d
  taken : d.claim = none → d'.claim ≠ none →
    (∃ transactionId request, c = .claim transactionId request) ∧
      d.modeState.phase = some .implementing
  removed : ∀ claim, d.claim = some claim → d'.claim ≠ some claim →
    ∃ transactionId request, c = .release transactionId request ∧
      request.claimId = claim.claimId ∧ request.actor = claim.actor

/-- Calls one after the other, each with the moment it is made at. -/
inductive Turns (host : Host) : Moment → List (Moment × Call) → Moment → Prop
  | nil (m : Moment) : Turns host m [] m
  | cons {m n : Moment} {turns : List (Moment × Call)} (c : Call) (on : c.On host m)
    (rest : Turns host (m.after host c) turns n) : Turns host m ((m, c) :: turns) n

/-! ### What a call announces -/

/-- A document as a call loads it. -/
structure Loaded (host : Host) (taskRef : String) (expectedRevision : Int) (s : FS)
    (d : Integration) (v : VerifiedIntegration) : Prop where
  file : ∃ k, s.get (integrationFile taskRef) = some (.file (.integration d) k)
  valid : validateIntegration host d = .ok v
  revision : v.stateRevision = expectedRevision

theorem normalizedTaskRef_idem (hnfc : ∀ x, host.nfc (host.nfc x) = host.nfc x)
    {value taskRef : String} (h : normalizedTaskRef host value = .ok taskRef) :
    normalizedTaskRef host taskRef = .ok taskRef := by
  unfold normalizedTaskRef at h ⊢
  cases hp : normalizePath host.nfc value with
  | error e =>
    rw [hp] at h
    cases h
  | ok path =>
    rw [hp] at h
    obtain rfl := Except.ok.inj h
    rw [normalizePath_joinPath hnfc hp]

theorem loadTask_eq_ok {taskRef taskId : String} {expectedRevision : Int} {d : Integration}
    {v : VerifiedIntegration} (hnorm : normalizedTaskRef host taskRef = .ok taskRef)
    (h : loadTask host taskRef taskId expectedRevision s = .ok (d, v)) :
    Loaded host taskRef expectedRevision s d v := by
  unfold loadTask at h
  rw [hnorm, bind_ok_eq] at h
  obtain ⟨⟨document, verified⟩, hread, h⟩ := bind_eq_ok h
  obtain ⟨_, -, h⟩ := bind_eq_ok h
  split_ifs at h with hid hrev
  obtain ⟨rfl, rfl⟩ := Prod.mk.inj (Except.ok.inj h)
  unfold readIntegrationPath at hread
  split at hread
  · rename_i document' k hfile
    obtain ⟨v', hv, hread⟩ := bind_eq_ok hread
    obtain ⟨rfl, rfl⟩ := Prod.mk.inj (Except.ok.inj hread)
    exact ⟨⟨k, hfile⟩, hv, not_not.mp hrev⟩
  all_goals cases hread

theorem Loaded.back {taskRef : String} {expectedRevision : Int} {d : Integration}
    {v : VerifiedIntegration} (h : Loaded host taskRef expectedRevision t d v)
    (hf : Frame Plain s t) : Loaded host taskRef expectedRevision s d v := by
  obtain ⟨k, hk⟩ := h.file
  refine ⟨⟨k, ?_⟩, h.valid, h.revision⟩
  rw [← hf.off _ integrationFile_not_plain]
  exact hk

/-- An exchange of the document `d` loaded from `taskRef`. -/
inductive Announced (host : Host) (s : FS) (d : Integration) (v : VerifiedIntegration) :
    Call → Exchange → Prop
  | document {c : Call} {transactionId taskRef : String} {after : Integration}
    (ref : normalizedTaskRef host c.taskRef = .ok taskRef)
    (loaded : Loaded host taskRef c.expectedRevision s d v)
    (asked : c.Patches host d v after) :
      Announced host s d v c (.document transactionId taskRef d after)
  | archive {request : TaskArchiveRequest} {header : ArchiveHeader}
    (ref : normalizedTaskRef host request.taskRef = .ok header.taskRef)
    (loaded : Loaded host header.taskRef request.expectedRevision s d v)
    (before : header.beforeIntegration = d)
    (archivable : checkArchivable d v = .ok ())
    (documents : archiveIntegrations host d request.transactionId request.archivedAt =
      .ok (header.archivingIntegration, header.archivedIntegration))
    (free : s.WellFormed → s.get (integrationFile header.archiveRef) = none) :
    Announced host s d v (.archive request) (.archive header)

theorem prepareMutation_out {ref taskId : String} {expectedRevision : Int}
    {next : Integration → VerifiedIntegration → Except Failure Integration} {taskRef : String}
    {before after : Integration} (hnfc : ∀ x, host.nfc (host.nfc x) = host.nfc x)
    (h : (prepareMutation host ref taskId expectedRevision next).out s =
      .ok (taskRef, before, after)) :
    normalizedTaskRef host ref = .ok taskRef ∧
      ∃ v, Loaded host taskRef expectedRevision s before v ∧ next before v = .ok after := by
  obtain ⟨taskRef', hnorm, h⟩ := Program.lift_out_eq_ok h
  obtain ⟨_, -, h, -⟩ := Program.bind_out_eq_ok h
  obtain ⟨⟨before', v⟩, hload, h⟩ := Program.inspect_out_eq_ok h
  obtain ⟨after', hnext, h⟩ := Program.lift_out_eq_ok h
  obtain ⟨rfl, hpair⟩ := Prod.mk.inj (Except.ok.inj h)
  obtain ⟨rfl, rfl⟩ := Prod.mk.inj hpair
  refine ⟨hnorm, v, ?_, hnext⟩
  exact (loadTask_eq_ok (normalizedTaskRef_idem hnfc hnorm) hload).back (enterTask_plain _ _ s)

theorem archiveHeader_eq_ok {request : TaskArchiveRequest} {taskRef : String} {d : Integration}
    {v : VerifiedIntegration} {header : ArchiveHeader}
    (h : archiveHeader host request taskRef d v t = .ok header) :
    header.taskRef = taskRef ∧ header.beforeIntegration = d ∧ checkArchivable d v = .ok () ∧
      archiveIntegrations host d request.transactionId request.archivedAt =
        .ok (header.archivingIntegration, header.archivedIntegration) ∧
      t.exists (segments header.archiveRef) = false := by
  obtain ⟨_, harch, h⟩ := bind_eq_ok h
  obtain ⟨destination, -, h⟩ := bind_eq_ok h
  split at h
  · cases h
  · rename_i hfree
    obtain ⟨⟨marking, archived⟩, hdocs, h⟩ := bind_eq_ok h
    obtain ⟨_, -, h⟩ := bind_eq_ok h
    rw [← Except.ok.inj h]
    exact ⟨rfl, rfl, harch, hdocs, by simpa using hfree⟩

/-- Nothing is there, so no integration file lies there either. -/
theorem free_of_not_exists {b : String} (ht : t.WellFormed)
    (h : t.exists (segments b) = false) : t.get (integrationFile b) = none := by
  apply ht.no_children _ (by simp)
  rintro ⟨k, hk⟩
  simp [DirTree.exists, hk] at h

variable (host) in
theorem announce_plain (c : Call) : Leaves (Frame Plain) (c.announce host) := by
  have hmutation : ∀ transactionId operation ref taskId expectedRevision next,
      Leaves (Frame Plain)
        (announceMutation host transactionId operation ref taskId expectedRevision next) := by
    intro transactionId operation ref taskId expectedRevision next
    refine Leaves.bind ?_ fun x => ?_
    · refine (Within.lift _).leaves.bind fun _ => (enterTask_plain _ _).bind fun _ => ?_
      exact ((Within.inspect _).bind fun _ => (Within.lift _).bind fun _ => Within.pure _).leaves
    · refine (Within.lift _).leaves.bind fun _ => ?_
      exact createTaskJournal_plain.bind fun _ => (Within.pure _).leaves
  cases c with
  | claim transactionId request => exact hmutation _ _ _ _ _ _
  | release transactionId request => exact hmutation _ _ _ _ _ _
  | transition transactionId request => exact hmutation _ _ _ _ _ _
  | archive request =>
    refine Leaves.bind ?_ fun header => createTaskJournal_plain.bind fun _ =>
      (Within.pure _).leaves
    refine (Within.lift _).leaves.bind fun _ => (Within.lift _).leaves.bind fun _ => ?_
    refine (enterTask_plain _ _).bind fun _ => ?_
    exact ((Within.inspect _).bind fun _ => Within.inspect _).leaves

theorem announceMutation_out {transactionId ref taskId : String} {operation : Operation}
    {expectedRevision : Int}
    {next : Integration → VerifiedIntegration → Except Failure Integration} {x : Exchange}
    {journal : TaskJournal} (hnfc : ∀ x, host.nfc (host.nfc x) = host.nfc x)
    (h : (announceMutation host transactionId operation ref taskId expectedRevision next).out s =
      .ok (x, journal)) :
    journal.phase = .planned ∧ ∃ taskRef d after v,
      x = .document transactionId taskRef d after ∧
        normalizedTaskRef host ref = .ok taskRef ∧
        Loaded host taskRef expectedRevision s d v ∧ next d v = .ok after := by
  obtain ⟨⟨taskRef, before, after⟩, hprep, h, -⟩ := Program.bind_out_eq_ok h
  obtain ⟨verified, -, h⟩ := Program.lift_out_eq_ok h
  obtain ⟨journal', hcreate, h, -⟩ := Program.bind_out_eq_ok h
  obtain ⟨rfl, rfl⟩ := Prod.mk.inj (Except.ok.inj h)
  obtain ⟨hnorm, v, hload, hnext⟩ := prepareMutation_out hnfc hprep
  exact ⟨createTaskJournal_out hcreate, taskRef, before, after, v, rfl, hnorm, hload, hnext⟩

/-- What stands behind every announcement. -/
theorem announce_out {c : Call} {x : Exchange} {journal : TaskJournal}
    (hnfc : ∀ x, host.nfc (host.nfc x) = host.nfc x)
    (h : (c.announce host).out s = .ok (x, journal)) :
    journal.phase = .planned ∧ ∃ d v, Announced host s d v c x := by
  cases c with
  | claim transactionId request =>
    obtain ⟨hphase, taskRef, d, after, v, rfl, href, hload, hnext⟩ := announceMutation_out hnfc h
    exact ⟨hphase, d, v, .document href hload hnext⟩
  | release transactionId request =>
    obtain ⟨hphase, taskRef, d, after, v, rfl, href, hload, hnext⟩ := announceMutation_out hnfc h
    exact ⟨hphase, d, v, .document href hload hnext⟩
  | transition transactionId request =>
    obtain ⟨hphase, taskRef, d, after, v, rfl, href, hload, hnext⟩ := announceMutation_out hnfc h
    exact ⟨hphase, d, v, .document href hload hnext⟩
  | archive request =>
    obtain ⟨header, hprep, h, -⟩ := Program.bind_out_eq_ok h
    obtain ⟨journal', hcreate, h, -⟩ := Program.bind_out_eq_ok h
    obtain ⟨rfl, rfl⟩ := Prod.mk.inj (Except.ok.inj h)
    obtain ⟨taskRef, hnorm, hprep⟩ := Program.lift_out_eq_ok hprep
    obtain ⟨_, -, hprep⟩ := Program.lift_out_eq_ok hprep
    obtain ⟨_, -, hprep, -⟩ := Program.bind_out_eq_ok hprep
    obtain ⟨⟨d, v⟩, hload, hprep⟩ := Program.inspect_out_eq_ok hprep
    obtain ⟨rfl, hbefore, harch, hdocs, hfree⟩ := archiveHeader_eq_ok hprep
    have hleaves : Leaves _ (enterTask host _ _) := enterTask_plain header.taskRef none
    have hframe : Frame Plain s _ := hleaves s
    refine ⟨createTaskJournal_out hcreate, d, v, .archive hnorm ?_ hbefore harch hdocs ?_⟩
    · exact (loadTask_eq_ok (normalizedTaskRef_idem hnfc hnorm) hload).back hframe
    · intro hs
      rw [← hframe.off _ integrationFile_not_plain]
      exact free_of_not_exists (hframe.shape hs) hfree

/-- The documents an exchange can leave, by its call. -/
theorem Announced.after_lawful {d after : Integration} {v : VerifiedIntegration} {c : Call}
    {transactionId taskRef : String}
    (h : Announced host s d v c (.document transactionId taskRef d after)) :
    Exchanged host 1 d after ∧ c.raise = 1 ∧
      (d.claim = none → after.claim ≠ none →
        (∃ transactionId request, c = .claim transactionId request) ∧
          d.modeState.phase = some .implementing) ∧
      ∀ claim, d.claim = some claim → after.claim ≠ some claim →
        ∃ transactionId request, c = .release transactionId request ∧
          request.claimId = claim.claimId ∧ request.actor = claim.actor := by
  obtain ⟨ref, loaded, asked⟩ := h
  have hv := validateIntegration_reads loaded.valid
  cases c with
  | claim transactionId request =>
    obtain ⟨hex, hnone, hphase, -⟩ := claimAfter_eq_ok hv asked
    refine ⟨hex, rfl, fun _ _ => ⟨⟨_, _, rfl⟩, hphase⟩, ?_⟩
    intro claim hclaim
    rw [hnone] at hclaim
    cases hclaim
  | release transactionId request =>
    obtain ⟨hex, -, -, -, claim, hclaim, hid, hactor⟩ := releaseAfter_eq_ok hv asked
    refine ⟨hex, rfl, ?_, ?_⟩
    · intro hnone
      rw [hclaim] at hnone
      cases hnone
    · intro claim' hclaim' _
      rw [hclaim] at hclaim'
      obtain rfl := Option.some.inj hclaim'
      exact ⟨_, _, rfl, hid.symm, hactor.symm⟩
  | transition transactionId request =>
    obtain ⟨hex, hsame, -⟩ := transitionAfter_eq_ok hv asked
    refine ⟨hex, rfl, ?_, ?_⟩
    · intro hnone hsome
      rw [hsame] at hsome
      exact absurd hnone hsome
    · intro claim hclaim hne
      rw [hsame] at hne
      exact absurd hclaim hne
  | archive request => exact asked.elim

end AgentStack.Runtime
