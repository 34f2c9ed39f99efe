import AgentStack.Runtime.MigrationRuns

/-! The calls of a migration, in any order and each cut short anywhere. -/
namespace AgentStack.Runtime

open AgentStack.Core FileTree Crash Reconcile DirTree KeyedList

variable {host : Host} {around : Surroundings} {s t : FS} {transactionId : String}
  {j : MigrationJournal} {r w : MigrationRecord} {scanner : FS → Except Failure ScannedTasks}
  {request : MigrationRequest} {context : ScannerContext} {action : RecoveryAction}

/-! ### Plan -/

theorem migrationFileRecord_ok {path : Path} {kind : LocalKind} {preimage candidate : LocalDocument}
    (hjson : suffix (name path) = ".json")
    (h : migrationFileRecord host path kind preimage candidate s = .ok r) :
    r.Made host ∧ r.At host r.preimageState s ∧
      r.preimageState.byteHash = some (host.hashBytes preimage.content) ∧
      r.candidateState.byteHash = some (host.hashBytes candidate.content) := by
  obtain ⟨observed, hobs, h⟩ := bind_eq_ok h
  obtain ⟨⟨⟩, -, hdescribe⟩ := bind_eq_ok hobs
  split at h
  · cases h
  · next mode hmode =>
    split at h
    · cases h
    · next hfile =>
      split at h
      · cases h
      · next hhash =>
        rw [not_not] at hhash
        rw [not_or, not_not, not_not] at hfile
        cases h
        refine ⟨⟨⟨mode, ?_⟩, ⟨mode, rfl⟩, hjson⟩, hdescribe, hhash, rfl⟩
        show observed = _
        match hget : s.get path with
        | none =>
          rw [hget] at hdescribe
          cases hdescribe
          exact absurd hfile.1 (by simp [absentState])
        | some (.dir m) =>
          rw [hget] at hdescribe
          cases hdescribe
          exact absurd hfile.2 (by simp)
        | some (.symlink k) =>
          rw [hget] at hdescribe
          cases hdescribe
        | some (.file c m) =>
          rw [hget] at hdescribe
          cases hdescribe
          obtain rfl : m = mode := Option.some.inj hmode
          simp only [regularState] at hhash ⊢
          rw [hhash]

theorem outboxDocuments_json {isJson : Bytes → Bool} {documents : List (Path × LocalDocument)}
    (h : outboxDocuments isJson s = .ok documents) :
    ∀ item ∈ documents, suffix (name item.1) = ".json" := by
  unfold outboxDocuments at h
  split at h
  · cases h
  · split at h
    · cases h
      simp
    · split at h
      · cases h
      · intro item hitem
        obtain ⟨n, -, hn⟩ := mapM_mem h item hitem
        dsimp only at hn
        split at hn
        · cases hn
        · next hentry =>
          obtain ⟨document, -, hn⟩ := bind_eq_ok hn
          cases hn
          rw [name_append]
          by_contra hsuffix
          exact hentry (Or.inr (Or.inr hsuffix))

/-- A plan records each file as it is; the last record is that of the workspace. -/
theorem buildMigrationRecords_ok {workspace replay : LocalDocument}
    {records : List MigrationRecord}
    (h : buildMigrationRecords host request workspace replay s = .ok records) :
    (∀ r ∈ records, r.Made host ∧ r.At host r.preimageState s) ∧
      ∃ w, records.getLast? = some w ∧
        w.preimageState.byteHash = some (host.hashBytes workspace.content) ∧
        w.candidateState.byteHash = some (host.hashBytes (request.target workspace).content) := by
  obtain ⟨migrated, -, h⟩ := bind_eq_ok h
  obtain ⟨first, hfirst, h⟩ := bind_eq_ok h
  obtain ⟨documents, hdocuments, h⟩ := bind_eq_ok h
  obtain ⟨middle, hmiddle, h⟩ := bind_eq_ok h
  obtain ⟨last, hlast, h⟩ := bind_eq_ok h
  cases h
  obtain ⟨hmade₁, hat₁, -, -⟩ := migrationFileRecord_ok (by decide) hfirst
  obtain ⟨hmade₃, hat₃, hpre, hcand⟩ := migrationFileRecord_ok (by decide) hlast
  refine ⟨fun r hr => ?_, last, by rw [← List.cons_append, List.getLast?_append]; rfl, hpre, hcand⟩
  rcases List.mem_cons.mp hr with rfl | hr
  · exact ⟨hmade₁, hat₁⟩
  · rcases List.mem_append.mp hr with hr | hr
    · obtain ⟨item, hitem, hrecord⟩ := mapM_mem hmiddle r hr
      obtain ⟨document, -, hrecord⟩ := bind_eq_ok hrecord
      obtain ⟨hmade, hat, -, -⟩ :=
        migrationFileRecord_ok (outboxDocuments_json hdocuments item hitem) hrecord
      exact ⟨hmade, hat⟩
    · obtain rfl := List.mem_singleton.mp hr
      exact ⟨hmade₃, hat₃⟩

/-- The target differs from the workspace that is there. -/
def MigrationRequest.Differs (host : Host) (request : MigrationRequest) (s : FS) : Prop :=
  ∀ workspace, loadLocalDocument request.isJson workspacePath s = .ok workspace →
    host.hashBytes (request.target workspace).content ≠ host.hashBytes workspace.content

theorem loadLocalDocument_file {isJson : Bytes → Bool} {path : Path} {document : LocalDocument}
    (h : loadLocalDocument isJson path s = .ok document) : ∃ c m, s.get path = some (.file c m) := by
  unfold loadLocalDocument at h
  match hget : s.get path with
  | none => simp [hget] at h
  | some (.dir m) => simp [hget] at h
  | some (.symlink k) => simp [hget] at h
  | some (.file c m) => exact ⟨c, m, rfl⟩

theorem checkUnused_eq_ok (h : checkUnused host transactionId s = .ok ()) :
    s.exists (workspaceTransaction transactionId) = false ∧
      s.isSymlink (workspaceTransaction transactionId) = false := by
  unfold checkUnused at h
  dsimp only at h
  split at h
  · obtain ⟨existing, -, h⟩ := bind_eq_ok h
    split at h
    · cases h
    · cases h
  · next hfree => simpa using hfree

/-- What a plan was made from. -/
structure PlannedFrom (host : Host) (transactionId : String) (request : MigrationRequest)
    (j : MigrationJournal) (s : FS) : Prop where
  own : j.immutableHeader.transactionId = transactionId
  binding : j.phase = .planned ∧ j.rollbackState = none
  free : s.get (workspaceTransaction transactionId) = none
  made : ∀ r ∈ j.immutableHeader.fileRecords, r.Made host ∧ r.At host r.preimageState s
  clear : s.Clear workspaceTransactionRoot
  last : ∃ w, j.immutableHeader.fileRecords.getLast? = some w ∧
    (request.Differs host s → w.candidateState ≠ w.preimageState)

theorem planMigration_eq_ok (hwf : s.WellFormed)
    (h : planMigration host around transactionId request s = .ok j) :
    PlannedFrom host transactionId request j s := by
  obtain ⟨workspace, hworkspace, h⟩ := bind_eq_ok h
  obtain ⟨replay, -, h⟩ := bind_eq_ok h
  obtain ⟨⟨⟩, hunused, h⟩ := bind_eq_ok h
  obtain ⟨⟨⟩, -, h⟩ := bind_eq_ok h
  split at h
  · cases h
  · next hclear =>
    obtain ⟨records, hrecords, h⟩ := bind_eq_ok h
    cases h
    obtain ⟨hmade, w, hw, hpre, hcand⟩ := buildMigrationRecords_ok hrecords
    obtain ⟨hexists, hlink⟩ := checkUnused_eq_ok hunused
    refine ⟨rfl, ⟨rfl, rfl⟩, ?_, hmade, ?_, w, hw, fun hdiffers he => ?_⟩
    · match hget : s.get (workspaceTransaction transactionId) with
      | none => rfl
      | some (.file c m) => simp [DirTree.exists, hget] at hexists
      | some (.dir m) => simp [DirTree.exists, hget] at hexists
      | some (.symlink k) => simp [DirTree.isSymlink, hget] at hlink
    · obtain ⟨c, m, hfile⟩ := loadLocalDocument_file hworkspace
      have hlocal : s.realDir localDir := by
        apply hwf.parent_realDir (n := "workspace.json")
        show (s.get workspacePath).isSome = true
        rw [hfile]
        rfl
      exact unfinished_clear (hwf.reaches hlocal).clear hclear
    · rw [he, hpre] at hcand
      exact hdiffers workspace hworkspace (Option.some.inj hcand).symm

/-! ### Calls on a migration that is going -/

variable (scanner context action) in
/-- A recovery raises at once, or goes one of the two ways. -/
theorem recover_cases (h : Going host transactionId w j s) :
    (∃ e, (recoverWorkspaceMigration host scanner context transactionId action).run s =
        ⟨[], .error e⟩) ∨
      (action = .resume ∧
        (recoverWorkspaceMigration host scanner context transactionId action).run s =
          (finishWorkspaceMigration host scanner false j).run s) ∨
      (action = .rollback ∧ w.At host w.preimageState s ∧
        (recoverWorkspaceMigration host scanner context transactionId action).run s =
          (rollbackMigration host j w).run s) := by
  unfold recoverWorkspaceMigration
  cases hid : workspaceUuid transactionId "transaction_id" with
  | error e => exact Or.inl ⟨e, Program.bind_of_error (Program.lift_run _ s)⟩
  | ok u =>
    rw [Program.bind_of_pure (Program.lift_run _ s),
      Program.bind_of_pure (acquireProjectLocks_run h.shape h.locked),
      Program.bind_of_pure (by rw [Program.inspect_run, h.load])]
    cases hcontext : validateScannerContext j.immutableHeader context with
    | error e => exact Or.inl ⟨e, Program.bind_of_error (Program.lift_run _ s)⟩
    | ok u =>
      rw [Program.bind_of_pure (Program.lift_run _ s)]
      simp only [h.last]
      rcases h.relation h.mem_last with ⟨hrel, -⟩ | ⟨hrel, hat, -⟩
      · rw [Program.bind_of_pure (by rw [Program.inspect_run, hrel])]
        cases action with
        | resume => exact Or.inr (Or.inl ⟨rfl, rfl⟩)
        | rollback => exact Or.inl ⟨_, rfl⟩
      · rw [Program.bind_of_pure (by rw [Program.inspect_run, hrel])]
        cases action with
        | resume => exact Or.inr (Or.inl ⟨rfl, rfl⟩)
        | rollback => exact Or.inr (Or.inr ⟨rfl, hat, by simp⟩)

/-- A transaction id in use is refused. -/
theorem migrate_refused (h : Going host transactionId w j s) :
    ∃ e, (migrateWorkspace host around scanner transactionId request).run s = ⟨[], .error e⟩ := by
  unfold migrateWorkspace
  cases hid : workspaceUuid transactionId "transaction_id" with
  | error e => exact ⟨e, Program.bind_of_error (Program.lift_run _ s)⟩
  | ok u =>
    rw [Program.bind_of_pure (Program.lift_run _ s),
      Program.bind_of_pure (acquireProjectLocks_run h.shape h.locked)]
    cases hplan : planMigration host around transactionId request s with
    | error e => exact ⟨e, Program.bind_of_error (by rw [Program.inspect_run, hplan])⟩
    | ok j' =>
      obtain ⟨m, hget⟩ := h.journal
      have hfree := (planMigration_eq_ok h.shape hplan).free
      rw [hget] at hfree
      cases hfree

inductive MigrationCall
  | migrate (request : MigrationRequest)
  | recover (context : ScannerContext) (action : RecoveryAction)

def MigrationCall.run (host : Host) (around : Surroundings)
    (scanner : FS → Except Failure ScannedTasks) (transactionId : String) :
    MigrationCall → Prog WorkspaceMigrationResult
  | .migrate request => migrateWorkspace host around scanner transactionId request
  | .recover context action =>
    recoverWorkspaceMigration host scanner context transactionId action

theorem Going.refused {p : Prog WorkspaceMigrationResult} (h : Going host transactionId w j s)
    (hp : ∃ e, p.run s = ⟨[], .error e⟩) :
    Triple (· = s) p
      (fun o t => Follows host transactionId w j t ∧ (j.rollbackState ≠ none →
        ∀ result, o = .ok result → result.committed = false))
      (Follows host transactionId w j) := by
  obtain ⟨e, he⟩ := hp
  rintro s rfl
  unfold Program.out Program.final
  rw [he]
  refine ⟨by simp, h.follows, fun _ result hok => ?_⟩
  cases hok

theorem Going.recover (h : Going host transactionId w j s) :
    Triple (· = s) (recoverWorkspaceMigration host scanner context transactionId action)
      (fun o t => Follows host transactionId w j t ∧ (j.rollbackState ≠ none →
        ∀ result, o = .ok result → result.committed = false))
      (Follows host transactionId w j) := by
  rcases recover_cases scanner context action h with
    hr | ⟨-, hr⟩ | ⟨-, hat, hr⟩
  · exact h.refused hr
  · have hfresh : false = true → ∀ r ∈ j.immutableHeader.fileRecords,
        r.At host r.preimageState s := fun hf => by cases hf
    refine (Triple.of_run_eq hr (finish_follows h hfresh)).post ?_
    rintro o t ⟨ht, hback⟩
    refine ⟨ht, fun hb result hok => ?_⟩
    obtain ⟨e, he⟩ := hback hb
    rw [he] at hok
    cases hok
  · refine (Triple.of_run_eq hr (rollback_follows h hat)).post ?_
    rintro o t ⟨ht, hno⟩
    exact ⟨ht, fun _ => hno⟩

/-- Any call leaves the migration consistent, and none commits what records a rollback. -/
theorem Going.call (h : Going host transactionId w j s) (c : MigrationCall) :
    Triple (· = s) (c.run host around scanner transactionId)
      (fun o t => Follows host transactionId w j t ∧ (j.rollbackState ≠ none →
        ∀ result, o = .ok result → result.committed = false))
      (Follows host transactionId w j) := by
  cases c with
  | migrate request =>
    rw [MigrationCall.run]
    exact h.refused (migrate_refused h)
  | recover context action =>
    rw [MigrationCall.run]
    exact h.recover

/-! ### The first call -/

/-- Nothing of the migration is on disk. -/
structure Unmigrated (transactionId : String) (s : FS) : Prop where
  shape : s.WellFormed
  journal : s.get (workspaceTransaction transactionId) = none

/-- Nothing of the migration is on disk, or it is going. -/
def Migrating (host : Host) (transactionId : String) (s : FS) : Prop :=
  Unmigrated transactionId s ∨ ∃ w j, Going host transactionId w j s

theorem Follows.migrating (h : Follows host transactionId w j s) :
    Migrating host transactionId s := by
  obtain ⟨j', hg, -, -⟩ := h
  exact Or.inr ⟨w, j', hg⟩

theorem MigrationRequest.Differs.congr (h : request.Differs host s)
    (hget : t.get workspacePath = s.get workspacePath) : request.Differs host t := by
  intro workspace hworkspace
  apply h
  unfold loadLocalDocument at hworkspace ⊢
  rw [← hget]
  exact hworkspace

theorem acquireLocks_unmigrated (h : Unmigrated transactionId s) :
    Triple (· = s) (acquireProjectLocks host)
      (Ends (fun _ t => Locked t ∧ Unmigrated transactionId t ∧
        t.get workspacePath = s.get workspacePath) (Migrating host transactionId))
      (Migrating host transactionId) := by
  have hkeep : ∀ u, Frame LockPath s u → Unmigrated transactionId u := by
    intro u hu
    refine ⟨hu.shape h.shape, ?_⟩
    rw [hu.off _ (not_lockPath (by simp [workspaceTransaction, workspaceTransactionRoot])),
      h.journal]
  refine ((acquireProjectLocks_locks host).triple s).weaken (fun _ hs => hs) ?_
    fun u hu => Or.inl (hkeep u hu)
  rintro o t ⟨rfl, rfl⟩
  have hframe := (acquireProjectLocks_locks host).final s
  cases ho : (acquireProjectLocks host).out s with
  | error e => exact Or.inl (hkeep _ hframe)
  | ok u => exact ⟨acquireProjectLocks_locked ho, hkeep _ hframe,
      hframe.off _ (not_lockPath (by decide))⟩

/-- The first journal sets the migration going. -/
theorem writeMigrationJournal_begins (h : Unmigrated transactionId s) (hlocked : Locked s)
    (hplan : PlannedFrom host transactionId request j s) (hdiffers : request.Differs host s)
    (hvalid : validateMigration host j = .ok ()) :
    Triple (· = s) (writeMigrationJournal host j)
      (Returns fun _ t => ∃ w, Going host transactionId w j t ∧
        ∀ r ∈ j.immutableHeader.fileRecords, r.At host r.preimageState t)
      (Migrating host transactionId) := by
  obtain ⟨hid, hplanned⟩ := validateMigration_ok hvalid
  rw [hplan.own] at hid
  have hmade : ∀ r ∈ j.immutableHeader.fileRecords, r.Made host := fun r hr => (hplan.made r hr).1
  have hcheck : checkMigration host j s = .ok () := by
    unfold checkMigration
    rw [hplan.own, if_neg (by simp [DirTree.exists, DirTree.isSymlink, hplan.free])]
  have hpar : parent (workspaceTransaction transactionId) = workspaceTransactionRoot :=
    parent_append _ _
  have hwatch : Watches (MigrationPath transactionId j.immutableHeader.fileRecords) s.get s :=
    ⟨h.shape, fun _ _ => rfl, fun _ hq => migrationPath_steady (workspaceUuid_ne_nil hid) hmade hq⟩
  have hoff : ∀ q, MigrationPath transactionId j.immutableHeader.fileRecords q →
      ¬ q <+: workspaceTransactionRoot := by
    rintro q (rfl | rfl | rfl | ⟨r, hr, rfl⟩)
    · decide
    · decide
    · intro hpre
      have := hpre.length_le
      simp [workspaceTransaction, workspaceTransactionRoot] at this
    · intro hpre
      have hinside := hplanned.inside r hr
      have hroot : r.path = workspaceTransactionRoot :=
        hpre.eq_of_length_le (migratable_length hinside)
      rw [hroot] at hinside
      exact absurd hinside (by decide)
  have hfirst := hwatch.first host (p := workspaceTransaction transactionId)
    (c := .migration j) (by simp [workspaceTransaction]) (Or.inr (Or.inr (Or.inl rfl)))
    (by rw [hpar]; exact hplan.clear) hplan.free (by rw [hpar]; exact hoff)
  have hkept : ∀ t m, Watches (MigrationPath transactionId j.immutableHeader.fileRecords)
      (Function.update s.get (workspaceTransaction transactionId)
        (some (.file (.migration j) m))) t →
      ∀ q, MigrationPath transactionId j.immutableHeader.fileRecords q →
        q ≠ workspaceTransaction transactionId → t.get q = s.get q := by
    intro t m ht q hq hne
    rw [ht.shows q hq, Function.update_of_ne hne]
  have hgoing : ∀ t m, Watches (MigrationPath transactionId j.immutableHeader.fileRecords)
      (Function.update s.get (workspaceTransaction transactionId)
        (some (.file (.migration j) m))) t →
      ∃ w, Going host transactionId w j t ∧
        ∀ r ∈ j.immutableHeader.fileRecords, r.At host r.preimageState t := by
    intro t m ht
    have hsame := hkept t m ht
    have hat : ∀ r ∈ j.immutableHeader.fileRecords, r.At host r.preimageState t := fun r hr =>
      (hplan.made r hr).2.congr (hsame _ (Or.inr (Or.inr (Or.inr ⟨r, hr, rfl⟩)))
        (migratable_ne_transaction (hplanned.inside r hr)))
    obtain ⟨w, hw, hne⟩ := hplan.last
    have hmem := List.mem_of_getLast? hw
    have hnot : ¬ w.At host w.candidateState t := fun hc => hne hdiffers (hc.unique (hat w hmem))
    refine ⟨w, ⟨⟨ht.shape, ⟨?_, ?_⟩, ⟨m, ?_⟩, hplan.own, hvalid, hmade,
      fun r hr => Or.inl (hat r hr)⟩, hw, hne hdiffers, ?_⟩, hat⟩
    · rw [hsame _ (Or.inl rfl) (workspaceTransaction_ne (by decide))]
      exact hlocked.reconcile
    · rw [hsame _ (Or.inr (Or.inl rfl)) (workspaceTransaction_ne (by decide))]
      exact hlocked.runtime
    · rw [ht.shows _ (Or.inr (Or.inr (Or.inl rfl))), Function.update_self]
    · refine .before hplan.binding.2 ?_ hnot
      rw [hplan.binding.1]
      decide
  unfold writeMigrationJournal
  refine Triple.bind_run (by rw [Program.lift_run, hvalid]) ?_
  refine Triple.bind_run (by rw [Program.inspect_run, hcheck]) ?_
  rw [hplan.own]
  unfold putDocument
  refine hfirst.weaken (fun _ hs => hs) ?_ fun u hu => ?_
  · rintro o t ⟨a, ho, ht⟩
    exact ⟨a, ho, hgoing t _ ht⟩
  · rcases hu with hu | hu
    · refine Or.inl ⟨hu.shape, ?_⟩
      rw [hu.shows _ (Or.inr (Or.inr (Or.inl rfl))), h.journal]
    · obtain ⟨w, hg, -⟩ := hgoing u _ hu
      exact Or.inr ⟨w, j, hg⟩

variable (scanner) in
/-- A checked plan is carried out. -/
theorem begin_going (h : Unmigrated transactionId s) (hlocked : Locked s)
    (hplan : PlannedFrom host transactionId request j s) (hdiffers : request.Differs host s)
    (hvalid : validateMigration host j = .ok ()) :
    Triple (· = s) (do
        writeMigrationJournal host j
        finishWorkspaceMigration host scanner true j)
      (fun _ t => ∃ w j, Going host transactionId w j t) (Migrating host transactionId) := by
  refine (writeMigrationJournal_begins h hlocked hplan hdiffers hvalid).bind_returns
    fun _ => Triple.of_forall ?_
  rintro t ⟨w, ht, hat⟩
  refine (finish_follows ht fun _ => hat).weaken (fun _ hs => hs) ?_ fun _ hu => hu.migrating
  rintro o u ⟨⟨j', hg, -⟩, -⟩
  exact ⟨w, j', hg⟩

theorem migrate_begins (h : Unmigrated transactionId s) (hdiffers : request.Differs host s) :
    Triple (· = s) (migrateWorkspace host around scanner transactionId request)
      (fun _ => Migrating host transactionId) (Migrating host transactionId) := by
  rw [← ends_const]
  unfold migrateWorkspace
  refine Triple.lift_bind_ends (Or.inl h) fun _ _ => ?_
  refine (acquireLocks_unmigrated h).bind_ends fun _ => Triple.of_forall ?_
  rintro t ⟨hlocked, ht, hget⟩
  refine Triple.inspect_bind_ends (Or.inl ht) fun j hplan => ?_
  have hfrom := planMigration_eq_ok ht.shape hplan
  cases hvalid : validateMigration host j with
  | error e =>
    have hwrite : (writeMigrationJournal host j).run t = ⟨[], .error e⟩ := by
      unfold writeMigrationJournal
      exact Program.bind_of_error (by rw [Program.lift_run, hvalid])
    exact Triple.bind_raised hwrite (Or.inl ht)
  | ok u =>
    rw [ends_const]
    exact (begin_going _ ht hlocked hfrom (hdiffers.congr hget) hvalid).post
      fun _ _ hgoing => Or.inr hgoing

/-- There is nothing to recover before the first journal. -/
theorem recover_nothing (h : Unmigrated transactionId s) :
    Triple (· = s) (recoverWorkspaceMigration host scanner context transactionId action)
      (fun _ => Migrating host transactionId) (Migrating host transactionId) := by
  rw [← ends_const]
  unfold recoverWorkspaceMigration
  refine Triple.lift_bind_ends (Or.inl h) fun _ _ => ?_
  refine (acquireLocks_unmigrated h).bind_ends fun _ => Triple.of_forall ?_
  rintro t ⟨-, ht, -⟩
  refine Triple.inspect_bind_ends (Or.inl ht) fun j hload => ?_
  simp [loadMigration, ht.journal] at hload

/-! ### Runs -/

/-- The target of a migration differs from the workspace it finds. -/
def MigrationCall.Differs (host : Host) (s : FS) : MigrationCall → Prop
  | .migrate request => request.Differs host s
  | .recover _ _ => True

/-- The stores that calls for one migration lead to, each call cut short after any of its effects
or run to its end. -/
inductive MigrationReach (host : Host) (transactionId : String) (s : FS) : FS → Prop
  | start : MigrationReach host transactionId s s
  | call {t u : FS} (around : Surroundings) (scanner : FS → Except Failure ScannedTasks)
    (c : MigrationCall) (h : MigrationReach host transactionId s t) (hc : c.Differs host t)
    (hu : u ∈ (c.run host around scanner transactionId).states t) :
    MigrationReach host transactionId s u

theorem call_migrating (h : Migrating host transactionId s) (c : MigrationCall)
    (hc : c.Differs host s) (ht : t ∈ (c.run host around scanner transactionId).states s) :
    Migrating host transactionId t := by
  rcases h with h | ⟨w, j, hg⟩
  · cases c with
    | migrate request => exact (migrate_begins h hc).states rfl (Or.inl h) ht
    | recover context action => exact (recover_nothing h).states rfl (Or.inl h) ht
  · exact ((hg.call c).states rfl hg.follows ht).migrating

theorem reach_migrating (hs : Migrating host transactionId s)
    (h : MigrationReach host transactionId s t) : Migrating host transactionId t := by
  induction h with
  | start => exact hs
  | call around scanner c _ hc hu ih => exact call_migrating ih c hc hu

/-- What is going stays so, and a recorded rollback stays recorded. -/
theorem reach_follows (hs : Going host transactionId w j s)
    (h : MigrationReach host transactionId s t) : Follows host transactionId w j t := by
  induction h with
  | start => exact hs.follows
  | call around scanner c _ _ hu ih =>
    obtain ⟨j', hg, hh, hback⟩ := ih
    exact ((hg.call c).states rfl hg.follows hu).trans hh hback

/-- What a migration owes in a store it leads to. -/
structure MigrationSafe (host : Host) (transactionId : String) (j : MigrationJournal) (t : FS) :
    Prop where
  committed : ∀ w, j.immutableHeader.fileRecords.getLast? = some w →
    w.At host w.candidateState t →
    ∀ r ∈ j.immutableHeader.fileRecords, r.At host r.candidateState t
  complete : j.phase = .complete →
    (∀ r ∈ j.immutableHeader.fileRecords, r.At host r.candidateState t) ∨
      ∀ r ∈ j.immutableHeader.fileRecords, r.At host r.preimageState t
  undone : j.rollbackState ≠ none → ∀ u, MigrationReach host transactionId t u →
    ∀ w, j.immutableHeader.fileRecords.getLast? = some w → ¬ w.At host w.candidateState u
  refused : j.rollbackState ≠ none → ∀ around scanner (c : MigrationCall) result,
    (c.run host around scanner transactionId).out t = .ok result → result.committed = false

theorem Going.safe (h : Going host transactionId w j t) : MigrationSafe host transactionId j t := by
  have hlast : ∀ w', j.immutableHeader.fileRecords.getLast? = some w' → w' = w :=
    fun w' hw' => Option.some.inj (hw'.symm.trans h.last)
  constructor
  case committed =>
    intro w' hw'
    rw [hlast w' hw']
    exact h.consistent.committed
  case complete =>
    intro hphase
    by_cases hopen : j.rollbackState = none
    · have hcand := h.consistent.recorded hopen (by rw [hphase]; decide)
      exact Or.inl (h.consistent.committed hcand)
    · exact Or.inr (h.consistent.undone hopen).2
  case undone =>
    intro hback u hu w' hw'
    rw [hlast w' hw']
    obtain ⟨j', hg, hh, hback'⟩ := reach_follows h hu
    apply hg.not_candidate
    exact (hg.consistent.undone (hback' hback)).2 w hg.mem_last
  case refused =>
    intro hback around scanner c result hok
    exact (h.call c t rfl).2.2 hback result hok

/-- Migrations are atomic: in every store that crashes, resumes and rollbacks lead to from one
without a journal of the migration, what its journal then says of the files is so. -/
theorem migration_atomic (hwf : s.WellFormed)
    (hunused : s.get (workspaceTransaction transactionId) = none)
    (h : MigrationReach host transactionId s t) {m : FileTree.Mode}
    (hj : t.get (workspaceTransaction transactionId) = some (.file (.migration j) m)) :
    MigrationSafe host transactionId j t := by
  rcases reach_migrating (Or.inl ⟨hwf, hunused⟩) h with ht | ⟨w, j', hg⟩
  · rw [ht.journal] at hj
    cases hj
  · obtain ⟨m', hj'⟩ := hg.journal
    rw [hj] at hj'
    cases hj'
    exact hg.safe

section Sample

/-- A request whose target is not yet known to this release. -/
def sampleMigration : MigrationRequest where
  sourceLayout := ⟨sampleDigest 4, "\x7b\x7d"⟩
  targetLayout := ⟨sampleDigest 4, "\x7b\x7d"⟩
  sourceSchemas := ⟨sampleDigest 4, "\x7b\x7d"⟩
  targetSchemas := ⟨sampleDigest 4, "\x7b\x7d"⟩
  taskSnapshot := "\x7b\x7d"
  taskFindings := "\x7b\x7d"
  taskQuiescenceDigest := sampleDigest 5
  isJson _ := false
  migrate _ document := .ok document
  target _ := .other [0]
  identity _ := (sampleTask, sampleWorkspace)
  admission _ := .ok ()

/-- A registered checkout. -/
def sampleMigrationRegistered : FS :=
  sampleCheckout [(workspacePath, (sampleRegistration .complete).workspaceFile),
    (replayPath, (sampleRegistration .complete).replayFile)]

def sampleScanner : FS → Except Failure ScannedTasks :=
  fun _ => .ok ⟨"\x7b\x7d", "\x7b\x7d", sampleDigest 5⟩

theorem sampleMigration_differs : sampleMigration.Differs sampleHost sampleMigrationRegistered := by
  intro workspace hworkspace
  obtain rfl : LocalDocument.workspace (sampleRegistration .complete).workspaceCandidate =
      workspace := Except.ok.inj hworkspace
  exact fun he => absurd (sampleDigest_inj he) (by decide)

theorem sampleMigration_planned : ∃ j, planMigration sampleHost sampleAround sampleTransaction
    sampleMigration sampleMigrationRegistered = .ok j ∧ validateMigration sampleHost j = .ok () := by
  have h : (do
      let j ← planMigration sampleHost sampleAround sampleTransaction sampleMigration
        sampleMigrationRegistered
      validateMigration sampleHost j).isOk = true := by
    decide
  obtain ⟨u, hu⟩ := exists_of_isOk h
  obtain ⟨j, hplan, hvalid⟩ := bind_eq_ok hu
  exact ⟨j, hplan, hvalid⟩

theorem sampleRegistered_wellFormed : sampleMigrationRegistered.WellFormed := by decide

/-- The store after the sample's migration. -/
def sampleMigrated : FS :=
  (migrateWorkspace sampleHost sampleAround sampleScanner sampleTransaction sampleMigration).final
    sampleMigrationRegistered

theorem sampleMigrated_going :
    ∃ w j, Going sampleHost sampleTransaction w j sampleMigrated := by
  obtain ⟨j, hplan, hvalid⟩ := sampleMigration_planned
  have hlocked : Locked sampleMigrationRegistered := ⟨⟨_, _, rfl⟩, ⟨_, _, rfl⟩⟩
  have hwf := sampleRegistered_wellFormed
  have hrun : (migrateWorkspace sampleHost sampleAround sampleScanner sampleTransaction
      sampleMigration).run sampleMigrationRegistered = (do
        writeMigrationJournal sampleHost j
        finishWorkspaceMigration sampleHost sampleScanner true j : Prog _).run
        sampleMigrationRegistered := by
    have hid := (validateRegistration_ok.mp (sampleRegistration_valid .complete)).1
    unfold migrateWorkspace
    rw [Program.bind_of_pure (a := ()) (by rw [Program.lift_run]; exact congrArg _ hid),
      Program.bind_of_pure (acquireProjectLocks_run hwf hlocked),
      Program.bind_of_pure (by rw [Program.inspect_run, hplan])]
  have hbegin := begin_going sampleScanner ⟨hwf, rfl⟩ hlocked
    (planMigration_eq_ok hwf hplan) sampleMigration_differs hvalid
  exact (Triple.of_run_eq hrun hbegin sampleMigrationRegistered rfl).2

theorem migration_atomic_migrated : ∃ j m,
    sampleMigrated.get (workspaceTransaction sampleTransaction) =
      some (.file (.migration j) m) ∧
    MigrationSafe sampleHost sampleTransaction j sampleMigrated := by
  obtain ⟨w, j, hgoing⟩ := sampleMigrated_going
  obtain ⟨m, hj⟩ := hgoing.journal
  have hreach : MigrationReach sampleHost sampleTransaction sampleMigrationRegistered sampleMigrated :=
    .call sampleAround sampleScanner (.migrate sampleMigration) .start sampleMigration_differs
      (Program.final_mem_states _ _)
  exact ⟨j, m, hj, migration_atomic sampleRegistered_wellFormed rfl hreach hj⟩

end Sample

end AgentStack.Runtime
