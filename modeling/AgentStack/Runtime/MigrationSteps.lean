import AgentStack.KeyedList.Basic
import AgentStack.Runtime.Migration
import AgentStack.Runtime.WorkspaceSteps

/-! The steps of a migration: each changes its journal or the file of one record. -/
namespace AgentStack.Runtime

open AgentStack.Core FileTree Crash Reconcile DirTree

variable {host : Host} {s t : FS} {r : MigrationRecord} {f f' : FileState}
  {j : MigrationJournal} {transactionId : String}

/-! ### Records -/

/-- The file of the record is in the state `f`. -/
def MigrationRecord.At (host : Host) (r : MigrationRecord) (f : FileState) (s : FS) : Prop :=
  describe host r.path none (s.get r.path) = .ok f

theorem MigrationRecord.At.unique (h : r.At host f s) (h' : r.At host f' s) : f = f' :=
  Except.ok.inj (h.symm.trans h')

theorem MigrationRecord.At.congr (h : r.At host f s) (hget : t.get r.path = s.get r.path) :
    r.At host f t := by
  unfold MigrationRecord.At
  rw [hget]
  exact h

/-- A record as a plan makes it. -/
structure MigrationRecord.Made (host : Host) (r : MigrationRecord) : Prop where
  preimage : ∃ m, r.preimageState =
    regularState r.path (host.hashBytes r.preimageDocument.content) m none
  candidate : ∃ m, r.candidateState =
    regularState r.path (host.hashBytes r.candidateDocument.content) m none
  json : suffix (name r.path) = ".json"

theorem describe_regular {p : Path} {n : Option (Node Content)} {digest : String}
    {m : FileTree.Mode} {managed managed' : Option String}
    (h : describe host p managed n = .ok (regularState p digest m managed')) :
    ∃ c k, n = some (.file c k) := by
  match n with
  | none => cases h
  | some (.dir k) => cases h
  | some (.symlink k) => cases h
  | some (.file c k) => exact ⟨c, k, rfl⟩

theorem MigrationRecord.Made.file (hr : r.Made host)
    (h : r.At host r.preimageState s ∨ r.At host r.candidateState s) :
    ∃ c k, s.get r.path = some (.file c k) := by
  obtain ⟨m, hm⟩ := hr.preimage
  obtain ⟨m', hm'⟩ := hr.candidate
  rcases h with h | h
  · rw [hm] at h
    exact describe_regular h
  · rw [hm'] at h
    exact describe_regular h

/-! ### The journal -/

/-- What the records of a checked journal are. -/
structure Planned (records : List MigrationRecord) : Prop where
  nodup : (records.map MigrationRecord.path).Nodup
  last : (records.map MigrationRecord.path).getLast? = some workspacePath
  inside : ∀ r ∈ records, migratable r.path = true

theorem validateMigration_ok (h : validateMigration host j = .ok ()) :
    workspaceUuid j.immutableHeader.transactionId "transaction_id" = .ok () ∧
      Planned j.immutableHeader.fileRecords := by
  unfold validateMigration at h
  dsimp only at h
  split at h
  · cases h
  · obtain ⟨⟨⟩, hid, h⟩ := bind_eq_ok h
    obtain ⟨⟨⟩, -, h⟩ := bind_eq_ok h
    obtain ⟨⟨⟩, -, h⟩ := bind_eq_ok h
    obtain ⟨⟨⟩, -, h⟩ := bind_eq_ok h
    split at h
    · cases h
    · next hdistinct =>
      split at h
      · cases h
      · next hinside =>
        rw [not_or, not_not, not_not] at hdistinct
        refine ⟨hid, hdistinct.1, hdistinct.2, fun r hr => ?_⟩
        rw [not_not] at hinside
        exact List.all_eq_true.mp hinside _ (List.mem_map_of_mem hr)

theorem validateMigration_moved {phase : MigrationPhase} {rollbackState : Option (List String)} :
    validateMigration host (j.moved phase rollbackState) = validateMigration host j := rfl

/-- A migration on disk: its journal, with each record's file at one of its two states. -/
structure Carried (host : Host) (transactionId : String) (j : MigrationJournal) (s : FS) :
    Prop where
  shape : s.WellFormed
  locked : Locked s
  journal : ∃ m, s.get (workspaceTransaction transactionId) = some (.file (.migration j) m)
  own : j.immutableHeader.transactionId = transactionId
  valid : validateMigration host j = .ok ()
  made : ∀ r ∈ j.immutableHeader.fileRecords, r.Made host
  settled : ∀ r ∈ j.immutableHeader.fileRecords,
    r.At host r.preimageState s ∨ r.At host r.candidateState s

def MigrationPath (transactionId : String) (records : List MigrationRecord) (q : Path) : Prop :=
  q = lockFile "reconcile.lock" ∨ q = lockFile "runtime-state.lock" ∨
    q = workspaceTransaction transactionId ∨ ∃ r ∈ records, r.path = q

theorem migratable_length {p : Path} (h : migratable p = true) : 3 ≤ p.length := by
  unfold migratable at h
  rcases of_decide_eq_true h with rfl | rfl | ⟨hp, -⟩
  · decide
  · decide
  · exact hp.length_le

theorem migratable_ne_transaction {p : Path} (h : migratable p = true) :
    p ≠ workspaceTransaction transactionId := by
  rintro rfl
  unfold migratable at h
  rcases of_decide_eq_true h with h | h | ⟨h, -⟩
  · simp [workspaceTransaction, workspaceTransactionRoot, replayPath] at h
  · simp [workspaceTransaction, workspaceTransactionRoot, workspacePath] at h
  · simp [workspaceTransaction, workspaceTransactionRoot, outboxRoot] at h

theorem migrationPath_steady {records : List MigrationRecord}
    (hid : transactionId.toList ≠ []) (hmade : ∀ r ∈ records, r.Made host) {q : Path}
    (hq : MigrationPath transactionId records q) : Steady q := by
  rcases hq with rfl | rfl | rfl | ⟨r, hr, rfl⟩
  · exact steady_of_head (c := 'r') rfl (by decide)
  · exact steady_of_head (c := 'r') rfl (by decide)
  · exact steady_of_suffix (by rw [workspaceTransaction, name_append]; exact suffix_journalName hid)
  · exact steady_of_suffix (hmade r hr).json

namespace Carried

theorem identity (h : Carried host transactionId j s) : transactionId.toList ≠ [] := by
  rw [← h.own]
  exact workspaceUuid_ne_nil (validateMigration_ok h.valid).1

theorem planned (h : Carried host transactionId j s) :
    Planned j.immutableHeader.fileRecords := (validateMigration_ok h.valid).2

theorem watches (h : Carried host transactionId j s) :
    Watches (MigrationPath transactionId j.immutableHeader.fileRecords) s.get s :=
  ⟨h.shape, fun _ _ => rfl, fun _ hq => migrationPath_steady h.identity h.made hq⟩

theorem reaches (h : Carried host transactionId j s) : s.Reaches workspaceTransactionRoot := by
  obtain ⟨m, hget⟩ := h.journal
  exact reaches_transactions h.shape hget

theorem file (h : Carried host transactionId j s) (hr : r ∈ j.immutableHeader.fileRecords) :
    ∃ c k, s.get r.path = some (.file c k) := (h.made r hr).file (h.settled r hr)

theorem ne_nil (h : Carried host transactionId j s) (hr : r ∈ j.immutableHeader.fileRecords) :
    r.path ≠ [] := by
  have hlen := migratable_length (h.planned.inside r hr)
  intro hnil
  rw [hnil] at hlen
  simp at hlen

theorem realDir (h : Carried host transactionId j s) (hr : r ∈ j.immutableHeader.fileRecords) :
    s.realDir (parent r.path) := by
  obtain ⟨c, k, hget⟩ := h.file hr
  apply h.shape.parent_realDir (n := name r.path)
  rw [parent_append_name (h.ne_nil hr), hget]
  rfl

end Carried

/-- The files of the records are as before. -/
def Kept (j : MigrationJournal) (s t : FS) : Prop :=
  ∀ r ∈ j.immutableHeader.fileRecords, t.get r.path = s.get r.path

/-- The file of one record is at `f`, those of the others as before. -/
structure Moved (host : Host) (j : MigrationJournal) (r : MigrationRecord) (f : FileState)
    (s t : FS) : Prop where
  here : r.At host f t
  others : ∀ r' ∈ j.immutableHeader.fileRecords, r' ≠ r → t.get r'.path = s.get r'.path

namespace Carried

theorem ne_of_path (h : Carried host transactionId j s) {r' : MigrationRecord}
    (hr : r ∈ j.immutableHeader.fileRecords) (hr' : r' ∈ j.immutableHeader.fileRecords)
    (hne : r' ≠ r) : r'.path ≠ r.path :=
  fun hpath => hne (List.inj_on_of_nodup_map h.planned.nodup hr' hr hpath)

/-- Nothing watched changed. -/
theorem kept (h : Carried host transactionId j s)
    (ht : Watches (MigrationPath transactionId j.immutableHeader.fileRecords) s.get t) :
    Carried host transactionId j t ∧ Kept j s t := by
  have hkept : Kept j s t := fun r hr => ht.shows _ (Or.inr (Or.inr (Or.inr ⟨r, hr, rfl⟩)))
  refine ⟨⟨ht.shape, ⟨?_, ?_⟩, ?_, h.own, h.valid, h.made, fun r hr => ?_⟩, hkept⟩
  · rw [ht.shows _ (Or.inl rfl)]
    exact h.locked.reconcile
  · rw [ht.shows _ (Or.inr (Or.inl rfl))]
    exact h.locked.runtime
  · rw [ht.shows _ (Or.inr (Or.inr (Or.inl rfl)))]
    exact h.journal
  · exact (h.settled r hr).imp (fun hat => hat.congr (hkept r hr))
      fun hat => hat.congr (hkept r hr)

/-- A watched path other than the changed one. -/
private theorem other {p q : Path} {n : Option (Node Content)} {records : List MigrationRecord}
    (ht : Watches (MigrationPath transactionId records) (Function.update s.get p n) t)
    (hq : MigrationPath transactionId records q) (hne : q ≠ p) : t.get q = s.get q := by
  rw [ht.shows q hq, Function.update_of_ne hne]

private theorem locks (h : Carried host transactionId j s) {p : Path} {n : Option (Node Content)}
    (ht : Watches (MigrationPath transactionId j.immutableHeader.fileRecords)
      (Function.update s.get p n) t) (hp : 3 ≤ p.length) : Locked t := by
  have hne : ∀ q : Path, q.length ≤ 2 → q ≠ p := by
    rintro q hq rfl
    omega
  constructor
  · rw [other ht (Or.inl rfl) (hne _ (by decide))]
    exact h.locked.reconcile
  · rw [other ht (Or.inr (Or.inl rfl)) (hne _ (by decide))]
    exact h.locked.runtime

theorem put_record (h : Carried host transactionId j s) (hr : r ∈ j.immutableHeader.fileRecords)
    (hf : f = r.preimageState ∨ f = r.candidateState) {n : Option (Node Content)}
    (hn : describe host r.path none n = .ok f)
    (ht : Watches (MigrationPath transactionId j.immutableHeader.fileRecords)
      (Function.update s.get r.path n) t) :
    Carried host transactionId j t ∧ Moved host j r f s t := by
  have hhere : r.At host f t := by
    unfold MigrationRecord.At
    rw [ht.shows _ (Or.inr (Or.inr (Or.inr ⟨r, hr, rfl⟩))), Function.update_self]
    exact hn
  have hothers : ∀ r' ∈ j.immutableHeader.fileRecords, r' ≠ r → t.get r'.path = s.get r'.path :=
    fun r' hr' hne => other ht (Or.inr (Or.inr (Or.inr ⟨r', hr', rfl⟩)))
      (h.ne_of_path hr hr' hne)
  have hinside := h.planned.inside r hr
  refine ⟨⟨ht.shape, h.locks ht (migratable_length hinside), ?_, h.own, h.valid, h.made,
    fun r' hr' => ?_⟩, hhere, hothers⟩
  · rw [other ht (Or.inr (Or.inr (Or.inl rfl))) (migratable_ne_transaction hinside).symm]
    exact h.journal
  · by_cases hne : r' = r
    · subst hne
      rcases hf with rfl | rfl
      · exact Or.inl hhere
      · exact Or.inr hhere
    · exact (h.settled r' hr').imp (fun hat => hat.congr (hothers r' hr' hne))
        fun hat => hat.congr (hothers r' hr' hne)

theorem put_journal (h : Carried host transactionId j s) {phase : MigrationPhase}
    {rollbackState : Option (List String)} {m : FileTree.Mode}
    (ht : Watches (MigrationPath transactionId j.immutableHeader.fileRecords)
      (Function.update s.get (workspaceTransaction transactionId)
        (some (.file (.migration (j.moved phase rollbackState)) m))) t) :
    Carried host transactionId (j.moved phase rollbackState) t ∧ Kept j s t := by
  have hkept : Kept j s t := fun r hr => other ht (Or.inr (Or.inr (Or.inr ⟨r, hr, rfl⟩)))
    (migratable_ne_transaction (h.planned.inside r hr))
  refine ⟨⟨ht.shape, h.locks ht ?_, ⟨m, ?_⟩, h.own, h.valid, h.made, fun r hr => ?_⟩, hkept⟩
  · simp [workspaceTransaction, workspaceTransactionRoot]
  · rw [ht.shows _ (Or.inr (Or.inr (Or.inl rfl))), Function.update_self]
  · exact (h.settled r hr).imp (fun hat => hat.congr (hkept r hr))
      fun hat => hat.congr (hkept r hr)

/-! ### Steps -/

/-- A record's file is exchanged from the state it is in to either of its states. -/
theorem exchange (h : Carried host transactionId j s) (hr : r ∈ j.immutableHeader.fileRecords)
    (hat : r.At host f s) (hf : f = r.preimageState ∨ f = r.candidateState)
    (hf' : f' = r.preimageState ∨ f' = r.candidateState) {document : LocalDocument}
    {m : FileTree.Mode} (hdoc : f' = regularState r.path (host.hashBytes document.content) m none) :
    Triple (· = s) (do let _ ← compareAndSwap host f f' (some document.content))
      (Returns fun _ t => Carried host transactionId j t ∧ Moved host j r f' s t)
      (fun u => Carried host transactionId j u ∧ (Kept j s u ∨ Moved host j r f' s u)) := by
  have hsides : ∀ g, g = r.preimageState ∨ g = r.candidateState →
      g.path = r.path ∧ g.managedBlockHash = none ∧ g.fileType ≠ .directory := by
    obtain ⟨k, hk⟩ := (h.made r hr).preimage
    obtain ⟨k', hk'⟩ := (h.made r hr).candidate
    rintro g (rfl | rfl)
    · rw [hk]
      exact ⟨rfl, rfl, by simp [regularState]⟩
    · rw [hk']
      exact ⟨rfl, rfl, by simp [regularState]⟩
  obtain ⟨hpath, hmanaged, hreg⟩ := hsides f hf
  obtain ⟨hpath', -, -⟩ := hsides f' hf'
  have hreal : Realizes host f' (some document.content) (some (.file document.content m)) := by
    rw [hdoc]
    exact .regular _ _ _ _
  have hswap := h.watches.swap host f hreal (hpath.trans hpath'.symm)
    (by rw [hpath']; exact h.ne_nil hr)
    (by rw [hpath']; exact Or.inr (Or.inr (Or.inr ⟨r, hr, rfl⟩)))
    (by rw [hpath']; exact h.realDir hr) (by rw [hpath', hmanaged]; exact hat) hreg
  rw [hpath'] at hswap
  have hn : describe host r.path none (some (.file document.content m)) = .ok f' := by
    rw [hdoc]
    rfl
  refine (hswap.ignore fun _ t ht => h.put_record hr hf' hn ht).crash fun u hu => ?_
  rcases hu with hu | hu
  · obtain ⟨hc, hk⟩ := h.kept hu
    exact ⟨hc, Or.inl hk⟩
  · obtain ⟨hc, hm⟩ := h.put_record hr hf' hn hu
    exact ⟨hc, Or.inr hm⟩

theorem load (h : Carried host transactionId j s) : loadMigration host transactionId s = .ok j := by
  obtain ⟨m, hget⟩ := h.journal
  simp [loadMigration, hget, h.valid]

/-- The journal moves on, with what it records of a rollback. -/
theorem advance (h : Carried host transactionId j s) (phase : MigrationPhase)
    (rollbackState : Option (List String)) (hle : j.phase.rank ≤ phase.rank) :
    Triple (· = s) (advanceMigration host j phase rollbackState)
      (Returns fun j' t => j' = j.moved phase rollbackState ∧
        Carried host transactionId (j.moved phase rollbackState) t ∧ Kept j s t)
      (fun u => Kept j s u ∧ (Carried host transactionId j u ∨
        Carried host transactionId (j.moved phase rollbackState) u)) := by
  obtain ⟨m, hget⟩ := h.journal
  have hown : (j.moved phase rollbackState).immutableHeader.transactionId = transactionId := h.own
  have hcheck : checkMigration host (j.moved phase rollbackState) s = .ok () := by
    unfold checkMigration
    rw [hown, h.load]
    simp [MigrationJournal.moved, Nat.not_lt.mpr hle]
  have hpar : parent (workspaceTransaction transactionId) = workspaceTransactionRoot :=
    parent_append _ _
  have hrewrite := h.watches.rewrite host (p := workspaceTransaction transactionId)
    (c := .migration (j.moved phase rollbackState)) (by simp [workspaceTransaction])
    (Or.inr (Or.inr (Or.inl rfl))) (by rw [hpar]; exact h.reaches _ List.prefix_rfl)
    (by rw [hget]; simp)
  unfold advanceMigration writeMigrationJournal
  refine Triple.bind_returns (R := fun _ t =>
    Carried host transactionId (j.moved phase rollbackState) t ∧ Kept j s t) ?_
    fun _ => Triple.of_forall fun t ht => Triple.returns ⟨rfl, ht⟩
  refine Triple.bind_run (by rw [Program.lift_run, validateMigration_moved, h.valid]) ?_
  refine Triple.bind_run (by rw [Program.inspect_run, hcheck]) ?_
  rw [hown]
  unfold putDocument
  refine Triple.bind_run (mkdirs_run (by rw [hpar]; exact h.reaches)) ?_
  refine hrewrite.weaken (fun _ hs => hs) ?_ fun u hu => ?_
  · rintro o t ⟨a, ho, ht⟩
    exact ⟨a, ho, h.put_journal ht⟩
  · rcases hu with hu | hu
    · obtain ⟨hc, hk⟩ := h.kept hu
      exact ⟨hk, Or.inl hc⟩
    · obtain ⟨hc, hk⟩ := h.put_journal hu
      exact ⟨hk, Or.inr hc⟩

/-- How the file of a record compares. -/
theorem relation (h : Carried host transactionId j s) (hr : r ∈ j.immutableHeader.fileRecords) :
    recordRelation host r s = .ok .candidate ∧ r.At host r.candidateState s ∨
      recordRelation host r s = .ok .preimage ∧ r.At host r.preimageState s ∧
        ¬ r.At host r.candidateState s := by
  have hpath : r.preimageState.path = r.path := by
    obtain ⟨m, hm⟩ := (h.made r hr).preimage
    rw [hm]
    rfl
  have hobs : ∀ g, r.At host g s → observeFileState host r.preimageState.path none s = .ok g := by
    intro g hg
    rw [hpath, observeFileState_eq host (h.shape.reaches (h.realDir hr)).clear]
    exact hg
  unfold recordRelation
  by_cases hc : r.At host r.candidateState s
  · left
    rw [hobs _ hc]
    exact ⟨by simp, hc⟩
  · right
    have hp := (h.settled r hr).resolve_right hc
    have hne : r.preimageState ≠ r.candidateState := fun he => hc (he ▸ hp)
    rw [hobs _ hp]
    exact ⟨by simp [hne], hp, hc⟩

/-- A phase behind the stored one is refused. -/
theorem advance_refused (h : Carried host transactionId j s) (phase : MigrationPhase)
    (rollbackState : Option (List String)) (hlt : phase.rank < j.phase.rank) :
    ∃ e, (advanceMigration host j phase rollbackState).run s = ⟨[], .error e⟩ := by
  obtain ⟨m, hget⟩ := h.journal
  have hown : (j.moved phase rollbackState).immutableHeader.transactionId = transactionId := h.own
  have hcheck : ∃ e, checkMigration host (j.moved phase rollbackState) s = .error e := by
    have hexists : s.exists (workspaceTransaction transactionId) = true := by
      simp [DirTree.exists, hget]
    unfold checkMigration
    rw [hown, h.load]
    simp only [hexists, Bool.true_or, if_true, bind_ok_eq]
    exact ⟨_, by simp [MigrationJournal.moved, hlt]; rfl⟩
  obtain ⟨e, he⟩ := hcheck
  refine ⟨e, ?_⟩
  unfold advanceMigration writeMigrationJournal
  apply Program.bind_of_error
  rw [Program.bind_of_pure (by rw [Program.lift_run, validateMigration_moved, h.valid])]
  exact Program.bind_of_error (by rw [Program.inspect_run, he])

end Carried

/-- The journal at a phase it had reached before or reaches now. -/
def MigrationJournal.reached (j : MigrationJournal) (phase : MigrationPhase) : MigrationJournal :=
  if j.phase.rank < phase.rank then j.moved phase none else j

theorem MigrationJournal.reached_rank (j : MigrationJournal) (phase : MigrationPhase) :
    (j.reached phase).phase.rank = max j.phase.rank phase.rank := by
  unfold MigrationJournal.reached
  split
  · simp only [MigrationJournal.moved]
    omega
  · omega

@[simp] theorem MigrationJournal.reached_header (phase : MigrationPhase) :
    (j.reached phase).immutableHeader = j.immutableHeader := by
  unfold MigrationJournal.reached
  split <;> rfl

@[simp] theorem MigrationJournal.reached_rollbackState (phase : MigrationPhase) :
    (j.reached phase).rollbackState = j.rollbackState := by
  unfold MigrationJournal.reached
  split <;> rfl

theorem Carried.reach (h : Carried host transactionId j s) (phase : MigrationPhase) :
    Triple (· = s) (reachMigration host j phase)
      (Returns fun j' t => j' = j.reached phase ∧
        Carried host transactionId (j.reached phase) t ∧ Kept j s t)
      (fun u => Kept j s u ∧ (Carried host transactionId j u ∨
        Carried host transactionId (j.reached phase) u)) := by
  unfold reachMigration MigrationJournal.reached
  by_cases hlt : j.phase.rank < phase.rank
  · rw [if_pos hlt, if_pos hlt]
    exact h.advance phase none (by omega)
  · rw [if_neg hlt, if_neg hlt]
    exact Triple.returns ⟨rfl, h, fun _ _ => rfl⟩

/-- A loop over distinct records that takes each to its goal. -/
theorem Carried.each (h : Carried host transactionId j s) {γ : Type} {items : List γ}
    (record : γ → MigrationRecord) (goal : γ → FileState) {step : γ → Prog Unit}
    (hmem : ∀ x ∈ items, record x ∈ j.immutableHeader.fileRecords)
    (hnodup : (items.map record).Nodup)
    (hstep : ∀ x ∈ items, ∀ t, Carried host transactionId j t →
      t.get (record x).path = s.get (record x).path →
      Triple (· = t) (step x)
        (Returns fun _ u => Carried host transactionId j u ∧ Moved host j (record x) (goal x) t u)
        (fun u => Carried host transactionId j u ∧
          (Kept j t u ∨ Moved host j (record x) (goal x) t u))) :
    Triple (· = s) (Program.each items step)
      (Returns fun _ t => Carried host transactionId j t ∧
        (∀ x ∈ items, (record x).At host (goal x) t) ∧
        ∀ r ∈ j.immutableHeader.fileRecords, r ∉ items.map record →
          t.get r.path = s.get r.path)
      (fun u => Carried host transactionId j u ∧ ∀ r ∈ j.immutableHeader.fileRecords,
        u.get r.path = s.get r.path ∨ ∃ x ∈ items, record x = r ∧ r.At host (goal x) u) := by
  have hne : ∀ x ∈ items, ∀ y ∈ items, y ≠ x → record y ≠ record x :=
    fun x hx y hy hxy hrec => hxy (List.inj_on_of_nodup_map hnodup hy hx hrec)
  -- what was passed is at its goal, everything else as it was
  have hloop := Triple.each (f := step)
    (C := fun u => Carried host transactionId j u ∧ ∀ r ∈ j.immutableHeader.fileRecords,
      u.get r.path = s.get r.path ∨ ∃ x ∈ items, record x = r ∧ r.At host (goal x) u)
    (fun rest t => Carried host transactionId j t ∧
      ∀ r ∈ j.immutableHeader.fileRecords, t.get r.path = s.get r.path ∧
        (∀ x ∈ items, record x = r → x ∈ rest) ∨
        ∃ x ∈ items, x ∉ rest ∧ record x = r ∧ r.At host (goal x) t) items ?_
  · refine (hloop.pre ?_).post ?_
    · rintro t rfl
      exact ⟨h, fun r _ => Or.inl ⟨rfl, fun x hx _ => hx⟩⟩
    · rintro o t ⟨a, ho, hc, hall⟩
      refine ⟨a, ho, hc, fun x hx => ?_, fun r hr hno => ?_⟩
      · rcases hall _ (hmem x hx) with ⟨-, hrest⟩ | ⟨y, hy, -, hrec, hat⟩
        · exact absurd (hrest x hx rfl) List.not_mem_nil
        · obtain rfl : y = x := by
            by_contra hxy
            exact hne x hx y hy hxy hrec
          exact hat
      · rcases hall r hr with ⟨hget, -⟩ | ⟨y, hy, -, rfl, -⟩
        · exact hget
        · exact absurd (List.mem_map_of_mem hy) hno
  · rintro x rest ⟨front, hfront⟩
    refine Triple.of_forall fun t ht => ?_
    obtain ⟨hc, hall⟩ := ht
    have hx : x ∈ items := by
      rw [← hfront]
      simp
    have hrest : x ∉ rest := by
      have hnd := List.Nodup.of_map _ hnodup
      rw [← hfront, List.nodup_append] at hnd
      exact (List.nodup_cons.mp hnd.2.1).1
    have hget : t.get (record x).path = s.get (record x).path := by
      rcases hall _ (hmem x hx) with ⟨hget, -⟩ | ⟨y, hy, hno, hrec, -⟩
      · exact hget
      · have hyx : y ≠ x := by
          rintro rfl
          exact hno List.mem_cons_self
        exact absurd hrec (hne x hx y hy hyx)
    refine ((hstep x hx t hc hget).post ?_).crash fun u hu => ?_
    · rintro o u ⟨a, ho, hc', hmoved⟩
      refine ⟨a, ho, hc', fun r hr => ?_⟩
      by_cases hrx : r = record x
      · subst hrx
        exact Or.inr ⟨x, hx, hrest, rfl, hmoved.here⟩
      · rcases hall r hr with ⟨hget, hin⟩ | ⟨y, hy, hno, rfl, hat⟩
        · refine Or.inl ⟨(hmoved.others r hr hrx).trans hget, fun y hy hrec => ?_⟩
          rcases List.mem_cons.mp (hin y hy hrec) with rfl | hy'
          · exact absurd hrec.symm hrx
          · exact hy'
        · exact Or.inr ⟨y, hy, fun hy' => hno (List.mem_cons_of_mem _ hy'), rfl,
            hat.congr (hmoved.others _ hr hrx)⟩
    · refine ⟨hu.1, fun r hr => ?_⟩
      have hold : t.get r.path = s.get r.path ∨
          ∃ y ∈ items, record y = r ∧ r.At host (goal y) t := by
        rcases hall r hr with ⟨hget, -⟩ | ⟨y, hy, -, hrec, hat⟩
        · exact Or.inl hget
        · exact Or.inr ⟨y, hy, hrec, hat⟩
      have hsame : u.get r.path = t.get r.path → u.get r.path = s.get r.path ∨
          ∃ y ∈ items, record y = r ∧ r.At host (goal y) u := by
        intro hget
        rcases hold with hold | ⟨y, hy, hrec, hat⟩
        · exact Or.inl (hget.trans hold)
        · exact Or.inr ⟨y, hy, hrec, hat.congr hget⟩
      rcases hu.2 with hkept | hmoved
      · exact hsame (hkept r hr)
      · by_cases hrx : r = record x
        · subst hrx
          exact Or.inr ⟨x, hx, rfl, hmoved.here⟩
        · exact hsame (hmoved.others r hr hrx)

end AgentStack.Runtime
