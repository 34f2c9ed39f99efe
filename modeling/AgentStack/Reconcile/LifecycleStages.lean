import AgentStack.Reconcile.LifecycleSteps
import Mathlib.Data.List.Pairwise

/-! The stages of a lifecycle transaction: what each keeps, wherever it is cut off. -/
namespace AgentStack.Reconcile.Lifecycle

open AgentStack.Core FileTree Crash DirTree

variable {host : LifecycleHost} {j₀ j : LifecycleJournal} {base n : Option (Node Content)}
  {s t u : FS} {p q : Path} {α : Type} {F G : FS → Prop}

/-! ### Stages -/

/-- What is said of the watched paths only. -/
def Seen (j₀ : LifecycleJournal) (F : FS → Prop) : Prop := ∀ s t, F s → Agree j₀ s t → F t

theorem Blind.seen (h : Blind j₀ p F) : Seen j₀ F := fun _ _ => h.agree

theorem Seen.and (hF : Seen j₀ F) (hG : Seen j₀ G) : Seen j₀ fun s => F s ∧ G s :=
  fun s t h ha => ⟨hF s t h.1 ha, hG s t h.2 ha⟩

/-- The files stand, the Manifest is this one, and the journal does not say that it is over. -/
structure Stage (host : LifecycleHost) (j₀ : LifecycleJournal) (base n : Option (Node Content))
    (s : FS) : Prop where
  standing : Standing host j₀ base s
  manifest : s.get manifestPath = n
  journal : Open host j₀ s

/-- All that there was to do is done. -/
structure Over (host : LifecycleHost) (j₀ : LifecycleJournal) (base n : Option (Node Content))
    (s : FS) : Prop where
  standing : Standing host j₀ base s
  manifest : s.get manifestPath = n
  journal : Written host j₀ (· = .complete) s
  settled : Settled host j₀ base s

theorem Stage.inv (h : In (Stage host j₀ base n) s) : Inv host j₀ base s :=
  ⟨h.1.shape, h.2.standing, Or.inl h.2.journal⟩

theorem Over.inv (h : In (Over host j₀ base n) s) : Inv host j₀ base s :=
  ⟨h.1.shape, h.2.standing, Or.inr ⟨h.2.journal, h.2.settled⟩⟩

theorem In.mono (h : In F s) (hFG : F s → G s) : In G s := ⟨h.1, hFG h.2⟩

theorem stage_blind (h : Sound host j₀) : Blind j₀ maintenancePath (Stage host j₀ base n) := by
  intro s t hs hget
  have hmanifest := hget manifestPath watched_manifest (by decide)
  constructor
  · exact blind_standing h (Or.inr rfl) s t hs.standing hget
  · rw [hmanifest]
    exact hs.manifest
  · exact blind_open journalPath_ne_maintenance.symm s t hs.journal hget

/-- What is not seen keeps what is said. -/
theorem guard_same {prog : Prog α} (h : Within (Same j₀) prog) (hF : Seen j₀ F)
    (hInv : ∀ s, In F s → Inv host j₀ base s) :
    Triple (In F) prog (Ends (fun _ => In F) (Inv host j₀ base)) (Inv host j₀ base) :=
  ((triple_same h hF).ends_weaken (fun _ _ h => h) hInv).crash hInv

/-- Wherever the program is cut off, it changed nothing that is watched, or put `n` at `p`; where
it returns, it did. -/
def Changes (j₀ : LifecycleJournal) (p : Path) (n : Option (Node Content)) (prog : Prog α) : Prop :=
  ∀ s, Triple (· = s) prog (Ends (fun _ t => Shift j₀ p n s t)
    fun t => Same j₀ s t ∨ Shift j₀ p n s t) fun u => Same j₀ s u ∨ Shift j₀ p n s u

/-- A step that changes `p` goes from what is said to what is said next. -/
theorem guard_shift {prog : Prog α} {P Q : FS → Prop} (h : Changes j₀ p n prog) (hP : Seen j₀ P)
    (hstep : ∀ s t, P s → (∀ q, Watched j₀ q → t.get q = Function.update s.get p n q) → Q t)
    (hPI : ∀ s, In P s → Inv host j₀ base s) (hQI : ∀ s, In Q s → Inv host j₀ base s) :
    Triple (In P) prog (Ends (fun _ => In Q) (Inv host j₀ base)) (Inv host j₀ base) := by
  have hshift : ∀ s t, In P s → Shift j₀ p n s t → In Q t := by
    intro s t hs hst
    obtain ⟨ht, hget⟩ := hst hs.1
    exact ⟨ht, hstep s t hs.2 hget⟩
  have heither : ∀ s t, In P s → Same j₀ s t ∨ Shift j₀ p n s t → Inv host j₀ base t := by
    intro s t hs hst
    rcases hst with hsame | hst
    · obtain ⟨ht, hagree⟩ := hsame hs.1
      exact hPI t ⟨ht, hP s t hs.2 hagree⟩
    · exact hQI t (hshift s t hs hst)
  refine Triple.of_forall fun s hs => ?_
  refine (h s).weaken (fun _ h => h) ?_ fun t ht => heither s t hs ht
  intro o t ht
  cases o with
  | ok a => exact hshift s t hs ht
  | error e => exact heither s t hs ht

/-! ### Versions of the journal -/

theorem Version.header (h : Version j₀ j) : j.header = j₀.header :=
  congrArg (fun j => j.header) h.immutable

theorem Version.refl (j₀ : LifecycleJournal) : Version j₀ j₀ := ⟨rfl, rfl⟩

theorem Version.next (h : Version j₀ j) {records : List FileRecord}
    (hrecords : records.map core = j₀.fileRecords.map core) (phase : LifecyclePhase) (b : Bool) :
    Version j₀ { j with phase := phase, fileRecords := records, rolledBack := b } :=
  ⟨h.immutable, hrecords⟩

theorem advanceJournal_eq_ok {phase : LifecyclePhase} {records : List FileRecord} {b : Bool}
    {j' : LifecycleJournal} (h : advanceJournal host j phase records b = .ok j') :
    j' = { j with phase := phase, fileRecords := records, rolledBack := b } := by
  obtain ⟨_, -, h⟩ := bind_eq_ok h
  exact (Except.ok.inj h).symm

theorem writeJournal_changes (h : Sound host j₀) (hj : Version j₀ j) :
    Changes j₀ (transactionPath j₀.header.transactionId)
      (some (.file (host.content (.journal j)) 0o600)) (writeJournal host j) := by
  have hid : j.header.transactionId = j₀.header.transactionId := by rw [hj.header]
  intro s
  exact (writeJournal_shift h hid).ends_weaken (fun _ _ h => h) fun _ hsame => Or.inl hsame

/-- A version of the journal that does not end the transaction. -/
theorem writeJournal_stage (h : Sound host j₀) (hj : Version j₀ j) (hphase : j.phase ≠ .complete)
    (hG : Blind j₀ (transactionPath j₀.header.transactionId) G) :
    Triple (In fun s => Stage host j₀ base n s ∧ G s) (writeJournal host j)
      (Ends (fun _ => In fun s => Stage host j₀ base n s ∧ G s) (Inv host j₀ base))
      (Inv host j₀ base) := by
  have hinv : ∀ s, In (fun s => Stage host j₀ base n s ∧ G s) s → Inv host j₀ base s :=
    fun s hs => Stage.inv (hs.mono And.left)
  refine guard_shift (writeJournal_changes h hj) ((stage_blind h).seen.and hG.seen) ?_ hinv hinv
  rintro s t ⟨hs, hGs⟩ hget
  have hagree : ∀ q, Watched j₀ q → q ≠ transactionPath j₀.header.transactionId →
      t.get q = s.get q := by
    intro q hq hne
    rw [hget q hq, Function.update_of_ne hne]
  have hwritten := hget _ watched_journal
  rw [Function.update_self] at hwritten
  refine ⟨⟨?_, ?_, Or.inr ⟨j, 0o600, hwritten, hj, hphase⟩⟩, hG s t hGs hagree⟩
  · exact blind_standing h (Or.inl rfl) s t hs.standing hagree
  · rw [hagree _ watched_manifest journalPath_ne_manifest]
    exact hs.manifest

/-- The version that ends it, when all is settled. -/
theorem writeJournal_over (h : Sound host j₀) (hj : Version j₀ j) (hphase : j.phase = .complete) :
    Triple (In fun s => Stage host j₀ base n s ∧ Settled host j₀ base s) (writeJournal host j)
      (Ends (fun _ => In (Over host j₀ base n)) (Inv host j₀ base)) (Inv host j₀ base) := by
  have hsettled : Blind j₀ (transactionPath j₀.header.transactionId) (Settled host j₀ base) := by
    intro s t hs hget
    have hmanifest := hget _ watched_manifest journalPath_ne_manifest
    constructor
    · rw [hget _ watched_maintenance journalPath_ne_maintenance]
      exact hs.marker
    · rw [hmanifest]
      refine hs.outcome.imp_right fun ⟨hbase, hall, hgone⟩ => ⟨hbase, ?_, fun d hd => ?_⟩
      · refine blind_allAt _ (fun r hr => ?_) s t hall hget
        exact (h.way_ne hr List.prefix_rfl).1
      · obtain ⟨-, -, r, hr, hpre, -⟩ := h.created d hd
        rw [hget d (Or.inr (Or.inr (Or.inr (Or.inr ⟨r, hr, hpre⟩)))) (h.way_ne hr hpre).1]
        exact hgone d hd
  refine guard_shift (writeJournal_changes h hj) ((stage_blind h).seen.and hsettled.seen) ?_
    (fun s hs => Stage.inv (hs.mono And.left)) fun s hs => Over.inv hs
  rintro s t ⟨hs, hset⟩ hget
  have hagree : ∀ q, Watched j₀ q → q ≠ transactionPath j₀.header.transactionId →
      t.get q = s.get q := by
    intro q hq hne
    rw [hget q hq, Function.update_of_ne hne]
  have hwritten := hget _ watched_journal
  rw [Function.update_self] at hwritten
  constructor
  · exact blind_standing h (Or.inl rfl) s t hs.standing hagree
  · rw [hagree _ watched_manifest journalPath_ne_manifest]
    exact hs.manifest
  · exact ⟨j, 0o600, hwritten, hj, hphase⟩
  · exact hsettled s t hset hagree

/-- A phase is recorded in the next version of the journal. -/
theorem recordPhase_stage (h : Sound host j₀) (hj : Version j₀ j) {phase : LifecyclePhase}
    {records : List FileRecord} (hrecords : records.map core = j₀.fileRecords.map core)
    (hphase : phase ≠ .complete) (hG : Blind j₀ (transactionPath j₀.header.transactionId) G) :
    Triple (In fun s => Stage host j₀ base n s ∧ G s) (recordPhase host j phase records)
      (Ends (fun j' t => Version j₀ j' ∧ In (fun s => Stage host j₀ base n s ∧ G s) t)
        (Inv host j₀ base)) (Inv host j₀ base) := by
  refine Triple.of_forall fun s hs => ?_
  refine Triple.lift_bind_ends (Stage.inv (hs.mono And.left)) fun j' hj' => ?_
  have hnext := hj.next hrecords phase j.rolledBack
  rw [← advanceJournal_eq_ok hj'] at hnext
  have hopen : j'.phase ≠ .complete := by
    rw [advanceJournal_eq_ok hj']
    exact hphase
  refine ((writeJournal_stage h hnext hopen hG).pre ?_).bind_ends fun _ =>
    Triple.of_forall fun t ht => Triple.returns_ends ⟨hnext, ht⟩
  rintro t rfl
  exact hs

/-- After it the transaction goes on. -/
theorem recordPhase_bind (h : Sound host j₀) (hj : Version j₀ j) {phase : LifecyclePhase}
    {records : List FileRecord} (hrecords : records.map core = j₀.fileRecords.map core)
    (hphase : phase ≠ .complete) (hG : Blind j₀ (transactionPath j₀.header.transactionId) G)
    {f : LifecycleJournal → Prog α} {Q : α → FS → Prop}
    (hf : ∀ j', Version j₀ j' → Triple (In fun s => Stage host j₀ base n s ∧ G s) (f j')
      (Ends Q (Inv host j₀ base)) (Inv host j₀ base)) :
    Triple (In fun s => Stage host j₀ base n s ∧ G s) (recordPhase host j phase records >>= f)
      (Ends Q (Inv host j₀ base)) (Inv host j₀ base) := by
  refine (recordPhase_stage h hj hrecords hphase hG).bind_ends fun j' => Triple.of_forall ?_
  rintro t ⟨hv, ht⟩
  refine (hf j' hv).pre ?_
  rintro u rfl
  exact ht

theorem recordPhase_over (h : Sound host j₀) (hj : Version j₀ j) {records : List FileRecord}
    (hrecords : records.map core = j₀.fileRecords.map core) :
    Triple (In fun s => Stage host j₀ base n s ∧ Settled host j₀ base s)
      (recordPhase host j .complete records)
      (Ends (fun _ => In (Over host j₀ base n)) (Inv host j₀ base)) (Inv host j₀ base) := by
  refine Triple.of_forall fun s hs => ?_
  refine Triple.lift_bind_ends (Stage.inv (hs.mono And.left)) fun j' hj' => ?_
  have hnext := hj.next hrecords .complete j.rolledBack
  rw [← advanceJournal_eq_ok hj'] at hnext
  have hat : j'.phase = .complete := by rw [advanceJournal_eq_ok hj']
  refine ((writeJournal_over h hnext hat).pre ?_).bind_ends fun _ =>
    Triple.of_forall fun t ht => Triple.returns_ends ht
  rintro t rfl
  exact hs

/-! ### Files -/

theorem Sound.not_prefix (h : Sound host j₀) {r r' : FileRecord} (hr : r ∈ j₀.fileRecords)
    (hr' : r' ∈ j₀.fileRecords) (hne : r ≠ r') :
    ¬ r.originalState.path <+: r'.originalState.path := by
  have hsymm : Std.Symm fun a b : FileRecord => ¬ a.originalState.path <+: b.originalState.path ∧
      ¬ b.originalState.path <+: a.originalState.path := ⟨fun _ _ h => h.symm⟩
  exact (h.apart.forall hr hr' hne).1

theorem Sound.unique (h : Sound host j₀) {r r' : FileRecord} (hr : r ∈ j₀.fileRecords)
    (hr' : r' ∈ j₀.fileRecords) (hpath : r.originalState.path = r'.originalState.path) :
    r = r' := by
  by_contra hne
  exact h.not_prefix hr hr' hne (hpath ▸ List.prefix_rfl)

/-- No file lies on the way to another. -/
theorem Sound.way_apart (h : Sound host j₀) {r r' : FileRecord} (hr : r ∈ j₀.fileRecords)
    (hr' : r' ∈ j₀.fileRecords) (hq : q <+: r'.originalState.path)
    (hne : q ≠ r'.originalState.path) : q ≠ r.originalState.path := by
  rintro rfl
  have hdiff : r ≠ r' := by
    rintro rfl
    exact hne rfl
  exact h.not_prefix hr hr' hdiff hq

theorem way_watched {r : FileRecord} (hr : r ∈ j₀.fileRecords) (hq : q <+: r.originalState.path) :
    Watched j₀ q := Or.inr (Or.inr (Or.inr (Or.inr ⟨r, hr, hq⟩)))

/-- A file goes to one of its two states while the Manifest is as it was. -/
theorem Standing.shift_record (hs : Standing host j₀ base s) (h : Sound host j₀) {r : FileRecord}
    (hr : r ∈ j₀.fileRecords)
    (hn : Shown host r.originalState n ∨ Shown host r.candidateState n)
    (hopen : s.get manifestPath ≠ manifestNode host j₀)
    (hget : ∀ q, Watched j₀ q → t.get q = Function.update s.get r.originalState.path n q) :
    Standing host j₀ base t := by
  have hmanifest : t.get manifestPath = s.get manifestPath := by
    rw [hget _ watched_manifest, Function.update_of_ne (h.way_ne hr List.prefix_rfl).2.1.symm]
  constructor
  · intro r' hr' q hq hne
    have hsame : t.get q = s.get q := by
      rw [hget q (way_watched hr' hq), Function.update_of_ne (h.way_apart hr hr' hq hne)]
    rcases hs.ways r' hr' q hq hne with hnone | hdir
    · exact Or.inl (hsame.trans hnone)
    · exact Or.inr (realDir_of_get_eq hsame hdir)
  · intro r' hr'
    rw [hget _ (Sound.record_watched hr')]
    by_cases hpath : r'.originalState.path = r.originalState.path
    · rw [hpath, Function.update_self, h.unique hr' hr hpath]
      exact hn
    · rw [Function.update_of_ne hpath]
      exact hs.sides r' hr'
  · rw [hmanifest]
    exact hs.manifest
  · rw [hmanifest]
    exact fun hcommitted => absurd hcommitted hopen

/-- A directory on the way to a file comes or goes. -/
theorem Standing.shift_way (hs : Standing host j₀ base s) (h : Sound host j₀) {d : Path}
    (hd : d ∈ j₀.createdDirectories) (hn : n = none ∨ ∃ m, n = some (.dir m))
    (hget : ∀ q, Watched j₀ q → t.get q = Function.update s.get d n q) :
    Standing host j₀ base t := by
  obtain ⟨-, -, r, hr, hpre, hne⟩ := h.created d hd
  have hfile : ∀ r' ∈ j₀.fileRecords,
      t.get r'.originalState.path = s.get r'.originalState.path := by
    intro r' hr'
    rw [hget _ (Sound.record_watched hr'),
      Function.update_of_ne (h.way_apart hr' hr hpre hne).symm]
  have hmanifest : t.get manifestPath = s.get manifestPath := by
    rw [hget _ watched_manifest, Function.update_of_ne (h.way_ne hr hpre).2.1.symm]
  constructor
  · intro r' hr' q hq hne'
    have hq' := hget q (way_watched hr' hq)
    by_cases hqd : q = d
    · rw [hqd, Function.update_self] at hq'
      rw [hqd]
      exact hn.imp hq'.trans fun ⟨m, hm⟩ => ⟨m, hq'.trans hm⟩
    · rw [Function.update_of_ne hqd] at hq'
      exact (hs.ways r' hr' q hq hne').imp hq'.trans (realDir_of_get_eq hq')
  · intro r' hr'
    rw [hfile r' hr']
    exact hs.sides r' hr'
  · rw [hmanifest]
    exact hs.manifest
  · rw [hmanifest]
    intro hcommitted r' hr'
    rw [hfile r' hr']
    exact hs.committed hcommitted r' hr'

theorem Stage.shift_way (hs : Stage host j₀ base n s) (h : Sound host j₀) {d : Path}
    (hd : d ∈ j₀.createdDirectories) {k : Option (Node Content)}
    (hk : k = none ∨ ∃ m, k = some (.dir m))
    (hget : ∀ q, Watched j₀ q → t.get q = Function.update s.get d k q) :
    Stage host j₀ base n t := by
  obtain ⟨-, -, r, hr, hpre, -⟩ := h.created d hd
  obtain ⟨hjournal, hmanifest, -⟩ := h.way_ne hr hpre
  constructor
  · exact hs.standing.shift_way h hd hk hget
  · rw [hget _ watched_manifest, Function.update_of_ne hmanifest.symm]
    exact hs.manifest
  · refine blind_open hjournal.symm s t hs.journal fun q hq hne => ?_
    rw [hget q hq, Function.update_of_ne hne]

theorem shown_of_realizes {f : FileState} {bytes : Option Content}
    (h : Realizes host.toHost f bytes n) : Shown host f n := by
  cases h <;> rfl

theorem describe_physical {f : FileState} (h : describe host.toHost p none n = .ok f) :
    f.physical = f := by
  unfold describe at h
  split at h
  · cases h
    rfl
  · cases h
  · cases h
    rfl
  · cases h
    rfl

theorem currentMatches_shown {f : FileState} (h : currentMatches host f s = true) :
    Shown host f (s.get f.path) := by
  unfold currentMatches at h
  split at h
  · next current hcurrent =>
    have hdescribe := (observe_eq_ok hcurrent).2
    rw [decide_eq_true_eq, describe_physical hdescribe] at h
    rw [Shown, hdescribe, h]
  · cases h

/-- The states of a record that a step can lead to. -/
def Side (state : FileRecord → FileState) : Prop :=
  state = (·.originalState) ∨ state = (·.candidateState)

/-- The files of these records are at the given state. -/
def Done (host : LifecycleHost) (state : FileRecord → FileState) (records : List FileRecord)
    (s : FS) : Prop :=
  ∀ x ∈ records, Shown host (state x) (s.get x.originalState.path)

theorem exists_record {records : List FileRecord}
    (hrecords : records.map core = j₀.fileRecords.map core) {x : FileRecord} (hx : x ∈ records) :
    ∃ r ∈ j₀.fileRecords, core r = core x := by
  have hmem := List.mem_map_of_mem (f := core) hx
  rw [hrecords] at hmem
  exact List.mem_map.mp hmem

theorem core_originalState {r x : FileRecord} (h : core r = core x) :
    r.originalState = x.originalState := congrArg (fun r => r.originalState) h

theorem core_candidateState {r x : FileRecord} (h : core r = core x) :
    r.candidateState = x.candidateState := congrArg (fun r => r.candidateState) h

theorem core_candidateContent {r x : FileRecord} (h : core r = core x) :
    r.candidateContent = x.candidateContent := congrArg (fun r => r.candidateContent) h

theorem Side.core_eq {state : FileRecord → FileState} (h : Side state) {r x : FileRecord}
    (hcore : core r = core x) : state r = state x := by
  rcases h with rfl | rfl
  · exact core_originalState hcore
  · exact core_candidateState hcore

theorem Done.allAt {state : FileRecord → FileState} (hside : Side state) {records : List FileRecord}
    (hrecords : records.map core = j₀.fileRecords.map core) (h : Done host state records s) :
    AllAt host j₀ state s := by
  intro r hr
  have hmem := List.mem_map_of_mem (f := core) hr
  rw [← hrecords] at hmem
  obtain ⟨x, hx, hcore⟩ := List.mem_map.mp hmem
  rw [← hside.core_eq hcore, ← core_originalState hcore]
  exact h x hx

theorem allAt_seen (state : FileRecord → FileState) : Seen j₀ (AllAt host j₀ state) := by
  intro s t hall ha r hr
  rw [ha _ (Sound.record_watched hr)]
  exact hall r hr

section Records

variable {state : FileRecord → FileState} {records done : List FileRecord} {x : FileRecord}

theorem done_seen (hrecords : records.map core = j₀.fileRecords.map core)
    (hdone : ∀ y ∈ done, y ∈ records) : Seen j₀ (Done host state done) := by
  intro s t hs ha y hy
  obtain ⟨r, hr, hcore⟩ := exists_record hrecords (hdone y hy)
  rw [← core_originalState hcore, ha _ (Sound.record_watched hr), core_originalState hcore]
  exact hs y hy

/-- One file is exchanged; those done before stay done. -/
theorem compareAndSwap_done (h : Sound host j₀) (hbase : base ≠ manifestNode host j₀)
    (hrecords : records.map core = j₀.fileRecords.map core)
    (hdone : ∀ y ∈ done ++ [x], y ∈ records) (hside : Side state) {expected : FileState}
    {bytes : Option Content} (hpath : expected.path = x.originalState.path)
    (hreal : Realizes host.toHost (state x) bytes n) :
    Triple (In fun s => Stage host j₀ base base s ∧ Done host state done s)
      (compareAndSwap host.toHost expected (state x) bytes)
      (Ends (fun _ => In fun s => Stage host j₀ base base s ∧ Done host state (done ++ [x]) s)
        (Inv host j₀ base)) (Inv host j₀ base) := by
  obtain ⟨r, hr, hcore⟩ := exists_record hrecords (hdone x (by simp))
  have hxr : x.originalState.path = r.originalState.path := by rw [core_originalState hcore]
  have hshown : Shown host (state r) n := by
    rw [hside.core_eq hcore]
    exact shown_of_realizes hreal
  have hne : r.originalState.path ≠ [] := by
    intro hnil
    exact h.not_control hr (by rw [hnil]; exact List.nil_prefix)
  have hcontrol : r.originalState.path ≠ controlDir := by
    intro heq
    exact h.not_control hr (heq ▸ List.prefix_rfl)
  have hchanges : Changes j₀ r.originalState.path n
      (compareAndSwap host.toHost expected (state x) bytes) := by
    intro s
    rw [← hxr, ← hpath] at hne hcontrol ⊢
    refine compareAndSwap_shift hreal hne hcontrol ?_ (h.unseen_cas _)
    rw [hpath, hxr]
    exact Sound.record_watched hr
  have hbefore : ∀ y ∈ done, y ∈ records := fun y hy => hdone y (List.mem_append_left _ hy)
  refine guard_shift hchanges ((stage_blind h).seen.and (done_seen hrecords hbefore)) ?_
    (fun s hs => Stage.inv (hs.mono And.left)) fun s hs => Stage.inv (hs.mono And.left)
  rintro s t ⟨hs, hdoneₛ⟩ hget
  obtain ⟨hjournal, hmanifest, -⟩ := h.way_ne hr List.prefix_rfl
  have hopen : s.get manifestPath ≠ manifestNode host j₀ := by
    rw [hs.manifest]
    exact hbase
  have hstanding : Standing host j₀ base t := by
    refine hs.standing.shift_record h hr ?_ hopen hget
    rcases hside with rfl | rfl
    · exact Or.inl hshown
    · exact Or.inr hshown
  refine ⟨⟨hstanding, ?_, ?_⟩, ?_⟩
  · rw [hget _ watched_manifest, Function.update_of_ne hmanifest.symm]
    exact hs.manifest
  · refine blind_open hjournal.symm s t hs.journal fun q hq hqne => ?_
    rw [hget q hq, Function.update_of_ne hqne]
  · intro y hy
    obtain ⟨r', hr', hcore'⟩ := exists_record hrecords (hdone y hy)
    rw [← hside.core_eq hcore', ← core_originalState hcore', hget _ (Sound.record_watched hr')]
    by_cases hsame : r'.originalState.path = r.originalState.path
    · rw [hsame, Function.update_self, h.unique hr' hr hsame]
      exact hshown
    · rw [Function.update_of_ne hsame, core_originalState hcore', hside.core_eq hcore']
      rcases List.mem_append.mp hy with hy | hy
      · exact hdoneₛ y hy
      · obtain rfl := List.mem_singleton.mp hy
        exact absurd ((congrArg _ (core_originalState hcore')).trans hxr) hsame

theorem applyRecord_done (h : Sound host j₀) (hbase : base ≠ manifestNode host j₀)
    (hrecords : records.map core = j₀.fileRecords.map core)
    (hdone : ∀ y ∈ done ++ [x], y ∈ records) :
    Triple (In fun s => Stage host j₀ base base s ∧ Done host (·.candidateState) done s)
      (applyRecord host x)
      (Ends (fun y t => core y = core x ∧
        In (fun s => Stage host j₀ base base s ∧ Done host (·.candidateState) (done ++ [x]) s) t)
        (Inv host j₀ base)) (Inv host j₀ base) := by
  obtain ⟨r, hr, hcore⟩ := exists_record hrecords (hdone x (by simp))
  obtain ⟨n, hreal⟩ := h.candidates r hr
  rw [core_candidateState hcore, core_candidateContent hcore] at hreal
  unfold applyRecord
  refine (compareAndSwap_done h hbase hrecords hdone (Or.inr rfl) rfl hreal).bind_ends fun _ => ?_
  exact Triple.of_forall fun t ht => Triple.returns_ends ⟨rfl, ht⟩

theorem resumeRecord_done (h : Sound host j₀) (hbase : base ≠ manifestNode host j₀)
    (hrecords : records.map core = j₀.fileRecords.map core)
    (hdone : ∀ y ∈ done ++ [x], y ∈ records) :
    Triple (In fun s => Stage host j₀ base base s ∧ Done host (·.candidateState) done s)
      (resumeRecord host x)
      (Ends (fun y t => core y = core x ∧
        In (fun s => Stage host j₀ base base s ∧ Done host (·.candidateState) (done ++ [x]) s) t)
        (Inv host j₀ base)) (Inv host j₀ base) := by
  obtain ⟨r, hr, hcore⟩ := exists_record hrecords (hdone x (by simp))
  obtain ⟨n, hreal⟩ := h.candidates r hr
  rw [core_candidateState hcore, core_candidateContent hcore] at hreal
  have hpath : x.candidateState.path = x.originalState.path := by
    rw [← core_candidateState hcore, ← core_originalState hcore]
    exact h.paths r hr
  unfold resumeRecord
  refine Triple.of_forall fun s hs => ?_
  refine Triple.bind_run (a := currentMatches host x.candidateState s) (Program.read_run _ _) ?_
  split
  next hmatch =>
    have hshown := currentMatches_shown hmatch
    rw [hpath] at hshown
    refine Triple.returns_ends ⟨rfl, hs.mono fun hs => ⟨hs.1, fun y hy => ?_⟩⟩
    rcases List.mem_append.mp hy with hy | hy
    · exact hs.2 y hy
    · rw [List.mem_singleton.mp hy]
      exact hshown
  next =>
    refine Triple.inspect_bind_ends (Stage.inv (hs.mono And.left)) fun _ _ => ?_
    have hexchange := compareAndSwap_done h hbase hrecords hdone (Or.inr rfl) rfl hreal
    refine (hexchange.pre ?_).bind_ends fun _ =>
      Triple.of_forall fun t ht => Triple.returns_ends ⟨rfl, ht⟩
    rintro t rfl
    exact hs

/-- A backup holds the bytes of the original. -/
theorem backupContent_realizes {r : FileRecord} {payload : Option Content}
    (horiginal : r.originalState = absentState r.originalState.path none ∨
      ∃ h m managed, r.originalState = regularState r.originalState.path h m managed)
    (h : backupContent host r s = .ok payload) :
    ∃ n, Realizes host.toHost r.originalState payload n := by
  unfold backupContent at h
  rcases horiginal with heq | ⟨hash, m, managed, heq⟩
  · have hexists : r.originalState.exists = false := by rw [heq]; rfl
    rw [hexists] at h
    obtain rfl := Except.ok.inj h
    refine ⟨none, ?_⟩
    rw [heq]
    exact Realizes.absent _
  · have hexists : r.originalState.exists = true := by rw [heq]; rfl
    have hhash : r.originalState.byteHash = some hash := by rw [heq]; rfl
    simp only [hexists, Bool.not_true, Bool.false_eq_true, if_false] at h
    split at h
    · cases h
    · split at h
      · next c k hget =>
        obtain ⟨_, hcheck, h⟩ := bind_eq_ok h
        obtain rfl := Except.ok.inj h
        have hbytes := check_eq_ok.mp hcheck
        rw [decide_eq_true_eq, hhash] at hbytes
        refine ⟨some (.file c m), ?_⟩
        rw [heq, ← Option.some.inj hbytes]
        exact Realizes.regular _ _ _ _
      · cases h

theorem rollbackRecord_done (h : Sound host j₀) (hbase : base ≠ manifestNode host j₀)
    (hrecords : records.map core = j₀.fileRecords.map core)
    (hdone : ∀ y ∈ done ++ [x], y ∈ records) :
    Triple (In fun s => Stage host j₀ base base s ∧ Done host (·.originalState) done s)
      (rollbackRecord host x)
      (Ends (fun y t => core y = core x ∧
        In (fun s => Stage host j₀ base base s ∧ Done host (·.originalState) (done ++ [x]) s) t)
        (Inv host j₀ base)) (Inv host j₀ base) := by
  obtain ⟨r, hr, hcore⟩ := exists_record hrecords (hdone x (by simp))
  have horiginal := h.originals r hr
  rw [core_originalState hcore] at horiginal
  have hpath : x.candidateState.path = x.originalState.path := by
    rw [← core_candidateState hcore, ← core_originalState hcore]
    exact h.paths r hr
  unfold rollbackRecord
  refine Triple.of_forall fun s hs => ?_
  have hinv := Stage.inv (hs.mono And.left)
  refine Triple.bind_run (a := currentMatches host x.originalState s) (Program.read_run _ _) ?_
  split
  next hmatch =>
    refine Triple.returns_ends ⟨rfl, hs.mono fun hs => ⟨hs.1, fun y hy => ?_⟩⟩
    rcases List.mem_append.mp hy with hy | hy
    · exact hs.2 y hy
    · rw [List.mem_singleton.mp hy]
      exact currentMatches_shown hmatch
  next =>
    refine Triple.inspect_bind_ends hinv fun _ _ => ?_
    refine Triple.inspect_bind_ends hinv fun payload hpayload => ?_
    obtain ⟨n, hreal⟩ := backupContent_realizes horiginal hpayload
    have hexchange := compareAndSwap_done h hbase hrecords hdone (Or.inl rfl) hpath hreal
    refine (hexchange.pre ?_).bind_ends fun _ =>
      Triple.of_forall fun t ht => Triple.returns_ends ⟨rfl, ht⟩
    rintro t rfl
    exact hs

theorem map_core_eq {xs ys : List FileRecord}
    (h : List.Forall₂ (fun x y => core y = core x) xs ys) : ys.map core = xs.map core := by
  induction h with
  | nil => rfl
  | cons hxy _ ih => rw [List.map_cons, List.map_cons, hxy, ih]

/-- A loop over the files leads from a stage to one where all of them are at the given state. -/
theorem records_allAt {step : FileRecord → Prog FileRecord} (order : List FileRecord)
    (hside : Side state)
    (hrecords : records.map core = j₀.fileRecords.map core)
    (hstep : ∀ done x, (∀ y ∈ done ++ [x], y ∈ records) →
      Triple (In fun s => Stage host j₀ base base s ∧ Done host state done s) (step x)
        (Ends (fun y t => core y = core x ∧
          In (fun s => Stage host j₀ base base s ∧ Done host state (done ++ [x]) s) t)
          (Inv host j₀ base)) (Inv host j₀ base))
    (horder : ∀ y, y ∈ order ↔ y ∈ records) :
    Triple (In (Stage host j₀ base base)) (order.mapM step)
      (Ends (fun ys t => ys.map core = order.map core ∧
        In (fun s => Stage host j₀ base base s ∧ AllAt host j₀ state s) t)
        (Inv host j₀ base)) (Inv host j₀ base) := by
  have hloop := Triple.mapM_ends (I := fun done => In fun s => Stage host j₀ base base s ∧
    Done host state done s) order fun done x rest heq => hstep done x fun y hy => by
      rw [← horder, ← heq]
      rcases List.mem_append.mp hy with hy | hy
      · exact List.mem_append_left _ hy
      · rw [List.mem_singleton.mp hy]
        simp
  refine (hloop.pre fun s hs => hs.mono fun hs => ⟨hs, fun y hy => absurd hy (by simp)⟩).ends_weaken
    ?_ fun _ h => h
  rintro ys t ⟨hys, ht⟩
  refine ⟨map_core_eq hys, ht.mono fun hs => ⟨hs.1, ?_⟩⟩
  refine Done.allAt hside hrecords fun x hx => hs.2 x ((horder x).mpr hx)

end Records

/-- What a loop over the files leaves: the same records, and every file at the given state. -/
def AllDone (host : LifecycleHost) (j₀ : LifecycleJournal) (base : Option (Node Content))
    (state : FileRecord → FileState) (records : List FileRecord) (s : FS) : Prop :=
  records.map core = j₀.fileRecords.map core ∧
    In (fun s => Stage host j₀ base base s ∧ AllAt host j₀ state s) s

theorem applyFileRecords_done (h : Sound host j₀) (hbase : base ≠ manifestNode host j₀)
    {records : List FileRecord} (hrecords : records.map core = j₀.fileRecords.map core) :
    Triple (In (Stage host j₀ base base)) (applyFileRecords host records)
      (Ends (AllDone host j₀ base (·.candidateState)) (Inv host j₀ base)) (Inv host j₀ base) := by
  have hloop := records_allAt records (Or.inr rfl) hrecords
    (fun done x hdone => applyRecord_done h hbase hrecords hdone) fun _ => Iff.rfl
  exact hloop.ends_weaken (fun ys t ht => ⟨ht.1.trans hrecords, ht.2⟩) fun _ h => h

theorem resumeFiles_done (h : Sound host j₀) (hbase : base ≠ manifestNode host j₀)
    {records : List FileRecord} (hrecords : records.map core = j₀.fileRecords.map core) :
    Triple (In (Stage host j₀ base base)) (resumeFiles host records)
      (Ends (AllDone host j₀ base (·.candidateState)) (Inv host j₀ base)) (Inv host j₀ base) := by
  have hloop := records_allAt records (Or.inr rfl) hrecords
    (fun done x hdone => resumeRecord_done h hbase hrecords hdone) fun _ => Iff.rfl
  exact hloop.ends_weaken (fun ys t ht => ⟨ht.1.trans hrecords, ht.2⟩) fun _ h => h

theorem rollbackFiles_done (h : Sound host j₀) (hbase : base ≠ manifestNode host j₀)
    {records : List FileRecord} (hrecords : records.map core = j₀.fileRecords.map core) :
    Triple (In (Stage host j₀ base base)) (rollbackFiles host records)
      (Ends (AllDone host j₀ base (·.originalState)) (Inv host j₀ base)) (Inv host j₀ base) := by
  have hloop := records_allAt records.reverse (Or.inl rfl) hrecords
    (fun done x hdone => rollbackRecord_done h hbase hrecords hdone) fun _ => List.mem_reverse
  unfold rollbackFiles
  refine hloop.bind_ends fun ys => Triple.of_forall ?_
  rintro t ⟨hys, ht⟩
  refine Triple.returns_ends ⟨?_, ht⟩
  rw [List.map_reverse, hys, List.map_reverse, List.reverse_reverse, hrecords]

/-! ### Backups -/

theorem data_ne_json (a b : String) : a ++ ".data" ≠ b ++ ".json" := by
  intro heq
  have hlast := congrArg (fun v => v.toList.getLast?) heq
  simp at hlast

/-- Nothing below the data of a transaction is watched. -/
theorem Sound.data_unseen (h : Sound host j₀) (id : String) (rest : Path) :
    ¬ Watched j₀ (transactionRoot ++ (id ++ ".data") :: rest) := by
  intro hw
  have heq := h.watched_below hw (List.prefix_append _ _)
  rw [transactionPath, List.append_cancel_left_eq] at heq
  exact data_ne_json _ _ (List.cons.inj heq).1

/-- Where a record's backup lies. -/
theorem Sound.backup_eq (h : Sound host j₀) {records : List FileRecord}
    (hrecords : records.map core = j₀.fileRecords.map core) {x : FileRecord} (hx : x ∈ records)
    {b : Path} (hb : x.backupPath = some b) : ∃ id file,
      b = transactionRoot ++ [id ++ ".data", "backups", file] := by
  obtain ⟨r, hr, hcore⟩ := exists_record hrecords hx
  have hpath : r.backupPath = x.backupPath := congrArg (fun r => r.backupPath) hcore
  obtain ⟨id, n, rfl⟩ := h.backups r hr b (hpath.trans hb)
  exact ⟨id, _, rfl⟩

theorem prepareBackup_same (h : Sound host j₀) {records : List FileRecord}
    (hrecords : records.map core = j₀.fileRecords.map core) {x : FileRecord} (hx : x ∈ records) :
    Within (Same j₀) (prepareBackup host x) := by
  unfold prepareBackup
  split
  next b hb =>
    obtain ⟨id, file, rfl⟩ := h.backup_eq hrecords hx hb
    have hunseen := h.data_unseen id ["backups", file]
    have hway : ∀ q, q <+: parent (transactionRoot ++ [id ++ ".data", "backups", file]) →
        Watched j₀ q → q <+: controlDir := by
      intro q hq hw
      refine h.way_below [id ++ ".data", "backups"] ?_ hw hq
      intro n hn
      cases hn
      exact data_ne_json _ _
    have hfile : ∀ {prog : Prog Unit},
        Within (Frame (· = transactionRoot ++ [id ++ ".data", "backups", file])) prog →
          Within (Same j₀) prog := by
      intro prog hprog
      refine within_same hprog ?_
      rintro q rfl
      exact hunseen
    refine Within.ite (Within.pure _) ?_
    refine (Within.inspect _).bind fun payload => ?_
    refine (mkdirs_same hway _).bind fun _ => ?_
    refine (hfile (truncate_frame (by simp) rfl)).bind fun _ => ?_
    refine (hfile (write_frame rfl)).bind fun _ => ?_
    refine (Within.lift _).bind fun _ => ?_
    exact (hfile (chmod_frame rfl)).bind fun _ => Within.pure _
  next => exact Within.pure _

theorem prepareBackup_core {x y : FileRecord} (h : (prepareBackup host x).out s = .ok y) :
    core y = core x := by
  unfold prepareBackup at h
  split at h
  · split at h
    · rw [← Except.ok.inj h]
    · obtain ⟨_, -, h⟩ := Program.inspect_out_eq_ok h
      obtain ⟨_, -, h, -⟩ := Program.bind_out_eq_ok h
      obtain ⟨_, -, h, -⟩ := Program.bind_out_eq_ok h
      obtain ⟨_, -, h, -⟩ := Program.bind_out_eq_ok h
      obtain ⟨_, -, h⟩ := Program.lift_out_eq_ok h
      obtain ⟨_, -, h, -⟩ := Program.bind_out_eq_ok h
      rw [← Except.ok.inj h]
      rfl
  · rw [← Except.ok.inj h]

theorem syscall_changes {f : FS → Except OsError FS} (hcontrol : p ≠ controlDir)
    (h : ∀ s t, f s = .ok t → Frame (· = p) s t ∧ t.get p = n) :
    Changes j₀ p n (syscall f : Prog Unit) := by
  intro s
  refine (syscall_shift hcontrol (h s)).weaken (fun _ hs => hs) ?_ fun _ h => Or.inr h
  intro o t ht
  cases o with
  | ok a => exact ht
  | error e =>
    obtain rfl : t = s := ht
    exact Or.inl (Std.Refl.refl t)

theorem mkdir_changes (hp : p ≠ []) (hcontrol : p ≠ controlDir) (m : Mode) :
    Changes j₀ p (some (.dir m)) (syscall (mkdir m p) : Prog Unit) := by
  have hframe : Within (Frame (· = p)) (syscall (mkdir m p) : Prog Unit) := mkdir_frame hp rfl
  refine syscall_changes hcontrol fun s t ht => ⟨frame_of_syscall hframe ht, ?_⟩
  rw [(mkdir_eq_ok ht).2.2, Function.update_self]

theorem unlink_changes (hcontrol : p ≠ controlDir) :
    Changes j₀ p none (syscall (unlink p) : Prog Unit) := by
  have hframe : Within (Frame (· = p)) (syscall (unlink p) : Prog Unit) := unlink_frame rfl
  refine syscall_changes hcontrol fun s t ht => ⟨frame_of_syscall hframe ht, ?_⟩
  rw [(unlink_eq_ok ht).2, Function.update_self]

theorem rmdir_changes (hp : p ≠ []) (hcontrol : p ≠ controlDir) :
    Changes j₀ p none (syscall (rmdir p) : Prog Unit) := by
  have hframe : Within (Frame (· = p)) (syscall (rmdir p) : Prog Unit) := rmdir_frame hp rfl
  refine syscall_changes hcontrol fun s t ht => ⟨frame_of_syscall hframe ht, ?_⟩
  rw [(rmdir_eq_ok ht).2.2, Function.update_self]

/-- The directories of a transaction are made, and what it will overwrite is saved. -/
theorem prepareBackups_stage (h : Sound host j₀) {records : List FileRecord}
    (hrecords : records.map core = j₀.fileRecords.map core) {created : List Path}
    (hcreated : created = j₀.createdDirectories) :
    Triple (In (Stage host j₀ base n)) (prepareBackups host records created)
      (Ends (fun ys t => ys.map core = j₀.fileRecords.map core ∧ In (Stage host j₀ base n) t)
        (Inv host j₀ base)) (Inv host j₀ base) := by
  have hstage : ∀ s, In (Stage host j₀ base n) s → Inv host j₀ base s := fun s hs => Stage.inv hs
  unfold prepareBackups
  have hmade : Triple (In (Stage host j₀ base n))
      (Program.each created fun d => syscall (mkdir host.dirMode d) : Prog Unit)
      (Ends (fun _ => In (Stage host j₀ base n)) (Inv host j₀ base)) (Inv host j₀ base) := by
    refine Triple.each_ends (I := fun _ => In (Stage host j₀ base n)) created ?_
    intro done d rest heq
    have hd : d ∈ j₀.createdDirectories := by
      rw [← hcreated, ← heq]
      simp
    obtain ⟨hne, hcontrol, -⟩ := h.created d hd
    refine guard_shift (mkdir_changes hne hcontrol _) (stage_blind h).seen ?_ hstage hstage
    exact fun s t hs hget => hs.shift_way h hd (Or.inr ⟨_, rfl⟩) hget
  refine hmade.bind_ends fun _ => ?_
  have hsaved := Triple.mapM_ends (f := prepareBackup host)
    (R := fun x y => core y = core x) (I := fun _ => In (Stage host j₀ base n))
    (E := Inv host j₀ base) (C := Inv host j₀ base) records fun done x rest heq => by
      have hx : x ∈ records := by
        rw [← heq]
        simp
      have hkept := guard_same (prepareBackup_same h hrecords hx) (stage_blind h).seen hstage
      exact hkept.ends_out fun s y hy => prepareBackup_core hy
  refine hsaved.ends_weaken ?_ fun _ h => h
  rintro ys t ⟨hys, ht⟩
  exact ⟨(map_core_eq hys).trans hrecords, ht⟩

theorem removeBackup_frame (b : Path) : Within (Frame (· = b)) (removeBackup b) :=
  Within.whenever ((Within.inspect _).bind fun _ => unlink_frame rfl)

theorem cleanupTransactionData_same (h : Sound host j₀) {records : List FileRecord}
    (hrecords : records.map core = j₀.fileRecords.map core) :
    Within (Same j₀) (cleanupTransactionData records) := by
  have hbackup : ∀ b ∈ records.filterMap (·.backupPath), ∃ id file,
      b = transactionRoot ++ [id ++ ".data", "backups", file] := by
    intro b hb
    obtain ⟨x, hx, hxb⟩ := List.mem_filterMap.mp hb
    exact h.backup_eq hrecords hx hxb
  unfold cleanupTransactionData
  refine (Within.each _ fun b hb => ?_).bind fun _ => Within.each _ fun d hd => ?_
  · obtain ⟨id, file, rfl⟩ := hbackup b hb
    refine within_same (removeBackup_frame _) ?_
    rintro q rfl
    exact h.data_unseen id _
  · have hd := (List.mem_insertionSort _).mp hd
    obtain ⟨b, hb, hd⟩ := List.mem_flatMap.mp (List.mem_dedup.mp hd)
    obtain ⟨id, file, rfl⟩ := hbackup b hb
    have hbelow : ∃ rest, d = transactionRoot ++ (id ++ ".data") :: rest := by
      rcases List.mem_cons.mp hd with rfl | hd
      · exact ⟨["backups"], rfl⟩
      · rw [List.mem_singleton.mp hd]
        exact ⟨[], rfl⟩
    obtain ⟨rest, rfl⟩ := hbelow
    refine Within.whenever (within_same (rmdir_frame (by simp) rfl) ?_)
    rintro q rfl
    exact h.data_unseen id rest

/-! ### The marker -/

theorem stage_marker (h : Sound host j₀) (hG : Blind j₀ maintenancePath G)
    (hs : Stage host j₀ base n s ∧ G s) {k : Option (Node Content)}
    (hget : ∀ q, Watched j₀ q → t.get q = Function.update s.get maintenancePath k q) :
    (Stage host j₀ base n t ∧ G t) ∧ t.get maintenancePath = k := by
  refine ⟨((stage_blind h).and hG).shift hs hget, ?_⟩
  rw [hget _ watched_maintenance, Function.update_self]

theorem writeMaintenance_stage (h : Sound host j₀) (marker : MaintenanceMarker) :
    Triple (In (Stage host j₀ base n)) (writeMaintenance host marker)
      (Ends (fun _ => In (Stage host j₀ base n)) (Inv host j₀ base)) (Inv host j₀ base) := by
  have hstage : ∀ s, In (Stage host j₀ base n) s → Inv host j₀ base s := fun s hs => Stage.inv hs
  have hwrite : Changes j₀ maintenancePath (some (.file (host.content (.marker marker)) 0o600))
      (replaceFile host.names ".maintenance." maintenancePath (host.content (.marker marker)) 0o600
        (pure ())) := by
    intro s
    exact (replaceFile_shift (by decide) (by decide) watched_maintenance
      (h.unseen_rewrite ["maintenance"] _) fun _ => rfl).ends_weaken (fun _ _ h => h)
      fun _ hsame => Or.inl hsame
  unfold writeMaintenance
  refine Triple.of_forall fun s hs => Triple.bind_run (Program.read_run _ _) ?_
  split
  next => exact Triple.throw_ends (Stage.inv hs)
  next =>
    refine (guard_shift hwrite (stage_blind h).seen ?_ hstage hstage).pre ?_
    · exact fun s t hs hget => (stage_blind h).shift hs hget
    · rintro t rfl
      exact hs

/-- The marker goes, and what is said of the rest stays. -/
theorem removeMaintenance_stage (h : Sound host j₀) (hG : Blind j₀ maintenancePath G)
    (marker : MaintenanceMarker) :
    Triple (In fun s => Stage host j₀ base n s ∧ G s) (removeMaintenance host marker)
      (Ends (fun _ => In fun s => (Stage host j₀ base n s ∧ G s) ∧ s.get maintenancePath = none)
        (Inv host j₀ base)) (Inv host j₀ base) := by
  unfold removeMaintenance
  refine Triple.of_forall fun s hs => ?_
  refine Triple.inspect_bind_ends (Stage.inv (hs.mono And.left)) fun _ _ => ?_
  refine Triple.pre (P := In fun s => Stage host j₀ base n s ∧ G s) ?_ ?_
  · exact guard_shift (unlink_changes (by decide)) ((stage_blind h).seen.and hG.seen)
      (fun s t hs hget => stage_marker h hG hs hget) (fun s hs => Stage.inv (hs.mono And.left))
      fun s hs => Stage.inv (hs.mono fun hs => hs.1.1)
  · rintro t rfl
    exact hs

theorem removeMarkerIfPresent_stage (h : Sound host j₀) (hG : Blind j₀ maintenancePath G)
    (marker : MaintenanceMarker) :
    Triple (In fun s => Stage host j₀ base n s ∧ G s) (removeMarkerIfPresent host marker)
      (Ends (fun _ => In fun s => (Stage host j₀ base n s ∧ G s) ∧ s.get maintenancePath = none)
        (Inv host j₀ base)) (Inv host j₀ base) := by
  unfold removeMarkerIfPresent
  refine Triple.of_forall fun s hs => Triple.whenever _ (fun _ => ?_) fun habsent => ?_
  · refine (removeMaintenance_stage h hG marker).pre ?_
    rintro t rfl
    exact hs
  · change In (fun s => (Stage host j₀ base n s ∧ G s) ∧ s.get maintenancePath = none) s
    refine hs.mono fun hs => ⟨hs, ?_⟩
    rw [Bool.or_eq_false_iff] at habsent
    obtain ⟨hexists, hlink⟩ := habsent
    unfold DirTree.exists at hexists
    unfold isSymlink at hlink
    split at hexists
    · next hget => exact hget
    · next hget =>
      rw [hget] at hlink
      cases hlink
    · cases hexists

/-! ### Undoing the directories -/

/-- The files are as they were, and these directories are gone. -/
structure Undone (host : LifecycleHost) (j₀ : LifecycleJournal) (done : List Path) (s : FS) :
    Prop where
  files : AllAt host j₀ (·.originalState) s
  gone : ∀ d ∈ done, s.get d = none

theorem created_watched (h : Sound host j₀) {d : Path} (hd : d ∈ j₀.createdDirectories) :
    Watched j₀ d := by
  obtain ⟨-, -, r, hr, hpre, -⟩ := h.created d hd
  exact way_watched hr hpre

theorem undone_blind (h : Sound host j₀) {done : List Path}
    (hdone : ∀ d ∈ done, d ∈ j₀.createdDirectories) :
    Blind j₀ maintenancePath (Undone host j₀ done) := by
  intro s t hs hget
  constructor
  · refine blind_allAt _ (fun r hr => ?_) s t hs.files hget
    exact (h.way_ne hr List.prefix_rfl).2.2
  · intro d hd
    obtain ⟨-, -, r, hr, hpre, -⟩ := h.created d (hdone d hd)
    rw [hget d (way_watched hr hpre) (h.way_ne hr hpre).2.2]
    exact hs.gone d hd

theorem removeCreated_undone (h : Sound host j₀) {done : List Path} {d : Path}
    (hdone : ∀ x ∈ done ++ [d], x ∈ j₀.createdDirectories) :
    Triple (In fun s => Stage host j₀ base base s ∧ Undone host j₀ done s) (removeCreated d)
      (Ends (fun _ => In fun s => Stage host j₀ base base s ∧ Undone host j₀ (done ++ [d]) s)
        (Inv host j₀ base)) (Inv host j₀ base) := by
  have hd : d ∈ j₀.createdDirectories := hdone d (by simp)
  have hbefore : ∀ x ∈ done, x ∈ j₀.createdDirectories := fun x hx =>
    hdone x (List.mem_append_left _ hx)
  obtain ⟨hne, hcontrol, r, hr, hpre, hproper⟩ := h.created d hd
  unfold removeCreated
  refine Triple.of_forall fun s hs => Triple.whenever _ (fun _ => ?_) fun habsent => ?_
  · refine Triple.inspect_bind_ends (Stage.inv (hs.mono And.left)) fun _ _ => ?_
    refine Triple.pre (P := In fun s => Stage host j₀ base base s ∧ Undone host j₀ done s) ?_ ?_
    · refine guard_shift (rmdir_changes hne hcontrol)
        ((stage_blind h).seen.and (undone_blind h hbefore).seen) ?_
        (fun s hs => Stage.inv (hs.mono And.left)) fun s hs => Stage.inv (hs.mono And.left)
      rintro s t ⟨hs, hundone⟩ hget
      refine ⟨hs.shift_way h hd (Or.inl rfl) hget, ?_, fun x hx => ?_⟩
      · intro r' hr'
        rw [hget _ (Sound.record_watched hr'),
          Function.update_of_ne (h.way_apart hr' hr hpre hproper).symm]
        exact hundone.files r' hr'
      · rw [hget x (created_watched h (hdone x hx))]
        by_cases hxd : x = d
        · rw [hxd, Function.update_self]
        · rw [Function.update_of_ne hxd]
          rcases List.mem_append.mp hx with hx | hx
          · exact hundone.gone x hx
          · exact absurd (List.mem_singleton.mp hx) hxd
    · rintro t rfl
      exact hs
  · change In (fun s => Stage host j₀ base base s ∧ Undone host j₀ (done ++ [d]) s) s
    refine hs.mono fun ⟨hs, hundone⟩ => ⟨hs, hundone.files, fun x hx => ?_⟩
    rcases List.mem_append.mp hx with hx | hx
    · exact hundone.gone x hx
    · rw [List.mem_singleton.mp hx]
      rcases hs.standing.ways r hr d hpre hproper with hnone | ⟨m, hm⟩
      · exact hnone
      · simp [DirTree.exists, hm] at habsent

theorem cleanupCreatedDirectories_undone (h : Sound host j₀) {created : List Path}
    (hcreated : created = j₀.createdDirectories) :
    Triple (In fun s => Stage host j₀ base base s ∧ AllAt host j₀ (·.originalState) s)
      (cleanupCreatedDirectories created)
      (Ends (fun _ => In fun s => Stage host j₀ base base s ∧
        Undone host j₀ j₀.createdDirectories s) (Inv host j₀ base)) (Inv host j₀ base) := by
  have hloop := Triple.each_ends (f := removeCreated) (E := Inv host j₀ base)
    (C := Inv host j₀ base)
    (I := fun done => In fun s => Stage host j₀ base base s ∧ Undone host j₀ done s)
    (created.insertionSort fun a b => b.length ≤ a.length) fun done d rest heq => by
      refine removeCreated_undone h fun x hx => ?_
      rw [← hcreated, ← List.mem_insertionSort fun a b : Path => b.length ≤ a.length, ← heq]
      rcases List.mem_append.mp hx with hx | hx
      · exact List.mem_append_left _ hx
      · rw [List.mem_singleton.mp hx]
        simp
  unfold cleanupCreatedDirectories
  refine (hloop.pre fun s hs => hs.mono fun hs => ⟨hs.1, hs.2, by simp⟩).ends_weaken
    (fun _ s hs => hs.mono fun hs => ⟨hs.1, hs.2.files, fun d hd => ?_⟩) fun _ h => h
  refine hs.2.gone d ?_
  rwa [List.mem_insertionSort, hcreated]

end AgentStack.Reconcile.Lifecycle
