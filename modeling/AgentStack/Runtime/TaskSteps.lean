import AgentStack.Runtime.TaskStore

/-! What each step of a task transaction does to the store, as the transaction sees it. -/
namespace AgentStack.Runtime

open AgentStack.Core FileTree Crash KeyedList Reconcile

variable {host : Host} {L : Layout} {v : View} {s c : FS}

section Entry

theorem realDirectory_run {p : Path} {create : Bool} (h : s.Reaches p) :
    (realDirectory host p create).run s = ⟨[], .ok ()⟩ := by
  have hp := h p List.prefix_rfl
  have hend : (do
      let ready ← Program.read fun s => s.isDir p
      if ready then return ()
      else Program.throw (lockFailure "lock directory is unavailable" p) : Prog Unit).run s =
      ⟨[], .ok ()⟩ := by
    rw [Program.bind_of_pure (Program.read_run _ _), if_pos (DirTree.isDir_of_realDir hp)]
    rfl
  rw [realDirectory, Program.bind_of_pure (Program.read_run _ _),
    DirTree.not_isSymlink_of_realDir hp]
  simp only [Bool.false_eq_true, if_false]
  cases create
  · exact hend
  · simp only [if_true]
    rw [Program.bind_of_pure (DirTree.mkdirs_run h)]
    exact hend

theorem openCreate_run {p : Path} {mode : FileTree.Mode}
    (h : ∃ c m, s.get p = some (.file c m)) :
    (openCreate p mode).run s = ⟨[], .ok ()⟩ := by
  obtain ⟨c, m, h⟩ := h
  have hw := Program.whenever_false (p := (DirTree.syscall (DirTree.create ∅ mode p) : Prog Unit))
    (s := s) (fun s => (s.get p).isNone) (by simp [h])
  rw [openCreate, Program.bind_of_pure hw, Program.inspect_run, h]

theorem advisoryLock_run {p : Path} (hd : s.Reaches (parent p))
    (h : ∃ c m, s.get p = some (.file c m)) : (advisoryLock host p).run s = ⟨[], .ok ()⟩ := by
  rw [advisoryLock, Program.bind_of_pure (realDirectory_run hd)]
  simp [Program.mapError, Program.out, openCreate_run h]

theorem Skeleton.reaches_control (h : Skeleton host L s) : s.Reaches controlDir :=
  (DirTree.Reaches.root h.root).snoc h.control

theorem Skeleton.reaches_journals (h : Skeleton host L s) : s.Reaches journalRoot :=
  h.reaches_control.snoc h.journals

theorem Skeleton.reaches_locals (h : Skeleton host L s) : s.Reaches localDir :=
  h.reaches_control.snoc h.locals

theorem Skeleton.gate_run (h : Skeleton host L s) :
    (acquireRuntimeStateGate host).run s = ⟨[], .ok ()⟩ := by
  rw [acquireRuntimeStateGate, Program.bind_of_pure (realDirectory_run (DirTree.Reaches.root h.root)),
    Program.bind_of_pure (realDirectory_run h.reaches_control)]
  exact advisoryLock_run (by simpa using h.reaches_control) h.gate

theorem Skeleton.taskLock_run (h : Skeleton host L s) :
    (taskLock host L.taskRef).run s = ⟨[], .ok ()⟩ := by
  have hpar : parent (taskLockPath host L.taskRef) = localDir ++ ["task-locks"] := rfl
  unfold taskLock
  simp only [hpar]
  rw [Program.bind_of_pure (DirTree.mkdirs_run (h.reaches_locals.snoc h.locks)),
    Program.bind_of_pure (Program.read_run _ _), DirTree.not_isSymlink_of_realDir h.locks]
  exact openCreate_run h.lock

variable {j : TaskJournal} {residue : Bool} {transactionId : String}

theorem JournalsShow.transactionId_eq (h : JournalsShow host transactionId j residue s) :
    j.transactionId = transactionId := by
  obtain ⟨-, he, -⟩ := validateJournal_ok.mp h.valid
  exact (Option.some.inj (he rfl)).symm

theorem JournalsShow.checked (h : JournalsShow host transactionId j residue s) :
    checkTransactionId transactionId = .ok () :=
  h.transactionId_eq ▸ checkTransactionId_of_valid h.valid

theorem JournalsShow.read (h : JournalsShow host transactionId j residue s) :
    readTaskJournal host transactionId s = .ok j := by
  simp only [readTaskJournal, h.checked, bind_ok_eq, h.stored, h.valid]
  rfl

/-- A journal file of the directory is complete or the transaction's own. -/
theorem JournalsShow.read_entry (h : JournalsShow host transactionId j residue s) {n : String}
    (hn : (s.get (journalRoot ++ [n])).isSome) (hsuf : suffix n = ".json") :
    ∃ x, readTaskJournal host (stem n) s = .ok x ∧
      (x.phase = .complete ∨ x.transactionId = transactionId) := by
  by_cases hne : n = journalName transactionId
  · rw [hne, stem_journalName (checkTransactionId_ne_nil h.checked)]
    exact ⟨j, h.read, .inr h.transactionId_eq⟩
  · rcases h.others n hn hne with ⟨-, x, hx, hc⟩ | ⟨hns, -⟩
    · exact ⟨x, hx, .inl hc⟩
    · exact absurd hsuf hns

theorem JournalsShow.readJournals_ok (h : JournalsShow host transactionId j residue s)
    {l : List String} (hl : ∀ n ∈ l, (s.get (journalRoot ++ [n])).isSome ∧ suffix n = ".json") :
    ∃ js, readJournals host s l = .ok js ∧ ∀ x ∈ js, x.transactionId = transactionId := by
  induction l with
  | nil => exact ⟨[], rfl, by simp⟩
  | cons n l ih =>
    obtain ⟨hn, hsuf⟩ := hl n List.mem_cons_self
    obtain ⟨js, hjs, hall⟩ := ih fun n' hn' => hl n' (List.mem_cons_of_mem n hn')
    obtain ⟨x, hx, hcase⟩ := h.read_entry hn hsuf
    by_cases hc : x.phase = .complete
    · refine ⟨js, ?_, hall⟩
      simp [readJournals, hsuf, hx, hjs, hc]
    · refine ⟨x :: js, ?_, ?_⟩
      · simp [readJournals, hsuf, hx, hjs, hc]
      · simp only [List.forall_mem_cons]
        exact ⟨hcase.resolve_left hc, hall⟩

/-- An entry that is no journal stops the reading of the directory. -/
theorem readJournals_error {l : List String} (h : ∃ n ∈ l, suffix n ≠ ".json") :
    ∃ e, readJournals host s l = .error e := by
  induction l with
  | nil => simp at h
  | cons n l ih =>
    by_cases hsuf : suffix n = ".json"
    · obtain ⟨m, hm, hms⟩ := h
      have hml : m ∈ l := by
        rcases List.mem_cons.mp hm with rfl | hm
        · exact absurd hsuf hms
        · exact hm
      obtain ⟨e, he⟩ := ih ⟨m, hml, hms⟩
      rcases hr : readTaskJournal host (stem n) s with e' | x
      · exact ⟨e', by simp [readJournals, hsuf, hr]⟩
      · exact ⟨e, by simp [readJournals, hsuf, hr, he]⟩
    · exact ⟨_, by rw [readJournals, if_pos hsuf]⟩

theorem mem_listing {d : Path} {n : String} : n ∈ listing s d ↔ (s.get (d ++ [n])).isSome := by
  rw [listing, List.mem_insertionSort, DirTree.mem_children]

private theorem unfinished_eq (hd : s.realDir journalRoot) :
    unfinishedTaskJournals host s = readJournals host s (listing s journalRoot) := by
  obtain ⟨m, hm⟩ := hd
  simp [unfinishedTaskJournals, DirTree.exists, DirTree.isSymlink, DirTree.isDir, hm]

theorem noOtherTransaction_ok (hd : s.realDir journalRoot)
    (h : JournalsShow host transactionId j residue s) (hr : residue = false) :
    noOtherTransaction host (some transactionId) s = .ok () := by
  obtain ⟨js, hjs, hall⟩ := h.readJournals_ok (l := listing s journalRoot) fun n hn => by
    have hn := mem_listing.mp hn
    refine ⟨hn, ?_⟩
    by_cases hne : n = journalName transactionId
    · rw [hne, suffix_journalName (checkTransactionId_ne_nil h.checked)]
    · rcases h.others n hn hne with ⟨hsuf, -⟩ | ⟨-, hres⟩
      · exact hsuf
      · rw [hr] at hres
        cases hres
  have hfind : (js.find? fun x => some x.transactionId ≠ some transactionId) = none := by
    rw [List.find?_eq_none]
    intro x hx
    simp [hall x hx]
  simp only [noOtherTransaction, unfinished_eq hd, hjs, bind_ok_eq, hfind]

theorem noOtherTransaction_residue {current : Option String} (hd : s.realDir journalRoot)
    (h : ∃ n, (s.get (journalRoot ++ [n])).isSome ∧ suffix n ≠ ".json") :
    ∃ e, noOtherTransaction host current s = .error e := by
  obtain ⟨n, hn, hsuf⟩ := h
  obtain ⟨e, he⟩ := @readJournals_error host s (listing s journalRoot)
    ⟨n, mem_listing.mpr hn, hsuf⟩
  exact ⟨e, by simp only [noOtherTransaction, unfinished_eq hd, he, bind_error_eq]⟩

private theorem enterTask_eq (h : Shows host L v s) (current : Option String) :
    (enterTask host L.taskRef current).run s = ⟨[], noOtherTransaction host current s⟩ := by
  have hm : maintenanceClear s = .ok () := by
    simp [maintenanceClear, DirTree.exists, DirTree.isSymlink, h.skeleton.maintenance]
  rw [enterTask, Program.bind_of_pure h.skeleton.gate_run,
    Program.bind_of_pure h.skeleton.taskLock_run,
    Program.bind_of_pure (by rw [Program.inspect_run, hm]), Program.inspect_run]

/-- A transaction gets in again, as long as the journal directory holds journals only. -/
theorem enterTask_run (h : Shows host L v s) (hr : v.residue = false) :
    (enterTask host L.taskRef (some L.transactionId)).run s = ⟨[], .ok ()⟩ := by
  rw [enterTask_eq h, noOtherTransaction_ok h.skeleton.journals h.journals hr]

theorem enterTask_residue (h : Shows host L v s) (hr : v.residue = true)
    (current : Option String) :
    ∃ e, (enterTask host L.taskRef current).run s = ⟨[], .error e⟩ := by
  obtain ⟨e, he⟩ := @noOtherTransaction_residue host s current
    h.skeleton.journals (h.journals.residue hr)
  exact ⟨e, by rw [enterTask_eq h, he]⟩

end Entry

section Journal

variable {j j' : TaskJournal} {residue : Bool} {transactionId : String}

theorem not_temp_self {p : Path} :
    ¬ DirTree.IsTemp (rewritePrefix p) (parent p) p := by
  rintro ⟨x, -, -, h⟩
  have hn := congrArg name h
  rw [name_append] at hn
  have := congrArg (fun n => n.toList.length) hn
  simp [rewritePrefix] at this
  omega

/-- A temporary file in the journal directory is residue. -/
theorem JournalsShow.temp (h : JournalsShow host transactionId j residue s) {tmp : Path}
    {x : Node Content} (ht : DirTree.IsTemp (rewritePrefix (journalFile transactionId)) journalRoot tmp)
    (hne : tmp ≠ journalFile transactionId) (hg : c.get = Function.update s.get tmp (some x)) :
    JournalsShow host transactionId j true c := by
  obtain ⟨y, hlen, hdot, rfl⟩ := ht
  have hsuf : suffix (rewritePrefix (journalFile transactionId) ++ y) ≠ ".json" :=
    suffix_temp hlen hdot
  refine ⟨?_, h.valid, fun n hn hnj => ?_, fun _ => ⟨_, by rw [hg]; simp, hsuf⟩⟩
  · rw [hg, Function.update_of_ne hne.symm]
    exact h.stored
  · by_cases hs : suffix n = ".json"
    · have hnt : journalRoot ++ [n] ≠ journalRoot ++
          [rewritePrefix (journalFile transactionId) ++ y] := by
        intro he
        rw [List.append_cancel_left_eq, List.cons.injEq] at he
        exact hsuf (he.1 ▸ hs)
      rw [hg, Function.update_of_ne hnt] at hn
      rcases h.others n hn hnj with ⟨-, x, hx, hc⟩ | ⟨hns, -⟩
      · refine .inl ⟨hs, x, (readTaskJournal_congr ?_).trans hx, hc⟩
        rw [hg, Function.update_of_ne]
        rw [journalFile, journalName_stem hs]
        exact hnt
      · exact absurd hs hns
    · exact .inr ⟨hs, rfl⟩

/-- A new version of the transaction's journal. -/
theorem JournalsShow.put (h : JournalsShow host transactionId j residue s)
    (hv : validateJournal host j' (some transactionId) = .ok ())
    (hg : c.get = Function.update s.get (journalFile transactionId)
      (some (.file (.taskJournal j') 0o600))) :
    JournalsShow host transactionId j' residue c := by
  have hother : ∀ n, n ≠ journalName transactionId →
      c.get (journalRoot ++ [n]) = s.get (journalRoot ++ [n]) := by
    intro n hn
    rw [hg, Function.update_of_ne]
    intro he
    exact hn (by simpa [journalFile] using he)
  refine ⟨by rw [hg, Function.update_self], hv, fun n hn hnj => ?_, fun hr => ?_⟩
  · rw [hother n hnj] at hn
    rcases h.others n hn hnj with ⟨hs, x, hx, hc⟩ | hres
    · refine .inl ⟨hs, x, (readTaskJournal_congr ?_).trans hx, hc⟩
      rw [journalFile, journalName_stem hs]
      exact hother n hnj
    · exact .inr hres
  · obtain ⟨n, hn, hsuf⟩ := h.residue hr
    refine ⟨n, ?_, hsuf⟩
    rwa [hother n]
    rintro rfl
    exact hsuf (suffix_journalName (checkTransactionId_ne_nil h.checked))

/-- A phase the journal may move to, with an outcome when it is the last. -/
def TaskJournal.CanAdvance (j : TaskJournal) (phase : Phase) (outcome : Option Outcome) : Prop :=
  ∃ n k, phaseOrder j.operation phase = some n ∧ phaseOrder j.operation j.phase = some k ∧
    k ≤ n ∧ (phase = .complete → outcome.isSome)

instance (j : TaskJournal) (phase : Phase) (outcome : Option Outcome) :
    Decidable (j.CanAdvance phase outcome) :=
  decidable_of_iff (((phaseOrder j.operation phase).isSome ∧ (phaseOrder j.operation j.phase).isSome
    ∧ (phaseOrder j.operation j.phase).getD 0 ≤ (phaseOrder j.operation phase).getD 0) ∧
    (phase = .complete → outcome.isSome)) <| by
    unfold TaskJournal.CanAdvance
    rcases phaseOrder j.operation phase with _ | n <;>
      rcases phaseOrder j.operation j.phase with _ | k <;> simp

theorem validateJournal_advanced {phase : Phase} {outcome : Option Outcome}
    (hv : validateJournal host j (some transactionId) = .ok ())
    (ha : j.CanAdvance phase outcome) :
    validateJournal host (j.advanced phase outcome) (some transactionId) = .ok () := by
  obtain ⟨n, k, hn, -, -, hout⟩ := ha
  rw [validateJournal_ok] at hv ⊢
  obtain ⟨hid, hexp, -, hbind, htask, href, -⟩ := hv
  refine ⟨hid, hexp, ?_, hbind, htask, href, fun hc => ?_⟩
  · change (phaseOrder j.operation phase).isSome
    rw [hn]
    rfl
  · have := hout hc
    simp [TaskJournal.advanced, this]

variable (host j' transactionId) in
/-- A journal is put in its place through a file beside it. -/
theorem atomicJson_update (hdir : s.Reaches journalRoot)
    (hfile : ∀ m, s.get (journalFile transactionId) ≠ some (.dir m)) :
    Triple (· = s) (atomicJson host (journalFile transactionId) j')
      (Returns fun _ t => t.get = Function.update s.get (journalFile transactionId)
        (some (.file (.taskJournal j') 0o600)))
      (DirTree.Replacing s (rewritePrefix (journalFile transactionId)) (journalFile transactionId)
        (some (.file (.taskJournal j') 0o600))) := by
  have hpar : parent (journalFile transactionId) = journalRoot := parent_append _ _
  have hne : journalFile transactionId ≠ [] := by simp [journalFile]
  have hjr : s.realDir journalRoot := hdir _ List.prefix_rfl
  unfold atomicJson
  rw [hpar]
  refine Triple.bind_run (DirTree.mkdirs_run hdir) ?_
  refine Triple.bind_run (Program.read_run _ _) ?_
  rw [DirTree.not_isSymlink_of_realDir hjr]
  simp only [Bool.false_eq_true, if_false]
  exact DirTree.replaceFile_spec (by rwa [hpar]) hfile hne not_temp_self fun _ _ => rfl

theorem atomicJson_spec (h : Shows host L v s)
    (hv : validateJournal host j' (some L.transactionId) = .ok ()) :
    Triple (· = s) (atomicJson host (journalFile L.transactionId) j')
      (Returns fun _ => Shows host L { v with journal := j' })
      fun c => Shows host L { v with residue := true } c ∨
        Shows host L { v with journal := j' } c := by
  have hpar : parent (journalFile L.transactionId) = journalRoot := parent_append _ _
  have hdone : ∀ c, c.get = Function.update s.get (journalFile L.transactionId)
      (some (.file (.taskJournal j') 0o600)) → Shows host L { v with journal := j' } c := by
    intro c hg
    refine h.journals_step (fun q hq => ?_) (h.journals.put hv hg)
    rw [hg, Function.update_of_ne]
    rintro rfl
    exact hq (Layout.region_journals _)
  refine (atomicJson_update host _ _ h.skeleton.reaches_journals ?_).weaken (fun _ h => h) ?_ ?_
  · intro m
    rw [h.journals.stored]
    simp
  · rintro o t ⟨a, ho, hg⟩
    exact ⟨a, ho, hdone t hg⟩
  · intro c hc
    cases hc with
    | temp hT habs hneq hg =>
      rw [hpar] at hT
      refine .inl (h.journals_step (fun q hq => ?_) (h.journals.temp hT hneq hg))
      obtain ⟨x, -, -, rfl⟩ := hT
      rw [hg, Function.update_of_ne]
      rintro rfl
      exact hq (Layout.region_journals _)
    | done hg => exact .inr (hdone c hg)

/-- An advance shows the next journal; cut short, it shows residue or has happened. -/
theorem advanceTaskJournal_spec {phase : Phase} {outcome : Option Outcome}
    (h : Shows host L v s) (ha : v.journal.CanAdvance phase outcome) :
    Triple (· = s) (advanceTaskJournal host v.journal phase outcome)
      (Returns fun j t => j = v.journal.advanced phase outcome ∧
        Shows host L { v with journal := v.journal.advanced phase outcome } t)
      fun c => Shows host L { v with residue := true } c ∨
        Shows host L { v with journal := v.journal.advanced phase outcome } c := by
  have hv := validateJournal_advanced h.journals.valid ha
  have hid := h.journals.transactionId_eq
  have hnone : validateJournal host v.journal none = .ok () := by
    have := validateJournal_ok.mp h.journals.valid
    exact validateJournal_ok.mpr ⟨this.1, by simp, this.2.2⟩
  obtain ⟨n, k, hn, hk, hle, -⟩ := ha
  unfold advanceTaskJournal
  refine Triple.bind_run (by rw [Program.lift_run, hnone]) ?_
  rw [hn, hk]
  simp only [if_neg (Nat.not_lt.mpr hle)]
  have hadv : (v.journal.advanced phase outcome).transactionId = L.transactionId := hid
  rw [hadv]
  refine Triple.bind_run (by rw [Program.lift_run, hv]) ?_
  refine Triple.bind_run (a := journalFile L.transactionId) ?_ ?_
  · rw [Program.lift_run, journalPath, h.journals.checked]
    rfl
  · refine (atomicJson_spec h hv).bind_returns fun _ => ?_
    exact Triple.of_forall fun t ht => Triple.returns ⟨rfl, ht⟩

end Journal

section Ledger

private theorem lookup_replace (l : List (String × ReplayEntry)) (key k : String)
    (e : ReplayEntry) : (l.map fun x => if x.1 = key then (key, e) else x).lookup k =
      if k = key then (l.lookup k).map fun _ => e else l.lookup k := by
  induction l with
  | nil => simp
  | cons x l ih =>
    obtain ⟨a, y⟩ := x
    by_cases hk : k = a
    · subst hk
      by_cases ha : k = key
      · simp [ha]
      · simp [ha]
    · have hne : (k == a) = false := by simpa using hk
      by_cases ha : a = key
      · subst ha
        simp only [List.map_cons, if_true, List.lookup_cons, hne, ih]
      · simp only [List.map_cons, if_neg ha, List.lookup_cons, hne, ih]

private theorem lookup_isSome_of_any {l : List (String × ReplayEntry)} {key : String}
    (h : l.any (·.1 = key) = true) : ∃ e, l.lookup key = some e := by
  rw [← Option.isSome_iff_exists, List.lookup_isSome_iff]
  obtain ⟨x, hx, hk⟩ := List.any_eq_true.mp h
  exact ⟨x, hx, by simpa using (of_decide_eq_true hk).symm⟩

private theorem lookup_none_of_any {l : List (String × ReplayEntry)} {key : String}
    (h : ¬ l.any (·.1 = key) = true) : l.lookup key = none := by
  rw [List.lookup_eq_none_iff]
  intro x hx
  refine bne_iff_ne.mpr fun he => ?_
  exact h (List.any_eq_true.mpr ⟨x, hx, decide_eq_true he.symm⟩)

theorem lookup_putEntry (l : List (String × ReplayEntry)) (key k : String) (e : ReplayEntry) :
    (putEntry l key e).lookup k = if k = key then some e else l.lookup k := by
  unfold putEntry
  split
  · next h =>
    rw [lookup_replace]
    by_cases hk : k = key
    · obtain ⟨x, hx⟩ := lookup_isSome_of_any h
      simp [hk, hx]
    · simp [hk]
  · next h =>
    rw [List.lookup_append]
    by_cases hk : k = key
    · simp [hk, lookup_none_of_any h]
    · have hne : (k == key) = false := by simpa using hk
      simp [hk, List.lookup_cons, hne]

theorem mem_putEntry {l : List (String × ReplayEntry)} {key : String} {e : ReplayEntry}
    {x : String × ReplayEntry} (h : x ∈ putEntry l key e) : x ∈ l ∨ x = (key, e) := by
  unfold putEntry at h
  split at h
  · obtain ⟨y, hy, rfl⟩ := List.mem_map.mp h
    split
    · exact .inr rfl
    · exact .inl hy
  · simpa using h

def ledgerState (host : Host) (ledger : ReplayLedger) : FileState :=
  regularState replayPath (host.hashBytes (.replayLedger ledger)) 0o600 none

namespace LedgerShows

variable {ledger : ReplayLedger}

theorem observe (h : LedgerShows ledger s) (hc : s.Clear localDir) :
    observeFileState host replayPath none s = .ok (ledgerState host ledger) := by
  have hobs := observeFileState_eq host (p := replayPath) hc none
  rw [hobs, h.stored]
  rfl

theorem load (h : LedgerShows ledger s) (hc : s.Clear localDir)
    {projectId workspaceId : Option String}
    (hp : projectId.isSome → projectId = some ledger.projectId)
    (hw : workspaceId.isSome → workspaceId = some ledger.workspaceInstanceId) :
    loadLedger host projectId workspaceId s = .ok (ledger, ledgerState host ledger) := by
  have hid : ∀ (asked : Option String) (actual field message : String),
      (asked.isSome → asked = some actual) → replayUuid actual field = .ok () →
      checkIdentity asked actual field message = .ok () := by
    intro asked actual field message ha hu
    cases asked with
    | none => rfl
    | some value =>
      obtain rfl := Option.some.inj (ha rfl)
      simp [checkIdentity, hu]
  unfold loadLedger
  rw [h.observe hc]
  simp only [bind_ok_eq, ledgerState, regularState, ne_eq, not_true_eq_false, or_self, if_false,
    h.stored, h.project, h.workspace, hid _ _ _ _ hp h.project, hid _ _ _ _ hw h.workspace]
  rw [forM_ok]
  · rfl
  · intro e he
    obtain ⟨hd, hc⟩ := h.entries e he
    simp only [hd, bind_ok_eq, hc]

variable (host) in
/-- Storing from the ledger on disk puts the new one there. -/
theorem store (h : LedgerShows ledger s) (hc : s.Clear localDir) (hd : s.realDir localDir)
    (ledger' : ReplayLedger) :
    Triple (· = s) (storeLedger host (ledgerState host ledger) ledger')
      (Returns fun _ t => t.get = Function.update s.get replayPath
        (some (.file (.replayLedger ledger') 0o600)))
      (DirTree.Replacing s casPrefix replayPath (some (.file (.replayLedger ledger') 0o600))) := by
  have hne : replayPath ≠ [] := by simp [replayPath]
  have htmp : ¬ DirTree.IsTemp casPrefix (parent replayPath) replayPath := by
    rintro ⟨x, -, -, hx⟩
    have hx' : replayPath = localDir ++ [casPrefix ++ x] := hx
    have := congrArg (fun p => (name p).toList.head?) hx'
    simp [replayPath, name, casPrefix] at this
  have hobs : describe host replayPath none (s.get replayPath) = .ok (ledgerState host ledger) := by
    rw [h.stored]
    rfl
  have hcas := @compareAndSwap_spec host s (ledgerState host ledger) _ _ _
    (.regular replayPath (.replayLedger ledger') 0o600 none) rfl hne htmp hc (fun _ => hd) hobs
    (by simp [ledgerState, regularState])
  exact Triple.mapError _ (hcas.ignore fun _ t h => h.2)

end LedgerShows

theorem loadLedger_ok (h : Shows host L v s) {projectId workspaceId : Option String}
    (hp : projectId.isSome → projectId = some v.ledger.projectId)
    (hw : workspaceId.isSome → workspaceId = some v.ledger.workspaceInstanceId) :
    loadLedger host projectId workspaceId s = .ok (v.ledger, ledgerState host v.ledger) :=
  h.ledger.load h.skeleton.reaches_locals.clear hp hw

theorem storeLedger_spec (h : Shows host L v s) {ledger : ReplayLedger}
    (hp : replayUuid ledger.projectId "project_id" = .ok ())
    (hw : replayUuid ledger.workspaceInstanceId "workspace_instance_id" = .ok ())
    (he : ∀ e ∈ ledger.entries, replayDigest e.1 "proof_key" = .ok () ∧
      checkEntry e.1 e.2 = .ok ()) :
    Triple (· = s) (storeLedger host (ledgerState host v.ledger) ledger)
      (Returns fun _ => Shows host L { v with ledger := ledger })
      fun c => Shows host L v c ∨ Shows host L { v with ledger := ledger } c := by
  have hdone : ∀ c, c.get = Function.update s.get replayPath
      (some (.file (.replayLedger ledger) 0o600)) →
      Shows host L { v with ledger := ledger } c := by
    intro c hg
    refine h.ledger_step (fun q hq => ?_) ⟨by rw [hg, Function.update_self], hp, hw, he⟩
    rw [hg, Function.update_of_ne]
    rintro rfl
    exact hq Layout.region_replay
  have hstore : Triple _ (storeLedger host (ledgerState host v.ledger) ledger) _ _ :=
    h.ledger.store host h.skeleton.reaches_locals.clear h.skeleton.locals ledger
  refine (hstore.crash fun c hc => ?_).post fun _ t ⟨a, ho, ht⟩ => ⟨a, ho, hdone t ht⟩
  cases hc with
  | temp hT habs hneq hg =>
    refine .inl (h.ledger_step (fun q hq => ?_) (h.ledger.congr ?_))
    · obtain ⟨x, -, -, rfl⟩ := hT
      rw [hg, Function.update_of_ne]
      rintro rfl
      exact hq (Layout.region_local_temp (Layout.reserved_append x))
    · rw [hg, Function.update_of_ne]
      exact hneq.symm
  | done hg => exact .inr (hdone c hg)

/-- The entry an admission reserves its proof with. -/
def AdmissionHeader.reservation (header : AdmissionHeader) (transactionId : String) :
    ReplayEntry :=
  ⟨transactionId, .reserved, header.proof.validatedAt, header.proof.proofExpiresAt, none⟩

/-- The entry a finished admission leaves. -/
def AdmissionHeader.tombstone (header : AdmissionHeader) (transactionId : String) : ReplayEntry :=
  { header.reservation transactionId with
    state := .consumed
    consumedAt := some header.admittedAt }

/-- The proof of an admission: a well-formed binding under its own key. -/
structure AdmissionHeader.ProofValid (host : Host) (header : AdmissionHeader) : Prop where
  approvalId : replayUuid header.proof.approvalId "approval_id" = .ok ()
  challenge : replayDigest header.proof.approvalChallenge "approval_challenge" = .ok ()
  route : replayDigest header.proof.routeDecisionDigest "route_decision_digest" = .ok ()
  workspace : replayUuid header.workspaceInstanceId "workspace_instance_id" = .ok ()
  key : header.proof.proofKey = host.sha256 (.proofKey header.proof.approvalId
    header.proof.approvalChallenge header.proof.routeDecisionDigest header.workspaceInstanceId)
  window : header.proof.validatedAt ≤ header.proof.proofExpiresAt

/-- The ledger of the header's own project and workspace. -/
def View.Registered (v : View) (header : AdmissionHeader) : Prop :=
  v.ledger.projectId = header.projectId ∧
    v.ledger.workspaceInstanceId = header.workspaceInstanceId

def View.entry (v : View) (key : String) : Option ReplayEntry := v.ledger.entries.lookup key

def View.withEntry (v : View) (key : String) (e : ReplayEntry) : View :=
  { v with ledger := { v.ledger with entries := putEntry v.ledger.entries key e } }

@[simp] theorem View.entry_withEntry (v : View) (key : String) (e : ReplayEntry) :
    (v.withEntry key e).entry key = some e := by
  simp [View.entry, View.withEntry, lookup_putEntry]

variable {header : AdmissionHeader}

private theorem replayUuid_of_checked {x field : String} (h : checkTransactionId x = .ok ()) :
    replayUuid x field = .ok () := by
  unfold checkTransactionId at h
  unfold replayUuid
  cases hp : parseUuid x with
  | none => rw [hp] at h; cases h
  | some y =>
    rw [hp] at h
    by_cases hy : y = x
    · simp [hy]
    · simp [hy] at h

private theorem replayDigest_key (hp : header.ProofValid host) :
    replayDigest header.proof.proofKey "proof_key" = .ok () := by
  rw [hp.key, replayDigest, if_pos (host.sha256_isDigest _)]

private theorem storeEntry_spec (h : Shows host L v s) (hp : header.ProofValid host)
    {e : ReplayEntry} (he : checkEntry header.proof.proofKey e = .ok ()) :
    Triple (· = s) (storeLedger host (ledgerState host v.ledger)
        { v.ledger with entries := putEntry v.ledger.entries header.proof.proofKey e })
      (Returns fun _ => Shows host L (v.withEntry header.proof.proofKey e))
      fun c => Shows host L v c ∨ Shows host L (v.withEntry header.proof.proofKey e) c := by
  refine storeLedger_spec h h.ledger.project h.ledger.workspace fun x hx => ?_
  rcases mem_putEntry hx with hx | rfl
  · exact h.ledger.entries x hx
  · exact ⟨replayDigest_key hp, he⟩

private theorem reserveProof_run (h : Shows host L v s) (hp : header.ProofValid host)
    (hr : v.Registered header) (recovery : Bool) :
    (reserveProof host (reservationOf L.transactionId header recovery)).run s =
      (reserveEntry host (reservationOf L.transactionId header recovery) header.proof.proofKey
        v.ledger (ledgerState host v.ledger)).run s := by
  have hkey : proofKey host header.proof.approvalId header.proof.approvalChallenge
      header.proof.routeDecisionDigest header.workspaceInstanceId =
      .ok header.proof.proofKey := by
    simp only [proofKey, hp.approvalId, hp.challenge, hp.route, hp.workspace, bind_ok_eq, hp.key]
    rfl
  have hload := @loadLedger_ok _ _ _ _ h (some header.projectId) (some header.workspaceInstanceId)
    (fun _ => by rw [hr.1]) (fun _ => by rw [hr.2])
  unfold reserveProof reservationOf
  rw [Program.bind_of_pure (by rw [Program.lift_run, replayUuid_of_checked h.journals.checked]),
    if_neg (not_lt.mpr hp.window), Program.bind_of_pure (by rw [Program.lift_run, hkey]),
    Program.bind_of_pure (by rw [Program.inspect_run, hload])]

theorem reserve_new (h : Shows host L v s) (hp : header.ProofValid host)
    (hr : v.Registered header) {recovery : Bool} (hnew : v.entry header.proof.proofKey = none)
    (hfresh : recovery = true ∨ header.proof.validatedAt ≤ header.admittedAt ∧
      header.admittedAt ≤ header.proof.proofExpiresAt) :
    Triple (· = s) (reserveFromHeader host L.transactionId header recovery)
      (Returns fun _ => Shows host L
        (v.withEntry header.proof.proofKey (header.reservation L.transactionId)))
      fun c => Shows host L v c ∨ Shows host L
        (v.withEntry header.proof.proofKey (header.reservation L.transactionId)) c := by
  have hentry : checkEntry header.proof.proofKey (header.reservation L.transactionId) = .ok () := by
    have hu := @replayUuid_of_checked _ "bound_transaction_id" h.journals.checked
    simp [checkEntry, AdmissionHeader.reservation, hu, not_lt.mpr hp.window]
  have hstore := storeEntry_spec h hp hentry
  set r := reservationOf L.transactionId header recovery with hrdef
  have hpass : ¬ ((!r.recovery) = true ∧ (r.now < r.validatedAt ∨ r.proofExpiresAt < r.now)) := by
    rintro ⟨hrec, hout⟩
    rcases hfresh with rfl | ⟨h1, h2⟩
    · simp [hrdef, reservationOf] at hrec
    · rcases hout with hout | hout
      · exact absurd hout (not_lt.mpr h1)
      · exact absurd hout (not_lt.mpr h2)
  have hmain : Triple (· = s) (reserveEntry host r header.proof.proofKey v.ledger
      (ledgerState host v.ledger))
      (Returns fun _ => Shows host L
        (v.withEntry header.proof.proofKey (header.reservation L.transactionId)))
      fun c => Shows host L v c ∨ Shows host L
        (v.withEntry header.proof.proofKey (header.reservation L.transactionId)) c := by
    have hl : v.ledger.entries.lookup header.proof.proofKey = none := hnew
    unfold reserveEntry
    rw [hl]
    simp only [if_neg hpass]
    exact hstore.bind_returns fun _ => Triple.of_forall fun t ht => Triple.returns ht
  unfold reserveFromHeader
  refine Triple.ignore (R := fun _ => Shows host L
    (v.withEntry header.proof.proofKey (header.reservation L.transactionId))) ?_ fun _ _ h => h
  rintro s rfl
  unfold Program.out Program.final
  rw [reserveProof_run h hp hr recovery]
  exact hmain s rfl

theorem reserve_again (h : Shows host L v s) (hp : header.ProofValid host)
    (hr : v.Registered header) {recovery : Bool}
    (he : v.entry header.proof.proofKey = some (header.reservation L.transactionId)) :
    (reserveFromHeader host L.transactionId header recovery).run s = ⟨[], .ok ()⟩ := by
  have hl : v.ledger.entries.lookup header.proof.proofKey =
    some (header.reservation L.transactionId) := he
  have hrun : (reserveProof host (reservationOf L.transactionId header recovery)).run s =
      ⟨[], .ok (header.reservation L.transactionId)⟩ := by
    rw [reserveProof_run h hp hr, reserveEntry, hl]
    simp [reservationOf, Reservation.entry, AdmissionHeader.reservation]
  rw [reserveFromHeader, Program.bind_of_pure hrun]
  rfl

/-- A proof that is not reserved by this very admission cannot be reserved again. -/
theorem reserve_blocked (h : Shows host L v s) (hp : header.ProofValid host)
    (hr : v.Registered header) {recovery : Bool} {e : ReplayEntry}
    (he : v.entry header.proof.proofKey = some e)
    (hne : e ≠ header.reservation L.transactionId) :
    ∃ err, (reserveFromHeader host L.transactionId header recovery).run s = ⟨[], .error err⟩ := by
  have hl : v.ledger.entries.lookup header.proof.proofKey = some e := he
  have hne' : e ≠ (reservationOf L.transactionId header recovery).entry := hne
  refine ⟨replayFailure "approval proof is rebound or already consumed"
    [("proof_key", header.proof.proofKey)], ?_⟩
  rw [reserveFromHeader]
  refine Program.bind_of_error ?_
  rw [reserveProof_run h hp hr, reserveEntry, hl]
  simp only [if_pos hne']
  rfl

theorem consume_reserved (h : Shows host L v s) (hp : header.ProofValid host)
    (he : v.entry header.proof.proofKey = some (header.reservation L.transactionId)) :
    Triple (· = s) (consumeFromHeader host L.transactionId header)
      (Returns fun _ => Shows host L
        (v.withEntry header.proof.proofKey (header.tombstone L.transactionId)))
      fun c => Shows host L v c ∨ Shows host L
        (v.withEntry header.proof.proofKey (header.tombstone L.transactionId)) c := by
  have hentry : checkEntry header.proof.proofKey (header.tombstone L.transactionId) = .ok () := by
    have hu := @replayUuid_of_checked _ "bound_transaction_id" h.journals.checked
    simp [checkEntry, AdmissionHeader.tombstone, AdmissionHeader.reservation, hu,
      not_lt.mpr hp.window]
  have hload := @loadLedger_ok _ _ _ _ h none none (by simp) (by simp)
  have hl : v.ledger.entries.lookup header.proof.proofKey =
    some (header.reservation L.transactionId) := he
  unfold consumeFromHeader consumeProof
  refine Triple.ignore (R := fun _ => Shows host L
    (v.withEntry header.proof.proofKey (header.tombstone L.transactionId))) ?_ fun _ _ h => h
  refine Triple.bind_run (by rw [Program.lift_run, replayDigest_key hp]) ?_
  refine Triple.bind_run (by rw [Program.lift_run, replayUuid_of_checked h.journals.checked]) ?_
  refine Triple.bind_run (by rw [Program.inspect_run, hload]) ?_
  simp only [consumeEntry, hl, AdmissionHeader.reservation, ne_eq, not_true_eq_false, if_false,
    reduceCtorEq]
  exact (storeEntry_spec h hp hentry).bind_returns fun _ =>
    Triple.of_forall fun t ht => Triple.returns ht

/-- A proof that was never reserved cannot be consumed. -/
theorem consume_missing (h : Shows host L v s) (hp : header.ProofValid host)
    (he : v.entry header.proof.proofKey = none) :
    ∃ err, (consumeFromHeader host L.transactionId header).run s = ⟨[], .error err⟩ := by
  have hload := @loadLedger_ok _ _ _ _ h none none (by simp) (by simp)
  have hl : v.ledger.entries.lookup header.proof.proofKey = none := he
  refine ⟨replayFailure "approval proof has no reserved state"
    [("proof_key", header.proof.proofKey)], ?_⟩
  unfold consumeFromHeader consumeProof
  refine Program.bind_of_error ?_
  rw [Program.bind_of_pure (by rw [Program.lift_run, replayDigest_key hp]),
    Program.bind_of_pure (by rw [Program.lift_run, replayUuid_of_checked h.journals.checked]),
    Program.bind_of_pure (by rw [Program.inspect_run, hload])]
  simp only [consumeEntry, hl]
  rfl

theorem consume_again (h : Shows host L v s) (hp : header.ProofValid host)
    (he : v.entry header.proof.proofKey = some (header.tombstone L.transactionId)) :
    (consumeFromHeader host L.transactionId header).run s = ⟨[], .ok ()⟩ := by
  have hload := @loadLedger_ok _ _ _ _ h none none (by simp) (by simp)
  have hl : v.ledger.entries.lookup header.proof.proofKey =
    some (header.tombstone L.transactionId) := he
  unfold consumeFromHeader consumeProof
  refine Program.bind_of_pure (a := header.tombstone L.transactionId) ?_
  rw [Program.bind_of_pure (by rw [Program.lift_run, replayDigest_key hp]),
    Program.bind_of_pure (by rw [Program.lift_run, replayUuid_of_checked h.journals.checked]),
    Program.bind_of_pure (by rw [Program.inspect_run, hload])]
  simp [consumeEntry, hl, AdmissionHeader.tombstone, AdmissionHeader.reservation]

end Ledger
end AgentStack.Runtime
