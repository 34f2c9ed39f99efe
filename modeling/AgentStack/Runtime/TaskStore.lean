import AgentStack.Runtime.TaskService

/-! The task store as its parts: which paths belong to which part, and what each part shows.
A step of a transaction writes one part; the others are read back unchanged. -/
namespace AgentStack.Runtime

open AgentStack.Core FileTree Crash Reconcile

variable {host : Host}

def localDir : Path := [".agent-workflow", "local"]

/-- A name `compare_and_swap` keeps for its temporary files. -/
def Reserved (n : String) : Prop := casPrefix.toList <+: n.toList

instance (n : String) : Decidable (Reserved n) := by unfold Reserved; infer_instance

/-- A path outside the control directory, without reserved names. -/
structure ProjectPath (p : Path) : Prop where
  ne_nil : p ≠ []
  not_control : p.head? ≠ some ".agent-workflow"
  not_reserved : ∀ n ∈ p, ¬ Reserved n

/-- The paths one task transaction works on: task trees and metadata files, apart from each
other and from the control directory. -/
structure Layout where
  transactionId : String
  taskRef : String
  places : List Path
  project : ∀ p ∈ places, ProjectPath p
  apart : ∀ p ∈ places, ∀ q ∈ places, p ≠ q → ¬ p <+: q

inductive Region
  | journals
  | ledger
  | staging
  | outbox
  | control
  | place (p : Path)
  | litter
  | project
  deriving DecidableEq

def Layout.region (L : Layout) (q : Path) : Region :=
  if q.head? = some ".agent-workflow" then
    if journalRoot <+: q ∧ q ≠ journalRoot then .journals
    else if parent q = localDir ∧ (q = replayPath ∨ Reserved (name q)) then .ledger
    else if stagingRoot L.transactionId <+: q then .staging
    else if outboxRoot <+: q ∧ q ≠ outboxRoot then .outbox
    else .control
  else match L.places.find? (· <+: q) with
    | some p => .place p
    | none => if q ≠ [] ∧ Reserved (name q) then .litter else .project

/-- `c` differs from `s` in one part only. -/
def Layout.SameOff (L : Layout) (X : Region) (s c : FS) : Prop :=
  ∀ q, L.region q ≠ X → c.get q = s.get q

/-- What a transaction sees of the store. -/
structure View where
  journal : TaskJournal
  /-- Something other than a journal lies in the journal directory. -/
  residue : Bool
  ledger : ReplayLedger
  staging : Path → Option (Node Content)
  outbox : String → Option (Node Content)
  place : Path → Path → Option (Node Content)
  /-- Places whose parent directory is known to stand. -/
  reached : Path → Prop

/-- Locks taken before are there to be taken again, and no maintenance is on. -/
structure Skeleton (host : Host) (L : Layout) (s : FS) : Prop where
  root : s.realDir []
  control : s.realDir controlDir
  gate : ∃ c m, s.get (controlDir ++ ["runtime-state.lock"]) = some (.file c m)
  locals : s.realDir localDir
  locks : s.realDir (localDir ++ ["task-locks"])
  lock : ∃ c m, s.get (taskLockPath host L.taskRef) = some (.file c m)
  maintenance : s.get maintenancePath = none
  journals : s.realDir journalRoot
  staging : s.get (localDir ++ ["task-staging"]) = none ∨
    s.realDir (localDir ++ ["task-staging"])
  outbox : s.get outboxRoot = none ∨ s.realDir outboxRoot
  clear : ∀ p ∈ L.places, s.Clear (parent p)

/-- The transaction's journal is stored; every other journal is complete. -/
structure JournalsShow (host : Host) (transactionId : String) (journal : TaskJournal)
    (residue : Bool) (s : FS) : Prop where
  stored : s.get (journalFile transactionId) = some (.file (.taskJournal journal) 0o600)
  valid : validateJournal host journal (some transactionId) = .ok ()
  others : ∀ n, (s.get (journalRoot ++ [n])).isSome → n ≠ journalName transactionId →
    (suffix n = ".json" ∧ ∃ j, readTaskJournal host (stem n) s = .ok j ∧ j.phase = .complete) ∨
      suffix n ≠ ".json" ∧ residue = true
  residue : residue = true → ∃ n, (s.get (journalRoot ++ [n])).isSome ∧ suffix n ≠ ".json"

/-- The ledger is registered and well formed. -/
structure LedgerShows (ledger : ReplayLedger) (s : FS) : Prop where
  stored : s.get replayPath = some (.file (.replayLedger ledger) 0o600)
  project : replayUuid ledger.projectId "project_id" = .ok ()
  workspace : replayUuid ledger.workspaceInstanceId "workspace_instance_id" = .ok ()
  entries : ∀ e ∈ ledger.entries,
    replayDigest e.1 "proof_key" = .ok () ∧ checkEntry e.1 e.2 = .ok ()

structure StagingShows (transactionId : String) (tree : Path → Option (Node Content)) (s : FS) :
    Prop where
  here : ∀ r, s.get (stagingRoot transactionId ++ r) = tree r
  closed : s.ClosedAt (stagingRoot transactionId)

def OutboxShows (items : String → Option (Node Content)) (s : FS) : Prop :=
  ∀ n, ¬ Reserved n → s.get (outboxRoot ++ [n]) = items n

structure PlaceShows (p : Path) (tree : Path → Option (Node Content)) (s : FS) : Prop where
  here : ∀ r, s.get (p ++ r) = tree r
  closed : s.ClosedAt p

/-- The store, as the transaction sees it. -/
structure Shows (host : Host) (L : Layout) (v : View) (s : FS) : Prop where
  skeleton : Skeleton host L s
  journals : JournalsShow host L.transactionId v.journal v.residue s
  ledger : LedgerShows v.ledger s
  staging : StagingShows L.transactionId v.staging s
  outbox : OutboxShows v.outbox s
  places : ∀ p ∈ L.places, PlaceShows p (v.place p) s
  reached : ∀ p ∈ L.places, v.reached p → s.realDir (parent p)

namespace Layout

variable {L : Layout} {s c : FS} {q : Path} {X : Region}

theorem region_journals (n : String) : L.region (journalRoot ++ [n]) = .journals := by
  simp [region, journalRoot]

theorem region_replay : L.region replayPath = .ledger := by
  simp [region, journalRoot, replayPath, localDir, parent]

theorem region_local_temp {n : String} (h : Reserved n) :
    L.region (localDir ++ [n]) = .ledger := by
  simp [region, journalRoot, localDir, parent, name, h]

theorem region_staging (r : Path) : L.region (stagingRoot L.transactionId ++ r) = .staging := by
  have hpar : parent (stagingRoot L.transactionId ++ r) ≠ localDir := by
    intro h
    have := congrArg List.length h
    simp [parent, stagingRoot, localDir] at this
  simp [region, journalRoot, hpar]
  simp [stagingRoot]

theorem region_outbox (n : String) : L.region (outboxRoot ++ [n]) = .outbox := by
  simp [region, journalRoot, outboxRoot, parent, localDir, stagingRoot]

theorem region_control (h : q ∈ [controlDir, controlDir ++ ["runtime-state.lock"], localDir,
    localDir ++ ["task-locks"], maintenancePath, journalRoot, localDir ++ ["task-staging"],
    outboxRoot]) : L.region q = .control := by
  simp only [List.mem_cons, List.not_mem_nil, or_false] at h
  rcases h with rfl | rfl | rfl | rfl | rfl | rfl | rfl | rfl <;>
    simp [region, controlDir, localDir, maintenancePath, journalRoot, outboxRoot, parent,
      stagingRoot, replayPath, name, Reserved, casPrefix]

theorem region_lock (taskRef : String) : L.region (taskLockPath host taskRef) = .control := by
  simp [region, taskLockPath, journalRoot, parent, localDir, stagingRoot, outboxRoot]

theorem head_append {p : Path} (h : ProjectPath p) (r : Path) :
    (p ++ r).head? ≠ some ".agent-workflow" := by
  obtain ⟨x, p, rfl⟩ := List.exists_cons_of_ne_nil h.ne_nil
  simpa using h.not_control

theorem region_place {p : Path} (hp : p ∈ L.places) (r : Path) :
    L.region (p ++ r) = .place p := by
  have hfind : L.places.find? (· <+: p ++ r) = some p := by
    obtain ⟨x, hx⟩ := Option.isSome_iff_exists.mp
      (List.find?_isSome.mpr ⟨p, hp, by simp⟩ :
        (L.places.find? (· <+: p ++ r)).isSome)
    have hpre : x <+: p ++ r := by simpa using List.find?_some hx
    have hmem := List.mem_of_find?_eq_some hx
    rw [hx]
    by_contra hne
    have hxp : x ≠ p := fun h => hne (by rw [h])
    rcases List.prefix_or_prefix_of_prefix hpre (List.prefix_append p r) with h | h
    · exact L.apart x hmem p hp hxp h
    · exact L.apart p hp x hmem (Ne.symm hxp) h
  rw [region, if_neg (head_append (L.project p hp) r), hfind]

theorem reserved_append (x : String) : Reserved (casPrefix ++ x) := by
  simp [Reserved]

/-- A temporary file beside a place is in no place. -/
theorem region_litter {p : Path} (hp : p ∈ L.places)
    (hq : DirTree.IsTemp casPrefix (parent p) q) : L.region q = .litter := by
  obtain ⟨x, -, -, rfl⟩ := hq
  have hproj := L.project p hp
  have hpn := parent_append_name hproj.ne_nil
  have hhead : (parent p ++ [casPrefix ++ x]).head? ≠ some ".agent-workflow" := by
    rcases hpar : parent p with _ | ⟨a, l⟩
    · intro h
      have := congrArg String.toList (Option.some.inj h)
      rw [String.toList_append] at this
      simp [casPrefix] at this
    · have := hproj.not_control
      rw [← hpn, hpar] at this
      simpa using this
  have hfind : L.places.find? (· <+: parent p ++ [casPrefix ++ x]) = none := by
    rw [List.find?_eq_none]
    intro y hy hpre
    have hpre : y <+: parent p ++ [casPrefix ++ x] := by simpa using hpre
    rcases List.prefix_concat_iff.mp (by simpa using hpre) with rfl | hle
    · exact (L.project _ hy).not_reserved _ (by simp) (reserved_append x)
    · have hyp : y <+: p := hle.trans (by rw [← hpn]; simp [parent])
      have hlen := hle.length_le
      have hne : y ≠ p := by
        rintro rfl
        have := congrArg List.length hpn
        simp at this
        omega
      exact L.apart y hy p hp hne hyp
  rw [region, if_neg hhead, hfind]
  simp [reserved_append]

theorem region_root : L.region [] = .project := by
  have hfind : L.places.find? (· <+: ([] : Path)) = none := by
    rw [List.find?_eq_none]
    intro y hy hpre
    exact (L.project y hy).ne_nil (by simpa using hpre)
  rw [region, if_neg (by simp), hfind]
  simp

/-- What leads to a place is in no place. -/
theorem region_above {p : Path} (hp : p ∈ L.places) (hq : q <+: parent p) :
    L.region q = .project := by
  have hproj := L.project p hp
  have hqp : q <+: p := hq.trans (List.dropLast_prefix p)
  have hne : q.length < p.length := by
    have h1 := hq.length_le
    have h2 := List.length_pos_iff.mpr hproj.ne_nil
    simp [parent] at h1
    omega
  have hhead : q.head? ≠ some ".agent-workflow" := by
    rcases q with _ | ⟨a, q⟩
    · simp
    · obtain ⟨r, rfl⟩ := hqp
      simpa using hproj.not_control
  have hfind : L.places.find? (· <+: q) = none := by
    rw [List.find?_eq_none]
    intro y hy hpre
    have hpre : y <+: q := by simpa using hpre
    have hyp : y ≠ p := by
      rintro rfl
      have := hpre.length_le
      omega
    exact L.apart y hy p hp hyp (hpre.trans hqp)
  rw [region, if_neg hhead, hfind]
  simp only [ite_eq_right_iff, reduceCtorEq, imp_false]
  rintro ⟨hqn, hres⟩
  refine hproj.not_reserved (name q) ?_ hres
  have hmem : name q ∈ q := by
    rw [← parent_append_name hqn]
    simp
  exact hqp.subset hmem

end Layout

section Frame

variable {L : Layout} {s c : FS} {v : View} {X : Region}

/-- The parts besides the one a transaction's own steps write to. -/
theorem Skeleton.congr (h : Skeleton host L s)
    (hs : ∀ q, L.region q = .control ∨ L.region q = .project → c.get q = s.get q) :
    Skeleton host L c := by
  have hc : ∀ q, L.region q = .control → c.get q = s.get q := fun q hq => hs q (.inl hq)
  have hreg : ∀ q ∈ [controlDir, controlDir ++ ["runtime-state.lock"], localDir,
      localDir ++ ["task-locks"], maintenancePath, journalRoot, localDir ++ ["task-staging"],
      outboxRoot], c.get q = s.get q := fun q hq => hc q (Layout.region_control hq)
  have hr : c.get [] = s.get [] := hs [] (.inr Layout.region_root)
  refine ⟨DirTree.realDir_of_get_eq hr h.root, DirTree.realDir_of_get_eq (hreg _ (by simp)) h.control,
    ?_, DirTree.realDir_of_get_eq (hreg _ (by simp)) h.locals,
    DirTree.realDir_of_get_eq (hreg _ (by simp)) h.locks, ?_, ?_,
    DirTree.realDir_of_get_eq (hreg _ (by simp)) h.journals, ?_, ?_, ?_⟩
  · rw [hreg _ (by simp)]
    exact h.gate
  · rw [hc _ (Layout.region_lock _)]
    exact h.lock
  · rw [hreg _ (by simp)]
    exact h.maintenance
  · rcases h.staging with hn | hd
    · exact .inl ((hreg _ (by simp)).trans hn)
    · exact .inr (DirTree.realDir_of_get_eq (hreg _ (by simp)) hd)
  · rcases h.outbox with hn | hd
    · exact .inl ((hreg _ (by simp)).trans hn)
    · exact .inr (DirTree.realDir_of_get_eq (hreg _ (by simp)) hd)
  · intro p hp
    refine ⟨DirTree.realDir_of_get_eq hr (h.clear p hp).1, fun q hq => ?_⟩
    have hq' := hs q (.inr (Layout.region_above hp hq))
    rcases (h.clear p hp).2 q hq with hn | hd
    · exact .inl (hq'.trans hn)
    · exact .inr (DirTree.realDir_of_get_eq hq' hd)

theorem readTaskJournal_congr {transactionId : String}
    (hs : c.get (journalFile transactionId) = s.get (journalFile transactionId)) :
    readTaskJournal host transactionId c = readTaskJournal host transactionId s := by
  simp only [readTaskJournal, hs]

theorem JournalsShow.congr {transactionId : String} {j : TaskJournal} {residue : Bool}
    (h : JournalsShow host transactionId j residue s)
    (hs : ∀ n, c.get (journalRoot ++ [n]) = s.get (journalRoot ++ [n])) :
    JournalsShow host transactionId j residue c where
  stored := (hs _).trans h.stored
  valid := h.valid
  others n hn hne := by
    rw [hs] at hn
    rcases h.others n hn hne with ⟨hsuf, j, hj, hc⟩ | hres
    · exact .inl ⟨hsuf, j, (readTaskJournal_congr (hs _)).trans hj, hc⟩
    · exact .inr hres
  residue hr := by
    obtain ⟨n, hn, hsuf⟩ := h.residue hr
    exact ⟨n, by rwa [hs], hsuf⟩

theorem LedgerShows.congr {ledger : ReplayLedger} (h : LedgerShows ledger s)
    (hs : c.get replayPath = s.get replayPath) : LedgerShows ledger c :=
  ⟨hs.trans h.stored, h.project, h.workspace, h.entries⟩

theorem StagingShows.congr {transactionId : String} {tree : Path → Option (Node Content)}
    (h : StagingShows transactionId tree s)
    (hs : ∀ r, c.get (stagingRoot transactionId ++ r) = s.get (stagingRoot transactionId ++ r)) :
    StagingShows transactionId tree c :=
  ⟨fun r => (hs r).trans (h.here r), h.closed.congr hs⟩

theorem OutboxShows.congr {items : String → Option (Node Content)} (h : OutboxShows items s)
    (hs : ∀ n, c.get (outboxRoot ++ [n]) = s.get (outboxRoot ++ [n])) : OutboxShows items c :=
  fun n hn => (hs n).trans (h n hn)

theorem PlaceShows.congr {p : Path} {tree : Path → Option (Node Content)}
    (h : PlaceShows p tree s) (hs : ∀ r, c.get (p ++ r) = s.get (p ++ r)) :
    PlaceShows p tree c :=
  ⟨fun r => (hs r).trans (h.here r), h.closed.congr hs⟩

/-- The parts a step that writes two of them leaves as they were. -/
theorem Shows.off₂ (h : Shows host L v s) {Y : Region}
    (hs : ∀ q, L.region q ≠ X → L.region q ≠ Y → c.get q = s.get q)
    (hX : X ≠ .control ∧ X ≠ .project) (hY : Y ≠ .control ∧ Y ≠ .project) :
    Skeleton host L c ∧
      (X ≠ .journals → Y ≠ .journals → JournalsShow host L.transactionId v.journal v.residue c) ∧
      (X ≠ .ledger → Y ≠ .ledger → LedgerShows v.ledger c) ∧
      (X ≠ .staging → Y ≠ .staging → StagingShows L.transactionId v.staging c) ∧
      (X ≠ .outbox → Y ≠ .outbox → OutboxShows v.outbox c) ∧
      (∀ p ∈ L.places, X ≠ .place p → Y ≠ .place p → PlaceShows p (v.place p) c) ∧
      ∀ p ∈ L.places, v.reached p → c.realDir (parent p) := by
  refine ⟨h.skeleton.congr fun q hq => ?_, fun h1 h2 => h.journals.congr fun n => hs _ ?_ ?_,
    fun h1 h2 => h.ledger.congr (hs _ ?_ ?_), fun h1 h2 => h.staging.congr fun r => hs _ ?_ ?_,
    fun h1 h2 => h.outbox.congr fun n => hs _ ?_ ?_,
    fun p hp h1 h2 => (h.places p hp).congr fun r => hs _ ?_ ?_,
    fun p hm hr => DirTree.realDir_of_get_eq (hs _ ?_ ?_) (h.reached p hm hr)⟩
  · rcases hq with hq | hq
    · exact hs q (hq ▸ hX.1.symm) (hq ▸ hY.1.symm)
    · exact hs q (hq ▸ hX.2.symm) (hq ▸ hY.2.symm)
  · exact Layout.region_journals (L := L) n ▸ h1.symm
  · exact Layout.region_journals (L := L) n ▸ h2.symm
  · exact Layout.region_replay (L := L) ▸ h1.symm
  · exact Layout.region_replay (L := L) ▸ h2.symm
  · exact Layout.region_staging (L := L) r ▸ h1.symm
  · exact Layout.region_staging (L := L) r ▸ h2.symm
  · exact Layout.region_outbox (L := L) n ▸ h1.symm
  · exact Layout.region_outbox (L := L) n ▸ h2.symm
  · exact Layout.region_place hp r ▸ h1.symm
  · exact Layout.region_place hp r ▸ h2.symm
  · exact Layout.region_above hm List.prefix_rfl ▸ hX.2.symm
  · exact Layout.region_above hm List.prefix_rfl ▸ hY.2.symm

/-- The parts a step off them leaves as they were. -/
theorem Shows.off (h : Shows host L v s) (hs : L.SameOff X s c) (hc : X ≠ .control)
    (hp : X ≠ .project) :
    Skeleton host L c ∧
      (X ≠ .journals → JournalsShow host L.transactionId v.journal v.residue c) ∧
      (X ≠ .ledger → LedgerShows v.ledger c) ∧
      (X ≠ .staging → StagingShows L.transactionId v.staging c) ∧
      (X ≠ .outbox → OutboxShows v.outbox c) ∧
      (∀ p ∈ L.places, X ≠ .place p → PlaceShows p (v.place p) c) ∧
      ∀ p ∈ L.places, v.reached p → c.realDir (parent p) := by
  obtain ⟨hsk, hj, hl, hst, ho, hpl, hre⟩ :=
    h.off₂ (fun q hq _ => hs q hq) ⟨hc, hp⟩ ⟨hc, hp⟩
  exact ⟨hsk, fun h => hj h h, fun h => hl h h, fun h => hst h h, fun h => ho h h,
    fun p hm h => hpl p hm h h, hre⟩

/-- What is written to the journal directory shows in the journals alone. -/
theorem Shows.journals_step (h : Shows host L v s) (hs : L.SameOff .journals s c)
    {j : TaskJournal} {residue : Bool} (hj : JournalsShow host L.transactionId j residue c) :
    Shows host L { v with journal := j, residue := residue } c := by
  obtain ⟨hsk, -, hl, hst, ho, hp, hre⟩ := h.off hs (by simp) (by simp)
  exact ⟨hsk, hj, hl (by simp), hst (by simp), ho (by simp), fun p hm => hp p hm (by simp), hre⟩

theorem Shows.ledger_step (h : Shows host L v s) (hs : L.SameOff .ledger s c)
    {ledger : ReplayLedger} (hl : LedgerShows ledger c) :
    Shows host L { v with ledger := ledger } c := by
  obtain ⟨hsk, hj, -, hst, ho, hp, hre⟩ := h.off hs (by simp) (by simp)
  exact ⟨hsk, hj (by simp), hl, hst (by simp), ho (by simp), fun p hm => hp p hm (by simp), hre⟩

theorem Shows.staging_step (h : Shows host L v s) (hs : L.SameOff .staging s c)
    {tree : Path → Option (Node Content)} (ht : StagingShows L.transactionId tree c) :
    Shows host L { v with staging := tree } c := by
  obtain ⟨hsk, hj, hl, -, ho, hp, hre⟩ := h.off hs (by simp) (by simp)
  exact ⟨hsk, hj (by simp), hl (by simp), ht, ho (by simp), fun p hm => hp p hm (by simp), hre⟩

theorem Shows.outbox_step (h : Shows host L v s) (hs : L.SameOff .outbox s c)
    {items : String → Option (Node Content)} (ho : OutboxShows items c) :
    Shows host L { v with outbox := items } c := by
  obtain ⟨hsk, hj, hl, hst, -, hp, hre⟩ := h.off hs (by simp) (by simp)
  exact ⟨hsk, hj (by simp), hl (by simp), hst (by simp), ho, fun p hm => hp p hm (by simp), hre⟩

theorem Shows.place_step (h : Shows host L v s) {p : Path} (hs : L.SameOff (.place p) s c)
    {tree : Path → Option (Node Content)} (ht : PlaceShows p tree c) :
    Shows host L { v with place := Function.update v.place p tree } c := by
  obtain ⟨hsk, hj, hl, hst, ho, hp, hre⟩ := h.off hs (by simp) (by simp)
  refine ⟨hsk, hj (by simp), hl (by simp), hst (by simp), ho (by simp), fun q hq => ?_, hre⟩
  change PlaceShows q (Function.update v.place p tree q) c
  by_cases hqp : q = p
  · subst hqp
    rwa [Function.update_self]
  · rw [Function.update_of_ne hqp]
    exact hp q hq (by simpa using Ne.symm hqp)

/-- A temporary file beside a place does not show. -/
theorem Shows.litter_step (h : Shows host L v s) (hs : L.SameOff .litter s c) :
    Shows host L v c := by
  obtain ⟨hsk, hj, hl, hst, ho, hp, hre⟩ := h.off hs (by simp) (by simp)
  exact ⟨hsk, hj (by simp), hl (by simp), hst (by simp), ho (by simp),
    fun p hm => hp p hm (by simp), hre⟩

/-- Directories added outside the parts do not show, except in the staging area. -/
theorem Shows.extends (h : Shows host L v s) {m : FileTree.Mode} {d : Path}
    (he : s.Extends m d c) (hd : ∀ q, q <+: d → L.region q = .control ∨ L.region q = .project ∨
      L.region q = .staging) (hm : ¬ maintenancePath <+: d)
    {tree : Path → Option (Node Content)} (ht : StagingShows L.transactionId tree c) :
    Shows host L { v with staging := tree } c := by
  have hget : ∀ q, L.region q ≠ .control → L.region q ≠ .project → L.region q ≠ .staging →
      c.get q = s.get q := by
    intro q h1 h2 h3
    refine he.get_of_not_prefix fun hq => ?_
    rcases hd q hq with h | h | h
    · exact h1 h
    · exact h2 h
    · exact h3 h
  have hfile : ∀ q, (∃ x m, s.get q = some (.file x m)) → ∃ x m, c.get q = some (.file x m) := by
    rintro q ⟨x, m, hx⟩
    exact ⟨x, m, he.get_some hx⟩
  have hdir : ∀ q, s.get q = none ∨ s.realDir q → c.get q = none ∨ c.realDir q := by
    rintro q (hn | hr)
    · rcases he q with hq | ⟨-, -, hq⟩
      · exact .inl (hq.trans hn)
      · exact .inr ⟨m, hq⟩
    · exact .inr (he.realDir hr)
  refine ⟨⟨he.realDir h.skeleton.root, he.realDir h.skeleton.control, hfile _ h.skeleton.gate,
      he.realDir h.skeleton.locals, he.realDir h.skeleton.locks, hfile _ h.skeleton.lock,
      (he.get_of_not_prefix hm).trans h.skeleton.maintenance, he.realDir h.skeleton.journals,
      hdir _ h.skeleton.staging, hdir _ h.skeleton.outbox,
      fun p hp => he.clear (h.skeleton.clear p hp)⟩,
    h.journals.congr fun n => hget _ ?_ ?_ ?_, h.ledger.congr (hget _ ?_ ?_ ?_), ht,
    h.outbox.congr fun n => hget _ ?_ ?_ ?_,
    fun p hp => (h.places p hp).congr fun r => hget _ ?_ ?_ ?_,
    fun p hp hr => he.realDir (h.reached p hp hr)⟩ <;>
  simp [Layout.region_journals, Layout.region_replay, Layout.region_outbox, Layout.region_place, *]

end Frame
end AgentStack.Runtime
