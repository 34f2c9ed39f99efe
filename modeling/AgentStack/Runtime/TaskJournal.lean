import Mathlib.Data.List.Sort
import AgentStack.FileTree.Directories
import AgentStack.Host

/-! Task-transaction journals: closed storage and forward-only phases. -/
namespace AgentStack.Runtime

open AgentStack.Core FileTree Crash JsonText

def journalFailure (message : String) (details : List (String × String)) : Failure :=
  ⟨.runtime, "AWP_TASK_TRANSACTION_RECOVERY_REQUIRED", message, details⟩

/-- The position of a phase among those of its operation. -/
def phaseOrder : Operation → Phase → Option Nat
  | _, .planned => some 0
  | .admission, .staged => some 1
  | .admission, .taskMoved => some 2
  | .admission, .metadataApplied => some 3
  | .admission, .admissionCommitted => some 4
  | .admission, .cleanupPending => some 5
  | .admission, .complete => some 6
  | .archive, .stateMarked => some 1
  | .archive, .taskMoved => some 2
  | .archive, .metadataApplied => some 3
  | .archive, .archiveCommitted => some 4
  | .archive, .cleanupPending => some 5
  | .archive, .complete => some 6
  | .claim, .integrationCommitted => some 1
  | .claim, .cleanupPending => some 2
  | .claim, .complete => some 3
  | .transition, .integrationCommitted => some 1
  | .transition, .cleanupPending => some 2
  | .transition, .complete => some 3
  | .release, .integrationCommitted => some 1
  | .release, .cleanupPending => some 2
  | .release, .complete => some 3
  | _, _ => none

def journalRoot : Path := [".agent-workflow", "task-transactions"]

def journalName (transactionId : String) : String := transactionId ++ ".json"

def checkTransactionId (transactionId : String) : Except Failure Unit :=
  match parseUuid transactionId with
  | none => .error (journalFailure "task transaction ID is invalid" [])
  | some canonical =>
    if canonical = transactionId then .ok ()
    else .error (journalFailure "task transaction ID is not canonical" [])

def journalFile (transactionId : String) : Path := journalRoot ++ [journalName transactionId]

def journalPath (transactionId : String) : Except Failure Path := do
  checkTransactionId transactionId
  return journalFile transactionId

/-- `mkstemp` prefix of a file being rewritten. -/
def rewritePrefix (p : Path) : String := "." ++ name p ++ "."

def atomicJson (host : Host) (path : Path) (document : TaskJournal) : Prog Unit := do
  DirTree.mkdirs host.dirMode (parent path)
  let linked ← Program.read fun s => s.isSymlink (parent path)
  if linked then Program.throw (journalFailure "task transaction root is a symlink" [])
  else DirTree.replaceFile host.names (rewritePrefix path) path (.taskJournal document) 0o600 (pure ())

def validateJournal (host : Host) (document : TaskJournal) (expected : Option String) :
    Except Failure Unit := do
  checkTransactionId document.transactionId
  if expected.isSome ∧ expected ≠ some document.transactionId then
    .error (journalFailure "task journal path identity differs" [])
  else if (phaseOrder document.operation document.phase).isNone then
    .error (journalFailure "task journal phase is invalid" [])
  else if document.journalBindingDigest ≠ host.sha256 (.taskTransaction document.immutableHeader)
  then .error (journalFailure "task journal immutable binding changed" [])
  else if document.taskId ≠ document.immutableHeader.taskId ∨
      document.taskRef ≠ document.immutableHeader.taskRef then
    .error (journalFailure "task journal identity differs from immutable header" [])
  else if document.phase = .complete ∧ document.outcome.isNone then
    .error (journalFailure "complete task journal has no outcome" [])
  else .ok ()

/-- The planned journal, written before any task, replay or metadata mutation. -/
def createTaskJournal (host : Host) (transactionId : String) (operation : Operation)
    (taskId taskRef : String) (header : Header) : Prog TaskJournal := do
  let path ← Program.lift (journalPath transactionId)
  let present ← Program.read fun s => s.exists path || s.isSymlink path
  if present then
    Program.throw (journalFailure "task transaction already exists"
      [("transaction_id", transactionId)])
  else
    let document : TaskJournal :=
      ⟨transactionId, operation, taskId, taskRef, header, host.sha256 (.taskTransaction header),
        .planned, none, [], "\x7b\x7d"⟩
    Program.lift (validateJournal host document (some transactionId))
    atomicJson host path document
    return document

def readTaskJournal (host : Host) (transactionId : String) (s : FS) :
    Except Failure TaskJournal := do
  checkTransactionId transactionId
  match s.get (journalFile transactionId) with
  | some (.file (.taskJournal document) _) =>
    validateJournal host document (some transactionId)
    return document
  | some (.file _ _) => .error (journalFailure "task journal is corrupt" [])
  | _ => .error (journalFailure "task journal is missing or has invalid type" [])

/-- The journal at a later phase; transaction identity stays. -/
def TaskJournal.advanced (document : TaskJournal) (phase : Phase) (outcome : Option Outcome)
    (rollbackState : Option Json := none) : TaskJournal :=
  { document with
    phase := phase
    outcome := if outcome.isSome then outcome else document.outcome
    rollbackState := rollbackState.getD document.rollbackState }

/-- One step forward in the operation's phases. -/
def advanceTaskJournal (host : Host) (document : TaskJournal) (phase : Phase)
    (outcome : Option Outcome) (rollbackState : Option Json := none) : Prog TaskJournal := do
  Program.lift (validateJournal host document none)
  match phaseOrder document.operation phase, phaseOrder document.operation document.phase with
  | some next, some current =>
    if next < current then
      Program.throw (journalFailure "task journal phase would move backward" [])
    else
      let candidate := document.advanced phase outcome rollbackState
      Program.lift (validateJournal host candidate (some candidate.transactionId))
      let path ← Program.lift (journalPath candidate.transactionId)
      atomicJson host path candidate
      return candidate
  | _, _ => Program.throw (journalFailure "task journal phase would move backward" [])

/-- Where `pathlib` splits a file name: before the last dot, unless that is at either end. -/
def suffixIndex (n : String) : Option Nat :=
  let cs := charsOf n
  let extension := (cs.reverse.takeWhile (· ≠ '.')).length
  let index := cs.length - extension - 1
  if extension = 0 ∨ extension = cs.length ∨ index = 0 then none else some index

def suffix (n : String) : String :=
  match suffixIndex n with
  | some i => String.ofList ((charsOf n).drop i)
  | none => ""

def stem (n : String) : String :=
  match suffixIndex n with
  | some i => String.ofList ((charsOf n).take i)
  | none => n

/-- The names in a directory, sorted. -/
def listing (s : FS) (d : Path) : List String := (s.children d).insertionSort (· ≤ ·)

def readJournals (host : Host) (s : FS) : List String → Except Failure (List TaskJournal)
  | [] => .ok []
  | n :: rest =>
    if suffix n ≠ ".json" then
      .error (journalFailure "task transaction root contains an unknown entry" [])
    else do
      let journal ← readTaskJournal host (stem n) s
      let journals ← readJournals host s rest
      return if journal.phase ≠ .complete then journal :: journals else journals

def unfinishedTaskJournals (host : Host) (s : FS) : Except Failure (List TaskJournal) :=
  if !s.exists journalRoot then .ok []
  else if s.isSymlink journalRoot || !s.isDir journalRoot then
    .error (journalFailure "task transaction root has invalid type" [])
  else readJournals host s (listing s journalRoot)

/-- `pathlib` reads a journal's name back. -/
theorem suffixIndex_journalName {transactionId : String} (h : transactionId.toList ≠ []) :
    suffixIndex (journalName transactionId) = some transactionId.toList.length := by
  have hlen : transactionId.toList.length ≠ 0 := fun h' => h (List.length_eq_zero_iff.mp h')
  have hchars : (journalName transactionId).toList = transactionId.toList ++ ".json".toList := by
    simp [journalName]
  have htake : ((journalName transactionId).toList.reverse.takeWhile (· ≠ '.')).length = 4 := by
    rw [hchars, List.reverse_append]
    simp
  have htotal : (journalName transactionId).toList.length = transactionId.toList.length + 5 := by
    rw [hchars]
    simp
  unfold suffixIndex
  simp only [charsOf_eq, htake, htotal]
  rw [if_neg (by omega)]
  congr 1

theorem suffix_journalName {transactionId : String} (h : transactionId.toList ≠ []) :
    suffix (journalName transactionId) = ".json" := by
  rw [suffix, suffixIndex_journalName h]
  simp [journalName]

theorem stem_journalName {transactionId : String} (h : transactionId.toList ≠ []) :
    stem (journalName transactionId) = transactionId := by
  rw [stem, suffixIndex_journalName h]
  simp [journalName]

/-- A suffix `.json` leaves the journal name of the stem. -/
theorem journalName_stem {n : String} (h : suffix n = ".json") : journalName (stem n) = n := by
  unfold suffix at h
  unfold stem journalName
  cases hi : suffixIndex n with
  | none =>
    rw [hi] at h
    simp at h
  | some i =>
    rw [hi] at h
    rw [← h, ← String.ofList_append, List.take_append_drop, charsOf_eq, String.ofList_toList]

theorem suffix_json_extension {n : String} (h : suffix n = ".json") :
    (n.toList.reverse.takeWhile (· ≠ '.')).length = 4 := by
  unfold suffix at h
  cases hi : suffixIndex n with
  | none =>
    rw [hi] at h
    simp at h
  | some i =>
    rw [hi] at h
    have hlen : (n.toList.drop i).length = 5 := by
      have := congrArg (fun x => x.toList.length) h
      simpa using this
    simp only [suffixIndex, charsOf_eq] at hi
    split_ifs at hi with hc
    have hi' := Option.some.inj hi
    rw [List.length_drop] at hlen
    push Not at hc
    omega

/-- A temporary name is no journal's. -/
theorem suffix_temp {pre x : String} (hx : 8 ≤ x.length) (hdot : '.' ∉ x.toList) :
    suffix (pre ++ x) ≠ ".json" := by
  intro h
  have h4 := suffix_json_extension h
  rw [String.toList_append, List.reverse_append, List.takeWhile_append_of_pos] at h4
  · rw [List.length_append, List.length_reverse, String.length_toList] at h4
    omega
  · intro a ha
    simp only [List.mem_reverse] at ha
    simp only [ne_eq, decide_not, Bool.not_eq_eq_eq_not, Bool.not_true, decide_eq_false_iff_not]
    rintro rfl
    exact hdot ha

theorem checkTransactionId_ne_nil {transactionId : String}
    (h : checkTransactionId transactionId = .ok ()) : transactionId.toList ≠ [] := by
  intro hn
  rw [← String.ofList_toList (s := transactionId), hn] at h
  exact absurd h (by decide)

theorem checkTransactionId_of_valid {host : Host} {journal : TaskJournal} {expected : Option String}
    (h : validateJournal host journal expected = .ok ()) :
    checkTransactionId journal.transactionId = .ok () := by
  obtain ⟨_, hc, -⟩ := bind_eq_ok h
  exact hc

/-- Everything a stored journal was checked for. -/
theorem validateJournal_ok {host : Host} {journal : TaskJournal} {expected : Option String} :
    validateJournal host journal expected = .ok () ↔
      checkTransactionId journal.transactionId = .ok () ∧
        (expected.isSome → expected = some journal.transactionId) ∧
        (phaseOrder journal.operation journal.phase).isSome ∧
        journal.journalBindingDigest = host.sha256 (.taskTransaction journal.immutableHeader) ∧
        journal.taskId = journal.immutableHeader.taskId ∧
        journal.taskRef = journal.immutableHeader.taskRef ∧
        (journal.phase = .complete → journal.outcome.isSome) := by
  unfold validateJournal
  cases checkTransactionId journal.transactionId with
  | error e => simp
  | ok u =>
    simp only [bind_ok_eq, Option.isNone_iff_eq_none, Option.isSome_iff_ne_none]
    split_ifs <;> grind

end AgentStack.Runtime
