import AgentStack.Core.Fields
import AgentStack.Crash.Triple

/-! The write probe of a filesystem as a recorded transaction, and its recovery. The journal is
exchanged by a rename; a probe file is created and then filled. -/
namespace AgentStack.Reconcile

open AgentStack.Core Crash FileTree JsonText JsonValue

/-! ### The probe directory -/

inductive ProbeEntry
  | file (content : Bytes)
  | other
  deriving DecidableEq, Repr

/-- What is at the path of the probe directory. -/
inductive Residue
  | absent
  | notDirectory
  | directory (entries : List (String × ProbeEntry))
  deriving DecidableEq, Repr

/-- Names that one filesystem takes for one: it keeps the name of the entry that came first. -/
structure NameRules where
  caseAliases : Bool
  unicodeAliases : Bool
  deriving DecidableEq, Repr

def composedProbe : String := "caf\u00e9-probe"

def decomposedProbe : String := "cafe\u0301-probe"

def NameRules.fold (rules : NameRules) (name : String) : String :=
  if rules.caseAliases ∧ name = "caseprobe" then "CaseProbe"
  else if rules.unicodeAliases ∧ name = decomposedProbe then composedProbe
  else name

def NameRules.same (rules : NameRules) (a b : String) : Bool := rules.fold a = rules.fold b

def probeOsError (kind : OsErrorKind) : Failure := ⟨.os, osErrorCode kind, "", []⟩

def Residue.entries : Residue → List (String × ProbeEntry)
  | .directory entries => entries
  | _ => []

section Operations

variable (rules : NameRules) (name : String)

def Residue.find (r : Residue) : Option ProbeEntry :=
  (r.entries.find? fun e => rules.same e.1 name).map Prod.snd

def Residue.has (r : Residue) : Bool := (r.find rules name).isSome

def onEntries (f : List (String × ProbeEntry) → List (String × ProbeEntry)) :
    Residue → Except Failure Residue
  | .directory entries => .ok (.directory (f entries))
  | .notDirectory => .error (probeOsError .notDirectory)
  | .absent => .error (probeOsError .notFound)

def setEntry (x : ProbeEntry) (entries : List (String × ProbeEntry)) :
    List (String × ProbeEntry) :=
  entries.map fun e => if rules.same e.1 name then (e.1, x) else e

def addEntry (x : ProbeEntry) (entries : List (String × ProbeEntry)) :
    List (String × ProbeEntry) :=
  if entries.any fun e => rules.same e.1 name then setEntry rules name x entries
  else entries ++ [(name, x)]

def dropEntry (entries : List (String × ProbeEntry)) : List (String × ProbeEntry) :=
  entries.filter fun e => ¬ rules.same e.1 name

/-- `O_CREAT` without `O_EXCL` or `O_TRUNC`. -/
def openOrCreate : Program Residue Failure Unit := Program.attempt (onEntries fun entries =>
  if entries.any fun e => rules.same e.1 name then entries else entries ++ [(name, .file [])])

/-- `Path.write_bytes`: the file is there and empty before its bytes are. -/
def writeProbeBytes (content : Bytes) : Program Residue Failure Unit := do
  Program.attempt (onEntries (addEntry rules name (.file [])))
  Program.attempt (onEntries (setEntry rules name (.file content)))

/-- `O_EXCL`: whether the file was created. -/
def createExclusive : Program Residue Failure Bool := do
  let present ← Program.read fun r : Residue => r.has rules name
  if present then return false
  else
    Program.attempt (onEntries (addEntry rules name (.file [])))
    return true

def unlinkProbe : Program Residue Failure Unit := Program.attempt fun r =>
  if r.has rules name then onEntries (dropEntry rules name) r
  else .error (probeOsError .notFound)

end Operations

/-- `os.replace` of one file over another. -/
def replaceProbe (rules : NameRules) (source target : String) : Program Residue Failure Unit :=
  Program.attempt fun r =>
    match r.find rules source with
    | some x => onEntries (fun entries => addEntry rules target x (dropEntry rules source entries)) r
    | none => .error (probeOsError .notFound)

def makeResidue : Program Residue Failure Unit := Program.attempt fun
  | .absent => .ok (.directory [])
  | _ => .error (probeOsError .fileExists)

def removeResidue : Program Residue Failure Unit := Program.attempt fun
  | .directory [] => .ok .absent
  | .directory _ => .error (probeOsError .notEmpty)
  | .notDirectory => .error (probeOsError .notDirectory)
  | .absent => .error (probeOsError .notFound)

/-! ### The write probe -/

def filesystemFaqUrl : String :=
  "https://github.com/swl007007/agent-workflow-pack/" ++
    "blob/main/docs/faq.md#windows-mounted-filesystems"

def filesystemRecommendedAction : String :=
  "Move the project to /home/<user>/... or see " ++ filesystemFaqUrl ++ "."

def unsupported (message : String) (details : List (String × String)) : Failure :=
  ⟨.renderer, "AWP_FILESYSTEM_UNSUPPORTED", message ++ ". " ++ filesystemRecommendedAction,
    details ++ [("recommended_action", filesystemRecommendedAction),
      ("faq_url", filesystemFaqUrl)]⟩

def recoveryRequired (message : String) (details : List (String × String)) : Failure :=
  ⟨.renderer, "AWP_RECONCILE_RECOVERY_REQUIRED", message, details⟩

def networkFilesystems : List String := ["nfs", "nfs4", "cifs", "smb3", "fuse.sshfs", "sshfs"]

/-- What the filesystem answers in one probe, apart from its names. -/
structure ProbeAnswers where
  rootIsDirectory : Bool
  filesystemType : String
  sameFilesystem : Bool
  advisoryLock : Bool
  posixMode : Bool

structure ProbeEvidence where
  probeId : String
  supported : Bool
  advisoryLock : Bool
  atomicReplace : Bool
  posixMode : Bool
  caseBehavior : String
  unicodeBehavior : String
  filesystemType : String
  evidenceDigest : String
  deriving DecidableEq, Repr

def utf8Bytes (s : String) : Bytes := encodeUtf8 s.toList

def probeAlias (rules : NameRules) (first second : String) : Program Residue Failure String := do
  writeProbeBytes rules first (utf8Bytes "first")
  Program.protect
    (do
      let created ← createExclusive rules second
      if created then
        Program.attempt (onEntries (setEntry rules second (.file (utf8Bytes "second"))))
        return "distinct"
      else return "aliases")
    (do
      Program.whenever (fun r => r.has rules second && second ≠ first) (unlinkProbe rules second)
      Program.whenever (fun r => r.has rules first) (unlinkProbe rules first))

def removeEmptyProbeDirectory : Program Residue Failure Unit := do
  match ← Program.read id with
  | .absent => return ()
  | .directory [] => removeResidue
  | _ => Program.throw (recoveryRequired
    "probe residue directory is not an empty real directory" [])

section Probe

variable (H : Hasher) (rules : NameRules) (answers : ProbeAnswers) (probeId : String)

def probeEvidence (atomicReplace : Bool) (caseBehavior unicodeBehavior : String) :
    Except Failure ProbeEvidence := do
  check (answers.advisoryLock && atomicReplace && answers.posixMode)
    (unsupported "one or more live filesystem probes failed"
      [("advisory_lock", toString answers.advisoryLock),
        ("atomic_replace", toString atomicReplace), ("posix_mode", toString answers.posixMode)])
  let projection : Members :=
    [("probe_id", .string probeId), ("advisory_lock", .bool answers.advisoryLock),
      ("atomic_replace", .bool atomicReplace), ("posix_mode", .bool answers.posixMode),
      ("case_behavior", .string caseBehavior), ("unicode_behavior", .string unicodeBehavior),
      ("filesystem_type", .string answers.filesystemType)]
  let evidenceDigest ← digest H "agent-workflow.filesystem-probe.v1" (.object projection)
  return ⟨probeId, true, answers.advisoryLock, atomicReplace, answers.posixMode, caseBehavior,
    unicodeBehavior, answers.filesystemType, evidenceDigest⟩

/-- The probing of the files: whether the exchange was atomic, and what names alias. -/
def observeProbe (sameFilesystem : Bool) : Program Residue Failure (Bool × String × String) := do
  openOrCreate rules "lock"
  writeProbeBytes rules "original" (utf8Bytes "original")
  writeProbeBytes rules "candidate" (utf8Bytes "candidate")
  Program.lift (check sameFilesystem
    (unsupported "replacement and target are on different filesystems" []))
  replaceProbe rules "candidate" "original"
  let replaced ← Program.read fun r : Residue => r.find rules "original"
  -- `os.chmod` is an effect that leaves names and bytes as they are.
  Program.attempt fun r => .ok r
  let caseBehavior ← probeAlias rules "CaseProbe" "caseprobe"
  let unicodeBehavior ← probeAlias rules composedProbe decomposedProbe
  return (decide (replaced = some (.file (utf8Bytes "candidate"))), caseBehavior, unicodeBehavior)

def Residue.hasFile (r : Residue) (name : String) : Bool :=
  match r.find rules name with
  | some (.file _) => true
  | _ => false

/-- The `finally` of the probe. -/
def removeProbeFiles : Program Residue Failure Unit := do
  Program.each ["candidate", "original", "lock"] fun name =>
    Program.whenever (fun r => r.hasFile rules name) (unlinkProbe rules name)
  removeEmptyProbeDirectory

def runWriteProbe : Program Residue Failure ProbeEvidence := do
  Program.lift (check answers.rootIsDirectory
    (unsupported "probe target root is not a real directory" []))
  Program.lift (check (answers.filesystemType ∉ networkFilesystems)
    (unsupported "network filesystem is unsupported"
      [("filesystem_type", answers.filesystemType)]))
  Program.inspect fun r : Residue => check (r = .absent)
    (recoveryRequired "probe residue already exists" [])
  makeResidue
  Program.protect
    (do
      let (atomicReplace, caseBehavior, unicodeBehavior) ←
        observeProbe rules answers.sameFilesystem
      Program.lift (probeEvidence H answers probeId atomicReplace caseBehavior unicodeBehavior))
    (removeProbeFiles rules)

end Probe

/-! ### The recorded contents -/

def hexDigit (n : Nat) : Char := if n < 10 then Char.ofNat (0x30 + n) else Char.ofNat (0x57 + n)

def hexOf (bytes : Bytes) : List Char :=
  bytes.flatMap fun b => [hexDigit (b.toNat / 16), hexDigit (b.toNat % 16)]

def hexNibble (c : Char) : Option Nat :=
  if '0' ≤ c ∧ c ≤ '9' then some (c.toNat - 0x30)
  else if 'a' ≤ c ∧ c ≤ 'f' then some (c.toNat - 0x57)
  else if 'A' ≤ c ∧ c ≤ 'F' then some (c.toNat - 0x37)
  else none

/-- `bytes.fromhex`, which skips blanks between bytes. -/
def fromHex : List Char → Option Bytes
  | [] => some []
  | [c] => if c ∈ [' ', '\t', '\n', '\r', '\x0b', '\x0c'] then some [] else none
  | c :: d :: cs =>
    if c ∈ [' ', '\t', '\n', '\r', '\x0b', '\x0c'] then fromHex (d :: cs)
    else do
      let high ← hexNibble c
      let low ← hexNibble d
      let rest ← fromHex cs
      return UInt8.ofNat (16 * high + low) :: rest

structure ExpectedFile where
  nameUtf8Hex : String
  sha256 : List String
  deriving DecidableEq, Repr

/-- The contents each probe file goes through once it is filled. -/
def probeContents : List (String × List Bytes) :=
  [("lock", [[]]), ("original", [utf8Bytes "original", utf8Bytes "candidate"]),
    ("candidate", [utf8Bytes "candidate"]), ("CaseProbe", [utf8Bytes "first"]),
    ("caseprobe", [utf8Bytes "second"]), (composedProbe, [utf8Bytes "first"]),
    (decomposedProbe, [utf8Bytes "second"])]

def expectedFiles (H : Hasher) : List ExpectedFile :=
  (probeContents.insertionSort fun a b => utf8Bytes a.1 ≤ utf8Bytes b.1).map fun f =>
    ⟨String.ofList (hexOf (utf8Bytes f.1)), f.2.map H.sha256⟩

/-! ### The transaction -/

inductive ProbeStatus
  | prepared
  | complete
  | rolledBack
  deriving DecidableEq, Repr

structure ProbeJournal where
  probeId : String
  status : ProbeStatus
  expectedFileHashes : List ExpectedFile
  evidence : Option ProbeEvidence
  deriving DecidableEq, Repr

structure ProbeWorld where
  journal : Option ProbeJournal
  residue : Residue
  deriving DecidableEq, Repr

/-- A program on the probe directory, as one on the project. -/
def onResidue {α : Type} (p : Program Residue Failure α) : Program ProbeWorld Failure α :=
  p.onPart (·.residue) fun r w => { w with residue := r }

/-- `_atomic_write`: the document is in place at once. -/
def writeProbeJournal (journal : ProbeJournal) : Program ProbeWorld Failure Unit :=
  Program.attempt fun w => .ok { w with journal := some journal }

/-- `_journal_path`: only a canonical identity names a journal. -/
def checkProbeIdentity (probeId : String) : Except Failure Unit :=
  match parseUuid probeId with
  | none => .error (recoveryRequired "standalone probe identity is invalid" [])
  | some canonical =>
    check (canonical = probeId)
      (recoveryRequired "standalone probe identity is not canonical" [])

def loadProbeJournal (H : Hasher) (probeId : String) (w : ProbeWorld) :
    Except Failure ProbeJournal := do
  checkProbeIdentity probeId
  match w.journal with
  | none => .error (recoveryRequired "standalone probe journal is unavailable" [])
  | some journal =>
    check (journal.probeId = probeId ∧ journal.expectedFileHashes = expectedFiles H)
      (recoveryRequired "standalone probe journal contract is invalid" [])
    return journal

def expectedName (file : ExpectedFile) : Except Failure (String × List String) := do
  let name ← require ((fromHex file.nameUtf8Hex.toList).bind decodeUtf8)
    (recoveryRequired "standalone probe residue filename is invalid" [])
  return (String.ofList name, file.sha256)

def checkResidueFile (H : Hasher) (rules : NameRules) (expected : List (String × List String))
    (name : String) (r : Residue) : Except Failure Unit :=
  match r.find rules name with
  | some (.file content) =>
    check (H.sha256 content ∈ (expected.lookup name).getD [])
      (recoveryRequired "standalone probe residue bytes changed" [("path", name)])
  | _ => .error (recoveryRequired "standalone probe residue path changed type" [("path", name)])

def cleanupRecordedResidue (H : Hasher) (rules : NameRules) (journal : ProbeJournal) :
    Program Residue Failure Unit := do
  match ← Program.read id with
  | .absent => return ()
  | .notDirectory =>
    Program.throw (recoveryRequired "standalone probe residue is not a real directory" [])
  | .directory entries =>
    let expected ← Program.lift (enumerateM (fun _ => expectedName) 0 journal.expectedFileHashes)
    let actual := sortStrings (entries.map Prod.fst).dedup
    let unknown := actual.filter (· ∉ expected.map Prod.fst)
    Program.lift (check (unknown = []) (recoveryRequired
      "standalone probe residue has unknown paths" [("paths", ",".intercalate unknown)]))
    Program.each actual fun name => do
      Program.inspect (checkResidueFile H rules expected name)
      unlinkProbe rules name
    removeResidue

section Transaction

variable (H : Hasher) (rules : NameRules) (answers : ProbeAnswers) (probeId : String)

def runStandaloneProbe : Program ProbeWorld Failure ProbeJournal := do
  let journal : ProbeJournal := ⟨probeId, .prepared, expectedFiles H, none⟩
  writeProbeJournal journal
  let evidence ← onResidue (runWriteProbe H rules answers probeId)
  let journal := { journal with status := .complete, evidence := some evidence }
  writeProbeJournal journal
  return journal

inductive ProbeAction
  | resume
  | rollback
  deriving DecidableEq, Repr

def probeAction? : String → Option ProbeAction
  | "resume" => some .resume
  | "rollback" => some .rollback
  | _ => none

def recoverStandaloneProbe (action : String) : Program ProbeWorld Failure ProbeJournal := do
  let action ← Program.lift (require (probeAction? action)
    (recoveryRequired "standalone probe recovery action is invalid" []))
  let journal ← Program.inspect (loadProbeJournal H probeId)
  if journal.status = .complete then
    if action = .rollback then
      Program.throw (recoveryRequired "completed standalone probe cannot be rolled back" [])
    else return journal
  else
    onResidue (cleanupRecordedResidue H rules journal)
    if action = .rollback then
      let journal := { journal with status := .rolledBack }
      writeProbeJournal journal
      return journal
    else
      let evidence ← onResidue (runWriteProbe H rules answers probeId)
      let journal := { journal with status := .complete, evidence := some evidence }
      writeProbeJournal journal
      return journal

end Transaction

end AgentStack.Reconcile
