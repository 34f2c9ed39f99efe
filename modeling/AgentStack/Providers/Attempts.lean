import AgentStack.Core.Fields
import AgentStack.Crash.Triple

/-! The attempt journal of a provider plan, and the receipts of its releases. -/
namespace AgentStack.Providers

open AgentStack.Core Crash JsonText JsonValue

inductive AttemptState
  | prepared
  | released
  | succeeded
  | failed
  | interrupted
  deriving DecidableEq, Repr

def AttemptState.terminal : AttemptState → Bool
  | .succeeded | .failed | .interrupted => true
  | _ => false

def AttemptState.live : AttemptState → Bool
  | .prepared | .released => true
  | _ => false

/-- The fields a terminal state adds. -/
structure TerminalResult where
  terminalAt : String
  resultCategory : String
  sanitizedOutputDigest : String
  candidateOutputDigest : String
  deriving Repr

structure AttemptRecord where
  attemptId : String
  state : AttemptState
  releaseTokenDigest : String
  brokerLivenessIdentity : String
  preparedAt : String
  releaseDeadline : String
  commandDigest : String
  isolationMeasurements : JsonValue
  releasedAt : Option String
  result : Option TerminalResult
  deriving Repr

structure AttemptJournal where
  schemaId : String
  schemaVersion : Int
  workspaceInstanceId : String
  providerPlanDigest : String
  prospectiveTransactionId : String
  approvalDigest : String
  attempts : List AttemptRecord
  deriving Repr

def corrupt (message : String) : Failure := ⟨.core, "AWP_PROVIDER_ATTEMPT_CORRUPT", message, []⟩

def corruptOf (message : String) (details : List (String × String)) : Failure :=
  { corrupt message with details := details }

def canonicalNull : String := "canonical-null"

def attemptUuid (value label : String) : Except Failure Unit :=
  check (isUuid value) (corrupt (label ++ " is not a canonical UUID"))

def attemptDigest (value label : String) : Except Failure Unit :=
  check (isDigest value) (corrupt (label ++ " is not lowercase SHA-256"))

def nullableDigest (value label : String) : Except Failure Unit :=
  if value = canonicalNull then .ok () else attemptDigest value label

/-- The store of one provider plan; what its constructor refuses cannot be built. -/
structure AttemptStore where
  workspaceInstanceId : String
  providerPlanDigest : String
  prospectiveTransactionId : String
  approvalDigest : String
  workspace_ok : attemptUuid workspaceInstanceId "workspace_instance_id" = .ok ()
  plan_ok : attemptDigest providerPlanDigest "provider_plan_digest" = .ok ()
  transaction_ok : attemptUuid prospectiveTransactionId "prospective_transaction_id" = .ok ()
  approval_ok : nullableDigest approvalDigest "approval_digest" = .ok ()

/-- A file of the store: a process that dies while it writes one leaves it broken. -/
inductive Slot (α : Type)
  | absent
  | broken
  | whole (document : α)

/-- The journal is exchanged in one rename; a receipt is created and then filled. -/
structure Files where
  journal : Slot AttemptJournal
  receipts : String → Slot Members

def Files.empty : Files := ⟨.absent, fun _ => .absent⟩

def Files.setReceipt (s : Files) (attemptId : String) (file : Slot Members) : Files :=
  { s with receipts := Function.update s.receipts attemptId file }

section Receipts

variable (s : Files) (attemptId other : String) (file file' : Slot Members)

@[simp] theorem Files.setReceipt_journal : (s.setReceipt attemptId file).journal = s.journal := rfl

@[simp] theorem Files.setReceipt_same : (s.setReceipt attemptId file).receipts attemptId = file :=
  Function.update_self ..

theorem Files.setReceipt_ne (h : other ≠ attemptId) :
    (s.setReceipt attemptId file).receipts other = s.receipts other := Function.update_of_ne h ..

@[simp] theorem Files.setReceipt_setReceipt :
    (s.setReceipt attemptId file).setReceipt attemptId file' = s.setReceipt attemptId file' := by
  simp only [Files.setReceipt, Function.update_idem]

end Receipts

/-- The loop over the records; `ids` and `tokens` are those before. -/
def validateAttemptsFrom (ids tokens : List String) (live : Nat) :
    List AttemptRecord → Except Failure Nat
  | [] => .ok live
  | raw :: raws => do
    attemptUuid raw.attemptId "attempt_id"
    attemptDigest raw.releaseTokenDigest "release_token_digest"
    check (raw.attemptId ∉ ids ∧ raw.releaseTokenDigest ∉ tokens)
      (corrupt "attempt id or release token repeats")
    validateAttemptsFrom (raw.attemptId :: ids) (raw.releaseTokenDigest :: tokens)
      (if raw.state.live then live + 1 else live) raws

def validateAttempts (attempts : List AttemptRecord) : Except Failure Unit := do
  let live ← validateAttemptsFrom [] [] 0 attempts
  check (live ≤ 1) (corrupt "multiple provider attempts overlap")

def findAttempt (document : AttemptJournal) (attemptId : String) :
    Except Failure (Nat × AttemptRecord) :=
  let index := document.attempts.findIdx (·.attemptId = attemptId)
  match document.attempts[index]? with
  | some attempt => .ok (index, attempt)
  | none => .error (corruptOf "attempt id does not exist" [("attempt_id", attemptId)])

structure Preparation where
  attemptId : String
  releaseTokenDigest : String
  brokerLivenessIdentity : String
  preparedAt : String
  releaseDeadline : String
  commandDigest : String
  isolationMeasurements : Members

def preparedRecord (document : AttemptJournal) (request : Preparation) :
    Except Failure AttemptRecord := do
  check (¬ document.attempts.any (·.state.live))
    (corrupt "a provider attempt is already live or ambiguous")
  attemptUuid request.attemptId "attempt_id"
  attemptDigest request.releaseTokenDigest "release_token_digest"
  check (¬ document.attempts.any fun raw => raw.attemptId = request.attemptId ||
      raw.releaseTokenDigest = request.releaseTokenDigest)
    (corrupt "attempt id or release token repeats")
  check (request.brokerLivenessIdentity ≠ "") (corrupt "broker liveness identity is empty")
  attemptDigest request.commandDigest "command_digest"
  return ⟨request.attemptId, .prepared, request.releaseTokenDigest,
    request.brokerLivenessIdentity, request.preparedAt, request.releaseDeadline,
    request.commandDigest, .object request.isolationMeasurements, none, none⟩

def receiptFields : List String :=
  ["schema_id", "schema_version", "workspace_instance_id", "provider_plan_digest",
    "prospective_transaction_id", "attempt_id", "release_token_digest",
    "broker_liveness_identity", "released_at"]

/-- Two receipts compare as dictionaries: the same keys, and under each of them the same value or
numbers both equal to 1. A validated receipt holds no other number. -/
def receiptsEqual (a b : Members) : Bool :=
  (a.all fun m => hasKey b m.1 &&
    (isOne m.2 && isOne (getField b m.1) || same m.2 (getField b m.1))) &&
  b.all fun m => hasKey a m.1

section Writes

variable (E : TextEncoding)

def encodeResult (r : TerminalResult) : TerminalResult :=
  ⟨E.nfc r.terminalAt, E.nfc r.resultCategory, E.nfc r.sanitizedOutputDigest,
    E.nfc r.candidateOutputDigest⟩

/-- A record as its canonical text reads. -/
def encodeRecord (a : AttemptRecord) : Except Failure AttemptRecord := do
  let measurements ← normalizeJsonValue E.toEncoding a.isolationMeasurements
  check (withinDigits intDigits measurements) intDigitsFailure
  return ⟨E.nfc a.attemptId, a.state, E.nfc a.releaseTokenDigest, E.nfc a.brokerLivenessIdentity,
    E.nfc a.preparedAt, E.nfc a.releaseDeadline, E.nfc a.commandDigest, measurements,
    a.releasedAt.map E.nfc, a.result.map (encodeResult E)⟩

def encodeJournal (d : AttemptJournal) : Except Failure AttemptJournal := do
  let attempts ← enumerateM (fun _ => encodeRecord E) 0 d.attempts
  return ⟨E.nfc d.schemaId, d.schemaVersion, E.nfc d.workspaceInstanceId,
    E.nfc d.providerPlanDigest, E.nfc d.prospectiveTransactionId, E.nfc d.approvalDigest, attempts⟩

def encodeReceipt (receipt : Members) : Except Failure Members := do
  let members ← normalizeMembers E.toEncoding [] receipt
  check (withinDigits intDigits (.object members)) intDigitsFailure
  return members

/-- `_write`. -/
def writeJournal (d : AttemptJournal) : Program Files Failure Unit := do
  Program.lift (validateAttempts d.attempts)
  let encoded ← Program.lift (encodeJournal E d)
  Program.attempt fun s => .ok { s with journal := .whole encoded }

def createReceipt (attemptId : String) (s : Files) : Except Failure Files :=
  match s.receipts attemptId with
  | .absent => .ok (s.setReceipt attemptId .broken)
  | _ => .error (corrupt "release receipt already exists")

/-- A receipt whose text cannot be written is removed again. -/
def writeReceipt (attemptId : String) (receipt : Members) : Program Files Failure Unit := do
  Program.lift (attemptUuid attemptId "attempt_id")
  Program.attempt (createReceipt attemptId)
  match encodeReceipt E receipt with
  | .ok encoded => Program.attempt fun s => .ok (s.setReceipt attemptId (.whole encoded))
  | .error e => do
    Program.attempt fun s => .ok (s.setReceipt attemptId .absent)
    Program.throw e

end Writes

def loadReceipt (attemptId : String) (s : Files) : Except Failure (Option Members) := do
  attemptUuid attemptId "attempt_id"
  match s.receipts attemptId with
  | .absent => .ok none
  | .broken => .error (corrupt "release receipt is corrupt")
  | .whole receipt => .ok (some receipt)

namespace AttemptStore

variable (A : AttemptStore)

/-- `_empty`. -/
def noAttempts : AttemptJournal :=
  ⟨"agent-workflow.provider-attempts", 1, A.workspaceInstanceId, A.providerPlanDigest,
    A.prospectiveTransactionId, A.approvalDigest, []⟩

def checkIdentity (d : AttemptJournal) : Except Failure Unit := do
  let matching (field : String) (same : Bool) : Except Failure Unit :=
    check same (corruptOf "attempt journal identity mismatch" [("field", field)])
  matching "schema_id" (d.schemaId = A.noAttempts.schemaId)
  matching "schema_version" (d.schemaVersion = A.noAttempts.schemaVersion)
  matching "workspace_instance_id" (d.workspaceInstanceId = A.workspaceInstanceId)
  matching "provider_plan_digest" (d.providerPlanDigest = A.providerPlanDigest)
  matching "prospective_transaction_id" (d.prospectiveTransactionId = A.prospectiveTransactionId)
  matching "approval_digest" (d.approvalDigest = A.approvalDigest)

def load (s : Files) : Except Failure AttemptJournal :=
  match s.journal with
  | .absent => .ok A.noAttempts
  | .broken => .error (corrupt "attempt journal is corrupt JSON")
  | .whole d => do
    A.checkIdentity d
    validateAttempts d.attempts
    return d

/-- The texts a receipt of an attempt repeats. -/
def expectedTexts (a : AttemptRecord) : List (String × String) :=
  [("schema_id", "agent-workflow.provider-release-receipt"),
    ("workspace_instance_id", A.workspaceInstanceId),
    ("provider_plan_digest", A.providerPlanDigest),
    ("prospective_transaction_id", A.prospectiveTransactionId), ("attempt_id", a.attemptId),
    ("release_token_digest", a.releaseTokenDigest),
    ("broker_liveness_identity", a.brokerLivenessIdentity)]

def receiptMismatches (a : AttemptRecord) (receipt : Members) : List String :=
  let texts := (A.expectedTexts a).filter fun field =>
    ¬ isString (getField receipt field.1) field.2
  sortStrings ((if isOne (getField receipt "schema_version") then [] else ["schema_version"]) ++
    texts.map Prod.fst)

def validateReceipt (a : AttemptRecord) (receipt : Members) : Except Failure Unit := do
  check (fieldsAre receipt receiptFields) (corrupt "release receipt fields are not closed")
  let mismatches := A.receiptMismatches a receipt
  check (mismatches = [] ∧ (stringValue? (getField receipt "released_at")).isSome)
    (corruptOf "release receipt identity mismatch" [("fields", ",".intercalate mismatches)])

variable (E : TextEncoding)

def prepare (request : Preparation) : Program Files Failure AttemptRecord := do
  let document ← Program.inspect A.load
  let record ← Program.lift (preparedRecord document request)
  writeJournal E { document with attempts := document.attempts ++ [record] }
  return record

/-- The attempt a release is about, once its receipt has been checked. -/
def releasable (document : AttemptJournal) (attemptId : String) (receipt : Members) :
    Except Failure (Nat × AttemptRecord) := do
  let found ← findAttempt document attemptId
  check (found.2.state = .prepared) (corrupt "only a prepared attempt may become released")
  A.validateReceipt found.2 receipt
  return found

/-- The receipt is on disk before the journal says so. -/
def storeReceipt (attemptId : String) (receipt : Members) : Program Files Failure Unit := do
  match ← Program.inspect (loadReceipt attemptId) with
  | none => writeReceipt E attemptId receipt
  | some stored => Program.lift (check (receiptsEqual stored receipt)
      (corrupt "stored release receipt disagrees with broker acknowledgement"))

def recordReleased (attemptId : String) (receipt : Members) :
    Program Files Failure AttemptRecord := do
  let document ← Program.inspect A.load
  let (index, attempt) ← Program.lift (A.releasable document attemptId receipt)
  storeReceipt E attemptId receipt
  let released := { attempt with
    state := .released, releasedAt := stringValue? (getField receipt "released_at") }
  writeJournal E { document with attempts := document.attempts.set index released }
  return released

structure Termination where
  state : AttemptState
  terminalAt : String
  resultCategory : String
  sanitizedOutputDigest : String
  candidateOutputDigest : String

/-- The released attempt and what it becomes. -/
def terminalRecord (document : AttemptJournal) (attemptId : String) (result : Termination) :
    Except Failure (Nat × AttemptRecord) := do
  let (index, attempt) ← findAttempt document attemptId
  check (attempt.state = .released) (corrupt "only a released attempt may record a provider result")
  attemptDigest result.sanitizedOutputDigest "sanitized_output_digest"
  nullableDigest result.candidateOutputDigest "candidate_output_digest"
  return (index, { attempt with
    state := result.state
    result := some ⟨result.terminalAt, result.resultCategory, result.sanitizedOutputDigest,
      result.candidateOutputDigest⟩ })

def recordTerminal (attemptId : String) (result : Termination) :
    Program Files Failure AttemptRecord := do
  Program.lift (check result.state.terminal (corrupt "terminal attempt state is invalid"))
  let document ← Program.inspect A.load
  let (index, terminal) ← Program.lift (terminalRecord document attemptId result)
  writeJournal E { document with attempts := document.attempts.set index terminal }
  return terminal

def getAttempt (attemptId : String) : Program Files Failure AttemptRecord := do
  let document ← Program.inspect A.load
  let (_, attempt) ← Program.lift (findAttempt document attemptId)
  return attempt

def checkContainment (state : String) : Except Failure Unit := do
  check (state ≠ "live" ∧ state ≠ "ambiguous") ⟨.core, "AWP_PROVIDER_CONTAINMENT_AMBIGUOUS",
    "prior provider containment is still live or ambiguous", []⟩
  check (state = "gone") (corrupt "containment liveness state is invalid")

/-- The receipts a recovery goes by: a receipt without fields counts as none. -/
def checkRecovery (attempt : AttemptRecord) (receipt stored : Option Members) :
    Except Failure Unit := do
  match receipt, stored with
  | some given, some kept =>
    check (receiptsEqual kept given) (corrupt "supplied and stored release receipts disagree")
  | _, _ => .ok ()
  match (receipt.filter (· ≠ [])).or stored with
  | none => .ok ()
  | some effective => do
    A.validateReceipt attempt effective
    check stored.isSome (corrupt "recovery receipt was not durably present")

def interruptedRecord (attempt : AttemptRecord) (recordedAt : String) : AttemptRecord :=
  { attempt with
    state := .interrupted
    result := some ⟨recordedAt, "interrupted", canonicalNull, canonicalNull⟩ }

def recoverInterrupted (attemptId containmentState : String) (receipt : Option Members)
    (recordedAt : String) : Program Files Failure AttemptRecord := do
  Program.lift (checkContainment containmentState)
  let document ← Program.inspect A.load
  let (index, attempt) ← Program.lift (findAttempt document attemptId)
  if attempt.state.terminal then return attempt
  else do
    let stored ← Program.inspect (loadReceipt attemptId)
    Program.lift (A.checkRecovery attempt receipt stored)
    let interrupted := interruptedRecord attempt recordedAt
    writeJournal E { document with attempts := document.attempts.set index interrupted }
    return interrupted

end AttemptStore
end AgentStack.Providers
