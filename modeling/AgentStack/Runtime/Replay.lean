import AgentStack.Reconcile.Cas

/-! The approval-proof replay ledger. -/
namespace AgentStack.Runtime

open AgentStack.Core FileTree Crash Reconcile

def replayFailure (message : String) (details : List (String × String)) : Failure :=
  ⟨.runtime, "AWP_APPROVAL_REPLAY_BLOCKED", message, details⟩

def replayPath : Path := [".agent-workflow", "local", "approval-replay.json"]

def replayUuid (value field : String) : Except Failure Unit :=
  match parseUuid value with
  | none => .error (replayFailure "approval replay UUID is invalid" [("field", field)])
  | some parsed =>
    if parsed = value then .ok ()
    else .error (replayFailure "approval replay UUID is not canonical" [("field", field)])

def replayDigest (value field : String) : Except Failure Unit :=
  if isDigest value then .ok ()
  else .error (replayFailure "approval replay digest is invalid" [("field", field)])

/-- The transaction-independent identity of a proof. -/
def proofKey (host : Host) (approvalId approvalChallenge routeDecisionDigest
    workspaceInstanceId : String) : Except Failure String := do
  replayUuid approvalId "approval_id"
  replayDigest approvalChallenge "approval_challenge"
  replayDigest routeDecisionDigest "route_decision_digest"
  replayUuid workspaceInstanceId "workspace_instance_id"
  return host.sha256
    (.proofKey approvalId approvalChallenge routeDecisionDigest workspaceInstanceId)

/-- An entry with the key it is stored under, once it is known to be well formed. -/
def checkEntry (key : String) (raw : ReplayEntry) : Except Failure Unit := do
  replayUuid raw.boundTransactionId "bound_transaction_id"
  match raw.state, raw.consumedAt with
  | .reserved, some _ =>
    .error (replayFailure "reserved replay entry has consumed_at" [("proof_key", key)])
  | .consumed, none =>
    .error (replayFailure "approval replay timestamp is invalid" [("field", "consumed_at")])
  | _, _ =>
    if raw.proofExpiresAt < raw.validatedAt then
      .error (replayFailure "approval proof expires before validation" [("proof_key", key)])
    else .ok ()

/-- The ledger's identity is the one asked for, where one is. -/
def checkIdentity (asked : Option String) (actual field message : String) :
    Except Failure Unit :=
  match asked with
  | none => .ok ()
  | some value => do
    replayUuid value field
    if actual ≠ value then .error (replayFailure message []) else .ok ()

def loadLedger (host : Host) (projectId workspaceId : Option String) (s : FS) :
    Except Failure (ReplayLedger × FileState) := do
  let state ← observeFileState host replayPath none s
  if ¬ state.exists ∨ state.fileType ≠ .regular ∨ state.mode ≠ some 0o600 then
    .error (replayFailure
      "registered approval replay ledger is missing or has invalid metadata" [])
  else
    match s.get replayPath with
    | some (.file (.replayLedger ledger) _) =>
      replayUuid ledger.projectId "project_id"
      replayUuid ledger.workspaceInstanceId "workspace_instance_id"
      checkIdentity projectId ledger.projectId "project_id"
        "approval replay project identity differs"
      checkIdentity workspaceId ledger.workspaceInstanceId "workspace_instance_id"
        "approval replay workspace identity differs"
      ledger.entries.forM fun (key, raw) => do
        replayDigest key "proof_key"
        checkEntry key raw
      return (ledger, state)
    | _ => .error (replayFailure "registered approval replay ledger is corrupt" [])

def putEntry (entries : List (String × ReplayEntry)) (key : String) (entry : ReplayEntry) :
    List (String × ReplayEntry) :=
  if entries.any (·.1 = key) then entries.map fun e => if e.1 = key then (key, entry) else e
  else entries ++ [(key, entry)]

def storeLedger (host : Host) (before : FileState) (ledger : ReplayLedger) : Prog Unit :=
  let payload := Content.replayLedger ledger
  let candidate := regularState before.path (host.hashBytes payload) 0o600 none
  Program.mapError (fun f => if f.isValueError then
      replayFailure "approval replay ledger changed during CAS" [] else f) do
    let _ ← compareAndSwap host before candidate (some payload)

structure Reservation where
  projectId : String
  workspaceInstanceId : String
  approvalId : String
  approvalChallenge : String
  routeDecisionDigest : String
  transactionId : String
  validatedAt : Time
  proofExpiresAt : Time
  now : Time
  recovery : Bool

def Reservation.entry (r : Reservation) : ReplayEntry :=
  ⟨r.transactionId, .reserved, r.validatedAt, r.proofExpiresAt, none⟩

/-- The reservation itself, once arguments and ledger are checked. -/
def reserveEntry (host : Host) (r : Reservation) (key : String) (ledger : ReplayLedger)
    (before : FileState) : Prog ReplayEntry :=
  match ledger.entries.lookup key with
  | some existing =>
    if existing ≠ r.entry then
      Program.throw (replayFailure "approval proof is rebound or already consumed"
        [("proof_key", key)])
    else return existing
  | none =>
    if !r.recovery ∧ (r.now < r.validatedAt ∨ r.proofExpiresAt < r.now) then
      Program.throw (replayFailure "approval proof is expired or not yet valid"
        [("proof_key", key)])
    else do
      storeLedger host before { ledger with entries := putEntry ledger.entries key r.entry }
      return r.entry

/-- Create one transaction-bound reservation, or find it again unchanged. -/
def reserveProof (host : Host) (r : Reservation) : Prog ReplayEntry := do
  Program.lift (replayUuid r.transactionId "transaction_id")
  if r.proofExpiresAt < r.validatedAt then
    Program.throw (replayFailure "approval proof expires before successful validation" [])
  else
    let key ← Program.lift (proofKey host r.approvalId r.approvalChallenge
      r.routeDecisionDigest r.workspaceInstanceId)
    let (ledger, before) ← Program.inspect
      (loadLedger host (some r.projectId) (some r.workspaceInstanceId))
    reserveEntry host r key ledger before

/-- The consumption itself, once arguments and ledger are checked. -/
def consumeEntry (host : Host) (key transactionId : String) (consumedAt : Time)
    (ledger : ReplayLedger) (before : FileState) : Prog ReplayEntry :=
  match ledger.entries.lookup key with
  | none => Program.throw (replayFailure "approval proof has no reserved state"
      [("proof_key", key)])
  | some entry =>
    if entry.boundTransactionId ≠ transactionId then
      Program.throw (replayFailure "approval proof belongs to another transaction"
        [("proof_key", key)])
    else if entry.state = .consumed then return entry
    else do
      let candidate := { entry with state := .consumed, consumedAt := some consumedAt }
      storeLedger host before { ledger with entries := putEntry ledger.entries key candidate }
      return candidate

/-- Turn a reservation of the same transaction into a permanent tombstone. -/
def consumeProof (host : Host) (key transactionId : String) (consumedAt : Time) :
    Prog ReplayEntry := do
  Program.lift (replayDigest key "proof_key")
  Program.lift (replayUuid transactionId "transaction_id")
  let (ledger, before) ← Program.inspect (loadLedger host none none)
  consumeEntry host key transactionId consumedAt ledger before

end AgentStack.Runtime
