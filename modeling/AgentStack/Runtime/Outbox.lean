import AgentStack.Reconcile.Cas

/-! Non-authoritative, idempotent task outbox effects. -/
namespace AgentStack.Runtime

open AgentStack.Core FileTree Crash Reconcile

def outboxFailure (message : String) (details : List (String × String)) : Failure :=
  ⟨.runtime, "AWP_TASK_TRANSITION_INVALID", message, details⟩

def outboxRoot : Path := [".agent-workflow", "local", "task-outbox"]

def outboxPath (effectId : String) : Path := outboxRoot ++ [effectId ++ ".json"]

def outboxUuid (value field : String) : Except Failure Unit :=
  match parseUuid value with
  | none => .error (outboxFailure "outbox UUID is invalid" [("field", field)])
  | some parsed =>
    if parsed = value then .ok ()
    else .error (outboxFailure "outbox UUID is not canonical" [("field", field)])

def outboxToken (value field : String) : Except Failure Unit :=
  if isToken value then .ok ()
  else .error (outboxFailure "outbox token is invalid" [("field", field)])

def outboxDigest (value field : String) : Except Failure Unit :=
  if isDigest value then .ok ()
  else .error (outboxFailure "outbox digest is invalid" [("field", field)])

/-- Delivery evidence matches the delivery state. -/
def checkDelivery (effectId : String) (d : Delivery) : Except Failure Unit :=
  let details := [("effect_id", effectId)]
  if d.others ≠ [] then .error (outboxFailure "outbox delivery fields are invalid" details)
  else if d.attemptCount < 0 then .error (outboxFailure "outbox attempt count is invalid" details)
  else match d.state with
    | .pending =>
      if d.attemptCount ≠ 0 ∨ d.lastAttemptAt.isSome ∨ d.deliveredAt.isSome ∨ d.failure.isSome then
        .error (outboxFailure "pending outbox item contains delivery evidence" details)
      else .ok ()
    | .delivered =>
      if d.attemptCount < 1 ∨ d.lastAttemptAt.isNone ∨ d.deliveredAt.isNone ∨ d.failure.isSome then
        .error (outboxFailure "delivered outbox item is incomplete" details)
      else .ok ()
    | .failed =>
      if d.attemptCount < 1 ∨ d.lastAttemptAt.isNone ∨ d.deliveredAt.isSome ∨ d.failure.isNone then
        .error (outboxFailure "failed outbox item is incomplete" details)
      else .ok ()

def validateOutboxItem (host : Host) (document : OutboxDocument) (effectId : String) :
    Except Failure Unit := do
  if document.effectId ≠ effectId then
    .error (outboxFailure "outbox item path identity differs" [("effect_id", effectId)])
  else
    outboxUuid document.identity.taskId "task_id"
    outboxUuid document.identity.transactionId "transaction_id"
    outboxToken document.identity.operation "operation"
    outboxToken document.identity.effectKind "effect_kind"
    outboxToken document.identity.handlerId "handler_id"
    outboxToken document.identity.handlerVersion "handler_version"
    outboxDigest document.identity.payloadDigest "payload_digest"
    if host.sha256 (.outboxPayload document.payload) ≠ document.identity.payloadDigest then
      .error (outboxFailure "outbox payload digest is stale" [("effect_id", effectId)])
    else
      outboxDigest document.idempotencyKey "idempotency_key"
      checkDelivery effectId document.delivery

def readOutboxItem (host : Host) (effectId : String) (s : FS) :
    Except Failure (OutboxDocument × FileState) := do
  outboxDigest effectId "effect_id"
  let details := [("effect_id", effectId)]
  match observeFileState host (outboxPath effectId) none s with
  | .error _ => .error (outboxFailure "outbox item metadata is invalid" details)
  | .ok observed =>
    if ¬ observed.exists ∨ observed.fileType ≠ .regular ∨ observed.mode ≠ some 0o600 then
      .error (outboxFailure "outbox item is missing or has invalid metadata" details)
    else
      match s.get (outboxPath effectId) with
      | some (.file (.outboxItem document) _) =>
        validateOutboxItem host document effectId
        return (document, observed)
      | _ => .error (outboxFailure "outbox item is corrupt" details)

def effectIdentity (host : Host) (operation taskId transactionId : String)
    (effect : OutboxEffect) : EffectIdentity :=
  ⟨operation, taskId, transactionId, effect.effectKind, effect.handlerId, effect.handlerVersion,
    host.sha256 (.outboxPayload effect.payload)⟩

/-- The deterministic pending item of an effect. -/
def effectDocument (host : Host) (operation taskId transactionId : String)
    (effect : OutboxEffect) (createdAt : Time) : OutboxDocument :=
  let identity := effectIdentity host operation taskId transactionId effect
  let effectId := host.sha256 (.outboxEffect identity)
  ⟨effectId, identity, effect.payload,
    host.sha256 (.outboxIdempotency effectId effect.handlerId effect.handlerVersion), createdAt,
    ⟨.pending, 0, none, none, none, []⟩⟩

def enqueueEffect (host : Host) (operation taskId transactionId : String)
    (effect : OutboxEffect) (createdAt : Time) : Prog OutboxDocument := do
  Program.lift (outboxToken operation "operation")
  Program.lift (outboxUuid taskId "task_id")
  Program.lift (outboxUuid transactionId "transaction_id")
  Program.lift (outboxToken effect.effectKind "effect_kind")
  Program.lift (outboxToken effect.handlerId "handler_id")
  Program.lift (outboxToken effect.handlerVersion "handler_version")
  let document := effectDocument host operation taskId transactionId effect createdAt
  Program.lift (outboxDigest document.effectId "effect_id")
  let path := outboxPath document.effectId
  let linked ← Program.read fun s => s.isSymlink outboxRoot
  if linked then Program.throw (outboxFailure "outbox root is a symlink" [])
  else
    DirTree.mkdirs host.dirMode outboxRoot
    let ready ← Program.read fun s => !s.isSymlink outboxRoot && s.isDir outboxRoot
    if !ready then Program.throw (outboxFailure "outbox root is unavailable" [])
    else
      let observed ← Program.inspect (observeFileState host path none)
      if observed.exists then
        let (existing, _) ← Program.inspect (readOutboxItem host document.effectId)
        if existing ≠ document then
          Program.throw (outboxFailure
            "deterministic outbox identity collides with different bytes" [])
        else return existing
      else
        let payload := Content.outboxItem document
        Program.mapError (fun f => if f.isValueError then
            outboxFailure "outbox item changed during CAS" [("effect_id", document.effectId)]
          else f) do
          let _ ← compareAndSwap host (absentState path none)
            (regularState path (host.hashBytes payload) 0o600 none) (some payload)
        Program.lift (validateOutboxItem host document document.effectId)
        return document

/-- Delivery evidence after one more attempt, which the handler ended by returning or with an
exception. -/
def Delivery.attempted (d : Delivery) (attemptedAt : Time) (failure : Option Json) : Delivery :=
  ⟨if failure.isSome then .failed else .delivered, d.attemptCount + 1, some attemptedAt,
    if failure.isSome then none else some attemptedAt, failure, d.others⟩

/-- The values inside the document that its shallow copy shares with it. -/
structure Shared where
  payload : Json
  others : List (String × Json)

def OutboxDocument.shared (d : OutboxDocument) : Shared := ⟨d.payload, d.delivery.others⟩

/-- The document as a handler that had those values leaves it. -/
def OutboxDocument.withShared (d : OutboxDocument) (x : Shared) : OutboxDocument :=
  { d with payload := x.payload, delivery := { d.delivery with others := x.others } }

/-- How a handler ends: `failure` is what the exception it raised is recorded as, and `left` what
it has made of the values it was given. -/
structure HandlerEnd where
  failure : Option Json
  /-- An error where they are no JSON any more. -/
  left : Except Failure Shared

abbrev Handler := OutboxDocument → Prog HandlerEnd

/-- The handler has effects of its own, and it may edit the payload in place. -/
def deliverEffect (host : Host) (effectId : String) (attemptedAt : Time) (handler : Handler) :
    Prog OutboxDocument := do
  let (item, observed) ← Program.inspect (readOutboxItem host effectId)
  if item.delivery.state = .delivered then return item
  else
    let ending ← handler item
    let left ← Program.lift ending.left
    let edited := item.withShared left
    let document := { edited with delivery := edited.delivery.attempted attemptedAt ending.failure }
    let payload := Content.outboxItem document
    Program.mapError (fun f => if f.isValueError then
        outboxFailure "outbox item changed during delivery CAS" [("effect_id", effectId)]
      else f) do
      let _ ← compareAndSwap host observed
        (regularState observed.path (host.hashBytes payload) 0o600 none) (some payload)
    Program.lift (validateOutboxItem host document effectId)
    if ending.failure.isSome then
      Program.throw (outboxFailure "outbox handler failed; effect remains retryable"
        [("effect_id", effectId), ("idempotency_key", item.idempotencyKey)])
    else return document

end AgentStack.Runtime
