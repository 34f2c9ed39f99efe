import AgentStack.Runtime.Documents

/-! The machine the package runs on: its file system, hash, name and permission choices. -/
namespace AgentStack

open AgentStack.Core FileTree Crash AgentStack.Runtime

/-- What a file holds: the canonical text of a document, or other bytes. -/
inductive Content
  | bytes (payload : Bytes)
  | integration (document : Integration)
  | replayLedger (document : ReplayLedger)
  | outboxItem (document : OutboxDocument)
  | taskJournal (document : TaskJournal)
  | workspace (document : WorkspaceDocument)
  | registration (document : RegistrationJournal)
  | migration (document : MigrationJournal)
  deriving DecidableEq, Repr

instance : EmptyCollection Content := ⟨.bytes []⟩

abbrev FS := DirTree Content

abbrev Prog := Program FS Failure

/-- The canonical text of a document of local state. -/
def Runtime.LocalDocument.content : LocalDocument → Content
  | .workspace document => .workspace document
  | .replayLedger document => .replayLedger document
  | .outboxItem document => .outboxItem document
  | .other payload => .bytes payload

/-- What the package hashes; each digest domain is a constructor. -/
inductive Preimage
  | content (c : Content)
  | text (value : String)
  | taskTransaction (header : Header)
  | outboxPayload (payload : Json)
  | outboxEffect (identity : EffectIdentity)
  | outboxIdempotency (effectId handlerId handlerVersion : String)
  | proofKey (approvalId approvalChallenge routeDecisionDigest workspaceInstanceId : String)
  | localContract (releaseId releaseVersion : String)
    (workspaceSchema approvalReplaySchema taskOutboxSchema : Int) (trellisTaskLayoutDigest : String)
  | migrationBinding (header : MigrationHeader)
  deriving DecidableEq, Repr

structure Host where
  sha256 : Preimage → String
  sha256_isDigest : ∀ x, isDigest (sha256 x) = true
  names : TempNames
  nfc : String → String
  /-- Permissions of a new directory and a new file under the process's umask. -/
  dirMode : FileTree.Mode
  fileMode : FileTree.Mode

def Host.hashBytes (host : Host) (c : Content) : String := host.sha256 (.content c)

end AgentStack
