import AgentStack.Core.Canonical

/-! The complete observable state of one path. -/
namespace AgentStack.Reconcile

open FileTree

inductive FileType
  | regular
  | directory
  | absent
  deriving DecidableEq, Repr

/-- `none` stands for the canonical null. -/
structure FileState where
  path : Path
  «exists» : Bool
  fileType : FileType
  byteHash : Option String
  mode : Option Mode
  nonSymlink : Bool
  managedBlockHash : Option String
  deriving DecidableEq, Repr

/-- A state a document can hold: what does not exist has no type and no bytes. -/
def FileState.Valid (f : FileState) : Prop :=
  if f.exists then f.fileType ≠ .absent else f.fileType = .absent ∧ f.byteHash = none

instance (f : FileState) : Decidable f.Valid := by unfold FileState.Valid; infer_instance

def absentState (path : Path) (managedBlockHash : Option String) : FileState :=
  ⟨path, false, .absent, none, none, true, managedBlockHash⟩

def regularState (path : Path) (byteHash : String) (mode : Mode)
    (managedBlockHash : Option String) : FileState :=
  ⟨path, true, .regular, some byteHash, some mode, true, managedBlockHash⟩

end AgentStack.Reconcile
