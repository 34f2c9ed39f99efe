import AgentStack.FileTree.Directories
import AgentStack.Host

/-! Advisory locks. Taking one leaves its directory and file behind; the calls of one process
are a single thread, so a lock that is taken is free. -/
namespace AgentStack.Reconcile

open AgentStack.Core FileTree Crash

def lockFailure (message : String) (path : Path) : Failure :=
  ⟨.renderer, "AWP_RECONCILE_LOCKED", message, [("path", joinPath path)]⟩

def controlDir : Path := [".agent-workflow"]

def realDirectory (host : Host) (path : Path) (create : Bool) : Prog Unit := do
  let linked ← Program.read fun s => s.isSymlink path
  if linked then Program.throw (lockFailure "lock directory is a symlink" path)
  else
    if create then DirTree.mkdirs host.dirMode path
    let ready ← Program.read fun s => s.isDir path
    if ready then return ()
    else Program.throw (lockFailure "lock directory is unavailable" path)

/-- `os.open` with `O_CREAT`, `O_RDWR` and `O_NOFOLLOW`. -/
def openCreate (path : Path) (mode : Mode) : Prog Unit := do
  Program.whenever (fun s => (s.get path).isNone) (DirTree.syscall (DirTree.create ∅ mode path))
  Program.inspect fun s => match s.get path with
    | some (.file _ _) => .ok ()
    | some (.dir _) => .error (OfOsError.ofOsError ⟨.isDirectory, path⟩)
    | _ => .error (OfOsError.ofOsError ⟨.invalid, path⟩)

def advisoryLock (host : Host) (path : Path) : Prog Unit := do
  realDirectory host (parent path) true
  Program.mapError (fun f => if f.kind = .os then lockFailure "cannot open OS lock" path else f)
    (openCreate path 0o600)

def acquireRuntimeStateGate (host : Host) : Prog Unit := do
  realDirectory host [] false
  realDirectory host controlDir true
  advisoryLock host (controlDir ++ ["runtime-state.lock"])

/-- Reconcile, then runtime state: the lifecycle's one order. -/
def acquireProjectLocks (host : Host) : Prog Unit := do
  realDirectory host [] false
  realDirectory host controlDir true
  advisoryLock host (controlDir ++ ["reconcile.lock"])
  advisoryLock host (controlDir ++ ["runtime-state.lock"])

end AgentStack.Reconcile
