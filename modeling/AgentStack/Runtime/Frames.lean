import AgentStack.FileTree.Frames
import AgentStack.Runtime.TaskService

/-! What the programs of the task runtime leave alone, whatever store they start from. -/
namespace AgentStack.Runtime

open AgentStack.Core FileTree Crash Reconcile DirTree

variable {host : Host} {W : Path → Prop}

/-! ### Locks -/

section Locks

/-- Both relations a program can be within hold of a directory made or a file created. -/
theorem realDirectory_within {rel : FS → FS → Prop} [Std.Refl rel] [IsTrans FS rel]
    {p : Path} (create : Bool) (hmake : Within rel (mkdirs host.dirMode p : Prog Unit)) :
    Within rel (realDirectory host p create) := by
  have hready : Within rel (do
      let ready ← Program.read fun s : FS => s.isDir p
      if ready then return ()
      else Program.throw (lockFailure "lock directory is unavailable" p) : Prog Unit) :=
    (Within.read _).bind fun ready => Within.ite (Within.pure ()) (Within.throw _)
  refine (Within.read _).bind fun linked => Within.ite (Within.throw _) ?_
  exact Within.ite (hmake.bind fun _ => hready) hready

theorem openCreate_within {rel : FS → FS → Prop} [Std.Refl rel] [IsTrans FS rel]
    {p : Path} {m : FileTree.Mode}
    (hcreate : Within rel (syscall (create ∅ m p) : Prog Unit)) :
    Within rel (openCreate p m) := by
  refine Within.bind (Within.whenever hcreate) fun _ => ?_
  exact Within.inspect _

theorem acquireProjectLocks_frame
    (hlock : ∀ n, n = "reconcile.lock" ∨ n = "runtime-state.lock" →
      ∀ q, q <+: controlDir ++ [n] → W q) :
    Within (Frame W) (acquireProjectLocks host) := by
  have hmake : ∀ p, p <+: controlDir → Within (Frame W) (mkdirs host.dirMode p : Prog Unit) := by
    intro p hp
    apply mkdirs_frame
    intro q hq
    exact hlock _ (Or.inl rfl) q ((hq.trans hp).trans (List.prefix_append _ _))
  have hadvisory : ∀ n, n = "reconcile.lock" ∨ n = "runtime-state.lock" →
      Within (Frame W) (advisoryLock host (controlDir ++ [n])) := by
    intro n hn
    refine (realDirectory_within true (hmake _ ?_)).bind fun _ => ?_
    · rw [parent_append]
    · exact Within.mapError (openCreate_within
        (create_frame (by simp) (hlock n hn _ List.prefix_rfl)))
  refine (realDirectory_within false (hmake [] List.nil_prefix)).bind fun _ => ?_
  refine (realDirectory_within true (hmake _ List.prefix_rfl)).bind fun _ => ?_
  exact (hadvisory _ (Or.inl rfl)).bind fun _ => hadvisory _ (Or.inr rfl)

private theorem enterTask_within {rel : FS → FS → Prop} [Std.Refl rel] [IsTrans FS rel]
    {taskRef : String} {current : Option String}
    (hmake : ∀ p, p = [] ∨ p = controlDir ∨ p = parent (taskLockPath host taskRef) →
      Within rel (mkdirs host.dirMode p : Prog Unit))
    (hcreate : ∀ p m, p = controlDir ++ ["runtime-state.lock"] ∨ p = taskLockPath host taskRef →
      Within rel (syscall (create ∅ m p) : Prog Unit)) :
    Within rel (enterTask host taskRef current) := by
  have hgate : Within rel (acquireRuntimeStateGate host) := by
    refine (realDirectory_within false (hmake [] (by simp))).bind fun _ => ?_
    refine (realDirectory_within true (hmake _ (by simp))).bind fun _ => ?_
    refine (realDirectory_within true (hmake _ (by simp))).bind fun _ => ?_
    exact Within.mapError (openCreate_within (hcreate _ _ (by simp)))
  refine hgate.bind fun _ => Within.bind ?_ fun _ => ?_
  · refine (hmake _ (by simp)).bind fun _ => (Within.read _).bind fun linked => ?_
    exact Within.ite (Within.throw _) (openCreate_within (hcreate _ _ (by simp)))
  · exact (Within.inspect _).bind fun _ => Within.inspect _

theorem enterTask_frame (taskRef : String) (current : Option String)
    (hgate : ∀ q, q <+: controlDir ++ ["runtime-state.lock"] → W q)
    (hlock : ∀ q, q <+: taskLockPath host taskRef → W q) :
    Within (Frame W) (enterTask host taskRef current) := by
  apply enterTask_within
  · intro p hp
    apply mkdirs_frame
    intro q hq
    rcases hp with rfl | rfl | rfl
    · exact hgate q (hq.trans List.nil_prefix)
    · exact hgate q (hq.trans (List.prefix_append _ _))
    · exact hlock q (hq.trans (List.dropLast_prefix _))
  · intro p m hp
    rcases hp with rfl | rfl
    · exact create_frame (by simp) (hgate _ List.prefix_rfl)
    · exact create_frame (by simp [taskLockPath]) (hlock _ List.prefix_rfl)

end Locks

/-! ### Journals -/

theorem atomicJson_leaves {p : Path} {document : TaskJournal} (hp : W p)
    (hw : ∀ q, q <+: parent p → W q) : Leaves (Frame W) (atomicJson host p document) := by
  refine (mkdirs_frame _ _ hw).leaves.bind fun _ => (Within.read _).leaves.bind fun linked => ?_
  refine Leaves.ite (Within.throw _).leaves (replaceFile_leaves ?_ hp)
  intro t
  rfl

section Journal

variable {transactionId taskId taskRef : String} {operation : Operation} {header : Header}
  {document : TaskJournal} {phase : Phase} {outcome : Option Outcome}

theorem journalPath_eq_ok {path : Path} (h : journalPath transactionId = .ok path) :
    path = journalFile transactionId := by
  obtain ⟨u, -, hp⟩ := bind_eq_ok h
  exact (Except.ok.inj hp).symm

theorem createTaskJournal_leaves (hw : ∀ q, q <+: journalFile transactionId → W q) :
    Leaves (Frame W)
      (createTaskJournal host transactionId operation taskId taskRef header) := by
  refine Leaves.lift_bind fun path hpath => (Within.read _).leaves.bind fun present => ?_
  rw [journalPath_eq_ok hpath]
  refine Leaves.ite (Within.throw _).leaves ((Within.lift _).leaves.bind fun _ => ?_)
  refine (atomicJson_leaves (hw _ List.prefix_rfl) fun q hq => ?_).bind fun _ =>
    (Within.pure _).leaves
  exact hw q (hq.trans (List.dropLast_prefix _))

theorem advanceTaskJournal_leaves (hw : ∀ q, q <+: journalFile document.transactionId → W q) :
    Leaves (Frame W) (advanceTaskJournal host document phase outcome) := by
  refine (Within.lift _).leaves.bind fun _ => ?_
  split
  · refine Leaves.ite (Within.throw _).leaves ((Within.lift _).leaves.bind fun _ => ?_)
    refine Leaves.lift_bind fun path hpath => ?_
    rw [journalPath_eq_ok hpath]
    refine (atomicJson_leaves (hw _ List.prefix_rfl) fun q hq => ?_).bind fun _ =>
      (Within.pure _).leaves
    exact hw q (hq.trans (List.dropLast_prefix _))
  · exact (Within.throw _).leaves

end Journal

/-! ### Compare-and-swap -/

section Swap

variable {expected candidate : FileState} {bytes : Option Content}

theorem removeTarget_frame (hw : W expected.path) :
    Within (Frame W) (removeTarget host expected candidate) := by
  have hlook : Within (Frame W) (do
      let result ← Program.inspect (observeFileState host expected.path none)
      if result ≠ candidate then
        Program.throw (casFailure "CAS deletion did not reach candidate state" expected.path)
      else return result : Prog FileState) :=
    (Within.inspect _).bind fun _ => Within.ite (Within.throw _) (Within.pure _)
  refine Within.ite (Within.ite (Within.throw _) ?_) hlook
  exact (Within.inspect _).bind fun _ => (unlink_frame hw).bind fun _ => hlook

theorem replaceTarget_leaves {mode : FileTree.Mode} {payload : Content} (hw : W expected.path) :
    Leaves (Frame W) (replaceTarget host expected candidate mode payload) := by
  refine (Within.read _).leaves.bind fun ready => Leaves.ite (Within.throw _).leaves ?_
  refine (replaceFile_leaves ?_ hw).bind fun _ => ?_
  · intro t
    rfl
  · exact ((Within.inspect _).bind fun _ => Within.ite (Within.throw _) (Within.pure _)).leaves

theorem compareAndSwap_leaves (hw : W expected.path) :
    Leaves (Frame W) (compareAndSwap host expected candidate bytes) := by
  refine Leaves.ite (Within.throw _).leaves ?_
  refine (Within.inspect _).leaves.bind fun _ => (Within.inspect _).leaves.bind fun _ => ?_
  refine Leaves.ite (Leaves.ite (Within.throw _).leaves ?_) ?_
  · exact (removeTarget_frame hw).leaves
  · split
    · refine Leaves.ite (Within.throw _).leaves (Leaves.ite (Within.throw _).leaves ?_)
      exact replaceTarget_leaves hw
    · exact (Within.throw _).leaves

variable (host) in
theorem casIntegration_leaves {taskRef : String} (before after : Integration)
    (hw : W (integrationFile taskRef)) :
    Leaves (Frame W) (casIntegration host taskRef before after) := by
  refine (Within.inspect _).leaves.bind fun current => Leaves.ite (Within.pure _).leaves ?_
  exact (compareAndSwap_leaves hw).bind fun _ => (Within.pure _).leaves

theorem applyMetadata_leaves {mutations : List MetadataMutation}
    (hw : ∀ m ∈ mutations, W m.original.path) :
    Leaves (Frame W) (applyMetadata host mutations) := by
  refine Leaves.each _ fun m hm => ?_
  refine (Within.inspect _).leaves.bind fun current => Leaves.ite (Within.pure _).leaves ?_
  exact (compareAndSwap_leaves (hw m hm)).bind fun _ => (Within.pure _).leaves

end Swap

/-! ### Outbox -/

theorem enqueueEffect_leaves {operation taskId transactionId : String} {effect : OutboxEffect}
    {createdAt : Time} (hw : ∀ effectId q, q <+: outboxPath effectId → W q) :
    Leaves (Frame W) (enqueueEffect host operation taskId transactionId effect createdAt) := by
  iterate 7 refine (Within.lift _).leaves.bind fun _ => ?_
  refine (Within.read _).leaves.bind fun linked => Leaves.ite (Within.throw _).leaves ?_
  have hroot : ∀ q, q <+: outboxRoot → W q := fun q hq =>
    hw "" q (hq.trans (List.prefix_append _ _))
  refine (mkdirs_frame _ _ hroot).leaves.bind fun _ => ?_
  refine (Within.read _).leaves.bind fun ready => Leaves.ite (Within.throw _).leaves ?_
  refine (Within.inspect _).leaves.bind fun observed => Leaves.ite ?_ ?_
  · refine ((Within.inspect _).bind fun existing => ?_).leaves
    exact Within.ite (Within.throw _) (Within.pure _)
  · refine Leaves.bind (Leaves.mapError ?_) fun _ =>
      ((Within.lift _).bind fun _ => Within.pure _).leaves
    refine (compareAndSwap_leaves (hw _ _ List.prefix_rfl)).bind fun _ => (Within.pure _).leaves

theorem enqueueHeaderEffects_leaves {effects : List OutboxEffect}
    {taskId transactionId operation : String} {createdAt : Time}
    (hw : ∀ effectId q, q <+: outboxPath effectId → W q) :
    Leaves (Frame W)
      (enqueueHeaderEffects host effects taskId transactionId operation createdAt) :=
  Leaves.each _ fun _ _ => (enqueueEffect_leaves hw).bind fun _ => (Within.pure _).leaves

/-! ### Ledger -/

end AgentStack.Runtime
