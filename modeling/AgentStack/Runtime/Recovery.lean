import AgentStack.Runtime.PhaseRuns

/-! Recovery of one transaction: when it gets in, and the runs it takes part in. -/
namespace AgentStack.Runtime

open AgentStack.Core FileTree Crash Reconcile

variable {host : Host} {L : Layout} {v : View} {s c : FS}

/-- The phase the stored journal is at. -/
def PhaseIs (host : Host) (transactionId : String) (phase : Phase) (c : FS) : Prop :=
  ∃ j, readTaskJournal host transactionId c = .ok j ∧ j.phase = phase

theorem JournalsShow.phaseIs_iff {transactionId : String} {j : TaskJournal} {residue : Bool}
    {phase : Phase} (h : JournalsShow host transactionId j residue s) :
    PhaseIs host transactionId phase s ↔ j.phase = phase := by
  constructor
  · rintro ⟨k, hk, hp⟩
    rw [h.read] at hk
    obtain rfl := Except.ok.inj hk
    exact hp
  · intro hp
    exact ⟨j, h.read, hp⟩

/-- Recovery gets in and takes its branch. -/
theorem recover_run (h : Shows host L v s) (hr : v.residue = false)
    (ht : v.journal.taskRef = L.taskRef) (action : RecoveryAction) :
    (recoverTaskTransactionInternal host L.transactionId action).run s =
      (recoverJournal host v.journal action).run s := by
  rw [recoverTaskTransactionInternal,
    Program.bind_of_pure (by rw [Program.inspect_run, h.journals.read]), ht,
    Program.bind_of_pure (enterTask_run h hr)]

/-- A leftover in the journal directory keeps every recovery out. -/
theorem recover_residue (h : Shows host L v s) (hr : v.residue = true)
    (ht : v.journal.taskRef = L.taskRef) (action : RecoveryAction) :
    ∃ e, (recoverTaskTransactionInternal host L.transactionId action).run s = ⟨[], .error e⟩ := by
  obtain ⟨e, he⟩ := enterTask_residue h hr (some L.transactionId)
  refine ⟨e, ?_⟩
  rw [recoverTaskTransactionInternal,
    Program.bind_of_pure (by rw [Program.inspect_run, h.journals.read]), ht,
    Program.bind_of_error he]

/-- Recoveries one after the other, each stopped where it ends or anywhere before; `allowed`
says which may be started where. -/
inductive Recoveries (host : Host) (transactionId : String)
    (allowed : FS → RecoveryAction → Prop) : FS → FS → Prop
  | refl (c : FS) : Recoveries host transactionId allowed c c
  | step {c d e : FS} (h : Recoveries host transactionId allowed c d) (action : RecoveryAction)
    (ok : allowed d action)
    (he : e ∈ (recoverTaskTransactionInternal host transactionId action).states d) :
    Recoveries host transactionId allowed c e

/-- What every allowed recovery keeps holds at the end of every run. -/
theorem Recoveries.invariant {transactionId : String} {allowed : FS → RecoveryAction → Prop}
    {P : FS → Prop} (hstep : ∀ d action, P d → allowed d action →
      ∀ e ∈ (recoverTaskTransactionInternal host transactionId action).states d, P e)
    {d : FS} (h : Recoveries host transactionId allowed c d) (hc : P c) : P d := by
  induction h with
  | refl => exact hc
  | step _ action ok he ih => exact hstep _ action ih ok _ he

/-- Where rollbacks of one transaction can be cut short again and again. -/
inductive Interrupted (host : Host) (transactionId : String) : FS → FS → Prop
  | start (c : FS) : Interrupted host transactionId c c
  | again {c d e : FS} (h : Interrupted host transactionId c d)
    (he : e ∈ (recoverTaskTransactionInternal host transactionId .rollback).states d)
    (unfinished : ¬ PhaseIs host transactionId .complete e) : Interrupted host transactionId c e

end AgentStack.Runtime
