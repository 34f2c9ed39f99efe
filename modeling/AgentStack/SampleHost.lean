import AgentStack.Runtime.Integration

/-! A machine and a task to evaluate the model on. -/
namespace AgentStack.Runtime

open AgentStack.Core FileTree

/-- A text of 64 hexadecimal digits. -/
def sampleDigest (n : Nat) : String :=
  String.ofList (List.replicate (n % 64) 'a' ++ List.replicate (64 - n % 64) 'b')

theorem sampleDigest_isDigest (n : Nat) : isDigest (sampleDigest n) = true := by
  have := Nat.mod_lt n (show 64 > 0 by decide)
  simp [isDigest, sampleDigest, List.all_replicate, isLowerHex]
  omega

theorem sampleDigest_inj {a b : Nat} (h : sampleDigest a = sampleDigest b) : a % 64 = b % 64 := by
  have := congrArg (List.count 'a') (String.ofList_injective h)
  simpa [List.count_replicate] using this

/-- Apart on all that the sample hashes. -/
def sampleHash : Preimage → String
  | .content (.integration i) => sampleDigest i.lifecycle.stateRevision.toNat
  | .content (.bytes b) => sampleDigest (16 + b.length)
  | .content (.replayLedger l) => sampleDigest (24 + l.entries.length)
  | .taskTransaction _ => sampleDigest 61
  | .proofKey .. => sampleDigest 62
  | _ => sampleDigest 63

def longest (used : List String) : Nat := (used.map String.length).foldr max 0

theorem length_le_longest {used : List String} {x : String} (h : x ∈ used) :
    x.length ≤ longest used := by
  induction used with
  | nil => cases h
  | cons y l ih =>
    rcases List.mem_cons.mp h with rfl | h
    · exact le_max_left _ _
    · exact (ih h).trans (le_max_right _ _)

/-- A name longer than any in use is unused. -/
def sampleNames : TempNames where
  pick pre used := pre ++ String.ofList (List.replicate (8 + longest used) 'x')
  fresh pre used h := by
    have := length_le_longest h
    simp at this
    omega
  shape pre used := ⟨_, by simp, by simp, rfl⟩

def sampleHost : Host where
  sha256 := sampleHash
  sha256_isDigest x := by
    unfold sampleHash
    split <;> exact sampleDigest_isDigest _
  names := sampleNames
  nfc := id
  dirMode := 0o755
  fileMode := 0o644

theorem hashBytes_integration_ne {i j : Integration}
    (h : i.lifecycle.stateRevision.toNat % 64 ≠ j.lifecycle.stateRevision.toNat % 64) :
    sampleHost.hashBytes (.integration i) ≠ sampleHost.hashBytes (.integration j) :=
  fun he => h (sampleDigest_inj he)

def sampleTransaction : String := "00000000-0000-4000-8000-000000000001"

def sampleTask : String := "00000000-0000-4000-8000-000000000002"

def sampleWorkspace : String := "00000000-0000-4000-8000-000000000003"

def sampleContract : WorkflowContract :=
  ⟨1, sampleDigest 1, sampleDigest 1, sampleDigest 1, sampleDigest 1, "adapter", "1", 1,
    [⟨"runtime-control-plane", sampleDigest 1⟩, ⟨"surface-registry", sampleDigest 1⟩]⟩

def sampleRecord : AdmissionRecord :=
  ⟨"create-integrated-task", sampleTask, "tasks/t", "intent", sampleDigest 1, sampleTransaction,
    sampleDigest 1, sampleWorkspace, "00000000-0000-4000-8000-000000000004", sampleDigest 1,
    "00000000-0000-4000-8000-000000000005", sampleDigest 1, sampleDigest 1, "verifier", "1",
    "approver", "token", 0⟩

def sampleIntegration (lifecycle : Lifecycle) : Integration :=
  ⟨sampleContract, lifecycle, sampleRecord, .trellisNative "tasks/t"⟩

theorem sampleContract_valid : ∃ pins, validateWorkflow sampleContract = .ok pins := by
  have h : (validateWorkflow sampleContract).isOk = true := by decide
  exact exists_of_isOk h

theorem sampleRecord_valid :
    validateAdmission sampleHost sampleRecord = .ok (sampleTask, "tasks/t") := by
  decide

theorem sampleIntegration_valid {lifecycle : Lifecycle}
    (h : (validateLifecycle lifecycle).isOk = true) :
    ∃ x, validateIntegration sampleHost (sampleIntegration lifecycle) = .ok x := by
  obtain ⟨pins, hpins⟩ := sampleContract_valid
  obtain ⟨⟨status, revision⟩, hl⟩ := exists_of_isOk h
  have href : requireTaskRef sampleHost "tasks/t" "trellis_native.task_ref" = .ok "tasks/t" := by
    decide
  refine ⟨⟨.trellisNative, sampleTask, "tasks/t", status, revision, pins, none, none⟩, ?_⟩
  simp [validateIntegration, sampleIntegration, hpins, hl, sampleRecord_valid, href]

def sampleActive : Integration := sampleIntegration ⟨.active, 2, some 5, none, none, []⟩

end AgentStack.Runtime
