import AgentStack.FileTree.Directories
import AgentStack.Host
import AgentStack.KeyedList.Basic

/-! File-state observation and byte-and-mode compare-and-swap. -/
namespace AgentStack.Reconcile

open AgentStack.Core FileTree Crash KeyedList

def casFailure (message : String) (path : Path) : Failure :=
  ⟨.renderer, "AWP_FILE_CAS_MISMATCH", message, [("path", joinPath path)]⟩

/-- No link and nothing but directories on the way to a target. -/
def target (path : Path) (s : FS) : Except Failure Unit :=
  if ¬ s.realDir [] then .error (casFailure "CAS root is not a real directory" [])
  else (parent path).inits.tail.forM fun q =>
    if s.isSymlink q then .error (casFailure "CAS path contains a symlink" path)
    else if s.exists q && !s.isDir q then
      .error (casFailure "CAS path parent is not a directory" path)
    else .ok ()

/-- What is observed of a node. -/
def describe (host : Host) (path : Path) (managed : Option String) :
    Option (Node Content) → Except Failure FileState
  | none => .ok (absentState path managed)
  | some (.symlink _) => .error (casFailure "CAS target is a symlink" path)
  | some (.file c m) => .ok (regularState path (host.hashBytes c) m managed)
  | some (.dir m) => .ok ⟨path, true, .directory, none, some m, true, managed⟩

def observeFileState (host : Host) (path : Path) (managed : Option String) (s : FS) :
    Except Failure FileState := do
  target path s
  describe host path managed (s.get path)

def assertState (host : Host) (expected : FileState) (s : FS) : Except Failure Unit := do
  let current ← observeFileState host expected.path expected.managedBlockHash s
  if current = expected then .ok ()
  else .error (casFailure "current file state differs from approved precondition" expected.path)

def casPrefix : String := ".awp-cas-"

/-- `compare_and_swap` for a candidate that is absent. -/
def removeTarget (host : Host) (expected candidate : FileState) : Prog FileState := do
  if expected.exists then
    if expected.fileType ≠ .regular then
      Program.throw (casFailure "CAS deletion supports regular files only" expected.path)
    else
      Program.inspect (assertState host expected)
      DirTree.syscall (DirTree.unlink expected.path)
  let result ← Program.inspect (observeFileState host expected.path none)
  if result ≠ candidate then
    Program.throw (casFailure "CAS deletion did not reach candidate state" expected.path)
  else return result

/-- `compare_and_swap` for a candidate that is a regular file. -/
def replaceTarget (host : Host) (expected candidate : FileState) (mode : Mode)
    (payload : Content) : Prog FileState := do
  let parentReady ← Program.read fun s =>
    s.isDir (parent expected.path) && !s.isSymlink (parent expected.path)
  if !parentReady then
    Program.throw (casFailure "CAS target parent is unavailable" expected.path)
  else
    DirTree.replaceFile host.names casPrefix expected.path payload mode
      (Program.inspect (assertState host expected))
    let result ← Program.inspect
      (observeFileState host expected.path candidate.managedBlockHash)
    if result ≠ candidate then
      Program.throw (casFailure "CAS replacement did not reach candidate state" expected.path)
    else return result

/-- Replace or remove one regular file only from its complete expected state. -/
def compareAndSwap (host : Host) (expected candidate : FileState) (bytes : Option Content) :
    Prog FileState := do
  if expected.path ≠ candidate.path then
    Program.throw (casFailure "CAS candidate path differs from precondition" expected.path)
  else
    Program.inspect (target expected.path)
    Program.inspect (assertState host expected)
    if !candidate.exists then
      if candidate.fileType ≠ .absent ∨ bytes.isSome then
        Program.throw (casFailure "absent CAS candidate contains bytes or type" expected.path)
      else removeTarget host expected candidate
    else
      match candidate.mode, bytes with
      | some mode, some payload =>
        if candidate.fileType ≠ .regular ∨ !candidate.nonSymlink then
          Program.throw (casFailure "CAS replacement candidate is invalid" expected.path)
        else if some (host.hashBytes payload) ≠ candidate.byteHash then
          Program.throw
            (casFailure "CAS candidate bytes differ from candidate digest" expected.path)
        else replaceTarget host expected candidate mode payload
      | _, _ => Program.throw (casFailure "CAS replacement candidate is invalid" expected.path)

/-- A candidate state, the bytes given for it, and the node they make. -/
inductive Realizes (host : Host) :
    FileState → Option Content → Option (Node Content) → Prop
  | absent (path : Path) : Realizes host (absentState path none) none none
  | regular (path : Path) (c : Content) (m : Mode) (managed : Option String) :
    Realizes host (regularState path (host.hashBytes c) m managed) (some c) (some (.file c m))

variable {host : Host} {s t : FS} {p : Path} {expected candidate : FileState}
  {bytes : Option Content} {n : Option (Node Content)}

theorem target_ok (h : s.Clear (parent p)) : target p s = .ok () := by
  rw [target, if_neg (not_not_intro h.1)]
  refine forM_ok fun q hq => ?_
  have hpre := (List.mem_inits q _).mp (List.mem_of_mem_tail hq)
  rcases h.2 q hpre with hn | ⟨m, hm⟩
  · simp [DirTree.isSymlink, DirTree.exists, hn]
  · simp [DirTree.isSymlink, DirTree.exists, DirTree.isDir, hm]

theorem clear_of_target (h : target p s = .ok ()) : s.Clear (parent p) := by
  unfold target at h
  split at h
  · cases h
  · next hroot =>
    refine ⟨not_not.mp hroot, fun q hq => ?_⟩
    by_cases hq' : q = []
    · subst hq'
      exact Or.inr (not_not.mp hroot)
    have hmem : q ∈ (parent p).inits.tail := by
      obtain ⟨n, l, rfl⟩ := List.exists_cons_of_ne_nil hq'
      obtain ⟨r, hr⟩ := hq
      rw [← hr, List.cons_append, List.inits_cons, List.tail_cons, List.mem_map]
      exact ⟨l, (List.mem_inits l _).mpr (List.prefix_append l r), rfl⟩
    have hstep := forM_eq_ok h q hmem
    split at hstep
    · cases hstep
    · next hlink =>
      split at hstep
      · cases hstep
      · next hdir =>
        match hget : s.get q with
        | none => exact Or.inl rfl
        | some (.dir m) => exact Or.inr ⟨m, hget⟩
        | some (.file c m) => simp [DirTree.exists, DirTree.isDir, hget] at hdir
        | some (.symlink k) => simp [DirTree.isSymlink, hget] at hlink

variable (host) in
theorem observeFileState_eq (h : s.Clear (parent p)) (managed : Option String) :
    observeFileState host p managed s = describe host p managed (s.get p) := by
  rw [observeFileState, target_ok h]
  rfl

theorem assertState_ok (h : s.Clear (parent expected.path))
    (ho : describe host expected.path expected.managedBlockHash (s.get expected.path) =
      .ok expected) : assertState host expected s = .ok () := by
  rw [assertState, observeFileState_eq host h, ho]
  change (if expected = expected then _ else _) = _
  rw [if_pos rfl]

theorem Realizes.describe (h : Realizes host candidate bytes n) :
    describe host candidate.path candidate.managedBlockHash n = .ok candidate := by
  cases h <;> rfl

theorem Realizes.not_directory {f : FileState} {bytes : Option Content}
    {n : Option (Node Content)} (h : Realizes host f bytes n) : f.fileType ≠ .directory := by
  cases h <;> simp [absentState, regularState]

theorem clear_update (h : s.Clear (parent p)) {q : Path} {n : Option (Node Content)}
    (ht : t.get = Function.update s.get q n) (hq : ¬ q <+: parent p) : t.Clear (parent p) := by
  have hget : ∀ r, r <+: parent p → t.get r = s.get r := by
    intro r hr
    rw [ht, Function.update_of_ne]
    rintro rfl
    exact hq hr
  refine ⟨DirTree.realDir_of_get_eq (hget [] List.nil_prefix) h.1, fun r hr => ?_⟩
  rcases h.2 r hr with hn | hd
  · exact .inl ((hget r hr).trans hn)
  · exact .inr (DirTree.realDir_of_get_eq (hget r hr) hd)

theorem not_prefix_parent {q p : Path} (h : parent q = parent p) (hq : q ≠ []) :
    ¬ q <+: parent p := by
  intro hpre
  have h1 := hpre.length_le
  have h2 := congrArg List.length (parent_append_name hq)
  rw [h] at h2
  simp at h2
  omega

theorem describe_file_or_absent {managed : Option String}
    (h : describe host p managed n = .ok expected) (hd : expected.fileType ≠ .directory) :
    ∀ m, n ≠ some (.dir m) := by
  rintro m rfl
  cases h
  exact hd rfl

private theorem replaceTarget_spec {c : Content} {m : Mode} {managed : Option String}
    (hp : p ≠ []) (htmp : ¬ DirTree.IsTemp casPrefix (parent p) p) (hdir : s.realDir (parent p))
    (hclear : s.Clear (parent p)) (hpath : expected.path = p)
    (hobs : describe host p expected.managedBlockHash (s.get p) = .ok expected)
    (hreg : expected.fileType ≠ .directory) :
    Triple (· = s)
      (replaceTarget host expected (regularState p (host.hashBytes c) m managed) m c)
      (Returns fun r t => r = regularState p (host.hashBytes c) m managed ∧
        t.get = Function.update s.get p (some (.file c m)))
      (DirTree.Replacing s casPrefix p (some (.file c m))) := by
  have hready : (s.isDir (parent p) && !s.isSymlink (parent p)) = true := by
    obtain ⟨m', hm'⟩ := hdir
    simp [DirTree.isDir, DirTree.isSymlink, hm']
  unfold replaceTarget
  refine Triple.bind_run (by rw [Program.read_run, hpath, hready]) ?_
  simp only [Bool.not_true, Bool.false_eq_true, if_false, hpath]
  refine Triple.bind_returns (DirTree.replaceFile_spec hdir (describe_file_or_absent hobs hreg)
    hp htmp ?_) fun _ => Triple.of_forall fun t ht => ?_
  · -- the precondition still holds beside the finished temporary file
    rintro t ⟨tmp, hT, habs, ht⟩
    have hne : tmp ≠ p := fun h => htmp (h ▸ hT)
    obtain ⟨x, -, -, hx⟩ := hT
    have hpar : parent tmp = parent p := by rw [hx, parent_append]
    have htn : tmp ≠ [] := by simp [hx]
    rw [Program.inspect_run, assertState_ok]
    · rw [hpath]
      exact clear_update hclear ht (not_prefix_parent hpar htn)
    · rw [hpath, ht, Function.update_of_ne hne.symm]
      exact hobs
  · have hclear' : t.Clear (parent p) := clear_update hclear ht (not_prefix_parent rfl hp)
    refine Triple.bind_run (a := regularState p (host.hashBytes c) m managed) ?_ ?_
    · rw [Program.inspect_run, observeFileState_eq host hclear', ht, Function.update_self]
      rfl
    · rw [if_neg (not_not_intro rfl)]
      exact Triple.returns ⟨rfl, ht⟩

private theorem removeTarget_spec (hp : p ≠ []) (hclear : s.Clear (parent p))
    (hpath : expected.path = p)
    (hobs : describe host p expected.managedBlockHash (s.get p) = .ok expected)
    (hreg : expected.fileType ≠ .directory) :
    Triple (· = s) (removeTarget host expected (absentState p none))
      (Returns fun r t => r = absentState p none ∧ t.get = Function.update s.get p none)
      (DirTree.Replacing s casPrefix p none) := by
  have hassert : assertState host expected s = .ok () :=
    assertState_ok (by rw [hpath]; exact hclear) (by rw [hpath]; exact hobs)
  have hend : ∀ t : FS, t.get = Function.update s.get p none →
      Triple (ε := Failure) (· = t) (do
        let result ← Program.inspect (observeFileState host expected.path none)
        if result ≠ absentState p none then
          Program.throw (casFailure "CAS deletion did not reach candidate state" expected.path)
        else return result)
      (Returns fun r t => r = absentState p none ∧ t.get = Function.update s.get p none)
      (DirTree.Replacing s casPrefix p none) := by
    intro t ht
    have hclear' : t.Clear (parent p) := clear_update hclear ht (not_prefix_parent rfl hp)
    refine Triple.bind_run (a := absentState p none) ?_ ?_
    · rw [Program.inspect_run, hpath, observeFileState_eq host hclear', ht, Function.update_self]
      rfl
    · rw [if_neg (not_not_intro rfl)]
      exact Triple.returns ⟨rfl, ht⟩
  unfold removeTarget
  rcases hg : s.get p with _ | ⟨c, m⟩ | m | k
  · have hex : expected.exists = false := by
      rw [hg] at hobs
      exact (congrArg FileState.exists (Except.ok.inj hobs)).symm
    simp only [hex, Bool.false_eq_true, if_false]
    exact hend s (by rw [← hg, Function.update_eq_self])
  · have hex : expected.exists = true ∧ expected.fileType = .regular := by
      rw [hg] at hobs
      exact ⟨(congrArg FileState.exists (Except.ok.inj hobs)).symm,
        (congrArg FileState.fileType (Except.ok.inj hobs)).symm⟩
    have hu : DirTree.unlink expected.path s = .ok (s.remove p) := by
      rw [hpath]
      exact DirTree.unlink_ok hg
    have hget := DirTree.get_remove_eq s p
    simp only [hex.1, hex.2, if_true, ne_eq, not_true_eq_false, if_false]
    refine Triple.bind_run (by rw [Program.inspect_run, hassert]) ?_
    refine Triple.bind_returns (DirTree.syscall_spec hu (.done hget)) fun _ => ?_
    refine Triple.of_forall fun t ht => ?_
    subst ht
    exact hend _ hget
  · exact absurd hg (describe_file_or_absent hobs hreg m)
  · rw [hg] at hobs
    cases hobs

/-- A compare-and-swap from the state on disk puts the candidate there, and on the way leaves
at most a temporary file beside it. -/
theorem compareAndSwap_spec (hr : Realizes host candidate bytes n)
    (hpath : expected.path = candidate.path) (hp : candidate.path ≠ [])
    (htmp : ¬ DirTree.IsTemp casPrefix (parent candidate.path) candidate.path)
    (hclear : s.Clear (parent candidate.path))
    (hdir : n ≠ none → s.realDir (parent candidate.path))
    (hobs : describe host candidate.path expected.managedBlockHash (s.get candidate.path) =
      .ok expected) (hreg : expected.fileType ≠ .directory) :
    Triple (· = s) (compareAndSwap host expected candidate bytes)
      (Returns fun r t => r = candidate ∧ t.get = Function.update s.get candidate.path n)
      (DirTree.Replacing s casPrefix candidate.path n) := by
  have hassert : assertState host expected s = .ok () :=
    assertState_ok (by rw [hpath]; exact hclear) (by rw [hpath]; exact hobs)
  unfold compareAndSwap
  rw [if_neg (not_not_intro hpath)]
  refine Triple.bind_run (by rw [Program.inspect_run, hpath, target_ok hclear]) ?_
  refine Triple.bind_run (by rw [Program.inspect_run, hassert]) ?_
  cases hr with
  | absent p => exact removeTarget_spec hp hclear hpath hobs hreg
  | regular p c m managed =>
    simp only [regularState, Bool.not_true, Bool.false_eq_true, if_false, ne_eq,
      not_true_eq_false, or_self]
    exact replaceTarget_spec hp htmp (hdir (by simp)) hclear hpath hobs hreg

/-- From any other state it raises and has no effect. -/
theorem compareAndSwap_mismatch (hpath : expected.path = candidate.path)
    (hclear : s.Clear (parent candidate.path))
    (hobs : describe host candidate.path expected.managedBlockHash (s.get candidate.path) ≠
      .ok expected) :
    ∃ e, (compareAndSwap host expected candidate bytes).run s = ⟨[], .error e⟩ := by
  have hassert : ∃ e, assertState host expected s = .error e := by
    rw [assertState, hpath, observeFileState_eq host hclear]
    rcases h : describe host candidate.path expected.managedBlockHash (s.get candidate.path) with
      e | f
    · exact ⟨e, rfl⟩
    · refine ⟨_, if_neg fun hf => ?_⟩
      exact hobs (by rw [h, hf])
  obtain ⟨e, he⟩ := hassert
  refine ⟨e, ?_⟩
  unfold compareAndSwap
  rw [if_neg (not_not_intro hpath),
    Program.bind_of_pure (by rw [Program.inspect_run, hpath, target_ok hclear]),
    Program.bind_of_error (by rw [Program.inspect_run, he])]

end AgentStack.Reconcile
