import AgentStack.Crash.Collect
import AgentStack.Reconcile.Lifecycle
import AgentStack.Runtime.WorkspaceSteps

/-! The steps of a lifecycle transaction, as the paths that matter to it see them: each leaves all
of them alone or changes one. -/
namespace AgentStack.Reconcile.Lifecycle

open AgentStack.Core FileTree Crash DirTree

variable {host : LifecycleHost} {j₀ : LifecycleJournal} {s t u : FS} {p q : Path}
  {n : Option (Node Content)} {α : Type}

/-! ### What is watched -/

/-- Paths that the lifecycle itself writes at or below. -/
def Reserved (j₀ : LifecycleJournal) (c : Path) : Prop :=
  c = transactionRoot ∨ c = manifestPath ∨ c = maintenancePath ∨
    c = Runtime.lockFile "reconcile.lock" ∨ c = Runtime.lockFile "runtime-state.lock" ∨
    c = probeRoot j₀.header.transactionId

/-- The paths that tell how far a transaction has come, and the ways to its files. -/
def Watched (j₀ : LifecycleJournal) (q : Path) : Prop :=
  q <+: controlDir ∨ q = transactionPath j₀.header.transactionId ∨ q = manifestPath ∨
    q = maintenancePath ∨ ∃ r ∈ j₀.fileRecords, q <+: r.originalState.path

/-- A record without what an apply notes in it. -/
def core (r : FileRecord) : FileRecord := { r with backupByteHash := none, applied := false }

/-- The same transaction, further on. -/
structure Version (j₀ j : LifecycleJournal) : Prop where
  immutable : j.immutable = j₀.immutable
  records : j.fileRecords.map core = j₀.fileRecords.map core

/-- A journal as an apply writes it first. -/
structure Sound (host : LifecycleHost) (j₀ : LifecycleJournal) : Prop where
  named : j₀.header.transactionId.toList ≠ []
  paths : ∀ r ∈ j₀.fileRecords, r.candidateState.path = r.originalState.path
  candidates : ∀ r ∈ j₀.fileRecords,
    ∃ n, Realizes host.toHost r.candidateState r.candidateContent n
  originals : ∀ r ∈ j₀.fileRecords, r.originalState = absentState r.originalState.path none ∨
    ∃ h m managed, r.originalState = regularState r.originalState.path h m managed
  apart : j₀.fileRecords.Pairwise fun a b =>
    ¬ a.originalState.path <+: b.originalState.path ∧
      ¬ b.originalState.path <+: a.originalState.path
  reserved : ∀ r ∈ j₀.fileRecords, ∀ c, Reserved j₀ c →
    ¬ c <+: r.originalState.path ∧ ¬ r.originalState.path <+: c
  steady : ∀ r ∈ j₀.fileRecords, ∀ q, q <+: r.originalState.path → Runtime.Steady q
  backups : ∀ r ∈ j₀.fileRecords, ∀ b, r.backupPath = some b → ∃ id n, b = backupPath id n
  created : ∀ d ∈ j₀.createdDirectories, d ≠ [] ∧ d ≠ controlDir ∧
    ∃ r ∈ j₀.fileRecords, d <+: r.originalState.path ∧ d ≠ r.originalState.path
  commits : j₀.candidateManifest.commits j₀ = true

theorem Sound.not_control (h : Sound host j₀) {r : FileRecord} (hr : r ∈ j₀.fileRecords) :
    ¬ r.originalState.path <+: controlDir := by
  intro hpre
  have htrans := h.reserved r hr transactionRoot (Or.inl rfl)
  exact htrans.2 (hpre.trans (List.prefix_append controlDir ["transactions"]))

/-- Of what lies below the transactions, only the journal is watched. -/
theorem Sound.watched_below (h : Sound host j₀) (hw : Watched j₀ q)
    (hq : transactionRoot <+: q) : q = transactionPath j₀.header.transactionId := by
  rcases hw with hw | hw | rfl | rfl | ⟨r, hr, hpre⟩
  · exact absurd (hq.trans hw) (by decide)
  · exact hw
  · exact absurd hq (by decide)
  · exact absurd hq (by decide)
  · exact absurd (hq.trans hpre) (h.reserved r hr _ (Or.inl rfl)).1

theorem prefix_transactionRoot (hq : q <+: transactionRoot) :
    q <+: controlDir ∨ q = transactionRoot := by
  rcases List.prefix_concat_iff.mp (show q <+: controlDir ++ ["transactions"] from hq) with h | h
  · exact Or.inr h
  · exact Or.inl h

theorem transactionRoot_not_watched (h : Sound host j₀) : ¬ Watched j₀ transactionRoot := by
  intro hw
  have heq := h.watched_below hw List.prefix_rfl
  have hlen := congrArg List.length heq
  simp [transactionPath, transactionRoot, controlDir] at hlen

/-- On the way to something below the transactions, only the ways to the control directory are
watched. -/
theorem Sound.way_below (h : Sound host j₀) (rest : Path) (hrest : ∀ n ∈ rest.head?,
    n ≠ j₀.header.transactionId ++ ".json") (hw : Watched j₀ q)
    (hq : q <+: transactionRoot ++ rest) : q <+: controlDir := by
  rcases List.prefix_or_prefix_of_prefix hq (List.prefix_append transactionRoot rest) with hup | hup
  · rcases prefix_transactionRoot hup with hctl | rfl
    · exact hctl
    · exact absurd hw (transactionRoot_not_watched h)
  · have heq := h.watched_below hw hup
    rw [heq, transactionPath] at hq
    have htail := (List.prefix_append_right_inj transactionRoot).mp hq
    obtain ⟨more, hmore⟩ := htail
    exact absurd rfl (hrest _ (by rw [← hmore]; rfl))

/-! ### Steps that are not seen, and steps that are -/

/-- A tree whose control directory stands. -/
structure Entered (s : FS) : Prop where
  shape : s.WellFormed
  control : s.realDir controlDir

def Agree (j₀ : LifecycleJournal) (s t : FS) : Prop := ∀ q, Watched j₀ q → t.get q = s.get q

/-- Nothing that is watched changes. -/
def Same (j₀ : LifecycleJournal) (s t : FS) : Prop := Entered s → Entered t ∧ Agree j₀ s t

/-- Of what is watched, at most `p` changes, and `n` is there now. -/
def Shift (j₀ : LifecycleJournal) (p : Path) (n : Option (Node Content)) (s t : FS) : Prop :=
  Entered s → Entered t ∧ ∀ q, Watched j₀ q → t.get q = Function.update s.get p n q

instance : Std.Refl (Same j₀) := ⟨fun _ hs => ⟨hs, fun _ _ => rfl⟩⟩

instance : IsTrans FS (Same j₀) := by
  constructor
  intro s t u h h' hs
  obtain ⟨ht, hagree⟩ := h hs
  obtain ⟨hu, hagree'⟩ := h' ht
  refine ⟨hu, fun q hq => ?_⟩
  rw [hagree' q hq, hagree q hq]

theorem watched_control : Watched j₀ controlDir := Or.inl List.prefix_rfl

theorem entered_of_agree (hs : Entered s) (ht : t.WellFormed) (h : Agree j₀ s t) : Entered t :=
  ⟨ht, realDir_of_get_eq (h _ watched_control) hs.control⟩

theorem same_of_frame {W : Path → Prop} (h : Frame W s t) (hW : ∀ q, W q → ¬ Watched j₀ q) :
    Same j₀ s t := by
  intro hs
  have hagree : Agree j₀ s t := fun q hq => h.off q fun hq' => hW q hq' hq
  exact ⟨entered_of_agree hs (h.shape hs.shape) hagree, hagree⟩

theorem shift_of_frame (h : Frame (· = p) s t) (hn : t.get p = n) (hp : p ≠ controlDir) :
    Shift j₀ p n s t := by
  intro hs
  have hget : ∀ q, t.get q = Function.update s.get p n q := by
    intro q
    by_cases hq : q = p
    · rw [hq, Function.update_self, hn]
    · rw [Function.update_of_ne hq, h.off q hq]
  refine ⟨⟨h.shape hs.shape, ?_⟩, fun q _ => hget q⟩
  refine realDir_of_get_eq ?_ hs.control
  rw [hget, Function.update_of_ne (Ne.symm hp)]

theorem within_same {W : Path → Prop} {prog : Prog α} (h : Within (Frame W) prog)
    (hW : ∀ q, W q → ¬ Watched j₀ q) : Within (Same j₀) prog :=
  h.mono fun _ _ hf => same_of_frame hf hW

/-- Directories that are made on a way of which only the start is watched. -/
theorem mkdirs_same (h : ∀ q, q <+: p → Watched j₀ q → q <+: controlDir) (m : Mode) :
    Within (Same j₀) (mkdirs m p : Prog Unit) := by
  intro s c hc hs
  have hgrown := (mkdirs_grown (ε := Failure) m s p s rfl).1 c hc
  have hframe := mkdirs_frame (ε := Failure) (W := fun q => q <+: p) m p (fun _ hq => hq) s c hc
  have hagree : Agree j₀ s c := by
    intro q hq
    by_cases hpre : q <+: p
    · obtain ⟨k, hk⟩ := (hs.shape.reaches hs.control) q (h q hpre hq)
      rw [hk]
      exact hgrown.added.get_some hk
    · exact hframe.off q hpre
  exact ⟨entered_of_agree hs (hframe.shape hs.shape) hagree, hagree⟩

theorem frame_of_syscall {W : Path → Prop} {f : FS → Except OsError FS}
    (h : Within (Frame W) (syscall f : Prog Unit)) (ht : f s = .ok t) : Frame W s t := by
  have hrun := syscall_ok (ε := Failure) ht
  refine h s t ?_
  rw [hrun]
  exact List.mem_singleton_self t

/-- A single call that changes `p` only. -/
theorem syscall_shift {f : FS → Except OsError FS} (hp : p ≠ controlDir)
    (h : ∀ t, f s = .ok t → Frame (· = p) s t ∧ t.get p = n) :
    Triple (· = s) (syscall f : Prog Unit) (Ends (fun _ t => Shift j₀ p n s t) fun t => t = s)
      (Shift j₀ p n s) := by
  refine Triple.attempt _ ?_ ?_
  · rintro s' t rfl ht
    obtain ⟨hframe, hget⟩ := h t (ok_of_mapError ht)
    constructor
    · exact shift_of_frame hframe hget hp
    · exact shift_of_frame hframe hget hp
  · rintro s' e rfl -
    rfl

/-! ### Files that are exchanged -/

/-- No temporary file beside `p` is watched. -/
def Unseen (j₀ : LifecycleJournal) (pre : String) (p : Path) : Prop :=
  ∀ q, Watched j₀ q → ¬ IsTemp pre (parent p) q

theorem replaceFile_shift {pre : String} {c : Content} {m : Mode} {check : Prog Unit}
    (hp : p ≠ []) (hctl : p ≠ controlDir) (hw : Watched j₀ p) (hpre : Unseen j₀ pre p)
    (hcheck : ∀ t : FS, (check.run t).trace = []) :
    Triple (· = s) (replaceFile host.names pre p c m check)
      (Ends (fun _ t => Shift j₀ p (some (.file c m)) s t) (Same j₀ s))
      (fun u => Same j₀ s u ∨ Shift j₀ p (some (.file c m)) s u) := by
  refine ((replaceFile_any hp (hpre p hw) fun t _ => hcheck t).and (replaceFile_ends hcheck)).weaken
    (fun _ hs => hs) ?_ ?_
  · rintro o t ⟨hreplaced, hframe⟩
    cases hreplaced with
    | done _ _ hget =>
      exact shift_of_frame hframe (by rw [hget, Function.update_self]) hctl
    | failed e hget _ => exact same_of_frame (.of_get hget) fun _ hq => hq
  · rintro u ⟨hmid, hkeeps⟩
    rcases hmid with hget | hmid
    · exact Or.inl (same_of_frame (.of_get hget) fun _ hq => hq)
    · cases hmid with
      | temp hT _ _ hget =>
        left
        intro hs
        have hagree : Agree j₀ s u := by
          intro q hq
          rw [hget, Function.update_of_ne]
          rintro rfl
          exact hpre _ hq hT
        exact ⟨entered_of_agree hs (hkeeps.shape hs.shape) hagree, hagree⟩
      | done hget =>
        right
        have hframe : Frame (· = p) s u := ⟨off_of_update hget rfl, hkeeps.shape⟩
        exact shift_of_frame hframe (by rw [hget, Function.update_self]) hctl

theorem describe_absent {f : FileState} (h : describe host.toHost p none n = .ok f)
    (hf : f.exists = false) : n = none := by
  unfold describe at h
  split at h
  · rfl
  · cases h
  · cases h
    cases hf
  · cases h
    cases hf

theorem observe_eq_ok {f : FileState} {managed : Option String}
    (h : observeFileState host.toHost p managed s = .ok f) :
    s.Clear (parent p) ∧ describe host.toHost p managed (s.get p) = .ok f := by
  unfold observeFileState at h
  obtain ⟨_, htarget, hdescribe⟩ := bind_eq_ok h
  exact ⟨clear_of_target htarget, hdescribe⟩

/-- The end of a deletion: it is looked at. -/
theorem removed_ends {expected candidate : FileState} (hcandidate : candidate.exists = false)
    (hs : Shift j₀ expected.path none s t ∨ Same j₀ s t) :
    Triple (· = t) (do
        let result ← Program.inspect (observeFileState host.toHost expected.path none)
        if result ≠ candidate then
          Program.throw (casFailure "CAS deletion did not reach candidate state" expected.path)
        else return result : Prog FileState)
      (Ends (fun _ u => Shift j₀ expected.path none s u)
        fun u => Same j₀ s u ∨ Shift j₀ expected.path none s u)
      (fun u => Same j₀ s u ∨ Shift j₀ expected.path none s u) := by
  refine Triple.inspect_bind_ends hs.symm fun result hresult => ?_
  by_cases hne : result ≠ candidate
  · rw [if_pos hne]
    exact Triple.throw_ends hs.symm
  · rw [if_neg hne]
    rw [not_not] at hne
    refine Triple.returns_ends ?_
    rcases hs with hshift | hsame
    · exact hshift
    · have hnone : t.get expected.path = none :=
        describe_absent (observe_eq_ok hresult).2 (by rw [hne]; exact hcandidate)
      intro hs
      obtain ⟨ht, hagree⟩ := hsame hs
      refine ⟨ht, fun q hq => ?_⟩
      rw [hagree q hq]
      by_cases hqp : q = expected.path
      · rw [hqp, Function.update_self, ← hagree _ (hqp ▸ hq), hnone]
      · rw [Function.update_of_ne hqp]

/-- A compare-and-swap of one file, whatever it finds. -/
theorem compareAndSwap_shift {expected candidate : FileState} {bytes : Option Content}
    (hr : Realizes host.toHost candidate bytes n) (hp : expected.path ≠ [])
    (hctl : expected.path ≠ controlDir) (hw : Watched j₀ expected.path)
    (hpre : Unseen j₀ casPrefix expected.path) :
    Triple (· = s) (compareAndSwap host.toHost expected candidate bytes)
      (Ends (fun _ t => Shift j₀ expected.path n s t)
        fun t => Same j₀ s t ∨ Shift j₀ expected.path n s t)
      (fun u => Same j₀ s u ∨ Shift j₀ expected.path n s u) := by
  have hnow : Same j₀ s s := Std.Refl.refl s
  unfold compareAndSwap
  split
  next => exact Triple.throw_ends (Or.inl hnow)
  next =>
    refine Triple.inspect_bind_ends (Or.inl hnow) fun _ _ => ?_
    refine Triple.inspect_bind_ends (Or.inl hnow) fun _ _ => ?_
    cases hr with
    | absent path =>
      simp only [absentState, Bool.not_false, if_true, ne_eq, not_true_eq_false, Option.isSome_none,
        Bool.false_eq_true, or_self, if_false]
      unfold removeTarget
      by_cases hexists : expected.exists = true
      · simp only [hexists, if_true]
        split
        next => exact Triple.throw_ends (Or.inl hnow)
        next =>
          refine Triple.inspect_bind_ends (Or.inl hnow) fun _ _ => ?_
          have hunlink : Triple (· = s) (syscall (unlink expected.path) : Prog Unit)
              (Ends (fun _ t => Shift j₀ expected.path none s t) fun t => t = s)
              (Shift j₀ expected.path none s) := by
            refine syscall_shift hctl fun t ht => ?_
            have hget : t.get = Function.update s.get expected.path none := (unlink_eq_ok ht).2
            refine ⟨frame_of_syscall (unlink_frame rfl) ht, ?_⟩
            rw [hget, Function.update_self]
          refine ((hunlink.crash fun _ h => Or.inr h).ends_weaken (fun _ _ h => h) ?_).bind_ends
            fun _ => Triple.of_forall fun t ht => removed_ends rfl (Or.inl ht)
          rintro t rfl
          exact Or.inl hnow
      · simp only [hexists, Bool.false_eq_true, if_false]
        exact removed_ends rfl (Or.inr hnow)
    | regular path c m managed =>
      simp only [regularState, Bool.not_true, Bool.false_eq_true, if_false, ne_eq,
        not_true_eq_false, or_self]
      unfold replaceTarget
      refine Triple.bind_run (a := s.isDir (parent expected.path) &&
        !s.isSymlink (parent expected.path)) (Program.read_run _ _) ?_
      split
      next => exact Triple.throw_ends (Or.inl hnow)
      next =>
        have hreplace : Triple (· = s) (replaceFile host.names casPrefix expected.path c m
            (Program.inspect (assertState host.toHost expected)))
            (Ends (fun _ t => Shift j₀ expected.path (some (.file c m)) s t) (Same j₀ s))
            (fun u => Same j₀ s u ∨ Shift j₀ expected.path (some (.file c m)) s u) :=
          replaceFile_shift hp hctl hw hpre fun _ => rfl
        refine (hreplace.ends_weaken (fun _ _ h => h) fun _ h => Or.inl h).bind_ends fun _ =>
          Triple.of_forall fun t ht => ?_
        refine Triple.inspect_bind_ends (Or.inr ht) fun result _ => ?_
        split
        next => exact Triple.throw_ends (Or.inr ht)
        next => exact Triple.returns_ends ht

/-! ### Unseen names -/

theorem controlDir_steady : Runtime.Steady controlDir := by
  intro d
  constructor
  · rintro ⟨x, -, -, hx⟩
    have := congrArg (fun p => (name p).toList) hx
    simp [controlDir, name, casPrefix] at this
  · rintro p ⟨x, -, -, hx⟩
    have := congrArg (fun p => (name p).toList.count '.') hx
    simp [controlDir, name, Runtime.rewritePrefix, List.count_append] at this

theorem nil_steady : Runtime.Steady ([] : Path) := by
  intro d
  constructor
  · rintro ⟨x, -, -, hx⟩
    exact absurd hx (by simp)
  · rintro p ⟨x, -, -, hx⟩
    exact absurd hx (by simp)

theorem Sound.watched_steady (h : Sound host j₀) (hq : Watched j₀ q) : Runtime.Steady q := by
  rcases hq with hq | rfl | rfl | rfl | ⟨r, hr, hq⟩
  · rcases List.prefix_concat_iff.mp (show q <+: [] ++ [".agent-workflow"] from hq) with rfl | hq
    · exact controlDir_steady
    · rw [List.prefix_nil.mp hq]
      exact nil_steady
  · refine Runtime.steady_of_suffix ?_
    rw [transactionPath, name_append]
    exact Runtime.suffix_journalName h.named
  · exact Runtime.steady_of_head (c := 'm') rfl (by decide)
  · exact Runtime.steady_of_head (c := 'm') rfl (by decide)
  · exact h.steady r hr q hq

theorem Sound.unseen_cas (h : Sound host j₀) (p : Path) : Unseen j₀ casPrefix p :=
  fun _ hq => (h.watched_steady hq (parent p)).1

theorem Sound.unseen_rewrite (h : Sound host j₀) (r p : Path) :
    Unseen j₀ (Runtime.rewritePrefix r) p :=
  fun _ hq => (h.watched_steady hq (parent p)).2 r

/-! ### How far a transaction has come -/

/-- The node is what the file state says, managed blocks aside. -/
def Shown (host : LifecycleHost) (f : FileState) (n : Option (Node Content)) : Prop :=
  describe host.toHost f.path none n = .ok f.physical

/-- The Manifest of the transaction, in place. -/
def manifestNode (host : LifecycleHost) (j₀ : LifecycleJournal) : Option (Node Content) :=
  some (.file (host.content (.manifest j₀.candidateManifest)) 0o644)

/-- Every file of the transaction is at the given state. -/
def AllAt (host : LifecycleHost) (j₀ : LifecycleJournal) (state : FileRecord → FileState)
    (s : FS) : Prop :=
  ∀ r ∈ j₀.fileRecords, Shown host (state r) (s.get r.originalState.path)

/-- Each file is at one of its two states, and all are at their candidates where the Manifest is
committed; before, it is as it was. -/
structure Standing (host : LifecycleHost) (j₀ : LifecycleJournal)
    (base : Option (Node Content)) (s : FS) : Prop where
  ways : ∀ r ∈ j₀.fileRecords, ∀ q, q <+: r.originalState.path → q ≠ r.originalState.path →
    s.get q = none ∨ s.realDir q
  sides : ∀ r ∈ j₀.fileRecords, Shown host r.originalState (s.get r.originalState.path) ∨
    Shown host r.candidateState (s.get r.originalState.path)
  manifest : s.get manifestPath = base ∨ s.get manifestPath = manifestNode host j₀
  committed : s.get manifestPath = manifestNode host j₀ → AllAt host j₀ (·.candidateState) s

/-- A version of the journal in such a phase is on disk. -/
def Written (host : LifecycleHost) (j₀ : LifecycleJournal) (phases : LifecyclePhase → Prop)
    (s : FS) : Prop :=
  ∃ j m, s.get (transactionPath j₀.header.transactionId) =
    some (.file (host.content (.journal j)) m) ∧ Version j₀ j ∧ phases j.phase

/-- The journal is not written yet, or does not say that the transaction is over. -/
def Open (host : LifecycleHost) (j₀ : LifecycleJournal) (s : FS) : Prop :=
  s.get (transactionPath j₀.header.transactionId) = none ∨ Written host j₀ (· ≠ .complete) s

/-- What is left when a transaction is over: no marker, and everything done or everything undone. -/
structure Settled (host : LifecycleHost) (j₀ : LifecycleJournal) (base : Option (Node Content))
    (s : FS) : Prop where
  marker : s.get maintenancePath = none
  outcome : s.get manifestPath = manifestNode host j₀ ∨ s.get manifestPath = base ∧
    AllAt host j₀ (·.originalState) s ∧ ∀ d ∈ j₀.createdDirectories, s.get d = none

/-- What holds of the tree all along. -/
structure Inv (host : LifecycleHost) (j₀ : LifecycleJournal) (base : Option (Node Content))
    (s : FS) : Prop where
  shape : s.WellFormed
  standing : Standing host j₀ base s
  journal : Open host j₀ s ∨ Written host j₀ (· = .complete) s ∧ Settled host j₀ base s

/-- What is said of the watched paths but `p`. -/
def Blind (j₀ : LifecycleJournal) (p : Path) (F : FS → Prop) : Prop :=
  ∀ s t, F s → (∀ q, Watched j₀ q → q ≠ p → t.get q = s.get q) → F t

variable {F G : FS → Prop} {base : Option (Node Content)}

theorem Blind.and (hF : Blind j₀ p F) (hG : Blind j₀ p G) : Blind j₀ p fun s => F s ∧ G s :=
  fun s t h hget => ⟨hF s t h.1 hget, hG s t h.2 hget⟩

theorem Blind.agree (hF : Blind j₀ p F) (h : F s) (ha : Agree j₀ s t) : F t :=
  hF s t h fun q hq _ => ha q hq

theorem Blind.shift (hF : Blind j₀ p F) (h : F s)
    (hget : ∀ q, Watched j₀ q → t.get q = Function.update s.get p n q) : F t := by
  refine hF s t h fun q hq hne => ?_
  rw [hget q hq, Function.update_of_ne hne]

theorem Sound.record_watched {r : FileRecord} (hr : r ∈ j₀.fileRecords) :
    Watched j₀ r.originalState.path :=
  Or.inr (Or.inr (Or.inr (Or.inr ⟨r, hr, List.prefix_rfl⟩)))

theorem Sound.way_ne (h : Sound host j₀) {r : FileRecord} (hr : r ∈ j₀.fileRecords)
    (hq : q <+: r.originalState.path) :
    q ≠ transactionPath j₀.header.transactionId ∧ q ≠ manifestPath ∧ q ≠ maintenancePath := by
  refine ⟨?_, ?_, ?_⟩
  · rintro rfl
    exact (h.reserved r hr _ (Or.inl rfl)).1 ((List.prefix_append _ _).trans hq)
  · rintro rfl
    exact (h.reserved r hr _ (Or.inr (Or.inl rfl))).1 hq
  · rintro rfl
    exact (h.reserved r hr _ (Or.inr (Or.inr (Or.inl rfl)))).1 hq

theorem blind_allAt (state : FileRecord → FileState)
    (hp : ∀ r ∈ j₀.fileRecords, r.originalState.path ≠ p) : Blind j₀ p (AllAt host j₀ state) := by
  intro s t hall hget r hr
  rw [hget _ (Sound.record_watched hr) (hp r hr)]
  exact hall r hr

theorem journalPath_ne_manifest : manifestPath ≠ transactionPath j₀.header.transactionId := by
  intro heq
  have hlen := congrArg List.length heq
  simp [manifestPath, transactionPath, transactionRoot, controlDir] at hlen

theorem journalPath_ne_maintenance :
    maintenancePath ≠ transactionPath j₀.header.transactionId := by
  intro heq
  have hlen := congrArg List.length heq
  simp [maintenancePath, transactionPath, transactionRoot, controlDir] at hlen

/-- Neither the journal nor the marker tells how the files stand. -/
theorem blind_standing (h : Sound host j₀)
    (hp : p = transactionPath j₀.header.transactionId ∨ p = maintenancePath) :
    Blind j₀ p (Standing host j₀ base) := by
  intro s t hs hget
  have hway : ∀ r ∈ j₀.fileRecords, ∀ q, q <+: r.originalState.path → t.get q = s.get q := by
    intro r hr q hq
    obtain ⟨hj, -, hm⟩ := h.way_ne hr hq
    refine hget q (Or.inr (Or.inr (Or.inr (Or.inr ⟨r, hr, hq⟩)))) ?_
    rcases hp with rfl | rfl
    · exact hj
    · exact hm
  have hmanifest : t.get manifestPath = s.get manifestPath := by
    refine hget _ (Or.inr (Or.inr (Or.inl rfl))) ?_
    rcases hp with rfl | rfl
    · exact journalPath_ne_manifest
    · decide
  constructor
  · intro r hr q hq hne
    rcases hs.ways r hr q hq hne with hnone | hdir
    · exact Or.inl ((hway r hr q hq).trans hnone)
    · exact Or.inr (realDir_of_get_eq (hway r hr q hq) hdir)
  · intro r hr
    rw [hway r hr _ List.prefix_rfl]
    exact hs.sides r hr
  · rw [hmanifest]
    exact hs.manifest
  · rw [hmanifest]
    intro hcommitted r hr
    rw [hway r hr _ List.prefix_rfl]
    exact hs.committed hcommitted r hr

theorem watched_journal : Watched j₀ (transactionPath j₀.header.transactionId) :=
  Or.inr (Or.inl rfl)

theorem watched_manifest : Watched j₀ manifestPath := Or.inr (Or.inr (Or.inl rfl))

theorem watched_maintenance : Watched j₀ maintenancePath := Or.inr (Or.inr (Or.inr (Or.inl rfl)))

theorem blind_open (hp : transactionPath j₀.header.transactionId ≠ p) :
    Blind j₀ p (Open host j₀) := by
  intro s t hs hget
  unfold Open Written
  rw [hget _ watched_journal hp]
  exact hs

/-! ### Triples -/

theorem Same.shift (h : Same j₀ s t) (h' : Shift j₀ p n t u) : Shift j₀ p n s u := by
  intro hs
  obtain ⟨ht, hagree⟩ := h hs
  obtain ⟨hu, hget⟩ := h' ht
  refine ⟨hu, fun q hq => ?_⟩
  rw [hget q hq, Function.update_apply, Function.update_apply, hagree q hq]

theorem Same.trans (h : Same j₀ s t) (h' : Same j₀ t u) : Same j₀ s u := trans_of (Same j₀) h h'

/-- The tree is entered, and `F` holds. -/
def In (F : FS → Prop) (s : FS) : Prop := Entered s ∧ F s

/-- What is not seen changes nothing. -/
theorem triple_same {prog : Prog α} (h : Within (Same j₀) prog)
    (hF : ∀ s t, F s → Agree j₀ s t → F t) :
    Triple (In F) prog (Ends (fun _ => In F) (In F)) (In F) := by
  have hstep : ∀ s t, In F s → Same j₀ s t → In F t := by
    rintro s t ⟨hs, hFs⟩ hsame
    obtain ⟨ht, hagree⟩ := hsame hs
    exact ⟨ht, hF s t hFs hagree⟩
  intro s hs
  refine ⟨fun c hc => hstep s c hs (h s c hc), ?_⟩
  have hend := hstep s _ hs (h.final s)
  cases prog.out s with
  | ok a => exact hend
  | error e => exact hend

/-! ### The journal -/

theorem lifecycleJson_shift (h : Sound host j₀) {document : LifecycleDocument} :
    Triple (· = s) (lifecycleJson host (transactionPath j₀.header.transactionId) document)
      (Ends (fun _ t => Shift j₀ (transactionPath j₀.header.transactionId)
        (some (.file (host.content document) 0o600)) s t) (Same j₀ s))
      (fun u => Same j₀ s u ∨ Shift j₀ (transactionPath j₀.header.transactionId)
        (some (.file (host.content document) 0o600)) s u) := by
  have hparent : parent (transactionPath j₀.header.transactionId) = transactionRoot :=
    parent_append _ _
  have hmake : Within (Same j₀) (mkdirs host.dirMode
      (parent (transactionPath j₀.header.transactionId)) : Prog Unit) := by
    rw [hparent]
    refine mkdirs_same (fun q hq hw => ?_) _
    rcases prefix_transactionRoot hq with hctl | rfl
    · exact hctl
    · exact absurd hw (transactionRoot_not_watched h)
  have hmade : Triple (· = s) (mkdirs host.dirMode
      (parent (transactionPath j₀.header.transactionId)) : Prog Unit)
      (Ends (fun _ => Same j₀ s) (Same j₀ s))
      (fun u => Same j₀ s u ∨ Shift j₀ (transactionPath j₀.header.transactionId)
        (some (.file (host.content document) 0o600)) s u) := by
    rintro s rfl
    refine ⟨fun c hc => Or.inl (hmake s c hc), ?_⟩
    have hend := hmake.final s
    cases (mkdirs host.dirMode (parent (transactionPath j₀.header.transactionId)) :
      Prog Unit).out s with
    | ok a => exact hend
    | error e => exact hend
  unfold lifecycleJson
  refine hmade.bind_ends fun _ => Triple.of_forall fun t ht => ?_
  have hne : transactionPath j₀.header.transactionId ≠ [] := by simp [transactionPath]
  have hcontrol : transactionPath j₀.header.transactionId ≠ controlDir := by
    simp [transactionPath, transactionRoot, controlDir]
  refine (replaceFile_shift hne hcontrol watched_journal
    (h.unseen_rewrite (transactionPath j₀.header.transactionId) _) fun _ => rfl).weaken
    (fun _ h => h) ?_ ?_
  · rintro (e | a) u hu
    · exact ht.trans hu
    · exact ht.shift hu
  · rintro u (hu | hu)
    · exact Or.inl (ht.trans hu)
    · exact Or.inr (ht.shift hu)

theorem writeJournal_shift (h : Sound host j₀) {j : LifecycleJournal}
    (hid : j.header.transactionId = j₀.header.transactionId) :
    Triple (· = s) (writeJournal host j)
      (Ends (fun _ t => Shift j₀ (transactionPath j₀.header.transactionId)
        (some (.file (host.content (.journal j)) 0o600)) s t) (Same j₀ s))
      (fun u => Same j₀ s u ∨ Shift j₀ (transactionPath j₀.header.transactionId)
        (some (.file (host.content (.journal j)) 0o600)) s u) := by
  have hnow : Same j₀ s s := Std.Refl.refl s
  unfold writeJournal
  rw [hid]
  refine Triple.lift_bind_ends hnow fun _ _ => ?_
  dsimp only
  have hlook : Triple (· = s) (Program.whenever
      (fun s => s.exists (transactionPath j₀.header.transactionId) ||
        s.isSymlink (transactionPath j₀.header.transactionId))
      (Program.inspect (j.follows host)) : Prog Unit) (Ends (fun _ t => t = s) fun t => t = s)
      (fun u => Same j₀ s u ∨ Shift j₀ (transactionPath j₀.header.transactionId)
        (some (.file (host.content (.journal j)) 0o600)) s u) := by
    refine Triple.whenever _ (fun _ => Triple.inspect _ ?_) fun _ => rfl
    rintro s rfl
    cases j.follows host s with
    | ok a => rfl
    | error e => rfl
  refine (hlook.ends_weaken (fun _ _ h => h) ?_).bind_ends fun _ => lifecycleJson_shift h
  rintro t rfl
  exact hnow

end AgentStack.Reconcile.Lifecycle
