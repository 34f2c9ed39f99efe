import AgentStack.FileTree.Frames
import AgentStack.Runtime.TaskSteps

/-! Files under watch: programs that change one of them at a time, and put nothing but
temporary files beside them. -/
namespace AgentStack.Runtime

open AgentStack.Core FileTree Crash Reconcile DirTree

variable {host : Host} {s t : FS} {p q : Path}

/-- No temporary file is ever called so. -/
def Steady (q : Path) : Prop :=
  ∀ d, ¬ IsTemp casPrefix d q ∧ ∀ p, ¬ IsTemp (rewritePrefix p) d q

theorem steady_of_suffix (h : suffix (name q) = ".json") : Steady q := by
  have htemp : ∀ pre d, ¬ IsTemp pre d q := by
    rintro pre d ⟨x, hx, hdot, rfl⟩
    rw [name_append] at h
    exact suffix_temp hx hdot h
  exact fun d => ⟨htemp _ d, fun p => htemp _ d⟩

theorem steady_of_head {c : Char} (h : (name q).toList.head? = some c) (hc : c ≠ '.') :
    Steady q := by
  have htemp : ∀ pre d, pre.toList.head? = some '.' → ¬ IsTemp pre d q := by
    rintro pre d hpre ⟨x, -, -, rfl⟩
    rw [name_append, String.toList_append] at h
    obtain ⟨rest, hrest⟩ := List.head?_eq_some_iff.mp hpre
    rw [hrest] at h
    exact hc (by simpa using h.symm)
  exact fun d => ⟨htemp _ d rfl, fun p => htemp _ d (by simp [rewritePrefix])⟩

/-- The tree is well formed and shows `view` at the watched paths. -/
structure Watches (P : Path → Prop) (view : Path → Option (Node Content)) (s : FS) : Prop where
  shape : s.WellFormed
  shows : ∀ q, P q → s.get q = view q
  steady : ∀ q, P q → Steady q

namespace Watches

variable {P : Path → Prop} {view : Path → Option (Node Content)}

theorem update (h : Watches P view s) {n : Option (Node Content)} (hwf : t.WellFormed)
    (ht : t.get = Function.update s.get p n) : Watches P (Function.update view p n) t := by
  refine ⟨hwf, fun q hq => ?_, h.steady⟩
  rw [ht, Function.update_apply, Function.update_apply]
  split
  · rfl
  · exact h.shows q hq

/-- Paths that are not watched may change. -/
theorem off (h : Watches P view s) (hwf : t.WellFormed) (ht : ∀ q, P q → t.get q = s.get q) :
    Watches P view t :=
  ⟨hwf, fun q hq => (ht q hq).trans (h.shows q hq), h.steady⟩

theorem temp (h : Watches P view s) {tmp : Path} {c : Content} {m : FileTree.Mode}
    (hdir : s.realDir (parent tmp)) (habs : s.get tmp = none) (htmp : tmp ≠ [])
    (hne : ∀ q, P q → q ≠ tmp) (ht : t.get = Function.update s.get tmp (some (.file c m))) :
    Watches P view t := by
  refine h.off (h.shape.update ht hdir htmp ?_) fun q hq => ?_
  · rintro ⟨m', hm'⟩
    rw [habs] at hm'
    cases hm'
  · rw [ht, Function.update_of_ne (hne q hq)]

/-- Halfway through an exchange of `p`, the old view or the new one shows. -/
theorem replacing (h : Watches P view s) {pre : String} {n : Option (Node Content)}
    (hpre : ∀ q, P q → ¬ IsTemp pre (parent p) q) (hdir : s.realDir (parent p))
    (hp : p ≠ []) (hfile : ¬ s.realDir p) (ht : Replacing s pre p n t) :
    Watches P view t ∨ Watches P (Function.update view p n) t := by
  cases ht with
  | temp hT habs hne hget =>
    left
    obtain ⟨x, -, -, rfl⟩ := id hT
    refine h.temp (by rwa [parent_append]) habs (by simp) ?_ hget
    rintro q hq rfl
    exact hpre _ hq hT
  | done hget =>
    exact Or.inr (h.update (h.shape.update hget hdir hp hfile) hget)

variable (host) in
/-- A compare-and-swap of a watched file. -/
theorem swap (expected : FileState) {candidate : FileState} {bytes : Option Content}
    {n : Option (Node Content)} (h : Watches P view s) (hr : Realizes host candidate bytes n)
    (hpath : expected.path = candidate.path) (hp : candidate.path ≠ []) (hw : P candidate.path)
    (hdir : s.realDir (parent candidate.path))
    (hobs : describe host candidate.path expected.managedBlockHash (view candidate.path) =
      .ok expected) (hreg : expected.fileType ≠ .directory) :
    Triple (· = s) (compareAndSwap host expected candidate bytes)
      (Returns fun _ t => Watches P (Function.update view candidate.path n) t)
      (fun c => Watches P view c ∨ Watches P (Function.update view candidate.path n) c) := by
  rw [← h.shows _ hw] at hobs
  have hfile : ¬ s.realDir candidate.path := by
    rintro ⟨m, hm⟩
    exact describe_file_or_absent hobs hreg m hm
  have hsteady := fun q hq => (h.steady q hq (parent candidate.path)).1
  have hcas := compareAndSwap_spec hr hpath hp (hsteady _ hw) (h.shape.reaches hdir).clear
    (fun _ => hdir) hobs hreg
  refine hcas.weaken (fun _ hs => hs) ?_ fun c hc => h.replacing hsteady hdir hp hfile hc
  rintro o t ⟨a, ho, -, ht⟩
  exact ⟨a, ho, h.update (h.shape.update ht hdir hp hfile) ht⟩

variable (host) in
/-- A watched document is rewritten through a file beside it, or written for the first time. -/
theorem rewrite {c : Content} (h : Watches P view s) (hp : p ≠ []) (hw : P p)
    (hdir : s.realDir (parent p)) (hfile : ∀ m, view p ≠ some (.dir m)) :
    Triple (ε := Failure) (· = s)
      (DirTree.replaceFile host.names (rewritePrefix p) p c 0o600 (pure ()))
      (Returns fun _ t => Watches P (Function.update view p (some (.file c 0o600))) t)
      (fun u => Watches P view u ∨ Watches P (Function.update view p (some (.file c 0o600))) u) := by
  have hget : ∀ m, s.get p ≠ some (.dir m) := by
    intro m
    rw [h.shows p hw]
    exact hfile m
  have hnot : ¬ s.realDir p := fun ⟨m, hm⟩ => hget m hm
  have hsteady := fun q hq => (h.steady q hq (parent p)).2 p
  refine (DirTree.replaceFile_spec hdir hget hp not_temp_self fun _ _ => rfl).weaken
    (fun _ hs => hs) ?_ fun u hu => h.replacing hsteady hdir hp hnot hu
  rintro o t ⟨a, ho, ht⟩
  exact ⟨a, ho, h.update (h.shape.update ht hdir hp hnot) ht⟩

variable (host) in
/-- A watched document is written for the first time, with the directories it needs. -/
theorem first {c : Content} (h : Watches P s.get s) (hp : p ≠ []) (hw : P p)
    (hclear : s.Clear (parent p)) (habs : s.get p = none)
    (hoff : ∀ q, P q → ¬ q <+: parent p) :
    Triple (ε := Failure) (· = s) (do
        DirTree.mkdirs host.dirMode (parent p)
        DirTree.replaceFile host.names (rewritePrefix p) p c 0o600 (pure ()))
      (Returns fun _ t => Watches P (Function.update s.get p (some (.file c 0o600))) t)
      (fun u => Watches P s.get u ∨
        Watches P (Function.update s.get p (some (.file c 0o600))) u) := by
  have hframe : Within (Frame fun q => q <+: parent p)
      (mkdirs host.dirMode (parent p) : Prog Unit) := mkdirs_frame _ _ fun _ hq => hq
  have hkeep : ∀ u, Frame (fun q => q <+: parent p) s u → Watches P s.get u :=
    fun u hu => h.off (hu.shape h.shape) fun q hq => hu.off q (hoff q hq)
  have hmade : Triple (· = s) (mkdirs host.dirMode (parent p) : Prog Unit)
      (Returns fun _ t => Watches P s.get t ∧ t.Reaches (parent p)) (Watches P s.get) := by
    refine ((hframe.triple s).and (mkdirs_spec hclear)).weaken (fun _ hs => hs) ?_
      fun u hu => hkeep u hu.1
    rintro o t ⟨⟨-, rfl⟩, ⟨⟩, ho, -, hreach⟩
    exact ⟨(), ho, hkeep _ (hframe.final s), hreach⟩
  refine (hmade.crash fun u hu => Or.inl hu).bind_returns fun _ => Triple.of_forall ?_
  rintro t ⟨ht, hreach⟩
  exact ht.rewrite host hp hw (hreach _ List.prefix_rfl) (by rw [habs]; simp)

end Watches

end AgentStack.Runtime
