import AgentStack.FileTree.Frames
import AgentStack.Providers.Archive

/-! What was extracted is removed again, the entries of a directory before the directory. -/
namespace AgentStack.Providers

open AgentStack.Core Crash FileTree FileTree.DirTree

theorem lt_append_cons (p : Path) (n : String) (r : Path) : p < p ++ n :: r := by
  induction p with
  | nil => exact List.nil_lt_cons n r
  | cons x p ih => exact List.cons_lt_cons_iff.mpr (Or.inr ⟨rfl, ih⟩)

variable {root p : Path} {s t : DirTree Bytes}

theorem mem_belowRoot : p ∈ belowRoot root s ↔ root <+: p ∧ p ≠ root ∧ s.get p ≠ none := by
  rw [belowRoot, List.mem_dedup, List.mem_filter, List.mem_map, decide_eq_true_eq]
  have hget : (∃ e ∈ s.entries, e.1 = p) ↔ s.get p ≠ none := by
    rw [DirTree.get, ← Option.isSome_iff_ne_none, List.lookup_isSome_iff]
    constructor
    · rintro ⟨e, he, heq⟩
      exact ⟨e, he, beq_iff_eq.mpr heq.symm⟩
    · rintro ⟨e, he, heq⟩
      exact ⟨e, he, (beq_iff_eq.mp heq).symm⟩
  rw [hget]
  constructor
  · rintro ⟨hp, hbelow, hne⟩
    exact ⟨hbelow, hne, hp⟩
  · rintro ⟨hbelow, hne, hp⟩
    exact ⟨hp, hbelow, hne⟩

/-- `rest` is what is left below the root. -/
structure Removing (root : Path) (s₀ : DirTree Bytes) (rest : List Path) (s : DirTree Bytes) :
    Prop where
  shape : s.WellFormed
  outside : ∀ q, ¬ root <+: q → s.get q = s₀.get q
  stands : s.realDir root
  left : ∀ q, root <+: q → q ≠ root → (s.get q ≠ none ↔ q ∈ rest)
  ordered : rest.Pairwise fun a b => b ≤ a
  distinct : rest.Nodup

theorem Removing.start (hs : s.WellFormed) (hroot : s.realDir root) :
    Removing root s ((belowRoot root s).insertionSort fun a b => b ≤ a) s where
  shape := hs
  outside _ _ := rfl
  stands := hroot
  left q hq hne := by
    rw [List.mem_insertionSort, mem_belowRoot]
    exact ⟨fun h => ⟨hq, hne, h⟩, fun h => h.2.2⟩
  ordered := List.pairwise_insertionSort _ _
  distinct := (List.perm_insertionSort _ _).nodup_iff.mpr (List.nodup_dedup _)

variable {s₀ : DirTree Bytes} {rest : List Path}

/-- The first of what is left has nothing below it. -/
theorem Removing.children (h : Removing root s₀ (p :: rest) s) (hp : root <+: p) (n : String) :
    s.get (p ++ [n]) = none := by
  by_contra hsome
  have hlong : root <+: p ++ [n] := hp.trans (List.prefix_append p [n])
  have hne : p ++ [n] ≠ root := by
    intro heq
    have hle := hp.length_le
    rw [← heq, List.length_append, List.length_singleton] at hle
    omega
  have hlt : p < p ++ [n] := lt_append_cons p n []
  rcases List.mem_cons.mp ((h.left _ hlong hne).mp hsome) with heq | hmem
  · rw [heq] at hlt
    exact lt_irrefl p hlt
  · exact absurd ((List.pairwise_cons.mp h.ordered).1 _ hmem) (not_le_of_gt hlt)

theorem Removing.step (h : Removing root s₀ (p :: rest) s) (hp : root <+: p) (hne : p ≠ root)
    (hget : t.get = Function.update s.get p none) (hshape : t.WellFormed) :
    Removing root s₀ rest t where
  shape := hshape
  outside q hq := by
    have hqp : q ≠ p := fun heq => hq (heq ▸ hp)
    rw [hget, Function.update_of_ne hqp, h.outside q hq]
  stands := by
    obtain ⟨m, hm⟩ := h.stands
    exact ⟨m, by rw [hget, Function.update_of_ne (Ne.symm hne), hm]⟩
  left q hq hqr := by
    by_cases hqp : q = p
    · subst hqp
      rw [hget, Function.update_self]
      exact ⟨fun hn => absurd rfl hn, fun hmem => absurd hmem (List.nodup_cons.mp h.distinct).1⟩
    · rw [hget, Function.update_of_ne hqp, h.left q hq hqr, List.mem_cons]
      exact ⟨fun hmem => hmem.resolve_left hqp, Or.inr⟩
  ordered := (List.pairwise_cons.mp h.ordered).2
  distinct := (List.nodup_cons.mp h.distinct).2

theorem removeChild_run (h : Removing root s₀ (p :: rest) s) (hp : root <+: p) (hne : p ≠ root) :
    (removeChild p).run s = ⟨[s.remove p], .ok ()⟩ := by
  have hpresent : s.get p ≠ none := (h.left p hp hne).mpr List.mem_cons_self
  unfold removeChild
  rw [Program.bind_of_pure (Program.read_run _ _)]
  rcases hnode : s.get p with _ | ⟨x, m⟩ | m | k
  · exact absurd hnode hpresent
  · have hdir : (s.isDir p && !s.isSymlink p) = false := by simp [isDir, hnode]
    rw [hdir, if_neg Bool.false_ne_true, Program.whenever_true _ (by simp [hnode])]
    exact syscall_ok (unlink_ok hnode)
  · have hdir : (s.isDir p && !s.isSymlink p) = true := by simp [isDir, isSymlink, hnode]
    rw [hdir, if_pos rfl]
    exact syscall_ok (rmdir_ok hnode (h.children hp))
  · have hdir : (s.isDir p && !s.isSymlink p) = false := by simp [isSymlink, hnode]
    have hunlink : unlink p s = .ok (s.remove p) := by simp [unlink, hnode]
    rw [hdir, if_neg Bool.false_ne_true, Program.whenever_true _ (by simp [hnode])]
    exact syscall_ok hunlink

theorem removeChild_step (hroot : root ≠ []) (h : Removing root s₀ (p :: rest) s)
    (hp : root <+: p) (hne : p ≠ root) :
    Triple (· = s) (removeChild p) (Returns fun _ => Removing root s₀ rest) fun _ => True := by
  have hpne : p ≠ [] := by
    rintro rfl
    exact hroot (List.prefix_nil.mp hp)
  have hget : (s.remove p).get = Function.update s.get p none := get_remove_eq s p
  have hshape : (s.remove p).WellFormed :=
    h.shape.remove_dir hget hpne (children_eq_nil (h.children hp))
  rintro s rfl
  have hrun := removeChild_run h hp hne
  refine ⟨fun _ _ => trivial, (), congrArg Run.out hrun, ?_⟩
  rw [Program.final_of_run hrun]
  exact h.step hp hne hget hshape

/-- Nothing at or below the root remains, and the rest is as it was. -/
theorem removeExtracted_spec (hs : s.WellFormed) (hroot : s.realDir root) (hne : root ≠ []) :
    Triple (· = s) (removeExtracted root) (Returns fun _ => Cut s root) fun _ => True := by
  let children := (belowRoot root s).insertionSort fun a b => b ≤ a
  have hbelow : ∀ p ∈ children, root <+: p ∧ p ≠ root := by
    intro p hp
    obtain ⟨hpre, hpr, -⟩ := mem_belowRoot.mp ((List.mem_insertionSort _).mp hp)
    exact ⟨hpre, hpr⟩
  have hloop : Triple (· = s) (Program.each children removeChild)
      (Returns fun _ => Removing root s []) fun _ => True := by
    refine (Triple.each (Removing root s) children ?_).pre ?_
    · rintro p rest ⟨before, hbefore⟩
      obtain ⟨hpre, hpr⟩ := hbelow p (by rw [← hbefore]; simp)
      exact Triple.of_forall fun u hu => removeChild_step hne hu hpre hpr
    · rintro u rfl
      exact Removing.start hs hroot
  unfold removeExtracted
  refine Triple.bind_run (a := children) (Program.read_run _ _) ?_
  refine hloop.bind_returns fun _ => Triple.of_forall fun t ht => ?_
  obtain ⟨m, hm⟩ := ht.stands
  have hempty : ∀ q, root <+: q → q ≠ root → t.get q = none := by
    intro q hq hqr
    by_contra hsome
    exact List.not_mem_nil ((ht.left q hq hqr).mp hsome)
  have hchildren : ∀ n, t.get (root ++ [n]) = none := by
    intro n
    refine hempty _ (List.prefix_append root [n]) ?_
    simp
  rintro t rfl
  have hrun := syscall_ok (ε := Failure) (rmdir_ok hm hchildren)
  refine ⟨fun _ _ => trivial, (), congrArg Run.out hrun, ?_⟩
  rw [Program.final_of_run hrun]
  intro q
  change (t.remove root).get q = _
  rw [get_remove]
  by_cases hqr : q = root
  · rw [if_pos hqr, if_pos (hqr ▸ List.prefix_rfl)]
  · rw [if_neg hqr]
    by_cases hq : root <+: q
    · rw [if_pos hq, hempty q hq hqr]
    · rw [if_neg hq, ht.outside q hq]

end AgentStack.Providers
