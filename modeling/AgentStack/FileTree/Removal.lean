import AgentStack.FileTree.Directories

/-! `shutil.rmtree`: a directory goes after everything in it, one entry at a time. -/
namespace AgentStack.FileTree.DirTree

open AgentStack.Crash

variable {C ε : Type}

/-- The length of the longest path. -/
def height (s : DirTree C) : Nat := (s.entries.map fun e => e.1.length).foldr max 0

def isRealDir (s : DirTree C) (p : Path) : Bool := decide (s.realDir p)

/-- Removal of a directory with at most `depth` levels below it. -/
def removeBelow [OfOsError ε] : Nat → Path → Program (DirTree C) ε Unit
  | 0, p => syscall (rmdir p)
  | depth + 1, p => do
    let names ← Program.read fun s => s.children p
    Program.each names fun n => do
      let dir ← Program.read fun s => s.isRealDir (p ++ [n])
      if dir then removeBelow depth (p ++ [n]) else syscall (unlink (p ++ [n]))
    syscall (rmdir p)

/-- `shutil.rmtree` of a real directory. -/
def rmtree [OfOsError ε] (p : Path) : Program (DirTree C) ε Unit := do
  let depth ← Program.read height
  removeBelow depth p

variable {s t : DirTree C} {p q : Path}

/-- Below `p`, whatever has an entry in it is a directory. -/
def ClosedAt (s : DirTree C) (p : Path) : Prop :=
  ∀ r n, (s.get (p ++ r ++ [n])).isSome → s.realDir (p ++ r)

/-- `t` is `s` with some of what lies at or below `p` gone. -/
structure Pruned (s : DirTree C) (p : Path) (t : DirTree C) : Prop where
  outside : ∀ q, ¬ p <+: q → t.get q = s.get q
  inside : ∀ q, t.get q = s.get q ∨ t.get q = none
  closed : ClosedAt t p

/-- `s` without `p` and all below it. -/
def Cut (s : DirTree C) (p : Path) (t : DirTree C) : Prop :=
  ∀ q, t.get q = if p <+: q then none else s.get q

theorem WellFormed.closedAt (h : s.WellFormed) (p : Path) : ClosedAt s p :=
  fun _ _ hn => h.parent_realDir hn

theorem ClosedAt.below (h : ClosedAt s p) (r : Path) : ClosedAt s (p ++ r) := by
  intro u n hn
  rw [List.append_assoc p r u] at hn ⊢
  exact h (r ++ u) n hn

theorem ClosedAt.congr (h : ClosedAt s p) (he : ∀ r, t.get (p ++ r) = s.get (p ++ r)) :
    ClosedAt t p := by
  intro r n hn
  rw [List.append_assoc, he, ← List.append_assoc] at hn
  exact realDir_of_get_eq (he r) (h r n hn)

theorem ClosedAt.absent (h : ClosedAt s p) {r : Path} (hr : s.get (p ++ r) = none) (u : Path) :
    s.get (p ++ r ++ u) = none := by
  induction u using List.reverseRecOn with
  | nil => simpa using hr
  | append_singleton u n ih =>
    by_contra hne
    have hsome : (s.get (p ++ (r ++ u) ++ [n])).isSome := by
      simpa [Option.isSome_iff_ne_none] using hne
    obtain ⟨m, hm⟩ := h (r ++ u) n hsome
    rw [← List.append_assoc, ih] at hm
    cases hm

/-- Writing or removing what is no directory keeps a subtree closed. -/
theorem ClosedAt.update (h : ClosedAt s p) {n : Option (Node C)}
    (hg : t.get = Function.update s.get q n) (hpar : q ≠ p → p <+: q → s.realDir (parent q))
    (hq : ¬ s.realDir q) : ClosedAt t p := by
  intro r k hk
  have hparent : s.realDir (p ++ r) := by
    by_cases he : p ++ r ++ [k] = q
    · rw [← parent_append (p ++ r) k, he]
      refine hpar ?_ (he ▸ by rw [List.append_assoc]; exact List.prefix_append _ _)
      rintro rfl
      have := congrArg List.length he
      simp at this
    · rw [hg, Function.update_of_ne he] at hk
      exact h r k hk
  have hne : p ++ r ≠ q := fun he => hq (he ▸ hparent)
  obtain ⟨m, hm⟩ := hparent
  exact ⟨m, by rw [hg, Function.update_of_ne hne, hm]⟩

theorem ClosedAt.grown {m : Mode} {d : Path} (h : ClosedAt s p) (hg : Grown m s d t) :
    ClosedAt t p := by
  intro r n hn
  by_cases he : t.get (p ++ r ++ [n]) = s.get (p ++ r ++ [n])
  · exact hg.added.realDir (h r n (he ▸ hn))
  · have := hg.rooted _ (by simp) he
    rwa [parent_append] at this

theorem ClosedAt.pruned (h : ClosedAt s p) : Pruned s p s :=
  ⟨fun _ _ => rfl, fun _ => .inl rfl, h⟩

theorem Pruned.trans {u : DirTree C} (h : Pruned s p t) (h' : Pruned t p u) : Pruned s p u where
  outside q hq := (h'.outside q hq).trans (h.outside q hq)
  inside q := by
    rcases h'.inside q with he | he
    · rw [he]
      exact h.inside q
    · exact .inr he
  closed := h'.closed

theorem Cut.closedAt (h : Cut s p t) : ClosedAt t p := by
  intro r n hn
  rw [h, if_pos (by rw [List.append_assoc]; exact List.prefix_append p _)] at hn
  cases hn

theorem Cut.pruned (h : Cut s p t) : Pruned s p t where
  outside q hq := by rw [h, if_neg hq]
  inside q := by
    rw [h]
    split
    · exact .inr rfl
    · exact .inl rfl
  closed := h.closedAt

/-- What goes below an entry of a directory goes below the directory. -/
theorem Pruned.up (hs : ClosedAt s p) {n : String} (h : Pruned s (p ++ [n]) t) : Pruned s p t where
  outside q hq := h.outside q fun hp => hq ((List.prefix_append p [n]).trans hp)
  inside := h.inside
  closed := by
    intro r k hk
    by_cases hp : p ++ [n] <+: p ++ r
    · obtain ⟨u, hu⟩ := hp
      rw [← hu] at hk ⊢
      exact h.closed u k hk
    · have hsome : (s.get (p ++ r ++ [k])).isSome := by
        rcases h.inside (p ++ r ++ [k]) with he | he
        · rwa [← he]
        · rw [he] at hk
          cases hk
      exact realDir_of_get_eq (h.outside _ hp) (hs r k hsome)

theorem length_le_height {q : Path} (h : (s.get q).isSome) : q.length ≤ s.height := by
  unfold get at h
  unfold height
  generalize s.entries = l at h ⊢
  induction l with
  | nil => simp at h
  | cons e l ih =>
    obtain ⟨k, n⟩ := e
    simp only [List.map_cons, List.foldr_cons]
    by_cases hk : q = k
    · subst hk
      exact le_max_left _ _
    · have hne : (q == k) = false := by simpa using hk
      simp only [List.lookup_cons, hne] at h
      exact (ih h).trans (le_max_right _ _)

variable [OfOsError ε]

/-- Removal of one entry of `p`, given how its own entries are removed. -/
private theorem removeEntry_spec {depth : Nat} {n : String}
    (ih : ∀ {s : DirTree C} {p : Path}, s.realDir p → ClosedAt s p →
      (∀ q, p <+: q → (s.get q).isSome → q.length ≤ p.length + depth) →
      Triple (· = s) (removeBelow depth p : Program (DirTree C) ε Unit)
        (Returns fun _ => Cut s p) (Pruned s p))
    (hn : (s.get (p ++ [n])).isSome) (hc : ClosedAt s p)
    (hlen : ∀ q, p <+: q → (s.get q).isSome → q.length ≤ p.length + (depth + 1)) :
    Triple (· = s) (do
      let dir ← Program.read fun s => s.isRealDir (p ++ [n])
      if dir then removeBelow depth (p ++ [n])
      else syscall (unlink (p ++ [n])) : Program (DirTree C) ε Unit)
      (Returns fun _ => Cut s (p ++ [n])) (Pruned s (p ++ [n])) := by
  have hcn : ClosedAt s (p ++ [n]) := hc.below [n]
  rintro s rfl
  unfold Program.final Program.out
  rw [Program.bind_of_pure (Program.read_run _ _)]
  by_cases hd : s.realDir (p ++ [n])
  · rw [if_pos (by simpa [isRealDir] using hd)]
    refine ih hd hcn (fun q hq hs => ?_) s rfl
    have := hlen q ((List.prefix_append p [n]).trans hq) hs
    simp only [List.length_append, List.length_singleton]
    omega
  · rw [if_neg (by simpa [isRealDir] using hd)]
    have hu : unlink (p ++ [n]) s = .ok (s.remove (p ++ [n])) := by
      rcases hg : s.get (p ++ [n]) with _ | ⟨c, m⟩ | m | k
      · rw [hg] at hn
        cases hn
      · simp [unlink, hg]
      · exact absurd ⟨m, hg⟩ hd
      · simp [unlink, hg]
    have hcut : Cut s (p ++ [n]) (s.remove (p ++ [n])) := by
      intro q
      rw [get_remove]
      by_cases hq : p ++ [n] <+: q
      · rw [if_pos hq]
        split
        · rfl
        · next hne =>
          obtain ⟨r, rfl⟩ := hq
          by_contra hsome
          obtain ⟨x, r, rfl⟩ := List.exists_cons_of_ne_nil (l := r) (by
            rintro rfl
            simp at hne)
          -- an entry below `n` would make `n` a directory
          have hx : s.get (p ++ [n] ++ [x]) = none := by
            by_contra hx
            exact hd (by simpa using hc [n] x (by simpa [Option.isSome_iff_ne_none] using hx))
          have := hcn.absent (r := [x]) hx r
          rw [List.append_assoc] at this
          exact hsome this
      · rw [if_neg hq, if_neg]
        rintro rfl
        exact hq List.prefix_rfl
    rw [syscall_ok hu]
    exact ⟨by simpa using hcut.pruned, (), rfl, by simpa using hcut⟩

/-- Removal of a directory once nothing is left in it. -/
private theorem removeSelf_spec (hd : s.realDir p) (hp : t.get p = s.get p)
    (hbelow : ∀ n r, t.get (p ++ n :: r) = none) (hout : ∀ q, ¬ p <+: q → t.get q = s.get q) :
    Triple (· = t) (syscall (rmdir p) : Program (DirTree C) ε Unit)
      (Returns fun _ => Cut s p) (Pruned s p) := by
  rintro t rfl
  obtain ⟨m, hm⟩ := hd
  have hrm : rmdir p t = .ok (t.remove p) := rmdir_ok (hp.trans hm) fun n => hbelow n []
  have hcut : Cut s p (t.remove p) := by
    intro q
    rw [get_remove]
    by_cases hq : p <+: q
    · obtain ⟨r, rfl⟩ := hq
      rcases r with _ | ⟨n, r⟩
      · simp
      · simp [hbelow]
    · rw [if_neg hq, if_neg, hout q hq]
      rintro rfl
      exact hq List.prefix_rfl
  unfold Program.final Program.out
  rw [syscall_ok hrm]
  exact ⟨by simpa using hcut.pruned, (), rfl, by simpa using hcut⟩

/-- Of the entries of `p`, those not in `rest` are gone with all below them; everything else
is as in `s`. -/
private structure Emptied (s : DirTree C) (p : Path) (rest : List String) (t : DirTree C) : Prop where
  gone : ∀ n r, n ∉ rest → t.get (p ++ n :: r) = none
  kept : ∀ q, (∀ n r, q = p ++ n :: r → n ∈ rest) → t.get q = s.get q

private theorem Emptied.start (hc : ClosedAt s p) : Emptied s p (s.children p) s where
  gone n r hn := by
    have hnone : s.get (p ++ [n]) = none := by
      by_contra h
      exact hn (mem_children.mpr (Option.isSome_iff_ne_none.mpr h))
    simpa using hc.absent hnone r
  kept _ _ := rfl

private theorem Emptied.outside {rest : List String} (h : Emptied s p rest t)
    (hq : ¬ p <+: q) : t.get q = s.get q :=
  h.kept q fun _ _ he => absurd (he ▸ List.prefix_append p _) hq

private theorem Emptied.inside {rest : List String} (h : Emptied s p rest t) (q : Path) :
    t.get q = s.get q ∨ t.get q = none := by
  by_cases hq : ∀ n r, q = p ++ n :: r → n ∈ rest
  · exact .inl (h.kept q hq)
  · push Not at hq
    obtain ⟨n, r, rfl, hn⟩ := hq
    exact .inr (h.gone n r hn)

private theorem Emptied.pruned {rest : List String} (hc : ClosedAt s p)
    (h : Emptied s p rest t) : Pruned s p t where
  outside q := h.outside
  inside := h.inside
  closed := by
    intro r n hn
    have hsome : (s.get (p ++ r ++ [n])).isSome := by
      rcases h.inside (p ++ r ++ [n]) with he | he
      · rwa [← he]
      · rw [he] at hn
        cases hn
    refine realDir_of_get_eq (h.kept _ fun k u hk => ?_) (hc r n hsome)
    rw [List.append_cancel_left hk] at hn
    by_contra hnk
    have hgone := h.gone k (u ++ [n]) hnk
    rw [show p ++ k :: (u ++ [n]) = p ++ (k :: u) ++ [n] by simp] at hgone
    rw [hgone] at hn
    cases hn

private theorem Emptied.step {rest : List String} {n : String} {u : DirTree C} (hn : n ∉ rest)
    (h : Emptied s p (n :: rest) t) (hu : Cut t (p ++ [n]) u) : Emptied s p rest u where
  gone k r hk := by
    rw [hu]
    by_cases hkn : k = n
    · subst hkn
      rw [if_pos ⟨r, by simp⟩]
    · rw [if_neg, h.gone k r (by simp [hkn, hk])]
      rintro ⟨w, hw⟩
      have := List.append_cancel_left (by simpa using hw : p ++ (n :: w) = p ++ k :: r)
      exact hkn (List.cons.inj this).1.symm
  kept q hq := by
    rw [hu, if_neg, h.kept q fun k r he => List.mem_cons_of_mem n (hq k r he)]
    rintro ⟨w, rfl⟩
    exact hn (hq n w (by simp))

private theorem removeBelow_spec (depth : Nat) {s : DirTree C} {p : Path} (hd : s.realDir p)
    (hc : ClosedAt s p) (hlen : ∀ q, p <+: q → (s.get q).isSome → q.length ≤ p.length + depth) :
    Triple (· = s) (removeBelow depth p : Program (DirTree C) ε Unit)
      (Returns fun _ => Cut s p) (Pruned s p) := by
  induction depth generalizing s p with
  | zero =>
    refine removeSelf_spec hd rfl (fun n r => ?_) fun _ _ => rfl
    by_contra h
    have := hlen (p ++ n :: r) (List.prefix_append _ _) (Option.isSome_iff_ne_none.mpr h)
    rw [List.length_append, List.length_cons] at this
    omega
  | succ depth ih =>
    have hloop := Triple.each (C := Pruned s p) (Emptied s p) (s.children p) (f := fun n => (do
        let dir ← Program.read fun s => s.isRealDir (p ++ [n])
        if dir then removeBelow depth (p ++ [n])
        else syscall (unlink (p ++ [n])) : Program (DirTree C) ε Unit)) ?_
    · rw [removeBelow]
      refine Triple.bind_returns (R := fun names t => names = s.children p ∧ t = s) ?_ ?_
      · rintro _ rfl
        exact ⟨by simp, _, rfl, rfl, rfl⟩
      · rintro names t ⟨rfl, rfl⟩
        have hstart : ∀ u, u = t → Emptied t p (t.children p) u := by
          rintro u rfl
          exact Emptied.start hc
        refine Triple.bind_returns (hloop.pre hstart) (fun _ => ?_) t rfl
        refine Triple.of_forall fun u hu => removeSelf_spec hd (hu.kept p fun n r h => ?_)
          (fun n r => hu.gone n r (by simp)) fun q => hu.outside
        simp at h
    · rintro n rest ⟨before, hb⟩
      refine Triple.of_forall fun t ht => ?_
      have hpr := ht.pruned hc
      have hnr : n ∉ rest := by
        have := hb ▸ children_nodup s p
        rw [List.nodup_append] at this
        exact (List.nodup_cons.mp this.2.1).1
      have hsome : (t.get (p ++ [n])).isSome := by
        rw [ht.kept _ fun k r h => by simp_all]
        exact mem_children.mp (hb ▸ by simp)
      have hlen' : ∀ q, p <+: q → (t.get q).isSome → q.length ≤ p.length + (depth + 1) := by
        intro q hq hs
        rcases hpr.inside q with he | he
        · exact hlen q hq (he ▸ hs)
        · rw [he] at hs
          cases hs
      refine (removeEntry_spec ih hsome hpr.closed hlen').weaken (fun _ h => h) ?_ fun c hc' =>
        hpr.trans (hc'.up hpr.closed)
      rintro o u ⟨a, ho, hu⟩
      exact ⟨a, ho, ht.step hnr hu⟩

theorem rmtree_spec (hd : s.realDir p) (hc : ClosedAt s p) :
    Triple (· = s) (rmtree p : Program (DirTree C) ε Unit) (Returns fun _ => Cut s p)
      (Pruned s p) := by
  rintro s rfl
  have h := removeBelow_spec (ε := ε) s.height hd hc
    (fun q _ hs => (length_le_height hs).trans (Nat.le_add_left _ _))
  exact h s rfl

end AgentStack.FileTree.DirTree
