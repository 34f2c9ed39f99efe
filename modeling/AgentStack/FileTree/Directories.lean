import AgentStack.FileTree.Operations

/-! Directories made with their parents, and removed with all they hold. -/
namespace AgentStack.FileTree.DirTree

open AgentStack.Crash

variable {C ε : Type} [OfOsError ε] {s t : DirTree C} {p q : Path} {m : Mode}

/-- `t` is `s` with directories added on the way to `p`. -/
def Extends (m : Mode) (s : DirTree C) (p : Path) (t : DirTree C) : Prop :=
  ∀ q, t.get q = s.get q ∨ q <+: p ∧ s.get q = none ∧ t.get q = some (.dir m)

/-- On the way to `p` there are directories or nothing. -/
def Clear (s : DirTree C) (p : Path) : Prop :=
  s.realDir [] ∧ ∀ q, q <+: p → s.get q = none ∨ s.realDir q

/-- Directories all the way to `p`, and `p` one too. -/
def Reaches (s : DirTree C) (p : Path) : Prop := ∀ q, q <+: p → s.realDir q

theorem Reaches.root (h : s.realDir []) : Reaches s [] := by
  intro q hq
  rw [List.prefix_nil.mp hq]
  exact h

theorem Reaches.snoc {n : String} (h : Reaches s p) (hn : s.realDir (p ++ [n])) :
    Reaches s (p ++ [n]) := by
  intro q hq
  rcases List.prefix_concat_iff.mp hq with rfl | hq
  · exact hn
  · exact h q hq

theorem isDir_of_realDir (h : s.realDir p) : s.isDir p = true := by
  obtain ⟨m, h⟩ := h
  simp [isDir, h]

theorem realDir_of_get_eq (h : t.get p = s.get p) (hs : s.realDir p) : t.realDir p := by
  obtain ⟨m, hs⟩ := hs
  exact ⟨m, h.trans hs⟩

theorem Extends.realDir (h : Extends m s p t) (hq : s.realDir q) : t.realDir q := by
  rcases h q with h | ⟨-, -, h⟩
  · exact realDir_of_get_eq h hq
  · exact ⟨m, h⟩

theorem Extends.get_some {n : Node C} (h : Extends m s p t) (hq : s.get q = some n) :
    t.get q = some n := by
  rcases h q with h | ⟨-, h, -⟩
  · rw [h, hq]
  · rw [hq] at h
    cases h

theorem Extends.get_of_not_prefix (h : Extends m s p t) (hq : ¬ q <+: p) : t.get q = s.get q :=
  (h q).resolve_right fun h => hq h.1

theorem Extends.clear (h : Extends m s p t) (hc : Clear s q) : Clear t q := by
  refine ⟨h.realDir hc.1, fun r hr => ?_⟩
  rcases h r with he | ⟨-, -, hd⟩
  · rcases hc.2 r hr with hn | hd
    · exact .inl (he.trans hn)
    · exact .inr (realDir_of_get_eq he hd)
  · exact .inr ⟨m, hd⟩

theorem Extends.refl (m : Mode) (s : DirTree C) (p : Path) : Extends m s p s := fun _ => .inl rfl

theorem Extends.trans {u : DirTree C} (h : Extends m s p t) (h' : Extends m t p u) :
    Extends m s p u := by
  intro q
  rcases h' q with he | ⟨hp, hn, hd⟩
  · rcases h q with he' | ⟨hp, hn, hd⟩
    · exact .inl (he.trans he')
    · exact .inr ⟨hp, hn, he.trans hd⟩
  · rcases h q with he' | ⟨-, -, hm⟩
    · exact .inr ⟨hp, he' ▸ hn, hd⟩
    · rw [hm] at hn
      cases hn

theorem Extends.set_dir (hq : q <+: p) (hn : s.get q = none) :
    Extends m s p (s.set q (.dir m)) := by
  intro r
  rw [get_set]
  by_cases h : r = q
  · subst h
    exact .inr ⟨hq, hn, by simp⟩
  · rw [if_neg h]
    exact .inl rfl

theorem Reaches.of_get (h : Reaches s p) (he : ∀ q, s.realDir q → t.realDir q) : Reaches t p :=
  fun q hq => he q (h q hq)

private theorem mkdirsBelow_spec (d r : Path) (hd : Reaches s d) (h : Clear s (d ++ r)) :
    Triple (· = s) (mkdirsBelow m d r : Program (DirTree C) ε Unit)
      (Returns fun _ t => Extends m s (d ++ r) t ∧ Reaches t (d ++ r))
      (Extends m s (d ++ r)) := by
  induction r generalizing d s with
  | nil =>
    refine (Triple.pure (R := fun _ t => t = s) ()).post ?_
    rintro o t ⟨a, ho, rfl⟩
    exact ⟨a, ho, Extends.refl _ _ _, by simpa using hd⟩
  | cons n r ih =>
    have hassoc : d ++ n :: r = (d ++ [n]) ++ r := by simp
    rw [hassoc] at h ⊢
    have hpre : d ++ [n] <+: (d ++ [n]) ++ r := List.prefix_append _ _
    -- the first directory stands or is made; the rest starts from there
    have hstep : Triple (· = s) (.whenever (fun s => !s.isDir (d ++ [n]))
        (syscall (mkdir m (d ++ [n]))) : Program (DirTree C) ε Unit)
        (Returns fun _ t => Extends m s ((d ++ [n]) ++ r) t ∧ t.realDir (d ++ [n]))
        (Extends m s ((d ++ [n]) ++ r)) := by
      refine Triple.whenever _ (fun ht => ?_) fun ht => ?_
      · have hn : s.get (d ++ [n]) = none := by
          rcases h.2 _ hpre with hn | hn
          · exact hn
          · simp [isDir_of_realDir hn] at ht
        have hmk : mkdir m (d ++ [n]) s = .ok (s.set (d ++ [n]) (.dir m)) :=
          mkdir_ok (by simpa using hd d List.prefix_rfl) hn
        have hext := Extends.set_dir (m := m) hpre hn
        refine (syscall_spec hmk hext).post ?_
        rintro o t ⟨a, ho, rfl⟩
        exact ⟨a, ho, hext, m, by simp⟩
      · refine ⟨(), rfl, Extends.refl _ _ _, ?_⟩
        rcases h.2 _ hpre with hn | hn
        · simp [isDir, hn] at ht
        · exact hn
    refine hstep.bind_returns fun _ => Triple.of_forall fun t ⟨hext, hdir⟩ => ?_
    have hreach : Reaches t (d ++ [n]) := (hd.of_get fun q => hext.realDir).snoc hdir
    refine (ih (d ++ [n]) hreach (hext.clear h)).weaken (fun _ h => h) ?_ fun c hc => hext.trans hc
    rintro o u ⟨a, ho, hu, hdir'⟩
    exact ⟨a, ho, hext.trans hu, hdir'⟩

/-- Every directory on the way stands afterwards; the new ones are all that is new. -/
theorem mkdirs_spec (h : Clear s p) :
    Triple (· = s) (mkdirs m p : Program (DirTree C) ε Unit)
      (Returns fun _ t => Extends m s p t ∧ Reaches t p) (Extends m s p) :=
  mkdirsBelow_spec [] p (Reaches.root h.1) h

/-- `t` is `s` with directories added on the way to `p`, each in a directory. -/
structure Grown (m : Mode) (s : DirTree C) (p : Path) (t : DirTree C) : Prop where
  added : Extends m s p t
  rooted : ∀ q, q ≠ [] → t.get q ≠ s.get q → t.realDir (parent q)

theorem Grown.refl (m : Mode) (s : DirTree C) (p : Path) : Grown m s p s :=
  ⟨Extends.refl m s p, fun _ _ h => absurd rfl h⟩

theorem Grown.trans {u : DirTree C} (h : Grown m s p t) (h' : Grown m t p u) : Grown m s p u := by
  refine ⟨h.added.trans h'.added, fun q hq hne => ?_⟩
  by_cases hu : u.get q = t.get q
  · exact h'.added.realDir (h.rooted q hq (hu ▸ hne))
  · exact h'.rooted q hq hu

/-- Whatever stands in the way, `mkdirs` only adds directories. -/
theorem mkdirs_grown (m : Mode) (s : DirTree C) (p : Path) :
    Triple (· = s) (mkdirs m p : Program (DirTree C) ε Unit) (fun _ t => Grown m s p t)
      (Grown m s p) := by
  suffices h : ∀ d r s, d ++ r = p →
      Triple (· = s) (mkdirsBelow m d r : Program (DirTree C) ε Unit) (fun _ t => Grown m s p t)
        (Grown m s p) from h [] p s rfl
  intro d r
  induction r generalizing d with
  | nil =>
    intro s _
    refine (Triple.pure (R := fun _ t => t = s) ()).post ?_
    rintro o t ⟨a, ho, rfl⟩
    exact Grown.refl m t p
  | cons n r ih =>
    intro s hp
    have hpre : d ++ [n] <+: p := ⟨r, by simpa using hp⟩
    have hstep : Triple (· = s) (.whenever (fun s => !s.isDir (d ++ [n]))
        (syscall (mkdir m (d ++ [n]))) : Program (DirTree C) ε Unit)
        (fun _ t => Grown m s p t) (Grown m s p) := by
      refine Triple.whenever _ (fun _ => ?_) fun _ => Grown.refl m s p
      rcases hmk : mkdir m (d ++ [n]) s with e | u
      · rintro s rfl
        have hrun := syscall_error (ε := ε) hmk
        rw [Program.final, hrun]
        exact ⟨by simp, Grown.refl m s p⟩
      · have hg : Grown m s p u := by
          unfold mkdir at hmk
          rcases hd : requireDir s (parent (d ++ [n])) with e | x
          · rw [hd] at hmk
            cases hmk
          · rw [hd] at hmk
            rcases hn : s.get (d ++ [n]) with _ | k
            · obtain rfl : s.set (d ++ [n]) (.dir m) = u := by
                simpa [hn, bind, Except.bind] using hmk
              refine ⟨Extends.set_dir hpre hn, fun q _ hne => ?_⟩
              obtain rfl : q = d ++ [n] := by
                by_contra hq
                exact hne (by simp [hq])
              obtain ⟨k, hk⟩ := realDir_of_requireDir hd
              refine ⟨k, ?_⟩
              rw [get_set, if_neg, hk]
              intro h
              have := congrArg List.length h
              simp at this
            · simp [hn, bind, Except.bind] at hmk
        refine (syscall_spec hmk hg).post ?_
        rintro o t ⟨-, -, rfl⟩
        exact hg
    refine hstep.bind (fun _ => Triple.of_forall fun t ht => ?_) fun e t ht => ht
    exact (ih (d ++ [n]) t (by simpa using hp)).weaken (fun _ h => h)
      (fun _ _ h => ht.trans h) fun _ h => ht.trans h

/-- Both at once: a clear way is made in full. -/
theorem mkdirs_any (m : Mode) (s : DirTree C) (p : Path) :
    Triple (· = s) (mkdirs m p : Program (DirTree C) ε Unit)
      (fun o t => Grown m s p t ∧ (Clear s p → o = .ok () ∧ Reaches t p)) (Grown m s p) := by
  by_cases hc : Clear s p
  · refine ((mkdirs_grown m s p).and (mkdirs_spec hc)).weaken (fun _ h => h) ?_ fun _ h => h.1
    rintro o t ⟨hg, ⟨⟩, ho, -, hr⟩
    exact ⟨hg, fun _ => ⟨ho, hr⟩⟩
  · exact (mkdirs_grown m s p).post fun o t hg => ⟨hg, fun h => absurd h hc⟩

private theorem mkdirsBelow_run (d r : Path) (h : ∀ q, q <+: d ++ r → s.isDir q) :
    (mkdirsBelow m d r : Program (DirTree C) ε Unit).run s = ⟨[], .ok ()⟩ := by
  induction r generalizing d with
  | nil => rfl
  | cons n r ih =>
    have hassoc : d ++ n :: r = (d ++ [n]) ++ r := by simp
    rw [hassoc] at h
    have hn := Program.whenever_false (p := (syscall (mkdir m (d ++ [n])) :
      Program (DirTree C) ε Unit)) (s := s) (fun s => !s.isDir (d ++ [n]))
      (by simp [h _ (List.prefix_append _ _)])
    rw [mkdirsBelow, Program.bind_of_pure hn]
    exact ih (d ++ [n]) h

/-- Where all directories stand, `mkdirs` has no effect. -/
theorem mkdirs_run (h : Reaches s p) :
    (mkdirs m p : Program (DirTree C) ε Unit).run s = ⟨[], .ok ()⟩ :=
  mkdirsBelow_run [] p fun q hq => isDir_of_realDir (h q hq)

theorem Reaches.clear (h : Reaches s p) : Clear s p :=
  ⟨h [] List.nil_prefix, fun q hq => .inr (h q hq)⟩

theorem WellFormed.reaches (h : s.WellFormed) (hp : s.realDir p) : Reaches s p := by
  rintro q ⟨r, rfl⟩
  induction r using List.reverseRecOn with
  | nil => simpa using hp
  | append_singleton r n ih =>
    rw [← List.append_assoc] at hp
    obtain ⟨m, hm⟩ := hp
    exact ih (h.parent_realDir (by rw [hm]; rfl))

theorem not_isSymlink_of_realDir (h : s.realDir p) : s.isSymlink p = false := by
  obtain ⟨m, h⟩ := h
  simp [isSymlink, h]

end AgentStack.FileTree.DirTree
