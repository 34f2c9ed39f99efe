import AgentStack.FileTree.Removal

/-! What programs leave alone, whatever tree they start from: all but a set of paths, and the
shape of the tree. -/
namespace AgentStack.FileTree.DirTree

open AgentStack.Crash

variable {C ε : Type} {s t : DirTree C} {p q : Path} {m : Mode} {W X : Path → Prop}

/-! ### One system call -/

theorem mkdir_eq_ok (h : mkdir m p s = .ok t) :
    s.realDir (parent p) ∧ s.get p = none ∧ t.get = Function.update s.get p (some (.dir m)) := by
  simp only [mkdir] at h
  cases hd : requireDir s (parent p) with
  | error e =>
    rw [hd] at h
    cases h
  | ok u =>
    rw [hd] at h
    cases hp : s.get p with
    | some n => simp [hp, bind, Except.bind] at h
    | none =>
      have : s.set p (.dir m) = t := by simpa [hp, bind, Except.bind] using h
      rw [← this]
      exact ⟨realDir_of_requireDir hd, rfl, get_set_eq _ _ _⟩

theorem create_eq_ok {c : C} (h : create c m p s = .ok t) :
    s.realDir (parent p) ∧ s.get p = none ∧
      t.get = Function.update s.get p (some (.file c m)) := by
  simp only [create] at h
  cases hd : requireDir s (parent p) with
  | error e =>
    rw [hd] at h
    cases h
  | ok u =>
    rw [hd] at h
    cases hp : s.get p with
    | some n => simp [hp, bind, Except.bind] at h
    | none =>
      have : s.set p (.file c m) = t := by simpa [hp, bind, Except.bind] using h
      rw [← this]
      exact ⟨realDir_of_requireDir hd, rfl, get_set_eq _ _ _⟩

theorem unlink_eq_ok (h : unlink p s = .ok t) :
    (∃ n, s.get p = some n ∧ ∀ m', n ≠ .dir m') ∧ t.get = Function.update s.get p none := by
  simp only [unlink] at h
  split at h
  · cases h
  · cases h
  · rename_i n hnd hn
    cases h
    refine ⟨⟨n, hn, ?_⟩, get_remove_eq _ _⟩
    intro m' hm
    exact hnd m' hm

theorem rmdir_eq_ok (h : rmdir p s = .ok t) :
    s.realDir p ∧ s.children p = [] ∧ t.get = Function.update s.get p none := by
  simp only [rmdir] at h
  split at h
  · cases h
  · rename_i m' hm
    split at h
    · rename_i hc
      cases h
      exact ⟨⟨m', hm⟩, hc, get_remove_eq _ _⟩
    · cases h
  · cases h

/-- A path at neither end of a move is where it was. -/
theorem get_move_off (s : DirTree C) {src dst : Path} (hsrc : ¬ src <+: q) (hdst : ¬ dst <+: q) :
    (s.move src dst).get q = s.get q := by
  simp only [get, move]
  induction s.entries with
  | nil => rfl
  | cons e l ih =>
    obtain ⟨k, n⟩ := e
    by_cases hk : q = k
    · subst hk
      simp [hsrc, hdst]
    · have hne : (q == k) = false := by simpa using hk
      simp only [List.filterMap_cons, List.lookup_cons, hne]
      split
      · rename_i hnone
        exact ih
      · rename_i e' he'
        have hmoved : (q == e'.1) = false := by
          rw [beq_eq_false_iff_ne]
          intro hq
          split at he'
          · cases he'
          · split at he'
            · cases he'
              exact hdst (hq ▸ List.prefix_append _ _)
            · cases he'
              exact hk hq
        rw [List.lookup_cons, hmoved]
        exact ih

/-- What a rename did: nothing, a directory moved, or a file put over what is no directory. -/
theorem rename_eq_ok {src dst : Path} (h : rename src dst s = .ok t) :
    t = s ∨ s.realDir (parent dst) ∧ src ≠ dst ∧ ¬ src <+: dst ∧
      (s.realDir src ∧ (s.get dst = none ∨ s.realDir dst ∧ s.children dst = []) ∧
          t = s.move src dst ∨
        ∃ n, s.get src = some n ∧ (∀ m', n ≠ .dir m') ∧ ¬ s.realDir dst ∧
          t = (s.remove src).set dst n) := by
  simp only [rename] at h
  cases hs : s.get src with
  | none =>
    rw [hs] at h
    cases h
  | some n =>
    rw [hs] at h
    simp only at h
    cases hd : requireDir s (parent dst) with
    | error e =>
      rw [hd] at h
      cases h
    | ok u =>
      rw [hd] at h
      simp only [bind, Except.bind] at h
      split at h
      · cases h
        exact Or.inl rfl
      · rename_i hne
        split at h
        · cases h
        · rename_i hpre
          refine Or.inr ⟨realDir_of_requireDir hd, hne, hpre, ?_⟩
          split at h
          · rename_i m' hdst
            cases h
            exact Or.inl ⟨⟨m', hs⟩, Or.inl hdst, rfl⟩
          · rename_i m' k hdst
            split at h
            · rename_i hc
              cases h
              exact Or.inl ⟨⟨m', hs⟩, Or.inr ⟨⟨k, hdst⟩, hc⟩, rfl⟩
            · cases h
          · cases h
          · cases h
          · rename_i hdir hnone hempty hother
            cases h
            refine Or.inr ⟨_, rfl, ?_, ?_, rfl⟩
            · intro m' hn
              cases hg : s.get dst with
              | none => exact hnone m' hn hg
              | some k => exact hother m' k hn hg
            · rintro ⟨m', hm'⟩
              exact hdir m' hm'

/-! ### The shape of the tree -/

theorem wellFormed_iff : s.WellFormed ↔
    s.realDir [] ∧ ∀ q, q ≠ [] → (s.get q).isSome → s.realDir (parent q) := by
  constructor
  · intro h
    refine ⟨h.1, fun q hq hsome => ?_⟩
    rw [← parent_append_name hq] at hsome
    exact h.parent_realDir hsome
  · intro h
    refine ⟨h.1, fun e he => ?_⟩
    by_cases hq : e.1 = []
    · exact Or.inl hq
    · refine Or.inr (h.2 e.1 hq ?_)
      rw [get]
      exact List.lookup_isSome_iff.mpr ⟨e, he, by simp⟩

theorem WellFormed.congr (h : s.WellFormed) (hget : t.get = s.get) : t.WellFormed := by
  rw [wellFormed_iff] at h ⊢
  simp only [realDir, hget] at h ⊢
  exact h

theorem WellFormed.no_children (h : s.WellFormed) (hp : ¬ s.realDir p) {r : Path} (hr : r ≠ []) :
    s.get (p ++ r) = none := by
  obtain ⟨n, r, rfl⟩ := List.exists_cons_of_ne_nil hr
  have hn : s.get (p ++ [n]) = none := by
    by_contra hsome
    exact hp (h.parent_realDir (Option.isSome_iff_ne_none.mpr hsome))
  simpa using h.sub_none hn r

/-- A node put where a directory can hold it, over what is no directory. -/
theorem WellFormed.update (h : s.WellFormed) {n : Option (Node C)}
    (hget : t.get = Function.update s.get p n) (hpar : s.realDir (parent p)) (hne : p ≠ [])
    (hp : ¬ s.realDir p) : t.WellFormed := by
  rw [wellFormed_iff] at h ⊢
  have hdir : ∀ q, s.realDir q → t.realDir q := by
    intro q hq
    have hqp : q ≠ p := by
      rintro rfl
      exact hp hq
    obtain ⟨k, hk⟩ := hq
    exact ⟨k, by rw [hget, Function.update_of_ne hqp, hk]⟩
  refine ⟨hdir _ h.1, fun q hq hsome => ?_⟩
  by_cases hqp : q = p
  · rw [hqp]
    exact hdir _ hpar
  · rw [hget, Function.update_of_ne hqp] at hsome
    exact hdir _ (h.2 q hq hsome)

/-- A node exchanged for one of its kind. -/
theorem WellFormed.rewrite (h : s.WellFormed) {n n' : Node C} (hn : s.get p = some n)
    (hget : t.get = Function.update s.get p (some n'))
    (hdir : ∀ k, n = .dir k → ∃ k', n' = .dir k') : t.WellFormed := by
  rw [wellFormed_iff] at h ⊢
  have hkeep : ∀ q, s.realDir q → t.realDir q := by
    rintro q ⟨k, hk⟩
    unfold realDir
    rw [hget]
    by_cases hqp : q = p
    · rw [hqp, hn] at hk
      obtain ⟨k', hk'⟩ := hdir k (Option.some.inj hk)
      exact ⟨k', by rw [hqp, Function.update_self, hk']⟩
    · exact ⟨k, by rw [Function.update_of_ne hqp, hk]⟩
  refine ⟨hkeep _ h.1, fun q hq hsome => hkeep _ (h.2 q hq ?_)⟩
  by_cases hqp : q = p
  · rw [hqp, hn]
    rfl
  · rw [hget, Function.update_of_ne hqp] at hsome
    exact hsome

theorem WellFormed.remove_dir (h : s.WellFormed) (hget : t.get = Function.update s.get p none)
    (hne : p ≠ []) (hc : s.children p = []) : t.WellFormed := by
  rw [wellFormed_iff] at h ⊢
  have hchild : ∀ q, q ≠ [] → (s.get q).isSome → parent q ≠ p := by
    intro q hq hsome hpar
    have : name q ∈ s.children p := by
      rw [mem_children, ← hpar, parent_append_name hq]
      exact hsome
    rw [hc] at this
    cases this
  refine ⟨?_, fun q hq hsome => ?_⟩
  · obtain ⟨k, hk⟩ := h.1
    exact ⟨k, by rw [hget, Function.update_of_ne (Ne.symm hne), hk]⟩
  · by_cases hqp : q = p
    · rw [hget, hqp, Function.update_self] at hsome
      cases hsome
    · rw [hget, Function.update_of_ne hqp] at hsome
      obtain ⟨k, hk⟩ := h.2 q hq hsome
      exact ⟨k, by rw [hget, Function.update_of_ne (hchild q hq hsome), hk]⟩

/-- Moving a directory to where nothing is, or over an empty directory. -/
theorem WellFormed.move (h : s.WellFormed) {src dst : Path} (hsrc : s.realDir src)
    (hpar : s.realDir (parent dst)) (hne : src ≠ dst) (hpre : ¬ src <+: dst) (hd : dst ≠ [])
    (hdst : s.get dst = none ∨ s.realDir dst ∧ s.children dst = []) :
    (s.move src dst).WellFormed := by
  have hfree : ∀ r, r ≠ [] → s.get (dst ++ r) = none := by
    intro r hr
    rcases hdst with hnone | ⟨-, hc⟩
    · exact h.sub_none hnone r
    · obtain ⟨n, r, rfl⟩ := List.exists_cons_of_ne_nil hr
      have hn : s.get (dst ++ [n]) = none := by
        by_contra hsome
        have := mem_children.mpr (Option.isSome_iff_ne_none.mpr hsome)
        rw [hc] at this
        cases this
      simpa using h.sub_none hn r
  have hpre' : ¬ dst <+: src := by
    rintro ⟨r, hr⟩
    obtain ⟨k, hk⟩ := hsrc
    have hrne : r ≠ [] := by
      rintro rfl
      exact hne (by simpa using hr.symm)
    rw [← hr, hfree r hrne] at hk
    cases hk
  have hget := get_move s hpre hpre'
  rw [wellFormed_iff] at h ⊢
  -- directories on neither side stay, those below the source come along
  have hstay : ∀ q, s.realDir q → ¬ src <+: q → (dst <+: q → False) →
      (s.move src dst).realDir q := by
    rintro q ⟨k, hk⟩ hq hq'
    exact ⟨k, by rw [hget, if_neg hq', if_neg hq, hk]⟩
  have hcome : ∀ r, s.realDir (src ++ r) → (s.move src dst).realDir (dst ++ r) := by
    rintro r ⟨k, hk⟩
    exact ⟨k, by rw [hget, if_pos (List.prefix_append _ _)]; simpa using hk⟩
  have hsne : src ≠ [] := by
    rintro rfl
    exact hpre List.nil_prefix
  refine ⟨hstay [] h.1 ?_ ?_, ?_⟩
  · intro hq
    exact hsne (List.prefix_nil.mp hq)
  · intro hq
    exact hd (List.prefix_nil.mp hq)
  · intro q hq hsome
    rw [hget] at hsome
    split at hsome
    · rename_i hbelow
      obtain ⟨r, rfl⟩ := hbelow
      cases r using List.reverseRecOn with
      | nil =>
        rw [List.append_nil]
        apply hstay _ hpar
        · intro hq
          exact hpre (hq.trans (List.dropLast_prefix dst))
        · intro hq
          have := hq.length_le
          have hlen : 0 < dst.length := List.length_pos_iff.mpr hd
          simp [parent] at this
          omega
      | append_singleton r n =>
        have hparent : parent (dst ++ (r ++ [n])) = dst ++ r := by
          rw [← List.append_assoc, parent_append]
        rw [hparent]
        apply hcome
        have := h.2 (src ++ (r ++ [n])) (by simp) (by simpa using hsome)
        rwa [← List.append_assoc, parent_append] at this
    · rename_i hnot
      split at hsome
      · cases hsome
      · rename_i hnot'
        apply hstay _ (h.2 q hq hsome)
        · intro hq'
          exact hnot' (hq'.trans (List.dropLast_prefix q))
        · intro hq'
          exact hnot (hq'.trans (List.dropLast_prefix q))

/-! ### Frames -/

/-- `t` differs from `s` on the paths of `W` only, and has the shape of a tree if `s` has. -/
structure Frame (W : Path → Prop) (s t : DirTree C) : Prop where
  off : ∀ q, ¬ W q → t.get q = s.get q
  shape : s.WellFormed → t.WellFormed

/-- What stood in `s` off the paths of `W` still stands in `t`; there may be more. -/
structure Keeps (W : Path → Prop) (s t : DirTree C) : Prop where
  off : ∀ q n, s.get q = some n → ¬ W q → t.get q = some n
  shape : s.WellFormed → t.WellFormed

instance : Std.Refl (Frame (C := C) W) := ⟨fun _ => ⟨fun _ _ => rfl, id⟩⟩

instance : IsTrans (DirTree C) (Frame W) := by
  constructor
  intro s t u h h'
  constructor
  · intro q hq
    rw [h'.off q hq, h.off q hq]
  · intro hs
    exact h'.shape (h.shape hs)

instance : Std.Refl (Keeps (C := C) W) := ⟨fun _ => ⟨fun _ _ h _ => h, id⟩⟩

instance : IsTrans (DirTree C) (Keeps W) := by
  constructor
  intro s t u h h'
  constructor
  · intro q n hn hq
    exact h'.off q n (h.off q n hn hq) hq
  · intro hs
    exact h'.shape (h.shape hs)

theorem Frame.mono (h : Frame W s t) (hw : ∀ q, W q → X q) : Frame X s t :=
  ⟨fun q hq => h.off q fun hW => hq (hw q hW), h.shape⟩

theorem Keeps.mono (h : Keeps W s t) (hw : ∀ q, W q → X q) : Keeps X s t :=
  ⟨fun q n hn hq => h.off q n hn fun hW => hq (hw q hW), h.shape⟩

theorem Frame.keeps (h : Frame W s t) : Keeps W s t :=
  ⟨fun q _ hn hq => (h.off q hq).trans hn, h.shape⟩

theorem Frame.of_get (h : t.get = s.get) : Frame W s t :=
  ⟨fun q _ => by rw [h], fun hs => hs.congr h⟩

theorem off_of_update {n : Option (Node C)} (h : t.get = Function.update s.get p n)
    (hp : W p) : ∀ q, ¬ W q → t.get q = s.get q := by
  intro q hq
  have hne : q ≠ p := by
    intro he
    rw [he] at hq
    exact hq hp
  rw [h, Function.update_of_ne hne]

theorem Frame.of_update {n : Option (Node C)} (h : t.get = Function.update s.get p n)
    (hp : W p) (hpar : s.realDir (parent p)) (hne : p ≠ []) (hfile : ¬ s.realDir p) :
    Frame W s t :=
  ⟨off_of_update h hp, fun hs => hs.update h hpar hne hfile⟩

theorem without_frame (hne : p ≠ []) : Frame (fun q => p <+: q) s (s.without p) := by
  constructor
  · intro q hq
    rw [get_without, if_neg hq]
  · intro hs
    rw [wellFormed_iff] at hs ⊢
    have hkept : ∀ q, ¬ p <+: q → s.realDir q → (s.without p).realDir q := by
      rintro q hq ⟨k, hk⟩
      exact ⟨k, by rw [get_without, if_neg hq, hk]⟩
    refine ⟨hkept [] (fun h => hne (List.prefix_nil.mp h)) hs.1, fun q hq hsome => ?_⟩
    rw [get_without] at hsome
    split at hsome
    · cases hsome
    · next hoff =>
      exact hkept _ (fun h => hoff (h.trans (List.dropLast_prefix q))) (hs.2 q hq hsome)

/-- A node put where nothing was. -/
theorem Keeps.of_new {n : Option (Node C)} (h : t.get = Function.update s.get p n)
    (hnone : s.get p = none) (hpar : s.realDir (parent p)) (hne : p ≠ []) : Keeps W s t := by
  constructor
  · intro q k hk _
    have hqp : q ≠ p := by
      rintro rfl
      rw [hnone] at hk
      cases hk
    rw [h, Function.update_of_ne hqp, hk]
  · intro hs
    apply hs.update h hpar hne
    rintro ⟨k, hk⟩
    rw [hnone] at hk
    cases hk

theorem rename_frame {src dst : Path} (hd : dst ≠ []) (hsrc : src ≠ [])
    (h : rename src dst s = .ok t) : Frame (fun q => src <+: q ∨ dst <+: q) s t := by
  obtain rfl | ⟨hpar, hne, hpre, hmove⟩ := rename_eq_ok h
  · exact .of_get rfl
  · rcases hmove with ⟨hdir, hdst, rfl⟩ | ⟨n, hn, hnd, hfile, rfl⟩
    · refine ⟨fun q hq => ?_, fun hs => hs.move hdir hpar hne hpre hd hdst⟩
      push Not at hq
      exact get_move_off s hq.1 hq.2
    · have hremove : (s.remove src).get = Function.update s.get src none := get_remove_eq _ _
      have hset : ((s.remove src).set dst n).get =
          Function.update (s.remove src).get dst (some n) := get_set_eq _ _ _
      refine ⟨fun q hq => ?_, fun hs => ?_⟩
      · push Not at hq
        have hqs : q ≠ src := by
          rintro rfl
          exact hq.1 List.prefix_rfl
        have hqd : q ≠ dst := by
          rintro rfl
          exact hq.2 List.prefix_rfl
        rw [hset, Function.update_of_ne hqd, hremove, Function.update_of_ne hqs]
      · have hnotdir : ¬ s.realDir src := by
          rintro ⟨k, hk⟩
          rw [hn] at hk
          exact hnd k (Option.some.inj hk)
        have hsp : s.realDir (parent src) := by
          apply (wellFormed_iff.mp hs).2 src hsrc
          rw [hn]
          rfl
        have hshape := hs.update hremove hsp hsrc hnotdir
        have hdp : (s.remove src).realDir (parent dst) := by
          have hpne : parent dst ≠ src := by
            intro he
            rw [he] at hpar
            exact hnotdir hpar
          obtain ⟨k, hk⟩ := hpar
          exact ⟨k, by rw [hremove, Function.update_of_ne hpne, hk]⟩
        apply hshape.update hset hdp hd
        rintro ⟨k, hk⟩
        rw [hremove, Function.update_of_ne (Ne.symm hne)] at hk
        exact hfile ⟨k, hk⟩

section Programs

variable [OfOsError ε]

omit [OfOsError ε] in
theorem ok_of_mapError {α : Type} {x : Except OsError α} {g : OsError → ε} {a : α}
    (h : x.mapError g = .ok a) : x = .ok a := by
  cases x with
  | error e => cases h
  | ok b =>
    have : b = a := Except.ok.inj h
    rw [this]

theorem syscall_within {rel : DirTree C → DirTree C → Prop}
    {f : DirTree C → Except OsError (DirTree C)} (h : ∀ s t, f s = .ok t → rel s t) :
    Within rel (syscall f : Program (DirTree C) ε Unit) := by
  exact Within.attempt _ fun s t ht => h s t (ok_of_mapError ht)

theorem mkdir_frame (hne : p ≠ []) (hp : W p) :
    Within (Frame W) (syscall (mkdir m p) : Program (DirTree C) ε Unit) := by
  refine syscall_within fun s t h => ?_
  obtain ⟨hpar, hnone, hget⟩ := mkdir_eq_ok h
  apply Frame.of_update hget hp hpar hne
  rintro ⟨k, hk⟩
  rw [hnone] at hk
  cases hk

theorem mkdir_keeps (hne : p ≠ []) :
    Within (Keeps W) (syscall (mkdir m p) : Program (DirTree C) ε Unit) := by
  refine syscall_within fun s t h => ?_
  obtain ⟨hpar, hnone, hget⟩ := mkdir_eq_ok h
  exact Keeps.of_new hget hnone hpar hne

theorem mkdirs_keeps (m : Mode) (p : Path) :
    Within (Keeps W) (mkdirs m p : Program (DirTree C) ε Unit) := by
  suffices h : ∀ r d, Within (Keeps W) (mkdirsBelow m d r : Program (DirTree C) ε Unit) from h p []
  intro r
  induction r with
  | nil => exact fun _ => Within.pure ()
  | cons n r ih =>
    intro d
    refine Within.bind (Within.whenever (mkdir_keeps (by simp))) fun _ => ?_
    exact ih (d ++ [n])

theorem mkdirs_frame (m : Mode) (p : Path) (hw : ∀ q, q <+: p → W q) :
    Within (Frame W) (mkdirs m p : Program (DirTree C) ε Unit) := by
  suffices h : ∀ r d, d ++ r = p →
      Within (Frame W) (mkdirsBelow m d r : Program (DirTree C) ε Unit) from h p [] rfl
  intro r
  induction r with
  | nil =>
    intro d _
    exact Within.pure ()
  | cons n r ih =>
    intro d hd
    have hpre : d ++ [n] <+: p := ⟨r, by simpa using hd⟩
    refine Within.bind (Within.whenever (mkdir_frame (by simp) (hw _ hpre))) fun _ => ?_
    exact ih (d ++ [n]) (by simpa using hd)

theorem create_frame {c : C} (hne : p ≠ []) (hp : W p) :
    Within (Frame W) (syscall (create c m p) : Program (DirTree C) ε Unit) := by
  refine syscall_within fun s t h => ?_
  obtain ⟨hpar, hnone, hget⟩ := create_eq_ok h
  apply Frame.of_update hget hp hpar hne
  rintro ⟨k, hk⟩
  rw [hnone] at hk
  cases hk

theorem write_frame {c : C} (hp : W p) :
    Within (Frame W) (syscall (write c p) : Program (DirTree C) ε Unit) := by
  refine syscall_within fun s t h => ?_
  unfold write at h
  split at h
  · next hn =>
    cases h
    refine ⟨off_of_update (get_set_eq _ _ _) hp, fun hs => hs.rewrite hn (get_set_eq _ _ _) ?_⟩
    intro k hk
    cases hk
  · cases h
  · cases h

theorem chmod_frame (hp : W p) :
    Within (Frame W) (syscall (chmod m p) : Program (DirTree C) ε Unit) := by
  refine syscall_within fun s t h => ?_
  unfold chmod at h
  split at h
  · next hn =>
    cases h
    refine ⟨off_of_update (get_set_eq _ _ _) hp, fun hs => hs.rewrite hn (get_set_eq _ _ _) ?_⟩
    intro k hk
    cases hk
  · next hn =>
    cases h
    refine ⟨off_of_update (get_set_eq _ _ _) hp, fun hs => hs.rewrite hn (get_set_eq _ _ _) ?_⟩
    exact fun _ _ => ⟨m, rfl⟩
  · cases h
  · cases h

theorem truncate_frame [EmptyCollection C] (hne : p ≠ []) (hp : W p) :
    Within (Frame W) (syscall (truncate m p) : Program (DirTree C) ε Unit) := by
  refine syscall_within fun s t h => ?_
  unfold truncate at h
  rcases hd : requireDir s (parent p) with e | u
  · rw [hd] at h
    cases h
  rw [hd] at h
  simp only [bind, Except.bind] at h
  split at h
  · next hn =>
    cases h
    refine Frame.of_update (get_set_eq _ _ _) hp (realDir_of_requireDir hd) hne ?_
    rintro ⟨k, hk⟩
    rw [hn] at hk
    cases hk
  · next hn =>
    split at h
    · cases h
      refine ⟨off_of_update (get_set_eq _ _ _) hp, fun hs => hs.rewrite hn (get_set_eq _ _ _) ?_⟩
      intro k hk
      cases hk
    · cases h
  · cases h
  · cases h

theorem unlink_frame (hp : W p) :
    Within (Frame W) (syscall (unlink p) : Program (DirTree C) ε Unit) := by
  refine syscall_within fun s t h => ?_
  obtain ⟨⟨n, hn, hnd⟩, hget⟩ := unlink_eq_ok h
  have hfile : ¬ s.realDir p := by
    rintro ⟨k, hk⟩
    rw [hn] at hk
    exact hnd k (Option.some.inj hk)
  refine ⟨off_of_update hget hp, fun hs => ?_⟩
  have hne : p ≠ [] := by
    rintro rfl
    exact hfile hs.1
  refine hs.update hget ?_ hne hfile
  apply (wellFormed_iff.mp hs).2 p hne
  rw [hn]
  rfl

theorem rmdir_frame (hne : p ≠ []) (hp : W p) :
    Within (Frame W) (syscall (rmdir p) : Program (DirTree C) ε Unit) := by
  refine syscall_within fun s t h => ?_
  obtain ⟨-, hc, hget⟩ := rmdir_eq_ok h
  exact ⟨off_of_update hget hp, fun hs => hs.remove_dir hget hne hc⟩

/-- A new file `tmp`, whatever it holds, and nothing else new. -/
structure Beside (s : DirTree C) (tmp : Path) (t : DirTree C) : Prop where
  fresh : s.get tmp = none
  dir : s.realDir (parent tmp)
  ne_nil : tmp ≠ []
  get : ∃ x k, t.get = Function.update s.get tmp (some (.file x k))

theorem Beside.keeps {tmp : Path} (h : Beside s tmp t) : Keeps W s t := by
  obtain ⟨x, k, hget⟩ := h.get
  exact Keeps.of_new hget h.fresh h.dir h.ne_nil

theorem Beside.file {tmp : Path} (h : Beside s tmp t) : ∃ x k, t.get tmp = some (.file x k) := by
  obtain ⟨x, k, hget⟩ := h.get
  exact ⟨x, k, by rw [hget, Function.update_self]⟩

/-- Another version of the temporary file. -/
theorem Beside.again {u : DirTree C} {tmp : Path} {x : C} {k : Mode} (h : Beside s tmp t)
    (hu : u.get = Function.update t.get tmp (some (.file x k))) : Beside s tmp u := by
  obtain ⟨y, j, hget⟩ := h.get
  refine ⟨h.fresh, h.dir, h.ne_nil, x, k, ?_⟩
  rw [hu, hget, Function.update_idem]

theorem Beside.removed {tmp : Path} (h : Beside s tmp t) : (t.remove tmp).get = s.get := by
  obtain ⟨x, k, hget⟩ := h.get
  rw [get_remove_eq, hget, Function.update_idem, ← h.fresh, Function.update_eq_self]

/-- The temporary file takes the place of `p`. -/
theorem Beside.renamed {u : DirTree C} {tmp : Path} (h : Beside s tmp t)
    (hu : rename tmp p t = .ok u) : u = t ∨ Frame (· = p) s u ∧ u.get tmp = none := by
  obtain ⟨x, k, hfile⟩ := h.file
  obtain rfl | ⟨hpar, hne, hpre, hmove⟩ := rename_eq_ok hu
  · exact Or.inl rfl
  · refine Or.inr ?_
    rcases hmove with ⟨⟨j, hj⟩, -⟩ | ⟨n, -, -, hdir, rfl⟩
    · rw [hfile] at hj
      cases hj
    · have hget : ((t.remove tmp).set p n).get = Function.update s.get p (some n) := by
        rw [get_set_eq, h.removed]
      have hpar' : s.realDir (parent p) := by
        obtain ⟨j, hj⟩ := hpar
        have hpt : parent p ≠ tmp := by
          intro he
          rw [he, hfile] at hj
          cases hj
        obtain ⟨y, i, hg⟩ := h.get
        rw [hg, Function.update_of_ne hpt] at hj
        exact ⟨j, hj⟩
      have hdir' : ¬ s.realDir p := by
        rintro ⟨j, hj⟩
        apply hdir
        obtain ⟨y, i, hg⟩ := h.get
        exact ⟨j, by rw [hg, Function.update_of_ne (Ne.symm hne), hj]⟩
      constructor
      · constructor
        · exact off_of_update hget rfl
        · intro hs
          refine hs.update hget hpar' ?_ hdir'
          rintro rfl
          exact hdir' hs.1
      · rw [hget, Function.update_of_ne hne, h.fresh]

/-- Where the writing of a temporary file and its rename can be. -/
private def Midway (s : DirTree C) (p tmp : Path) (t : DirTree C) : Prop :=
  Beside s tmp t ∨ Frame (· = p) s t ∧ t.get tmp = none

private theorem Midway.keeps {tmp : Path} (h : Midway s p tmp t) : Keeps (· = p) s t := by
  rcases h with h | ⟨h, -⟩
  · exact h.keeps
  · exact h.keeps

private theorem syscall_midway {tmp : Path} {f : DirTree C → Except OsError (DirTree C)}
    (hf : ∀ t u, Beside s tmp t → f t = .ok u → Beside s tmp u) :
    Triple (Beside s tmp) (syscall f : Program (DirTree C) ε Unit)
      (fun _ u => Beside s tmp u) (Keeps (· = p) s) := by
  apply Triple.attempt
  · intro t u ht hu
    have := hf t u ht (ok_of_mapError hu)
    exact ⟨this.keeps, this⟩
  · intro t e ht _
    exact ht

variable [EmptyCollection C] {names : TempNames} {pre : String} {c : C}
  {check : Program (DirTree C) ε Unit}

theorem createTemp_ends (d : Path) :
    Triple (· = s) (createTemp names pre d : Program (DirTree C) ε Path)
      (Ends (fun tmp t => Beside s tmp t) fun t => t = s) (Keeps W s) := by
  rintro s rfl
  by_cases hd : s.realDir d
  · have hne : tempPath names pre d s ≠ [] := by simp [tempPath]
    have hbeside : Beside s (tempPath names pre d s)
        (s.set (tempPath names pre d s) (.file ∅ 0o600)) :=
      ⟨tempPath_absent names pre d s, by simpa [tempPath] using hd, hne, _, _, get_set_eq _ _ _⟩
    have hrun := createTemp_run (ε := ε) names pre hd
    simp only [Program.out, Program.final, hrun, List.mem_singleton, forall_eq]
    exact ⟨hbeside.keeps, hbeside⟩
  · have hfail : ∃ e, create (∅ : C) 0o600 (tempPath names pre d s) s = .error e := by
      have hpar : parent (tempPath names pre d s) = d := by simp [tempPath]
      unfold create
      rw [hpar]
      cases hr : requireDir s d with
      | error e => exact ⟨e, rfl⟩
      | ok u => exact absurd (realDir_of_requireDir hr) hd
    obtain ⟨e, he⟩ := hfail
    have hrun : (createTemp names pre d : Program (DirTree C) ε Path).run s =
        ⟨[], .error (OfOsError.ofOsError e)⟩ := by
      rw [createTemp, Program.bind_of_pure (Program.read_run _ _)]
      exact Program.bind_of_error (syscall_error he)
    simp only [Program.out, Program.final, hrun]
    exact ⟨by simp, rfl⟩

/-- An exchange changes its path or nothing, and on the way there is at most a new file. -/
theorem replaceFile_ends (hcheck : ∀ t : DirTree C, (check.run t).trace = []) :
    Triple (· = s) (replaceFile names pre p c m check) (fun _ t => Frame (· = p) s t)
      (Keeps (· = p) s) := by
  refine (createTemp_ends (parent p)).bind (fun tmp => ?_) ?_
  · refine Triple.protect (R := fun _ t => Midway s p tmp t) ?_ ?_
    · have hwrite : Triple (Beside s tmp) (syscall (write c tmp) : Program (DirTree C) ε Unit)
          (fun _ u => Beside s tmp u) (Keeps (· = p) s) := by
        apply syscall_midway
        intro t u ht hu
        obtain ⟨x, k, hfile⟩ := ht.file
        rw [write_ok hfile] at hu
        cases hu
        exact ht.again (get_set_eq _ _ _)
      have hchmod : Triple (Beside s tmp) (syscall (chmod m tmp) : Program (DirTree C) ε Unit)
          (fun _ u => Beside s tmp u) (Keeps (· = p) s) := by
        apply syscall_midway
        intro t u ht hu
        obtain ⟨x, k, hfile⟩ := ht.file
        rw [chmod_ok hfile] at hu
        cases hu
        exact ht.again (get_set_eq _ _ _)
      have hlook : Triple (Beside s tmp) check (fun _ u => Beside s tmp u) (Keeps (· = p) s) := by
        intro t ht
        rw [Program.final, hcheck t]
        exact ⟨by simp, ht⟩
      have hrename : Triple (Beside s tmp) (syscall (rename tmp p) : Program (DirTree C) ε Unit)
          (fun _ u => Midway s p tmp u) (Keeps (· = p) s) := by
        apply Triple.attempt
        · intro t u ht hu
          have hmid : Midway s p tmp u := by
            obtain rfl | hdone := ht.renamed (ok_of_mapError hu)
            · exact Or.inl ht
            · exact Or.inr hdone
          exact ⟨hmid.keeps, hmid⟩
        · intro t e ht _
          exact Or.inl ht
      refine Triple.pre ?_ fun t ht => ht
      refine hwrite.bind (fun _ => ?_) fun _ _ h => Or.inl h
      refine hchmod.bind (fun _ => ?_) fun _ _ h => Or.inl h
      exact hlook.bind (fun _ => hrename) fun _ _ h => Or.inl h
    · intro o
      refine Triple.of_forall fun t ht => ?_
      apply Triple.whenever
      · intro htest
        rcases ht with ht | ⟨-, hgone⟩
        · obtain ⟨x, k, hfile⟩ := ht.file
          have hframe : Frame (· = p) s (t.remove tmp) := .of_get ht.removed
          refine (syscall_spec (unlink_ok hfile) hframe.keeps).post ?_
          rintro o u ⟨a, ho, rfl⟩
          exact ⟨a, ho, hframe⟩
        · simp [DirTree.exists, isSymlink, hgone] at htest
      · intro htest
        rcases ht with ht | ⟨hframe, -⟩
        · obtain ⟨x, k, hfile⟩ := ht.file
          simp [DirTree.exists, hfile] at htest
        · exact ⟨(), rfl, hframe⟩
  · rintro e t rfl
    exact Frame.of_get rfl

theorem replaceFile_leaves (hcheck : ∀ t : DirTree C, (check.run t).trace = []) (hp : W p) :
    Leaves (Frame W) (replaceFile names pre p c m check) := by
  intro s
  refine (replaceFile_ends hcheck s rfl).2.mono ?_
  rintro q rfl
  exact hp

end Programs

end AgentStack.FileTree.DirTree
