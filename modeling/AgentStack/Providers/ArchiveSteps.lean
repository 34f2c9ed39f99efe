import AgentStack.FileTree.Frames
import AgentStack.Providers.Archive

/-! What writing one member does below the root of an extraction. -/
namespace AgentStack.Providers

open AgentStack.Core Crash FileTree FileTree.DirTree

/-- Outside the root the tree is as it was, and nothing below the root is a link. -/
structure Loose (root : Path) (s₀ s : DirTree Bytes) : Prop where
  shape : s.WellFormed
  outside : ∀ q, ¬ root <+: q → s.get q = s₀.get q
  stands : s.realDir root
  plain : ∀ q, root <+: q → s.isSymlink q = false

variable {root p q : Path} {s₀ s t : DirTree Bytes}

theorem Loose.node (h : Loose root s₀ s) (hq : root <+: q) :
    s.get q = none ∨ s.realDir q ∨ ∃ x m, s.get q = some (.file x m) := by
  have hplain := h.plain q hq
  rcases hnode : s.get q with _ | ⟨x, m⟩ | m | k
  · exact Or.inl rfl
  · exact Or.inr (Or.inr ⟨x, m, rfl⟩)
  · exact Or.inr (Or.inl ⟨m, hnode⟩)
  · rw [isSymlink, hnode] at hplain
    cases hplain

theorem Loose.put (h : Loose root s₀ s) {n : Node Bytes}
    (hget : t.get = Function.update s.get p (some n)) (hp : root <+: p) (hne : p ≠ root)
    (hparent : s.realDir (parent p)) (hfree : ¬ s.realDir p) (hn : ∀ k, n ≠ .symlink k) :
    Loose root s₀ t := by
  have hpne : p ≠ [] := by
    rintro rfl
    exact hne (List.prefix_nil.mp hp).symm
  refine ⟨h.shape.update hget hparent hpne hfree, ?_, ?_, ?_⟩
  · intro q hq
    have hqp : q ≠ p := fun heq => hq (heq ▸ hp)
    rw [hget, Function.update_of_ne hqp, h.outside q hq]
  · obtain ⟨m, hm⟩ := h.stands
    exact ⟨m, by rw [hget, Function.update_of_ne (Ne.symm hne), hm]⟩
  · intro q hq
    by_cases hqp : q = p
    · subst hqp
      unfold isSymlink
      rw [hget, Function.update_self]
      cases n with
      | symlink k => exact absurd rfl (hn k)
      | file _ _ => rfl
      | dir _ => rfl
    · have hplain := h.plain q hq
      unfold isSymlink at hplain ⊢
      rw [hget, Function.update_of_ne hqp]
      exact hplain

/-- The mode of a directory is set. -/
theorem Loose.remode (h : Loose root s₀ s) (hp : root <+: p) (hdir : s.realDir p) (m : Mode) :
    Loose root s₀ (s.set p (.dir m)) := by
  have hget := get_set_eq s p (.dir m)
  have hdirs : ∀ q, s.realDir q → (s.set p (.dir m)).realDir q := by
    rintro q ⟨k, hk⟩
    by_cases hqp : q = p
    · exact ⟨m, by rw [hget, hqp, Function.update_self]⟩
    · exact ⟨k, by rw [hget, Function.update_of_ne hqp, hk]⟩
  refine ⟨?_, ?_, hdirs root h.stands, ?_⟩
  · rw [wellFormed_iff]
    obtain ⟨hroot, hparents⟩ := wellFormed_iff.mp h.shape
    refine ⟨hdirs _ hroot, fun q hq hsome => hdirs _ ?_⟩
    by_cases hqp : q = p
    · obtain ⟨k, hk⟩ := hdir
      exact hparents q hq (by rw [hqp, hk]; rfl)
    · rw [hget, Function.update_of_ne hqp] at hsome
      exact hparents q hq hsome
  · intro q hq
    have hqp : q ≠ p := fun heq => hq (heq ▸ hp)
    rw [hget, Function.update_of_ne hqp, h.outside q hq]
  · intro q hq
    by_cases hqp : q = p
    · unfold isSymlink
      rw [hget, hqp, Function.update_self]
    · have hplain := h.plain q hq
      unfold isSymlink at hplain ⊢
      rw [hget, Function.update_of_ne hqp]
      exact hplain

/-! ### The directories above a member -/

theorem ensureOne_absent (hparent : s.realDir (parent p)) (habsent : s.get p = none) :
    (ensureOne p).run s = ⟨[s.set p (.dir 0o755)], .ok ()⟩ := by
  have hmissing : s.exists p = false := by simp [DirTree.exists, habsent]
  unfold ensureOne
  rw [Program.bind_of_pure (Program.read_run _ _), hmissing, if_neg Bool.false_ne_true]
  exact syscall_ok (mkdir_ok hparent habsent)

theorem ensureOne_dir (hdir : s.realDir p) : (ensureOne p).run s = ⟨[], .ok ()⟩ := by
  obtain ⟨m, hm⟩ := hdir
  have hpresent : s.exists p = true := by simp [DirTree.exists, hm]
  unfold ensureOne
  rw [Program.bind_of_pure (Program.read_run _ _), hpresent, if_pos rfl, Program.inspect_run]
  simp [isSymlink, isDir, hm, check]

theorem ensureOne_file {x : Bytes} {m : Mode} (hfile : s.get p = some (.file x m)) :
    (ensureOne p).run s = ⟨[], .error
      (archiveUnsafe "extraction directory path is not a real directory" [])⟩ := by
  have hpresent : s.exists p = true := by simp [DirTree.exists, hfile]
  unfold ensureOne
  rw [Program.bind_of_pure (Program.read_run _ _), hpresent, if_pos rfl, Program.inspect_run]
  simp [isDir, hfile, check]

/-- Every directory on the way stands or is made, unless a file is in the way. -/
theorem ensureDirectory_ends (h : Loose root s₀ s) (hp : root <+: p) (hdir : s.realDir p)
    (segments : Path) :
    Triple (· = s) (ensureDirectory p segments)
      (Ends (fun _ t => Loose root s₀ t ∧ Extends 0o755 s (p ++ segments) t ∧
          t.realDir (p ++ segments))
        fun t => Loose root s₀ t ∧ ∃ u, u ≠ [] ∧ u <+: segments ∧
          ∃ x m, s.get (p ++ u) = some (.file x m)) fun _ => True := by
  induction segments generalizing p s with
  | nil =>
    refine Triple.returns_ends ⟨h, Extends.refl _ _ _, ?_⟩
    rwa [List.append_nil]
  | cons n segments ih =>
    have hstep : root <+: p ++ [n] := hp.trans (List.prefix_append p [n])
    have hne : p ++ [n] ≠ root := by
      intro heq
      have hle := hp.length_le
      rw [← heq, List.length_append, List.length_singleton] at hle
      omega
    have hassoc : p ++ n :: segments = p ++ [n] ++ segments := by simp
    have hparent : s.realDir (parent (p ++ [n])) := by rwa [parent_append]
    unfold ensureDirectory
    rcases h.node hstep with habsent | hreal | ⟨x, m, hfile⟩
    · have hfree : ¬ s.realDir (p ++ [n]) := by
        rintro ⟨m, hm⟩
        rw [habsent] at hm
        cases hm
      have hmade : Loose root s₀ (s.set (p ++ [n]) (.dir 0o755)) :=
        h.put (get_set_eq s _ _) hstep hne hparent hfree (by simp)
      have hmadeDir : (s.set (p ++ [n]) (.dir 0o755)).realDir (p ++ [n]) := ⟨0o755, by simp⟩
      have hext : Extends 0o755 s (p ++ n :: segments) (s.set (p ++ [n]) (.dir 0o755)) :=
        Extends.set_dir ⟨segments, hassoc.symm⟩ habsent
      have hone : Triple (· = s) (ensureOne (p ++ [n]))
          (Returns fun _ t => t = s.set (p ++ [n]) (.dir 0o755)) fun _ => True := by
        rintro s rfl
        have hrun := ensureOne_absent hparent habsent
        exact ⟨fun _ _ => trivial, (), congrArg Run.out hrun, Program.final_of_run hrun⟩
      refine hone.bind_returns fun _ => (ih hmade hstep hmadeDir).ends_weaken ?_ ?_
      · rintro _ t ⟨ht, hextends, hreal⟩
        rw [← hassoc] at hextends hreal
        exact ⟨ht, hext.trans hextends, hreal⟩
      · rintro t ⟨ht, u, hu, hpre, x, m, hfile⟩
        have hother : p ++ [n] ++ u ≠ p ++ [n] := by simpa using hu
        rw [get_set, if_neg hother] at hfile
        refine ⟨ht, n :: u, by simp, ?_, x, m, by simpa using hfile⟩
        exact List.cons_prefix_cons.mpr ⟨rfl, hpre⟩
    · refine Triple.bind_run (ensureOne_dir hreal) ?_
      rw [hassoc]
      refine (ih h hstep hreal).ends_weaken (fun _ _ ht => ht) ?_
      rintro t ⟨ht, u, hu, hpre, x, m, hfile⟩
      refine ⟨ht, n :: u, by simp, ?_, x, m, by simpa using hfile⟩
      exact List.cons_prefix_cons.mpr ⟨rfl, hpre⟩
    · refine Triple.bind_raised (ensureOne_file hfile) ⟨h, [n], by simp, ?_, x, m, hfile⟩
      exact ⟨segments, rfl⟩

/-! ### One member -/

/-- The members that are extracted, each with the bytes that are in its file. -/
structure Laid (root : Path) (s₀ : DirTree Bytes) (done : List (ArchiveMember × Bytes))
    (s : DirTree Bytes) : Prop where
  loose : Loose root s₀ s
  files : ∀ r x m, s.get (root ++ r) = some (.file x m) ↔ ∃ e ∈ done,
    e.1.isDirectory = false ∧ e.1.normalizedPath = r ∧ e.2 = x ∧ e.1.mode = m
  dirs : ∀ r, s.realDir (root ++ r) → r = [] ∨ ∃ e ∈ done, r <+: e.1.normalizedPath
  made : ∀ e ∈ done, e.1.isDirectory = true →
    s.get (root ++ e.1.normalizedPath) = some (.dir e.1.mode)
  between : ∀ r m, r ≠ [] → s.get (root ++ r) = some (.dir m) → m = 0o755 ∨
    ∃ e ∈ done, e.1.isDirectory = true ∧ e.1.normalizedPath = r ∧ e.1.mode = m

/-- Neither member is a file where the other needs a directory. -/
def Apart (a b : ArchiveMember) : Prop :=
  (a.isDirectory = false → ¬ a.normalizedPath <+: b.normalizedPath) ∧
    (b.isDirectory = false → ¬ b.normalizedPath <+: a.normalizedPath)

instance (a b : ArchiveMember) : Decidable (Apart a b) := inferInstanceAs (Decidable (_ ∧ _))

/-- What a list of chunks leaves in a file. -/
def stored (host : ArchiveHost) (path : Path) (chunks : List Bytes) : Bytes :=
  chunks.flatMap fun chunk => chunk.take (host.written path chunk)

variable {host : ArchiveHost} {done : List (ArchiveMember × Bytes)} {member : ArchiveMember}

theorem Laid.nodir (h : Laid root s₀ done s) {e : ArchiveMember × Bytes} (he : e ∈ done) :
    (s.get (root ++ e.1.normalizedPath)).isSome = true := by
  cases hdir : e.1.isDirectory with
  | true =>
    rw [h.made e he hdir]
    rfl
  | false =>
    rw [(h.files _ _ _).mpr ⟨e, he, hdir, rfl, rfl, rfl⟩]
    rfl

/-- A file in the way of a member belongs to a member it is not apart from. -/
theorem Laid.blocked (h : Laid root s₀ done s) {u : Path} {x : Bytes} {m : Mode}
    (hu : u <+: member.normalizedPath) (hfile : s.get (root ++ u) = some (.file x m)) :
    ¬ ∀ e ∈ done, Apart e.1 member := by
  intro hall
  obtain ⟨e, he, hdir, rfl, -, -⟩ := (h.files _ _ _).mp hfile
  exact (hall e he).1 hdir hu

theorem Extends.file_iff {m₀ : Mode} (h : Extends m₀ s p t) {x : Bytes} {m : Mode} :
    t.get q = some (.file x m) ↔ s.get q = some (.file x m) := by
  rcases h q with hsame | ⟨-, hnone, hdir⟩
  · rw [hsame]
  · rw [hnone, hdir]
    simp

/-- A directory of the extended tree was there, or is one of those made. -/
theorem Extends.dir_mode {m₀ m : Mode} (h : Extends m₀ s p t) (hm : t.get q = some (.dir m)) :
    s.get q = some (.dir m) ∨ m = m₀ := by
  rcases h q with hsame | ⟨-, -, hnew⟩
  · exact Or.inl (hsame ▸ hm)
  · rw [hnew] at hm
    cases hm
    exact Or.inr rfl

theorem append_ne_root (root : Path) {r : Path} (hr : r ≠ []) : root ++ r ≠ root := by
  simpa using hr

theorem mem_concat {β : Type} {l : List β} {a : β} {P : β → Prop} :
    (∃ e ∈ l ++ [a], P e) ↔ (∃ e ∈ l, P e) ∨ P a := by
  simp [or_and_right, exists_or]

/-- A directory member is laid once its directory stands and has its mode. -/
theorem Laid.directory (h : Laid root s₀ done s) (hdir : member.isDirectory = true)
    (hnew : ∀ e ∈ done, e.1.normalizedPath ≠ member.normalizedPath) (ht : Loose root s₀ t)
    (hext : Extends 0o755 s (root ++ member.normalizedPath) t)
    (hreal : t.realDir (root ++ member.normalizedPath)) :
    Laid root s₀ (done ++ [(member, [])])
      (t.set (root ++ member.normalizedPath) (.dir member.mode)) := by
  refine ⟨ht.remode (List.prefix_append _ _) hreal _, ?_, ?_, ?_, ?_⟩
  · intro r x m
    have hnew : (t.set (root ++ member.normalizedPath) (.dir member.mode)).get (root ++ r) =
        some (.file x m) ↔ s.get (root ++ r) = some (.file x m) := by
      rw [← Extends.file_iff hext, get_set]
      split_ifs with hq
      · obtain ⟨k, hk⟩ := hreal
        rw [hq, hk]
        simp
      · rfl
    rw [hnew, h.files, mem_concat, hdir]
    simp
  · intro r hr
    rw [mem_concat]
    by_cases hq : r = member.normalizedPath
    · exact Or.inr (Or.inr (hq ▸ List.prefix_rfl))
    · obtain ⟨k, hk⟩ := hr
      rw [get_set, if_neg (by simpa using hq)] at hk
      rcases hext (root ++ r) with hsame | ⟨hpre, -⟩
      · rcases h.dirs r ⟨k, hsame ▸ hk⟩ with hr | hr
        · exact Or.inl hr
        · exact Or.inr (Or.inl hr)
      · exact Or.inr (Or.inr ((List.prefix_append_right_inj root).mp hpre))
  · intro e he hedir
    rcases List.mem_append.mp he with he | he
    · rw [get_set, if_neg (by simpa using hnew e he)]
      exact hext.get_some (h.made e he hedir)
    · rw [List.mem_singleton.mp he, get_set, if_pos rfl]
  · intro r m hr hm
    rw [mem_concat]
    by_cases hq : r = member.normalizedPath
    · subst hq
      rw [get_set, if_pos rfl] at hm
      cases hm
      exact Or.inr (Or.inr ⟨hdir, rfl, rfl⟩)
    · rw [get_set, if_neg (by simpa using hq)] at hm
      rcases Extends.dir_mode hext hm with hold | rfl
      · exact (h.between r m hr hold).imp_right Or.inl
      · exact Or.inl rfl

/-- Where the directories above a member could be made, no file is in its way. -/
theorem Laid.clear (h : Laid root s₀ done s) {d : Path} (ht : Loose root s₀ t)
    (hext : Extends 0o755 s (root ++ d) t) (hreal : t.realDir (root ++ d))
    {e : ArchiveMember × Bytes} (he : e ∈ done) (hregular : e.1.isDirectory = false) :
    ¬ e.1.normalizedPath <+: d := by
  intro hpre
  have hstands := (h.files _ _ _).mpr ⟨e, he, hregular, rfl, rfl, rfl⟩
  have hpath := (List.prefix_append_right_inj root).mpr hpre
  obtain ⟨m, hm⟩ := ht.shape.reaches hreal _ hpath
  rw [(Extends.file_iff hext).mpr hstands] at hm
  cases hm

theorem writeMember_directory (h : Laid root s₀ done s) (hdir : member.isDirectory = true)
    (hnew : ∀ e ∈ done, e.1.normalizedPath ≠ member.normalizedPath) (chunks : List Bytes) :
    Triple (· = s) (writeMember host root member chunks)
      (Ends (fun _ t => (∀ e ∈ done, Apart e.1 member) ∧
          Laid root s₀ (done ++ [(member, [])]) t)
        fun t => (¬ ∀ e ∈ done, Apart e.1 member) ∧ Loose root s₀ t) fun _ => True := by
  have hensure := ensureDirectory_ends h.loose List.prefix_rfl h.loose.stands
    member.normalizedPath
  unfold writeMember
  rw [if_pos hdir]
  refine Triple.bind_ends (R := fun _ t => Loose root s₀ t ∧
    Extends 0o755 s (root ++ member.normalizedPath) t ∧
      t.realDir (root ++ member.normalizedPath)) ?_ fun _ => Triple.of_forall ?_
  · refine hensure.ends_weaken (fun _ _ ht => ht) ?_
    rintro t ⟨ht, u, -, hu, x, m, hfile⟩
    exact ⟨h.blocked hu hfile, ht⟩
  · rintro t ⟨ht, hext, hreal⟩
    have hchmod : chmod member.mode (root ++ member.normalizedPath) t =
        .ok (t.set (root ++ member.normalizedPath) (.dir member.mode)) := by
      obtain ⟨k, hk⟩ := hreal
      unfold chmod
      rw [hk]
    have hapart : ∀ e ∈ done, Apart e.1 member := by
      intro e he
      constructor
      · exact h.clear ht hext hreal he
      · intro hregular
        rw [hdir] at hregular
        cases hregular
    have hlaid := h.directory hdir hnew ht hext hreal
    rintro t rfl
    have hrun := syscall_ok (ε := Failure) hchmod
    rw [Program.out, Program.final, hrun]
    exact ⟨fun _ _ => trivial, hapart, hlaid⟩

/-! ### A regular member -/

/-- Each chunk is appended, as far as it is written. -/
theorem writeChunks_returns {x : Bytes} {m : Mode} (chunks : List Bytes)
    (hfile : s.get p = some (.file x m)) :
    Triple (· = s) (Program.each chunks fun chunk => syscall (writeChunk host p chunk))
      (Returns fun _ t => t.get = Function.update s.get p
        (some (.file (x ++ stored host p chunks) m)) : Except Failure Unit → _ → _)
      fun _ => True := by
  induction chunks generalizing s x with
  | nil =>
    refine Triple.returns ?_
    rw [stored, List.flatMap_nil, List.append_nil, ← hfile, Function.update_eq_self]
  | cons chunk chunks ih =>
    have hwrite : writeChunk host p chunk s =
        .ok (s.set p (.file (x ++ chunk.take (host.written p chunk)) m)) := by
      unfold writeChunk
      rw [hfile]
    have hone : Triple (· = s) (syscall (writeChunk host p chunk))
        (Returns fun _ t => t = s.set p (.file (x ++ chunk.take (host.written p chunk)) m) :
          Except Failure Unit → _ → _) fun _ => True := by
      rintro s rfl
      have hrun := syscall_ok (ε := Failure) hwrite
      exact ⟨fun _ _ => trivial, (), congrArg Run.out hrun, Program.final_of_run hrun⟩
    have hnext : (s.set p (.file (x ++ chunk.take (host.written p chunk)) m)).get p =
        some (.file (x ++ chunk.take (host.written p chunk)) m) := by simp
    rw [Program.each_cons]
    refine hone.bind_returns fun _ => (ih hnext).post ?_
    rintro o t ⟨u, hu, ht⟩
    refine ⟨u, hu, ?_⟩
    change t.get = _
    rw [ht, get_set_eq, Function.update_idem, stored, stored, List.flatMap_cons,
      List.append_assoc]

theorem prefix_parent {u r : Path} (h : u <+: r) (hne : u ≠ r) : u <+: parent r := by
  obtain ⟨v, rfl⟩ := h
  have hv : v ≠ [] := by
    rintro rfl
    exact hne (List.append_nil u).symm
  rw [parent, List.dropLast_append_of_ne_nil hv]
  exact List.prefix_append _ _

theorem Laid.regular (h : Laid root s₀ done s) (hregular : member.isDirectory = false)
    (hne : member.normalizedPath ≠ []) {t u : DirTree Bytes} {data : Bytes}
    (ht : Loose root s₀ t) (hext : Extends 0o755 s (root ++ parent member.normalizedPath) t)
    (hreal : t.realDir (root ++ parent member.normalizedPath))
    (habsent : t.get (root ++ member.normalizedPath) = none)
    (hget : u.get = Function.update t.get (root ++ member.normalizedPath)
      (some (.file data member.mode))) :
    Laid root s₀ (done ++ [(member, data)]) u := by
  have hpath : parent (root ++ member.normalizedPath) = root ++ parent member.normalizedPath :=
    List.dropLast_append_of_ne_nil hne
  have hfree : ¬ t.realDir (root ++ member.normalizedPath) := by
    rintro ⟨m, hm⟩
    rw [habsent] at hm
    cases hm
  have hsame : ∀ q, q ≠ root ++ member.normalizedPath → u.get q = t.get q := by
    intro q hq
    rw [hget, Function.update_of_ne hq]
  refine ⟨?_, ?_, ?_, ?_, ?_⟩
  · refine ht.put hget (List.prefix_append _ _) (append_ne_root root hne) ?_ hfree (by simp)
    rw [hpath]
    exact hreal
  · intro r x m
    rw [mem_concat, ← h.files, ← Extends.file_iff hext]
    by_cases hr : r = member.normalizedPath
    · subst hr
      rw [hget, Function.update_self, habsent]
      simp [hregular, eq_comm]
    · rw [hsame _ (by simpa using hr)]
      simp [Ne.symm hr]
  · intro r hr
    rw [mem_concat]
    obtain ⟨k, hk⟩ := hr
    by_cases hq : r = member.normalizedPath
    · exact Or.inr (Or.inr (hq ▸ List.prefix_rfl))
    · rw [hsame _ (by simpa using hq)] at hk
      rcases hext (root ++ r) with hold | ⟨hpre, -⟩
      · rcases h.dirs r ⟨k, hold ▸ hk⟩ with hr | hr
        · exact Or.inl hr
        · exact Or.inr (Or.inl hr)
      · have habove := (List.prefix_append_right_inj root).mp hpre
        exact Or.inr (Or.inr (habove.trans (List.dropLast_prefix _)))
  · intro e he hedir
    rcases List.mem_append.mp he with he | he
    · have hk := hext.get_some (h.made e he hedir)
      rw [hsame, hk]
      intro hq
      rw [hq, habsent] at hk
      cases hk
    · rw [List.mem_singleton.mp he, hregular] at hedir
      cases hedir
  · intro r m hr hm
    rw [mem_concat]
    by_cases hq : r = member.normalizedPath
    · rw [hq, hget, Function.update_self] at hm
      cases hm
    · rw [hsame _ (by simpa using hq)] at hm
      rcases Extends.dir_mode hext hm with hold | rfl
      · exact (h.between r m hr hold).imp_right Or.inl
      · exact Or.inl rfl

theorem writeMember_regular (h : Laid root s₀ done s) (hregular : member.isDirectory = false)
    (hne : member.normalizedPath ≠ [])
    (hnew : ∀ e ∈ done, e.1.normalizedPath ≠ member.normalizedPath) (chunks : List Bytes) :
    Triple (· = s) (writeMember host root member chunks)
      (Ends (fun _ t => (∀ e ∈ done, Apart e.1 member) ∧ Laid root s₀
          (done ++ [(member, stored host (root ++ member.normalizedPath) chunks)]) t)
        fun t => (¬ ∀ e ∈ done, Apart e.1 member) ∧ Loose root s₀ t) fun _ => True := by
  have hensure := ensureDirectory_ends h.loose List.prefix_rfl h.loose.stands
    (parent member.normalizedPath)
  have hpath : parent (root ++ member.normalizedPath) = root ++ parent member.normalizedPath :=
    List.dropLast_append_of_ne_nil hne
  have hbelow : root <+: root ++ member.normalizedPath := List.prefix_append _ _
  unfold writeMember
  rw [if_neg (by rw [hregular]; exact Bool.false_ne_true)]
  refine Triple.bind_ends (R := fun _ t => Loose root s₀ t ∧
    Extends 0o755 s (root ++ parent member.normalizedPath) t ∧
      t.realDir (root ++ parent member.normalizedPath)) ?_ fun _ => Triple.of_forall ?_
  · refine hensure.ends_weaken (fun _ _ ht => ht) ?_
    rintro t ⟨ht, u, -, hu, x, m, hfile⟩
    exact ⟨h.blocked (hu.trans (List.dropLast_prefix _)) hfile, ht⟩
  · rintro t ⟨ht, hext, hreal⟩
    cases habsent : t.get (root ++ member.normalizedPath) with
    | none =>
      have hapart : ∀ e ∈ done, Apart e.1 member := by
        intro e he
        constructor
        · intro heregular hpre
          exact h.clear ht hext hreal he heregular (prefix_parent hpre (hnew e he))
        · rintro - ⟨v, hv⟩
          obtain ⟨n, hn⟩ := Option.isSome_iff_exists.mp (h.nodir he)
          have hstands := hext.get_some hn
          rw [← hv, ← List.append_assoc, ht.shape.sub_none habsent] at hstands
          cases hstands
      have hcreate := create_ok (c := ([] : Bytes)) (m := member.mode) (s := t)
        (by rw [hpath]; exact hreal) habsent
      have hone : Triple (· = t) (syscall (create [] member.mode (root ++ member.normalizedPath)))
          (Returns fun _ u => u = t.set (root ++ member.normalizedPath) (.file [] member.mode) :
            Except Failure Unit → _ → _) fun _ => True := by
        rintro s rfl
        have hrun := syscall_ok (ε := Failure) hcreate
        exact ⟨fun _ _ => trivial, (), congrArg Run.out hrun, Program.final_of_run hrun⟩
      have hfile : (t.set (root ++ member.normalizedPath) (.file [] member.mode)).get
          (root ++ member.normalizedPath) = some (.file [] member.mode) := by simp
      have hbody : Triple (· = t) (do
            syscall (create [] member.mode (root ++ member.normalizedPath))
            Program.each chunks fun chunk =>
              syscall (writeChunk host (root ++ member.normalizedPath) chunk)
            syscall (chmod member.mode (root ++ member.normalizedPath)))
          (Returns fun _ u => u.get = Function.update t.get (root ++ member.normalizedPath)
            (some (.file (stored host (root ++ member.normalizedPath) chunks) member.mode)) :
              Except Failure Unit → _ → _) fun _ => True := by
        refine hone.bind_returns fun _ => ?_
        refine (writeChunks_returns chunks hfile).bind_returns fun _ => Triple.of_forall ?_
        rintro u hu
        have hwritten : u.get (root ++ member.normalizedPath) = some (.file
            ([] ++ stored host (root ++ member.normalizedPath) chunks) member.mode) := by
          rw [hu, Function.update_self]
        rintro u rfl
        have hrun := syscall_ok (ε := Failure) (chmod_ok (m := member.mode) hwritten)
        refine ⟨fun _ _ => trivial, (), congrArg Run.out hrun, ?_⟩
        rw [Program.final_of_run hrun]
        change (DirTree.set _ _ _).get = _
        rw [get_set_eq, hu, get_set_eq, Function.update_idem, Function.update_idem]
        rfl
      refine hbody.ends.ends_weaken (fun _ u hu => ?_) fun _ hu => hu
      exact ⟨hapart, h.regular hregular hne ht hext hreal habsent hu⟩
    | some n =>
      have hcreate : create ([] : Bytes) member.mode (root ++ member.normalizedPath) t =
          .error ⟨.fileExists, root ++ member.normalizedPath⟩ := by
        unfold create
        rw [requireDir_ok (by rw [hpath]; exact hreal), habsent]
        rfl
      refine Triple.bind_raised (syscall_error hcreate) ⟨fun hall => ?_, ht⟩
      have hold : s.get (root ++ member.normalizedPath) = some n := by
        rw [← hext.get_of_not_prefix, habsent]
        intro hpre
        have hle := ((List.prefix_append_right_inj root).mp hpre).length_le
        have hlen := List.length_pos_iff.mpr hne
        rw [parent, List.length_dropLast] at hle
        omega
      rcases h.loose.node hbelow with hnone | hdir | ⟨x, m, hfile⟩
      · rw [hnone] at hold
        cases hold
      · rcases h.dirs _ hdir with hnil | ⟨e, he, hpre⟩
        · exact hne hnil
        · exact (hall e he).2 hregular hpre
      · obtain ⟨e, he, -, hsame, -⟩ := (h.files _ _ _).mp hfile
        exact hnew e he hsame

end AgentStack.Providers
