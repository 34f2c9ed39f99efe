import AgentStack.Crash.Triple
import AgentStack.FileTree.Basic

/-! System calls on a directory tree. Each refuses and leaves the tree alone, or is one
effect. -/
namespace AgentStack.FileTree

open AgentStack.Crash

inductive OsErrorKind
  | notFound
  | fileExists
  | notDirectory
  | isDirectory
  | notEmpty
  | invalid
  | permission
  deriving DecidableEq, Repr

structure OsError where
  kind : OsErrorKind
  path : Path
  deriving DecidableEq, Repr

/-- An error type that can carry what a system call reports. -/
class OfOsError (ε : Type) where
  ofOsError : OsError → ε

/-- How unused names are chosen: `pick pre used` begins with `pre`, continues with at least
eight characters and no dot, and is not in `used`. -/
structure TempNames where
  pick : String → List String → String
  fresh : ∀ pre used, pick pre used ∉ used
  shape : ∀ pre used, ∃ x, 8 ≤ x.length ∧ '.' ∉ x.toList ∧ pick pre used = pre ++ x

namespace DirTree

variable {C ε : Type}

def requireDir (s : DirTree C) (d : Path) : Except OsError Unit :=
  match s.get d with
  | some (.dir _) => .ok ()
  | none => .error ⟨.notFound, d⟩
  | some _ => .error ⟨.notDirectory, d⟩

def mkdir (mode : Mode) (p : Path) (s : DirTree C) : Except OsError (DirTree C) := do
  requireDir s (parent p)
  if (s.get p).isSome then .error ⟨.fileExists, p⟩ else .ok (s.set p (.dir mode))

/-- Exclusive creation of a regular file. -/
def create (c : C) (mode : Mode) (p : Path) (s : DirTree C) : Except OsError (DirTree C) := do
  requireDir s (parent p)
  if (s.get p).isSome then .error ⟨.fileExists, p⟩ else .ok (s.set p (.file c mode))

/-- Opening for writing: the file is created, or emptied when its owner may write it. -/
def truncate [EmptyCollection C] (mode : Mode) (p : Path) (s : DirTree C) :
    Except OsError (DirTree C) := do
  requireDir s (parent p)
  match s.get p with
  | none => .ok (s.set p (.file ∅ mode))
  | some (.file _ m) =>
    if m.val.testBit 7 then .ok (s.set p (.file ∅ m)) else .error ⟨.permission, p⟩
  | some (.dir _) => .error ⟨.isDirectory, p⟩
  | some (.symlink _) => .error ⟨.invalid, p⟩

/-- A write through an open descriptor. -/
def write (c : C) (p : Path) (s : DirTree C) : Except OsError (DirTree C) :=
  match s.get p with
  | some (.file _ m) => .ok (s.set p (.file c m))
  | some _ => .error ⟨.isDirectory, p⟩
  | none => .error ⟨.notFound, p⟩

def chmod (mode : Mode) (p : Path) (s : DirTree C) : Except OsError (DirTree C) :=
  match s.get p with
  | some (.file c _) => .ok (s.set p (.file c mode))
  | some (.dir _) => .ok (s.set p (.dir mode))
  | some (.symlink _) => .error ⟨.invalid, p⟩
  | none => .error ⟨.notFound, p⟩

/-- `os.replace`: a directory moves with all below it, and only onto nothing or an empty
directory. -/
def rename (src dst : Path) (s : DirTree C) : Except OsError (DirTree C) :=
  match s.get src with
  | none => .error ⟨.notFound, src⟩
  | some n => do
    requireDir s (parent dst)
    if src = dst then .ok s
    else if src <+: dst then .error ⟨.invalid, dst⟩
    else match n, s.get dst with
      | .dir _, none => .ok (s.move src dst)
      | .dir _, some (.dir _) =>
        if s.children dst = [] then .ok (s.move src dst) else .error ⟨.notEmpty, dst⟩
      | .dir _, some _ => .error ⟨.notDirectory, dst⟩
      | _, some (.dir _) => .error ⟨.isDirectory, dst⟩
      | _, _ => .ok ((s.remove src).set dst n)

def unlink (p : Path) (s : DirTree C) : Except OsError (DirTree C) :=
  match s.get p with
  | none => .error ⟨.notFound, p⟩
  | some (.dir _) => .error ⟨.isDirectory, p⟩
  | some _ => .ok (s.remove p)

def rmdir (p : Path) (s : DirTree C) : Except OsError (DirTree C) :=
  match s.get p with
  | none => .error ⟨.notFound, p⟩
  | some (.dir _) => if s.children p = [] then .ok (s.remove p) else .error ⟨.notEmpty, p⟩
  | some _ => .error ⟨.notDirectory, p⟩

section Calls

variable [OfOsError ε]

def syscall (f : DirTree C → Except OsError (DirTree C)) : Program (DirTree C) ε Unit :=
  .attempt fun s => (f s).mapError OfOsError.ofOsError

/-- Directories for the segments of a path below `d`, from the top down. -/
def mkdirsBelow (mode : Mode) (d : Path) : Path → Program (DirTree C) ε Unit
  | [] => pure ()
  | n :: r => do
    Program.whenever (fun s => !s.isDir (d ++ [n])) (syscall (mkdir mode (d ++ [n])))
    mkdirsBelow mode (d ++ [n]) r

/-- `mkdir(parents=True, exist_ok=True)`. -/
def mkdirs (mode : Mode) (p : Path) : Program (DirTree C) ε Unit := mkdirsBelow mode [] p

def tempPath (names : TempNames) (pre : String) (dir : Path) (s : DirTree C) : Path :=
  dir ++ [names.pick pre (s.children dir)]

/-- `tempfile.mkstemp`. -/
def createTemp [EmptyCollection C] (names : TempNames) (pre : String) (dir : Path) :
    Program (DirTree C) ε Path := do
  let tmp ← Program.read (tempPath names pre dir)
  syscall (create ∅ 0o600 tmp)
  return tmp

/-- Removal of a leftover, when there is one. -/
def discard (p : Path) : Program (DirTree C) ε Unit :=
  .whenever (fun s => s.exists p || s.isSymlink p) (syscall (unlink p))

/-- A new version of `p` is written beside it under a temporary name and renamed over it;
`check` has the last word before the rename. -/
def replaceFile [EmptyCollection C] (names : TempNames) (pre : String) (p : Path) (c : C)
    (mode : Mode) (check : Program (DirTree C) ε Unit) : Program (DirTree C) ε Unit := do
  let tmp ← createTemp names pre (parent p)
  Program.protect (do
    syscall (write c tmp)
    syscall (chmod mode tmp)
    check
    syscall (rename tmp p)) (discard tmp)

end Calls

variable {s t : DirTree C} {p q : Path} {m : Mode}

theorem get_set_eq (s : DirTree C) (p : Path) (n : Node C) :
    (s.set p n).get = Function.update s.get p (some n) := by
  funext q
  simp [Function.update_apply]

theorem get_remove_eq (s : DirTree C) (p : Path) :
    (s.remove p).get = Function.update s.get p none := by
  funext q
  simp [Function.update_apply]

theorem requireDir_ok (h : s.realDir p) : s.requireDir p = .ok () := by
  obtain ⟨m, h⟩ := h
  simp [requireDir, h]

theorem realDir_of_requireDir (h : s.requireDir p = .ok ()) : s.realDir p := by
  unfold requireDir at h
  split at h
  · exact ⟨_, ‹_›⟩
  · cases h
  · cases h

theorem mkdir_ok (hd : s.realDir (parent p)) (hp : s.get p = none) :
    mkdir m p s = .ok (s.set p (.dir m)) := by
  simp [mkdir, requireDir_ok hd, hp]
  rfl

theorem create_ok {c : C} (hd : s.realDir (parent p)) (hp : s.get p = none) :
    create c m p s = .ok (s.set p (.file c m)) := by
  simp [create, requireDir_ok hd, hp]
  rfl

theorem write_ok {c d : C} (hp : s.get p = some (.file d m)) :
    write c p s = .ok (s.set p (.file c m)) := by
  simp [write, hp]

theorem chmod_ok {c : C} {m' : Mode} (hp : s.get p = some (.file c m')) :
    chmod m p s = .ok (s.set p (.file c m)) := by
  simp [chmod, hp]

/-- A file is renamed over anything but a directory. -/
theorem rename_file_ok {c : C} (hs : s.get p = some (.file c m)) (hd : s.realDir (parent q))
    (hpq : ¬ p <+: q) (hq : ∀ m', s.get q ≠ some (.dir m')) :
    rename p q s = .ok ((s.remove p).set q (.file c m)) := by
  have hne : p ≠ q := fun h => hpq (h ▸ List.prefix_rfl)
  rcases hg : s.get q with _ | ⟨c', m'⟩ | m' | k
  · simp [rename, hs, requireDir_ok hd, hne, hpq, hg]
    rfl
  · simp [rename, hs, requireDir_ok hd, hne, hpq, hg]
    rfl
  · exact absurd hg (hq m')
  · simp [rename, hs, requireDir_ok hd, hne, hpq, hg]
    rfl

theorem rename_dir_ok (hs : s.get p = some (.dir m)) (hd : s.realDir (parent q))
    (hpq : ¬ p <+: q) (hq : s.get q = none) : rename p q s = .ok (s.move p q) := by
  have hne : p ≠ q := fun h => hpq (h ▸ List.prefix_rfl)
  simp [rename, hs, requireDir_ok hd, hne, hpq, hq]
  rfl

theorem unlink_ok {c : C} (hp : s.get p = some (.file c m)) :
    unlink p s = .ok (s.remove p) := by
  simp [unlink, hp]

theorem children_eq_nil (h : ∀ n, s.get (p ++ [n]) = none) : s.children p = [] := by
  rw [List.eq_nil_iff_forall_not_mem]
  intro n hn
  rw [mem_children, h n] at hn
  cases hn

theorem rmdir_ok (hp : s.get p = some (.dir m)) (hc : ∀ n, s.get (p ++ [n]) = none) :
    rmdir p s = .ok (s.remove p) := by
  simp [rmdir, hp, children_eq_nil hc]

theorem tempPath_absent (names : TempNames) (pre : String) (dir : Path) (s : DirTree C) :
    s.get (tempPath names pre dir s) = none := by
  by_contra h
  exact names.fresh pre (s.children dir)
    (mem_children.mpr (Option.isSome_iff_ne_none.mpr h))

/-- A name `mkstemp` can return for `pre` in `dir`. -/
def IsTemp (pre : String) (dir q : Path) : Prop :=
  ∃ x, 8 ≤ x.length ∧ '.' ∉ x.toList ∧ q = dir ++ [pre ++ x]

theorem tempPath_isTemp (names : TempNames) (pre : String) (dir : Path) (s : DirTree C) :
    IsTemp pre dir (tempPath names pre dir s) := by
  obtain ⟨x, hx, hdot, h⟩ := names.shape pre (s.children dir)
  exact ⟨x, hx, hdot, by rw [tempPath, h]⟩

section Calls

variable [OfOsError ε]

theorem syscall_ok {f : DirTree C → Except OsError (DirTree C)} (h : f s = .ok t) :
    (syscall f : Program (DirTree C) ε Unit).run s = ⟨[t], .ok ()⟩ :=
  Program.attempt_ok (by rw [h]; rfl)

theorem syscall_spec {f : DirTree C → Except OsError (DirTree C)} {K : DirTree C → Prop}
    (h : f s = .ok t) (hK : K t) :
    Triple (· = s) (syscall f : Program (DirTree C) ε Unit) (Returns fun _ u => u = t) K := by
  rintro s rfl
  have hrun := syscall_ok (ε := ε) h
  exact ⟨by simpa [hrun] using hK, (), by rw [Program.out, hrun], by rw [Program.final, hrun]; rfl⟩

theorem syscall_error {f : DirTree C → Except OsError (DirTree C)} {e : OsError}
    (h : f s = .error e) :
    (syscall f : Program (DirTree C) ε Unit).run s = ⟨[], .error (OfOsError.ofOsError e)⟩ :=
  Program.attempt_error (by rw [h]; rfl)

theorem discard_absent (h : s.get p = none) :
    (discard p : Program (DirTree C) ε Unit).run s = ⟨[], .ok ()⟩ :=
  Program.whenever_false _ (by simp [DirTree.exists, isSymlink, h])

theorem discard_file {x : C} (h : s.get p = some (.file x m)) :
    (discard p : Program (DirTree C) ε Unit).run s = ⟨[s.remove p], .ok ()⟩ := by
  have htest : (s.exists p || s.isSymlink p) = true := by simp [DirTree.exists, h]
  rw [discard, Program.whenever_true (fun t : DirTree C => t.exists p || t.isSymlink p) htest]
  exact syscall_ok (unlink_ok h)

/-- Without a directory to hold the temporary file nothing happens. -/
theorem replaceFile_noDir [EmptyCollection C] {names : TempNames} {pre : String} {c : C}
    {check : Program (DirTree C) ε Unit} (h : ¬ s.realDir (parent p)) :
    ∃ e, (replaceFile names pre p c m check).run s = ⟨[], .error e⟩ := by
  have hd : ∃ e, create (∅ : C) 0o600 (tempPath names pre (parent p) s) s = .error e := by
    have hpar : parent (tempPath names pre (parent p) s) = parent p := by simp [tempPath]
    unfold create
    rw [hpar]
    rcases hr : requireDir s (parent p) with e | u
    · exact ⟨e, rfl⟩
    · exact absurd (realDir_of_requireDir hr) h
  obtain ⟨e, he⟩ := hd
  refine ⟨OfOsError.ofOsError e, Program.bind_of_error ?_⟩
  rw [createTemp, Program.bind_of_pure (Program.read_run _ _)]
  exact Program.bind_of_error (syscall_error he)

/-- The stores an exchange of `p` passes through: a temporary file beside `p`, or the new
`p`. -/
inductive Replacing (s : DirTree C) (pre : String) (p : Path) (n : Option (Node C)) (c : DirTree C) :
    Prop
  | temp {tmp : Path} {x : C} {m : Mode} (isTemp : IsTemp pre (parent p) tmp)
      (absent : s.get tmp = none) (ne : tmp ≠ p)
      (get : c.get = Function.update s.get tmp (some (.file x m)))
  | done (get : c.get = Function.update s.get p n)

/-- The tree with a temporary file beside `p` and nothing else new. -/
def Drafted (s : DirTree C) (pre : String) (p : Path) (t : DirTree C) : Prop :=
  ∃ tmp x k, IsTemp pre (parent p) tmp ∧ s.get tmp = none ∧ tmp ≠ p ∧
    t.get = Function.update s.get tmp (some (.file x k))

theorem Drafted.replacing {pre : String} {n : Option (Node C)} (h : Drafted s pre p t) :
    Replacing s pre p n t := by
  obtain ⟨tmp, x, k, hT, habs, hne, hget⟩ := h
  exact .temp hT habs hne hget

variable [EmptyCollection C] {names : TempNames} {pre : String} {c : C} {a : C}

variable (names pre) in
theorem createTemp_run (hd : s.realDir p) :
    (createTemp names pre p : Program (DirTree C) ε Path).run s =
      ⟨[s.set (tempPath names pre p s) (.file ∅ 0o600)], .ok (tempPath names pre p s)⟩ := by
  have hc : create (∅ : C) 0o600 (tempPath names pre p s) s = .ok _ :=
    create_ok (by simpa [tempPath] using hd) (tempPath_absent names pre p s)
  rw [createTemp, Program.bind_of_pure (Program.read_run _ _),
    Program.bind_of_ok (syscall_ok hc)]
  rfl

/-- The tree with the finished temporary file. -/
def Finished (s : DirTree C) (pre : String) (p : Path) (n : Node C) (t : DirTree C) : Prop :=
  ∃ tmp, IsTemp pre (parent p) tmp ∧ s.get tmp = none ∧
    t.get = Function.update s.get tmp (some n)

/-- How an exchange of `p` ends: done, or with an error and nothing changed. -/
inductive Replaced (s : DirTree C) (pre : String) (p : Path) (n : Node C)
    (check : Program (DirTree C) ε Unit) : Except ε Unit → DirTree C → Prop
  | done {t : DirTree C} (dir : s.realDir (parent p)) (file : ¬ s.realDir p)
      (get : t.get = Function.update s.get p (some n)) : Replaced s pre p n check (.ok ()) t
  | failed {t : DirTree C} (e : ε) (get : t.get = s.get)
      (why : ¬ s.realDir (parent p) ∨ s.realDir p ∨
        ∃ u, Finished s pre p n u ∧ check.out u = .error e) : Replaced s pre p n check (.error e) t

/-- The four effects of an exchange: three on the temporary file, then the rename, or its removal
when the check or the rename refuses. -/
theorem replaceFile_runs (names : TempNames) {check : Program (DirTree C) ε Unit}
    (hd : s.realDir (parent p))
    (hne : p ≠ []) (htmp : ¬ IsTemp pre (parent p) p)
    (hcheck : ∀ t : DirTree C, Finished s pre p (.file c m) t → (check.run t).trace = []) :
    ∃ t₁ t₂ t₃ t₄, (∀ t ∈ [t₁, t₂, t₃], Drafted s pre p t) ∧
      Finished s pre p (.file c m) t₃ ∧
      (t₄.get = Function.update s.get p (some (.file c m)) ∧ ¬ s.realDir p ∧
          (replaceFile names pre p c m check).run s = ⟨[t₁, t₂, t₃, t₄], .ok ()⟩ ∨
        t₄.get = s.get ∧ ∃ e, (s.realDir p ∨ check.out t₃ = .error e) ∧
          (replaceFile names pre p c m check).run s = ⟨[t₁, t₂, t₃, t₄], .error e⟩) := by
  have hpp := parent_append_name hne
  set tmp := tempPath names pre (parent p) s with htmpdef
  have hT : IsTemp pre (parent p) tmp := tempPath_isTemp names pre (parent p) s
  have habs : s.get tmp = none := tempPath_absent names pre (parent p) s
  have hneq : tmp ≠ p := fun h => htmp (h ▸ hT)
  have hdirne : parent p ≠ tmp := by
    intro h
    obtain ⟨m', hm'⟩ := hd
    rw [h, habs] at hm'
    cases hm'
  set t₁ := s.set tmp (.file ∅ 0o600) with h₁
  set t₂ := t₁.set tmp (.file c 0o600) with h₂
  set t₃ := t₂.set tmp (.file c m) with h₃
  have g₁ : t₁.get = Function.update s.get tmp (some (.file ∅ 0o600)) := get_set_eq _ _ _
  have g₂ : t₂.get = Function.update s.get tmp (some (.file c 0o600)) := by
    rw [h₂, get_set_eq, g₁, Function.update_idem]
  have g₃ : t₃.get = Function.update s.get tmp (some (.file c m)) := by
    rw [h₃, get_set_eq, g₂, Function.update_idem]
  have hfile : t₃.get tmp = some (.file c m) := by rw [g₃, Function.update_self]
  have g₄ : (t₃.remove tmp).get = s.get := by
    rw [get_remove_eq, g₃, Function.update_idem, ← habs, Function.update_eq_self]
  have w₁ : write c tmp t₁ = .ok t₂ := write_ok (by rw [g₁, Function.update_self])
  have w₂ : chmod m tmp t₂ = .ok t₃ := chmod_ok (by rw [g₂, Function.update_self])
  have hfin : Finished s pre p (.file c m) t₃ := ⟨tmp, hT, habs, g₃⟩
  have htemps : ∀ t ∈ [t₁, t₂, t₃], Drafted s pre p t := by
    simp only [List.forall_mem_cons, List.not_mem_nil, false_implies, implies_true, and_true]
    exact ⟨⟨tmp, _, _, hT, habs, hneq, g₁⟩, ⟨tmp, _, _, hT, habs, hneq, g₂⟩,
      ⟨tmp, _, _, hT, habs, hneq, g₃⟩⟩
  -- up to the finished temporary file every run is alike
  have hrun : ∀ u o, (check >>= fun _ => syscall (rename tmp p)).run t₃ = ⟨u, o⟩ →
      (do
        syscall (write c tmp)
        syscall (chmod m tmp)
        check
        syscall (rename tmp p) : Program (DirTree C) ε Unit).run t₁ = ⟨t₂ :: t₃ :: u, o⟩ := by
    intro u o h
    rw [Program.bind_of_ok (syscall_ok w₁)]
    simp only [List.getLastD_cons, List.getLastD_nil]
    rw [Program.bind_of_ok (syscall_ok w₂)]
    simp only [List.getLastD_cons, List.getLastD_nil, List.cons_append, List.nil_append]
    rw [h]
  have hfailed : ∀ e, (check >>= fun _ => syscall (rename tmp p)).run t₃ = ⟨[], .error e⟩ →
      (replaceFile names pre p c m check).run s =
        ⟨[t₁, t₂, t₃, t₃.remove tmp], .error e⟩ := by
    intro e h
    have hbody := hrun [] (.error e) h
    rw [replaceFile, Program.bind_of_ok (createTemp_run names _ hd)]
    simp only [List.getLastD_cons, List.getLastD_nil, ← htmpdef, ← h₁]
    simp only [Program.protect, Program.out, Program.final, hbody, List.getLastD_cons,
      List.getLastD_nil, discard_file hfile]
    rfl
  cases hc : (check.run t₃).out with
  | error e =>
    have hstop : (check >>= fun _ => syscall (rename tmp p)).run t₃ = ⟨[], .error e⟩ :=
      Program.bind_of_error (by rw [← hcheck t₃ hfin, ← hc])
    exact ⟨t₁, t₂, t₃, t₃.remove tmp, htemps, hfin, .inr ⟨g₄, e, .inr hc, hfailed e hstop⟩⟩
  | ok u =>
    have hpass : (check >>= fun _ => syscall (rename tmp p)).run t₃ =
        (syscall (rename tmp p)).run t₃ :=
      Program.bind_of_pure (a := u) (by rw [← hcheck t₃ hfin, ← hc])
    have hpar : t₃.realDir (parent p) := by
      obtain ⟨k, hk⟩ := hd
      exact ⟨k, by rw [g₃, Function.update_of_ne hdirne, hk]⟩
    have hpre : ¬ tmp <+: p := by
      intro h
      obtain ⟨x, -, -, hx⟩ := hT
      have hlen : tmp.length = p.length := by
        rw [← hpp, hx]
        simp
      exact hneq (h.eq_of_length hlen)
    have hsame : t₃.get p = s.get p := by rw [g₃, Function.update_of_ne (Ne.symm hneq)]
    by_cases hp : s.realDir p
    · obtain ⟨k, hk⟩ := hp
      have herr : rename tmp p t₃ = .error ⟨.isDirectory, p⟩ := by
        simp [rename, hfile, requireDir_ok hpar, hneq, hpre, hsame, hk, bind, Except.bind]
      have hstop : (check >>= fun _ => syscall (rename tmp p)).run t₃ =
          ⟨[], .error (OfOsError.ofOsError ⟨.isDirectory, p⟩)⟩ := by
        rw [hpass]
        exact syscall_error herr
      exact ⟨t₁, t₂, t₃, t₃.remove tmp, htemps, hfin,
        .inr ⟨g₄, _, .inl ⟨k, hk⟩, hfailed _ hstop⟩⟩
    · set t₄ := (t₃.remove tmp).set p (.file c m) with h₄
      have g₅ : t₄.get = Function.update s.get p (some (.file c m)) := by
        rw [h₄, get_set_eq, g₄]
      have w₃ : rename tmp p t₃ = .ok t₄ := by
        apply rename_file_ok hfile hpar hpre
        intro m' hm'
        rw [hsame] at hm'
        exact hp ⟨m', hm'⟩
      have hgone : t₄.get tmp = none := by rw [g₅, Function.update_of_ne hneq, habs]
      have hbody := hrun [t₄] (.ok ()) (by rw [hpass]; exact syscall_ok w₃)
      refine ⟨t₁, t₂, t₃, t₄, htemps, hfin, .inl ⟨g₅, hp, ?_⟩⟩
      rw [replaceFile, Program.bind_of_ok (createTemp_run names _ hd)]
      simp only [List.getLastD_cons, List.getLastD_nil, ← htmpdef, ← h₁]
      rw [Program.protect_of_ok hbody (discard_absent hgone)]
      rfl

/-- `replaceFile` in any tree, with a check that leaves the tree alone. -/
theorem replaceFile_any {check : Program (DirTree C) ε Unit} (hne : p ≠ [])
    (htmp : ¬ IsTemp pre (parent p) p)
    (hcheck : ∀ t : DirTree C, Finished s pre p (.file c m) t → (check.run t).trace = []) :
    Triple (· = s) (replaceFile names pre p c m check)
      (fun o t => Replaced s pre p (.file c m) check o t)
      fun t => t.get = s.get ∨ Replacing s pre p (some (.file c m)) t := by
  rintro s rfl
  by_cases hd : s.realDir (parent p)
  · obtain ⟨t₁, t₂, t₃, t₄, htemps, hfin, hends⟩ := replaceFile_runs names hd hne htmp hcheck
    simp only [List.forall_mem_cons, List.not_mem_nil, false_implies, implies_true,
      and_true] at htemps
    obtain ⟨ht₁, ht₂, ht₃⟩ := htemps
    rcases hends with ⟨hget, hp, hrun⟩ | ⟨hget, e, hwhy, hrun⟩
    · simp only [Program.out, Program.final, hrun, List.forall_mem_cons, List.not_mem_nil,
        false_implies, implies_true, and_true]
      exact ⟨⟨.inr ht₁.replacing, .inr ht₂.replacing, .inr ht₃.replacing, .inr (.done hget)⟩,
        .done hd hp hget⟩
    · simp only [Program.out, Program.final, hrun, List.forall_mem_cons, List.not_mem_nil,
        false_implies, implies_true, and_true]
      exact ⟨⟨.inr ht₁.replacing, .inr ht₂.replacing, .inr ht₃.replacing, .inl hget⟩,
        .failed e hget (.inr (hwhy.imp id fun h => ⟨t₃, hfin, h⟩))⟩
  · have hnone : ∃ e, (replaceFile names pre p c m check).run s = ⟨[], .error e⟩ :=
      replaceFile_noDir hd
    obtain ⟨e, he⟩ := hnone
    simp only [Program.out, Program.final, he]
    exact ⟨by simp, .failed e rfl (.inl hd)⟩

/-- `replaceFile` over anything but a directory: four effects, when `check` passes on the
tree that has the finished temporary file. -/
theorem replaceFile_spec {check : Program (DirTree C) ε Unit} (hd : s.realDir (parent p))
    (hp : ∀ m', s.get p ≠ some (.dir m')) (hne : p ≠ [])
    (htmp : ¬ IsTemp pre (parent p) p)
    (hcheck : ∀ t : DirTree C, (∃ tmp, IsTemp pre (parent p) tmp ∧ s.get tmp = none ∧
      t.get = Function.update s.get tmp (some (.file c m))) → check.run t = ⟨[], .ok ()⟩) :
    Triple (· = s) (replaceFile names pre p c m check)
      (Returns fun _ t => t.get = Function.update s.get p (some (.file c m)))
      (Replacing s pre p (some (.file c m))) := by
  rintro s rfl
  obtain ⟨t₁, t₂, t₃, t₄, htemps, hfin, hends⟩ :=
    replaceFile_runs names hd hne htmp fun t ht => by rw [hcheck t ht]
  simp only [List.forall_mem_cons, List.not_mem_nil, false_implies, implies_true,
    and_true] at htemps
  obtain ⟨ht₁, ht₂, ht₃⟩ := htemps
  rcases hends with ⟨hget, -, hrun⟩ | ⟨-, e, hwhy, -⟩
  · simp only [Program.out, Program.final, hrun, List.forall_mem_cons, List.not_mem_nil,
      false_implies, implies_true, and_true]
    exact ⟨⟨ht₁.replacing, ht₂.replacing, ht₃.replacing, .done hget⟩, (), rfl, hget⟩
  · rcases hwhy with ⟨m', hm'⟩ | hcheck'
    · exact absurd hm' (hp m')
    · rw [Program.out, hcheck t₃ hfin] at hcheck'
      cases hcheck'

end Calls
end DirTree
end AgentStack.FileTree
