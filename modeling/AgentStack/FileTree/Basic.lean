import Mathlib.Data.List.Basic
import Mathlib.Data.List.Dedup
import Mathlib.Data.List.Infix

/-! A directory tree as a finite map from paths to nodes. Paths are lists of segments from
the root; nothing is said about what a file holds. -/
namespace AgentStack.FileTree

abbrev Path := List String

/-- POSIX permission bits. -/
abbrev Mode := Fin 512

instance modeNeZero : @NeZero Nat Zero.ofOfNat0 512 := ⟨by decide⟩

inductive Kind
  | file
  | dir
  deriving DecidableEq, Repr

/-- A symbolic link carries what it resolves to, `none` when it dangles. -/
inductive Node (C : Type)
  | file (content : C) (mode : Mode)
  | dir (mode : Mode)
  | symlink (target : Option Kind)
  deriving DecidableEq, Repr

structure DirTree (C : Type) where
  entries : List (Path × Node C)
  deriving Repr

def parent (p : Path) : Path := p.dropLast

/-- The last segment. -/
def name (p : Path) : String := p.getLastD ""

@[simp] theorem parent_append (p : Path) (n : String) : parent (p ++ [n]) = p := by simp [parent]

@[simp] theorem name_append (p : Path) (n : String) : name (p ++ [n]) = n := by
  simp [name, List.getLastD_eq_getLast?]

theorem parent_append_name {p : Path} (h : p ≠ []) : parent p ++ [name p] = p := by
  obtain ⟨q, n, rfl⟩ := p.eq_nil_or_concat.resolve_left h
  simp

namespace DirTree

variable {C : Type}

def get (s : DirTree C) (p : Path) : Option (Node C) := s.entries.lookup p

/-- What lies at and below `p`, by the rest of the path. -/
def sub (s : DirTree C) (p : Path) : Path → Option (Node C) := fun r => s.get (p ++ r)

def set (s : DirTree C) (p : Path) (n : Node C) : DirTree C :=
  ⟨(p, n) :: s.entries.filter fun e => e.1 ≠ p⟩

def remove (s : DirTree C) (p : Path) : DirTree C := ⟨s.entries.filter fun e => e.1 ≠ p⟩

/-- The tree without `p` and all below it. -/
def without (s : DirTree C) (p : Path) : DirTree C := ⟨s.entries.filter fun e => ¬ p <+: e.1⟩

/-- `src` and all below it, put at `dst` in place of whatever was there. -/
def move (s : DirTree C) (src dst : Path) : DirTree C :=
  ⟨s.entries.filterMap fun e =>
    if dst <+: e.1 then none
    else if src <+: e.1 then some (dst ++ e.1.drop src.length, e.2)
    else some e⟩

/-- The names in a directory, in the order the entries stand. -/
def children (s : DirTree C) (d : Path) : List String :=
  (s.entries.filterMap fun e =>
    if e.1 ≠ [] ∧ parent e.1 = d then some (name e.1) else none).dedup

def «exists» (s : DirTree C) (p : Path) : Bool :=
  match s.get p with
  | none | some (.symlink none) => false
  | _ => true

def isDir (s : DirTree C) (p : Path) : Bool :=
  match s.get p with
  | some (.dir _) | some (.symlink (some .dir)) => true
  | _ => false

def isFile (s : DirTree C) (p : Path) : Bool :=
  match s.get p with
  | some (.file _ _) | some (.symlink (some .file)) => true
  | _ => false

def isSymlink (s : DirTree C) (p : Path) : Bool :=
  match s.get p with
  | some (.symlink _) => true
  | _ => false

/-- `p` is a directory itself, not through a link. -/
def realDir (s : DirTree C) (p : Path) : Prop := ∃ m, s.get p = some (.dir m)

instance (s : DirTree C) (p : Path) : Decidable (s.realDir p) :=
  match h : s.get p with
  | some (.dir m) => isTrue ⟨m, h⟩
  | none => isFalse fun ⟨m, hm⟩ => by rw [h] at hm; cases hm
  | some (.file _ _) => isFalse fun ⟨m, hm⟩ => by rw [h] at hm; cases hm
  | some (.symlink _) => isFalse fun ⟨m, hm⟩ => by rw [h] at hm; cases hm

/-- Every entry but the root lies in a directory, and the root is one. -/
def WellFormed (s : DirTree C) : Prop :=
  s.realDir [] ∧ ∀ e ∈ s.entries, e.1 = [] ∨ s.realDir (parent e.1)

instance (s : DirTree C) : Decidable s.WellFormed := by unfold WellFormed; infer_instance

private theorem lookup_filter (l : List (Path × Node C)) (keep : Path → Bool) (q : Path) :
    (l.filter fun e => keep e.1).lookup q = if keep q then l.lookup q else none := by
  induction l with
  | nil => simp
  | cons e l ih =>
    obtain ⟨k, n⟩ := e
    rw [List.filter_cons, List.lookup_cons]
    by_cases hq : q = k
    · subst hq
      cases hk : keep q with
      | true => simp
      | false => simpa [hk] using ih
    · have hne : (q == k) = false := by simpa using hq
      cases hk : keep k with
      | true => simp [hne, List.lookup_cons, ih]
      | false => simp [hne, ih]

@[simp] theorem get_remove (s : DirTree C) (p q : Path) :
    (s.remove p).get q = if q = p then none else s.get q := by
  have h := lookup_filter s.entries (fun k => k ≠ p) q
  by_cases hq : q = p
  · simpa [get, remove, hq] using h
  · simpa [get, remove, hq] using h

@[simp] theorem get_set (s : DirTree C) (p q : Path) (n : Node C) :
    (s.set p n).get q = if q = p then some n else s.get q := by
  by_cases h : q = p
  · simp [get, set, h]
  · have hne : (q == p) = false := by simpa using h
    have hrest := get_remove s p q
    simp only [get, remove, set, List.lookup_cons, hne, h, if_false] at hrest ⊢
    exact hrest

theorem get_without (s : DirTree C) (p q : Path) :
    (s.without p).get q = if p <+: q then none else s.get q := by
  have h := lookup_filter s.entries (fun k => ¬ p <+: k) q
  by_cases hq : p <+: q
  · simpa [get, without, hq] using h
  · simpa [get, without, hq] using h

private theorem prefix_comparable {a b p : Path} (ha : a <+: p) (hb : b <+: p) :
    a <+: b ∨ b <+: a := List.prefix_or_prefix_of_prefix ha hb

private theorem lookup_move (l : List (Path × Node C)) {src dst : Path} (h₁ : ¬ src <+: dst)
    (h₂ : ¬ dst <+: src) (q : Path) :
    (l.filterMap fun e =>
      if dst <+: e.1 then none
      else if src <+: e.1 then some (dst ++ e.1.drop src.length, e.2)
      else some e).lookup q =
      if dst <+: q then l.lookup (src ++ q.drop dst.length)
      else if src <+: q then none else l.lookup q := by
  induction l with
  | nil => simp
  | cons e l ih =>
    obtain ⟨k, n⟩ := e
    by_cases hd : dst <+: k
    · -- dropped: no path of the result names it
      simp only [List.filterMap_cons, hd, if_true, ih, List.lookup_cons]
      by_cases hq : dst <+: q
      · have hne : (src ++ q.drop dst.length == k) = false := by
          rw [beq_eq_false_iff_ne]
          rintro rfl
          rcases prefix_comparable hd (List.prefix_append src _) with h | h
          · exact h₂ h
          · exact h₁ h
        simp [hq, hne]
      · have hne : (q == k) = false := by
          rw [beq_eq_false_iff_ne]
          rintro rfl
          exact hq hd
        simp [hq, hne]
    · by_cases hs : src <+: k
      · obtain ⟨r, rfl⟩ := hs
        have hp : src <+: src ++ r := List.prefix_append src r
        simp only [List.filterMap_cons, hd, if_false, hp, if_true, List.lookup_cons,
          List.drop_left, ih]
        by_cases hq : dst <+: q
        · obtain ⟨u, rfl⟩ := hq
          have hpd : dst <+: dst ++ u := List.prefix_append dst u
          by_cases hu : u = r
          · simp [hu]
          · have hne : (dst ++ u == dst ++ r) = false := by simpa using hu
            have hne' : (src ++ u == src ++ r) = false := by simpa using hu
            simp [hpd, hne, hne']
        · have hne : (q == dst ++ r) = false := by
            rw [beq_eq_false_iff_ne]
            rintro rfl
            exact hq (List.prefix_append dst r)
          by_cases hqs : src <+: q
          · simp [hq, hne, hqs]
          · have hne' : (q == src ++ r) = false := by
              rw [beq_eq_false_iff_ne]
              rintro rfl
              exact hqs hp
            simp [hq, hne, hqs, hne']
      · simp only [List.filterMap_cons, hd, if_false, hs, List.lookup_cons, ih]
        by_cases hqk : q = k
        · subst hqk
          simp [hd, hs]
        · have hne : (q == k) = false := by simpa using hqk
          have hne' : (src ++ q.drop dst.length == k) = false := by
            rw [beq_eq_false_iff_ne]
            rintro rfl
            exact hs (List.prefix_append src _)
          simp [hne, hne']

theorem get_move (s : DirTree C) {src dst : Path} (h₁ : ¬ src <+: dst) (h₂ : ¬ dst <+: src)
    (q : Path) : (s.move src dst).get q =
      if dst <+: q then s.get (src ++ q.drop dst.length)
      else if src <+: q then none else s.get q := lookup_move s.entries h₁ h₂ q

private theorem lookup_isSome (l : List (Path × Node C)) (p : Path) :
    (l.lookup p).isSome ↔ ∃ n, (p, n) ∈ l := by
  induction l with
  | nil => simp
  | cons e l ih =>
    obtain ⟨k, n⟩ := e
    by_cases h : p = k
    · subst h
      simp
    · have hne : (p == k) = false := by simpa using h
      simp [List.lookup_cons, hne, ih, h]

theorem mem_children {s : DirTree C} {d : Path} {n : String} :
    n ∈ s.children d ↔ (s.get (d ++ [n])).isSome := by
  rw [get, lookup_isSome, children, List.mem_dedup, List.mem_filterMap]
  constructor
  · rintro ⟨⟨p, x⟩, he, h⟩
    split at h
    · next hp =>
      cases h
      obtain ⟨hne, rfl⟩ := hp
      exact ⟨x, by rw [parent_append_name hne]; exact he⟩
    · cases h
  · rintro ⟨x, he⟩
    exact ⟨_, he, by simp⟩

theorem children_nodup (s : DirTree C) (d : Path) : (s.children d).Nodup := List.nodup_dedup _

theorem WellFormed.parent_realDir {s : DirTree C} (h : s.WellFormed) {p : Path} {n : String}
    (hn : (s.get (p ++ [n])).isSome) : s.realDir p := by
  obtain ⟨x, hx⟩ := (lookup_isSome _ _).mp hn
  simpa using h.2 _ hx

/-- Nothing lies below what is absent. -/
theorem WellFormed.sub_none {s : DirTree C} (h : s.WellFormed) {p : Path} (hp : s.get p = none)
    (r : Path) : s.get (p ++ r) = none := by
  induction r using List.reverseRecOn with
  | nil => simpa using hp
  | append_singleton r n ih =>
    by_contra hne
    have hsome : (s.get ((p ++ r) ++ [n])).isSome := by
      rw [List.append_assoc]
      exact Option.isSome_iff_ne_none.mpr hne
    obtain ⟨m, hm⟩ := h.parent_realDir hsome
    rw [ih] at hm
    cases hm

end DirTree
end AgentStack.FileTree
