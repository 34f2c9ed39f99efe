import Mathlib.Data.List.Dedup
import Mathlib.Data.List.Perm.Basic
import Mathlib.Data.List.Sort

/-! Lists of entries under distinct keys, and loops that fail. -/
namespace AgentStack.KeyedList

variable {κ α β ε : Type}

section Lookup

variable [BEq κ] [LawfulBEq κ]

/-- Under distinct keys, looking a key up and holding its entry are one thing. -/
theorem lookup_eq_some {l : List (κ × α)} (hl : (l.map Prod.fst).Nodup) (k : κ) (a : α) :
    l.lookup k = some a ↔ (k, a) ∈ l := by
  induction l with
  | nil => simp
  | cons e l ih =>
    obtain ⟨k', a'⟩ := e
    rw [List.map_cons, List.nodup_cons] at hl
    have hrest := ih hl.2
    rw [List.lookup_cons, List.mem_cons]
    by_cases hk : k = k'
    · subst hk
      simp only [BEq.rfl, Option.some.injEq, Prod.mk.injEq, true_and]
      constructor
      · intro h
        exact Or.inl h.symm
      · intro h
        rcases h with h | h
        · exact h.symm
        · exact absurd (List.mem_map_of_mem (f := Prod.fst) h) hl.1
    · have hbeq : (k == k') = false := by simpa using hk
      simp only [hbeq, hrest, Prod.mk.injEq, hk, false_and, false_or]

theorem lookup_map (f : κ → α → β) (l : List (κ × α)) (k : κ) :
    (l.map fun e => (e.1, f e.1 e.2)).lookup k = (l.lookup k).map (f k) := by
  induction l with
  | nil => rfl
  | cons e l ih =>
    obtain ⟨k', a⟩ := e
    simp only [List.map_cons, List.lookup_cons]
    by_cases hk : k = k'
    · subst hk
      simp
    · have hbeq : (k == k') = false := by simpa using hk
      simp only [hbeq, ih]

theorem lookup_filter_key (q : κ → Bool) (l : List (κ × α)) {k : κ} (hq : q k = true) :
    (l.filter fun e => q e.1).lookup k = l.lookup k := by
  induction l with
  | nil => rfl
  | cons e l ih =>
    obtain ⟨k', a⟩ := e
    by_cases hk : k = k'
    · subst hk
      simp [hq]
    · have hbeq : (k == k') = false := by simpa using hk
      rw [List.filter_cons]
      split
      · simp only [List.lookup_cons, hbeq, ih]
      · simp only [List.lookup_cons, hbeq, ih]

theorem lookup_isSome_iff_mem (l : List (κ × α)) (k : κ) :
    (l.lookup k).isSome ↔ k ∈ l.map Prod.fst := by
  simp [List.lookup_isSome_iff, List.mem_map]

end Lookup

/-- The entries a partial function keeps, under their keys. -/
def collect (f : α → Option β) (l : List (κ × α)) : List (κ × β) :=
  l.filterMap fun e => (f e.2).map (e.1, ·)

theorem mem_collect {f : α → Option β} {l : List (κ × α)} {k : κ} {b : β} :
    (k, b) ∈ collect f l ↔ ∃ a, (k, a) ∈ l ∧ f a = some b := by
  simp only [collect, List.mem_filterMap, Option.map_eq_some_iff, Prod.mk.injEq]
  constructor
  · rintro ⟨e, he, c, hc, rfl, rfl⟩
    exact ⟨e.2, he, hc⟩
  · rintro ⟨a, ha, hb⟩
    exact ⟨(k, a), ha, b, hb, rfl, rfl⟩

theorem keys_collect_sublist (f : α → Option β) (l : List (κ × α)) :
    ((collect f l).map Prod.fst).Sublist (l.map Prod.fst) := by
  induction l with
  | nil => exact List.Sublist.slnil
  | cons e l ih =>
    cases hf : f e.2 with
    | none =>
      rw [collect, List.filterMap_cons_none (by rw [hf]; rfl)]
      exact ih.cons _
    | some b =>
      rw [collect, List.filterMap_cons_some (by rw [hf]; rfl)]
      exact ih.cons_cons _

theorem values_collect (f : α → Option β) (l : List (κ × α)) :
    (collect f l).map Prod.snd = l.filterMap fun e => f e.2 := by
  rw [collect, List.map_filterMap]
  apply List.filterMap_congr
  intro e _
  cases f e.2 with
  | none => rfl
  | some b => rfl

/-- What was collected can be looked up, in whatever order it is kept. -/
theorem lookup_of_perm_collect [BEq κ] [LawfulBEq κ] {f : α → Option β} {l : List (κ × α)}
    {m : List (κ × β)} (hl : (l.map Prod.fst).Nodup) (hm : m.Perm (collect f l)) {k : κ} {a : α}
    (h : (k, a) ∈ l) : m.lookup k = f a := by
  have hkeys : (m.map Prod.fst).Nodup := by
    have hcollected := (keys_collect_sublist f l).nodup hl
    exact (hm.map Prod.fst).nodup_iff.mpr hcollected
  cases hf : f a with
  | some b => exact (lookup_eq_some hkeys k b).mpr (hm.mem_iff.mpr (mem_collect.mpr ⟨a, h, hf⟩))
  | none =>
    cases hlook : m.lookup k with
    | none => rfl
    | some b =>
      have hmem := hm.mem_iff.mp ((lookup_eq_some hkeys k b).mp hlook)
      obtain ⟨a', ha', hb⟩ := mem_collect.mp hmem
      have h1 := (lookup_eq_some hl k a).mpr h
      have h2 := (lookup_eq_some hl k a').mpr ha'
      rw [Option.some.inj (h1.symm.trans h2), hb] at hf
      cases hf

/-- The only entry of a list that passes a test is the one a search finds. -/
theorem find?_eq_some_of_unique {l : List α} {p : α → Bool} {a : α} (ha : a ∈ l)
    (hp : p a = true) (hu : ∀ b ∈ l, p b = true → b = a) : l.find? p = some a := by
  cases h : l.find? p with
  | none =>
    have := List.find?_eq_none.mp h a ha
    exact absurd hp this
  | some b =>
    have hb : p b = true := List.find?_some h
    rw [hu b (List.mem_of_find?_eq_some h) hb]

theorem forM_ok {f : α → Except ε Unit} {l : List α} (h : ∀ a ∈ l, f a = .ok ()) :
    l.forM f = .ok () := by
  induction l with
  | nil => rfl
  | cons a l ih =>
    change (f a >>= fun _ => l.forM f) = _
    rw [h a List.mem_cons_self]
    exact ih fun b hb => h b (List.mem_cons_of_mem a hb)

theorem forM_eq_ok {f : α → Except ε Unit} {l : List α} (h : l.forM f = .ok ()) :
    ∀ a ∈ l, f a = .ok () := by
  induction l with
  | nil => simp
  | cons a l ih =>
    change (f a >>= fun _ => l.forM f) = _ at h
    cases ha : f a with
    | error e =>
      rw [ha] at h
      cases h
    | ok u =>
      rw [ha] at h
      intro b hb
      rcases List.mem_cons.mp hb with rfl | hb
      · exact ha
      · exact ih h b hb

theorem mapM_eq_map {f : κ → Except ε α} {g : κ → α} {l : List κ}
    (h : ∀ k ∈ l, f k = .ok (g k)) : l.mapM f = .ok (l.map g) := by
  induction l with
  | nil => rfl
  | cons k l ih =>
    rw [List.mapM_cons, h k List.mem_cons_self, ih fun k hk => h k (List.mem_cons_of_mem _ hk)]
    rfl

/-- The turns of a loop that succeeds. -/
theorem mapM_eq_ok {f : κ → Except ε α} {l : List κ} {r : List α} :
    l.mapM f = .ok r ↔ List.Forall₂ (fun k a => f k = .ok a) l r := by
  induction l generalizing r with
  | nil =>
    rw [List.mapM_nil, List.forall₂_nil_left_iff]
    constructor
    · intro h
      cases h
      rfl
    · rintro rfl
      rfl
  | cons k l ih =>
    rw [List.mapM_cons]
    constructor
    · intro h
      cases hk : f k with
      | error e =>
        rw [hk] at h
        cases h
      | ok b =>
        cases hrest : l.mapM f with
        | error e =>
          rw [hk, hrest] at h
          cases h
        | ok rest =>
          rw [hk, hrest] at h
          cases h
          exact .cons hk (ih.mp hrest)
    · intro h
      cases h with
      | cons hk hrest =>
        rw [hk, ih.mpr hrest]
        rfl

theorem forall₂_left {R : α → β → Prop} {xs : List α} {ys : List β}
    (h : List.Forall₂ R xs ys) : ∀ x ∈ xs, ∃ y ∈ ys, R x y := by
  induction h with
  | nil => exact fun x hx => absurd hx List.not_mem_nil
  | cons hr _ ih =>
    intro x hx
    rcases List.mem_cons.mp hx with rfl | hx
    · exact ⟨_, List.mem_cons_self, hr⟩
    · obtain ⟨y, hy, hr⟩ := ih x hx
      exact ⟨y, List.mem_cons_of_mem _ hy, hr⟩

theorem forall₂_right {R : α → β → Prop} {xs : List α} {ys : List β}
    (h : List.Forall₂ R xs ys) : ∀ y ∈ ys, ∃ x ∈ xs, R x y := by
  induction h with
  | nil => exact fun y hy => absurd hy List.not_mem_nil
  | cons hr _ ih =>
    intro y hy
    rcases List.mem_cons.mp hy with rfl | hy
    · exact ⟨_, List.mem_cons_self, hr⟩
    · obtain ⟨x, hx, hr⟩ := ih y hy
      exact ⟨x, List.mem_cons_of_mem _ hx, hr⟩

theorem eq_map_of_mapM {f : κ → Except ε α} {g : κ → α} {l : List κ} {r : List α}
    (h : l.mapM f = .ok r) (hg : ∀ k ∈ l, ∀ a, f k = .ok a → a = g k) : r = l.map g := by
  have hall := mapM_eq_ok.mp h
  clear h
  induction hall with
  | nil => rfl
  | cons hk _ ih =>
    rw [List.forall_mem_cons] at hg
    rw [List.map_cons, hg.1 _ hk, ih hg.2]

/-- Every result of a loop is that of some turn. -/
theorem mapM_mem {f : κ → Except ε α} {l : List κ} {r : List α} (h : l.mapM f = .ok r) :
    ∀ a ∈ r, ∃ k ∈ l, f k = .ok a := forall₂_right (mapM_eq_ok.mp h)

/-- Every turn of a loop has its result. -/
theorem mapM_result {f : κ → Except ε α} {l : List κ} {r : List α} (h : l.mapM f = .ok r) :
    ∀ k ∈ l, ∃ a ∈ r, f k = .ok a := forall₂_left (mapM_eq_ok.mp h)

/-- A loop whose turns are told the keys of the results before. -/
def seenM (f : List κ → α → Except ε β) (key : β → κ) (seen : List κ) :
    List α → Except ε (List β)
  | [] => .ok []
  | a :: l => do
    let b ← f seen a
    let bs ← seenM f key (key b :: seen) l
    return b :: bs

theorem seenM_eq_ok {f : List κ → α → Except ε β} {key : β → κ}
    (hf : ∀ seen a b, f seen a = .ok b ↔ f [] a = .ok b ∧ key b ∉ seen) {seen : List κ}
    {l : List α} {r : List β} : seenM f key seen l = .ok r ↔
      List.Forall₂ (fun a b => f [] a = .ok b) l r ∧ (r.map key).Nodup ∧
        ∀ b ∈ r, key b ∉ seen := by
  induction l generalizing seen r with
  | nil =>
    rw [seenM, List.forall₂_nil_left_iff]
    constructor
    · intro h
      cases h
      simp
    · rintro ⟨rfl, -⟩
      rfl
  | cons a l ih =>
    rw [seenM]
    constructor
    · intro h
      cases ha : f seen a with
      | error e =>
        rw [ha] at h
        cases h
      | ok b =>
        cases hrest : seenM f key (key b :: seen) l with
        | error e =>
          rw [ha] at h
          change (seenM f key (key b :: seen) l >>= _) = _ at h
          rw [hrest] at h
          cases h
        | ok rest =>
          rw [ha] at h
          change (seenM f key (key b :: seen) l >>= _) = _ at h
          rw [hrest] at h
          cases h
          obtain ⟨hb, hbnew⟩ := (hf seen a b).mp ha
          obtain ⟨hall, hnodup, hnew⟩ := ih.mp hrest
          refine ⟨.cons hb hall, List.nodup_cons.mpr ⟨fun hmem => ?_, hnodup⟩, fun c hc => ?_⟩
          · obtain ⟨c, hc, hkey⟩ := List.mem_map.mp hmem
            exact hnew c hc (hkey ▸ List.mem_cons_self)
          · rcases List.mem_cons.mp hc with rfl | hc
            · exact hbnew
            · exact fun hseen => hnew c hc (List.mem_cons_of_mem _ hseen)
    · rintro ⟨hall, hnodup, hnew⟩
      cases hall with
      | @cons _ b _ rest hb hall =>
        obtain ⟨hfirst, hnodup⟩ := List.nodup_cons.mp hnodup
        have hrest : seenM f key (key b :: seen) l = .ok rest := by
          refine ih.mpr ⟨hall, hnodup, fun c hc hmem => ?_⟩
          rcases List.mem_cons.mp hmem with hkey | hmem
          · exact hfirst (hkey ▸ List.mem_map_of_mem hc)
          · exact hnew c (List.mem_cons_of_mem _ hc) hmem
        rw [(hf seen a b).mpr ⟨hb, hnew b List.mem_cons_self⟩]
        change (seenM f key (key b :: seen) l >>= _) = _
        rw [hrest]
        rfl

/-- The keys of what a list of keys is mapped to. -/
theorem filterMap_keys_sublist {g : κ → Option α} {key : α → κ}
    (h : ∀ k a, g k = some a → key a = k) (l : List κ) :
    ((l.filterMap g).map key).Sublist l := by
  induction l with
  | nil => exact .slnil
  | cons k l ih =>
    cases hk : g k with
    | none =>
      rw [List.filterMap_cons_none hk]
      exact ih.cons k
    | some a =>
      rw [List.filterMap_cons_some hk, List.map_cons, h k a hk]
      exact ih.cons_cons k

/-- Whether such a loop succeeds does not depend on the order. -/
theorem seenM_perm {f : List κ → α → Except ε β} {key : β → κ}
    (hf : ∀ seen a b, f seen a = .ok b ↔ f [] a = .ok b ∧ key b ∉ seen) {l l' : List α}
    (hperm : l.Perm l') {r : List β} (h : seenM f key [] l = .ok r) :
    ∃ r', seenM f key [] l' = .ok r' ∧ r.Perm r' := by
  obtain ⟨hall, hnodup, -⟩ := (seenM_eq_ok hf).mp h
  obtain ⟨r', hall', hperm'⟩ := List.perm_comp_forall₂ hperm.symm hall
  refine ⟨r', (seenM_eq_ok hf).mpr ⟨hall', (hperm'.map key).nodup_iff.mpr hnodup, ?_⟩, hperm'.symm⟩
  exact fun b _ => List.not_mem_nil

/-- A loop that keeps each result under its key succeeds when every turn does. -/
theorem mapM_keyed_eq_ok (f : κ → Except ε α) (l : List κ) (r : List (κ × α)) :
    (l.mapM fun k => do let a ← f k; Except.ok (k, a)) = .ok r ↔
      r.map Prod.fst = l ∧ ∀ e ∈ r, f e.1 = .ok e.2 := by
  induction l generalizing r with
  | nil =>
    simp only [List.mapM_nil, pure, Except.pure, Except.ok.injEq, List.map_eq_nil_iff]
    constructor
    · intro h
      subst h
      simp
    · intro h
      exact h.1.symm
  | cons k l ih =>
    rw [List.mapM_cons]
    cases hk : f k with
    | error e =>
      constructor
      · intro h
        cases h
      · intro ⟨hr, hall⟩
        cases r with
        | nil => cases hr
        | cons e' r =>
          rw [List.map_cons, List.cons.injEq] at hr
          have := hall e' (by simp)
          rw [hr.1, hk] at this
          cases this
    | ok a =>
      cases hrest : l.mapM fun k => (do let a ← f k; Except.ok (k, a) : Except ε (κ × α)) with
      | error e =>
        constructor
        · intro h
          simp [bind, Except.bind] at h
        · intro ⟨hr, hall⟩
          cases r with
          | nil => cases hr
          | cons e' r =>
            rw [List.map_cons, List.cons.injEq] at hr
            have := (ih r).mpr ⟨hr.2, fun e he => hall e (List.mem_cons_of_mem _ he)⟩
            rw [hrest] at this
            cases this
      | ok rest =>
        have hih := (ih rest).mp hrest
        constructor
        · intro h
          have : (k, a) :: rest = r := by
            simpa [bind, Except.bind, hrest, pure, Except.pure] using h
          subst this
          exact ⟨by simp [hih.1], by
            intro e he
            rcases List.mem_cons.mp he with rfl | he
            · exact hk
            · exact hih.2 e he⟩
        · intro ⟨hr, hall⟩
          cases r with
          | nil => cases hr
          | cons e' r =>
            rw [List.map_cons, List.cons.injEq] at hr
            have hr' := (ih r).mpr ⟨hr.2, fun e he => hall e (List.mem_cons_of_mem _ he)⟩
            rw [hrest] at hr'
            have he := hall e' (by simp)
            rw [hr.1, hk] at he
            cases he
            cases hr'
            obtain ⟨k', a'⟩ := e'
            cases hr.1
            simp [bind, Except.bind, pure, Except.pure]

/-- A loop succeeds when each of its turns can. -/
theorem mapM_keyed_isOk (f : κ → Except ε α) (l : List κ) (h : ∀ k ∈ l, ∃ a, f k = .ok a) :
    ∃ r, (l.mapM fun k => do let a ← f k; Except.ok (k, a)) = .ok r := by
  induction l with
  | nil => exact ⟨[], rfl⟩
  | cons k l ih =>
    obtain ⟨a, ha⟩ := h k (by simp)
    obtain ⟨r, hr⟩ := ih fun k hk => h k (List.mem_cons_of_mem _ hk)
    have hl := (mapM_keyed_eq_ok f l r).mp hr
    refine ⟨(k, a) :: r, (mapM_keyed_eq_ok f (k :: l) _).mpr ⟨by simp [hl.1], ?_⟩⟩
    intro e he
    rcases List.mem_cons.mp he with rfl | he
    · exact ha
    · exact hl.2 e he

/-- What the entries of a list give, each decided by its key. -/
theorem filterMap_eq_of_key {β : Type} (l : List (κ × α)) (f : α → Option β) (g : κ → Option β)
    (h : ∀ e ∈ l, f e.2 = g e.1) : l.filterMap (fun e => f e.2) = (l.map Prod.fst).filterMap g := by
  rw [List.filterMap_map]
  exact List.filterMap_congr h

/-- Sorting by distinct keys gives one list for all orders of the entries. -/
theorem insertionSort_key_perm {r : κ → κ → Prop} [DecidableRel r] [Std.Total r] [IsTrans κ r]
    [Std.Antisymm r] (key : α → κ) {l l' : List α} (hperm : l.Perm l')
    (hkeys : (l.map key).Nodup) : l.insertionSort (fun a b => r (key a) (key b)) =
      l'.insertionSort (fun a b => r (key a) (key b)) := by
  have htotal : Std.Total fun a b : α => r (key a) (key b) := ⟨fun a b => Std.Total.total _ _⟩
  have htrans : IsTrans α fun a b => r (key a) (key b) :=
    ⟨fun a b c hab hbc => IsTrans.trans _ _ _ hab hbc⟩
  refine List.Perm.eq_of_pairwise (fun a b ha hb hab hba => ?_)
    (List.pairwise_insertionSort _ l) (List.pairwise_insertionSort _ l')
    ((List.perm_insertionSort _ l).trans (hperm.trans (List.perm_insertionSort _ l').symm))
  have ha := (List.perm_insertionSort _ l).mem_iff.mp ha
  have hb := hperm.mem_iff.mpr ((List.perm_insertionSort _ l').mem_iff.mp hb)
  exact List.inj_on_of_nodup_map hkeys ha hb (antisymm hab hba)

theorem mapM_some_iff {f : α → Option β} {l : List α} {r : List β} :
    l.mapM f = some r ↔ List.Forall₂ (fun a b => f a = some b) l r := by
  induction l generalizing r with
  | nil => simp [eq_comm]
  | cons a l ih =>
    rw [List.mapM_cons]
    cases ha : f a with
    | none =>
      constructor
      · intro h
        cases h
      · intro h
        cases h with
        | cons hb _ =>
          rw [ha] at hb
          cases hb
    | some b =>
      cases hrest : l.mapM f with
      | none =>
        constructor
        · intro h
          cases h
        · intro h
          cases h with
          | cons _ hall =>
            rw [ih.mpr hall] at hrest
            cases hrest
      | some rest =>
        constructor
        · intro h
          cases h
          exact .cons ha (ih.mp hrest)
        · intro h
          cases h with
          | cons hb hall =>
            rw [ih.mpr hall] at hrest
            rw [ha] at hb
            cases hb
            cases hrest
            rfl

section Sorted

variable [LinearOrder α]

theorem nodup_dedup_insertionSort (l : List α) : (l.dedup.insertionSort (· ≤ ·)).Nodup :=
  (List.perm_insertionSort (· ≤ ·) _).nodup_iff.mpr l.nodup_dedup

/-- Sorting fewer values without repetition is keeping fewer of the sorted ones. -/
theorem dedup_insertionSort_eq_filter {l m : List α} (p : α → Bool)
    (h : ∀ a, a ∈ m ↔ a ∈ l ∧ p a = true) :
    m.dedup.insertionSort (· ≤ ·) = (l.dedup.insertionSort (· ≤ ·)).filter p := by
  have hperm : (m.dedup.insertionSort (· ≤ ·)).Perm
      ((l.dedup.insertionSort (· ≤ ·)).filter p) := by
    rw [List.perm_ext_iff_of_nodup (nodup_dedup_insertionSort m)
      ((nodup_dedup_insertionSort l).filter p)]
    intro a
    simp [List.mem_filter, List.mem_insertionSort, h]
  have hsorted (k : List α) : (k.dedup.insertionSort (· ≤ ·)).Pairwise (· ≤ ·) :=
    List.pairwise_insertionSort (· ≤ ·) _
  exact hperm.eq_of_pairwise' (hsorted m) ((hsorted l).filter p)

end Sorted

end AgentStack.KeyedList
