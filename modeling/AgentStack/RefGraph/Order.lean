import Mathlib.Data.List.Sort
import Mathlib.Data.List.Nodup
import Mathlib.Algebra.GroupWithZero.Nat
import Mathlib.Algebra.Order.Group.Nat
import Mathlib.Algebra.Order.BigOperators.Group.List
import Mathlib.Logic.Relation

/-! Nodes with references to other nodes: an order in which every reference comes first, and the
nodes that can be reached. -/
namespace AgentStack.RefGraph

variable {α : Type}

/-- Every reference of a listed node is listed before it. -/
def Ordered (refs : α → List α) (l : List α) : Prop :=
  ∀ before a after, l = before ++ a :: after → ∀ b ∈ refs a, b ∈ before

theorem Ordered.append {refs : α → List α} {l : List α} {a : α} (h : Ordered refs l)
    (ha : ∀ b ∈ refs a, b ∈ l) : Ordered refs (l ++ [a]) := by
  intro before c after heq b hb
  rcases List.eq_nil_or_concat after with rfl | ⟨after, x, rfl⟩
  · obtain ⟨rfl, hc⟩ := List.append_inj' heq rfl
    cases hc
    exact ha b hb
  · have hsplit : l = before ++ c :: after := by
      have hlast : l ++ [a] = (before ++ c :: after) ++ [x] := by simpa using heq
      exact (List.append_inj' hlast rfl).1
    exact h before c after hsplit b hb

/-! ### Kahn's order -/

variable [DecidableEq α]

section Order

variable (nodes : List α) (refs : α → List α) (le : α → α → Prop) [DecidableRel le]

def consumers (a : α) : List α := nodes.filter fun b => a ∈ refs b

/-- The least ready node is taken; a node whose last awaited reference it was becomes ready.
`waiting` counts the references of a node that are not `done`. -/
def kahn : ℕ → List α → (α → ℕ) → List α → List α
  | 0, _, _, done => done
  | _ + 1, [], _, done => done
  | fuel + 1, a :: ready, waiting, done =>
    let waiting' b := if b ∈ consumers nodes refs a then waiting b - 1 else waiting b
    let freed := (consumers nodes refs a).filter fun b => waiting' b = 0
    kahn fuel (freed.foldr (List.orderedInsert le) ready) waiting' (done ++ [a])

def order : List α :=
  kahn nodes refs le nodes.length ((nodes.filter fun a => refs a = []).insertionSort le)
    (fun a => (refs a).length) []

end Order

/-- What holds each time a node is about to be taken. -/
structure Taking (nodes : List α) (refs : α → List α) (ready : List α) (waiting : α → ℕ)
    (done : List α) : Prop where
  known : ∀ a ∈ ready ++ done, a ∈ nodes
  nodup : (ready ++ done).Nodup
  waits : ∀ a ∈ nodes, waiting a = (refs a).countP (· ∉ done)
  free : ∀ a ∈ ready ++ done, waiting a = 0
  complete : ∀ a ∈ nodes, waiting a = 0 → a ∈ ready ++ done
  ordered : Ordered refs done

variable {nodes : List α} {refs : α → List α} {le : α → α → Prop} [DecidableRel le]
  {ready done : List α} {waiting : α → ℕ} {a : α}

omit [DecidableEq α] in
variable (le) in
theorem foldr_orderedInsert_perm (l m : List α) :
    (l.foldr (List.orderedInsert le) m).Perm (l ++ m) := by
  induction l with
  | nil => exact .refl m
  | cons a l ih => exact (List.perm_orderedInsert le a _).trans (ih.cons a)

theorem mem_consumers {b : α} : b ∈ consumers nodes refs a ↔ b ∈ nodes ∧ a ∈ refs b := by
  simp [consumers]

/-- Taking a node takes it off the references its consumers wait for. -/
theorem countP_append_singleton {l : List α} (hl : l.Nodup) (ha : a ∉ done) :
    l.countP (· ∉ done ++ [a]) =
      if a ∈ l then l.countP (· ∉ done) - 1 else l.countP (· ∉ done) := by
  have hsplit : l.countP (· ∉ done) = l.countP (· ∉ done ++ [a]) + l.count a := by
    clear hl
    induction l with
    | nil => rfl
    | cons b l ih =>
      rw [List.countP_cons, List.countP_cons, List.count_cons, ih]
      by_cases hba : b = a
      · subst hba
        simp [ha]
        omega
      · simp [hba]
        omega
  have hcount := List.nodup_iff_count_le_one.mp hl a
  split
  next h =>
    have := List.count_pos_iff.mpr h
    omega
  next h =>
    rw [hsplit, List.count_eq_zero_of_not_mem h, Nat.add_zero]

variable (le) in
theorem Taking.step (h : Taking nodes refs (a :: ready) waiting done) (hnodes : nodes.Nodup)
    (hrefs : ∀ b ∈ nodes, (refs b).Nodup) {waiting' : α → ℕ}
    (hwaiting : ∀ b, waiting' b =
      if b ∈ consumers nodes refs a then waiting b - 1 else waiting b) :
    Taking nodes refs (((consumers nodes refs a).filter fun b => waiting' b = 0).foldr
      (List.orderedInsert le) ready) waiting' (done ++ [a]) := by
  obtain ⟨hready, hdone, hapart⟩ := List.nodup_append.mp h.nodup
  obtain ⟨ha, hready⟩ := List.nodup_cons.mp hready
  have hadone : a ∉ done := fun hd => hapart a List.mem_cons_self a hd rfl
  have hanode : a ∈ nodes := h.known a (by simp)
  have hold : ∀ b, b ∈ ready ∨ b ∈ done ∨ b = a → waiting b = 0 := by
    rintro b (hb | hb | rfl)
    · exact h.free b (by simp [hb])
    · exact h.free b (by simp [hb])
    · exact h.free b (by simp)
  have hperm := foldr_orderedInsert_perm le
    ((consumers nodes refs a).filter fun b => waiting' b = 0) ready
  -- a consumer waits for `a`, so it was neither ready nor done
  have hfreed : ∀ b ∈ consumers nodes refs a, waiting b ≠ 0 := by
    intro b hb
    obtain ⟨hbnode, hab⟩ := mem_consumers.mp hb
    rw [h.waits b hbnode, ← Nat.pos_iff_ne_zero, List.countP_pos_iff]
    exact ⟨a, hab, by simpa using hadone⟩
  have hmem : ∀ b, b ∈ ((consumers nodes refs a).filter fun b => waiting' b = 0).foldr
      (List.orderedInsert le) ready ++ (done ++ [a]) →
      (b ∈ consumers nodes refs a ∧ waiting' b = 0) ∨ b ∈ ready ∨ b ∈ done ∨ b = a := by
    intro b hb
    rw [List.mem_append, hperm.mem_iff, List.mem_append, List.mem_filter, List.mem_append,
      List.mem_singleton, decide_eq_true_eq] at hb
    tauto
  constructor
  · intro b hb
    rcases hmem b hb with ⟨hb, -⟩ | hb | hb | rfl
    · exact (mem_consumers.mp hb).1
    · exact h.known b (by simp [hb])
    · exact h.known b (by simp [hb])
    · exact hanode
  · rw [(hperm.append_right _).nodup_iff, List.append_assoc, List.nodup_append]
    refine ⟨(hnodes.filter _).filter _, ?_, ?_⟩
    · rw [List.nodup_append]
      refine ⟨hready, List.nodup_append.mpr ⟨hdone, List.nodup_singleton a, ?_⟩, ?_⟩
      · rintro b hb c hc rfl
        rw [List.mem_singleton] at hc
        exact hadone (hc ▸ hb)
      · rintro b hb c hc rfl
        rcases List.mem_append.mp hc with hc | hc
        · exact hapart b (List.mem_cons_of_mem _ hb) b hc rfl
        · rw [List.mem_singleton] at hc
          exact ha (hc ▸ hb)
    · rintro b hb c hc rfl
      have hold := hold b (by simpa [or_assoc] using hc)
      exact hfreed b (List.mem_of_mem_filter hb) hold
  · intro b hb
    rw [hwaiting, countP_append_singleton (hrefs b hb) hadone, h.waits b hb]
    by_cases hab : a ∈ refs b
    · rw [if_pos (mem_consumers.mpr ⟨hb, hab⟩), if_pos hab]
    · rw [if_neg (fun hc => hab (mem_consumers.mp hc).2), if_neg hab]
  · intro b hb
    rcases hmem b hb with ⟨-, hb⟩ | hb
    · exact hb
    · rw [hwaiting, hold b hb]
      split <;> rfl
  · intro b hb hzero
    rw [List.mem_append, hperm.mem_iff, List.mem_append, List.mem_append]
    by_cases hbc : b ∈ consumers nodes refs a
    · exact Or.inl (Or.inl (List.mem_filter.mpr ⟨hbc, decide_eq_true hzero⟩))
    · rw [hwaiting, if_neg hbc] at hzero
      have hmem := h.complete b hb hzero
      simp only [List.mem_append, List.mem_cons] at hmem
      rw [List.mem_singleton]
      tauto
  · refine h.ordered.append fun b hb => ?_
    have hzero := h.waits a hanode
    rw [hold a (by simp), eq_comm, List.countP_eq_zero] at hzero
    simpa using hzero b hb

variable (le) in
/-- The loop stops with no node ready or no fuel left. -/
theorem kahn_taking (fuel : ℕ) (h : Taking nodes refs ready waiting done) (hnodes : nodes.Nodup)
    (hrefs : ∀ b ∈ nodes, (refs b).Nodup) :
    ∃ ready' waiting',
      Taking nodes refs ready' waiting' (kahn nodes refs le fuel ready waiting done) ∧
      (ready' = [] ∨ (kahn nodes refs le fuel ready waiting done).length = done.length + fuel) := by
  induction fuel generalizing ready waiting done with
  | zero => exact ⟨ready, waiting, h, Or.inr rfl⟩
  | succ fuel ih =>
    cases ready with
    | nil => exact ⟨[], waiting, h, Or.inl rfl⟩
    | cons a ready =>
      obtain ⟨ready', waiting', htaking, hstop⟩ := ih (h.step le hnodes hrefs fun _ => rfl)
      refine ⟨ready', waiting', htaking, hstop.imp_right fun hlen => ?_⟩
      rw [kahn, hlen, List.length_append, List.length_singleton]
      omega

variable (le) in
theorem taking_start (hnodes : nodes.Nodup) :
    Taking nodes refs ((nodes.filter fun a => refs a = []).insertionSort le)
      (fun a => (refs a).length) [] := by
  have hperm := List.perm_insertionSort le (nodes.filter fun a => refs a = [])
  have hmem : ∀ a ∈ (nodes.filter fun a => refs a = []).insertionSort le ++ [],
      a ∈ nodes ∧ refs a = [] := by
    intro a ha
    rw [List.append_nil, hperm.mem_iff, List.mem_filter, decide_eq_true_eq] at ha
    exact ha
  constructor
  · exact fun a ha => (hmem a ha).1
  · rw [List.append_nil, hperm.nodup_iff]
    exact hnodes.filter _
  · intro a _
    simp
  · intro a ha
    rw [(hmem a ha).2]
    rfl
  · intro a ha hzero
    rw [List.append_nil, hperm.mem_iff, List.mem_filter, decide_eq_true_eq]
    exact ⟨ha, List.length_eq_zero_iff.mp hzero⟩
  · intro before a after heq
    have := congrArg List.length heq
    simp at this

variable (le) in
/-- The order lists nodes once each and every reference first, and it stops only when no node is
left whose references are all listed. -/
theorem order_spec (hnodes : nodes.Nodup) (hrefs : ∀ a ∈ nodes, (refs a).Nodup) :
    (order nodes refs le).Nodup ∧ (∀ a ∈ order nodes refs le, a ∈ nodes) ∧
      Ordered refs (order nodes refs le) ∧
      ∀ a ∈ nodes, (∀ b ∈ refs a, b ∈ order nodes refs le) → a ∈ order nodes refs le := by
  obtain ⟨ready, waiting, h, hstop⟩ :=
    kahn_taking le nodes.length (taking_start le hnodes) hnodes hrefs
  rw [← order, List.length_nil, Nat.zero_add] at hstop
  rw [← order] at h
  obtain ⟨-, hdone, hapart⟩ := List.nodup_append.mp h.nodup
  have hsub : ∀ a ∈ order nodes refs le, a ∈ nodes := fun a ha =>
    h.known a (List.mem_append_right _ ha)
  have hempty : ready = [] := by
    rcases hstop with hstop | hlen
    · exact hstop
    · have hperm := (List.subperm_of_subset hdone hsub).perm_of_length_le hlen.ge
      rw [List.eq_nil_iff_forall_not_mem]
      intro a ha
      have hnode := h.known a (List.mem_append_left _ ha)
      exact hapart a ha a (hperm.mem_iff.mpr hnode) rfl
  refine ⟨hdone, hsub, h.ordered, fun a ha hb => ?_⟩
  have hzero : waiting a = 0 := by
    rw [h.waits a ha, List.countP_eq_zero]
    exact fun b hba => by simpa using hb b hba
  have hmem := h.complete a ha hzero
  rwa [hempty, List.nil_append] at hmem

/-! ### Reachable nodes -/

/-- Nodes are taken off a stack; the references of a node seen for the first time go onto it. -/
def visit (refs : α → List α) : ℕ → List α → List α → List α
  | 0, visited, _ => visited
  | _ + 1, visited, [] => visited
  | fuel + 1, visited, a :: pending =>
    if a ∈ visited then visit refs fuel visited pending
    else visit refs fuel (a :: visited) ((refs a).reverse ++ pending)

/-- The steps left: those on the stack and those that unseen nodes will put there. -/
def steps (nodes : List α) (refs : α → List α) (visited pending : List α) : ℕ :=
  pending.length + ((nodes.filter (· ∉ visited)).map fun a => (refs a).length).sum

def Reaches (refs : α → List α) : α → α → Prop := Relation.ReflTransGen fun a b => b ∈ refs a

theorem unseen_cons_le (f : α → ℕ) (l visited : List α) :
    ((l.filter (· ∉ a :: visited)).map f).sum ≤ ((l.filter (· ∉ visited)).map f).sum := by
  have hsub : l.filter (· ∉ a :: visited) = (l.filter (· ∉ visited)).filter (· ≠ a) := by
    rw [List.filter_filter]
    refine List.filter_congr fun b _ => ?_
    simp
  rw [hsub]
  exact (List.filter_sublist.map f).sum_le_sum fun n _ => Nat.zero_le n

theorem unseen_cons_add_le (f : α → ℕ) {l visited : List α} (ha : a ∈ l) (hnew : a ∉ visited) :
    ((l.filter (· ∉ a :: visited)).map f).sum + f a ≤
      ((l.filter (· ∉ visited)).map f).sum := by
  induction l with
  | nil => cases ha
  | cons b l ih =>
    by_cases hba : b = a
    · subst hba
      have hle := unseen_cons_le (a := b) f l visited
      rw [List.filter_cons_of_neg (by simp), List.filter_cons_of_pos (by simpa using hnew),
        List.map_cons, List.sum_cons]
      omega
    · have ha : a ∈ l := (List.mem_cons.mp ha).resolve_left fun h => hba h.symm
      have hle := ih ha
      by_cases hb : b ∈ visited
      · rw [List.filter_cons_of_neg (by simp [hb]), List.filter_cons_of_neg (by simp [hb])]
        exact hle
      · rw [List.filter_cons_of_pos (by simp [hb, hba]), List.filter_cons_of_pos (by simp [hb]),
          List.map_cons, List.map_cons, List.sum_cons, List.sum_cons]
        omega

/-- What a visit finds, with as much fuel as there are steps: what it has seen before, and all
that can be reached from the stack. -/
structure Visited (refs : α → List α) (visited pending result : List α) : Prop where
  sound : ∀ a ∈ result, a ∈ visited ∨ ∃ b ∈ pending, Reaches refs b a
  complete : ∀ a, a ∈ visited ∨ a ∈ pending → a ∈ result
  closed : (∀ a ∈ visited, ∀ b ∈ refs a, b ∈ visited ∨ b ∈ pending) →
    ∀ a ∈ result, ∀ b ∈ refs a, b ∈ result

theorem visit_visited (hnodes : ∀ a ∈ nodes, ∀ b ∈ refs a, b ∈ nodes) {fuel : ℕ}
    {visited pending : List α} (hpending : ∀ a ∈ pending, a ∈ nodes)
    (hfuel : steps nodes refs visited pending ≤ fuel) :
    Visited refs visited pending (visit refs fuel visited pending) := by
  induction fuel generalizing visited pending with
  | zero =>
    have hnil : pending = [] := by
      unfold steps at hfuel
      exact List.length_eq_zero_iff.mp (by omega)
    subst hnil
    exact ⟨fun a ha => Or.inl ha, fun a ha => ha.resolve_right List.not_mem_nil,
      fun h a ha b hb => (h a ha b hb).resolve_right List.not_mem_nil⟩
  | succ fuel ih =>
    cases pending with
    | nil =>
      exact ⟨fun a ha => Or.inl ha, fun a ha => ha.resolve_right List.not_mem_nil,
        fun h a ha b hb => (h a ha b hb).resolve_right List.not_mem_nil⟩
    | cons a pending =>
      rw [List.forall_mem_cons] at hpending
      obtain ⟨ha, hpending⟩ := hpending
      rw [visit]
      split
      next hseen =>
        have hfuel : steps nodes refs visited pending ≤ fuel := by
          unfold steps at hfuel ⊢
          rw [List.length_cons] at hfuel
          omega
        obtain ⟨hsound, hcomplete, hclosed⟩ := ih hpending hfuel
        refine ⟨fun b hb => ?_, fun b hb => hcomplete b ?_, fun h => hclosed fun b hb c hc => ?_⟩
        · refine (hsound b hb).imp_right fun h => ?_
          obtain ⟨c, hc, hcb⟩ := h
          exact ⟨c, List.mem_cons_of_mem a hc, hcb⟩
        · rcases hb with hb | hb
          · exact Or.inl hb
          · rcases List.mem_cons.mp hb with rfl | hb
            · exact Or.inl hseen
            · exact Or.inr hb
        · rcases h b hb c hc with hc | hc
          · exact Or.inl hc
          · rcases List.mem_cons.mp hc with rfl | hc
            · exact Or.inl hseen
            · exact Or.inr hc
      next hnew =>
        have hfuel : steps nodes refs (a :: visited) ((refs a).reverse ++ pending) ≤ fuel := by
          have hle := unseen_cons_add_le (fun a => (refs a).length) ha hnew
          unfold steps at hfuel ⊢
          rw [List.length_cons] at hfuel
          rw [List.length_append, List.length_reverse]
          omega
        have hpending : ∀ b ∈ (refs a).reverse ++ pending, b ∈ nodes := by
          intro b hb
          rcases List.mem_append.mp hb with hb | hb
          · exact hnodes a ha b (List.mem_reverse.mp hb)
          · exact hpending b hb
        obtain ⟨hsound, hcomplete, hclosed⟩ := ih hpending hfuel
        refine ⟨fun b hb => ?_, fun b hb => hcomplete b ?_, fun h => hclosed fun b hb c hc => ?_⟩
        · rcases hsound b hb with hb | ⟨c, hc, hcb⟩
          · rcases List.mem_cons.mp hb with rfl | hb
            · exact Or.inr ⟨b, List.mem_cons_self, .refl⟩
            · exact Or.inl hb
          · rcases List.mem_append.mp hc with hc | hc
            · exact Or.inr ⟨a, List.mem_cons_self, .head (List.mem_reverse.mp hc) hcb⟩
            · exact Or.inr ⟨c, List.mem_cons_of_mem a hc, hcb⟩
        · simp only [List.mem_cons, List.mem_append] at hb ⊢
          tauto
        · simp only [List.mem_cons, List.mem_append, List.mem_reverse] at hb hc h ⊢
          rcases hb with rfl | hb
          · exact Or.inr (Or.inl hc)
          · rcases h b hb c hc with hc | hc | hc
            · exact Or.inl (Or.inr hc)
            · exact Or.inl (Or.inl hc)
            · exact Or.inr (Or.inr hc)

/-- A visit of a stack finds exactly what can be reached from it. -/
theorem mem_visit_iff (hnodes : ∀ a ∈ nodes, ∀ b ∈ refs a, b ∈ nodes) {fuel : ℕ}
    {pending : List α} (hpending : ∀ a ∈ pending, a ∈ nodes)
    (hfuel : steps nodes refs [] pending ≤ fuel) :
    a ∈ visit refs fuel [] pending ↔ ∃ b ∈ pending, Reaches refs b a := by
  have h := visit_visited hnodes hpending hfuel
  have hclosed := h.closed fun a ha => absurd ha List.not_mem_nil
  constructor
  · intro ha
    exact (h.sound a ha).resolve_left List.not_mem_nil
  · rintro ⟨b, hb, hba⟩
    have hb := h.complete b (Or.inr hb)
    induction hba with
    | refl => exact hb
    | tail _ hstep ih => exact hclosed _ ih _ hstep

end AgentStack.RefGraph
