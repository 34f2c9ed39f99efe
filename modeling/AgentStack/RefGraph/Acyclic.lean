import AgentStack.RefGraph.Order
import Mathlib.Data.Fintype.Card
import Mathlib.Data.Set.Finite.Basic
import Mathlib.Order.Bounds.Basic

/-! When Kahn's order lists every node, and that it does not depend on how the nodes are given. -/
namespace AgentStack.RefGraph

variable {α : Type}

/-- No node can be reached from itself. -/
def Acyclic (nodes : List α) (refs : α → List α) : Prop :=
  ∀ a ∈ nodes, ¬ Relation.TransGen (fun a b => b ∈ refs a) a a

theorem mem_nodes_of_transGen {nodes : List α} {refs : α → List α}
    (hrefs : ∀ a ∈ nodes, ∀ b ∈ refs a, b ∈ nodes) {a b : α} (ha : a ∈ nodes)
    (h : Relation.TransGen (fun a b => b ∈ refs a) a b) : b ∈ nodes := by
  induction h with
  | single h => exact hrefs a ha _ h
  | tail _ h ih => exact hrefs _ ih _ h

/-- A property holds of all nodes of an acyclic graph when it passes from references to nodes. -/
theorem Acyclic.induction {nodes : List α} {refs : α → List α} {P : α → Prop}
    (h : Acyclic nodes refs) (hrefs : ∀ a ∈ nodes, ∀ b ∈ refs a, b ∈ nodes)
    (hstep : ∀ a ∈ nodes, (∀ b ∈ refs a, P b) → P a) : ∀ a ∈ nodes, P a := by
  let r : {a // a ∈ nodes} → {a // a ∈ nodes} → Prop := fun b a =>
    Relation.TransGen (fun a b => b ∈ refs a) a.val b.val
  have htrans : IsTrans {a // a ∈ nodes} r := ⟨fun a b c hab hbc => hbc.trans hab⟩
  have hirrefl : Std.Irrefl r := ⟨fun a => h a.val a.property⟩
  have hfinite : Finite {a // a ∈ nodes} := Set.Finite.to_subtype nodes.finite_toSet
  have hwf : WellFounded r := Finite.wellFounded_of_trans_of_irrefl r
  intro a ha
  refine hwf.induction (C := fun a => P a.val) ⟨a, ha⟩ fun a ih => ?_
  refine hstep a.val a.property fun b hb => ?_
  exact ih ⟨b, hrefs a.val a.property b hb⟩ (.single hb)

def ClosedUnder (refs : α → List α) (S : Set α) : Prop := ∀ a ∈ S, ∀ b ∈ refs a, b ∈ S

/-- What can be reached from `seeds`. -/
def reached (refs : α → List α) (seeds : List α) : Set α := {a | ∃ s ∈ seeds, Reaches refs s a}

theorem isLeast_reached (refs : α → List α) (seeds : List α) :
    IsLeast {S : Set α | (∀ s ∈ seeds, s ∈ S) ∧ ClosedUnder refs S} (reached refs seeds) := by
  constructor
  · constructor
    · exact fun s hs => ⟨s, hs, .refl⟩
    · rintro a ⟨s, hs, hreach⟩ b hb
      exact ⟨s, hs, hreach.tail hb⟩
  · rintro S ⟨hseeds, hclosed⟩ a ⟨s, hs, hreach⟩
    induction hreach with
    | refl => exact hseeds s hs
    | tail _ hstep ih => exact hclosed _ ih _ hstep

variable [DecidableEq α]

theorem Ordered.idxOf_lt {refs : α → List α} {l : List α} (h : Ordered refs l) {a b : α}
    (ha : a ∈ l) (hb : b ∈ refs a) : l.idxOf b < l.idxOf a := by
  obtain ⟨before, after, rfl, hnot⟩ := List.eq_append_cons_of_mem ha
  have hmem := h before a after rfl b hb
  rw [List.idxOf_append_of_mem hmem, List.idxOf_append_of_notMem hnot]
  have := List.idxOf_lt_length_of_mem hmem
  omega

theorem Ordered.acyclic {nodes l : List α} {refs : α → List α} (h : Ordered refs l)
    (hrefs : ∀ a ∈ nodes, ∀ b ∈ refs a, b ∈ nodes) (hall : ∀ a ∈ nodes, a ∈ l) :
    Acyclic nodes refs := by
  intro a ha hcycle
  have hlt : ∀ b, Relation.TransGen (fun a b => b ∈ refs a) a b → l.idxOf b < l.idxOf a := by
    intro b hb
    induction hb with
    | single hb => exact h.idxOf_lt (hall a ha) hb
    | tail hpath hb ih =>
      have hmem := hall _ (mem_nodes_of_transGen hrefs ha hpath)
      exact (h.idxOf_lt hmem hb).trans ih
  exact absurd (hlt a hcycle) (lt_irrefl _)

section Order

variable {nodes nodes' : List α} {refs : α → List α} {le : α → α → Prop} [DecidableRel le]

variable (le) in
/-- The order lists every node just when the graph is acyclic. -/
theorem order_length_iff (hnodes : nodes.Nodup) (hnodup : ∀ a ∈ nodes, (refs a).Nodup)
    (hrefs : ∀ a ∈ nodes, ∀ b ∈ refs a, b ∈ nodes) :
    (order nodes refs le).length = nodes.length ↔ Acyclic nodes refs := by
  obtain ⟨honce, hsub, hordered, hcomplete⟩ := order_spec le hnodes hnodup
  constructor
  · intro hlength
    have hperm := (List.subperm_of_subset honce hsub).perm_of_length_le hlength.ge
    exact hordered.acyclic hrefs fun a ha => hperm.mem_iff.mpr ha
  · intro h
    have hall := h.induction hrefs hcomplete
    exact ((List.perm_ext_iff_of_nodup honce hnodes).mpr fun a => ⟨hsub a, hall a⟩).length_eq

variable [Std.Total le] [IsTrans α le]

omit [DecidableEq α] in
theorem foldr_orderedInsert_sorted (l : List α) {m : List α} (h : m.Pairwise le) :
    (l.foldr (List.orderedInsert le) m).Pairwise le := by
  induction l with
  | nil => exact h
  | cons a l ih => exact ih.orderedInsert a _

variable [Std.Antisymm le]

theorem kahn_perm (hperm : nodes.Perm nodes') (fuel : ℕ) {ready done : List α} {waiting : α → ℕ}
    (hready : ready.Pairwise le) :
    kahn nodes refs le fuel ready waiting done = kahn nodes' refs le fuel ready waiting done := by
  induction fuel generalizing ready waiting done with
  | zero => rfl
  | succ fuel ih =>
    cases ready with
    | nil => rfl
    | cons a ready =>
      rw [List.pairwise_cons] at hready
      have hmem : ∀ b, b ∈ consumers nodes refs a ↔ b ∈ consumers nodes' refs a := by
        intro b
        rw [mem_consumers, mem_consumers, hperm.mem_iff]
      have hconsumers : (consumers nodes refs a).Perm (consumers nodes' refs a) := hperm.filter _
      rw [kahn, kahn]
      simp only [hmem]
      have heq : ((consumers nodes refs a).filter fun b =>
            (if b ∈ consumers nodes' refs a then waiting b - 1 else waiting b) = 0).foldr
              (List.orderedInsert le) ready =
          ((consumers nodes' refs a).filter fun b =>
            (if b ∈ consumers nodes' refs a then waiting b - 1 else waiting b) = 0).foldr
              (List.orderedInsert le) ready := by
        apply List.Perm.eq_of_pairwise'
          (foldr_orderedInsert_sorted _ hready.2) (foldr_orderedInsert_sorted _ hready.2)
        exact (foldr_orderedInsert_perm le _ _).trans
          (((hconsumers.filter _).append_right _).trans (foldr_orderedInsert_perm le _ _).symm)
      rw [heq]
      exact ih (foldr_orderedInsert_sorted _ hready.2)

/-- The order does not depend on the order in which the nodes are given. -/
theorem order_perm (hperm : nodes.Perm nodes') : order nodes refs le = order nodes' refs le := by
  have hready : (nodes.filter fun a => refs a = []).insertionSort le =
      (nodes'.filter fun a => refs a = []).insertionSort le := by
    apply List.Perm.eq_of_pairwise' (List.pairwise_insertionSort le _)
      (List.pairwise_insertionSort le _)
    exact (List.perm_insertionSort le _).trans
      ((hperm.filter _).trans (List.perm_insertionSort le _).symm)
  rw [order, order, hready, hperm.length_eq]
  exact kahn_perm hperm _ (List.pairwise_insertionSort le _)

end Order

end AgentStack.RefGraph
