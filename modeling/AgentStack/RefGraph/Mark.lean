import AgentStack.RefGraph.Order

/-! A worklist that marks nodes as it puts them on its stack. -/
namespace AgentStack.RefGraph

variable {α : Type} [DecidableEq α]

/-- The references of a node, each selected and put onto the stack unless it is selected. -/
def push (selected pending : List α) : List α → List α × List α
  | [] => (selected, pending)
  | b :: bs =>
    if b ∈ selected then push selected pending bs else push (b :: selected) (b :: pending) bs

def mark (refs : α → List α) : ℕ → List α → List α → List α
  | 0, selected, _ => selected
  | _ + 1, selected, [] => selected
  | fuel + 1, selected, a :: pending =>
    mark refs fuel (push selected pending (refs a)).1 (push selected pending (refs a)).2

variable {nodes selected pending : List α} {refs : α → List α}

/-- What `push` adds, to both lists. -/
theorem push_spec (selected pending bs : List α) : ∃ fresh : List α,
    push selected pending bs = (fresh ++ selected, fresh ++ pending) ∧ fresh.Nodup ∧
      ∀ b, b ∈ fresh ↔ b ∈ bs ∧ b ∉ selected := by
  induction bs generalizing selected pending with
  | nil => exact ⟨[], rfl, List.nodup_nil, by simp⟩
  | cons c bs ih =>
    rw [push]
    split
    next hc =>
      obtain ⟨fresh, hpush, hnodup, hmem⟩ := ih selected pending
      refine ⟨fresh, hpush, hnodup, fun b => ?_⟩
      rw [hmem, List.mem_cons]
      constructor
      · rintro ⟨hb, hnew⟩
        exact ⟨Or.inr hb, hnew⟩
      · rintro ⟨rfl | hb, hnew⟩
        · exact absurd hc hnew
        · exact ⟨hb, hnew⟩
    next hc =>
      obtain ⟨fresh, hpush, hnodup, hmem⟩ := ih (c :: selected) (c :: pending)
      refine ⟨fresh ++ [c], ?_, ?_, fun b => ?_⟩
      · rw [hpush]
        simp
      · refine List.nodup_append.mpr ⟨hnodup, List.nodup_singleton c, ?_⟩
        rintro b hb d hd rfl
        rw [List.mem_singleton] at hd
        exact ((hmem b).mp hb).2 (hd ▸ List.mem_cons_self)
      · rw [List.mem_append, hmem, List.mem_singleton, List.mem_cons, List.mem_cons]
        by_cases hbc : b = c
        · subst hbc
          simp [hc]
        · simp [hbc]

/-- The steps left: what is on the stack and what is not selected yet. -/
theorem unselected_le (hnodes : nodes.Nodup) {fresh : List α} (hfresh : fresh.Nodup)
    (hsub : ∀ b ∈ fresh, b ∈ nodes ∧ b ∉ selected) :
    fresh.length + (nodes.filter (· ∉ fresh ++ selected)).length ≤
      (nodes.filter (· ∉ selected)).length := by
  have hnodup : (fresh ++ nodes.filter (· ∉ fresh ++ selected)).Nodup := by
    refine List.nodup_append.mpr ⟨hfresh, hnodes.filter _, ?_⟩
    rintro b hb c hc rfl
    simp only [List.mem_filter, List.mem_append, decide_eq_true_eq, not_or] at hc
    exact hc.2.1 hb
  have hle : (fresh ++ nodes.filter (· ∉ fresh ++ selected)) ⊆ nodes.filter (· ∉ selected) := by
    intro b hb
    simp only [List.mem_append, List.mem_filter, decide_eq_true_eq, not_or] at hb ⊢
    rcases hb with hb | ⟨hb, -, hnew⟩
    · exact hsub b hb
    · exact ⟨hb, hnew⟩
  have := (List.subperm_of_subset hnodup hle).length_le
  rwa [List.length_append] at this

/-- What a run of the worklist finds, with as much fuel as there are steps. -/
structure Marked (refs : α → List α) (selected pending result : List α) : Prop where
  sound : ∀ a ∈ result, ∃ b ∈ selected, Reaches refs b a
  complete : ∀ a ∈ selected, a ∈ result
  closed : (∀ a ∈ selected, a ∈ pending ∨ ∀ b ∈ refs a, b ∈ selected) →
    ∀ a ∈ result, ∀ b ∈ refs a, b ∈ result

theorem mark_marked (hnodes : nodes.Nodup) (hrefs : ∀ a ∈ nodes, ∀ b ∈ refs a, b ∈ nodes)
    {fuel : ℕ} (hselected : ∀ a ∈ selected, a ∈ nodes) (hpending : ∀ a ∈ pending, a ∈ selected)
    (hfuel : pending.length + (nodes.filter (· ∉ selected)).length ≤ fuel) :
    Marked refs selected pending (mark refs fuel selected pending) := by
  have hstop : ∀ selected : List α, Marked refs selected [] selected := fun selected =>
    ⟨fun a ha => ⟨a, ha, .refl⟩, fun a ha => ha,
      fun h a ha b hb => (h a ha).resolve_left List.not_mem_nil b hb⟩
  induction fuel generalizing selected pending with
  | zero =>
    have hnil : pending = [] := List.length_eq_zero_iff.mp (by omega)
    subst hnil
    exact hstop selected
  | succ fuel ih =>
    cases pending with
    | nil => exact hstop selected
    | cons a pending =>
      rw [List.forall_mem_cons] at hpending
      obtain ⟨fresh, hpush, hnodup, hmem⟩ := push_spec selected pending (refs a)
      rw [mark, hpush]
      simp only
      have hanode := hselected a hpending.1
      have hfresh : ∀ b ∈ fresh, b ∈ nodes ∧ b ∉ selected := fun b hb =>
        ⟨hrefs a hanode b ((hmem b).mp hb).1, ((hmem b).mp hb).2⟩
      have hle := unselected_le hnodes hnodup hfresh
      rw [List.length_cons] at hfuel
      have hnext : ∀ b ∈ fresh ++ pending, b ∈ fresh ++ selected := by
        intro b hb
        rw [List.mem_append] at hb ⊢
        exact hb.imp_right (hpending.2 b)
      have hnode : ∀ b ∈ fresh ++ selected, b ∈ nodes := by
        intro b hb
        rcases List.mem_append.mp hb with hb | hb
        · exact (hfresh b hb).1
        · exact hselected b hb
      obtain ⟨hsound, hcomplete, hclosed⟩ :=
        ih hnode hnext (by rw [List.length_append]; omega)
      refine ⟨fun b hb => ?_, fun b hb => hcomplete b (List.mem_append_right _ hb), fun h => ?_⟩
      · obtain ⟨c, hc, hcb⟩ := hsound b hb
        rcases List.mem_append.mp hc with hc | hc
        · exact ⟨a, hpending.1, .head ((hmem c).mp hc).1 hcb⟩
        · exact ⟨c, hc, hcb⟩
      · refine hclosed fun b hb => ?_
        have hinto : ∀ c, c ∈ selected → c ∈ fresh ++ selected := fun c hc =>
          List.mem_append_right _ hc
        rcases List.mem_append.mp hb with hb | hb
        · exact Or.inl (List.mem_append_left _ hb)
        · rcases h b hb with hpend | hdone
          · rcases List.mem_cons.mp hpend with rfl | hpend
            · refine Or.inr fun c hc => ?_
              by_cases hseen : c ∈ selected
              · exact hinto c hseen
              · exact List.mem_append_left _ ((hmem c).mpr ⟨hc, hseen⟩)
            · exact Or.inl (List.mem_append_right _ hpend)
          · exact Or.inr fun c hc => hinto c (hdone c hc)

theorem mark_nodup {fuel : ℕ} (h : selected.Nodup) : (mark refs fuel selected pending).Nodup := by
  induction fuel generalizing selected pending with
  | zero => exact h
  | succ fuel ih =>
    cases pending with
    | nil => exact h
    | cons a pending =>
      obtain ⟨fresh, hpush, hnodup, hmem⟩ := push_spec selected pending (refs a)
      rw [mark, hpush]
      refine ih (List.nodup_append.mpr ⟨hnodup, h, ?_⟩)
      rintro b hb c hc rfl
      exact ((hmem b).mp hb).2 hc

/-- A worklist started on its roots selects what can be reached from them. -/
theorem mem_mark_iff (hnodes : nodes.Nodup) (hrefs : ∀ a ∈ nodes, ∀ b ∈ refs a, b ∈ nodes)
    {roots : List α} (hroots : ∀ a ∈ roots, a ∈ nodes) {a : α} :
    a ∈ mark refs (roots.length + nodes.length) roots roots ↔
      ∃ root ∈ roots, Reaches refs root a := by
  have hle := List.length_filter_le (fun a => decide (a ∉ roots)) nodes
  have hmarked : Marked refs roots roots (mark refs (roots.length + nodes.length) roots roots) :=
    mark_marked hnodes hrefs hroots (fun a ha => ha) (by omega)
  obtain ⟨hsound, hcomplete, hclosed⟩ := hmarked
  have hclosed := hclosed fun b hb => Or.inl hb
  constructor
  · exact hsound a
  · rintro ⟨root, hroot, hreach⟩
    have hmem := hcomplete root hroot
    clear hroot
    induction hreach with
    | refl => exact hmem
    | tail _ hstep ih => exact hclosed _ ih _ hstep

end AgentStack.RefGraph
