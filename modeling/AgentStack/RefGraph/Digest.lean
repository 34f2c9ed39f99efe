import AgentStack.RefGraph.Order

/-! Digests over a graph: each node's digest covers its own content and, for each reference, the
name and the digest of what it refers to. -/
namespace AgentStack.RefGraph

variable {α γ δ : Type}

/-- `digest` follows the recipe `h` on the nodes. -/
structure Digested (nodes : Set α) (content : α → γ) (refs : α → List α)
    (h : α → γ → List (α × δ) → δ) (digest : α → δ) : Prop where
  closed : ∀ a ∈ nodes, ∀ b ∈ refs a, b ∈ nodes
  recipe : ∀ a ∈ nodes, digest a = h a (content a) ((refs a).map fun b => (b, digest b))

/-- The recipe tells apart what the nodes of the two graphs feed it. -/
def Apart (h : α → γ → List (α × δ) → δ) (nodes nodes' : Set α) (content content' : α → γ)
    (inputs inputs' : α → List (α × δ)) : Prop :=
  ∀ a ∈ nodes, a ∈ nodes' → h a (content a) (inputs a) = h a (content' a) (inputs' a) →
    content a = content' a ∧ inputs a = inputs' a

variable {nodes nodes' : Set α} {content content' : α → γ} {refs refs' : α → List α}
  {h : α → γ → List (α × δ) → δ} {digest digest' : α → δ} {a b : α}

theorem Reaches.mem (D : Digested nodes content refs h digest) (ha : a ∈ nodes)
    (hb : Reaches refs a b) : b ∈ nodes := by
  induction hb with
  | refl => exact ha
  | tail _ hstep ih => exact D.closed _ ih _ hstep

/-- Graphs that agree on a node's digest agree on everything that can be reached from it. -/
theorem Digested.reach (D : Digested nodes content refs h digest)
    (D' : Digested nodes' content' refs' h digest')
    (hapart : Apart h nodes nodes' content content'
      (fun a => (refs a).map fun b => (b, digest b))
      (fun a => (refs' a).map fun b => (b, digest' b)))
    (ha : a ∈ nodes) (ha' : a ∈ nodes') (heq : digest a = digest' a) (hb : Reaches refs a b) :
    b ∈ nodes ∧ b ∈ nodes' ∧ Reaches refs' a b ∧ digest b = digest' b ∧
      content b = content' b ∧ refs b = refs' b := by
  have hlocal : ∀ b ∈ nodes, b ∈ nodes' → digest b = digest' b →
      content b = content' b ∧ refs b = refs' b ∧ ∀ c ∈ refs b, digest c = digest' c := by
    intro b hb hb' hdigest
    rw [D.recipe b hb, D'.recipe b hb'] at hdigest
    obtain ⟨hcontent, hinputs⟩ := hapart b hb hb' hdigest
    simp only at hinputs
    have hrefs : refs b = refs' b := by
      have := congrArg (List.map Prod.fst) hinputs
      simpa [Function.comp_def] using this
    refine ⟨hcontent, hrefs, fun c hc => ?_⟩
    rw [← hrefs] at hinputs
    exact congrArg Prod.snd (List.map_inj_left.mp hinputs c hc)
  induction hb with
  | refl =>
    obtain ⟨hcontent, hrefs, -⟩ := hlocal a ha ha' heq
    exact ⟨ha, ha', .refl, heq, hcontent, hrefs⟩
  | tail _ hstep ih =>
    obtain ⟨hnode, hnode', hreach, hdigest, hcontent, hrefs⟩ := ih
    obtain ⟨-, -, hnext⟩ := hlocal _ hnode hnode' hdigest
    have hc := D.closed _ hnode _ hstep
    have hc' := D'.closed _ hnode' _ (hrefs ▸ hstep)
    obtain ⟨hcontent', hrefs', -⟩ := hlocal _ hc hc' (hnext _ hstep)
    exact ⟨hc, hc', hreach.tail (hrefs ▸ hstep), hnext _ hstep, hcontent', hrefs'⟩

/-- Over one set of references, agreement on what can be reached gives equal digests. -/
theorem Digested.agree {order : List α} (D : Digested nodes content refs h digest)
    (D' : Digested nodes content' refs h digest') (horder : Ordered refs order)
    (hnodes : ∀ a ∈ nodes, a ∈ order) (ha : a ∈ nodes)
    (hagree : ∀ b, Reaches refs a b → content b = content' b) : digest a = digest' a := by
  obtain ⟨before, after, hsplit⟩ := List.append_of_mem (hnodes a ha)
  induction hlen : before.length using Nat.strong_induction_on generalizing a before after with
  | _ n ih =>
    have hrefs : ∀ b ∈ refs a, digest b = digest' b := by
      intro b hb
      obtain ⟨before', after', hbefore⟩ := List.append_of_mem (horder before a after hsplit b hb)
      refine ih before'.length ?_ (D.closed a ha b hb) (fun c hc => hagree c (.head hb hc)) before'
        (after' ++ a :: after) ?_ rfl
      · rw [← hlen, hbefore]
        simp
      · rw [hsplit, hbefore]
        simp
    rw [D.recipe a ha, D'.recipe a ha, hagree a .refl]
    congr 1
    exact List.map_congr_left fun b hb => by rw [hrefs b hb]

end AgentStack.RefGraph
