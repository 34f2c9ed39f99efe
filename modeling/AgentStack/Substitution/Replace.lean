import Mathlib.Data.List.Infix
import Mathlib.Data.List.Basic

/-! Replacing a pattern in a text, from left to right and without overlaps. -/
namespace AgentStack.Substitution

variable {α : Type*} {p q r s u v w text : List α} {a : α}

/-! ### Blocks of a text -/

/-- No occurrence of `p` goes over the right end of `u`. -/
def ClosedRight (p u : List α) : Prop := ∀ q, q <:+ u → q ≠ [] → q <+: p → q = p

/-- No occurrence of `p` comes into `u` from the left, nor goes over all of it. -/
def ClosedLeft (p u : List α) : Prop := ∀ s, s <:+ p → s ≠ [] → s ≠ p → ¬ s <+: u ∧ ¬ u <+: s

theorem ClosedRight.suffix (h : ClosedRight p u) (hw : w <:+ u) : ClosedRight p w :=
  fun q hq => h q (hq.trans hw)

theorem ClosedLeft.of_isPrefix (h : ClosedLeft p u) (hu : u <+: w) : ClosedLeft p w := by
  intro s hs hne hproper
  obtain ⟨hsu, hus⟩ := h s hs hne hproper
  constructor
  · intro hsw
    rcases List.prefix_or_prefix_of_prefix hsw hu with h | h
    · exact hsu h
    · exact hus h
  · intro hws
    exact hus (hu.trans hws)

theorem ClosedRight.of_suffix (h : ClosedRight p u) (hu : u <:+ w) (hwithin : ¬ u <:+: p) :
    ClosedRight p w := by
  intro q hq hne hqp
  rcases List.suffix_or_suffix_of_suffix hq hu with h' | h'
  · exact h q h' hne hqp
  · exact absurd (h'.isInfix.trans hqp.isInfix) hwithin

section Decide

variable [DecidableEq α]

instance : Decidable (ClosedRight p u) :=
  decidable_of_iff (∀ q ∈ u.tails, q ≠ [] → q <+: p → q = p) (by simp [ClosedRight])

instance : Decidable (ClosedLeft p u) :=
  decidable_of_iff (∀ s ∈ p.tails, s ≠ [] → s ≠ p → ¬ s <+: u ∧ ¬ u <+: s) (by simp [ClosedLeft])

end Decide

/-- A pattern at the front of a closed block is in the block. -/
theorem ClosedRight.prefix_of_append (h : ClosedRight p u) (hu : u ≠ []) (hp : p <+: u ++ w) :
    p <+: u := by
  rcases List.prefix_or_prefix_of_prefix hp (List.prefix_append u w) with hpu | hup
  · exact hpu
  · rw [h u (List.suffix_refl u) hu hup]

theorem infix_append_of_closed (h : ClosedRight p u) (hwithin : p <:+: u ++ w) :
    p <:+: u ∨ p <:+: w := by
  induction u with
  | nil => exact .inr hwithin
  | cons a u ih =>
    rw [List.cons_append, List.infix_cons_iff] at hwithin
    rcases hwithin with hstarts | hwithin
    · exact .inl (h.prefix_of_append (List.cons_ne_nil a u) hstarts).isInfix
    · rcases ih (h.suffix (List.suffix_cons a u)) hwithin with hu | hw
      · exact .inl (hu.trans (List.suffix_cons a u).isInfix)
      · exact .inr hw

/-- A block without the first and the last element of the pattern, and not inside it. -/
theorem closed_of_notMem {b c : α} (hu : b ∉ u ∧ c ∉ u) (hhead : p.head? = some b)
    (hlast : p.getLast? = some c) (hwithin : ¬ u <:+: p) : ClosedRight p u ∧ ClosedLeft p u := by
  constructor
  · intro q hq hne hstarts
    have hb : b ∈ q := by
      obtain ⟨t, rfl⟩ := hstarts
      cases q with
      | nil => exact absurd rfl hne
      | cons a q =>
        rw [List.cons_append, List.head?_cons, Option.some.injEq] at hhead
        rw [hhead]
        exact List.mem_cons_self
    exact absurd (hq.subset hb) hu.1
  · intro s hs hne _
    have hc : c ∈ s := by
      obtain ⟨t, rfl⟩ := hs
      rw [List.getLast?_append_of_ne_nil t hne] at hlast
      exact List.mem_of_getLast? hlast
    constructor
    · intro hstarts
      exact hu.2 (hstarts.subset hc)
    · intro hstarts
      exact hwithin (hstarts.isInfix.trans hs.isInfix)

theorem infix_append_of_disjoint (hr : r ≠ []) (h : ∀ a ∈ u, a ∉ r) :
    r <:+: u ++ w ↔ r <:+: w := by
  induction u with
  | nil => rfl
  | cons a u ih =>
    rw [List.forall_mem_cons] at h
    rw [List.cons_append, List.infix_cons_iff, ih h.2]
    constructor
    · intro hwithin
      rcases hwithin with hstarts | hwithin
      · cases r with
        | nil => exact absurd rfl hr
        | cons b r =>
          rw [List.cons_prefix_cons] at hstarts
          exact absurd (hstarts.1 ▸ List.mem_cons_self) h.1
      · exact hwithin
    · exact Or.inr

/-! ### Replacement -/

variable [DecidableEq α]

/-- The replacement after the next `skip` elements, which an occurrence has taken. -/
def replaceFrom (p v : List α) : Nat → List α → List α
  | _, [] => []
  | skip + 1, _ :: text => replaceFrom p v skip text
  | 0, a :: text =>
    if p <+: a :: text then v ++ replaceFrom p v (p.length - 1) text
    else a :: replaceFrom p v 0 text

def replace (p v text : List α) : List α := replaceFrom p v 0 text

theorem replaceFrom_eq (p v : List α) (skip : Nat) (text : List α) :
    replaceFrom p v skip text = replace p v (text.drop skip) := by
  induction skip generalizing text with
  | zero => rfl
  | succ skip ih =>
    cases text with
    | nil => rfl
    | cons a text =>
      rw [replaceFrom, ih]
      rfl

@[simp] theorem replace_nil (p v : List α) : replace p v [] = [] := rfl

theorem replace_append_pattern (hp : p ≠ []) (v w : List α) :
    replace p v (p ++ w) = v ++ replace p v w := by
  cases p with
  | nil => exact absurd rfl hp
  | cons a p =>
    have hstarts : a :: p <+: a :: (p ++ w) := List.prefix_append (a :: p) w
    rw [replace, List.cons_append, replaceFrom, if_pos hstarts, replaceFrom_eq]
    simp

theorem replace_cons (h : ¬ p <+: a :: text) : replace p v (a :: text) = a :: replace p v text := by
  rw [replace, replaceFrom, if_neg h]
  rfl

@[simp] theorem replace_pattern (hp : p ≠ []) : replace p v p = v := by
  have h := replace_append_pattern hp v []
  rw [List.append_nil] at h
  simpa using h

/-- A text either starts with the pattern or with an element the replacement leaves. -/
theorem replace_induction {motive : List α → Prop} (hp : p ≠ []) (nil : motive [])
    (found : ∀ w, motive w → motive (p ++ w))
    (kept : ∀ a w, ¬ p <+: a :: w → motive w → motive (a :: w)) (text : List α) : motive text := by
  have hpos : 0 < p.length := List.length_pos_of_ne_nil hp
  induction hn : text.length using Nat.strong_induction_on generalizing text with
  | _ n ih =>
    cases text with
    | nil => exact nil
    | cons a w =>
      by_cases h : p <+: a :: w
      · obtain ⟨w', hw'⟩ := h
        rw [← hw'] at hn ⊢
        rw [List.length_append] at hn
        exact found w' (ih w'.length (by omega) w' rfl)
      · rw [List.length_cons] at hn
        exact kept a w h (ih w.length (by omega) w rfl)

theorem replace_eq_self (h : ¬ p <:+: u) : replace p v u = u := by
  induction u with
  | nil => rfl
  | cons a u ih =>
    rw [List.infix_cons_iff, not_or] at h
    rw [replace_cons h.1, ih h.2]

theorem length_le_replace (hp : p ≠ []) (hlen : p.length ≤ v.length) :
    text.length ≤ (replace p v text).length := by
  induction text using replace_induction hp with
  | nil => exact Nat.le_refl 0
  | found w ih =>
    rw [replace_append_pattern hp, List.length_append, List.length_append]
    omega
  | kept a w h ih =>
    rw [replace_cons h, List.length_cons, List.length_cons]
    omega

/-- A longer value shows in the length. -/
theorem length_lt_replace (hp : p ≠ []) (hlen : p.length < v.length) (h : p <:+: text) :
    text.length < (replace p v text).length := by
  induction text using replace_induction hp with
  | nil => exact absurd (List.infix_nil.mp h) hp
  | found w ih =>
    have hle : w.length ≤ (replace p v w).length := length_le_replace hp (by omega)
    rw [replace_append_pattern hp, List.length_append, List.length_append]
    omega
  | kept a w hnot ih =>
    have hlt := ih ((List.infix_cons_iff.mp h).resolve_left hnot)
    rw [replace_cons hnot, List.length_cons, List.length_cons]
    omega

theorem replace_append (hp : p ≠ []) (h : ClosedRight p u) (v w : List α) :
    replace p v (u ++ w) = replace p v u ++ replace p v w := by
  induction u using replace_induction hp with
  | nil => rfl
  | found u ih =>
    rw [List.append_assoc, replace_append_pattern hp, replace_append_pattern hp,
      ih (h.suffix (List.suffix_append p u)), List.append_assoc]
  | kept a u hnot ih =>
    have hwhole : ¬ p <+: a :: (u ++ w) := fun hstarts =>
      hnot (h.prefix_of_append (List.cons_ne_nil a u) hstarts)
    rw [List.cons_append, replace_cons hwhole, replace_cons hnot,
      ih (h.suffix (List.suffix_cons a u)), List.cons_append]

/-! ### Other patterns -/

/-- A pattern without elements of the value comes from the text. -/
theorem prefix_of_prefix_replace (hp : p ≠ []) (hv : v ≠ []) (hdisjoint : ∀ a ∈ v, a ∉ r)
    (h : r <+: replace p v text) : r <+: text := by
  induction text using replace_induction hp generalizing r with
  | nil => exact h
  | found w ih =>
    rw [replace_append_pattern hp] at h
    cases r with
    | nil => exact List.nil_prefix
    | cons b r =>
      cases v with
      | nil => exact absurd rfl hv
      | cons c v =>
        rw [List.cons_append, List.cons_prefix_cons] at h
        exact absurd (h.1 ▸ List.mem_cons_self) (hdisjoint c List.mem_cons_self)
  | kept a w hnot ih =>
    rw [replace_cons hnot] at h
    cases r with
    | nil => exact List.nil_prefix
    | cons b r =>
      rw [List.cons_prefix_cons] at h ⊢
      have hrest : ∀ a ∈ v, a ∉ r := fun a ha hmem =>
        hdisjoint a ha (List.mem_cons_of_mem b hmem)
      exact ⟨h.1, ih hrest h.2⟩

theorem prefix_replace_of_prefix (hp : p ≠ []) (hdisjoint : ∀ a ∈ p, a ∉ r) (h : r <+: text) :
    r <+: replace p v text := by
  induction text using replace_induction hp generalizing r with
  | nil => exact h
  | found w ih =>
    cases r with
    | nil => exact List.nil_prefix
    | cons b r =>
      cases p with
      | nil => exact absurd rfl hp
      | cons c p =>
        rw [List.cons_append, List.cons_prefix_cons] at h
        exact absurd (h.1 ▸ List.mem_cons_self) (hdisjoint c List.mem_cons_self)
  | kept a w hnot ih =>
    rw [replace_cons hnot]
    cases r with
    | nil => exact List.nil_prefix
    | cons b r =>
      rw [List.cons_prefix_cons] at h ⊢
      have hrest : ∀ a ∈ p, a ∉ r := fun a ha hmem =>
        hdisjoint a ha (List.mem_cons_of_mem b hmem)
      exact ⟨h.1, ih hrest h.2⟩

/-- Replacing makes and breaks no occurrence of a pattern apart from what is replaced. -/
theorem infix_replace_iff (hp : p ≠ []) (hv : v ≠ []) (hr : r ≠ []) (hpr : ∀ a ∈ p, a ∉ r)
    (hvr : ∀ a ∈ v, a ∉ r) : r <:+: replace p v text ↔ r <:+: text := by
  induction text using replace_induction hp with
  | nil => rfl
  | found w ih =>
    rw [replace_append_pattern hp, infix_append_of_disjoint hr hvr,
      infix_append_of_disjoint hr hpr, ih]
  | kept a w hnot ih =>
    have hhead : r <+: a :: replace p v w ↔ r <+: a :: w := by
      rw [← replace_cons hnot]
      constructor
      · exact prefix_of_prefix_replace hp hv hvr
      · exact prefix_replace_of_prefix hp hpr
    rw [replace_cons hnot, List.infix_cons_iff, List.infix_cons_iff, hhead, ih]

end AgentStack.Substitution
