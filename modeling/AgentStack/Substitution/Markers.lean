import AgentStack.Substitution.Replace

/-! Texts with markers, and replacing the markers one after the other. -/
namespace AgentStack.Substitution

variable {α κ : Type*}

/-- Markers that can be told apart wherever they stand in a text. -/
structure Markers (α κ : Type*) where
  mark : κ → List α
  find : List α → Option κ
  find_eq_some : ∀ text k, find text = some k ↔ mark k <+: text
  mark_ne_nil : ∀ k, mark k ≠ []
  closedRight : ∀ k l, ClosedRight (mark k) (mark l)
  closedLeft : ∀ k l, ClosedLeft (mark k) (mark l)

def expand (f : κ → List α) (ts : List (α ⊕ κ)) : List α := ts.flatMap (Sum.elim (fun a => [a]) f)

def keysOf (ts : List (α ⊕ κ)) : List κ := ts.filterMap Sum.getRight?

section Expand

variable {f g : κ → List α} {ts : List (α ⊕ κ)} {a : α} {k : κ}

@[simp] theorem expand_nil : expand f [] = [] := rfl

@[simp] theorem expand_inl : expand f (.inl a :: ts) = a :: expand f ts := rfl

@[simp] theorem expand_inr : expand f (.inr k :: ts) = f k ++ expand f ts := rfl

@[simp] theorem mem_keysOf : k ∈ keysOf ts ↔ .inr k ∈ ts := by
  rw [keysOf, List.mem_filterMap]
  constructor
  · intro h
    obtain ⟨t, ht, hk⟩ := h
    rw [Sum.getRight?_eq_some_iff] at hk
    rw [← hk]
    exact ht
  · intro h
    exact ⟨.inr k, h, rfl⟩

theorem expand_congr (h : ∀ k, .inr k ∈ ts → f k = g k) : expand f ts = expand g ts := by
  refine List.flatMap_congr fun t ht => ?_
  cases t with
  | inl a => rfl
  | inr k => exact h k ht

/-- Longer values for some marker that occurs make a longer text. -/
theorem length_expand_lt (hle : ∀ k, (f k).length ≤ (g k).length) (hk : .inr k ∈ ts)
    (hlt : (f k).length < (g k).length) : (expand f ts).length < (expand g ts).length := by
  have hmono : ∀ us : List (α ⊕ κ), (expand f us).length ≤ (expand g us).length := by
    intro us
    induction us with
    | nil => exact Nat.le_refl 0
    | cons u us ih =>
      cases u with
      | inl a =>
        rw [expand_inl, expand_inl, List.length_cons, List.length_cons]
        omega
      | inr l =>
        have hl := hle l
        rw [expand_inr, expand_inr, List.length_append, List.length_append]
        omega
  induction ts with
  | nil => cases hk
  | cons t ts ih =>
    rcases List.mem_cons.mp hk with rfl | hk
    · have hrest := hmono ts
      rw [expand_inr, expand_inr, List.length_append, List.length_append]
      omega
    · have hrest := ih hk
      cases t with
      | inl a =>
        rw [expand_inl, expand_inl, List.length_cons, List.length_cons]
        omega
      | inr l =>
        have hl := hle l
        rw [expand_inr, expand_inr, List.length_append, List.length_append]
        omega

end Expand

namespace Markers

variable (M : Markers α κ) {text : List α} {ts : List (α ⊕ κ)} {f : κ → List α} {k l n : κ}
  {a : α}

/-- The elements and markers of a text, after the next `skip` elements. -/
def scanFrom : Nat → List α → List (α ⊕ κ)
  | _, [] => []
  | skip + 1, _ :: text => scanFrom skip text
  | 0, a :: text =>
    match M.find (a :: text) with
    | some k => .inr k :: scanFrom ((M.mark k).length - 1) text
    | none => .inl a :: scanFrom 0 text

def scan (text : List α) : List (α ⊕ κ) := M.scanFrom 0 text

/-- No marker starts at an element that is not part of one. -/
def Scanned : List (α ⊕ κ) → Prop
  | [] => True
  | .inl a :: ts => M.find (a :: expand M.mark ts) = none ∧ Scanned ts
  | .inr _ :: ts => Scanned ts

theorem expand_scanFrom (skip : Nat) (text : List α) :
    expand M.mark (M.scanFrom skip text) = text.drop skip ∧ M.Scanned (M.scanFrom skip text) := by
  induction text generalizing skip with
  | nil => exact ⟨by cases skip <;> rfl, by cases skip <;> trivial⟩
  | cons a text ih =>
    cases skip with
    | succ skip => exact ih skip
    | zero =>
      rw [scanFrom]
      split
      · next k hfind =>
        obtain ⟨hexpand, hscanned⟩ := ih ((M.mark k).length - 1)
        obtain ⟨w, hw⟩ := (M.find_eq_some _ _).mp hfind
        refine ⟨?_, hscanned⟩
        rw [expand_inr, hexpand, List.drop_zero]
        cases hmark : M.mark k with
        | nil => exact absurd hmark (M.mark_ne_nil k)
        | cons b mark =>
          rw [hmark, List.cons_append, List.cons.injEq] at hw
          obtain ⟨rfl, rfl⟩ := hw
          simp
      · next hfind =>
        obtain ⟨hexpand, hscanned⟩ := ih 0
        rw [List.drop_zero] at hexpand
        rw [expand_inl, hexpand]
        exact ⟨rfl, by rw [Scanned, hexpand]; exact ⟨hfind, hscanned⟩⟩

@[simp] theorem expand_scan (text : List α) : expand M.mark (M.scan text) = text :=
  (M.expand_scanFrom 0 text).1

theorem scanned_scan (text : List α) : M.Scanned (M.scan text) := (M.expand_scanFrom 0 text).2

/-! ### Where markers stand -/

theorem mark_prefix_append {w : List α} (h : M.mark k <+: M.mark l ++ w) : k = l := by
  have hk := (M.find_eq_some _ _).mpr h
  rw [(M.find_eq_some _ _).mpr (List.prefix_append (M.mark l) w)] at hk
  exact (Option.some.inj hk).symm

/-- One marker is not part of another one. -/
theorem eq_of_mark_infix (h : M.mark k <:+: M.mark l) : k = l := by
  obtain ⟨q, hkq, hq⟩ := List.infix_iff_prefix_suffix.mp h
  by_cases hwhole : q = M.mark l
  · subst hwhole
    exact M.mark_prefix_append (w := []) (by simpa using hkq)
  · have hne : q ≠ [] := by
      rintro rfl
      exact M.mark_ne_nil k (List.prefix_nil.mp hkq)
    exact absurd hkq (M.closedLeft l k q hq hne hwhole).2

/-- The scan finds the markers that occur in the text. -/
theorem inr_mem_iff (hts : M.Scanned ts) :
    .inr k ∈ ts ↔ M.mark k <:+: expand M.mark ts := by
  induction ts with
  | nil => simpa using M.mark_ne_nil k
  | cons t ts ih =>
    cases t with
    | inl a =>
      obtain ⟨hnone, hts⟩ := hts
      have hstarts : ¬ M.mark k <+: a :: expand M.mark ts := by
        rw [← M.find_eq_some, hnone]
        intro h
        cases h
      rw [expand_inl, List.infix_cons_iff, or_iff_right hstarts, ← ih hts]
      simp
    | inr l =>
      rw [expand_inr, List.mem_cons]
      constructor
      · intro h
        rcases h with h | h
        · cases h
          exact (List.prefix_append _ _).isInfix
        · exact ((ih hts).mp h).trans (List.suffix_append _ _).isInfix
      · intro h
        rcases infix_append_of_closed (M.closedRight k l) h with hl | hrest
        · exact .inl (congrArg Sum.inr (M.eq_of_mark_infix hl))
        · exact .inr ((ih hts).mpr hrest)

theorem mem_keysOf_scan : k ∈ keysOf (M.scan text) ↔ M.mark k <:+: text := by
  rw [mem_keysOf, M.inr_mem_iff (M.scanned_scan text), expand_scan]

/-! ### One marker after the other -/

/-- What follows elements of the text and goes into no value goes over elements only. -/
theorem prefix_of_prefix_expand {s : List α}
    (hs : ∀ t, t <:+ s → t ≠ [] → ∀ l, .inr l ∈ ts → ¬ t <+: f l ∧ ¬ f l <+: t)
    (h : s <+: expand f ts) : s <+: expand M.mark ts := by
  induction ts generalizing s with
  | nil => exact h
  | cons t ts ih =>
    cases s with
    | nil => exact List.nil_prefix
    | cons a s =>
      cases t with
      | inl b =>
        rw [expand_inl, List.cons_prefix_cons] at h ⊢
        refine ⟨h.1, ih (fun t ht hne l hl => ?_) h.2⟩
        exact hs t (ht.trans (List.suffix_cons a s)) hne l (List.mem_cons_of_mem _ hl)
      | inr l =>
        obtain ⟨hsl, hls⟩ := hs (a :: s) (List.suffix_refl _) (List.cons_ne_nil a s) l
          List.mem_cons_self
        rw [expand_inr] at h
        rcases List.prefix_or_prefix_of_prefix h (List.prefix_append (f l) _) with h | h
        · exact absurd h hsl
        · exact absurd h hls

/-- The values of the markers `ks`, the others as they stand. -/
def valued [DecidableEq κ] (ks : List κ) (value : κ → List α) (k : κ) : List α :=
  if k ∈ ks then value k else M.mark k

/-- A value that later markers neither meet nor occur in. -/
def Settled (value : κ → List α) (k l : κ) : Prop :=
  ClosedRight (M.mark l) (value k) ∧ ClosedLeft (M.mark l) (value k) ∧ ¬ M.mark l <:+: value k

theorem valued_closed [DecidableEq κ] {ks : List κ} {value : κ → List α}
    (h : ∀ k ∈ ks, ClosedRight (M.mark n) (value k) ∧ ClosedLeft (M.mark n) (value k)) (l : κ) :
    ClosedRight (M.mark n) (M.valued ks value l) ∧
      ClosedLeft (M.mark n) (M.valued ks value l) := by
  unfold valued
  split_ifs with hl
  · exact h l hl
  · exact ⟨M.closedRight n l, M.closedLeft n l⟩

variable [DecidableEq α]

/-- Replacing a marker acts on the values the markers have, when none of them meets the marker
over an end. -/
theorem replace_expand (hts : M.Scanned ts)
    (hclosed : ∀ l, .inr l ∈ ts → ClosedRight (M.mark n) (f l) ∧ ClosedLeft (M.mark n) (f l))
    (v : List α) :
    replace (M.mark n) v (expand f ts) = expand (fun l => replace (M.mark n) v (f l)) ts := by
  induction ts with
  | nil => rfl
  | cons t ts ih =>
    have hrest : ∀ l, .inr l ∈ ts →
        ClosedRight (M.mark n) (f l) ∧ ClosedLeft (M.mark n) (f l) := fun l hl =>
      hclosed l (List.mem_cons_of_mem _ hl)
    cases t with
    | inr l =>
      rw [expand_inr, expand_inr, replace_append (M.mark_ne_nil n) (hclosed l List.mem_cons_self).1,
        ih hts hrest]
    | inl a =>
      obtain ⟨hnone, hts⟩ := hts
      have hnot : ¬ M.mark n <+: a :: expand f ts := by
        intro h
        have hmark : M.mark n <+: a :: expand M.mark ts := by
          cases hn : M.mark n with
          | nil => exact List.nil_prefix
          | cons b s =>
            rw [hn, List.cons_prefix_cons] at h
            rw [List.cons_prefix_cons]
            refine ⟨h.1, M.prefix_of_prefix_expand (fun t ht hne l hl => ?_) h.2⟩
            refine (hrest l hl).2 t ?_ hne ?_
            · rw [hn]
              exact ht.trans (List.suffix_cons b s)
            · rintro rfl
              have hlen := ht.length_le
              rw [hn, List.length_cons] at hlen
              omega
        rw [← M.find_eq_some, hnone] at hmark
        cases hmark
      rw [expand_inl, expand_inl, replace_cons hnot, ih hts hrest]

/-- Replacing markers one after the other gives every marker of the text its own value. -/
theorem foldl_replace [DecidableEq κ] {ks : List κ} {value : κ → List α} (hts : M.Scanned ts)
    (hvalues : ks.Pairwise (M.Settled value)) :
    ks.foldl (fun text k => replace (M.mark k) (value k) text) (expand M.mark ts) =
      expand (M.valued ks value) ts := by
  induction ks using List.reverseRecOn with
  | nil => exact expand_congr fun k _ => rfl
  | append_singleton ks n ih =>
    rw [List.pairwise_append] at hvalues
    obtain ⟨hvalues, -, hlast⟩ := hvalues
    have hsettled : ∀ k ∈ ks, M.Settled value k n := fun k hk =>
      hlast k hk n (List.mem_singleton_self n)
    have hclosed : ∀ l, ClosedRight (M.mark n) (M.valued ks value l) ∧
        ClosedLeft (M.mark n) (M.valued ks value l) :=
      M.valued_closed fun k hk => ⟨(hsettled k hk).1, (hsettled k hk).2.1⟩
    rw [List.foldl_append, ih hvalues, List.foldl_cons, List.foldl_nil,
      M.replace_expand hts fun l _ => hclosed l]
    refine expand_congr fun l _ => ?_
    unfold valued
    by_cases hl : l ∈ ks
    · rw [if_pos hl, if_pos (List.mem_append_left _ hl), replace_eq_self (hsettled l hl).2.2]
    · by_cases hln : l = n
      · subst hln
        rw [if_neg hl, if_pos (by simp), replace_pattern (M.mark_ne_nil l)]
      · have hother : ¬ M.mark n <:+: M.mark l := fun h => hln (M.eq_of_mark_infix h).symm
        rw [if_neg hl, if_neg (by simp [hl, hln]), replace_eq_self hother]

end Markers

end AgentStack.Substitution
