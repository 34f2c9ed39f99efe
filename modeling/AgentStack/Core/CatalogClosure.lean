import AgentStack.Core.Catalog
import AgentStack.RefGraph.Acyclic

/-! Which entries a profile selects from a catalog, and when it can select them. -/
namespace AgentStack.Core

open JsonText JsonValue KeyedList RefGraph

variable {profile : ResolvedProfile} {byPlatform : PlatformCapabilities}
  {entries entries' : List CatalogEntry} {s s' s'' : Selection} {viaReference : Bool}

/-! ### Adding entries -/

theorem entryAt_eq_some (h : (entries.map (·.entryId)).Nodup) {entryId : String}
    {entry : CatalogEntry} :
    entryAt entries entryId = some entry ↔ entry ∈ entries ∧ entry.entryId = entryId := by
  constructor
  · intro hat
    have hid := List.find?_some hat
    exact ⟨List.mem_of_find?_eq_some hat, of_decide_eq_true hid⟩
  · rintro ⟨hmem, rfl⟩
    refine find?_eq_some_of_unique hmem (decide_eq_true rfl) fun other hother hsame => ?_
    exact List.inj_on_of_nodup_map h hother hmem (of_decide_eq_true hsame)

/-- An entry that may be selected. -/
def Admitted (profile : ResolvedProfile) (byPlatform : PlatformCapabilities)
    (entries : List CatalogEntry) (entryId : String) : Prop :=
  entryId ∉ profile.skillsDisable ∧ ∃ entry, entryAt entries entryId = some entry ∧
    entryIsSupported entry profile.defaultPlatforms byPlatform = true

def referencesIn (entries : List CatalogEntry) (entryId : String) : List String :=
  ((entryAt entries entryId).map (·.references)).getD []

theorem mem_prerequisites {entryId b : String} {entry : CatalogEntry}
    (h : entryAt entries entryId = some entry) :
    b ∈ prerequisites entries entryId ↔ b ∈ entry.dependencies ∨ b ∈ entry.references := by
  rw [prerequisites, h]
  simp

/-- What adding a list of ids does to a selection. -/
structure Added (profile : ResolvedProfile) (byPlatform : PlatformCapabilities)
    (entries : List CatalogEntry) (viaReference : Bool) (ids : List String)
    (s s' : Selection) : Prop where
  grows : ∀ a ∈ s.selected, a ∈ s'.selected
  added : ∀ a ∈ ids, a ∈ s'.selected
  admitted : ∀ a ∈ s'.selected, a ∉ s.selected → Admitted profile byPlatform entries a
  reached : ∀ a ∈ s'.selected, a ∉ s.selected →
    ∃ b ∈ ids, Reaches (prerequisites entries) b a
  closed : ∀ a ∈ s'.selected, a ∉ s.selected → ∀ b ∈ prerequisites entries a, b ∈ s'.selected
  references : ∀ b, b ∈ s'.referenceIds ↔ b ∈ s.referenceIds ∨ (viaReference = true ∧ b ∈ ids) ∨
    ∃ a ∈ s'.selected, a ∉ s.selected ∧ b ∈ referencesIn entries a
  nodup : s.selected.Nodup → s'.selected.Nodup
  referencesNodup : s.referenceIds.Nodup → s'.referenceIds.Nodup

theorem Added.nil : Added profile byPlatform entries viaReference [] s s := by
  constructor
  · exact fun a ha => ha
  · simp
  · exact fun a ha hnew => absurd ha hnew
  · exact fun a ha hnew => absurd ha hnew
  · exact fun a ha hnew => absurd ha hnew
  · intro b
    simp only [List.not_mem_nil, and_false, false_or, iff_self_or]
    rintro ⟨a, ha, hnew, -⟩
    exact absurd ha hnew
  · exact fun h => h
  · exact fun h => h

theorem Added.cons {id : String} {ids : List String}
    (h : Added profile byPlatform entries viaReference [id] s s')
    (h' : Added profile byPlatform entries viaReference ids s' s'') :
    Added profile byPlatform entries viaReference (id :: ids) s s'' := by
  constructor
  · exact fun a ha => h'.grows a (h.grows a ha)
  · intro a ha
    rcases List.mem_cons.mp ha with rfl | ha
    · exact h'.grows _ (h.added _ (List.mem_singleton_self _))
    · exact h'.added a ha
  · intro a ha hnew
    by_cases hmid : a ∈ s'.selected
    · exact h.admitted a hmid hnew
    · exact h'.admitted a ha hmid
  · intro a ha hnew
    by_cases hmid : a ∈ s'.selected
    · obtain ⟨b, hb, hreach⟩ := h.reached a hmid hnew
      rw [List.mem_singleton] at hb
      exact ⟨b, hb ▸ List.mem_cons_self, hreach⟩
    · obtain ⟨b, hb, hreach⟩ := h'.reached a ha hmid
      exact ⟨b, List.mem_cons_of_mem _ hb, hreach⟩
  · intro a ha hnew b hb
    by_cases hmid : a ∈ s'.selected
    · exact h'.grows b (h.closed a hmid hnew b hb)
    · exact h'.closed a ha hmid b hb
  · intro b
    rw [h'.references, h.references, List.mem_singleton, List.mem_cons]
    have hsplit : (∃ a ∈ s''.selected, a ∉ s.selected ∧ b ∈ referencesIn entries a) ↔
        (∃ a ∈ s'.selected, a ∉ s.selected ∧ b ∈ referencesIn entries a) ∨
          ∃ a ∈ s''.selected, a ∉ s'.selected ∧ b ∈ referencesIn entries a := by
      constructor
      · rintro ⟨a, ha, hnew, hb⟩
        by_cases hmid : a ∈ s'.selected
        · exact Or.inl ⟨a, hmid, hnew, hb⟩
        · exact Or.inr ⟨a, ha, hmid, hb⟩
      · rintro (⟨a, ha, hnew, hb⟩ | ⟨a, ha, hnew, hb⟩)
        · exact ⟨a, h'.grows a ha, hnew, hb⟩
        · exact ⟨a, ha, fun hold => hnew (h.grows a hold), hb⟩
    have hregroup : ∀ c p q r u v : Prop,
        (p ∨ c ∧ q ∨ r) ∨ c ∧ u ∨ v ↔ p ∨ c ∧ (q ∨ u) ∨ r ∨ v := by tauto
    rw [hsplit]
    exact hregroup _ _ _ _ _ _
  · exact fun hs => h'.nodup (h.nodup hs)
  · exact fun hs => h'.referencesNodup (h.referencesNodup hs)

@[simp] theorem Selection.note_selected (entryId : String) :
    (s.note viaReference entryId).selected = s.selected := by
  cases viaReference <;> rfl

theorem Selection.mem_note {entryId b : String} : b ∈ (s.note viaReference entryId).referenceIds ↔
    b ∈ s.referenceIds ∨ viaReference = true ∧ b = entryId := by
  cases viaReference with
  | false => simp [Selection.note]
  | true =>
    simp only [Selection.note, if_true, List.mem_insert_iff, true_and]
    exact or_comm

theorem Selection.note_nodup {entryId : String} (h : s.referenceIds.Nodup) :
    (s.note viaReference entryId).referenceIds.Nodup := by
  cases viaReference with
  | false => exact h
  | true => exact h.insert

/-- An entry that is selected already. -/
theorem Added.note {entryId : String} (h : entryId ∈ s.selected) :
    Added profile byPlatform entries viaReference [entryId] s (s.note viaReference entryId) := by
  constructor
  · simp
  · intro a ha
    rw [List.mem_singleton.mp ha, Selection.note_selected]
    exact h
  · intro a ha hnew
    rw [Selection.note_selected] at ha
    exact absurd ha hnew
  · intro a ha hnew
    rw [Selection.note_selected] at ha
    exact absurd ha hnew
  · intro a ha hnew
    rw [Selection.note_selected] at ha
    exact absurd ha hnew
  · intro b
    have hnone : ¬ ∃ a ∈ (s.note viaReference entryId).selected, a ∉ s.selected ∧
        b ∈ referencesIn entries a := by
      rintro ⟨a, ha, hnew, -⟩
      rw [Selection.note_selected] at ha
      exact hnew ha
    rw [Selection.mem_note, List.mem_singleton, or_iff_left hnone]
  · intro hs
    rwa [Selection.note_selected]
  · exact Selection.note_nodup

/-- An entry that is new, after its dependencies and its references. -/
theorem Added.entry {entryId : String} {entry : CatalogEntry} {t t' : Selection}
    (hnew : entryId ∉ s.selected) (hadmitted : Admitted profile byPlatform entries entryId)
    (hat : entryAt entries entryId = some entry)
    (hdependencies : Added profile byPlatform entries false entry.dependencies
      (Selection.note viaReference entryId { s with selected := entryId :: s.selected }) t)
    (hreferences : Added profile byPlatform entries true entry.references t t') :
    Added profile byPlatform entries viaReference [entryId] s t' := by
  have hstart : (Selection.note viaReference entryId
      { s with selected := entryId :: s.selected }).selected = entryId :: s.selected :=
    Selection.note_selected entryId
  have hgrows : ∀ a ∈ entryId :: s.selected, a ∈ t.selected := by
    rw [← hstart]
    exact hdependencies.grows
  have hout : ∀ a ∉ entryId :: s.selected, a ∉ (Selection.note viaReference entryId
      { s with selected := entryId :: s.selected }).selected := by
    rw [hstart]
    exact fun a ha => ha
  have hstep : ∀ b, b ∈ entry.dependencies ∨ b ∈ entry.references →
      b ∈ prerequisites entries entryId := fun b hb => (mem_prerequisites hat).mpr hb
  -- a selected entry is the new one, or one of its dependencies or references brought it
  have hcases : ∀ a ∈ t'.selected, a ∉ s.selected → a = entryId ∨
      (a ∈ t.selected ∧ a ∉ entryId :: s.selected) ∨ a ∉ t.selected := by
    intro a ha hs
    by_cases heq : a = entryId
    · exact Or.inl heq
    · by_cases hmid : a ∈ t.selected
      · exact Or.inr (Or.inl ⟨hmid, by simp [heq, hs]⟩)
      · exact Or.inr (Or.inr hmid)
  constructor
  · exact fun a ha => hreferences.grows a (hgrows a (List.mem_cons_of_mem _ ha))
  · intro a ha
    rw [List.mem_singleton.mp ha]
    exact hreferences.grows _ (hgrows _ List.mem_cons_self)
  · intro a ha hs
    rcases hcases a ha hs with rfl | ⟨hmid, hold⟩ | hmid
    · exact hadmitted
    · exact hdependencies.admitted a hmid (hout a hold)
    · exact hreferences.admitted a ha hmid
  · intro a ha hs
    refine ⟨entryId, List.mem_singleton_self _, ?_⟩
    rcases hcases a ha hs with rfl | ⟨hmid, hold⟩ | hmid
    · exact .refl
    · obtain ⟨b, hb, hreach⟩ := hdependencies.reached a hmid (hout a hold)
      exact .head (hstep b (Or.inl hb)) hreach
    · obtain ⟨b, hb, hreach⟩ := hreferences.reached a ha hmid
      exact .head (hstep b (Or.inr hb)) hreach
  · intro a ha hs b hb
    rcases hcases a ha hs with rfl | ⟨hmid, hold⟩ | hmid
    · rcases (mem_prerequisites hat).mp hb with hb | hb
      · exact hreferences.grows b (hdependencies.added b hb)
      · exact hreferences.added b hb
    · exact hreferences.grows b (hdependencies.closed a hmid (hout a hold) b hb)
    · exact hreferences.closed a ha hmid b hb
  · intro b
    rw [hreferences.references, hdependencies.references, Selection.mem_note, List.mem_singleton,
      hstart]
    have hown : referencesIn entries entryId = entry.references := by
      rw [referencesIn, hat]
      rfl
    constructor
    · rintro ((((hb | hb) | ⟨hfalse, -⟩ | ⟨a, ha, hold, hb⟩)) | ⟨-, hb⟩ | ⟨a, ha, hold, hb⟩)
      · exact Or.inl hb
      · exact Or.inr (Or.inl hb)
      · cases hfalse
      · exact Or.inr (Or.inr ⟨a, hreferences.grows a ha,
          fun hs => hold (List.mem_cons_of_mem _ hs), hb⟩)
      · refine Or.inr (Or.inr ⟨entryId, ?_, hnew, hown ▸ hb⟩)
        exact hreferences.grows _ (hgrows _ List.mem_cons_self)
      · exact Or.inr (Or.inr ⟨a, ha,
          fun hs => hold (hgrows a (List.mem_cons_of_mem _ hs)), hb⟩)
    · rintro (hb | hb | ⟨a, ha, hs, hb⟩)
      · exact Or.inl (Or.inl (Or.inl hb))
      · exact Or.inl (Or.inl (Or.inr hb))
      · rcases hcases a ha hs with rfl | ⟨hmid, hold⟩ | hmid
        · exact Or.inr (Or.inl ⟨rfl, hown ▸ hb⟩)
        · exact Or.inl (Or.inr (Or.inr ⟨a, hmid, hold, hb⟩))
        · exact Or.inr (Or.inr ⟨a, ha, hmid, hb⟩)
  · intro hs
    apply hreferences.nodup
    apply hdependencies.nodup
    rw [hstart]
    exact List.nodup_cons.mpr ⟨hnew, hs⟩
  · exact fun hs => hreferences.referencesNodup
      (hdependencies.referencesNodup (Selection.note_nodup hs))

theorem foldlM_added {fuel : ℕ} {viaReference : Bool} {ids : List String}
    (h : ids.foldlM (addEntry profile byPlatform entries fuel viaReference) s = .ok s') :
    Added profile byPlatform entries viaReference ids s s' := by
  induction fuel generalizing viaReference ids s s' with
  | zero =>
    cases ids with
    | nil =>
      cases h
      exact .nil
    | cons id ids => cases h
  | succ fuel ih =>
    induction ids generalizing s with
    | nil =>
      cases h
      exact .nil
    | cons id ids ihids =>
      rw [List.foldlM_cons] at h
      obtain ⟨t, ht, h⟩ := bind_eq_ok h
      refine Added.cons ?_ (ihids h)
      rw [addEntry] at ht
      split at ht
      next hold =>
        cases ht
        exact .note hold
      next hnew =>
        obtain ⟨_, henabled, ht⟩ := bind_eq_ok ht
        obtain ⟨entry, hat, ht⟩ := bind_eq_ok ht
        obtain ⟨_, hsupported, ht⟩ := bind_eq_ok ht
        obtain ⟨u, hu, ht⟩ := bind_eq_ok ht
        have hat := require_eq_ok.mp hat
        exact .entry hnew ⟨of_decide_eq_true (check_eq_ok.mp henabled), entry, hat,
          check_eq_ok.mp hsupported⟩ hat (ih hu) (ih ht)

/-- The entries that are not selected. -/
def unselected (entries : List CatalogEntry) (s : Selection) : List String :=
  (entries.map (·.entryId)).filter (· ∉ s.selected)

variable (entries) in
theorem unselected_le (h : ∀ a ∈ s.selected, a ∈ s'.selected) :
    (unselected entries s').length ≤ (unselected entries s).length :=
  (List.monotone_filter_right _ fun a ha => by
    simp only [decide_eq_true_eq] at ha ⊢
    exact fun hs => ha (h a hs)).length_le

theorem unselected_lt {entryId : String} (hentry : entryId ∈ entries.map (·.entryId))
    (hnew : entryId ∉ s.selected) (h : ∀ a ∈ entryId :: s.selected, a ∈ s'.selected) :
    (unselected entries s').length < (unselected entries s).length := by
  have hsub : (unselected entries s').Sublist (unselected entries s) :=
    List.monotone_filter_right _ fun a ha => by
      simp only [decide_eq_true_eq] at ha ⊢
      exact fun hs => ha (h a (List.mem_cons_of_mem _ hs))
  refine lt_of_le_of_ne hsub.length_le fun hlength => ?_
  have hmem : entryId ∈ unselected entries s :=
    List.mem_filter.mpr ⟨hentry, decide_eq_true hnew⟩
  rw [← hsub.eq_of_length hlength] at hmem
  exact of_decide_eq_true (List.mem_filter.mp hmem).2 (h entryId List.mem_cons_self)

theorem mem_of_entryAt {entryId : String} {entry : CatalogEntry}
    (h : entryAt entries entryId = some entry) : entryId ∈ entries.map (·.entryId) := by
  have hid := List.find?_some h
  exact List.mem_map.mpr ⟨entry, List.mem_of_find?_eq_some h, of_decide_eq_true hid⟩

/-- With fuel for every entry, adding succeeds when all that can be reached is admitted. -/
theorem foldlM_ok {fuel : ℕ} (viaReference : Bool) {ids : List String}
    (hfuel : (unselected entries s).length < fuel)
    (hall : ∀ id ∈ ids, ∀ a, Reaches (prerequisites entries) id a →
      Admitted profile byPlatform entries a) :
    ∃ s', ids.foldlM (addEntry profile byPlatform entries fuel viaReference) s = .ok s' := by
  induction fuel generalizing viaReference ids s with
  | zero => omega
  | succ fuel ih =>
    induction ids generalizing s with
    | nil => exact ⟨s, rfl⟩
    | cons id ids ihids =>
      rw [List.forall_mem_cons] at hall
      have hfirst : ∃ t, addEntry profile byPlatform entries (fuel + 1) viaReference s id = .ok t ∧
          ∀ a ∈ s.selected, a ∈ t.selected := by
        rw [addEntry]
        split
        next => exact ⟨_, rfl, by simp⟩
        next hnew =>
          obtain ⟨henabled, entry, hat, hsupported⟩ := hall.1 id .refl
          have hprerequisite : ∀ b, b ∈ entry.dependencies ∨ b ∈ entry.references → ∀ a,
              Reaches (prerequisites entries) b a → Admitted profile byPlatform entries a :=
            fun b hb a hreach => hall.1 a (.head ((mem_prerequisites hat).mpr hb) hreach)
          have hstart : ∀ a ∈ id :: s.selected, a ∈ (Selection.note viaReference id
              { s with selected := id :: s.selected }).selected := by
            rw [Selection.note_selected]
            exact fun a ha => ha
          have hlt := (unselected_lt (mem_of_entryAt hat) hnew hstart).trans_le
            (Nat.le_of_lt_succ hfuel)
          have hstart' := fun a ha => hstart a (List.mem_cons_of_mem _ ha)
          obtain ⟨t, ht⟩ := ih false hlt fun b hb => hprerequisite b (Or.inl hb)
          have hgrows := (foldlM_added ht).grows
          have hle := unselected_le entries hgrows
          obtain ⟨u, hu⟩ := ih true (hle.trans_lt hlt) fun b hb => hprerequisite b (Or.inr hb)
          refine ⟨u, ?_, fun a ha => (foldlM_added hu).grows a (hgrows a (hstart' a ha))⟩
          simp only [check, henabled, not_false_eq_true, decide_true, if_true, hat, require,
            hsupported, bind_ok_eq]
          rw [ht, bind_ok_eq, hu]
      obtain ⟨t, ht, hgrows⟩ := hfirst
      have hle := unselected_le entries hgrows
      obtain ⟨u, hu⟩ := ihids (hle.trans_lt hfuel) hall.2
      refine ⟨u, ?_⟩
      rw [List.foldlM_cons, ht, bind_ok_eq, hu]

/-! ### The selection and its order -/

/-- The least set with the seeds that is closed under dependencies and references. -/
def leastClosure (profile : ResolvedProfile) (entries : List CatalogEntry) : Set String :=
  reached (prerequisites entries) (closureSeeds profile entries)

/-- What a selection must satisfy. -/
structure Selectable (profile : ResolvedProfile) (byPlatform : PlatformCapabilities)
    (entries : List CatalogEntry) (S : Set String) : Prop where
  admitted : ∀ a ∈ S, Admitted profile byPlatform entries a
  apart : ∀ a ∈ S, ∀ entry, entryAt entries a = some entry → ∀ b ∈ entry.conflicts, b ∉ S
  acyclic : ∀ a ∈ S, ¬ Relation.TransGen (fun a b => b ∈ prerequisites entries a) a a

def selectEntries (profile : ResolvedProfile) (byPlatform : PlatformCapabilities)
    (entries : List CatalogEntry) : Except Failure Selection :=
  (closureSeeds profile entries).foldlM
    (addEntry profile byPlatform entries (entries.length + 1) false) ⟨[], []⟩

structure Selects (profile : ResolvedProfile) (byPlatform : PlatformCapabilities)
    (entries : List CatalogEntry) (s : Selection) : Prop where
  mem : ∀ a, a ∈ s.selected ↔ a ∈ leastClosure profile entries
  admitted : ∀ a ∈ leastClosure profile entries, Admitted profile byPlatform entries a
  references : ∀ b, b ∈ s.referenceIds ↔
    ∃ a ∈ leastClosure profile entries, b ∈ referencesIn entries a
  nodup : s.selected.Nodup

theorem selectEntries_selects (h : selectEntries profile byPlatform entries = .ok s) :
    Selects profile byPlatform entries s := by
  have hadded := foldlM_added h
  have hmem : ∀ a, a ∈ s.selected ↔ a ∈ leastClosure profile entries := by
    intro a
    constructor
    · intro ha
      obtain ⟨b, hb, hreach⟩ := hadded.reached a ha List.not_mem_nil
      exact ⟨b, hb, hreach⟩
    · rintro ⟨b, hb, hreach⟩
      induction hreach with
      | refl => exact hadded.added b hb
      | tail _ hstep ih => exact hadded.closed _ ih List.not_mem_nil _ hstep
  constructor
  · exact hmem
  · exact fun a ha => hadded.admitted a ((hmem a).mpr ha) List.not_mem_nil
  · intro b
    rw [hadded.references]
    simp [hmem]
  · exact hadded.nodup List.nodup_nil

theorem selectEntries_ok
    (h : ∀ a ∈ leastClosure profile entries, Admitted profile byPlatform entries a) :
    ∃ s, selectEntries profile byPlatform entries = .ok s := by
  refine foldlM_ok false ?_ fun b hb a hreach => h a ⟨b, hb, hreach⟩
  have hlength := List.length_filter_le (fun a => decide (a ∉ ([] : List String)))
    (entries.map (·.entryId))
  rw [List.length_map] at hlength
  exact Nat.lt_succ_of_le hlength

theorem checkConflicts_eq_ok {selected : List String} {entryId : String} :
    checkConflicts entries selected entryId = .ok () ↔
      ∀ entry, entryAt entries entryId = some entry → ∀ b ∈ entry.conflicts, b ∉ selected := by
  rw [checkConflicts, check_eq_ok, decide_eq_true_eq, List.filter_eq_nil_iff]
  cases entryAt entries entryId with
  | none => simp
  | some entry => simp

variable (entries) in
theorem prerequisites_nodup (entryId : String) : (prerequisites entries entryId).Nodup := by
  rw [prerequisites]
  cases entryAt entries entryId with
  | none => exact List.nodup_nil
  | some entry => exact List.nodup_dedup _

theorem stableTopologicalOrder_eq_ok {selected ordered : List String} (hnodup : selected.Nodup)
    (hclosed : ∀ a ∈ selected, ∀ b ∈ prerequisites entries a, b ∈ selected) :
    stableTopologicalOrder selected entries = .ok ordered ↔
      Acyclic selected (prerequisites entries) ∧
        ordered = order selected (prerequisites entries) (· ≤ ·) := by
  have hlength := order_length_iff (· ≤ ·) hnodup
    (fun a _ => prerequisites_nodup entries a) hclosed
  have hselected : (selected.forM fun entryId =>
      (prerequisites entries entryId).forM (checkPrerequisite selected entryId)) = .ok () := by
    refine forM_ok fun a ha => forM_ok fun b hb => ?_
    exact check_eq_ok.mpr (decide_eq_true (hclosed a ha b hb))
  rw [stableTopologicalOrder, hselected, bind_ok_eq, ← hlength]
  constructor
  · intro h
    obtain ⟨_, hall, h⟩ := bind_eq_ok h
    cases h
    exact ⟨of_decide_eq_true (check_eq_ok.mp hall), rfl⟩
  · rintro ⟨hall, rfl⟩
    simp only [check, hall, decide_true, if_true, bind_ok_eq]
    rfl

/-- The closure that is returned for a selection. -/
def closureOf (entries : List CatalogEntry) (s : Selection) : CatalogClosure where
  orderedIds := order (sortStrings s.selected) (prerequisites entries) (· ≤ ·)
  referenceIds := sortStrings s.referenceIds
  discoverableIds := (((sortStrings s.selected).filterMap (entryAt entries)).filter
    (·.discoverable)).map (·.entryId)
  entries := (sortStrings s.selected).filterMap (entryAt entries)

theorem Selects.ordered (h : Selects profile byPlatform entries s) {ordered : List String} :
    stableTopologicalOrder (sortStrings s.selected) entries = .ok ordered ↔
      (∀ a ∈ leastClosure profile entries,
        ¬ Relation.TransGen (fun a b => b ∈ prerequisites entries a) a a) ∧
      ordered = (closureOf entries s).orderedIds := by
  have hmem : ∀ a, a ∈ sortStrings s.selected ↔ a ∈ leastClosure profile entries := by
    intro a
    rw [mem_sortStrings, h.mem]
  have hclosed : ∀ a ∈ sortStrings s.selected, ∀ b ∈ prerequisites entries a,
      b ∈ sortStrings s.selected := by
    intro a ha b hb
    rw [hmem] at ha ⊢
    exact (isLeast_reached (prerequisites entries) (closureSeeds profile entries)).1.2 a ha b hb
  rw [stableTopologicalOrder_eq_ok (sortStrings_nodup h.nodup) hclosed, Acyclic]
  simp only [hmem]
  rfl

theorem resolveCatalogClosure_eq_ok {nfc : String → String} {document : Members}
    {manifests : List Members} {closure : CatalogClosure} :
    resolveCatalogClosure nfc profile document manifests = .ok closure ↔
      ∃ results byPlatform entries s, evaluateCapabilities profile manifests = .ok results ∧
        parseManifests manifests = .ok byPlatform ∧ parseCatalog nfc document = .ok entries ∧
        selectEntries profile byPlatform entries = .ok s ∧
        Selectable profile byPlatform entries (leastClosure profile entries) ∧
        closure = closureOf entries s := by
  constructor
  · intro h
    obtain ⟨results, hresults, h⟩ := bind_eq_ok h
    obtain ⟨byPlatform, hplatforms, h⟩ := bind_eq_ok h
    obtain ⟨entries, hentries, h⟩ := bind_eq_ok h
    obtain ⟨s, hs, h⟩ := bind_eq_ok h
    obtain ⟨_, hconflicts, h⟩ := bind_eq_ok h
    obtain ⟨ordered, hordered, h⟩ := bind_eq_ok h
    cases h
    have hselects := selectEntries_selects hs
    obtain ⟨hacyclic, rfl⟩ := hselects.ordered.mp hordered
    refine ⟨results, byPlatform, entries, s, hresults, hplatforms, hentries, hs,
      ⟨hselects.admitted, fun a ha entry hat b hb hmem => ?_, hacyclic⟩, rfl⟩
    have ha := mem_sortStrings.mpr ((hselects.mem a).mpr ha)
    have hb' := mem_sortStrings.mpr ((hselects.mem b).mpr hmem)
    exact checkConflicts_eq_ok.mp (forM_eq_ok hconflicts a ha) entry hat b hb hb'
  · rintro ⟨results, byPlatform, entries, s, hresults, hplatforms, hentries, hs, hS, rfl⟩
    have hselects := selectEntries_selects hs
    have hordered := hselects.ordered.mpr ⟨hS.acyclic, rfl⟩
    have hconflicts : (sortStrings s.selected).forM
        (checkConflicts entries (sortStrings s.selected)) = .ok () := by
      refine forM_ok fun a ha => checkConflicts_eq_ok.mpr fun entry hat b hb hmem => ?_
      rw [mem_sortStrings, hselects.mem] at ha hmem
      exact hS.apart a ha entry hat b hb hmem
    unfold selectEntries at hs
    rw [resolveCatalogClosure, hresults, bind_ok_eq, hplatforms, bind_ok_eq, hentries, bind_ok_eq,
      hs, bind_ok_eq]
    simp only
    rw [hconflicts, bind_ok_eq, hordered]
    rfl

/-! ### The order of the entries -/

theorem entryAt_perm (hperm : entries.Perm entries') (h : (entries.map (·.entryId)).Nodup) :
    entryAt entries' = entryAt entries := by
  have h' := (hperm.map (·.entryId)).nodup_iff.mp h
  funext entryId
  cases hat : entryAt entries entryId with
  | none =>
    cases hat' : entryAt entries' entryId with
    | none => rfl
    | some entry =>
      obtain ⟨hmem, hid⟩ := (entryAt_eq_some h').mp hat'
      rw [(entryAt_eq_some h).mpr ⟨hperm.mem_iff.mpr hmem, hid⟩] at hat
      cases hat
  | some entry =>
    obtain ⟨hmem, hid⟩ := (entryAt_eq_some h).mp hat
    exact (entryAt_eq_some h').mpr ⟨hperm.mem_iff.mp hmem, hid⟩

theorem addEntry_congr (h : entryAt entries' = entryAt entries) (fuel : ℕ) :
    addEntry profile byPlatform entries' fuel = addEntry profile byPlatform entries fuel := by
  induction fuel with
  | zero => rfl
  | succ fuel ih =>
    funext viaReference s entryId
    rw [addEntry, addEntry, h, ih]

theorem closureSeeds_perm (hperm : entries.Perm entries') :
    closureSeeds profile entries' = closureSeeds profile entries := by
  have hseeds : ∀ a, a ∈ (profile.skillsEnable ++ (entries'.filter (·.mandatory)).map (·.entryId) ++
        (profile.defaultPlatforms.map ("platform:" ++ ·)).filter
          (· ∈ entries'.map (·.entryId))).dedup ↔
      a ∈ (profile.skillsEnable ++ (entries.filter (·.mandatory)).map (·.entryId) ++
        (profile.defaultPlatforms.map ("platform:" ++ ·)).filter
          (· ∈ entries.map (·.entryId))).dedup := by
    intro a
    simp only [List.mem_dedup, List.mem_append, List.mem_map, List.mem_filter, decide_eq_true_eq,
      hperm.mem_iff]
  rw [closureSeeds, closureSeeds]
  exact List.Perm.eq_of_pairwise' (List.pairwise_insertionSort _ _)
    (List.pairwise_insertionSort _ _) ((List.perm_insertionSort _ _).trans
      (((List.perm_ext_iff_of_nodup (List.nodup_dedup _) (List.nodup_dedup _)).mpr hseeds).trans
        (List.perm_insertionSort _ _).symm))

section Parse

variable {nfc : String → String} {document document' : Members} {manifests : List Members}

theorem entryContent_id {members : Members} {identity : String × String} {entry : CatalogEntry}
    (h : entryContent nfc members identity = .ok entry) : entry.entryId = identity.1 := by
  obtain ⟨_, -, h⟩ := bind_eq_ok h
  obtain ⟨_, -, h⟩ := bind_eq_ok h
  obtain ⟨_, -, h⟩ := bind_eq_ok h
  obtain ⟨_, -, h⟩ := bind_eq_ok h
  obtain ⟨_, -, h⟩ := bind_eq_ok h
  obtain ⟨_, -, h⟩ := bind_eq_ok h
  obtain ⟨_, -, h⟩ := bind_eq_ok h
  cases h
  rfl

/-- What was seen before decides only whether the id is new. -/
theorem catalogEntry_eq_ok (seen : List String) (raw : JsonValue) (entry : CatalogEntry) :
    catalogEntry nfc seen raw = .ok entry ↔
      catalogEntry nfc [] raw = .ok entry ∧ entry.entryId ∉ seen := by
  constructor
  · intro h
    obtain ⟨members, hmembers, h⟩ := bind_eq_ok h
    obtain ⟨identity, hidentity, h⟩ := bind_eq_ok h
    obtain ⟨_, hseen, h⟩ := bind_eq_ok h
    constructor
    · rw [catalogEntry, hmembers, bind_ok_eq, hidentity, bind_ok_eq]
      exact h
    · rw [entryContent_id h]
      exact of_decide_eq_true (check_eq_ok.mp hseen)
  · rintro ⟨h, hnew⟩
    obtain ⟨members, hmembers, h⟩ := bind_eq_ok h
    obtain ⟨identity, hidentity, h⟩ := bind_eq_ok h
    obtain ⟨_, -, h⟩ := bind_eq_ok h
    rw [entryContent_id h] at hnew
    have hcheck : check (decide (identity.1 ∉ seen)) (catalogFailure
        "duplicate catalog entry id" [("entry_id", identity.1)]) = .ok () :=
      check_eq_ok.mpr (decide_eq_true hnew)
    rw [catalogEntry, hmembers, bind_ok_eq, hidentity, bind_ok_eq, hcheck, bind_ok_eq, h]

theorem parseCatalog_eq_ok : parseCatalog nfc document = .ok entries ↔
    (∀ k, hasKey document k = true → k ∈ catalogFields) ∧
      (isString (getField document "schema_id") "agent-workflow.catalog" &&
        isOne (getField document "schema_version")) = true ∧
      ∃ raws, getField document "entries" = .array raws ∧
        seenM (catalogEntry nfc) (·.entryId) [] raws = .ok entries := by
  have hfields : unknownFields document catalogFields = [] ↔
      ∀ k, hasKey document k = true → k ∈ catalogFields := by
    rw [unknownFields, ← List.length_eq_zero_iff, sortStrings, List.length_insertionSort,
      List.length_eq_zero_iff, List.filter_eq_nil_iff]
    simp only [hasKey, lookup_isSome_iff_mem, decide_eq_true_eq, not_not]
  constructor
  · intro h
    unfold parseCatalog at h
    obtain ⟨_, hunknown, h⟩ := bind_eq_ok h
    obtain ⟨_, hschema, h⟩ := bind_eq_ok h
    obtain ⟨raws, hraws, h⟩ := bind_eq_ok h
    exact ⟨hfields.mp (of_decide_eq_true (check_eq_ok.mp hunknown)), check_eq_ok.mp hschema, raws,
      items?_eq_some.mp (require_eq_ok.mp hraws), h⟩
  · rintro ⟨hknown, hschema, raws, hraws, h⟩
    rw [parseCatalog, hschema, hraws]
    simp only [check, hfields.mpr hknown, decide_true, if_true, bind_ok_eq, items?, require, h]

theorem parseCatalog_reordered (h : FieldsReordered ["entries"] document document')
    (hentries : parseCatalog nfc document = .ok entries) :
    ∃ entries', parseCatalog nfc document' = .ok entries' ∧ entries.Perm entries' ∧
      (entries.map (·.entryId)).Nodup := by
  obtain ⟨hknown, hschema, raws, hraws, hall⟩ := parseCatalog_eq_ok.mp hentries
  obtain ⟨xs, ys, hxs, hys, hperm⟩ := h.array "entries" (by simp)
  rw [hraws] at hxs
  cases hxs
  obtain ⟨entries', hall', hsame⟩ := seenM_perm catalogEntry_eq_ok hperm hall
  refine ⟨entries', parseCatalog_eq_ok.mpr ⟨?_, ?_, ys, hys, hall'⟩, hsame, ?_⟩
  · intro k hk
    rw [h.hasKey] at hk
    exact hknown k hk
  · rw [h.get (by decide), h.get (by decide)]
    exact hschema
  · exact ((seenM_eq_ok catalogEntry_eq_ok).mp hall).2.1

theorem FieldsReordered.symm {keys : List String} (h : FieldsReordered keys document document') :
    FieldsReordered keys document' document := by
  constructor
  · exact fun k hk => (h.other k hk).symm
  · intro k hk
    obtain ⟨xs, ys, hxs, hys, hperm⟩ := h.array k hk
    exact ⟨ys, xs, hys, hxs, hperm.symm⟩

theorem resolveCatalogClosure_reordered (h : FieldsReordered ["entries"] document document')
    {closure : CatalogClosure}
    (hclosure : resolveCatalogClosure nfc profile document manifests = .ok closure) :
    resolveCatalogClosure nfc profile document' manifests = .ok closure := by
  obtain ⟨results, byPlatform, entries, s, hresults, hplatforms, hentries, hs, hS, rfl⟩ :=
    resolveCatalogClosure_eq_ok.mp hclosure
  obtain ⟨entries', hentries', hperm, hnodup⟩ := parseCatalog_reordered h hentries
  have hat := entryAt_perm hperm hnodup
  have hprerequisites : prerequisites entries' = prerequisites entries := by
    funext entryId
    rw [prerequisites, prerequisites, hat]
  have hleast : leastClosure profile entries' = leastClosure profile entries := by
    rw [leastClosure, leastClosure, hprerequisites, closureSeeds_perm hperm]
  refine resolveCatalogClosure_eq_ok.mpr ⟨results, byPlatform, entries', s, hresults, hplatforms,
    hentries', ?_, ?_, ?_⟩
  · rw [selectEntries, closureSeeds_perm hperm, addEntry_congr hat, ← hperm.length_eq]
    exact hs
  · rw [hleast]
    constructor
    · intro a ha
      rw [Admitted, hat]
      exact hS.admitted a ha
    · rw [hat]
      exact hS.apart
    · rw [hprerequisites]
      exact hS.acyclic
  · rw [closureOf, closureOf, hprerequisites, hat]

theorem mem_closureOf (hnodup : (entries.map (·.entryId)).Nodup)
    (h : Selects profile byPlatform entries s) {entry : CatalogEntry} :
    entry ∈ (closureOf entries s).entries ↔
      entry ∈ entries ∧ entry.entryId ∈ leastClosure profile entries := by
  rw [closureOf]
  simp only [List.mem_filterMap, mem_sortStrings, h.mem]
  constructor
  · rintro ⟨a, ha, hat⟩
    obtain ⟨hmem, rfl⟩ := (entryAt_eq_some hnodup).mp hat
    exact ⟨hmem, ha⟩
  · rintro ⟨hmem, ha⟩
    exact ⟨_, ha, (entryAt_eq_some hnodup).mpr ⟨hmem, rfl⟩⟩

theorem Selects.orderedIds (h : Selects profile byPlatform entries s)
    (hS : Selectable profile byPlatform entries (leastClosure profile entries)) :
    (closureOf entries s).orderedIds.Nodup ∧
      Ordered (prerequisites entries) (closureOf entries s).orderedIds ∧
      ∀ a, a ∈ (closureOf entries s).orderedIds ↔ a ∈ leastClosure profile entries := by
  have hmem : ∀ a, a ∈ sortStrings s.selected ↔ a ∈ leastClosure profile entries := by
    intro a
    rw [mem_sortStrings, h.mem]
  have hnodup := sortStrings_nodup h.nodup
  obtain ⟨honce, hsub, hordered, hcomplete⟩ := order_spec (· ≤ ·) hnodup
    fun a _ => prerequisites_nodup entries a
  refine ⟨honce, hordered, fun a => ⟨fun ha => (hmem a).mp (hsub a ha), fun ha => ?_⟩⟩
  have hclosed : ∀ a ∈ sortStrings s.selected, ∀ b ∈ prerequisites entries a,
      b ∈ sortStrings s.selected := by
    intro a ha b hb
    rw [hmem] at ha ⊢
    exact (isLeast_reached (prerequisites entries) (closureSeeds profile entries)).1.2 a ha b hb
  have hacyclic : Acyclic (sortStrings s.selected) (prerequisites entries) := by
    intro a ha
    exact hS.acyclic a ((hmem a).mp ha)
  exact hacyclic.induction hclosed hcomplete a ((hmem a).mpr ha)

/-- A closure is the least one, in order, and there is one whenever the least can be selected. -/
theorem catalog_closure_exact (nfc : String → String) (profile : ResolvedProfile)
    (document : Members) (manifests : List Members) :
    (∀ closure, resolveCatalogClosure nfc profile document manifests = .ok closure →
      ∃ entries, parseCatalog nfc document = .ok entries ∧
        IsLeast {S | (∀ seed ∈ closureSeeds profile entries, seed ∈ S) ∧
          ClosedUnder (prerequisites entries) S} {a | a ∈ closure.orderedIds} ∧
        (∀ entry, entry ∈ closure.entries ↔
          entry ∈ entries ∧ entry.entryId ∈ closure.orderedIds) ∧
        (∀ a ∈ closure.orderedIds, a ∉ profile.skillsDisable) ∧
        (∀ entry ∈ closure.entries, ∀ b ∈ entry.conflicts, b ∉ closure.orderedIds) ∧
        (∀ b, b ∈ closure.referenceIds ↔ ∃ entry ∈ closure.entries, b ∈ entry.references) ∧
        closure.orderedIds.Nodup ∧
        Ordered (prerequisites entries) closure.orderedIds) ∧
      (∀ results byPlatform entries S, evaluateCapabilities profile manifests = .ok results →
        parseManifests manifests = .ok byPlatform → parseCatalog nfc document = .ok entries →
        IsLeast {S | (∀ seed ∈ closureSeeds profile entries, seed ∈ S) ∧
          ClosedUnder (prerequisites entries) S} S → Selectable profile byPlatform entries S →
        ∃ closure, resolveCatalogClosure nfc profile document manifests = .ok closure) ∧
      ∀ document', FieldsReordered ["entries"] document document' →
        ∀ closure, resolveCatalogClosure nfc profile document' manifests = .ok closure ↔
          resolveCatalogClosure nfc profile document manifests = .ok closure := by
  refine ⟨?_, ?_, ?_⟩
  · intro closure h
    obtain ⟨results, byPlatform, entries, s, -, -, hentries, hs, hS, rfl⟩ :=
      resolveCatalogClosure_eq_ok.mp h
    have hselects := selectEntries_selects hs
    have hnodup : (entries.map (·.entryId)).Nodup := by
      obtain ⟨-, -, raws, -, hall⟩ := parseCatalog_eq_ok.mp hentries
      exact ((seenM_eq_ok catalogEntry_eq_ok).mp hall).2.1
    obtain ⟨honce, hordered, hmem⟩ := hselects.orderedIds hS
    have hset : {a | a ∈ (closureOf entries s).orderedIds} = leastClosure profile entries :=
      Set.ext hmem
    have hat : ∀ a entry, entryAt entries a = some entry → a ∈ leastClosure profile entries →
        entry ∈ (closureOf entries s).entries := by
      intro a entry hat ha
      obtain ⟨hentry, rfl⟩ := (entryAt_eq_some hnodup).mp hat
      exact (mem_closureOf hnodup hselects).mpr ⟨hentry, ha⟩
    refine ⟨entries, hentries, ?_, ?_, ?_, ?_, ?_, honce, hordered⟩
    · rw [hset]
      exact isLeast_reached _ _
    · intro entry
      rw [mem_closureOf hnodup hselects, hmem]
    · intro a ha
      exact (hS.admitted a ((hmem a).mp ha)).1
    · intro entry hentry b hb hmem'
      obtain ⟨hentry, ha⟩ := (mem_closureOf hnodup hselects).mp hentry
      exact hS.apart _ ha entry ((entryAt_eq_some hnodup).mpr ⟨hentry, rfl⟩) b hb
        ((hmem b).mp hmem')
    · intro b
      have hreferences : b ∈ (closureOf entries s).referenceIds ↔
          ∃ a ∈ leastClosure profile entries, b ∈ referencesIn entries a := by
        rw [closureOf, mem_sortStrings, hselects.references]
      rw [hreferences]
      constructor
      · rintro ⟨a, ha, hb⟩
        obtain ⟨-, entry, hentry, -⟩ := hS.admitted a ha
        rw [referencesIn, hentry] at hb
        exact ⟨entry, hat a entry hentry ha, hb⟩
      · rintro ⟨entry, hentry, hb⟩
        obtain ⟨hentry, ha⟩ := (mem_closureOf hnodup hselects).mp hentry
        refine ⟨_, ha, ?_⟩
        rw [referencesIn, (entryAt_eq_some hnodup).mpr ⟨hentry, rfl⟩]
        exact hb
  · intro results byPlatform entries S hresults hplatforms hentries hleast hS
    have hsame : S = leastClosure profile entries := hleast.unique (isLeast_reached _ _)
    subst hsame
    obtain ⟨s, hs⟩ := selectEntries_ok hS.admitted
    exact ⟨_, resolveCatalogClosure_eq_ok.mpr ⟨results, byPlatform, entries, s, hresults,
      hplatforms, hentries, hs, hS, rfl⟩⟩
  · intro document' h closure
    exact ⟨resolveCatalogClosure_reordered h.symm, resolveCatalogClosure_reordered h⟩

end Parse

def sampleEntry (kind suffix : String) (dependencies references : List String) : JsonValue :=
  .object [("id", .string (kind ++ ":" ++ suffix)), ("kind", .string kind),
    ("dependencies", texts dependencies), ("references", texts references)]

def sampleCatalog : Members :=
  [("schema_id", .string "agent-workflow.catalog"), ("schema_version", .int 1),
    ("entries", .array [sampleEntry "skill" "review" ["skill:base"] ["skill:style"],
      sampleEntry "platform" "codex" [] [], sampleEntry "skill" "style" ["skill:base"] [],
      sampleEntry "skill" "base" [] [], sampleEntry "skill" "other" [] []])]

def sampleProfile : ResolvedProfile := ⟨["skill:review"], ["skill:other"], ["codex"], []⟩

def sampleClosureIds : List String := ["platform:codex", "skill:base", "skill:style", "skill:review"]

/-- The references and the dependencies of the one enabled skill, and the platform. -/
theorem catalog_closure_exact_sample : ∃ entries, parseCatalog id sampleCatalog = .ok entries ∧
    IsLeast {S | (∀ seed ∈ closureSeeds sampleProfile entries, seed ∈ S) ∧
      ClosedUnder (prerequisites entries) S} {a | a ∈ sampleClosureIds} := by
  have hids : (resolveCatalogClosure id sampleProfile sampleCatalog []).toOption.map
      (·.orderedIds) = some sampleClosureIds := by
    decide
  obtain ⟨closure, hclosure, hordered⟩ := Option.map_eq_some_iff.mp hids
  obtain ⟨hexact, -⟩ := catalog_closure_exact id sampleProfile sampleCatalog []
  obtain ⟨entries, hentries, hleast, -⟩ := hexact closure (eq_ok_of_toOption hclosure)
  rw [hordered] at hleast
  exact ⟨entries, hentries, hleast⟩

end AgentStack.Core
