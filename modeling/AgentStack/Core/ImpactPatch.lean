import AgentStack.Core.Impact
import AgentStack.Core.SurfaceDigests
import AgentStack.KeyedList.Patch

/-! The reported changes as a patch from the current vectors to the candidate's. -/
namespace AgentStack.Core

open JsonText JsonValue KeyedList

variable {current observed candidate : Digests} {authorityChanges : List AuthorityChange}
  {surfaceChanges : List SurfaceChange}

theorem valueAt_of_not_mem {values : Digests} {identity : String}
    (h : identity ∉ values.map Prod.fst) : valueAt values identity = canonicalNullText := by
  have hnone : values.lookup identity = none := by
    rw [← Option.not_isSome_iff_eq_none, lookup_isSome_iff_mem]
    exact h
  rw [valueAt, hnone]
  rfl

theorem mem_keys_of_valueAt_ne {values values' : Digests} {identity : String}
    (h : valueAt values identity ≠ valueAt values' identity) :
    identity ∈ values.map Prod.fst ∨ identity ∈ values'.map Prod.fst := by
  by_contra hnot
  rw [not_or] at hnot
  exact h ((valueAt_of_not_mem hnot.1).trans (valueAt_of_not_mem hnot.2).symm)

theorem mem_idsOf {vectors : List Digests} {identity : String} :
    identity ∈ idsOf vectors ↔ ∃ vector ∈ vectors, identity ∈ vector.map Prod.fst := by
  rw [idsOf, mem_sortStrings, List.mem_dedup, List.mem_flatMap]

theorem idsOf_sorted (vectors : List Digests) :
    (idsOf vectors).Pairwise (· ≤ ·) ∧ (idsOf vectors).Nodup :=
  ⟨List.pairwise_insertionSort _ _, sortStrings_nodup (List.nodup_dedup _)⟩

/-! ### Authorities -/

theorem authorityIds_sorted : authorityIds.Pairwise (· ≤ ·) ∧ authorityIds.Nodup := by
  decide

theorem authorityMap_known {v : JsonValue} {label : String} {values : Digests}
    (h : authorityMap v label = .ok values) : ∀ id ∈ values.map Prod.fst, id ∈ authorityIds := by
  obtain ⟨raw, -, h⟩ := bind_eq_ok h
  obtain ⟨_, hunknown, h⟩ := bind_eq_ok h
  have hunknown := of_decide_eq_true (check_eq_ok.mp hunknown)
  intro id hid
  obtain ⟨entry, hentry, rfl⟩ := List.mem_map.mp hid
  obtain ⟨m, hm, hfound⟩ := mapM_mem h entry hentry
  obtain ⟨d, -, hfound⟩ := bind_eq_ok hfound
  cases hfound
  by_contra hnot
  have hmem : m.1 ∈ sortStrings ((raw.map Prod.fst).filter (· ∉ authorityIds)) := by
    rw [mem_sortStrings, List.mem_filter]
    exact ⟨List.mem_map_of_mem hm, decide_eq_true hnot⟩
  rw [hunknown] at hmem
  exact List.not_mem_nil hmem

theorem authorityChange?_eq_some {authorityId : String} {change : AuthorityChange} :
    authorityChange? current candidate authorityId = some change ↔
      change = ⟨authorityId, valueAt current authorityId, valueAt candidate authorityId⟩ ∧
        valueAt current authorityId ≠ valueAt candidate authorityId := by
  rw [authorityChange?]
  split
  next hne =>
    simp only [Option.some.injEq]
    exact ⟨fun h => ⟨h.symm, hne⟩, fun h => h.1.symm⟩
  next heq =>
    simp only [reduceCtorEq, false_iff, not_and]
    exact fun _ => heq

theorem mem_authorityChangesOf {change : AuthorityChange} :
    change ∈ authorityChangesOf current candidate ↔ change.authorityId ∈ authorityIds ∧
      change = ⟨change.authorityId, valueAt current change.authorityId,
        valueAt candidate change.authorityId⟩ ∧
      valueAt current change.authorityId ≠ valueAt candidate change.authorityId := by
  rw [authorityChangesOf, List.mem_filterMap]
  simp only [authorityChange?_eq_some]
  constructor
  · rintro ⟨authorityId, hid, rfl, hne⟩
    exact ⟨hid, rfl, hne⟩
  · rintro ⟨hid, heq, hne⟩
    exact ⟨_, hid, heq, hne⟩

theorem authorityChangesOf_sorted :
    ((authorityChangesOf current candidate).map (·.authorityId)).Pairwise (· ≤ ·) ∧
      ((authorityChangesOf current candidate).map (·.authorityId)).Nodup := by
  have hsub : ((authorityChangesOf current candidate).map (·.authorityId)).Sublist authorityIds :=
    filterMap_keys_sublist (fun authorityId change h => by
      rw [(authorityChange?_eq_some.mp h).1]) authorityIds
  exact ⟨authorityIds_sorted.1.sublist hsub, authorityIds_sorted.2.sublist hsub⟩

/-- Every authority that differs is reported. -/
theorem mem_changed_authorities (hcurrent : ∀ id ∈ current.map Prod.fst, id ∈ authorityIds)
    (hcandidate : ∀ id ∈ candidate.map Prod.fst, id ∈ authorityIds) {id : String}
    (hne : valueAt current id ≠ valueAt candidate id) :
    id ∈ (authorityChangesOf current candidate).map (·.authorityId) := by
  have hid : id ∈ authorityIds :=
    (mem_keys_of_valueAt_ne hne).elim (hcurrent id) (hcandidate id)
  exact List.mem_map.mpr ⟨⟨id, valueAt current id, valueAt candidate id⟩,
    mem_authorityChangesOf.mpr ⟨hid, rfl, hne⟩, rfl⟩

/-! ### Surfaces -/

/-- What is reported of the surfaces, by the kind of the operation. -/
structure SurfacesReported (operation : CandidateOperation) (current observed candidate : Digests)
    (changes : List SurfaceChange) : Prop where
  change : ∀ c ∈ changes, c.contractBeforeDigest = valueAt current c.surfaceId ∧
    c.observedBeforeDigest = valueAt observed c.surfaceId ∧
    c.afterDigest = valueAt candidate c.surfaceId ∧
    c.changeKind = if operation = .repair then "repair" else "contract-change"
  contract : operation ≠ .repair → ∀ id,
    id ∈ changes.map (·.surfaceId) ↔ valueAt current id ≠ valueAt candidate id
  repair : operation = .repair → valueAt current = valueAt candidate ∧ changes ≠ [] ∧
    ∀ id, id ∈ changes.map (·.surfaceId) ↔ valueAt observed id ≠ valueAt current id
  sorted : (changes.map (·.surfaceId)).Pairwise (· ≤ ·) ∧ (changes.map (·.surfaceId)).Nodup

/-- The change of one surface that has not drifted. -/
def contractChangeAt (current observed candidate : Digests) (surfaceId : String) :
    Option SurfaceChange :=
  if valueAt candidate surfaceId ≠ valueAt current surfaceId then
    some ⟨surfaceId, "contract-change", valueAt current surfaceId, valueAt observed surfaceId,
      valueAt candidate surfaceId⟩
  else none

theorem contractChangeAt_eq_some {surfaceId : String} {change : SurfaceChange} :
    contractChangeAt current observed candidate surfaceId = some change ↔
      change = ⟨surfaceId, "contract-change", valueAt current surfaceId, valueAt observed surfaceId,
        valueAt candidate surfaceId⟩ ∧
      valueAt candidate surfaceId ≠ valueAt current surfaceId := by
  rw [contractChangeAt]
  split
  next hne =>
    simp only [Option.some.injEq]
    exact ⟨fun h => ⟨h.symm, hne⟩, fun h => h.1.symm⟩
  next heq =>
    simp only [reduceCtorEq, false_iff, not_and]
    exact fun _ => heq

theorem contractChange?_eq_ok {surfaceId : String} {change : Option SurfaceChange}
    (h : contractChange? current observed candidate surfaceId = .ok change) :
    change = contractChangeAt current observed candidate surfaceId := by
  obtain ⟨_, -, h⟩ := bind_eq_ok h
  cases h
  rfl

theorem contractChanges_reported {operation : CandidateOperation} (hop : operation ≠ .repair)
    (h : contractChanges current observed candidate = .ok surfaceChanges) :
    SurfacesReported operation current observed candidate surfaceChanges := by
  obtain ⟨found, hfound, h⟩ := bind_eq_ok h
  cases h
  have hmap := eq_map_of_mapM hfound fun id _ change hchange => contractChange?_eq_ok hchange
  have hsub : (((idsOf [current, candidate, observed]).filterMap
      (contractChangeAt current observed candidate)).map (·.surfaceId)).Sublist
        (idsOf [current, candidate, observed]) :=
    filterMap_keys_sublist (fun id c hc => by rw [(contractChangeAt_eq_some.mp hc).1]) _
  obtain ⟨hsorted, hnodup⟩ := idsOf_sorted [current, candidate, observed]
  rw [hmap, List.filterMap_map, Function.id_comp]
  constructor
  · intro c hc
    obtain ⟨id, -, hid⟩ := List.mem_filterMap.mp hc
    obtain ⟨rfl, -⟩ := contractChangeAt_eq_some.mp hid
    simp [hop]
  · intro _ id
    constructor
    · intro hid
      obtain ⟨c, hc, rfl⟩ := List.mem_map.mp hid
      obtain ⟨id, -, hid⟩ := List.mem_filterMap.mp hc
      obtain ⟨rfl, hne⟩ := contractChangeAt_eq_some.mp hid
      exact hne.symm
    · intro hne
      have hchange : contractChangeAt current observed candidate id = some ⟨id, "contract-change",
          valueAt current id, valueAt observed id, valueAt candidate id⟩ :=
        contractChangeAt_eq_some.mpr ⟨rfl, hne.symm⟩
      refine List.mem_map.mpr ⟨_, List.mem_filterMap.mpr ⟨id, ?_, hchange⟩, rfl⟩
      rw [mem_idsOf]
      rcases mem_keys_of_valueAt_ne hne with hid | hid
      · exact ⟨current, by simp, hid⟩
      · exact ⟨candidate, by simp, hid⟩
  · exact fun hrepair => absurd hrepair hop
  · exact ⟨hsorted.sublist hsub, hnodup.sublist hsub⟩

theorem sameDigests_valueAt (h : sameDigests current candidate = true) :
    valueAt current = valueAt candidate := by
  funext id
  by_contra hne
  rw [sameDigests, List.all_eq_true] at h
  have hmem : id ∈ idsOf [current, candidate] := by
    rw [mem_idsOf]
    rcases mem_keys_of_valueAt_ne hne with hid | hid
    · exact ⟨current, by simp, hid⟩
    · exact ⟨candidate, by simp, hid⟩
  rw [valueAt, valueAt, of_decide_eq_true (h id hmem)] at hne
  exact hne rfl

theorem repairChange_eq_ok {surfaceId : String} {change : SurfaceChange}
    (h : repairChange current observed candidate surfaceId = .ok change) :
    change = ⟨surfaceId, "repair", valueAt current surfaceId, valueAt observed surfaceId,
      valueAt candidate surfaceId⟩ := by
  obtain ⟨before, hbefore, h⟩ := bind_eq_ok h
  obtain ⟨after, hafter, h⟩ := bind_eq_ok h
  cases h
  have hvalue : ∀ values : Digests, ∀ d, values.lookup surfaceId = some d →
      valueAt values surfaceId = d := by
    intro values d hd
    rw [valueAt, hd]
    rfl
  rw [hvalue current before (require_eq_ok.mp hbefore),
    hvalue candidate after (require_eq_ok.mp hafter)]

theorem repairChanges_reported {selected : List String}
    (hselected : selected.Pairwise (· ≤ ·) ∧ selected.Nodup)
    (h : repairChanges current observed candidate selected = .ok surfaceChanges) :
    SurfacesReported .repair current observed candidate surfaceChanges := by
  obtain ⟨_, hsame, h⟩ := bind_eq_ok h
  obtain ⟨_, hne, h⟩ := bind_eq_ok h
  obtain ⟨_, -, h⟩ := bind_eq_ok h
  obtain ⟨_, hdrifted, h⟩ := bind_eq_ok h
  have hsame := sameDigests_valueAt (check_eq_ok.mp hsame)
  have hne := of_decide_eq_true (check_eq_ok.mp hne)
  obtain ⟨hcovered, hcovers⟩ := of_decide_eq_true (check_eq_ok.mp hdrifted)
  have hmap := eq_map_of_mapM h fun id _ change hchange => repairChange_eq_ok hchange
  have hkeys : surfaceChanges.map (·.surfaceId) = selected := by
    rw [hmap]
    simp [Function.comp_def]
  constructor
  · intro c hc
    rw [hmap] at hc
    obtain ⟨id, -, rfl⟩ := List.mem_map.mp hc
    simp
  · exact fun hop => absurd rfl hop
  · refine fun _ => ⟨hsame, ?_, fun id => ?_⟩
    · rintro rfl
      exact hne hkeys.symm
    · rw [hkeys]
      constructor
      · intro hid
        exact of_decide_eq_true (List.mem_filter.mp (hcovers hid)).2
      · intro hne
        refine hcovered (List.mem_filter.mpr ⟨?_, decide_eq_true hne⟩)
        rw [mem_idsOf]
        rcases mem_keys_of_valueAt_ne hne with hid | hid
        · exact ⟨observed, by simp, hid⟩
        · exact ⟨current, by simp, hid⟩
  · rw [hkeys]
    exact hselected

/-! ### The whole impact -/

structure ExactImpact (operation : CandidateOperation) (vectors : ImpactVectors)
    (impact : CandidateImpact) : Prop where
  authorities : patch (valueAt vectors.currentAuthorities)
    (impact.authorityChanges.map fun c => (c.authorityId, c.afterDigest)) =
      valueAt vectors.candidateAuthorities
  surfaces : patch (valueAt vectors.currentSurfaces)
    (impact.surfaceChanges.map fun c => (c.surfaceId, c.afterDigest)) =
      valueAt vectors.candidateSurfaces
  authorityChange : ∀ c ∈ impact.authorityChanges,
    c.beforeDigest = valueAt vectors.currentAuthorities c.authorityId ∧
      c.beforeDigest ≠ c.afterDigest
  surfaceChange : ∀ c ∈ impact.surfaceChanges,
    c.contractBeforeDigest = valueAt vectors.currentSurfaces c.surfaceId ∧
      c.observedBeforeDigest = valueAt vectors.observedSurfaces c.surfaceId ∧
      (c.changeKind = "contract-change" ∧ c.contractBeforeDigest ≠ c.afterDigest ∨
        c.changeKind = "repair" ∧ c.observedBeforeDigest ≠ c.afterDigest)
  authoritiesSorted : (impact.authorityChanges.map (·.authorityId)).Pairwise (· ≤ ·) ∧
    (impact.authorityChanges.map (·.authorityId)).Nodup
  surfacesSorted : (impact.surfaceChanges.map (·.surfaceId)).Pairwise (· ≤ ·) ∧
    (impact.surfaceChanges.map (·.surfaceId)).Nodup
  none_iff : impact.impactKind = "none" ↔
    valueAt vectors.currentAuthorities = valueAt vectors.candidateAuthorities ∧
    valueAt vectors.currentSurfaces = valueAt vectors.candidateSurfaces ∧
    ∀ c ∈ impact.surfaceChanges, c.changeKind ≠ "repair"
  contractChanging_iff : impact.contractChanging = true ↔
    valueAt vectors.currentAuthorities ≠ valueAt vectors.candidateAuthorities ∨
      valueAt vectors.currentSurfaces ≠ valueAt vectors.candidateSurfaces
  repair : operation = .repair → ∀ id, id ∈ impact.surfaceChanges.map (·.surfaceId) ↔
    valueAt vectors.observedSurfaces id ≠ valueAt vectors.currentSurfaces id

theorem impactStringSet_sorted {v : JsonValue} {label : String} {l : List String}
    (h : impactStringSet v label = .ok l) : l.Pairwise (· ≤ ·) ∧ l.Nodup := by
  obtain ⟨raws, -, h⟩ := bind_eq_ok h
  obtain ⟨values, -, h⟩ := bind_eq_ok h
  obtain ⟨_, hnodup, h⟩ := bind_eq_ok h
  cases h
  exact ⟨List.pairwise_insertionSort _ _,
    sortStrings_nodup (of_decide_eq_true (check_eq_ok.mp hnodup))⟩

theorem impactSurfaceChanges_reported {operation : CandidateOperation} {vectors : ImpactVectors}
    {sameGraph : Bool} {candidateIr : Members} (h : impactSurfaceChanges operation vectors
      authorityChanges sameGraph candidateIr = .ok surfaceChanges) :
    SurfacesReported operation vectors.currentSurfaces vectors.observedSurfaces
      vectors.candidateSurfaces surfaceChanges := by
  rw [impactSurfaceChanges] at h
  split at h
  next hop =>
    subst hop
    obtain ⟨_, -, h⟩ := bind_eq_ok h
    obtain ⟨_, -, h⟩ := bind_eq_ok h
    obtain ⟨selected, hselected, h⟩ := bind_eq_ok h
    exact repairChanges_reported (impactStringSet_sorted hselected) h
  next hop =>
    obtain ⟨selected, -, h⟩ := bind_eq_ok h
    obtain ⟨_, -, h⟩ := bind_eq_ok h
    exact contractChanges_reported hop h

/-- The changes of the surfaces are a patch, and none is without effect. -/
theorem SurfacesReported.patch {operation : CandidateOperation}
    (h : SurfacesReported operation current observed candidate surfaceChanges) :
    patch (valueAt current) (surfaceChanges.map fun c => (c.surfaceId, c.afterDigest)) =
        valueAt candidate ∧
      ∀ c ∈ surfaceChanges,
        c.changeKind = "contract-change" ∧ c.contractBeforeDigest ≠ c.afterDigest ∨
          c.changeKind = "repair" ∧ c.observedBeforeDigest ≠ c.afterDigest := by
  constructor
  · apply patch_eq
    · intro c hc
      obtain ⟨change, hchange, rfl⟩ := List.mem_map.mp hc
      exact (h.change change hchange).2.2.1
    · intro id hne
      rw [List.map_map]
      by_cases hop : operation = .repair
      · exact absurd (congrFun (h.repair hop).1 id) hne
      · exact (h.contract hop id).mpr hne
  · intro c hc
    obtain ⟨hbefore, hobserved, hafter, hkind⟩ := h.change c hc
    have hid : c.surfaceId ∈ surfaceChanges.map (·.surfaceId) := List.mem_map_of_mem hc
    rw [hbefore, hobserved, hafter]
    by_cases hop : operation = .repair
    · obtain ⟨hsame, -, hdrifted⟩ := h.repair hop
      rw [if_pos hop] at hkind
      rw [← congrFun hsame]
      exact Or.inr ⟨hkind, (hdrifted c.surfaceId).mp hid⟩
    · rw [if_neg hop] at hkind
      exact Or.inl ⟨hkind, (h.contract hop c.surfaceId).mp hid⟩

/-- No change of a surface's contract is reported just when the contract stays. -/
theorem SurfacesReported.contract_iff {operation : CandidateOperation}
    (h : SurfacesReported operation current observed candidate surfaceChanges) :
    (surfaceChanges.any fun c => c.changeKind = "contract-change") = true ↔
      valueAt current ≠ valueAt candidate := by
  rw [List.any_eq_true]
  constructor
  · rintro ⟨c, hc, hkind⟩ hsame
    rcases h.patch.2 c hc with ⟨-, hne⟩ | ⟨hrepair, -⟩
    · obtain ⟨hbefore, -, hafter, -⟩ := h.change c hc
      exact hne (hbefore.trans ((congrFun hsame _).trans hafter.symm))
    · rw [hrepair] at hkind
      simp at hkind
  · intro hne
    obtain ⟨id, hid⟩ := Function.ne_iff.mp hne
    have hop : operation ≠ .repair := fun hop => hid (congrFun (h.repair hop).1 id)
    obtain ⟨c, hc, -⟩ := List.mem_map.mp ((h.contract hop id).mpr hid)
    have hkind := (h.change c hc).2.2.2
    rw [if_neg hop] at hkind
    exact ⟨c, hc, decide_eq_true hkind⟩

/-- Nothing is reported just when the contract stays and no surface is repaired. -/
theorem SurfacesReported.nil_iff {operation : CandidateOperation}
    (h : SurfacesReported operation current observed candidate surfaceChanges) :
    surfaceChanges = [] ↔
      valueAt current = valueAt candidate ∧ ∀ c ∈ surfaceChanges, c.changeKind ≠ "repair" := by
  constructor
  · intro hnil
    subst hnil
    have hsame : valueAt current = valueAt candidate := by
      by_contra hne
      have hany := h.contract_iff.mpr hne
      simp at hany
    exact ⟨hsame, by simp⟩
  · intro hboth
    obtain ⟨hsame, hrepair⟩ := hboth
    rw [List.eq_nil_iff_forall_not_mem]
    intro c hc
    rcases h.patch.2 c hc with ⟨hkind, -⟩ | ⟨hkind, -⟩
    · have hany : (surfaceChanges.any fun c => c.changeKind = "contract-change") = true :=
        List.any_eq_true.mpr ⟨c, hc, decide_eq_true hkind⟩
      exact h.contract_iff.mp hany hsame
    · exact hrepair c hc hkind

theorem candidate_impact_exact {H : Hasher} {currentContract observedState candidateIr : Members}
    {impact : CandidateImpact}
    (h : computeCandidateImpact H currentContract observedState candidateIr = .ok impact) :
    ∃ operation vectors,
      CandidateOperation.parse? (getField candidateIr "operation") = some operation ∧
      impactVectors currentContract observedState candidateIr = .ok vectors ∧
      ExactImpact operation vectors impact := by
  obtain ⟨supported, -, h⟩ := bind_eq_ok h
  obtain ⟨operation, hoperation, h⟩ := bind_eq_ok h
  obtain ⟨vectors, hvectors, h⟩ := bind_eq_ok h
  obtain ⟨_, -, h⟩ := bind_eq_ok h
  obtain ⟨_, -, h⟩ := bind_eq_ok h
  obtain ⟨_, -, h⟩ := bind_eq_ok h
  obtain ⟨_, -, h⟩ := bind_eq_ok h
  obtain ⟨surfaceChanges, hsurfaces, h⟩ := bind_eq_ok h
  obtain ⟨_, -, h⟩ := bind_eq_ok h
  obtain ⟨d, -, h⟩ := bind_eq_ok h
  cases h
  have hoperation : CandidateOperation.parse? (getField candidateIr "operation") =
      some operation := by
    have hsome := require_eq_ok.mp hoperation
    split at hsome
    next => exact hsome
    next => cases hsome
  have hcurrent : ∀ id ∈ vectors.currentAuthorities.map Prod.fst, id ∈ authorityIds := by
    obtain ⟨_, hmap, hvectors⟩ := bind_eq_ok hvectors
    obtain ⟨_, -, hvectors⟩ := bind_eq_ok hvectors
    obtain ⟨_, -, hvectors⟩ := bind_eq_ok hvectors
    obtain ⟨_, -, hvectors⟩ := bind_eq_ok hvectors
    obtain ⟨_, -, hvectors⟩ := bind_eq_ok hvectors
    cases hvectors
    exact authorityMap_known hmap
  have hcandidate : ∀ id ∈ vectors.candidateAuthorities.map Prod.fst, id ∈ authorityIds := by
    obtain ⟨_, -, hvectors⟩ := bind_eq_ok hvectors
    obtain ⟨_, hmap, hvectors⟩ := bind_eq_ok hvectors
    obtain ⟨_, -, hvectors⟩ := bind_eq_ok hvectors
    obtain ⟨_, -, hvectors⟩ := bind_eq_ok hvectors
    obtain ⟨_, -, hvectors⟩ := bind_eq_ok hvectors
    cases hvectors
    exact authorityMap_known hmap
  have hreported := impactSurfaceChanges_reported hsurfaces
  have hauthorities : authorityChangesOf vectors.currentAuthorities vectors.candidateAuthorities =
      [] ↔ valueAt vectors.currentAuthorities = valueAt vectors.candidateAuthorities := by
    constructor
    · intro hnil
      funext id
      by_contra hne
      have hmem := mem_changed_authorities hcurrent hcandidate hne
      rw [hnil] at hmem
      exact List.not_mem_nil hmem
    · intro hsame
      rw [List.eq_nil_iff_forall_not_mem]
      intro c hc
      exact (mem_authorityChangesOf.mp hc).2.2 (congrFun hsame _)
  refine ⟨operation, vectors, hoperation, hvectors, ?_⟩
  constructor
  · apply patch_eq
    · intro c hc
      obtain ⟨change, hchange, rfl⟩ := List.mem_map.mp hc
      simp only
      rw [(mem_authorityChangesOf.mp hchange).2.1]
    · intro id hne
      rw [List.map_map]
      exact mem_changed_authorities hcurrent hcandidate hne
  · exact hreported.patch.1
  · intro c hc
    obtain ⟨-, heq, hne⟩ := mem_authorityChangesOf.mp hc
    rw [heq]
    exact ⟨rfl, hne⟩
  · intro c hc
    obtain ⟨hbefore, hobserved, -, -⟩ := hreported.change c hc
    exact ⟨hbefore, hobserved, hreported.patch.2 c hc⟩
  · exact authorityChangesOf_sorted
  · exact hreported.sorted
  · have hkind : ("runtime-visible" : String) ≠ "none" := by decide
    rw [ite_eq_left_iff]
    simp only [hkind, imp_false, not_not, hauthorities, hreported.nil_iff]
  · simp only [Bool.or_eq_true, decide_eq_true_eq, ne_eq, hauthorities, hreported.contract_iff]
  · exact fun hop => (hreported.repair hop).2.2

def sampleCurrentContract : Members :=
  [("authority_digests", .object [("profile", .string (digestOf 'a')),
      ("release-identity", .string (digestOf 'b'))]),
    ("surface_digests", .object [("surface:kept", .string (digestOf 'c')),
      ("surface:old", .string (digestOf 'd'))]),
    ("registry_graph_digest", .string (digestOf 'e'))]

def sampleObservedState : Members :=
  [("surface_digests", .object [("surface:old", .string (digestOf 'd')),
    ("surface:kept", .string (digestOf 'c'))])]

def sampleCandidateIr : Members :=
  [("operation", .string "upgrade"),
    ("authority_digests", .object [("profile", .string (digestOf 'a')),
      ("release-identity", .string (digestOf 'f'))]),
    ("surface_digests", .object [("surface:new", .string (digestOf 'd')),
      ("surface:kept", .string (digestOf 'c'))]),
    ("registry_graph_digest", .string (digestOf 'f'))]

/-- A surface is replaced by another. -/
theorem candidate_impact_exact_sample : ∃ impact vectors,
    impact.surfaceChanges.map (·.surfaceId) = ["surface:new", "surface:old"] ∧
      ExactImpact .upgrade vectors impact := by
  have hids : (computeCandidateImpact constantHasher sampleCurrentContract sampleObservedState
      sampleCandidateIr).toOption.map (fun impact => impact.surfaceChanges.map (·.surfaceId)) =
      some ["surface:new", "surface:old"] := by
    decide
  obtain ⟨impact, himpact, hids⟩ := Option.map_eq_some_iff.mp hids
  obtain ⟨operation, vectors, hoperation, -, hexact⟩ :=
    candidate_impact_exact (eq_ok_of_toOption himpact)
  cases hoperation
  exact ⟨impact, vectors, hids, hexact⟩

end AgentStack.Core
