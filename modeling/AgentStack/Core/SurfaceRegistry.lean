import AgentStack.Core.Plain
import AgentStack.Core.Surfaces
import AgentStack.KeyedList.Basic

/-! What the checks of a registry establish. -/
namespace AgentStack.Core

open JsonText JsonValue FileTree KeyedList RefGraph

variable {H : Hasher} {casefold : String → String} {surfaces : List SurfaceDescriptor}
  {units : List RuntimeUnitDescriptor} {registry : VerifiedSurfaceRegistry}

/-! ### Ids -/

theorem mem_splitChars {sep c : Char} {cs : List Char} (h : c ∈ cs) :
    c = sep ∨ ∃ piece ∈ splitChars sep cs, c ∈ piece := by
  induction cs with
  | nil => cases h
  | cons d cs ih =>
    rw [splitChars]
    split
    next hd =>
      rcases List.mem_cons.mp h with rfl | h
      · exact Or.inl hd
      · rcases ih h with hsep | ⟨piece, hpiece, hc⟩
        · exact Or.inl hsep
        · exact Or.inr ⟨piece, List.mem_cons_of_mem _ hpiece, hc⟩
    next =>
      cases hs : splitChars sep cs with
      | nil => exact absurd hs (splitChars_ne_nil sep cs)
      | cons piece rest =>
        rcases List.mem_cons.mp h with rfl | h
        · exact Or.inr ⟨c :: piece, List.mem_cons_self, List.mem_cons_self⟩
        · rcases ih h with hsep | ⟨found, hfound, hc⟩
          · exact Or.inl hsep
          · rw [hs] at hfound
            rcases List.mem_cons.mp hfound with rfl | hfound
            · exact Or.inr ⟨d :: found, List.mem_cons_self, List.mem_cons_of_mem _ hc⟩
            · exact Or.inr ⟨found, List.mem_cons_of_mem _ hfound, hc⟩

theorem ascii_of_isLowerAlnum {c : Char} (h : isLowerAlnum c = true) : c.toNat < 0x80 := by
  have hle : ∀ u v : Char, u ≤ v → u.toNat ≤ v.toNat := fun u v huv => huv
  simp only [isLowerAlnum, Bool.decide_or, Bool.decide_and, Bool.or_eq_true, Bool.and_eq_true,
    decide_eq_true_eq] at h
  rcases h with ⟨-, h⟩ | ⟨-, h⟩
  · have := hle _ _ h
    simp at this
    omega
  · have := hle _ _ h
    simp at this
    omega

theorem ascii_of_alnumOr {l : List Char} (hl : ∀ c ∈ l, c.toNat < 0x80) {c : Char}
    (h : (isLowerAlnum c || decide (c ∈ l)) = true) : c.toNat < 0x80 := by
  rcases Bool.or_eq_true _ _ ▸ h with h | h
  · exact ascii_of_isLowerAlnum h
  · exact hl c (of_decide_eq_true h)

theorem ascii_of_isSurfaceSuffix {cs : List Char} (h : isSurfaceSuffix cs = true) {c : Char}
    (hc : c ∈ cs) : c.toNat < 0x80 := by
  cases cs with
  | nil => cases hc
  | cons d cs =>
    rw [isSurfaceSuffix, Bool.and_eq_true, List.all_eq_true] at h
    rcases List.mem_cons.mp hc with rfl | hc
    · exact ascii_of_isLowerAlnum h.1
    · exact ascii_of_alnumOr (by decide) (h.2 c hc)

theorem surfaceKind_ascii {surfaceId kind : String} (h : surfaceKind surfaceId = some kind) :
    Ascii surfaceId ∧ Ascii kind := by
  have hexact : ∀ s ∈ exactSurfaceIds, Ascii s := by decide
  have hkinds : ∀ p ∈ surfaceParts, Ascii p.1 := by decide
  unfold surfaceKind at h
  split at h
  next hmem =>
    cases h
    exact ⟨hexact _ hmem, hexact _ hmem⟩
  next =>
    split at h
    next => cases h
    next kindChars suffixes hsplit =>
      split at h
      next hok =>
        cases h
        obtain ⟨hparts, hsuffixes⟩ := hok
        obtain ⟨before, after, hlist, -⟩ := List.lookup_eq_some_iff.mp hparts
        have hkind : Ascii (String.ofList kindChars) :=
          hkinds (String.ofList kindChars, suffixes.length + 1) (by rw [hlist]; simp)
        refine ⟨fun c hc => ?_, hkind⟩
        have hpieces : c = ':' ∨ ∃ piece ∈ splitChars ':' surfaceId.toList, c ∈ piece :=
          mem_splitChars hc
        rcases hpieces with rfl | ⟨piece, hpiece, hc⟩
        · decide
        · rw [← charsOf_eq, hsplit] at hpiece
          rcases List.mem_cons.mp hpiece with rfl | hpiece
          · exact hkind c (by rw [String.toList_ofList]; exact hc)
          · exact ascii_of_isSurfaceSuffix (List.all_eq_true.mp hsuffixes piece hpiece) hc
      next => cases h

theorem unitKind?_ascii {unitId kind : String} (h : unitKind? unitId = some kind) :
    Ascii unitId ∧ Ascii kind := by
  have hkind : ∀ cs, isUnitKind cs = true → ∀ c ∈ cs, c.toNat < 0x80 := by
    intro cs hcs c hc
    cases cs with
    | nil => cases hc
    | cons d cs =>
      rw [isUnitKind, Bool.and_eq_true, List.all_eq_true] at hcs
      rcases List.mem_cons.mp hc with rfl | hc
      · exact ascii_of_isLowerAlnum (decide_eq_true (Or.inl (of_decide_eq_true hcs.1)))
      · rcases Bool.or_eq_true _ _ ▸ hcs.2 c hc with h | h
        · exact ascii_of_isLowerAlnum h
        · rw [of_decide_eq_true h]
          decide
  have hname : ∀ cs, isUnitName cs = true → ∀ c ∈ cs, c.toNat < 0x80 := by
    intro cs hcs c hc
    cases cs with
    | nil => cases hc
    | cons d cs =>
      rw [isUnitName, Bool.and_eq_true, List.all_eq_true] at hcs
      rcases List.mem_cons.mp hc with rfl | hc
      · exact ascii_of_isLowerAlnum hcs.1
      · exact ascii_of_alnumOr (by decide) (hcs.2 c hc)
  unfold unitKind? at h
  simp only [charsOf_eq] at h
  split at h
  next name hdrop =>
    split at h
    next hok =>
      rw [Bool.and_eq_true] at hok
      cases h
      refine ⟨fun c hc => ?_, fun c hc => hkind _ hok.1 c (by simpa using hc)⟩
      rw [← List.takeWhile_append_dropWhile (p := (· ≠ ':')) (l := unitId.toList), hdrop,
        List.mem_append, List.mem_cons] at hc
      rcases hc with hc | rfl | hc
      · exact hkind _ hok.1 c hc
      · decide
      · exact hname _ hok.2 c hc
    next => cases h
  next => cases h

/-! ### Validated registries -/

/-- What the checks of a surface's own fields establish. -/
structure SurfaceOk (surface : SurfaceDescriptor) : Prop where
  kind : surfaceKind surface.surfaceId = some surface.surfaceKind
  version : surface.descriptorVersion = 1
  recipe : surface.digestRecipeId = "surface-content-v1"
  references : surface.references.Nodup
  owned : surface.ownedUnitIds.Nodup
  owns : surface.ownedUnitIds ≠ []
  changeClass : surface.contractChangeClass = "runtime-visible"

structure UnitOk (H : Hasher) (unit : RuntimeUnitDescriptor) : Prop where
  id : Ascii unit.unitId
  kind : Ascii unit.unitKind
  scope : Ascii unit.distributionScope
  path : H.nfc unit.normalizedPath = unit.normalizedPath
  recipe : unit.leafRecipeId = "bytes-mode-contract-v1"

theorem stringSet_nodup {v : JsonValue} {label : String} {l : List String}
    (h : stringSet v label = .ok l) : l.Nodup := by
  unfold stringSet at h
  obtain ⟨value, -, h⟩ := bind_eq_ok h
  obtain ⟨_, -, h⟩ := bind_eq_ok h
  cases h
  exact (List.perm_insertionSort _ _).nodup_iff.mpr (List.nodup_dedup value)

theorem surfaceDescriptor_ok {seen : List String} {raw : JsonValue} {surface : SurfaceDescriptor}
    (h : surfaceDescriptor seen raw = .ok surface) :
    SurfaceOk surface ∧ surface.surfaceId ∉ seen := by
  unfold surfaceDescriptor at h
  obtain ⟨members, -, h⟩ := bind_eq_ok h
  obtain ⟨_, -, h⟩ := bind_eq_ok h
  obtain ⟨surfaceId, -, h⟩ := bind_eq_ok h
  obtain ⟨kind, -, h⟩ := bind_eq_ok h
  obtain ⟨_, hkind, h⟩ := bind_eq_ok h
  obtain ⟨_, hseen, h⟩ := bind_eq_ok h
  obtain ⟨_, -, h⟩ := bind_eq_ok h
  obtain ⟨_, -, h⟩ := bind_eq_ok h
  obtain ⟨_, -, h⟩ := bind_eq_ok h
  obtain ⟨owned, howned, h⟩ := bind_eq_ok h
  obtain ⟨references, hreferences, h⟩ := bind_eq_ok h
  obtain ⟨_, howns, h⟩ := bind_eq_ok h
  cases h
  exact ⟨⟨of_decide_eq_true (check_eq_ok.mp hkind), rfl, rfl, stringSet_nodup hreferences,
      stringSet_nodup howned, of_decide_eq_true (check_eq_ok.mp howns), rfl⟩,
    of_decide_eq_true (check_eq_ok.mp hseen)⟩

theorem surfaceDescriptorsFrom_ok {seen : List String} {raws : List JsonValue}
    (h : surfaceDescriptorsFrom seen raws = .ok surfaces) :
    (∀ surface ∈ surfaces, SurfaceOk surface ∧ surface.surfaceId ∉ seen) ∧
      (surfaceIds surfaces).Nodup := by
  induction raws generalizing seen surfaces with
  | nil =>
    cases h
    exact ⟨by simp, List.nodup_nil⟩
  | cons raw raws ih =>
    obtain ⟨surface, hsurface, h⟩ := bind_eq_ok h
    obtain ⟨rest, hrest, h⟩ := bind_eq_ok h
    cases h
    obtain ⟨hall, hnodup⟩ := ih hrest
    have hfirst := surfaceDescriptor_ok hsurface
    constructor
    · intro found hfound
      rcases List.mem_cons.mp hfound with rfl | hfound
      · exact hfirst
      · have hrest := hall found hfound
        exact ⟨hrest.1, fun hseen => hrest.2 (List.mem_cons_of_mem _ hseen)⟩
    · refine List.nodup_cons.mpr ⟨fun hmem => ?_, hnodup⟩
      obtain ⟨found, hfound, hid⟩ := List.mem_map.mp hmem
      exact (hall found hfound).2 (hid ▸ List.mem_cons_self)

theorem parseSurfaces_ok {document : Members} (h : parseSurfaces document = .ok surfaces) :
    (∀ surface ∈ surfaces, SurfaceOk surface) ∧ (surfaceIds surfaces).Nodup := by
  unfold parseSurfaces at h
  obtain ⟨_, -, h⟩ := bind_eq_ok h
  obtain ⟨_, -, h⟩ := bind_eq_ok h
  obtain ⟨raws, -, h⟩ := bind_eq_ok h
  obtain ⟨found, hfound, h⟩ := bind_eq_ok h
  split at h
  next => cases h
  next =>
    cases h
    obtain ⟨hall, hnodup⟩ := surfaceDescriptorsFrom_ok hfound
    exact ⟨fun surface hsurface => (hall surface hsurface).1, hnodup⟩

theorem unitDescriptor_ok {raw : JsonValue} {unit : RuntimeUnitDescriptor}
    (h : unitDescriptor H raw = .ok unit) : UnitOk H unit := by
  unfold unitDescriptor at h
  obtain ⟨members, -, h⟩ := bind_eq_ok h
  obtain ⟨_, -, h⟩ := bind_eq_ok h
  obtain ⟨unitId, -, h⟩ := bind_eq_ok h
  obtain ⟨kind, hkind, h⟩ := bind_eq_ok h
  obtain ⟨_, -, h⟩ := bind_eq_ok h
  obtain ⟨owner, -, h⟩ := bind_eq_ok h
  obtain ⟨known, hknown, h⟩ := bind_eq_ok h
  obtain ⟨_, hscope, h⟩ := bind_eq_ok h
  obtain ⟨value, -, h⟩ := bind_eq_ok h
  obtain ⟨path, hpath, h⟩ := bind_eq_ok h
  obtain ⟨_, -, h⟩ := bind_eq_ok h
  obtain ⟨_, -, h⟩ := bind_eq_ok h
  cases h
  obtain ⟨hid, hkind⟩ := unitKind?_ascii (require_eq_ok.mp hkind)
  refine ⟨hid, hkind, ?_, ?_, rfl⟩
  · rw [check_eq_ok.mp hscope] at hknown
    have hnames : ∀ s ∈ expectedDistributions.map (·.1), Ascii s := by decide
    cases hv : getField members "distribution_scope" with
    | string s =>
      rw [hv] at hknown
      exact hnames s (of_decide_eq_true (Except.ok.inj hknown))
    | _ =>
      rw [hv] at hknown
      cases hknown
  · simp only
    rw [normalizePath_eq_ok hpath, joinPath_segments, H.nfc_nfc]

theorem runtimeUnit_ok {raw : JsonValue} {unit : RuntimeUnitDescriptor}
    (h : runtimeUnit H casefold units raw = .ok unit) :
    UnitOk H unit ∧ unit.unitId ∉ units.map (·.unitId) := by
  obtain ⟨found, hfound, h⟩ := bind_eq_ok h
  obtain ⟨_, hseen, h⟩ := bind_eq_ok h
  split at h
  next => cases h
  next =>
    cases h
    exact ⟨unitDescriptor_ok hfound, of_decide_eq_true (check_eq_ok.mp hseen)⟩

theorem runtimeUnitsFrom_ok {seen : List RuntimeUnitDescriptor} {raws : List JsonValue}
    (h : runtimeUnitsFrom H casefold seen raws = .ok units) (hok : ∀ unit ∈ seen, UnitOk H unit)
    (hnodup : (seen.map (·.unitId)).Nodup) :
    (∀ unit ∈ units, UnitOk H unit) ∧ (units.map (·.unitId)).Nodup := by
  induction raws generalizing seen with
  | nil =>
    cases h
    exact ⟨hok, hnodup⟩
  | cons raw raws ih =>
    obtain ⟨unit, hunit, h⟩ := bind_eq_ok h
    obtain ⟨hunit, hnew⟩ := runtimeUnit_ok hunit
    refine ih h ?_ ?_
    · intro found hfound
      rcases List.mem_append.mp hfound with hfound | hfound
      · exact hok found hfound
      · rw [List.mem_singleton.mp hfound]
        exact hunit
    · rw [List.map_append]
      refine List.nodup_append.mpr ⟨hnodup, List.nodup_singleton _, ?_⟩
      rintro a ha b hb rfl
      rw [List.map_singleton, List.mem_singleton] at hb
      exact hnew (hb ▸ ha)

theorem parseUnits_ok {document : Members} (h : parseUnits H casefold document = .ok units) :
    (∀ unit ∈ units, UnitOk H unit) ∧ (units.map (·.unitId)).Nodup := by
  unfold parseUnits at h
  obtain ⟨_, -, h⟩ := bind_eq_ok h
  obtain ⟨_, -, h⟩ := bind_eq_ok h
  obtain ⟨raws, -, h⟩ := bind_eq_ok h
  exact runtimeUnitsFrom_ok h (by simp) List.nodup_nil

theorem surfaceAt_eq_some (h : (surfaceIds surfaces).Nodup) {surfaceId : String}
    {surface : SurfaceDescriptor} :
    surfaceAt surfaces surfaceId = some surface ↔
      surface ∈ surfaces ∧ surface.surfaceId = surfaceId := by
  constructor
  · intro hfind
    have hid := List.find?_some hfind
    exact ⟨List.mem_of_find?_eq_some hfind, of_decide_eq_true hid⟩
  · rintro ⟨hmem, rfl⟩
    refine find?_eq_some_of_unique hmem (decide_eq_true rfl) fun other hother hid => ?_
    exact List.inj_on_of_nodup_map h hother hmem (of_decide_eq_true hid)

theorem exists_surfaceAt {surfaceId : String} (h : surfaceId ∈ surfaceIds surfaces) :
    ∃ surface, surfaceAt surfaces surfaceId = some surface := by
  obtain ⟨surface, hsurface, hid⟩ := List.mem_map.mp h
  exact Option.isSome_iff_exists.mp (List.find?_isSome.mpr ⟨surface, hsurface, decide_eq_true hid⟩)

theorem surfaceAt_perm {surfaces' : List SurfaceDescriptor} (hperm : surfaces.Perm surfaces')
    (h : (surfaceIds surfaces).Nodup) : surfaceAt surfaces = surfaceAt surfaces' := by
  have h' : (surfaceIds surfaces').Nodup := (hperm.map _).nodup_iff.mp h
  funext surfaceId
  refine Option.ext fun surface => ?_
  rw [surfaceAt_eq_some h, surfaceAt_eq_some h', hperm.mem_iff]

theorem referencesOf_of_surfaceAt {surfaceId : String} {surface : SurfaceDescriptor}
    (h : surfaceAt surfaces surfaceId = some surface) :
    referencesOf surfaces surfaceId = surface.references := by
  rw [referencesOf, h]
  rfl

theorem claimOwners_ok {claimed claims result : List (String × String)}
    (h : claimOwners claimed claims = .ok result) : result = claimed ++ claims := by
  induction claims generalizing claimed with
  | nil =>
    cases h
    simp
  | cons claim claims ih =>
    rw [claimOwners] at h
    split at h
    next => cases h
    next =>
      rw [ih h]
      simp

/-- What is known of a validated registry. -/
structure Validated (H : Hasher) (registry : VerifiedSurfaceRegistry) : Prop where
  surface : ∀ surface ∈ registry.surfaces, SurfaceOk surface
  surfaceIds : (surfaceIds registry.surfaces).Nodup
  unit : ∀ unit ∈ registry.units, UnitOk H unit
  unitIds : (registry.units.map (·.unitId)).Nodup
  references : ∀ surface ∈ registry.surfaces, ∀ reference ∈ surface.references,
    reference ∈ Core.surfaceIds registry.surfaces
  owned : ∀ surface ∈ registry.surfaces, ∀ unitId ∈ surface.ownedUnitIds,
    unitId ∈ registry.units.map (·.unitId)
  listed : ∀ surfaceId, surfaceId ∈ registry.topologicalSurfaceIds ↔
    surfaceId ∈ Core.surfaceIds registry.surfaces
  listedOnce : registry.topologicalSurfaceIds.Nodup
  ordered : Ordered (referencesOf registry.surfaces) registry.topologicalSurfaceIds

theorem topologicalOrder_ok {ordered : List String}
    (h : topologicalOrder surfaces = .ok ordered) (hok : ∀ surface ∈ surfaces, SurfaceOk surface)
    (hids : (surfaceIds surfaces).Nodup) :
    (∀ surface ∈ surfaces, ∀ reference ∈ surface.references, reference ∈ surfaceIds surfaces) ∧
      (∀ surfaceId, surfaceId ∈ ordered ↔ surfaceId ∈ surfaceIds surfaces) ∧ ordered.Nodup ∧
      Ordered (referencesOf surfaces) ordered := by
  unfold topologicalOrder at h
  obtain ⟨_, hreferences, h⟩ := bind_eq_ok h
  obtain ⟨_, hlength, h⟩ := bind_eq_ok h
  cases h
  have hlength := of_decide_eq_true (check_eq_ok.mp hlength)
  have hknown : ∀ surface ∈ surfaces, ∀ reference ∈ surface.references,
      reference ∈ surfaceIds surfaces := by
    intro surface hsurface reference hreference
    have hcheck := forM_eq_ok (forM_eq_ok hreferences surface hsurface) reference hreference
    obtain ⟨_, hmem, -⟩ := bind_eq_ok hcheck
    exact of_decide_eq_true (check_eq_ok.mp hmem)
  have hnodup : ∀ surfaceId ∈ surfaceIds surfaces, (referencesOf surfaces surfaceId).Nodup := by
    intro surfaceId hmem
    obtain ⟨surface, hsurface⟩ := exists_surfaceAt hmem
    rw [referencesOf_of_surfaceAt hsurface]
    exact (hok surface ((surfaceAt_eq_some hids).mp hsurface).1).references
  obtain ⟨honce, hsub, hordered, -⟩ := order_spec (· ≤ ·) hids hnodup
  have hperm := (List.subperm_of_subset honce hsub).perm_of_length_le
    (by rw [hlength, surfaceIds, List.length_map])
  exact ⟨hknown, fun surfaceId => hperm.mem_iff, honce, hordered⟩

theorem validateSurfaceRegistry_validated {registryDocument inventoryDocument : Members}
    (h : validateSurfaceRegistry H casefold registryDocument inventoryDocument = .ok registry) :
    Validated H registry := by
  unfold validateSurfaceRegistry at h
  obtain ⟨surfaces, hsurfaces, h⟩ := bind_eq_ok h
  obtain ⟨units, hunits, h⟩ := bind_eq_ok h
  obtain ⟨ordered, hordered, h⟩ := bind_eq_ok h
  obtain ⟨claimed, hclaimed, h⟩ := bind_eq_ok h
  obtain ⟨_, hcovered, h⟩ := bind_eq_ok h
  obtain ⟨_, -, h⟩ := bind_eq_ok h
  obtain ⟨_, -, h⟩ := bind_eq_ok h
  obtain ⟨registryDigest, -, h⟩ := bind_eq_ok h
  cases h
  obtain ⟨hok, hids⟩ := parseSurfaces_ok hsurfaces
  obtain ⟨hunitOk, hunitIds⟩ := parseUnits_ok hunits
  obtain ⟨hreferences, hlisted, honce, hordered⟩ := topologicalOrder_ok hordered hok hids
  have hperm : (sortSurfaces surfaces).Perm surfaces := List.perm_insertionSort _ _
  have hunitPerm : (sortUnits units).Perm units := List.perm_insertionSort _ _
  have hidPerm : (surfaceIds (sortSurfaces surfaces)).Perm (surfaceIds surfaces) := hperm.map _
  have hat := surfaceAt_perm hperm.symm hids
  constructor
  · exact fun surface hsurface => hok surface (hperm.mem_iff.mp hsurface)
  · exact hidPerm.nodup_iff.mpr hids
  · exact fun unit hunit => hunitOk unit (hunitPerm.mem_iff.mp hunit)
  · exact (hunitPerm.map _).nodup_iff.mpr hunitIds
  · intro surface hsurface reference hreference
    exact hidPerm.mem_iff.mpr
      (hreferences surface (hperm.mem_iff.mp hsurface) reference hreference)
  · intro surface hsurface unitId hunitId
    have hcovered := of_decide_eq_true (check_eq_ok.mp hcovered)
    rw [claimOwners_ok hclaimed, List.nil_append] at hcovered
    refine (hunitPerm.map _).mem_iff.mpr (hcovered.1 (List.mem_map.mpr ⟨(unitId, surface.surfaceId),
      List.mem_flatMap.mpr ⟨surface, hperm.mem_iff.mp hsurface, ?_⟩, rfl⟩))
    exact List.mem_map.mpr ⟨unitId, hunitId, rfl⟩
  · exact fun surfaceId => (hlisted surfaceId).trans hidPerm.mem_iff.symm
  · exact honce
  · have hrefs : referencesOf (sortSurfaces surfaces) = referencesOf surfaces := by
      funext surfaceId
      rw [referencesOf, referencesOf, hat]
    rw [hrefs]
    exact hordered

end AgentStack.Core
