import AgentStack.Core.SurfaceDigests
import AgentStack.RefGraph.Acyclic
import Mathlib.Data.List.Pairwise

/-! Which registries and inventories are accepted, and what the order of their arrays decides. -/
namespace AgentStack.Core

open JsonText JsonValue FileTree KeyedList RefGraph

variable {H : Hasher} {casefold : String → String} {surfaces surfaces' : List SurfaceDescriptor}
  {units units' : List RuntimeUnitDescriptor} {registry : VerifiedSurfaceRegistry}

/-! ### One descriptor at a time -/

/-- What was seen before decides only whether the id is new. -/
theorem surfaceDescriptor_eq_ok {seen : List String} {raw : JsonValue}
    {surface : SurfaceDescriptor} : surfaceDescriptor seen raw = .ok surface ↔
      surfaceDescriptor [] raw = .ok surface ∧ surface.surfaceId ∉ seen := by
  constructor
  · intro h
    refine ⟨?_, (surfaceDescriptor_ok h).2⟩
    unfold surfaceDescriptor at h ⊢
    obtain ⟨members, hmembers, h⟩ := bind_eq_ok h
    obtain ⟨_, hfields, h⟩ := bind_eq_ok h
    obtain ⟨surfaceId, hid, h⟩ := bind_eq_ok h
    obtain ⟨kind, hkind, h⟩ := bind_eq_ok h
    obtain ⟨_, hnamespace, h⟩ := bind_eq_ok h
    obtain ⟨_, -, h⟩ := bind_eq_ok h
    rw [hmembers, bind_ok_eq, hfields, bind_ok_eq, hid, bind_ok_eq, hkind, bind_ok_eq]
    simp only
    rw [hnamespace, bind_ok_eq]
    exact h
  · rintro ⟨h, hseen⟩
    unfold surfaceDescriptor at h ⊢
    obtain ⟨members, hmembers, h⟩ := bind_eq_ok h
    obtain ⟨_, hfields, h⟩ := bind_eq_ok h
    obtain ⟨surfaceId, hid, h⟩ := bind_eq_ok h
    obtain ⟨kind, hkind, h⟩ := bind_eq_ok h
    obtain ⟨_, hnamespace, h⟩ := bind_eq_ok h
    obtain ⟨_, -, h⟩ := bind_eq_ok h
    rw [hmembers, bind_ok_eq, hfields, bind_ok_eq, hid, bind_ok_eq, hkind, bind_ok_eq]
    simp only
    rw [hnamespace, bind_ok_eq]
    have hname : surface.surfaceId = surfaceId := by
      obtain ⟨_, -, h⟩ := bind_eq_ok h
      obtain ⟨_, -, h⟩ := bind_eq_ok h
      obtain ⟨_, -, h⟩ := bind_eq_ok h
      obtain ⟨_, -, h⟩ := bind_eq_ok h
      obtain ⟨_, -, h⟩ := bind_eq_ok h
      obtain ⟨_, -, h⟩ := bind_eq_ok h
      cases h
      rfl
    have hnew : check (decide (surfaceId ∉ seen)) (graphFailure "duplicate surface id"
        [("surface_id", surfaceId)]) = .ok () := check_eq_ok.mpr (decide_eq_true (hname ▸ hseen))
    rw [hnew, bind_ok_eq]
    exact h

theorem surfaceDescriptorsFrom_eq_ok {seen : List String} {raws : List JsonValue} :
    surfaceDescriptorsFrom seen raws = .ok surfaces ↔
      List.Forall₂ (fun raw surface => surfaceDescriptor [] raw = .ok surface) raws surfaces ∧
        (surfaceIds surfaces).Nodup ∧ ∀ surface ∈ surfaces, surface.surfaceId ∉ seen := by
  induction raws generalizing seen surfaces with
  | nil =>
    constructor
    · intro h
      cases h
      exact ⟨.nil, List.nodup_nil, by simp⟩
    · rintro ⟨h, -, -⟩
      cases h
      rfl
  | cons raw raws ih =>
    constructor
    · intro h
      obtain ⟨surface, hsurface, h⟩ := bind_eq_ok h
      obtain ⟨rest, hrest, h⟩ := bind_eq_ok h
      cases h
      obtain ⟨hall, hnodup, hnew⟩ := ih.mp hrest
      obtain ⟨hsurface, hseen⟩ := surfaceDescriptor_eq_ok.mp hsurface
      refine ⟨.cons hsurface hall, List.nodup_cons.mpr ⟨fun hmem => ?_, hnodup⟩, ?_⟩
      · obtain ⟨found, hfound, hid⟩ := List.mem_map.mp hmem
        exact hnew found hfound (hid ▸ List.mem_cons_self)
      · rw [List.forall_mem_cons]
        exact ⟨hseen, fun found hfound hmem => hnew found hfound (List.mem_cons_of_mem _ hmem)⟩
    · rintro ⟨hall, hnodup, hnew⟩
      cases hall with
      | @cons _ surface _ rest hsurface hall =>
        rw [surfaceIds, List.map_cons, List.nodup_cons] at hnodup
        rw [List.forall_mem_cons] at hnew
        have hrest : surfaceDescriptorsFrom (surface.surfaceId :: seen) raws = .ok rest := by
          refine ih.mpr ⟨hall, hnodup.2, fun found hfound hmem => ?_⟩
          rcases List.mem_cons.mp hmem with hid | hmem
          · exact hnodup.1 (hid ▸ List.mem_map_of_mem hfound)
          · exact hnew.2 found hfound hmem
        rw [surfaceDescriptorsFrom, surfaceDescriptor_eq_ok.mpr ⟨hsurface, hnew.1⟩, bind_ok_eq,
          hrest]
        rfl

/-- No two units share an id or a path, up to case. -/
structure UnitsApart (casefold : String → String) (units : List RuntimeUnitDescriptor) : Prop where
  ids : (units.map (·.unitId)).Nodup
  paths : (units.map fun u => casefold u.normalizedPath).Nodup

theorem UnitsApart.sublist (h : UnitsApart casefold units) (hsub : units'.Sublist units) :
    UnitsApart casefold units' :=
  ⟨h.ids.sublist (hsub.map _), h.paths.sublist (hsub.map _)⟩

theorem UnitsApart.perm (h : UnitsApart casefold units) (hperm : units.Perm units') :
    UnitsApart casefold units' :=
  ⟨(hperm.map _).nodup_iff.mp h.ids, (hperm.map _).nodup_iff.mp h.paths⟩

theorem nodup_map_append_singleton {α β : Type} (f : α → β) (l : List α) (a : α) :
    ((l ++ [a]).map f).Nodup ↔ (l.map f).Nodup ∧ ∀ b ∈ l, f b ≠ f a := by
  rw [List.map_append, List.map_singleton, List.nodup_append]
  simp only [List.nodup_singleton, true_and, List.mem_singleton, List.mem_map]
  constructor
  · rintro ⟨hnodup, hne⟩
    exact ⟨hnodup, fun b hb => hne _ ⟨b, hb, rfl⟩ _ rfl⟩
  · rintro ⟨hnodup, hne⟩
    refine ⟨hnodup, ?_⟩
    rintro _ ⟨b, hb, rfl⟩ _ rfl
    exact hne b hb

theorem runtimeUnit_eq_ok (hunits : UnitsApart casefold units) {raw : JsonValue}
    {unit : RuntimeUnitDescriptor} : runtimeUnit H casefold units raw = .ok unit ↔
      unitDescriptor H raw = .ok unit ∧ UnitsApart casefold (units ++ [unit]) := by
  have hapart : UnitsApart casefold (units ++ [unit]) ↔ unit.unitId ∉ units.map (·.unitId) ∧
      units.find? (fun u => casefold u.normalizedPath = casefold unit.normalizedPath) = none := by
    rw [List.find?_eq_none]
    simp only [List.mem_map, not_exists, not_and, decide_eq_true_eq]
    constructor
    · rintro ⟨hids, hpaths⟩
      exact ⟨((nodup_map_append_singleton _ _ _).mp hids).2,
        ((nodup_map_append_singleton _ _ _).mp hpaths).2⟩
    · rintro ⟨hids, hpaths⟩
      exact ⟨(nodup_map_append_singleton _ _ _).mpr ⟨hunits.ids, hids⟩,
        (nodup_map_append_singleton _ _ _).mpr ⟨hunits.paths, hpaths⟩⟩
  rw [hapart]
  constructor
  · intro h
    obtain ⟨found, hfound, h⟩ := bind_eq_ok h
    obtain ⟨_, hseen, h⟩ := bind_eq_ok h
    split at h
    next => cases h
    next hnone =>
      cases h
      exact ⟨hfound, of_decide_eq_true (check_eq_ok.mp hseen), hnone⟩
  · rintro ⟨hunit, hseen, hnone⟩
    have hcheck : check (decide (unit.unitId ∉ units.map (·.unitId))) (coverageFailure
        "duplicate runtime unit id" [("unit_id", unit.unitId)]) = .ok () :=
      check_eq_ok.mpr (decide_eq_true hseen)
    rw [runtimeUnit, hunit, bind_ok_eq, hcheck, bind_ok_eq, hnone]
    rfl

theorem runtimeUnitsFrom_eq_ok {seen : List RuntimeUnitDescriptor} {raws : List JsonValue}
    (hseen : UnitsApart casefold seen) : runtimeUnitsFrom H casefold seen raws = .ok units ↔
      ∃ found, List.Forall₂ (fun raw unit => unitDescriptor H raw = .ok unit) raws found ∧
        units = seen ++ found ∧ UnitsApart casefold units := by
  induction raws generalizing seen with
  | nil =>
    constructor
    · intro h
      cases h
      exact ⟨[], .nil, by simp, hseen⟩
    · rintro ⟨found, hall, rfl, -⟩
      cases hall
      rw [List.append_nil]
      rfl
  | cons raw raws ih =>
    constructor
    · intro h
      obtain ⟨unit, hunit, h⟩ := bind_eq_ok h
      obtain ⟨hunit, hapart⟩ := (runtimeUnit_eq_ok hseen).mp hunit
      obtain ⟨found, hall, rfl, hunits⟩ := (ih hapart).mp h
      exact ⟨unit :: found, .cons hunit hall, by simp, hunits⟩
    · rintro ⟨found, hall, rfl, hunits⟩
      cases hall with
      | @cons _ unit _ rest hunit hall =>
        have hsub : (seen ++ [unit]).Sublist (seen ++ unit :: rest) := by simp
        have hapart := hunits.sublist hsub
        rw [runtimeUnitsFrom, (runtimeUnit_eq_ok hseen).mpr ⟨hunit, hapart⟩, bind_ok_eq]
        exact (ih hapart).mpr ⟨rest, hall, by simp, hunits⟩

/-! ### Whole documents -/

/-- The documents hold these descriptors, each valid on its own. -/
structure Described (H : Hasher) (registryDocument inventoryDocument : Members)
    (surfaces : List SurfaceDescriptor) (units : List RuntimeUnitDescriptor) : Prop where
  registryFields : fieldsAre registryDocument ["schema_id", "schema_version", "surfaces"] = true
  registrySchema :
    (isString (getField registryDocument "schema_id") "agent-workflow.runtime-surface-registry" &&
      isOne (getField registryDocument "schema_version")) = true
  surfaces : ∃ raws, getField registryDocument "surfaces" = .array raws ∧
    List.Forall₂ (fun raw surface => surfaceDescriptor [] raw = .ok surface) raws surfaces
  inventoryFields : fieldsAre inventoryDocument ["schema_id", "schema_version", "units"] = true
  inventorySchema :
    (isString (getField inventoryDocument "schema_id") "agent-workflow.runtime-unit-inventory" &&
      isOne (getField inventoryDocument "schema_version")) = true
  units : ∃ raws, getField inventoryDocument "units" = .array raws ∧
    List.Forall₂ (fun raw unit => unitDescriptor H raw = .ok unit) raws units

/-- Every reference is a declared surface. -/
def Declared (surfaces : List SurfaceDescriptor) : Prop :=
  ∀ surface ∈ surfaces, ∀ reference ∈ surface.references, reference ∈ surfaceIds surfaces

theorem Declared.closed (h : Declared surfaces) : ∀ a ∈ surfaceIds surfaces,
    ∀ b ∈ referencesOf surfaces a, b ∈ surfaceIds surfaces := by
  intro a ha b hb
  obtain ⟨surface, hsurface⟩ := exists_surfaceAt ha
  rw [referencesOf_of_surfaceAt hsurface] at hb
  exact h surface (List.mem_of_find?_eq_some hsurface) b hb

/-- What a registry and an inventory with unique ids have to satisfy together. -/
structure WellFormed (casefold : String → String) (surfaces : List SurfaceDescriptor)
    (units : List RuntimeUnitDescriptor) : Prop where
  declared : Declared surfaces
  acyclic : Acyclic (surfaceIds surfaces) (referencesOf surfaces)
  known : ∀ surface ∈ surfaces, ∀ unitId ∈ surface.ownedUnitIds, unitId ∈ units.map (·.unitId)
  owner : ∀ unit ∈ units, ∃ surface ∈ surfaces, surface.surfaceId = unit.owningSurfaceId ∧
    unit.unitId ∈ surface.ownedUnitIds ∧
    ∀ other ∈ surfaces, unit.unitId ∈ other.ownedUnitIds → other = surface
  paths : (units.map fun u => casefold u.normalizedPath).Nodup
  mandatory : ∀ m ∈ mandatorySurfaces, m ∈ surfaceIds surfaces
  loadable : ∀ surface ∈ surfaces, surface.surfaceKind ∈ taskLoadableKinds →
    ∀ m ∈ mandatorySurfaces, Reaches (referencesOf surfaces) surface.surfaceId m

theorem parseSurfaces_eq_ok {document : Members} :
    parseSurfaces document = .ok surfaces ↔
      fieldsAre document ["schema_id", "schema_version", "surfaces"] = true ∧
      (isString (getField document "schema_id") "agent-workflow.runtime-surface-registry" &&
        isOne (getField document "schema_version")) = true ∧
      (∃ raws, getField document "surfaces" = .array raws ∧
        List.Forall₂ (fun raw surface => surfaceDescriptor [] raw = .ok surface) raws surfaces) ∧
      (surfaceIds surfaces).Nodup ∧ ∀ m ∈ mandatorySurfaces, m ∈ surfaceIds surfaces := by
  have hmandatory : ∀ surfaces : List SurfaceDescriptor,
      (mandatorySurfaces.find? fun m => m ∉ surfaces.map (·.surfaceId)) = none ↔
        ∀ m ∈ mandatorySurfaces, m ∈ surfaceIds surfaces := by
    intro surfaces
    rw [List.find?_eq_none]
    simp only [decide_eq_true_eq, not_not]
    rfl
  constructor
  · intro h
    unfold parseSurfaces at h
    obtain ⟨_, hfields, h⟩ := bind_eq_ok h
    obtain ⟨_, hschema, h⟩ := bind_eq_ok h
    obtain ⟨raws, hraws, h⟩ := bind_eq_ok h
    obtain ⟨found, hfound, h⟩ := bind_eq_ok h
    split at h
    next => cases h
    next hnone =>
      cases h
      obtain ⟨hall, hnodup, -⟩ := surfaceDescriptorsFrom_eq_ok.mp hfound
      exact ⟨check_eq_ok.mp hfields, check_eq_ok.mp hschema,
        ⟨raws, items?_eq_some.mp (require_eq_ok.mp hraws), hall⟩, hnodup, (hmandatory _).mp hnone⟩
  · rintro ⟨hfields, hschema, ⟨raws, hraws, hall⟩, hnodup, hall'⟩
    have hfound := surfaceDescriptorsFrom_eq_ok.mpr ⟨hall, hnodup, fun s _ => List.not_mem_nil⟩
    rw [parseSurfaces, hfields, hschema, hraws]
    simp only [check, require, items?, if_true, bind_ok_eq, hfound, (hmandatory surfaces).mpr hall']
    rfl

theorem parseUnits_eq_ok {document : Members} :
    parseUnits H casefold document = .ok units ↔
      fieldsAre document ["schema_id", "schema_version", "units"] = true ∧
      (isString (getField document "schema_id") "agent-workflow.runtime-unit-inventory" &&
        isOne (getField document "schema_version")) = true ∧
      (∃ raws, getField document "units" = .array raws ∧
        List.Forall₂ (fun raw unit => unitDescriptor H raw = .ok unit) raws units) ∧
      UnitsApart casefold units := by
  have hempty : UnitsApart casefold [] := ⟨List.nodup_nil, List.nodup_nil⟩
  constructor
  · intro h
    unfold parseUnits at h
    obtain ⟨_, hfields, h⟩ := bind_eq_ok h
    obtain ⟨_, hschema, h⟩ := bind_eq_ok h
    obtain ⟨raws, hraws, h⟩ := bind_eq_ok h
    obtain ⟨found, hall, hfound, hapart⟩ := (runtimeUnitsFrom_eq_ok hempty).mp h
    rw [List.nil_append] at hfound
    rw [← hfound] at hall
    exact ⟨check_eq_ok.mp hfields, check_eq_ok.mp hschema,
      ⟨raws, items?_eq_some.mp (require_eq_ok.mp hraws), hall⟩, hapart⟩
  · rintro ⟨hfields, hschema, ⟨raws, hraws, hall⟩, hapart⟩
    have hfound : runtimeUnitsFrom H casefold [] raws = .ok units :=
      (runtimeUnitsFrom_eq_ok hempty).mpr ⟨units, hall, (List.nil_append _).symm, hapart⟩
    rw [parseUnits, hfields, hschema, hraws]
    simp only [check, require, items?, if_true, bind_ok_eq, hfound]

theorem topologicalOrder_eq_ok {ordered : List String} (hids : (surfaceIds surfaces).Nodup)
    (hok : ∀ surface ∈ surfaces, SurfaceOk surface) : topologicalOrder surfaces = .ok ordered ↔
      Declared surfaces ∧ Acyclic (surfaceIds surfaces) (referencesOf surfaces) ∧
      ordered = order (surfaceIds surfaces) (referencesOf surfaces) (· ≤ ·) := by
  have hnodup : ∀ surfaceId ∈ surfaceIds surfaces, (referencesOf surfaces surfaceId).Nodup := by
    intro surfaceId hmem
    obtain ⟨surface, hsurface⟩ := exists_surfaceAt hmem
    rw [referencesOf_of_surfaceAt hsurface]
    exact (hok surface ((surfaceAt_eq_some hids).mp hsurface).1).references
  have hlength : (surfaceIds surfaces).length = surfaces.length := List.length_map _
  constructor
  · intro h
    have hdeclared : Declared surfaces := (topologicalOrder_ok h hok hids).1
    unfold topologicalOrder at h
    obtain ⟨_, -, h⟩ := bind_eq_ok h
    obtain ⟨_, hall, h⟩ := bind_eq_ok h
    cases h
    have hall := of_decide_eq_true (check_eq_ok.mp hall)
    rw [← hlength, order_length_iff (· ≤ ·) hids hnodup hdeclared.closed] at hall
    exact ⟨hdeclared, hall, rfl⟩
  · rintro ⟨hdeclared, hacyclic, rfl⟩
    have hreferences : (surfaces.forM fun surface =>
        surface.references.forM (checkReference surfaces surface.surfaceId)) = .ok () := by
      refine forM_ok fun surface hsurface => forM_ok fun reference hreference => ?_
      have hne : reference ≠ surface.surfaceId := by
        rintro rfl
        have hat := (surfaceAt_eq_some hids).mpr ⟨hsurface, rfl⟩
        refine hacyclic surface.surfaceId (List.mem_map_of_mem hsurface) (.single ?_)
        rw [referencesOf_of_surfaceAt hat]
        exact hreference
      rw [checkReference]
      simp [check, hdeclared surface hsurface reference hreference, hne]
    have hall := (order_length_iff (· ≤ ·) hids hnodup hdeclared.closed).mpr hacyclic
    rw [hlength] at hall
    rw [topologicalOrder, hreferences, bind_ok_eq]
    simp only [check, hall, decide_true, if_true, bind_ok_eq]
    rfl

/-! ### Owners -/

theorem claimOwners_eq_ok {claimed claims result : List (String × String)}
    (hclaimed : (claimed.map Prod.fst).Nodup) : claimOwners claimed claims = .ok result ↔
      result = claimed ++ claims ∧ (result.map Prod.fst).Nodup := by
  induction claims generalizing claimed with
  | nil =>
    constructor
    · intro h
      cases h
      exact ⟨by simp, hclaimed⟩
    · rintro ⟨rfl, -⟩
      rw [List.append_nil]
      rfl
  | cons claim claims ih =>
    have hnone : claimed.lookup claim.1 = none ↔ ∀ p ∈ claimed, p.1 ≠ claim.1 := by
      rw [List.lookup_eq_none_iff]
      exact forall₂_congr fun p _ => bne_iff_ne.trans ne_comm
    rw [claimOwners]
    split
    next first hfirst =>
      constructor
      · intro h
        cases h
      · rintro ⟨rfl, hnodup⟩
        have hsub : (claimed ++ [claim]).Sublist (claimed ++ claim :: claims) := by simp
        have hnew := ((nodup_map_append_singleton _ _ _).mp (hnodup.sublist (hsub.map _))).2
        rw [hnone.mpr hnew] at hfirst
        cases hfirst
    next hlookup =>
      rw [ih ((nodup_map_append_singleton _ _ _).mpr ⟨hclaimed, hnone.mp hlookup⟩)]
      simp

theorem mem_ownershipClaims {unitId surfaceId : String} :
    (unitId, surfaceId) ∈ ownershipClaims surfaces ↔
      ∃ surface ∈ surfaces, surface.surfaceId = surfaceId ∧ unitId ∈ surface.ownedUnitIds := by
  simp only [ownershipClaims, List.mem_flatMap, List.mem_map, Prod.mk.injEq]
  constructor
  · rintro ⟨surface, hsurface, found, hfound, rfl, rfl⟩
    exact ⟨surface, hsurface, rfl, hfound⟩
  · rintro ⟨surface, hsurface, rfl, hfound⟩
    exact ⟨surface, hsurface, unitId, hfound, rfl, rfl⟩

/-- Every unit is claimed once just when no two surfaces claim one. -/
theorem claims_nodup_iff (hids : (surfaceIds surfaces).Nodup)
    (hok : ∀ surface ∈ surfaces, SurfaceOk surface) :
    ((ownershipClaims surfaces).map Prod.fst).Nodup ↔
      ∀ surface ∈ surfaces, ∀ other ∈ surfaces, ∀ unitId ∈ surface.ownedUnitIds,
        unitId ∈ other.ownedUnitIds → other = surface := by
  have hmap : (ownershipClaims surfaces).map Prod.fst = surfaces.flatMap (·.ownedUnitIds) := by
    rw [ownershipClaims, List.map_flatMap]
    simp [Function.comp_def]
  have hsurfaces : surfaces.Nodup := List.Nodup.of_map _ hids
  rw [hmap, List.nodup_flatMap]
  constructor
  · rintro ⟨-, hapart⟩ surface hsurface other hother unitId hunit hunit'
    by_contra hne
    have hsymm : Std.Symm (Function.onFun List.Disjoint fun s : SurfaceDescriptor =>
        s.ownedUnitIds) := ⟨fun a b h c hc hc' => h hc' hc⟩
    exact hapart.forall hother hsurface hne hunit' hunit
  · intro h
    refine ⟨fun surface hsurface => (hok surface hsurface).owned, ?_⟩
    refine hsurfaces.pairwise_of_forall_ne fun surface hsurface other hother hne => ?_
    intro unitId hunit hunit'
    exact hne (h surface hsurface other hother unitId hunit hunit').symm

theorem lookup_ownershipClaims (hclaims : ((ownershipClaims surfaces).map Prod.fst).Nodup)
    {unitId surfaceId : String} : (ownershipClaims surfaces).lookup unitId = some surfaceId ↔
      ∃ surface ∈ surfaces, surface.surfaceId = surfaceId ∧ unitId ∈ surface.ownedUnitIds := by
  rw [lookup_eq_some hclaims, mem_ownershipClaims]

/-- The three checks of owners together. -/
theorem owners_iff (hids : (surfaceIds surfaces).Nodup)
    (hok : ∀ surface ∈ surfaces, SurfaceOk surface) :
    ((ownershipClaims surfaces).map Prod.fst).Nodup ∧
      ((ownershipClaims surfaces).map Prod.fst ⊆ units.map (·.unitId) ∧
        units.map (·.unitId) ⊆ (ownershipClaims surfaces).map Prod.fst) ∧
      (∀ unit ∈ units, unit.owningSurfaceId ∈ surfaceIds surfaces ∧
        (ownershipClaims surfaces).lookup unit.unitId = some unit.owningSurfaceId) ↔
    (∀ surface ∈ surfaces, ∀ unitId ∈ surface.ownedUnitIds, unitId ∈ units.map (·.unitId)) ∧
      ∀ unit ∈ units, ∃ surface ∈ surfaces, surface.surfaceId = unit.owningSurfaceId ∧
        unit.unitId ∈ surface.ownedUnitIds ∧
        ∀ other ∈ surfaces, unit.unitId ∈ other.ownedUnitIds → other = surface := by
  constructor
  · rintro ⟨hclaims, ⟨hknown, -⟩, howner⟩
    constructor
    · intro surface hsurface unitId hunit
      exact hknown (List.mem_map.mpr ⟨(unitId, surface.surfaceId),
        mem_ownershipClaims.mpr ⟨surface, hsurface, rfl, hunit⟩, rfl⟩)
    · intro unit hunit
      obtain ⟨surface, hsurface, hid, howned⟩ :=
        (lookup_ownershipClaims hclaims).mp (howner unit hunit).2
      exact ⟨surface, hsurface, hid, howned, fun other hother hother' =>
        (claims_nodup_iff hids hok).mp hclaims surface hsurface other hother _ howned hother'⟩
  · rintro ⟨hknown, howner⟩
    have hclaims : ((ownershipClaims surfaces).map Prod.fst).Nodup := by
      rw [claims_nodup_iff hids hok]
      intro surface hsurface other hother unitId howned hother'
      obtain ⟨unit, hunit, rfl⟩ := List.mem_map.mp (hknown surface hsurface unitId howned)
      obtain ⟨found, -, -, -, honly⟩ := howner unit hunit
      rw [honly surface hsurface howned, honly other hother hother']
    refine ⟨hclaims, ⟨?_, ?_⟩, ?_⟩
    · intro unitId hmem
      obtain ⟨⟨_, surfaceId⟩, hclaim, rfl⟩ := List.mem_map.mp hmem
      obtain ⟨surface, hsurface, -, howned⟩ := mem_ownershipClaims.mp hclaim
      exact hknown surface hsurface _ howned
    · intro unitId hmem
      obtain ⟨unit, hunit, rfl⟩ := List.mem_map.mp hmem
      obtain ⟨surface, hsurface, hid, howned, -⟩ := howner unit hunit
      exact List.mem_map.mpr ⟨(unit.unitId, surface.surfaceId),
        mem_ownershipClaims.mpr ⟨surface, hsurface, rfl, howned⟩, rfl⟩
    · intro unit hunit
      obtain ⟨surface, hsurface, hid, howned, -⟩ := howner unit hunit
      exact ⟨hid ▸ List.mem_map_of_mem hsurface,
        (lookup_ownershipClaims hclaims).mpr ⟨surface, hsurface, hid, howned⟩⟩

/-! ### Reached surfaces -/

theorem mem_transitiveReferences (h : Declared surfaces) {surfaceId found : String}
    (hid : surfaceId ∈ surfaceIds surfaces) :
    found ∈ transitiveReferences surfaceId surfaces ↔
      ∃ reference ∈ referencesOf surfaces surfaceId,
        Reaches (referencesOf surfaces) reference found := by
  have hpending : ∀ a ∈ (referencesOf surfaces surfaceId).reverse, a ∈ surfaceIds surfaces := by
    intro a ha
    exact h.closed surfaceId hid a (List.mem_reverse.mp ha)
  rw [transitiveReferences, reachedFrom, mem_visit_iff h.closed hpending le_rfl]
  simp only [List.mem_reverse]

theorem mandatory_not_loadable {surface : SurfaceDescriptor} (hok : SurfaceOk surface)
    (hkind : surface.surfaceKind ∈ taskLoadableKinds) {m : String} (hm : m ∈ mandatorySurfaces) :
    surface.surfaceId ≠ m := by
  rintro rfl
  have hexact : ∀ m ∈ mandatorySurfaces, m ∈ exactSurfaceIds ∧ m ∉ taskLoadableKinds := by decide
  obtain ⟨hexact, hnot⟩ := hexact _ hm
  have hsame := hok.kind
  rw [surfaceKind, if_pos hexact] at hsame
  exact hnot (Option.some.inj hsame ▸ hkind)

theorem checkLoadable_eq_ok (h : Declared surfaces) {surface : SurfaceDescriptor}
    (hsurface : surface ∈ surfaces) (hok : SurfaceOk surface) :
    checkLoadable surfaces surface = .ok () ↔ (surface.surfaceKind ∈ taskLoadableKinds →
      ∀ m ∈ mandatorySurfaces, Reaches (referencesOf surfaces) surface.surfaceId m) := by
  have hid : surface.surfaceId ∈ surfaceIds surfaces := List.mem_map_of_mem hsurface
  rw [checkLoadable]
  split
  next hkind =>
    simp only [hkind, forall_true_left]
    rw [check_eq_ok, decide_eq_true_eq, List.filter_eq_nil_iff]
    refine forall₂_congr fun m hm => ?_
    rw [decide_eq_true_eq, not_not, mem_transitiveReferences h hid]
    constructor
    · rintro ⟨reference, hreference, hreach⟩
      exact .head hreference hreach
    · intro hreach
      obtain ⟨reference, hreference, hrest⟩ :=
        (Relation.ReflTransGen.cases_head hreach).resolve_left (mandatory_not_loadable hok hkind hm)
      exact ⟨reference, hreference, hrest⟩
  next hkind => simp [hkind]

/-! ### The digest of a registry -/

theorem texts_plain (E : TextEncoding) {l : List String} (h : ∀ s ∈ l, Ascii s) :
    Plain E.toEncoding (texts l) := by
  apply plain_array
  intro x hx
  obtain ⟨s, hs, rfl⟩ := List.mem_map.mp hx
  exact plain_ascii E (h s hs)

theorem surfaceEntry_plain (E : TextEncoding) {surface : SurfaceDescriptor}
    (hok : SurfaceOk surface) (howned : ∀ s ∈ surface.ownedUnitIds, Ascii s)
    (hreferences : ∀ s ∈ surface.references, Ascii s) : Plain E.toEncoding (.object
      [("surface_id", .string surface.surfaceId), ("surface_kind", .string surface.surfaceKind),
        ("descriptor_version", .int surface.descriptorVersion),
        ("digest_recipe_id", .string surface.digestRecipeId),
        ("owned_unit_ids", texts surface.ownedUnitIds), ("references", texts surface.references),
        ("contract_change_class", .string surface.contractChangeClass)]) := by
  obtain ⟨hid, hkind⟩ := surfaceKind_ascii hok.kind
  have hversion : Plain E.toEncoding (.int surface.descriptorVersion) := by
    rw [hok.version]
    exact plain_int (by decide)
  have hrecipe : Ascii surface.digestRecipeId := by
    rw [hok.recipe]
    decide
  have hclass : Ascii surface.contractChangeClass := by
    rw [hok.changeClass]
    decide
  apply plain_fields
  · simp only [List.map_cons, List.map_nil]
    decide
  · simp only [List.forall_mem_cons]
    decide
  · simp only [List.forall_mem_cons, List.not_mem_nil, false_implies, implies_true, and_true]
    exact ⟨plain_ascii E hid, plain_ascii E hkind, hversion, plain_ascii E hrecipe,
      texts_plain E howned, texts_plain E hreferences, plain_ascii E hclass⟩

theorem unitEntry_plain {unit : RuntimeUnitDescriptor} (hok : UnitOk H unit)
    (howner : Ascii unit.owningSurfaceId) : Plain H.toEncoding (.object
      [("unit_id", .string unit.unitId), ("unit_kind", .string unit.unitKind),
        ("distribution_scope", .string unit.distributionScope),
        ("normalized_path", .string unit.normalizedPath),
        ("owning_surface_id", .string unit.owningSurfaceId),
        ("leaf_recipe_id", .string unit.leafRecipeId)]) := by
  have hrecipe : Ascii unit.leafRecipeId := by
    rw [hok.recipe]
    decide
  apply plain_fields H.toTextEncoding
  · simp only [List.map_cons, List.map_nil]
    decide
  · simp only [List.forall_mem_cons]
    decide
  · simp only [List.forall_mem_cons, List.not_mem_nil, false_implies, implies_true, and_true]
    exact ⟨plain_ascii _ hok.id, plain_ascii _ hok.kind, plain_ascii _ hok.scope,
      plain_string hok.path, plain_ascii _ howner, plain_ascii _ hrecipe⟩

theorem registryProjection_plain (hok : ∀ surface ∈ surfaces, SurfaceOk surface)
    (hunits : ∀ unit ∈ units, UnitOk H unit) (h : WellFormed casefold surfaces units) :
    Plain H.toEncoding (registryProjection surfaces units) := by
  have hids : ∀ s ∈ surfaceIds surfaces, Ascii s := by
    intro s hs
    obtain ⟨surface, hsurface, rfl⟩ := List.mem_map.mp hs
    exact (surfaceKind_ascii (hok surface hsurface).kind).1
  have hentries : Plain H.toEncoding (.array ((sortSurfaces surfaces).map fun surface => .object
      [("surface_id", .string surface.surfaceId), ("surface_kind", .string surface.surfaceKind),
        ("descriptor_version", .int surface.descriptorVersion),
        ("digest_recipe_id", .string surface.digestRecipeId),
        ("owned_unit_ids", texts surface.ownedUnitIds), ("references", texts surface.references),
        ("contract_change_class", .string surface.contractChangeClass)])) := by
    apply plain_array
    intro x hx
    obtain ⟨surface, hsurface, rfl⟩ := List.mem_map.mp hx
    have hsurface := (List.perm_insertionSort _ _).mem_iff.mp hsurface
    refine surfaceEntry_plain H.toTextEncoding (hok surface hsurface) (fun unitId hunit => ?_)
      fun reference hreference => hids _ (h.declared surface hsurface reference hreference)
    obtain ⟨unit, hmem, rfl⟩ := List.mem_map.mp (h.known surface hsurface unitId hunit)
    exact (hunits unit hmem).id
  have hinventory : Plain H.toEncoding (.array ((sortUnits units).map fun unit => .object
      [("unit_id", .string unit.unitId), ("unit_kind", .string unit.unitKind),
        ("distribution_scope", .string unit.distributionScope),
        ("normalized_path", .string unit.normalizedPath),
        ("owning_surface_id", .string unit.owningSurfaceId),
        ("leaf_recipe_id", .string unit.leafRecipeId)])) := by
    apply plain_array
    intro x hx
    obtain ⟨unit, hunit, rfl⟩ := List.mem_map.mp hx
    have hunit := (List.perm_insertionSort _ _).mem_iff.mp hunit
    obtain ⟨surface, hsurface, hid, -⟩ := h.owner unit hunit
    exact unitEntry_plain (hunits unit hunit) (hid ▸ hids _ (List.mem_map_of_mem hsurface))
  have hone : Plain H.toEncoding (.int 1) := plain_int (by decide)
  apply plain_fields H.toTextEncoding
  · simp only [List.map_cons, List.map_nil]
    decide
  · simp only [List.forall_mem_cons]
    decide
  · simp only [List.forall_mem_cons, List.not_mem_nil, false_implies, implies_true, and_true]
    exact ⟨plain_ascii _ (by decide), hone, hentries, hinventory⟩

/-! ### Acceptance -/

/-- What an accepted registry is. -/
def checkedRegistry (H : Hasher) (surfaces : List SurfaceDescriptor)
    (units : List RuntimeUnitDescriptor) : VerifiedSurfaceRegistry where
  surfaces := sortSurfaces surfaces
  units := sortUnits units
  topologicalSurfaceIds := order (surfaceIds surfaces) (referencesOf surfaces) (· ≤ ·)
  registryDigest := ((digest H "agent-workflow.surface-registry.v1"
    (registryProjection surfaces units)).toOption).getD ""

theorem digest_ok {v : JsonValue} (h : Plain H.toEncoding v) {domain : String} (hne : domain ≠ "")
    (hdomain : DomainOk domain) :
    digest H domain v = .ok ((digest H domain v).toOption.getD "") := by
  obtain ⟨p, hp⟩ := h.preimage hne hdomain
  rw [digest, hp]
  rfl

theorem registryDomain_ok : DomainOk "agent-workflow.surface-registry.v1" := by
  unfold DomainOk
  decide

variable {registryDocument inventoryDocument : Members}

theorem Described.surfaceOk (hD : Described H registryDocument inventoryDocument surfaces units) :
    ∀ surface ∈ surfaces, SurfaceOk surface := by
  obtain ⟨raws, -, hall⟩ := hD.surfaces
  intro surface hsurface
  obtain ⟨raw, -, hraw⟩ := forall₂_right hall surface hsurface
  exact (surfaceDescriptor_ok hraw).1

theorem Described.unitOk (hD : Described H registryDocument inventoryDocument surfaces units) :
    ∀ unit ∈ units, UnitOk H unit := by
  obtain ⟨raws, -, hall⟩ := hD.units
  intro unit hunit
  obtain ⟨raw, -, hraw⟩ := forall₂_right hall unit hunit
  exact unitDescriptor_ok hraw

/-- The documents hold one list of surfaces and one of units. -/
theorem Described.unique (hD : Described H registryDocument inventoryDocument surfaces units)
    (hD' : Described H registryDocument inventoryDocument surfaces' units') :
    surfaces = surfaces' ∧ units = units' := by
  obtain ⟨raws, hraws, hall⟩ := hD.surfaces
  obtain ⟨raws', hraws', hall'⟩ := hD'.surfaces
  obtain ⟨rawUnits, hrawUnits, hunits⟩ := hD.units
  obtain ⟨rawUnits', hrawUnits', hunits'⟩ := hD'.units
  rw [hraws] at hraws'
  rw [hrawUnits] at hrawUnits'
  cases hraws'
  cases hrawUnits'
  constructor
  · exact Relator.RightUnique.forall₂
      (fun a b c hb hc => Except.ok.inj (hb.symm.trans hc)) hall hall'
  · exact Relator.RightUnique.forall₂
      (fun a b c hb hc => Except.ok.inj (hb.symm.trans hc)) hunits hunits'

/-- A registry is accepted just when it is described by well-formed descriptors. -/
theorem validateSurfaceRegistry_eq_ok :
    validateSurfaceRegistry H casefold registryDocument inventoryDocument = .ok registry ↔
      ∃ surfaces units, Described H registryDocument inventoryDocument surfaces units ∧
        (surfaceIds surfaces).Nodup ∧ (units.map (·.unitId)).Nodup ∧
        WellFormed casefold surfaces units ∧ registry = checkedRegistry H surfaces units := by
  have hempty : (([] : List (String × String)).map Prod.fst).Nodup := List.nodup_nil
  constructor
  · intro h
    unfold validateSurfaceRegistry at h
    obtain ⟨surfaces, hsurfaces, h⟩ := bind_eq_ok h
    obtain ⟨units, hunits, h⟩ := bind_eq_ok h
    obtain ⟨ordered, hordered, h⟩ := bind_eq_ok h
    obtain ⟨claimed, hclaimed, h⟩ := bind_eq_ok h
    obtain ⟨_, hcovered, h⟩ := bind_eq_ok h
    obtain ⟨_, howner, h⟩ := bind_eq_ok h
    obtain ⟨_, hloadable, h⟩ := bind_eq_ok h
    obtain ⟨registryDigest, hdigest, h⟩ := bind_eq_ok h
    cases h
    obtain ⟨hfields, hschema, hdescriptors, hids, hmandatory⟩ := parseSurfaces_eq_ok.mp hsurfaces
    obtain ⟨hunitFields, hunitSchema, hunitDescriptors, hapart⟩ := parseUnits_eq_ok.mp hunits
    have hD : Described H registryDocument inventoryDocument surfaces units :=
      ⟨hfields, hschema, hdescriptors, hunitFields, hunitSchema, hunitDescriptors⟩
    have hok := hD.surfaceOk
    obtain ⟨hdeclared, hacyclic, rfl⟩ := (topologicalOrder_eq_ok hids hok).mp hordered
    obtain ⟨hclaims, hnodup⟩ := (claimOwners_eq_ok hempty).mp hclaimed
    rw [List.nil_append] at hclaims
    subst hclaims
    have howners := (owners_iff hids hok).mp
      ⟨hnodup, of_decide_eq_true (check_eq_ok.mp hcovered), fun unit (hunit : unit ∈ units) => by
        obtain ⟨_, hexists, hagrees⟩ := bind_eq_ok (forM_eq_ok howner unit hunit)
        exact ⟨of_decide_eq_true (check_eq_ok.mp hexists),
          of_decide_eq_true (check_eq_ok.mp hagrees)⟩⟩
    refine ⟨surfaces, units, hD, hids, hapart.ids, ⟨hdeclared, hacyclic, howners.1, howners.2,
      hapart.paths, hmandatory, fun surface hsurface => ?_⟩, ?_⟩
    · exact (checkLoadable_eq_ok hdeclared hsurface (hok surface hsurface)).mp
        (forM_eq_ok hloadable surface hsurface)
    · rw [checkedRegistry, hdigest]
      rfl
  · rintro ⟨surfaces, units, hD, hids, hunitIds, hwell, rfl⟩
    have hok := hD.surfaceOk
    have hsurfaces : parseSurfaces registryDocument = .ok surfaces :=
      parseSurfaces_eq_ok.mpr ⟨hD.registryFields, hD.registrySchema, hD.surfaces, hids,
        hwell.mandatory⟩
    have hunits : parseUnits H casefold inventoryDocument = .ok units :=
      parseUnits_eq_ok.mpr ⟨hD.inventoryFields, hD.inventorySchema, hD.units, hunitIds,
        hwell.paths⟩
    have hordered := (topologicalOrder_eq_ok hids hok).mpr ⟨hwell.declared, hwell.acyclic, rfl⟩
    obtain ⟨hnodup, hcovered, howner⟩ :=
      (owners_iff hids hok).mpr ⟨hwell.known, hwell.owner⟩
    have hclaimed : claimOwners [] (ownershipClaims surfaces) = .ok (ownershipClaims surfaces) :=
      (claimOwners_eq_ok hempty).mpr ⟨(List.nil_append _).symm, hnodup⟩
    have howners : units.forM (checkOwner surfaces (ownershipClaims surfaces)) = .ok () := by
      refine forM_ok fun unit hunit => ?_
      obtain ⟨hexists, hagrees⟩ := howner unit hunit
      simp [checkOwner, check, hexists, hagrees]
    have hloadable : surfaces.forM (checkLoadable surfaces) = .ok () := by
      refine forM_ok fun surface hsurface => ?_
      exact (checkLoadable_eq_ok hwell.declared hsurface (hok surface hsurface)).mpr
        (hwell.loadable surface hsurface)
    have hdigest : digest H "agent-workflow.surface-registry.v1"
        (registryProjection surfaces units) = .ok _ :=
      digest_ok (registryProjection_plain hok hD.unitOk hwell) (by decide) registryDomain_ok
    rw [validateSurfaceRegistry, hsurfaces, bind_ok_eq, hunits, bind_ok_eq, hordered, bind_ok_eq,
      hclaimed, bind_ok_eq]
    simp only [check, hcovered, and_self, decide_true, if_true, bind_ok_eq]
    rw [howners, bind_ok_eq, hloadable, bind_ok_eq, hdigest, bind_ok_eq]
    rfl

/-! ### The order of arrays -/

/-- A surface with its owned units and its references in another order. -/
def SurfaceReordered (raw raw' : JsonValue) : Prop :=
  ∃ ms ms', raw = .object ms ∧ raw' = .object ms' ∧
    FieldsReordered ["owned_unit_ids", "references"] ms ms'

/-- A registry with its surfaces, and the arrays of each, in another order. -/
structure RegistryReordered (document document' : Members) : Prop where
  other : ∀ k, k ≠ "surfaces" → document'.lookup k = document.lookup k
  surfaces : ∃ xs ys zs, getField document "surfaces" = .array xs ∧
    List.Forall₂ SurfaceReordered xs ys ∧ ys.Perm zs ∧ getField document' "surfaces" = .array zs

theorem stringSet_eq_ok {v : JsonValue} {label : String} {l : List String} :
    stringSet v label = .ok l ↔ ∃ xs value, v = .array xs ∧
      List.Forall₂ (fun x s => stringValue? x = some s) xs value ∧ value.Nodup ∧
      l = sortStrings value := by
  have hlength : ∀ value : List String,
      (sortStrings value.dedup).length = value.length ↔ value.Nodup := by
    intro value
    rw [sortStrings, (List.perm_insertionSort _ _).length_eq]
    constructor
    · intro h
      exact List.dedup_eq_self.mp ((List.dedup_sublist value).eq_of_length h)
    · intro h
      rw [List.dedup_eq_self.mpr h]
  constructor
  · intro h
    unfold stringSet at h
    obtain ⟨value, hvalue, h⟩ := bind_eq_ok h
    obtain ⟨_, hnodup, h⟩ := bind_eq_ok h
    cases h
    obtain ⟨xs, hxs, hmap⟩ := Option.bind_eq_some_iff.mp (require_eq_ok.mp hvalue)
    have hnodup := (hlength value).mp (of_decide_eq_true (check_eq_ok.mp hnodup))
    exact ⟨xs, value, items?_eq_some.mp hxs, mapM_some_iff.mp hmap, hnodup,
      by rw [List.dedup_eq_self.mpr hnodup]⟩
  · rintro ⟨xs, value, rfl, hmap, hnodup, rfl⟩
    have hsome : ((items? (.array xs)).bind fun raws => raws.mapM stringValue?) = some value :=
      mapM_some_iff.mpr hmap
    rw [stringSet, hsome]
    simp only [require, bind_ok_eq, check, (hlength value).mpr hnodup, decide_true, if_true]
    rw [List.dedup_eq_self.mpr hnodup]
    rfl

theorem stringSet_reordered {v w : JsonValue} (h : ArrayReordered v w) {label : String}
    {l : List String} (hv : stringSet v label = .ok l) : stringSet w label = .ok l := by
  obtain ⟨xs, ys, rfl, rfl, hperm⟩ := h
  obtain ⟨xs', value, hxs, hall, hnodup, rfl⟩ := stringSet_eq_ok.mp hv
  cases hxs
  obtain ⟨value', hall', hperm'⟩ := List.perm_comp_forall₂ hperm.symm hall
  refine stringSet_eq_ok.mpr ⟨ys, value', rfl, hall', hperm'.nodup_iff.mpr hnodup, ?_⟩
  exact List.Perm.eq_of_pairwise' (List.pairwise_insertionSort _ _)
    (List.pairwise_insertionSort _ _) ((List.perm_insertionSort _ _).trans
      (hperm'.symm.trans (List.perm_insertionSort _ _).symm))

theorem surfaceDescriptor_reordered {raw raw' : JsonValue} (h : SurfaceReordered raw raw')
    {surface : SurfaceDescriptor} (hraw : surfaceDescriptor [] raw = .ok surface) :
    surfaceDescriptor [] raw' = .ok surface := by
  obtain ⟨ms, ms', rfl, rfl, h⟩ := h
  unfold surfaceDescriptor at hraw ⊢
  obtain ⟨members, hmembers, hraw⟩ := bind_eq_ok hraw
  cases hmembers
  have hmembers' : require (members? (.object ms'))
      (graphFailure "surface descriptor fields are not closed" []) = .ok ms' := rfl
  obtain ⟨_, hfields, hraw⟩ := bind_eq_ok hraw
  obtain ⟨surfaceId, hid, hraw⟩ := bind_eq_ok hraw
  obtain ⟨kind, hkind, hraw⟩ := bind_eq_ok hraw
  obtain ⟨_, hnamespace, hraw⟩ := bind_eq_ok hraw
  obtain ⟨_, hseen, hraw⟩ := bind_eq_ok hraw
  obtain ⟨_, hversion, hraw⟩ := bind_eq_ok hraw
  obtain ⟨_, hrecipe, hraw⟩ := bind_eq_ok hraw
  obtain ⟨_, hclass, hraw⟩ := bind_eq_ok hraw
  obtain ⟨owned, howned, hraw⟩ := bind_eq_ok hraw
  obtain ⟨references, hreferences, hraw⟩ := bind_eq_ok hraw
  rw [hmembers', bind_ok_eq, fieldsAre_congr h.hasKey, h.get (by decide), h.get (by decide),
    h.get (by decide), h.get (by decide), h.get (by decide), hfields, bind_ok_eq, hid, bind_ok_eq,
    hkind, bind_ok_eq]
  simp only
  rw [hnamespace, bind_ok_eq, hseen, bind_ok_eq, hversion, bind_ok_eq, hrecipe, bind_ok_eq, hclass,
    bind_ok_eq, stringSet_reordered (h.array _ (by decide)) howned, bind_ok_eq,
    stringSet_reordered (h.array _ (by decide)) hreferences, bind_ok_eq]
  exact hraw

theorem surfaceDescriptors_reordered {xs ys : List JsonValue}
    (h : List.Forall₂ SurfaceReordered xs ys)
    (hall : List.Forall₂ (fun raw surface => surfaceDescriptor [] raw = .ok surface) xs surfaces) :
    List.Forall₂ (fun raw surface => surfaceDescriptor [] raw = .ok surface) ys surfaces := by
  induction h generalizing surfaces with
  | nil =>
    cases hall
    exact .nil
  | cons hraw _ ih =>
    cases hall with
    | cons hsurface hall => exact .cons (surfaceDescriptor_reordered hraw hsurface) (ih hall)

variable {registryDocument' inventoryDocument' : Members}

theorem RegistryReordered.hasKey {document document' : Members}
    (h : RegistryReordered document document') (k : String) :
    hasKey document' k = hasKey document k := by
  by_cases hk : k = "surfaces"
  · subst hk
    obtain ⟨xs, ys, zs, hxs, -, -, hzs⟩ := h.surfaces
    rw [hasKey_of_array hxs, hasKey_of_array hzs]
  · rw [Core.hasKey, Core.hasKey, h.other k hk]

theorem Described.reordered
    (hD : Described H registryDocument inventoryDocument surfaces units)
    (hregistry : RegistryReordered registryDocument registryDocument')
    (hinventory : FieldsReordered ["units"] inventoryDocument inventoryDocument') :
    ∃ surfaces' units', surfaces.Perm surfaces' ∧ units.Perm units' ∧
      Described H registryDocument' inventoryDocument' surfaces' units' := by
  obtain ⟨raws, hraws, hall⟩ := hD.surfaces
  obtain ⟨xs, ys, zs, hxs, hreordered, hperm, hzs⟩ := hregistry.surfaces
  rw [hraws] at hxs
  cases hxs
  have hall' := surfaceDescriptors_reordered hreordered hall
  obtain ⟨surfaces', hsurfaces', hsurfacesPerm⟩ := List.perm_comp_forall₂ hperm.symm hall'
  obtain ⟨rawUnits, hrawUnits, hunits⟩ := hD.units
  obtain ⟨us, vs, hus, hvs, hunitsPerm⟩ := hinventory.array "units" (by decide)
  rw [hrawUnits] at hus
  cases hus
  obtain ⟨units', hunits', hunitsPerm⟩ := List.perm_comp_forall₂ hunitsPerm.symm hunits
  refine ⟨surfaces', units', hsurfacesPerm.symm, hunitsPerm.symm, ?_⟩
  constructor
  · rw [fieldsAre_congr hregistry.hasKey]
    exact hD.registryFields
  · rw [getField_congr (hregistry.other "schema_id" (by decide)),
      getField_congr (hregistry.other "schema_version" (by decide))]
    exact hD.registrySchema
  · exact ⟨zs, hzs, hsurfaces'⟩
  · rw [fieldsAre_congr hinventory.hasKey]
    exact hD.inventoryFields
  · rw [hinventory.get (by decide), hinventory.get (by decide)]
    exact hD.inventorySchema
  · exact ⟨vs, hvs, hunits'⟩

theorem referencesOf_perm (hperm : surfaces.Perm surfaces') (hids : (surfaceIds surfaces).Nodup) :
    referencesOf surfaces' = referencesOf surfaces := by
  funext surfaceId
  rw [referencesOf, referencesOf, surfaceAt_perm hperm hids]

theorem WellFormed.perm (h : WellFormed casefold surfaces units) (hids : (surfaceIds surfaces).Nodup)
    (hperm : surfaces.Perm surfaces') (hunits : units.Perm units') :
    WellFormed casefold surfaces' units' := by
  have hmem : ∀ a, a ∈ surfaceIds surfaces' ↔ a ∈ surfaceIds surfaces := fun a =>
    (hperm.map _).mem_iff.symm
  have hrefs := referencesOf_perm hperm hids
  constructor
  · intro surface hsurface reference hreference
    exact (hmem _).mpr (h.declared surface (hperm.mem_iff.mpr hsurface) reference hreference)
  · intro a ha
    rw [hrefs]
    exact h.acyclic a ((hmem a).mp ha)
  · intro surface hsurface unitId hunit
    exact (hunits.map _).mem_iff.mp (h.known surface (hperm.mem_iff.mpr hsurface) unitId hunit)
  · intro unit hunit
    obtain ⟨surface, hsurface, hid, howned, honly⟩ := h.owner unit (hunits.mem_iff.mpr hunit)
    exact ⟨surface, hperm.mem_iff.mp hsurface, hid, howned, fun other hother =>
      honly other (hperm.mem_iff.mpr hother)⟩
  · exact (hunits.map _).nodup_iff.mp h.paths
  · exact fun m hm => (hmem m).mpr (h.mandatory m hm)
  · intro surface hsurface hkind m hm
    rw [hrefs]
    exact h.loadable surface (hperm.mem_iff.mpr hsurface) hkind m hm

/-- The accepted registry itself is well formed. -/
theorem validateSurfaceRegistry_wellFormed
    (h : validateSurfaceRegistry H casefold registryDocument inventoryDocument = .ok registry) :
    WellFormed casefold registry.surfaces registry.units := by
  obtain ⟨surfaces, units, -, hids, -, hwell, rfl⟩ := validateSurfaceRegistry_eq_ok.mp h
  exact hwell.perm hids (List.perm_insertionSort _ _).symm (List.perm_insertionSort _ _).symm

theorem checkedRegistry_perm (hids : (surfaceIds surfaces).Nodup)
    (hunitIds : (units.map (·.unitId)).Nodup) (hperm : surfaces.Perm surfaces')
    (hunits : units.Perm units') :
    checkedRegistry H surfaces units = checkedRegistry H surfaces' units' := by
  have hsurfaces : sortSurfaces surfaces = sortSurfaces surfaces' :=
    insertionSort_key_perm (r := (· ≤ ·)) SurfaceDescriptor.surfaceId hperm hids
  have hsorted : sortUnits units = sortUnits units' :=
    insertionSort_key_perm (r := (· ≤ ·)) RuntimeUnitDescriptor.unitId hunits hunitIds
  have horder : order (surfaceIds surfaces) (referencesOf surfaces) (· ≤ ·) =
      order (surfaceIds surfaces') (referencesOf surfaces') (· ≤ ·) := by
    rw [referencesOf_perm hperm hids]
    exact order_perm (hperm.map _)
  rw [checkedRegistry, checkedRegistry, registryProjection, registryProjection, hsurfaces, hsorted,
    horder]

theorem surface_registry_accepted_iff
    (hD : Described H registryDocument inventoryDocument surfaces units)
    (hids : (surfaceIds surfaces).Nodup) (hunitIds : (units.map (·.unitId)).Nodup) :
    ((∃ registry, validateSurfaceRegistry H casefold registryDocument inventoryDocument =
        .ok registry) ↔ WellFormed casefold surfaces units) ∧
      ∀ registry,
        validateSurfaceRegistry H casefold registryDocument inventoryDocument = .ok registry →
        registry.topologicalSurfaceIds.Nodup ∧
        (∀ surfaceId, surfaceId ∈ registry.topologicalSurfaceIds ↔
          surfaceId ∈ surfaceIds surfaces) ∧
        Ordered (referencesOf surfaces) registry.topologicalSurfaceIds ∧
        ∀ registryDocument' inventoryDocument',
          RegistryReordered registryDocument registryDocument' →
          FieldsReordered ["units"] inventoryDocument inventoryDocument' →
          validateSurfaceRegistry H casefold registryDocument' inventoryDocument' =
            .ok registry := by
  constructor
  · constructor
    · rintro ⟨registry, h⟩
      obtain ⟨surfaces', units', hD', -, -, hwell, -⟩ := validateSurfaceRegistry_eq_ok.mp h
      obtain ⟨rfl, rfl⟩ := hD.unique hD'
      exact hwell
    · intro hwell
      exact ⟨_, validateSurfaceRegistry_eq_ok.mpr ⟨surfaces, units, hD, hids, hunitIds, hwell, rfl⟩⟩
  · intro registry h
    obtain ⟨surfaces', units', hD', -, -, hwell, rfl⟩ := validateSurfaceRegistry_eq_ok.mp h
    obtain ⟨rfl, rfl⟩ := hD.unique hD'
    have hordered := (topologicalOrder_eq_ok hids hD.surfaceOk).mpr
      ⟨hwell.declared, hwell.acyclic, rfl⟩
    obtain ⟨-, hlisted, honce, hordered⟩ := topologicalOrder_ok hordered hD.surfaceOk hids
    refine ⟨honce, hlisted, hordered, ?_⟩
    intro registryDocument' inventoryDocument' hregistry hinventory
    obtain ⟨surfaces', units', hperm, hunits, hD'⟩ := hD.reordered hregistry hinventory
    refine validateSurfaceRegistry_eq_ok.mpr ⟨surfaces', units', hD',
      (hperm.map _).nodup_iff.mp hids, (hunits.map _).nodup_iff.mp hunitIds,
      hwell.perm hids hperm hunits, checkedRegistry_perm hids hunitIds hperm hunits⟩

def sampleSwappedDocument : Members :=
  [("schema_id", .string "agent-workflow.runtime-surface-registry"), ("schema_version", .int 1),
    ("surfaces", .array
      [sampleSurface "surface-registry" "python:registry" [],
        sampleSurface "runtime-control-plane" "python:plane" ["surface-registry"]])]

theorem sampleSurface_reordered (surfaceId unitId : String) (references : List String) :
    SurfaceReordered (sampleSurface surfaceId unitId references)
      (sampleSurface surfaceId unitId references) := by
  refine ⟨_, _, rfl, rfl, fun _ _ => rfl, fun k hk => ?_⟩
  simp only [List.mem_cons, List.not_mem_nil, or_false] at hk
  rcases hk with rfl | rfl
  · exact ⟨_, _, rfl, rfl, .refl _⟩
  · exact ⟨_, _, rfl, rfl, .refl _⟩

theorem surface_registry_accepted_iff_sample :
    validateSurfaceRegistry checksumHasher id sampleSwappedDocument sampleInventory =
      .ok sampleRegistry := by
  obtain ⟨surfaces, units, hD, hids, hunitIds, -, -⟩ :=
    validateSurfaceRegistry_eq_ok.mp sampleRegistry_validated
  have hregistry : RegistryReordered sampleRegistryDocument sampleSwappedDocument := by
    constructor
    · intro k hk
      simp [sampleRegistryDocument, sampleSwappedDocument, List.lookup_cons, beq_eq_false_iff_ne.mpr hk]
    · exact ⟨_, _, _, rfl, .cons (sampleSurface_reordered _ _ _)
        (.cons (sampleSurface_reordered _ _ _) .nil), .swap _ _ _, rfl⟩
  have hinventory : FieldsReordered ["units"] sampleInventory sampleInventory := by
    refine ⟨fun _ _ => rfl, fun k hk => ?_⟩
    rw [List.mem_singleton] at hk
    subst hk
    exact ⟨_, _, rfl, rfl, .refl _⟩
  obtain ⟨-, haccepted⟩ := surface_registry_accepted_iff hD hids hunitIds
  obtain ⟨-, -, -, hreordered⟩ := haccepted sampleRegistry sampleRegistry_validated
  exact hreordered sampleSwappedDocument sampleInventory hregistry hinventory

end AgentStack.Core
