import AgentStack.Route.TaskSurfaces
import AgentStack.Runtime.RuntimeIntegrity

/-! The pins of a task against the closures that its surfaces are loaded with. -/
namespace AgentStack.Route

open AgentStack.Core JsonText KeyedList RefGraph AgentStack.Runtime

variable {H : Hasher} {casefold : String → String} {registry : VerifiedSurfaceRegistry}
  {surfaces : List SurfaceDescriptor} {ordered : List String} {digests : List (String × String)}

/-! ### A verified registry passes -/

theorem transitiveFrom_eq_ok (h : Declared surfaces) (start : String) {fuel : ℕ}
    {visited pending : List String} (hpending : ∀ a ∈ pending, a ∈ surfaceIds surfaces) :
    transitiveFrom start surfaces fuel visited pending =
      .ok (visit (referencesOf surfaces) fuel visited pending) := by
  induction fuel generalizing visited pending with
  | zero => rfl
  | succ fuel ih =>
    cases pending with
    | nil => rfl
    | cons a pending =>
      rw [List.forall_mem_cons] at hpending
      rw [transitiveFrom, visit]
      split
      next => exact ih hpending.2
      next =>
        have hnext : ∀ b ∈ (referencesOf surfaces a).reverse ++ pending,
            b ∈ surfaceIds surfaces := by
          intro b hb
          rcases List.mem_append.mp hb with hb | hb
          · exact h.closed a hpending.1 b (List.mem_reverse.mp hb)
          · exact hpending.2 b hb
        simp only [check, hpending.1, decide_true, if_true, bind_ok_eq]
        exact ih hnext

theorem transitive_eq_ok (h : Declared surfaces) {start : String}
    (hstart : start ∈ surfaceIds surfaces) :
    transitive start surfaces = .ok (transitiveReferences start surfaces) :=
  transitiveFrom_eq_ok h start fun a ha => h.closed start hstart a (List.mem_reverse.mp ha)

theorem claimUnits_eq_ok {owner : String} {claimed : List (String × String)}
    {unitIds : List String} (h : (claimed.map Prod.fst ++ unitIds).Nodup) :
    claimUnits owner claimed unitIds = .ok (claimed ++ unitIds.map fun unitId => (unitId, owner)) := by
  induction unitIds generalizing claimed with
  | nil =>
    rw [List.map_nil, List.append_nil]
    rfl
  | cons unitId unitIds ih =>
    have hnew : unitId ∉ claimed.map Prod.fst := fun hmem =>
      (List.nodup_append.mp h).2.2 unitId hmem unitId List.mem_cons_self rfl
    have hnext : ((claimed ++ [(unitId, owner)]).map Prod.fst ++ unitIds).Nodup := by
      rw [List.map_append, List.append_assoc]
      exact h
    rw [claimUnits]
    simp only [check, hnew, not_false_eq_true, decide_true, if_true, bind_ok_eq]
    rw [ih hnext, List.map_cons, List.append_assoc]
    rfl

theorem checkSurface_eq_ok (hdeclared : Declared surfaces)
    (hordered : ∀ surface ∈ surfaces, ∀ reference ∈ surface.references,
      ordered.idxOf reference < ordered.idxOf surface.surfaceId)
    {surface : SurfaceDescriptor} (hmem : surface ∈ surfaces) (hok : SurfaceOk surface)
    {claimed : List (String × String)}
    (hclaims : (claimed.map Prod.fst ++ surface.ownedUnitIds).Nodup) :
    checkSurface ordered surfaces claimed surface =
      .ok (claimed ++ surface.ownedUnitIds.map fun unitId => (unitId, surface.surfaceId)) := by
  have hreferences : surface.references.forM (checkPosition ordered surfaces surface.surfaceId) =
      .ok () := by
    refine forM_ok fun reference hreference => ?_
    have hlt := hordered surface hmem reference hreference
    have hne : reference ≠ surface.surfaceId := by
      rintro rfl
      exact lt_irrefl _ hlt
    rw [checkPosition]
    simp [check, hdeclared surface hmem reference hreference, hne, hlt]
  rw [checkSurface, claimUnits_eq_ok hclaims, hreferences]
  simp [check, hok.version, hok.recipe, hok.changeClass, hok.owns, hok.owned, hok.references]

theorem checkSurfaces_eq_ok (hdeclared : Declared surfaces)
    (hordered : ∀ surface ∈ surfaces, ∀ reference ∈ surface.references,
      ordered.idxOf reference < ordered.idxOf surface.surfaceId)
    (hok : ∀ surface ∈ surfaces, SurfaceOk surface) {rest : List SurfaceDescriptor}
    (hrest : ∀ surface ∈ rest, surface ∈ surfaces) {claimed : List (String × String)}
    (hclaims : ((claimed ++ ownershipClaims rest).map Prod.fst).Nodup) :
    checkSurfaces ordered surfaces claimed rest = .ok (claimed ++ ownershipClaims rest) := by
  induction rest generalizing claimed with
  | nil =>
    rw [checkSurfaces]
    simp [ownershipClaims]
  | cons surface rest ih =>
    rw [List.forall_mem_cons] at hrest
    have hsplit : claimed ++ ownershipClaims (surface :: rest) =
        (claimed ++ surface.ownedUnitIds.map fun unitId => (unitId, surface.surfaceId)) ++
          ownershipClaims rest := by
      rw [List.append_assoc, ownershipClaims, List.flatMap_cons]
      rfl
    rw [hsplit] at hclaims ⊢
    have hfirst : (claimed.map Prod.fst ++ surface.ownedUnitIds).Nodup := by
      rw [List.map_append] at hclaims
      have hmap := (List.nodup_append.mp hclaims).1
      simpa [Function.comp_def] using hmap
    rw [checkSurfaces, checkSurface_eq_ok hdeclared hordered hrest.1 (hok _ hrest.1) hfirst,
      bind_ok_eq]
    exact ih hrest.2 hclaims

theorem checkTaskLoadable_eq_ok (hV : Validated H registry)
    (hwell : WellFormed casefold registry.surfaces registry.units) {surface : SurfaceDescriptor}
    (hmem : surface ∈ registry.surfaces) : checkTaskLoadable registry.surfaces surface = .ok () := by
  rw [checkTaskLoadable]
  split
  next hkind =>
    have hok := hV.surface surface hmem
    have hloadable := (checkLoadable_eq_ok hwell.declared hmem hok).mpr
      (hwell.loadable surface hmem)
    rw [checkLoadable, if_pos hkind, check_eq_ok] at hloadable
    rw [transitive_eq_ok hwell.declared (List.mem_map_of_mem hmem), bind_ok_eq]
    exact check_eq_ok.mpr hloadable
  next => rfl

theorem validateRegistry_eq_ok (hV : Validated H registry)
    (hwell : WellFormed casefold registry.surfaces registry.units)
    (hkeys : digests.map Prod.fst = registry.topologicalSurfaceIds)
    (hdigest : ∀ entry ∈ digests, isDigest entry.2 = true) :
    validateRegistry ⟨registry, digests⟩ = .ok () := by
  have hlisted : sameIds registry.topologicalSurfaceIds (surfaceIds registry.surfaces) = true :=
    decide_eq_true ⟨fun a ha => (hV.listed a).mp ha, fun a ha => (hV.listed a).mpr ha⟩
  have hordered : ∀ surface ∈ registry.surfaces, ∀ reference ∈ surface.references,
      registry.topologicalSurfaceIds.idxOf reference <
        registry.topologicalSurfaceIds.idxOf surface.surfaceId := by
    intro surface hmem reference hreference
    have hat := (surfaceAt_eq_some hV.surfaceIds).mpr ⟨hmem, rfl⟩
    refine hV.ordered.idxOf_lt ((hV.listed _).mpr (List.mem_map_of_mem hmem)) ?_
    rw [referencesOf_of_surfaceAt hat]
    exact hreference
  obtain ⟨hclaims, hsame, howner⟩ :=
    (owners_iff hV.surfaceIds hV.surface).mpr ⟨hwell.known, hwell.owner⟩
  have hsurfaces : checkSurfaces registry.topologicalSurfaceIds registry.surfaces []
      registry.surfaces = .ok (ownershipClaims registry.surfaces) := by
    rw [← List.nil_append (ownershipClaims registry.surfaces)] at hclaims ⊢
    exact checkSurfaces_eq_ok hwell.declared hordered hV.surface (fun _ h => h) hclaims
  have howners : registry.units.forM (checkUnitOwner (ownershipClaims registry.surfaces)) =
      .ok () := forM_ok fun unit hunit =>
    check_eq_ok.mpr (decide_eq_true (howner unit hunit).2)
  have hmandatory : Core.mandatorySurfaces.forM (checkMandatory registry.surfaces) = .ok () :=
    forM_ok fun m hm => check_eq_ok.mpr (decide_eq_true (hwell.mandatory m hm))
  have hloadable : registry.surfaces.forM (checkTaskLoadable registry.surfaces) = .ok () :=
    forM_ok fun surface hmem => checkTaskLoadable_eq_ok hV hwell hmem
  have hcovered : sameIds ((ownershipClaims registry.surfaces).map Prod.fst)
      (registry.units.map (·.unitId)) = true := decide_eq_true hsame
  have hall : (digests.all fun entry => isDigest entry.2) = true := List.all_eq_true.mpr hdigest
  simp only [validateRegistry, check, hkeys, hlisted, hV.listedOnce, decide_true, Bool.and_true,
    if_true, hsurfaces, hcovered, howners, hmandatory, hloadable, hall, bind_ok_eq]

/-! ### The pins -/

theorem taskRoots_known {route platform entryOwner : String} {roots : List String}
    (h : taskRoots route platform entryOwner registry = .ok roots) :
    roots.Nodup ∧ (∀ root ∈ roots, root ∈ surfaceIds registry.surfaces) ∧
      "trellis-runtime" ∈ roots := by
  unfold taskRoots at h
  simp only at h
  obtain ⟨_, -, h⟩ := bind_eq_ok h
  obtain ⟨_, -, h⟩ := bind_eq_ok h
  obtain ⟨_, -, h⟩ := bind_eq_ok h
  obtain ⟨_, -, h⟩ := bind_eq_ok h
  obtain ⟨_, -, h⟩ := bind_eq_ok h
  obtain ⟨_, hmissing, h⟩ := bind_eq_ok h
  cases h
  have hmissing := of_decide_eq_true (check_eq_ok.mp hmissing)
  rw [← List.length_eq_zero_iff, sortStrings, List.length_insertionSort, List.length_eq_zero_iff,
    List.filter_eq_nil_iff] at hmissing
  have hall : ["platform-adapter:" ++ platform, "trellis-runtime", "runtime-entry:" ++ entryOwner,
      "router:" ++ entryOwner].Nodup := by simp [String.ext_iff]
  refine ⟨?_, fun root hroot => by simpa using hmissing root hroot, by simp⟩
  split
  next => exact hall
  next => exact hall.sublist (by simp)

theorem taskPins_eq {l : List String} {pins : List Runtime.SurfacePin}
    (h : l.mapM (taskPin digests) = .ok pins) :
    pins.map (·.surfaceId) = l ∧
      ∀ pin ∈ pins, digests.lookup pin.surfaceId = some pin.surfaceDigest := by
  have hpin : ∀ surfaceId pin, taskPin digests surfaceId = .ok pin →
      pin.surfaceId = surfaceId ∧ digests.lookup surfaceId = some pin.surfaceDigest := by
    intro surfaceId pin h
    obtain ⟨d, hd, h⟩ := bind_eq_ok h
    cases h
    exact ⟨rfl, require_eq_ok.mp hd⟩
  have hall := mapM_eq_ok.mp h
  constructor
  · induction hall with
    | nil => rfl
    | cons hfirst hrest ih =>
      rw [List.map_cons, (hpin _ _ hfirst).1, ih (mapM_eq_ok.mpr hrest)]
  · intro pin hmem
    obtain ⟨surfaceId, -, hfound⟩ := forall₂_right hall pin hmem
    obtain ⟨rfl, hlookup⟩ := hpin _ _ hfound
    exact hlookup

/-- The closure of a surface among the pins, as the loader computes it. -/
theorem runtimeClosure_pinned (hV : Validated H registry)
    (hwell : WellFormed casefold registry.surfaces registry.units) {pins : List Runtime.SurfacePin}
    (hclosed : ∀ a ∈ pins.map (·.surfaceId), ∀ b,
      Reaches (referencesOf registry.surfaces) a b → b ∈ pins.map (·.surfaceId))
    (hdigests : ∀ pin ∈ pins, digests.lookup pin.surfaceId = some pin.surfaceDigest)
    {surface : SurfaceDescriptor} (hmem : surface ∈ registry.surfaces)
    (hkind : surface.surfaceKind ∈ taskLoadableKinds)
    (hpinned : surface.surfaceId ∈ pins.map (·.surfaceId)) :
    ∃ closure, runtimeClosure registry surface.surfaceId = .ok closure ∧
      closure ⊆ pins.map (·.surfaceId) ∧ checkPinned closure (pinnedDigests pins) = .ok () ∧
      ∀ message, closure.forM (checkSameDigest message digests (pinnedDigests pins)) = .ok () := by
  have hclosure := (runtimeClosure_eq_ok hV).mpr
    ⟨List.mem_map_of_mem hmem, hwell.loadable surface hmem hkind, rfl⟩
  have hsub : ∀ a ∈ registry.topologicalSurfaceIds.filter
      (· ∈ reachedFrom registry.surfaces [surface.surfaceId]), a ∈ pins.map (·.surfaceId) :=
    fun a ha => hclosed _ hpinned a ((mem_runtimeClosure hV hclosure).mp ha)
  have hkeys : (pinnedDigests pins).map Prod.fst = pins.map (·.surfaceId) := by
    simp [pinnedDigests, Function.comp_def]
  refine ⟨_, hclosure, hsub, ?_, fun message => forM_ok fun a ha => ?_⟩
  · rw [checkPinned, check_eq_ok, decide_eq_true_eq, List.filter_eq_nil_iff]
    intro a ha
    rw [hkeys]
    simpa using hsub a ha
  · have hpin : a ∈ (pinnedDigests pins).map Prod.fst := hkeys ▸ hsub a ha
    have hfound := lookup_of_mem_keys hpin
    obtain ⟨pin, hmempin, hpair⟩ := List.mem_map.mp (mem_of_lookup hfound)
    rw [Prod.mk.injEq] at hpair
    have hcurrent := hdigests pin hmempin
    rw [hpair.1, hpair.2] at hcurrent
    rw [checkSameDigest, require_eq_ok.mpr hcurrent, bind_ok_eq, require_eq_ok.mpr hfound,
      bind_ok_eq]
    exact check_eq_ok.mpr (decide_eq_true rfl)

theorem trellis_reaches_mandatory (hV : Validated H registry)
    (hwell : WellFormed casefold registry.surfaces registry.units)
    (hknown : "trellis-runtime" ∈ surfaceIds registry.surfaces) :
    ∀ m ∈ Core.mandatorySurfaces, Reaches (referencesOf registry.surfaces) "trellis-runtime" m := by
  obtain ⟨surface, hmem, hid⟩ := List.mem_map.mp hknown
  have hkind := (hV.surface surface hmem).kind
  have htrellis : surfaceKind "trellis-runtime" = some "trellis-runtime" := by decide
  rw [hid, htrellis] at hkind
  have hloadable : surface.surfaceKind ∈ taskLoadableKinds := by
    rw [← Option.some.inj hkind]
    decide
  rw [← hid]
  exact hwell.loadable surface hmem hloadable

theorem task_pins_cover_runtime_closures {registryDocument inventoryDocument : Members}
    (hregistry : validateSurfaceRegistry H casefold registryDocument inventoryDocument =
      .ok registry) (digests : List (String × String)) (route platform entryOwner : String) :
    (∀ pins, deriveTaskSurfaceClosure route platform entryOwner ⟨registry, digests⟩ = .ok pins →
      ∃ roots, taskRoots route platform entryOwner registry = .ok roots ∧
        (∀ surfaceId, surfaceId ∈ pins.map (·.surfaceId) ↔
          ∃ root ∈ roots, Reaches (referencesOf registry.surfaces) root surfaceId) ∧
        (pins.map (·.surfaceId)).Nodup ∧
        (∀ pin ∈ pins, digests.lookup pin.surfaceId = some pin.surfaceDigest) ∧
        ∀ surface ∈ registry.surfaces, surface.surfaceKind ∈ taskLoadableKinds →
          surface.surfaceId ∈ pins.map (·.surfaceId) →
          ∃ closure, runtimeClosure registry surface.surfaceId = .ok closure ∧
            closure ⊆ pins.map (·.surfaceId) ∧ checkPinned closure (pinnedDigests pins) = .ok () ∧
            ∀ message,
              closure.forM (checkSameDigest message digests (pinnedDigests pins)) = .ok ()) ∧
      ∀ raws roots, computeSurfaceDigests H registry raws = .ok digests →
        taskRoots route platform entryOwner registry = .ok roots →
        ∃ pins, deriveTaskSurfaceClosure route platform entryOwner ⟨registry, digests⟩ =
          .ok pins := by
  have hV := validateSurfaceRegistry_validated hregistry
  have hwell := validateSurfaceRegistry_wellFormed hregistry
  have hmark : ∀ roots, taskRoots route platform entryOwner registry = .ok roots → ∀ surfaceId,
      surfaceId ∈ mark (referencesOf registry.surfaces) (roots.length + registry.surfaces.length)
        roots roots ↔ ∃ root ∈ roots, Reaches (referencesOf registry.surfaces) root surfaceId := by
    intro roots hroots surfaceId
    have hlength : registry.surfaces.length = (surfaceIds registry.surfaces).length := by
      rw [surfaceIds, List.length_map]
    rw [hlength]
    exact mem_mark_iff hV.surfaceIds hwell.declared.closed (taskRoots_known hroots).2.1
  constructor
  · intro pins h
    obtain ⟨_, -, h⟩ := bind_eq_ok h
    obtain ⟨roots, hroots, h⟩ := bind_eq_ok h
    obtain ⟨_, -, h⟩ := bind_eq_ok h
    obtain ⟨hids, hlookup⟩ := taskPins_eq h
    have hmem : ∀ surfaceId, surfaceId ∈ pins.map (·.surfaceId) ↔
        ∃ root ∈ roots, Reaches (referencesOf registry.surfaces) root surfaceId := by
      intro surfaceId
      rw [hids, mem_sortStrings, hmark roots hroots]
    refine ⟨roots, hroots, hmem, ?_, hlookup, ?_⟩
    · rw [hids]
      exact sortStrings_nodup (mark_nodup (taskRoots_known hroots).1)
    · intro surface hsurface hkind hpinned
      refine runtimeClosure_pinned hV hwell (fun a ha b hreach => ?_) hlookup hsurface hkind hpinned
      obtain ⟨root, hroot, hroota⟩ := (hmem a).mp ha
      exact (hmem b).mpr ⟨root, hroot, hroota.trans hreach⟩
  · intro raws roots hdigests hroots
    obtain ⟨evidence, -, -, hW⟩ := whole_of_compute hV hdigests
    have hvalid := validateRegistry_eq_ok hV hwell hW.keys fun entry hentry =>
      (hW.computed.digest entry hentry).2
    obtain ⟨-, hknown, htrellis⟩ := taskRoots_known hroots
    have hmandatory : Core.mandatorySurfaces.all (fun m => decide (m ∈ mark
        (referencesOf registry.surfaces) (roots.length + registry.surfaces.length) roots roots)) =
          true := by
      rw [List.all_eq_true]
      intro m hm
      exact decide_eq_true ((hmark roots hroots m).mpr
        ⟨_, htrellis, trellis_reaches_mandatory hV hwell (hknown _ htrellis) m hm⟩)
    have hpins : (sortStrings (mark (referencesOf registry.surfaces)
        (roots.length + registry.surfaces.length) roots roots)).mapM (taskPin digests) =
          .ok ((sortStrings (mark (referencesOf registry.surfaces)
            (roots.length + registry.surfaces.length) roots roots)).map fun surfaceId =>
              ⟨surfaceId, digestAt digests surfaceId⟩) := by
      apply mapM_eq_map
      intro surfaceId hmem
      obtain ⟨root, hroot, hreach⟩ := (hmark roots hroots surfaceId).mp (mem_sortStrings.mp hmem)
      have hid := Reaches.mem hW.digested (hknown root hroot) hreach
      rw [taskPin, lookup_of_mem_keys (hW.mem_keys.mpr hid)]
      rfl
    rw [deriveTaskSurfaceClosure, hvalid, bind_ok_eq, hroots, bind_ok_eq]
    simp only [check, hmandatory, if_true, bind_ok_eq]
    exact ⟨_, hpins⟩

/-! ### A registry with a task's roots -/

def sampleTaskUnit (surfaceId : String) : String :=
  "python:" ++ String.ofList (surfaceId.toList.map fun c => if c = ':' then '-' else c)

def sampleTaskSurface (kind suffix : String) (references : List String) : SurfaceDescriptor :=
  ⟨kind ++ suffix, kind, 1, "surface-content-v1", [sampleTaskUnit (kind ++ suffix)], references,
    "runtime-visible"⟩

def sampleTaskSurfaces : List SurfaceDescriptor :=
  [sampleTaskSurface "platform-adapter" ":codex" ["trellis-runtime"],
    sampleTaskSurface "route-policy" "" [],
    sampleTaskSurface "runtime-control-plane" "" ["surface-registry"],
    sampleTaskSurface "runtime-entry" ":native" ["runtime-control-plane"],
    sampleTaskSurface "surface-registry" "" [],
    sampleTaskSurface "trellis-runtime" "" ["runtime-control-plane"]]

def sampleTaskRegistryDocument : Members :=
  [("schema_id", .string "agent-workflow.runtime-surface-registry"), ("schema_version", .int 1),
    ("surfaces", .array (sampleTaskSurfaces.map fun surface => .object
      [("surface_id", .string surface.surfaceId), ("surface_kind", .string surface.surfaceKind),
        ("descriptor_version", .int 1), ("digest_recipe_id", .string "surface-content-v1"),
        ("owned_unit_ids", texts surface.ownedUnitIds), ("references", texts surface.references),
        ("contract_change_class", .string "runtime-visible")]))]

def sampleTaskInventory : Members :=
  [("schema_id", .string "agent-workflow.runtime-unit-inventory"), ("schema_version", .int 1),
    ("units", .array ((surfaceIds sampleTaskSurfaces).map fun surfaceId =>
      sampleUnit (sampleTaskUnit surfaceId) (sampleTaskUnit surfaceId) surfaceId))]

def sampleTaskRegistry : VerifiedSurfaceRegistry where
  surfaces := sampleTaskSurfaces
  units := (sortStrings (surfaceIds sampleTaskSurfaces)).map fun surfaceId =>
    ⟨sampleTaskUnit surfaceId, "python", "rendered-project", sampleTaskUnit surfaceId, surfaceId,
      "bytes-mode-contract-v1"⟩
  topologicalSurfaceIds := ["route-policy", "surface-registry", "runtime-control-plane",
    "runtime-entry:native", "trellis-runtime", "platform-adapter:codex"]
  registryDigest := digestOf 'a'

def sampleTaskDigests : List (String × String) :=
  sampleTaskRegistry.topologicalSurfaceIds.map fun surfaceId => (surfaceId, digestOf 'a')

def sampleTaskPins : List Runtime.SurfacePin :=
  ["platform-adapter:codex", "runtime-control-plane", "runtime-entry:native", "surface-registry",
    "trellis-runtime"].map fun surfaceId => ⟨surfaceId, digestOf 'a'⟩

theorem sampleTaskRegistry_validated : validateSurfaceRegistry constantHasher id
    sampleTaskRegistryDocument sampleTaskInventory = .ok sampleTaskRegistry :=
  eq_ok_of_toOption (by decide +kernel)

theorem task_pins_cover_runtime_closures_sample : ∃ closure,
    runtimeClosure sampleTaskRegistry "platform-adapter:codex" = .ok closure ∧
      closure ⊆ sampleTaskPins.map (·.surfaceId) ∧
      checkPinned closure (pinnedDigests sampleTaskPins) = .ok () ∧
      ¬ ∃ root ∈ ["platform-adapter:codex", "trellis-runtime", "runtime-entry:native"],
        Reaches (referencesOf sampleTaskRegistry.surfaces) root "route-policy" := by
  have hpins : deriveTaskSurfaceClosure "trellis-native" "codex" "native"
      ⟨sampleTaskRegistry, sampleTaskDigests⟩ = .ok sampleTaskPins :=
    eq_ok_of_toOption (by decide +kernel)
  have hroots : taskRoots "trellis-native" "codex" "native" sampleTaskRegistry =
      .ok ["platform-adapter:codex", "trellis-runtime", "runtime-entry:native"] := by
    decide
  obtain ⟨hderived, -⟩ := task_pins_cover_runtime_closures sampleTaskRegistry_validated
    sampleTaskDigests "trellis-native" "codex" "native"
  obtain ⟨roots, hroots', hmem, -, -, hloads⟩ := hderived sampleTaskPins hpins
  rw [hroots] at hroots'
  cases hroots'
  obtain ⟨closure, hclosure, hsub, hpinned, -⟩ := hloads
    (sampleTaskSurface "platform-adapter" ":codex" ["trellis-runtime"]) (by decide)
    (by decide) (by decide)
  refine ⟨closure, hclosure, hsub, hpinned, fun hreach => ?_⟩
  exact absurd ((hmem "route-policy").mpr hreach) (by decide)

end AgentStack.Route
