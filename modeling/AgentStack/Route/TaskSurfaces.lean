import AgentStack.Core.SurfaceAcceptance
import AgentStack.RefGraph.Mark
import AgentStack.Runtime.Documents

/-! The surfaces that a task of an integrated route pins. -/
namespace AgentStack.Route

open AgentStack.Core RefGraph AgentStack.Runtime

structure VerifiedRuntimeSurfaceRegistry where
  registry : VerifiedSurfaceRegistry
  surfaceDigests : List (String × String)

def closureFailure (message : String) (details : List (String × String)) : Failure :=
  ⟨.core, "AWP_ROUTE_SURFACE_CLOSURE_INVALID", message, details⟩

/-- The walk over references from a stack; a reference that is no surface ends it. -/
def transitiveFrom (start : String) (surfaces : List SurfaceDescriptor) :
    ℕ → List String → List String → Except Failure (List String)
  | 0, visited, _ => .ok visited
  | _ + 1, visited, [] => .ok visited
  | fuel + 1, visited, current :: pending =>
    if current ∈ visited then transitiveFrom start surfaces fuel visited pending
    else do
      check (current ∈ surfaceIds surfaces) (closureFailure "surface reference is dangling"
        [("surface_id", start), ("reference", current)])
      transitiveFrom start surfaces fuel (current :: visited)
        ((referencesOf surfaces current).reverse ++ pending)

def transitive (start : String) (surfaces : List SurfaceDescriptor) :
    Except Failure (List String) :=
  let pending := (referencesOf surfaces start).reverse
  transitiveFrom start surfaces
    (steps (surfaceIds surfaces) (referencesOf surfaces) [] pending) [] pending

/-- The loop over the units of one surface. -/
def claimUnits (owner : String) (claimed : List (String × String)) :
    List String → Except Failure (List (String × String))
  | [] => .ok claimed
  | unitId :: unitIds => do
    check (unitId ∉ claimed.map Prod.fst)
      (closureFailure "runtime unit is multiply owned" [("unit_id", unitId)])
    claimUnits owner (claimed ++ [(unitId, owner)]) unitIds

/-- References come before what refers to them. -/
def checkPosition (ordered : List String) (surfaces : List SurfaceDescriptor)
    (surfaceId reference : String) : Except Failure Unit := do
  check (reference ∈ surfaceIds surfaces) (closureFailure "surface reference is dangling"
    [("surface_id", surfaceId), ("reference", reference)])
  check (reference ≠ surfaceId && ordered.idxOf reference < ordered.idxOf surfaceId)
    (closureFailure "surface reference graph is cyclic or topologically invalid" [])

/-- The keys of the registry are the ids of its descriptors. -/
def checkSurface (ordered : List String) (surfaces : List SurfaceDescriptor)
    (claimed : List (String × String)) (surface : SurfaceDescriptor) :
    Except Failure (List (String × String)) := do
  let details := [("surface_id", surface.surfaceId)]
  check (surface.descriptorVersion = 1 && surface.digestRecipeId = "surface-content-v1" &&
      surface.contractChangeClass = "runtime-visible")
    (closureFailure "surface descriptor contract is unsupported" details)
  check (surface.ownedUnitIds ≠ [] && decide surface.ownedUnitIds.Nodup)
    (closureFailure "surface unit ownership is empty or duplicated" details)
  let claimed ← claimUnits surface.surfaceId claimed surface.ownedUnitIds
  check (decide surface.references.Nodup)
    (closureFailure "surface references contain duplicates" details)
  surface.references.forM (checkPosition ordered surfaces surface.surfaceId)
  return claimed

def checkSurfaces (ordered : List String) (surfaces : List SurfaceDescriptor)
    (claimed : List (String × String)) :
    List SurfaceDescriptor → Except Failure (List (String × String))
  | [] => .ok claimed
  | surface :: rest => do
    let claimed ← checkSurface ordered surfaces claimed surface
    checkSurfaces ordered surfaces claimed rest

def checkUnitOwner (claimed : List (String × String)) (unit : RuntimeUnitDescriptor) :
    Except Failure Unit :=
  check (claimed.lookup unit.unitId = some unit.owningSurfaceId)
    (closureFailure "runtime unit owner differs from surface descriptor" [("unit_id", unit.unitId)])

def checkMandatory (surfaces : List SurfaceDescriptor) (mandatory : String) :
    Except Failure Unit :=
  check (mandatory ∈ surfaceIds surfaces)
    (closureFailure "mandatory runtime meta-surface is missing" [("surface_id", mandatory)])

def checkTaskLoadable (surfaces : List SurfaceDescriptor) (surface : SurfaceDescriptor) :
    Except Failure Unit := do
  if surface.surfaceKind ∈ taskLoadableKinds then
    let reached ← transitive surface.surfaceId surfaces
    let missing := mandatorySurfaces.filter (· ∉ reached)
    check (missing = []) (closureFailure "task-loadable surface omits mandatory meta-surfaces"
      [("surface_id", surface.surfaceId), ("missing", joinTexts (sortStrings missing))])

def sameIds (a b : List String) : Bool := decide (a ⊆ b ∧ b ⊆ a)

def validateRegistry (runtime : VerifiedRuntimeSurfaceRegistry) : Except Failure Unit := do
  let surfaces := runtime.registry.surfaces
  let units := runtime.registry.units
  let ordered := runtime.registry.topologicalSurfaceIds
  check (decide ordered.Nodup && sameIds ordered (surfaceIds surfaces))
    (closureFailure "surface topological inventory is inconsistent" [])
  let claimed ← checkSurfaces ordered surfaces [] surfaces
  check (sameIds (claimed.map Prod.fst) (units.map (·.unitId)))
    (closureFailure "surface ownership and runtime unit inventory differ" [])
  units.forM (checkUnitOwner claimed)
  mandatorySurfaces.forM (checkMandatory surfaces)
  surfaces.forM (checkTaskLoadable surfaces)
  check (sameIds (runtime.surfaceDigests.map Prod.fst) (surfaceIds surfaces))
    (closureFailure "surface digest inventory differs from registry" [])
  check (runtime.surfaceDigests.all fun entry => isDigest entry.2)
    (closureFailure "surface digest is missing or invalid" [])

def integratedRoutes : List String := ["trellis-native", "speckit-superpowers"]

def stablePlatforms : List String := ["claude-code", "codex", "opencode"]

def taskRoots (route platform entryOwner : String) (registry : VerifiedSurfaceRegistry) :
    Except Failure (List String) := do
  let known := surfaceIds registry.surfaces
  check (route ∈ integratedRoutes)
    (closureFailure "task surface closure requires an integrated route" [])
  check (platform ∈ stablePlatforms) (closureFailure "task surface platform is unsupported" [])
  check (isSurfaceSuffix entryOwner.toList)
    (closureFailure "task surface entry owner is invalid" [])
  let router := "router:" ++ entryOwner
  check (route ≠ "trellis-native" || router ∉ known)
    (closureFailure "Trellis-native entry owner is a heavy router" [])
  check (route ≠ "speckit-superpowers" || router ∈ known)
    (closureFailure "heavy entry owner has no router surface" [])
  let roots := ["platform-adapter:" ++ platform, "trellis-runtime", "runtime-entry:" ++ entryOwner] ++
    if route = "speckit-superpowers" then [router] else []
  let missing := sortStrings (roots.filter (· ∉ known))
  check (missing = [])
    (closureFailure "task surface root is unknown" [("missing", joinTexts missing)])
  return roots

def taskPin (digests : List (String × String)) (surfaceId : String) :
    Except Failure Runtime.SurfacePin := do
  let d ← require (digests.lookup surfaceId) (keyError surfaceId)
  return ⟨surfaceId, d⟩

def deriveTaskSurfaceClosure (route platform entryOwner : String)
    (runtime : VerifiedRuntimeSurfaceRegistry) : Except Failure (List Runtime.SurfacePin) := do
  validateRegistry runtime
  let surfaces := runtime.registry.surfaces
  let roots ← taskRoots route platform entryOwner runtime.registry
  let selected := mark (referencesOf surfaces) (roots.length + surfaces.length) roots roots
  check (mandatorySurfaces.all (· ∈ selected))
    (closureFailure "task surface closure omits mandatory meta-surfaces" [])
  (sortStrings selected).mapM (taskPin runtime.surfaceDigests)

end AgentStack.Route
