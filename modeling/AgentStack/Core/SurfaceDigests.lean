import AgentStack.Core.Plain
import AgentStack.Core.SurfaceRegistry

/-! What the digest of a surface says about the units of its closure. -/
namespace AgentStack.Core

open JsonText JsonValue FileTree KeyedList RefGraph

variable {H : Hasher} {registry registry' : VerifiedSurfaceRegistry}
  {evidence evidence' : List UnitEvidence} {digests digests' : List (String × String)}

/-! ### Leaves -/

theorem octalDigit?_digitChar {n : Nat} (h : n < 8) : octalDigit? (Nat.digitChar n) = some n := by
  have hall : ∀ k : Fin 8, octalDigit? (Nat.digitChar k.val) = some k.val := by decide
  exact hall ⟨n, h⟩

theorem digitChar_inj {m n : Nat} (hm : m < 8) (hn : n < 8)
    (h : Nat.digitChar m = Nat.digitChar n) : m = n := by
  have hdigit := octalDigit?_digitChar hm
  rw [h, octalDigit?_digitChar hn] at hdigit
  exact (Option.some.inj hdigit).symm

theorem modeText_injective : Function.Injective modeText := by
  intro m n h
  have hlist := String.ofList_injective h
  simp only [List.cons.injEq, and_true, true_and] at hlist
  obtain ⟨hu, hg, ho⟩ := hlist
  have hu := digitChar_inj (by omega) (by omega) hu
  have hg := digitChar_inj (by omega) (by omega) hg
  have ho := digitChar_inj (by omega) (by omega) ho
  exact Fin.ext (by omega)

theorem ascii_modeText (m : FileTree.Mode) : Ascii (modeText m) := by
  have hall : ∀ k : Fin 8, (Nat.digitChar k.val).toNat < 0x80 := by decide
  have hdigit : ∀ n, n < 8 → (Nat.digitChar n).toNat < 0x80 := fun n hn => hall ⟨n, hn⟩
  intro c hc
  rw [modeText, String.toList_ofList] at hc
  simp only [List.mem_cons, List.not_mem_nil, or_false] at hc
  rcases hc with rfl | rfl | rfl | rfl
  · decide
  · exact hdigit _ (by omega)
  · exact hdigit _ (by omega)
  · exact hdigit _ (by omega)

theorem plain_ascii (E : TextEncoding) {s : String} (h : Ascii s) :
    Plain E.toEncoding (.string s) := plain_string (E.nfc_ascii s h)

/-- Objects whose keys are the package's own. -/
theorem plain_fields (E : TextEncoding) {ms : Members} (hkeys : (ms.map Prod.fst).Nodup)
    (hascii : ∀ m ∈ ms, Ascii m.1) (h : ∀ m ∈ ms, Plain E.toEncoding m.2) :
    Plain E.toEncoding (.object ms) :=
  plain_object hkeys (fun m hm => E.nfc_ascii m.1 (hascii m hm)) h

theorem leafProjection_plain (E : TextEncoding) {unitId recipe byteHash contractDigest : String}
    (mode : FileTree.Mode) (hunit : Ascii unitId) (hrecipe : Ascii recipe)
    (hhash : Ascii byteHash) (hcontract : Ascii contractDigest) :
    Plain E.toEncoding (leafProjection unitId recipe byteHash mode contractDigest) := by
  apply plain_fields
  · simp only [List.map_cons, List.map_nil]
    decide
  · simp only [List.forall_mem_cons]
    decide
  · simp only [List.forall_mem_cons, List.not_mem_nil, false_implies, implies_true, and_true]
    exact ⟨plain_ascii E hunit, plain_ascii E hrecipe, plain_ascii E hhash,
      plain_ascii E (ascii_modeText mode), plain_ascii E hcontract⟩

theorem leafProjection_same {unitId unitId' recipe recipe' byteHash byteHash' contractDigest
    contractDigest' : String} {mode mode' : FileTree.Mode}
    (h : (leafProjection unitId recipe byteHash mode contractDigest).same
      (leafProjection unitId' recipe' byteHash' mode' contractDigest') = true) :
    unitId = unitId' ∧ byteHash = byteHash' ∧ mode = mode' ∧ contractDigest = contractDigest' := by
  simp [leafProjection, same, sameMembers, List.lookup_cons] at h
  obtain ⟨hunit, -, hhash, hmode, hcontract⟩ := h
  exact ⟨hunit, hhash, modeText_injective hmode, hcontract⟩

/-! ### Accepted evidence -/

/-- What the checks of one unit's evidence establish. -/
structure EvidenceOk (H : Hasher) (e : UnitEvidence) : Prop where
  id : Ascii e.unitId
  byteHash : isDigest e.byteHash = true
  contract : Ascii e.contractDigest
  leaf : leafDigest H (leafProjection e.unitId "bytes-mode-contract-v1" e.byteHash e.mode
    e.contractDigest) = .ok e.leafDigest

structure Accepted (H : Hasher) (registry : VerifiedSurfaceRegistry)
    (evidence : List UnitEvidence) : Prop where
  unit : ∀ e ∈ evidence, EvidenceOk H e
  ids : (evidence.map (·.unitId)).Nodup
  covers : ∀ unitId ∈ registry.units.map (·.unitId), unitId ∈ evidence.map (·.unitId)

theorem unitEvidence_ok (hV : Validated H registry) {seen : List String} {raw : Members}
    {e : UnitEvidence} (h : unitEvidence H registry seen raw = .ok e) :
    EvidenceOk H e ∧ e.unitId ∉ seen := by
  unfold unitEvidence at h
  obtain ⟨_, -, h⟩ := bind_eq_ok h
  obtain ⟨unit, hunit, h⟩ := bind_eq_ok h
  obtain ⟨_, hseen, h⟩ := bind_eq_ok h
  obtain ⟨_, hhash, h⟩ := bind_eq_ok h
  obtain ⟨_, hcontract, h⟩ := bind_eq_ok h
  obtain ⟨mode, -, h⟩ := bind_eq_ok h
  obtain ⟨distributions, -, h⟩ := bind_eq_ok h
  obtain ⟨_, -, h⟩ := bind_eq_ok h
  obtain ⟨leaf, hleaf, h⟩ := bind_eq_ok h
  cases h
  obtain ⟨unitId, -, hfind⟩ := Option.bind_eq_some_iff.mp (require_eq_ok.mp hunit)
  have hok := hV.unit unit (List.mem_of_find?_eq_some hfind)
  rw [hok.recipe] at hleaf
  have hnull : Ascii canonicalNullText := by decide
  refine ⟨⟨hok.id, check_eq_ok.mp hhash, ?_, hleaf⟩, of_decide_eq_true (check_eq_ok.mp hseen)⟩
  rcases Bool.or_eq_true _ _ ▸ check_eq_ok.mp hcontract with hdigest | hdigest
  · exact ascii_of_isDigest hdigest
  · simp only
    rw [of_decide_eq_true hdigest]
    exact hnull

theorem unitEvidenceFrom_ok (hV : Validated H registry) {seen : List UnitEvidence}
    {raws : List Members} (h : unitEvidenceFrom H registry seen raws = .ok evidence)
    (hok : ∀ e ∈ seen, EvidenceOk H e) (hnodup : (seen.map (·.unitId)).Nodup) :
    (∀ e ∈ evidence, EvidenceOk H e) ∧ (evidence.map (·.unitId)).Nodup := by
  induction raws generalizing seen with
  | nil =>
    cases h
    exact ⟨hok, hnodup⟩
  | cons raw raws ih =>
    obtain ⟨e, he, h⟩ := bind_eq_ok h
    obtain ⟨he, hnew⟩ := unitEvidence_ok hV he
    refine ih h ?_ ?_
    · intro found hfound
      rcases List.mem_append.mp hfound with hfound | hfound
      · exact hok found hfound
      · rw [List.mem_singleton.mp hfound]
        exact he
    · rw [List.map_append]
      refine List.nodup_append.mpr ⟨hnodup, List.nodup_singleton _, ?_⟩
      rintro a ha b hb rfl
      rw [List.map_singleton, List.mem_singleton] at hb
      exact hnew (hb ▸ ha)

theorem parseEvidence_accepted (hV : Validated H registry) {raws : List Members}
    (h : parseEvidence H registry raws = .ok evidence) : Accepted H registry evidence := by
  unfold parseEvidence at h
  obtain ⟨parsed, hparsed, h⟩ := bind_eq_ok h
  obtain ⟨_, hcovered, h⟩ := bind_eq_ok h
  cases h
  obtain ⟨hok, hids⟩ := unitEvidenceFrom_ok hV hparsed (by simp) List.nodup_nil
  exact ⟨hok, hids, (of_decide_eq_true (check_eq_ok.mp hcovered)).2⟩

theorem exists_evidenceAt {unitId : String} (h : unitId ∈ evidence.map (·.unitId)) :
    ∃ e ∈ evidence, evidenceAt evidence unitId = some e ∧ e.unitId = unitId := by
  obtain ⟨e, he, hid⟩ := List.mem_map.mp h
  have hsome : (evidenceAt evidence unitId).isSome :=
    List.find?_isSome.mpr ⟨e, he, decide_eq_true hid⟩
  obtain ⟨found, hfound⟩ := Option.isSome_iff_exists.mp hsome
  have hid := List.find?_some hfound
  exact ⟨found, List.mem_of_find?_eq_some hfound, hfound, of_decide_eq_true hid⟩

/-! ### Surfaces -/

theorem pairDocument_plain (E : TextEncoding) {key value : String} (hne : key ≠ value)
    (hkey : Ascii key) (hvalue : Ascii value) {l : List (String × String)}
    (h : ∀ p ∈ l, Ascii p.1 ∧ Ascii p.2) :
    Plain E.toEncoding (.array (l.map (pairDocument key value))) := by
  apply plain_array
  intro x hx
  obtain ⟨p, hp, rfl⟩ := List.mem_map.mp hx
  apply plain_fields
  · simpa using hne
  · simp only [List.forall_mem_cons, List.not_mem_nil, false_implies, implies_true, and_true]
    exact ⟨hkey, hvalue⟩
  · simp only [List.forall_mem_cons, List.not_mem_nil, false_implies, implies_true, and_true]
    exact ⟨plain_ascii E (h p hp).1, plain_ascii E (h p hp).2⟩

theorem sameItems_pairs {key value : String} (hne : key ≠ value) {l l' : List (String × String)}
    (h : sameItems (l.map (pairDocument key value)) (l'.map (pairDocument key value)) = true) :
    l = l' := by
  rw [sameItems_iff, List.forall₂_map_left_iff, List.forall₂_map_right_iff] at h
  induction h with
  | nil => rfl
  | cons hp _ ih =>
    rw [ih]
    have hbeq : (value == key) = false := beq_eq_false_iff_ne.mpr hne.symm
    simp [pairDocument, same, sameMembers, List.lookup_cons, hbeq] at hp
    rw [Prod.ext hp.1 hp.2]

/-- The projection of a surface whose own fields have been checked. -/
def checkedProjection (surfaceId : String) (content : String × List (String × String))
    (references : List (String × String)) : JsonValue :=
  surfaceProjection ⟨surfaceId, content.1, 1, "surface-content-v1", [], [], ""⟩ content.2 references

theorem surfaceProjection_eq {surface : SurfaceDescriptor} (h : SurfaceOk surface)
    (leaves references : List (String × String)) : surfaceProjection surface leaves references =
      checkedProjection surface.surfaceId (surface.surfaceKind, leaves) references := by
  rw [surfaceProjection, h.version, h.recipe]
  rfl

theorem checkedProjection_plain (E : TextEncoding) {surfaceId : String}
    {content : String × List (String × String)} {references : List (String × String)}
    (hid : surfaceKind surfaceId = some content.1)
    (hleaves : ∀ p ∈ content.2, Ascii p.1 ∧ Ascii p.2)
    (hreferences : ∀ p ∈ references, Ascii p.1 ∧ Ascii p.2) :
    Plain E.toEncoding (checkedProjection surfaceId content references) := by
  obtain ⟨hid, hkind⟩ := surfaceKind_ascii hid
  have hone : Plain E.toEncoding (.int 1) := plain_int (by decide)
  have hrecipe : Ascii "surface-content-v1" := by decide
  apply plain_fields
  · simp only [List.map_cons, List.map_nil]
    decide
  · simp only [List.forall_mem_cons]
    decide
  · simp only [List.forall_mem_cons, List.not_mem_nil, false_implies, implies_true, and_true]
    exact ⟨plain_ascii E hid, plain_ascii E hkind, hone, plain_ascii E hrecipe,
      pairDocument_plain E (by decide) (by decide) (by decide) hleaves,
      pairDocument_plain E (by decide) (by decide) (by decide) hreferences⟩

theorem checkedProjection_same {surfaceId surfaceId' : String}
    {content content' : String × List (String × String)}
    {references references' : List (String × String)}
    (h : (checkedProjection surfaceId content references).same
      (checkedProjection surfaceId' content' references') = true) :
    surfaceId = surfaceId' ∧ content = content' ∧ references = references' := by
  simp [checkedProjection, surfaceProjection, same, sameMembers, List.lookup_cons] at h
  obtain ⟨hid, hkind, hleaves, hreferences⟩ := h
  exact ⟨hid, Prod.ext hkind (sameItems_pairs (by decide) hleaves),
    sameItems_pairs (by decide) hreferences⟩

/-! ### The digests as a digested graph -/

def leafDigestAt (evidence : List UnitEvidence) (unitId : String) : String :=
  ((evidenceAt evidence unitId).map (·.leafDigest)).getD ""

def leavesOf (evidence : List UnitEvidence) (surface : SurfaceDescriptor) :
    List (String × String) :=
  surface.ownedUnitIds.map fun unitId => (unitId, leafDigestAt evidence unitId)

/-- What a surface's digest covers beside its references. -/
def contentOf (registry : VerifiedSurfaceRegistry) (evidence : List UnitEvidence)
    (surfaceId : String) : String × List (String × String) :=
  ((surfaceAt registry.surfaces surfaceId).map fun surface =>
    (surface.surfaceKind, leavesOf evidence surface)).getD ("", [])

def digestAt (digests : List (String × String)) (surfaceId : String) : String :=
  (digests.lookup surfaceId).getD ""

def referencesWith (registry : VerifiedSurfaceRegistry) (digests : List (String × String))
    (surfaceId : String) : List (String × String) :=
  (referencesOf registry.surfaces surfaceId).map fun reference =>
    (reference, digestAt digests reference)

def surfaceBytes (E : Encoding) (surfaceId : String) (content : String × List (String × String))
    (references : List (String × String)) : Bytes :=
  (digestPreimage E "agent-workflow.runtime-surface.v1"
    (checkedProjection surfaceId content references)).toOption.getD []

def surfaceRecipe (H : Hasher) (surfaceId : String) (content : String × List (String × String))
    (references : List (String × String)) : String :=
  H.sha256 (surfaceBytes H.toEncoding surfaceId content references)

theorem surfaceDomain_ok : DomainOk "agent-workflow.runtime-surface.v1" := by
  unfold DomainOk
  decide

variable (evidence) in
theorem contentOf_of_surfaceAt {surfaceId : String} {surface : SurfaceDescriptor}
    (h : surfaceAt registry.surfaces surfaceId = some surface) :
    contentOf registry evidence surfaceId = (surface.surfaceKind, leavesOf evidence surface) := by
  rw [contentOf, h]
  rfl

theorem Accepted.leafOf (hV : Validated H registry) (hE : Accepted H registry evidence)
    {surface : SurfaceDescriptor} (hsurface : surface ∈ registry.surfaces) :
    surface.ownedUnitIds.mapM (leafOf evidence) = .ok (leavesOf evidence surface) := by
  apply mapM_eq_map
  intro unitId hunitId
  obtain ⟨e, -, hat, -⟩ :=
    exists_evidenceAt (hE.covers unitId (hV.owned surface hsurface unitId hunitId))
  rw [Core.leafOf, leafDigestAt, hat]
  rfl

theorem Accepted.leaves_ascii (hV : Validated H registry) (hE : Accepted H registry evidence)
    {surface : SurfaceDescriptor} (hsurface : surface ∈ registry.surfaces) :
    ∀ p ∈ leavesOf evidence surface, Ascii p.1 ∧ Ascii p.2 := by
  intro p hp
  obtain ⟨unitId, hunitId, rfl⟩ := List.mem_map.mp hp
  obtain ⟨e, he, hat, hid⟩ :=
    exists_evidenceAt (hE.covers unitId (hV.owned surface hsurface unitId hunitId))
  have hok := hE.unit e he
  have hleaf : leafDigestAt evidence unitId = e.leafDigest := by
    rw [leafDigestAt, hat]
    rfl
  simp only [hleaf]
  refine ⟨hid ▸ hok.id, ascii_of_isDigest ?_⟩
  have hdigest := hok.leaf
  unfold leafDigest at hdigest
  cases hbytes : canonicalJsonBytes H.toEncoding (leafProjection e.unitId "bytes-mode-contract-v1"
      e.byteHash e.mode e.contractDigest) with
  | error failure =>
    rw [hbytes] at hdigest
    cases hdigest
  | ok bytes =>
    rw [hbytes] at hdigest
    rw [← Except.ok.inj hdigest]
    exact H.sha256_isDigest bytes

/-- The preimage of a surface's digest, when its references have digests. -/
theorem surfaceBytes_spec (hV : Validated H registry) (hE : Accepted H registry evidence)
    {surface : SurfaceDescriptor} (hsurface : surface ∈ registry.surfaces)
    {references : List (String × String)} (hreferences : ∀ p ∈ references, Ascii p.1 ∧ Ascii p.2) :
    Plain H.toEncoding (checkedProjection surface.surfaceId
        (contentOf registry evidence surface.surfaceId) references) ∧
      digestPreimage H.toEncoding "agent-workflow.runtime-surface.v1"
        (checkedProjection surface.surfaceId (contentOf registry evidence surface.surfaceId)
          references) =
        .ok (surfaceBytes H.toEncoding surface.surfaceId
          (contentOf registry evidence surface.surfaceId) references) := by
  have hat := (surfaceAt_eq_some hV.surfaceIds).mpr ⟨hsurface, rfl⟩
  have hplain : Plain H.toEncoding (checkedProjection surface.surfaceId
      (contentOf registry evidence surface.surfaceId) references) := by
    rw [contentOf_of_surfaceAt evidence hat]
    exact checkedProjection_plain H.toTextEncoding (hV.surface surface hsurface).kind
      (hE.leaves_ascii hV hsurface) hreferences
  obtain ⟨bytes, hbytes⟩ := hplain.preimage (by decide) surfaceDomain_ok
  refine ⟨hplain, ?_⟩
  rw [surfaceBytes, hbytes]
  rfl

theorem surfaceDigest_eq (hV : Validated H registry) (hE : Accepted H registry evidence)
    {surface : SurfaceDescriptor} (hsurface : surface ∈ registry.surfaces)
    {references : List (String × String)} (hreferences : ∀ p ∈ references, Ascii p.1 ∧ Ascii p.2) :
    surfaceDigest H surface (leavesOf evidence surface) references =
      .ok (surfaceRecipe H surface.surfaceId (contentOf registry evidence surface.surfaceId)
        references) := by
  have hat := (surfaceAt_eq_some hV.surfaceIds).mpr ⟨hsurface, rfl⟩
  obtain ⟨-, hbytes⟩ := surfaceBytes_spec hV hE hsurface hreferences
  rw [surfaceDigest, surfaceProjection_eq (hV.surface surface hsurface),
    ← contentOf_of_surfaceAt evidence hat, digest, hbytes]
  rfl

/-- What holds of the digests computed so far. -/
structure Computed (H : Hasher) (registry : VerifiedSurfaceRegistry) (evidence : List UnitEvidence)
    (digests : List (String × String)) : Prop where
  digest : ∀ p ∈ digests, Ascii p.1 ∧ isDigest p.2 = true
  closed : ∀ surfaceId ∈ digests.map Prod.fst,
    ∀ reference ∈ referencesOf registry.surfaces surfaceId, reference ∈ digests.map Prod.fst
  recipe : ∀ surfaceId ∈ digests.map Prod.fst, digestAt digests surfaceId =
    surfaceRecipe H surfaceId (contentOf registry evidence surfaceId)
      (referencesWith registry digests surfaceId)

theorem lookup_of_mem_keys {surfaceId : String} (h : surfaceId ∈ digests.map Prod.fst) :
    digests.lookup surfaceId = some (digestAt digests surfaceId) := by
  rw [digestAt]
  cases hlookup : digests.lookup surfaceId with
  | none =>
    obtain ⟨p, hp, hkey⟩ := List.mem_map.mp h
    rw [List.lookup_eq_none_iff] at hlookup
    exact absurd (hlookup p hp) (by simp [hkey])
  | some d => rfl

theorem digestAt_append {surfaceId : String} (h : surfaceId ∈ digests.map Prod.fst)
    (more : List (String × String)) :
    digestAt (digests ++ more) surfaceId = digestAt digests surfaceId := by
  rw [digestAt, List.lookup_append, lookup_of_mem_keys h]
  rfl

theorem referencesWith_append {surfaceId : String}
    (hclosed : ∀ reference ∈ referencesOf registry.surfaces surfaceId,
      reference ∈ digests.map Prod.fst) (more : List (String × String)) :
    referencesWith registry (digests ++ more) surfaceId =
      referencesWith registry digests surfaceId := by
  apply List.map_congr_left
  intro reference hreference
  rw [digestAt_append (hclosed reference hreference)]

theorem Computed.references_ascii (h : Computed H registry evidence digests) {surfaceId : String}
    (hclosed : ∀ reference ∈ referencesOf registry.surfaces surfaceId,
      reference ∈ digests.map Prod.fst) :
    ∀ p ∈ referencesWith registry digests surfaceId, Ascii p.1 ∧ Ascii p.2 := by
  intro p hp
  obtain ⟨reference, hreference, rfl⟩ := List.mem_map.mp hp
  have hmem := mem_of_lookup (lookup_of_mem_keys (hclosed reference hreference))
  have hdigest := h.digest _ hmem
  exact ⟨hdigest.1, ascii_of_isDigest hdigest.2⟩

theorem referencesOf_mapM {surfaceId : String}
    (hclosed : ∀ reference ∈ referencesOf registry.surfaces surfaceId,
      reference ∈ digests.map Prod.fst) :
    (referencesOf registry.surfaces surfaceId).mapM (referenceDigest digests) =
      .ok (referencesWith registry digests surfaceId) := by
  apply mapM_eq_map
  intro reference hreference
  rw [referenceDigest, lookup_of_mem_keys (hclosed reference hreference)]
  rfl

/-- One turn of the loop: the references of the next surface have their digests. -/
theorem Computed.step (hV : Validated H registry) (h : Computed H registry evidence digests)
    {surfaceId : String}
    (hid : surfaceId ∈ surfaceIds registry.surfaces) (hnew : surfaceId ∉ digests.map Prod.fst)
    (hclosed : ∀ reference ∈ referencesOf registry.surfaces surfaceId,
      reference ∈ digests.map Prod.fst) :
    Computed H registry evidence (digests ++ [(surfaceId, surfaceRecipe H surfaceId
      (contentOf registry evidence surfaceId) (referencesWith registry digests surfaceId))]) := by
  have hmem : ∀ s, s ∈ (digests ++ [(surfaceId, surfaceRecipe H surfaceId
      (contentOf registry evidence surfaceId)
      (referencesWith registry digests surfaceId))]).map Prod.fst ↔
        s ∈ digests.map Prod.fst ∨ s = surfaceId := by simp
  constructor
  · intro p hp
    rcases List.mem_append.mp hp with hp | hp
    · exact h.digest p hp
    · rw [List.mem_singleton.mp hp]
      obtain ⟨surface, hat⟩ := exists_surfaceAt hid
      obtain ⟨hsurface, rfl⟩ := (surfaceAt_eq_some hV.surfaceIds).mp hat
      exact ⟨(surfaceKind_ascii (hV.surface surface hsurface).kind).1, H.sha256_isDigest _⟩
  · intro s hs reference hreference
    rw [hmem] at hs ⊢
    left
    rcases hs with hs | rfl
    · exact h.closed s hs reference hreference
    · exact hclosed reference hreference
  · intro s hs
    rcases (hmem s).mp hs with hs | rfl
    · rw [digestAt_append hs, referencesWith_append (h.closed s hs)]
      exact h.recipe s hs
    · rw [referencesWith_append hclosed, digestAt, List.lookup_append]
      have hnone : digests.lookup s = none := by
        rw [List.lookup_eq_none_iff]
        exact fun p hp => bne_iff_ne.mpr fun heq => hnew (List.mem_map.mpr ⟨p, hp, heq.symm⟩)
      rw [hnone, Option.none_or, List.lookup_cons_self]
      rfl

theorem computeDigestsFrom_computed (hV : Validated H registry) (hE : Accepted H registry evidence)
    {remaining : List String} (h : Computed H registry evidence digests)
    (hsplit : registry.topologicalSurfaceIds = digests.map Prod.fst ++ remaining) :
    ∃ result, computeDigestsFrom H registry evidence digests remaining = .ok result ∧
      result.map Prod.fst = registry.topologicalSurfaceIds ∧
      Computed H registry evidence result := by
  induction remaining generalizing digests with
  | nil => exact ⟨digests, rfl, by rw [hsplit, List.append_nil], h⟩
  | cons surfaceId remaining ih =>
    have hlisted : surfaceId ∈ registry.topologicalSurfaceIds := by rw [hsplit]; simp
    have hid := (hV.listed surfaceId).mp hlisted
    have hnew : surfaceId ∉ digests.map Prod.fst := by
      have honce := hV.listedOnce
      rw [hsplit, List.nodup_append] at honce
      exact fun hmem => honce.2.2 surfaceId hmem surfaceId List.mem_cons_self rfl
    have hclosed := hV.ordered (digests.map Prod.fst) surfaceId remaining hsplit
    obtain ⟨surface, hat⟩ := exists_surfaceAt hid
    obtain ⟨hsurface, rfl⟩ := (surfaceAt_eq_some hV.surfaceIds).mp hat
    obtain ⟨result, hresult, hkeys, hcomputed⟩ :=
      ih (h.step hV hid hnew hclosed) (by rw [hsplit]; simp)
    refine ⟨result, ?_, hkeys, hcomputed⟩
    rw [computeDigestsFrom, hat]
    change (surface.ownedUnitIds.mapM (leafOf evidence) >>= fun leaves => _) = _
    rw [hE.leafOf hV hsurface, bind_ok_eq, ← referencesOf_of_surfaceAt hat,
      referencesOf_mapM hclosed, bind_ok_eq,
      surfaceDigest_eq hV hE hsurface (h.references_ascii hclosed), bind_ok_eq]
    exact hresult

/-- The digests of a whole registry. -/
structure Whole (H : Hasher) (registry : VerifiedSurfaceRegistry) (evidence : List UnitEvidence)
    (digests : List (String × String)) : Prop where
  validated : Validated H registry
  accepted : Accepted H registry evidence
  computed : Computed H registry evidence digests
  keys : digests.map Prod.fst = registry.topologicalSurfaceIds

theorem computeDigests_whole (hV : Validated H registry) (hE : Accepted H registry evidence) :
    ∃ digests, computeDigests H registry evidence = .ok digests ∧
      Whole H registry evidence digests := by
  have hempty : Computed H registry evidence [] := ⟨by simp, by simp, by simp⟩
  obtain ⟨digests, hdigests, hkeys, hcomputed⟩ :=
    computeDigestsFrom_computed hV hE hempty (List.nil_append _).symm
  exact ⟨digests, hdigests, hV, hE, hcomputed, hkeys⟩

theorem Whole.mem_keys (h : Whole H registry evidence digests) {surfaceId : String} :
    surfaceId ∈ digests.map Prod.fst ↔ surfaceId ∈ surfaceIds registry.surfaces := by
  rw [h.keys]
  exact h.validated.listed surfaceId

theorem Whole.digested (h : Whole H registry evidence digests) :
    Digested {s | s ∈ surfaceIds registry.surfaces} (contentOf registry evidence)
      (referencesOf registry.surfaces) (surfaceRecipe H) (digestAt digests) := by
  constructor
  · intro surfaceId hid reference hreference
    have hclosed := h.computed.closed surfaceId (h.mem_keys.mpr hid) reference hreference
    exact h.mem_keys.mp hclosed
  · exact fun surfaceId hid => h.computed.recipe surfaceId (h.mem_keys.mpr hid)

def leafBytes (E : Encoding) (e : UnitEvidence) : Bytes :=
  (canonicalJsonBytes E (leafProjection e.unitId "bytes-mode-contract-v1" e.byteHash e.mode
    e.contractDigest)).toOption.getD []

/-- The preimages of leaf digests. -/
def hashedLeaves (E : Encoding) (evidence : List UnitEvidence) : List Bytes :=
  evidence.map (leafBytes E)

/-- The preimages of surface digests. -/
def hashedSurfaces (E : Encoding) (registry : VerifiedSurfaceRegistry)
    (evidence : List UnitEvidence) (digests : List (String × String)) : List Bytes :=
  (surfaceIds registry.surfaces).map fun s =>
    surfaceBytes E s (contentOf registry evidence s) (referencesWith registry digests s)

/-- The digest function is injective on the given inputs. -/
def NoCollision (H : Hasher) (inputs : List Bytes) : Prop :=
  ∀ b ∈ inputs, ∀ c ∈ inputs, H.sha256 b = H.sha256 c → b = c

theorem NoCollision.mono {inputs inputs' : List Bytes} (h : NoCollision H inputs)
    (hsub : inputs' ⊆ inputs) : NoCollision H inputs' :=
  fun b hb c hc heq => h b (hsub hb) c (hsub hc) heq

/-- What a leaf digest covers beside the unit's id. -/
def coveredAt (evidence : List UnitEvidence) (unitId : String) :
    Option (String × FileTree.Mode × String) :=
  (evidenceAt evidence unitId).map fun e => (e.byteHash, e.mode, e.contractDigest)

theorem EvidenceOk.leafBytes {e : UnitEvidence} (h : EvidenceOk H e) :
    Plain H.toEncoding (leafProjection e.unitId "bytes-mode-contract-v1" e.byteHash e.mode
        e.contractDigest) ∧
      canonicalJsonBytes H.toEncoding (leafProjection e.unitId "bytes-mode-contract-v1" e.byteHash
        e.mode e.contractDigest) = .ok (leafBytes H.toEncoding e) ∧
      e.leafDigest = H.sha256 (Core.leafBytes H.toEncoding e) := by
  have hrecipe : Ascii "bytes-mode-contract-v1" := by decide
  have hplain := leafProjection_plain H.toTextEncoding e.mode h.id hrecipe
    (ascii_of_isDigest h.byteHash) h.contract
  have hbytes : canonicalJsonBytes H.toEncoding (leafProjection e.unitId "bytes-mode-contract-v1"
      e.byteHash e.mode e.contractDigest) = .ok (Core.leafBytes H.toEncoding e) := by
    rw [Core.leafBytes, hplain.bytes]
    rfl
  refine ⟨hplain, hbytes, ?_⟩
  have hleaf := h.leaf
  rw [leafDigest, hbytes] at hleaf
  exact (Except.ok.inj hleaf).symm

theorem EvidenceOk.covered_of_leafDigest {e e' : UnitEvidence} (h : EvidenceOk H e)
    (h' : EvidenceOk H e') (he : e ∈ evidence) (he' : e' ∈ evidence')
    (hinj : NoCollision H
      (hashedLeaves H.toEncoding evidence ++ hashedLeaves H.toEncoding evidence'))
    (heq : e.leafDigest = e'.leafDigest) :
    e.byteHash = e'.byteHash ∧ e.mode = e'.mode ∧ e.contractDigest = e'.contractDigest := by
  obtain ⟨hplain, hbytes, hdigest⟩ := h.leafBytes
  obtain ⟨hplain', hbytes', hdigest'⟩ := h'.leafBytes
  rw [hdigest, hdigest'] at heq
  have hpreimage := hinj _ (List.mem_append_left _ (List.mem_map_of_mem he)) _
    (List.mem_append_right _ (List.mem_map_of_mem he')) heq
  rw [← hpreimage] at hbytes'
  exact (leafProjection_same (hplain.same_of_bytes hplain' hbytes hbytes')).2

/-- Leaf digests agree just where what they cover does. -/
theorem leafDigestAt_eq_iff (hE : Accepted H registry evidence)
    (hE' : Accepted H registry' evidence') (hinj : NoCollision H
      (hashedLeaves H.toEncoding evidence ++ hashedLeaves H.toEncoding evidence'))
    {unitId : String} (hu : unitId ∈ registry.units.map (·.unitId))
    (hu' : unitId ∈ registry'.units.map (·.unitId)) :
    leafDigestAt evidence unitId = leafDigestAt evidence' unitId ↔
      coveredAt evidence unitId = coveredAt evidence' unitId := by
  obtain ⟨e, he, hat, hid⟩ := exists_evidenceAt (hE.covers unitId hu)
  obtain ⟨e', he', hat', hid'⟩ := exists_evidenceAt (hE'.covers unitId hu')
  have hok := hE.unit e he
  have hok' := hE'.unit e' he'
  simp only [leafDigestAt, coveredAt, hat, hat', Option.map_some, Option.getD_some,
    Option.some.injEq, Prod.mk.injEq]
  constructor
  · exact hok.covered_of_leafDigest hok' he he' hinj
  · rintro ⟨hhash, hmode, hcontract⟩
    rw [hok.leafBytes.2.2, hok'.leafBytes.2.2, leafBytes, leafBytes, hid, hid', hhash, hmode,
      hcontract]

theorem Whole.surface_plain (h : Whole H registry evidence digests) {surfaceId : String}
    (hid : surfaceId ∈ surfaceIds registry.surfaces) :
    Plain H.toEncoding (checkedProjection surfaceId (contentOf registry evidence surfaceId)
        (referencesWith registry digests surfaceId)) ∧
      digestPreimage H.toEncoding "agent-workflow.runtime-surface.v1"
        (checkedProjection surfaceId (contentOf registry evidence surfaceId)
          (referencesWith registry digests surfaceId)) =
        .ok (surfaceBytes H.toEncoding surfaceId (contentOf registry evidence surfaceId)
          (referencesWith registry digests surfaceId)) := by
  obtain ⟨surface, hat⟩ := exists_surfaceAt hid
  obtain ⟨hsurface, rfl⟩ := (surfaceAt_eq_some h.validated.surfaceIds).mp hat
  exact surfaceBytes_spec h.validated h.accepted hsurface
    (h.computed.references_ascii (h.computed.closed _ (h.mem_keys.mpr hid)))

/-- Without collisions the recipe tells surfaces apart, also those of two registries. -/
theorem Whole.apart (h : Whole H registry evidence digests)
    (h' : Whole H registry' evidence' digests') (hinj : NoCollision H
      (hashedSurfaces H.toEncoding registry evidence digests ++
        hashedSurfaces H.toEncoding registry' evidence' digests')) :
    Apart (surfaceRecipe H) {s | s ∈ surfaceIds registry.surfaces}
      {s | s ∈ surfaceIds registry'.surfaces} (contentOf registry evidence)
      (contentOf registry' evidence') (referencesWith registry digests)
      (referencesWith registry' digests') := by
  intro surfaceId hid hid' heq
  obtain ⟨hplain, hbytes⟩ := h.surface_plain hid
  obtain ⟨hplain', hbytes'⟩ := h'.surface_plain hid'
  have hpreimage := hinj _ (List.mem_append_left _ (List.mem_map_of_mem hid)) _
    (List.mem_append_right _ (List.mem_map_of_mem hid')) heq
  rw [← hpreimage] at hbytes'
  exact (checkedProjection_same (hplain.same_of_preimage hplain' hbytes hbytes')).2

/-! ### One registry, two lists of evidence -/

theorem mem_hashed_append {a b a' b' : List Bytes} : a ++ a' ⊆ a ++ b ++ (a' ++ b') ∧
    b ++ b' ⊆ a ++ b ++ (a' ++ b') := by
  constructor
  · intro x hx
    simp only [List.mem_append] at hx ⊢
    tauto
  · intro x hx
    simp only [List.mem_append] at hx ⊢
    tauto

theorem leavesOf_eq_iff {surface surface' : SurfaceDescriptor}
    (howned : surface.ownedUnitIds = surface'.ownedUnitIds) :
    leavesOf evidence surface = leavesOf evidence' surface' ↔
      ∀ unitId ∈ surface.ownedUnitIds,
        leafDigestAt evidence unitId = leafDigestAt evidence' unitId := by
  rw [leavesOf, leavesOf, ← howned, List.map_inj_left]
  simp

/-- Registries that agree on a surface's digest agree on its closure's units and on what their
evidence says of them. -/
theorem Whole.agree (h : Whole H registry evidence digests)
    (h' : Whole H registry' evidence' digests')
    (hleaves : NoCollision H
      (hashedLeaves H.toEncoding evidence ++ hashedLeaves H.toEncoding evidence'))
    (hsurfaces : NoCollision H
      (hashedSurfaces H.toEncoding registry evidence digests ++
        hashedSurfaces H.toEncoding registry' evidence' digests'))
    {surfaceId reached : String} (hid : surfaceId ∈ surfaceIds registry.surfaces)
    (hid' : surfaceId ∈ surfaceIds registry'.surfaces)
    (heq : digestAt digests surfaceId = digestAt digests' surfaceId)
    (hreach : Reaches (referencesOf registry.surfaces) surfaceId reached) :
    Reaches (referencesOf registry'.surfaces) surfaceId reached ∧
      ∃ surface surface', surfaceAt registry.surfaces reached = some surface ∧
        surfaceAt registry'.surfaces reached = some surface' ∧
        surface.ownedUnitIds = surface'.ownedUnitIds ∧
        ∀ unitId ∈ surface.ownedUnitIds,
          coveredAt evidence unitId = coveredAt evidence' unitId := by
  obtain ⟨hnode, hnode', hreach', -, hcontent, -⟩ :=
    h.digested.reach h'.digested (h.apart h' hsurfaces) hid hid' heq hreach
  obtain ⟨surface, hat⟩ := exists_surfaceAt hnode
  obtain ⟨surface', hat'⟩ := exists_surfaceAt hnode'
  have hmem := ((surfaceAt_eq_some h.validated.surfaceIds).mp hat).1
  have hmem' := ((surfaceAt_eq_some h'.validated.surfaceIds).mp hat').1
  rw [contentOf_of_surfaceAt evidence hat, contentOf_of_surfaceAt evidence' hat',
    Prod.mk.injEq] at hcontent
  have howned : surface.ownedUnitIds = surface'.ownedUnitIds := by
    have hfst := congrArg (List.map Prod.fst) hcontent.2
    simpa [leavesOf, Function.comp_def] using hfst
  refine ⟨hreach', surface, surface', hat, hat', howned, fun unitId hunit => ?_⟩
  have hleaf := (leavesOf_eq_iff howned).mp hcontent.2 unitId hunit
  exact (leafDigestAt_eq_iff h.accepted h'.accepted hleaves
    (h.validated.owned surface hmem unitId hunit)
    (h'.validated.owned surface' hmem' unitId (howned ▸ hunit))).mp hleaf

/-- The bytes that a computation of surface digests hashes. -/
def hashedBytes (H : Hasher) (registry : VerifiedSurfaceRegistry) (raws : List Members) :
    List Bytes :=
  match parseEvidence H registry raws with
  | .error _ => []
  | .ok evidence =>
    hashedLeaves H.toEncoding evidence ++
      ((computeDigests H registry evidence).toOption.map
        (hashedSurfaces H.toEncoding registry evidence)).getD []

theorem hashedBytes_eq {raws : List Members} (he : parseEvidence H registry raws = .ok evidence)
    (hdigests : computeDigests H registry evidence = .ok digests) :
    hashedBytes H registry raws = hashedLeaves H.toEncoding evidence ++
      hashedSurfaces H.toEncoding registry evidence digests := by
  rw [hashedBytes, he]
  simp only [hdigests]
  rfl

theorem surface_digest_identifies_closure {casefold : String → String}
    {registryDocument inventoryDocument : Members} {raws raws' : List Members}
    {surfaceId : String}
    (hregistry : validateSurfaceRegistry H casefold registryDocument inventoryDocument =
      .ok registry)
    (hsurface : surfaceId ∈ surfaceIds registry.surfaces)
    (he : parseEvidence H registry raws = .ok evidence)
    (he' : parseEvidence H registry raws' = .ok evidence')
    (hinj : NoCollision H (hashedBytes H registry raws ++ hashedBytes H registry raws')) :
    ∃ digests digests' d d', computeSurfaceDigests H registry raws = .ok digests ∧
      computeSurfaceDigests H registry raws' = .ok digests' ∧
      digests.lookup surfaceId = some d ∧ digests'.lookup surfaceId = some d' ∧
      (d = d' ↔ ∀ reached, Reaches (referencesOf registry.surfaces) surfaceId reached →
        ∀ surface ∈ registry.surfaces, surface.surfaceId = reached →
          ∀ unitId ∈ surface.ownedUnitIds,
            coveredAt evidence unitId = coveredAt evidence' unitId) := by
  have hV := validateSurfaceRegistry_validated hregistry
  have hE := parseEvidence_accepted hV he
  have hE' := parseEvidence_accepted hV he'
  obtain ⟨digests, hdigests, hW⟩ := computeDigests_whole hV hE
  obtain ⟨digests', hdigests', hW'⟩ := computeDigests_whole hV hE'
  have hd := lookup_of_mem_keys (hW.mem_keys.mpr hsurface)
  have hd' := lookup_of_mem_keys (hW'.mem_keys.mpr hsurface)
  rw [hashedBytes_eq he hdigests, hashedBytes_eq he' hdigests'] at hinj
  have hleaf : ∀ unitId ∈ registry.units.map (·.unitId),
      leafDigestAt evidence unitId = leafDigestAt evidence' unitId ↔
        coveredAt evidence unitId = coveredAt evidence' unitId := fun unitId hu =>
    leafDigestAt_eq_iff hE hE' (hinj.mono mem_hashed_append.1) hu hu
  have hcontent : ∀ surface ∈ registry.surfaces,
      contentOf registry evidence surface.surfaceId =
        contentOf registry evidence' surface.surfaceId ↔
        ∀ unitId ∈ surface.ownedUnitIds,
          coveredAt evidence unitId = coveredAt evidence' unitId := by
    intro surface hmem
    have hat := (surfaceAt_eq_some hV.surfaceIds).mpr ⟨hmem, rfl⟩
    rw [contentOf_of_surfaceAt evidence hat, contentOf_of_surfaceAt evidence' hat, Prod.mk.injEq,
      leavesOf_eq_iff rfl]
    simp only [true_and]
    exact forall₂_congr fun unitId hu => hleaf unitId (hV.owned surface hmem unitId hu)
  refine ⟨digests, digests', _, _, ?_, ?_, hd, hd', ?_⟩
  · rw [computeSurfaceDigests, he, bind_ok_eq, hdigests]
  · rw [computeSurfaceDigests, he', bind_ok_eq, hdigests']
  constructor
  · rintro heq reached hreach surface hmem rfl
    have hapart := hW.apart hW' (hinj.mono mem_hashed_append.2)
    obtain ⟨-, -, -, -, heq, -⟩ :=
      hW.digested.reach hW'.digested hapart hsurface hsurface heq hreach
    exact (hcontent surface hmem).mp heq
  · intro hagree
    refine hW.digested.agree hW'.digested hV.ordered (fun s hs => (hV.listed s).mpr hs) hsurface ?_
    intro reached hreach
    have hreached : reached ∈ {s | s ∈ surfaceIds registry.surfaces} :=
      Reaches.mem hW.digested hsurface hreach
    obtain ⟨surface, hat⟩ := exists_surfaceAt hreached
    obtain ⟨hmem, rfl⟩ := (surfaceAt_eq_some hV.surfaceIds).mp hat
    exact (hcontent surface hmem).mpr (hagree _ hreach surface hmem rfl)

theorem map_hashedBytes (hV : Validated H registry) {raws : List Members}
    (he : parseEvidence H registry raws = .ok evidence)
    (hdigests : computeDigests H registry evidence = .ok digests) :
    (hashedBytes H registry raws).map H.sha256 =
      evidence.map (·.leafDigest) ++ (surfaceIds registry.surfaces).map (digestAt digests) := by
  have hE := parseEvidence_accepted hV he
  obtain ⟨digests', hdigests', hW⟩ := computeDigests_whole hV hE
  rw [hdigests] at hdigests'
  cases hdigests'
  rw [hashedBytes_eq he hdigests, List.map_append, hashedLeaves, hashedSurfaces, List.map_map,
    List.map_map]
  congr 1
  · exact List.map_congr_left fun e he => ((hE.unit e he).leafBytes.2.2).symm
  · exact List.map_congr_left fun s hs => (hW.computed.recipe s (hW.mem_keys.mpr hs)).symm

theorem noCollision_of_nodup {inputs : List Bytes} (h : (inputs.map H.sha256).Nodup) :
    NoCollision H inputs := fun _ hb _ hc heq => List.inj_on_of_nodup_map h hb hc heq

/-! ### A registry of the two mandatory surfaces -/

def checkDigit (bytes : Bytes) : Nat := bytes.foldl (fun n b => (37 * n + b.toNat) % 997) 0 % 16

/-- A check digit, repeated as often as a digest has digits. -/
def checksum (bytes : Bytes) : String :=
  String.ofList (List.replicate 64 (Nat.digitChar (checkDigit bytes)))

theorem isLowerHex_digitChar {n : Nat} (h : n < 16) : isLowerHex (Nat.digitChar n) = true := by
  have hall : ∀ k : Fin 16, isLowerHex (Nat.digitChar k.val) = true := by decide
  exact hall ⟨n, h⟩

theorem checksum_isDigest (bytes : Bytes) : isDigest (checksum bytes) = true := by
  rw [isDigest, charsOf_eq, checksum, String.toList_ofList, List.length_replicate, Bool.and_eq_true]
  refine ⟨by decide, List.all_eq_true.mpr fun c hc => ?_⟩
  rw [List.eq_of_mem_replicate hc]
  exact isLowerHex_digitChar (Nat.mod_lt _ (by decide))

def checksumHasher : Hasher where
  toTextEncoding := sampleTextEncoding
  sha256 := checksum
  sha256_isDigest := checksum_isDigest

def sampleSurface (surfaceId unitId : String) (references : List String) : JsonValue :=
  .object [("surface_id", .string surfaceId), ("surface_kind", .string surfaceId),
    ("descriptor_version", .int 1), ("digest_recipe_id", .string "surface-content-v1"),
    ("owned_unit_ids", texts [unitId]), ("references", texts references),
    ("contract_change_class", .string "runtime-visible")]

def sampleUnit (unitId path surfaceId : String) : JsonValue :=
  .object [("unit_id", .string unitId), ("unit_kind", .string "python"),
    ("distribution_scope", .string "rendered-project"), ("normalized_path", .string path),
    ("owning_surface_id", .string surfaceId),
    ("leaf_recipe_id", .string "bytes-mode-contract-v1"), ("runtime_visible", .bool true)]

def sampleRegistryDocument : Members :=
  [("schema_id", .string "agent-workflow.runtime-surface-registry"), ("schema_version", .int 1),
    ("surfaces", .array
      [sampleSurface "runtime-control-plane" "python:plane" ["surface-registry"],
        sampleSurface "surface-registry" "python:registry" []])]

def sampleInventory : Members :=
  [("schema_id", .string "agent-workflow.runtime-unit-inventory"), ("schema_version", .int 1),
    ("units", .array [sampleUnit "python:plane" "plane.py" "runtime-control-plane",
      sampleUnit "python:registry" "registry.py" "surface-registry"])]

def sampleUnitEvidence (unitId mode : String) : Members :=
  [("unit_id", .string unitId), ("byte_hash", .string (checksum [])), ("mode", .string mode),
    ("contract_digest", .string canonicalNullText), ("distributions", texts ["rendered-project"])]

def sampleEvidence (mode : String) : List Members :=
  [sampleUnitEvidence "python:plane" mode, sampleUnitEvidence "python:registry" mode]

def digestOf (c : Char) : String := String.ofList (List.replicate 64 c)

/-- Every text has one digest: nothing here depends on digests. -/
def constantHasher : Hasher where
  toTextEncoding := sampleTextEncoding
  sha256 _ := digestOf 'a'
  sha256_isDigest _ := by decide

def sampleRegistry : VerifiedSurfaceRegistry where
  surfaces :=
    [⟨"runtime-control-plane", "runtime-control-plane", 1, "surface-content-v1", ["python:plane"],
        ["surface-registry"], "runtime-visible"⟩,
      ⟨"surface-registry", "surface-registry", 1, "surface-content-v1", ["python:registry"], [],
        "runtime-visible"⟩]
  units :=
    [⟨"python:plane", "python", "rendered-project", "plane.py", "runtime-control-plane",
        "bytes-mode-contract-v1"⟩,
      ⟨"python:registry", "python", "rendered-project", "registry.py", "surface-registry",
        "bytes-mode-contract-v1"⟩]
  topologicalSurfaceIds := ["surface-registry", "runtime-control-plane"]
  registryDigest := digestOf 'd'

def sampleParsed (mode : FileTree.Mode) (plane registry : Char) : List UnitEvidence :=
  [⟨"python:plane", checksum [], mode, canonicalNullText, ["rendered-project"], digestOf plane⟩,
    ⟨"python:registry", checksum [], mode, canonicalNullText, ["rendered-project"],
      digestOf registry⟩]

def sampleDigests (registry plane : Char) : List (String × String) :=
  [("surface-registry", digestOf registry), ("runtime-control-plane", digestOf plane)]

theorem sampleRegistry_validated : validateSurfaceRegistry checksumHasher id sampleRegistryDocument
    sampleInventory = .ok sampleRegistry :=
  eq_ok_of_toOption (by decide +kernel)

theorem sampleParsed_accepted :
    parseEvidence checksumHasher sampleRegistry (sampleEvidence "0644") =
        .ok (sampleParsed 0o644 'e' 'a') ∧
      parseEvidence checksumHasher sampleRegistry (sampleEvidence "0755") =
        .ok (sampleParsed 0o755 '4' 'f') :=
  ⟨eq_ok_of_toOption (by decide +kernel), eq_ok_of_toOption (by decide +kernel)⟩

theorem sampleDigests_computed :
    computeDigests checksumHasher sampleRegistry (sampleParsed 0o644 'e' 'a') =
        .ok (sampleDigests '9' 'c') ∧
      computeDigests checksumHasher sampleRegistry (sampleParsed 0o755 '4' 'f') =
        .ok (sampleDigests '0' '1') :=
  ⟨eq_ok_of_toOption (by decide +kernel), eq_ok_of_toOption (by decide +kernel)⟩

theorem sampleHashed_apart : NoCollision checksumHasher
    (hashedBytes checksumHasher sampleRegistry (sampleEvidence "0644") ++
      hashedBytes checksumHasher sampleRegistry (sampleEvidence "0755")) := by
  have hV := validateSurfaceRegistry_validated sampleRegistry_validated
  apply noCollision_of_nodup
  rw [List.map_append, map_hashedBytes hV sampleParsed_accepted.1 sampleDigests_computed.1,
    map_hashedBytes hV sampleParsed_accepted.2 sampleDigests_computed.2]
  decide

/-- The mode of a unit of the referenced surface changes the digest. -/
theorem surface_digest_identifies_closure_sample : ∃ digests digests' d d',
    computeSurfaceDigests checksumHasher sampleRegistry (sampleEvidence "0644") = .ok digests ∧
      computeSurfaceDigests checksumHasher sampleRegistry (sampleEvidence "0755") = .ok digests' ∧
      digests.lookup "runtime-control-plane" = some d ∧
      digests'.lookup "runtime-control-plane" = some d' ∧ d ≠ d' := by
  have hsurface : "runtime-control-plane" ∈ surfaceIds sampleRegistry.surfaces := by decide
  obtain ⟨digests, digests', d, d', hdigests, hdigests', hd, hd', hiff⟩ :=
    surface_digest_identifies_closure sampleRegistry_validated hsurface
      sampleParsed_accepted.1 sampleParsed_accepted.2 sampleHashed_apart
  refine ⟨digests, digests', d, d', hdigests, hdigests', hd, hd', fun heq => ?_⟩
  have hreach : Reaches (referencesOf sampleRegistry.surfaces) "runtime-control-plane"
      "surface-registry" := .single (by decide)
  have hagree : ∀ surface ∈ sampleRegistry.surfaces, surface.surfaceId = "surface-registry" →
      ∀ unitId ∈ surface.ownedUnitIds, coveredAt (sampleParsed 0o644 'e' 'a') unitId =
        coveredAt (sampleParsed 0o755 '4' 'f') unitId :=
    hiff.mp heq "surface-registry" hreach
  exact absurd hagree (by decide)

end AgentStack.Core
