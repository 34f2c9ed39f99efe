import AgentStack.Core.SurfaceAcceptance
import AgentStack.Runtime.Frames
import AgentStack.Runtime.RuntimeLoad
import AgentStack.SampleHost

/-! What a successful load returns: the units of the closure, with the bytes and modes that the
pinned digest of the surface covers. -/
namespace AgentStack.Runtime

open AgentStack.Core JsonText FileTree Crash KeyedList Reconcile RefGraph

variable {host : Host} {H : Hasher} {registry registry' : VerifiedSurfaceRegistry}
  {request request' : TaskRuntimeLoadRequest} {package package' s s' : FS}
  {bundle bundle' : ImmutableDispatchBundle}

/-! ### The closure -/

theorem mem_reachedFrom (hV : Validated H registry) {surfaceId found : String}
    (hid : surfaceId ∈ surfaceIds registry.surfaces) :
    found ∈ reachedFrom registry.surfaces [surfaceId] ↔
      Reaches (referencesOf registry.surfaces) surfaceId found := by
  have hclosed : Declared registry.surfaces := hV.references
  rw [reachedFrom, mem_visit_iff hclosed.closed (by simpa using hid) le_rfl]
  simp

theorem runtimeClosure_eq_ok (hV : Validated H registry) {surfaceId : String}
    {closure : List String} : runtimeClosure registry surfaceId = .ok closure ↔
      surfaceId ∈ surfaceIds registry.surfaces ∧
      (∀ m ∈ Core.mandatorySurfaces, Reaches (referencesOf registry.surfaces) surfaceId m) ∧
      closure = registry.topologicalSurfaceIds.filter
        (· ∈ reachedFrom registry.surfaces [surfaceId]) := by
  rw [runtimeClosure]
  constructor
  · intro h
    obtain ⟨_, hid, h⟩ := bind_eq_ok h
    obtain ⟨_, hmissing, h⟩ := bind_eq_ok h
    cases h
    have hid := of_decide_eq_true (check_eq_ok.mp hid)
    have hmissing := of_decide_eq_true (check_eq_ok.mp hmissing)
    rw [List.filter_eq_nil_iff] at hmissing
    refine ⟨hid, fun m hm => ?_, rfl⟩
    rw [← mem_reachedFrom hV hid]
    simpa using hmissing m hm
  · rintro ⟨hid, hmandatory, rfl⟩
    have hmissing : Core.mandatorySurfaces.filter
        (· ∉ reachedFrom registry.surfaces [surfaceId]) = [] := by
      rw [List.filter_eq_nil_iff]
      intro m hm
      simpa using (mem_reachedFrom hV hid).mpr (hmandatory m hm)
    simp only [check, hid, hmissing, decide_true, if_true, bind_ok_eq]
    rfl

theorem mem_runtimeClosure (hV : Validated H registry) {surfaceId : String} {closure : List String}
    (h : runtimeClosure registry surfaceId = .ok closure) {found : String} :
    found ∈ closure ↔ Reaches (referencesOf registry.surfaces) surfaceId found := by
  obtain ⟨hid, -, rfl⟩ := (runtimeClosure_eq_ok hV).mp h
  have hclosed : Declared registry.surfaces := hV.references
  rw [List.mem_filter, decide_eq_true_eq, mem_reachedFrom hV hid, hV.listed, and_iff_right_iff_imp]
  intro hreach
  induction hreach with
  | refl => exact hid
  | tail _ hstep ih => exact hclosed.closed _ ih _ hstep

/-! ### What a load has checked -/

/-- The digests a task pins, as its integration document stands. -/
def taskPins (host : Host) (taskRef : String) (s : FS) : Except Failure (List (String × String)) :=
    do
  let content ← readLoadedIntegration taskRef s
  let verified ← validateLoaded host content
  return pinnedDigests verified.taskContractSurfaces

/-- The digests and the evidence behind a bundle. -/
structure Checked (host : Host) (H : Hasher) (request : TaskRuntimeLoadRequest) (package s : FS)
    (bundle : ImmutableDispatchBundle) (pins : List (String × String))
    (observed : List Members) (found : List (String × String)) : Prop where
  surface : bundle.surfaceId = request.surfaceId
  task : taskPins host bundle.taskRef s = .ok pins
  closure : runtimeClosure request.registry request.surfaceId = .ok bundle.authorizedSurfaceIds
  evidence : ∃ expected, evidenceMap [] request.contractEvidence = .ok expected ∧
    observedEvidence request.registry expected bundle.units = .ok observed
  units : ∃ unitIds, closureUnitIds request.registry bundle.authorizedSurfaceIds = .ok unitIds ∧
    unitIds.mapM (readUnit host request.registry package s) = .ok bundle.units
  digests : computeSurfaceDigests H request.registry observed = .ok found
  pinned : ∀ surfaceId ∈ bundle.authorizedSurfaceIds,
    ∃ d, found.lookup surfaceId = some d ∧ pins.lookup surfaceId = some d

theorem surfaceDigestsOr_eq_ok {message : String} {evidence : List Members}
    {digests : List (String × String)} (h : surfaceDigestsOr H message registry evidence =
      .ok digests) : computeSurfaceDigests H registry evidence = .ok digests := by
  unfold surfaceDigestsOr at h
  split at h
  next hdigests =>
    cases h
    exact hdigests
  next => cases h

theorem checkSameDigest_ok {message : String} {digests expected : List (String × String)}
    {surfaceId : String} {u : Unit}
    (h : checkSameDigest message digests expected surfaceId = .ok u) :
    ∃ d, digests.lookup surfaceId = some d ∧ expected.lookup surfaceId = some d := by
  obtain ⟨d, hd, h⟩ := bind_eq_ok h
  obtain ⟨e, he, h⟩ := bind_eq_ok h
  have heq := of_decide_eq_true (check_eq_ok.mp h)
  exact ⟨d, require_eq_ok.mp hd, heq ▸ require_eq_ok.mp he⟩

theorem loadLocked_checked {taskRef : String}
    (h : loadLocked host H request taskRef package s = .ok bundle) :
    ∃ pins observed found, Checked host H request package s bundle pins observed found ∧
      bundle.taskRef = taskRef := by
  unfold loadLocked at h
  simp only at h
  obtain ⟨_, -, h⟩ := bind_eq_ok h
  obtain ⟨_, -, h⟩ := bind_eq_ok h
  obtain ⟨content, hcontent, h⟩ := bind_eq_ok h
  obtain ⟨verified, hverified, h⟩ := bind_eq_ok h
  obtain ⟨entry, -, h⟩ := bind_eq_ok h
  obtain ⟨_, -, h⟩ := bind_eq_ok h
  obtain ⟨closure, hclosure, h⟩ := bind_eq_ok h
  obtain ⟨_, -, h⟩ := bind_eq_ok h
  obtain ⟨expected, hexpected, h⟩ := bind_eq_ok h
  obtain ⟨current, hcurrent, h⟩ := bind_eq_ok h
  obtain ⟨_, hpinned, h⟩ := bind_eq_ok h
  obtain ⟨unitIds, hunitIds, h⟩ := bind_eq_ok h
  obtain ⟨units, hunits, h⟩ := bind_eq_ok h
  obtain ⟨observed, hobserved, h⟩ := bind_eq_ok h
  obtain ⟨found, hfound, h⟩ := bind_eq_ok h
  obtain ⟨_, hsame, h⟩ := bind_eq_ok h
  obtain ⟨again, -, h⟩ := bind_eq_ok h
  obtain ⟨_, -, h⟩ := bind_eq_ok h
  obtain ⟨_, -, h⟩ := bind_eq_ok h
  obtain ⟨_, -, h⟩ := bind_eq_ok h
  cases h
  obtain ⟨loaded, hloaded, hverified⟩ := bind_eq_ok hverified
  have hsameVerified : loaded = verified := by
    obtain ⟨_, -, hverified⟩ := bind_eq_ok hverified
    obtain ⟨_, -, hverified⟩ := bind_eq_ok hverified
    obtain ⟨_, -, hverified⟩ := bind_eq_ok hverified
    obtain ⟨_, -, hverified⟩ := bind_eq_ok hverified
    obtain ⟨_, -, hverified⟩ := bind_eq_ok hverified
    obtain ⟨_, -, hverified⟩ := bind_eq_ok hverified
    exact Except.ok.inj hverified
  subst hsameVerified
  refine ⟨pinnedDigests loaded.taskContractSurfaces, observed, found, ?_, rfl⟩
  constructor
  · rfl
  · rw [taskPins, hcontent, bind_ok_eq, hloaded]
    rfl
  · exact hclosure
  · exact ⟨expected, hexpected, hobserved⟩
  · exact ⟨unitIds, hunitIds, hunits⟩
  · exact surfaceDigestsOr_eq_ok hfound
  · intro surfaceId hmem
    obtain ⟨d, hd, hpin⟩ := checkSameDigest_ok (forM_eq_ok hpinned surfaceId hmem)
    obtain ⟨e, he, hd'⟩ := checkSameDigest_ok (forM_eq_ok hsame surfaceId hmem)
    rw [hd] at hd'
    cases hd'
    exact ⟨d, he, hpin⟩

theorem loadLocked_eq_ok {taskRef : String} {content : Content} {verified : VerifiedIntegration}
    {entry : RuntimeEntryDescriptor} {closure unitIds : List String}
    {expected : List (String × Members)} {current found : List (String × String)}
    {observed : List Members} {units : List DispatchUnit}
    (hmaintenance : noMaintenance s = .ok ()) (hunfinished : noUnfinished host s = .ok ())
    (hcontent : readLoadedIntegration taskRef s = .ok content)
    (hstate : validateLoadedState host request content = .ok verified)
    (hentry : requestedEntry request = .ok entry) (hadmitted : admitEntry entry verified = .ok ())
    (hclosure : runtimeClosure request.registry request.surfaceId = .ok closure)
    (hpinned : checkPinned closure (pinnedDigests verified.taskContractSurfaces) = .ok ())
    (hexpected : evidenceMap [] request.contractEvidence = .ok expected)
    (hcurrent : surfaceDigestsOr H "current surface contract is invalid" request.registry
      request.contractEvidence = .ok current)
    (hsame : closure.forM (checkSameDigest "current surface contract differs from task pin" current
      (pinnedDigests verified.taskContractSurfaces)) = .ok ())
    (hunitIds : closureUnitIds request.registry closure = .ok unitIds)
    (hunits : unitIds.mapM (readUnit host request.registry package s) = .ok units)
    (hobserved : observedEvidence request.registry expected units = .ok observed)
    (hfound : surfaceDigestsOr H "observed runtime surface is invalid" request.registry observed =
      .ok found)
    (hagain : closure.forM (checkSameDigest
      "observed runtime surface differs from current contract" found current) = .ok ())
    (hunchanged : units.forM (checkUnchanged host request.registry package s) = .ok ()) :
    loadLocked host H request taskRef package s = .ok ⟨verified.taskId, taskRef,
      verified.stateRevision, verified.mode, verified.lifecycleStatus, verified.phase,
      request.surfaceId, request.runtimeEntryId, closure, units⟩ := by
  simp only [loadLocked, hmaintenance, hunfinished, hcontent, hstate, hentry, hadmitted, hclosure,
    hpinned, hexpected, hcurrent, hsame, hunitIds, hunits, hobserved, hfound, hagain, hunchanged,
    check, decide_true, if_true, bind_ok_eq, pure_eq_ok]

/-- The paths the gate may touch. -/
def GatePath (q : Path) : Prop := q <+: controlDir ++ ["runtime-state.lock"]

theorem acquireRuntimeStateGate_frame :
    Within (DirTree.Frame GatePath) (acquireRuntimeStateGate host) := by
  have hmake : ∀ p, p <+: controlDir ++ ["runtime-state.lock"] →
      Within (DirTree.Frame GatePath) (DirTree.mkdirs host.dirMode p : Prog Unit) := by
    intro p hp
    apply DirTree.mkdirs_frame
    exact fun q hq => hq.trans hp
  refine (realDirectory_within false (hmake [] List.nil_prefix)).bind fun _ => ?_
  refine (realDirectory_within true (hmake _ (List.prefix_append _ _))).bind fun _ => ?_
  refine (realDirectory_within true (hmake _ ?_)).bind fun _ => ?_
  · rw [parent_append]
    exact List.prefix_append _ _
  · exact Within.mapError (openCreate_within
      (DirTree.create_frame (by simp) List.prefix_rfl))

theorem integrationFile_not_gatePath (taskRef : String) : ¬ GatePath (integrationFile taskRef) := by
  intro h
  have hne : segments taskRef ≠ [] := by
    rw [segments]
    simpa using splitChars_ne_nil '/' taskRef.toList
  obtain ⟨rest, hrest⟩ := h
  rw [integrationFile, controlDir, integrationName] at hrest
  cases hseg : segments taskRef with
  | nil => exact hne hseg
  | cons a l =>
    rw [hseg] at hrest
    cases l with
    | nil => simp at hrest
    | cons b l => simp at hrest

/-- Taking the gate leaves what a task pins as it is. -/
theorem taskPins_gate (taskRef : String) : taskPins host taskRef
    ((acquireRuntimeStateGate host).final s) = taskPins host taskRef s := by
  have hframe : DirTree.Frame GatePath s ((acquireRuntimeStateGate host).final s) :=
    acquireRuntimeStateGate_frame.final s
  have hget := hframe.off (integrationFile taskRef) (integrationFile_not_gatePath taskRef)
  rw [taskPins, taskPins, readLoadedIntegration, readLoadedIntegration, hget]

theorem loadTaskRuntime_checked
    (h : (loadTaskRuntime host H request package).out s = .ok bundle) :
    ∃ pins observed found, Checked host H request package
        ((acquireRuntimeStateGate host).final s) bundle pins observed found ∧
      taskPins host bundle.taskRef s = .ok pins := by
  obtain ⟨taskRef, -, h⟩ := Program.lift_out_eq_ok h
  obtain ⟨⟨⟩, -, h, -⟩ := Program.bind_out_eq_ok h
  obtain ⟨pins, observed, found, hchecked, -⟩ := loadLocked_checked h
  exact ⟨pins, observed, found, hchecked, taskPins_gate bundle.taskRef ▸ hchecked.task⟩

/-! ### The evidence of what was read -/

theorem octalDigits_modeText (m : FileTree.Mode) :
    (modeText m).toList = ['0', Nat.digitChar (m.val / 64), Nat.digitChar (m.val / 8 % 8),
      Nat.digitChar (m.val % 8)] := by
  rw [modeText, String.toList_ofList]

/-- The text of a mode reads back as the mode. -/
theorem normalizeMode_modeText (m : FileTree.Mode) : normalizeMode (modeText m) = .ok m := by
  have hsmall : m.val / 64 < 8 := by omega
  have hprefix : ∀ k : Fin 8, Nat.digitChar k.val ≠ 'o' := by decide
  have hne : Nat.digitChar (m.val / 64) ≠ 'o' := hprefix ⟨_, hsmall⟩
  have hdigits : ['0', Nat.digitChar (m.val / 64), Nat.digitChar (m.val / 8 % 8),
      Nat.digitChar (m.val % 8)].mapM octalDigit? =
        some [0, m.val / 64, m.val / 8 % 8, m.val % 8] := by
    rw [mapM_some_iff]
    exact .cons rfl (.cons (octalDigit?_digitChar hsmall) (.cons
      (octalDigit?_digitChar (by omega)) (.cons (octalDigit?_digitChar (by omega)) .nil)))
  have hvalue : ([0, m.val / 64, m.val / 8 % 8, m.val % 8].foldl (fun n d => 8 * n + d) 0) =
      m.val := by
    simp only [List.foldl_cons, List.foldl_nil]
    omega
  unfold normalizeMode
  rw [charsOf_eq, octalDigits_modeText]
  split
  next heq =>
    injection heq with _ heq
    injection heq with heq _
    exact absurd heq hne
  next =>
    simp only [hdigits, hvalue]
    simp

/-- How one unit's evidence reads. -/
structure EvidenceReads (raw : Members) (e : UnitEvidence) : Prop where
  id : getField raw "unit_id" = .string e.unitId
  byteHash : e.byteHash = (stringValue? (getField raw "byte_hash")).getD ""
  mode : normalizeModeValue (getField raw "mode") = .ok e.mode

theorem unitEvidence_reads {seen : List String} {raw : Members} {e : UnitEvidence}
    (h : unitEvidence H registry seen raw = .ok e) : EvidenceReads raw e := by
  unfold unitEvidence at h
  obtain ⟨_, -, h⟩ := bind_eq_ok h
  obtain ⟨unit, hunit, h⟩ := bind_eq_ok h
  obtain ⟨_, -, h⟩ := bind_eq_ok h
  obtain ⟨_, -, h⟩ := bind_eq_ok h
  obtain ⟨_, -, h⟩ := bind_eq_ok h
  obtain ⟨mode, hmode, h⟩ := bind_eq_ok h
  obtain ⟨distributions, -, h⟩ := bind_eq_ok h
  obtain ⟨_, -, h⟩ := bind_eq_ok h
  obtain ⟨leaf, -, h⟩ := bind_eq_ok h
  cases h
  obtain ⟨unitId, hid, hfind⟩ := Option.bind_eq_some_iff.mp (require_eq_ok.mp hunit)
  have hname := List.find?_some hfind
  constructor
  · rw [stringValue?_eq_some.mp hid]
    exact congrArg JsonValue.string (of_decide_eq_true hname).symm
  · rfl
  · unfold evidenceMode at hmode
    split at hmode
    · exact hmode
    · exact hmode
    · cases hmode

theorem unitEvidenceFrom_reads {seen evidence : List UnitEvidence} {raws : List Members}
    (h : unitEvidenceFrom H registry seen raws = .ok evidence) :
    ∃ read, evidence = seen ++ read ∧ List.Forall₂ EvidenceReads raws read := by
  induction raws generalizing seen with
  | nil =>
    cases h
    exact ⟨[], by simp, .nil⟩
  | cons raw raws ih =>
    obtain ⟨e, he, h⟩ := bind_eq_ok h
    obtain ⟨read, rfl, hread⟩ := ih h
    exact ⟨e :: read, by simp, .cons (unitEvidence_reads he) hread⟩

theorem parseEvidence_reads {evidence : List UnitEvidence} {raws : List Members}
    (h : parseEvidence H registry raws = .ok evidence) :
    List.Forall₂ EvidenceReads raws evidence := by
  unfold parseEvidence at h
  obtain ⟨parsed, hparsed, h⟩ := bind_eq_ok h
  obtain ⟨_, -, h⟩ := bind_eq_ok h
  cases h
  obtain ⟨read, rfl, hread⟩ := unitEvidenceFrom_reads hparsed
  exact hread

/-! ### The units of a bundle -/

theorem readUnit_ok {unitId : String} {unit : DispatchUnit}
    (h : readUnit host registry package s unitId = .ok unit) :
    unit.unitId = unitId ∧ unit.byteHash = host.hashBytes unit.content := by
  unfold readUnit at h
  obtain ⟨descriptor, -, h⟩ := bind_eq_ok h
  obtain ⟨_, -, h⟩ := bind_eq_ok h
  obtain ⟨path, -, h⟩ := bind_eq_ok h
  obtain ⟨_, -, h⟩ := bind_eq_ok h
  split at h
  next =>
    cases h
    exact ⟨rfl, rfl⟩
  next => cases h
  next => cases h

theorem mem_closureUnitIds {closure unitIds : List String}
    (h : closureUnitIds registry closure = .ok unitIds) {unitId : String} :
    unitId ∈ unitIds ↔ ∃ surfaceId ∈ closure, ∃ surface,
      surfaceAt registry.surfaces surfaceId = some surface ∧ unitId ∈ surface.ownedUnitIds := by
  obtain ⟨owned, howned, h⟩ := bind_eq_ok h
  cases h
  have hall : ∀ surfaceId surfaceUnits, require ((surfaceAt registry.surfaces surfaceId).map
      (·.ownedUnitIds)) (keyError surfaceId) = .ok surfaceUnits ↔ ∃ surface,
        surfaceAt registry.surfaces surfaceId = some surface ∧
          surface.ownedUnitIds = surfaceUnits := by
    intro surfaceId surfaceUnits
    rw [require_eq_ok, Option.map_eq_some_iff]
  rw [List.mem_flatten]
  constructor
  · rintro ⟨surfaceUnits, hunits, hmem⟩
    obtain ⟨surfaceId, hid, hunits⟩ := mapM_mem howned surfaceUnits hunits
    obtain ⟨surface, hat, rfl⟩ := (hall surfaceId surfaceUnits).mp hunits
    exact ⟨surfaceId, hid, surface, hat, hmem⟩
  · rintro ⟨surfaceId, hid, surface, hat, hmem⟩
    obtain ⟨surfaceUnits, hunits, hfound⟩ := mapM_result howned surfaceId hid
    obtain ⟨surface', hat', rfl⟩ := (hall surfaceId surfaceUnits).mp hfound
    rw [hat] at hat'
    cases hat'
    exact ⟨_, hunits, hmem⟩

variable {pins pins' found found' : List (String × String)} {observed observed' : List Members}

theorem Checked.mem_units (h : Checked host H request package s bundle pins observed found)
    {unit : DispatchUnit} (hunit : unit ∈ bundle.units) :
    readUnit host request.registry package s unit.unitId = .ok unit ∧
      ∃ surfaceId ∈ bundle.authorizedSurfaceIds, ∃ surface,
        surfaceAt request.registry.surfaces surfaceId = some surface ∧
          unit.unitId ∈ surface.ownedUnitIds := by
  obtain ⟨unitIds, hunitIds, hunits⟩ := h.units
  obtain ⟨unitId, hid, hread⟩ := mapM_mem hunits unit hunit
  have hname := (readUnit_ok hread).1
  subst hname
  exact ⟨hread, (mem_closureUnitIds hunitIds).mp hid⟩

/-- Every unit owned in the closure is in the bundle under its id. -/
theorem Checked.unitNamed (h : Checked host H request package s bundle pins observed found)
    {surfaceId unitId : String} (hid : surfaceId ∈ bundle.authorizedSurfaceIds)
    {surface : SurfaceDescriptor}
    (hat : surfaceAt request.registry.surfaces surfaceId = some surface)
    (hunit : unitId ∈ surface.ownedUnitIds) :
    ∃ unit ∈ bundle.units, unit.unitId = unitId ∧
      Runtime.unitNamed bundle.units unitId = some unit := by
  obtain ⟨unitIds, hunitIds, hunits⟩ := h.units
  have hmem := (mem_closureUnitIds hunitIds).mpr ⟨surfaceId, hid, surface, hat, hunit⟩
  obtain ⟨unit, hunit, hread⟩ := mapM_result hunits unitId hmem
  have hname := (readUnit_ok hread).1
  refine ⟨unit, hunit, hname, ?_⟩
  refine find?_eq_some_of_unique hunit (decide_eq_true hname) fun other hother hsame => ?_
  have hread' := (h.mem_units hother).1
  rw [of_decide_eq_true hsame, hread] at hread'
  exact (Except.ok.inj hread').symm

theorem whole_of_compute (hV : Validated H registry)
    (h : computeSurfaceDigests H registry observed = .ok found) :
    ∃ evidence, parseEvidence H registry observed = .ok evidence ∧
      computeDigests H registry evidence = .ok found ∧ Whole H registry evidence found := by
  obtain ⟨evidence, hevidence, h⟩ := bind_eq_ok h
  have hE := parseEvidence_accepted hV hevidence
  obtain ⟨digests, hdigests, hW⟩ := computeDigests_whole hV hE
  rw [h] at hdigests
  cases hdigests
  exact ⟨evidence, hevidence, h, hW⟩

/-- The evidence that was digested says of each unit what was read. -/
theorem Checked.covered (h : Checked host H request package s bundle pins observed found)
    (hV : Validated H request.registry) {evidence : List UnitEvidence}
    (hevidence : parseEvidence H request.registry observed = .ok evidence) {unit : DispatchUnit}
    (hunit : unit ∈ bundle.units) : ∃ contract,
      coveredAt evidence unit.unitId = some (unit.byteHash, unit.mode, contract) := by
  obtain ⟨hread, surfaceId, hid, surface, hat, howned⟩ := h.mem_units hunit
  have hsurface := ((surfaceAt_eq_some hV.surfaceIds).mp hat).1
  have hknown := hV.owned surface hsurface unit.unitId howned
  obtain ⟨expected, -, hobserved⟩ := h.evidence
  obtain ⟨raw, hraw, hobserved⟩ := mapM_result hobserved unit.unitId hknown
  obtain ⟨found, -, hname, hnamed⟩ := h.unitNamed hid hat howned
  have hfound : found = unit := by
    have hread' := (h.mem_units (List.mem_of_find?_eq_some hnamed)).1
    rw [hname, hread] at hread'
    exact (Except.ok.inj hread').symm
  subst hfound
  obtain ⟨contract, -, hobserved⟩ := bind_eq_ok hobserved
  rw [hnamed] at hobserved
  cases hobserved
  have hE := parseEvidence_accepted hV hevidence
  obtain ⟨e, he, hreads⟩ := forall₂_left (parseEvidence_reads hevidence) _ hraw
  have hid := JsonValue.string.inj hreads.id
  have hhash := hreads.byteHash
  have hmode := hreads.mode
  have hmode' : normalizeMode (modeText found.mode) = .ok e.mode := hmode
  rw [normalizeMode_modeText] at hmode'
  have hat : evidenceAt evidence found.unitId = some e := by
    refine find?_eq_some_of_unique he (decide_eq_true hid.symm) fun other hother hsame => ?_
    exact List.inj_on_of_nodup_map hE.ids hother he ((of_decide_eq_true hsame).trans hid)
  refine ⟨e.contractDigest, ?_⟩
  rw [coveredAt, hat, Option.map_some, hhash, ← Except.ok.inj hmode']
  rfl

/-! ### Two loads -/

/-- The evidence that a load of a bundle has digested. -/
def observedOf (request : TaskRuntimeLoadRequest) (bundle : ImmutableDispatchBundle) :
    Except Failure (List Members) := do
  let expected ← evidenceMap [] request.contractEvidence
  observedEvidence request.registry expected bundle.units

def loadHashed (H : Hasher) (request : TaskRuntimeLoadRequest) (bundle : ImmutableDispatchBundle) :
    List Bytes :=
  ((observedOf request bundle).toOption.map (hashedBytes H request.registry)).getD []

theorem Checked.hashed (h : Checked host H request package s bundle pins observed found) :
    loadHashed H request bundle = hashedBytes H request.registry observed := by
  obtain ⟨expected, hexpected, hobserved⟩ := h.evidence
  rw [loadHashed, observedOf, hexpected, bind_ok_eq, hobserved]
  rfl

/-- The digest of a surface covers a unit with this hash and mode. -/
def Commits (H : Hasher) (d surfaceId unitId byteHash : String) (mode : FileTree.Mode) : Prop :=
  ∃ registry evidence digests, Whole H registry evidence digests ∧
    surfaceId ∈ surfaceIds registry.surfaces ∧ digestAt digests surfaceId = d ∧
    ∃ surface ∈ registry.surfaces,
      Reaches (referencesOf registry.surfaces) surfaceId surface.surfaceId ∧
      unitId ∈ surface.ownedUnitIds ∧
      ∃ contract, coveredAt evidence unitId = some (byteHash, mode, contract)

/-- What a successful load has established about its registry and its pin. -/
theorem Checked.whole (h : Checked host H request package s bundle pins observed found)
    (hV : Validated H request.registry) : ∃ evidence,
      parseEvidence H request.registry observed = .ok evidence ∧
      computeDigests H request.registry evidence = .ok found ∧
      Whole H request.registry evidence found ∧
      request.surfaceId ∈ surfaceIds request.registry.surfaces ∧
      pins.lookup request.surfaceId = some (digestAt found request.surfaceId) := by
  obtain ⟨evidence, hevidence, hdigests, hW⟩ := whole_of_compute hV h.digests
  have hid := ((runtimeClosure_eq_ok hV).mp h.closure).1
  have hmem := (mem_runtimeClosure hV h.closure).mpr .refl
  obtain ⟨d, hd, hpin⟩ := h.pinned _ hmem
  refine ⟨evidence, hevidence, hdigests, hW, hid, ?_⟩
  rw [hpin, digestAt, hd]
  rfl

theorem Checked.commits (h : Checked host H request package s bundle pins observed found)
    (hV : Validated H request.registry) {unit : DispatchUnit} (hunit : unit ∈ bundle.units) :
    unit.byteHash = host.hashBytes unit.content ∧
      ∃ d, pins.lookup request.surfaceId = some d ∧
        Commits H d request.surfaceId unit.unitId unit.byteHash unit.mode := by
  obtain ⟨evidence, hevidence, -, hW, hid, hpin⟩ := h.whole hV
  obtain ⟨hread, reached, hreached, surface, hat, howned⟩ := h.mem_units hunit
  obtain ⟨hsurface, rfl⟩ := (surfaceAt_eq_some hV.surfaceIds).mp hat
  have hreach := (mem_runtimeClosure hV h.closure).mp hreached
  exact ⟨(readUnit_ok hread).2, _, hpin, _, evidence, found, hW, hid, rfl, surface, hsurface, hreach,
    howned, h.covered hV hevidence hunit⟩

/-- A unit of one load is in the other, with the same bytes and mode. -/
theorem Checked.same_unit (h : Checked host H request package s bundle pins observed found)
    (h' : Checked host H request' package' s' bundle' pins' observed' found')
    (hV : Validated H request.registry) (hV' : Validated H request'.registry)
    (hsurface : request.surfaceId = request'.surfaceId)
    (hpins : pins.lookup request.surfaceId = pins'.lookup request.surfaceId)
    (hinj : NoCollision H (loadHashed H request bundle ++ loadHashed H request' bundle'))
    (hhash : ∀ u ∈ bundle.units, ∀ u' ∈ bundle'.units,
      host.hashBytes u.content = host.hashBytes u'.content → u.content = u'.content)
    {u : DispatchUnit} (hu : u ∈ bundle.units) :
    ∃ u' ∈ bundle'.units, u'.unitId = u.unitId ∧ u'.content = u.content ∧ u'.mode = u.mode := by
  obtain ⟨evidence, hevidence, hdigests, hW, hid, hpin⟩ := h.whole hV
  obtain ⟨evidence', hevidence', hdigests', hW', hid', hpin'⟩ := h'.whole hV'
  rw [← hsurface] at hid' hpin'
  have heq : digestAt found request.surfaceId = digestAt found' request.surfaceId := by
    rw [hpin, hpin'] at hpins
    exact Option.some.inj hpins
  rw [h.hashed, h'.hashed, hashedBytes_eq hevidence hdigests,
    hashedBytes_eq hevidence' hdigests'] at hinj
  obtain ⟨hread, reached, hreached, surface, hat, howned⟩ := h.mem_units hu
  obtain ⟨hreach', surface₁, surface', hat₁, hat', hsame, hcovered⟩ :=
    hW.agree hW' (hinj.mono mem_hashed_append.1) (hinj.mono mem_hashed_append.2) hid hid' heq
      ((mem_runtimeClosure hV h.closure).mp hreached)
  rw [hat] at hat₁
  cases hat₁
  have hmem : reached ∈ bundle'.authorizedSurfaceIds :=
    (mem_runtimeClosure hV' h'.closure).mpr (hsurface ▸ hreach')
  obtain ⟨u', hu', hname, -⟩ := h'.unitNamed hmem hat' (hsame ▸ howned)
  obtain ⟨contract, hcover⟩ := h.covered hV hevidence hu
  obtain ⟨contract', hcover'⟩ := h'.covered hV' hevidence' hu'
  have hcovered := hcovered _ howned
  rw [hname, ← hcovered, hcover, Option.some.injEq, Prod.mk.injEq, Prod.mk.injEq] at hcover'
  obtain ⟨hbytes, hmode, -⟩ := hcover'
  rw [(readUnit_ok hread).2, (readUnit_ok (h'.mem_units hu').1).2] at hbytes
  exact ⟨u', hu', hname, (hhash u hu u' hu' hbytes).symm, hmode.symm⟩

theorem pinned_runtime_loads_agree {casefold : String → String}
    {registryDocument inventoryDocument registryDocument' inventoryDocument' : Members}
    (hregistry : validateSurfaceRegistry H casefold registryDocument inventoryDocument =
      .ok request.registry)
    (hregistry' : validateSurfaceRegistry H casefold registryDocument' inventoryDocument' =
      .ok request'.registry)
    (hload : (loadTaskRuntime host H request package).out s = .ok bundle)
    (hload' : (loadTaskRuntime host H request' package').out s' = .ok bundle')
    (hsurface : request.surfaceId = request'.surfaceId)
    (hpins : taskPins host bundle.taskRef s = .ok pins)
    (hpins' : taskPins host bundle'.taskRef s' = .ok pins')
    (hagree : ∀ surfaceId ∈ bundle.authorizedSurfaceIds,
      pins.lookup surfaceId = pins'.lookup surfaceId)
    (hinj : NoCollision H (loadHashed H request bundle ++ loadHashed H request' bundle'))
    (hhash : ∀ u ∈ bundle.units, ∀ u' ∈ bundle'.units,
      host.hashBytes u.content = host.hashBytes u'.content → u.content = u'.content) :
    (∀ unitId content mode,
      (∃ u ∈ bundle.units, u.unitId = unitId ∧ u.content = content ∧ u.mode = mode) ↔
        ∃ u ∈ bundle'.units, u.unitId = unitId ∧ u.content = content ∧ u.mode = mode) ∧
      ∀ u ∈ bundle.units, u.byteHash = host.hashBytes u.content ∧
        ∃ d, pins.lookup request.surfaceId = some d ∧
          Commits H d request.surfaceId u.unitId u.byteHash u.mode := by
  have hV := validateSurfaceRegistry_validated hregistry
  have hV' := validateSurfaceRegistry_validated hregistry'
  obtain ⟨pins₁, observed, found, h, hpins₁⟩ := loadTaskRuntime_checked hload
  obtain ⟨pins₂, observed', found', h', hpins₂⟩ := loadTaskRuntime_checked hload'
  rw [hpins] at hpins₁
  cases hpins₁
  rw [hpins'] at hpins₂
  cases hpins₂
  have hpin := hagree _ ((mem_runtimeClosure hV h.closure).mpr .refl)
  constructor
  · intro unitId content mode
    constructor
    · rintro ⟨u, hu, rfl, rfl, rfl⟩
      exact h.same_unit h' hV hV' hsurface hpin hinj hhash hu
    · rintro ⟨u, hu, rfl, rfl, rfl⟩
      have hswap : NoCollision H (loadHashed H request' bundle' ++ loadHashed H request bundle) :=
        hinj.mono fun b hb => List.mem_append.mpr (List.mem_append.mp hb).symm
      exact h'.same_unit h hV' hV hsurface.symm (hsurface ▸ hpin.symm) hswap
        (fun v hv v' hv' heq => (hhash v' hv' v hv heq.symm).symm) hu
  · exact fun u hu => h.commits hV hu

/-! ### A task that pins the two mandatory surfaces -/

def sampleRuntimeContent (n : Nat) : Content := .bytes (List.replicate n 0)

def sampleRuntimeEvidence : List Members :=
  [("python:plane", 0), ("python:registry", 2)].map fun unit =>
    [("unit_id", .string unit.1),
      ("byte_hash", .string (sampleHost.hashBytes (sampleRuntimeContent unit.2))),
      ("mode", .string "0644"), ("contract_digest", .string canonicalNullText),
      ("distributions", texts ["rendered-project"])]

def sampleRuntimeParsed : List UnitEvidence :=
  [⟨"python:plane", sampleDigest 16, 0o644, canonicalNullText, ["rendered-project"], digestOf '6'⟩,
    ⟨"python:registry", sampleDigest 18, 0o644, canonicalNullText, ["rendered-project"],
      digestOf '0'⟩]

def sampleRuntimePins : List SurfacePin :=
  [⟨"runtime-control-plane", digestOf 'b'⟩, ⟨"surface-registry", digestOf 'f'⟩]

def samplePinnedWorkflow : WorkflowContract :=
  { sampleContract with taskContractSurfaces := sampleRuntimePins }

def samplePinned : Integration :=
  ⟨samplePinnedWorkflow, sampleActive.lifecycle, sampleRecord, .trellisNative "tasks/t"⟩

/-- A project whose task is active, with a file of its own or without. -/
def sampleRuntimeProject (own : Bool) : FS :=
  ⟨[([], .dir 0o755), (controlDir, .dir 0o755),
    (controlDir ++ ["runtime-state.lock"], .file ∅ 0o600), (["tasks"], .dir 0o755),
    (["tasks", "t"], .dir 0o755),
    (integrationFile "tasks/t", .file (.integration samplePinned) integrationMode),
    (["plane.py"], .file (sampleRuntimeContent 0) 0o644),
    (["registry.py"], .file (sampleRuntimeContent 2) 0o644)] ++
      if own then [(["notes.txt"], .file (.bytes [1]) 0o644)] else []⟩

def sampleLoadRequest : TaskRuntimeLoadRequest where
  taskRef := "tasks/t"
  taskId := sampleTask
  expectedStateRevision := 2
  expectedLifecycleStatus := .active
  expectedPhase := none
  expectedClaim := none
  surfaceId := "runtime-control-plane"
  runtimeEntryId := "status"
  registry := sampleRegistry
  contractEvidence := sampleRuntimeEvidence
  runtimeEntries := [("status",
    ⟨"status", "runtime-control-plane", [.trellisNative], [.active], [], "optional"⟩)]

def sampleBundle : ImmutableDispatchBundle where
  taskId := sampleTask
  taskRef := "tasks/t"
  stateRevision := 2
  mode := .trellisNative
  lifecycleStatus := .active
  phase := none
  surfaceId := "runtime-control-plane"
  runtimeEntryId := "status"
  authorizedSurfaceIds := ["surface-registry", "runtime-control-plane"]
  units := [⟨"python:registry", "surface-registry", "rendered-project", "registry.py", 0o644,
      sampleDigest 18, sampleRuntimeContent 2⟩,
    ⟨"python:plane", "runtime-control-plane", "rendered-project", "plane.py", 0o644,
      sampleDigest 16, sampleRuntimeContent 0⟩]

theorem sampleRuntime_parsed :
    parseEvidence checksumHasher sampleRegistry sampleRuntimeEvidence = .ok sampleRuntimeParsed :=
  eq_ok_of_toOption (by decide +kernel)

theorem sampleRuntime_digests :
    computeDigests checksumHasher sampleRegistry sampleRuntimeParsed =
      .ok (sampleDigests 'f' 'b') := eq_ok_of_toOption (by decide +kernel)

/-- What was read is what was expected. -/
theorem sampleRuntime_observed : observedOf sampleLoadRequest sampleBundle =
    .ok sampleRuntimeEvidence := by
  rfl

theorem sampleLoad_apart : NoCollision checksumHasher
    (loadHashed checksumHasher sampleLoadRequest sampleBundle ++
      loadHashed checksumHasher sampleLoadRequest sampleBundle) := by
  have hV := validateSurfaceRegistry_validated sampleRegistry_validated
  have hloaded : loadHashed checksumHasher sampleLoadRequest sampleBundle =
      hashedBytes checksumHasher sampleRegistry sampleRuntimeEvidence := by
    rw [loadHashed, sampleRuntime_observed]
    rfl
  have hone : NoCollision checksumHasher
      (hashedBytes checksumHasher sampleRegistry sampleRuntimeEvidence) := by
    apply noCollision_of_nodup
    rw [map_hashedBytes hV sampleRuntime_parsed sampleRuntime_digests]
    decide
  rw [hloaded]
  exact hone.mono fun b hb => (List.mem_append.mp hb).elim id id

theorem sampleRuntime_current (message : String) : surfaceDigestsOr checksumHasher message
    sampleLoadRequest.registry sampleRuntimeEvidence = .ok (sampleDigests 'f' 'b') := by
  have hparsed : parseEvidence checksumHasher sampleLoadRequest.registry sampleRuntimeEvidence =
      .ok sampleRuntimeParsed := sampleRuntime_parsed
  rw [surfaceDigestsOr, computeSurfaceDigests, hparsed, bind_ok_eq]
  have hdigests : computeDigests checksumHasher sampleLoadRequest.registry sampleRuntimeParsed =
      .ok (sampleDigests 'f' 'b') := sampleRuntime_digests
  rw [hdigests]

def sampleVerified : VerifiedIntegration :=
  ⟨.trellisNative, sampleTask, "tasks/t", .active, 2, sampleRuntimePins, none, none⟩

theorem samplePinned_valid : validateIntegration sampleHost samplePinned = .ok sampleVerified := by
  have hworkflow : validateWorkflow samplePinnedWorkflow = .ok sampleRuntimePins := by
    decide
  have hlifecycle : validateLifecycle sampleActive.lifecycle = .ok (.active, 2) := by
    decide
  have href : requireTaskRef sampleHost "tasks/t" "trellis_native.task_ref" = .ok "tasks/t" := by
    decide
  simp [validateIntegration, samplePinned, hworkflow, hlifecycle, sampleRecord_valid, href,
    sampleVerified]

theorem samplePinned_loaded :
    validateLoaded sampleHost (.integration samplePinned) = .ok sampleVerified := by
  rw [validateLoaded, samplePinned_valid]

theorem sampleRuntime_content (own : Bool) : readLoadedIntegration "tasks/t"
    (sampleRuntimeProject own) = .ok (.integration samplePinned) := by
  revert own
  decide

theorem samplePinned_pins (own : Bool) : taskPins sampleHost "tasks/t" (sampleRuntimeProject own) =
    .ok (pinnedDigests sampleRuntimePins) := by
  rw [taskPins, sampleRuntime_content, bind_ok_eq, samplePinned_loaded]
  rfl

theorem sampleLoad_locked (package : FS) (own : Bool) : loadLocked sampleHost checksumHasher
    sampleLoadRequest "tasks/t" package (sampleRuntimeProject own) = .ok sampleBundle := by
  have hstate : validateLoadedState sampleHost sampleLoadRequest (.integration samplePinned) =
      .ok sampleVerified := by
    rw [validateLoadedState, samplePinned_loaded]
    decide
  have hentry : requestedEntry sampleLoadRequest = .ok ⟨"status", "runtime-control-plane",
      [.trellisNative], [.active], [], "optional"⟩ := by
    decide
  have hclosure : runtimeClosure sampleLoadRequest.registry sampleLoadRequest.surfaceId =
      .ok sampleBundle.authorizedSurfaceIds := by
    decide
  have hmaintenance : ∀ own, noMaintenance (sampleRuntimeProject own) = .ok () := by decide
  have hunfinished : ∀ own, noUnfinished sampleHost (sampleRuntimeProject own) = .ok () := by
    decide
  exact loadLocked_eq_ok (hmaintenance own) (hunfinished own) (sampleRuntime_content own) hstate
    hentry (by decide) hclosure (by decide) rfl (sampleRuntime_current _) rfl rfl
    rfl rfl (sampleRuntime_current _) rfl rfl

theorem sampleRuntime_gate (own : Bool) : ∃ t,
    (acquireRuntimeStateGate sampleHost).run (sampleRuntimeProject own) = ⟨t, .ok ()⟩ ∧
      t.getLastD (sampleRuntimeProject own) = sampleRuntimeProject own := by
  cases own
  · exact ⟨_, rfl, rfl⟩
  · exact ⟨_, rfl, rfl⟩

/-- Two projects with one task in common, and two packages neither of which is read. -/
theorem pinned_runtime_loads_agree_sample :
    sampleBundle.units.map (·.unitId) = ["python:registry", "python:plane"] ∧
      ∀ u ∈ sampleBundle.units, u.byteHash = sampleHost.hashBytes u.content ∧
        ∃ d, (pinnedDigests sampleRuntimePins).lookup "runtime-control-plane" = some d ∧
          Commits checksumHasher d "runtime-control-plane" u.unitId u.byteHash u.mode := by
  have hload : ∀ package own, (loadTaskRuntime sampleHost checksumHasher sampleLoadRequest
      package).out (sampleRuntimeProject own) = .ok sampleBundle := by
    intro package own
    have href : loadTaskRef sampleHost sampleLoadRequest.taskRef = .ok "tasks/t" := by
      decide
    obtain ⟨t, hgate, hfinal⟩ := sampleRuntime_gate own
    have hlift := Program.lift_run (σ := FS) (.ok "tasks/t" : Except Failure String)
      (sampleRuntimeProject own)
    rw [loadTaskRuntime, href, Program.out, Program.bind_of_pure hlift, Program.bind_of_ok hgate,
      hfinal]
    exact sampleLoad_locked package own
  have hinj : ∀ u ∈ sampleBundle.units, ∀ u' ∈ sampleBundle.units,
      sampleHost.hashBytes u.content = sampleHost.hashBytes u'.content → u.content = u'.content := by
    decide
  exact ⟨rfl, (pinned_runtime_loads_agree sampleRegistry_validated sampleRegistry_validated
    (hload ⟨[]⟩ false) (hload ⟨[([], .dir 0o755)]⟩ true) rfl (samplePinned_pins false)
    (samplePinned_pins true)
    (fun _ _ => rfl) sampleLoad_apart hinj).2⟩

end AgentStack.Runtime
