import AgentStack.Core.Paths
import AgentStack.KeyedList.Basic
import AgentStack.Reconcile.Ownership

/-! Planning again after a plan was carried out: which plans are settled by their own writes. -/
namespace AgentStack.Reconcile

open AgentStack.Core FileTree AgentStack.Runtime

variable {host : Host} {nfc : String → String}

/-! ### States and texts -/

theorem decode?_eq_some {content : Bytes} {text : String} (h : decode? content = some text) :
    encode text = content := by
  rw [decode?, String.fromUTF8?] at h
  split at h
  · cases h
    simp [encode, String.fromUTF8]
  · cases h

/-- A state a document can hold, spelled in normal form. -/
def FileState.Sound (nfc : String → String) (s : FileState) : Prop :=
  FileState.fromDocument nfc s = .ok s

theorem fromDocument_eq_ok {document s : FileState}
    (h : FileState.fromDocument nfc document = .ok s) :
    digestOrNull document.byteHash = true ∧
      ¬(document.exists = true ∧ document.fileType = .absent) ∧
      ¬(document.exists = false ∧ (document.fileType ≠ .absent ∨ document.byteHash ≠ none)) ∧
      digestOrNull document.managedBlockHash = true ∧
      ∃ path, normalizePath nfc (joinPath document.path) = .ok path ∧
        s = { document with path := path } := by
  simp only [FileState.fromDocument] at h
  split_ifs at h with hbytes hexists habsent hblock
  · obtain ⟨path, hpath, h⟩ := bind_eq_ok h
    cases h
  · obtain ⟨path, hpath, h⟩ := bind_eq_ok h
    cases h
    refine ⟨by simpa using hbytes, ?_, ?_, by simpa using hblock, path, hpath, rfl⟩
    · simpa using hexists
    · simpa using habsent

theorem FileState.sound_of {s : FileState} (hbytes : digestOrNull s.byteHash = true)
    (hexists : ¬(s.exists = true ∧ s.fileType = .absent))
    (habsent : ¬(s.exists = false ∧ (s.fileType ≠ .absent ∨ s.byteHash ≠ none)))
    (hblock : digestOrNull s.managedBlockHash = true)
    (hpath : normalizePath nfc (joinPath s.path) = .ok s.path) : s.Sound nfc := by
  have h1 : ¬((!digestOrNull s.byteHash) = true) := by simpa using hbytes
  have h2 : ¬((s.exists && decide (s.fileType = .absent)) = true) := by simpa using hexists
  have h3 : ¬((!s.exists && (decide (s.fileType ≠ .absent) || decide (s.byteHash ≠ none))) =
      true) := by simpa using habsent
  have h4 : ¬((!digestOrNull s.managedBlockHash) = true) := by simpa using hblock
  simp only [FileState.Sound, FileState.fromDocument]
  rw [if_neg h1, if_neg h2, if_neg h3, hpath]
  simp only [bind_ok_eq, if_neg h4]

theorem FileState.sound_of_fromDocument (hnfc : ∀ s, nfc (nfc s) = nfc s)
    {document s : FileState} (h : FileState.fromDocument nfc document = .ok s) :
    s.Sound nfc := by
  obtain ⟨hbytes, hexists, habsent, hblock, path, hpath, rfl⟩ := fromDocument_eq_ok h
  exact FileState.sound_of hbytes hexists habsent hblock (normalizePath_joinPath hnfc hpath)

theorem FileState.Sound.path_normal {s : FileState} (h : s.Sound nfc) :
    normalizePath nfc (joinPath s.path) = .ok s.path := by
  obtain ⟨-, -, -, -, path, hpath, hs⟩ := fromDocument_eq_ok h
  have : s.path = path := by
    conv_lhs => rw [hs]
  rw [this] at hpath ⊢
  exact hpath

/-- A file with a recorded hash at a normalized path has a sound state. -/
theorem FileState.sound_regular {path : Path} {byteHash block : Option String}
    {mode : Option FileTree.Mode} (hpath : normalizePath nfc (joinPath path) = .ok path)
    (hbytes : digestOrNull byteHash = true) (hblock : digestOrNull block = true) :
    FileState.Sound nfc ⟨path, true, .regular, byteHash, mode, true, block⟩ := by
  apply FileState.sound_of
  · exact hbytes
  · simp
  · simp
  · exact hblock
  · exact hpath

theorem digestOrNull_hash (content : Bytes) :
    digestOrNull (some (host.hashBytes (.bytes content))) = true := by
  have := host.sha256_isDigest (.content (.bytes content))
  simpa [digestOrNull, Host.hashBytes] using this

/-! ### What the next planning of a path sees -/

/-- The view of a path is what its observation and its Manifest record say. -/
structure PathView.Sound (host : Host) (path : String) (view : PathView) : Prop where
  located : view.observed.path = segments path
  observed : view.observed.Sound host.nfc
  missing : view.previous = none → view.baseline = absent path
  baseline : ∀ old ∈ view.previous,
    FileState.fromDocument host.nfc old.fileState = .ok view.baseline
  recorded : ∀ old ∈ view.previous, normalizedPath host.nfc old.path = .ok path

/-- The state a written file is observed in: a tree does not record blocks. -/
def FileState.onDisk (s : FileState) : FileState := { s with managedBlockHash := none }

/-- What is observed at a path once its plan is carried out. -/
def PathPlan.observed (plan : PathPlan) (item : ObservedFile) : ObservedFile :=
  match plan.candidate with
  | none => item
  | some state => ⟨state.onDisk, plan.contents.bind decode?⟩

/-- `again` is a view of the path once its plan is carried out and its record kept. -/
structure PathView.Follows (host : Host) (view : PathView) (plan : PathPlan)
    (again : PathView) : Prop where
  observed : again.observed = (plan.candidate.map FileState.onDisk).getD view.observed
  content : again.content = if plan.candidate.isSome then (plan.contents.bind decode?).map encode
    else view.content
  previous : again.previous = plan.record
  baseline : ∀ r ∈ plan.record, FileState.fromDocument host.nfc r.fileState = .ok again.baseline

/-- A path plan keeps its path, hashes what it writes and records what can be read again. -/
structure PathPlan.Sound (host : Host) (path : String) (plan : PathPlan) : Prop where
  state : ∀ s ∈ plan.candidate, s.path = segments path ∧ s.Sound host.nfc ∧ s.exists = true ∧
    ∃ c ∈ plan.contents, s.byteHash = some (host.hashBytes (.bytes c))
  recorded : ∀ r ∈ plan.record, normalizedPath host.nfc r.path = .ok path
  readable : ∀ r ∈ plan.record, ∃ s, FileState.fromDocument host.nfc r.fileState = .ok s

theorem PathView.Sound.normal {path : String} {view : PathView} (hv : view.Sound host path) :
    normalizePath host.nfc path = .ok (segments path) := by
  have := hv.observed.path_normal
  rwa [hv.located, joinPath_segments] at this

theorem PathView.Sound.normalized {path : String} {view : PathView}
    (hv : view.Sound host path) : normalizedPath host.nfc path = .ok path := by
  simp [normalizedPath, hv.normal, Except.map, joinPath_segments]

theorem PathView.Sound.sound_state {path : String} {view : PathView} (hv : view.Sound host path)
    {byteHash block : Option String} {mode : Option FileTree.Mode}
    (hbytes : digestOrNull byteHash = true) (hblock : digestOrNull block = true) :
    FileState.Sound host.nfc ⟨segments path, true, .regular, byteHash, mode, true, block⟩ := by
  apply FileState.sound_regular _ hbytes hblock
  rw [joinPath_segments]
  exact hv.normal

variable {operation : PlanOperation} {record : StagedFile} {view again : PathView}
  {plan : PathPlan}

/-- A staged file recorded with the hash of its bytes. -/
abbrev StagedFile.Hashed (host : Host) (record : StagedFile) : Prop :=
  record.candidateByteHash = some (host.hashBytes (.bytes record.candidateBytes))

theorem candidateState_sound (hv : view.Sound host record.path) (hr : record.Hashed host) :
    (candidateState record).Sound host.nfc := by
  apply hv.sound_state
  · rw [hr]
    exact digestOrNull_hash _
  · rfl

/-! ### Managed, adopted, create-once and user-owned paths -/

theorem planManaged_eq_ok (h : planManaged operation record view = .ok plan) :
    plan.record = some (manifestRecord record (candidateState record) record.ownership none
      false none) ∧
    (plan.candidate = some (candidateState record) ∧ plan.contents = some record.candidateBytes ∨
      plan.candidate = none ∧ view.observed = candidateState record) := by
  simp only [planManaged] at h
  cases hp : view.previous with
  | none =>
    simp only [hp] at h
    split_ifs at h with h1 h2
    · cases h
      exact ⟨rfl, Or.inl ⟨rfl, rfl⟩⟩
    · cases h
      exact ⟨rfl, Or.inr ⟨rfl, h2⟩⟩
  | some old =>
    simp only [hp] at h
    split_ifs at h with h1 h2 h3
    · cases h
      exact ⟨rfl, Or.inl ⟨rfl, rfl⟩⟩
    · cases h
      exact ⟨rfl, Or.inl ⟨rfl, rfl⟩⟩
    · cases h
      exact ⟨rfl, Or.inr ⟨rfl, (not_not.mp h3).symm⟩⟩

/-- A path is settled: it is left alone and keeps its record. -/
def Settled (outcome : Except Failure PathPlan) (recorded : Option ManifestRecord) : Prop :=
  ∃ plan, outcome = .ok plan ∧ plan.decision.action = .noOp ∧ plan.record = recorded

theorem planManaged_again {operation' : PlanOperation}
    (h : planManaged operation record view = .ok plan) (hv : view.Sound host record.path)
    (hr : record.Hashed host) (hn : view.Follows host plan again) :
    Settled (planManaged operation' record again) plan.record := by
  obtain ⟨hrecord, hwritten⟩ := planManaged_eq_ok h
  have hobserved : again.observed = candidateState record := by
    rw [hn.observed]
    rcases hwritten with ⟨hc, -⟩ | ⟨hc, hsame⟩
    · rw [hc]
      rfl
    · rw [hc]
      exact hsame
  have hbaseline : again.baseline = candidateState record := by
    have hread := hn.baseline _ hrecord
    have hsound := candidateState_sound hv hr
    exact Except.ok.inj (hread.symm.trans hsound)
  have hprevious := hn.previous.trans hrecord
  have hplan : planManaged operation' record again = .ok (keepFile record again
      (candidateState record) .noOp "already-current" plan.record) := by
    simp [planManaged, hprevious, hobserved, hbaseline, hrecord]
  exact ⟨_, hplan, rfl, rfl⟩

theorem planManaged_sound (h : planManaged operation record view = .ok plan)
    (hv : view.Sound host record.path) (hr : record.Hashed host) :
    plan.Sound host record.path := by
  obtain ⟨hrecord, hwritten⟩ := planManaged_eq_ok h
  have hsound := candidateState_sound hv hr
  constructor
  · intro s hs
    rcases hwritten with ⟨hc, hcontents⟩ | ⟨hc, -⟩
    · have : candidateState record = s := Option.some.inj (hc.symm.trans hs)
      subst this
      exact ⟨rfl, hsound, rfl, _, hcontents, hr⟩
    · rw [hc] at hs
      cases hs
  · intro r hr'
    rw [hrecord] at hr'
    cases hr'
    exact hv.normalized
  · intro r hr'
    rw [hrecord] at hr'
    cases hr'
    exact ⟨_, hsound⟩

theorem planAdopted_record (record : StagedFile) (view : PathView) :
    (planAdopted record view).candidate = none ∧ (planAdopted record view).record =
      some (manifestRecord record (if view.previous.isSome then view.baseline else view.observed)
        record.ownership none false none) := by
  cases hp : view.previous with
  | none => simp [planAdopted, hp, keepFile]
  | some old => simp [planAdopted, hp, keepFile]

/-- The state an adopted path is recorded in can be read back as it is. -/
theorem adoptedState_sound (hnfc : ∀ s, host.nfc (host.nfc s) = host.nfc s)
    (hv : view.Sound host record.path) :
    (if view.previous.isSome then view.baseline else view.observed).Sound host.nfc := by
  cases hp : view.previous with
  | none => simpa [hp] using hv.observed
  | some old => simpa [hp] using FileState.sound_of_fromDocument hnfc (hv.baseline old hp)

theorem planAdopted_again (hnfc : ∀ s, host.nfc (host.nfc s) = host.nfc s)
    (hv : view.Sound host record.path)
    (hn : view.Follows host (planAdopted record view) again) :
    Settled (.ok (planAdopted record again)) (planAdopted record view).record := by
  obtain ⟨-, hrecord⟩ := planAdopted_record record view
  have hprevious := hn.previous.trans hrecord
  have hbaseline : again.baseline =
      if view.previous.isSome then view.baseline else view.observed := by
    have hread := hn.baseline _ hrecord
    exact Except.ok.inj (hread.symm.trans (adoptedState_sound hnfc hv))
  refine ⟨planAdopted record again, rfl, ?_, ?_⟩
  · simp [planAdopted, hprevious, keepFile, ownershipDecision]
  · rw [(planAdopted_record record again).2, hrecord, hprevious]
    simp [hbaseline]

theorem planAdopted_sound (hnfc : ∀ s, host.nfc (host.nfc s) = host.nfc s)
    (hv : view.Sound host record.path) : (planAdopted record view).Sound host record.path := by
  obtain ⟨hc, hrecord⟩ := planAdopted_record record view
  constructor
  · intro s hs
    rw [hc] at hs
    cases hs
  · intro r hr
    rw [hrecord] at hr
    cases hr
    exact hv.normalized
  · intro r hr
    rw [hrecord] at hr
    cases hr
    exact ⟨_, adoptedState_sound hnfc hv⟩

/-- Either the path was created once before, and is left alone, or it is created now. -/
theorem planCreateOnce_eq_ok (h : planCreateOnce record view = .ok plan) :
    view.previous.any (·.createdOnce) = true ∧ plan.candidate = none ∧
        plan.record = view.previous ∨
      plan.candidate = some (candidateState record) ∧
        plan.contents = some record.candidateBytes ∧
        plan.record = some (manifestRecord record (candidateState record) .userOwned none true
          none) := by
  simp only [planCreateOnce] at h
  split_ifs at h with h1 h2
  · cases h
    exact Or.inl ⟨h1, rfl, rfl⟩
  · cases h
    exact Or.inr ⟨rfl, rfl, rfl⟩

theorem planCreateOnce_again (h : planCreateOnce record view = .ok plan)
    (hn : view.Follows host plan again) :
    Settled (planCreateOnce record again) plan.record := by
  have hconsumed : again.previous.any (·.createdOnce) = true := by
    rw [hn.previous]
    rcases planCreateOnce_eq_ok h with ⟨hany, -, hrecord⟩ | ⟨-, -, hrecord⟩
    · rw [hrecord]
      exact hany
    · rw [hrecord]
      rfl
  refine ⟨_, by rw [planCreateOnce, if_pos hconsumed], rfl, ?_⟩
  exact hn.previous

theorem kept_sound (hv : view.Sound host record.path) (hc : plan.candidate = none)
    (hrecord : plan.record = view.previous) : plan.Sound host record.path := by
  constructor
  · intro s hs
    rw [hc] at hs
    cases hs
  · intro r hr
    rw [hrecord] at hr
    exact hv.recorded r hr
  · intro r hr
    rw [hrecord] at hr
    exact ⟨_, hv.baseline r hr⟩

theorem planCreateOnce_sound (h : planCreateOnce record view = .ok plan)
    (hv : view.Sound host record.path) (hr : record.Hashed host) :
    plan.Sound host record.path := by
  have hsound := candidateState_sound hv hr
  rcases planCreateOnce_eq_ok h with ⟨-, hc, hrecord⟩ | ⟨hc, hcontents, hrecord⟩
  · exact kept_sound hv hc hrecord
  · constructor
    · intro s hs
      have : candidateState record = s := Option.some.inj (hc.symm.trans hs)
      subst this
      exact ⟨rfl, hsound, rfl, _, hcontents, hr⟩
    · intro r hr'
      rw [hrecord] at hr'
      cases hr'
      exact hv.normalized
    · intro r hr'
      rw [hrecord] at hr'
      cases hr'
      exact ⟨_, hsound⟩

/-! ### Overlay blocks -/

/-- The text carries, between its markers, a block with the hash of `block`. -/
def Carries (host : Host) (path : String) (markers : Markers) (content : Option Bytes)
    (block : Bytes) : Prop :=
  ∃ parts, overlayParts content (some markers) path = .ok parts ∧
    host.hashBytes (.bytes parts.block) = host.hashBytes (.bytes block)

/-- The block is in the text already, or putting it in its place leaves a UTF-8 text that
carries it. -/
def OverlayLasts (host : Host) (path : String) (markers : Markers) (content : Option Bytes)
    (enrolled : Bool) (block : Bytes) : Prop :=
  Carries host path markers content block ∨
    ∀ parts inserted,
      overlayPlace content (some markers) markers enrolled path = .ok (parts, inserted) →
        (decode? (parts.withBlock block)).isSome ∧
          Carries host path markers (some (parts.withBlock block)) block

theorem markersOf_eq_ok {value : Option Markers} {path : String} {markers : Markers}
    (h : markersOf value path = .ok markers) : value = some markers := by
  cases value with
  | none => cases h
  | some m =>
    simp only [markersOf] at h
    split_ifs at h
    exact congrArg some (Except.ok.inj h)

theorem overlayParts_eq_ok {content : Option Bytes} {markers : Markers} {path : String}
    {parts : OverlayParts} (h : overlayParts content (some markers) path = .ok parts) :
    parts.markers = markers ∧ ∃ text, content = some text ∧ count markers.beginToken text = 1 := by
  cases content with
  | none => cases h
  | some text =>
    simp only [overlayParts] at h
    obtain ⟨m, hm, hparts⟩ := bind_eq_ok h
    have : m = markers := (Option.some.inj (markersOf_eq_ok hm)).symm
    subst this
    split_ifs at hparts with hcount
    have hone : count m.beginToken text = 1 := by
      by_contra hne
      exact hcount (by simp [hne])
    split at hparts
    · split_ifs at hparts
      cases hparts
      exact ⟨rfl, text, rfl, hone⟩
    · cases hparts

/-- A block is put in the place of the one there, or after a text without markers. -/
theorem overlayPlace_eq_ok {content : Option Bytes} {markers : Markers} {enrolled inserted : Bool}
    {path : String} {parts : OverlayParts}
    (h : overlayPlace content (some markers) markers enrolled path = .ok (parts, inserted)) :
    parts.markers = markers ∧
      (inserted = true ∧ enrolled = false ∧ count markers.beginToken (content.getD []) = 0 ∨
        inserted = false ∧ overlayParts content (some markers) path = .ok parts) := by
  simp only [overlayPlace] at h
  split at h
  · rename_i hfree
    simp only [Bool.and_eq_true, Bool.not_eq_true', decide_eq_true_eq] at hfree
    cases h
    exact ⟨rfl, Or.inl ⟨rfl, hfree.1.1, hfree.1.2⟩⟩
  · cases hp : overlayParts content (some markers) path with
    | error e =>
      rw [hp] at h
      cases h
    | ok parts' =>
      rw [hp] at h
      cases h
      exact ⟨(overlayParts_eq_ok hp).1, Or.inr ⟨rfl, rfl⟩⟩

theorem overlayPlace_enrolled {content : Option Bytes} {markers : Markers} {path : String} :
    overlayPlace content (some markers) markers true path =
      (overlayParts content (some markers) path).map (·, false) := by
  simp [overlayPlace]

/-- The candidate of an overlay path whose block goes in its place. -/
def OverlayParts.candidate (host : Host) (parts : OverlayParts) (record : StagedFile)
    (view : PathView) : FileState :=
  overlayCandidate host record.path view.observed (parts.withBlock record.candidateBytes)
    (host.hashBytes (.bytes record.candidateBytes))

/-- The record an overlay path gets when its block is placed or enrolled. -/
def OverlayParts.placed (host : Host) (parts : OverlayParts) (record : StagedFile)
    (view : PathView) : ManifestRecord :=
  manifestRecord record (parts.candidate host record view) record.ownership
    (some (host.hashBytes (.bytes record.candidateBytes))) false (some parts.markers)

/-- What an overlay plan found and did. -/
structure OverlayRun (host : Host) (operation : PlanOperation) (record : StagedFile)
    (view : PathView) (plan : PathPlan) (markers : Markers) (parts : OverlayParts)
    (inserted : Bool) : Prop where
  place : overlayPlace view.content (some markers) markers view.previous.isSome record.path =
    .ok (parts, inserted)
  decided : ∃ reason, overlayAction operation record.path inserted
    (host.hashBytes (.bytes parts.block)) (host.hashBytes (.bytes record.candidateBytes))
    view.previous = .ok (plan.decision.action, reason)
  kept : plan.decision.action = .noOp → plan.candidate = none ∧
    plan.record = some (view.previous.getD (parts.placed host record view))
  written : plan.decision.action ≠ .noOp →
    plan.contents = some (parts.withBlock record.candidateBytes) ∧
      plan.candidate = some (parts.candidate host record view) ∧
      plan.record = some (parts.placed host record view)

theorem planOverlay_eq_ok {target : ArtifactTarget}
    (h : planOverlay host operation record target view = .ok plan) :
    ∃ markers parts inserted, markersOf target.markers record.path = .ok markers ∧
      OverlayRun host operation record view plan markers parts inserted := by
  simp only [planOverlay] at h
  obtain ⟨markers, hmarkers, h⟩ := bind_eq_ok h
  obtain ⟨⟨parts, inserted⟩, hplace, h⟩ := bind_eq_ok h
  obtain ⟨⟨action, reason⟩, haction, h⟩ := bind_eq_ok h
  rw [markersOf_eq_ok hmarkers] at hplace
  by_cases hnoop : action = .noOp
  · rw [if_neg (by simpa using hnoop)] at h
    cases h
    refine ⟨markers, parts, inserted, hmarkers, hplace, ⟨reason, haction⟩, ?_, ?_⟩
    · intro _
      exact ⟨rfl, rfl⟩
    · intro hwrite
      exact absurd hnoop hwrite
  · rw [if_pos hnoop] at h
    cases h
    refine ⟨markers, parts, inserted, hmarkers, hplace, ⟨reason, haction⟩, ?_, ?_⟩
    · intro hkeep
      exact absurd hkeep hnoop
    · intro _
      exact ⟨rfl, rfl, rfl⟩

/-- An overlay path whose place and decision are found has a plan. -/
theorem planOverlay_isOk {target : ArtifactTarget} {markers : Markers} {parts : OverlayParts}
    {inserted : Bool} {action : Action} {reason : String}
    (hmarkers : markersOf target.markers record.path = .ok markers)
    (hplace : overlayPlace view.content (some markers) markers view.previous.isSome record.path =
      .ok (parts, inserted))
    (hdecided : overlayAction operation record.path inserted
      (host.hashBytes (.bytes parts.block)) (host.hashBytes (.bytes record.candidateBytes))
      view.previous = .ok (action, reason)) :
    ∃ plan, planOverlay host operation record target view = .ok plan := by
  rw [← markersOf_eq_ok hmarkers] at hplace
  simp only [planOverlay, hmarkers, hplace, hdecided, bind_ok_eq]
  split
  · exact ⟨_, rfl⟩
  · exact ⟨_, rfl⟩

/-- A block found with the recorded and the staged hash is left alone. -/
theorem overlayAction_noOp {path : String} {observedHash candidateHash : String}
    {old : ManifestRecord} (hold : old.managedBlockHash = some candidateHash)
    (h : observedHash = candidateHash) :
    overlayAction operation path false observedHash candidateHash (some old) =
      .ok (.noOp, "already-current") := by
  simp [overlayAction, hold, h]

/-- Leaving a block alone means that the block there has the staged hash. -/
theorem hash_of_overlayAction {path : String} {inserted : Bool}
    {observedHash candidateHash reason : String} {previous : Option ManifestRecord}
    (h : overlayAction operation path inserted observedHash candidateHash previous =
      .ok (.noOp, reason)) :
    observedHash = candidateHash ∧ (previous = none → inserted = false) ∧
      ∀ old ∈ previous, old.managedBlockHash = some candidateHash := by
  cases previous with
  | none =>
    simp only [overlayAction] at h
    split_ifs at h with h1 h2
    · cases h
    · exact ⟨by simpa using h2, by simpa using h1, by simp⟩
  | some old =>
    simp only [overlayAction] at h
    split_ifs at h with h1 h2 h3
    · cases h
    · cases h
    · have hsame : observedHash = candidateHash := (not_not.mp h3).symm
      exact ⟨hsame, by simp, by
        intro old' hold
        cases hold
        rw [← hsame]
        exact (not_not.mp h1).symm⟩

/-- The markers a planned overlay path is read with, and whether the Manifest knows it. -/
theorem OverlayRun.lasts_of_noOp {markers : Markers} {parts : OverlayParts} {inserted : Bool}
    (hrun : OverlayRun host operation record view plan markers parts inserted)
    (hnoop : plan.decision.action = .noOp) :
    overlayParts view.content (some markers) record.path = .ok parts ∧
      host.hashBytes (.bytes parts.block) = host.hashBytes (.bytes record.candidateBytes) := by
  obtain ⟨reason, hdecided⟩ := hrun.decided
  rw [hnoop] at hdecided
  obtain ⟨hsame, hfirst, -⟩ := hash_of_overlayAction hdecided
  obtain ⟨-, hplace⟩ := overlayPlace_eq_ok hrun.place
  rcases hplace with ⟨hins, henrolled, -⟩ | ⟨-, hparts⟩
  · have hnone : view.previous = none := by simpa using henrolled
    rw [hfirst hnone] at hins
    cases hins
  · exact ⟨hparts, hsame⟩

/-- A text that carries the block already is never written. -/
theorem OverlayRun.noOp_of_carries {markers : Markers} {parts : OverlayParts} {inserted : Bool}
    (hrun : OverlayRun host operation record view plan markers parts inserted)
    (hc : Carries host record.path markers view.content record.candidateBytes) :
    plan.decision.action = .noOp := by
  obtain ⟨parts', hparts', hhash⟩ := hc
  obtain ⟨reason, hdecided⟩ := hrun.decided
  obtain ⟨-, hplace⟩ := overlayPlace_eq_ok hrun.place
  rcases hplace with ⟨-, -, hnone⟩ | ⟨hins, hparts⟩
  · obtain ⟨-, text, htext, hone⟩ := overlayParts_eq_ok hparts'
    rw [htext, Option.getD_some, hone] at hnone
    cases hnone
  · have : parts' = parts := Except.ok.inj (hparts'.symm.trans hparts)
    subst this
    rw [hhash, hins] at hdecided
    cases hp : view.previous with
    | none =>
      rw [hp] at hdecided
      simp only [overlayAction, Bool.false_eq_true, if_false, ne_eq, not_true] at hdecided
      exact (Prod.mk.inj (Except.ok.inj hdecided)).1.symm
    | some old =>
      rw [hp] at hdecided
      simp only [overlayAction] at hdecided
      split_ifs at hdecided with h1 h2 h3
      · simp only [Bool.and_eq_true, decide_eq_true_eq] at h2
        exact absurd h2.2 h1
      · exact absurd rfl h3
      · exact (Prod.mk.inj (Except.ok.inj hdecided)).1.symm

/-- The content the next planning of a written overlay path reads. -/
theorem OverlayRun.content_next {markers : Markers} {parts : OverlayParts} {inserted : Bool}
    (hrun : OverlayRun host operation record view plan markers parts inserted)
    (hn : view.Follows host plan again) :
    again.content = if plan.decision.action = .noOp then view.content
      else (decode? (parts.withBlock record.candidateBytes)).map encode := by
  rw [hn.content]
  by_cases hnoop : plan.decision.action = .noOp
  · rw [if_pos hnoop, (hrun.kept hnoop).1]
    rfl
  · obtain ⟨hcontents, hcandidate, -⟩ := hrun.written hnoop
    rw [if_neg hnoop, hcandidate, hcontents]
    rfl

/-- The record the next planning finds has the staged block's hash. -/
theorem OverlayRun.previous_next {markers : Markers} {parts : OverlayParts} {inserted : Bool}
    (hrun : OverlayRun host operation record view plan markers parts inserted)
    (hn : view.Follows host plan again) :
    ∃ old, again.previous = some old ∧ plan.record = some old ∧
      old.managedBlockHash = some (host.hashBytes (.bytes record.candidateBytes)) := by
  rw [hn.previous]
  by_cases hnoop : plan.decision.action = .noOp
  · obtain ⟨-, hrecord⟩ := hrun.kept hnoop
    obtain ⟨reason, hdecided⟩ := hrun.decided
    rw [hnoop] at hdecided
    obtain ⟨-, -, hold⟩ := hash_of_overlayAction hdecided
    refine ⟨_, hrecord, hrecord, ?_⟩
    cases hp : view.previous with
    | none => rfl
    | some old => exact hold old hp
  · obtain ⟨-, -, hrecord⟩ := hrun.written hnoop
    exact ⟨_, hrecord, hrecord, rfl⟩

/-- A text that carries the recorded block is left alone. -/
theorem planOverlay_settled {target : ArtifactTarget} {markers : Markers} {old : ManifestRecord}
    (hmarkers : markersOf target.markers record.path = .ok markers)
    (hprevious : again.previous = some old)
    (hold : old.managedBlockHash = some (host.hashBytes (.bytes record.candidateBytes)))
    (hc : Carries host record.path markers again.content record.candidateBytes) :
    Settled (planOverlay host operation record target again) (some old) := by
  obtain ⟨parts, hparts, hhash⟩ := hc
  have hplace : overlayPlace again.content (some markers) markers again.previous.isSome
      record.path = .ok (parts, false) := by
    rw [hprevious, Option.isSome_some, overlayPlace_enrolled, hparts]
    rfl
  have hdecided : overlayAction operation record.path false
      (host.hashBytes (.bytes parts.block)) (host.hashBytes (.bytes record.candidateBytes))
      again.previous = .ok (.noOp, "already-current") := by
    rw [hprevious]
    exact overlayAction_noOp hold hhash
  obtain ⟨plan, hplan⟩ := planOverlay_isOk hmarkers hplace hdecided
  obtain ⟨markers', parts', inserted', hmarkers', hrun⟩ := planOverlay_eq_ok hplan
  have : markers' = markers := Except.ok.inj (hmarkers'.symm.trans hmarkers)
  subst this
  have : (parts', inserted') = (parts, false) := Except.ok.inj (hrun.place.symm.trans hplace)
  cases this
  obtain ⟨reason, hdecided'⟩ := hrun.decided
  have haction : plan.decision.action = .noOp :=
    (Prod.mk.inj (Except.ok.inj (hdecided'.symm.trans hdecided))).1
  refine ⟨plan, hplan, haction, ?_⟩
  rw [(hrun.kept haction).2, hprevious]
  rfl

theorem planOverlay_again {operation' : PlanOperation} {target : ArtifactTarget}
    (h : planOverlay host operation record target view = .ok plan)
    (hn : view.Follows host plan again)
    (hlasts : ∀ markers, target.markers = some markers →
      OverlayLasts host record.path markers view.content view.previous.isSome
        record.candidateBytes) :
    Settled (planOverlay host operation' record target again) plan.record := by
  obtain ⟨markers, parts, inserted, hmarkers, hrun⟩ := planOverlay_eq_ok h
  obtain ⟨old, hprevious, hrecord, hold⟩ := hrun.previous_next hn
  have hcontent := hrun.content_next hn
  have hcarries : Carries host record.path markers again.content record.candidateBytes := by
    by_cases hnoop : plan.decision.action = .noOp
    · obtain ⟨hparts, hhash⟩ := hrun.lasts_of_noOp hnoop
      rw [hcontent, if_pos hnoop]
      exact ⟨parts, hparts, hhash⟩
    · rw [hcontent, if_neg hnoop]
      rcases hlasts markers (markersOf_eq_ok hmarkers) with hc | hplaced
      · exact absurd (hrun.noOp_of_carries hc) hnoop
      · obtain ⟨htext, hc⟩ := hplaced parts inserted hrun.place
        obtain ⟨text, htext⟩ := Option.isSome_iff_exists.mp htext
        rw [htext, Option.map_some, decode?_eq_some htext]
        exact hc
  rw [hrecord]
  exact planOverlay_settled hmarkers hprevious hold hcarries

theorem lasts_of_planOverlay_again {operation' : PlanOperation} {target : ArtifactTarget}
    {plan' : PathPlan} (h : planOverlay host operation record target view = .ok plan)
    (hn : view.Follows host plan again)
    (hagain : planOverlay host operation' record target again = .ok plan')
    (hnoop' : plan'.decision.action = .noOp) {markers : Markers}
    (htarget : target.markers = some markers) :
    OverlayLasts host record.path markers view.content view.previous.isSome
      record.candidateBytes := by
  obtain ⟨markers₁, parts, inserted, hmarkers, hrun⟩ := planOverlay_eq_ok h
  have : markers₁ = markers := Option.some.inj ((markersOf_eq_ok hmarkers).symm.trans htarget)
  subst this
  obtain ⟨markers₂, parts', inserted', hmarkers', hrun'⟩ := planOverlay_eq_ok hagain
  have : markers₂ = markers₁ := Except.ok.inj (hmarkers'.symm.trans hmarkers)
  subst this
  obtain ⟨hparts', hhash'⟩ := hrun'.lasts_of_noOp hnoop'
  rw [hrun.content_next hn] at hparts'
  by_cases hnoop : plan.decision.action = .noOp
  · rw [if_pos hnoop] at hparts'
    exact Or.inl ⟨parts', hparts', hhash'⟩
  · rw [if_neg hnoop] at hparts'
    right
    intro parts₀ inserted₀ hplace
    have : (parts₀, inserted₀) = (parts, inserted) :=
      Except.ok.inj (hplace.symm.trans hrun.place)
    cases this
    cases htext : decode? (parts.withBlock record.candidateBytes) with
    | none =>
      rw [htext] at hparts'
      cases hparts'
    | some text =>
      rw [htext, Option.map_some, decode?_eq_some htext] at hparts'
      exact ⟨rfl, parts', hparts', hhash'⟩

theorem planOverlay_sound {target : ArtifactTarget}
    (h : planOverlay host operation record target view = .ok plan)
    (hv : view.Sound host record.path) : plan.Sound host record.path := by
  obtain ⟨markers, parts, inserted, -, hrun⟩ := planOverlay_eq_ok h
  have hsound : (parts.candidate host record view).Sound host.nfc :=
    hv.sound_state (digestOrNull_hash _) (digestOrNull_hash _)
  have hplaced : ∀ r, some (parts.placed host record view) = some r →
      normalizedPath host.nfc r.path = .ok record.path ∧
        ∃ s, FileState.fromDocument host.nfc r.fileState = .ok s := by
    intro r hr
    cases hr
    exact ⟨hv.normalized, _, hsound⟩
  have hrecord : ∀ r ∈ plan.record, normalizedPath host.nfc r.path = .ok record.path ∧
      ∃ s, FileState.fromDocument host.nfc r.fileState = .ok s := by
    intro r hr
    by_cases hnoop : plan.decision.action = .noOp
    · rw [(hrun.kept hnoop).2] at hr
      cases hp : view.previous with
      | none =>
        rw [hp] at hr
        exact hplaced r hr
      | some old =>
        rw [hp] at hr
        cases hr
        exact ⟨hv.recorded old hp, _, hv.baseline old hp⟩
    · rw [(hrun.written hnoop).2.2] at hr
      exact hplaced r hr
  constructor
  · intro s hs
    by_cases hnoop : plan.decision.action = .noOp
    · rw [(hrun.kept hnoop).1] at hs
      cases hs
    · obtain ⟨hcontents, hcandidate, -⟩ := hrun.written hnoop
      rw [hcandidate] at hs
      cases hs
      exact ⟨rfl, hsound, rfl, _, hcontents, rfl⟩
  · intro r hr
    exact (hrecord r hr).1
  · intro r hr
    exact (hrecord r hr).2

/-! ### One path -/

variable {targets : List (String × DefinedTarget)}

/-- Every overlay block of a staged file lasts in the text it goes into. -/
def StagedFile.Lasts (host : Host) (targets : List (String × DefinedTarget))
    (record : StagedFile) (content : Option Bytes) (enrolled : Bool) : Prop :=
  record.ownership = .overlayManaged → ∀ target markers,
    stagedTarget targets record = .ok target → target.markers = some markers →
      OverlayLasts host record.path markers content enrolled record.candidateBytes

theorem planStaged_sound (hnfc : ∀ s, host.nfc (host.nfc s) = host.nfc s)
    (h : planStaged host operation targets record view = .ok plan)
    (hv : view.Sound host record.path) (hr : record.Hashed host) :
    plan.Sound host record.path := by
  obtain ⟨target, -, h⟩ := bind_eq_ok h
  cases ho : record.ownership with
  | managed =>
    rw [ho] at h
    exact planManaged_sound h hv hr
  | overlayManaged =>
    rw [ho] at h
    exact planOverlay_sound h hv
  | adopted =>
    rw [ho] at h
    cases h
    exact planAdopted_sound hnfc hv
  | createOnceThenUserOwned =>
    rw [ho] at h
    exact planCreateOnce_sound h hv hr
  | userOwned =>
    rw [ho] at h
    cases h
    exact kept_sound hv rfl rfl
  | other name =>
    rw [ho] at h
    cases h

theorem planStaged_again (hnfc : ∀ s, host.nfc (host.nfc s) = host.nfc s)
    {operation' : PlanOperation} (h : planStaged host operation targets record view = .ok plan)
    (hv : view.Sound host record.path) (hr : record.Hashed host)
    (hn : view.Follows host plan again)
    (hlasts : record.Lasts host targets view.content view.previous.isSome) :
    Settled (planStaged host operation' targets record again) plan.record := by
  obtain ⟨target, htarget, h⟩ := bind_eq_ok h
  simp only [planStaged, htarget, bind_ok_eq]
  cases ho : record.ownership with
  | managed =>
    rw [ho] at h
    exact planManaged_again h hv hr hn
  | overlayManaged =>
    rw [ho] at h
    exact planOverlay_again h hn fun markers hm => hlasts ho target markers htarget hm
  | adopted =>
    rw [ho] at h
    cases h
    exact planAdopted_again hnfc hv hn
  | createOnceThenUserOwned =>
    rw [ho] at h
    exact planCreateOnce_again h hn
  | userOwned =>
    rw [ho] at h
    cases h
    exact ⟨_, rfl, rfl, hn.previous⟩
  | other name =>
    rw [ho] at h
    cases h

theorem lasts_of_planStaged_again {operation' : PlanOperation} {plan' : PathPlan}
    (h : planStaged host operation targets record view = .ok plan)
    (hn : view.Follows host plan again)
    (hagain : planStaged host operation' targets record again = .ok plan')
    (hnoop : plan'.decision.action = .noOp) :
    record.Lasts host targets view.content view.previous.isSome := by
  intro ho target markers htarget hm
  simp only [planStaged, htarget, bind_ok_eq, ho] at h hagain
  exact lasts_of_planOverlay_again h hn hagain hnoop hm

theorem observedAt_eq_ok {observed : List (String × ObservedFile)} {path : String}
    {item : ObservedFile} : observedAt observed path = .ok item ↔
      observed.lookup path = some item := by
  rw [observedAt]
  cases observed.lookup path with
  | none => simp
  | some item' => simp

theorem pathView_eq_ok (hnfc : ∀ s, host.nfc (host.nfc s) = host.nfc s) {path : String}
    {previous : List (String × ManifestRecord)} {observed : List (String × ObservedFile)}
    (hprevious : ∀ old ∈ previous.lookup path, normalizedPath host.nfc old.path = .ok path)
    (h : pathView host previous observed path = .ok view) :
    view.Sound host path ∧ view.previous = previous.lookup path ∧
      ∃ item, observed.lookup path = some item ∧ view.content = item.content.map encode ∧
        observedItem host path item = .ok (view.observed, view.content, view.observation) := by
  simp only [pathView] at h
  obtain ⟨item, hitem, h⟩ := bind_eq_ok h
  obtain ⟨⟨state, content, observation⟩, hread, h⟩ := bind_eq_ok h
  obtain ⟨baseline, hbaseline, h⟩ := bind_eq_ok h
  cases h
  have hlookup := observedAt_eq_ok.mp hitem
  have hread' := hread
  simp only [observedItem] at hread
  obtain ⟨s, hs, hread⟩ := bind_eq_ok hread
  split_ifs at hread with h1 h2 h3
  cases hread
  refine ⟨⟨not_not.mp h1, FileState.sound_of_fromDocument hnfc hs, ?_, ?_, hprevious⟩, rfl, item,
    hlookup, rfl, hread'⟩
  · intro hnone
    have hnone : previous.lookup path = none := hnone
    rw [hnone] at hbaseline
    exact (Except.ok.inj hbaseline).symm
  · intro old hold
    have hold : previous.lookup path = some old := hold
    rw [hold] at hbaseline
    exact hbaseline

theorem FileState.Sound.onDisk {s : FileState} (h : s.Sound nfc) : s.onDisk.Sound nfc := by
  obtain ⟨hbytes, hexists, habsent, -, -⟩ := fromDocument_eq_ok h
  exact FileState.sound_of hbytes hexists habsent rfl h.path_normal

/-- What a carried-out plan leaves at its path is observed as the next view says. -/
theorem observedItem_next {path : String} {item : ObservedFile} (hp : plan.Sound host path)
    (hread : observedItem host path item = .ok (view.observed, view.content, view.observation)) :
    ∃ observation, observedItem host path (plan.observed item) =
      .ok ((plan.candidate.map FileState.onDisk).getD view.observed,
        if plan.candidate.isSome then (plan.contents.bind decode?).map encode else view.content,
        observation) := by
  cases hc : plan.candidate with
  | none =>
    refine ⟨view.observation, ?_⟩
    simpa [PathPlan.observed, hc] using hread
  | some s =>
    obtain ⟨hpath, hsound, hexists, content, hcontents, hhash⟩ := hp.state s hc
    have hdisk : FileState.fromDocument host.nfc s.onDisk = .ok s.onDisk := hsound.onDisk
    have hbytes : ¬(((plan.contents.bind decode?).map encode).any fun c =>
        decide (some (host.hashBytes (.bytes c)) ≠ s.onDisk.byteHash)) = true := by
      have hcontents : plan.contents = some content := hcontents
      rw [hcontents, Option.bind_some]
      cases htext : decode? content with
      | none => simp
      | some text =>
        have hsame : s.onDisk.byteHash = some (host.hashBytes (.bytes content)) := hhash
        simp [decode?_eq_some htext, hsame]
    have h1 : ¬(s.onDisk.path ≠ segments path) := not_not.mpr hpath
    have h2 : ¬((!s.onDisk.exists && ((plan.contents.bind decode?).map encode).isSome) = true) := by
      have : s.onDisk.exists = true := hexists
      simp [this]
    refine ⟨⟨path, s.onDisk, .notApplicable, none⟩, ?_⟩
    simp only [PathPlan.observed, hc, observedItem, hdisk, bind_ok_eq]
    rw [if_neg h1, if_neg h2, if_neg hbytes]
    rfl

theorem planRetired_candidate {path : String} {old : ManifestRecord}
    (h : planRetired host path old view = .ok plan) :
    plan.record = none ∧ ∀ s ∈ plan.candidate, s.path = segments path := by
  obtain ⟨⟨candidate, contents, reason⟩, hcase, h⟩ := bind_eq_ok h
  cases h
  refine ⟨rfl, ?_⟩
  intro s hs
  have hs : candidate ≠ view.observed ∧ candidate = s := by simpa using hs
  obtain ⟨hdiffers, rfl⟩ := hs
  rw [retiredCandidate] at hcase
  cases ho : old.ownership with
  | managed =>
    simp only [ho] at hcase
    split_ifs at hcase
    cases hcase
    rfl
  | overlayManaged =>
    simp only [ho] at hcase
    obtain ⟨parts, -, hcase⟩ := bind_eq_ok hcase
    split_ifs at hcase
    cases hcase
    rfl
  | adopted | createOnceThenUserOwned | userOwned | other name =>
    simp only [ho] at hcase
    cases hcase
    exact absurd rfl hdiffers

theorem pathView_next {path : String} {item : ObservedFile}
    {previous' : List (String × ManifestRecord)} {observed' : List (String × ObservedFile)}
    (hp : plan.Sound host path)
    (hread : observedItem host path item = .ok (view.observed, view.content, view.observation))
    (hobserved : observed'.lookup path = some (plan.observed item))
    (hprevious : previous'.lookup path = plan.record) :
    ∃ again, pathView host previous' observed' path = .ok again ∧ view.Follows host plan again := by
  obtain ⟨observation, hnext⟩ := observedItem_next hp hread
  have hbaseline : ∃ s, baselineState host.nfc path plan.record = .ok s ∧
      ∀ r ∈ plan.record, FileState.fromDocument host.nfc r.fileState = .ok s := by
    cases hr : plan.record with
    | none => exact ⟨absent path, rfl, by simp⟩
    | some r =>
      obtain ⟨s, hs⟩ := hp.readable r hr
      refine ⟨s, hs, ?_⟩
      intro r' hr'
      cases hr'
      exact hs
  obtain ⟨s, hs, hall⟩ := hbaseline
  refine ⟨⟨_, _, observation, s, plan.record⟩, ?_, ⟨rfl, rfl, rfl, hall⟩⟩
  simp only [pathView, observedAt_eq_ok.mpr hobserved, hnext, hprevious, hs, bind_ok_eq]
  rfl

end AgentStack.Reconcile
