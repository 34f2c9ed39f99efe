import AgentStack.Core.Utf8
import AgentStack.Runtime.Bootstrap

/-! Rendering the launcher, against replacing all its placeholders at once. -/
namespace AgentStack.Runtime

open AgentStack.Core JsonText Substitution

/-! ### The ends of an accepted URL -/

theorem splitOnce_eq (sep : Char) {cs : List Char} (h : (splitOnce sep cs).2.getD [] = []) :
    cs = (splitOnce sep cs).1 ∨ cs = (splitOnce sep cs).1 ++ [sep] := by
  have hsplit := List.takeWhile_append_dropWhile (p := (· ≠ sep)) (l := cs)
  unfold splitOnce at h ⊢
  dsimp only at h ⊢
  cases hdrop : cs.dropWhile (· ≠ sep) with
  | nil =>
    rw [hdrop, List.append_nil] at hsplit
    exact .inl hsplit.symm
  | cons a rest =>
    have ha := List.head?_dropWhile_not (p := (· ≠ sep)) (l := cs)
    rw [hdrop] at h ha hsplit
    simp only [List.tail?_cons, Option.getD_some] at h
    simp only [List.head?_cons, ne_eq, decide_not, Bool.not_eq_eq_eq_not, Bool.not_false,
      decide_eq_true_eq] at ha
    rw [h, ha] at hsplit
    exact .inr hsplit.symm

/-- The letters with the lower case of the first two of the scheme. -/
theorem mem_of_toLower {c : Char} : (c.toLower = 'h' → c ∈ ['h', 'H']) ∧
    (c.toLower = 't' → c ∈ ['t', 'T']) := by
  by_cases hc : c.toNat < 128
  · have hall : ∀ n < 128, ((Char.ofNat n).toLower = 'h' → Char.ofNat n ∈ ['h', 'H']) ∧
        ((Char.ofNat n).toLower = 't' → Char.ofNat n ∈ ['t', 'T']) := by decide
    have h := hall c.toNat hc
    rw [Char.ofNat_toNat] at h
    exact h
  · have hupper : ¬ (c.val ≥ 'A'.val ∧ c.val ≤ 'Z'.val) := by
      intro h
      have hle : c.toNat ≤ 'Z'.toNat := h.2
      have hz : 'Z'.toNat = 90 := rfl
      omega
    have hsame : c.toLower = c := by
      unfold Char.toLower
      rw [dif_neg hupper]
    rw [hsame]
    constructor
    · rintro rfl
      decide
    · rintro rfl
      decide

/-- Where an accepted URL starts and ends. -/
structure WheelUrlEnds (url : List Char) : Prop where
  front : ∃ lead h t rest, url = lead ++ h :: t :: rest ∧ (∀ c ∈ lead, isControlOrSpace c) ∧
    h ∈ ['h', 'H'] ∧ t ∈ ['t', 'T']
  back : ∃ front tail, url = front ++ wheelSuffix ++ tail ∧ tail ∈ [[], ['?'], ['#'], ['?', '#']]

theorem splitNetloc_suffix (url : List Char) : (splitNetloc url).2 <:+ url := by
  unfold splitNetloc
  split_ifs
  · exact (List.dropWhile_suffix _).trans (List.drop_suffix _ _)
  · exact List.suffix_refl url

theorem splitScheme_eq {url : List Char} (h : (splitScheme url).1 ≠ []) :
    ∃ before, url = before ++ ':' :: (splitScheme url).2 ∧
      (splitScheme url).1 = before.map Char.toLower := by
  have hsplit := List.takeWhile_append_dropWhile (p := (· ≠ ':')) (l := url)
  unfold splitScheme splitOnce at h ⊢
  cases hdrop : url.dropWhile (· ≠ ':') with
  | nil =>
    rw [hdrop] at h
    exact absurd rfl h
  | cons a rest =>
    have ha := List.head?_dropWhile_not (p := (· ≠ ':')) (l := url)
    rw [hdrop] at h ha hsplit
    simp only [List.head?_cons, ne_eq, decide_not, Bool.not_eq_eq_eq_not, Bool.not_false,
      decide_eq_true_eq] at ha
    simp only [List.tail?_cons] at h ⊢
    split_ifs at h ⊢ with hscheme
    · refine ⟨_, ?_, rfl⟩
      rw [ha] at hsplit
      exact hsplit.symm
    · exact absurd rfl h

theorem closedHttpsWheelUrl_ends {checkNetloc : List Char → Bool} {value : String} {u : Unit}
    (h : closedHttpsWheelUrl checkNetloc value = .ok u) : WheelUrlEnds value.toList := by
  obtain ⟨_, -, h⟩ := bind_eq_ok h
  obtain ⟨_, hsafe, h⟩ := bind_eq_ok h
  obtain ⟨parsed, hparsed, h⟩ := bind_eq_ok h
  obtain ⟨port, -, h⟩ := bind_eq_ok h
  obtain ⟨hscheme, -, -, -, hquery, hfragment, hpath⟩ := of_decide_eq_true (check_eq_ok.mp h)
  have hsafe := List.all_eq_true.mp (check_eq_ok.mp hsafe)
  have hlead := List.takeWhile_append_dropWhile (p := isControlOrSpace) (l := value.toList)
  have hfilter : (value.toList.dropWhile isControlOrSpace).filter (· ∉ ['\t', '\r', '\n']) =
      value.toList.dropWhile isControlOrSpace := by
    refine List.filter_eq_self.mpr fun c hc => ?_
    have hc := hsafe c ((List.dropWhile_suffix _).subset hc)
    simp only [List.mem_cons, List.not_mem_nil, or_false, not_or, decide_eq_true_eq] at hc ⊢
    exact ⟨hc.2.2.2.2.2, hc.2.2.2.1, hc.2.2.2.2.1⟩
  have hsplit := require_eq_ok.mp hparsed
  unfold urlsplit at hsplit
  simp only [hfilter] at hsplit
  rcases hs : splitScheme (value.toList.dropWhile isControlOrSpace) with ⟨scheme, afterScheme⟩
  rcases hn : splitNetloc afterScheme with ⟨netloc, afterNetloc⟩
  rcases hf : splitOnce '#' afterNetloc with ⟨afterFragment, fragment⟩
  rcases hq : splitOnce '?' afterFragment with ⟨path, query⟩
  simp only [hs, hn, hf, hq] at hsplit
  split_ifs at hsplit
  cases hsplit
  dsimp only at hscheme hquery hfragment hpath
  have hnamed : (splitScheme (value.toList.dropWhile isControlOrSpace)).1 ≠ [] := by
    simp [hs, hscheme]
  obtain ⟨before, hbefore, hlower⟩ := splitScheme_eq hnamed
  rw [hs] at hbefore hlower
  rw [hbefore] at hlead
  constructor
  · have hhttps : "https".toList = ['h', 't', 't', 'p', 's'] := rfl
    rw [hscheme, hhttps] at hlower
    cases before with
    | nil => cases hlower
    | cons c before =>
      cases before with
      | nil => simp at hlower
      | cons d before =>
        simp only [List.map_cons, List.cons.injEq] at hlower
        exact ⟨_, c, d, _, hlead.symm, fun c hc => List.all_eq_true.mp List.all_takeWhile c hc,
          mem_of_toLower.1 hlower.1.symm, mem_of_toLower.2 hlower.2.1.symm⟩
  · obtain ⟨front, hfront⟩ := hpath
    have hsuffix : afterNetloc <:+ value.toList := by
      have hnetloc := splitNetloc_suffix afterScheme
      rw [hn] at hnetloc
      rw [← hlead]
      exact hnetloc.trans ((List.suffix_cons _ _).trans
        ((List.suffix_append _ _).trans (List.suffix_append _ _)))
    obtain ⟨lead, hvalue⟩ := hsuffix
    have hends : ∃ tail, afterNetloc = path ++ tail ∧ tail ∈ [[], ['?'], ['#'], ['?', '#']] := by
      have hnoQuery : (splitOnce '?' afterFragment).2.getD [] = [] := by rw [hq]; exact hquery
      have hnoFragment : (splitOnce '#' afterNetloc).2.getD [] = [] := by rw [hf]; exact hfragment
      have hpathEnd := splitOnce_eq '?' hnoQuery
      have hqueryEnd := splitOnce_eq '#' hnoFragment
      rw [hq] at hpathEnd
      rw [hf] at hqueryEnd
      rcases hqueryEnd with hqueryEnd | hqueryEnd
      · rcases hpathEnd with hpathEnd | hpathEnd
        · exact ⟨[], by simp [hqueryEnd, hpathEnd], by decide⟩
        · exact ⟨['?'], by simp [hqueryEnd, hpathEnd], by decide⟩
      · rcases hpathEnd with hpathEnd | hpathEnd
        · exact ⟨['#'], by simp [hqueryEnd, hpathEnd], by decide⟩
        · exact ⟨['?', '#'], by simp [hqueryEnd, hpathEnd], by decide⟩
    obtain ⟨tail, htail, hmem⟩ := hends
    refine ⟨lead ++ front, tail, ?_, hmem⟩
    rw [← hvalue, htail, ← hfront]
    simp

/-! ### The values -/

theorem closed_of_wheelUrlEnds {url : List Char} (h : WheelUrlEnds url) :
    ClosedRight (placeholder LauncherField.wheelSha256.name) (encodeUtf8 url) ∧
      ClosedLeft (placeholder LauncherField.wheelSha256.name) (encodeUtf8 url) := by
  constructor
  · obtain ⟨front, tail, rfl, htail⟩ := h.back
    have hclosed : ∀ tail ∈ [[], ['?'], ['#'], ['?', '#']],
        ClosedRight (placeholder LauncherField.wheelSha256.name)
          (encodeUtf8 (wheelSuffix ++ tail)) ∧
        ¬ encodeUtf8 (wheelSuffix ++ tail) <:+: placeholder LauncherField.wheelSha256.name := by
      decide
    have hsuffix : encodeUtf8 (wheelSuffix ++ tail) <:+
        encodeUtf8 (front ++ wheelSuffix ++ tail) := by
      rw [List.append_assoc, encodeUtf8_append front]
      exact List.suffix_append _ _
    exact (hclosed tail htail).1.of_suffix hsuffix (hclosed tail htail).2
  · obtain ⟨lead, a, b, rest, rfl, hlead, ha, hb⟩ := h.front
    cases lead with
    | nil =>
      have hclosed : ∀ h ∈ ['h', 'H'], ∀ t ∈ ['t', 'T'],
          ClosedLeft (placeholder LauncherField.wheelSha256.name) (encodeUtf8 [h, t]) := by
        decide
      have hstarts : encodeUtf8 [a, b] <+: encodeUtf8 ([] ++ a :: b :: rest) := by
        have hsplit : [] ++ a :: b :: rest = [a, b] ++ rest := rfl
        rw [hsplit, encodeUtf8_append]
        exact List.prefix_append _ _
      exact (hclosed a ha b hb).of_isPrefix hstarts
    | cons c lead =>
      have hc := hlead c List.mem_cons_self
      rw [isControlOrSpace, decide_eq_true_eq] at hc
      have hbyte : c.toNat.toUInt8 ∉ placeholder LauncherField.wheelSha256.name := by
        have hall : ∀ n ≤ 0x20, n.toUInt8 ∉ placeholder LauncherField.wheelSha256.name := by
          decide
        exact hall c.toNat hc
      rw [List.cons_append, encodeUtf8_cons, utf8EncodeChar_ascii (by omega), List.singleton_append]
      intro s hs hne hproper
      constructor
      · intro hstarts
        cases s with
        | nil => exact hne rfl
        | cons b s =>
          rw [List.cons_prefix_cons] at hstarts
          exact hbyte (hstarts.1 ▸ hs.subset List.mem_cons_self)
      · intro hstarts
        exact hbyte (hs.subset (hstarts.subset List.mem_cons_self))

theorem settled_of_notMem {v : Bytes} {name : PlaceholderName} (hopen : 0x7B ∉ v)
    (hclose : 0x7D ∉ v) (hwithin : ¬ v <:+: placeholder name) :
    ClosedRight (placeholder name) v ∧ ClosedLeft (placeholder name) v ∧
      ¬ placeholder name <:+: v := by
  have hlast : (placeholder name).getLast? = some 0x7D := by
    rw [placeholder, List.getLast?_append_of_ne_nil _ (List.cons_ne_nil _ _)]
    rfl
  obtain ⟨hright, hleft⟩ := closed_of_notMem ⟨hopen, hclose⟩
    (show (placeholder name).head? = some 0x7B from rfl) hlast hwithin
  refine ⟨hright, hleft, fun h => hopen (h.subset ?_)⟩
  simp [placeholder]

theorem length_placeholder_lt (field : LauncherField) : (placeholder field.name).length < 64 := by
  cases field
  all_goals decide

/-- The bytes of a digest are those of its characters, and in no placeholder. -/
theorem isDigest_settled {digest : String} (h : isDigest digest = true) (later : LauncherField) :
    (encodeUtf8 digest.toList).length = 64 ∧
      ClosedRight (placeholder later.name) (encodeUtf8 digest.toList) ∧
      ClosedLeft (placeholder later.name) (encodeUtf8 digest.toList) ∧
      ¬ placeholder later.name <:+: encodeUtf8 digest.toList := by
  have hascii := ascii_of_isDigest h
  have hbytes := encodeUtf8_eq_map hascii
  rw [isDigest, charsOf_eq, Bool.and_eq_true, List.all_eq_true] at h
  have hlength : (encodeUtf8 digest.toList).length = 64 := by
    rw [hbytes, List.length_map]
    exact of_decide_eq_true h.1
  have hnot : ∀ b : UInt8, Char.ofNat b.toNat ∈ ['{', '}'] → b ∉ encodeUtf8 digest.toList := by
    intro b hb hmem
    rw [hbytes] at hmem
    obtain ⟨c, hc, rfl⟩ := List.mem_map.mp hmem
    rw [toNat_toUInt8 (hascii c hc), Char.ofNat_toNat] at hb
    have hhex := h.2 c hc
    simp only [List.mem_cons, List.not_mem_nil, or_false] at hb
    rcases hb with rfl | rfl
    · exact absurd hhex (by decide)
    · exact absurd hhex (by decide)
  have hwithin : ¬ encodeUtf8 digest.toList <:+: placeholder later.name := by
    intro hwithin
    have hle := hwithin.length_le
    have hlt := length_placeholder_lt later
    omega
  exact ⟨hlength, settled_of_notMem (hnot 0x7B (by decide)) (hnot 0x7D (by decide)) hwithin⟩

/-! ### One placeholder after the other -/

variable {checkNetloc : List Char → Bool} {contract : LauncherContract} {template rendered : Bytes}

/-- What `__post_init__` establishes. -/
structure ContractAccepted (contract : LauncherContract) : Prop where
  version : contract.launcherContractVersion = 1
  renderer : contract.launcherRendererVersion = "runtime-launcher-v1"
  releaseId : isDigest contract.releaseId = true
  manifestDigest : isDigest contract.releaseManifestDigest = true
  wheelUrl : WheelUrlEnds contract.wheelUrl.toList
  wheelSha256 : isDigest contract.wheelSha256 = true

theorem postInit_ok {u : Unit} (h : contract.postInit checkNetloc = .ok u) :
    ContractAccepted contract := by
  obtain ⟨_, hversion, h⟩ := bind_eq_ok h
  obtain ⟨_, hrenderer, h⟩ := bind_eq_ok h
  obtain ⟨_, hrelease, h⟩ := bind_eq_ok h
  obtain ⟨_, hmanifest, h⟩ := bind_eq_ok h
  obtain ⟨_, hurl, h⟩ := bind_eq_ok h
  exact ⟨of_decide_eq_true (check_eq_ok.mp hversion), of_decide_eq_true (check_eq_ok.mp hrenderer),
    check_eq_ok.mp hrelease, check_eq_ok.mp hmanifest, closedHttpsWheelUrl_ends hurl,
    check_eq_ok.mp h⟩

theorem fieldNamed_name (field : LauncherField) : fieldNamed field.name = some field := by
  cases field
  all_goals decide

/-- The value of a name, or the placeholder itself. -/
def LauncherContract.value (contract : LauncherContract) (name : PlaceholderName) : Bytes :=
  match fieldNamed name with
  | some field => encodeUtf8 (contract.substitution field).toList
  | none => placeholder name

theorem value_name (field : LauncherField) :
    contract.value field.name = encodeUtf8 (contract.substitution field).toList := by
  rw [LauncherContract.value, fieldNamed_name]

/-- A value other than the URL meets no placeholder. -/
theorem value_settled (hc : ContractAccepted contract) {field : LauncherField}
    (hfield : field ≠ .wheelUrl) (later : LauncherField) :
    launcherMarkers.Settled contract.value field.name later.name := by
  have hversion : ∀ later : LauncherField,
      (0x7B ∉ encodeUtf8 "1".toList ∧ 0x7D ∉ encodeUtf8 "1".toList) ∧
        ¬ encodeUtf8 "1".toList <:+: placeholder later.name := by
    intro later
    cases later
    all_goals decide
  have hrenderer : ∀ later : LauncherField,
      (0x7B ∉ encodeUtf8 "runtime-launcher-v1".toList ∧
        0x7D ∉ encodeUtf8 "runtime-launcher-v1".toList) ∧
        ¬ encodeUtf8 "runtime-launcher-v1".toList <:+: placeholder later.name := by
    intro later
    cases later
    all_goals decide
  unfold Markers.Settled
  rw [value_name]
  cases field with
  | launcherContractVersion =>
    have htext : contract.substitution .launcherContractVersion = "1" := by
      rw [LauncherContract.substitution, hc.version]
      rfl
    rw [htext]
    obtain ⟨⟨hopen, hclose⟩, hwithin⟩ := hversion later
    exact settled_of_notMem hopen hclose hwithin
  | launcherRendererVersion =>
    rw [LauncherContract.substitution, hc.renderer]
    obtain ⟨⟨hopen, hclose⟩, hwithin⟩ := hrenderer later
    exact settled_of_notMem hopen hclose hwithin
  | releaseId => exact (isDigest_settled hc.releaseId later).2
  | releaseManifestDigest => exact (isDigest_settled hc.manifestDigest later).2
  | wheelUrl => exact absurd rfl hfield
  | wheelSha256 => exact (isDigest_settled hc.wheelSha256 later).2

/-- The fields before the last one, whose values are all in place when it is replaced. -/
def earlierFields : List LauncherField :=
  [.launcherContractVersion, .launcherRendererVersion, .releaseId, .releaseManifestDigest,
    .wheelUrl]

/-- What stands for each name after the last replacement. -/
def LauncherContract.renderedValue (contract : LauncherContract) (name : PlaceholderName) : Bytes :=
  replace (placeholder LauncherField.wheelSha256.name)
    (encodeUtf8 contract.wheelSha256.toList)
    (launcherMarkers.valued (earlierFields.map (·.name)) contract.value name)

theorem earlierFields_closed (hc : ContractAccepted contract) (name : PlaceholderName) :
    ClosedRight (placeholder LauncherField.wheelSha256.name)
        (launcherMarkers.valued (earlierFields.map (·.name)) contract.value name) ∧
      ClosedLeft (placeholder LauncherField.wheelSha256.name)
        (launcherMarkers.valued (earlierFields.map (·.name)) contract.value name) := by
  refine launcherMarkers.valued_closed (n := LauncherField.wheelSha256.name) (fun k hk => ?_) name
  obtain ⟨field, -, rfl⟩ := List.mem_map.mp hk
  by_cases hfield : field = .wheelUrl
  · subst hfield
    rw [value_name]
    exact closed_of_wheelUrlEnds hc.wheelUrl
  · have hsettled := value_settled hc hfield .wheelSha256
    exact ⟨hsettled.1, hsettled.2.1⟩

theorem foldl_replaceField (hc : ContractAccepted contract) (text : Bytes) :
    launcherFields.foldl contract.replaceField text =
      expand contract.renderedValue (launcherMarkers.scan text) := by
  have hstep : contract.replaceField = fun text field =>
      replace (launcherMarkers.mark field.name) (contract.value field.name) text := by
    funext text field
    rw [LauncherContract.replaceField, value_name]
    rfl
  have hpairwise : (earlierFields.map (·.name)).Pairwise
      (launcherMarkers.Settled contract.value) := by
    simp [earlierFields, value_settled hc]
  have hearlier : earlierFields.foldl contract.replaceField text =
      expand (launcherMarkers.valued (earlierFields.map (·.name)) contract.value)
        (launcherMarkers.scan text) := by
    have hfold := launcherMarkers.foldl_replace (launcherMarkers.scanned_scan text) hpairwise
    rw [launcherMarkers.expand_scan, List.foldl_map] at hfold
    rw [hstep]
    exact hfold
  have hlast := launcherMarkers.replace_expand (n := LauncherField.wheelSha256.name)
    (launcherMarkers.scanned_scan text) (fun name _ => earlierFields_closed hc name)
    (encodeUtf8 contract.wheelSha256.toList)
  have hfields : launcherFields = earlierFields ++ [.wheelSha256] := rfl
  rw [hfields, List.foldl_append, hearlier]
  exact hlast

/-- Only the URL can have changed since it was put in. -/
theorem renderedValue_eq (hc : ContractAccepted contract) {name : PlaceholderName}
    (hname : name ≠ LauncherField.wheelUrl.name) :
    contract.renderedValue name = contract.value name := by
  have hne : placeholder LauncherField.wheelSha256.name ≠ [] := by simp [placeholder]
  unfold LauncherContract.renderedValue Markers.valued
  by_cases hearlier : name ∈ earlierFields.map (·.name)
  · rw [if_pos hearlier]
    obtain ⟨field, -, rfl⟩ := List.mem_map.mp hearlier
    have hfield : field ≠ .wheelUrl := fun h => hname (h ▸ rfl)
    exact replace_eq_self (value_settled hc hfield .wheelSha256).2.2
  · rw [if_neg hearlier]
    by_cases hlast : name = LauncherField.wheelSha256.name
    · rw [hlast, value_name]
      exact replace_pattern hne
    · have hnone : fieldNamed name = none := by
        rw [fieldNamed, List.find?_eq_none]
        intro field hfield
        rw [decide_eq_true_eq]
        rintro rfl
        have hmem : field ∈ earlierFields ++ [.wheelSha256] := hfield
        rcases List.mem_append.mp hmem with h | h
        · exact hearlier (List.mem_map_of_mem h)
        · exact hlast (by rw [List.mem_singleton.mp h])
      have hother : ¬ placeholder LauncherField.wheelSha256.name <:+: placeholder name :=
        fun h => hlast (launcherMarkers.eq_of_mark_infix h).symm
      rw [LauncherContract.value, hnone]
      exact replace_eq_self hother

theorem renderedValue_wheelUrl : contract.renderedValue LauncherField.wheelUrl.name =
    replace (placeholder LauncherField.wheelSha256.name) (encodeUtf8 contract.wheelSha256.toList)
      (encodeUtf8 contract.wheelUrl.toList) := by
  have hmem : LauncherField.wheelUrl.name ∈ earlierFields.map (·.name) :=
    List.mem_map_of_mem (by decide)
  unfold LauncherContract.renderedValue Markers.valued
  rw [if_pos hmem, value_name]
  rfl

theorem substituted_runtimeControl (sha256 : Bytes → String) (launcher : Bytes) :
    substituted (contract.runtimeControl sha256 launcher) template =
      expand contract.value (launcherMarkers.scan (normalizeNewlines template)) := by
  refine expand_congr fun name _ => ?_
  rw [LauncherContract.value]
  cases fieldNamed name with
  | none => rfl
  | some field =>
    cases field
    all_goals rfl

/-- The newlines of a template are in no placeholder. -/
theorem placeholder_infix_normalizeNewlines (field : LauncherField) :
    placeholder field.name <:+: normalizeNewlines template ↔
      placeholder field.name <:+: template := by
  have hnewlines : ∀ b ∈ ([0x0D, 0x0A] : Bytes), b ∉ placeholder field.name := by
    rw [List.forall_mem_cons, List.forall_mem_singleton]
    cases field
    all_goals exact ⟨by decide, by decide⟩
  have hne : placeholder field.name ≠ [] := by simp [placeholder]
  unfold normalizeNewlines
  rw [infix_replace_iff (by decide) (by decide) hne (by simpa using hnewlines 0x0D)
      (by simpa using hnewlines 0x0A),
    infix_replace_iff (by decide) (by decide) hne hnewlines (by simpa using hnewlines 0x0A)]

/-- A rendered launcher is the template with every placeholder replaced at once exactly when the
URL does not spell the placeholder that is replaced after it. -/
theorem launcher_render_simultaneous_iff (checkNetloc : List Char → Bool) (sha256 : Bytes → String)
    {contract : LauncherContract} {template rendered : Bytes}
    (hcontract : contract.postInit checkNetloc = .ok ())
    (h : contract.render template = .ok rendered) :
    rendered = substituted (contract.runtimeControl sha256 rendered) template ↔
      ¬ "{{wheel_sha256}}".toList <:+: contract.wheelUrl.toList := by
  have hc := postInit_ok hcontract
  obtain ⟨_, hclosed, h⟩ := bind_eq_ok h
  obtain ⟨_, -, h⟩ := bind_eq_ok h
  cases h
  have hclosed := (of_decide_eq_true (check_eq_ok.mp hclosed)).2
  have hname : placeholder LauncherField.wheelSha256.name =
      encodeUtf8 "{{wheel_sha256}}".toList := by decide
  have hascii : ∀ c ∈ "{{wheel_sha256}}".toList, c.toNat < 0x80 := by decide
  have hne : placeholder LauncherField.wheelSha256.name ≠ [] := by simp [placeholder]
  rw [substituted_runtimeControl, foldl_replaceField hc,
    ← encodeUtf8_infix_iff hascii (by decide), ← hname]
  constructor
  · intro heq hwithin
    -- The digest is longer than its placeholder, so the two texts differ in length.
    have hurl : .inr LauncherField.wheelUrl.name ∈
        launcherMarkers.scan (normalizeNewlines template) := by
      rw [← mem_keysOf, launcherMarkers.mem_keysOf_scan]
      refine (placeholder_infix_normalizeNewlines .wheelUrl).mpr ?_
      have hfield : LauncherField.wheelUrl ∈ launcherFields := by decide
      have hmem := hclosed (List.mem_map_of_mem hfield)
      exact launcherMarkers.mem_keysOf_scan.mp (List.mem_dedup.mp hmem)
    have hlonger : (placeholder LauncherField.wheelSha256.name).length <
        (encodeUtf8 contract.wheelSha256.toList).length := by
      rw [(isDigest_settled hc.wheelSha256 .wheelSha256).1]
      exact length_placeholder_lt _
    have hle : ∀ name, (contract.value name).length ≤ (contract.renderedValue name).length := by
      intro name
      by_cases hname : name = LauncherField.wheelUrl.name
      · rw [hname, renderedValue_wheelUrl, value_name]
        exact length_le_replace hne hlonger.le
      · rw [renderedValue_eq hc hname]
    have hlt : (contract.value LauncherField.wheelUrl.name).length <
        (contract.renderedValue LauncherField.wheelUrl.name).length := by
      rw [renderedValue_wheelUrl, value_name]
      exact length_lt_replace hne hlonger hwithin
    have hlengths := length_expand_lt hle hurl hlt
    rw [heq] at hlengths
    exact absurd hlengths (Nat.lt_irrefl _)
  · intro hwithin
    refine expand_congr fun name _ => ?_
    by_cases hname : name = LauncherField.wheelUrl.name
    · rw [hname, renderedValue_wheelUrl, value_name]
      exact replace_eq_self hwithin
    · exact renderedValue_eq hc hname

/-! ### A URL that spells a placeholder -/

def anyNetloc : List Char → Bool := fun _ => true

def sampleLauncherDigest : String := String.ofList (List.replicate 64 'a')

def sampleLauncher (wheelUrl : String) : LauncherContract where
  launcherContractVersion := 1
  launcherRendererVersion := "runtime-launcher-v1"
  releaseId := sampleLauncherDigest
  releaseManifestDigest := sampleLauncherDigest
  wheelUrl := wheelUrl
  wheelSha256 := sampleLauncherDigest

/-- All the placeholders, one after the other. -/
def sampleTemplate : Bytes := launcherFields.flatMap (placeholder ·.name) ++ [0x0A]

def sampleUrl : String := "https://h/agent.whl"

/-- It spells a placeholder. -/
def sampleSpelledUrl : String := "https://h/{{wheel_sha256}}.whl"

theorem sampleLauncher_accepted : ∀ url ∈ [sampleUrl, sampleSpelledUrl],
    (sampleLauncher url).postInit anyNetloc = .ok () := by
  have hall : ∀ url ∈ [sampleUrl, sampleSpelledUrl],
      ((sampleLauncher url).postInit anyNetloc).toOption = some () := by decide
  exact fun url h => eq_ok_of_toOption (hall url h)

theorem sampleTemplate_renders : ∀ url ∈ [sampleUrl, sampleSpelledUrl],
    ∃ rendered, (sampleLauncher url).render sampleTemplate = .ok rendered := by
  have hall : ∀ url ∈ [sampleUrl, sampleSpelledUrl],
      ((sampleLauncher url).render sampleTemplate).isOk = true := by
    decide +kernel
  exact fun url h => exists_of_isOk (hall url h)

theorem launcher_render_simultaneous_iff_sample : ∃ rendered,
    (sampleLauncher sampleUrl).render sampleTemplate = .ok rendered ∧
      rendered = substituted ((sampleLauncher sampleUrl).runtimeControl
        (fun _ => sampleLauncherDigest) rendered) sampleTemplate := by
  obtain ⟨rendered, hrendered⟩ := sampleTemplate_renders sampleUrl (by decide)
  have hwithout : ¬ "{{wheel_sha256}}".toList <:+: (sampleLauncher sampleUrl).wheelUrl.toList := by
    decide
  exact ⟨rendered, hrendered, (launcher_render_simultaneous_iff anyNetloc
    (fun _ => sampleLauncherDigest) (sampleLauncher_accepted _ (by decide)) hrendered).mpr hwithout⟩

theorem launcher_render_not_simultaneous : ¬ ∀ (checkNetloc : List Char → Bool)
    (sha256 : Bytes → String) (contract : LauncherContract) (template rendered : Bytes),
    contract.postInit checkNetloc = .ok () → contract.render template = .ok rendered →
      rendered = substituted (contract.runtimeControl sha256 rendered) template := by
  intro hall
  have hdiffers : ((sampleLauncher sampleSpelledUrl).render sampleTemplate).toOption.any
      (· ≠ expand (sampleLauncher sampleSpelledUrl).value
        (launcherMarkers.scan (normalizeNewlines sampleTemplate))) = true := by
    decide +kernel
  obtain ⟨rendered, hrendered, hne⟩ := (Option.any_eq_true _ _).mp hdiffers
  have heq := hall anyNetloc (fun _ => sampleLauncherDigest) _ sampleTemplate rendered
    (sampleLauncher_accepted _ (by decide)) (eq_ok_of_toOption hrendered)
  rw [substituted_runtimeControl] at heq
  exact of_decide_eq_true hne heq

end AgentStack.Runtime
