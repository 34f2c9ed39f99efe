import AgentStack.Core.Fields
import AgentStack.Substitution.Markers

/-! The release-bound launcher: its contract, its rendering, and the control record beside it. -/
namespace AgentStack.Runtime

open AgentStack.Core JsonText Substitution

def launcherFailure (message : String) (details : List (String × String)) : Failure :=
  ⟨.runtime, "AWP_RUNTIME_BINDING_MISMATCH", message, details⟩

/-! ### URLs -/

/-- The part before the first `sep` and, where there is one, the part after it. -/
def splitOnce (sep : Char) (cs : List Char) : List Char × Option (List Char) :=
  (cs.takeWhile (· ≠ sep), (cs.dropWhile (· ≠ sep)).tail?)

/-- The part after the last `sep`, or all of it. -/
def afterLast (sep : Char) (cs : List Char) : List Char :=
  (cs.reverse.takeWhile (· ≠ sep)).reverse

structure SplitUrl where
  scheme : List Char
  netloc : List Char
  path : List Char
  query : List Char
  fragment : List Char
  deriving DecidableEq, Repr

def isControlOrSpace (c : Char) : Bool := c.toNat ≤ 0x20

def isSchemeChar (c : Char) : Bool := c.isAlphanum || c ∈ ['+', '-', '.']

def splitScheme (url : List Char) : List Char × List Char :=
  match splitOnce ':' url with
  | (before, some after) =>
    if url.head?.any Char.isAlpha ∧ before.all isSchemeChar then (before.map Char.toLower, after)
    else ([], url)
  | (_, none) => ([], url)

def splitNetloc (url : List Char) : List Char × List Char :=
  if ['/', '/'] <+: url then
    ((url.drop 2).takeWhile (· ∉ ['/', '?', '#']), (url.drop 2).dropWhile (· ∉ ['/', '?', '#']))
  else ([], url)

/-- `checkNetloc` stands for the tests of a bracketed host and of the NFKC form of the location. -/
def urlsplit (checkNetloc : List Char → Bool) (url : String) : Option SplitUrl :=
  let url := url.toList.dropWhile isControlOrSpace
  let url := url.filter (· ∉ ['\t', '\r', '\n'])
  let (scheme, url) := splitScheme url
  let (netloc, url) := splitNetloc url
  if decide ('[' ∈ netloc) = decide (']' ∈ netloc) ∧ checkNetloc netloc then
    let (url, fragment) := splitOnce '#' url
    let (path, query) := splitOnce '?' url
    some ⟨scheme, netloc, path, query.getD [], fragment.getD []⟩
  else none

/-- The host and the text of the port. -/
def SplitUrl.hostinfo (url : SplitUrl) : List Char × List Char :=
  let info := afterLast '@' url.netloc
  match splitOnce '[' info with
  | (_, some bracketed) =>
    let (hostname, rest) := splitOnce ']' bracketed
    (hostname, ((splitOnce ':' (rest.getD [])).2).getD [])
  | (_, none) =>
    let (hostname, port) := splitOnce ':' info
    (hostname, port.getD [])

/-- A user name is there as soon as the location has an `@`, a password with a colon before it. -/
def SplitUrl.hasUserinfo (url : SplitUrl) : Bool := '@' ∈ url.netloc

/-- The port, or nothing where it is no number of a port. -/
def SplitUrl.port (url : SplitUrl) : Option (Option Nat) :=
  let text := url.hostinfo.2
  if text = [] then some none
  else if text.all Char.isDigit then
    let port := text.foldl (fun n c => 10 * n + (c.toNat - '0'.toNat)) 0
    if port ≤ 65535 then some (some port) else none
  else none

def wheelSuffix : List Char := ".whl".toList

def closedHttpsWheelUrl (checkNetloc : List Char → Bool) (value : String) :
    Except Failure Unit := do
  check (isStripped value) (launcherFailure "launcher wheel URL is invalid" [])
  check (value.toList.all (· ∉ ['\'', '"', '\\', '\r', '\n', '\t']))
    (launcherFailure "launcher wheel URL is not shell-safe" [])
  let parsed ← require (urlsplit checkNetloc value)
    (launcherFailure "launcher wheel URL is invalid" [])
  let port ← require parsed.port (launcherFailure "launcher wheel URL is invalid" [])
  check (parsed.scheme = "https".toList ∧ parsed.hostinfo.1 ≠ [] ∧ parsed.hasUserinfo = false ∧
      port ∈ [none, some 443] ∧ parsed.query = [] ∧ parsed.fragment = [] ∧
      wheelSuffix <:+ parsed.path)
    (launcherFailure "launcher wheel URL violates the immutable HTTPS contract" [])

/-! ### Placeholders -/

def isNameByte (b : UInt8) : Bool := (0x61 ≤ b && b ≤ 0x7A) || (0x30 ≤ b && b ≤ 0x39) || b = 0x5F

/-- `[a-z][a-z0-9_]*`. -/
def isPlaceholderName (bytes : Bytes) : Bool :=
  bytes.head?.any (fun b => 0x61 ≤ b && b ≤ 0x7A) && bytes.all isNameByte

structure PlaceholderName where
  bytes : Bytes
  isName : isPlaceholderName bytes = true
  deriving DecidableEq

def placeholder (name : PlaceholderName) : Bytes := [0x7B, 0x7B] ++ name.bytes ++ [0x7D, 0x7D]

/-- A match of `_PLACEHOLDER` at the front: no name goes on with a brace, so the longest is taken. -/
def placeholderAt (text : Bytes) : Option PlaceholderName :=
  if [0x7B, 0x7B] <+: text then
    let name := (text.drop 2).takeWhile isNameByte
    if h : isPlaceholderName name = true then
      if [0x7D, 0x7D] <+: (text.drop 2).dropWhile isNameByte then some ⟨name, h⟩ else none
    else none
  else none

inductive LauncherField
  | launcherContractVersion
  | launcherRendererVersion
  | releaseId
  | releaseManifestDigest
  | wheelUrl
  | wheelSha256
  deriving DecidableEq, Repr

def LauncherField.text : LauncherField → String
  | .launcherContractVersion => "launcher_contract_version"
  | .launcherRendererVersion => "launcher_renderer_version"
  | .releaseId => "release_id"
  | .releaseManifestDigest => "release_manifest_digest"
  | .wheelUrl => "wheel_url"
  | .wheelSha256 => "wheel_sha256"

def launcherFields : List LauncherField :=
  [.launcherContractVersion, .launcherRendererVersion, .releaseId, .releaseManifestDigest,
    .wheelUrl, .wheelSha256]

def LauncherField.name (field : LauncherField) : PlaceholderName :=
  ⟨encodeUtf8 field.text.toList, by cases field <;> decide⟩

/-! ### The contract -/

structure LauncherContract where
  launcherContractVersion : Int
  launcherRendererVersion : String
  releaseId : String
  releaseManifestDigest : String
  wheelUrl : String
  wheelSha256 : String
  deriving DecidableEq, Repr

def launcherDigest (value field : String) : Except Failure Unit :=
  check (isDigest value) (launcherFailure "launcher digest is invalid" [("field", field)])

def LauncherContract.postInit (checkNetloc : List Char → Bool) (contract : LauncherContract) :
    Except Failure Unit := do
  check (contract.launcherContractVersion = 1)
    (launcherFailure "launcher contract version is unsupported" [])
  check (contract.launcherRendererVersion = "runtime-launcher-v1")
    (launcherFailure "launcher renderer version is unsupported" [])
  launcherDigest contract.releaseId "release_id"
  launcherDigest contract.releaseManifestDigest "release_manifest_digest"
  closedHttpsWheelUrl checkNetloc contract.wheelUrl
  launcherDigest contract.wheelSha256 "wheel_sha256"

def LauncherContract.substitution (contract : LauncherContract) : LauncherField → String
  | .launcherContractVersion => toString contract.launcherContractVersion
  | .launcherRendererVersion => contract.launcherRendererVersion
  | .releaseId => contract.releaseId
  | .releaseManifestDigest => contract.releaseManifestDigest
  | .wheelUrl => contract.wheelUrl
  | .wheelSha256 => contract.wheelSha256

/-- `template.replace(b"\r\n", b"\n").replace(b"\r", b"\n")`. -/
def normalizeNewlines (template : Bytes) : Bytes :=
  replace [0x0D] [0x0A] (replace [0x0D, 0x0A] [0x0A] template)

/-- `rendered.replace(placeholder, value)` for one field. -/
def LauncherContract.replaceField (contract : LauncherContract) (text : Bytes)
    (field : LauncherField) : Bytes :=
  replace (placeholder field.name) (encodeUtf8 (contract.substitution field).toList) text

def LauncherContract.runtimeControl (sha256 : Bytes → String) (contract : LauncherContract)
    (renderedLauncher : Bytes) : Members :=
  [("schema_id", .string "agent-workflow.runtime-control"), ("schema_version", .int 1),
    ("launcher_contract_version", .int contract.launcherContractVersion),
    ("launcher_renderer_version", .string contract.launcherRendererVersion),
    ("release_id", .string contract.releaseId),
    ("release_manifest_digest", .string contract.releaseManifestDigest),
    ("wheel_url", .string contract.wheelUrl), ("wheel_sha256", .string contract.wheelSha256),
    ("uv_version_range", .string ">=0.7.0,<1.0.0"),
    ("python_version_range", .string ">=3.11,<3.15"),
    ("render_digest", .string (sha256 renderedLauncher))]

/-! ### Placeholders are markers -/

theorem notMem_placeholderName (name : PlaceholderName) :
    (0x7B : UInt8) ∉ name.bytes ∧ (0x7D : UInt8) ∉ name.bytes := by
  have hbytes := name.isName
  rw [isPlaceholderName, Bool.and_eq_true, List.all_eq_true] at hbytes
  constructor
  · intro h
    exact absurd (hbytes.2 _ h) (by decide)
  · intro h
    exact absurd (hbytes.2 _ h) (by decide)

theorem takeWhile_placeholderName (name : PlaceholderName) (w : Bytes) :
    (name.bytes ++ 0x7D :: w).takeWhile isNameByte = name.bytes ∧
      (name.bytes ++ 0x7D :: w).dropWhile isNameByte = 0x7D :: w := by
  have hbytes := name.isName
  rw [isPlaceholderName, Bool.and_eq_true, List.all_eq_true] at hbytes
  have hend : isNameByte 0x7D = false := by decide
  constructor
  · rw [List.takeWhile_append_of_pos hbytes.2, List.takeWhile_cons, hend]
    simp
  · rw [List.dropWhile_append_of_pos hbytes.2, List.dropWhile_cons, hend]
    simp

theorem placeholderAt_eq_some (text : Bytes) (name : PlaceholderName) :
    placeholderAt text = some name ↔ placeholder name <+: text := by
  unfold placeholderAt
  dsimp only
  constructor
  · intro h
    split_ifs at h with hopen hname hclose
    cases h
    obtain ⟨rest, rfl⟩ := hopen
    obtain ⟨w, hw⟩ := hclose
    have hdrop : ([0x7B, 0x7B] ++ rest : Bytes).drop 2 = rest := rfl
    simp only [hdrop] at hw ⊢
    have hsplit := List.takeWhile_append_dropWhile (p := isNameByte) (l := rest)
    rw [← hw] at hsplit
    refine ⟨w, ?_⟩
    change [0x7B, 0x7B] ++ rest.takeWhile isNameByte ++ [0x7D, 0x7D] ++ w = [0x7B, 0x7B] ++ rest
    rw [List.append_assoc, List.append_assoc, hsplit]
  · intro h
    obtain ⟨w, rfl⟩ := h
    have hopen : ([0x7B, 0x7B] : Bytes) <+: placeholder name ++ w := by
      rw [placeholder, List.append_assoc, List.append_assoc]
      exact List.prefix_append _ _
    have hdrop : (placeholder name ++ w).drop 2 = name.bytes ++ 0x7D :: 0x7D :: w := by
      simp [placeholder]
    obtain ⟨htake, hrest⟩ := takeWhile_placeholderName name (0x7D :: w)
    have hclose : ([0x7D, 0x7D] : Bytes) <+: 0x7D :: 0x7D :: w := ⟨w, rfl⟩
    simp only [hopen, hdrop, htake, hrest, name.isName, hclose, if_true, dite_true]

/-- Behind its front a placeholder has no two opening braces. -/
theorem suffix_placeholder {name : PlaceholderName} {q : Bytes} (hq : q <:+ placeholder name)
    (hne : q ≠ []) (hproper : q ≠ placeholder name) :
    ¬ [0x7B, 0x7B] <+: q ∧ ¬ q <+: [0x7B, 0x7B] := by
  have hnotMem := (notMem_placeholderName name).1
  rw [placeholder, List.append_assoc, List.cons_append, List.cons_append, List.nil_append,
    List.suffix_cons_iff, List.suffix_cons_iff] at hq
  rcases hq with hq | hq | hq
  · exact absurd (hq.trans (by simp [placeholder])) hproper
  · cases hname : name.bytes with
    | nil =>
      have hbytes := name.isName
      rw [isPlaceholderName, hname] at hbytes
      cases hbytes
    | cons b bytes =>
      rw [hname, List.mem_cons, not_or] at hnotMem
      rw [hq, hname, List.cons_append, List.cons_prefix_cons, List.cons_prefix_cons,
        List.cons_prefix_cons, List.cons_prefix_cons]
      exact ⟨fun h => hnotMem.1 h.2.1, fun h => hnotMem.1 h.2.1.symm⟩
  · cases q with
    | nil => exact absurd rfl hne
    | cons b q =>
      have hb : b ∈ name.bytes ++ [0x7D, 0x7D] := hq.subset List.mem_cons_self
      have hbrace : b ≠ 0x7B := by
        rintro rfl
        rcases List.mem_append.mp hb with hb | hb
        · exact hnotMem hb
        · exact absurd hb (by decide)
      rw [List.cons_prefix_cons, List.cons_prefix_cons]
      exact ⟨fun h => hbrace h.1.symm, fun h => hbrace h.1⟩

theorem braces_prefix_placeholder (name : PlaceholderName) : [0x7B, 0x7B] <+: placeholder name := by
  rw [placeholder, List.append_assoc]
  exact List.prefix_append _ _

def launcherMarkers : Markers UInt8 PlaceholderName where
  mark := placeholder
  find := placeholderAt
  find_eq_some := placeholderAt_eq_some
  mark_ne_nil name := by simp [placeholder]
  closedRight k l := by
    intro q hq hne hqk
    by_cases hproper : q = placeholder l
    · have hk := (placeholderAt_eq_some _ k).mpr (List.prefix_refl _)
      rw [hproper] at hqk ⊢
      rw [(placeholderAt_eq_some _ l).mpr hqk, Option.some.injEq] at hk
      rw [hk]
    · obtain ⟨hopen, hopen'⟩ := suffix_placeholder hq hne hproper
      rcases List.prefix_or_prefix_of_prefix hqk (braces_prefix_placeholder k) with h | h
      · exact absurd h hopen'
      · exact absurd h hopen
  closedLeft k l := by
    intro s hs hne hproper
    obtain ⟨hopen, hopen'⟩ := suffix_placeholder hs hne hproper
    constructor
    · intro h
      rcases List.prefix_or_prefix_of_prefix h (braces_prefix_placeholder l) with h | h
      · exact hopen' h
      · exact hopen h
    · intro h
      exact hopen ((braces_prefix_placeholder l).trans h)

/-! ### Rendering -/

/-- `_PLACEHOLDER.findall(template)`. -/
def findPlaceholders (template : Bytes) : List PlaceholderName :=
  keysOf (launcherMarkers.scan template)

def PlaceholderName.text (name : PlaceholderName) : String :=
  String.ofList (name.bytes.map fun b => Char.ofNat b.toNat)

def LauncherContract.render (contract : LauncherContract) (template : Bytes) :
    Except Failure Bytes := do
  let expected := launcherFields.map (·.name)
  let placeholders := (findPlaceholders template).dedup
  check (placeholders ⊆ expected ∧ expected ⊆ placeholders)
    (launcherFailure "launcher template substitutions are not closed"
      [("expected", ",".intercalate (sortStrings (launcherFields.map (·.text)))),
        ("observed", ",".intercalate (sortStrings (placeholders.map (·.text))))])
  let rendered := launcherFields.foldl contract.replaceField (normalizeNewlines template)
  check (findPlaceholders rendered = [] ∧ rendered.getLast? = some 0x0A)
    (launcherFailure "rendered launcher is incomplete" [])
  return rendered

/-- What a control record says of a field. -/
def recordedText : JsonValue → String
  | .string s => s
  | .int n => toString n
  | _ => ""

def fieldNamed (name : PlaceholderName) : Option LauncherField :=
  launcherFields.find? (·.name = name)

/-- The template with each placeholder replaced by what the control record says of its field. -/
def substituted (control : Members) (template : Bytes) : Bytes :=
  expand (fun name =>
    match fieldNamed name with
    | some field => encodeUtf8 (recordedText (getField control field.text)).toList
    | none => placeholder name) (launcherMarkers.scan (normalizeNewlines template))

end AgentStack.Runtime
