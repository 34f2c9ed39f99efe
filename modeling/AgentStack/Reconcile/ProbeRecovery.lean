import Mathlib.Data.List.Pairwise
import AgentStack.KeyedList.Basic
import AgentStack.Reconcile.Probe

/-! What a probe that was cut off leaves behind, and rolling it back. -/
namespace AgentStack.Reconcile

open AgentStack.Core Crash FileTree JsonText JsonValue KeyedList

/-! ### Names in hexadecimal -/

theorem hexNibble_hexDigit : ∀ n < 16, hexNibble (hexDigit n) = some n ∧
    hexDigit n ∉ [' ', '\t', '\n', '\r', '\x0b', '\x0c'] := by
  decide

theorem fromHex_hexOf (bytes : Bytes) : fromHex (hexOf bytes) = some bytes := by
  induction bytes with
  | nil => rfl
  | cons b bytes ih =>
    have hb := b.toNat_lt
    obtain ⟨hhigh, hblank⟩ := hexNibble_hexDigit (b.toNat / 16) (by omega)
    obtain ⟨hlow, -⟩ := hexNibble_hexDigit (b.toNat % 16) (by omega)
    have hcons : hexOf (b :: bytes) =
        hexDigit (b.toNat / 16) :: hexDigit (b.toNat % 16) :: hexOf bytes := rfl
    have hbyte : UInt8.ofNat (16 * (b.toNat / 16) + b.toNat % 16) = b := by
      rw [Nat.div_add_mod, UInt8.ofNat_toNat]
    rw [hcons, fromHex, if_neg hblank, hhigh, hlow, ih]
    change some (UInt8.ofNat (16 * (b.toNat / 16) + b.toNat % 16) :: bytes) = _
    rw [hbyte]

theorem expectedName_hexOf (name : String) (hashes : List String) :
    expectedName ⟨String.ofList (hexOf (utf8Bytes name)), hashes⟩ = .ok (name, hashes) := by
  unfold expectedName
  rw [String.toList_ofList, fromHex_hexOf, Option.bind_some, utf8Bytes, decodeUtf8_encodeUtf8]
  change Except.ok (String.ofList name.toList, hashes) = _
  rw [String.ofList_toList]

/-- The recorded hashes under their names. -/
def expectedContents (H : Hasher) : List (String × List String) :=
  (probeContents.insertionSort fun a b => utf8Bytes a.1 ≤ utf8Bytes b.1).map fun f =>
    (f.1, f.2.map H.sha256)

theorem expectedFiles_names (H : Hasher) :
    enumerateM (fun _ => expectedName) 0 (expectedFiles H) = .ok (expectedContents H) := by
  have hall : ∀ (files : List (String × List Bytes)) (index : Nat),
      enumerateM (fun _ => expectedName) index (files.map fun f =>
        (⟨String.ofList (hexOf (utf8Bytes f.1)), f.2.map H.sha256⟩ : ExpectedFile)) =
      .ok (files.map fun f => (f.1, f.2.map H.sha256)) := by
    intro files
    induction files with
    | nil => exact fun _ => rfl
    | cons f files ih =>
      intro index
      rw [List.map_cons, List.map_cons, enumerateM, expectedName_hexOf, bind_ok_eq, ih]
      rfl
  exact hall _ 0

theorem probeContents_names : (probeContents.map Prod.fst).Nodup := by
  decide

theorem lookup_expectedContents (H : Hasher) (name : String) :
    (expectedContents H).lookup name = (probeContents.lookup name).map (·.map H.sha256) := by
  have hperm := List.perm_insertionSort
    (fun a b : String × List Bytes => utf8Bytes a.1 ≤ utf8Bytes b.1) probeContents
  have hnodup := (hperm.map Prod.fst).nodup_iff.mpr probeContents_names
  have hsorted : (probeContents.insertionSort fun a b => utf8Bytes a.1 ≤ utf8Bytes b.1).lookup
      name = probeContents.lookup name := by
    apply Option.ext
    intro contents
    rw [lookup_eq_some hnodup, lookup_eq_some probeContents_names]
    exact hperm.mem_iff
  rw [expectedContents, lookup_map (fun _ (contents : List Bytes) => contents.map H.sha256), hsorted]

/-! ### What the probe leaves -/

/-- A file the recorded hashes speak of: filled as they say, or created and not filled yet. -/
def entryRecorded (e : String × ProbeEntry) : Bool :=
  match probeContents.lookup e.1, e.2 with
  | some contents, .file content => content = [] ∨ content ∈ contents
  | _, _ => false

structure Recorded (rules : NameRules) (entries : List (String × ProbeEntry)) : Prop where
  files : ∀ e ∈ entries, entryRecorded e = true
  apart : entries.Pairwise fun a b => rules.same a.1 b.1 = false

instance (rules : NameRules) (entries : List (String × ProbeEntry)) :
    Decidable (Recorded rules entries) :=
  decidable_of_iff ((∀ e ∈ entries, entryRecorded e = true) ∧
    entries.Pairwise fun a b => rules.same a.1 b.1 = false)
    ⟨fun h => ⟨h.1, h.2⟩, fun h => ⟨h.files, h.apart⟩⟩

def Residue.Recorded (rules : NameRules) : Residue → Prop
  | .absent => True
  | .notDirectory => False
  | .directory entries => Reconcile.Recorded rules entries

instance (rules : NameRules) (r : Residue) : Decidable (r.Recorded rules) := by
  cases r
  · exact .isTrue trivial
  · exact .isFalse id
  · exact inferInstanceAs (Decidable (Reconcile.Recorded rules _))

/-- A probe file that was created and not filled; only the lock is meant to be empty. -/
def halfWritten (e : String × ProbeEntry) : Prop := e.1 ≠ "lock" ∧ e.2 = .file []

def Residue.HalfWritten (r : Residue) : Prop := ∃ e ∈ r.entries, halfWritten e

theorem probeContents_empty : ∀ f ∈ probeContents, [] ∈ f.2 ↔ f.1 = "lock" := by
  decide

theorem entryRecorded_cases {e : String × ProbeEntry} (h : entryRecorded e = true) :
    ∃ contents content, probeContents.lookup e.1 = some contents ∧ e.2 = .file content ∧
      (content ∈ contents ∧ ¬ halfWritten e ∨ content = [] ∧ halfWritten e) := by
  unfold entryRecorded at h
  split at h
  case h_2 => cases h
  case h_1 contents content hlookup hfile =>
    refine ⟨contents, content, hlookup, hfile, ?_⟩
    have hempty := probeContents_empty _ (mem_of_lookup hlookup)
    unfold halfWritten
    rw [hfile, ProbeEntry.file.injEq]
    have hcontent : content = [] ∨ content ∈ contents := by simpa using h
    by_cases hnil : content = []
    · subst hnil
      by_cases hlock : e.1 = "lock"
      · exact Or.inl ⟨hempty.mpr hlock, fun hhalf => hhalf.1 hlock⟩
      · exact Or.inr ⟨rfl, hlock, rfl⟩
    · exact Or.inl ⟨hcontent.resolve_left hnil, fun hhalf => hnil hhalf.2⟩

section Residue

variable {rules : NameRules} {entries : List (String × ProbeEntry)}

theorem NameRules.same_refl (name : String) : rules.same name name = true := by
  unfold NameRules.same
  exact decide_eq_true rfl

theorem NameRules.same_comm (a b : String) : rules.same a b = rules.same b a := by
  unfold NameRules.same
  exact decide_eq_decide.mpr eq_comm

theorem Recorded.same_iff (h : Recorded rules entries) {a b : String × ProbeEntry}
    (ha : a ∈ entries) (hb : b ∈ entries) : rules.same a.1 b.1 = true ↔ a = b := by
  constructor
  · intro hsame
    by_contra hne
    have hsymm : Std.Symm fun a b : String × ProbeEntry => rules.same a.1 b.1 = false := by
      constructor
      intro a b hab
      rwa [NameRules.same_comm]
    have hfalse := h.apart.forall ha hb hne
    rw [hsame] at hfalse
    cases hfalse
  · intro heq
    rw [heq]
    exact NameRules.same_refl _

theorem Recorded.names (h : Recorded rules entries) : (entries.map Prod.fst).Nodup := by
  rw [List.Nodup, List.pairwise_map]
  refine h.apart.imp ?_
  intro a b hapart hname
  rw [hname, NameRules.same_refl] at hapart
  cases hapart

theorem Recorded.sublist (h : Recorded rules entries) {kept : List (String × ProbeEntry)}
    (hkept : kept.Sublist entries) : Recorded rules kept :=
  ⟨fun e he => h.files e (hkept.mem he), h.apart.sublist hkept⟩

theorem Recorded.drop (h : Recorded rules entries) (name : String) :
    Recorded rules (dropEntry rules name entries) := h.sublist List.filter_sublist

theorem Recorded.mem_drop (h : Recorded rules entries) {e d : String × ProbeEntry}
    (he : e ∈ entries) : d ∈ dropEntry rules e.1 entries ↔ d ∈ entries ∧ d ≠ e := by
  rw [dropEntry, List.mem_filter]
  constructor
  · rintro ⟨hd, hsame⟩
    refine ⟨hd, fun heq => ?_⟩
    rw [(h.same_iff hd he).mpr heq] at hsame
    simp at hsame
  · rintro ⟨hd, hne⟩
    refine ⟨hd, ?_⟩
    simpa using fun hsame => hne ((h.same_iff hd he).mp hsame)

theorem Recorded.find (h : Recorded rules entries) {e : String × ProbeEntry} (he : e ∈ entries) :
    (Residue.directory entries).find rules e.1 = some e.2 := by
  have hfind : entries.find? (fun d => rules.same d.1 e.1) = some e := by
    refine find?_eq_some_of_unique he (NameRules.same_refl _) ?_
    intro d hd hsame
    exact (h.same_iff hd he).mp hsame
  change (entries.find? fun d => rules.same d.1 e.1).map Prod.snd = _
  rw [hfind]
  rfl

end Residue

/-! ### The stages of a probe -/

def lockFile : String × ProbeEntry := ("lock", .file [])

def originalFile (content : Bytes) : String × ProbeEntry := ("original", .file content)

/-- The stages of one alias probe over the files `kept`. -/
def aliasStages (aliases : Bool) (first second : String) (kept : List (String × ProbeEntry)) :
    List (List (String × ProbeEntry)) :=
  let made := kept ++ [(first, .file (utf8Bytes "first"))]
  [kept ++ [(first, .file [])], made] ++
    (if aliases then [kept]
    else [made ++ [(second, .file [])], made ++ [(second, .file (utf8Bytes "second"))], made,
      kept])

/-- The entries of the probe directory after each effect of the probe. -/
def probeStages (rules : NameRules) (sameFilesystem : Bool) : List (List (String × ProbeEntry)) :=
  let original := originalFile (utf8Bytes "original")
  let candidate := ("candidate", ProbeEntry.file (utf8Bytes "candidate"))
  let replaced := [lockFile, originalFile (utf8Bytes "candidate")]
  [[lockFile], [lockFile, originalFile []], [lockFile, original],
    [lockFile, original, ("candidate", .file [])], [lockFile, original, candidate]] ++
  (if sameFilesystem then
    [replaced, replaced] ++ aliasStages rules.caseAliases "CaseProbe" "caseprobe" replaced ++
      aliasStages rules.unicodeAliases composedProbe decomposedProbe replaced
  else [])

def removalStages (sameFilesystem : Bool) : List Residue :=
  (if sameFilesystem then [] else [.directory [lockFile, originalFile (utf8Bytes "original")]]) ++
    [.directory [lockFile], .directory [], .absent]

theorem observeProbe_trace (rules : NameRules) (same : Bool) :
    ((observeProbe rules same).run (.directory [])).trace =
      (probeStages rules same).map Residue.directory := by
  have hall : ∀ c u same, ((observeProbe ⟨c, u⟩ same).run (.directory [])).trace =
      (probeStages ⟨c, u⟩ same).map Residue.directory := by decide
  exact hall rules.caseAliases rules.unicodeAliases same

theorem removeProbeFiles_run (rules : NameRules) (same : Bool) :
    (removeProbeFiles rules).run ((observeProbe rules same).final (.directory [])) =
      ⟨removalStages same, .ok ()⟩ := by
  have htrace : ∀ c u same, ((removeProbeFiles ⟨c, u⟩).run
      ((observeProbe ⟨c, u⟩ same).final (.directory []))).trace = removalStages same := by
    decide
  have hout : ∀ c u same, ((removeProbeFiles ⟨c, u⟩).run
      ((observeProbe ⟨c, u⟩ same).final (.directory []))).out.toOption = some () := by
    decide
  have hok := eq_ok_of_toOption (hout rules.caseAliases rules.unicodeAliases same)
  rw [← htrace rules.caseAliases rules.unicodeAliases same, ← hok]

theorem stages_recorded (rules : NameRules) (same : Bool) :
    (∀ entries ∈ probeStages rules same, Recorded rules entries) ∧
      ∀ r ∈ removalStages same, r.Recorded rules := by
  have hall : ∀ c u same, (∀ entries ∈ probeStages ⟨c, u⟩ same, Recorded ⟨c, u⟩ entries) ∧
      ∀ r ∈ removalStages same, r.Recorded ⟨c, u⟩ := by
    decide
  exact hall rules.caseAliases rules.unicodeAliases same

theorem bind_lift_trace {σ ε α β : Type} (p : Program σ ε α) (f : α → Except ε β) (s : σ) :
    ((p >>= fun a => Program.lift (f a)).run s).trace = (p.run s).trace := by
  obtain ⟨a, -, h⟩ | ⟨e, -, h⟩ := Program.bind_cases p (fun a => Program.lift (f a)) s
  · rw [h]
    exact List.append_nil _
  · rw [h]

/-- A probe that starts with no directory ends with none, and every stage between is recorded. -/
theorem runWriteProbe_triple (H : Hasher) (rules : NameRules) (answers : ProbeAnswers)
    (probeId : String) : Triple (· = .absent) (runWriteProbe H rules answers probeId)
      (fun _ r => r = .absent) (Residue.Recorded rules) := by
  have hstages := stages_recorded rules answers.sameFilesystem
  rw [← ends_const]
  refine Triple.lift_bind_ends rfl fun _ _ => ?_
  refine Triple.lift_bind_ends rfl fun _ _ => ?_
  refine Triple.inspect_bind_ends rfl fun _ _ => ?_
  have hmake : Triple (· = .absent) makeResidue (Returns fun _ r => r = .directory [])
      (Residue.Recorded rules) := by
    rintro r rfl
    constructor
    · intro c hc
      obtain rfl : c = .directory [] := List.mem_singleton.mp hc
      exact ⟨fun _ he => absurd he List.not_mem_nil, List.Pairwise.nil⟩
    · exact ⟨(), rfl, rfl⟩
  refine hmake.bind_returns fun _ => ?_
  rw [ends_const]
  have hobserved : Triple (· = .directory []) (observeProbe rules answers.sameFilesystem >>=
      fun seen => Program.lift (probeEvidence H answers probeId seen.1 seen.2.1 seen.2.2))
      (fun _ r => r = (observeProbe rules answers.sameFilesystem).final (.directory []))
      (Residue.Recorded rules) := by
    rintro r rfl
    have htrace := bind_lift_trace (observeProbe rules answers.sameFilesystem)
      (fun seen => probeEvidence H answers probeId seen.1 seen.2.1 seen.2.2) (.directory [])
    constructor
    · intro c hc
      rw [htrace, observeProbe_trace] at hc
      obtain ⟨entries, hentries, rfl⟩ := List.mem_map.mp hc
      exact hstages.1 entries hentries
    · exact congrArg (fun t => t.getLastD (Residue.directory [])) htrace
  have hremoved : Triple (· = (observeProbe rules answers.sameFilesystem).final (.directory []))
      (removeProbeFiles rules) (Returns fun _ r => r = .absent) (Residue.Recorded rules) := by
    rintro r rfl
    have hrun := removeProbeFiles_run rules answers.sameFilesystem
    constructor
    · rw [hrun]
      exact hstages.2
    · refine ⟨(), congrArg Run.out hrun, ?_⟩
      rw [Program.final_of_run hrun]
      cases answers.sameFilesystem <;> rfl
  exact hobserved.protect fun _ => hremoved

/-! ### Removing what was recorded -/

def removeResidueFile (H : Hasher) (rules : NameRules) (name : String) :
    Program Residue Failure Unit := do
  Program.inspect (checkResidueFile H rules (expectedContents H) name)
  unlinkProbe rules name

/-- The contents of the probe files are told apart from an empty file. -/
def ProbeHashes (H : Hasher) : Prop :=
  ∀ f ∈ probeContents, ∀ content ∈ f.2, content ≠ [] → H.sha256 content ≠ H.sha256 []

section Removal

variable {H : Hasher} {rules : NameRules} {entries : List (String × ProbeEntry)}

theorem checkResidueFile_of_mem (h : Recorded rules entries) {e : String × ProbeEntry}
    (he : e ∈ entries) {contents : List Bytes} {content : Bytes}
    (hlookup : probeContents.lookup e.1 = some contents) (hfile : e.2 = .file content) :
    checkResidueFile H rules (expectedContents H) e.1 (.directory entries) =
      check (H.sha256 content ∈ contents.map H.sha256)
        (recoveryRequired "standalone probe residue bytes changed" [("path", e.1)]) := by
  unfold checkResidueFile
  rw [h.find he, hfile]
  simp only [lookup_expectedContents, hlookup, Option.map_some, Option.getD_some]

theorem removeResidueFile_filled (h : Recorded rules entries) {e : String × ProbeEntry}
    (he : e ∈ entries) (hfilled : ¬ halfWritten e) :
    (removeResidueFile H rules e.1).run (.directory entries) =
      ⟨[.directory (dropEntry rules e.1 entries)], .ok ()⟩ := by
  obtain ⟨contents, content, hlookup, hfile, ⟨hmem, -⟩ | ⟨-, hhalf⟩⟩ :=
    entryRecorded_cases (h.files e he)
  · have hcheck : (Program.inspect (checkResidueFile H rules (expectedContents H) e.1)).run
        (.directory entries) = ⟨[], .ok ()⟩ := by
      rw [Program.inspect_run, checkResidueFile_of_mem h he hlookup hfile,
        check_eq_ok.mpr (decide_eq_true (List.mem_map_of_mem hmem))]
    have hhas : (Residue.directory entries).has rules e.1 = true := by
      rw [Residue.has, h.find he]
      rfl
    rw [removeResidueFile, Program.bind_of_pure hcheck]
    refine Program.attempt_ok ?_
    rw [if_pos hhas]
    rfl
  · exact absurd hhalf hfilled

theorem removeResidueFile_half (hH : ProbeHashes H) (h : Recorded rules entries)
    {e : String × ProbeEntry} (he : e ∈ entries) (hhalf : halfWritten e) :
    (removeResidueFile H rules e.1).out (.directory entries) = .error
      (recoveryRequired "standalone probe residue bytes changed" [("path", e.1)]) := by
  obtain ⟨contents, content, hlookup, hfile, ⟨-, hfilled⟩ | ⟨rfl, -⟩⟩ :=
    entryRecorded_cases (h.files e he)
  · exact absurd hhalf hfilled
  · have hf := mem_of_lookup hlookup
    have hempty : [] ∉ contents := fun hnil => hhalf.1 ((probeContents_empty _ hf).mp hnil)
    have hhash : H.sha256 [] ∉ contents.map H.sha256 := by
      intro hmem
      obtain ⟨content, hcontent, heq⟩ := List.mem_map.mp hmem
      exact hH _ hf content hcontent (fun hnil => hempty (hnil ▸ hcontent)) heq
    have hcheck : (Program.inspect (checkResidueFile H rules (expectedContents H) e.1)).run
        (.directory entries) = ⟨[], .error
          (recoveryRequired "standalone probe residue bytes changed" [("path", e.1)])⟩ := by
      rw [Program.inspect_run, checkResidueFile_of_mem h he hlookup hfile, decide_eq_false hhash]
      rfl
    exact congrArg Run.out (Program.bind_of_error hcheck)

theorem Recorded.drop_names (h : Recorded rules entries) {name : String} {names : List String}
    (hnames : (name :: names).Perm (entries.map Prod.fst)) :
    ∃ e ∈ entries, e.1 = name ∧ names.Perm ((dropEntry rules name entries).map Prod.fst) := by
  obtain ⟨e, he, rfl⟩ := List.mem_map.mp (hnames.mem_iff.mp List.mem_cons_self)
  have hnodup : (e.1 :: names).Nodup := hnames.nodup_iff.mpr h.names
  refine ⟨e, he, rfl, ?_⟩
  rw [List.perm_ext_iff_of_nodup (List.nodup_cons.mp hnodup).2 (h.drop e.1).names]
  intro name
  rw [List.mem_map]
  constructor
  · intro hname
    obtain ⟨d, hd, rfl⟩ := List.mem_map.mp (hnames.mem_iff.mp (List.mem_cons_of_mem _ hname))
    have hne : d ≠ e := fun heq => (List.nodup_cons.mp hnodup).1 (heq ▸ hname)
    exact ⟨d, (h.mem_drop he).mpr ⟨hd, hne⟩, rfl⟩
  · rintro ⟨d, hd, rfl⟩
    obtain ⟨hmem, hne⟩ := (h.mem_drop he).mp hd
    have hname : d.1 ∈ e.1 :: names := hnames.mem_iff.mpr (List.mem_map_of_mem hmem)
    rcases List.mem_cons.mp hname with heq | hname
    · have hsame : rules.same d.1 e.1 = true := by
        rw [heq]
        exact NameRules.same_refl _
      exact absurd ((h.same_iff hmem he).mp hsame) hne
    · exact hname

/-- The loop over the names that are there removes each, unless one was not filled. -/
theorem removeResidueFiles_ends (hH : ProbeHashes H) (names : List String)
    (h : Recorded rules entries) (hnames : names.Perm (entries.map Prod.fst)) :
    ((∀ e ∈ entries, ¬ halfWritten e) →
      (Program.each names (removeResidueFile H rules)).out (.directory entries) = .ok () ∧
      (Program.each names (removeResidueFile H rules)).final (.directory entries) =
        .directory []) ∧
    ((∃ e ∈ entries, halfWritten e) → ∃ failure,
      (Program.each names (removeResidueFile H rules)).out (.directory entries) =
        .error failure) := by
  induction names generalizing entries with
  | nil =>
    obtain rfl : entries = [] := by simpa using hnames
    exact ⟨fun _ => ⟨rfl, rfl⟩, fun hhalf => absurd hhalf (by simp)⟩
  | cons name names ih =>
    obtain ⟨e, he, rfl, hrest⟩ := h.drop_names hnames
    obtain ⟨hok, herror⟩ := ih (h.drop e.1) hrest
    rw [Program.each_cons]
    by_cases hhalf : halfWritten e
    · obtain ⟨hout, -⟩ := Program.bind_ends_of_error
        (f := fun _ => Program.each names (removeResidueFile H rules))
        (removeResidueFile_half hH h he hhalf)
      exact ⟨fun hall => absurd hhalf (hall e he), fun _ => ⟨_, hout⟩⟩
    · have hrun := removeResidueFile_filled (H := H) h he hhalf
      obtain ⟨hout, hfinal⟩ := Program.bind_ends_of_ok
        (f := fun _ => Program.each names (removeResidueFile H rules)) (congrArg Run.out hrun)
      rw [hout, hfinal, Program.final_of_run hrun]
      constructor
      · intro hall
        exact hok fun d hd => hall d ((h.mem_drop he).mp hd).1
      · rintro ⟨d, hd, hdhalf⟩
        have hne : d ≠ e := fun heq => hhalf (heq ▸ hdhalf)
        exact herror ⟨d, (h.mem_drop he).mpr ⟨hd, hne⟩, hdhalf⟩

theorem Recorded.known (h : Recorded rules entries) (H : Hasher) {name : String}
    (hname : name ∈ entries.map Prod.fst) : name ∈ (expectedContents H).map Prod.fst := by
  obtain ⟨e, he, rfl⟩ := List.mem_map.mp hname
  obtain ⟨contents, content, hlookup, -⟩ := entryRecorded_cases (h.files e he)
  rw [← lookup_isSome_iff_mem, lookup_expectedContents, hlookup]
  rfl

variable {journal : ProbeJournal}

theorem cleanupRecordedResidue_run (hjournal : journal.expectedFileHashes = expectedFiles H)
    (h : Recorded rules entries) :
    ∃ names : List String, names.Perm (entries.map Prod.fst) ∧
      (cleanupRecordedResidue H rules journal).run (.directory entries) =
        (Program.each names (removeResidueFile H rules) >>= fun _ => removeResidue).run
          (.directory entries) := by
  have hnames : (sortStrings (entries.map Prod.fst).dedup).Perm (entries.map Prod.fst) := by
    rw [h.names.dedup]
    exact List.perm_insertionSort _ _
  refine ⟨_, hnames, ?_⟩
  have hknown : (sortStrings (entries.map Prod.fst).dedup).filter
      (· ∉ (expectedContents H).map Prod.fst) = [] := by
    rw [List.filter_eq_nil_iff]
    intro name hname
    simpa using h.known H (hnames.mem_iff.mp hname)
  unfold cleanupRecordedResidue
  rw [Program.bind_of_pure (Program.read_run id _)]
  change (Program.lift _ >>= _).run _ = _
  rw [hjournal, expectedFiles_names, Program.bind_of_pure (Program.lift_run _ _)]
  dsimp only
  rw [hknown]
  rfl

variable (journal) in
theorem cleanupRecordedResidue_ends (hH : ProbeHashes H)
    (hjournal : journal.expectedFileHashes = expectedFiles H) {r : Residue}
    (h : r.Recorded rules) :
    (¬ r.HalfWritten → (cleanupRecordedResidue H rules journal).out r = .ok () ∧
      (cleanupRecordedResidue H rules journal).final r = .absent) ∧
    (r.HalfWritten → ∃ failure,
      (cleanupRecordedResidue H rules journal).out r = .error failure) := by
  cases r with
  | absent => exact ⟨fun _ => ⟨rfl, rfl⟩, fun ⟨e, he, _⟩ => absurd he List.not_mem_nil⟩
  | notDirectory => exact h.elim
  | directory entries =>
    obtain ⟨names, hnames, hrun⟩ := cleanupRecordedResidue_run hjournal h
    obtain ⟨hok, herror⟩ := removeResidueFiles_ends hH names h hnames
    rw [Program.out, Program.final, hrun]
    constructor
    · intro hfilled
      obtain ⟨hout, hfinal⟩ := hok fun e he hhalf => hfilled ⟨e, he, hhalf⟩
      obtain ⟨hout', hfinal'⟩ := Program.bind_ends_of_ok (f := fun _ => removeResidue) hout
      rw [hfinal] at hout' hfinal'
      exact ⟨hout', hfinal'⟩
    · intro hhalf
      obtain ⟨failure, hout⟩ := herror hhalf
      obtain ⟨hout', -⟩ := Program.bind_ends_of_error (f := fun _ => removeResidue) hout
      exact ⟨failure, hout'⟩

/-- Whatever is recorded stays so. -/
def StaysRecorded (rules : NameRules) (r r' : Residue) : Prop :=
  r.Recorded rules → r'.Recorded rules

instance : Std.Refl (StaysRecorded rules) := ⟨fun _ h => h⟩

instance : IsTrans Residue (StaysRecorded rules) := ⟨fun _ _ _ h h' hr => h' (h hr)⟩

theorem removeResidueFile_within (name : String) :
    Within (StaysRecorded rules) (removeResidueFile H rules name) := by
  refine (Within.inspect _).bind fun _ => Within.attempt _ ?_
  intro r r' hr h
  split at hr
  · cases r with
    | directory entries =>
      cases hr
      exact Recorded.drop h name
    | absent => cases hr
    | notDirectory => cases hr
  · cases hr

theorem removeResidue_within : Within (StaysRecorded rules) removeResidue := by
  refine Within.attempt _ ?_
  intro r r' hr h
  split at hr <;> cases hr
  trivial

theorem cleanupRecordedResidue_within (hjournal : journal.expectedFileHashes = expectedFiles H) :
    Within (StaysRecorded rules) (cleanupRecordedResidue H rules journal) := by
  intro r c hc h
  cases r with
  | absent => exact absurd hc List.not_mem_nil
  | notDirectory => exact h.elim
  | directory entries =>
    obtain ⟨names, -, hrun⟩ := cleanupRecordedResidue_run hjournal h
    rw [hrun] at hc
    have hwithin : Within (StaysRecorded rules)
        (Program.each names (removeResidueFile H rules) >>= fun _ => removeResidue) :=
      (Within.each names fun name _ => removeResidueFile_within name).bind
        fun _ => removeResidue_within
    exact hwithin _ c hc h

variable (rules journal) in
theorem cleanupRecordedResidue_triple (hH : ProbeHashes H)
    (hjournal : journal.expectedFileHashes = expectedFiles H) :
    Triple (Residue.Recorded rules) (cleanupRecordedResidue H rules journal)
      (Ends (fun _ r => r = .absent) (Residue.Recorded rules)) (Residue.Recorded rules) := by
  intro r h
  have hwithin : Within (StaysRecorded rules) (cleanupRecordedResidue H rules journal) :=
    cleanupRecordedResidue_within hjournal
  obtain ⟨hok, herror⟩ := cleanupRecordedResidue_ends journal hH hjournal h
  constructor
  · exact fun c hc => hwithin r c hc h
  · by_cases hhalf : r.HalfWritten
    · obtain ⟨failure, hout⟩ := herror hhalf
      rw [hout]
      exact hwithin.final r h
    · obtain ⟨hout, hfinal⟩ := hok hhalf
      rw [hout]
      exact hfinal

end Removal

/-! ### The transaction -/

/-- The journal belongs to the probe, and what is there is recorded in it. -/
structure ProbeInvariant (H : Hasher) (rules : NameRules) (probeId : String) (w : ProbeWorld) :
    Prop where
  journal : ∃ status evidence, w.journal = some ⟨probeId, status, expectedFiles H, evidence⟩ ∧
    (status = .complete → w.residue = .absent)
  residue : w.residue.Recorded rules

theorem onResidue_final {α : Type} (p : Program Residue Failure α) (w : ProbeWorld) :
    (onResidue p).final w = { w with residue := p.final w.residue } := by
  unfold Program.final onResidue Program.onPart
  rcases List.eq_nil_or_concat (p.run w.residue).trace with h | ⟨t, r, h⟩ <;> simp [h]

theorem onResidue_triple {α : Type} {p : Program Residue Failure α} {P C : Residue → Prop}
    {Q : Except Failure α → Residue → Prop} (h : Triple P p Q C) (journal : Option ProbeJournal) :
    Triple (fun w => w.journal = journal ∧ P w.residue) (onResidue p)
      (fun o w => w.journal = journal ∧ Q o w.residue)
      fun w => w.journal = journal ∧ C w.residue := by
  rintro w ⟨hjournal, hw⟩
  obtain ⟨hcrash, hend⟩ := h w.residue hw
  constructor
  · intro c hc
    obtain ⟨r, hr, rfl⟩ := List.mem_map.mp hc
    exact ⟨hjournal, hcrash r hr⟩
  · rw [onResidue_final]
    exact ⟨hjournal, hend⟩

theorem writeProbeJournal_triple {P Q : ProbeWorld → Prop} (journal : ProbeJournal)
    (h : ∀ w, P w → Q { w with journal := some journal }) :
    Triple P (writeProbeJournal journal) (Returns fun _ => Q) Q := by
  refine Triple.attempt _ ?_ ?_
  · rintro w w' hw hrun
    cases hrun
    exact ⟨h w hw, (), rfl, h w hw⟩
  · intro w e hw hrun
    cases hrun

section Transaction

variable {H : Hasher} {rules : NameRules} {probeId : String} {status : ProbeStatus}
  {evidence : Option ProbeEvidence} {w : ProbeWorld}

theorem ProbeInvariant.of_open (hopen : status ≠ .complete)
    (h : w.journal = some ⟨probeId, status, expectedFiles H, evidence⟩ ∧ w.residue.Recorded rules) :
    ProbeInvariant H rules probeId w :=
  ⟨⟨status, evidence, h.1, fun hcomplete => absurd hcomplete hopen⟩, h.2⟩

/-- Probing with a journal in place, and recording what was seen. -/
def completeProbe (H : Hasher) (rules : NameRules) (answers : ProbeAnswers)
    (journal : ProbeJournal) : Program ProbeWorld Failure ProbeJournal := do
  let evidence ← onResidue (runWriteProbe H rules answers journal.probeId)
  let journal := { journal with status := .complete, evidence := some evidence }
  writeProbeJournal journal
  return journal

theorem completeProbe_triple (answers : ProbeAnswers) (hopen : status ≠ .complete) :
    Triple (fun w => w.journal = some ⟨probeId, status, expectedFiles H, evidence⟩ ∧
        w.residue = .absent)
      (completeProbe H rules answers ⟨probeId, status, expectedFiles H, evidence⟩)
      (fun _ => ProbeInvariant H rules probeId) (ProbeInvariant H rules probeId) := by
  have hprobe := (onResidue_triple (runWriteProbe_triple H rules answers probeId)
    (some ⟨probeId, status, expectedFiles H, evidence⟩)).crash
      fun w hw => ProbeInvariant.of_open hopen hw
  refine hprobe.bind (fun seen => ?_) ?_
  · have hwrite := writeProbeJournal_triple
      (P := fun w => w.journal = some ⟨probeId, status, expectedFiles H, evidence⟩ ∧
        w.residue = .absent) (Q := ProbeInvariant H rules probeId)
      ⟨probeId, .complete, expectedFiles H, some seen⟩ ?_
    · refine hwrite.bind_returns fun _ => ?_
      exact (Triple.pure (R := fun _ => ProbeInvariant H rules probeId) _).post
        fun o w h => h.elim fun _ h => h.2
    · intro w hw
      refine ⟨⟨.complete, some seen, rfl, fun _ => hw.2⟩, ?_⟩
      rw [hw.2]
      trivial
  · intro e w hw
    refine ProbeInvariant.of_open hopen ⟨hw.1, ?_⟩
    rw [hw.2]
    trivial

/-- The worlds a probe can be left in by a crash, and by crashes of its recoveries. -/
inductive ProbeReached (H : Hasher) (rules : NameRules) (probeId : String) : ProbeWorld → Prop
  | ran (answers : ProbeAnswers) {w : ProbeWorld}
      (h : w ∈ ((runStandaloneProbe H rules answers probeId).run ⟨none, .absent⟩).trace) :
      ProbeReached H rules probeId w
  | recovered {w : ProbeWorld} (hw : ProbeReached H rules probeId w) (answers : ProbeAnswers)
      (action : String) {w' : ProbeWorld}
      (h : w' ∈ (recoverStandaloneProbe H rules answers probeId action).states w) :
      ProbeReached H rules probeId w'

theorem runStandaloneProbe_triple (answers : ProbeAnswers) :
    Triple (· = ⟨none, .absent⟩) (runStandaloneProbe H rules answers probeId)
      (fun _ => ProbeInvariant H rules probeId) (ProbeInvariant H rules probeId) := by
  have hopen : ProbeStatus.prepared ≠ .complete := by decide
  have hprepared : ∀ w : ProbeWorld,
      w.journal = some ⟨probeId, .prepared, expectedFiles H, none⟩ ∧ w.residue = .absent →
      ProbeInvariant H rules probeId w := by
    intro w hw
    refine ProbeInvariant.of_open hopen ⟨hw.1, ?_⟩
    rw [hw.2]
    trivial
  have hwrite := (writeProbeJournal_triple (P := (· = (⟨none, .absent⟩ : ProbeWorld)))
    (Q := fun w => w.journal = some ⟨probeId, .prepared, expectedFiles H, none⟩ ∧
      w.residue = .absent) ⟨probeId, .prepared, expectedFiles H, none⟩
    (by rintro w rfl; exact ⟨rfl, rfl⟩)).crash hprepared
  exact hwrite.bind_returns fun _ => completeProbe_triple answers hopen

theorem loadProbeJournal_of_invariant (hid : isUuid probeId = true)
    (hjournal : w.journal = some ⟨probeId, status, expectedFiles H, evidence⟩) :
    loadProbeJournal H probeId w = .ok ⟨probeId, status, expectedFiles H, evidence⟩ := by
  have hidentity : checkProbeIdentity probeId = .ok () := by
    rw [checkProbeIdentity, of_decide_eq_true hid]
    exact (check_eq_ok (u := ())).mpr (decide_eq_true rfl)
  unfold loadProbeJournal
  rw [hidentity, hjournal]
  change (check (decide (probeId = probeId ∧ expectedFiles H = expectedFiles H)) _ >>= _) = _
  rw [(check_eq_ok (u := ())).mpr (decide_eq_true ⟨rfl, rfl⟩)]
  rfl

/-- What recovery does once it holds the journal of a probe that did not complete. -/
def recoverOpen (H : Hasher) (rules : NameRules) (answers : ProbeAnswers) (action : ProbeAction)
    (journal : ProbeJournal) : Program ProbeWorld Failure ProbeJournal := do
  onResidue (cleanupRecordedResidue H rules journal)
  if action = .rollback then
    let journal := { journal with status := .rolledBack }
    writeProbeJournal journal
    return journal
  else completeProbe H rules answers journal

variable (rules) in
theorem recoverStandaloneProbe_run (hid : isUuid probeId = true) (answers : ProbeAnswers)
    {action : String} {known : ProbeAction} (haction : probeAction? action = some known)
    (hjournal : w.journal = some ⟨probeId, status, expectedFiles H, evidence⟩) :
    (recoverStandaloneProbe H rules answers probeId action).run w =
      if status = .complete then
        if known = .rollback then
          ⟨[], .error (recoveryRequired "completed standalone probe cannot be rolled back" [])⟩
        else ⟨[], .ok ⟨probeId, status, expectedFiles H, evidence⟩⟩
      else (recoverOpen H rules answers known
        ⟨probeId, status, expectedFiles H, evidence⟩).run w := by
  unfold recoverStandaloneProbe
  have hinspect : (Program.inspect (loadProbeJournal H probeId)).run w =
      ⟨[], .ok ⟨probeId, status, expectedFiles H, evidence⟩⟩ := by
    rw [Program.inspect_run, loadProbeJournal_of_invariant hid hjournal]
  have hknown : (Program.lift (require (probeAction? action)
      (recoveryRequired "standalone probe recovery action is invalid" []))).run w =
      ⟨[], .ok known⟩ := by
    rw [haction]
    rfl
  rw [Program.bind_of_pure hknown, Program.bind_of_pure hinspect]
  by_cases hcomplete : status = .complete
  · rw [if_pos hcomplete, if_pos hcomplete]
    split <;> rfl
  · rw [if_neg hcomplete, if_neg hcomplete]
    rfl

theorem recoverOpen_triple (hH : ProbeHashes H) (answers : ProbeAnswers) (action : ProbeAction)
    (hopen : status ≠ .complete) :
    Triple (fun w => w.journal = some ⟨probeId, status, expectedFiles H, evidence⟩ ∧
        w.residue.Recorded rules)
      (recoverOpen H rules answers action ⟨probeId, status, expectedFiles H, evidence⟩)
      (fun _ => ProbeInvariant H rules probeId) (ProbeInvariant H rules probeId) := by
  have hcleanup := (onResidue_triple (cleanupRecordedResidue_triple rules
    ⟨probeId, status, expectedFiles H, evidence⟩ hH rfl)
    (some ⟨probeId, status, expectedFiles H, evidence⟩)).crash
      fun w hw => ProbeInvariant.of_open hopen hw
  refine hcleanup.bind (fun _ => ?_) fun e w hw => ProbeInvariant.of_open hopen hw
  cases action with
  | resume => exact completeProbe_triple answers hopen
  | rollback =>
    have hwrite := writeProbeJournal_triple
      (P := fun w => w.journal = some ⟨probeId, status, expectedFiles H, evidence⟩ ∧
        w.residue = .absent) (Q := ProbeInvariant H rules probeId)
      ⟨probeId, .rolledBack, expectedFiles H, evidence⟩ ?_
    · refine hwrite.bind_returns fun _ => ?_
      exact (Triple.pure (R := fun _ => ProbeInvariant H rules probeId) _).post
        fun o w h => h.elim fun _ h => h.2
    · intro w hw
      have hundone : ProbeStatus.rolledBack ≠ .complete := by decide
      refine ProbeInvariant.of_open hundone ⟨rfl, ?_⟩
      change w.residue.Recorded rules
      rw [hw.2]
      trivial

variable (probeId status evidence) in
theorem recoverOpen_rollback (hH : ProbeHashes H) (answers : ProbeAnswers)
    (hrecorded : w.residue.Recorded rules) :
    (¬ w.residue.HalfWritten →
      (recoverOpen H rules answers .rollback
        ⟨probeId, status, expectedFiles H, evidence⟩).out w =
          .ok ⟨probeId, .rolledBack, expectedFiles H, evidence⟩ ∧
      (recoverOpen H rules answers .rollback
        ⟨probeId, status, expectedFiles H, evidence⟩).final w =
          ⟨some ⟨probeId, .rolledBack, expectedFiles H, evidence⟩, .absent⟩) ∧
    (w.residue.HalfWritten → ∃ failure,
      (recoverOpen H rules answers .rollback
        ⟨probeId, status, expectedFiles H, evidence⟩).out w = .error failure) := by
  obtain ⟨hok, herror⟩ := cleanupRecordedResidue_ends
    ⟨probeId, status, expectedFiles H, evidence⟩ hH rfl hrecorded
  constructor
  · intro hfilled
    obtain ⟨hout, hfinal⟩ := hok hfilled
    have hremoved : (onResidue (cleanupRecordedResidue H rules
        ⟨probeId, status, expectedFiles H, evidence⟩)).out w = .ok () := hout
    obtain ⟨hout', hfinal'⟩ := Program.bind_ends_of_ok (f := fun _ => do
      writeProbeJournal ⟨probeId, .rolledBack, expectedFiles H, evidence⟩
      return (⟨probeId, .rolledBack, expectedFiles H, evidence⟩ : ProbeJournal)) hremoved
    rw [onResidue_final, hfinal] at hout' hfinal'
    exact ⟨hout', hfinal'⟩
  · intro hhalf
    obtain ⟨failure, hout⟩ := herror hhalf
    have hraised : (onResidue (cleanupRecordedResidue H rules
        ⟨probeId, status, expectedFiles H, evidence⟩)).out w = .error failure := hout
    exact ⟨failure, (Program.bind_ends_of_error hraised).1⟩

theorem recoverStandaloneProbe_invariant (hH : ProbeHashes H) (hid : isUuid probeId = true)
    (answers : ProbeAnswers) (action : String) (h : ProbeInvariant H rules probeId w) {w' : ProbeWorld}
    (hw' : w' ∈ (recoverStandaloneProbe H rules answers probeId action).states w) :
    ProbeInvariant H rules probeId w' := by
  rcases Program.mem_states.mp hw' with rfl | hw'
  · exact h
  · obtain ⟨status, evidence, hjournal, -⟩ := h.journal
    cases haction : probeAction? action with
    | none =>
      have hfail : (Program.lift (require (probeAction? action)
          (recoveryRequired "standalone probe recovery action is invalid" []))).run w =
          ⟨[], .error (recoveryRequired "standalone probe recovery action is invalid" [])⟩ := by
        rw [haction]
        rfl
      unfold recoverStandaloneProbe at hw'
      rw [Program.bind_of_error hfail] at hw'
      exact absurd hw' List.not_mem_nil
    | some known =>
      rw [recoverStandaloneProbe_run rules hid answers haction hjournal] at hw'
      split at hw'
      · split at hw' <;> exact absurd hw' List.not_mem_nil
      case isFalse hopen =>
        exact (recoverOpen_triple hH answers known hopen w ⟨hjournal, h.residue⟩).1 w' hw'

theorem ProbeReached.invariant (hH : ProbeHashes H) (hid : isUuid probeId = true)
    (h : ProbeReached H rules probeId w) : ProbeInvariant H rules probeId w := by
  induction h with
  | ran answers h => exact (runStandaloneProbe_triple answers _ rfl).1 _ h
  | recovered hw answers action h ih =>
    exact recoverStandaloneProbe_invariant hH hid answers action ih h

end Transaction

/-- The journal says that the probe is done; its directory is gone by then. -/
def ProbeWorld.Completed (w : ProbeWorld) : Prop :=
  ∃ journal, w.journal = some journal ∧ journal.status = .complete

/-- From wherever a crash left a probe, or a recovery of one, rolling back removes the directory
and records it exactly when the probe had not completed and left no file half written. -/
theorem probe_rollback_iff {H : Hasher} (hH : ProbeHashes H) {rules : NameRules} {probeId : String}
    (hid : isUuid probeId = true) {w : ProbeWorld} (hw : ProbeReached H rules probeId w)
    (answers : ProbeAnswers) :
    (∃ journal : ProbeJournal,
      (recoverStandaloneProbe H rules answers probeId "rollback").out w = .ok journal ∧
      journal.status = .rolledBack ∧
      (recoverStandaloneProbe H rules answers probeId "rollback").final w =
        ⟨some journal, .absent⟩) ↔
      ¬ w.Completed ∧ ¬ w.residue.HalfWritten := by
  have hinv := hw.invariant hH hid
  obtain ⟨status, evidence, hjournal, -⟩ := hinv.journal
  have hknown : probeAction? "rollback" = some .rollback := rfl
  have hrun := recoverStandaloneProbe_run rules hid answers hknown hjournal
  rw [Program.out, Program.final, hrun]
  by_cases hcomplete : status = .complete
  · rw [if_pos hcomplete, if_pos rfl]
    constructor
    · rintro ⟨journal, hout, -⟩
      cases hout
    · intro h
      exact absurd ⟨_, hjournal, hcomplete⟩ h.1
  · rw [if_neg hcomplete]
    have hopen : ¬ w.Completed := by
      rintro ⟨journal, hfound, hstatus⟩
      rw [hjournal] at hfound
      cases hfound
      exact hcomplete hstatus
    obtain ⟨hok, herror⟩ := recoverOpen_rollback probeId status evidence hH answers
      hinv.residue
    constructor
    · rintro ⟨journal, hout, -⟩
      refine ⟨hopen, fun hhalf => ?_⟩
      obtain ⟨failure, hfail⟩ := herror hhalf
      rw [Program.out] at hfail
      rw [hfail] at hout
      cases hout
    · rintro ⟨-, hfilled⟩
      obtain ⟨hout, hfinal⟩ := hok hfilled
      exact ⟨⟨probeId, .rolledBack, expectedFiles H, evidence⟩, hout, rfl, hfinal⟩

/-! ### A crash between creating a file and filling it -/

def sampleProbeHasher : Hasher where
  toTextEncoding := sampleTextEncoding
  sha256 content :=
    if content = [] then "e3b0c44298fc1c149afbf4c8996fb92427ae41e4649b934ca495991b7852b855"
    else if content = utf8Bytes "original" then
      "0682c5f2076f099c34cfdd15a9e063849ed437a49677e6fcc5b4198c76575be5"
    else if content = utf8Bytes "candidate" then
      "dda18a0e21ae47c53b4309434cbc02ae8bf764fa83a6defbb719431242722aa7"
    else if content = utf8Bytes "first" then
      "a7937b64b8caa58f03721bb6bacf5c78cb235febe0e70b1b84cd99541461a08e"
    else "16367aacb67a4a017c8da8ab95682ccb390863780f7114dda0a0e0c55644c7c4"
  sha256_isDigest content := by
    split_ifs <;> decide

def sampleProbeId : String := "11111111-1111-4111-8111-111111111111"

def sampleAnswers : ProbeAnswers := ⟨true, "ext4", true, true, true⟩

/-- A probe stopped after `original` was created and not yet filled, or before it was. -/
def sampleCut (created : Bool) : ProbeWorld :=
  ⟨some ⟨sampleProbeId, .prepared, expectedFiles sampleProbeHasher, none⟩,
    .directory (lockFile :: if created then [originalFile []] else [])⟩

theorem sampleProbeHashes : ProbeHashes sampleProbeHasher := by
  unfold ProbeHashes
  decide

theorem sampleCut_reached (rules : NameRules) (created : Bool) :
    ProbeReached sampleProbeHasher rules sampleProbeId (sampleCut created) := by
  have hall : ∀ c u b, sampleCut b ∈ ((runStandaloneProbe sampleProbeHasher ⟨c, u⟩ sampleAnswers
      sampleProbeId).run ⟨none, .absent⟩).trace := by
    decide
  obtain ⟨c, u⟩ := rules
  exact .ran sampleAnswers (hall c u created)

theorem sampleCut_halfWritten : (sampleCut true).residue.HalfWritten :=
  ⟨originalFile [], by decide, by decide, rfl⟩

theorem sampleCut_open (created : Bool) : ¬ (sampleCut created).Completed := by
  rintro ⟨journal, hfound, hstatus⟩
  cases hfound
  cases hstatus

theorem probe_rollback_iff_sample : ∃ journal : ProbeJournal,
    (recoverStandaloneProbe sampleProbeHasher ⟨false, false⟩ sampleAnswers sampleProbeId
      "rollback").out (sampleCut false) = .ok journal ∧ journal.status = .rolledBack ∧
    (recoverStandaloneProbe sampleProbeHasher ⟨false, false⟩ sampleAnswers sampleProbeId
      "rollback").final (sampleCut false) = ⟨some journal, .absent⟩ := by
  have hwhole : ¬ (sampleCut false).residue.HalfWritten := by
    rintro ⟨e, he, hhalf⟩
    obtain rfl := List.mem_singleton.mp he
    exact hhalf.1 rfl
  exact (probe_rollback_iff sampleProbeHashes (by decide) (sampleCut_reached ⟨false, false⟩ false)
    sampleAnswers).mpr ⟨sampleCut_open false, hwhole⟩

theorem probe_rollback_stuck : ¬ ∀ (H : Hasher) (rules : NameRules) (answers : ProbeAnswers)
    (probeId : String) (w : ProbeWorld), ProbeHashes H → isUuid probeId = true →
    ProbeReached H rules probeId w → ¬ w.Completed → ∃ journal,
      (recoverStandaloneProbe H rules answers probeId "rollback").out w = .ok journal := by
  intro hall
  obtain ⟨journal, hout⟩ := hall sampleProbeHasher ⟨false, false⟩ sampleAnswers sampleProbeId
    (sampleCut true) sampleProbeHashes (by decide) (sampleCut_reached ⟨false, false⟩ true)
    (sampleCut_open true)
  have hknown : probeAction? "rollback" = some .rollback := rfl
  have hjournal : (sampleCut true).journal = some
      ⟨sampleProbeId, .prepared, expectedFiles sampleProbeHasher, none⟩ := rfl
  have hrecorded : (sampleCut true).residue.Recorded ⟨false, false⟩ := by
    change Recorded _ _
    decide
  have hrun := recoverStandaloneProbe_run ⟨false, false⟩ (by decide) sampleAnswers hknown
    hjournal
  obtain ⟨-, herror⟩ := recoverOpen_rollback sampleProbeId .prepared none sampleProbeHashes
    sampleAnswers hrecorded
  obtain ⟨failure, hfail⟩ := herror sampleCut_halfWritten
  have hraised := (congrArg Run.out hrun).trans hfail
  rw [Program.out] at hout
  rw [hraised] at hout
  cases hout

end AgentStack.Reconcile
