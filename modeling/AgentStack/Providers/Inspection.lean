import AgentStack.Core.Paths
import AgentStack.KeyedList.Basic
import AgentStack.Providers.Archive

/-! What a successful inspection says about the entries of an archive, and that the second pass
finds the payload of each under its path. -/
namespace AgentStack.Providers

open AgentStack.Core FileTree JsonText JsonValue KeyedList

variable {H : Hasher} {host : ArchiveHost} {policy : ArchivePolicy}

/-- What `normalize_path` gives for a path that it gave. -/
def NormalPath (H : Hasher) (path : Path) : Prop := normalizePath H.nfc (joinPath path) = .ok path

theorem NormalPath.nfc {path : Path} (h : NormalPath H path) :
    H.nfc (joinPath path) = joinPath path := by
  have hsegments := normalizePath_eq_ok h
  rw [← joinPath_segments (H.nfc (joinPath path)), ← hsegments]

theorem NormalPath.injective {p q : Path} (hp : NormalPath H p) (hq : NormalPath H q)
    (h : joinPath p = joinPath q) : p = q := by
  unfold NormalPath at hp hq
  rw [h, hq] at hp
  exact (Except.ok.inj hp).symm

theorem memberPath_eq_ok {raw : String} {path : Path} (h : memberPath H.nfc raw = .ok path) :
    NormalPath H path ∧ path ≠ [] := by
  unfold memberPath at h
  dsimp only at h
  generalize (if raw.toList.getLast? = some '/' then raw.toList.dropLast else raw.toList) = cs at h
  split_ifs at h
  have hpath : normalizePath H.nfc (String.ofList cs) = .ok path := by
    cases hnormal : normalizePath H.nfc (String.ofList cs) with
    | ok p =>
      rw [hnormal] at h
      exact h
    | error e =>
      rw [hnormal] at h
      cases h
  refine ⟨normalizePath_joinPath H.nfc_nfc hpath, ?_⟩
  rw [normalizePath_eq_ok hpath, segments, charsOf_eq]
  simpa using splitChars_ne_nil '/' (H.nfc (String.ofList cs)).toList

theorem ZipInfo.member_path {info : ZipInfo} {member : ArchiveMember}
    (h : info.member H policy = .ok member) :
    memberPath H.nfc info.filename = .ok member.normalizedPath := by
  obtain ⟨path, hpath, h⟩ := bind_eq_ok h
  obtain ⟨_, -, h⟩ := bind_eq_ok h
  obtain ⟨_, -, h⟩ := bind_eq_ok h
  obtain ⟨_, -, h⟩ := bind_eq_ok h
  cases h
  exact hpath

theorem TarInfo.member_path {info : TarInfo} {member : ArchiveMember}
    (h : info.member H policy = .ok member) :
    memberPath H.nfc info.name = .ok member.normalizedPath := by
  obtain ⟨_, -, h⟩ := bind_eq_ok h
  obtain ⟨path, hpath, h⟩ := bind_eq_ok h
  obtain ⟨_, -, h⟩ := bind_eq_ok h
  cases h
  exact hpath

/-- The entries of an archive: what inspection makes of each, and what reading it gives. -/
def archiveListing (H : Hasher) (policy : ArchivePolicy) (file : ArchiveFile) :
    List (Except Failure ArchiveMember × Except Failure Bytes) :=
  if file.isZip then
    (file.zipInfos.getD []).map fun info => (info.member H policy, info.payload)
  else (file.tarInfos.getD []).map fun info => (info.member H policy, tarPayload info)

/-- Both passes over the entries of an archive, where the first accepts all of them. -/
structure Listed (H : Hasher) (policy : ArchivePolicy) (file : ArchiveFile)
    (archiveFormat : String) (infos : List (ArchiveMember × Except Failure Bytes)) : Prop where
  first : archiveListing H policy file = infos.map fun i => (.ok i.1, i.2)
  second : payloads H.nfc (archiveEntries archiveFormat file) =
    .ok (infos.map fun i => (i.1.normalizedPath, i.2))
  normal : ∀ i ∈ infos, NormalPath H i.1.normalizedPath ∧ i.1.normalizedPath ≠ []

/-- The two passes agree entry by entry. -/
theorem listed_of_mapM {ι : Type} {name : ι → String} {member : ι → Except Failure ArchiveMember}
    (payload : ι → Except Failure Bytes)
    (hpath : ∀ i m, member i = .ok m → memberPath H.nfc (name i) = .ok m.normalizedPath)
    {l : List ι} {members : List ArchiveMember} (h : l.mapM member = .ok members) :
    ∃ infos : List (ArchiveMember × Except Failure Bytes), infos.map Prod.fst = members ∧
      (l.map fun i => (member i, payload i)) = infos.map (fun i => (.ok i.1, i.2)) ∧
      payloads H.nfc (l.map fun i => (name i, payload i)) =
        .ok (infos.map fun i => (i.1.normalizedPath, i.2)) ∧
      ∀ i ∈ infos, NormalPath H i.1.normalizedPath ∧ i.1.normalizedPath ≠ [] := by
  have hall := mapM_eq_ok.mp h
  clear h
  induction hall with
  | nil => exact ⟨[], rfl, rfl, rfl, fun i hi => absurd hi List.not_mem_nil⟩
  | @cons i m l members hm _ ih =>
    obtain ⟨infos, hmembers, hfirst, hsecond, hnormal⟩ := ih
    have hname := hpath i m hm
    refine ⟨(m, payload i) :: infos, ?_, ?_, ?_, ?_⟩
    · rw [List.map_cons, hmembers]
    · rw [List.map_cons, List.map_cons, hfirst, hm]
    · unfold payloads at hsecond ⊢
      rw [List.map_cons, List.mapM_cons, hsecond, hname]
      rfl
    · rw [List.forall_mem_cons]
      exact ⟨memberPath_eq_ok hname, hnormal⟩

theorem archiveMembers_eq_ok {file : ArchiveFile} {archiveFormat : String}
    {members : List ArchiveMember} {compressed : Nat}
    (h : archiveMembers H policy file = .ok (archiveFormat, members, compressed)) :
    ∃ infos, infos.map Prod.fst = members ∧ Listed H policy file archiveFormat infos := by
  unfold archiveMembers at h
  split_ifs at h with hzip htar
  · cases hmembers : zipMembers H policy file with
    | error e =>
      rw [hmembers] at h
      cases h
    | ok r =>
      rw [hmembers] at h
      obtain ⟨infos, hinfos, hread⟩ := bind_eq_ok hmembers
      obtain ⟨members', hmapM, hr⟩ := bind_eq_ok hread
      cases hr
      cases h
      rw [require_eq_ok] at hinfos
      obtain ⟨listed, hlisted, hfirst, hsecond, hnormal⟩ := listed_of_mapM
        ZipInfo.payload (fun i m => ZipInfo.member_path) hmapM
      refine ⟨listed, hlisted, ?_, ?_, hnormal⟩
      · rw [archiveListing, if_pos hzip, hinfos]
        exact hfirst
      · rw [archiveEntries, if_pos rfl, hinfos]
        exact hsecond
  · cases hmembers : tarMembers H policy file with
    | error e =>
      rw [hmembers] at h
      cases h
    | ok r =>
      rw [hmembers] at h
      obtain ⟨infos, hinfos, hread⟩ := bind_eq_ok hmembers
      obtain ⟨members', hmapM, hr⟩ := bind_eq_ok hread
      cases hr
      cases h
      rw [require_eq_ok] at hinfos
      obtain ⟨listed, hlisted, hfirst, hsecond, hnormal⟩ := listed_of_mapM
        tarPayload (fun i m => TarInfo.member_path) hmapM
      refine ⟨listed, hlisted, ?_, ?_, hnormal⟩
      · rw [archiveListing, if_neg hzip, hinfos]
        exact hfirst
      · rw [archiveEntries, if_neg (by decide), hinfos]
        exact hsecond

/-- No two members have one path. -/
theorem checkMembers_distinct {seen : List (String × String)} {members : List ArchiveMember}
    {expanded : Nat} (h : checkMembers host policy seen members = .ok expanded) :
    (∀ member ∈ members,
      seen.lookup (host.casefold (joinPath member.normalizedPath)) = none) ∧
      (members.map fun member => host.casefold (joinPath member.normalizedPath)).Nodup := by
  induction members generalizing seen expanded with
  | nil => exact ⟨fun member hm => absurd hm List.not_mem_nil, List.nodup_nil⟩
  | cons member members ih =>
    unfold checkMembers at h
    dsimp only at h
    split at h
    next => cases h
    next hnew =>
      obtain ⟨_, -, h⟩ := bind_eq_ok h
      obtain ⟨_, -, h⟩ := bind_eq_ok h
      obtain ⟨rest, hrest, -⟩ := bind_eq_ok h
      obtain ⟨hseen, hnodup⟩ := ih hrest
      have hother : ∀ m ∈ members, host.casefold (joinPath m.normalizedPath) ≠
          host.casefold (joinPath member.normalizedPath) ∧
          seen.lookup (host.casefold (joinPath m.normalizedPath)) = none := by
        intro m hm
        have hlookup := hseen m hm
        rw [List.lookup_cons] at hlookup
        split at hlookup
        case h_1 => cases hlookup
        case h_2 hne => exact ⟨by simpa using hne, hlookup⟩
      constructor
      · rw [List.forall_mem_cons]
        exact ⟨hnew, fun m hm => (hother m hm).2⟩
      · rw [List.map_cons, List.nodup_cons]
        refine ⟨?_, hnodup⟩
        intro hmem
        obtain ⟨m, hm, heq⟩ := List.mem_map.mp hmem
        exact (hother m hm).1 heq

/-- What a successful inspection says. -/
theorem inspectMembers_eq_ok {file : ArchiveFile} {expectedSha256 : String}
    {policyDocument : Members} {inspection : ArchiveInspection} {members : List ArchiveMember}
    (h : inspectMembers H host file expectedSha256 policyDocument = .ok (inspection, members)) :
    ∃ policy infos, parsePolicy policyDocument = .ok policy ∧
      Listed H policy file inspection.archiveFormat infos ∧
      (infos.map fun i => i.1.normalizedPath).Nodup ∧
      members = orderMembers (infos.map Prod.fst) := by
  obtain ⟨_, -, h⟩ := bind_eq_ok h
  obtain ⟨policy, hpolicy, h⟩ := bind_eq_ok h
  obtain ⟨⟨archiveFormat, found, compressed⟩, hmembers, h⟩ := bind_eq_ok h
  obtain ⟨_, -, h⟩ := bind_eq_ok h
  obtain ⟨_, hvalid, h⟩ := bind_eq_ok h
  obtain ⟨_, -, h⟩ := bind_eq_ok h
  cases h
  obtain ⟨infos, rfl, hlisted⟩ := archiveMembers_eq_ok hmembers
  obtain ⟨_, -, hvalid⟩ := bind_eq_ok hvalid
  obtain ⟨expanded, hchecked, -⟩ := bind_eq_ok hvalid
  have hdistinct := (checkMembers_distinct hchecked).2
  refine ⟨policy, infos, hpolicy, hlisted, ?_, rfl⟩
  rw [List.map_map] at hdistinct
  refine List.Nodup.of_map (fun path => host.casefold (joinPath path)) ?_
  rw [List.map_map]
  exact hdistinct

/-- The second pass finds the payload of a member under its path. -/
theorem payloadAt_of_mem {infos : List (ArchiveMember × Except Failure Bytes)}
    (hdistinct : (infos.map fun i => i.1.normalizedPath).Nodup)
    {i : ArchiveMember × Except Failure Bytes} (hi : i ∈ infos) :
    payloadAt (infos.map fun i => (i.1.normalizedPath, i.2)) i.1.normalizedPath = i.2 := by
  have hkeys : ((infos.map fun i => (i.1.normalizedPath, i.2)).reverse.map Prod.fst).Nodup := by
    rw [List.map_reverse, List.nodup_reverse, List.map_map]
    exact hdistinct
  have hlookup : (infos.map fun i => (i.1.normalizedPath, i.2)).reverse.lookup
      i.1.normalizedPath = some i.2 := by
    rw [lookup_eq_some hkeys, List.mem_reverse]
    exact List.mem_map.mpr ⟨i, hi, rfl⟩
  unfold payloadAt
  rw [hlookup]
  rfl

end AgentStack.Providers
