import AgentStack.Providers.Extraction

/-! When `extract_verified_archive` succeeds, and what it leaves behind either way. -/
namespace AgentStack.Providers

open AgentStack.Core Crash FileTree FileTree.DirTree JsonText JsonValue KeyedList

variable {H : Hasher} {host : ArchiveHost} {file : ArchiveFile} {sha : String}
  {policyDocument : Members} {d : Path} {s t : DirTree Bytes} {inspection : ArchiveInspection}
  {members : List ArchiveMember} {byPath : List (Path × Except Failure Bytes)}

/-! ### What an archive contains -/

/-- A member with the bytes that its entry in the archive holds. -/
def contentOf (byPath : List (Path × Except Failure Bytes)) (member : ArchiveMember) :
    ArchiveMember × Bytes :=
  (member, ((memberChunks byPath member).toOption.getD []).flatten)

/-- The members of an archive with the bytes of the regular ones, in the order of their paths. -/
structure ArchiveContents (H : Hasher) (policyDocument : Members) (file : ArchiveFile)
    (contents : List (ArchiveMember × Bytes)) : Prop where
  listed : ∃ policy found, parsePolicy policyDocument = .ok policy ∧
    List.Forall₂ (fun entry content => entry.1 = .ok content.1 ∧
      if content.1.isDirectory then content.2 = [] else entry.2 = .ok content.2)
      (archiveListing H policy file) found ∧ contents.Perm found
  ordered : contents.Pairwise fun a b =>
    joinPath a.1.normalizedPath ≤ joinPath b.1.normalizedPath

theorem memberChunks_regular {member : ArchiveMember} (hregular : member.isDirectory = false) :
    memberChunks byPath member = (payloadAt byPath member.normalizedPath).map fun data => [data] := by
  unfold memberChunks
  rw [if_neg (by rw [hregular]; exact Bool.false_ne_true)]

theorem memberChunks_eq_ok {member : ArchiveMember} (hregular : member.isDirectory = false)
    {chunks : List Bytes} (h : memberChunks byPath member = .ok chunks) :
    ∃ data, payloadAt byPath member.normalizedPath = .ok data ∧ chunks = [data] := by
  rw [memberChunks_regular hregular] at h
  cases hdata : payloadAt byPath member.normalizedPath with
  | error e =>
    rw [hdata] at h
    cases h
  | ok data =>
    rw [hdata] at h
    cases h
    exact ⟨data, rfl, rfl⟩

theorem contentOf_regular {member : ArchiveMember} (hregular : member.isDirectory = false)
    {data : Bytes} (hdata : payloadAt byPath member.normalizedPath = .ok data) :
    contentOf byPath member = (member, data) := by
  unfold contentOf
  rw [memberChunks_regular hregular, hdata]
  change (member, List.flatten [data]) = _
  rw [List.flatten_singleton]

theorem contentOf_directory {member : ArchiveMember} (hdir : member.isDirectory = true) :
    contentOf byPath member = (member, []) := by
  unfold contentOf memberChunks
  rw [if_pos hdir]
  rfl

theorem orderMembers_perm (members : List ArchiveMember) :
    (orderMembers members).Perm members := List.perm_insertionSort _ _

theorem orderMembers_ordered (members : List ArchiveMember) :
    (orderMembers members).Pairwise fun a b =>
      joinPath a.normalizedPath ≤ joinPath b.normalizedPath := by
  have htotal : Std.Total fun a b : ArchiveMember =>
    joinPath a.normalizedPath ≤ joinPath b.normalizedPath := ⟨fun a b => le_total _ _⟩
  have htrans : IsTrans ArchiveMember fun a b : ArchiveMember =>
    joinPath a.normalizedPath ≤ joinPath b.normalizedPath := ⟨fun a b c => le_trans⟩
  exact List.pairwise_insertionSort _ _

/-- What the two passes found, once the payloads are known. -/
structure Found (H : Hasher) (policyDocument : Members) (file : ArchiveFile)
    (members : List ArchiveMember) (byPath : List (Path × Except Failure Bytes))
    (policy : ArchivePolicy) (infos : List (ArchiveMember × Except Failure Bytes)) : Prop where
  parsed : parsePolicy policyDocument = .ok policy
  listing : archiveListing H policy file = infos.map fun i => (.ok i.1, i.2)
  ordered : members = orderMembers (infos.map Prod.fst)
  second : byPath = infos.map fun i => (i.1.normalizedPath, i.2)
  distinct : (infos.map fun i => i.1.normalizedPath).Nodup
  normal : ∀ i ∈ infos, NormalPath H i.1.normalizedPath ∧ i.1.normalizedPath ≠ []

theorem inspectMembers_found
    (h : inspectMembers H host file sha policyDocument = .ok (inspection, members)) :
    ∃ byPath, payloads H.nfc (archiveEntries inspection.archiveFormat file) = .ok byPath ∧
      ∃ policy infos, Found H policyDocument file members byPath policy infos := by
  obtain ⟨policy, infos, hpolicy, hlisted, hdistinct, hmembers⟩ := inspectMembers_eq_ok h
  refine ⟨_, hlisted.second, policy, infos, ?_⟩
  exact ⟨hpolicy, hlisted.first, hmembers, rfl, hdistinct, hlisted.normal⟩

section

variable {policy : ArchivePolicy} {infos : List (ArchiveMember × Except Failure Bytes)}

theorem Found.mem (h : Found H policyDocument file members byPath policy infos)
    {member : ArchiveMember} : member ∈ members ↔ ∃ i ∈ infos, i.1 = member := by
  rw [h.ordered, (orderMembers_perm _).mem_iff, List.mem_map]

theorem Found.payload (h : Found H policyDocument file members byPath policy infos)
    {i : ArchiveMember × Except Failure Bytes} (hi : i ∈ infos) :
    payloadAt byPath i.1.normalizedPath = i.2 := by
  rw [h.second]
  exact payloadAt_of_mem h.distinct hi

theorem Found.paths_nodup (h : Found H policyDocument file members byPath policy infos) :
    (members.map (·.normalizedPath)).Nodup := by
  rw [h.ordered, ((orderMembers_perm _).map _).nodup_iff, List.map_map]
  exact h.distinct

theorem Found.member_normal (h : Found H policyDocument file members byPath policy infos)
    {member : ArchiveMember} (hm : member ∈ members) :
    NormalPath H member.normalizedPath ∧ member.normalizedPath ≠ [] := by
  obtain ⟨i, hi, rfl⟩ := h.mem.mp hm
  exact h.normal i hi

/-- Where every entry can be read, the members with their bytes are the contents. -/
theorem Found.contents (h : Found H policyDocument file members byPath policy infos)
    (hread : ∀ member ∈ members, ∃ chunks, memberChunks byPath member = .ok chunks) :
    ArchiveContents H policyDocument file (members.map (contentOf byPath)) := by
  refine ⟨⟨policy, infos.map fun i => contentOf byPath i.1, h.parsed, ?_, ?_⟩, ?_⟩
  · rw [h.listing, List.forall₂_map_left_iff, List.forall₂_map_right_iff]
    refine List.forall₂_same.mpr ?_
    intro i hi
    cases hdir : i.1.isDirectory with
    | true =>
      rw [contentOf_directory hdir, if_pos hdir]
      exact ⟨rfl, rfl⟩
    | false =>
      obtain ⟨chunks, hchunks⟩ := hread i.1 (h.mem.mpr ⟨i, hi, rfl⟩)
      obtain ⟨data, hdata, -⟩ := memberChunks_eq_ok hdir hchunks
      rw [contentOf_regular hdir hdata, if_neg (by rw [hdir]; exact Bool.false_ne_true)]
      rw [h.payload hi] at hdata
      exact ⟨rfl, hdata⟩
  · rw [h.ordered]
    refine ((orderMembers_perm _).map _).trans ?_
    rw [List.map_map]
    exact List.Perm.refl _
  · rw [List.pairwise_map, h.ordered]
    exact orderMembers_ordered _

end

/-! ### How the extraction ends -/

/-- The destination stands empty in an otherwise unchanged tree. -/
theorem laid_start (hs : s.WellFormed) (hparent : s.realDir (parent d)) (hd : s.get d = none)
    {m : Mode} : Laid d (s.set d (.dir m)) [] (s.set d (.dir m)) := by
  have hget := get_set_eq s d (.dir m)
  have hne : d ≠ [] := by
    rintro rfl
    obtain ⟨k, hk⟩ := (wellFormed_iff.mp hs).1
    rw [hk] at hd
    cases hd
  have hfree : ¬ s.realDir d := by
    rintro ⟨k, hk⟩
    rw [hd] at hk
    cases hk
  have hbelow : ∀ r, r ≠ [] → (s.set d (.dir m)).get (d ++ r) = none := by
    intro r hr
    rw [get_set, if_neg (append_ne_root d hr)]
    exact hs.sub_none hd r
  refine ⟨⟨hs.update hget hparent hne hfree, fun _ _ => rfl, ⟨m, by simp⟩, ?_⟩, ?_, ?_, ?_, ?_⟩
  · rintro q ⟨r, rfl⟩
    unfold isSymlink
    by_cases hr : r = []
    · rw [hr, List.append_nil, hget, Function.update_self]
    · rw [hbelow r hr]
  · intro r x k
    constructor
    · intro hfile
      by_cases hr : r = []
      · rw [hr, List.append_nil, hget, Function.update_self] at hfile
        cases hfile
      · rw [hbelow r hr] at hfile
        cases hfile
    · rintro ⟨e, he, -⟩
      cases he
  · rintro r ⟨k, hk⟩
    by_contra hr
    rw [hbelow r fun hnil => hr (Or.inl hnil)] at hk
    cases hk
  · intro e he
    cases he
  · intro r k hr hk
    rw [hbelow r hr] at hk
    cases hk

/-- The loop extracts every member, or raises with the destination still a tree of its own. -/
theorem extractMembers_ends {policy : ArchivePolicy}
    {infos : List (ArchiveMember × Except Failure Bytes)}
    (h : Found H policyDocument file members byPath policy infos)
    {entries : List (String × Except Failure Bytes)} (hbyPath : payloads H.nfc entries = .ok byPath)
    {s₀ : DirTree Bytes} (hstart : Laid d s₀ [] s) :
    Triple (· = s) (extractMembers host H.nfc d entries members)
      (Ends (fun _ t => Extractable byPath members ∧
          Laid d s₀ (members.map (extracted host d byPath)) t)
        fun t => ¬ Extractable byPath members ∧ Loose d s₀ t) fun _ => True := by
  have hrest : RestExtractable byPath [] members ↔ Extractable byPath members := by
    unfold RestExtractable
    simp
  have hnothing : Laid d s₀ (([] : List ArchiveMember).map (extracted host d byPath)) s := hstart
  have hloop : Triple (· = s) (Program.each members fun member => do
      let chunks ← Program.lift (memberChunks byPath member)
      writeMember host d member chunks) _ fun _ => True :=
    extractRest_ends hnothing (fun member hm => (h.member_normal hm).2) (by
      rw [List.nil_append]
      exact h.paths_nodup)
  unfold extractMembers
  refine Triple.bind_run (a := byPath) ?_ (hloop.ends_weaken ?_ ?_)
  · rw [hbyPath, Program.lift_run]
  · rintro _ t ⟨hall, ht⟩
    rw [List.nil_append] at ht
    exact ⟨hrest.mp hall, ht⟩
  · rintro t ⟨hall, ht⟩
    exact ⟨fun hread => hall (hrest.mpr hread), ht⟩

/-- The process can read a file of every regular member's mode. -/
def Readable (host : ArchiveHost) (members : List ArchiveMember) : Prop :=
  ∀ member ∈ members, member.isDirectory = false → host.reads member.mode = true

/-- The digest of what was extracted from the members of an inspection. -/
theorem Laid.digest_ok {policy : ArchivePolicy}
    {infos : List (ArchiveMember × Except Failure Bytes)}
    (h : Found H policyDocument file members byPath policy infos) {s₀ : DirTree Bytes}
    (hlaid : Laid d s₀ (members.map (extracted host d byPath)) t) (hreads : Readable host members) :
    ∃ value, contentRootDigest H host d t = .ok value ∧
      contentDigest H (recordsOf H (members.map (extracted host d byPath))) = .ok value := by
  have hnormal : ∀ e ∈ members.map (extracted host d byPath), NormalPath H e.1.normalizedPath := by
    rw [List.forall_mem_map]
    exact fun member hm => (h.member_normal hm).1
  have hordered : (members.map (extracted host d byPath)).Pairwise fun a b =>
      joinPath a.1.normalizedPath ≤ joinPath b.1.normalizedPath := by
    rw [List.pairwise_map, h.ordered]
    exact orderMembers_ordered _
  have hdistinct : ((members.map (extracted host d byPath)).map (·.1.normalizedPath)).Nodup := by
    rw [List.map_map]
    exact h.paths_nodup
  have hread : ∀ e ∈ members.map (extracted host d byPath), e.1.isDirectory = false →
      host.reads e.1.mode = true := by
    rw [List.forall_mem_map]
    exact hreads
  have hrecords : ∃ value,
      contentDigest H (recordsOf H (members.map (extracted host d byPath))) = .ok value := by
    apply contentDigest_ok
    · intro r hr
      obtain ⟨e, he, hrecord⟩ := List.mem_filterMap.mp hr
      obtain ⟨-, rfl⟩ := recordOf_eq_some.mp hrecord
      exact (hnormal e he).nfc
    · intro r hr
      obtain ⟨e, he, hrecord⟩ := List.mem_filterMap.mp hr
      obtain ⟨-, rfl⟩ := recordOf_eq_some.mp hrecord
      exact ascii_of_isDigest (H.sha256_isDigest _)
  obtain ⟨value, hvalue⟩ := hrecords
  exact ⟨value, by rw [hlaid.digest hnormal hread hordered hdistinct, hvalue], hvalue⟩

theorem grown_wellFormed {m : Mode} {p : Path} (hs : s.WellFormed) (h : DirTree.Grown m s p t) :
    t.WellFormed := by
  obtain ⟨hroot, hparents⟩ := wellFormed_iff.mp hs
  refine wellFormed_iff.mpr ⟨h.added.realDir hroot, ?_⟩
  intro q hq hsome
  by_cases hsame : t.get q = s.get q
  · rw [hsame] at hsome
    exact h.added.realDir (hparents q hq hsome)
  · exact h.rooted q hq hsame

/-- The way to a directory was clear before directories were added on it. -/
theorem grown_clear {m : Mode} {p : Path} (hs : s.WellFormed) (h : DirTree.Grown m s p t)
    (hp : t.realDir p) : Clear s p := by
  refine ⟨(wellFormed_iff.mp hs).1, ?_⟩
  intro q hq
  have hdir := (grown_wellFormed hs h).reaches hp q hq
  rcases h.added q with hsame | ⟨-, hnone, -⟩
  · exact Or.inr (realDir_of_get_eq hsame.symm hdir)
  · exact Or.inl hnone

theorem grown_absent {m : Mode} (hs : s.WellFormed) (hd : s.get d = none)
    (h : DirTree.Grown m s (parent d) t) (r : Path) : t.get (d ++ r) = none := by
  have hne : d ≠ [] := by
    rintro rfl
    obtain ⟨k, hk⟩ := (wellFormed_iff.mp hs).1
    rw [hk] at hd
    cases hd
  have hlong : ¬ d ++ r <+: parent d := by
    intro hpre
    have hle := hpre.length_le
    have hpos := List.length_pos_of_ne_nil hne
    rw [parent, List.length_dropLast, List.length_append] at hle
    omega
  rw [h.added.get_of_not_prefix hlong]
  exact hs.sub_none hd r

/-- The destination is made, or nothing is there. -/
theorem makeDestination_ends (hs : s.WellFormed) (hd : s.get d = none) :
    Triple (· = s) (do mkdirs 0o777 (parent d); syscall (DirTree.mkdir 0o700 d))
      (Ends (fun _ t => Clear s (parent d) ∧ d ≠ [] ∧ Laid d t [] t)
        fun t => ¬ Clear s (parent d) ∧ ∀ r, t.get (d ++ r) = none :
          Except Failure Unit → _ → _) fun _ => True := by
  have hne : d ≠ [] := by
    rintro rfl
    obtain ⟨k, hk⟩ := (wellFormed_iff.mp hs).1
    rw [hk] at hd
    cases hd
  have hmkdirs := (mkdirs_any (ε := Failure) 0o777 s (parent d)).crash fun _ _ => trivial
  refine hmkdirs.bind (fun _ => Triple.of_forall ?_) ?_
  · rintro t ⟨hgrown, hclear⟩
    have habsent := grown_absent hs hd hgrown
    have hnone : t.get d = none := by simpa using habsent []
    by_cases hparent : t.realDir (parent d)
    · have hrun := syscall_ok (ε := Failure) (mkdir_ok (m := 0o700) hparent hnone)
      rintro t rfl
      rw [Program.out, Program.final, hrun]
      refine ⟨fun _ _ => trivial, grown_clear hs hgrown hparent, hne, ?_⟩
      exact laid_start (grown_wellFormed hs hgrown) hparent hnone
    · cases hmkdir : DirTree.mkdir 0o700 d t with
      | ok u => exact absurd (mkdir_eq_ok hmkdir).1 hparent
      | error e =>
        refine Triple.raised (syscall_error hmkdir) ⟨fun hc => hparent ?_, habsent⟩
        exact (hclear hc).2 _ List.prefix_rfl
  · rintro e t ⟨hgrown, hclear⟩
    refine ⟨fun hc => ?_, grown_absent hs hd hgrown⟩
    have hok := (hclear hc).1
    cases hok

theorem extractVerifiedArchive_rejected {e : Failure} (d : Path) (s : DirTree Bytes)
    (h : inspectMembers H host file sha policyDocument = .error e) :
    (extractVerifiedArchive H host file sha policyDocument d).run s = ⟨[], .error e⟩ := by
  unfold extractVerifiedArchive
  refine Program.bind_of_error ?_
  rw [h, Program.lift_run]

theorem extractVerifiedArchive_present {r : ArchiveInspection × List ArchiveMember}
    (h : inspectMembers H host file sha policyDocument = .ok r) (hd : (s.get d).isSome) :
    (extractVerifiedArchive H host file sha policyDocument d).run s = ⟨[], .error
      (archiveUnsafe "extraction destination must have original absence" [])⟩ := by
  obtain ⟨n, hn⟩ := Option.isSome_iff_exists.mp hd
  have hpresent : (!(s.exists d || s.isSymlink d)) = false := by
    unfold DirTree.exists isSymlink
    rw [hn]
    cases n with
    | symlink k => cases k <;> rfl
    | file _ _ => rfl
    | dir _ => rfl
  unfold extractVerifiedArchive
  rw [Program.bind_of_pure (a := r) (by rw [h, Program.lift_run])]
  refine Program.bind_of_error ?_
  rw [Program.inspect_run, hpresent]
  rfl

/-- Extraction of an inspected archive to where nothing is. -/
theorem extractVerifiedArchive_ends {policy : ArchivePolicy}
    {infos : List (ArchiveMember × Except Failure Bytes)} (hs : s.WellFormed)
    (hd : s.get d = none)
    (hinspect : inspectMembers H host file sha policyDocument = .ok (inspection, members))
    (hbyPath : payloads H.nfc (archiveEntries inspection.archiveFormat file) = .ok byPath)
    (h : Found H policyDocument file members byPath policy infos) :
    Triple (· = s) (extractVerifiedArchive H host file sha policyDocument d)
      (Ends (fun value t => (Clear s (parent d) ∧ Extractable byPath members) ∧
          Readable host members ∧
          (∃ s₀, Laid d s₀ (members.map (extracted host d byPath)) t) ∧
          contentDigest H (recordsOf H (members.map (extracted host d byPath))) = .ok value)
        fun t => ¬ (Clear s (parent d) ∧ Extractable byPath members) ∧
            (∀ r, t.get (d ++ r) = none) ∨
          (Clear s (parent d) ∧ Extractable byPath members) ∧ ¬ Readable host members ∧
            t.realDir d) fun _ => True := by
  have hfree : (!(s.exists d || s.isSymlink d)) = true := by
    simp [DirTree.exists, isSymlink, hd]
  unfold extractVerifiedArchive
  refine Triple.bind_run (a := (inspection, members)) ?_ ?_
  · rw [hinspect, Program.lift_run]
  refine Triple.bind_run (a := ()) ?_ ?_
  · rw [Program.inspect_run, hfree]
    rfl
  have hmake := makeDestination_ends hs hd
  rw [← bind_assoc]
  refine Triple.bind_ends (hmake.ends_weaken (fun _ _ ht => ht) ?_) fun _ => Triple.of_forall ?_
  · rintro t ⟨hblocked, habsent⟩
    exact Or.inl ⟨fun hall => hblocked hall.1, habsent⟩
  rintro t ⟨hclear, hne, hlaid⟩
  have hloop : Triple (· = t) (extractMembers host H.nfc d _ members) _ fun _ => True :=
    extractMembers_ends h hbyPath hlaid
  have hclean : Triple (fun u => ¬ Extractable byPath members ∧ Loose d t u) (removeExtracted d)
      (Returns fun _ u => ¬ (Clear s (parent d) ∧ Extractable byPath members) ∧
          (∀ r, u.get (d ++ r) = none) ∨
        (Clear s (parent d) ∧ Extractable byPath members) ∧ ¬ Readable host members ∧
          u.realDir d) fun _ => True := by
    refine Triple.of_forall ?_
    rintro u ⟨hfail, hu⟩
    refine (removeExtracted_spec hu.shape hu.stands hne).post ?_
    rintro o v ⟨a, ho, hcut⟩
    refine ⟨a, ho, Or.inl ⟨fun hall => hfail hall.2, ?_⟩⟩
    intro r
    rw [hcut, if_pos (List.prefix_append d r)]
  refine (hloop.rescue hclean).bind_ends fun _ => Triple.of_forall ?_
  rintro u ⟨hall, hu⟩
  by_cases hreads : Readable host members
  · obtain ⟨value, hroot, hvalue⟩ := hu.digest_ok h hreads
    rintro v rfl
    rw [Program.out, Program.final, Program.inspect_run, hroot]
    exact ⟨by simp, ⟨hclear, hall⟩, hreads, ⟨t, hu⟩, hvalue⟩
  · -- the digest cannot be taken, and what was extracted stays
    obtain ⟨member, hm, hregular, hread⟩ : ∃ member ∈ members, member.isDirectory = false ∧
        host.reads member.mode = false := by
      simpa [Readable] using hreads
    obtain ⟨failure, hroot⟩ : ∃ failure, contentRootDigest H host d u = .error failure :=
      hu.digest_unreadable (List.mem_map_of_mem hm) hregular hread
    rintro v rfl
    rw [Program.out, Program.final, Program.inspect_run, hroot]
    exact ⟨by simp, Or.inr ⟨⟨hclear, hall⟩, hreads, hu.loose.stands⟩⟩

/-! ### Exact or absent -/

/-- Below the destination stand the contents with their modes and the directories above them, and
`value` is the digest of the contents. -/
structure Exact (H : Hasher) (d : Path) (contents : List (ArchiveMember × Bytes)) (value : String)
    (t : DirTree Bytes) : Prop where
  digest : contentDigest H (recordsOf H contents) = .ok value
  files : ∀ r x m, t.get (d ++ r) = some (.file x m) ↔ ∃ e ∈ contents,
    e.1.isDirectory = false ∧ e.1.normalizedPath = r ∧ e.2 = x ∧ e.1.mode = m
  directories : ∀ e ∈ contents, e.1.isDirectory = true →
    t.get (d ++ e.1.normalizedPath) = some (.dir e.1.mode)
  between : ∀ r m, r ≠ [] → t.get (d ++ r) = some (.dir m) → m = 0o755 ∨
    ∃ e ∈ contents, e.1.isDirectory = true ∧ e.1.normalizedPath = r ∧ e.1.mode = m
  stands : ∀ r, (t.get (d ++ r)).isSome ↔ r = [] ∨ ∃ e ∈ contents, r <+: e.1.normalizedPath

/-- Everything is there to extract the archive. -/
def Admits (H : Hasher) (host : ArchiveHost) (file : ArchiveFile) (sha : String)
    (policyDocument : Members) (d : Path) (s : DirTree Bytes) (members : List ArchiveMember)
    (byPath : List (Path × Except Failure Bytes)) : Prop :=
  ∃ inspection, inspectMembers H host file sha policyDocument = .ok (inspection, members) ∧
    payloads H.nfc (archiveEntries inspection.archiveFormat file) = .ok byPath ∧
    Clear s (parent d) ∧ Extractable byPath members

theorem Laid.stands {s₀ : DirTree Bytes} {done : List (ArchiveMember × Bytes)}
    (h : Laid d s₀ done t) (r : Path) :
    (t.get (d ++ r)).isSome ↔ r = [] ∨ ∃ e ∈ done, r <+: e.1.normalizedPath := by
  constructor
  · intro hsome
    rcases h.loose.node (List.prefix_append d r) with hnone | hdir | ⟨x, m, hfile⟩
    · rw [hnone] at hsome
      cases hsome
    · exact h.dirs r hdir
    · obtain ⟨e, he, -, rfl, -⟩ := (h.files r x m).mp hfile
      exact Or.inr ⟨e, he, List.prefix_rfl⟩
  · intro hr
    by_contra hnone
    rw [Option.not_isSome_iff_eq_none] at hnone
    rcases hr with rfl | ⟨e, he, u, hu⟩
    · obtain ⟨m, hm⟩ := h.loose.stands
      rw [List.append_nil, hm] at hnone
      cases hnone
    · have hpresent := h.nodir he
      rw [← hu, ← List.append_assoc, h.loose.shape.sub_none hnone u] at hpresent
      cases hpresent

/-- What holds of some members and payloads an archive admits holds of those it was inspected
with. -/
theorem exists_admits (d : Path) (s : DirTree Bytes)
    (hinspect : inspectMembers H host file sha policyDocument = .ok (inspection, members))
    (hbyPath : payloads H.nfc (archiveEntries inspection.archiveFormat file) = .ok byPath)
    (P : List ArchiveMember → List (Path × Except Failure Bytes) → Prop) :
    (∃ members byPath, Admits H host file sha policyDocument d s members byPath ∧
        P members byPath) ↔
      (Clear s (parent d) ∧ Extractable byPath members) ∧ P members byPath := by
  constructor
  · rintro ⟨members', byPath', ⟨inspection', hok, hbyPath', hall⟩, hP⟩
    rw [hinspect] at hok
    cases hok
    rw [hbyPath] at hbyPath'
    cases hbyPath'
    exact ⟨hall, hP⟩
  · rintro ⟨hall, hP⟩
    exact ⟨members, byPath, ⟨inspection, hinspect, hbyPath, hall⟩, hP⟩

def sampleArchivePolicy : Members :=
  [("schema_id", .string "agent-workflow.archive-policy"), ("schema_version", .int 1),
    ("allowed_formats", .array [.string "zip"]), ("max_members", .int 4),
    ("max_file_bytes", .int 4), ("max_expanded_bytes", .int 4), ("max_depth", .int 4),
    ("max_compression_ratio", .int 4), ("allow_executable", .bool false)]

def sampleArchive : ArchiveFile where
  isRegular := true
  content := [0]
  isZip := true
  zipInfos := some [⟨"a/b.txt", 0, 2, 2, .ok [1, 2]⟩]
  isTar := false
  tarInfos := none

/-- A platform whose writes take all bytes, or one at a time. -/
def sampleArchiveHost (whole : Bool) : ArchiveHost where
  casefold := id
  ratioExceeds _ _ _ := false
  written _ data := if whole then data.length else 1
  written_some path data hdata := by
    have := List.length_pos_of_ne_nil hdata
    split <;> omega
  reads _ := true

def sampleArchiveTree : DirTree Bytes := ⟨[([], .dir 0o755)]⟩

def sampleExtraction (whole : Bool) : Program (DirTree Bytes) Failure String :=
  extractVerifiedArchive constantHasher (sampleArchiveHost whole) sampleArchive (digestOf 'a')
    sampleArchivePolicy ["out"]

/-- Extraction succeeds exactly where the inspection does, the destination is free, only
directories stand on the way to it, every entry can be read, no file is where another member
needs a directory, and every file can be read again. -/
theorem extractVerifiedArchive_ok_iff (H : Hasher) (host : ArchiveHost) (file : ArchiveFile)
    (sha : String) (policyDocument : Members) (d : Path) (s : DirTree Bytes)
    (hs : s.WellFormed) :
    (∃ value, (extractVerifiedArchive H host file sha policyDocument d).out s = .ok value) ↔
      s.get d = none ∧
        ∃ members byPath, Admits H host file sha policyDocument d s members byPath ∧
          Readable host members := by
  cases hinspect : inspectMembers H host file sha policyDocument with
  | error e =>
    rw [Program.out, extractVerifiedArchive_rejected d s hinspect]
    constructor
    · rintro ⟨value, hok⟩
      cases hok
    · rintro ⟨-, members, byPath, ⟨inspection, hok, -⟩, -⟩
      rw [hinspect] at hok
      cases hok
  | ok r =>
    obtain ⟨inspection, members⟩ := r
    obtain ⟨byPath, hbyPath, policy, infos, hfound⟩ := inspectMembers_found hinspect
    cases hd : s.get d with
    | some n =>
      have hpresent : (s.get d).isSome := by
        rw [hd]
        rfl
      rw [Program.out, extractVerifiedArchive_present hinspect hpresent]
      constructor
      · rintro ⟨value, hok⟩
        cases hok
      · rintro ⟨hnone, -⟩
        cases hnone
    | none =>
      obtain ⟨-, hends⟩ := extractVerifiedArchive_ends hs hd hinspect hbyPath
        hfound s rfl
      rw [exists_admits d s hinspect hbyPath fun members _ => Readable host members]
      cases hout : (extractVerifiedArchive H host file sha policyDocument d).out s with
      | error e =>
        rw [hout] at hends
        constructor
        · rintro ⟨value, hok⟩
          cases hok
        · rintro ⟨-, hall, hreads⟩
          rcases hends with ⟨hnot, -⟩ | ⟨-, hunread, -⟩
          · exact absurd hall hnot
          · exact absurd hreads hunread
      | ok value =>
        rw [hout] at hends
        exact ⟨fun _ => ⟨rfl, hends.1, hends.2.1⟩, fun _ => ⟨value, rfl⟩⟩

theorem extractVerifiedArchive_ok_iff_sample :
    (∃ value, (sampleExtraction true).out sampleArchiveTree = .ok value) ↔
      sampleArchiveTree.get ["out"] = none ∧ ∃ members byPath, Admits constantHasher
        (sampleArchiveHost true) sampleArchive (digestOf 'a') sampleArchivePolicy ["out"]
        sampleArchiveTree members byPath ∧ Readable (sampleArchiveHost true) members :=
  extractVerifiedArchive_ok_iff constantHasher (sampleArchiveHost true) sampleArchive
    (digestOf 'a') sampleArchivePolicy ["out"] sampleArchiveTree (by decide)

/-! ### Nothing else is touched -/

/-- Outside the destination `c` is `s`, but for new directories on the way to it. -/
def Confined (d : Path) (s c : DirTree Bytes) : Prop :=
  ∀ q, ¬ d <+: q → c.get q = s.get q ∨
    q <+: parent d ∧ s.get q = none ∧ c.get q = some (.dir 0o777)

instance : Std.Refl (Confined d) := ⟨fun _ _ _ => Or.inl rfl⟩

instance : IsTrans (DirTree Bytes) (Confined d) := by
  constructor
  intro s t u h h' q hq
  rcases h' q hq with hsame | ⟨hpre, hnone, hnew⟩
  · rw [hsame]
    exact h q hq
  · refine Or.inr ⟨hpre, ?_, hnew⟩
    rcases h q hq with hold | ⟨-, -, hdir⟩
    · rw [← hold, hnone]
    · rw [hdir] at hnone
      cases hnone

theorem syscall_confined {f : DirTree Bytes → Except OsError (DirTree Bytes)} {p : Path}
    (hp : d <+: p) (h : ∀ s t, f s = .ok t → ∀ q, q ≠ p → t.get q = s.get q) :
    Within (Confined d) (syscall f : Program (DirTree Bytes) Failure Unit) := by
  refine syscall_within fun s t ht q hq => Or.inl (h s t ht q ?_)
  rintro rfl
  exact hq hp

theorem chmod_confined {p : Path} (hp : d <+: p) (m : Mode) :
    Within (Confined d) (syscall (DirTree.chmod m p) : Program (DirTree Bytes) Failure Unit) := by
  refine syscall_confined hp fun s t ht q hq => ?_
  unfold DirTree.chmod at ht
  split at ht
  · cases ht
    rw [get_set, if_neg hq]
  · cases ht
    rw [get_set, if_neg hq]
  · cases ht
  · cases ht

theorem writeChunk_confined {p : Path} (hp : d <+: p) (chunk : Bytes) :
    Within (Confined d)
      (syscall (writeChunk host p chunk) : Program (DirTree Bytes) Failure Unit) := by
  refine syscall_confined hp fun s t ht q hq => ?_
  unfold writeChunk at ht
  split at ht
  · cases ht
    rw [get_set, if_neg hq]
  · cases ht

theorem mkdir_confined {p : Path} (hp : d <+: p) (m : Mode) :
    Within (Confined d) (syscall (DirTree.mkdir m p) : Program (DirTree Bytes) Failure Unit) := by
  refine syscall_confined hp fun s t ht q hq => ?_
  rw [(mkdir_eq_ok ht).2.2, Function.update_of_ne hq]

theorem ensureDirectory_confined {root : Path} (hroot : d <+: root) (segments : Path) :
    Within (Confined d) (ensureDirectory root segments) := by
  induction segments generalizing root with
  | nil => exact Within.pure ()
  | cons n segments ih =>
    have hnext : d <+: root ++ [n] := hroot.trans (List.prefix_append root [n])
    unfold ensureDirectory
    refine Within.bind ?_ fun _ => ih hnext
    unfold ensureOne
    refine Within.bind (Within.read _) fun present => ?_
    exact Within.ite (Within.inspect _) (mkdir_confined hnext _)

theorem writeMember_confined (member : ArchiveMember) (chunks : List Bytes) :
    Within (Confined d) (writeMember host d member chunks) := by
  have hpath : d <+: d ++ member.normalizedPath := List.prefix_append d _
  unfold writeMember
  refine Within.ite ?_ ?_
  · refine Within.bind (ensureDirectory_confined List.prefix_rfl _) fun _ => ?_
    exact chmod_confined hpath _
  · refine Within.bind (ensureDirectory_confined List.prefix_rfl _) fun _ => ?_
    refine Within.bind ?_ fun _ => ?_
    · refine syscall_confined hpath fun s t ht q hq => ?_
      rw [(create_eq_ok ht).2.2, Function.update_of_ne hq]
    · refine Within.bind ?_ fun _ => chmod_confined hpath _
      exact Within.each _ fun chunk _ => writeChunk_confined hpath chunk

theorem removeExtracted_confined : Within (Confined d) (removeExtracted d) := by
  have hrmdir : ∀ p, d <+: p →
      Within (Confined d) (syscall (DirTree.rmdir p) : Program (DirTree Bytes) Failure Unit) := by
    intro p hp
    refine syscall_confined hp fun s t ht q hq => ?_
    unfold DirTree.rmdir at ht
    split at ht
    · cases ht
    · split_ifs at ht
      cases ht
      rw [get_remove, if_neg hq]
    · cases ht
  have hunlink : ∀ p, d <+: p →
      Within (Confined d) (syscall (DirTree.unlink p) : Program (DirTree Bytes) Failure Unit) := by
    intro p hp
    refine syscall_confined hp fun s t ht q hq => ?_
    unfold DirTree.unlink at ht
    split at ht
    · cases ht
    · cases ht
    · cases ht
      rw [get_remove, if_neg hq]
  unfold removeExtracted
  refine Within.read_bind fun s => ?_
  refine Within.bind (Within.each _ fun child hchild => ?_) fun _ => hrmdir d List.prefix_rfl
  have hbelow : d <+: child := (mem_belowRoot.mp ((List.mem_insertionSort _).mp hchild)).1
  unfold removeChild
  refine Within.bind (Within.read _) fun dir => ?_
  exact Within.ite (hrmdir child hbelow) (Within.whenever (hunlink child hbelow))

theorem mkdirs_confined :
    Within (Confined d) (mkdirs 0o777 (parent d) : Program (DirTree Bytes) Failure Unit) := by
  intro s c hc
  have hgrown := (mkdirs_grown (ε := Failure) 0o777 s (parent d) s rfl).1 c hc
  intro q _
  exact hgrown.added q

theorem extractVerifiedArchive_within :
    Within (Confined d) (extractVerifiedArchive H host file sha policyDocument d) := by
  unfold extractVerifiedArchive
  refine Within.bind (Within.lift _) fun inspected => ?_
  refine Within.bind (Within.inspect _) fun _ => ?_
  refine Within.bind mkdirs_confined fun _ => ?_
  refine Within.bind (mkdir_confined List.prefix_rfl _) fun _ => ?_
  refine Within.bind (Within.rescue ?_ removeExtracted_confined) fun _ => Within.inspect _
  unfold extractMembers
  refine Within.bind (Within.lift _) fun byPath => ?_
  refine Within.each _ fun member _ => ?_
  exact Within.bind (Within.lift _) fun chunks => writeMember_confined member chunks

/-! ### The names of the members -/

/-- A name that stays in its directory. -/
def PlainName (n : String) : Prop :=
  n ≠ "" ∧ n ≠ "." ∧ n ≠ ".." ∧ ∀ c ∈ n.toList, c ≠ '/' ∧ c ≠ '\\' ∧ c ≠ '\x00'

/-- A piece holds characters of the text, and not the separator. -/
theorem of_mem_splitChars {sep c : Char} {cs piece : List Char}
    (hpiece : piece ∈ splitChars sep cs) (hc : c ∈ piece) : c ≠ sep ∧ c ∈ cs := by
  induction cs generalizing piece with
  | nil =>
    rw [splitChars, List.mem_singleton] at hpiece
    rw [hpiece] at hc
    cases hc
  | cons first cs ih =>
    rw [splitChars] at hpiece
    split at hpiece
    next =>
      rcases List.mem_cons.mp hpiece with rfl | hpiece
      · cases hc
      · obtain ⟨hne, hmem⟩ := ih hpiece hc
        exact ⟨hne, List.mem_cons_of_mem _ hmem⟩
    next hfirst =>
      cases hs : splitChars sep cs with
      | nil => exact absurd hs (splitChars_ne_nil sep cs)
      | cons head rest =>
        rw [hs] at hpiece ih
        rcases List.mem_cons.mp hpiece with rfl | hpiece
        · rcases List.mem_cons.mp hc with rfl | hc
          · exact ⟨hfirst, List.mem_cons_self⟩
          · obtain ⟨hne, hmem⟩ := ih List.mem_cons_self hc
            exact ⟨hne, List.mem_cons_of_mem _ hmem⟩
        · obtain ⟨hne, hmem⟩ := ih (List.mem_cons_of_mem _ hpiece) hc
          exact ⟨hne, List.mem_cons_of_mem _ hmem⟩

theorem NormalPath.plainName {path : Path} (h : NormalPath H path) {n : String} (hn : n ∈ path) :
    PlainName n := by
  unfold NormalPath at h
  simp only [normalizePath, charsOf_eq] at h
  split_ifs at h with _ hchars _ _ hnames
  have hpath := Except.ok.inj h
  rw [← hpath] at hn
  have hname : n ∉ ["", ".", ".."] := by
    intro hmem
    exact hnames (List.any_eq_true.mpr ⟨n, hn, by simpa using hmem⟩)
  simp only [List.mem_cons, List.not_mem_nil, or_false, not_or] at hname
  refine ⟨hname.1, hname.2.1, hname.2.2, ?_⟩
  intro c hc
  obtain ⟨piece, hpiece, rfl⟩ := List.mem_map.mp hn
  rw [String.toList_ofList] at hc
  obtain ⟨hsep, hmem⟩ := of_mem_splitChars hpiece hc
  refine ⟨hsep, ?_, ?_⟩
  · rintro rfl
    exact hchars (Or.inr hmem)
  · rintro rfl
    exact hchars (Or.inl hmem)

/-- Whatever the archive is, extraction stays below its destination: the names of its members
cannot leave it, in no state on the way is anything else changed but for directories made above
the destination, and a destination that stands is not touched. -/
theorem extractVerifiedArchive_confined (H : Hasher) (host : ArchiveHost) (file : ArchiveFile)
    (sha : String) (policyDocument : Members) (d : Path) (s : DirTree Bytes) :
    (∀ inspection members,
      inspectMembers H host file sha policyDocument = .ok (inspection, members) →
      ∀ member ∈ members, ∀ n ∈ member.normalizedPath, PlainName n) ∧
    ∀ c ∈ (extractVerifiedArchive H host file sha policyDocument d).states s,
      Confined d s c ∧ ((s.get d).isSome → c = s) := by
  constructor
  · intro inspection members hinspect member hm n hn
    obtain ⟨byPath, -, policy, infos, hfound⟩ := inspectMembers_found hinspect
    exact (hfound.member_normal hm).1.plainName hn
  · intro c hc
    refine ⟨extractVerifiedArchive_within.states hc, fun hpresent => ?_⟩
    have hrun : ∃ e, (extractVerifiedArchive H host file sha policyDocument d).run s =
        ⟨[], .error e⟩ := by
      cases hinspect : inspectMembers H host file sha policyDocument with
      | error e => exact ⟨e, extractVerifiedArchive_rejected d s hinspect⟩
      | ok r => exact ⟨_, extractVerifiedArchive_present hinspect hpresent⟩
    obtain ⟨e, hrun⟩ := hrun
    rw [Program.states, hrun] at hc
    exact List.mem_singleton.mp hc

end AgentStack.Providers
