import AgentStack.Core.SurfaceDigests
import AgentStack.KeyedList.Basic
import AgentStack.Providers.ArchiveRemoval
import AgentStack.Providers.ArchiveSteps
import AgentStack.Providers.Inspection

/-! Extraction leaves exactly the inspected members or nothing, but for writes that were cut
short. -/
namespace AgentStack.Providers

open AgentStack.Core Crash FileTree FileTree.DirTree JsonText JsonValue KeyedList

/-! ### All members -/

section Members

variable {host : ArchiveHost} {root : Path} {s₀ s : DirTree Bytes}
  {byPath : List (Path × Except Failure Bytes)}

/-- A member with what extraction puts into its file. -/
def extracted (host : ArchiveHost) (root : Path) (byPath : List (Path × Except Failure Bytes))
    (member : ArchiveMember) : ArchiveMember × Bytes :=
  (member, stored host (root ++ member.normalizedPath)
    ((memberChunks byPath member).toOption.getD []))

/-- Everything can be read, and no file is where another member needs a directory. -/
def Extractable (byPath : List (Path × Except Failure Bytes)) (members : List ArchiveMember) :
    Prop :=
  (∀ member ∈ members, ∃ chunks, memberChunks byPath member = .ok chunks) ∧
    members.Pairwise Apart

/-- `Extractable` for the rest of the members, when those of `done` were extracted. -/
def RestExtractable (byPath : List (Path × Except Failure Bytes)) (done rest : List ArchiveMember) :
    Prop :=
  Extractable byPath rest ∧ ∀ a ∈ done, ∀ b ∈ rest, Apart a b

theorem restExtractable_cons {done rest : List ArchiveMember} {member : ArchiveMember} :
    RestExtractable byPath done (member :: rest) ↔
      (∃ chunks, memberChunks byPath member = .ok chunks) ∧ (∀ a ∈ done, Apart a member) ∧
        RestExtractable byPath (done ++ [member]) rest := by
  unfold RestExtractable Extractable
  rw [List.forall_mem_cons, List.pairwise_cons]
  constructor
  · rintro ⟨⟨⟨hread, hreads⟩, hfirst, hpairs⟩, hdone⟩
    refine ⟨hread, fun a ha => hdone a ha member List.mem_cons_self, ⟨hreads, hpairs⟩, ?_⟩
    intro a ha b hb
    rcases List.mem_append.mp ha with ha | ha
    · exact hdone a ha b (List.mem_cons_of_mem _ hb)
    · rw [List.mem_singleton.mp ha]
      exact hfirst b hb
  · rintro ⟨hread, hdone, ⟨hreads, hpairs⟩, hrest⟩
    refine ⟨⟨⟨hread, hreads⟩, fun b hb => hrest member (by simp) b hb, hpairs⟩, ?_⟩
    intro a ha b hb
    rcases List.mem_cons.mp hb with rfl | hb
    · exact hdone a ha
    · exact hrest a (List.mem_append_left _ ha) b hb

theorem writeMember_ends {done : List ArchiveMember} {member : ArchiveMember}
    (h : Laid root s₀ (done.map (extracted host root byPath)) s)
    (hne : member.normalizedPath ≠ [])
    (hnew : ∀ a ∈ done, a.normalizedPath ≠ member.normalizedPath) {chunks : List Bytes}
    (hchunks : memberChunks byPath member = .ok chunks) :
    Triple (· = s) (writeMember host root member chunks)
      (Ends (fun _ t => (∀ a ∈ done, Apart a member) ∧
          Laid root s₀ ((done ++ [member]).map (extracted host root byPath)) t)
        fun t => (¬ ∀ a ∈ done, Apart a member) ∧ Loose root s₀ t) fun _ => True := by
  have hapart : (∀ e ∈ done.map (extracted host root byPath), Apart e.1 member) ↔
      ∀ a ∈ done, Apart a member := by
    rw [List.forall_mem_map]
    rfl
  have hentry : extracted host root byPath member =
      (member, stored host (root ++ member.normalizedPath) chunks) := by
    rw [extracted, hchunks]
    rfl
  rw [List.map_append, List.map_singleton, hentry, ← hapart]
  cases hdir : member.isDirectory with
  | true =>
    have hnone : chunks = [] := by
      rw [memberChunks, if_pos hdir] at hchunks
      exact (Except.ok.inj hchunks).symm
    subst hnone
    refine writeMember_directory h hdir ?_ []
    rw [List.forall_mem_map]
    exact hnew
  | false =>
    refine writeMember_regular h hdir hne ?_ chunks
    rw [List.forall_mem_map]
    exact hnew

theorem extractRest_ends {done rest : List ArchiveMember}
    (h : Laid root s₀ (done.map (extracted host root byPath)) s)
    (hne : ∀ member ∈ rest, member.normalizedPath ≠ [])
    (hpaths : ((done ++ rest).map (·.normalizedPath)).Nodup) :
    Triple (· = s) (Program.each rest fun member => do
        let chunks ← Program.lift (memberChunks byPath member)
        writeMember host root member chunks)
      (Ends (fun _ t => RestExtractable byPath done rest ∧
          Laid root s₀ ((done ++ rest).map (extracted host root byPath)) t)
        fun t => ¬ RestExtractable byPath done rest ∧ Loose root s₀ t) fun _ => True := by
  induction rest generalizing done s with
  | nil =>
    refine Triple.returns_ends ⟨⟨⟨by simp, List.Pairwise.nil⟩, by simp⟩, ?_⟩
    rwa [List.append_nil]
  | cons member rest ih =>
    rw [List.forall_mem_cons] at hne
    have hassoc : done ++ member :: rest = done ++ [member] ++ rest := by simp
    have hnew : ∀ a ∈ done, a.normalizedPath ≠ member.normalizedPath := by
      rw [List.map_append, List.map_cons, List.nodup_append] at hpaths
      intro a ha
      exact hpaths.2.2 _ (List.mem_map_of_mem ha) _ List.mem_cons_self
    rw [Program.each_cons]
    cases hchunks : memberChunks byPath member with
    | error e =>
      have hrun : (Program.lift (memberChunks byPath member) >>= fun chunks =>
          writeMember host root member chunks).run s = ⟨[], .error e⟩ := by
        refine Program.bind_of_error ?_
        rw [hchunks, Program.lift_run]
      rw [hchunks] at hrun
      refine Triple.bind_raised hrun ⟨fun hall => ?_, h.loose⟩
      obtain ⟨⟨chunks, hread⟩, -⟩ := restExtractable_cons.mp hall
      rw [hchunks] at hread
      cases hread
    | ok chunks =>
      have hwrite := writeMember_ends h hne.1 hnew hchunks
      have hone : Triple (· = s) (Program.lift (.ok chunks) >>= fun chunks =>
          writeMember host root member chunks)
          (Ends (fun _ t => (∀ a ∈ done, Apart a member) ∧
            Laid root s₀ ((done ++ [member]).map (extracted host root byPath)) t)
          fun t => ¬ RestExtractable byPath done (member :: rest) ∧ Loose root s₀ t)
          fun _ => True := by
        refine Triple.bind_run (Program.lift_run _ _) (hwrite.ends_weaken (fun _ _ ht => ht) ?_)
        rintro t ⟨hclash, ht⟩
        exact ⟨fun hall => hclash (restExtractable_cons.mp hall).2.1, ht⟩
      refine hone.bind_ends fun _ => Triple.of_forall ?_
      rintro t ⟨hapart, ht⟩
      rw [hassoc] at hpaths
      refine (ih ht hne.2 hpaths).ends_weaken ?_ ?_
      · rintro _ u ⟨hrest, hu⟩
        rw [hassoc]
        exact ⟨restExtractable_cons.mpr ⟨⟨chunks, hchunks⟩, hapart, hrest⟩, hu⟩
      · rintro u ⟨hrest, hu⟩
        exact ⟨fun hall => hrest (restExtractable_cons.mp hall).2.2, hu⟩

end Members

/-! ### The digest of what was extracted -/

section Digest

variable {H : Hasher} {host : ArchiveHost} {root : Path} {s₀ s : DirTree Bytes}
  {done : List (ArchiveMember × Bytes)}

/-- The record of one extracted member. -/
def recordOf (H : Hasher) (e : ArchiveMember × Bytes) : Option ContentRecord :=
  if e.1.isDirectory then none
  else some ⟨joinPath e.1.normalizedPath, H.sha256 e.2, e.1.mode⟩

def recordsOf (H : Hasher) (contents : List (ArchiveMember × Bytes)) : List ContentRecord :=
  contents.filterMap (recordOf H)

theorem contentDigest_ok {records : List ContentRecord}
    (hpath : ∀ r ∈ records, H.nfc r.path = r.path) (hhash : ∀ r ∈ records, Ascii r.byteHash) :
    ∃ value, contentDigest H records = .ok value := by
  have hplain : Plain H.toEncoding (.array (records.map ContentRecord.json)) := by
    apply plain_array
    intro x hx
    obtain ⟨r, hr, rfl⟩ := List.mem_map.mp hx
    apply plain_fields H.toTextEncoding
    · simp only [List.map_cons, List.map_nil]
      decide
    · simp only [List.forall_mem_cons]
      decide
    · simp only [List.forall_mem_cons, List.not_mem_nil, false_implies, implies_true, and_true]
      exact ⟨plain_string (hpath r hr), plain_ascii _ (hhash r hr),
        plain_ascii _ (ascii_modeText r.mode)⟩
  have hdomain : DomainOk "agent-workflow.initializer-content-root.v1" := by
    unfold DomainOk
    decide
  obtain ⟨preimage, hpreimage⟩ := hplain.preimage (by decide) hdomain
  exact ⟨H.sha256 preimage, by rw [contentDigest, digest, hpreimage]; rfl⟩

/-- The record of a path below the root. -/
def recordAt (H : Hasher) (root : Path) (s : DirTree Bytes) (p : Path) : Option ContentRecord :=
  match s.get p with
  | some (.file content mode) => some ⟨joinPath (p.drop root.length), H.sha256 content, mode⟩
  | _ => none

theorem Laid.contentRecord (h : Laid root s₀ done s)
    (hnormal : ∀ e ∈ done, NormalPath H e.1.normalizedPath)
    (hreads : ∀ e ∈ done, e.1.isDirectory = false → host.reads e.1.mode = true) {p : Path}
    (hp : p ∈ belowRoot root s) :
    Providers.contentRecord H host root p s = .ok (recordAt H root s p) := by
  obtain ⟨⟨r, rfl⟩, -, hpresent⟩ := mem_belowRoot.mp hp
  unfold Providers.contentRecord recordAt
  rcases h.loose.node (List.prefix_append root r) with hnone | ⟨m, hdir⟩ | ⟨x, m, hfile⟩
  · exact absurd hnone hpresent
  · rw [hdir]
  · obtain ⟨e, he, hregular, rfl, -, rfl⟩ := (h.files r x m).mp hfile
    rw [hfile]
    dsimp only
    rw [List.drop_left, hnormal e he, bind_ok_eq, hreads e he hregular]
    rfl

/-- The path of an extracted file is among those the digest goes over. -/
theorem Laid.file_belowRoot (h : Laid root s₀ done s) {e : ArchiveMember × Bytes} (he : e ∈ done)
    (hregular : e.1.isDirectory = false) :
    s.get (root ++ e.1.normalizedPath) = some (.file e.2 e.1.mode) ∧
      root ++ e.1.normalizedPath ∈ belowRoot root s := by
  have hfile := (h.files _ _ _).mpr ⟨e, he, hregular, rfl, rfl, rfl⟩
  have hne : root ++ e.1.normalizedPath ≠ root := by
    intro heq
    obtain ⟨m, hm⟩ := h.loose.stands
    rw [heq, hm] at hfile
    cases hfile
  refine ⟨hfile, mem_belowRoot.mpr ⟨List.prefix_append _ _, hne, ?_⟩⟩
  rw [hfile]
  exact Option.some_ne_none _

theorem Laid.mem_records (h : Laid root s₀ done s) (record : ContentRecord) :
    record ∈ (belowRoot root s).filterMap (recordAt H root s) ↔
      record ∈ recordsOf H done := by
  rw [recordsOf, List.mem_filterMap, List.mem_filterMap]
  constructor
  · rintro ⟨p, hp, hrecord⟩
    obtain ⟨⟨r, rfl⟩, -, -⟩ := mem_belowRoot.mp hp
    unfold recordAt at hrecord
    split at hrecord
    case h_1 content mode hfile =>
      obtain ⟨e, he, hregular, rfl, rfl, rfl⟩ := (h.files _ _ _).mp hfile
      rw [List.drop_left] at hrecord
      refine ⟨e, he, ?_⟩
      rw [recordOf, hregular]
      exact hrecord
    case h_2 => cases hrecord
  · rintro ⟨e, he, hrecord⟩
    unfold recordOf at hrecord
    split_ifs at hrecord with hdir
    have hregular : e.1.isDirectory = false := by simpa using hdir
    obtain ⟨hfile, hmem⟩ := h.file_belowRoot he hregular
    refine ⟨root ++ e.1.normalizedPath, hmem, ?_⟩
    unfold recordAt
    rw [hfile]
    dsimp only
    rw [List.drop_left]
    exact hrecord

theorem recordOf_eq_some {e : ArchiveMember × Bytes} {r : ContentRecord} :
    recordOf H e = some r ↔ e.1.isDirectory = false ∧
      r = ⟨joinPath e.1.normalizedPath, H.sha256 e.2, e.1.mode⟩ := by
  unfold recordOf
  split_ifs with hdir
  · simp [hdir]
  · simp [hdir, eq_comm]

/-- Records with one path are one record. -/
theorem recordsOf_inj (hnormal : ∀ e ∈ done, NormalPath H e.1.normalizedPath)
    (hdistinct : (done.map (·.1.normalizedPath)).Nodup) {a b : ContentRecord}
    (ha : a ∈ recordsOf H done) (hb : b ∈ recordsOf H done) (h : a.path = b.path) : a = b := by
  obtain ⟨e, he, hrecord⟩ := List.mem_filterMap.mp ha
  obtain ⟨e', he', hrecord'⟩ := List.mem_filterMap.mp hb
  obtain ⟨-, rfl⟩ := recordOf_eq_some.mp hrecord
  obtain ⟨-, rfl⟩ := recordOf_eq_some.mp hrecord'
  have hpath := (hnormal e he).injective (hnormal e' he') h
  rw [List.inj_on_of_nodup_map hdistinct he he' hpath]

theorem recordsOf_ordered
    (h : done.Pairwise fun a b => joinPath a.1.normalizedPath ≤ joinPath b.1.normalizedPath) :
    (recordsOf H done).Pairwise fun a b => a.path ≤ b.path := by
  rw [recordsOf, List.pairwise_filterMap]
  refine h.imp ?_
  intro a b hle r hr r' hr'
  obtain ⟨-, rfl⟩ := recordOf_eq_some.mp hr
  obtain ⟨-, rfl⟩ := recordOf_eq_some.mp hr'
  exact hle

theorem recordsOf_nodup (hnormal : ∀ e ∈ done, NormalPath H e.1.normalizedPath)
    (hdistinct : (done.map (·.1.normalizedPath)).Nodup) : (recordsOf H done).Nodup := by
  rw [recordsOf, List.Nodup, List.pairwise_filterMap]
  rw [List.Nodup, List.pairwise_map] at hdistinct
  refine hdistinct.imp_of_mem ?_
  intro a b ha hb hne r hr r' hr' heq
  obtain ⟨-, rfl⟩ := recordOf_eq_some.mp hr
  obtain ⟨-, rfl⟩ := recordOf_eq_some.mp hr'
  exact hne ((hnormal a ha).injective (hnormal b hb) (congrArg ContentRecord.path heq))

theorem recordAt_eq_some {p : Path} {r : ContentRecord} (h : recordAt H root s p = some r) :
    r.path = joinPath (p.drop root.length) ∧ ∃ x m, s.get p = some (.file x m) := by
  unfold recordAt at h
  split at h
  case h_1 content mode hfile =>
    cases h
    exact ⟨rfl, content, mode, hfile⟩
  case h_2 => cases h

theorem Laid.recordAt_nodup (h : Laid root s₀ done s)
    (hnormal : ∀ e ∈ done, NormalPath H e.1.normalizedPath) {paths : List Path}
    (hbelow : ∀ p ∈ paths, root <+: p) (hpaths : paths.Nodup) :
    (paths.filterMap (recordAt H root s)).Nodup := by
  rw [List.Nodup, List.pairwise_filterMap]
  refine hpaths.imp_of_mem ?_
  intro p q hp hq hne r hr r' hr' heq
  obtain ⟨u, rfl⟩ := hbelow p hp
  obtain ⟨v, rfl⟩ := hbelow q hq
  obtain ⟨hu, x, m, hfile⟩ := recordAt_eq_some hr
  obtain ⟨hv, x', m', hfile'⟩ := recordAt_eq_some hr'
  obtain ⟨e, he, -, rfl, -⟩ := (h.files _ _ _).mp hfile
  obtain ⟨e', he', -, rfl, -⟩ := (h.files _ _ _).mp hfile'
  rw [List.drop_left] at hu hv
  have hjoin : joinPath e.1.normalizedPath = joinPath e'.1.normalizedPath := by
    rw [← hu, ← hv, heq]
  exact hne (by rw [(hnormal e he).injective (hnormal e' he') hjoin])

/-- The digest is that of the extracted members in the order of their paths. -/
theorem Laid.digest (h : Laid root s₀ done s)
    (hnormal : ∀ e ∈ done, NormalPath H e.1.normalizedPath)
    (hreads : ∀ e ∈ done, e.1.isDirectory = false → host.reads e.1.mode = true)
    (hordered : done.Pairwise fun a b =>
      joinPath a.1.normalizedPath ≤ joinPath b.1.normalizedPath)
    (hdistinct : (done.map (·.1.normalizedPath)).Nodup) :
    contentRootDigest H host root s = contentDigest H (recordsOf H done) := by
  let paths := (belowRoot root s).insertionSort fun a b =>
    joinPath (a.drop root.length) ≤ joinPath (b.drop root.length)
  have hperm : paths.Perm (belowRoot root s) := List.perm_insertionSort _ _
  have hreal : (!s.isSymlink root && s.isDir root) = true := by
    obtain ⟨m, hm⟩ := h.loose.stands
    simp [isSymlink, isDir, hm]
  have hrecords : paths.mapM (fun p => Providers.contentRecord H host root p s) =
      .ok (paths.map (recordAt H root s)) :=
    mapM_eq_map fun p hp => h.contentRecord hnormal hreads (hperm.mem_iff.mp hp)
  have hmem : ∀ record, record ∈ paths.filterMap (recordAt H root s) ↔
      record ∈ recordsOf H done := by
    intro record
    rw [← h.mem_records]
    exact (hperm.filterMap _).mem_iff
  have hsorted : (paths.filterMap (recordAt H root s)).Pairwise fun a b => a.path ≤ b.path := by
    rw [List.pairwise_filterMap]
    have htotal : Std.Total fun a b : Path =>
      joinPath (a.drop root.length) ≤ joinPath (b.drop root.length) := ⟨fun a b => le_total _ _⟩
    have htrans : IsTrans Path fun a b : Path =>
      joinPath (a.drop root.length) ≤ joinPath (b.drop root.length) := ⟨fun a b c => le_trans⟩
    refine (List.pairwise_insertionSort _ _).imp ?_
    intro p q hle r hr r' hr'
    rw [(recordAt_eq_some hr).1, (recordAt_eq_some hr').1]
    exact hle
  have hnodup : (paths.filterMap (recordAt H root s)).Nodup := by
    refine h.recordAt_nodup hnormal ?_ (hperm.nodup_iff.mpr (List.nodup_dedup _))
    intro p hp
    exact (mem_belowRoot.mp (hperm.mem_iff.mp hp)).1
  have hsame : (paths.filterMap (recordAt H root s)).Perm (recordsOf H done) :=
    (List.perm_ext_iff_of_nodup hnodup (recordsOf_nodup hnormal hdistinct)).mpr hmem
  have hanti : ∀ a b, a ∈ paths.filterMap (recordAt H root s) → b ∈ recordsOf H done →
      a.path ≤ b.path → b.path ≤ a.path → a = b := by
    intro a b ha hb hab hba
    exact recordsOf_inj hnormal hdistinct ((hmem a).mp ha) hb (le_antisymm hab hba)
  have heq := List.Perm.eq_of_pairwise hanti hsorted (recordsOf_ordered hordered) hsame
  unfold contentRootDigest
  rw [hreal, (check_eq_ok (u := ())).mpr rfl, bind_ok_eq]
  change (paths.mapM (fun p => Providers.contentRecord H host root p s) >>= _) = _
  rw [hrecords, bind_ok_eq, List.filterMap_map, ← heq]
  rfl

/-- A file that cannot be read has no digest. -/
theorem Laid.digest_unreadable (h : Laid root s₀ done s) {e : ArchiveMember × Bytes}
    (he : e ∈ done) (hregular : e.1.isDirectory = false) (hreads : host.reads e.1.mode = false) :
    ∃ failure, contentRootDigest H host root s = .error failure := by
  obtain ⟨hfile, hmem⟩ := h.file_belowRoot he hregular
  cases hdigest : contentRootDigest H host root s with
  | error failure => exact ⟨failure, rfl⟩
  | ok value =>
    obtain ⟨_, -, hdigest⟩ := bind_eq_ok hdigest
    obtain ⟨records, hrecords, -⟩ := bind_eq_ok hdigest
    have hpath := (List.perm_insertionSort (fun a b : Path =>
      joinPath (a.drop root.length) ≤ joinPath (b.drop root.length)) _).mem_iff.mpr hmem
    obtain ⟨record, -, hrecord⟩ := forall₂_left (mapM_eq_ok.mp hrecords) _ hpath
    change Providers.contentRecord H host root (root ++ e.1.normalizedPath) s = _ at hrecord
    rw [Providers.contentRecord, hfile] at hrecord
    obtain ⟨_, -, hrecord⟩ := bind_eq_ok hrecord
    obtain ⟨_, hread, -⟩ := bind_eq_ok hrecord
    rw [check_eq_ok, hreads] at hread
    cases hread

end Digest

end AgentStack.Providers
