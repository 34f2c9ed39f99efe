import AgentStack.Runtime.TaskSteps

/-! The steps of a transaction on metadata files and task trees. -/
namespace AgentStack.Runtime

open AgentStack.Core FileTree Crash Reconcile

variable {host : Host} {L : Layout} {v : View} {s c : FS} {p : Path}

abbrev Subtree := Path → Option (Node Content)

def View.setPlace (v : View) (p : Path) (tree : Subtree) : View :=
  { v with place := Function.update v.place p tree }

@[simp] theorem View.setPlace_place_self (v : View) (p : Path) (tree : Subtree) :
    (v.setPlace p tree).place p = tree := by simp [View.setPlace]

theorem View.setPlace_place_of_ne (v : View) {p q : Path} (h : q ≠ p) (tree : Subtree) :
    (v.setPlace p tree).place q = v.place q := Function.update_of_ne h _ _

@[simp] theorem View.setPlace_eq_self (v : View) (p : Path) : v.setPlace p (v.place p) = v := by
  simp [View.setPlace]

theorem place_update {r : Path} {n : Option (Node Content)} (h : Shows host L v s)
    (hp : p ∈ L.places) (hg : c.get = Function.update s.get (p ++ r) n)
    (hpar : r ≠ [] → s.realDir (parent (p ++ r))) (hr : ¬ s.realDir (p ++ r)) :
    Shows host L (v.setPlace p (Function.update (v.place p) r n)) c := by
  refine h.place_step (fun q hq => ?_) ⟨fun u => ?_, ?_⟩
  · rw [hg, Function.update_of_ne]
    rintro rfl
    exact hq (Layout.region_place hp r)
  · rw [hg]
    by_cases hu : u = r
    · rw [hu, Function.update_self, Function.update_self]
    · rw [Function.update_of_ne hu, Function.update_of_ne (by simpa using hu)]
      exact (h.places p hp).here u
  · refine (h.places p hp).closed.update hg (fun hne _ => hpar ?_) hr
    rintro rfl
    simp at hne

section Metadata

/-- A mutation with the bytes its states ask for, observed without managed blocks. -/
structure MetadataMutation.Valid (host : Host) (m : MetadataMutation) : Prop where
  path : m.original.path = m.candidate.path
  original : ∃ n, Realizes host m.original (m.originalBytes.map .bytes) n
  candidate : ∃ n, Realizes host m.candidate (m.candidateBytes.map .bytes) n
  originalPlain : m.original.managedBlockHash = none
  candidatePlain : m.candidate.managedBlockHash = none

def MetadataMutation.swap (m : MetadataMutation) : MetadataMutation :=
  ⟨m.candidate, m.original, m.candidateBytes, m.originalBytes⟩

theorem MetadataMutation.Valid.swap {m : MetadataMutation} (h : m.Valid host) :
    m.swap.Valid host :=
  ⟨h.path.symm, h.candidate, h.original, h.candidatePlain, h.originalPlain⟩

theorem restoreMetadata_eq (ms : List MetadataMutation) :
    restoreMetadata host ms = applyMetadata host (ms.reverse.map MetadataMutation.swap) := by
  unfold restoreMetadata applyMetadata
  induction ms.reverse with
  | nil => rfl
  | cons m l ih =>
    rw [List.map_cons, Program.each_cons, Program.each_cons, ih]
    rfl

/-- What `observe_file_state` reports of a place. -/
def observedIn (host : Host) (place : Path → Subtree) (p : Path) : Except Failure FileState :=
  describe host p none (place p [])

theorem observe_place (h : Shows host L v s) (hp : p ∈ L.places) :
    observeFileState host p none s = observedIn host v.place p := by
  rw [observeFileState_eq host (h.skeleton.clear p hp), observedIn]
  have := (h.places p hp).here []
  rw [List.append_nil] at this
  rw [this]

theorem not_temp_of_place (hp : p ∈ L.places) : ¬ DirTree.IsTemp casPrefix (parent p) p := by
  rintro ⟨x, -, -, hx⟩
  refine (L.project p hp).not_reserved (casPrefix ++ x) ?_ (Layout.reserved_append x)
  rw [hx]
  simp

/-- One mutation, from its original or its candidate state, ends at the candidate. -/
theorem applyMutation_spec {m : MetadataMutation} (h : Shows host L v s) (hm : m.Valid host)
    (hp : m.candidate.path ∈ L.places) (hreach : v.reached m.candidate.path)
    (hcur : observedIn host v.place m.candidate.path = .ok m.original ∨
      observedIn host v.place m.candidate.path = .ok m.candidate) :
    Triple (· = s) (applyMutation host m)
      (Returns fun _ t => ∃ tree, Shows host L (v.setPlace m.candidate.path tree) t ∧
        describe host m.candidate.path none (tree []) = .ok m.candidate)
      fun c => Shows host L v c ∨ ∃ tree, Shows host L (v.setPlace m.candidate.path tree) c ∧
        describe host m.candidate.path none (tree []) = .ok m.candidate := by
  have hobs := observe_place h hp
  unfold applyMutation
  rw [hm.path]
  by_cases hdone : observedIn host v.place m.candidate.path = .ok m.candidate
  · refine Triple.bind_run (by rw [Program.inspect_run, hobs, hdone]) ?_
    rw [if_pos rfl]
    exact Triple.returns ⟨v.place m.candidate.path, by simpa using h, hdone⟩
  · have horig := hcur.resolve_right hdone
    have hne : m.original ≠ m.candidate := fun he => hdone (he ▸ horig)
    refine Triple.bind_run (by rw [Program.inspect_run, hobs, horig]) ?_
    rw [if_neg hne]
    obtain ⟨n, hn⟩ := hm.candidate
    obtain ⟨n₀, hn₀⟩ := hm.original
    have hproj := L.project _ hp
    have hget : s.get m.candidate.path = v.place m.candidate.path [] := by
      have := (h.places _ hp).here []
      rwa [List.append_nil] at this
    have hnotdir : ¬ s.realDir m.candidate.path := by
      rintro ⟨md, hmd⟩
      have : describe host m.candidate.path none (some (.dir md)) = .ok m.original := by
        rw [← hmd, hget]
        exact horig
      exact hn₀.not_directory (congrArg FileState.fileType (Except.ok.inj this)).symm
    have hafter : ∀ t : FS, t.get = Function.update s.get m.candidate.path n →
        ∃ tree, Shows host L (v.setPlace m.candidate.path tree) t ∧
          describe host m.candidate.path none (tree []) = .ok m.candidate := by
      intro t ht
      refine ⟨Function.update (v.place m.candidate.path) [] n,
        place_update h hp (by simpa using ht) (by simp) (by simpa using hnotdir), ?_⟩
      rw [Function.update_self, ← hm.candidatePlain]
      exact hn.describe
    have hcas := compareAndSwap_spec (s := s) hn hm.path hproj.ne_nil (not_temp_of_place hp)
      (h.skeleton.clear _ hp) (fun _ => h.reached _ hp hreach)
      (by
        rw [hm.originalPlain, hget]
        exact horig) hn₀.not_directory
    refine (hcas.crash fun c hc => ?_).ignore fun _ t ht => hafter t ht.2
    cases hc with
    | temp hT habs hneq hg =>
      refine .inl (h.litter_step fun q hq => ?_)
      rw [hg, Function.update_of_ne]
      rintro rfl
      exact hq (Layout.region_litter hp hT)
    | done hg => exact .inr (hafter c hg)

def mutationPath (m : MetadataMutation) : Path := m.candidate.path

/-- Metadata mutations a transaction can carry: each on its own place, whose directory is
there. -/
structure Mutable (host : Host) (L : Layout) (v : View) (ms : List MetadataMutation) : Prop where
  valid : ∀ m ∈ ms, m.Valid host
  places : ∀ m ∈ ms, mutationPath m ∈ L.places
  distinct : (ms.map mutationPath).Nodup
  reached : ∀ m ∈ ms, v.reached (mutationPath m)

/-- Every metadata file is as before its mutation or as after it. -/
def Mixed (host : Host) (place : Path → Subtree) (ms : List MetadataMutation) : Prop :=
  ∀ m ∈ ms, observedIn host place (mutationPath m) = .ok m.original ∨
    observedIn host place (mutationPath m) = .ok m.candidate

def AllOriginal (host : Host) (place : Path → Subtree) (ms : List MetadataMutation) : Prop :=
  ∀ m ∈ ms, observedIn host place (mutationPath m) = .ok m.original

def AllCandidate (host : Host) (place : Path → Subtree) (ms : List MetadataMutation) : Prop :=
  ∀ m ∈ ms, observedIn host place (mutationPath m) = .ok m.candidate

/-- `place'` differs from `place` on metadata files only. -/
def OffMetadata (ms : List MetadataMutation) (place place' : Path → Subtree) : Prop :=
  ∀ p, p ∉ ms.map mutationPath → place' p = place p

theorem Mutable.swap {ms : List MetadataMutation} (h : Mutable host L v ms) :
    Mutable host L v (ms.reverse.map MetadataMutation.swap) := by
  have hpath : ∀ m ∈ ms, mutationPath m.swap = mutationPath m := fun m hm =>
    (h.valid m hm).path
  refine ⟨?_, ?_, ?_, ?_⟩
  · simp only [List.mem_map, List.mem_reverse, forall_exists_index, and_imp,
      forall_apply_eq_imp_iff₂]
    exact fun m hm => (h.valid m hm).swap
  · simp only [List.mem_map, List.mem_reverse, forall_exists_index, and_imp,
      forall_apply_eq_imp_iff₂]
    exact fun m hm => (hpath m hm).symm ▸ h.places m hm
  · have hmap : (ms.reverse.map MetadataMutation.swap).map mutationPath =
        (ms.map mutationPath).reverse := by
      rw [List.map_map, ← List.map_reverse]
      refine List.map_congr_left fun m hm => hpath m (List.mem_reverse.mp hm)
    rw [hmap, List.nodup_reverse]
    exact h.distinct
  · simp only [List.mem_map, List.mem_reverse, forall_exists_index, and_imp,
      forall_apply_eq_imp_iff₂]
    exact fun m hm => (hpath m hm).symm ▸ h.reached m hm

theorem Mutable.withPlace {ms : List MetadataMutation} (h : Mutable host L v ms)
    (g : Path → Subtree) : Mutable host L { v with place := g } ms :=
  ⟨h.valid, h.places, h.distinct, h.reached⟩

/-- Applying mutations one after the other, from any mixture of states. -/
theorem applyMetadata_spec {ms : List MetadataMutation} (h : Shows host L v s)
    (hm : Mutable host L v ms) (hmix : Mixed host v.place ms) :
    Triple (· = s) (applyMetadata host ms)
      (Returns fun _ t => ∃ g, Shows host L { v with place := g } t ∧
        OffMetadata ms v.place g ∧ AllCandidate host g ms)
      fun c => ∃ g, Shows host L { v with place := g } c ∧ OffMetadata ms v.place g ∧
        Mixed host g ms := by
  let I : List MetadataMutation → FS → Prop := fun rest t =>
    ∃ g, Shows host L { v with place := g } t ∧ OffMetadata ms v.place g ∧ Mixed host g ms ∧
      ∀ m ∈ ms, m ∉ rest → observedIn host g (mutationPath m) = .ok m.candidate
  have hstart : I ms s := ⟨v.place, h, fun _ _ => rfl, hmix, fun m hm hn => absurd hm hn⟩
  have hloop : Triple (I ms) (applyMetadata host ms) (Returns fun _ => I [])
      fun c => ∃ g, Shows host L { v with place := g } c ∧ OffMetadata ms v.place g ∧
        Mixed host g ms := by
    refine Triple.each I ms fun m rest ⟨before, hb⟩ =>
      Triple.of_forall fun t ⟨g, hs, hoff, hmix, hdone⟩ => ?_
    have hmem : m ∈ ms := hb ▸ by simp
    -- another mutation of the list is on another path
    have hother : ∀ x ∈ ms, x ≠ m → mutationPath x ≠ mutationPath m := by
      intro x hx hne he
      exact hne (List.inj_on_of_nodup_map hm.distinct hx hmem he)
    have hnew : ∀ tree : Subtree, describe host (mutationPath m) none (tree []) = .ok m.candidate →
        OffMetadata ms v.place (Function.update g (mutationPath m) tree) ∧
          Mixed host (Function.update g (mutationPath m) tree) ms ∧
          ∀ x ∈ ms, x ∉ rest →
            observedIn host (Function.update g (mutationPath m) tree) (mutationPath x) =
              .ok x.candidate := by
      intro tree htree
      have hobs : ∀ x ∈ ms, x ≠ m →
          observedIn host (Function.update g (mutationPath m) tree) (mutationPath x) =
            observedIn host g (mutationPath x) := fun x hx hne => by
        rw [observedIn, observedIn, Function.update_of_ne (hother x hx hne)]
      have hself : observedIn host (Function.update g (mutationPath m) tree) (mutationPath m) =
          .ok m.candidate := by
        rw [observedIn, Function.update_self]
        exact htree
      refine ⟨fun p hp => ?_, fun x hx => ?_, fun x hx hxr => ?_⟩
      · rw [Function.update_of_ne, hoff p hp]
        rintro rfl
        exact hp (List.mem_map_of_mem hmem)
      · by_cases hxm : x = m
        · exact .inr (hxm ▸ hself)
        · rw [hobs x hx hxm]
          exact hmix x hx
      · by_cases hxm : x = m
        · exact hxm ▸ hself
        · rw [hobs x hx hxm]
          exact hdone x hx (by simp [hxm, hxr])
    have hstep := applyMutation_spec hs (hm.valid m hmem) (hm.places m hmem) (hm.reached m hmem)
      (hmix m hmem)
    refine hstep.weaken (fun _ h => h) ?_ ?_
    · rintro o u ⟨a, ho, tree, hu, htree⟩
      obtain ⟨h1, h2, h3⟩ := hnew tree htree
      exact ⟨a, ho, _, hu, h1, h2, h3⟩
    · rintro c (hc | ⟨tree, hc, htree⟩)
      · exact ⟨g, hc, hoff, hmix⟩
      · obtain ⟨h1, h2, -⟩ := hnew tree htree
        exact ⟨_, hc, h1, h2⟩
  refine (hloop.pre fun t ht => by rw [ht]; exact hstart).post ?_
  rintro o t ⟨a, ho, g, hs, hoff, -, hall⟩
  exact ⟨a, ho, g, hs, hoff, fun m hm => hall m hm (by simp)⟩

/-- Restoring them, from any mixture of states. -/
theorem restoreMetadata_spec {ms : List MetadataMutation} (h : Shows host L v s)
    (hm : Mutable host L v ms) (hmix : Mixed host v.place ms) :
    Triple (· = s) (restoreMetadata host ms)
      (Returns fun _ t => ∃ g, Shows host L { v with place := g } t ∧
        OffMetadata ms v.place g ∧ AllOriginal host g ms)
      fun c => ∃ g, Shows host L { v with place := g } c ∧ OffMetadata ms v.place g ∧
        Mixed host g ms := by
  have hpath : ∀ m ∈ ms, mutationPath m.swap = mutationPath m := fun m hx =>
    (hm.valid m hx).path
  have hmem : ∀ m ∈ ms, m.swap ∈ ms.reverse.map MetadataMutation.swap := fun m hx =>
    List.mem_map_of_mem (List.mem_reverse.mpr hx)
  have hoff : ∀ g, OffMetadata (ms.reverse.map MetadataMutation.swap) v.place g →
      OffMetadata ms v.place g := by
    intro g hg p hp
    refine hg p fun hin => hp ?_
    simp only [List.mem_map, List.mem_reverse, exists_exists_and_eq_and] at hin
    obtain ⟨m, hx, rfl⟩ := hin
    rw [hpath m hx]
    exact List.mem_map_of_mem hx
  have hmix' : Mixed host v.place (ms.reverse.map MetadataMutation.swap) := by
    intro x hx
    simp only [List.mem_map, List.mem_reverse] at hx
    obtain ⟨m, hx, rfl⟩ := hx
    rw [hpath m hx]
    exact (hmix m hx).symm
  rw [restoreMetadata_eq]
  refine (applyMetadata_spec h hm.swap hmix').weaken (fun _ h => h) ?_ ?_
  · rintro o t ⟨a, ho, g, hs, hg, hall⟩
    refine ⟨a, ho, g, hs, hoff g hg, fun m hx => ?_⟩
    rw [← hpath m hx]
    exact hall _ (hmem m hx)
  · rintro c ⟨g, hs, hg, hall⟩
    refine ⟨g, hs, hoff g hg, fun m hx => ?_⟩
    rw [← hpath m hx]
    exact (hall _ (hmem m hx)).symm

end Metadata
end AgentStack.Runtime
