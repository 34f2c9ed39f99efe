import AgentStack.Runtime.PlaceSteps

/-! The steps of a transaction on task trees: the integration swap, removal and the moves. -/
namespace AgentStack.Runtime

open AgentStack.Core FileTree Crash Reconcile

variable {host : Host} {L : Layout} {v : View} {s c : FS} {p : Path} {f : Subtree}

/-- Nothing, or a directory with what is in it. -/
def DirOrNone (f : Subtree) : Prop := f [] = none ∨ ∃ m, f [] = some (.dir m)

def integrationNode (i : Integration) : Node Content := .file (.integration i) integrationMode

/-- The tree with another integration in it. -/
def withIntegration (f : Subtree) (i : Integration) : Subtree :=
  Function.update f [integrationName] (some (integrationNode i))

/-- What is observed of the integration of a task tree. -/
def integrationOf (host : Host) (p : Path) (f : Subtree) : Except Failure FileState :=
  describe host (p ++ [integrationName]) none (f [integrationName])

theorem PlaceShows.get_self (h : PlaceShows p f s) : s.get p = f [] := by
  have := h.here []
  rwa [List.append_nil] at this

theorem Shows.clear_place (h : Shows host L v s) (hp : p ∈ L.places)
    (hf : DirOrNone (v.place p)) : s.Clear p := by
  have hc := h.skeleton.clear p hp
  refine ⟨hc.1, fun q hq => ?_⟩
  rw [← parent_append_name (L.project p hp).ne_nil] at hq
  rcases List.prefix_concat_iff.mp hq with rfl | hq
  · rw [parent_append_name (L.project p hp).ne_nil]
    rcases hf with hn | ⟨m, hm⟩
    · exact .inl ((h.places p hp).get_self.trans hn)
    · exact .inr ⟨m, (h.places p hp).get_self.trans hm⟩
  · exact hc.2 q hq

section Integration

variable {taskRef : String} {before after : Integration}

theorem integrationOf_node {f : Subtree} {i : Integration}
    (h : f [integrationName] = some (integrationNode i)) :
    integrationOf host (segments taskRef) f = .ok (integrationState host taskRef i) := by
  rw [integrationOf, h]
  rfl

theorem observe_integration (h : Shows host L v s) (hp : segments taskRef ∈ L.places)
    (hf : DirOrNone (v.place (segments taskRef))) :
    observeFileState host (integrationFile taskRef) none s =
      integrationOf host (segments taskRef) (v.place (segments taskRef)) := by
  have hpar : parent (integrationFile taskRef) = segments taskRef := parent_append _ _
  rw [observeFileState_eq host (by rw [hpar]; exact h.clear_place hp hf), integrationFile,
    (h.places _ hp).here]
  rfl

theorem casIntegration_done (h : Shows host L v s) (hp : segments taskRef ∈ L.places)
    (hf : DirOrNone (v.place (segments taskRef)))
    (hdone : integrationOf host (segments taskRef) (v.place (segments taskRef)) =
      .ok (integrationState host taskRef after)) :
    (casIntegration host taskRef before after).run s = ⟨[], .ok ()⟩ := by
  have hobs := observe_integration h hp hf
  rw [hdone] at hobs
  unfold casIntegration
  simp only
  rw [Program.bind_of_pure (a := integrationState host taskRef after)
    (by rw [Program.inspect_run]; exact congrArg _ hobs), if_pos rfl]
  rfl

theorem casIntegration_spec (h : Shows host L v s) (hp : segments taskRef ∈ L.places)
    (hf : DirOrNone (v.place (segments taskRef)))
    (hcur : integrationOf host (segments taskRef) (v.place (segments taskRef)) =
      .ok (integrationState host taskRef before))
    (hne : integrationState host taskRef before ≠ integrationState host taskRef after) :
    Triple (· = s) (casIntegration host taskRef before after)
      (Returns fun _ => Shows host L (v.setPlace (segments taskRef)
        (withIntegration (v.place (segments taskRef)) after)))
      fun c => Shows host L (v.setPlace (segments taskRef)
          (withIntegration (v.place (segments taskRef)) after)) c ∨
        ∃ x n, Reserved x ∧ v.place (segments taskRef) [x] = none ∧
          Shows host L (v.setPlace (segments taskRef)
            (Function.update (v.place (segments taskRef)) [x] (some n))) c := by
  have hpar : parent (integrationFile taskRef) = segments taskRef := parent_append _ _
  have hclear := h.clear_place hp hf
  have hget : s.get (integrationFile taskRef) = v.place (segments taskRef) [integrationName] :=
    (h.places _ hp).here _
  -- the integration is a file, so the task tree is a directory
  have hnode : ∃ x m, s.get (integrationFile taskRef) = some (.file x m) := by
    rw [hget]
    unfold integrationOf at hcur
    rcases hn : v.place (segments taskRef) [integrationName] with _ | ⟨x, m⟩ | m | k
    · rw [hn] at hcur
      cases hcur
    · exact ⟨x, m, rfl⟩
    · rw [hn] at hcur
      cases hcur
    · rw [hn] at hcur
      cases hcur
  obtain ⟨x, m, hx⟩ := hnode
  have hdir : s.realDir (segments taskRef) := by
    have := (h.places _ hp).closed [] integrationName
    rw [List.append_nil] at this
    exact this (by rw [← integrationFile, hx]; rfl)
  have hnd : ¬ s.realDir (integrationFile taskRef) := by
    rintro ⟨md, hmd⟩
    rw [hx] at hmd
    cases hmd
  have hafter : ∀ t : FS, t.get = Function.update s.get (integrationFile taskRef)
      (some (integrationNode after)) → Shows host L (v.setPlace (segments taskRef)
        (withIntegration (v.place (segments taskRef)) after)) t := fun t ht =>
    place_update h hp ht (fun _ => by rw [← integrationFile, hpar]; exact hdir) hnd
  have hobs := observe_integration h hp hf
  rw [hcur] at hobs
  unfold casIntegration
  simp only
  refine Triple.bind_run (a := integrationState host taskRef before)
    (by rw [Program.inspect_run]; exact congrArg _ hobs) ?_
  rw [if_neg hne]
  have hcas := @compareAndSwap_spec host s (integrationState host taskRef before) _ _ _
    (.regular (integrationFile taskRef) (.integration after) integrationMode none) rfl
    (by simp [regularState, integrationFile])
    (by
      rintro ⟨y, -, -, hy⟩
      have hy' : integrationFile taskRef = parent (integrationFile taskRef) ++ [casPrefix ++ y] := hy
      have := congrArg (fun q => (name q).toList.head?) hy'
      simp [integrationFile, name, casPrefix, integrationName] at this)
    (by
      change s.Clear (parent (integrationFile taskRef))
      rw [hpar]
      exact hclear)
    (fun _ => by
      change s.realDir (parent (integrationFile taskRef))
      rw [hpar]
      exact hdir)
    (by
      change describe host (integrationFile taskRef) none (s.get (integrationFile taskRef)) = _
      rw [hget]
      exact hcur) (by simp [integrationState, regularState])
  refine (hcas.crash fun c hc => ?_).ignore fun _ t ht => hafter t ht.2
  cases hc with
  | temp hT habs hneq hg =>
    change DirTree.IsTemp casPrefix (parent (integrationFile taskRef)) _ at hT
    rw [hpar] at hT
    obtain ⟨y, -, -, rfl⟩ := hT
    refine .inr ⟨casPrefix ++ y, _, Layout.reserved_append y, ?_,
      place_update h hp hg (fun _ => by rwa [parent_append]) ?_⟩
    · rw [← (h.places _ hp).here]
      exact habs
    · rintro ⟨md, hmd⟩
      rw [habs] at hmd
      cases hmd
  | done hg => exact .inl (hafter c hg)

/-- Over any other integration the swap fails and has no effect. -/
theorem casIntegration_error (h : Shows host L v s) (hp : segments taskRef ∈ L.places)
    (hf : DirOrNone (v.place (segments taskRef)))
    (hb : integrationOf host (segments taskRef) (v.place (segments taskRef)) ≠
      .ok (integrationState host taskRef before))
    (ha : integrationOf host (segments taskRef) (v.place (segments taskRef)) ≠
      .ok (integrationState host taskRef after)) :
    ∃ e, (casIntegration host taskRef before after).run s = ⟨[], .error e⟩ := by
  have hpar : parent (integrationFile taskRef) = segments taskRef := parent_append _ _
  have hobs := observe_integration h hp hf
  have hpath : (integrationState host taskRef before).path = integrationFile taskRef := rfl
  unfold casIntegration
  simp only [hpath]
  rcases hi : integrationOf host (segments taskRef) (v.place (segments taskRef)) with e | current
  · exact ⟨e, Program.bind_of_error (by rw [Program.inspect_run, hobs, hi])⟩
  · rw [Program.bind_of_pure (a := current) (by rw [Program.inspect_run, hobs, hi]),
      if_neg fun he => ha (by rw [hi, he])]
    obtain ⟨e, he⟩ := @compareAndSwap_mismatch host s (integrationState host taskRef before)
      (integrationState host taskRef after) (some (.integration after)) rfl
      (by
        change s.Clear (parent (integrationFile taskRef))
        rw [hpar]
        exact h.clear_place hp hf)
      (by
        change describe host (integrationFile taskRef) none (s.get (integrationFile taskRef)) ≠ _
        rw [integrationFile, (h.places _ hp).here]
        exact hb)
    exact ⟨e, Program.bind_of_error he⟩

end Integration

section Removal

/-- No tree at all. -/
def noTree : Subtree := fun _ => none

/-- Some entries of a tree are gone; what is left still lies in directories. -/
structure Thinned (f g : Subtree) : Prop where
  kept : ∀ r, g r = f r ∨ g r = none
  rooted : ∀ r n, (g (r ++ [n])).isSome → ∃ m, g r = some (.dir m)

theorem Thinned.dirOrNone {g : Subtree} (h : Thinned f g) (hf : DirOrNone f) : DirOrNone g := by
  rcases h.kept [] with he | he
  · rw [DirOrNone, he]
    exact hf
  · exact .inl he

theorem Thinned.trans {g k : Subtree} (h : Thinned f g) (h' : Thinned g k) : Thinned f k := by
  refine ⟨fun r => ?_, h'.rooted⟩
  rcases h'.kept r with he | he
  · rw [he]
    exact h.kept r
  · exact .inr he

theorem Thinned.gone : Thinned f noTree := ⟨fun _ => .inr rfl, fun _ _ h => by cases h⟩

/-- Without its root nothing is left. -/
theorem Thinned.eq_noTree {g : Subtree} (h : Thinned f g) (hn : g [] = none) : g = noTree := by
  funext r
  induction r using List.reverseRecOn with
  | nil => exact hn
  | append_singleton r n ih =>
    by_contra hne
    obtain ⟨m, hm⟩ := h.rooted r n (Option.isSome_iff_ne_none.mpr hne)
    rw [ih] at hm
    cases hm

theorem PlaceShows.thinned (h : PlaceShows p f s) : Thinned f f := by
  refine ⟨fun _ => .inl rfl, fun r n hn => ?_⟩
  rw [← h.here, ← List.append_assoc] at hn
  obtain ⟨m, hm⟩ := h.closed r n hn
  exact ⟨m, by rw [← h.here, hm]⟩

theorem StagingShows.thinned {transactionId : String} (h : StagingShows transactionId f s) :
    Thinned f f := by
  refine ⟨fun _ => .inl rfl, fun r n hn => ?_⟩
  rw [← h.here, ← List.append_assoc] at hn
  obtain ⟨m, hm⟩ := h.closed r n hn
  exact ⟨m, by rw [← h.here, hm]⟩

theorem closed_none {tree : Subtree} (h : PlaceShows p tree s) (hn : tree [] = none) :
    tree = noTree := by
  funext r
  have := h.closed.absent (r := []) (by rw [h.here, hn]) r
  rw [List.append_nil, h.here] at this
  exact this

theorem pruned_place (h : Shows host L v s) (hp : p ∈ L.places) (hc : s.Pruned p c) :
    ∃ g, Thinned (v.place p) g ∧ Shows host L (v.setPlace p g) c := by
  refine ⟨fun r => c.get (p ++ r), ⟨fun r => ?_, fun r n hn => ?_⟩,
    h.place_step (fun q hq => hc.outside q ?_) ⟨fun _ => rfl, hc.closed⟩⟩
  · rw [← (h.places p hp).here]
    exact hc.inside _
  · exact hc.closed r n (by rwa [List.append_assoc])
  · rintro ⟨r, rfl⟩
    exact hq (Layout.region_place hp r)

theorem cut_place (h : Shows host L v s) (hp : p ∈ L.places) (hc : s.Cut p c) :
    Shows host L (v.setPlace p noTree) c := by
  refine h.place_step (fun q hq => ?_) ⟨fun r => ?_, hc.closedAt⟩
  · rw [hc, if_neg]
    rintro ⟨r, rfl⟩
    exact hq (Layout.region_place hp r)
  · rw [hc, if_pos (List.prefix_append p r)]
    rfl

theorem removeTaskTree_spec {taskRef : String} (h : Shows host L v s)
    (hp : segments taskRef ∈ L.places) (hf : DirOrNone (v.place (segments taskRef))) :
    Triple (· = s) (removeTaskTree taskRef)
      (Returns fun _ => Shows host L (v.setPlace (segments taskRef) noTree))
      fun c => ∃ g, Thinned (v.place (segments taskRef)) g ∧
        Shows host L (v.setPlace (segments taskRef) g) c := by
  have hself := (h.places _ hp).get_self
  unfold removeTaskTree
  refine Triple.whenever _ (fun ht => ?_) fun ht => ?_
  · have hd : s.realDir (segments taskRef) := by
      rcases hf with hn | ⟨m, hm⟩
      · simp [DirTree.exists, hself, hn] at ht
      · exact ⟨m, hself.trans hm⟩
    refine Triple.bind_run (Program.read_run _ _) ?_
    rw [if_pos (by simpa [DirTree.isRealDir] using hd)]
    refine (DirTree.rmtree_spec hd (h.places _ hp).closed).weaken (fun _ h => h) ?_
      fun c hc => pruned_place h hp hc
    rintro o t ⟨a, ho, ht⟩
    exact ⟨a, ho, cut_place h hp ht⟩
  · have hn : v.place (segments taskRef) [] = none := by
      rcases hf with hn | ⟨m, hm⟩
      · exact hn
      · simp [DirTree.exists, hself, hm] at ht
    refine ⟨(), rfl, ?_⟩
    rw [← closed_none (h.places _ hp) hn]
    simpa using h

def View.setStaging (v : View) (tree : Subtree) : View := { v with staging := tree }

theorem StagingShows.get_self {transactionId : String} (h : StagingShows transactionId f s) :
    s.get (stagingRoot transactionId) = f [] := by
  have := h.here []
  rwa [List.append_nil] at this

theorem staging_none {transactionId : String} (h : StagingShows transactionId f s)
    (hn : f [] = none) : f = noTree := by
  funext r
  have := h.closed.absent (r := []) (by rw [h.here, hn]) r
  rw [List.append_nil, h.here] at this
  exact this

theorem removeStaging_spec (h : Shows host L v s) (hf : DirOrNone v.staging) :
    Triple (· = s) (removeStaging L.transactionId)
      (Returns fun _ => Shows host L (v.setStaging noTree))
      fun c => ∃ g, Thinned v.staging g ∧ Shows host L (v.setStaging g) c := by
  have hself := h.staging.get_self
  have hoff : ∀ (c : FS) q, (∀ q, ¬ stagingRoot L.transactionId <+: q → c.get q = s.get q) →
      L.region q ≠ .staging → c.get q = s.get q := by
    intro c q hout hq
    refine hout q ?_
    rintro ⟨r, rfl⟩
    exact hq (Layout.region_staging r)
  unfold removeStaging
  refine Triple.whenever _ (fun ht => ?_) fun ht => ?_
  · have hd : s.realDir (stagingRoot L.transactionId) := by
      rcases hf with hn | ⟨m, hm⟩
      · simp [DirTree.exists, hself, hn] at ht
      · exact ⟨m, hself.trans hm⟩
    refine (DirTree.rmtree_spec hd h.staging.closed).weaken (fun _ h => h) ?_ fun c hc => ?_
    · rintro o t ⟨a, ho, ht⟩
      refine ⟨a, ho, h.staging_step (fun q hq => hoff t q (fun q hq => ?_) hq)
        ⟨fun r => ?_, ht.closedAt⟩⟩
      · rw [ht, if_neg hq]
      · rw [ht, if_pos (List.prefix_append _ r)]
        rfl
    · refine ⟨fun r => c.get (stagingRoot L.transactionId ++ r), ⟨fun r => ?_, fun r n hn => ?_⟩,
        h.staging_step (fun q hq => hoff c q hc.outside hq) ⟨fun _ => rfl, hc.closed⟩⟩
      · rw [← h.staging.here]
        exact hc.inside _
      · exact hc.closed r n (by rwa [List.append_assoc])
  · have hn : v.staging [] = none := by
      rcases hf with hn | ⟨m, hm⟩
      · exact hn
      · simp [DirTree.exists, hself, hm] at ht
    refine ⟨(), rfl, ?_⟩
    rw [← staging_none h.staging hn]
    exact h

end Removal
end AgentStack.Runtime
