import AgentStack.Runtime.MoveSteps

/-! The staging of a task's files. -/
namespace AgentStack.Runtime

open AgentStack.Core FileTree Crash Reconcile

variable {host : Host} {L : Layout} {v : View} {s c : FS} {f g : Subtree}

def bareTree (host : Host) : Subtree := Function.update noTree [] (some (.dir host.dirMode))

/-- The tree with the directories on the way to `d`. -/
def withDirs (m : FileTree.Mode) (f : Subtree) (d : Path) : Subtree := fun r =>
  if r <+: d ∧ f r = none then some (.dir m) else f r

def withFile (host : Host) (f : Subtree) (r : Path) (n : Node Content) : Subtree :=
  Function.update (withDirs host.dirMode f (parent r)) r (some n)

def fileNode (item : FileDocument) : Node Content := .file (.bytes item.content) item.mode

/-- A tree with task files added in their order. -/
def withFiles (host : Host) (files : List FileDocument) (f : Subtree) : Subtree :=
  files.foldl (fun f item => withFile host f item.path (fileNode item)) f

/-- The tree an admission stages: its task files and an integration. -/
def taskTree (host : Host) (files : List FileDocument) (i : Integration) : Subtree :=
  withIntegration (withFiles host files (bareTree host)) i

/-- A staged tree before its integration is there. -/
structure Shell (host : Host) (g : Subtree) : Prop where
  root : g [] = some (.dir host.dirMode)
  bare : g [integrationName] = none
  plain : ∀ r k, g r ≠ some (.symlink k)

/-- The way to a new file is free. -/
structure Fits (g : Subtree) (r : Path) : Prop where
  absent : g r = none
  clear : ∀ q, q <+: parent r → g q = none ∨ ∃ m, g q = some (.dir m)

theorem Shell.bareTree : Shell host (bareTree host) := by
  refine ⟨by simp [Runtime.bareTree], by simp [Runtime.bareTree, noTree], fun r k => ?_⟩
  by_cases hr : r = [] <;> simp [Runtime.bareTree, noTree, hr]

theorem Shell.update {r : Path} {x : Content} {m : FileTree.Mode} (h : Shell host g)
    (hr : r ≠ []) (hi : r ≠ [integrationName]) :
    Shell host (Function.update g r (some (.file x m))) := by
  refine ⟨by rw [Function.update_of_ne hr.symm, h.root],
    by rw [Function.update_of_ne hi.symm, h.bare], fun q k => ?_⟩
  by_cases hq : q = r
  · rw [hq, Function.update_self]
    simp
  · rw [Function.update_of_ne hq]
    exact h.plain q k

theorem Shell.withDirs {m : FileTree.Mode} {d : Path} (h : Shell host g)
    (hd : ¬ [integrationName] <+: d) : Shell host (withDirs m g d) := by
  refine ⟨?_, ?_, fun q k => ?_⟩
  · rw [Runtime.withDirs, if_neg (by simp [h.root]), h.root]
  · rw [Runtime.withDirs, if_neg (by simp [hd]), h.bare]
  · unfold Runtime.withDirs
    split
    · simp
    · exact h.plain q k

theorem prefix_stagingRoot {q : Path} {transactionId : String}
    (h : q <+: stagingRoot transactionId) :
    q = [] ∨ q = controlDir ∨ q = localDir ∨ q = localDir ++ ["task-staging"] ∨
      q = stagingRoot transactionId := by
  have hin := (List.mem_inits _ _).mpr h
  simpa [stagingRoot, controlDir, localDir] using hin

theorem Layout.region_toStaging {q r : Path} (h : q <+: stagingRoot L.transactionId ++ r) :
    L.region q = .control ∨ L.region q = .project ∨ L.region q = .staging := by
  rcases List.prefix_or_prefix_of_prefix h (List.prefix_append _ r) with hq | ⟨u, rfl⟩
  · rcases prefix_stagingRoot hq with rfl | rfl | rfl | rfl | rfl
    · exact .inr (.inl Layout.region_root)
    · exact .inl (Layout.region_control (by simp))
    · exact .inl (Layout.region_control (by simp))
    · exact .inl (Layout.region_control (by simp))
    · exact .inr (.inr (by simpa [stagingRoot] using Layout.region_staging (L := L) []))
  · exact .inr (.inr (Layout.region_staging u))

theorem not_maintenance (r : Path) : ¬ maintenancePath <+: stagingRoot L.transactionId ++ r := by
  rintro ⟨t, ht⟩
  simp [maintenancePath, stagingRoot] at ht

theorem stagingTask_append (r : Path) :
    stagingTask L.transactionId ++ r = stagingRoot L.transactionId ++ "task" :: r := by
  simp [stagingTask]

theorem StagingShows.task (h : StagingShows L.transactionId (stagingOf host g) s) (r : Path) :
    s.get (stagingTask L.transactionId ++ r) = g r := by
  rw [stagingTask_append, h.here, stagingOf_task]

/-- One entry of the staged tree. -/
theorem staging_update {r : Path} {n : Option (Node Content)} (h : Shows host L v s)
    (hst : v.staging = stagingOf host g)
    (hg : c.get = Function.update s.get (stagingTask L.transactionId ++ r) n)
    (hpar : s.realDir (parent (stagingTask L.transactionId ++ r)))
    (hr : ¬ s.realDir (stagingTask L.transactionId ++ r)) :
    Shows host L (v.setStaging (stagingOf host (Function.update g r n))) c := by
  refine h.staging_step (fun q hq => ?_) ⟨fun u => ?_, ?_⟩
  · rw [hg, Function.update_of_ne]
    rintro rfl
    rw [stagingTask_append] at hq
    exact hq (Layout.region_staging _)
  · rw [hg, stagingTask_append]
    by_cases hu : u = "task" :: r
    · rw [hu, Function.update_self, stagingOf_task, Function.update_self]
    · rw [Function.update_of_ne (by simpa using hu), h.staging.here, hst]
      rcases u with _ | ⟨a, u⟩
      · rfl
      · by_cases ha : a = "task"
        · subst ha
          rw [stagingOf_task, stagingOf_task, Function.update_of_ne (by simpa using hu)]
        · rw [stagingOf_other ha, stagingOf_other ha]
  · exact h.staging.closed.update hg (fun _ _ => hpar) hr

/-- The staged tree after directories were added in it. -/
theorem staging_grown {d : Path} (h : Shows host L v s) (hst : v.staging = stagingOf host g)
    (hs : Shell host g) (hd : ¬ [integrationName] <+: d)
    (hc : s.Grown host.dirMode (stagingTask L.transactionId ++ d) c) :
    ∃ g', Shell host g' ∧ Shows host L (v.setStaging (stagingOf host g')) c ∧
      (c.realDir (stagingTask L.transactionId ++ d) → g' = withDirs host.dirMode g d) := by
  have hstg : StagingShows L.transactionId (stagingOf host g) s := hst ▸ h.staging
  have hchange : ∀ r, c.get (stagingTask L.transactionId ++ r) = g r ∨
      r <+: d ∧ g r = none ∧
        c.get (stagingTask L.transactionId ++ r) = some (.dir host.dirMode) := by
    intro r
    rcases hc.added (stagingTask L.transactionId ++ r) with he | ⟨hp, hn, hm⟩
    · exact .inl (he.trans (hstg.task r))
    · exact .inr ⟨by simpa using hp, (hstg.task r).symm.trans hn, hm⟩
  have hclosed := h.staging.closed.grown hc
  refine ⟨fun r => c.get (stagingTask L.transactionId ++ r), ⟨?_, ?_, fun r k => ?_⟩,
    h.extends hc.added (fun q hq => ?_) ?_ ⟨fun r => ?_, hclosed⟩, fun hreal => funext fun r => ?_⟩
  · rcases hchange [] with he | ⟨-, hn, -⟩
    · exact he.trans hs.root
    · rw [hs.root] at hn
      cases hn
  · rcases hchange [integrationName] with he | ⟨hp, -, -⟩
    · exact he.trans hs.bare
    · exact absurd hp hd
  · rcases hchange r with he | ⟨-, -, hm⟩
    · simpa only [he] using hs.plain r k
    · simp [hm]
  · exact Layout.region_toStaging (r := "task" :: d) (by rwa [stagingTask_append] at hq)
  · rw [stagingTask_append]
    exact not_maintenance _
  · rcases r with _ | ⟨a, r⟩
    · rw [List.append_nil, hc.added.get_some (n := .dir host.dirMode)]
      · rfl
      · simpa using hstg.here []
    · by_cases ha : a = "task"
      · subst ha
        rw [stagingOf_task, stagingTask_append]
      · rw [stagingOf_other ha, hc.added.get_of_not_prefix, hstg.here, stagingOf_other ha]
        rw [stagingTask_append]
        rintro ⟨t, ht⟩
        simp at ht
        exact ha ht.1
  · rcases hchange r with he | ⟨hp, hn, hm⟩
    · rw [withDirs, he]
      split
      · next hr =>
        -- a directory below would be missing its own
        obtain ⟨u, hu⟩ := hr.1
        have hnone := (hclosed.below ["task"]).absent (r := r)
          (by simpa [stagingTask] using he.trans hr.2) u
        obtain ⟨k, hk⟩ := hreal
        rw [← hu] at hk
        simp only [stagingTask, List.append_assoc] at hk hnone
        rw [hnone] at hk
        cases hk
      · rfl
    · rw [withDirs, if_pos ⟨hp, hn⟩, hm]

theorem Skeleton.clear_staging (h : Shows host L v s) (hst : v.staging = stagingOf host g)
    {d : Path} (hd : ∀ q, q <+: d → g q = none ∨ ∃ m, g q = some (.dir m)) :
    s.Clear (stagingTask L.transactionId ++ d) := by
  have hstg : StagingShows L.transactionId (stagingOf host g) s := hst ▸ h.staging
  refine ⟨h.skeleton.root, fun q hq => ?_⟩
  rw [stagingTask_append] at hq
  rcases List.prefix_or_prefix_of_prefix hq (List.prefix_append _ _) with hq' | ⟨u, rfl⟩
  · rcases prefix_stagingRoot hq' with rfl | rfl | rfl | rfl | rfl
    · exact .inr h.skeleton.root
    · exact .inr h.skeleton.control
    · exact .inr h.skeleton.locals
    · exact h.skeleton.staging
    · exact .inr ⟨host.dirMode, hstg.here []⟩
  · rcases u with _ | ⟨a, u⟩
    · exact .inr ⟨host.dirMode, hstg.here []⟩
    · obtain ⟨rfl, hu⟩ : a = "task" ∧ u <+: d := by
        have := (List.prefix_append_right_inj _).mp hq
        exact List.cons_prefix_cons.mp this
      rw [DirTree.realDir, hstg.here, stagingOf_task]
      exact hd u hu

/-- A file that a temporary name is made for, or the temporary name itself. -/
private theorem temp_ne_integration {r : Path} {x : String} {d : Path} :
    d ++ [rewritePrefix r ++ x] ≠ [integrationName] := by
  intro h
  have hn := congrArg (fun p => (name p).toList.head?) h
  simp [rewritePrefix, name, integrationName] at hn

theorem writeNewFile_spec {r : Path} {payload : Content} {mode : FileTree.Mode}
    (h : Shows host L v s) (hst : v.staging = stagingOf host g) (hs : Shell host g) (hr : r ≠ [])
    (hd : ¬ [integrationName] <+: parent r) :
    Triple (· = s) (writeNewFile host (stagingTask L.transactionId ++ r) payload mode)
      (fun o t => ∃ g', (Shell host g' ∨ g' = withFile host g r (.file payload mode) ∧ g r = none) ∧
        Shows host L (v.setStaging (stagingOf host g')) t ∧
        (o = .ok () → g' = withFile host g r (.file payload mode) ∧ g r = none) ∧
        (Fits g r → o = .ok ()))
      fun c => ∃ g', (Shell host g' ∨ g' = withFile host g r (.file payload mode) ∧ g r = none) ∧
        Shows host L (v.setStaging (stagingOf host g')) c := by
  have hpar : parent (stagingTask L.transactionId ++ r) = stagingTask L.transactionId ++ parent r :=
    List.dropLast_append_of_ne_nil hr
  unfold writeNewFile
  rw [hpar]
  refine ((DirTree.mkdirs_any host.dirMode s _).crash fun c hc => ?_).bind
    (fun _ => Triple.of_forall fun t ⟨hgrown, hclear⟩ => ?_) fun e t ⟨hgrown, hclear⟩ => ?_
  · obtain ⟨g', hs', hsh, -⟩ := staging_grown h hst hs hd hc
    exact ⟨g', .inl hs', hsh⟩
  · obtain ⟨g₁, hs₁, hsh, hexact⟩ := staging_grown h hst hs hd hgrown
    have hstg : StagingShows L.transactionId (stagingOf host g₁) t := hsh.staging
    refine Triple.bind_run (Program.read_run _ _) ?_
    split
    · next htaken =>
      refine (Triple.throw (R := fun u => u = t) _).post ?_
      rintro o u ⟨⟨e, rfl⟩, rfl⟩
      refine ⟨g₁, .inl hs₁, hsh, (fun ho => by cases ho), fun hfit => ?_⟩
      -- the path was free and `mkdirs` does not reach it
      have hget : u.get (stagingTask L.transactionId ++ r) = none := by
        rw [hgrown.added.get_of_not_prefix]
        · rw [(hst ▸ h.staging : StagingShows L.transactionId (stagingOf host g) s).task]
          exact hfit.absent
        · rintro hpre
          have := hpre.length_le
          have hlen := List.length_pos_iff.mpr hr
          simp [parent] at this
          omega
      simp [DirTree.exists, DirTree.isSymlink, hget] at htaken
    · next htaken =>
      have hget : t.get (stagingTask L.transactionId ++ r) = none := by
        rcases hn : t.get (stagingTask L.transactionId ++ r) with _ | ⟨x, m⟩ | m | k
        · rfl
        · simp [DirTree.exists, hn] at htaken
        · simp [DirTree.exists, hn] at htaken
        · simp [DirTree.exists, DirTree.isSymlink, hn] at htaken
      have hfree : g r = none := by
        rw [← (hst ▸ h.staging : StagingShows L.transactionId (stagingOf host g) s).task]
        rcases hgrown.added (stagingTask L.transactionId ++ r) with he | ⟨-, hn, -⟩
        · rw [← he, hget]
        · exact hn
      by_cases hreal : t.realDir (stagingTask L.transactionId ++ parent r)
      · have hg₁ := hexact hreal
        have hnot : ¬ t.realDir (stagingTask L.transactionId ++ r) := by
          rintro ⟨m, hm⟩
          rw [hget] at hm
          cases hm
        have hdone : ∀ u : FS, u.get = Function.update t.get (stagingTask L.transactionId ++ r)
            (some (.file payload mode)) → Shows host L (v.setStaging (stagingOf host
              (withFile host g r (.file payload mode)))) u := by
          intro u hu
          have := staging_update hsh rfl hu (by rwa [hpar]) hnot
          rwa [hg₁] at this
        refine (DirTree.replaceFile_spec (by rwa [hpar]) (by simp [hget]) (by simp [stagingTask])
          not_temp_self fun _ _ => rfl).weaken (fun _ h => h) ?_ ?_
        · rintro o u ⟨⟨⟩, rfl, hu⟩
          exact ⟨_, .inr ⟨rfl, hfree⟩, hdone u hu, fun _ => ⟨rfl, hfree⟩, fun _ => rfl⟩
        · intro c hc
          cases hc with
          | temp hT habs hneq hg =>
            rw [hpar] at hT
            obtain ⟨x, -, -, rfl⟩ := hT
            rw [List.append_assoc] at hg habs
            have hsh' := staging_update hsh rfl hg
              (by rwa [← List.append_assoc, parent_append]) (by
              rintro ⟨m, hm⟩
              rw [habs] at hm
              cases hm)
            exact ⟨_, .inl (hs₁.update (by simp) temp_ne_integration), hsh'⟩
          | done hg => exact ⟨_, .inr ⟨rfl, hfree⟩, hdone c hg⟩
      · obtain ⟨e, he⟩ : ∃ e, (DirTree.replaceFile host.names
            (rewritePrefix (stagingTask L.transactionId ++ r)) (stagingTask L.transactionId ++ r)
            payload mode (Pure.pure () : Prog Unit)).run t = ⟨[], .error e⟩ :=
          DirTree.replaceFile_noDir (by rwa [hpar])
        rintro t rfl
        unfold Program.out Program.final
        rw [he]
        refine ⟨by simp, g₁, .inl hs₁, hsh, (fun ho => by cases ho), fun hfit => ?_⟩
        exact absurd ((hclear (Skeleton.clear_staging h hst hfit.clear)).2 _ List.prefix_rfl) hreal
  · obtain ⟨g', hs', hsh, -⟩ := staging_grown h hst hs hd hgrown
    refine ⟨g', .inl hs', hsh, (fun ho => by cases ho), fun hfit => ?_⟩
    exact (hclear (Skeleton.clear_staging h hst hfit.clear)).1

/-- What admission makes sure of for a task file. -/
structure FileDocument.Valid (host : Host) (item : FileDocument) : Prop where
  hash : host.hashBytes (.bytes item.content) = item.byteHash
  ne_nil : item.path ≠ []
  head : item.path.head? ≠ some integrationName

/-- Each file still fits when those before it are there. -/
def FitAll (host : Host) (g : Subtree) : List FileDocument → Prop
  | [] => True
  | item :: rest =>
    Fits g item.path ∧ FitAll host (withFile host g item.path (fileNode item)) rest

/-- Each file's path is free when those before it are there. -/
def FreeAll (host : Host) (g : Subtree) : List FileDocument → Prop
  | [] => True
  | item :: rest =>
    g item.path = none ∧ FreeAll host (withFile host g item.path (fileNode item)) rest

/-- What is there stays when files go to free paths. -/
theorem FreeAll.kept {files : List FileDocument} {r : Path} {n : Node Content}
    (h : FreeAll host g files) (hr : g r = some n) : withFiles host files g r = some n := by
  induction files generalizing g with
  | nil => exact hr
  | cons item files ih =>
    have hne : r ≠ item.path := by
      rintro rfl
      rw [h.1] at hr
      cases hr
    have hkept : withFile host g item.path (fileNode item) r = some n := by
      rw [withFile, Function.update_of_ne hne, withDirs, if_neg (by simp [hr]), hr]
    exact ih h.2 hkept

/-- Files that went to free paths are all there. -/
theorem FreeAll.mem {files : List FileDocument} {item : FileDocument}
    (h : FreeAll host g files) (hi : item ∈ files) :
    withFiles host files g item.path = some (fileNode item) := by
  induction files generalizing g with
  | nil => cases hi
  | cons x files ih =>
    rcases List.mem_cons.mp hi with rfl | hi
    · exact h.2.kept (Function.update_self _ _ _)
    · exact ih h.2 hi

theorem Shell.withFile {item : FileDocument} (hg : Shell host g) (hi : item.Valid host) :
    Shell host (withFile host g item.path (fileNode item)) := by
  refine Shell.update (hg.withDirs fun hp => ?_) hi.ne_nil fun he => ?_
  · obtain ⟨u, hu⟩ := hp.trans (List.dropLast_prefix item.path)
    exact hi.head (by rw [← hu]; rfl)
  · exact hi.head (by rw [he]; rfl)

theorem stageFile_spec {item : FileDocument} (h : Shows host L v s)
    (hst : v.staging = stagingOf host g) (hg : Shell host g) (hi : item.Valid host) :
    Triple (· = s) (stageFile host (stagingTask L.transactionId) item)
      (fun o t => ∃ g', Shell host g' ∧ Shows host L (v.setStaging (stagingOf host g')) t ∧
        (o = .ok () → g' = withFile host g item.path (fileNode item) ∧ g item.path = none) ∧
        (Fits g item.path → o = .ok ()))
      fun c => ∃ g', Shell host g' ∧ Shows host L (v.setStaging (stagingOf host g')) c := by
  have hd : ¬ [integrationName] <+: parent item.path := by
    intro hp
    obtain ⟨u, hu⟩ := hp.trans (List.dropLast_prefix item.path)
    exact hi.head (by rw [← hu]; rfl)
  unfold stageFile
  rw [if_neg (not_not_intro hi.hash)]
  refine (writeNewFile_spec h hst hg hi.ne_nil hd).weaken (fun _ h => h) ?_ ?_
  · rintro o t ⟨g', hor, hs⟩
    exact ⟨g', hor.elim id fun he => he.1 ▸ hg.withFile hi, hs⟩
  · rintro c ⟨g', hor, hs⟩
    exact ⟨g', hor.elim id fun he => he.1 ▸ hg.withFile hi, hs⟩

theorem stageFiles_spec {files : List FileDocument} (h : Shows host L v s)
    (hst : v.staging = stagingOf host g) (hg : Shell host g)
    (hfiles : ∀ item ∈ files, item.Valid host) :
    Triple (· = s) (Program.each files (stageFile host (stagingTask L.transactionId)))
      (fun o t => ∃ g', Shell host g' ∧ Shows host L (v.setStaging (stagingOf host g')) t ∧
        (o = .ok () → g' = withFiles host files g ∧ FreeAll host g files) ∧
        (FitAll host g files → o = .ok ()))
      fun c => ∃ g', Shell host g' ∧ Shows host L (v.setStaging (stagingOf host g')) c := by
  induction files generalizing s v g with
  | nil =>
    refine (Triple.pure (R := fun _ t => t = s) ()).post ?_
    rintro o t ⟨a, rfl, rfl⟩
    refine ⟨g, hg, ?_, fun _ => ⟨rfl, trivial⟩, fun _ => rfl⟩
    rw [← hst]
    exact h
  | cons item files ih =>
    rw [Program.each_cons]
    refine (stageFile_spec h hst hg (hfiles item List.mem_cons_self)).bind
      (fun _ => Triple.of_forall fun t ⟨g₁, hg₁, ht, hok, hfit⟩ => ?_)
      fun e t ⟨g₁, hg₁, ht, hok, hfit⟩ => ?_
    · obtain ⟨rfl, hfree⟩ := hok rfl
      refine (ih ht rfl hg₁ fun x hx => hfiles x (List.mem_cons_of_mem item hx)).weaken
        (fun _ h => h) ?_ fun _ h => h
      rintro o u ⟨g₂, hg₂, hu, hok₂, hfit₂⟩
      exact ⟨g₂, hg₂, hu, fun ho => ⟨(hok₂ ho).1, hfree, (hok₂ ho).2⟩, fun hall => hfit₂ hall.2⟩
    · exact ⟨g₁, hg₁, ht, (fun ho => by cases ho), fun hall => hfit hall.1⟩

/-- No task file lies where another one is or needs a directory. -/
def Unnested (files : List FileDocument) : Prop :=
  files.Pairwise fun x y => ¬ x.path <+: y.path ∧ ¬ y.path <+: x.path

/-- A tree made of `files` and the directories they lie in. -/
private def MadeOf (files : List FileDocument) (g : Subtree) : Prop :=
  ∀ r, g r = none ∨ (∃ m, g r = some (.dir m)) ∧ (r = [] ∨ ∃ x ∈ files, r <+: x.path) ∨
    ∃ x ∈ files, r = x.path

private theorem MadeOf.fits {files : List FileDocument} {item : FileDocument}
    (h : MadeOf files g) (hne : item.path ≠ [])
    (hi : ∀ x ∈ files, ¬ x.path <+: item.path ∧ ¬ item.path <+: x.path) : Fits g item.path := by
  refine ⟨?_, fun q hq => ?_⟩
  · rcases h item.path with hn | ⟨-, hn | ⟨x, hx, hp⟩⟩ | ⟨x, hx, hp⟩
    · exact hn
    · exact absurd hn hne
    · exact absurd hp (hi x hx).2
    · exact absurd (hp ▸ List.prefix_rfl) (hi x hx).1
  · rcases h q with hn | ⟨hd, -⟩ | ⟨x, hx, rfl⟩
    · exact .inl hn
    · exact .inr hd
    · exact absurd (hq.trans (List.dropLast_prefix _)) (hi x hx).1

private theorem MadeOf.withFile {files : List FileDocument} {item : FileDocument}
    (h : MadeOf files g) :
    MadeOf (files ++ [item]) (withFile host g item.path (fileNode item)) := by
  have hmono : ∀ x ∈ files, x ∈ files ++ [item] := fun x hx => List.mem_append_left _ hx
  intro r
  unfold Runtime.withFile withDirs
  by_cases hr : r = item.path
  · exact .inr (.inr ⟨item, by simp, hr⟩)
  · rw [Function.update_of_ne hr]
    split
    · next hd =>
      exact .inr (.inl ⟨⟨_, rfl⟩, .inr ⟨item, by simp, hd.1.trans (List.dropLast_prefix _)⟩⟩)
    · rcases h r with hn | ⟨hd, hn | ⟨x, hx, hp⟩⟩ | ⟨x, hx, hp⟩
      · exact .inl hn
      · exact .inr (.inl ⟨hd, .inl hn⟩)
      · exact .inr (.inl ⟨hd, .inr ⟨x, hmono x hx, hp⟩⟩)
      · exact .inr (.inr ⟨x, hmono x hx, hp⟩)

private theorem MadeOf.fitAll {before files : List FileDocument} (h : MadeOf before g)
    (hne : ∀ x ∈ files, x.path ≠ []) (hun : Unnested (before ++ files)) :
    FitAll host g files := by
  induction files generalizing before g with
  | nil => trivial
  | cons item files ih =>
    have hpair := List.pairwise_append.mp hun
    refine ⟨h.fits (hne item List.mem_cons_self) fun x hx =>
      hpair.2.2 x hx item List.mem_cons_self, ?_⟩
    exact ih h.withFile (fun x hx => hne x (List.mem_cons_of_mem item hx)) (by simpa using hun)

theorem fitAll_bareTree {files : List FileDocument} (hfiles : ∀ x ∈ files, x.Valid host)
    (hun : Unnested files) : FitAll host (bareTree host) files := by
  have hmade : MadeOf [] (bareTree host) := by
    intro r
    by_cases hr : r = []
    · exact .inr (.inl ⟨⟨host.dirMode, by simp [bareTree, hr]⟩, .inl hr⟩)
    · exact .inl (by simp [bareTree, noTree, hr])
  exact hmade.fitAll (fun x hx => (hfiles x hx).ne_nil) (by simpa using hun)

/-- The staging area while the task's tree in it is not finished. -/
def Unstaged (host : Host) (f : Subtree) : Prop :=
  f = noTree ∨ f = stagingOf host noTree ∨ ∃ g, Shell host g ∧ f = stagingOf host g

theorem stageFromHeader_present {header : AdmissionHeader} (h : Shows host L v s)
    (hst : v.staging = stagingOf host g) {m : FileTree.Mode} (hg : g [] = some (.dir m)) :
    (stageFromHeader host L.transactionId header).run s = ⟨[], .ok ()⟩ := by
  have hget : s.get (stagingTask L.transactionId) = some (.dir m) := by
    have := (hst ▸ h.staging : StagingShows L.transactionId (stagingOf host g) s).task []
    rwa [List.append_nil, hg] at this
  unfold stageFromHeader
  simp only
  rw [Program.bind_of_pure (Program.read_run _ _), if_pos (by simp [DirTree.exists, hget])]
  rfl

/-- The directory of the staging area is there or is made. -/
private theorem staging_root {c : FS} (h : Shows host L v s)
    (hst : v.staging = noTree ∨ v.staging = stagingOf host noTree)
    (hc : s.Extends host.dirMode (stagingRoot L.transactionId) c) :
    ∃ f, (f = v.staging ∨ f = stagingOf host noTree) ∧ Shows host L (v.setStaging f) c ∧
      (c.realDir (stagingRoot L.transactionId) → f = stagingOf host noTree) := by
  have hreg : ∀ q, q <+: stagingRoot L.transactionId →
      L.region q = .control ∨ L.region q = .project ∨ L.region q = .staging := by
    intro q hq
    exact Layout.region_toStaging (r := []) (by simpa using hq)
  have hm : ¬ maintenancePath <+: stagingRoot L.transactionId := by
    simpa using not_maintenance (L := L) []
  have hbelow : ∀ n r, c.get (stagingRoot L.transactionId ++ n :: r) = none := by
    intro n r
    rw [hc.get_of_not_prefix, h.staging.here]
    · rcases hst with hs | hs <;> rw [hs] <;> simp [stagingOf, noTree]
    · intro hp
      have := hp.length_le
      rw [List.length_append, List.length_cons] at this
      omega
  have hself := h.staging.here []
  rw [List.append_nil] at hself
  have hshow : ∀ f : Subtree, c.get (stagingRoot L.transactionId) = f [] →
      (∀ n r, f (n :: r) = none) → Shows host L (v.setStaging f) c := by
    intro f hf hn
    refine h.extends hc hreg hm ⟨fun r => ?_, fun r n hr => ?_⟩
    · rcases r with _ | ⟨n, r⟩
      · rw [List.append_nil, hf]
      · rw [hbelow, hn]
    · rcases r with _ | ⟨a, r⟩
      · rw [List.append_nil, hbelow] at hr
        cases hr
      · rw [List.append_assoc, List.cons_append, hbelow] at hr
        cases hr
  have hnil : ∀ n r, stagingOf host noTree (n :: r) = none := fun n r => by
    simp [stagingOf, noTree]
  rcases hc (stagingRoot L.transactionId) with he | ⟨-, hn, hd⟩
  · rw [hself] at he
    rcases hst with hs | hs
    · rw [hs] at he ⊢
      refine ⟨noTree, .inl rfl, hshow noTree he fun _ _ => rfl, ?_⟩
      rintro ⟨m, hm⟩
      rw [he] at hm
      cases hm
    · rw [hs] at he ⊢
      exact ⟨_, .inr rfl, hshow _ he hnil, fun _ => rfl⟩
  · exact ⟨_, .inr rfl, hshow _ hd hnil, fun _ => rfl⟩

/-- The whole tree is in the staging area; then no file of it went over another. -/
def Staged (host : Host) (header : AdmissionHeader) (f : Subtree) : Prop :=
  f = stagingOf host (taskTree host header.taskFiles header.admittingIntegration) ∧
    FreeAll host (bareTree host) header.taskFiles

/-- Staging from nothing: cut short it leaves an unfinished tree, or the whole one. -/
theorem stageFromHeader_spec {header : AdmissionHeader} (h : Shows host L v s)
    (hst : v.staging = noTree ∨ v.staging = stagingOf host noTree)
    (hfiles : ∀ item ∈ header.taskFiles, item.Valid host) :
    Triple (· = s) (stageFromHeader host L.transactionId header)
      (fun o t => ∃ f, (Unstaged host f ∨ Staged host header f) ∧
        Shows host L (v.setStaging f) t ∧ (o = .ok () → Staged host header f) ∧
        (Unnested header.taskFiles → o = .ok ()))
      fun c => ∃ f, (Unstaged host f ∨ Staged host header f) ∧
        Shows host L (v.setStaging f) c := by
  have hun : Unstaged host v.staging := hst.imp id .inl
  have hpar : parent (stagingTask L.transactionId) = stagingRoot L.transactionId :=
    parent_append _ _
  have hget : ∀ {u : View} {t : FS}, Shows host L u t → t.get (stagingTask L.transactionId) =
      u.staging ["task"] := fun hu => hu.staging.here ["task"]
  have hnone : s.get (stagingTask L.transactionId) = none := by
    rw [hget h]
    rcases hst with hs | hs <;> rw [hs] <;> simp [noTree]
  have hclear : s.Clear (stagingRoot L.transactionId) := by
    refine ⟨h.skeleton.root, fun q hq => ?_⟩
    rcases prefix_stagingRoot hq with rfl | rfl | rfl | rfl | rfl
    · exact .inr h.skeleton.root
    · exact .inr h.skeleton.control
    · exact .inr h.skeleton.locals
    · exact h.skeleton.staging
    · rw [DirTree.realDir, h.staging.get_self]
      rcases hst with hs | hs <;> rw [hs]
      · exact .inl rfl
      · exact .inr ⟨_, rfl⟩
  unfold stageFromHeader
  simp only
  refine Triple.bind_run (Program.read_run _ _) ?_
  rw [if_neg (by simp [DirTree.exists, hnone]), hpar]
  refine ((DirTree.mkdirs_spec hclear).crash fun c hc => ?_).bind
    (fun _ => Triple.of_forall fun t ht => ?_) ?_
  rotate_left 2
  · rintro e t ⟨_, he, -⟩
    cases he
  · obtain ⟨f, hf, hsh, -⟩ := staging_root h hst hc
    exact ⟨f, .inl (hf.elim (fun he => he ▸ hun) fun he => he ▸ .inr (.inl rfl)), hsh⟩
  obtain ⟨_, -, hext, hreach⟩ := ht
  obtain ⟨f, -, hsh, hf⟩ := staging_root h hst hext
  obtain rfl := hf (hreach _ List.prefix_rfl)
  -- the task's directory
  have hnone' : t.get (stagingTask L.transactionId) = none := by
    rw [hget hsh]
    simp [noTree]
  have hmk : DirTree.mkdir host.dirMode (stagingTask L.transactionId) t =
      .ok (t.set (stagingTask L.transactionId) (.dir host.dirMode)) :=
    DirTree.mkdir_ok (by rw [hpar]; exact hreach _ List.prefix_rfl) hnone'
  have hbare : Shows host L (v.setStaging (stagingOf host (bareTree host)))
      (t.set (stagingTask L.transactionId) (.dir host.dirMode)) :=
    staging_update (v := v.setStaging (stagingOf host noTree)) (s := t) (r := []) hsh rfl
      (by rw [List.append_nil, DirTree.get_set_eq])
      (by rw [List.append_nil, hpar]; exact hreach _ List.prefix_rfl)
      (by
        rw [List.append_nil]
        rintro ⟨m, hm⟩
        rw [hnone'] at hm
        cases hm)
  refine (DirTree.syscall_spec hmk ⟨_, .inl (.inr (.inr ⟨_, Shell.bareTree, rfl⟩)), hbare⟩).bind
    (fun _ => Triple.of_forall ?_) ?_
  rotate_left
  · rintro e u ⟨_, he, -⟩
    cases he
  rintro u ⟨-, -, rfl⟩
  -- the files, then the integration
  refine ((stageFiles_spec hbare rfl Shell.bareTree hfiles).crash ?_).bind
    (fun _ => Triple.of_forall ?_) ?_
  · rintro c ⟨g', hg', hc⟩
    exact ⟨_, .inl (.inr (.inr ⟨g', hg', rfl⟩)), hc⟩
  · rintro w ⟨g₁, hg₁, hw, hok, hfit⟩
    obtain ⟨hg, hfree⟩ := hok rfl
    have hwhole : withFile host g₁ [integrationName]
        (.file (.integration header.admittingIntegration) integrationMode) =
        taskTree host header.taskFiles header.admittingIntegration := by
      rw [hg, taskTree, withIntegration, withFile]
      congr 1
      funext r
      rw [withDirs, if_neg]
      rintro ⟨hp, hn⟩
      rw [List.prefix_nil.mp hp, ← hg, hg₁.root] at hn
      cases hn
    have hfits : Fits g₁ [integrationName] := by
      refine ⟨hg₁.bare, fun q hq => ?_⟩
      rw [List.prefix_nil.mp hq]
      exact .inr ⟨_, hg₁.root⟩
    refine (writeNewFile_spec hw rfl hg₁ (by simp) (by simp [parent])).weaken
      (fun _ h => h) ?_ ?_
    · rintro o x ⟨g', hor, hx, hdone, hgo⟩
      rw [hwhole] at hor hdone
      refine ⟨_, hor.imp (fun hs => .inr (.inr ⟨g', hs, rfl⟩)) fun he => ⟨by rw [he.1], hfree⟩,
        hx, fun ho => ⟨by rw [(hdone ho).1], hfree⟩, fun _ => hgo hfits⟩
    · rintro c ⟨g', hor, hx⟩
      rw [hwhole] at hor
      exact ⟨_, hor.imp (fun hs => .inr (.inr ⟨g', hs, rfl⟩)) fun he => ⟨by rw [he.1], hfree⟩,
        hx⟩
  · rintro e w ⟨g₁, hg₁, hw, hok, hfit⟩
    exact ⟨_, .inl (.inr (.inr ⟨g₁, hg₁, rfl⟩)), hw, (fun ho => by cases ho), fun hun' =>
      hfit (fitAll_bareTree hfiles hun')⟩

end AgentStack.Runtime
