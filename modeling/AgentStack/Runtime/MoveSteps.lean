import AgentStack.Runtime.TreeSteps

/-! The moves of a task tree: out of the staging area, to the archive and back. -/
namespace AgentStack.Runtime

open AgentStack.Core FileTree Crash Reconcile

variable {host : Host} {L : Layout} {v : View} {s c : FS} {p q : Path} {f g : Subtree}

/-- The staging area of a transaction: its directory, with a task tree in it. -/
def stagingOf (host : Host) (f : Subtree) : Subtree
  | [] => some (.dir host.dirMode)
  | n :: r => if n = "task" then f r else none

@[simp] theorem stagingOf_nil : stagingOf host f [] = some (.dir host.dirMode) := rfl

@[simp] theorem stagingOf_task (r : Path) : stagingOf host f ("task" :: r) = f r := by
  rw [stagingOf, if_pos rfl]

theorem stagingOf_other {n : String} (h : n ≠ "task") (r : Path) :
    stagingOf host f (n :: r) = none := by rw [stagingOf, if_neg h]

@[simp] theorem View.setPlace_staging (v : View) (p : Path) (f : Subtree) :
    (v.setPlace p f).staging = v.staging := rfl

@[simp] theorem View.setPlace_journal (v : View) (p : Path) (f : Subtree) :
    (v.setPlace p f).journal = v.journal := rfl

@[simp] theorem View.setStaging_place (v : View) (f : Subtree) :
    (v.setStaging f).place = v.place := rfl

@[simp] theorem View.setStaging_staging (v : View) (f : Subtree) :
    (v.setStaging f).staging = f := rfl

theorem exists_place_iff (h : Shows host L v s) (hp : p ∈ L.places)
    (hf : DirOrNone (v.place p)) : s.exists p = true ↔ v.place p ≠ noTree := by
  have hself := (h.places p hp).get_self
  rcases hf with hn | ⟨m, hm⟩
  · simp [DirTree.exists, hself, hn, closed_none (h.places p hp) hn]
  · simp only [DirTree.exists, hself, hm, true_iff]
    intro he
    rw [he] at hm
    cases hm

/-- Directories added on the way to a place do not show. -/
theorem Shows.extends_above (h : Shows host L v s) (hp : p ∈ L.places) {m : FileTree.Mode}
    (he : s.Extends m (parent p) c) : Shows host L v c := by
  have hhead : ∀ r : Path, r <+: parent p → r.head? ≠ some ".agent-workflow" := by
    intro r hr hh
    obtain ⟨t, ht⟩ := hr.trans (List.dropLast_prefix p)
    refine (L.project p hp).not_control ?_
    rw [← ht]
    rcases r with _ | ⟨a, r⟩
    · simp at hh
    · simpa using hh
  have hst : StagingShows L.transactionId v.staging c := h.staging.congr fun r =>
    he.get_of_not_prefix fun hr => hhead _ hr rfl
  have := h.extends he (fun q hq => .inr (.inl (Layout.region_above hp hq)))
    (fun hm => hhead _ hm rfl) hst
  simpa using this

/-- The directories on the way to `q` are known to stand. -/
def View.reach (v : View) (q : Path) : View :=
  { v with reached := fun p => v.reached p ∨ parent p <+: parent q }

theorem Shows.reach (h : Shows host L v s) (hq : s.Reaches (parent q)) :
    Shows host L (v.reach q) s :=
  ⟨h.skeleton, h.journals, h.ledger, h.staging, h.outbox, h.places, fun p hp hr =>
    hr.elim (h.reached p hp) fun hpre => hq _ hpre⟩

section Staged

variable {taskRef : String}

private theorem stagingTask_apart (hp : p ∈ L.places) :
    ¬ stagingTask L.transactionId <+: p ∧ ¬ p <+: stagingTask L.transactionId := by
  have hproj := L.project p hp
  obtain ⟨a, l, rfl⟩ := List.exists_cons_of_ne_nil hproj.ne_nil
  have hne : a ≠ ".agent-workflow" := by simpa using hproj.not_control
  refine ⟨?_, ?_⟩
  · rintro ⟨r, hr⟩
    simp [stagingTask, stagingRoot] at hr
    exact hne hr.1.symm
  · rintro ⟨r, hr⟩
    simp [stagingTask, stagingRoot] at hr
    exact hne hr.1

/-- The staged tree at a place that was empty. -/
theorem Shows.move_staged (h : Shows host L v s) (hp : p ∈ L.places)
    (hst : v.staging = stagingOf host f) :
    Shows host L ((v.setPlace p f).setStaging (stagingOf host noTree))
      (s.move (stagingTask L.transactionId) p) := by
  obtain ⟨h₁, h₂⟩ := stagingTask_apart hp
  have hget := fun q => DirTree.get_move s h₁ h₂ q
  have hsplit : ∀ r, stagingRoot L.transactionId ++ "task" :: r =
      stagingTask L.transactionId ++ r := fun r => by simp [stagingTask]
  have htask : ∀ r, s.get (stagingTask L.transactionId ++ r) = f r := by
    intro r
    rw [← hsplit, h.staging.here, hst, stagingOf_task]
  have hplace : ∀ r, (s.move (stagingTask L.transactionId) p).get (p ++ r) = f r := by
    intro r
    rw [hget, if_pos (List.prefix_append p r), List.drop_left, htask]
  have houter : ∀ q, ¬ p <+: q → ¬ stagingTask L.transactionId <+: q →
      (s.move (stagingTask L.transactionId) p).get q = s.get q := by
    intro q hq hq'
    rw [hget, if_neg hq, if_neg hq']
  have hroot : ∀ r, ¬ p <+: stagingRoot L.transactionId ++ r := by
    rintro r ⟨t, ht⟩
    obtain ⟨a, l, rfl⟩ := List.exists_cons_of_ne_nil (L.project p hp).ne_nil
    have hne : a ≠ ".agent-workflow" := by simpa using (L.project _ hp).not_control
    simp [stagingRoot] at ht
    exact hne ht.1
  have hstaged : ∀ r, (s.move (stagingTask L.transactionId) p).get
      (stagingRoot L.transactionId ++ r) = stagingOf host noTree r := by
    intro r
    rcases r with _ | ⟨n, r⟩
    · rw [houter _ (hroot []), h.staging.here, hst]
      · rfl
      · intro hpre
        have := hpre.length_le
        rw [stagingTask, List.append_nil, List.length_append, List.length_singleton] at this
        omega
    · by_cases hn : n = "task"
      · subst hn
        rw [hget, if_neg (hroot _), if_pos (by rw [hsplit]; exact List.prefix_append _ _)]
        simp [noTree]
      · rw [houter _ (hroot _), h.staging.here, hst, stagingOf_other hn, stagingOf_other hn]
        rintro ⟨t, ht⟩
        simp [stagingTask] at ht
        exact hn ht.1.symm
  have hoff : ∀ q, L.region q ≠ .staging → L.region q ≠ .place p →
      (s.move (stagingTask L.transactionId) p).get q = s.get q := by
    intro q hX hY
    refine houter q ?_ ?_
    · rintro ⟨r, rfl⟩
      exact hY (Layout.region_place hp r)
    · rintro ⟨r, rfl⟩
      refine hX ?_
      rw [← hsplit]
      exact Layout.region_staging _
  obtain ⟨hsk, hj, hl, -, ho, hpl, hre⟩ := h.off₂ hoff (by simp) (by simp)
  refine ⟨hsk, hj (by simp) (by simp), hl (by simp) (by simp), ⟨hstaged, ?_⟩,
    ho (by simp) (by simp), fun q hq => ?_, hre⟩
  · intro r n hn
    rw [List.append_assoc, hstaged] at hn
    rcases r with _ | ⟨a, r⟩
    · by_cases h' : n = "task" <;> simp [stagingOf, noTree, h'] at hn
    · by_cases h' : a = "task" <;> simp [stagingOf, noTree, h'] at hn
  · by_cases hqp : q = p
    · subst hqp
      refine ⟨fun r => by simpa using hplace r, fun r n hn => ?_⟩
      rw [List.append_assoc, hplace, ← htask, ← hsplit] at hn
      have hd := h.staging.closed ("task" :: r) n (by simpa using hn)
      obtain ⟨m, hm⟩ := hd
      exact ⟨m, by rw [hplace, ← htask, ← hsplit, hm]⟩
    · change PlaceShows q ((v.setPlace p f).place q) _
      rw [View.setPlace_place_of_ne v hqp]
      exact hpl q hq (by simp) (by simpa using Ne.symm hqp)

theorem moveStagedTask_present (h : Shows host L v s) (hp : segments taskRef ∈ L.places)
    (hf : DirOrNone (v.place (segments taskRef))) (hne : v.place (segments taskRef) ≠ noTree) :
    (moveStagedTask host L.transactionId taskRef).run s = ⟨[], .ok ()⟩ := by
  unfold moveStagedTask
  simp only
  rw [Program.bind_of_pure (Program.read_run _ _), if_pos ((exists_place_iff h hp hf).mpr hne)]
  rfl

private theorem staging_ready (h : Shows host L v s) :
    (s.isDir (stagingTask L.transactionId) && !s.isSymlink (stagingTask L.transactionId)) = true ↔
      ∃ m, v.staging ["task"] = some (.dir m) := by
  have hget : s.get (stagingTask L.transactionId) = v.staging ["task"] := h.staging.here ["task"]
  rcases hn : v.staging ["task"] with _ | ⟨x, m⟩ | m | k <;>
    simp [DirTree.isDir, DirTree.isSymlink, hget, hn]

theorem moveStagedTask_missing (h : Shows host L v s) (hp : segments taskRef ∈ L.places)
    (hno : v.place (segments taskRef) = noTree) (hst : v.staging ["task"] = none) :
    ∃ e, (moveStagedTask host L.transactionId taskRef).run s = ⟨[], .error e⟩ := by
  refine ⟨recoveryRequired "task staging tree is missing", ?_⟩
  have hf : DirOrNone (v.place (segments taskRef)) := .inl (by rw [hno]; rfl)
  have hex : s.exists (segments taskRef) = false := by
    rw [← Bool.not_eq_true, exists_place_iff h hp hf]
    exact not_not_intro hno
  have hready : (s.isDir (stagingTask L.transactionId) &&
      !s.isSymlink (stagingTask L.transactionId)) = false := by
    rw [← Bool.not_eq_true, staging_ready h, hst]
    simp
  unfold moveStagedTask
  simp only
  rw [Program.bind_of_pure (Program.read_run _ _), hex]
  simp only [Bool.false_eq_true, if_false]
  rw [Program.bind_of_pure (Program.read_run _ _), hready]
  rfl

theorem moveStagedTask_spec (h : Shows host L v s) (hp : segments taskRef ∈ L.places)
    (hno : v.place (segments taskRef) = noTree) (hst : v.staging = stagingOf host f)
    {m : FileTree.Mode} (hf : f [] = some (.dir m)) :
    Triple (· = s) (moveStagedTask host L.transactionId taskRef)
      (Returns fun _ => Shows host L
        (((v.reach (segments taskRef)).setPlace (segments taskRef) f).setStaging
          (stagingOf host noTree)))
      fun c => Shows host L v c ∨ Shows host L
        (((v.reach (segments taskRef)).setPlace (segments taskRef) f).setStaging
          (stagingOf host noTree)) c := by
  have hex : s.exists (segments taskRef) = false := by
    rw [← Bool.not_eq_true, exists_place_iff h hp (.inl (by rw [hno]; rfl))]
    exact not_not_intro hno
  have hready := (staging_ready h).mpr ⟨m, by rw [hst, stagingOf_task, hf]⟩
  obtain ⟨h₁, -⟩ := stagingTask_apart hp
  unfold moveStagedTask
  simp only
  refine Triple.bind_run (Program.read_run _ _) ?_
  rw [hex]
  simp only [Bool.false_eq_true, if_false]
  refine Triple.bind_run (Program.read_run _ _) ?_
  rw [hready]
  simp only [Bool.not_true, Bool.false_eq_true, if_false]
  refine ((DirTree.mkdirs_spec (h.skeleton.clear _ hp)).crash fun c hc =>
    .inl (h.extends_above hp hc)).bind_returns fun _ => Triple.of_forall fun t ⟨hext, hreach⟩ => ?_
  have ht := h.extends_above hp hext
  have hmv : DirTree.rename (stagingTask L.transactionId) (segments taskRef) t =
      .ok (t.move (stagingTask L.transactionId) (segments taskRef)) := by
    refine DirTree.rename_dir_ok (m := m) ?_ (hreach _ List.prefix_rfl) h₁ ?_
    · rw [← hf, ← @stagingOf_task host f [], ← hst]
      exact ht.staging.here ["task"]
    · rw [(ht.places _ hp).get_self, hno]
      rfl
  have hdone := (ht.reach hreach).move_staged hp hst
  refine (DirTree.syscall_spec hmv (.inr hdone)).post ?_
  rintro o u ⟨a, ho, rfl⟩
  exact ⟨a, ho, hdone⟩

end Staged

section Archived

variable {source destination : String}

/-- The store with the task directory moved. -/
def View.moved (v : View) (p q : Path) : View := (v.setPlace q (v.place p)).setPlace p noTree

end Archived
end AgentStack.Runtime
