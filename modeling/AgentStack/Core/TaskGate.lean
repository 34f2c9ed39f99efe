import AgentStack.Core.TaskPolicy

/-! The task gate over evidence in another order, over more evidence, and over findings that leave
something out. -/
namespace AgentStack.Core

open JsonText JsonValue KeyedList

variable {H : Hasher} {snapshot findings snapshot' findings' : Members} {tasks : List TaskFact}
  {facts facts' : List FindingFact} {operation : String} {impact : CandidateImpact}

/-! ### Findings one by one -/

/-- Reading a finding depends on those before it only in that its id is new. -/
theorem findingFact_iff {seen : List String} {index : Nat} {raw : JsonValue} {fact : FindingFact} :
    findingFact H seen index raw = .ok fact ↔
      findingFact H [] 0 raw = .ok fact ∧ fact.findingId ∉ seen := by
  have hid : ∀ {seen : List String} {index : Nat}, findingFact H seen index raw = .ok fact →
      ∃ finding, raw = .object finding ∧
        stringOf policyFailure (getField finding "finding_id") "finding id" =
          .ok fact.findingId ∧ fact.findingId ∉ seen := by
    intro seen index h
    obtain ⟨finding, hfinding, h⟩ := bind_eq_ok h
    obtain ⟨_, -, h⟩ := bind_eq_ok h
    obtain ⟨kind, -, h⟩ := bind_eq_ok h
    obtain ⟨findingId, hid, h⟩ := bind_eq_ok h
    obtain ⟨_, hnew, h⟩ := bind_eq_ok h
    obtain ⟨_, -, h⟩ := bind_eq_ok h
    obtain ⟨_, -, h⟩ := bind_eq_ok h
    have hfact : fact.findingId = findingId := by
      dsimp only at h
      split at h
      all_goals
        obtain ⟨_, -, h⟩ := bind_eq_ok h
        split at h
        · obtain ⟨_, -, h⟩ := bind_eq_ok h
          obtain ⟨_, -, h⟩ := bind_eq_ok h
          obtain ⟨_, -, h⟩ := bind_eq_ok h
          obtain ⟨_, -, h⟩ := bind_eq_ok h
          cases h
          rfl
        · cases h
          rfl
    rw [hfact]
    exact ⟨finding, mappingOf_eq_ok.mp hfinding, hid, of_decide_eq_true (check_eq_ok.mp hnew)⟩
  -- The steps before the ids are compared, and those after, are the same.
  have hsame : ∀ {seen seen' : List String} {index index' : Nat},
      findingFact H seen index raw = .ok fact → fact.findingId ∉ seen' →
      findingFact H seen' index' raw = .ok fact := by
    intro seen seen' index index' h hnew'
    obtain ⟨finding, rfl, hfactId, -⟩ := hid h
    obtain ⟨_, hfinding, h⟩ := bind_eq_ok h
    cases mappingOf_eq_ok.mp hfinding
    obtain ⟨name, hname, h⟩ := bind_eq_ok h
    obtain ⟨kind, hkind, h⟩ := bind_eq_ok h
    obtain ⟨findingId, hid', h⟩ := bind_eq_ok h
    obtain ⟨_, -, h⟩ := bind_eq_ok h
    rw [hfactId] at hid'
    cases hid'
    simp only [findingFact, mappingOf, bind_ok_eq, hname, hkind, hfactId, check, hnew',
      not_false_eq_true, decide_true, if_true]
    exact h
  constructor
  · intro h
    obtain ⟨-, -, -, hnew⟩ := hid h
    exact ⟨hsame h List.not_mem_nil, hnew⟩
  · intro h
    exact hsame h.1 h.2

theorem findingFactsFrom_iff {seen : List String} {index : Nat} {raws : List JsonValue} :
    findingFactsFrom H seen index raws = .ok facts ↔
      List.Forall₂ (fun raw fact => findingFact H [] 0 raw = .ok fact) raws facts ∧
        (facts.map (·.findingId)).Nodup ∧ ∀ fact ∈ facts, fact.findingId ∉ seen := by
  induction raws generalizing seen index facts with
  | nil =>
    rw [findingFactsFrom, List.forall₂_nil_left_iff]
    constructor
    · intro h
      cases h
      simp
    · intro h
      rw [h.1]
  | cons raw raws ih =>
    rw [findingFactsFrom]
    constructor
    · intro h
      obtain ⟨fact, hfact, h⟩ := bind_eq_ok h
      obtain ⟨rest, hrest, h⟩ := bind_eq_ok h
      cases h
      obtain ⟨hread, hnew⟩ := findingFact_iff.mp hfact
      obtain ⟨hall, hnodup, hfresh⟩ := ih.mp hrest
      refine ⟨.cons hread hall, ?_, ?_⟩
      · rw [List.map_cons, List.nodup_cons]
        refine ⟨fun hmem => ?_, hnodup⟩
        obtain ⟨other, hother, heq⟩ := List.mem_map.mp hmem
        exact hfresh other hother (by simp [heq])
      · intro other hother
        rcases List.mem_cons.mp hother with rfl | hother
        · exact hnew
        · exact fun hmem => hfresh other hother (List.mem_cons_of_mem _ hmem)
    · rintro ⟨hall, hnodup, hfresh⟩
      cases hall with
      | @cons _ fact _ rest hread hall =>
        rw [List.map_cons, List.nodup_cons] at hnodup
        rw [List.forall_mem_cons] at hfresh
        have hrest : findingFactsFrom H (fact.findingId :: seen) (index + 1) raws = .ok rest := by
          refine ih.mpr ⟨hall, hnodup.2, fun other hother hmem => ?_⟩
          rcases List.mem_cons.mp hmem with heq | hmem
          · exact hnodup.1 (heq ▸ List.mem_map_of_mem hother)
          · exact hfresh.2 other hother hmem
        rw [findingFact_iff.mpr ⟨hread, hfresh.1⟩, bind_ok_eq, hrest]
        rfl

/-- What the reading of the findings establishes. -/
structure FindingsRead (H : Hasher) (findings : Members) (facts : List FindingFact) : Prop where
  closed : fieldsAre findings ["schema_id", "schema_version", "findings"] = true
  schema : isString (getField findings "schema_id") "agent-workflow.task-findings" = true
  version : isOne (getField findings "schema_version") = true
  read : ∃ raws, getField findings "findings" = .array raws ∧
    List.Forall₂ (fun raw fact => findingFact H [] 0 raw = .ok fact) raws facts
  distinct : (facts.map (·.findingId)).Nodup

theorem parseFindings_eq_ok :
    parseFindings H findings = .ok facts ↔ FindingsRead H findings facts := by
  constructor
  · intro h
    obtain ⟨_, hclosed, h⟩ := bind_eq_ok h
    obtain ⟨_, hschema, h⟩ := bind_eq_ok h
    obtain ⟨raws, hraws, h⟩ := bind_eq_ok h
    obtain ⟨hall, hnodup, -⟩ := findingFactsFrom_iff.mp h
    obtain ⟨hid, hversion⟩ := (Bool.and_eq_true _ _).mp (check_eq_ok.mp hschema)
    exact ⟨check_eq_ok.mp hclosed, hid, hversion, ⟨raws, arrayOf_eq_ok.mp hraws, hall⟩, hnodup⟩
  · intro h
    obtain ⟨raws, hraws, hall⟩ := h.read
    have hfrom : findingFactsFrom H [] 0 raws = .ok facts :=
      findingFactsFrom_iff.mpr ⟨hall, h.distinct, fun _ _ => List.not_mem_nil⟩
    simp only [parseFindings, h.closed, h.schema, h.version, hraws, arrayOf, check, Bool.and_self,
      if_true, bind_ok_eq, hfrom]

/-- The findings in another order read as the same facts in another order. -/
theorem FindingsRead.perm (h : FindingsRead H findings facts)
    (hperm : FieldsReordered ["findings"] findings findings') :
    ∃ facts', FindingsRead H findings' facts' ∧ facts.Perm facts' := by
  obtain ⟨raws, hraws, hall⟩ := h.read
  obtain ⟨xs, ys, hxs, hys, hxy⟩ := hperm.array "findings" (List.mem_singleton_self _)
  rw [hraws] at hxs
  cases hxs
  obtain ⟨facts', hall', hfacts⟩ := List.perm_comp_forall₂ hxy.symm hall
  have hschema := hperm.get (k := "schema_id") (by decide)
  have hversion := hperm.get (k := "schema_version") (by decide)
  refine ⟨facts', ⟨?_, ?_, ?_, ⟨ys, hys, hall'⟩, ?_⟩, hfacts.symm⟩
  · rw [fieldsAre_congr hperm.hasKey]
    exact h.closed
  · rw [hschema]
    exact h.schema
  · rw [hversion]
    exact h.version
  · exact (hfacts.symm.map _).nodup_iff.mp h.distinct

/-! ### Tasks one by one -/

/-- The place of a task shows only in failures. -/
theorem taskFact_reindex {index : Nat} {raw : JsonValue} {task : TaskFact}
    (h : taskFact H index raw = .ok task) (index' : Nat) : taskFact H index' raw = .ok task := by
  obtain ⟨members, hmembers, h⟩ := bind_eq_ok h
  obtain ⟨_, hclosed, h⟩ := bind_eq_ok h
  obtain ⟨taskId, htaskId, h⟩ := bind_eq_ok h
  obtain ⟨currentPath, hpath, h⟩ := bind_eq_ok h
  have hraw := mappingOf_eq_ok.mp hmembers
  have hclosed := check_eq_ok.mp hclosed
  simp only [taskFact, hraw, mappingOf, hclosed, check, if_true, bind_ok_eq,
    uuidOf_relabel htaskId ("snapshot.tasks[" ++ toString index' ++ "]" ++ ".task_id"),
    pathOf_relabel hpath ("snapshot.tasks[" ++ toString index' ++ "]" ++ ".current_path")]
  exact h

/-- The tasks of a snapshot, no two with one id or one path. -/
structure TasksRead (H : Hasher) (raws : List JsonValue) (tasks : List TaskFact) : Prop where
  read : List.Forall₂ (fun raw task => taskFact H 0 raw = .ok task) raws tasks
  ids : (tasks.map (·.taskId)).Nodup
  paths : (tasks.map (·.currentPath)).Nodup

theorem taskFactsFrom_iff {before : List TaskFact} {index : Nat} {raws : List JsonValue}
    (hids : (before.map (·.taskId)).Nodup) (hpaths : (before.map (·.currentPath)).Nodup) :
    taskFactsFrom H before index raws = .ok tasks ↔ ∃ new, tasks = before ++ new ∧
      List.Forall₂ (fun raw task => taskFact H 0 raw = .ok task) raws new ∧
      (tasks.map (·.taskId)).Nodup ∧ (tasks.map (·.currentPath)).Nodup := by
  induction raws generalizing before index with
  | nil =>
    rw [taskFactsFrom]
    constructor
    · intro h
      cases h
      exact ⟨[], by simp, .nil, hids, hpaths⟩
    · rintro ⟨new, htasks, hall, -⟩
      cases hall
      rw [htasks, List.append_nil]
  | cons raw raws ih =>
    rw [taskFactsFrom]
    have hsnoc : ∀ task : TaskFact, (task.taskId ∉ before.map (·.taskId) ∧
        task.currentPath ∉ before.map (·.currentPath)) →
        ((before ++ [task]).map (·.taskId)).Nodup ∧
          ((before ++ [task]).map (·.currentPath)).Nodup := by
      intro task hnew
      have hids' := hids.concat hnew.1
      have hpaths' := hpaths.concat hnew.2
      rw [List.concat_eq_append] at hids' hpaths'
      simpa using And.intro hids' hpaths'
    constructor
    · intro h
      obtain ⟨task, htask, h⟩ := bind_eq_ok h
      obtain ⟨_, hnew, h⟩ := bind_eq_ok h
      have hnew := of_decide_eq_true (check_eq_ok.mp hnew)
      obtain ⟨hids', hpaths'⟩ := hsnoc task hnew
      obtain ⟨new, rfl, hall, hnodup, hnodup'⟩ := (ih hids' hpaths').mp h
      exact ⟨task :: new, by simp, .cons (taskFact_reindex htask 0) hall, hnodup, hnodup'⟩
    · rintro ⟨new, rfl, hall, hnodup, hnodup'⟩
      cases hall with
      | @cons _ task _ new htask hall =>
        have hnew : task.taskId ∉ before.map (·.taskId) ∧
            task.currentPath ∉ before.map (·.currentPath) := by
          rw [List.map_append, List.map_cons, List.nodup_append] at hnodup hnodup'
          exact ⟨fun hmem => hnodup.2.2 _ hmem _ List.mem_cons_self rfl,
            fun hmem => hnodup'.2.2 _ hmem _ List.mem_cons_self rfl⟩
        obtain ⟨hids', hpaths'⟩ := hsnoc task hnew
        have hrest : taskFactsFrom H (before ++ [task]) (index + 1) raws =
            .ok (before ++ task :: new) :=
          (ih hids' hpaths').mpr ⟨new, by simp, hall, hnodup, hnodup'⟩
        simp only [taskFact_reindex htask index, bind_ok_eq, check, hnew, not_false_eq_true,
          and_self, decide_true, if_true, hrest]

theorem taskFacts_eq_ok : taskFacts H snapshot = .ok tasks ↔
    ∃ raws, getField snapshot "tasks" = .array raws ∧ TasksRead H raws tasks := by
  constructor
  · intro h
    obtain ⟨raws, hraws, h⟩ := bind_eq_ok h
    obtain ⟨new, rfl, hall, hids, hpaths⟩ := (taskFactsFrom_iff (by simp) (by simp)).mp h
    exact ⟨raws, arrayOf_eq_ok.mp hraws, hall, hids, hpaths⟩
  · rintro ⟨raws, hraws, h⟩
    rw [taskFacts, arrayOf_eq_ok.mpr hraws, bind_ok_eq,
      taskFactsFrom_iff (by simp) (by simp)]
    exact ⟨tasks, rfl, h.read, h.ids, h.paths⟩

theorem TasksRead.perm {raws raws' : List JsonValue} (h : TasksRead H raws tasks)
    (hperm : raws.Perm raws') : ∃ tasks', TasksRead H raws' tasks' ∧ tasks.Perm tasks' := by
  obtain ⟨tasks', hall, htasks⟩ := List.perm_comp_forall₂ hperm.symm h.read
  exact ⟨tasks', ⟨hall, (htasks.symm.map _).nodup_iff.mp h.ids,
    (htasks.symm.map _).nodup_iff.mp h.paths⟩, htasks.symm⟩

/-- A finding agrees with tasks in any order. -/
theorem taskAgrees_perm {tasks' : List TaskFact} (hids : (tasks.map (·.taskId)).Nodup)
    (hperm : tasks.Perm tasks') (fact : FindingFact) :
    taskAgrees tasks' fact = taskAgrees tasks fact := by
  have hfind : tasks'.find? (·.taskId = fact.taskId.getD "") =
      tasks.find? (·.taskId = fact.taskId.getD "") := by
    have hinj : ∀ a ∈ tasks, ∀ b ∈ tasks, a.taskId = b.taskId → a = b := fun a ha b hb heq =>
      List.inj_on_of_nodup_map hids ha hb heq
    cases h : tasks.find? (·.taskId = fact.taskId.getD "") with
    | none =>
      rw [List.find?_eq_none] at h ⊢
      exact fun task htask => h task (hperm.mem_iff.mpr htask)
    | some task =>
      have hid := List.find?_some h
      have hmem := List.mem_of_find?_eq_some h
      refine find?_eq_some_of_unique (hperm.mem_iff.mp hmem) hid fun other hother hother' => ?_
      simp only [decide_eq_true_eq] at hid hother'
      exact hinj other (hperm.mem_iff.mpr hother) task hmem (hother'.trans hid.symm)
  rw [taskAgrees, taskAgrees, hfind]

/-! ### The evidence -/

/-- What the check of the evidence reads. -/
structure EvidenceRead (H : Hasher) (snapshot findings : Members) (tasks : List TaskFact)
    (facts : List FindingFact) : Prop where
  closed : fieldsAre snapshot snapshotFields = true
  schema : isString (getField snapshot "schema_id") "agent-workflow.task-quiescence-snapshot" =
    true
  version : isOne (getField snapshot "schema_version") = true
  digested : ∃ d, getField snapshot "task_quiescence_digest" = .string d ∧
    digest H "agent-workflow.task-quiescence.v1"
      (.object (snapshot.filter fun m => m.1 ≠ "task_quiescence_digest")) = .ok d
  read : taskFacts H snapshot = .ok tasks
  collections : validateSnapshotCollections H snapshot = .ok ()
  findings : FindingsRead H findings facts
  ids : ∃ ids, snapshotFindingIds snapshot = .ok ids ∧ ids = sortStrings ids ∧
    ids = sortStrings (facts.map (·.findingId))
  agree : ∃ journals, getField snapshot "task_journals" = .array journals ∧
    ∀ fact ∈ facts, checkFinding tasks journals fact = .ok ()

theorem digest_isDigest {domain d : String} {v : JsonValue} (h : digest H domain v = .ok d) :
    isDigest d = true := by
  rw [digest] at h
  cases hp : digestPreimage H.toEncoding domain v with
  | error e =>
    rw [hp] at h
    cases h
  | ok preimage =>
    rw [hp] at h
    cases h
    exact H.sha256_isDigest _

theorem enumerateM_unit_iff {f : FindingFact → Except Failure Unit} {index : Nat} :
    (∃ us, enumerateM (fun _ fact => f fact) index facts = .ok us) ↔
      ∀ fact ∈ facts, f fact = .ok () := by
  induction facts generalizing index with
  | nil => simp [enumerateM]
  | cons fact facts ih =>
    rw [List.forall_mem_cons, enumerateM]
    constructor
    · rintro ⟨us, h⟩
      obtain ⟨u, hu, h⟩ := bind_eq_ok h
      obtain ⟨rest, hrest, -⟩ := bind_eq_ok h
      exact ⟨hu, ih.mp ⟨rest, hrest⟩⟩
    · rintro ⟨hfact, hrest⟩
      obtain ⟨rest, hrest⟩ := ih.mpr hrest
      rw [hfact, bind_ok_eq, hrest]
      exact ⟨_, rfl⟩

theorem validatedEvidence_eq_ok : validatedEvidence H snapshot findings = .ok (tasks, facts) ↔
    EvidenceRead H snapshot findings tasks facts := by
  constructor
  · intro h
    obtain ⟨_, hclosed, h⟩ := bind_eq_ok h
    obtain ⟨_, hschema, h⟩ := bind_eq_ok h
    obtain ⟨expected, hexpected, h⟩ := bind_eq_ok h
    obtain ⟨actual, hactual, h⟩ := bind_eq_ok h
    obtain ⟨_, hdigest, h⟩ := bind_eq_ok h
    obtain ⟨tasks, htasks, h⟩ := bind_eq_ok h
    obtain ⟨_, hcollections, h⟩ := bind_eq_ok h
    obtain ⟨facts, hfacts, h⟩ := bind_eq_ok h
    obtain ⟨ids, hids, h⟩ := bind_eq_ok h
    obtain ⟨_, hsorted, h⟩ := bind_eq_ok h
    obtain ⟨journals, hjournals, h⟩ := bind_eq_ok h
    obtain ⟨us, hagree, h⟩ := bind_eq_ok h
    cases h
    obtain ⟨hid, hversion⟩ := (Bool.and_eq_true _ _).mp (check_eq_ok.mp hschema)
    have hdigest := of_decide_eq_true (check_eq_ok.mp hdigest)
    obtain ⟨hsorted, hsame⟩ := of_decide_eq_true (check_eq_ok.mp hsorted)
    subst hdigest
    exact ⟨check_eq_ok.mp hclosed, hid, hversion,
      ⟨actual, (sha256Of_eq_ok.mp hexpected).1, hactual⟩,
      htasks, hcollections, parseFindings_eq_ok.mp hfacts, ⟨ids, hids, hsorted, hsame⟩,
      ⟨journals, arrayOf_eq_ok.mp hjournals, enumerateM_unit_iff.mp ⟨us, hagree⟩⟩⟩
  · intro h
    obtain ⟨d, hd, hdigest⟩ := h.digested
    obtain ⟨ids, hids, hsorted, hsame⟩ := h.ids
    obtain ⟨journals, hjournals, hagree⟩ := h.agree
    have hall : ∃ us, enumerateM (fun _ fact => checkFinding tasks journals fact) 0 facts =
        .ok us := enumerateM_unit_iff.mpr hagree
    obtain ⟨us, hus⟩ := hall
    have hexpected : sha256Of policyFailure (getField snapshot "task_quiescence_digest")
        "task_quiescence_digest" = .ok d := sha256Of_eq_ok.mpr ⟨hd, digest_isDigest hdigest⟩
    have hfacts := parseFindings_eq_ok.mpr h.findings
    have hjournals' : arrayOf policyFailure (getField snapshot "task_journals")
        "snapshot.task_journals" = .ok journals := arrayOf_eq_ok.mpr hjournals
    rw [validatedEvidence, h.closed, h.schema, h.version, hexpected]
    simp only [check, Bool.and_self, if_true, bind_ok_eq, hdigest, decide_true, h.read,
      h.collections, hfacts, hids, ← hsorted, ← hsame, and_self, hjournals', hus, pure_eq_ok]

/-! ### The evidence in another order -/

/-- A snapshot with the same tasks in another order, under its own digest. -/
structure TasksReordered (H : Hasher) (snapshot snapshot' : Members) : Prop where
  other : ∀ k, k ∉ ["tasks", "task_quiescence_digest"] → snapshot'.lookup k = snapshot.lookup k
  tasks : ArrayReordered (getField snapshot "tasks") (getField snapshot' "tasks")
  digested : ∃ d, getField snapshot' "task_quiescence_digest" = .string d ∧
    digest H "agent-workflow.task-quiescence.v1"
      (.object (snapshot'.filter fun m => m.1 ≠ "task_quiescence_digest")) = .ok d

theorem sortStrings_perm {l l' : List String} (h : l.Perm l') : sortStrings l = sortStrings l' := by
  apply List.Perm.eq_of_pairwise' (List.pairwise_insertionSort _ _)
  · exact List.pairwise_insertionSort _ _
  · exact (List.perm_insertionSort _ _).trans (h.trans (List.perm_insertionSort _ _).symm)

theorem EvidenceRead.reordered (h : EvidenceRead H snapshot findings tasks facts)
    (hsnapshot : TasksReordered H snapshot snapshot')
    (hfindings : FieldsReordered ["findings"] findings findings') :
    ∃ tasks' facts', EvidenceRead H snapshot' findings' tasks' facts' ∧ facts.Perm facts' := by
  obtain ⟨facts', hfacts', hfacts⟩ := h.findings.perm hfindings
  obtain ⟨raws, hraws, htasks⟩ := taskFacts_eq_ok.mp h.read
  obtain ⟨xs, ys, hxs, hys, hxy⟩ := hsnapshot.tasks
  rw [hraws] at hxs
  cases hxs
  obtain ⟨tasks', htasks', hperm⟩ := htasks.perm hxy
  obtain ⟨journals, hjournals, hagree⟩ := h.agree
  obtain ⟨ids, hids, hsorted, hsame⟩ := h.ids
  have hget : ∀ k, k ∉ ["tasks", "task_quiescence_digest"] →
      getField snapshot' k = getField snapshot k := fun k hk => getField_congr (hsnapshot.other k hk)
  have hkey : ∀ k, hasKey snapshot' k = hasKey snapshot k := by
    intro k
    by_cases htasksKey : k = "tasks"
    · rw [htasksKey, hasKey_of_array hraws, hasKey_of_array hys]
    by_cases hdigestKey : k = "task_quiescence_digest"
    · obtain ⟨d, hd, -⟩ := h.digested
      obtain ⟨d', hd', -⟩ := hsnapshot.digested
      rw [hdigestKey, hasKey_of_getField hd, hasKey_of_getField hd']
    · rw [hasKey, hasKey, hsnapshot.other k (by simp [htasksKey, hdigestKey])]
  have hclosed : fieldsAre snapshot' snapshotFields = true := by
    rw [fieldsAre_congr hkey]
    exact h.closed
  have hschema := h.schema
  have hversion := h.version
  rw [← hget _ (by decide)] at hschema hversion hjournals
  have hcollections : validateSnapshotCollections H snapshot' = .ok () := by
    have hsame : validateSnapshotCollections H snapshot' =
        validateSnapshotCollections H snapshot := by
      simp only [validateSnapshotCollections, List.mapM_cons, List.mapM_nil,
        hget "source_layout_digest" (by decide), hget "target_layout_digest" (by decide),
        hget "source_schema_bundle_digest" (by decide),
        hget "target_schema_bundle_digest" (by decide), hget "metadata" (by decide),
        hget "task_journals" (by decide)]
    rw [hsame]
    exact h.collections
  have hids' : snapshotFindingIds snapshot' = .ok ids := by
    rw [snapshotFindingIds, hget "finding_ids" (by decide)]
    exact hids
  have hagree' : ∀ fact ∈ facts', checkFinding tasks' journals fact = .ok () := by
    intro fact hfact
    rw [checkFinding, taskAgrees_perm htasks.ids hperm]
    exact hagree fact (hfacts.mem_iff.mpr hfact)
  have hsort : sortStrings (facts'.map (·.findingId)) = sortStrings (facts.map (·.findingId)) :=
    sortStrings_perm (hfacts.symm.map _)
  exact ⟨tasks', facts', ⟨hclosed, hschema, hversion, hsnapshot.digested,
    taskFacts_eq_ok.mpr ⟨ys, hys, htasks'⟩, hcollections, hfacts',
    ⟨ids, hids', hsorted, hsame.trans hsort.symm⟩, ⟨journals, hjournals, hagree'⟩⟩, hfacts⟩

/-! ### The order of the blockers -/

instance : Std.Total BlockerLe where
  total a b := by
    unfold BlockerLe
    rcases Nat.lt_trichotomy (classOrder a.code) (classOrder b.code) with h | h | h
    · exact .inl (.inl h)
    · rcases le_total (blockerSortKey a) (blockerSortKey b) with hle | hle
      · exact .inl (.inr ⟨h, hle⟩)
      · exact .inr (.inr ⟨h.symm, hle⟩)
    · exact .inr (.inl h)

instance : IsTrans TaskGateBlocker BlockerLe where
  trans a b c hab hbc := by
    unfold BlockerLe at *
    rcases hab with hab | ⟨hab, hkab⟩
    · rcases hbc with hbc | ⟨hbc, -⟩
      · exact .inl (hab.trans hbc)
      · exact .inl (hbc ▸ hab)
    · rcases hbc with hbc | ⟨hbc, hkbc⟩
      · exact .inl (hab ▸ hbc)
      · exact .inr ⟨hab.trans hbc, le_trans hkab hkbc⟩

theorem blocker_findingId_of_le {a b : TaskGateBlocker} (hab : BlockerLe a b)
    (hba : BlockerLe b a) : a.findingId = b.findingId := by
  unfold BlockerLe at hab hba
  have hkeys : blockerSortKey a = blockerSortKey b := by
    rcases hab with hab | ⟨hab, hkab⟩
    · rcases hba with hba | ⟨hba, -⟩
      · omega
      · omega
    · rcases hba with hba | ⟨-, hkba⟩
      · omega
      · exact le_antisymm hkab hkba
  simp only [blockerSortKey, List.cons.injEq] at hkeys
  exact hkeys.2.2.2.2.1

theorem surfaceBlocker_findingId {fact : FindingFact} {surfaceId : String} {b : TaskGateBlocker}
    (h : surfaceBlocker fact impact surfaceId = some b) : b.findingId = fact.findingId := by
  obtain ⟨change, -, h⟩ := Option.bind_eq_some_iff.mp h
  obtain ⟨pinned, -, h⟩ := Option.bind_eq_some_iff.mp h
  split_ifs at h
  all_goals
    cases h
    rfl

theorem taskBlocker_findingId {fact : FindingFact} {b : TaskGateBlocker}
    (h : taskBlocker fact impact = some b) : b.findingId = fact.findingId := by
  unfold taskBlocker at h
  dsimp only at h
  split at h
  · next found hfound =>
    obtain ⟨surfaceId, -, hsurface⟩ := List.exists_of_findSome?_eq_some hfound
    cases h
    exact surfaceBlocker_findingId hsurface
  · split at h
    · cases h
      rfl
    · cases h

/-- A blocker names the finding it stands for. -/
theorem findingBlocker_findingId {fact : FindingFact} {b : TaskGateBlocker}
    (h : findingBlocker operation impact fact = some b) : b.findingId = fact.findingId := by
  unfold findingBlocker at h
  split_ifs at h with hambiguous hunfinished hactive hnew
  · cases h
    rfl
  · cases h
    rfl
  · cases h
    rfl
  · exact taskBlocker_findingId h
  · cases h
    rfl

/-- The blockers of findings with different ids, in the order of the code. -/
theorem sortedBlockers_perm (hids : (facts.map (·.findingId)).Nodup) (hperm : facts.Perm facts') :
    (facts'.filterMap (findingBlocker operation impact)).insertionSort BlockerLe =
      (facts.filterMap (findingBlocker operation impact)).insertionSort BlockerLe := by
  have hblockers := hperm.symm.filterMap (findingBlocker operation impact)
  have hsorted := (List.perm_insertionSort BlockerLe _).trans
    (hblockers.trans (List.perm_insertionSort BlockerLe _).symm)
  have hanti : ∀ a b,
      a ∈ (facts'.filterMap (findingBlocker operation impact)).insertionSort BlockerLe →
      b ∈ (facts.filterMap (findingBlocker operation impact)).insertionSort BlockerLe →
      BlockerLe a b → BlockerLe b a → a = b := by
    intro a b ha hb hab hba
    rw [List.mem_insertionSort, List.mem_filterMap] at ha hb
    obtain ⟨fact, hfact, ha⟩ := ha
    obtain ⟨fact', hfact', hb⟩ := hb
    have hid : fact.findingId = fact'.findingId := by
      rw [← findingBlocker_findingId ha, ← findingBlocker_findingId hb]
      exact blocker_findingId_of_le hab hba
    have hsame := List.inj_on_of_nodup_map hids (hperm.mem_iff.mpr hfact) hfact' hid
    rw [hsame, hb] at ha
    cases ha
    rfl
  exact List.Perm.eq_of_pairwise hanti (List.pairwise_insertionSort BlockerLe _)
    (List.pairwise_insertionSort BlockerLe _) hsorted

/-! ### The gate -/

/-- A sync without any change passes whatever is found. -/
def Unchanging (operation : String) (impact : CandidateImpact) : Prop :=
  operation = "sync" ∧ impact.impactKind = "none" ∧ impact.authorityChanges = [] ∧
    impact.surfaceChanges = []

instance : Decidable (Unchanging operation impact) := inferInstanceAs (Decidable (_ ∧ _))

def gateBlockers (operation : String) (impact : CandidateImpact) (facts : List FindingFact) :
    List TaskGateBlocker :=
  if Unchanging operation impact then []
  else (facts.filterMap (findingBlocker operation impact)).insertionSort BlockerLe

theorem mem_gateBlockers {b : TaskGateBlocker} : b ∈ gateBlockers operation impact facts ↔
    ¬ Unchanging operation impact ∧
      ∃ fact ∈ facts, findingBlocker operation impact fact = some b := by
  unfold gateBlockers
  split_ifs with hunchanging
  · simp [hunchanging]
  · rw [List.mem_insertionSort, List.mem_filterMap]
    simp [hunchanging]

theorem gateBlockers_pairwise : (gateBlockers operation impact facts).Pairwise BlockerLe := by
  unfold gateBlockers
  split_ifs
  · exact List.Pairwise.nil
  · exact List.pairwise_insertionSort BlockerLe _

def gateResult (operation : String) (impact : CandidateImpact) (facts : List FindingFact) :
    TaskGateResult :=
  ⟨taskGateEvaluatorId, evaluatorVersion, operation, gateBlockers operation impact facts,
    (gateBlockers operation impact facts).head?.map (·.code)⟩

theorem evaluateTaskGate_eq_ok {result : TaskGateResult} :
    evaluateTaskGate H operation impact snapshot findings = .ok result ↔
      operation ∈ gateOperations ∧ ∃ tasks facts, EvidenceRead H snapshot findings tasks facts ∧
        result = gateResult operation impact facts := by
  have hresult : ∀ facts : List FindingFact,
      (if Unchanging operation impact then
        Except.ok (⟨taskGateEvaluatorId, 1, operation, [], none⟩ : TaskGateResult)
      else .ok ⟨taskGateEvaluatorId, evaluatorVersion, operation,
        (facts.filterMap (findingBlocker operation impact)).insertionSort BlockerLe,
        ((facts.filterMap (findingBlocker operation impact)).insertionSort
          BlockerLe).head?.map (·.code)⟩) =
      (.ok (gateResult operation impact facts) : Except Failure TaskGateResult) := by
    intro facts
    unfold gateResult gateBlockers
    split_ifs
    · rfl
    · rfl
  constructor
  · intro h
    obtain ⟨_, hop, h⟩ := bind_eq_ok h
    obtain ⟨⟨tasks, facts⟩, hevidence, h⟩ := bind_eq_ok h
    have hgate := (hresult facts).symm.trans h
    cases hgate
    exact ⟨of_decide_eq_true (check_eq_ok.mp hop), tasks, facts,
      validatedEvidence_eq_ok.mp hevidence, rfl⟩
  · intro h
    obtain ⟨hop, tasks, facts, hevidence, hgate⟩ := h
    have hevidence := validatedEvidence_eq_ok.mpr hevidence
    rw [evaluateTaskGate, (check_eq_ok (u := ())).mpr (decide_eq_true hop), bind_ok_eq, hevidence,
      bind_ok_eq, hgate]
    exact hresult facts

theorem EvidenceRead.evidence_reordered (h : EvidenceRead H snapshot findings tasks facts) :
    TasksReordered H snapshot snapshot ∧ FieldsReordered ["findings"] findings findings := by
  obtain ⟨raws, hraws, -⟩ := taskFacts_eq_ok.mp h.read
  obtain ⟨found, hfound, -⟩ := h.findings.read
  constructor
  · exact ⟨fun _ _ => rfl, ⟨raws, raws, hraws, hraws, .refl _⟩, h.digested⟩
  · refine ⟨fun _ _ => rfl, fun k hk => ?_⟩
    rw [List.mem_singleton] at hk
    rw [hk]
    exact ⟨found, found, hfound, hfound, .refl _⟩

theorem gateResult_perm (hids : (facts.map (·.findingId)).Nodup) (hperm : facts.Perm facts') :
    gateResult operation impact facts' = gateResult operation impact facts := by
  have hblockers : gateBlockers operation impact facts' = gateBlockers operation impact facts := by
    unfold gateBlockers
    rw [sortedBlockers_perm hids hperm]
  rw [gateResult, gateResult, hblockers]

theorem evaluateTaskGate_reordered {result : TaskGateResult}
    (h : evaluateTaskGate H operation impact snapshot findings = .ok result)
    (hsnapshot : TasksReordered H snapshot snapshot')
    (hfindings : FieldsReordered ["findings"] findings findings') :
    evaluateTaskGate H operation impact snapshot' findings' = .ok result := by
  obtain ⟨hop, tasks, facts, hevidence, hresult⟩ := evaluateTaskGate_eq_ok.mp h
  obtain ⟨tasks', facts', hevidence', hperm⟩ := hevidence.reordered hsnapshot hfindings
  have hsame : gateResult operation impact facts' = gateResult operation impact facts :=
    gateResult_perm hevidence.findings.distinct hperm
  exact evaluateTaskGate_eq_ok.mpr ⟨hop, tasks', facts', hevidence', hresult.trans hsame.symm⟩

/-- More findings in the document are more facts. -/
theorem FindingsRead.subset (h : FindingsRead H findings facts)
    (h' : FindingsRead H findings' facts')
    (hmore : itemsOf (getField findings "findings") ⊆ itemsOf (getField findings' "findings")) :
    facts ⊆ facts' := by
  obtain ⟨raws, hraws, hall⟩ := h.read
  obtain ⟨raws', hraws', hall'⟩ := h'.read
  rw [hraws, hraws'] at hmore
  intro fact hfact
  obtain ⟨raw, hraw, hread⟩ := forall₂_right hall fact hfact
  obtain ⟨fact', hfact', hread'⟩ := forall₂_right hall'.flip raw (hmore hraw)
  change findingFact H [] 0 raw = .ok fact' at hread'
  rw [hread] at hread'
  cases hread'
  exact hfact'

/-- The least blocker gives the code of the gate. -/
theorem gateResult_primary : (gateResult operation impact facts).primaryEvaluatorBlocker = none ↔
    (gateResult operation impact facts).blockers = [] := by
  simp [gateResult]

theorem gateResult_least {code : BlockerCode}
    (h : (gateResult operation impact facts).primaryEvaluatorBlocker = some code) :
    ∃ b ∈ (gateResult operation impact facts).blockers, b.code = code ∧
      ∀ b' ∈ (gateResult operation impact facts).blockers, BlockerLe b b' := by
  have hpairwise : (gateBlockers operation impact facts).Pairwise BlockerLe :=
    gateBlockers_pairwise
  simp only [gateResult] at h ⊢
  cases hblockers : gateBlockers operation impact facts with
  | nil =>
    rw [hblockers] at h
    cases h
  | cons b rest =>
    rw [hblockers] at h hpairwise
    cases h
    refine ⟨b, List.mem_cons_self, rfl, fun b' hb' => ?_⟩
    rcases List.mem_cons.mp hb' with rfl | hb'
    · rcases Std.Total.total (r := BlockerLe) b' b' with hle | hle
      · exact hle
      · exact hle
    · exact List.rel_of_pairwise_cons hpairwise hb'

/-! ### Findings for every live task -/

theorem FindingKind.text_injective : Function.Injective FindingKind.text := by
  intro a b h
  cases a <;> cases b <;> first | rfl | exact absurd h (by decide)

theorem findingKind_eq_ok {finding : Members} {name : String} {kind : FindingKind}
    (h : findingKind finding name = .ok kind) :
    kind.text = name ∧ fieldsAre finding (findingFields kind) = true := by
  unfold findingKind at h
  cases hname : findingKind? name with
  | none =>
    rw [hname] at h
    cases h
  | some found =>
    simp only [hname] at h
    split at h
    · next hclosed =>
      cases h
      have htext := List.find?_some hname
      exact ⟨of_decide_eq_true htext, hclosed⟩
    · cases h

theorem string_of_uuidOf {fail : String → Failure} {v : JsonValue} {label s : String}
    (h : uuidOf fail v label = .ok s) : v = .string s := by
  obtain ⟨text, htext, h⟩ := bind_eq_ok h
  split at h
  · cases h
    exact (stringOf_eq_ok.mp htext).1
  · cases h

theorem some_of_map {x : Except Failure String} {found : Option String}
    (h : x.map some = .ok found) : ∃ s, x = .ok s ∧ found = some s := by
  cases x with
  | error e => cases h
  | ok s =>
    cases h
    exact ⟨s, rfl, rfl⟩

/-- What the record of a task says under its id and its status. -/
theorem taskFact_fields {index : Nat} {raw : JsonValue} {task : TaskFact}
    (h : taskFact H index raw = .ok task) :
    stringValue? (fieldOf raw "task_id") = some task.taskId ∧
      fieldOf raw "lifecycle_status" = .string task.lifecycleStatus := by
  obtain ⟨members, hmembers, h⟩ := bind_eq_ok h
  obtain ⟨_, -, h⟩ := bind_eq_ok h
  obtain ⟨taskId, htaskId, h⟩ := bind_eq_ok h
  obtain ⟨_, -, h⟩ := bind_eq_ok h
  obtain ⟨_, -, h⟩ := bind_eq_ok h
  obtain ⟨_, -, h⟩ := bind_eq_ok h
  dsimp only at h
  split at h
  all_goals
    obtain ⟨_, -, h⟩ := bind_eq_ok h
    obtain ⟨_, -, h⟩ := bind_eq_ok h
    obtain ⟨_, -, h⟩ := bind_eq_ok h
    obtain ⟨_, -, h⟩ := bind_eq_ok h
    obtain ⟨_, -, h⟩ := bind_eq_ok h
    obtain ⟨_, -, h⟩ := bind_eq_ok h
    obtain ⟨status, hstatus, h⟩ := bind_eq_ok h
    obtain ⟨_, -, h⟩ := bind_eq_ok h
    obtain ⟨_, -, h⟩ := bind_eq_ok h
    obtain ⟨_, -, h⟩ := bind_eq_ok h
    obtain ⟨_, -, h⟩ := bind_eq_ok h
    obtain ⟨_, -, h⟩ := bind_eq_ok h
    obtain ⟨_, -, h⟩ := bind_eq_ok h
    cases h
    rw [mappingOf_eq_ok.mp hmembers]
    exact ⟨stringValue?_eq_some.mpr (string_of_uuidOf htaskId), (stringOf_eq_ok.mp hstatus).1⟩

/-- What a finding says under its kind, and under the id or path that its kind goes by. -/
structure FindingNamed (H : Hasher) (raw : JsonValue) (fact : FindingFact) : Prop where
  kind : stringValue? (fieldOf raw "kind") = some fact.kind.text
  task : fact.kind = .nonArchivedTask → ∃ taskId, fact.taskId = some taskId ∧
    stringValue? (fieldOf raw "task_id") = some taskId
  journal : fact.kind = .unfinishedTaskTransaction → ∃ path, fact.path = some path ∧
    pathOf policyFailure H.nfc (fieldOf raw "journal_path") "finding journal_path" = .ok path

theorem findingFact_named {seen : List String} {index : Nat} {raw : JsonValue} {fact : FindingFact}
    (h : findingFact H seen index raw = .ok fact) : FindingNamed H raw fact := by
  obtain ⟨finding, hfinding, h⟩ := bind_eq_ok h
  obtain ⟨name, hname, h⟩ := bind_eq_ok h
  obtain ⟨kind, hkind, h⟩ := bind_eq_ok h
  obtain ⟨findingId, -, h⟩ := bind_eq_ok h
  obtain ⟨_, -, h⟩ := bind_eq_ok h
  obtain ⟨taskId, htask, h⟩ := bind_eq_ok h
  obtain ⟨path, hpath, h⟩ := bind_eq_ok h
  obtain ⟨htext, hclosed⟩ := findingKind_eq_ok hkind
  have hkey := fieldsAre_iff.mp hclosed
  have hraw := mappingOf_eq_ok.mp hfinding
  have hsame : fact.kind = kind ∧ fact.taskId = taskId ∧
      (kind ≠ .collision → fact.path = path) := by
    dsimp only at h
    split at h
    · next hcollision =>
      obtain ⟨_, -, h⟩ := bind_eq_ok h
      rw [if_neg (by rw [hcollision]; decide)] at h
      cases h
      exact ⟨rfl, rfl, fun hne => absurd hcollision hne⟩
    · obtain ⟨_, hsame, h⟩ := bind_eq_ok h
      cases hsame
      split at h
      · obtain ⟨_, -, h⟩ := bind_eq_ok h
        obtain ⟨_, -, h⟩ := bind_eq_ok h
        obtain ⟨_, -, h⟩ := bind_eq_ok h
        obtain ⟨_, -, h⟩ := bind_eq_ok h
        cases h
        exact ⟨rfl, rfl, fun _ => rfl⟩
      · cases h
        exact ⟨rfl, rfl, fun _ => rfl⟩
  obtain ⟨hfactKind, hfactTask, hfactPath⟩ := hsame
  rw [hraw]
  constructor
  · rw [hfactKind, htext]
    exact stringValue?_eq_some.mpr (stringOf_eq_ok.mp hname).1
  · intro hlive
    rw [hfactKind] at hlive
    have hhas : hasKey finding "task_id" = true := (hkey _).mpr (by rw [hlive]; decide)
    rw [findingTask, if_pos hhas] at htask
    obtain ⟨id, hid, rfl⟩ := some_of_map htask
    exact ⟨id, hfactTask, stringValue?_eq_some.mpr (string_of_uuidOf hid)⟩
  · intro hunfinished
    rw [hfactKind] at hunfinished
    have hhas : hasKey finding "journal_path" = true := (hkey _).mpr (by rw [hunfinished]; decide)
    have hnone : ¬ hasKey finding "current_path" = true := fun hk =>
      absurd ((hkey _).mp hk) (by rw [hunfinished]; decide)
    rw [findingPath, if_neg hnone, if_pos hhas] at hpath
    obtain ⟨found, hfound, rfl⟩ := some_of_map hpath
    exact ⟨found, hfactPath (by rw [hunfinished]; decide), hfound⟩

def TasksArchived (snapshot : Members) : Prop :=
  ∀ task ∈ itemsOf (getField snapshot "tasks"),
    isString (fieldOf task "lifecycle_status") "archived" = true

def JournalsTerminal (snapshot : Members) : Prop :=
  ∀ journal ∈ itemsOf (getField snapshot "task_journals"),
    isTrue (fieldOf journal "terminal") = true

instance (snapshot : Members) : Decidable (TasksArchived snapshot) :=
  inferInstanceAs (Decidable (∀ _ ∈ _, _))

instance (snapshot : Members) : Decidable (JournalsTerminal snapshot) :=
  inferInstanceAs (Decidable (∀ _ ∈ _, _))

/-- The findings of a document of one kind. -/
def findingsOf (findings : Members) (kind : FindingKind) : List JsonValue :=
  (itemsOf (getField findings "findings")).filter fun finding =>
    isString (fieldOf finding "kind") kind.text

/-- Every task of the snapshot that is not archived has a finding under its id, and every journal
that is not terminal has one under its path. -/
def Covers (H : Hasher) (snapshot findings : Members) : Prop :=
  (∀ task ∈ itemsOf (getField snapshot "tasks"),
    isString (fieldOf task "lifecycle_status") "archived" = false →
      ∃ finding ∈ findingsOf findings .nonArchivedTask,
        stringValue? (fieldOf finding "task_id") = stringValue? (fieldOf task "task_id")) ∧
  ∀ journal ∈ itemsOf (getField snapshot "task_journals"),
    isTrue (fieldOf journal "terminal") = false →
      ∃ finding ∈ findingsOf findings .unfinishedTaskTransaction,
        (pathOf policyFailure H.nfc (fieldOf finding "journal_path")
          "finding journal_path").toOption = stringValue? (fieldOf journal "journal_path")

instance (H : Hasher) (snapshot findings : Members) : Decidable (Covers H snapshot findings) :=
  inferInstanceAs (Decidable ((∀ _ ∈ _, _ → ∃ _ ∈ _, _) ∧ ∀ _ ∈ _, _ → ∃ _ ∈ _, _))

/-- A finding that says of a task what the snapshot says of it. -/
structure FindingOf (task : TaskFact) (fact : FindingFact) : Prop where
  kind : fact.kind = .nonArchivedTask
  taskId : fact.taskId = some task.taskId
  path : fact.path = some task.currentPath
  lifecycleStatus : fact.lifecycleStatus = some task.lifecycleStatus
  mode : fact.mode = some task.mode
  pinnedSurfaces : fact.pinnedSurfaces = task.pinnedSurfaces

/-- No live task and no unfinished journal is left out of findings that pass the check. -/
def NoneOmitted (H : Hasher) (snapshot findings : Members) : Prop :=
  ∀ tasks facts, validatedEvidence H snapshot findings = .ok (tasks, facts) →
    (∀ task ∈ tasks, task.lifecycleStatus ≠ "archived" → ∃ fact ∈ facts, FindingOf task fact) ∧
    ∀ journal ∈ itemsOf (getField snapshot "task_journals"),
      isTrue (fieldOf journal "terminal") = false →
        ∃ fact ∈ facts, fact.kind = .unfinishedTaskTransaction ∧
          fact.path = stringValue? (fieldOf journal "journal_path")

/-- The findings of a kind are the raw forms of the facts of that kind. -/
theorem FindingsRead.of_kind (h : FindingsRead H findings facts) {kind : FindingKind} :
    (∀ finding ∈ findingsOf findings kind, ∃ fact ∈ facts, fact.kind = kind ∧
      FindingNamed H finding fact) ∧
    ∀ fact ∈ facts, fact.kind = kind → ∃ finding ∈ findingsOf findings kind,
      FindingNamed H finding fact := by
  obtain ⟨raws, hraws, hall⟩ := h.read
  have hfindings : findingsOf findings kind =
      raws.filter fun finding => isString (fieldOf finding "kind") kind.text := by
    rw [findingsOf, hraws]
    rfl
  rw [hfindings]
  constructor
  · intro finding hfinding
    obtain ⟨hraw, hkind⟩ := List.mem_filter.mp hfinding
    obtain ⟨fact, hfact, hread⟩ := forall₂_left hall finding hraw
    have hnamed := findingFact_named hread
    have htext := hnamed.kind
    rw [isString_iff.mp hkind] at htext
    exact ⟨fact, hfact, (FindingKind.text_injective (Option.some.inj htext)).symm, hnamed⟩
  · intro fact hfact hkind
    obtain ⟨finding, hfinding, hread⟩ := forall₂_right hall fact hfact
    have hnamed := findingFact_named hread
    refine ⟨finding, List.mem_filter.mpr ⟨hfinding, ?_⟩, hnamed⟩
    rw [← hkind]
    exact isString_iff.mpr (stringValue?_eq_some.mp hnamed.kind)

theorem find?_task (hids : (tasks.map (·.taskId)).Nodup) {task : TaskFact} (htask : task ∈ tasks) :
    tasks.find? (·.taskId = task.taskId) = some task :=
  find?_eq_some_of_unique htask (by simp) fun other hother hid =>
    List.inj_on_of_nodup_map hids hother htask (of_decide_eq_true hid)

/-- A finding under the id of a task that passes the check says what the snapshot says. -/
theorem findingOf_of_check {journals : List JsonValue} {task : TaskFact} {fact : FindingFact}
    (hids : (tasks.map (·.taskId)).Nodup) (htask : task ∈ tasks)
    (hkind : fact.kind = .nonArchivedTask) (hid : fact.taskId = some task.taskId)
    (h : checkFinding tasks journals fact = .ok ()) : FindingOf task fact := by
  obtain ⟨_, hagrees, -⟩ := bind_eq_ok h
  have hagrees := of_decide_eq_true (check_eq_ok.mp hagrees)
  have hagrees := hagrees.resolve_left (not_not.mpr hkind)
  rw [taskAgrees, hid, Option.getD_some, find?_task hids htask] at hagrees
  obtain ⟨hpath, hstatus, hmode, hpins⟩ := of_decide_eq_true hagrees
  exact ⟨hkind, hid, hpath.symm, hstatus.symm, hmode.symm, hpins.symm⟩

/-- The findings under the id of a task are those that were read with it. -/
theorem FindingsRead.task_iff (h : FindingsRead H findings facts) {taskId : String} :
    (∃ finding ∈ findingsOf findings .nonArchivedTask,
        stringValue? (fieldOf finding "task_id") = some taskId) ↔
      ∃ fact ∈ facts, fact.kind = .nonArchivedTask ∧ fact.taskId = some taskId := by
  constructor
  · rintro ⟨finding, hfinding, hsame⟩
    obtain ⟨fact, hfact, hkind, hnamed⟩ := h.of_kind.1 finding hfinding
    obtain ⟨found, hfound, hfindingId⟩ := hnamed.task hkind
    exact ⟨fact, hfact, hkind, hfound.trans (hfindingId.symm.trans hsame)⟩
  · rintro ⟨fact, hfact, hkind, hid⟩
    obtain ⟨finding, hfinding, hnamed⟩ := h.of_kind.2 fact hfact hkind
    obtain ⟨found, hfound, hfindingId⟩ := hnamed.task hkind
    exact ⟨finding, hfinding, hfindingId.trans (hfound.symm.trans hid)⟩

/-- The findings under the path of a journal are those that were read with it. -/
theorem FindingsRead.journal_iff (h : FindingsRead H findings facts) {path : Option String} :
    (∃ finding ∈ findingsOf findings .unfinishedTaskTransaction,
        (pathOf policyFailure H.nfc (fieldOf finding "journal_path")
          "finding journal_path").toOption = path) ↔
      ∃ fact ∈ facts, fact.kind = .unfinishedTaskTransaction ∧ fact.path = path := by
  constructor
  · rintro ⟨finding, hfinding, hsame⟩
    obtain ⟨fact, hfact, hkind, hnamed⟩ := h.of_kind.1 finding hfinding
    obtain ⟨found, hfound, hfindingPath⟩ := hnamed.journal hkind
    rw [hfindingPath] at hsame
    exact ⟨fact, hfact, hkind, hfound.trans hsame⟩
  · rintro ⟨fact, hfact, hkind, hpath⟩
    obtain ⟨finding, hfinding, hnamed⟩ := h.of_kind.2 fact hfact hkind
    obtain ⟨found, hfound, hfindingPath⟩ := hnamed.journal hkind
    refine ⟨finding, hfinding, ?_⟩
    rw [hfindingPath, ← hpath, hfound]
    rfl

theorem noneOmitted_iff (h : EvidenceRead H snapshot findings tasks facts) :
    NoneOmitted H snapshot findings ↔ Covers H snapshot findings := by
  obtain ⟨raws, hraws, htasks⟩ := taskFacts_eq_ok.mp h.read
  obtain ⟨journals, hjournals, hagree⟩ := h.agree
  have hevidence := validatedEvidence_eq_ok.mpr h
  rw [NoneOmitted, Covers, hraws, hjournals]
  constructor
  · intro hnone
    obtain ⟨hlive, hunfinished⟩ := hnone tasks facts hevidence
    refine ⟨fun raw hraw hstatus => ?_, fun journal hjournal hterminal =>
      h.findings.journal_iff.mpr (hunfinished journal hjournal hterminal)⟩
    obtain ⟨task, htask, hread⟩ := forall₂_left htasks.read raw hraw
    obtain ⟨hid, hfield⟩ := taskFact_fields hread
    have hnot : task.lifecycleStatus ≠ "archived" := by
      intro heq
      rw [hfield, heq] at hstatus
      cases hstatus
    obtain ⟨fact, hfact, hof⟩ := hlive task htask hnot
    rw [hid]
    exact h.findings.task_iff.mpr ⟨fact, hfact, hof.kind, hof.taskId⟩
  · rintro ⟨hlive, hunfinished⟩ tasks' facts' hevidence'
    rw [hevidence] at hevidence'
    cases hevidence'
    refine ⟨fun task htask hnot => ?_, fun journal hjournal hterminal =>
      h.findings.journal_iff.mp (hunfinished journal hjournal hterminal)⟩
    obtain ⟨raw, hraw, hread⟩ := forall₂_right htasks.read task htask
    obtain ⟨hid, hfield⟩ := taskFact_fields hread
    have hstatus : isString (fieldOf raw "lifecycle_status") "archived" = false := by
      rw [hfield]
      exact decide_eq_false hnot
    have hfinding := hlive raw hraw hstatus
    rw [hid] at hfinding
    obtain ⟨fact, hfact, hkind, hfactId⟩ := h.findings.task_iff.mp hfinding
    exact ⟨fact, hfact, findingOf_of_check htasks.ids htask hkind hfactId (hagree fact hfact)⟩

/-- Where a workspace is made anew the gate is open exactly without findings. -/
theorem gateResult_open_iff (hop : newWorkspace operation = true) :
    (gateResult operation impact facts).blockers = [] ↔ facts = [] := by
  have hchanging : ¬ Unchanging operation impact := by
    rintro ⟨rfl, -⟩
    revert hop
    decide
  constructor
  · intro hopen
    by_contra hne
    obtain ⟨fact, hfact⟩ := List.exists_mem_of_ne_nil facts hne
    obtain ⟨b, hb⟩ := Option.isSome_iff_exists.mp (findingBlocker_newWorkspace hop impact fact)
    have hmem := mem_gateBlockers.mpr ⟨hchanging, fact, hfact, hb⟩
    rw [show gateBlockers operation impact facts = [] from hopen] at hmem
    cases hmem
  · rintro rfl
    simp [gateResult, gateBlockers]

/-- An open gate says that everything is settled where no live task is left out: without blockers
there are no findings. -/
theorem settled_of_noneOmitted (hop : newWorkspace operation = true)
    (h : EvidenceRead H snapshot findings tasks facts) (hnone : NoneOmitted H snapshot findings)
    (hopen : (gateResult operation impact facts).blockers = []) :
    TasksArchived snapshot ∧ JournalsTerminal snapshot := by
  cases (gateResult_open_iff hop).mp hopen
  obtain ⟨raws, hraws, htasks⟩ := taskFacts_eq_ok.mp h.read
  obtain ⟨hlive, hunfinished⟩ := hnone tasks [] (validatedEvidence_eq_ok.mpr h)
  rw [TasksArchived, hraws]
  constructor
  · intro raw hraw
    obtain ⟨task, htask, hread⟩ := forall₂_left htasks.read raw hraw
    obtain ⟨-, hfield⟩ := taskFact_fields hread
    rw [hfield]
    refine decide_eq_true (by_contra fun hnot => ?_)
    obtain ⟨fact, hfact, -⟩ := hlive task htask hnot
    cases hfact
  · intro journal hjournal
    by_contra hnot
    obtain ⟨fact, hfact, -⟩ := hunfinished journal hjournal (Bool.eq_false_iff.mpr hnot)
    cases hfact

/-- An accepted pair speaks for every live task and unfinished journal of its snapshot exactly when
each has a finding under its id or path: nothing else asks that the findings be complete, and what
the findings say of a task they name is checked. -/
theorem gate_evidence_complete_iff (H : Hasher) {operation : String} {impact : CandidateImpact}
    {snapshot findings : Members} {result : TaskGateResult}
    (hop : operation = "init" ∨ operation = "workspace-migrate")
    (h : evaluateTaskGate H operation impact snapshot findings = .ok result) :
    ((result.blockers = [] → TasksArchived snapshot ∧ JournalsTerminal snapshot) ∧
      NoneOmitted H snapshot findings) ↔ Covers H snapshot findings := by
  have hnew : newWorkspace operation = true := by
    rcases hop with rfl | rfl
    · decide
    · decide
  obtain ⟨-, tasks, facts, hevidence, rfl⟩ := evaluateTaskGate_eq_ok.mp h
  rw [← noneOmitted_iff hevidence]
  exact ⟨And.right, fun hnone => ⟨settled_of_noneOmitted hnew hevidence hnone, hnone⟩⟩

def sampleHasher : Hasher where
  toTextEncoding := sampleTextEncoding
  sha256 _ := String.ofList (List.replicate 64 'a')
  sha256_isDigest _ := by decide

def sampleDigestText : JsonValue := .string (String.ofList (List.replicate 64 'a'))

def liveTask : JsonValue :=
  .object [("task_id", .string "00000000-0000-4000-8000-000000000002"),
    ("admission_task_ref", .string "tasks/t"), ("current_path", .string "tasks/t"),
    ("source_role", .string "active"), ("target_role", .string "active"),
    ("integration_byte_hash", sampleDigestText), ("integration_mode", .string "0644"),
    ("integration_schema_id", .string "agent-workflow.task-integration"),
    ("integration_schema_version", .int 1), ("lifecycle_status", .string "active"),
    ("revision", .int 2), ("mode", .string "trellis-native"),
    ("task_contract_digest", sampleDigestText), ("task_contract_surfaces", .array [])]

def liveSnapshot : Members :=
  [("schema_id", .string "agent-workflow.task-quiescence-snapshot"), ("schema_version", .int 1),
    ("source_layout_digest", sampleDigestText), ("target_layout_digest", sampleDigestText),
    ("source_schema_bundle_digest", sampleDigestText),
    ("target_schema_bundle_digest", sampleDigestText), ("tasks", .array [liveTask]),
    ("metadata", .array []), ("task_journals", .array []), ("finding_ids", .array []),
    ("task_quiescence_digest", sampleDigestText)]

def noFindings : Members :=
  [("schema_id", .string "agent-workflow.task-findings"), ("schema_version", .int 1),
    ("findings", .array [])]

def noImpact : CandidateImpact := ⟨"none", [], [], false, canonicalNullText⟩

theorem liveSnapshot_accepted :
    (evaluateTaskGate sampleHasher "init" noImpact liveSnapshot noFindings).isOk = true := by
  decide

def liveFinding : JsonValue :=
  .object [("kind", .string "non-archived-task"), ("finding_id", .string "finding-1"),
    ("task_id", .string "00000000-0000-4000-8000-000000000002"),
    ("current_path", .string "tasks/t"), ("lifecycle_status", .string "active"),
    ("mode", .string "trellis-native"), ("pinned_surfaces", .array [])]

def foundSnapshot : Members :=
  liveSnapshot.map fun m => if m.1 = "finding_ids" then (m.1, .array [.string "finding-1"]) else m

def liveFindings : Members :=
  [("schema_id", .string "agent-workflow.task-findings"), ("schema_version", .int 1),
    ("findings", .array [liveFinding])]

theorem foundSnapshot_accepted :
    (evaluateTaskGate sampleHasher "init" noImpact foundSnapshot liveFindings).isOk = true := by
  decide

/-- The live task beside an empty list of findings, and beside its own finding. -/
theorem gate_evidence_complete_iff_sample :
    (∃ result, evaluateTaskGate sampleHasher "init" noImpact liveSnapshot noFindings = .ok result ∧
      ¬ ((result.blockers = [] → TasksArchived liveSnapshot ∧ JournalsTerminal liveSnapshot) ∧
        NoneOmitted sampleHasher liveSnapshot noFindings)) ∧
    NoneOmitted sampleHasher foundSnapshot liveFindings := by
  constructor
  · obtain ⟨result, h⟩ := exists_of_isOk liveSnapshot_accepted
    refine ⟨result, h, ?_⟩
    rw [gate_evidence_complete_iff sampleHasher (Or.inl rfl) h]
    decide
  · obtain ⟨result, h⟩ := exists_of_isOk foundSnapshot_accepted
    exact ((gate_evidence_complete_iff sampleHasher (Or.inl rfl) h).mpr (by decide)).2

theorem gate_evidence_incomplete : ¬ ∀ (H : Hasher) (operation : String) (impact : CandidateImpact)
    (snapshot findings : Members) (result : TaskGateResult),
    operation = "init" ∨ operation = "workspace-migrate" →
    evaluateTaskGate H operation impact snapshot findings = .ok result →
    result.blockers = [] → TasksArchived snapshot ∧ JournalsTerminal snapshot := by
  intro hall
  obtain ⟨result, h⟩ := exists_of_isOk liveSnapshot_accepted
  have hopen : result.blockers = [] := by
    obtain ⟨-, tasks, facts, hevidence, rfl⟩ := evaluateTaskGate_eq_ok.mp h
    obtain ⟨raws, hraws, hread⟩ := hevidence.findings.read
    cases hraws
    exact (gateResult_open_iff (by decide)).mpr (List.forall₂_nil_left_iff.mp hread)
  exact absurd (hall sampleHasher "init" noImpact liveSnapshot noFindings result (Or.inl rfl) h
    hopen) (by decide)

/-! ### The workspace state -/

def TaskQuiescence.severity : TaskQuiescence → Nat
  | .quiescent => 0
  | .blocked => 1
  | .ambiguous => 2

def quiescenceOf (facts : List FindingFact) : TaskQuiescence :=
  if facts.any (·.kind.ambiguous) then .ambiguous
  else if facts.any (·.kind.blocked) then .blocked
  else .quiescent

theorem quiescenceOf_mono (h : facts ⊆ facts') :
    (quiescenceOf facts).severity ≤ (quiescenceOf facts').severity := by
  have hany : ∀ {p : FindingFact → Bool}, facts.any p = true → facts'.any p = true := by
    intro p hp
    rw [List.any_eq_true] at hp ⊢
    obtain ⟨fact, hfact, hp⟩ := hp
    exact ⟨fact, h hfact, hp⟩
  unfold quiescenceOf
  by_cases hambiguous : facts.any (·.kind.ambiguous) = true
  · rw [if_pos hambiguous, if_pos (hany hambiguous)]
  · rw [if_neg hambiguous]
    by_cases hblocked : facts.any (·.kind.blocked) = true
    · rw [if_pos hblocked, if_pos (hany hblocked)]
      split_ifs
      · decide
      · decide
    · rw [if_neg hblocked]
      exact Nat.zero_le _

theorem workspaceState_eq_ok {state : WorkspaceTaskState}
    (h : evaluateWorkspaceStateQuiescence H snapshot findings = .ok state) :
    ∃ facts, FindingsRead H findings facts ∧ state.taskQuiescence = quiescenceOf facts := by
  obtain ⟨⟨tasks, facts⟩, hevidence, h⟩ := bind_eq_ok h
  cases h
  exact ⟨facts, (validatedEvidence_eq_ok.mp hevidence).findings, rfl⟩

/-- The gate does not see the order of the evidence; more findings take no blocker away, open no
closed gate and make no workspace state less severe. -/
theorem task_gate_order_monotone (H : Hasher) {operation : String} {impact : CandidateImpact}
    {snapshot findings : Members} {result : TaskGateResult}
    (h : evaluateTaskGate H operation impact snapshot findings = .ok result) :
    (∀ findings', FieldsReordered ["findings"] findings findings' →
      evaluateTaskGate H operation impact snapshot findings' = .ok result) ∧
    (∀ snapshot', TasksReordered H snapshot snapshot' →
      evaluateTaskGate H operation impact snapshot' findings = .ok result) ∧
    (∀ snapshot' findings' result',
      itemsOf (getField findings "findings") ⊆ itemsOf (getField findings' "findings") →
      evaluateTaskGate H operation impact snapshot' findings' = .ok result' →
        result.blockers ⊆ result'.blockers ∧ (result.blockers ≠ [] → result'.blockers ≠ [])) ∧
    (result.primaryEvaluatorBlocker = none ↔ result.blockers = []) ∧
    (∀ code, result.primaryEvaluatorBlocker = some code →
      ∃ b ∈ result.blockers, b.code = code ∧ ∀ b' ∈ result.blockers, BlockerLe b b') ∧
    ∀ snapshot' findings' state state',
      itemsOf (getField findings "findings") ⊆ itemsOf (getField findings' "findings") →
      evaluateWorkspaceStateQuiescence H snapshot findings = .ok state →
      evaluateWorkspaceStateQuiescence H snapshot' findings' = .ok state' →
        state.taskQuiescence.severity ≤ state'.taskQuiescence.severity := by
  obtain ⟨hop, tasks, facts, hevidence, rfl⟩ := evaluateTaskGate_eq_ok.mp h
  obtain ⟨hsameSnapshot, hsameFindings⟩ := hevidence.evidence_reordered
  refine ⟨fun findings' hfindings => evaluateTaskGate_reordered h hsameSnapshot hfindings,
    fun snapshot' hsnapshot => evaluateTaskGate_reordered h hsnapshot hsameFindings, ?_,
    gateResult_primary, fun code => gateResult_least, ?_⟩
  · intro snapshot' findings' result' hmore h'
    obtain ⟨-, tasks', facts', hevidence', rfl⟩ := evaluateTaskGate_eq_ok.mp h'
    have hfacts := hevidence.findings.subset hevidence'.findings hmore
    have hblockers : (gateResult operation impact facts).blockers ⊆
        (gateResult operation impact facts').blockers := by
      intro b hb
      obtain ⟨hchanging, fact, hfact, hb⟩ := mem_gateBlockers.mp hb
      exact mem_gateBlockers.mpr ⟨hchanging, fact, hfacts hfact, hb⟩
    refine ⟨hblockers, fun hne hnil => hne ?_⟩
    rw [hnil] at hblockers
    exact List.subset_nil.mp hblockers
  · intro snapshot' findings' state state' hmore hstate hstate'
    obtain ⟨facts, hfacts, heq⟩ := workspaceState_eq_ok hstate
    obtain ⟨facts', hfacts', heq'⟩ := workspaceState_eq_ok hstate'
    rw [heq, heq']
    exact quiescenceOf_mono (hfacts.subset hfacts' hmore)

/-- The finding of the live task closes the gate that was open without it. -/
theorem task_gate_order_monotone_sample : ∃ result result',
    evaluateTaskGate sampleHasher "init" noImpact liveSnapshot noFindings = .ok result ∧
      evaluateTaskGate sampleHasher "init" noImpact foundSnapshot liveFindings = .ok result' ∧
      result'.blockers ≠ [] ∧ result.blockers ⊆ result'.blockers := by
  have hopen : evaluateTaskGate sampleHasher "init" noImpact liveSnapshot noFindings =
      .ok ⟨taskGateEvaluatorId, 1, "init", [], none⟩ := eq_ok_of_toOption (by decide)
  have hclosed : evaluateTaskGate sampleHasher "init" noImpact foundSnapshot liveFindings =
      .ok ⟨taskGateEvaluatorId, 1, "init", [⟨.activeTaskBlock, "finding-1",
        some "00000000-0000-4000-8000-000000000002", some "tasks/t", none, none⟩],
        some .activeTaskBlock⟩ := eq_ok_of_toOption (by decide)
  obtain ⟨-, -, hmore, -⟩ := task_gate_order_monotone sampleHasher hopen
  have hadded : itemsOf (getField noFindings "findings") ⊆
      itemsOf (getField liveFindings "findings") := by
    exact List.nil_subset _
  exact ⟨_, _, hopen, hclosed, by simp, (hmore _ _ _ hadded hclosed).1⟩

end AgentStack.Core
