import AgentStack.Runtime.MigrationSteps
import AgentStack.Runtime.WorkspaceRuns

/-! Migrations cut short anywhere, and recovered in either direction any number of times. -/
namespace AgentStack.Runtime

open AgentStack.Core FileTree Crash Reconcile DirTree KeyedList

variable {host : Host} {around : Surroundings} {s t : FS} {transactionId : String}
  {j : MigrationJournal} {r w : MigrationRecord} {scanner : FS → Except Failure ScannedTasks}

/-- What the journal says of the files, `w` the record of the workspace. -/
structure Consistent (host : Host) (j : MigrationJournal) (w : MigrationRecord) (s : FS) :
    Prop where
  committed : w.At host w.candidateState s →
    ∀ r ∈ j.immutableHeader.fileRecords, r.At host r.candidateState s
  recorded : j.rollbackState = none → 2 ≤ j.phase.rank → w.At host w.candidateState s
  undone : j.rollbackState ≠ none → 3 ≤ j.phase.rank ∧
    ∀ r ∈ j.immutableHeader.fileRecords, r.At host r.preimageState s

/-- A migration on disk whose journal is right about its files. -/
structure Going (host : Host) (transactionId : String) (w : MigrationRecord)
    (j : MigrationJournal) (s : FS) : Prop extends Carried host transactionId j s where
  last : j.immutableHeader.fileRecords.getLast? = some w
  differs : w.candidateState ≠ w.preimageState
  consistent : Consistent host j w s

namespace Consistent

/-- Before the commit. -/
theorem before (hopen : j.rollbackState = none) (hrank : j.phase.rank < 2)
    (hnot : ¬ w.At host w.candidateState s) : Consistent host j w s := by
  refine ⟨fun h => absurd h hnot, fun _ h => ?_, fun h => absurd hopen h⟩
  omega

/-- From the commit on. -/
theorem after (hopen : j.rollbackState = none) (hw : w ∈ j.immutableHeader.fileRecords)
    (hall : ∀ r ∈ j.immutableHeader.fileRecords, r.At host r.candidateState s) :
    Consistent host j w s :=
  ⟨fun _ => hall, fun _ _ => hall w hw, fun h => absurd hopen h⟩

/-- What is at its preimage may stay there while others return. -/
theorem returning (h : Consistent host j w s) (hnot : ¬ w.At host w.candidateState s)
    (hnot' : ¬ w.At host w.candidateState t)
    (hkeep : ∀ r ∈ j.immutableHeader.fileRecords, r.At host r.preimageState s →
      r.At host r.preimageState t) : Consistent host j w t := by
  refine ⟨fun hw => absurd hw hnot', fun hopen hrank => absurd (h.recorded hopen hrank) hnot, ?_⟩
  intro hback
  obtain ⟨hrank, hall⟩ := h.undone hback
  exact ⟨hrank, fun r hr => hkeep r hr (hall r hr)⟩

theorem congr (h : Consistent host j w s) (hw : w ∈ j.immutableHeader.fileRecords)
    (hkept : Kept j s t) : Consistent host j w t := by
  refine ⟨fun hat r hr => ?_, fun hopen hrank => ?_, fun hback => ?_⟩
  · exact (h.committed (hat.congr (hkept w hw).symm) r hr).congr (hkept r hr)
  · exact (h.recorded hopen hrank).congr (hkept w hw)
  · obtain ⟨hrank, hall⟩ := h.undone hback
    exact ⟨hrank, fun r hr => (hall r hr).congr (hkept r hr)⟩

end Consistent

namespace Going

theorem mem_last (h : Going host transactionId w j s) : w ∈ j.immutableHeader.fileRecords :=
  List.mem_of_getLast? h.last

/-- The records are the local ones and, last, that of the workspace. -/
theorem records (h : Going host transactionId w j s) :
    j.immutableHeader.fileRecords = j.immutableHeader.fileRecords.dropLast ++ [w] :=
  (List.dropLast_append_getLast? w h.last).symm

theorem nodup (h : Going host transactionId w j s) : j.immutableHeader.fileRecords.Nodup :=
  h.planned.nodup.of_map

theorem not_local (h : Going host transactionId w j s) :
    w ∉ j.immutableHeader.fileRecords.dropLast := by
  have hnodup := h.nodup
  rw [h.records, List.nodup_append] at hnodup
  intro hw
  exact hnodup.2.2 w hw w (List.mem_singleton.mpr rfl) rfl

theorem mem_cases (h : Going host transactionId w j s) (hr : r ∈ j.immutableHeader.fileRecords) :
    r ∈ j.immutableHeader.fileRecords.dropLast ∨ r = w := by
  rw [h.records] at hr
  rcases List.mem_append.mp hr with hr | hr
  · exact Or.inl hr
  · exact Or.inr (List.mem_singleton.mp hr)

/-- A workspace file at its preimage is not at its candidate. -/
theorem not_candidate (h : Going host transactionId w j s)
    (hw : w.At host w.preimageState t) : ¬ w.At host w.candidateState t :=
  fun hc => h.differs (hc.unique hw)

end Going

/-- A later moment of the migration; a recorded rollback stays recorded. -/
def Follows (host : Host) (transactionId : String) (w : MigrationRecord) (j : MigrationJournal)
    (u : FS) : Prop :=
  ∃ j', Going host transactionId w j' u ∧ j'.immutableHeader = j.immutableHeader ∧
    (j.rollbackState ≠ none → j'.rollbackState ≠ none)

theorem Going.follows (h : Going host transactionId w j s) : Follows host transactionId w j s :=
  ⟨j, h, rfl, id⟩

theorem Follows.trans {j' : MigrationJournal} (hh : j'.immutableHeader = j.immutableHeader)
    (hback : j.rollbackState ≠ none → j'.rollbackState ≠ none)
    (h : Follows host transactionId w j' s) : Follows host transactionId w j s := by
  obtain ⟨j'', hg, hh', hback'⟩ := h
  exact ⟨j'', hg, hh'.trans hh, fun hb => hback' (hback hb)⟩

/-! ### Commit -/

/-- Each local record, compared before, is applied where it is needed. -/
theorem applyRecords (h : Going host transactionId w j s) {fresh : Bool}
    {items : List (MigrationRecord × RecordRelation)}
    (hitems : items.map Prod.fst = j.immutableHeader.fileRecords.dropLast)
    (hneed : ∀ x ∈ items, fresh = true ∨ x.2 = .preimage → x.1.At host x.1.preimageState s)
    (hdone : ∀ x ∈ items, ¬ (fresh = true ∨ x.2 = .preimage) →
      x.1.At host x.1.candidateState s) (hw : w.At host w.preimageState s) :
    Triple (· = s) (Program.each items fun item =>
        if fresh = true ∨ item.2 = .preimage then applyRecord host item.1 else return ())
      (Returns fun _ t => Carried host transactionId j t ∧ w.At host w.preimageState t ∧
        ∀ r ∈ j.immutableHeader.fileRecords.dropLast, r.At host r.candidateState t)
      (fun u => Carried host transactionId j u ∧ w.At host w.preimageState u) := by
  have hmem : ∀ x ∈ items, x.1 ∈ j.immutableHeader.fileRecords := by
    intro x hx
    apply List.mem_of_mem_dropLast
    rw [← hitems]
    exact List.mem_map_of_mem hx
  have hlast : w ∉ items.map Prod.fst := by
    rw [hitems]
    exact h.not_local
  have hnodup : (items.map Prod.fst).Nodup := by
    rw [hitems]
    exact h.nodup.sublist (List.dropLast_sublist _)
  refine ((h.toCarried.each _ (·.1.candidateState) hmem hnodup ?_).post ?_).crash ?_
  · intro x hx t hc hget
    by_cases happly : fresh = true ∨ x.2 = .preimage
    · rw [if_pos happly]
      obtain ⟨m, hm⟩ := (hc.made x.1 (hmem x hx)).candidate
      exact hc.exchange (hmem x hx) ((hneed x hx happly).congr hget) (Or.inl rfl) (Or.inr rfl) hm
    · rw [if_neg happly]
      exact Triple.returns ⟨hc, (hdone x hx happly).congr hget, fun _ _ _ => rfl⟩
  · rintro o t ⟨a, ho, hc, hall, hrest⟩
    refine ⟨a, ho, hc, hw.congr (hrest w h.mem_last hlast), fun r hr => ?_⟩
    rw [← hitems] at hr
    obtain ⟨x, hx, rfl⟩ := List.mem_map.mp hr
    exact hall x hx
  · rintro u ⟨hc, hall⟩
    rcases hall w h.mem_last with hget | ⟨x, hx, rfl, -⟩
    · exact ⟨hc, hw.congr hget⟩
    · exact absurd (List.mem_map_of_mem hx) hlast

/-- The local records, the workspace after them, and the commit on record. -/
theorem commitMigration_follows (h : Going host transactionId w j s) {fresh : Bool}
    {items : List (MigrationRecord × RecordRelation)}
    (hitems : items.map Prod.fst = j.immutableHeader.fileRecords.dropLast)
    (hneed : ∀ x ∈ items, fresh = true ∨ x.2 = .preimage → x.1.At host x.1.preimageState s)
    (hdone : ∀ x ∈ items, ¬ (fresh = true ∨ x.2 = .preimage) →
      x.1.At host x.1.candidateState s) (hw : w.At host w.preimageState s)
    (hopen : j.rollbackState = none) (hrank : j.phase.rank < 2) :
    Triple (· = s) (commitMigration host scanner fresh j items w)
      (Ends (fun j' t => Going host transactionId w j' t ∧ j'.immutableHeader = j.immutableHeader ∧
        j'.rollbackState = none ∧
        ∀ r ∈ j.immutableHeader.fileRecords, r.At host r.candidateState t)
        (Follows host transactionId w j))
      (Follows host transactionId w j) := by
  have hfollow : ∀ j' u, j'.immutableHeader = j.immutableHeader → j'.rollbackState = none →
      j'.phase.rank < 2 → Carried host transactionId j' u → w.At host w.preimageState u →
      Follows host transactionId w j u := by
    intro j' u hh hopen' hrank' hc hw'
    refine ⟨j', ⟨hc, ?_, h.differs, .before hopen' hrank' (h.not_candidate hw')⟩, hh, ?_⟩
    · rw [hh]
      exact h.last
    · exact fun hback => absurd hopen hback
  unfold commitMigration
  refine ((applyRecords h hitems hneed hdone hw).crash fun u hu =>
    hfollow j u rfl hopen hrank hu.1 hu.2).bind_returns fun _ => Triple.of_forall ?_
  rintro t₁ ⟨hc₁, hw₁, hall₁⟩
  have hh₁ := j.reached_header .localCandidatesApplied
  have hopen₁ : (j.reached .localCandidatesApplied).rollbackState = none := by
    rw [MigrationJournal.reached_rollbackState, hopen]
  have hrank₁ : (j.reached .localCandidatesApplied).phase.rank < 2 := by
    rw [MigrationJournal.reached_rank]
    change max j.phase.rank 1 < 2
    omega
  refine ((hc₁.reach .localCandidatesApplied).crash fun u hu => ?_).bind_returns fun j₂ =>
    Triple.of_forall ?_
  · have hw' := hw₁.congr (hu.1 w h.mem_last)
    rcases hu.2 with hu | hu
    · exact hfollow j u rfl hopen hrank hu hw'
    · exact hfollow _ u hh₁ hopen₁ hrank₁ hu hw'
  rintro t₂ ⟨rfl, hc₂, hkept₂⟩
  have hw₂ := hw₁.congr (hkept₂ w h.mem_last)
  refine Triple.inspect_bind_ends (hfollow _ t₂ hh₁ hopen₁ hrank₁ hc₂ hw₂) fun _ _ => ?_
  have hmem₂ : w ∈ (j.reached .localCandidatesApplied).immutableHeader.fileRecords := by
    rw [hh₁]
    exact h.mem_last
  obtain ⟨m, hm⟩ := (hc₂.made w hmem₂).candidate
  have hall₃ : ∀ u, Moved host (j.reached .localCandidatesApplied) w w.candidateState t₂ u →
      ∀ r ∈ j.immutableHeader.fileRecords, r.At host r.candidateState u := by
    intro u hu r hr
    rcases h.mem_cases hr with hlocal | rfl
    · have hne : r ≠ w := by
        rintro rfl
        exact h.not_local hlocal
      have hat := (hall₁ r hlocal).congr (hkept₂ r hr)
      exact hat.congr (hu.others r (by rw [hh₁]; exact hr) hne)
    · exact hu.here
  have hgoing : ∀ j' u, j'.immutableHeader = j.immutableHeader → j'.rollbackState = none →
      Carried host transactionId j' u →
      (∀ r ∈ j.immutableHeader.fileRecords, r.At host r.candidateState u) →
      Going host transactionId w j' u := by
    intro j' u hh hopen' hc hall
    refine ⟨hc, ?_, h.differs, .after hopen' ?_ ?_⟩
    · rw [hh]
      exact h.last
    · rw [hh]
      exact h.mem_last
    · rw [hh]
      exact hall
  have hdone' : ∀ j' u, Going host transactionId w j' u → j'.immutableHeader = j.immutableHeader →
      Follows host transactionId w j u :=
    fun j' u hg hh => ⟨j', hg, hh, fun hback => absurd hopen hback⟩
  refine ((hc₂.exchange hmem₂ hw₂ (Or.inl rfl) (Or.inr rfl) hm).crash fun u hu => ?_).bind_returns
    fun _ => Triple.of_forall ?_
  · obtain ⟨hc, hkept | hmoved⟩ := hu
    · exact hfollow _ u hh₁ hopen₁ hrank₁ hc (hw₂.congr (hkept w hmem₂))
    · exact hdone' _ u (hgoing _ u hh₁ hopen₁ hc (hall₃ u hmoved)) hh₁
  rintro t₃ ⟨hc₃, hmoved₃⟩
  have hall := hall₃ t₃ hmoved₃
  have hkeep : ∀ u, Kept (j.reached .localCandidatesApplied) t₃ u →
      ∀ r ∈ j.immutableHeader.fileRecords, r.At host r.candidateState u := by
    intro u hu r hr
    exact (hall r hr).congr (hu r (by rw [hh₁]; exact hr))
  have hh₄ : ((j.reached .localCandidatesApplied).moved .workspaceCommitted none).immutableHeader =
      j.immutableHeader := hh₁
  have hadv := hc₃.advance .workspaceCommitted none
    (show _ ≤ 2 by omega)
  apply Triple.crash
  · apply hadv.ends.ends_weaken
    · rintro j' t ⟨rfl, hc, hkept⟩
      exact ⟨hgoing _ t hh₄ hopen₁ hc (hkeep t hkept), hh₄, hopen₁, hkeep t hkept⟩
    · exact fun _ h => h
  · rintro u ⟨hkept, hc | hc⟩
    · exact hdone' _ u (hgoing _ u hh₁ hopen₁ hc (hkeep u hkept)) hh₁
    · exact hdone' _ u (hgoing _ u hh₄ hopen₁ hc (hkeep u hkept)) hh₄

/-- From the commit on, any phase may be reached. -/
theorem Going.reach_committed (h : Going host transactionId w j s) (phase : MigrationPhase)
    (hopen : j.rollbackState = none)
    (hall : ∀ r ∈ j.immutableHeader.fileRecords, r.At host r.candidateState s) :
    Triple (· = s) (reachMigration host j phase)
      (Returns fun j' t => j' = j.reached phase ∧ Going host transactionId w (j.reached phase) t ∧
        ∀ r ∈ j.immutableHeader.fileRecords, r.At host r.candidateState t)
      (Follows host transactionId w j) := by
  have hh := j.reached_header phase
  have hopen' : (j.reached phase).rollbackState = none := by
    rw [MigrationJournal.reached_rollbackState, hopen]
  have hkeep : ∀ u, Kept j s u → ∀ r ∈ j.immutableHeader.fileRecords,
      r.At host r.candidateState u := fun u hu r hr => (hall r hr).congr (hu r hr)
  have hreached : ∀ u, Carried host transactionId (j.reached phase) u → Kept j s u →
      Going host transactionId w (j.reached phase) u := by
    intro u hc hkept
    refine ⟨hc, ?_, h.differs, .after hopen' ?_ ?_⟩
    · rw [hh]
      exact h.last
    · rw [hh]
      exact h.mem_last
    · rw [hh]
      exact hkeep u hkept
  refine ((h.toCarried.reach phase).post ?_).crash fun u hu => ?_
  · rintro o t ⟨j', ho, rfl, hc, hkept⟩
    exact ⟨_, ho, rfl, hreached t hc hkept, hkeep t hkept⟩
  · obtain ⟨hkept, hc | hc⟩ := hu
    · exact ⟨j, ⟨hc, h.last, h.differs, h.consistent.congr h.mem_last hkept⟩, rfl, id⟩
    · exact ⟨_, hreached u hc hkept, hh, fun hback => absurd hopen hback⟩

/-- The end of a commit. -/
theorem cleanup_follows (h : Going host transactionId w j s) (hopen : j.rollbackState = none)
    (hall : ∀ r ∈ j.immutableHeader.fileRecords, r.At host r.candidateState s) :
    Triple (· = s) (do
        let journal ← reachMigration host j .cleanupPending
        let journal ← reachMigration host journal .complete
        Program.lift (journal.result true MigrationRecord.candidateDocument w))
      (Ends (fun _ => Follows host transactionId w j) (Follows host transactionId w j))
      (Follows host transactionId w j) := by
  refine (h.reach_committed .cleanupPending hopen hall).bind_returns fun _ => Triple.of_forall ?_
  rintro t₁ ⟨rfl, h₁, hall₁⟩
  have hh₁ := j.reached_header .cleanupPending
  have hopen₁ : (j.reached .cleanupPending).rollbackState = none := by
    rw [MigrationJournal.reached_rollbackState, hopen]
  have hback : j.rollbackState ≠ none → (j.reached .cleanupPending).rollbackState ≠ none :=
    fun hb => absurd hopen hb
  refine ((h₁.reach_committed .complete hopen₁ (by rw [hh₁]; exact hall₁)).crash
    fun u hu => hu.trans hh₁ hback).bind_returns fun _ => Triple.of_forall ?_
  rintro t₂ ⟨rfl, h₂, -⟩
  have ht₂ : Follows host transactionId w j t₂ := h₂.follows.trans
    (((j.reached .cleanupPending).reached_header .complete).trans hh₁) fun hb => absurd hopen hb
  rw [ends_const]
  rintro t rfl
  exact ⟨by simp, ht₂⟩

/-- How all records compare, the workspace last. -/
theorem Going.relations (h : Going host transactionId w j s) :
    ∃ items relation, recordRelations host j.immutableHeader.fileRecords s =
        .ok (items ++ [(w, relation)]) ∧
      items.map Prod.fst = j.immutableHeader.fileRecords.dropLast ∧
      ∀ x ∈ items ++ [(w, relation)],
        x.2 = .candidate ∧ x.1.At host x.1.candidateState s ∨
          x.2 = .preimage ∧ x.1.At host x.1.preimageState s ∧
            ¬ x.1.At host x.1.candidateState s := by
  obtain ⟨all, hall⟩ := mapM_keyed_isOk (fun r => recordRelation host r s)
    j.immutableHeader.fileRecords fun r hr => by
      rcases h.relation hr with ⟨hrel, -⟩ | ⟨hrel, -⟩
      · exact ⟨_, hrel⟩
      · exact ⟨_, hrel⟩
  obtain ⟨hfst, hrel⟩ := (mapM_keyed_eq_ok _ _ _).mp hall
  obtain ⟨e, he, hew⟩ : ∃ e, all.getLast? = some e ∧ e.1 = w := by
    have hlast := h.last
    rw [← hfst, List.getLast?_map] at hlast
    exact Option.map_eq_some_iff.mp hlast
  have hsplit := List.dropLast_append_getLast? e he
  refine ⟨all.dropLast, e.2, ?_, ?_, ?_⟩
  · rw [← hew]
    exact hall.trans (congrArg Except.ok hsplit.symm)
  · rw [← hfst, List.map_dropLast]
  · rw [← hew]
    change ∀ x ∈ all.dropLast ++ [e], _
    rw [hsplit]
    intro x hx
    have hmem : x.1 ∈ j.immutableHeader.fileRecords := by
      rw [← hfst]
      exact List.mem_map_of_mem hx
    have hx' := hrel x hx
    rcases h.relation hmem with ⟨hr, hat⟩ | ⟨hr, hat⟩
    · rw [hr] at hx'
      exact Or.inl ⟨(Except.ok.inj hx').symm, hat⟩
    · rw [hr] at hx'
      exact Or.inr ⟨(Except.ok.inj hx').symm, hat⟩

/-- Whatever phase the journal is at, to finish the migration leaves it consistent; what records a
rollback is refused. -/
theorem finish_follows (h : Going host transactionId w j s) {fresh : Bool}
    (hfresh : fresh = true → ∀ r ∈ j.immutableHeader.fileRecords, r.At host r.preimageState s) :
    Triple (· = s) (finishWorkspaceMigration host scanner fresh j)
      (fun o t => Follows host transactionId w j t ∧
        (j.rollbackState ≠ none → ∃ e, o = .error e))
      (Follows host transactionId w j) := by
  obtain ⟨items, relation, hrelations, hfst, hrel⟩ := h.relations
  have hw := hrel (w, relation) (by simp)
  have hthird : ¬ ((items ++ [(w, relation)]).any (·.2 = .third)) = true := by
    intro hany
    obtain ⟨x, hx, hx3⟩ := List.any_eq_true.mp hany
    rcases hrel x hx with ⟨hx', -⟩ | ⟨hx', -⟩
    · simp [hx'] at hx3
    · simp [hx'] at hx3
  have hmem : ∀ x ∈ items, x.1 ∈ j.immutableHeader.fileRecords := by
    intro x hx
    apply List.mem_of_mem_dropLast
    rw [← hfst]
    exact List.mem_map_of_mem hx
  unfold finishWorkspaceMigration
  simp only [h.last]
  refine Triple.bind_run (by rw [Program.inspect_run, hrelations]) ?_
  rw [if_neg hthird]
  simp only [List.getLast?_append, List.getLast?_singleton, Option.some_or, List.dropLast_concat,
    Option.some.injEq, Prod.mk.injEq, true_and]
  by_cases hc : w.At host w.candidateState s
  · obtain rfl : relation = .candidate := by
      rcases hw with ⟨hcand, -⟩ | ⟨-, -, hnot⟩
      · exact hcand
      · exact absurd hc hnot
    have hall := h.consistent.committed hc
    have hopen : j.rollbackState = none := by
      by_contra hback
      exact h.not_candidate ((h.consistent.undone hback).2 w h.mem_last) hc
    have hlocals : ¬ (items.any fun x => decide (x.2 ≠ .candidate)) = true := by
      intro hany
      obtain ⟨x, hx, hne⟩ := List.any_eq_true.mp hany
      rcases hrel x (List.mem_append_left _ hx) with ⟨hx', -⟩ | ⟨-, -, hnot⟩
      · simp [hx'] at hne
      · exact hnot (hall _ (hmem x hx))
    rw [if_neg fun hbad => hlocals hbad.2, if_neg (by simp), if_pos (by simp)]
    refine (Triple.bind_run (Program.pure_run j s) (cleanup_follows h hopen hall)).post ?_
    rw [ends_const]
    exact fun o t ht => ⟨ht, fun hback => absurd hopen hback⟩
  · obtain ⟨rfl, hpre⟩ : relation = .preimage ∧ w.At host w.preimageState s := by
      rcases hw with ⟨-, hcand⟩ | ⟨hpre, hat, -⟩
      · exact absurd hcand hc
      · exact ⟨hpre, hat⟩
    rw [if_neg (by simp)]
    by_cases hrank : MigrationPhase.workspaceCommitted.rank ≤ j.phase.rank
    · rw [if_pos ⟨hrank, by simp⟩]
      rintro s rfl
      exact ⟨by simp, h.follows, fun _ => ⟨_, rfl⟩⟩
    · rw [if_neg fun hbad => hrank hbad.1, if_neg (by simp)]
      have hlt : j.phase.rank < 2 := by
        change ¬ 2 ≤ j.phase.rank at hrank
        omega
      have hopen : j.rollbackState = none := by
        by_contra hback
        have := (h.consistent.undone hback).1
        omega
      have hneed : ∀ x ∈ items, fresh = true ∨ x.2 = .preimage →
          x.1.At host x.1.preimageState s := by
        intro x hx happly
        rcases happly with hf | hp
        · exact hfresh hf _ (hmem x hx)
        · rcases hrel x (List.mem_append_left _ hx) with ⟨hx', -⟩ | ⟨-, hat, -⟩
          · rw [hx'] at hp
            cases hp
          · exact hat
      have hdone : ∀ x ∈ items, ¬ (fresh = true ∨ x.2 = .preimage) →
          x.1.At host x.1.candidateState s := by
        intro x hx happly
        rcases hrel x (List.mem_append_left _ hx) with ⟨-, hat⟩ | ⟨hx', -, -⟩
        · exact hat
        · exact absurd (Or.inr hx') happly
      have hends : Triple (· = s) (do
          let journal ← commitMigration host scanner fresh j items w
          let journal ← reachMigration host journal .cleanupPending
          let journal ← reachMigration host journal .complete
          Program.lift (journal.result true MigrationRecord.candidateDocument w))
          (Ends (fun _ => Follows host transactionId w j) (Follows host transactionId w j))
          (Follows host transactionId w j) := by
        refine (commitMigration_follows h hfst hneed hdone hpre hopen hlt).bind_ends fun j' =>
          Triple.of_forall ?_
        rintro t ⟨h', hh', hopen', hall'⟩
        have hlater : ∀ u, Follows host transactionId w j' u → Follows host transactionId w j u :=
          fun u hu => hu.trans hh' fun hback => absurd hopen hback
        rw [← hh'] at hall'
        exact ((cleanup_follows h' hopen' hall').ends_weaken (fun _ => hlater) hlater).crash hlater
      rw [ends_const] at hends
      exact hends.post fun o t ht => ⟨ht, fun hback => absurd hopen hback⟩

/-! ### Rollback -/

/-- Each local record that was applied is restored. -/
theorem restoreRecords (h : Going host transactionId w j s) (hw : w.At host w.preimageState s) :
    Triple (· = s) (Program.each j.immutableHeader.fileRecords.dropLast.reverse
        (restoreRecord host))
      (Returns fun _ t => Carried host transactionId j t ∧
        ∀ r ∈ j.immutableHeader.fileRecords, r.At host r.preimageState t)
      (Follows host transactionId w j) := by
  have hmem : ∀ r ∈ j.immutableHeader.fileRecords.dropLast.reverse,
      r ∈ j.immutableHeader.fileRecords :=
    fun r hr => List.mem_of_mem_dropLast (List.mem_reverse.mp hr)
  have hlast : w ∉ j.immutableHeader.fileRecords.dropLast.reverse :=
    fun hr => h.not_local (List.mem_reverse.mp hr)
  have hnodup : (j.immutableHeader.fileRecords.dropLast.reverse.map id).Nodup := by
    rw [List.map_id, List.nodup_reverse]
    exact h.nodup.sublist (List.dropLast_sublist _)
  refine ((h.toCarried.each id (·.preimageState) hmem hnodup ?_).post
    ?_).crash ?_
  · intro r hr t hc hget
    unfold restoreRecord
    have hr' := hmem r hr
    rcases hc.relation hr' with ⟨hrel, hat⟩ | ⟨hrel, hat, -⟩
    · refine Triple.bind_run (by rw [Program.inspect_run, hrel]) ?_
      rw [if_neg (by simp)]
      by_cases hne : r.candidateState = r.preimageState
      · rw [if_neg fun hbad => hbad.2 hne]
        rw [hne] at hat
        exact Triple.returns ⟨hc, hat, fun _ _ _ => rfl⟩
      · rw [if_pos ⟨rfl, hne⟩]
        obtain ⟨m, hm⟩ := (hc.made r hr').preimage
        exact hc.exchange hr' hat (Or.inr rfl) (Or.inl rfl) hm
    · refine Triple.bind_run (by rw [Program.inspect_run, hrel]) ?_
      rw [if_neg (by simp), if_neg (by simp)]
      exact Triple.returns ⟨hc, hat, fun _ _ _ => rfl⟩
  · rintro o t ⟨a, ho, hc, hall, hrest⟩
    refine ⟨a, ho, hc, fun r hr => ?_⟩
    rcases h.mem_cases hr with hr | rfl
    · exact hall r (List.mem_reverse.mpr hr)
    · exact hw.congr (hrest r hr (by rw [List.map_id]; exact hlast))
  · rintro u ⟨hc, hall⟩
    have hw' : w.At host w.preimageState u := by
      rcases hall w h.mem_last with hget | ⟨r, hr, rfl, -⟩
      · exact hw.congr hget
      · exact absurd hr hlast
    refine ⟨j, ⟨hc, h.last, h.differs, h.consistent.returning (h.not_candidate hw)
      (h.not_candidate hw') fun r hr hat => ?_⟩, rfl, id⟩
    rcases hall r hr with hget | ⟨r', -, rfl, hat'⟩
    · exact hat.congr hget
    · exact hat'

/-- A rollback leaves all files at their preimages, and never commits. -/
theorem rollback_follows (h : Going host transactionId w j s)
    (hw : w.At host w.preimageState s) :
    Triple (· = s) (rollbackMigration host j w)
      (fun o t => Follows host transactionId w j t ∧
        ∀ result, o = .ok result → result.committed = false)
      (Follows host transactionId w j) := by
  unfold rollbackMigration
  refine (restoreRecords h hw).bind_returns fun _ => Triple.of_forall ?_
  rintro t₁ ⟨hc₁, hall₁⟩
  have hnot₁ := h.not_candidate (hall₁ w h.mem_last)
  have h₁ : Going host transactionId w j t₁ := ⟨hc₁, h.last, h.differs,
    h.consistent.returning (h.not_candidate hw) hnot₁ fun r hr _ => hall₁ r hr⟩
  by_cases hrank : j.phase.rank ≤ MigrationPhase.cleanupPending.rank
  · have hundone : ∀ j' u, j'.immutableHeader = j.immutableHeader → j'.rollbackState ≠ none →
        3 ≤ j'.phase.rank → Carried host transactionId j' u → Kept j t₁ u →
        Going host transactionId w j' u := by
      intro j' u hh hback hrank' hc hkept
      have hall : ∀ r ∈ j.immutableHeader.fileRecords, r.At host r.preimageState u :=
        fun r hr => (hall₁ r hr).congr (hkept r hr)
      refine ⟨hc, ?_, h.differs, ?_, ?_, ?_⟩
      · rw [hh]
        exact h.last
      · exact fun hcand => absurd hcand (h.not_candidate (hall w h.mem_last))
      · exact fun hopen => absurd hopen hback
      · rw [hh]
        exact fun _ => ⟨hrank', hall⟩
    have hsame : ∀ u, Carried host transactionId j u → Kept j t₁ u →
        Follows host transactionId w j u := fun u hc hkept =>
      ⟨j, ⟨hc, h.last, h.differs, h₁.consistent.congr h.mem_last hkept⟩, rfl, id⟩
    set restored := restoredPaths j.immutableHeader.fileRecords.dropLast.reverse
    have hback₂ : (j.moved .cleanupPending (some restored)).rollbackState ≠ none := by
      simp [MigrationJournal.moved]
    have hgoing₂ : ∀ u, Carried host transactionId (j.moved .cleanupPending (some restored)) u →
        Kept j t₁ u → Going host transactionId w (j.moved .cleanupPending (some restored)) u :=
      fun u => hundone _ u rfl hback₂ (show 3 ≤ MigrationPhase.cleanupPending.rank by decide)
    have hgoing₃ : ∀ u, Carried host transactionId
        ((j.moved .cleanupPending (some restored)).moved .complete none) u → Kept j t₁ u →
        Going host transactionId w
          ((j.moved .cleanupPending (some restored)).moved .complete none) u :=
      fun u => hundone _ u rfl hback₂ (show 3 ≤ MigrationPhase.complete.rank by decide)
    refine ((hc₁.advance _ _ hrank).crash fun u hu => ?_).bind_returns fun _ => Triple.of_forall ?_
    · obtain ⟨hkept, hc | hc⟩ := hu
      · exact hsame u hc hkept
      · exact ⟨_, hgoing₂ u hc hkept, rfl, fun _ => hback₂⟩
    rintro t₂ ⟨rfl, hc₂, hkept₂⟩
    have hkept' : ∀ u, Kept (j.moved .cleanupPending (some restored)) t₂ u → Kept j t₁ u :=
      fun u hu r hr => (hu r hr).trans (hkept₂ r hr)
    refine ((hc₂.advance .complete none
      (show MigrationPhase.cleanupPending.rank ≤ MigrationPhase.complete.rank by decide)).crash
      fun u hu => ?_).bind_returns fun _ => Triple.of_forall ?_
    · obtain ⟨hkept, hc | hc⟩ := hu
      · exact ⟨_, hgoing₂ u hc (hkept' u hkept), rfl, fun _ => hback₂⟩
      · exact ⟨_, hgoing₃ u hc (hkept' u hkept), rfl, fun _ => hback₂⟩
    rintro t₃ ⟨rfl, hc₃, hkept₃⟩
    have ht₃ : Follows host transactionId w j t₃ :=
      ⟨_, hgoing₃ t₃ hc₃ (hkept' t₃ hkept₃), rfl, fun _ => hback₂⟩
    rintro t rfl
    refine ⟨by simp, ht₃, fun result hok => ?_⟩
    change j.result false MigrationRecord.preimageDocument w = .ok result at hok
    unfold MigrationJournal.result at hok
    split at hok
    · cases hok
    · cases hok
      rfl
  · obtain ⟨e, he⟩ := hc₁.advance_refused .cleanupPending
      (some (restoredPaths j.immutableHeader.fileRecords.dropLast.reverse))
      (not_le.mp hrank)
    rintro t rfl
    unfold Program.out Program.final
    rw [Program.bind_of_error he]
    refine ⟨by simp, h₁.follows, fun result hok => ?_⟩
    cases hok

end AgentStack.Runtime
