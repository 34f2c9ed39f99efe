import AgentStack.Reconcile.LifecycleStages

/-! An apply that stops anywhere, and the recoveries after it, each of which may stop anywhere. -/
namespace AgentStack.Reconcile.Lifecycle

open AgentStack.Core FileTree Crash DirTree

variable {host : LifecycleHost} {j₀ j : LifecycleJournal} {base n : Option (Node Content)}
  {s t u : FS} {p q : Path} {α : Type} {F G : FS → Prop}

/-! ### The Manifest -/

theorem Standing.commit (hs : Standing host j₀ base s) (h : Sound host j₀)
    (hall : AllAt host j₀ (·.candidateState) s)
    (hget : ∀ q, Watched j₀ q → t.get q = Function.update s.get manifestPath
      (manifestNode host j₀) q) : Standing host j₀ base t := by
  have hway : ∀ r ∈ j₀.fileRecords, ∀ q, q <+: r.originalState.path → t.get q = s.get q := by
    intro r hr q hq
    rw [hget q (way_watched hr hq), Function.update_of_ne (h.way_ne hr hq).2.1]
  constructor
  · intro r hr q hq hne
    exact (hs.ways r hr q hq hne).imp (hway r hr q hq).trans (realDir_of_get_eq (hway r hr q hq))
  · intro r hr
    rw [hway r hr _ List.prefix_rfl]
    exact hs.sides r hr
  · rw [hget _ watched_manifest, Function.update_self]
    exact Or.inr rfl
  · intro _ r hr
    rw [hway r hr _ List.prefix_rfl]
    exact hall r hr

theorem manifestPrecondition_path (operation digest : String) :
    (manifestPrecondition operation digest).path = manifestPath := by
  unfold manifestPrecondition
  split
  · rfl
  · rfl

/-- A candidate whose digest is another's is refused. -/
theorem compareAndSwap_refused {expected candidate : FileState} {payload : Content}
    (hexists : candidate.exists = true) (h : some (host.hashBytes payload) ≠ candidate.byteHash)
    {R : FileState → FS → Prop} {E C : FS → Prop} (hE : E s) :
    Triple (· = s) (compareAndSwap host.toHost expected candidate (some payload)) (Ends R E) C := by
  unfold compareAndSwap
  split
  next => exact Triple.throw_ends hE
  next =>
    refine Triple.inspect_bind_ends hE fun _ _ => Triple.inspect_bind_ends hE fun _ _ => ?_
    simp only [hexists, Bool.not_true, Bool.false_eq_true, if_false]
    split
    next payload' _ heq =>
      obtain rfl := Option.some.inj heq
      rw [if_pos h]
      split
      next => exact Triple.throw_ends hE
      next => exact Triple.throw_ends hE
    next => exact Triple.throw_ends hE

/-- The Manifest is committed when all files are at their candidates. -/
theorem commitManifest_stage (h : Sound host j₀) (operation baseline digest : String) :
    Triple (In fun s => Stage host j₀ base base s ∧ AllAt host j₀ (·.candidateState) s)
      (commitManifest host operation baseline digest j₀.candidateManifest)
      (Ends (fun _ => In (Stage host j₀ base (manifestNode host j₀))) (Inv host j₀ base))
      (Inv host j₀ base) := by
  have hseen : Seen j₀ fun s => Stage host j₀ base base s ∧ AllAt host j₀ (·.candidateState) s :=
    (stage_blind h).seen.and (allAt_seen _)
  have hinv : ∀ s, In (fun s => Stage host j₀ base base s ∧ AllAt host j₀ (·.candidateState) s) s →
      Inv host j₀ base s := fun s hs => Stage.inv (hs.mono And.left)
  have hexchange : Triple
      (In fun s => Stage host j₀ base base s ∧ AllAt host j₀ (·.candidateState) s)
      (compareAndSwap host.toHost (manifestPrecondition operation baseline) (manifestState digest)
        (some (host.content (.manifest j₀.candidateManifest))))
      (Ends (fun _ => In (Stage host j₀ base (manifestNode host j₀))) (Inv host j₀ base))
      (Inv host j₀ base) := by
    by_cases hdigest : host.hashBytes (host.content (.manifest j₀.candidateManifest)) = digest
    · have hreal : Realizes host.toHost (manifestState digest)
          (some (host.content (.manifest j₀.candidateManifest))) (manifestNode host j₀) := by
        rw [← hdigest]
        exact Realizes.regular _ _ _ _
      have hpath := manifestPrecondition_path operation baseline
      have hchanges : Changes j₀ manifestPath (manifestNode host j₀)
          (compareAndSwap host.toHost (manifestPrecondition operation baseline)
            (manifestState digest) (some (host.content (.manifest j₀.candidateManifest)))) := by
        intro s
        rw [← hpath]
        refine compareAndSwap_shift hreal ?_ ?_ ?_ (h.unseen_cas _)
        · rw [hpath]
          decide
        · rw [hpath]
          decide
        · rw [hpath]
          exact watched_manifest
      refine guard_shift hchanges hseen ?_ hinv fun s hs => Stage.inv hs
      rintro s t ⟨hs, hall⟩ hget
      constructor
      · exact hs.standing.commit h hall hget
      · rw [hget _ watched_manifest, Function.update_self]
      · refine blind_open journalPath_ne_manifest.symm s t hs.journal fun q hq hne => ?_
        rw [hget q hq, Function.update_of_ne hne]
    · have hrefused : some (host.hashBytes (host.content (.manifest j₀.candidateManifest))) ≠
          (manifestState digest).byteHash := fun heq => hdigest (Option.some.inj heq)
      exact Triple.of_forall fun s hs => compareAndSwap_refused rfl hrefused (hinv s hs)
  unfold commitManifest
  refine hexchange.bind_ends fun _ => Triple.of_forall fun t ht => Triple.returns_ends ht

/-! ### The end of a transaction -/

theorem files_blind (h : Sound host j₀) (state : FileRecord → FileState) :
    Blind j₀ (transactionPath j₀.header.transactionId) (AllAt host j₀ state) :=
  blind_allAt state fun _ hr => (h.way_ne hr List.prefix_rfl).1

/-- As `recordPhase_bind`, where nothing else is said. -/
theorem recordPhase_next (h : Sound host j₀) (hj : Version j₀ j) {phase : LifecyclePhase}
    {records : List FileRecord} (hrecords : records.map core = j₀.fileRecords.map core)
    (hphase : phase ≠ .complete) {f : LifecycleJournal → Prog α} {Q : α → FS → Prop}
    (hf : ∀ j', Version j₀ j' → Triple (In (Stage host j₀ base n)) (f j')
      (Ends Q (Inv host j₀ base)) (Inv host j₀ base)) :
    Triple (In (Stage host j₀ base n)) (recordPhase host j phase records >>= f)
      (Ends Q (Inv host j₀ base)) (Inv host j₀ base) := by
  have htrue : Blind j₀ (transactionPath j₀.header.transactionId) fun _ => True :=
    fun _ _ _ _ => trivial
  refine (recordPhase_bind h hj hrecords hphase htrue fun j' hj' =>
    (hf j' hj').pre fun s hs => hs.mono And.left).pre ?_
  exact fun s hs => hs.mono fun hs => ⟨hs, trivial⟩

theorem recordPhase_version (h : Sound host j₀) (hj : Version j₀ j) {phase : LifecyclePhase}
    {records : List FileRecord} (hrecords : records.map core = j₀.fileRecords.map core)
    (hphase : phase ≠ .complete) :
    Triple (In (Stage host j₀ base n)) (recordPhase host j phase records)
      (Ends (fun j' t => Version j₀ j' ∧ In (Stage host j₀ base n) t) (Inv host j₀ base))
      (Inv host j₀ base) := by
  rw [← bind_pure (recordPhase host j phase records)]
  refine recordPhase_next h hj hrecords hphase fun j' hj' => ?_
  exact Triple.of_forall fun t ht => Triple.returns_ends ⟨hj', ht⟩

/-- What the removal of the marker does in a stage. -/
def Unmarks (host : LifecycleHost) (j₀ : LifecycleJournal) (base n : Option (Node Content))
    (prog : Prog Unit) : Prop :=
  Triple (In (Stage host j₀ base n)) prog
    (Ends (fun _ => In fun s => Stage host j₀ base n s ∧ s.get maintenancePath = none)
      (Inv host j₀ base)) (Inv host j₀ base)

theorem removeMaintenance_unmarks (h : Sound host j₀) (marker : MaintenanceMarker) :
    Unmarks host j₀ base n (removeMaintenance host marker) := by
  have htrue : Blind j₀ maintenancePath fun _ => True := fun _ _ _ _ => trivial
  refine ((removeMaintenance_stage h htrue marker).pre fun s hs =>
    hs.mono fun hs => ⟨hs, trivial⟩).ends_weaken ?_ fun _ h => h
  exact fun _ s hs => hs.mono fun hs => ⟨hs.1.1, hs.2⟩

theorem removeMarkerIfPresent_unmarks (h : Sound host j₀) (marker : MaintenanceMarker) :
    Unmarks host j₀ base n (removeMarkerIfPresent host marker) := by
  have htrue : Blind j₀ maintenancePath fun _ => True := fun _ _ _ _ => trivial
  refine ((removeMarkerIfPresent_stage h htrue marker).pre fun s hs =>
    hs.mono fun hs => ⟨hs, trivial⟩).ends_weaken ?_ fun _ h => h
  exact fun _ s hs => hs.mono fun hs => ⟨hs.1.1, hs.2⟩

theorem unmarked_seen (h : Sound host j₀) :
    Seen j₀ fun s => Stage host j₀ base n s ∧ s.get maintenancePath = none := by
  refine (stage_blind h).seen.and fun s t hs ha => ?_
  rw [ha _ watched_maintenance]
  exact hs

/-- Without a marker a committed transaction is settled. -/
theorem settled_of_commit (hs : Stage host j₀ base (manifestNode host j₀) s)
    (hmarker : s.get maintenancePath = none) : Settled host j₀ base s :=
  ⟨hmarker, Or.inl hs.manifest⟩

/-- After the removal of the marker the backups go. -/
theorem cleanup_settled (h : Sound host j₀) {records : List FileRecord}
    (hrecords : records.map core = j₀.fileRecords.map core) :
    Triple (In fun s => Stage host j₀ base (manifestNode host j₀) s ∧ s.get maintenancePath = none)
      (cleanupTransactionData records)
      (Ends (fun _ => In fun s => Stage host j₀ base (manifestNode host j₀) s ∧
        Settled host j₀ base s) (Inv host j₀ base)) (Inv host j₀ base) := by
  refine (guard_same (cleanupTransactionData_same h hrecords) (unmarked_seen h) fun s hs =>
    Stage.inv (hs.mono And.left)).ends_weaken (fun _ s hs => ?_) fun _ h => h
  exact hs.mono fun hs => ⟨hs.1, settled_of_commit hs.1 hs.2⟩

theorem finishTransaction_over (h : Sound host j₀) (hj : Version j₀ j) {records : List FileRecord}
    (hrecords : records.map core = j₀.fileRecords.map core) {removeMarker : Prog Unit}
    (hremove : Unmarks host j₀ base (manifestNode host j₀) removeMarker) :
    Triple (In (Stage host j₀ base (manifestNode host j₀)))
      (finishTransaction host j records removeMarker)
      (Ends (fun _ => In (Over host j₀ base (manifestNode host j₀))) (Inv host j₀ base))
      (Inv host j₀ base) := by
  unfold finishTransaction
  refine recordPhase_next h hj hrecords (by decide) fun j₁ hj₁ => ?_
  refine recordPhase_next h hj₁ hrecords (by decide) fun j₂ hj₂ => ?_
  refine hremove.bind_ends fun _ => (cleanup_settled h hrecords).bind_ends fun _ => ?_
  exact recordPhase_over h hj₂ hrecords

/-! ### The two recoveries -/

/-- A rollback that returns has undone everything. -/
theorem rollbackTransaction_over (h : Sound host j₀) (hbase : base ≠ manifestNode host j₀)
    (hj : Version j₀ j) :
    Triple (In (Stage host j₀ base base)) (rollbackTransaction host j)
      (Ends (fun _ => In (Over host j₀ base base)) (Inv host j₀ base)) (Inv host j₀ base) := by
  have hcreated : j.createdDirectories = j₀.createdDirectories :=
    congrArg (fun j => j.createdDirectories) hj.immutable
  unfold rollbackTransaction
  refine (rollbackFiles_done h hbase hj.records).bind_ends fun records => Triple.of_forall ?_
  rintro s ⟨hrecords, hs⟩
  have hundo : Triple (· = s) (cleanupCreatedDirectories j.createdDirectories)
      (Ends (fun _ => In fun s => Stage host j₀ base base s ∧
        Undone host j₀ j₀.createdDirectories s) (Inv host j₀ base)) (Inv host j₀ base) := by
    refine (cleanupCreatedDirectories_undone h hcreated).pre ?_
    rintro t rfl
    exact hs
  refine hundo.bind_ends fun _ => ?_
  have hblind : Blind j₀ maintenancePath (Undone host j₀ j₀.createdDirectories) :=
    undone_blind h fun d hd => hd
  refine (removeMarkerIfPresent_stage h hblind j.marker).bind_ends fun _ => ?_
  have hseen : Seen j₀ fun s => (Stage host j₀ base base s ∧
      Undone host j₀ j₀.createdDirectories s) ∧ s.get maintenancePath = none := by
    refine ((stage_blind h).seen.and hblind.seen).and fun s t hs ha => ?_
    rw [ha _ watched_maintenance]
    exact hs
  refine (guard_same (cleanupTransactionData_same h hrecords) hseen fun s hs =>
    Stage.inv (hs.mono fun hs => hs.1.1)).bind_ends fun _ => Triple.of_forall fun s hs => ?_
  refine Triple.lift_bind_ends (Stage.inv (hs.mono fun hs => hs.1.1)) fun j' hj' => ?_
  have hnext := hj.next hrecords .complete true
  rw [← advanceJournal_eq_ok hj'] at hnext
  have hat : j'.phase = .complete := by rw [advanceJournal_eq_ok hj']
  refine (writeJournal_over h hnext hat).pre ?_
  rintro t rfl
  refine hs.mono fun ⟨⟨hs, hundone⟩, hmarker⟩ => ⟨hs, hmarker, Or.inr ⟨hs.manifest, ?_⟩⟩
  exact ⟨hundone.files, hundone.gone⟩

/-- Files put into a directory without directories of its own. -/
theorem putEntries_frame (hdir : s.realDir p) (hflat : ∀ n, ¬ s.realDir (p ++ [n]))
    (entries : List (String × ProbeEntry)) :
    Frame (fun q => p <+: q) s (putEntries p entries s) := by
  induction entries generalizing s with
  | nil => exact refl_of (Frame fun q => p <+: q) s
  | cons e entries ih =>
    obtain ⟨name, entry⟩ := e
    cases entry with
    | other => exact ih hdir hflat
    | file content =>
      have hupdate : (s.set (p ++ [name]) (.file (.bytes content) 0o644)).get =
          Function.update s.get (p ++ [name]) (some (.file (.bytes content) 0o644)) := by
        funext q
        rw [get_set, Function.update_apply]
      refine trans_of (Frame fun q => p <+: q) (Frame.of_update hupdate (List.prefix_append _ _)
        (by rwa [parent_append]) (by simp) (hflat name)) (ih ?_ fun n => ?_)
      · obtain ⟨m, hm⟩ := hdir
        exact ⟨m, by rw [get_set, if_neg (by simp), hm]⟩
      · rintro ⟨m, hm⟩
        rw [get_set] at hm
        split at hm
        · cases hm
        · exact hflat n ⟨m, hm⟩

/-- The tree changes at or below `p` only, whatever the probe leaves there. -/
theorem putResidue_frame {name : String} (r : Residue) (s : FS) :
    Frame (fun q => [name] <+: q) s (putResidue [name] r s) := by
  have hwithout : Frame (fun q => [name] <+: q) s (s.without [name]) :=
    without_frame (List.cons_ne_nil _ _)
  cases r with
  | absent => exact hwithout
  | notDirectory => exact refl_of (Frame fun q => [name] <+: q) s
  | directory entries =>
    have hupdate : ((s.without [name]).set [name] (.dir 0o700)).get =
        Function.update (s.without [name]).get [name] (some (.dir 0o700)) := by
      funext q
      rw [get_set, Function.update_apply]
    have hmade : Frame (fun q => [name] <+: q) (s.without [name])
        ((s.without [name]).set [name] (.dir 0o700)) := by
      refine ⟨off_of_update hupdate List.prefix_rfl, fun hs => ?_⟩
      refine hs.update hupdate hs.1 (List.cons_ne_nil _ _) ?_
      rintro ⟨m, hm⟩
      rw [get_without, if_pos List.prefix_rfl] at hm
      cases hm
    refine trans_of (Frame fun q => [name] <+: q) hwithout
      (trans_of (Frame fun q => [name] <+: q) hmade (putEntries_frame ?_ (fun n => ?_) entries))
    · exact ⟨0o700, by rw [get_set, if_pos rfl]⟩
    · rintro ⟨m, hm⟩
      rw [get_set, if_neg (by simp), get_without, if_pos (List.prefix_append _ _)] at hm
      cases hm

/-- The probe writes at or below its own directory only. -/
theorem writeProbe_contained (filesystem : ProbedFilesystem) (transactionId : String) :
    Within (Frame fun q => probeRoot transactionId <+: q) (writeProbe filesystem transactionId) :=
  (Within.onPart _ fun s r => putResidue_frame r s).bind fun _ => Within.pure ()

theorem writeProbe_same (h : Sound host j₀) (filesystem : ProbedFilesystem) :
    Within (Same j₀) (writeProbe filesystem j₀.header.transactionId) := by
  refine within_same (writeProbe_contained filesystem _) fun q hq hw => ?_
  have hhead : ∀ rest : Path,
      ¬ probeRoot j₀.header.transactionId <+: ".agent-workflow" :: rest := by
    intro rest hpre
    have hname := (List.cons_prefix_cons.mp hpre).1
    have hlen := congrArg (fun v => v.toList.length) hname
    simp at hlen
  rcases hw with hw | rfl | rfl | rfl | ⟨r, hr, hw⟩
  · exact hhead [] (hq.trans hw)
  · exact hhead _ hq
  · exact hhead _ hq
  · exact hhead _ hq
  · have hreserved := h.reserved r hr _ (Or.inr (Or.inr (Or.inr (Or.inr (Or.inr rfl)))))
    exact hreserved.1 (hq.trans hw)

theorem requireRecoveryScan_same (context : RecoveryContext) (j : LifecycleJournal) :
    Within (Same j₀) (requireRecoveryScan context j) := by
  refine (Within.lift _).bind fun _ => (Within.lift _).bind fun _ => ?_
  exact Within.inspect _

theorem ensureMarker_stage (h : Sound host j₀) (j : LifecycleJournal) (allowCreate : Bool) :
    Triple (In (Stage host j₀ base n)) (ensureMarker host j allowCreate)
      (Ends (fun _ => In (Stage host j₀ base n)) (Inv host j₀ base)) (Inv host j₀ base) := by
  have hstage : ∀ s, In (Stage host j₀ base n) s → Inv host j₀ base s := fun s hs => Stage.inv hs
  unfold ensureMarker
  refine Triple.of_forall fun s hs => Triple.bind_run (Program.read_run _ _) ?_
  split
  next =>
    refine (guard_same (Within.inspect _) (stage_blind h).seen hstage).pre ?_
    rintro t rfl
    exact hs
  next =>
    split
    next =>
      refine (writeMaintenance_stage h j.marker).pre ?_
      rintro t rfl
      exact hs
    next => exact Triple.throw_ends (hstage s hs)

/-- The version of the journal and the records that a resume goes on with. -/
def Prepared (j₀ : LifecycleJournal) (next : LifecycleJournal × List FileRecord) : Prop :=
  Version j₀ next.1 ∧ next.2.map core = j₀.fileRecords.map core

theorem resumePreparation_stage (h : Sound host j₀) (hj : Version j₀ j)
    (context : RecoveryContext) : Triple (In (Stage host j₀ base n))
      (resumePreparation host j₀.header.transactionId context j)
      (Ends (fun next t => Prepared j₀ next ∧ In (Stage host j₀ base n) t) (Inv host j₀ base))
      (Inv host j₀ base) := by
  have hstage : ∀ s, In (Stage host j₀ base n) s → Inv host j₀ base s := fun s hs => Stage.inv hs
  have hcreated : j.createdDirectories = j₀.createdDirectories :=
    congrArg (fun j => j.createdDirectories) hj.immutable
  unfold resumePreparation
  split
  next =>
    refine recordPhase_next h hj hj.records (by decide) fun j₁ hj₁ => ?_
    refine (guard_same (writeProbe_same h _) (stage_blind h).seen hstage).bind_ends fun _ => ?_
    refine (prepareBackups_stage h hj.records hcreated).bind_ends fun records => ?_
    refine Triple.of_forall ?_
    rintro s ⟨hrecords, hs⟩
    refine Triple.pre (P := In (Stage host j₀ base n)) ?_ ?_
    · refine recordPhase_next h hj₁ hrecords (by decide) fun j₂ hj₂ => ?_
      exact Triple.of_forall fun t ht => Triple.returns_ends ⟨⟨hj₂, hrecords⟩, ht⟩
    · rintro t rfl
      exact hs
  next => exact Triple.of_forall fun s hs => Triple.returns_ends ⟨⟨hj, hj.records⟩, hs⟩

/-- A resume that returns has committed everything. -/
theorem resumeTransaction_over (h : Sound host j₀) (hbase : base ≠ manifestNode host j₀)
    (hj : Version j₀ j) (context : RecoveryContext) : Triple (In (Stage host j₀ base base))
      (resumeTransaction host j₀.header.transactionId context j)
      (Ends (fun _ => In (Over host j₀ base (manifestNode host j₀))) (Inv host j₀ base))
      (Inv host j₀ base) := by
  unfold resumeTransaction
  refine (resumePreparation_stage h hj context).bind_ends fun ⟨j₁, records⟩ => Triple.of_forall ?_
  rintro s ⟨⟨hj₁, hrecords⟩, hs⟩
  dsimp only at hj₁ hrecords ⊢
  have hmarked : Triple (· = s) (ensureMarker host j₁ (j₁.phase = .prepared))
      (Ends (fun _ => In (Stage host j₀ base base)) (Inv host j₀ base)) (Inv host j₀ base) := by
    refine (ensureMarker_stage h j₁ _).pre ?_
    rintro t rfl
    exact hs
  have happlying : Triple (In (Stage host j₀ base base)) (startApplying host j₁ records)
      (Ends (fun j' t => Version j₀ j' ∧ In (Stage host j₀ base base) t) (Inv host j₀ base))
      (Inv host j₀ base) := by
    unfold startApplying
    split
    next => exact recordPhase_version h hj₁ hrecords (by decide)
    next => exact Triple.of_forall fun t ht => Triple.returns_ends ⟨hj₁, ht⟩
  refine hmarked.bind_ends fun _ => happlying.bind_ends fun j₂ => Triple.of_forall ?_
  rintro t ⟨hj₂, ht⟩
  have hfiles : Triple (· = t) (resumeFiles host records)
      (Ends (AllDone host j₀ base (·.candidateState)) (Inv host j₀ base)) (Inv host j₀ base) := by
    refine (resumeFiles_done h hbase hrecords).pre ?_
    rintro u rfl
    exact ht
  refine hfiles.bind_ends fun records' => Triple.of_forall ?_
  rintro u ⟨hrecords', hu⟩
  refine Triple.pre (P := In fun s => Stage host j₀ base base s ∧
    AllAt host j₀ (·.candidateState) s) ?_ ?_
  · refine recordPhase_bind h hj₂ hrecords' (by decide) (files_blind h _) fun j₃ hj₃ => ?_
    have hseen : Seen j₀ fun s => Stage host j₀ base base s ∧ AllAt host j₀ (·.candidateState) s :=
      (stage_blind h).seen.and (allAt_seen _)
    refine (guard_same (requireRecoveryScan_same context j₃) hseen fun s hs =>
      Stage.inv (hs.mono And.left)).bind_ends fun _ => ?_
    have hmanifest : j₁.candidateManifest = j₀.candidateManifest :=
      congrArg (fun j => j.candidateManifest) hj₁.immutable
    rw [hmanifest]
    refine (commitManifest_stage h _ _ _).bind_ends fun _ => ?_
    refine (finishTransaction_over h hj₃ hrecords'
      (removeMarkerIfPresent_unmarks h j₁.marker)).bind_ends fun _ => ?_
    exact Triple.of_forall fun v hv => Triple.returns_ends hv
  · rintro v rfl
    exact hu

/-! ### Applying -/

/-- Everything a recovery needs is on disk before a file changes. -/
theorem prepareTransaction_stage {plan : SavedPlan} {context : ApplyContext}
    {records : List FileRecord} {created : List Path}
    (h : Sound host (plan.journal records created))
    (hnamed : plan.header.transactionId = plan.transactionId) :
    Triple (In (Stage host (plan.journal records created) base n))
      (prepareTransaction host plan context records created)
      (Ends (fun next t => Prepared (plan.journal records created) next ∧
        In (Stage host (plan.journal records created) base n) t)
        (Inv host (plan.journal records created) base))
      (Inv host (plan.journal records created) base) := by
  have hstage : ∀ s, In (Stage host (plan.journal records created) base n) s →
      Inv host (plan.journal records created) base s := fun s hs => Stage.inv hs
  have hfirst := Version.refl (plan.journal records created)
  have hseen : Seen (plan.journal records created)
      (Stage host (plan.journal records created) base n) := (stage_blind h).seen
  unfold prepareTransaction
  have htrue : Blind (plan.journal records created)
      (transactionPath (plan.journal records created).header.transactionId) fun _ => True :=
    fun _ _ _ _ => trivial
  have hwrite : Triple (In (Stage host (plan.journal records created) base n))
      (writeJournal host (plan.journal records created))
      (Ends (fun _ => In (Stage host (plan.journal records created) base n))
        (Inv host (plan.journal records created) base))
      (Inv host (plan.journal records created) base) := by
    have hopen : (plan.journal records created).phase ≠ .complete :=
      show LifecyclePhase.planned ≠ .complete by decide
    refine ((writeJournal_stage h hfirst hopen htrue).pre fun s hs => hs.mono fun hs =>
      ⟨hs, trivial⟩).ends_weaken ?_ fun _ h => h
    exact fun _ s hs => hs.mono And.left
  refine hwrite.bind_ends fun _ => ?_
  refine recordPhase_next h hfirst rfl (by decide) fun j₁ hj₁ => ?_
  have hprobed : Within (Same (plan.journal records created))
      (Program.mapError (lifecycleProbeFailure plan.transactionId plan.operation)
        (writeProbe context.filesystem plan.transactionId)) := by
    rw [← hnamed]
    exact Within.mapError (writeProbe_same h _)
  refine (guard_same hprobed hseen hstage).bind_ends fun _ => ?_
  refine (prepareBackups_stage h rfl rfl).bind_ends fun records' => Triple.of_forall ?_
  rintro s ⟨hrecords, hs⟩
  refine Triple.pre (P := In (Stage host (plan.journal records created) base n)) ?_ ?_
  · refine recordPhase_next h hj₁ hrecords (by decide) fun j₂ hj₂ => ?_
    refine (writeMaintenance_stage h plan.marker).bind_ends fun _ => ?_
    exact Triple.of_forall fun t ht => Triple.returns_ends ⟨⟨hj₂, hrecords⟩, ht⟩
  · rintro t rfl
    exact hs

theorem requireSameTaskState_same (scanner : Scanner) (expected : TaskState) :
    Within (Same j₀) (requireSameTaskState scanner expected) := Within.inspect _

/-! ### Locks -/

/-- Directories are made on the way to the control directory at most. -/
def Calm (j₀ : LifecycleJournal) (s t : FS) : Prop :=
  s.WellFormed → t.WellFormed ∧ ∀ q, Watched j₀ q → t.get q = s.get q ∨
    q <+: controlDir ∧ s.get q = none ∧ t.realDir q

instance : Std.Refl (Calm j₀) := ⟨fun _ hs => ⟨hs, fun _ _ => Or.inl rfl⟩⟩

instance : IsTrans FS (Calm j₀) := by
  constructor
  intro s t u h h' hs
  obtain ⟨ht, hget⟩ := h hs
  obtain ⟨hu, hget'⟩ := h' ht
  refine ⟨hu, fun q hq => ?_⟩
  rcases hget q hq with hsame | ⟨hpre, hnone, hdir⟩
  · rcases hget' q hq with hsame' | ⟨hpre, hnone, hdir⟩
    · exact Or.inl (hsame'.trans hsame)
    · exact Or.inr ⟨hpre, hsame ▸ hnone, hdir⟩
  · rcases hget' q hq with hsame' | ⟨-, hnone', -⟩
    · exact Or.inr ⟨hpre, hnone, realDir_of_get_eq hsame' hdir⟩
    · obtain ⟨m, hm⟩ := hdir
      rw [hm] at hnone'
      cases hnone'

theorem Calm.same (h : Calm j₀ s t) : Same j₀ s t := by
  intro hs
  obtain ⟨ht, hget⟩ := h hs.shape
  have hagree : Agree j₀ s t := by
    intro q hq
    rcases hget q hq with hsame | ⟨hpre, hnone, -⟩
    · exact hsame
    · obtain ⟨m, hm⟩ := (hs.shape.reaches hs.control) q hpre
      rw [hm] at hnone
      cases hnone
  exact ⟨entered_of_agree hs ht hagree, hagree⟩

theorem mkdirs_calm (hp : p <+: controlDir) (m : Mode) :
    Within (Calm j₀) (mkdirs m p : Prog Unit) := by
  intro s c hc hs
  have hgrown := (mkdirs_grown (ε := Failure) m s p s rfl).1 c hc
  have hframe := mkdirs_frame (ε := Failure) (W := fun q => q <+: p) m p (fun _ hq => hq) s c hc
  refine ⟨hframe.shape hs, fun q _ => ?_⟩
  rcases hgrown.added q with hsame | ⟨hpre, hnone, hdir⟩
  · exact Or.inl hsame
  · exact Or.inr ⟨hpre.trans hp, hnone, m, hdir⟩

theorem lock_unseen (h : Sound host j₀) {name : String}
    (hname : name = "reconcile.lock" ∨ name = "runtime-state.lock") :
    ¬ Watched j₀ (controlDir ++ [name]) := by
  have hreserved : Reserved j₀ (controlDir ++ [name]) := by
    rcases hname with rfl | rfl
    · exact Or.inr (Or.inr (Or.inr (Or.inl rfl)))
    · exact Or.inr (Or.inr (Or.inr (Or.inr (Or.inl rfl))))
  rintro (hw | hw | hw | hw | ⟨r, hr, hw⟩)
  · have hlen := hw.length_le
    simp at hlen
  · have hlen := congrArg List.length hw
    simp [transactionPath, transactionRoot, controlDir] at hlen
  · rcases hname with rfl | rfl
    · exact absurd hw (by decide)
    · exact absurd hw (by decide)
  · rcases hname with rfl | rfl
    · exact absurd hw (by decide)
    · exact absurd hw (by decide)
  · exact (h.reserved r hr _ hreserved).1 hw

theorem acquireProjectLocks_calm (h : Sound host j₀) :
    Within (Calm j₀) (acquireProjectLocks host.toHost) := by
  have hadvisory : ∀ n, n = "reconcile.lock" ∨ n = "runtime-state.lock" →
      Within (Calm j₀) (advisoryLock host.toHost (controlDir ++ [n])) := by
    intro n hn
    refine (Runtime.realDirectory_within true (mkdirs_calm ?_ _)).bind fun _ => ?_
    · rw [parent_append]
    · refine Within.mapError (Runtime.openCreate_within ?_)
      have hcreate : Within (Frame (· = controlDir ++ [n]))
          (syscall (create ∅ 0o600 (controlDir ++ [n])) : Prog Unit) := create_frame (by simp) rfl
      refine hcreate.mono fun s t hframe hs => ⟨hframe.shape hs, fun q hq => Or.inl ?_⟩
      refine hframe.off q ?_
      rintro rfl
      exact lock_unseen h hn hq
  refine (Runtime.realDirectory_within false (mkdirs_calm List.nil_prefix _)).bind fun _ => ?_
  refine (Runtime.realDirectory_within true (mkdirs_calm List.prefix_rfl _)).bind fun _ => ?_
  exact (hadvisory _ (Or.inl rfl)).bind fun _ => hadvisory _ (Or.inr rfl)

theorem lifecycleLocks_calm (h : Sound host j₀) (operation missing : String)
    (lock : Option (Except Failure Unit)) :
    Within (Calm j₀) (lifecycleLocks host operation missing lock) := by
  have hproject := acquireProjectLocks_calm h
  unfold lifecycleLocks
  split
  · exact (Within.lift _).bind fun _ => (Within.lift _).bind fun _ => hproject
  · exact hproject

/-- The locks lie in the control directory. -/
theorem lifecycleLocks_control {operation missing : String} {lock : Option (Except Failure Unit)}
    (h : (lifecycleLocks host operation missing lock).out s = .ok ())
    (hshape : ((lifecycleLocks host operation missing lock).final s).WellFormed) :
    ((lifecycleLocks host operation missing lock).final s).realDir controlDir := by
  have hlocked : ∀ t, (acquireProjectLocks host.toHost).out t = .ok () →
      ((acquireProjectLocks host.toHost).final t).WellFormed →
      ((acquireProjectLocks host.toHost).final t).realDir controlDir := by
    intro t ht hwf
    obtain ⟨c, m, hget⟩ := (Runtime.acquireProjectLocks_locked ht).reconcile
    exact hwf.parent_realDir (p := controlDir) (n := "reconcile.lock") (by
      rw [show controlDir ++ ["reconcile.lock"] = Runtime.lockFile "reconcile.lock" from rfl, hget]
      rfl)
  unfold lifecycleLocks at h hshape ⊢
  split at h
  · obtain ⟨_, -, h, hfinal⟩ := Program.bind_out_eq_ok h
    obtain ⟨_, -, h, hfinal'⟩ := Program.bind_out_eq_ok h
    rw [if_pos ‹_›] at hshape ⊢
    rw [hfinal, hfinal'] at hshape ⊢
    exact hlocked _ h hshape
  · rw [if_neg ‹_›] at hshape ⊢
    exact hlocked _ h hshape

/-! ### Recovering -/

/-- With this Manifest in place the transaction is not committed. -/
def Uncommitted (host : LifecycleHost) (j₀ : LifecycleJournal) (base : Option (Node Content)) :
    Prop :=
  ∀ s : FS, s.get manifestPath = base → manifestCommitted host j₀ s ≠ .ok true

theorem Version.manifestCommitted (h : Version j₀ j) (s : FS) :
    Reconcile.manifestCommitted host j s = Reconcile.manifestCommitted host j₀ s := by
  have hbinding : j.journalBindingDigest = j₀.journalBindingDigest :=
    congrArg (fun j => j.journalBindingDigest) h.immutable
  unfold Reconcile.manifestCommitted ManifestDocument.commits
  rw [h.header, hbinding]

theorem manifestCommitted_node (h : Sound host j₀)
    (hs : s.get manifestPath = manifestNode host j₀) :
    manifestCommitted host j₀ s = .ok true := by
  unfold manifestCommitted
  rw [hs]
  simp only [manifestNode, host.load_content]
  rw [h.commits]

theorem Uncommitted.ne (hbase : Uncommitted host j₀ base) (h : Sound host j₀)
    (hs : s.get manifestPath = base) : base ≠ manifestNode host j₀ := by
  intro heq
  exact hbase s hs (manifestCommitted_node h (hs.trans heq))

theorem over_seen (h : Sound host j₀) : Seen j₀ (Over host j₀ base n) := by
  intro s t hs ha
  have hmanifest := ha _ watched_manifest
  constructor
  · exact (blind_standing h (Or.inr rfl)).seen s t hs.standing ha
  · rw [hmanifest]
    exact hs.manifest
  · obtain ⟨j, m, hget, hj⟩ := hs.journal
    exact ⟨j, m, (ha _ watched_journal).trans hget, hj⟩
  · constructor
    · rw [ha _ watched_maintenance]
      exact hs.settled.marker
    · rw [hmanifest]
      refine hs.settled.outcome.imp_right fun ⟨hbase, hall, hgone⟩ => ⟨hbase, ?_, fun d hd => ?_⟩
      · exact allAt_seen _ s t hall ha
      · rw [ha d (created_watched h hd)]
        exact hgone d hd

/-- What the journal on disk tells a recovery. -/
inductive Loaded (host : LifecycleHost) (j₀ : LifecycleJournal) (base n : Option (Node Content))
    (j : LifecycleJournal) (s : FS) : Prop
  | stage : j.phase ≠ .complete → In (Stage host j₀ base n) s → Loaded host j₀ base n j s
  | ended : j.phase = .complete → In (Over host j₀ base n) s → Loaded host j₀ base n j s

theorem Loaded.inv (h : Loaded host j₀ base n j s) : Inv host j₀ base s := by
  cases h with
  | stage _ hs => exact Stage.inv hs
  | ended _ hs => exact Over.inv hs

theorem Loaded.manifest (h : Loaded host j₀ base n j s) : s.get manifestPath = n := by
  cases h with
  | stage _ hs => exact hs.2.manifest
  | ended _ hs => exact hs.2.manifest

theorem Inv.loaded (hs : Inv host j₀ base s)
    (hload : loadJournal host (transactionPath j₀.header.transactionId) s = .ok j) :
    Version j₀ j ∧ Loaded host j₀ base (s.get manifestPath) j s := by
  have hread : ∀ j' m, s.get (transactionPath j₀.header.transactionId) =
      some (.file (host.content (.journal j')) m) → j = j' ∧ Entered s := by
    intro j' m hget
    constructor
    · unfold loadJournal at hload
      rw [hget] at hload
      simp only [host.load_content] at hload
      obtain ⟨_, -, hload⟩ := bind_eq_ok hload
      exact (Except.ok.inj hload).symm
    · have hroot := hs.shape.parent_realDir (p := transactionRoot)
        (n := j₀.header.transactionId ++ ".json") (by
          rw [show transactionRoot ++ [j₀.header.transactionId ++ ".json"] =
            transactionPath j₀.header.transactionId from rfl, hget]
          rfl)
      exact ⟨hs.shape, (hs.shape.reaches hroot) controlDir ⟨["transactions"], rfl⟩⟩
  rcases hs.journal with hopen | ⟨hwritten, hsettled⟩
  · rcases hopen with hnone | ⟨j', m, hget, hj', hphase⟩
    · unfold loadJournal at hload
      rw [hnone] at hload
      cases hload
    · obtain ⟨rfl, hentered⟩ := hread j' m hget
      have hopen : Open host j₀ s := Or.inr ⟨j, m, hget, hj', hphase⟩
      exact ⟨hj', .stage hphase ⟨hentered, hs.standing, rfl, hopen⟩⟩
  · obtain ⟨j', m, hget, hj', hphase⟩ := hwritten
    obtain ⟨rfl, hentered⟩ := hread j' m hget
    have hdone : Written host j₀ (· = .complete) s := ⟨j, m, hget, hj', hphase⟩
    exact ⟨hj', .ended hphase ⟨hentered, hs.standing, rfl, hdone, hsettled⟩⟩

theorem cleanupCommitted_over (h : Sound host j₀) (hj : Version j₀ j)
    (hphase : j.phase ≠ .complete) :
    Triple (In (Stage host j₀ base (manifestNode host j₀)))
      (cleanupCommitted host j j.fileRecords)
      (Ends (fun _ => In (Over host j₀ base (manifestNode host j₀))) (Inv host j₀ base))
      (Inv host j₀ base) := by
  have hremove : Unmarks host j₀ base (manifestNode host j₀)
      (removeMarkerIfPresent host j.marker) := removeMarkerIfPresent_unmarks h j.marker
  unfold cleanupCommitted
  rw [if_neg hphase]
  split
  next =>
    refine hremove.bind_ends fun _ => (cleanup_settled h hj.records).bind_ends fun _ => ?_
    exact (recordPhase_over h hj hj.records).bind_ends fun _ =>
      Triple.of_forall fun s hs => Triple.returns_ends hs
  next =>
    exact (finishTransaction_over h hj hj.records hremove).bind_ends fun _ =>
      Triple.of_forall fun s hs => Triple.returns_ends hs

/-- A transaction that is over stays as it is. -/
theorem cleanupCommitted_again (h : Sound host j₀) (hj : Version j₀ j)
    (hphase : j.phase = .complete) :
    Triple (In (Over host j₀ base n)) (cleanupCommitted host j j.fileRecords)
      (Ends (fun _ => In (Over host j₀ base n)) (Inv host j₀ base)) (Inv host j₀ base) := by
  have hover : ∀ s, In (Over host j₀ base n) s → Inv host j₀ base s := fun s hs => Over.inv hs
  unfold cleanupCommitted
  rw [if_pos hphase]
  refine Triple.bind_ends (R := fun _ => In (Over host j₀ base n)) ?_ fun _ =>
    guard_same (cleanupTransactionData_same h hj.records) (over_seen h) hover
  refine Triple.of_forall fun s hs => Triple.whenever _ (fun hpresent => ?_) fun _ => hs
  have hmarker := hs.2.settled.marker
  simp [DirTree.exists, isSymlink, hmarker] at hpresent

theorem recoverCommitted_over (h : Sound host j₀) (hj : Version j₀ j)
    (hs : Loaded host j₀ base (manifestNode host j₀) j s) (id : String) (action : RecoveryAction) :
    Triple (· = s) (recoverCommitted host id action j)
      (Ends (fun r t => (r.committed = true ∧ r.rolledBack = false) ∧
        In (Over host j₀ base (manifestNode host j₀)) t) (Inv host j₀ base))
      (Inv host j₀ base) := by
  have hcleanup : Triple (· = s) (cleanupCommitted host j j.fileRecords)
      (Ends (fun _ => In (Over host j₀ base (manifestNode host j₀))) (Inv host j₀ base))
      (Inv host j₀ base) := by
    cases hs with
    | stage hphase hs =>
      refine (cleanupCommitted_over h hj hphase).pre ?_
      rintro t rfl
      exact hs
    | ended hphase hs =>
      refine (cleanupCommitted_again h hj hphase).pre ?_
      rintro t rfl
      exact hs
  unfold recoverCommitted
  split
  next => exact Triple.throw_ends hs.inv
  next =>
    exact hcleanup.bind_ends fun _ =>
      Triple.of_forall fun t ht => Triple.returns_ends ⟨⟨rfl, rfl⟩, ht⟩

/-- What a recovery reports, and what it left. -/
structure Outcome (host : LifecycleHost) (j₀ : LifecycleJournal) (base : Option (Node Content))
    (r : LifecycleRecovery) (s : FS) : Prop where
  one : r.rolledBack = !r.committed
  ended : In (Over host j₀ base (if r.committed then manifestNode host j₀ else base)) s

theorem recoverUncommitted_over (h : Sound host j₀) (hbase : base ≠ manifestNode host j₀)
    (hj : Version j₀ j) (hs : Loaded host j₀ base base j s) (action : RecoveryAction)
    (context : RecoveryContext) :
    Triple (· = s) (recoverUncommitted host j₀.header.transactionId action context j)
      (Ends (Outcome host j₀ base) (Inv host j₀ base)) (Inv host j₀ base) := by
  unfold recoverUncommitted
  refine Triple.lift_bind_ends hs.inv fun _ hcheck => ?_
  cases hs with
  | ended hphase hs =>
    have hprecommit := check_eq_ok.mp hcheck
    rw [hphase] at hprecommit
    cases hprecommit
  | stage hphase hs =>
    split
    next =>
      refine Triple.bind_ends (R := fun _ => In (Over host j₀ base base)) ?_ fun _ =>
        Triple.of_forall fun t ht => Triple.returns_ends ⟨rfl, ht⟩
      refine (rollbackTransaction_over h hbase hj).pre ?_
      rintro t rfl
      exact hs
    next =>
      refine Triple.bind_ends (R := fun _ => In (Over host j₀ base (manifestNode host j₀))) ?_
        fun _ => Triple.of_forall fun t ht => Triple.returns_ends ⟨rfl, ht⟩
      refine (resumeTransaction_over h hbase hj context).pre ?_
      rintro t rfl
      exact hs

/-- A recovery reads the journal and takes the locks before anything else. -/
theorem recoverTransaction_entered (h : Sound host j₀) {action : RecoveryAction}
    {context : RecoveryContext} {Q : LifecycleRecovery → FS → Prop}
    (hrest : ∀ j t, Version j₀ j → Loaded host j₀ base n j t →
      Triple (· = t) (recoverLocked host j₀.header.transactionId action context j)
        (Ends Q (Inv host j₀ base)) (Inv host j₀ base)) :
    Triple (fun s => Inv host j₀ base s ∧ s.get manifestPath = n)
      (recoverTransaction host j₀.header.transactionId action context)
      (Ends Q (Inv host j₀ base)) (Inv host j₀ base) := by
  unfold recoverTransaction
  refine Triple.of_forall fun s hs => Triple.inspect_bind_ends hs.1 fun j hload => ?_
  obtain ⟨hs, rfl⟩ := hs
  obtain ⟨hj, hloaded⟩ := hs.loaded hload
  have hlocks := (lifecycleLocks_calm h j.header.operation "init recovery lacks bootstrap lock root"
    context.bootstrapLock).mono fun _ _ hcalm => hcalm.same
  cases hloaded with
  | stage hphase hin =>
    refine ((guard_same hlocks (stage_blind h).seen fun t ht => Stage.inv ht).pre ?_).bind_ends
      fun _ => Triple.of_forall fun t ht => hrest j t hj (.stage hphase ht)
    rintro t rfl
    exact hin
  | ended hphase hin =>
    refine ((guard_same hlocks (over_seen h) fun t ht => Over.inv ht).pre ?_).bind_ends
      fun _ => Triple.of_forall fun t ht => hrest j t hj (.ended hphase ht)
    rintro t rfl
    exact hin

/-- A committed transaction stays committed: a recovery only cleans up. -/
theorem recoverTransaction_committed (h : Sound host j₀) (action : RecoveryAction)
    (context : RecoveryContext) :
    Triple (fun s => Inv host j₀ base s ∧ s.get manifestPath = manifestNode host j₀)
      (recoverTransaction host j₀.header.transactionId action context)
      (Ends (Outcome host j₀ base) (Inv host j₀ base)) (Inv host j₀ base) := by
  refine recoverTransaction_entered h fun j t hj ht => ?_
  refine Triple.inspect_bind_ends ht.inv fun committed hcommitted => ?_
  rw [hj.manifestCommitted, manifestCommitted_node h ht.manifest] at hcommitted
  obtain rfl := Except.ok.inj hcommitted
  rw [if_pos rfl]
  refine (recoverCommitted_over h hj ht _ action).ends_weaken ?_ fun _ h => h
  rintro r u ⟨⟨hcommitted, hrolledBack⟩, hu⟩
  refine ⟨by rw [hcommitted, hrolledBack]; rfl, ?_⟩
  rw [hcommitted, if_pos rfl]
  exact hu

/-- Whatever a recovery is asked to do and wherever it stops, the transaction stays recoverable;
and what it reports is so. -/
theorem recoverTransaction_inv (h : Sound host j₀) (hbase : Uncommitted host j₀ base)
    (action : RecoveryAction) (context : RecoveryContext) :
    Triple (Inv host j₀ base) (recoverTransaction host j₀.header.transactionId action context)
      (Ends (Outcome host j₀ base) (Inv host j₀ base)) (Inv host j₀ base) := by
  refine Triple.of_forall fun s hs => ?_
  rcases hs.standing.manifest with hmanifest | hmanifest
  · refine Triple.pre (P := fun s => Inv host j₀ base s ∧ s.get manifestPath = base) ?_ ?_
    · refine recoverTransaction_entered h fun j t hj ht => ?_
      refine Triple.inspect_bind_ends ht.inv fun committed hcommitted => ?_
      rw [hj.manifestCommitted] at hcommitted
      cases committed with
      | true => exact absurd hcommitted (hbase t ht.manifest)
      | false =>
        rw [if_neg Bool.false_ne_true]
        exact recoverUncommitted_over h (hbase.ne h ht.manifest) hj ht action context
    · rintro t rfl
      exact ⟨hs, hmanifest⟩
  · refine (recoverTransaction_committed h action context).pre ?_
    rintro t rfl
    exact ⟨hs, hmanifest⟩

/-! ### Runs -/

/-- A plan, the records it makes, and a tree it may be applied to. -/
structure Ready (host : LifecycleHost) (plan : SavedPlan) (context : ApplyContext)
    (records : List FileRecord) (s₀ : FS) : Prop where
  planned : plan.fileRecords host.toHost context = .ok records
  named : plan.header.transactionId = plan.transactionId
  sound : Sound host (plan.journal records [])
  shape : s₀.WellFormed
  fresh : s₀.get (transactionPath plan.transactionId) = none
  originals : ∀ r ∈ records, currentMatches host r.originalState s₀ = true
  uncommitted : manifestCommitted host (plan.journal records []) s₀ ≠ .ok true

variable {plan : SavedPlan} {context : ApplyContext} {records : List FileRecord} {s₀ : FS}

/-- The journal with some list of created directories, and the invariant that goes with it. -/
def RunInv (host : LifecycleHost) (plan : SavedPlan) (records : List FileRecord)
    (base : Option (Node Content)) (s : FS) : Prop :=
  ∃ created, Sound host (plan.journal records created) ∧
    Inv host (plan.journal records created) base s

/-- Nothing was done yet. -/
structure Fresh (host : LifecycleHost) (j₀ : LifecycleJournal) (base : Option (Node Content))
    (s : FS) : Prop where
  shape : s.WellFormed
  standing : Standing host j₀ base s
  manifest : s.get manifestPath = base
  journal : s.get (transactionPath j₀.header.transactionId) = none

theorem Fresh.inv (hs : Fresh host j₀ base s) : Inv host j₀ base s :=
  ⟨hs.shape, hs.standing, Or.inl (Or.inl hs.journal)⟩

theorem Fresh.calm (hs : Fresh host j₀ base s) (h : Sound host j₀) (hcalm : Calm j₀ s t) :
    Fresh host j₀ base t := by
  obtain ⟨ht, hget⟩ := hcalm hs.shape
  have hoff : ∀ q, Watched j₀ q → ¬ q <+: controlDir → t.get q = s.get q := fun q hq hpre =>
    (hget q hq).resolve_right fun hdir => hpre hdir.1
  have hfile : ∀ r ∈ j₀.fileRecords, t.get r.originalState.path = s.get r.originalState.path :=
    fun r hr => hoff _ (Sound.record_watched hr) (h.not_control hr)
  have hmanifest : t.get manifestPath = s.get manifestPath := hoff _ watched_manifest (by decide)
  refine ⟨ht, ⟨fun r hr q hq hne => ?_, fun r hr => ?_, ?_, ?_⟩, ?_, ?_⟩
  · rcases hget q (way_watched hr hq) with hsame | ⟨-, -, hdir⟩
    · exact (hs.standing.ways r hr q hq hne).imp hsame.trans (realDir_of_get_eq hsame)
    · exact Or.inr hdir
  · rw [hfile r hr]
    exact hs.standing.sides r hr
  · rw [hmanifest]
    exact hs.standing.manifest
  · rw [hmanifest]
    intro hcommitted r hr
    rw [hfile r hr]
    exact hs.standing.committed hcommitted r hr
  · rw [hmanifest]
    exact hs.manifest
  · refine (hoff _ watched_journal fun hpre => ?_).trans hs.journal
    have hlen := hpre.length_le
    simp [transactionPath, transactionRoot, controlDir] at hlen

theorem prefix_parent (hq : q <+: p) (hne : q ≠ p) : q <+: parent p := by
  by_cases hp : p = []
  · rw [hp, List.prefix_nil] at hq
    exact absurd (hq.trans hp.symm) hne
  · rw [← parent_append_name hp] at hq
    rcases List.prefix_concat_iff.mp hq with heq | hpre
    · rw [parent_append_name hp] at heq
      exact absurd heq hne
    · exact hpre

theorem Ready.fresh_stage (h : Ready host plan context records s₀) :
    Fresh host (plan.journal records []) (s₀.get manifestPath) s₀ := by
  refine ⟨h.shape, ⟨fun r hr q hq hne => ?_, fun r hr => ?_, Or.inl rfl, fun hcommitted => ?_⟩, rfl,
    ?_⟩
  · have hmatch := h.originals r hr
    unfold currentMatches at hmatch
    split at hmatch
    · next hcurrent => exact (observe_eq_ok hcurrent).1.2 q (prefix_parent hq hne)
    · cases hmatch
  · exact Or.inl (currentMatches_shown (h.originals r hr))
  · exact absurd (manifestCommitted_node h.sound hcommitted) h.uncommitted
  · exact (congrArg (fun id => s₀.get (transactionPath id)) h.named).trans h.fresh

theorem mem_tail_inits (hq : q ∈ p.inits.tail) : q ≠ [] ∧ q <+: p := by
  refine ⟨?_, (List.mem_inits q p).mp (List.mem_of_mem_tail hq)⟩
  cases p with
  | nil => simp at hq
  | cons x rest =>
    rw [List.inits_cons, List.tail_cons, List.mem_map] at hq
    obtain ⟨l, -, rfl⟩ := hq
    exact List.cons_ne_nil _ _

theorem missingAbove_mem {missing : List Path} (h : missingAbove p s = .ok missing)
    (hq : q ∈ missing) : q ≠ [] ∧ q <+: parent p ∧ s.exists q = false := by
  obtain ⟨_, -, h⟩ := bind_eq_ok h
  obtain rfl := Except.ok.inj h
  obtain ⟨hmem, habsent⟩ := List.mem_filter.mp hq
  obtain ⟨hne, hpre⟩ := mem_tail_inits hmem
  exact ⟨hne, hpre, by simpa using habsent⟩

/-- The directories an apply makes lie on the ways to its files. -/
theorem createdDirectories_sound (h : Sound host (plan.journal records [])) (hs : Entered s)
    {created : List Path} (hcreated : createdDirectories records s = .ok created) :
    Sound host (plan.journal records created) := by
  refine ⟨h.named, h.paths, h.candidates, h.originals, h.apart, h.reserved, h.steady, h.backups,
    fun d hd => ?_, h.commits⟩
  obtain ⟨missing, hmissing, hcreated⟩ := bind_eq_ok hcreated
  obtain rfl := Except.ok.inj hcreated
  have hd := List.mem_dedup.mp ((List.mem_insertionSort _).mp hd)
  obtain ⟨found, hfound, hd⟩ := List.mem_flatten.mp hd
  obtain ⟨r, hr, hstep⟩ := KeyedList.mapM_mem hmissing found hfound
  split at hstep
  · obtain ⟨hne, hpre, habsent⟩ := missingAbove_mem hstep hd
    rw [h.paths r hr] at hpre
    have hnil : r.originalState.path ≠ [] := by
      intro hnil
      exact h.not_control hr (by rw [hnil]; exact List.nil_prefix)
    refine ⟨hne, ?_, r, hr, hpre.trans (List.dropLast_prefix _), ?_⟩
    · rintro rfl
      obtain ⟨m, hm⟩ := hs.control
      simp [DirTree.exists, hm] at habsent
    · rintro rfl
      have hlen := hpre.length_le
      have hparent := congrArg List.length (parent_append_name hnil)
      rw [List.length_append, List.length_singleton] at hparent
      omega
  · obtain rfl := Except.ok.inj hstep
    cases hd

theorem Fresh.stage (hs : Fresh host (plan.journal records []) base s) (hentered : Entered s)
    (created : List Path) : In (Stage host (plan.journal records created) base base) s :=
  ⟨hentered, ⟨hs.standing.ways, hs.standing.sides, hs.standing.manifest, hs.standing.committed⟩,
    hs.manifest, Or.inl hs.journal⟩

/-- Under the locks: an apply that returns has committed everything. -/
theorem applyLocked_inv (h : Ready host plan context records s₀) (scanner : Scanner)
    (hs : Fresh host (plan.journal records []) (s₀.get manifestPath) s) (hentered : Entered s) :
    Triple (· = s) (applyLocked host plan context scanner)
      (Ends (fun r t => r.committed = true ∧ ∃ created, Sound host (plan.journal records created) ∧
        In (Over host (plan.journal records created) (s₀.get manifestPath)
          (manifestNode host (plan.journal records created))) t)
        (RunInv host plan records (s₀.get manifestPath)))
      (RunInv host plan records (s₀.get manifestPath)) := by
  have hnow : RunInv host plan records (s₀.get manifestPath) s := ⟨[], h.sound, hs.inv⟩
  unfold applyLocked
  refine Triple.inspect_bind_ends hnow fun _ _ => ?_
  refine Triple.lift_bind_ends hnow fun records' hrecords => ?_
  rw [h.planned] at hrecords
  obtain rfl := Except.ok.inj hrecords
  refine Triple.inspect_bind_ends hnow fun created hcreated => ?_
  have hsound := createdDirectories_sound h.sound hentered hcreated
  have hbase : s₀.get manifestPath ≠ manifestNode host (plan.journal records created) := by
    intro heq
    exact h.uncommitted (manifestCommitted_node h.sound heq)
  have hseen : Seen (plan.journal records created) (Stage host (plan.journal records created)
      (s₀.get manifestPath) (s₀.get manifestPath)) := (stage_blind hsound).seen
  have hinv : ∀ {t}, Inv host (plan.journal records created) (s₀.get manifestPath) t →
      RunInv host plan records (s₀.get manifestPath) t := fun ht => ⟨created, hsound, ht⟩
  refine Triple.weaken (P := In (Stage host (plan.journal records created) (s₀.get manifestPath)
      (s₀.get manifestPath)))
    (Q := Ends (fun r => fun t => r.committed = true ∧
      In (Over host (plan.journal records created) (s₀.get manifestPath)
        (manifestNode host (plan.journal records created))) t)
      (Inv host (plan.journal records created) (s₀.get manifestPath))) ?_ ?_ ?_ fun _ => hinv
  · refine (prepareTransaction_stage hsound h.named).bind_ends fun ⟨j₁, records₁⟩ =>
      Triple.of_forall ?_
    rintro t ⟨⟨hj₁, hrecords₁⟩, ht⟩
    refine Triple.pre (P := In (Stage host (plan.journal records created) (s₀.get manifestPath)
      (s₀.get manifestPath))) ?_ ?_
    · refine recordPhase_next hsound hj₁ hrecords₁ (by decide) fun j₂ hj₂ => ?_
      refine (applyFileRecords_done hsound hbase hrecords₁).bind_ends fun records₂ =>
        Triple.of_forall ?_
      rintro u ⟨hrecords₂, hu⟩
      refine Triple.pre (P := In fun s => Stage host (plan.journal records created)
        (s₀.get manifestPath) (s₀.get manifestPath) s ∧
          AllAt host (plan.journal records created) (·.candidateState) s) ?_ ?_
      · refine recordPhase_bind hsound hj₂ hrecords₂ (by decide) (files_blind hsound _)
          fun j₃ hj₃ => ?_
        refine (guard_same (requireSameTaskState_same _ _) (hseen.and (allAt_seen _)) fun s hs =>
          Stage.inv (hs.mono And.left)).bind_ends fun _ => ?_
        refine (commitManifest_stage hsound _ _ _).bind_ends fun _ => ?_
        refine (finishTransaction_over hsound hj₃ hrecords₂
          (removeMaintenance_unmarks hsound plan.marker)).bind_ends fun _ => ?_
        exact Triple.of_forall fun v hv => Triple.returns_ends ⟨rfl, hv⟩
      · rintro v rfl
        exact hu
    · rintro u rfl
      exact ht
  · rintro t rfl
    exact hs.stage hentered created
  · intro o t ht
    cases o with
    | ok r => exact ⟨ht.1, created, hsound, ht.2⟩
    | error e => exact hinv ht

/-- An apply keeps the transaction recoverable, and one that commits has committed everything. -/
theorem applyPlan_inv (h : Ready host plan context records s₀) :
    Triple (· = s₀) (applyPlan host plan context)
      (Ends (fun r t => RunInv host plan records (s₀.get manifestPath) t ∧
        (r.committed = true → ∃ created, Sound host (plan.journal records created) ∧
          In (Over host (plan.journal records created) (s₀.get manifestPath)
            (manifestNode host (plan.journal records created))) t))
        (RunInv host plan records (s₀.get manifestPath)))
      (RunInv host plan records (s₀.get manifestPath)) := by
  have hfresh := h.fresh_stage
  have hrun : ∀ {t}, Fresh host (plan.journal records []) (s₀.get manifestPath) t →
      RunInv host plan records (s₀.get manifestPath) t := fun ht => ⟨[], h.sound, ht.inv⟩
  unfold applyPlan
  refine Triple.lift_bind_ends (hrun hfresh) fun _ _ => ?_
  refine Triple.lift_bind_ends (hrun hfresh) fun _ _ => ?_
  split
  next => exact Triple.returns_ends ⟨hrun hfresh, fun hcommitted => by cases hcommitted⟩
  next =>
    refine Triple.lift_bind_ends (hrun hfresh) fun scanner _ => ?_
    refine Triple.lift_bind_ends (hrun hfresh) fun _ _ => ?_
    refine Triple.lift_bind_ends (hrun hfresh) fun _ _ => ?_
    refine Triple.lift_bind_ends (hrun hfresh) fun _ _ => ?_
    have hcalm := lifecycleLocks_calm h.sound plan.operation "init apply lacks bootstrap lock root"
      context.bootstrapLock
    have hlocks : Triple (· = s₀) (lifecycleLocks host plan.operation
        "init apply lacks bootstrap lock root" context.bootstrapLock)
        (Ends (fun _ t => Fresh host (plan.journal records []) (s₀.get manifestPath) t ∧ Entered t)
          (RunInv host plan records (s₀.get manifestPath)))
        (RunInv host plan records (s₀.get manifestPath)) := by
      rintro s rfl
      refine ⟨fun c hc => hrun (hfresh.calm h.sound (hcalm s c hc)), ?_⟩
      have hend := hfresh.calm h.sound (hcalm.final s)
      cases hout : (lifecycleLocks host plan.operation "init apply lacks bootstrap lock root"
        context.bootstrapLock).out s with
      | error e => exact hrun hend
      | ok a => exact ⟨hend, hend.shape, lifecycleLocks_control hout hend.shape⟩
    refine hlocks.bind_ends fun _ => Triple.of_forall ?_
    rintro t ⟨ht, hentered⟩
    refine (applyLocked_inv h scanner ht hentered).ends_weaken ?_ fun _ h => h
    rintro r u ⟨-, created, hsound, hu⟩
    exact ⟨⟨created, hsound, Over.inv hu⟩, fun _ => ⟨created, hsound, hu⟩⟩

/-- The trees recoveries can leave, each of them stopped anywhere. -/
inductive Recovers (host : LifecycleHost) (plan : SavedPlan) (s : FS) : FS → Prop
  | start : Recovers host plan s s
  | recover {t u : FS} (action : RecoveryAction) (context : RecoveryContext) :
    Recovers host plan s t →
    u ∈ (recoverTransaction host plan.transactionId action context).states t →
    Recovers host plan s u

/-- The trees after an apply and recoveries, each of them stopped anywhere. -/
def Reached (host : LifecycleHost) (plan : SavedPlan) (context : ApplyContext) (s₀ s : FS) : Prop :=
  ∃ t ∈ (applyPlan host plan context).states s₀, Recovers host plan t s

theorem Ready.uncommitted_base (h : Ready host plan context records s₀) (created : List Path) :
    Uncommitted host (plan.journal records created) (s₀.get manifestPath) := by
  intro s hs hcommitted
  refine h.uncommitted ?_
  rw [← hcommitted]
  unfold manifestCommitted
  rw [hs]
  rfl

theorem Ready.recover_inv (h : Ready host plan context records s₀) (action : RecoveryAction)
    (recovery : RecoveryContext) {created : List Path}
    (hsound : Sound host (plan.journal records created)) :
    Triple (Inv host (plan.journal records created) (s₀.get manifestPath))
      (recoverTransaction host plan.transactionId action recovery)
      (Ends (Outcome host (plan.journal records created) (s₀.get manifestPath))
        (Inv host (plan.journal records created) (s₀.get manifestPath)))
      (Inv host (plan.journal records created) (s₀.get manifestPath)) := by
  have hid : (plan.journal records created).header.transactionId = plan.transactionId := h.named
  rw [← hid]
  exact recoverTransaction_inv hsound (h.uncommitted_base created) action recovery

theorem Reached.inv (h : Ready host plan context records s₀)
    (hs : Reached host plan context s₀ s) : RunInv host plan records (s₀.get manifestPath) s := by
  obtain ⟨t, ht, hs⟩ := hs
  induction hs with
  | start =>
    have hnow : RunInv host plan records (s₀.get manifestPath) s₀ :=
      ⟨[], h.sound, h.fresh_stage.inv⟩
    exact (applyPlan_inv h).states rfl hnow ht
  | recover action recovery _ hu ih =>
    obtain ⟨created, hsound, hinv⟩ := ih
    exact ⟨created, hsound, (h.recover_inv action recovery hsound).states hinv hinv hu⟩

end AgentStack.Reconcile.Lifecycle
