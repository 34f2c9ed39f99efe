import AgentStack.Runtime.AdmissionRollback

/-! The commit of an admission: what it comes after, whatever was cut short and resumed. -/
namespace AgentStack.Runtime

open AgentStack.Core FileTree Crash Reconcile

variable {host : Host} {L : Layout} {header : AdmissionHeader} {v₀ v v' : View} {s c : FS}

/-- Every task file of the admission is in the tree. -/
def Laid (header : AdmissionHeader) (t : Subtree) : Prop :=
  ∀ item ∈ header.taskFiles, t item.path = some (fileNode item)

/-- An integration follows the task files, the active one all else. -/
structure Founded (host : Host) (header : AdmissionHeader) (v : View) : Prop where
  staged : v.journal.phase ∈ [.planned, .staged] → ∀ t, v.staging = stagingOf host t →
    t [integrationName] ≠ none → Laid header t
  tree : v.place header.tree [integrationName] ≠ none → Laid header (v.place header.tree)
  active : v.place header.tree [integrationName] = some (integrationNode header.activeIntegration) →
    v.journal.phase ∉ [.planned, .staged, .taskMoved]

theorem Laid.update {t : Subtree} {r : Path} {n : Option (Node Content)} (h : Laid header t)
    (hr : ∀ item ∈ header.taskFiles, item.path ≠ r) : Laid header (Function.update t r n) := by
  intro item hi
  rw [Function.update_of_ne (hr item hi), h item hi]

variable (A : Admission host L header v₀)

include A in
theorem Admission.path_ne_integration {item : FileDocument} (hi : item ∈ header.taskFiles) :
    item.path ≠ [integrationName] := by
  intro he
  refine (A.files item hi).head ?_
  rw [he]
  rfl

include A in
theorem Admission.admitting_ne_active : integrationNode header.admittingIntegration ≠
    integrationNode header.activeIntegration := by
  intro he
  simp only [integrationNode, Node.file.injEq, Content.integration.injEq, and_true] at he
  exact A.separate (by rw [he])

include A in
/-- Staged without one file over another, the whole tree has every file. -/
theorem Admission.staged_laid (hfree : FreeAll host (bareTree host) header.taskFiles) :
    Laid header (header.staged host) := by
  have hlaid : Laid header (withFiles host header.taskFiles (bareTree host)) :=
    fun item hi => hfree.mem hi
  exact hlaid.update fun item hi => A.path_ne_integration hi

include A in
theorem Admission.founded : Founded host header v₀ where
  staged _ t ht _ := by
    have := congrFun (A.unstaged.symm.trans ht) []
    cases this
  tree hn := by
    rw [A.absent] at hn
    exact absurd rfl hn
  active ha := by
    rw [A.absent] at ha
    cases ha

/-- Away from the early phases the staging area does not matter. -/
private theorem Founded.of_places (F : Founded host header v)
    (hplace : v'.place header.tree = v.place header.tree)
    (hphase : v'.journal.phase ∉ [.planned, .staged])
    (hlate : v.journal.phase ∉ [.planned, .staged, .taskMoved] →
      v'.journal.phase ∉ [.planned, .staged, .taskMoved]) : Founded host header v' where
  staged h := absurd h hphase
  tree := by
    rw [hplace]
    exact F.tree
  active := by
    rw [hplace]
    exact fun ha => hlate (F.active ha)

include A in
private theorem Founded.arrived (I : AdmissionView host L header v₀ v)
    (F : Founded host header v) (hphase : v.journal.phase = .staged) {t : Subtree}
    (hst : v.staging = stagingOf host t) :
    Founded host header (v.arrived host header t) ∧
      (v.arrived host header t).place header.tree [integrationName] ≠
        some (integrationNode header.activeIntegration) := by
  have hplace : (v.arrived host header t).place header.tree = t :=
    View.setPlace_place_self (v.reach header.tree) header.tree t
  have hinactive : t [integrationName] ≠ some (integrationNode header.activeIntegration) := by
    intro ha
    rcases (I.staging_tree hst).2 with hn | hn
    · rw [hn] at ha
      cases ha
    · exact A.admitting_ne_active (Option.some.inj (hn.symm.trans ha))
  refine ⟨⟨fun _ u hu hn => ?_, fun hn => ?_, fun ha => ?_⟩, by rwa [hplace]⟩
  · have hu' : stagingOf host noTree = stagingOf host u := hu
    rw [← stagingOf_injective hu'] at hn
    exact absurd rfl hn
  · rw [hplace] at hn ⊢
    exact F.staged (by rw [hphase]; decide) t hst hn
  · rw [hplace] at ha
    exact absurd ha hinactive

include A in
private theorem Founded.withIntegration (F : Founded host header v)
    (hphase : v.journal.phase = .metadataApplied)
    (hint : v.place header.tree [integrationName] ≠ none) :
    Founded host header (v.setPlace header.tree
      (withIntegration (v.place header.tree) header.activeIntegration)) := by
  refine ⟨fun h => ?_, fun _ => ?_, fun _ => ?_⟩
  · rw [View.setPlace_journal, hphase] at h
    exact absurd h (by decide)
  · rw [View.setPlace_place_self]
    exact (F.tree hint).update fun item hi => A.path_ne_integration hi
  · rw [View.setPlace_journal, hphase]
    decide

include A in
theorem Founded.next (I : AdmissionView host L header v₀ v) (F : Founded host header v)
    (h : AdmissionNext host L header v₀ v v') : Founded host header v' := by
  cases h with
  | staged phase free =>
    refine ⟨fun _ t ht hn => ?_, F.tree, fun ha => ?_⟩
    · change v.stagedArea host header = stagingOf host t at ht
      unfold View.stagedArea at ht
      split at ht
      · exact F.staged (by rw [phase]; decide) t ht hn
      · next hnone =>
        rw [← stagingOf_injective ht]
        exact A.staged_laid (free (by simpa using hnone))
    · exact absurd (F.active ha) (by rw [phase]; decide)
  | @moved t m phase absent staging dir =>
    obtain ⟨hF, hna⟩ := F.arrived A I phase staging
    exact ⟨fun h => absurd h (by decide : Phase.taskMoved ∉ [.planned, .staged]), hF.tree,
      fun ha => absurd ha hna⟩
  | stands phase present =>
    refine ⟨fun h => absurd h (by decide : Phase.taskMoved ∉ [.planned, .staged]), F.tree,
      fun ha => ?_⟩
    exact absurd (F.active ha) (by rw [phase]; decide)
  | applied phase off candidate =>
    exact F.of_places (off _ A.outside) (by decide : Phase.metadataApplied ∉ [.planned, .staged])
      fun _ => (by decide : Phase.metadataApplied ∉ [.planned, .staged, .taskMoved])
  | activated phase integration =>
    exact (F.withIntegration A phase integration).of_places rfl
      (by decide : Phase.admissionCommitted ∉ [.planned, .staged])
      fun _ => (by decide : Phase.admissionCommitted ∉ [.planned, .staged, .taskMoved])
  | pending phase =>
    exact F.of_places rfl (by decide : Phase.cleanupPending ∉ [.planned, .staged])
      fun _ => (by decide : Phase.cleanupPending ∉ [.planned, .staged, .taskMoved])
  | complete phase =>
    exact F.of_places rfl (by decide : Phase.complete ∉ [.planned, .staged])
      fun _ => (by decide : Phase.complete ∉ [.planned, .staged, .taskMoved])

include A in
theorem Founded.run (I : AdmissionView host L header v₀ v) (F : Founded host header v)
    (h : AdmissionRun host L header v₀ v v') : Founded host header v' := by
  induction h with
  | refl => exact F
  | tail hrun hn ih => exact ih.next A (I.run A hrun) hn

theorem Founded.withResidue (F : Founded host header v) (b : Bool) :
    Founded host header { v with residue := b } := ⟨F.staged, F.tree, F.active⟩

/-- What crashes and resumes leave of an admission. -/
structure Resumed (host : Host) (L : Layout) (header : AdmissionHeader) (v₀ v : View) : Prop where
  view : AdmissionView host L header v₀ v
  founded : Founded host header v
  forward : Forward host L header v₀ v.journal.phase v

theorem Resumed.withResidue (R : Resumed host L header v₀ v) (b : Bool) :
    Resumed host L header v₀ { v with residue := b } :=
  ⟨R.view.withResidue b, R.founded.withResidue b, R.forward.withResidue b⟩

end AgentStack.Runtime
