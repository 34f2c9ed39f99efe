import AgentStack.Runtime.StagingSteps

/-! The queueing of a transaction's outbox effects. -/
namespace AgentStack.Runtime

open AgentStack.Core FileTree Crash Reconcile

variable {host : Host} {L : Layout} {v : View} {s c : FS}

abbrev Items := String → Option (Node Content)

def View.setOutbox (v : View) (items : Items) : View := { v with outbox := items }

@[simp] theorem View.setOutbox_outbox (v : View) (items : Items) :
    (v.setOutbox items).outbox = items := rfl

/-- What the effects of one transaction have in common. -/
structure EffectContext where
  operation : String
  taskId : String
  transactionId : String
  createdAt : Time

structure EffectContext.Valid (x : EffectContext) : Prop where
  operation : isToken x.operation
  taskId : isUuid x.taskId
  transactionId : isUuid x.transactionId

structure OutboxEffect.Valid (e : OutboxEffect) : Prop where
  effectKind : isToken e.effectKind
  handlerId : isToken e.handlerId
  handlerVersion : isToken e.handlerVersion

variable {x : EffectContext} {e : OutboxEffect}

def EffectContext.document (host : Host) (x : EffectContext) (e : OutboxEffect) :
    OutboxDocument :=
  effectDocument host x.operation x.taskId x.transactionId e x.createdAt

def EffectContext.item (host : Host) (x : EffectContext) (e : OutboxEffect) : Node Content :=
  .file (.outboxItem (x.document host e)) 0o600

def EffectContext.itemName (host : Host) (x : EffectContext) (e : OutboxEffect) : String :=
  (x.document host e).effectId ++ ".json"

/-- The outbox with an item for each effect. -/
def EffectContext.queued (host : Host) (x : EffectContext) (effects : List OutboxEffect)
    (items : Items) : Items := fun n =>
  match effects.find? fun e => x.itemName host e = n with
  | some e => some (x.item host e)
  | none => items n

/-- Distinct effects have distinct identities. -/
def EffectContext.Separate (host : Host) (x : EffectContext) (effects : List OutboxEffect) :
    Prop :=
  ∀ a ∈ effects, ∀ b ∈ effects, x.itemName host a = x.itemName host b →
    x.document host a = x.document host b

/-- Every slot is as it was, or holds its effect's item. -/
def EffectContext.PartQueued (host : Host) (x : EffectContext) (effects : List OutboxEffect)
    (items items' : Items) : Prop :=
  ∀ n, items' n = items n ∨ items' n = x.queued host effects items n

theorem EffectContext.PartQueued.queued_eq {effects : List OutboxEffect} {items items' : Items}
    (h : x.PartQueued host effects items items') :
    x.queued host effects items' = x.queued host effects items := by
  funext n
  unfold EffectContext.queued
  rcases hf : effects.find? fun e => x.itemName host e = n with _ | e
  · rcases h n with he | he
    · exact he
    · rw [he, EffectContext.queued, hf]
  · rfl

theorem EffectContext.PartQueued.refl (effects : List OutboxEffect) (items : Items) :
    x.PartQueued host effects items items := fun _ => .inl rfl

theorem EffectContext.PartQueued.trans {effects : List OutboxEffect} {a b c : Items}
    (h : x.PartQueued host effects a b) (h' : x.PartQueued host effects b c) :
    x.PartQueued host effects a c := by
  intro n
  rcases h' n with he | he
  · rw [he]
    exact h n
  · rw [h.queued_eq] at he
    exact .inr he

theorem EffectContext.queued_of_mem {effects : List OutboxEffect}
    (hsep : x.Separate host effects) (he : e ∈ effects) (items : Items) :
    x.queued host effects items (x.itemName host e) = some (x.item host e) := by
  unfold EffectContext.queued
  rcases hf : effects.find? fun b => x.itemName host b = x.itemName host e with _ | b
  · have := List.find?_eq_none.mp hf e he
    simp at this
  · have hb := List.find?_some hf
    simp only [EffectContext.item, hsep b (List.mem_of_find?_eq_some hf) e he (by simpa using hb)]

theorem EffectContext.queued_of_not_mem {effects : List OutboxEffect} {n : String}
    (h : ∀ e ∈ effects, x.itemName host e ≠ n) (items : Items) :
    x.queued host effects items n = items n := by
  unfold EffectContext.queued
  rw [List.find?_eq_none.mpr fun e he => by simpa using h e he]

theorem itemName_not_reserved : ¬ Reserved (x.itemName host e) := by
  intro h
  have hd := host.sha256_isDigest (.outboxEffect (x.document host e).identity)
  have hid : (x.document host e).effectId =
    host.sha256 (.outboxEffect (x.document host e).identity) := rfl
  rw [← hid] at hd
  unfold isDigest at hd
  simp only [JsonText.charsOf_eq, Bool.and_eq_true, decide_eq_true_eq, List.all_eq_true] at hd
  obtain ⟨a, l, hl⟩ := List.exists_cons_of_ne_nil
    (show (x.document host e).effectId.toList ≠ [] by
      intro hn
      rw [hn] at hd
      simp at hd)
  have ha := hd.2 a (by rw [hl]; exact List.mem_cons_self)
  rw [Reserved, EffectContext.itemName, String.toList_append, hl] at h
  obtain ⟨rfl, -⟩ : '.' = a ∧ "awp-cas-".toList <+: l ++ ".json".toList := by
    simpa [casPrefix] using h
  revert ha
  decide

theorem outboxUuid_ok {value field : String} (h : isUuid value) : outboxUuid value field = .ok () := by
  have h : parseUuid value = some value := by simpa [isUuid] using h
  simp [outboxUuid, h]

theorem outboxToken_ok {value field : String} (h : isToken value) :
    outboxToken value field = .ok () := if_pos h

theorem outboxDigest_sha256 (y : Preimage) (field : String) :
    outboxDigest (host.sha256 y) field = .ok () := if_pos (host.sha256_isDigest y)

theorem validateOutboxItem_document (hx : x.Valid) (he : e.Valid) :
    validateOutboxItem host (x.document host e) (x.document host e).effectId = .ok () := by
  have hdel : checkDelivery (x.document host e).effectId (x.document host e).delivery = .ok () := by
    simp [checkDelivery, EffectContext.document, effectDocument]
  unfold validateOutboxItem
  rw [if_neg (not_not_intro rfl), hdel]
  simp only [EffectContext.document, effectDocument, effectIdentity, outboxUuid_ok hx.taskId,
    outboxUuid_ok hx.transactionId, outboxToken_ok hx.operation, outboxToken_ok he.effectKind,
    outboxToken_ok he.handlerId, outboxToken_ok he.handlerVersion, outboxDigest_sha256,
    bind_ok_eq, ne_eq, not_true_eq_false, if_false]

theorem Shows.extends_outbox (h : Shows host L v s) {m : FileTree.Mode}
    (he : s.Extends m outboxRoot c) : Shows host L v c := by
  have hst : StagingShows L.transactionId v.staging c := by
    refine h.staging.congr fun r => he.get_of_not_prefix ?_
    rintro ⟨t, ht⟩
    simp [stagingRoot, outboxRoot] at ht
  have := h.extends he (fun q hq => ?_) ?_ hst
  · exact this
  · have hin := (List.mem_inits _ _).mpr hq
    have : q = [] ∨ q = controlDir ∨ q = localDir ∨ q = outboxRoot := by
      simpa [outboxRoot, controlDir, localDir] using hin
    rcases this with rfl | rfl | rfl | rfl
    · exact .inr (.inl Layout.region_root)
    · exact .inl (Layout.region_control (by simp))
    · exact .inl (Layout.region_control (by simp))
    · exact .inl (Layout.region_control (by simp))
  · rintro ⟨t, ht⟩
    simp [maintenancePath, outboxRoot] at ht

theorem enqueueEffect_spec (h : Shows host L v s) (hx : x.Valid) (he : e.Valid)
    (hslot : v.outbox (x.itemName host e) = none ∨
      v.outbox (x.itemName host e) = some (x.item host e)) :
    Triple (· = s) (enqueueEffect host x.operation x.taskId x.transactionId e x.createdAt)
      (Returns fun _ => Shows host L (v.setOutbox
        (Function.update v.outbox (x.itemName host e) (some (x.item host e)))))
      fun c => Shows host L v c ∨ Shows host L (v.setOutbox
        (Function.update v.outbox (x.itemName host e) (some (x.item host e)))) c := by
  have hclear : s.Clear outboxRoot := by
    refine ⟨h.skeleton.root, fun q hq => ?_⟩
    have hin := (List.mem_inits _ _).mpr hq
    have : q = [] ∨ q = controlDir ∨ q = localDir ∨ q = outboxRoot := by
      simpa [outboxRoot, controlDir, localDir] using hin
    rcases this with rfl | rfl | rfl | rfl
    · exact .inr h.skeleton.root
    · exact .inr h.skeleton.control
    · exact .inr h.skeleton.locals
    · exact h.skeleton.outbox
  have hlink : s.isSymlink outboxRoot = false := by
    rcases h.skeleton.outbox with hn | hd
    · simp [DirTree.isSymlink, hn]
    · exact DirTree.not_isSymlink_of_realDir hd
  have hdoc : effectDocument host x.operation x.taskId x.transactionId e x.createdAt =
    x.document host e := rfl
  have hdigest : outboxDigest (x.document host e).effectId "effect_id" = .ok () :=
    outboxDigest_sha256 _ _
  unfold enqueueEffect
  simp only [hdoc]
  refine Triple.bind_run (by rw [Program.lift_run, outboxToken_ok hx.operation]) ?_
  refine Triple.bind_run (by rw [Program.lift_run, outboxUuid_ok hx.taskId]) ?_
  refine Triple.bind_run (by rw [Program.lift_run, outboxUuid_ok hx.transactionId]) ?_
  refine Triple.bind_run (by rw [Program.lift_run, outboxToken_ok he.effectKind]) ?_
  refine Triple.bind_run (by rw [Program.lift_run, outboxToken_ok he.handlerId]) ?_
  refine Triple.bind_run (by rw [Program.lift_run, outboxToken_ok he.handlerVersion]) ?_
  refine Triple.bind_run (by rw [Program.lift_run, hdigest]) ?_
  refine Triple.bind_run (Program.read_run _ _) ?_
  rw [hlink]
  simp only [Bool.false_eq_true, if_false]
  refine ((DirTree.mkdirs_spec hclear).crash fun c hc => .inl (h.extends_outbox hc)).bind_returns
    fun _ => Triple.of_forall ?_
  rintro t ⟨hext, hreach⟩
  have ht := h.extends_outbox hext
  have hroot := hreach _ List.prefix_rfl
  have hpar : parent (outboxPath (x.document host e).effectId) = outboxRoot := parent_append _ _
  have hget : t.get (outboxPath (x.document host e).effectId) = v.outbox (x.itemName host e) :=
    ht.outbox _ itemName_not_reserved
  have hobs : observeFileState host (outboxPath (x.document host e).effectId) none t =
      describe host (outboxPath (x.document host e).effectId) none
        (v.outbox (x.itemName host e)) := by
    rw [observeFileState_eq host (by rw [hpar]; exact hreach.clear), hget]
  refine Triple.bind_run (Program.read_run _ _) ?_
  rw [DirTree.not_isSymlink_of_realDir hroot, DirTree.isDir_of_realDir hroot]
  simp only [Bool.not_false, Bool.and_self, Bool.not_true, Bool.false_eq_true, if_false]
  rcases hslot with hn | hs
  · -- a new item
    rw [hn] at hobs
    refine Triple.bind_run (by rw [Program.inspect_run, hobs]; rfl) ?_
    simp only [absentState, Bool.false_eq_true, if_false]
    have hdone : ∀ u : FS, u.get = Function.update t.get (outboxPath (x.document host e).effectId)
        (some (x.item host e)) → Shows host L (v.setOutbox
          (Function.update v.outbox (x.itemName host e) (some (x.item host e)))) u := by
      intro u hu
      refine ht.outbox_step (fun q hq => ?_) fun n hn => ?_
      · rw [hu, Function.update_of_ne]
        rintro rfl
        exact hq (Layout.region_outbox _)
      · rw [hu]
        by_cases hne : n = x.itemName host e
        · subst hne
          rw [Function.update_self, outboxPath, EffectContext.itemName, Function.update_self]
        · rw [Function.update_of_ne hne, Function.update_of_ne, ht.outbox n hn]
          intro hp
          exact hne (by simpa [outboxPath, EffectContext.itemName] using hp)
    have hcas := @compareAndSwap_spec host t
      (absentState (outboxPath (x.document host e).effectId) none) _ _ _
      (.regular (outboxPath (x.document host e).effectId) (.outboxItem (x.document host e))
        0o600 none) rfl (by simp [regularState, outboxPath])
      (by
        rintro ⟨y, -, -, hy⟩
        have hy' : outboxPath (x.document host e).effectId =
          parent (outboxPath (x.document host e).effectId) ++ [casPrefix ++ y] := hy
        rw [hpar, outboxPath, List.append_cancel_left_eq, List.cons.injEq] at hy'
        refine @itemName_not_reserved host x e ?_
        rw [EffectContext.itemName, hy'.1]
        exact Layout.reserved_append y)
      (by
        change t.Clear (parent (outboxPath (x.document host e).effectId))
        rw [hpar]
        exact hreach.clear)
      (fun _ => by
        change t.realDir (parent (outboxPath (x.document host e).effectId))
        rw [hpar]
        exact hroot)
      (by
        change describe host (outboxPath (x.document host e).effectId) none
          (t.get (outboxPath (x.document host e).effectId)) = _
        rw [hget, hn]
        rfl) (by simp [absentState])
    refine Triple.bind_returns (Triple.mapError _ ((hcas.crash fun c hc => ?_).ignore
      (S := fun _ => Shows host L (v.setOutbox
        (Function.update v.outbox (x.itemName host e) (some (x.item host e)))))
      fun _ u hu => hdone u hu.2)) fun _ => Triple.of_forall fun u hu => ?_
    · cases hc with
      | temp hT habs hneq hg =>
        change DirTree.IsTemp casPrefix (parent (outboxPath (x.document host e).effectId)) _ at hT
        rw [hpar] at hT
        obtain ⟨y, -, -, rfl⟩ := hT
        have hitems : OutboxShows v.outbox c := by
          intro n hn
          rw [hg, Function.update_of_ne, ht.outbox n hn]
          intro hp
          have : n = casPrefix ++ y := by simpa using hp
          exact hn (this ▸ Layout.reserved_append y)
        refine .inl (ht.outbox_step (fun q hq => ?_) hitems)
        rw [hg, Function.update_of_ne]
        rintro rfl
        exact hq (Layout.region_outbox _)
      | done hg => exact .inr (hdone c hg)
    · refine Triple.bind_run (by rw [Program.lift_run, validateOutboxItem_document hx he]) ?_
      exact Triple.returns hu
  · -- the item is there
    rw [hs] at hobs hget
    refine Triple.bind_run (by rw [Program.inspect_run, hobs]; rfl) ?_
    simp only [regularState, if_true]
    have hread : readOutboxItem host (x.document host e).effectId t = .ok (x.document host e,
        regularState (outboxPath (x.document host e).effectId)
          (host.hashBytes (.outboxItem (x.document host e))) 0o600 none) := by
      have hd : describe host (outboxPath (x.document host e).effectId) none
          (some (x.item host e)) = .ok (regularState (outboxPath (x.document host e).effectId)
            (host.hashBytes (.outboxItem (x.document host e))) 0o600 none) := rfl
      unfold readOutboxItem
      rw [hobs.trans hd]
      simp only [hdigest, bind_ok_eq, regularState, not_true_eq_false, ne_eq, or_self, if_false,
        hget, EffectContext.item, validateOutboxItem_document hx he, pure_eq_ok]
    refine Triple.bind_run (by rw [Program.inspect_run, hread]) ?_
    simp only [ne_eq, not_true_eq_false, if_false]
    refine Triple.returns ?_
    rw [← hs, Function.update_eq_self]
    exact ht

/-- Queueing from any part of the way ends with every item there. -/
theorem enqueueHeaderEffects_spec {effects : List OutboxEffect} {items : Items}
    (h : Shows host L v s) (hx : x.Valid) (heff : ∀ e ∈ effects, e.Valid)
    (hsep : x.Separate host effects)
    (hfree : ∀ e ∈ effects, items (x.itemName host e) = none)
    (hpart : x.PartQueued host effects items v.outbox) :
    Triple (· = s) (enqueueHeaderEffects host effects x.taskId x.transactionId x.operation
        x.createdAt)
      (Returns fun _ => Shows host L (v.setOutbox (x.queued host effects items)))
      fun c => ∃ items', x.PartQueued host effects items items' ∧
        Shows host L (v.setOutbox items') c := by
  let I : List OutboxEffect → FS → Prop := fun rest t =>
    ∃ items', Shows host L (v.setOutbox items') t ∧ x.PartQueued host effects items items' ∧
      ∀ n, items' n ≠ x.queued host effects items n → ∃ e ∈ rest, x.itemName host e = n
  have hslot : ∀ items', x.PartQueued host effects items items' → ∀ e ∈ effects,
      items' (x.itemName host e) = none ∨ items' (x.itemName host e) = some (x.item host e) := by
    intro items' hp e he
    rcases hp (x.itemName host e) with hi | hi
    · exact .inl (hi.trans (hfree e he))
    · exact .inr (hi.trans (EffectContext.queued_of_mem hsep he items))
  have hupdate : ∀ items', x.PartQueued host effects items items' → ∀ e ∈ effects,
      x.PartQueued host effects items
        (Function.update items' (x.itemName host e) (some (x.item host e))) := by
    intro items' hp e he n
    by_cases hn : n = x.itemName host e
    · subst hn
      rw [Function.update_self]
      exact .inr (EffectContext.queued_of_mem hsep he items).symm
    · rw [Function.update_of_ne hn]
      exact hp n
  have hstart : I effects s := by
    refine ⟨v.outbox, h, hpart, fun n hn => ?_⟩
    by_contra hno
    push Not at hno
    refine hn ?_
    rcases hpart n with hi | hi
    · rw [hi, EffectContext.queued_of_not_mem hno]
    · exact hi
  have hloop : Triple (I effects) (enqueueHeaderEffects host effects x.taskId x.transactionId
      x.operation x.createdAt) (Returns fun _ => I [])
      fun c => ∃ items', x.PartQueued host effects items items' ∧
        Shows host L (v.setOutbox items') c := by
    refine Triple.each I effects fun e rest ⟨before, hb⟩ =>
      Triple.of_forall fun t ⟨items', ht, hp, hrest⟩ => ?_
    have he : e ∈ effects := hb ▸ by simp
    refine ((enqueueEffect_spec ht hx (heff e he) (hslot items' hp e he)).crash ?_).ignore
      fun _ u hu => ?_
    · rintro c (hc | hc)
      · exact ⟨items', hp, hc⟩
      · exact ⟨_, hupdate items' hp e he, hc⟩
    · refine ⟨_, hu, hupdate items' hp e he, fun n hn => ?_⟩
      by_cases hne : n = x.itemName host e
      · subst hne
        rw [View.setOutbox_outbox, Function.update_self] at hn
        exact absurd (EffectContext.queued_of_mem hsep he items).symm hn
      · rw [View.setOutbox_outbox, Function.update_of_ne hne] at hn
        obtain ⟨b, hb, hbn⟩ := hrest n hn
        rcases List.mem_cons.mp hb with rfl | hb
        · exact absurd hbn.symm hne
        · exact ⟨b, hb, hbn⟩
  refine (hloop.pre fun t ht => by rw [ht]; exact hstart).post ?_
  rintro o t ⟨a, ho, items', hs, -, hall⟩
  refine ⟨a, ho, ?_⟩
  have heq : items' = x.queued host effects items := by
    funext n
    by_contra hn
    obtain ⟨e, he, -⟩ := hall n hn
    cases he
  rwa [heq] at hs

end AgentStack.Runtime
