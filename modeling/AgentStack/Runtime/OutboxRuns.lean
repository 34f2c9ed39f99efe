import AgentStack.Runtime.OutboxSteps
import AgentStack.Runtime.Watched
import AgentStack.SampleHost
import Mathlib.Logic.Relation

/-! The outbox under enqueues and deliveries in any order, each of which may be cut short. -/
namespace AgentStack.Runtime

open AgentStack.Core FileTree Crash Reconcile DirTree

variable {host : Host} {s t u : FS} {d d' : OutboxDocument} {effectId : String}

def ItemPath (q : Path) : Prop := ∃ effectId, isDigest effectId = true ∧ q = outboxPath effectId

/-- The node an item is stored as. -/
def OutboxDocument.node (d : OutboxDocument) : Node Content := .file (.outboxItem d) 0o600

def itemState (host : Host) (effectId : String) (d : OutboxDocument) : FileState :=
  regularState (outboxPath effectId) (host.hashBytes (.outboxItem d)) 0o600 none

/-- The outbox holds `d` under its id, and a reader accepts it. -/
structure Stored (host : Host) (effectId : String) (d : OutboxDocument) (s : FS) : Prop where
  named : isDigest effectId = true
  file : s.get (outboxPath effectId) = some d.node
  valid : validateOutboxItem host d effectId = .ok ()

/-- Only the delivery evidence moves on; a delivered item is final. -/
structure OutboxDocument.Onward (d d' : OutboxDocument) : Prop where
  same : d' = { d with delivery := d'.delivery }
  attempts : d.delivery.attemptCount ≤ d'.delivery.attemptCount
  delivered : d.delivery.state = .delivered → d' = d

theorem OutboxDocument.Onward.refl (d : OutboxDocument) : d.Onward d where
  same := rfl
  attempts := Int.le_refl _
  delivered := fun _ => rfl

theorem OutboxDocument.Onward.trans {a b c : OutboxDocument} (h : a.Onward b)
    (h' : b.Onward c) : a.Onward c where
  same := by
    have hb := h.same
    have hc := h'.same
    rw [hb] at hc
    exact hc
  attempts := h.attempts.trans h'.attempts
  delivered := by
    intro ha
    obtain rfl := h.delivered ha
    exact h'.delivered ha

theorem onward_attempted (hd : d.delivery.state ≠ .delivered) (attemptedAt : Time)
    (failure : Option Json) :
    d.Onward { d with delivery := d.delivery.attempted attemptedAt failure } where
  same := rfl
  attempts := by
    show d.delivery.attemptCount ≤ d.delivery.attemptCount + 1
    omega
  delivered := fun h => absurd h hd

/-! ### Items and their files -/

theorem itemPath_steady {q : Path} (h : ItemPath q) : Steady q := by
  obtain ⟨effectId, hid, rfl⟩ := h
  apply steady_of_suffix
  show suffix (name (outboxRoot ++ [effectId ++ ".json"])) = ".json"
  rw [name_append]
  apply suffix_journalName
  intro hnil
  simp [isDigest, hnil] at hid

theorem not_itemPath_above {q : Path} (h : q <+: outboxRoot) : ¬ ItemPath q := by
  rintro ⟨effectId, -, rfl⟩
  have := h.length_le
  simp [outboxPath, outboxRoot] at this

theorem outboxPath_injective {a b : String} (h : outboxPath a = outboxPath b) : a = b := by
  simpa [outboxPath] using h

theorem outboxDigest_eq_ok {value field : String} {x : Unit}
    (h : outboxDigest value field = .ok x) : isDigest value = true := by
  unfold outboxDigest at h
  split at h
  · assumption
  · cases h

theorem readOutboxItem_eq_ok {f : FileState} (h : readOutboxItem host effectId s = .ok (d, f)) :
    Stored host effectId d s ∧ f = itemState host effectId d := by
  obtain ⟨_, hid, h⟩ := bind_eq_ok h
  cases hobs : observeFileState host (outboxPath effectId) none s with
  | error e =>
    simp only [hobs] at h
    cases h
  | ok observed =>
    simp only [hobs] at h
    split at h
    · cases h
    next hfile =>
    split at h
    · next document mode hget =>
      obtain ⟨⟨⟩, hvalid, h⟩ := bind_eq_ok h
      cases h
      obtain ⟨-, -, hdesc⟩ := bind_eq_ok hobs
      rw [hget] at hdesc
      cases hdesc
      have hmode : mode = 0o600 := by simpa [regularState] using hfile
      subst hmode
      exact ⟨⟨outboxDigest_eq_ok hid, hget, hvalid⟩, rfl⟩
    · cases h

namespace Stored

theorem isItem (h : Stored host effectId d s) : ItemPath (outboxPath effectId) :=
  ⟨effectId, h.named, rfl⟩

theorem root (h : Stored host effectId d s) (hwf : s.WellFormed) : s.realDir outboxRoot := by
  apply hwf.parent_realDir (n := effectId ++ ".json")
  show (s.get (outboxPath effectId)).isSome = true
  rw [h.file]
  rfl

theorem observe (h : Stored host effectId d s) (hwf : s.WellFormed) :
    observeFileState host (outboxPath effectId) none s = .ok (itemState host effectId d) := by
  have hclear : s.Clear (parent (outboxPath effectId)) := by
    rw [outboxPath, parent_append]
    exact (hwf.reaches (h.root hwf)).clear
  rw [observeFileState_eq host hclear, h.file]
  rfl

theorem read (h : Stored host effectId d s) (hwf : s.WellFormed) :
    readOutboxItem host effectId s = .ok (d, itemState host effectId d) := by
  unfold readOutboxItem
  have hid : outboxDigest effectId "effect_id" = .ok () := if_pos h.named
  rw [hid, bind_ok_eq]
  simp only [h.observe hwf, h.file, OutboxDocument.node, h.valid, bind_ok_eq]
  rfl

theorem unique (h : Stored host effectId d s) (h' : Stored host effectId d' s) : d = d' := by
  have := h.file.symm.trans h'.file
  simpa [OutboxDocument.node] using this

end Stored

/-! ### One call -/

/-- What a call, cut short or not, makes of the outbox: nothing, a new item, or one more attempt
at delivering one. -/
inductive ItemStep (host : Host) (s c : FS) : Prop
  | same (h : Watches ItemPath s.get c)
  | put (effectId : String) (d : OutboxDocument) (named : isDigest effectId = true)
    (valid : validateOutboxItem host d effectId = .ok ())
    (before : s.get (outboxPath effectId) = none ∨ ∃ d₀, Stored host effectId d₀ s ∧ d₀.Onward d)
    (h : Watches ItemPath (Function.update s.get (outboxPath effectId) (some d.node)) c)

theorem ItemStep.shape (h : ItemStep host s t) : t.WellFormed := by
  cases h with
  | same h => exact h.shape
  | put _ _ _ _ _ h => exact h.shape

theorem stored_of_watches (hid : isDigest effectId = true)
    (hvalid : validateOutboxItem host d effectId = .ok ())
    (h : Watches ItemPath (Function.update s.get (outboxPath effectId) (some d.node)) t) :
    Stored host effectId d t where
  named := hid
  file := by rw [h.shows _ ⟨effectId, hid, rfl⟩, Function.update_self]
  valid := hvalid

/-- Every item is still there, further on in its delivery or as it was. -/
theorem ItemStep.onward (h : ItemStep host s t) (hd : Stored host effectId d s) :
    ∃ d', Stored host effectId d' t ∧ d.Onward d' := by
  cases h with
  | same h =>
    have hfile := (h.shows _ hd.isItem).trans hd.file
    exact ⟨d, ⟨hd.named, hfile, hd.valid⟩, .refl d⟩
  | put other d' named valid before h =>
    by_cases he : effectId = other
    · subst he
      refine ⟨d', stored_of_watches named valid h, ?_⟩
      rcases before with habs | ⟨d₀, h₀, honward⟩
      · have := habs.symm.trans hd.file
        cases this
      · rwa [h₀.unique hd] at honward
    · have hne : outboxPath effectId ≠ outboxPath other := fun hp => he (outboxPath_injective hp)
      have hfile := h.shows _ hd.isItem
      rw [Function.update_of_ne hne, hd.file] at hfile
      exact ⟨d, ⟨hd.named, hfile, hd.valid⟩, .refl d⟩

variable (host) in
/-- The exchange of an item for another document, under either function's error text. -/
theorem writeItem_spec {view : Path → Option (Node Content)} {expected : FileState}
    (translate : Failure → Failure) (h : Watches ItemPath view s)
    (hid : isDigest effectId = true) (hdir : s.realDir outboxRoot)
    (hpath : expected.path = outboxPath effectId)
    (hobs : describe host (outboxPath effectId) expected.managedBlockHash
      (view (outboxPath effectId)) = .ok expected)
    (hreg : expected.fileType ≠ .directory) (d : OutboxDocument) :
    Triple (· = s) (Program.mapError translate do
        let _ ← compareAndSwap host expected (itemState host effectId d) (some (.outboxItem d)))
      (Returns fun _ t =>
        Watches ItemPath (Function.update view (outboxPath effectId) (some d.node)) t)
      (fun c => Watches ItemPath view c ∨
        Watches ItemPath (Function.update view (outboxPath effectId) (some d.node)) c) := by
  have hswap := h.swap host expected
    (.regular (outboxPath effectId) (.outboxItem d) 0o600 none) hpath
    (by simp [regularState, outboxPath]) ⟨effectId, hid, rfl⟩
    (by
      show s.realDir (parent (outboxPath effectId))
      rwa [outboxPath, parent_append])
    hobs hreg
  exact Triple.mapError translate (hswap.ignore fun _ _ ht => ht)

theorem checkDelivery_others {delivery : Delivery}
    (h : checkDelivery effectId delivery = .ok ()) : delivery.others = [] := by
  unfold checkDelivery at h
  by_contra hne
  rw [if_pos hne] at h
  cases h

theorem checkDelivery_nonneg {delivery : Delivery}
    (h : checkDelivery effectId delivery = .ok ()) : 0 ≤ delivery.attemptCount := by
  have hothers := checkDelivery_others h
  unfold checkDelivery at h
  rw [if_neg (not_not_intro hothers)] at h
  by_contra hneg
  rw [if_pos (by omega)] at h
  cases h

theorem pending_delivery {delivery : Delivery} (h : checkDelivery effectId delivery = .ok ())
    (hpending : delivery.state = .pending) : delivery = ⟨.pending, 0, none, none, none, []⟩ := by
  obtain ⟨state, count, last, delivered, failure, others⟩ := delivery
  obtain rfl : state = .pending := hpending
  obtain rfl : others = [] := checkDelivery_others h
  unfold checkDelivery at h
  rw [if_neg (by simp)] at h
  split at h
  · cases h
  simp only at h
  split at h
  · cases h
  · next hnot =>
    simp only [not_or, not_not, Option.not_isSome_iff_eq_none] at hnot
    obtain ⟨rfl, rfl, rfl, rfl⟩ := hnot
    rfl

theorem checkDelivery_attempted {delivery : Delivery}
    (h : checkDelivery effectId delivery = .ok ()) (attemptedAt : Time) (failure : Option Json) :
    checkDelivery effectId (delivery.attempted attemptedAt failure) = .ok () := by
  have hothers := checkDelivery_others h
  have hcount := checkDelivery_nonneg h
  have hpos : ¬ delivery.attemptCount + 1 < 0 := by omega
  have hone : ¬ delivery.attemptCount + 1 < 1 := by omega
  cases failure with
  | none => simp [checkDelivery, Delivery.attempted, hothers, hpos, hone]
  | some e => simp [checkDelivery, Delivery.attempted, hothers, hpos, hone]

theorem checkDelivery_of_valid (h : validateOutboxItem host d effectId = .ok ()) :
    checkDelivery effectId d.delivery = .ok () := by
  unfold validateOutboxItem at h
  split at h
  · cases h
  · iterate 7 obtain ⟨-, -, h⟩ := bind_eq_ok h
    split at h
    · cases h
    · obtain ⟨-, -, h⟩ := bind_eq_ok h
      exact h

/-- Only the delivery evidence of an item is checked against its delivery state. -/
theorem validateOutboxItem_delivery (h : validateOutboxItem host d effectId = .ok ())
    {delivery : Delivery} (hcheck : checkDelivery effectId delivery = .ok ()) :
    validateOutboxItem host { d with delivery := delivery } effectId = .ok () := by
  have hd := checkDelivery_of_valid h
  unfold validateOutboxItem at h ⊢
  rw [hd] at h
  rw [hcheck]
  exact h

/-- A handler that leaves the outbox alone, also when it is cut short, and the document it is
given as it was. -/
structure LeavesItems (handler : Handler) : Prop where
  items : ∀ d s, s.WellFormed → ∀ c ∈ (handler d).states s, Watches ItemPath s.get c
  document : ∀ d s ending, (handler d).out s = .ok ending → ending.left = .ok d.shared

@[simp] theorem OutboxDocument.withShared_shared (d : OutboxDocument) :
    d.withShared d.shared = d := rfl

theorem watches_self (hwf : s.WellFormed) : Watches ItemPath s.get s :=
  ⟨hwf, fun _ _ => rfl, fun _ => itemPath_steady⟩

/-- The handler that does nothing and returns. -/
def Handler.returns : Handler := fun d => pure ⟨none, .ok d.shared⟩

theorem Handler.returns_leaves : LeavesItems .returns where
  items d s hshape c hc := by
    obtain rfl : c = s := by simpa [Handler.returns] using hc
    exact watches_self hshape
  document d s ending h := by
    cases h
    rfl

variable (host) in
theorem LeavesItems.triple {handler : Handler} (h : LeavesItems handler) (hwf : s.WellFormed)
    (d : OutboxDocument) :
    Triple (· = s) (handler d)
      (Ends (fun ending t => ending.left = .ok d.shared ∧ Watches ItemPath s.get t) fun _ => True)
      (ItemStep host s) := by
  rintro s' rfl
  constructor
  · intro c hc
    exact .same (h.items d s' hwf c (List.mem_cons_of_mem _ hc))
  · have hend := h.items d s' hwf _ (Program.final_mem_states _ _)
    have hleft := h.document d s'
    cases ho : (handler d).out s' with
    | error e => trivial
    | ok ending => exact ⟨hleft ending ho, hend⟩

theorem deliverEffect_step (hwf : s.WellFormed) (attemptedAt : Time)
    {handler : Handler} (hhandler : LeavesItems handler) :
    Triple (· = s) (deliverEffect host effectId attemptedAt handler)
      (Ends (fun _ _ => True) fun _ => True) (ItemStep host s) := by
  refine Triple.inspect_bind_ends trivial fun found hread => ?_
  obtain ⟨item, observed⟩ := found
  obtain ⟨hs, rfl⟩ := readOutboxItem_eq_ok hread
  by_cases hd : item.delivery.state = .delivered
  · simp only [hd, if_true]
    exact Triple.returns_ends trivial
  simp only [hd, if_false]
  refine (hhandler.triple host hwf item).bind_ends fun ending => Triple.of_forall fun t hend => ?_
  obtain ⟨hleft, ht⟩ := hend
  refine Triple.bind_run (by rw [Program.lift_run, hleft]) ?_
  rw [OutboxDocument.withShared_shared]
  have hfile := (ht.shows _ hs.isItem).trans hs.file
  have hroot := Stored.root ⟨hs.named, hfile, hs.valid⟩ ht.shape
  have hobs : describe host (outboxPath effectId) none (s.get (outboxPath effectId)) =
      .ok (itemState host effectId item) := by
    rw [hs.file]
    rfl
  have hvalid := validateOutboxItem_delivery hs.valid
    (checkDelivery_attempted (checkDelivery_of_valid hs.valid) attemptedAt ending.failure)
  refine ((writeItem_spec host _ ht hs.named hroot rfl hobs (by simp [itemState, regularState])
    _).crash ?_).ends.bind_ends fun _ => Triple.of_forall fun u hu => ?_
  · rintro c (hc | hc)
    · exact .same hc
    · exact .put effectId _ hs.named hvalid (Or.inr ⟨item, hs, onward_attempted hd _ _⟩) hc
  · refine Triple.lift_bind_ends trivial fun _ _ => ?_
    split
    · exact Triple.throw_ends trivial
    · exact Triple.returns_ends trivial

/-! ### Enqueueing -/

section Enqueue

variable {x : EffectContext} {e : OutboxEffect}

theorem isToken_of_ok {value field : String} {u : Unit} (h : outboxToken value field = .ok u) :
    isToken value := by
  unfold outboxToken at h
  split at h
  · assumption
  · cases h

theorem isUuid_of_ok {value field : String} {u : Unit} (h : outboxUuid value field = .ok u) :
    isUuid value := by
  unfold outboxUuid at h
  split at h
  · cases h
  · next parsed hparsed =>
    split at h
    · next heq =>
      subst heq
      simpa [isUuid] using hparsed
    · cases h

theorem document_named : isDigest (x.document host e).effectId = true :=
  host.sha256_isDigest _

variable (host) in
/-- What `enqueueEffect` does in any store, whether it returns, raises or is cut short. -/
theorem enqueueEffect_ends (hwf : s.WellFormed) :
    Triple (· = s) (enqueueEffect host x.operation x.taskId x.transactionId e x.createdAt)
      (Ends (fun d t => x.Valid ∧ e.Valid ∧ d = x.document host e ∧
        Stored host d.effectId d t ∧ t.WellFormed) fun _ => True)
      (ItemStep host s) := by
  unfold enqueueEffect
  refine Triple.lift_bind_ends trivial fun _ hoperation => ?_
  refine Triple.lift_bind_ends trivial fun _ htask => ?_
  refine Triple.lift_bind_ends trivial fun _ htransaction => ?_
  refine Triple.lift_bind_ends trivial fun _ hkind => ?_
  refine Triple.lift_bind_ends trivial fun _ hhandler => ?_
  refine Triple.lift_bind_ends trivial fun _ hversion => ?_
  have hx : x.Valid := ⟨isToken_of_ok hoperation, isUuid_of_ok htask, isUuid_of_ok htransaction⟩
  have he : e.Valid := ⟨isToken_of_ok hkind, isToken_of_ok hhandler, isToken_of_ok hversion⟩
  have hvalid : validateOutboxItem host (x.document host e) (x.document host e).effectId =
    .ok () := validateOutboxItem_document hx he
  have hdoc : effectDocument host x.operation x.taskId x.transactionId e x.createdAt =
    x.document host e := rfl
  simp only [hdoc]
  refine Triple.lift_bind_ends trivial fun _ _ => ?_
  refine Triple.bind_run (Program.read_run _ _) ?_
  cases hlink : s.isSymlink outboxRoot with
  | true => exact Triple.throw_ends trivial
  | false =>
    have hframe : Within (Frame fun q => q <+: outboxRoot)
        (mkdirs host.dirMode outboxRoot : Prog Unit) := mkdirs_frame _ _ fun _ hq => hq
    have hkeep : ∀ c, Frame (fun q => q <+: outboxRoot) s c → Watches ItemPath s.get c := by
      intro c hc
      refine (watches_self hwf).off (hc.shape hwf) fun q hq => hc.off q fun hpre => ?_
      exact not_itemPath_above hpre hq
    have hmade : Triple (· = s) (mkdirs host.dirMode outboxRoot : Prog Unit)
        (Ends (fun _ => Watches ItemPath s.get) fun _ => True) (ItemStep host s) := by
      refine (hframe.triple s).weaken (fun _ hs => hs) ?_ fun c hc => .same (hkeep c hc)
      rintro (f | a) t ⟨-, rfl⟩
      · trivial
      · exact hkeep _ (hframe.final s)
    refine hmade.bind_ends fun _ => Triple.of_forall fun t ht => ?_
    refine Triple.bind_run (Program.read_run _ _) ?_
    split
    · exact Triple.throw_ends trivial
    next hready =>
    refine Triple.inspect_bind_ends trivial fun observed hobs => ?_
    obtain ⟨_, htarget, hdesc⟩ := bind_eq_ok hobs
    split
    · -- an item is there
      refine Triple.inspect_bind_ends trivial fun found hread => ?_
      obtain ⟨existing, f⟩ := found
      obtain ⟨hs, -⟩ := readOutboxItem_eq_ok hread
      show Triple _ (if existing ≠ x.document host e then _ else _) _ _
      by_cases hne : existing ≠ x.document host e
      · rw [if_pos hne]
        exact Triple.throw_ends trivial
      · obtain rfl := not_not.mp hne
        rw [if_neg hne]
        exact Triple.returns_ends ⟨hx, he, rfl, hs, ht.shape⟩
    next hexists =>
    have habs : t.get (outboxPath (x.document host e).effectId) = none := by
      match hget : t.get (outboxPath (x.document host e).effectId) with
      | none => rfl
      | some n =>
        rw [hget] at hdesc
        cases n with
        | symlink k => cases hdesc
        | file c m =>
          cases hdesc
          exact absurd rfl hexists
        | dir m =>
          cases hdesc
          exact absurd rfl hexists
    have hroot : t.realDir outboxRoot := by
      have hclear := clear_of_target htarget
      rw [outboxPath, parent_append] at hclear
      rcases hclear.2 outboxRoot List.prefix_rfl with hnone | hdir
      · simp [DirTree.isDir, hnone] at hready
      · exact hdir
    have habs' := (ht.shows _ ⟨_, document_named, rfl⟩).symm.trans habs
    have hput : ∀ c, Watches ItemPath (Function.update s.get
        (outboxPath (x.document host e).effectId) (some (x.document host e).node)) c →
        ItemStep host s c := fun c hc => .put _ _ document_named hvalid (Or.inl habs') hc
    have hobs' : describe host (outboxPath (x.document host e).effectId) none
        (s.get (outboxPath (x.document host e).effectId)) =
        .ok (absentState (outboxPath (x.document host e).effectId) none) := by
      rw [habs']
      rfl
    refine ((writeItem_spec host _ ht document_named hroot rfl hobs' (by simp [absentState])
      (x.document host e)).crash ?_).ends.bind_ends fun _ => Triple.of_forall fun u hu => ?_
    · rintro c (hc | hc)
      · exact .same hc
      · exact hput c hc
    · refine Triple.lift_bind_ends trivial fun _ _ => Triple.returns_ends ?_
      exact ⟨hx, he, rfl, stored_of_watches document_named hvalid hu, hu.shape⟩

/-- With an outbox to look into, `enqueueEffect` is what follows its front checks. -/
theorem enqueueEffect_front (hx : x.Valid) (he : e.Valid) (hreach : s.Reaches outboxRoot) :
    (enqueueEffect host x.operation x.taskId x.transactionId e x.createdAt).run s = (do
      let observed ← Program.inspect
        (observeFileState host (outboxPath (x.document host e).effectId) none)
      if observed.exists then
        let found ← Program.inspect (readOutboxItem host (x.document host e).effectId)
        if found.1 ≠ x.document host e then
          Program.throw (outboxFailure
            "deterministic outbox identity collides with different bytes" [])
        else return found.1
      else
        Program.mapError (fun f => if f.isValueError then
            outboxFailure "outbox item changed during CAS"
              [("effect_id", (x.document host e).effectId)]
          else f) do
          let _ ← compareAndSwap host (absentState (outboxPath (x.document host e).effectId) none)
            (itemState host (x.document host e).effectId (x.document host e))
            (some (.outboxItem (x.document host e)))
        Program.lift (validateOutboxItem host (x.document host e) (x.document host e).effectId)
        return x.document host e : Prog OutboxDocument).run s := by
  have hdoc : effectDocument host x.operation x.taskId x.transactionId e x.createdAt =
    x.document host e := rfl
  have hroot := hreach _ List.prefix_rfl
  have hdigest : outboxDigest (x.document host e).effectId "effect_id" = .ok () :=
    outboxDigest_sha256 _ _
  unfold enqueueEffect
  simp only [hdoc]
  rw [Program.bind_of_pure (by rw [Program.lift_run, outboxToken_ok hx.operation]),
    Program.bind_of_pure (by rw [Program.lift_run, outboxUuid_ok hx.taskId]),
    Program.bind_of_pure (by rw [Program.lift_run, outboxUuid_ok hx.transactionId]),
    Program.bind_of_pure (by rw [Program.lift_run, outboxToken_ok he.effectKind]),
    Program.bind_of_pure (by rw [Program.lift_run, outboxToken_ok he.handlerId]),
    Program.bind_of_pure (by rw [Program.lift_run, outboxToken_ok he.handlerVersion]),
    Program.bind_of_pure (by rw [Program.lift_run, hdigest]),
    Program.bind_of_pure (Program.read_run _ _), not_isSymlink_of_realDir hroot]
  simp only [Bool.false_eq_true, if_false]
  rw [Program.bind_of_pure (mkdirs_run hreach), Program.bind_of_pure (Program.read_run _ _),
    not_isSymlink_of_realDir hroot, isDir_of_realDir hroot]
  rfl

/-- Where an item is stored already, it is compared with the pending one. -/
theorem enqueueEffect_stored (hwf : s.WellFormed) (hx : x.Valid) (he : e.Valid)
    (hs : Stored host (x.document host e).effectId d s) :
    (enqueueEffect host x.operation x.taskId x.transactionId e x.createdAt).run s =
      if d ≠ x.document host e then
        ⟨[], .error (outboxFailure
          "deterministic outbox identity collides with different bytes" [])⟩
      else ⟨[], .ok d⟩ := by
  rw [enqueueEffect_front hx he (hwf.reaches (hs.root hwf)),
    Program.bind_of_pure (by rw [Program.inspect_run, hs.observe hwf])]
  simp only [itemState, regularState, if_true]
  rw [Program.bind_of_pure (by rw [Program.inspect_run, hs.read hwf])]
  by_cases hne : d ≠ x.document host e
  · simp only [if_pos hne]
    rfl
  · simp only [if_neg hne]
    rfl

/-- Where none is stored, the pending one is. -/
theorem enqueueEffect_creates (hwf : s.WellFormed) (hx : x.Valid) (he : e.Valid)
    (hdir : s.realDir outboxRoot)
    (habs : s.get (outboxPath (x.document host e).effectId) = none) :
    Triple (· = s) (enqueueEffect host x.operation x.taskId x.transactionId e x.createdAt)
      (Returns fun d t => d = x.document host e ∧
        Stored host (x.document host e).effectId (x.document host e) t ∧ t.WellFormed)
      fun _ => True := by
  have hreach := hwf.reaches hdir
  have hvalid : validateOutboxItem host (x.document host e) (x.document host e).effectId =
    .ok () := validateOutboxItem_document hx he
  have hdesc : describe host (outboxPath (x.document host e).effectId) none
      (s.get (outboxPath (x.document host e).effectId)) =
      .ok (absentState (outboxPath (x.document host e).effectId) none) := by
    rw [habs]
    rfl
  have hclear : s.Clear (parent (outboxPath (x.document host e).effectId)) := by
    rw [outboxPath, parent_append]
    exact hreach.clear
  have hobs := (observeFileState_eq host hclear none).trans hdesc
  refine Triple.of_run_eq (enqueueEffect_front hx he hreach) ?_
  refine Triple.bind_run (by rw [Program.inspect_run, hobs]) ?_
  simp only [absentState, Bool.false_eq_true, if_false]
  refine ((writeItem_spec host _ (watches_self hwf) document_named hdir rfl hdesc
    (by simp) (x.document host e)).crash fun _ _ => trivial).bind_returns
    fun _ => Triple.of_forall fun t ht => ?_
  refine Triple.bind_run (by rw [Program.lift_run, hvalid]) ?_
  exact Triple.returns ⟨rfl, stored_of_watches document_named hvalid ht, ht.shape⟩

/-- An item as an earlier call left it is accepted when no delivery was tried yet. -/
theorem enqueueEffect_again_iff (hwf : s.WellFormed) (hx : x.Valid) (he : e.Valid)
    (hs : Stored host (x.document host e).effectId d s) (honward : (x.document host e).Onward d) :
    (enqueueEffect host x.operation x.taskId x.transactionId e x.createdAt).run s = ⟨[], .ok d⟩ ↔
      d.delivery.state = .pending := by
  rw [enqueueEffect_stored hwf hx he hs]
  constructor
  · intro h
    split at h
    · cases h
    · next hd =>
      rw [not_not.mp hd]
      rfl
  · intro hpending
    have hcheck := checkDelivery_of_valid hs.valid
    have hd : d = x.document host e := by
      rw [honward.same]
      rw [pending_delivery hcheck hpending]
      rfl
    rw [if_neg (not_not_intro hd)]

end Enqueue

/-! ### Delivering -/

theorem deliverEffect_delivered (hwf : s.WellFormed) (hs : Stored host effectId d s)
    (hd : d.delivery.state = .delivered) (attemptedAt : Time) (handler : Handler) :
    (deliverEffect host effectId attemptedAt handler).run s = ⟨[], .ok d⟩ := by
  unfold deliverEffect
  rw [Program.bind_of_pure (by rw [Program.inspect_run, hs.read hwf])]
  simp only [hd, if_true]
  rfl

/-- A handler that returns at once delivers the item. -/
theorem deliverEffect_delivers (hwf : s.WellFormed) (hs : Stored host effectId d s)
    (hd : d.delivery.state ≠ .delivered) (attemptedAt : Time) :
    Triple (· = s) (deliverEffect host effectId attemptedAt Handler.returns)
      (Returns fun d' t => d'.delivery.state = .delivered ∧ d.Onward d' ∧
        Stored host effectId d' t ∧ t.WellFormed)
      fun _ => True := by
  have hvalid := validateOutboxItem_delivery hs.valid
    (checkDelivery_attempted (checkDelivery_of_valid hs.valid) attemptedAt none)
  have hobs : describe host (outboxPath effectId) none (s.get (outboxPath effectId)) =
      .ok (itemState host effectId d) := by
    rw [hs.file]
    rfl
  unfold deliverEffect
  refine Triple.bind_run (by rw [Program.inspect_run, hs.read hwf]) ?_
  simp only [hd, if_false]
  refine Triple.bind_run (Program.pure_run _ _) ?_
  refine Triple.bind_run (Program.lift_run _ _) ?_
  rw [OutboxDocument.withShared_shared]
  refine ((writeItem_spec host _ (watches_self hwf) hs.named (hs.root hwf) rfl hobs
    (by simp [itemState, regularState]) _).crash fun _ _ => trivial).bind_returns
    fun _ => Triple.of_forall fun t ht => ?_
  refine Triple.bind_run (by rw [Program.lift_run, hvalid]) ?_
  have hdone := stored_of_watches hs.named hvalid ht
  exact Triple.returns ⟨rfl, onward_attempted hd attemptedAt none, hdone, ht.shape⟩

/-! ### Runs -/

inductive OutboxCall
  | enqueue (x : EffectContext) (effect : OutboxEffect)
  | deliver (effectId : String) (attemptedAt : Time) (handler : Handler)

def OutboxCall.run (host : Host) : OutboxCall → Prog OutboxDocument
  | .enqueue x effect =>
    enqueueEffect host x.operation x.taskId x.transactionId effect x.createdAt
  | .deliver effectId attemptedAt handler => deliverEffect host effectId attemptedAt handler

/-- One call, to its end or to a point where the process stops. -/
def OutboxStep (host : Host) (s t : FS) : Prop :=
  ∃ c : OutboxCall,
    (∀ effectId attemptedAt handler, c = .deliver effectId attemptedAt handler →
      LeavesItems handler) ∧ t ∈ (c.run host).states s

abbrev OutboxRun (host : Host) : FS → FS → Prop := Relation.ReflTransGen (OutboxStep host)

theorem OutboxStep.itemStep (hwf : s.WellFormed) (h : OutboxStep host s t) :
    ItemStep host s t := by
  obtain ⟨c, hlawful, ht⟩ := h
  have hself : ItemStep host s s := .same (watches_self hwf)
  cases c with
  | enqueue x effect => exact (enqueueEffect_ends host hwf).states rfl hself ht
  | deliver effectId attemptedAt handler =>
    have hhandler := hlawful _ _ _ rfl
    exact (deliverEffect_step hwf attemptedAt hhandler).states rfl hself ht

theorem OutboxRun.shape (hwf : s.WellFormed) (h : OutboxRun host s t) : t.WellFormed := by
  induction h with
  | refl => exact hwf
  | tail _ hstep ih => exact (hstep.itemStep ih).shape

theorem OutboxRun.onward (hwf : s.WellFormed) (h : OutboxRun host s t)
    (hd : Stored host effectId d s) : ∃ d', Stored host effectId d' t ∧ d.Onward d' := by
  induction h with
  | refl => exact ⟨d, hd, .refl d⟩
  | tail hrun hstep ih =>
    obtain ⟨d₁, h₁, honward⟩ := ih
    have hshape := OutboxRun.shape hwf hrun
    obtain ⟨d₂, h₂, hnext⟩ := (hstep.itemStep hshape).onward h₁
    exact ⟨d₂, h₂, honward.trans hnext⟩

variable (host) in
/-- In every run of enqueues and deliveries an item only moves on in its delivery; once it is
delivered no call has a handler run or changes it. An effect enqueued before is accepted again
when no delivery of it was tried, and refused otherwise. -/
theorem outbox_recorded (hwf : s.WellFormed) (hrun : OutboxRun host s t) :
    (∀ effectId d f u, readOutboxItem host effectId t = .ok (d, f) → OutboxRun host t u →
      ∃ d' f', readOutboxItem host effectId u = .ok (d', f') ∧ d.Onward d') ∧
    (∀ effectId d f attemptedAt handler, readOutboxItem host effectId t = .ok (d, f) →
      d.delivery.state = .delivered →
      (deliverEffect host effectId attemptedAt handler).run t = ⟨[], .ok d⟩) ∧
    ∀ (x : EffectContext) (effect : OutboxEffect) d u,
      (OutboxCall.run host (.enqueue x effect)).out t = .ok d →
      OutboxRun host ((OutboxCall.run host (.enqueue x effect)).final t) u →
      ∃ d' f', readOutboxItem host d.effectId u = .ok (d', f') ∧ d.Onward d' ∧
        ((OutboxCall.run host (.enqueue x effect)).run u = ⟨[], .ok d'⟩ ↔
          d'.delivery.state = .pending) := by
  have ht := hrun.shape hwf
  refine ⟨?_, ?_, ?_⟩
  · intro effectId d f u hread hafter
    obtain ⟨hs, -⟩ := readOutboxItem_eq_ok hread
    obtain ⟨d', hs', honward⟩ := hafter.onward ht hs
    exact ⟨d', _, hs'.read (hafter.shape ht), honward⟩
  · intro effectId d f attemptedAt handler hread hd
    obtain ⟨hs, -⟩ := readOutboxItem_eq_ok hread
    exact deliverEffect_delivered ht hs hd attemptedAt handler
  · intro x effect d u hout hafter
    obtain ⟨-, hend⟩ := enqueueEffect_ends host (x := x) (e := effect) ht t rfl
    change Ends _ _ ((OutboxCall.run host (.enqueue x effect)).out t) _ at hend
    rw [hout] at hend
    obtain ⟨hx, he, rfl, hs, hshape⟩ := hend
    obtain ⟨d', hs', honward⟩ := hafter.onward hshape hs
    have hu := hafter.shape hshape
    exact ⟨d', _, hs'.read hu, honward, enqueueEffect_again_iff hu hx he hs' honward⟩

/-- A checkout with an empty outbox. -/
def sampleOutbox : FS :=
  ⟨[([], .dir 0o755), (controlDir, .dir 0o755), (localDir, .dir 0o755),
    (outboxRoot, .dir 0o755)]⟩

theorem sampleOutbox_shape : sampleOutbox.WellFormed := by decide

def sampleContext : EffectContext := ⟨"create-integrated-task", sampleTask, sampleTransaction, 5⟩

theorem sampleContext_valid : sampleContext.Valid := by
  constructor <;> decide

def sampleEffect : OutboxEffect := ⟨"notify", "handler", "1", "payload"⟩

theorem sampleEffect_valid : sampleEffect.Valid := by
  constructor <;> decide

def sampleEnqueue : OutboxCall := .enqueue sampleContext sampleEffect

theorem sampleOutbox_creates :
    Triple (· = sampleOutbox) (sampleEnqueue.run sampleHost)
      (Returns fun d t => d = sampleContext.document sampleHost sampleEffect ∧
        Stored sampleHost (sampleContext.document sampleHost sampleEffect).effectId
          (sampleContext.document sampleHost sampleEffect) t ∧ t.WellFormed)
      fun _ => True := by
  apply enqueueEffect_creates sampleOutbox_shape sampleContext_valid sampleEffect_valid
  · exact ⟨0o755, by decide⟩
  · simp [sampleOutbox, DirTree.get, List.lookup_cons, outboxPath, outboxRoot, controlDir, localDir]

theorem outbox_recorded_sample :
    ∃ d, (sampleEnqueue.run sampleHost).out sampleOutbox = .ok d ∧
      ∀ u, OutboxRun sampleHost ((sampleEnqueue.run sampleHost).final sampleOutbox) u →
        ∃ d' f', readOutboxItem sampleHost d.effectId u = .ok (d', f') ∧ d.Onward d' ∧
          ((sampleEnqueue.run sampleHost).run u = ⟨[], .ok d'⟩ ↔
            d'.delivery.state = .pending) := by
  obtain ⟨-, d, hout, -⟩ := sampleOutbox_creates sampleOutbox rfl
  obtain ⟨-, -, hagain⟩ := outbox_recorded sampleHost sampleOutbox_shape .refl
  exact ⟨d, hout, fun u hu => hagain sampleContext sampleEffect d u hout hu⟩

def sampleDeliver : OutboxCall :=
  .deliver (sampleContext.document sampleHost sampleEffect).effectId 6 .returns

theorem sampleEnqueue_refused (hwf : s.WellFormed)
    (hs : Stored sampleHost (sampleContext.document sampleHost sampleEffect).effectId d s)
    (hd : d.delivery.state = .delivered) :
    (sampleEnqueue.run sampleHost).run s = ⟨[], .error (outboxFailure
      "deterministic outbox identity collides with different bytes" [])⟩ := by
  have hagain := enqueueEffect_stored hwf sampleContext_valid sampleEffect_valid hs
  rw [if_pos] at hagain
  · exact hagain
  · rintro rfl
    simp [EffectContext.document, effectDocument] at hd

/-- An effect that was queued and delivered cannot be queued again. -/
theorem enqueue_after_delivery_refused :
    ∃ t u d d', (sampleEnqueue.run sampleHost).out sampleOutbox = .ok d ∧
      t = (sampleEnqueue.run sampleHost).final sampleOutbox ∧
      (sampleDeliver.run sampleHost).out t = .ok d' ∧
      u = (sampleDeliver.run sampleHost).final t ∧ OutboxRun sampleHost t u ∧
      (sampleEnqueue.run sampleHost).run u = ⟨[], .error (outboxFailure
        "deterministic outbox identity collides with different bytes" [])⟩ := by
  obtain ⟨-, d, hout, rfl, hs, hwf⟩ := sampleOutbox_creates sampleOutbox rfl
  have hpending : (sampleContext.document sampleHost sampleEffect).delivery.state ≠ .delivered := by
    simp [EffectContext.document, effectDocument]
  obtain ⟨-, d', hout', hd', -, hs', hwf'⟩ := deliverEffect_delivers hwf hs hpending 6 _ rfl
  have hlawful : LeavesItems .returns := Handler.returns_leaves
  refine ⟨_, _, _, d', hout, rfl, hout', rfl, Relation.ReflTransGen.single ?_, ?_⟩
  · refine ⟨sampleDeliver, ?_, Program.final_mem_states _ _⟩
    rintro effectId attemptedAt handler ⟨⟩
    exact hlawful
  · exact sampleEnqueue_refused hwf' hs' hd'

end AgentStack.Runtime
