import AgentStack.Providers.AttemptRuns

/-! Retiring a live attempt after a crash. -/
namespace AgentStack.Providers

open AgentStack.Core Crash JsonText JsonValue KeyedList

variable {A : AttemptStore} {E : TextEncoding} {s t : Files} {a b : AttemptRecord}
  {attempts : List AttemptRecord} {receipt : Members}

/-! ### Receipts belong to attempts -/

/-- Every whole receipt is one of the attempt of its id, as far as `attempts` go. -/
def ReceiptsMatch (A : AttemptStore) (attempts : List AttemptRecord) (s : Files) : Prop :=
  ∀ attemptId receipt, s.receipts attemptId = .whole receipt →
    ∃ a ∈ attempts, a.attemptId = attemptId ∧ ReceiptOf A a receipt

/-- A receipt stays one of its attempt: what it repeats of the attempt never changes. -/
theorem ReceiptOf.moves (h : ReceiptOf A a receipt) (hmoves : AttemptMoves a b) :
    b.attemptId = a.attemptId ∧ ReceiptOf A b receipt := by
  have hsame : b.attemptId = a.attemptId ∧ A.expectedTexts b = A.expectedTexts a := by
    induction hmoves with
    | refl => exact ⟨rfl, rfl⟩
    | tail _ hmove ih =>
      rw [← ih.1, ← ih.2]
      cases hmove with
      | release _ _ => exact ⟨rfl, rfl⟩
      | finish _ _ _ _ => exact ⟨rfl, rfl⟩
      | interrupt _ _ => exact ⟨rfl, rfl⟩
  refine ⟨hsame.1, h.closed, h.version, ?_, h.released⟩
  rw [hsame.2]
  exact h.texts

theorem ReceiptsMatch.grown (h : ReceiptsMatch A (attemptsOf s) t)
    (hgrown : Grown (attemptsOf s) (attemptsOf t)) : ReceiptsMatch A (attemptsOf t) t := by
  intro attemptId receipt hfile
  obtain ⟨a, ha, hid, hreceipt⟩ := h attemptId receipt hfile
  obtain ⟨i, hi⟩ := List.getElem?_of_mem ha
  obtain ⟨b, hb, hmoves⟩ := hgrown.kept i a hi
  obtain ⟨hsame, hreceipt⟩ := hreceipt.moves hmoves
  exact ⟨b, List.mem_of_getElem? hb, hsame.trans hid, hreceipt⟩

theorem ReceiptsMatch.setReceipt (h : ReceiptsMatch A attempts s) (ha : a ∈ attempts)
    {file : Slot Members} (hfile : ∀ receipt, file = .whole receipt → ReceiptOf A a receipt) :
    ReceiptsMatch A attempts (s.setReceipt a.attemptId file) := by
  intro attemptId receipt hreceipt
  by_cases hid : attemptId = a.attemptId
  · subst hid
    rw [Files.setReceipt_same] at hreceipt
    exact ⟨a, ha, rfl, hfile receipt hreceipt⟩
  · rw [Files.setReceipt_ne _ _ _ _ hid] at hreceipt
    exact h attemptId receipt hreceipt

/-- The journal is written without a look at the receipts. -/
theorem writeJournal_match (document : AttemptJournal) :
    Triple (ReceiptsMatch A attempts) (writeJournal E document)
      (Ends (fun _ => ReceiptsMatch A attempts) (ReceiptsMatch A attempts))
      (ReceiptsMatch A attempts) := by
  refine Triple.of_forall fun s hs => ?_
  refine Triple.lift_bind_ends hs fun _ _ => ?_
  refine Triple.lift_bind_ends hs fun encoded _ => ?_
  refine Triple.attempt _ ?_ ?_
  · rintro u u' rfl hu
    cases hu
    exact ⟨hs, hs⟩
  · rintro u e rfl hu
    cases hu

theorem writeJournal_match_return (document : AttemptJournal) (record : AttemptRecord)
    (hs : ReceiptsMatch A attempts s) :
    Triple (· = s) (writeJournal E document >>= fun _ => Pure.pure record)
      (Ends (fun _ => ReceiptsMatch A attempts) (ReceiptsMatch A attempts))
      (ReceiptsMatch A attempts) := by
  refine ((writeJournal_match document).pre ?_).bind_ends fun _ => ?_
  · rintro u rfl
    exact hs
  · exact Triple.of_forall fun u hu => Triple.returns_ends hu

theorem storeReceipt_match (h : StoreInvariant A E s) (ha : a ∈ attemptsOf s)
    (hr : ReceiptOf A a receipt) (hs : ReceiptsMatch A (attemptsOf s) s) :
    Triple (· = s) (AttemptStore.storeReceipt E a.attemptId receipt)
      (Ends (fun _ => ReceiptsMatch A (attemptsOf s)) (ReceiptsMatch A (attemptsOf s)))
      (ReceiptsMatch A (attemptsOf s)) := by
  have hunread : ReceiptsMatch A (attemptsOf s) (s.setReceipt a.attemptId .broken) :=
    hs.setReceipt ha fun _ hfile => by cases hfile
  refine Triple.inspect_bind_ends hs fun found _ => ?_
  cases found with
  | none =>
    refine Triple.lift_bind_ends hs fun _ _ => ?_
    have hcreate : Triple (· = s) (Program.attempt (createReceipt a.attemptId))
        (Ends (fun _ u => u = s.setReceipt a.attemptId .broken) (ReceiptsMatch A (attemptsOf s)))
        (ReceiptsMatch A (attemptsOf s)) := by
      refine Triple.attempt _ ?_ ?_
      · rintro u u' rfl hu
        unfold createReceipt at hu
        split at hu
        · cases hu
          exact ⟨hunread, rfl⟩
        · cases hu
      · rintro u e rfl -
        exact hs
    refine hcreate.bind_ends fun _ => ?_
    cases hencode : encodeReceipt E receipt with
    | ok stored =>
      have hstored := (hr.encode (h.encoded a ha) hencode).1
      refine Triple.attempt _ ?_ ?_
      · rintro u u' rfl hu
        cases hu
        have hmatch : ReceiptsMatch A (attemptsOf s)
            ((s.setReceipt a.attemptId .broken).setReceipt a.attemptId (.whole stored)) := by
          refine hunread.setReceipt ha fun receipt hfile => ?_
          cases hfile
          exact hstored
        exact ⟨hmatch, hmatch⟩
      · rintro u e rfl hu
        cases hu
    | error e =>
      have hremove : Triple (· = s.setReceipt a.attemptId .broken)
          (Program.attempt fun s : Files =>
            (.ok (s.setReceipt a.attemptId .absent) : Except Failure Files))
          (Ends (fun _ => ReceiptsMatch A (attemptsOf s)) (ReceiptsMatch A (attemptsOf s)))
          (ReceiptsMatch A (attemptsOf s)) := by
        refine Triple.attempt _ ?_ ?_
        · rintro u u' rfl hu
          cases hu
          have hmatch : ReceiptsMatch A (attemptsOf s)
              ((s.setReceipt a.attemptId .broken).setReceipt a.attemptId .absent) :=
            hunread.setReceipt ha fun _ hfile => by cases hfile
          exact ⟨hmatch, hmatch⟩
        · rintro u e rfl hu
          cases hu
      exact hremove.bind_ends fun _ => Triple.of_forall fun u hu => Triple.throw_ends hu
  | some stored =>
    refine Triple.inspect (fun _ => check (receiptsEqual stored receipt) _) ?_
    rintro u rfl
    cases receiptsEqual stored receipt with
    | false => exact hs
    | true => exact hs

theorem AttemptCall.run_match (h : StoreInvariant A E s) (hs : ReceiptsMatch A (attemptsOf s) s)
    (c : AttemptCall) : Triple (· = s) (c.run A E)
      (Ends (fun _ => ReceiptsMatch A (attemptsOf s)) (ReceiptsMatch A (attemptsOf s)))
      (ReceiptsMatch A (attemptsOf s)) := by
  cases c with
  | prepare request =>
    refine Triple.inspect_bind_ends hs fun document _ => ?_
    refine Triple.lift_bind_ends hs fun record _ => ?_
    exact writeJournal_match_return _ _ hs
  | released attemptId receipt =>
    refine Triple.inspect_bind_ends hs fun document hload => ?_
    rw [h.loads] at hload
    cases hload
    refine Triple.lift_bind_ends hs fun found hfound => ?_
    obtain ⟨⟨i, a⟩, hfind, hfound⟩ := bind_eq_ok hfound
    obtain ⟨_, -, hfound⟩ := bind_eq_ok hfound
    obtain ⟨_, hreceipt, hfound⟩ := bind_eq_ok hfound
    cases hfound
    obtain ⟨hget, rfl⟩ := findAttempt_eq_ok hfind
    have hreceipt := validateReceipt_eq_ok.mp hreceipt
    refine (storeReceipt_match h (List.mem_of_getElem? hget) hreceipt hs).bind_ends fun _ => ?_
    exact Triple.of_forall fun t ht => writeJournal_match_return _ _ ht
  | terminal attemptId result =>
    refine Triple.lift_bind_ends hs fun _ _ => ?_
    refine Triple.inspect_bind_ends hs fun document _ => ?_
    refine Triple.lift_bind_ends hs fun found _ => ?_
    exact writeJournal_match_return _ _ hs
  | recover attemptId containment receipt recordedAt =>
    refine Triple.lift_bind_ends hs fun _ _ => ?_
    refine Triple.inspect_bind_ends hs fun document _ => ?_
    refine Triple.lift_bind_ends hs fun found _ => ?_
    show Triple (· = s) (if found.2.state.terminal then _ else _) _ _
    split
    · exact Triple.returns_ends hs
    refine Triple.inspect_bind_ends hs fun stored _ => ?_
    refine Triple.lift_bind_ends hs fun _ _ => ?_
    exact writeJournal_match_return _ _ hs

/-- In every state of the store its receipts match its attempts. -/
theorem StoreRun.receiptsMatch (h : StoreRun A E Files.empty s) :
    StoreInvariant A E s ∧ ReceiptsMatch A (attemptsOf s) s := by
  induction h with
  | refl =>
    refine ⟨storeInvariant_empty, fun attemptId receipt hfile => ?_⟩
    cases hfile
  | tail _ hstep ih =>
    obtain ⟨hinv, hmatch⟩ := ih
    have hnext := hstep.next hinv
    obtain ⟨c, ht⟩ := hstep
    have hreceipts := (c.run_match hinv hmatch).states rfl hmatch ht
    exact ⟨hnext.invariant, hreceipts.grown hnext.grown⟩

/-! ### Recovery -/

theorem findAttempt_mem (hids : (attempts.map (·.attemptId)).Nodup) (ha : a ∈ attempts) :
    ∃ i, findAttempt { A.noAttempts with attempts := attempts } a.attemptId = .ok (i, a) := by
  unfold findAttempt
  dsimp only
  have hlt : attempts.findIdx (·.attemptId = a.attemptId) < attempts.length :=
    List.findIdx_lt_length_of_exists ⟨a, ha, by simp⟩
  have hid := List.findIdx_getElem (w := hlt)
  have hsame : attempts[attempts.findIdx (·.attemptId = a.attemptId)] = a :=
    List.inj_on_of_nodup_map hids (List.getElem_mem hlt) ha (of_decide_eq_true hid)
  rw [List.getElem?_eq_getElem hlt, hsame]
  exact ⟨_, rfl⟩

theorem enumerateM_of_forall {f : AttemptRecord → Except Failure AttemptRecord}
    {l m : List AttemptRecord} {index : Nat} (h : List.Forall₂ (fun x y => f x = .ok y) l m) :
    enumerateM (fun _ x => f x) index l = .ok m := by
  induction h generalizing index with
  | nil => rfl
  | cons hxy _ ih => rw [enumerateM, hxy, bind_ok_eq, ih, bind_ok_eq, pure_eq_ok]

theorem writeJournal_returns {encoded : List AttemptRecord} (hvalid : ValidAttempts attempts)
    (hencoded : List.Forall₂ (fun a b => encodeRecord E a = .ok b) attempts encoded) :
    Triple (· = s) (writeJournal E { A.noAttempts with attempts := attempts })
      (Returns fun _ t => attemptsOf t = encoded) fun _ => True := by
  have hvalidate : validateAttempts attempts = .ok () := validateAttempts_eq_ok.mpr hvalid
  obtain ⟨d, hd, hattempts⟩ : ∃ d, encodeJournal E { A.noAttempts with attempts := attempts } =
      .ok d ∧ d.attempts = encoded := by
    have hall : enumerateM (fun _ => encodeRecord E) 0 attempts = .ok encoded :=
      enumerateM_of_forall hencoded
    exact ⟨_, by rw [encodeJournal, hall, bind_ok_eq, pure_eq_ok], rfl⟩
  refine Triple.bind_run (a := ()) (by rw [Program.lift_run, hvalidate]) ?_
  refine Triple.bind_run (a := d) (by rw [Program.lift_run, hd]) ?_
  refine Triple.attempt _ ?_ ?_
  · rintro u u' rfl hu
    cases hu
    exact ⟨trivial, (), rfl, hattempts⟩
  · rintro u e rfl hu
    cases hu

/-- An attempt that is no longer live leaves no other live one behind. -/
theorem ValidAttempts.interrupt {i : Nat} (h : ValidAttempts attempts) (ha : attempts[i]? = some a)
    (hlive : a.state.live = true) (hid : b.attemptId = a.attemptId)
    (htoken : b.releaseTokenDigest = a.releaseTokenDigest) (hb : b.state.live = false) :
    ValidAttempts (attempts.set i b) ∧ ∀ x ∈ attempts.set i b, x.state.live = false := by
  obtain ⟨hlt, hget⟩ := List.getElem?_eq_some_iff.mp ha
  have hmem : a ∈ attempts := List.mem_of_getElem? ha
  have hmap : ∀ f : AttemptRecord → String, f b = f a →
      (attempts.set i b).map f = attempts.map f := by
    intro f hf
    rw [List.map_set, hf, ← hget, ← List.getElem_map f (h := by simpa using hlt),
      List.set_getElem_self]
  have hcount : (attempts.set i b).countP (·.state.live) = 0 := by
    have hle := h.live
    rw [List.countP_set hlt, hget, hlive, hb]
    simp only [if_true, Bool.false_eq_true, if_false]
    omega
  constructor
  · refine ⟨fun x hx => ?_, fun x hx => ?_, ?_, ?_, ?_⟩
    · rcases List.mem_or_eq_of_mem_set hx with hx | rfl
      · exact h.uuids x hx
      · rw [hid]
        exact h.uuids a hmem
    · rcases List.mem_or_eq_of_mem_set hx with hx | rfl
      · exact h.digests x hx
      · rw [htoken]
        exact h.digests a hmem
    · rw [hmap _ hid]
      exact h.ids
    · rw [hmap _ htoken]
      exact h.tokens
    · omega
  · intro x hx
    have hnone := List.countP_eq_zero.mp hcount x hx
    exact Bool.not_eq_true _ ▸ hnone

/-- A live attempt whose receipt file is not half written is retired, and no other one is live. -/
theorem recoverInterrupted_returns (h : StoreInvariant A E s)
    (hmatch : ReceiptsMatch A (attemptsOf s) s) (ha : a ∈ attemptsOf s)
    (hlive : a.state.live = true) (hfile : s.receipts a.attemptId ≠ .broken) (recordedAt : String) :
    Triple (· = s) (A.recoverInterrupted E a.attemptId "gone" none recordedAt)
      (Returns fun _ t => ∀ x ∈ attemptsOf t, x.state.live = false) fun _ => True := by
  obtain ⟨i, hfind⟩ := findAttempt_mem (A := A) h.valid.ids ha
  have hget := (findAttempt_eq_ok hfind).1
  have hnotTerminal : a.state.terminal = false := by
    cases hs : a.state
    all_goals simp_all [AttemptState.live, AttemptState.terminal]
  have huuid : attemptUuid a.attemptId "attempt_id" = .ok () :=
    attemptUuid_eq_ok.mpr (h.valid.uuids a ha)
  have hstored : ∃ stored, loadReceipt a.attemptId s = .ok stored ∧
      A.checkRecovery a none stored = .ok () := by
    rw [loadReceipt, huuid, bind_ok_eq]
    cases hslot : s.receipts a.attemptId with
    | absent => exact ⟨none, rfl, rfl⟩
    | broken => exact absurd hslot hfile
    | whole receipt =>
      obtain ⟨b, hb, hid, hreceipt⟩ := hmatch _ _ hslot
      obtain rfl := List.inj_on_of_nodup_map h.valid.ids hb ha hid
      have hvalid : A.validateReceipt b receipt = .ok () := validateReceipt_eq_ok.mpr hreceipt
      exact ⟨some receipt, rfl, by simp [AttemptStore.checkRecovery, hvalid, check, bind_ok_eq]⟩
  obtain ⟨stored, hstored, hcheck⟩ := hstored
  have hencode := (h.encoded a ha).update .interrupted a.releasedAt
    (some ⟨recordedAt, "interrupted", canonicalNull, canonicalNull⟩)
  rw [(h.encoded a ha).releasedAt] at hencode
  have hinterrupted := h.valid.interrupt (b := AttemptStore.interruptedRecord a recordedAt) hget
    hlive rfl rfl rfl
  have hencoded := forall₂_set h.encodes hencode i
  have hwritten := h.valid.interrupt (b := { a with
    state := .interrupted, releasedAt := a.releasedAt,
    result := (some ⟨recordedAt, "interrupted", canonicalNull, canonicalNull⟩ :
      Option TerminalResult).map (encodeResult E) }) hget hlive rfl rfl rfl
  refine Triple.bind_run (a := ()) rfl ?_
  refine Triple.bind_run (a := { A.noAttempts with attempts := attemptsOf s })
    (by rw [Program.inspect_run, h.loads]) ?_
  refine Triple.bind_run (a := (i, a)) (by rw [Program.lift_run, hfind]) ?_
  show Triple (· = s) (if a.state.terminal then _ else _) _ _
  rw [hnotTerminal]
  refine Triple.bind_run (a := stored) (by rw [Program.inspect_run, hstored]) ?_
  refine Triple.bind_run (a := ()) (by rw [Program.lift_run, hcheck]) ?_
  refine (writeJournal_returns hinterrupted.1 hencoded).bind_returns fun _ => ?_
  refine Triple.of_forall fun t ht => Triple.returns ?_
  rw [ht]
  exact hwritten.2

/-- A half-written receipt stops the recovery. -/
theorem recoverInterrupted_broken (h : StoreInvariant A E s) (ha : a ∈ attemptsOf s)
    (hlive : a.state.live = true) (hfile : s.receipts a.attemptId = .broken) (recordedAt : String) :
    (A.recoverInterrupted E a.attemptId "gone" none recordedAt).out s =
      .error (corrupt "release receipt is corrupt") := by
  obtain ⟨i, hfind⟩ := findAttempt_mem (A := A) h.valid.ids ha
  have hnotTerminal : a.state.terminal = false := by
    cases hs : a.state
    all_goals simp_all [AttemptState.live, AttemptState.terminal]
  have huuid : attemptUuid a.attemptId "attempt_id" = .ok () :=
    attemptUuid_eq_ok.mpr (h.valid.uuids a ha)
  have hload : loadReceipt a.attemptId s = .error (corrupt "release receipt is corrupt") := by
    rw [loadReceipt, huuid, bind_ok_eq, hfile]
  have hraised : Triple (· = s) (A.recoverInterrupted E a.attemptId "gone" none recordedAt)
      (fun o _ => o = .error (corrupt "release receipt is corrupt")) fun _ => True := by
    refine Triple.bind_run (a := ()) rfl ?_
    refine Triple.bind_run (a := { A.noAttempts with attempts := attemptsOf s })
      (by rw [Program.inspect_run, h.loads]) ?_
    refine Triple.bind_run (a := (i, a)) (by rw [Program.lift_run, hfind]) ?_
    show Triple (· = s) (if a.state.terminal then _ else _) _ _
    rw [hnotTerminal]
    rintro u rfl
    have hrun := Program.bind_of_error (f := fun stored => do
      Program.lift (A.checkRecovery a none stored)
      let interrupted := AttemptStore.interruptedRecord a recordedAt
      writeJournal E { A.noAttempts with attempts := (attemptsOf u).set i interrupted }
      return interrupted) (show (Program.inspect (loadReceipt a.attemptId)).run u = _ by
        rw [Program.inspect_run, hload])
    refine ⟨fun _ _ => trivial, ?_⟩
    exact congrArg Run.out hrun
  exact (hraised s rfl).2

/-- From every state a run can leave, cut off or not, a live attempt of which nothing runs any more
is retired exactly when its receipt is not half written; after that no attempt is live. -/
theorem attempt_recovery_iff (A : AttemptStore) (E : TextEncoding) {s : Files}
    (hs : StoreRun A E Files.empty s) {a : AttemptRecord} (ha : a ∈ attemptsOf s)
    (hlive : a.state.live = true) (recordedAt : String) :
    (∃ interrupted, (A.recoverInterrupted E a.attemptId "gone" none recordedAt).out s =
        .ok interrupted ∧
      ∀ x ∈ attemptsOf ((A.recoverInterrupted E a.attemptId "gone" none recordedAt).final s),
        x.state.live = false) ↔
      s.receipts a.attemptId ≠ .broken := by
  obtain ⟨hinv, hmatch⟩ := hs.receiptsMatch
  constructor
  · rintro ⟨interrupted, hout, -⟩ hfile
    rw [recoverInterrupted_broken hinv ha hlive hfile] at hout
    cases hout
  · intro hfile
    exact (recoverInterrupted_returns hinv hmatch ha hlive hfile recordedAt).run rfl

/-! ### A crash between creating a receipt and filling it -/

def sampleRelease : Program Files Failure AttemptRecord :=
  (AttemptCall.released (sampleUuid '3') sampleReceipt).run sampleStore sampleTextEncoding

/-- The release of the prepared attempt, cut off after its first effects. -/
def sampleCut (k : Nat) : Files := (sampleRelease.states samplePrepared).getD k samplePrepared

theorem sampleCut_run (k : Nat) : StoreRun sampleStore sampleTextEncoding .empty (sampleCut k) := by
  have hprepared : StoreRun sampleStore sampleTextEncoding .empty samplePrepared :=
    .single (.call (.prepare samplePreparation) (Program.final_mem_states _ _))
  have hcut : sampleCut k ∈ sampleRelease.states samplePrepared :=
    Program.getD_mem_states sampleRelease samplePrepared k
  exact hprepared.tail (.call (.released (sampleUuid '3') sampleReceipt) hcut)

def Slot.isBroken {α : Type} : Slot α → Bool
  | .broken => true
  | _ => false

theorem Slot.eq_broken {α : Type} {file : Slot α} (h : file.isBroken = true) : file = .broken := by
  cases file with
  | broken => rfl
  | absent => cases h
  | whole _ => cases h

/-- The receipt is created, and filled, while the journal still says prepared. -/
theorem sampleCut_live : ∀ k ∈ [1, 2], (attemptsOf (sampleCut k)).map
    (fun a => (a.attemptId, a.state)) = [(sampleUuid '3', .prepared)] ∧
      ((sampleCut k).receipts (sampleUuid '3')).isBroken = decide (k = 1) := by
  decide

theorem sampleCut_attempt {k : Nat} (hk : k ∈ [1, 2]) : ∃ a ∈ attemptsOf (sampleCut k),
    a.attemptId = sampleUuid '3' ∧ a.state.live = true := by
  have hmem : (sampleUuid '3', AttemptState.prepared) ∈ (attemptsOf (sampleCut k)).map
      fun a => (a.attemptId, a.state) := by
    rw [(sampleCut_live k hk).1]
    exact List.mem_singleton_self _
  obtain ⟨a, ha, heq⟩ := List.mem_map.mp hmem
  obtain ⟨hid, hstate⟩ := Prod.mk.inj heq
  refine ⟨a, ha, hid, ?_⟩
  rw [hstate]
  rfl

/-- The filled receipt lets the attempt be recovered. -/
theorem attempt_recovery_iff_sample : ∃ a ∈ attemptsOf (sampleCut 2), a.state.live = true ∧
    ∃ interrupted, (sampleStore.recoverInterrupted sampleTextEncoding a.attemptId "gone" none
      "later").out (sampleCut 2) = .ok interrupted ∧
      ∀ x ∈ attemptsOf ((sampleStore.recoverInterrupted sampleTextEncoding a.attemptId "gone" none
        "later").final (sampleCut 2)), x.state.live = false := by
  obtain ⟨a, ha, hid, hlive⟩ := sampleCut_attempt (k := 2) (by decide)
  refine ⟨a, ha, hlive, (attempt_recovery_iff sampleStore sampleTextEncoding (sampleCut_run 2) ha
    hlive "later").mpr fun hbroken => ?_⟩
  have hwhole := (sampleCut_live 2 (by decide)).2
  rw [← hid, hbroken] at hwhole
  cases hwhole

theorem attempt_recovery_stuck : ¬ ∀ (A : AttemptStore) (E : TextEncoding) (s : Files)
    (a : AttemptRecord) (recordedAt : String), StoreRun A E Files.empty s → a ∈ attemptsOf s →
    a.state.live = true → ∃ interrupted,
      (A.recoverInterrupted E a.attemptId "gone" none recordedAt).out s = .ok interrupted := by
  intro hall
  obtain ⟨a, ha, hid, hlive⟩ := sampleCut_attempt (k := 1) (by decide)
  obtain ⟨interrupted, hout⟩ := hall sampleStore sampleTextEncoding (sampleCut 1) a "later"
    (sampleCut_run 1) ha hlive
  have hfile : (sampleCut 1).receipts a.attemptId = .broken := by
    rw [hid]
    exact Slot.eq_broken (sampleCut_live 1 (by decide)).2
  have hinv := (sampleCut_run 1).receiptsMatch.1
  rw [recoverInterrupted_broken hinv ha hlive hfile] at hout
  cases hout

end AgentStack.Providers
