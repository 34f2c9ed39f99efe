import AgentStack.Providers.AttemptTexts
import Mathlib.Logic.Relation

/-! The attempts of a store under any calls, each of which may be cut off at any of its effects. -/
namespace AgentStack.Providers

open AgentStack.Core Crash JsonText JsonValue KeyedList

variable {A : AttemptStore} {E : TextEncoding} {s t : Files} {a b c : AttemptRecord}
  {d : AttemptJournal} {attempts : List AttemptRecord} {receipt stored : Members}

/-! ### The invariant -/

def attemptsOf (s : Files) : List AttemptRecord :=
  match s.journal with
  | .whole d => d.attempts
  | _ => []

/-- The moves of one attempt; what identifies it stays. -/
inductive AttemptMove : AttemptRecord → AttemptRecord → Prop
  | release (a : AttemptRecord) (releasedAt : Option String) (h : a.state = .prepared) :
    AttemptMove a { a with state := .released, releasedAt := releasedAt }
  | finish (a : AttemptRecord) (state : AttemptState) (result : Option TerminalResult)
    (h : a.state = .released) (hstate : state.terminal = true) :
    AttemptMove a { a with state := state, result := result }
  | interrupt (a : AttemptRecord) (result : Option TerminalResult) (h : a.state.live = true) :
    AttemptMove a { a with state := .interrupted, result := result }

abbrev AttemptMoves := Relation.ReflTransGen AttemptMove

theorem AttemptMove.not_terminal (h : AttemptMove a b) : a.state.terminal = false := by
  cases h with
  | release _ h => rw [h]; rfl
  | finish _ _ h _ => rw [h]; rfl
  | interrupt _ h => cases hs : a.state <;> simp_all [AttemptState.live, AttemptState.terminal]

theorem AttemptMoves.of_terminal (h : AttemptMoves a b) (ha : a.state.terminal = true) : b = a := by
  induction h using Relation.ReflTransGen.head_induction_on with
  | refl => rfl
  | head move _ _ =>
    rw [move.not_terminal] at ha
    cases ha

/-- Attempts keep their places and move on, and new ones come in at the end as prepared. -/
structure Grown (before after : List AttemptRecord) : Prop where
  kept : ∀ (i : Nat) a, before[i]? = some a → ∃ b, after[i]? = some b ∧ AttemptMoves a b
  added : ∀ (i : Nat) b, before[i]? = none → after[i]? = some b →
    ∃ a, a.state = .prepared ∧ AttemptMoves a b

theorem Grown.refl (l : List AttemptRecord) : Grown l l where
  kept _ a h := ⟨a, h, .refl⟩
  added _ b h h' := by
    rw [h] at h'
    cases h'

theorem Grown.trans {l m n : List AttemptRecord} (h : Grown l m) (h' : Grown m n) : Grown l n where
  kept i a ha := by
    obtain ⟨b, hb, hab⟩ := h.kept i a ha
    obtain ⟨c, hc, hbc⟩ := h'.kept i b hb
    exact ⟨c, hc, hab.trans hbc⟩
  added i c hl hc := by
    cases hm : m[i]? with
    | none => exact h'.added i c hm hc
    | some b =>
      obtain ⟨a, ha, hab⟩ := h.added i b hl hm
      obtain ⟨c', hc', hbc⟩ := h'.kept i b hm
      rw [hc] at hc'
      cases hc'
      exact ⟨a, ha, hab.trans hbc⟩

theorem grown_append (hb : b.state = .prepared) : Grown attempts (attempts ++ [b]) where
  kept i a ha := by
    obtain ⟨hlt, -⟩ := List.getElem?_eq_some_iff.mp ha
    exact ⟨a, by rw [List.getElem?_append_left hlt, ha], .refl⟩
  added i c hi hc := by
    rw [List.getElem?_eq_none_iff] at hi
    rw [List.getElem?_append_right hi, List.getElem?_singleton] at hc
    split at hc
    · cases hc
      exact ⟨b, hb, .refl⟩
    · cases hc

theorem grown_set {i : Nat} (ha : attempts[i]? = some a) (hmove : AttemptMove a b) :
    Grown attempts (attempts.set i b) where
  kept j c hc := by
    by_cases hij : i = j
    · subst hij
      rw [ha] at hc
      cases hc
      obtain ⟨hlt, -⟩ := List.getElem?_eq_some_iff.mp ha
      exact ⟨b, by rw [List.getElem?_set_self hlt], .single hmove⟩
    · exact ⟨c, by rw [List.getElem?_set_ne hij, hc], .refl⟩
  added j c hj hc := by
    rw [List.getElem?_eq_none_iff] at hj
    obtain ⟨hlt, -⟩ := List.getElem?_eq_some_iff.mp hc
    rw [List.length_set] at hlt
    omega

/-- The receipt an attempt that was released has on disk. -/
def Receipted (A : AttemptStore) (s : Files) (a : AttemptRecord) : Prop :=
  a.state = .released ∨ a.state = .succeeded ∨ a.state = .failed →
    ∃ receipt text, s.receipts a.attemptId = .whole receipt ∧ ReceiptOf A a receipt ∧
      getField receipt "released_at" = .string text ∧ a.releasedAt = some text

structure StoreInvariant (A : AttemptStore) (E : TextEncoding) (s : Files) : Prop where
  loads : A.load s = .ok { A.noAttempts with attempts := attemptsOf s }
  valid : ValidAttempts (attemptsOf s)
  encoded : ∀ a ∈ attemptsOf s, Encoded E a
  receipted : ∀ a ∈ attemptsOf s, Receipted A s a
  receipts : ∀ attemptId receipt, s.receipts attemptId = .whole receipt → ReceiptEncoded E receipt

theorem storeInvariant_empty : StoreInvariant A E Files.empty where
  loads := rfl
  valid := by constructor <;> simp [attemptsOf, Files.empty]
  encoded _ h := absurd h List.not_mem_nil
  receipted _ h := absurd h List.not_mem_nil
  receipts _ _ h := by cases h

theorem checkIdentity_own :
    A.checkIdentity { A.noAttempts with attempts := attempts } = .ok () := by
  simp [AttemptStore.checkIdentity, AttemptStore.noAttempts, check]

theorem load_whole (h : s.journal = .whole { A.noAttempts with attempts := attempts })
    (hvalid : ValidAttempts attempts) :
    A.load s = .ok { A.noAttempts with attempts := attempts } := by
  have hok : validateAttempts attempts = .ok () := validateAttempts_eq_ok.mpr hvalid
  rw [AttemptStore.load, h]
  simp only [checkIdentity_own, bind_ok_eq, hok, pure_eq_ok]

/-- What a call cut off anywhere leaves. -/
structure Next (A : AttemptStore) (E : TextEncoding) (s t : Files) : Prop where
  invariant : StoreInvariant A E t
  grown : Grown (attemptsOf s) (attemptsOf t)

theorem Next.of_journal (h : StoreInvariant A E t) (hsame : t.journal = s.journal) :
    Next A E s t where
  invariant := h
  grown := by
    rw [attemptsOf, attemptsOf, hsame]
    exact .refl _

/-! ### One call -/

/-- A journal of the store's own is written with the encoded records. -/
theorem encodeJournal_own {encoded : AttemptJournal}
    (h : encodeJournal E { A.noAttempts with attempts := attempts } = .ok encoded) :
    encoded = { A.noAttempts with attempts := encoded.attempts } ∧
      List.Forall₂ (fun a b => encodeRecord E a = .ok b) attempts encoded.attempts := by
  obtain ⟨records, hrecords, h⟩ := bind_eq_ok h
  obtain rfl := Except.ok.inj h
  have hschema : Ascii "agent-workflow.provider-attempts" := by decide
  have hworkspace := ascii_of_isUuid (attemptUuid_eq_ok.mp A.workspace_ok)
  have hplan := ascii_of_isDigest (attemptDigest_eq_ok.mp A.plan_ok)
  have htransaction := ascii_of_isUuid (attemptUuid_eq_ok.mp A.transaction_ok)
  have happroval := ascii_of_nullableDigest A.approval_ok
  constructor
  · simp only [AttemptStore.noAttempts, E.nfc_ascii _ hschema, E.nfc_ascii _ hworkspace,
      E.nfc_ascii _ hplan, E.nfc_ascii _ htransaction, E.nfc_ascii _ happroval]
  · refine (enumerateM_ok hrecords).imp fun a b h => ?_
    obtain ⟨_, h⟩ := h
    exact h

/-- The journal is exchanged for one whose encoded records have their receipts. -/
theorem writeJournal_next (attempts : List AttemptRecord) (h : Next A E s t)
    (hnew : ∀ encoded, List.Forall₂ (fun a b => encodeRecord E a = .ok b) attempts encoded →
      Grown (attemptsOf t) encoded ∧ ∀ a ∈ encoded, Receipted A t a) :
    Triple (· = t) (writeJournal E { A.noAttempts with attempts := attempts })
      (Ends (fun _ => Next A E s) (Next A E s)) (Next A E s) := by
  refine Triple.lift_bind_ends h fun _ hvalid => ?_
  refine Triple.lift_bind_ends h fun encoded hencoded => ?_
  obtain ⟨hown, hall⟩ := encodeJournal_own hencoded
  obtain ⟨hgrown, hreceipts⟩ := hnew _ hall
  have hvalid := (validateAttempts_eq_ok.mp hvalid).encode hall
  have hnext : Next A E s { t with journal := .whole encoded } := by
    constructor
    · constructor
      · rw [attemptsOf]
        refine load_whole ?_ hvalid
        rw [← hown]
      · exact hvalid
      · intro b hb
        obtain ⟨a, -, hab⟩ := forall₂_right hall b hb
        exact encodeRecord_encoded hab
      · exact hreceipts
      · exact h.invariant.receipts
    · exact h.grown.trans hgrown
  refine Triple.attempt _ ?_ ?_
  · rintro u u' rfl hu
    cases hu
    exact ⟨hnext, hnext⟩
  · rintro u e rfl hu
    cases hu

theorem forall₂_set {α β : Type} {R : α → β → Prop} {l : List α} {m : List β} {x : α} {y : β}
    (h : List.Forall₂ R l m) (hxy : R x y) (i : Nat) : List.Forall₂ R (l.set i x) (m.set i y) := by
  induction h generalizing i with
  | nil => exact .nil
  | cons hab htail ih =>
    cases i with
    | zero => exact .cons hxy htail
    | succ i => exact .cons hab (ih i)

theorem forall₂_append {α β : Type} {R : α → β → Prop} {l : List α} {m : List β} {x : α} {y : β}
    (h : List.Forall₂ R l m) (hxy : R x y) : List.Forall₂ R (l ++ [x]) (m ++ [y]) := by
  induction h with
  | nil => exact .cons hxy .nil
  | cons hab _ ih => exact .cons hab ih

theorem encode_unique {l m n : List AttemptRecord}
    (h : List.Forall₂ (fun a b => encodeRecord E a = .ok b) l m)
    (h' : List.Forall₂ (fun a b => encodeRecord E a = .ok b) l n) : m = n := by
  refine List.right_unique_forall₂' (fun a b c hb hc => ?_) h h'
  rw [hb] at hc
  exact Except.ok.inj hc

theorem StoreInvariant.encodes (h : StoreInvariant A E t) :
    List.Forall₂ (fun a b => encodeRecord E a = .ok b) (attemptsOf t) (attemptsOf t) :=
  List.forall₂_same.mpr h.encoded

/-- Stored records encode to themselves, so that only the new one is encoded. -/
theorem StoreInvariant.encoded_append {m : List AttemptRecord} (h : StoreInvariant A E t)
    (hm : List.Forall₂ (fun a b => encodeRecord E a = .ok b) (attemptsOf t ++ [a]) m) :
    ∃ b, encodeRecord E a = .ok b ∧ m = attemptsOf t ++ [b] := by
  obtain ⟨b, -, hb⟩ := forall₂_right hm.flip a (by simp)
  exact ⟨b, hb, encode_unique hm (forall₂_append h.encodes hb)⟩

theorem StoreInvariant.encoded_set {m : List AttemptRecord} {i : Nat} (h : StoreInvariant A E t)
    (ha : encodeRecord E a = .ok b)
    (hm : List.Forall₂ (fun a b => encodeRecord E a = .ok b) ((attemptsOf t).set i a) m) :
    m = (attemptsOf t).set i b :=
  encode_unique hm (forall₂_set h.encodes ha i)

theorem findAttempt_eq_ok {attemptId : String} {i : Nat}
    (h : findAttempt d attemptId = .ok (i, a)) :
    d.attempts[i]? = some a ∧ a.attemptId = attemptId := by
  unfold findAttempt at h
  simp only at h
  split at h
  next found hfound =>
    cases h
    obtain ⟨hlt, hget⟩ := List.getElem?_eq_some_iff.mp hfound
    have hid := List.findIdx_getElem (w := hlt)
    rw [hget] at hid
    exact ⟨hfound, of_decide_eq_true hid⟩
  next => cases h

/-- A receipt is replaced under the id of an attempt that is not released. -/
theorem StoreInvariant.setReceipt (h : StoreInvariant A E s) {file : Slot Members}
    (ha : a ∈ attemptsOf s) (hstate : a.state = .prepared)
    (hfile : ∀ receipt, file = .whole receipt → ReceiptEncoded E receipt) :
    StoreInvariant A E (s.setReceipt a.attemptId file) where
  loads := h.loads
  valid := h.valid
  encoded := h.encoded
  receipted := by
    intro b hb hreleased
    have hne : b.attemptId ≠ a.attemptId := by
      intro heq
      have hab : b = a := List.inj_on_of_nodup_map h.valid.ids hb ha heq
      rw [hab, hstate] at hreleased
      rcases hreleased with h | h | h <;> cases h
    obtain ⟨receipt, text, hreceipt, hrest⟩ := h.receipted b hb hreleased
    refine ⟨receipt, text, ?_, hrest⟩
    rw [Files.setReceipt_ne _ _ _ _ hne, hreceipt]
  receipts := by
    intro attemptId receipt hreceipt
    by_cases hid : attemptId = a.attemptId
    · subst hid
      rw [Files.setReceipt_same] at hreceipt
      exact hfile receipt hreceipt
    · rw [Files.setReceipt_ne _ _ _ _ hid] at hreceipt
      exact h.receipts attemptId receipt hreceipt

/-- The store once a receipt is on disk, before the journal says so. -/
structure ReceiptStored (A : AttemptStore) (E : TextEncoding) (s : Files) (a : AttemptRecord)
    (receipt : Members) (t : Files) : Prop where
  next : Next A E s t
  journal : t.journal = s.journal
  stored : ∃ stored text, t.receipts a.attemptId = .whole stored ∧ ReceiptOf A a stored ∧
    getField stored "released_at" = .string (E.nfc text) ∧
    getField receipt "released_at" = .string text

theorem storeReceipt_stored (h : StoreInvariant A E s) (ha : a ∈ attemptsOf s)
    (hstate : a.state = .prepared) (hr : ReceiptOf A a receipt) :
    Triple (· = s) (AttemptStore.storeReceipt E a.attemptId receipt)
      (Ends (fun _ => ReceiptStored A E s a receipt) (Next A E s)) (Next A E s) := by
  have hself : Next A E s s := .of_journal h rfl
  have hset : ∀ file, (∀ stored, file = .whole stored → ReceiptEncoded E stored) →
      Next A E s (s.setReceipt a.attemptId file) := fun file hfile =>
    .of_journal (h.setReceipt ha hstate hfile) rfl
  refine Triple.inspect_bind_ends hself fun found hfound => ?_
  obtain ⟨_, -, hfound⟩ := bind_eq_ok hfound
  cases found with
  | none =>
    refine Triple.lift_bind_ends hself fun _ _ => ?_
    have hcreate : Triple (· = s) (Program.attempt (createReceipt a.attemptId))
        (Ends (fun _ u => u = s.setReceipt a.attemptId .broken) (Next A E s)) (Next A E s) := by
      refine Triple.attempt _ ?_ ?_
      · rintro u u' rfl hu
        unfold createReceipt at hu
        split at hu
        · cases hu
          exact ⟨hset _ (by simp), rfl⟩
        · cases hu
      · rintro u e rfl -
        exact hself
    refine hcreate.bind_ends fun _ => ?_
    cases hencode : encodeReceipt E receipt with
    | ok stored =>
      refine Triple.attempt _ ?_ ?_
      · rintro u u' rfl hu
        cases hu
        rw [Files.setReceipt_setReceipt]
        have hnext := hset (.whole stored) (by
          rintro stored' heq
          cases heq
          exact encodeReceipt_encoded hencode)
        obtain ⟨hvalid, text, htext, hstored⟩ := hr.encode (h.encoded a ha) hencode
        exact ⟨hnext, hnext, rfl, stored, text, Files.setReceipt_same .., hvalid, hstored, htext⟩
      · rintro u e rfl hu
        cases hu
    | error e =>
      have hremove : Triple (· = s.setReceipt a.attemptId .broken)
          (Program.attempt fun s : Files =>
            (.ok (s.setReceipt a.attemptId .absent) : Except Failure Files))
          (Ends (fun _ => Next A E s) (Next A E s)) (Next A E s) := by
        refine Triple.attempt _ ?_ ?_
        · rintro u u' rfl hu
          cases hu
          rw [Files.setReceipt_setReceipt]
          exact ⟨hset _ (by simp), hset _ (by simp)⟩
        · rintro u e rfl hu
          cases hu
      refine hremove.bind_ends fun _ => Triple.of_forall fun u hu => ?_
      exact Triple.throw_ends hu
  | some stored =>
    have hfile : s.receipts a.attemptId = .whole stored := by
      split at hfound
      · cases hfound
      · cases hfound
      · cases hfound
        assumption
    refine Triple.inspect (fun _ => check (receiptsEqual stored receipt) _) ?_
    rintro u rfl
    cases hequal : receiptsEqual stored receipt with
    | false => exact hself
    | true =>
      obtain ⟨hvalid, hreleased⟩ := hr.equal hequal
      obtain ⟨text, htext⟩ := hvalid.released
      have hnormal := ReceiptEncoded.released (h.receipts _ _ hfile) hvalid htext
      refine ⟨hself, rfl, stored, text, hfile, hvalid, ?_, ?_⟩
      · rw [hnormal, htext]
      · rw [← hreleased, htext]

/-- One stored attempt moves on, and its receipt is there when it has to be. -/
theorem writeSet_next (h : Next A E s t) {i : Nat} (ha : (attemptsOf t)[i]? = some a)
    (hb : encodeRecord E b = .ok c) (hmove : AttemptMove a c) (hreceipt : Receipted A t c) :
    Triple (· = t)
      (writeJournal E { A.noAttempts with attempts := (attemptsOf t).set i b })
      (Ends (fun _ => Next A E s) (Next A E s)) (Next A E s) := by
  refine writeJournal_next _ h fun encoded hencoded => ?_
  rw [h.invariant.encoded_set hb hencoded]
  refine ⟨grown_set ha hmove, fun x hx => ?_⟩
  rcases List.mem_or_eq_of_mem_set hx with hx | rfl
  · exact h.invariant.receipted x hx
  · exact hreceipt

theorem prepare_next (h : StoreInvariant A E s) (request : Preparation) :
    Triple (· = s) (A.prepare E request) (Ends (fun _ => Next A E s) (Next A E s))
      (Next A E s) := by
  have hself : Next A E s s := .of_journal h rfl
  refine Triple.inspect_bind_ends hself fun document hload => ?_
  rw [h.loads] at hload
  cases hload
  refine Triple.lift_bind_ends hself fun record hrecord => ?_
  have hprepared : record.state = .prepared := by
    unfold preparedRecord at hrecord
    repeat obtain ⟨_, -, hrecord⟩ := bind_eq_ok hrecord
    cases hrecord
    rfl
  have hwrite := writeJournal_next (attemptsOf s ++ [record]) hself
    fun encoded hencoded => by
      obtain ⟨b, hb, rfl⟩ := h.encoded_append hencoded
      have hstate : b.state = .prepared := by
        obtain ⟨m, -, hb⟩ := bind_eq_ok hb
        obtain ⟨_, -, hb⟩ := bind_eq_ok hb
        cases hb
        exact hprepared
      refine ⟨grown_append hstate, fun x hx => ?_⟩
      rcases List.mem_append.mp hx with hx | hx
      · exact h.receipted x hx
      · obtain rfl := List.mem_singleton.mp hx
        intro hreleased
        rw [hstate] at hreleased
        rcases hreleased with h | h | h <;> cases h
  refine hwrite.bind_ends fun _ => Triple.of_forall fun u hu => ?_
  exact Triple.returns_ends hu

theorem recordReleased_next (h : StoreInvariant A E s) (attemptId : String) (receipt : Members) :
    Triple (· = s) (A.recordReleased E attemptId receipt)
      (Ends (fun _ => Next A E s) (Next A E s)) (Next A E s) := by
  have hself : Next A E s s := .of_journal h rfl
  refine Triple.inspect_bind_ends hself fun document hload => ?_
  rw [h.loads] at hload
  cases hload
  refine Triple.lift_bind_ends hself fun found hfound => ?_
  obtain ⟨⟨i, a⟩, hfind, hfound⟩ := bind_eq_ok hfound
  obtain ⟨_, hstate, hfound⟩ := bind_eq_ok hfound
  obtain ⟨_, hreceipt, hfound⟩ := bind_eq_ok hfound
  cases hfound
  obtain ⟨hget, rfl⟩ := findAttempt_eq_ok hfind
  have hstate : a.state = .prepared := of_decide_eq_true (check_eq_ok.mp hstate)
  have hreceipt := validateReceipt_eq_ok.mp hreceipt
  have ha : a ∈ attemptsOf s := List.mem_of_getElem? hget
  refine (storeReceipt_stored h ha hstate hreceipt).bind_ends fun _ => ?_
  refine Triple.of_forall fun t ht => ?_
  obtain ⟨stored, text, hstored, hvalid, hnormal, htext⟩ := ht.stored
  have hsame : attemptsOf t = attemptsOf s := by rw [attemptsOf, attemptsOf, ht.journal]
  have hencode := (h.encoded a ha).update .released
    (stringValue? (getField receipt "released_at")) a.result
  have hwrite := writeSet_next ht.next (i := i) (by rw [hsame]; exact hget) hencode ?_ ?_
  · rw [hsame] at hwrite
    exact hwrite.bind_ends fun _ => Triple.of_forall fun u hu => Triple.returns_ends hu
  · rw [(h.encoded a ha).result]
    exact .release a _ hstate
  · intro _
    refine ⟨stored, E.nfc text, hstored, ⟨hvalid.closed, hvalid.version, hvalid.texts,
      hvalid.released⟩, hnormal, ?_⟩
    rw [htext]
    rfl

theorem recordTerminal_next (h : StoreInvariant A E s) (attemptId : String)
    (result : AttemptStore.Termination) :
    Triple (· = s) (A.recordTerminal E attemptId result)
      (Ends (fun _ => Next A E s) (Next A E s)) (Next A E s) := by
  have hself : Next A E s s := .of_journal h rfl
  refine Triple.lift_bind_ends hself fun _ hterminal => ?_
  have hterminal := check_eq_ok.mp hterminal
  refine Triple.inspect_bind_ends hself fun document hload => ?_
  rw [h.loads] at hload
  cases hload
  refine Triple.lift_bind_ends hself fun found hfound => ?_
  obtain ⟨⟨i, a⟩, hfind, hfound⟩ := bind_eq_ok hfound
  obtain ⟨_, hstate, hfound⟩ := bind_eq_ok hfound
  obtain ⟨_, -, hfound⟩ := bind_eq_ok hfound
  obtain ⟨_, -, hfound⟩ := bind_eq_ok hfound
  cases hfound
  obtain ⟨hget, rfl⟩ := findAttempt_eq_ok hfind
  have hstate : a.state = .released := of_decide_eq_true (check_eq_ok.mp hstate)
  have ha : a ∈ attemptsOf s := List.mem_of_getElem? hget
  have hencode := (h.encoded a ha).update result.state a.releasedAt (some ⟨result.terminalAt,
    result.resultCategory, result.sanitizedOutputDigest, result.candidateOutputDigest⟩)
  rw [(h.encoded a ha).releasedAt] at hencode
  refine (writeSet_next hself hget hencode (.finish a _ _ hstate hterminal) ?_).bind_ends
    fun _ => Triple.of_forall fun u hu => Triple.returns_ends hu
  intro _
  obtain ⟨stored, text, hstored, hvalid, hrest⟩ := h.receipted a ha (Or.inl hstate)
  exact ⟨stored, text, hstored, ⟨hvalid.closed, hvalid.version, hvalid.texts, hvalid.released⟩,
    hrest⟩

theorem recoverInterrupted_next (h : StoreInvariant A E s) (attemptId containment : String)
    (receipt : Option Members) (recordedAt : String) :
    Triple (· = s) (A.recoverInterrupted E attemptId containment receipt recordedAt)
      (Ends (fun _ => Next A E s) (Next A E s)) (Next A E s) := by
  have hself : Next A E s s := .of_journal h rfl
  refine Triple.lift_bind_ends hself fun _ _ => ?_
  refine Triple.inspect_bind_ends hself fun document hload => ?_
  rw [h.loads] at hload
  cases hload
  refine Triple.lift_bind_ends hself fun found hfound => ?_
  obtain ⟨i, a⟩ := found
  obtain ⟨hget, rfl⟩ := findAttempt_eq_ok hfound
  have ha : a ∈ attemptsOf s := List.mem_of_getElem? hget
  show Triple (· = s) (if a.state.terminal then _ else _) _ _
  split
  · exact Triple.returns_ends hself
  next hlive =>
  have hlive : a.state.live = true := by
    cases hs : a.state <;> simp [hs, AttemptState.terminal] at hlive <;> rfl
  refine Triple.inspect_bind_ends hself fun stored _ => ?_
  refine Triple.lift_bind_ends hself fun _ _ => ?_
  have hencode := (h.encoded a ha).update .interrupted a.releasedAt
    (some ⟨recordedAt, "interrupted", canonicalNull, canonicalNull⟩)
  rw [(h.encoded a ha).releasedAt] at hencode
  refine (writeSet_next hself hget hencode (.interrupt a _ hlive) ?_).bind_ends
    fun _ => Triple.of_forall fun u hu => Triple.returns_ends hu
  intro hreleased
  rcases hreleased with h | h | h <;> cases h

/-! ### Runs -/

inductive AttemptCall
  | prepare (request : Preparation)
  | released (attemptId : String) (receipt : Members)
  | terminal (attemptId : String) (result : AttemptStore.Termination)
  | recover (attemptId containmentState : String) (receipt : Option Members) (recordedAt : String)

def AttemptCall.run (A : AttemptStore) (E : TextEncoding) :
    AttemptCall → Program Files Failure AttemptRecord
  | .prepare request => A.prepare E request
  | .released attemptId receipt => A.recordReleased E attemptId receipt
  | .terminal attemptId result => A.recordTerminal E attemptId result
  | .recover attemptId containmentState receipt recordedAt =>
    A.recoverInterrupted E attemptId containmentState receipt recordedAt

/-- A call under the plan's lock, complete or cut off after any of its effects. -/
inductive StoreStep (A : AttemptStore) (E : TextEncoding) (s : Files) : Files → Prop
  | call (c : AttemptCall) {t : Files} (h : t ∈ (c.run A E).states s) : StoreStep A E s t

abbrev StoreRun (A : AttemptStore) (E : TextEncoding) := Relation.ReflTransGen (StoreStep A E)

theorem StoreStep.next (h : StoreInvariant A E s) (hstep : StoreStep A E s t) : Next A E s t := by
  obtain ⟨c, ht⟩ := hstep
  have hself : Next A E s s := .of_journal h rfl
  have hcall : Triple (· = s) (c.run A E) (Ends (fun _ => Next A E s) (Next A E s))
      (Next A E s) := by
    cases c with
    | prepare request => exact prepare_next h request
    | released attemptId receipt => exact recordReleased_next h attemptId receipt
    | terminal attemptId result => exact recordTerminal_next h attemptId result
    | recover attemptId containment receipt recordedAt =>
      exact recoverInterrupted_next h attemptId containment receipt recordedAt
  exact hcall.states rfl hself ht

theorem StoreRun.next (h : StoreInvariant A E s) (hrun : StoreRun A E s t) : Next A E s t := by
  induction hrun with
  | refl => exact .of_journal h rfl
  | tail _ hstep ih =>
    have hnext := hstep.next ih.invariant
    exact ⟨hnext.invariant, ih.grown.trans hnext.grown⟩

/-- From an empty store, through calls in any order, each of which may be cut off: ids and tokens
are unique, at most one attempt is live, attempts keep their places and only move on, terminal
ones stay as they are, and what counts as released has its receipt on disk. -/
theorem attempt_store_invariant (A : AttemptStore) (E : TextEncoding) {s t : Files}
    (hs : StoreRun A E Files.empty s) (ht : StoreRun A E s t) :
    ((attemptsOf s).map (·.attemptId)).Nodup ∧
      ((attemptsOf s).map (·.releaseTokenDigest)).Nodup ∧
      (attemptsOf s).countP (·.state.live) ≤ 1 ∧
      (∀ (i : Nat) a, (attemptsOf s)[i]? = some a →
        ∃ b, (attemptsOf t)[i]? = some b ∧ AttemptMoves a b) ∧
      (∀ (i : Nat) b, (attemptsOf s)[i]? = none → (attemptsOf t)[i]? = some b →
        ∃ a, a.state = .prepared ∧ AttemptMoves a b) ∧
      (∀ (i : Nat) a, (attemptsOf s)[i]? = some a → a.state.terminal = true →
        (attemptsOf t)[i]? = some a) ∧
      ∀ a ∈ attemptsOf s, a.state = .released ∨ a.state = .succeeded ∨ a.state = .failed →
        ∃ receipt, s.receipts a.attemptId = .whole receipt ∧
          A.validateReceipt a receipt = .ok () ∧
          stringValue? (getField receipt "released_at") = a.releasedAt := by
  have hinv := (StoreRun.next storeInvariant_empty hs).invariant
  have hgrown := (ht.next hinv).grown
  refine ⟨hinv.valid.ids, hinv.valid.tokens, hinv.valid.live, hgrown.kept, hgrown.added, ?_, ?_⟩
  · intro i a ha hterminal
    obtain ⟨b, hb, hab⟩ := hgrown.kept i a ha
    rw [hb, hab.of_terminal hterminal]
  · intro a ha hreleased
    obtain ⟨receipt, text, hfile, hvalid, htext, hreleasedAt⟩ := hinv.receipted a ha hreleased
    refine ⟨receipt, hfile, validateReceipt_eq_ok.mpr hvalid, ?_⟩
    rw [htext, hreleasedAt]
    rfl

/-! ### A release -/

def sampleUuid (n : Char) : String :=
  String.ofList ("00000000-0000-4000-8000-00000000000".toList ++ [n])

def sampleSha : String := String.ofList (List.replicate 64 'a')

def sampleStore : AttemptStore :=
  ⟨sampleUuid '1', sampleSha, sampleUuid '2', canonicalNull, by decide, by decide,
    by decide, by decide⟩

def samplePreparation : Preparation :=
  ⟨sampleUuid '3', sampleSha, "broker", "now", "later", sampleSha, []⟩

def sampleReceipt : Members :=
  [("schema_id", .string "agent-workflow.provider-release-receipt"), ("schema_version", .int 1),
    ("workspace_instance_id", .string (sampleUuid '1')),
    ("provider_plan_digest", .string sampleSha),
    ("prospective_transaction_id", .string (sampleUuid '2')),
    ("attempt_id", .string (sampleUuid '3')), ("release_token_digest", .string sampleSha),
    ("broker_liveness_identity", .string "broker"), ("released_at", .string "then")]

def samplePrepared : Files :=
  (sampleStore.prepare sampleTextEncoding samplePreparation).final .empty

def sampleReleased : Files :=
  (sampleStore.recordReleased sampleTextEncoding (sampleUuid '3') sampleReceipt).final
    samplePrepared

theorem attempt_store_invariant_release :
    (attemptsOf sampleReleased).map (·.state) = [.released] ∧
      ∀ a ∈ attemptsOf sampleReleased, ∃ receipt,
        sampleReleased.receipts a.attemptId = .whole receipt ∧
          sampleStore.validateReceipt a receipt = .ok () := by
  have hstates : (attemptsOf sampleReleased).map (·.state) = [.released] := by decide
  have hprepared : StoreRun sampleStore sampleTextEncoding .empty samplePrepared :=
    .single (.call (.prepare samplePreparation) (Program.final_mem_states _ _))
  have hreleased : StoreRun sampleStore sampleTextEncoding .empty sampleReleased :=
    hprepared.tail (.call (.released (sampleUuid '3') sampleReceipt) (Program.final_mem_states _ _))
  obtain ⟨-, -, -, -, -, -, hreceipts⟩ := attempt_store_invariant _ _ hreleased .refl
  refine ⟨hstates, fun a ha => ?_⟩
  have hstate : a.state = .released := by
    have := List.mem_map_of_mem (f := (·.state)) ha
    rw [hstates] at this
    exact List.mem_singleton.mp this
  obtain ⟨receipt, hfile, hvalid, -⟩ := hreceipts a ha (Or.inl hstate)
  exact ⟨receipt, hfile, hvalid⟩

end AgentStack.Providers
