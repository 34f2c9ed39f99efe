import AgentStack.Providers.Attempts

/-! What the attempt journal and the receipts read back as: their texts are their own normal
forms. -/
namespace AgentStack.Providers

open AgentStack.Core Crash JsonText JsonValue KeyedList

variable {A : AttemptStore} {E : TextEncoding} {a b : AttemptRecord}
  {attempts : List AttemptRecord}

/-! ### What is written -/

theorem attemptUuid_eq_ok {value label : String} {u : Unit} :
    attemptUuid value label = .ok u ↔ isUuid value = true := check_eq_ok

theorem attemptDigest_eq_ok {value label : String} {u : Unit} :
    attemptDigest value label = .ok u ↔ isDigest value = true := check_eq_ok

theorem ascii_of_nullableDigest {value label : String} {u : Unit}
    (h : nullableDigest value label = .ok u) : Ascii value := by
  unfold nullableDigest at h
  split at h
  next heq =>
    subst heq
    decide
  next => exact ascii_of_isDigest (attemptDigest_eq_ok.mp h)

/-- What the check of a journal's records establishes. -/
structure ValidAttempts (attempts : List AttemptRecord) : Prop where
  uuids : ∀ a ∈ attempts, isUuid a.attemptId = true
  digests : ∀ a ∈ attempts, isDigest a.releaseTokenDigest = true
  ids : (attempts.map (·.attemptId)).Nodup
  tokens : (attempts.map (·.releaseTokenDigest)).Nodup
  live : attempts.countP (·.state.live) ≤ 1

theorem validateAttemptsFrom_eq_ok {ids tokens : List String} {live m : Nat} :
    validateAttemptsFrom ids tokens live attempts = .ok m ↔
      (∀ a ∈ attempts, isUuid a.attemptId = true ∧ isDigest a.releaseTokenDigest = true ∧
        a.attemptId ∉ ids ∧ a.releaseTokenDigest ∉ tokens) ∧
      (attempts.map (·.attemptId)).Nodup ∧ (attempts.map (·.releaseTokenDigest)).Nodup ∧
      m = live + attempts.countP (·.state.live) := by
  induction attempts generalizing ids tokens live with
  | nil =>
    simp only [validateAttemptsFrom, Except.ok.injEq, List.not_mem_nil, false_implies,
      implies_true, List.map_nil, List.nodup_nil, List.countP_nil, Nat.add_zero, true_and]
    exact eq_comm
  | cons a rest ih =>
    have hcount : live + (a :: rest).countP (·.state.live) =
        (if a.state.live then live + 1 else live) + rest.countP (·.state.live) := by
      rw [List.countP_cons]
      split <;> omega
    constructor
    · intro h
      obtain ⟨_, huuid, h⟩ := bind_eq_ok h
      obtain ⟨_, hdigest, h⟩ := bind_eq_ok h
      obtain ⟨_, hfresh, h⟩ := bind_eq_ok h
      obtain ⟨hall, hids, htokens, hm⟩ := ih.mp h
      have hfresh := of_decide_eq_true (check_eq_ok.mp hfresh)
      rw [List.forall_mem_cons, List.map_cons, List.map_cons, List.nodup_cons, List.nodup_cons,
        hcount]
      simp only [List.mem_cons, not_or] at hall
      refine ⟨⟨⟨attemptUuid_eq_ok.mp huuid, attemptDigest_eq_ok.mp hdigest, hfresh⟩, ?_⟩,
        ⟨?_, hids⟩, ⟨?_, htokens⟩, hm⟩
      · exact fun b hb => ⟨(hall b hb).1, (hall b hb).2.1, (hall b hb).2.2.1.2, (hall b hb).2.2.2.2⟩
      · intro hmem
        obtain ⟨b, hb, heq⟩ := List.mem_map.mp hmem
        exact (hall b hb).2.2.1.1 heq
      · intro hmem
        obtain ⟨b, hb, heq⟩ := List.mem_map.mp hmem
        exact (hall b hb).2.2.2.1 heq
    · rintro ⟨hall, hids, htokens, hm⟩
      rw [List.forall_mem_cons] at hall
      rw [List.map_cons, List.nodup_cons] at hids htokens
      obtain ⟨⟨huuid, hdigest, hid, htoken⟩, hall⟩ := hall
      rw [hcount] at hm
      have hrest : validateAttemptsFrom (a.attemptId :: ids) (a.releaseTokenDigest :: tokens)
          (if a.state.live then live + 1 else live) rest = .ok m := by
        refine ih.mpr ⟨fun b hb => ?_, hids.2, htokens.2, hm⟩
        obtain ⟨h₁, h₂, h₃, h₄⟩ := hall b hb
        refine ⟨h₁, h₂, ?_, ?_⟩
        · rw [List.mem_cons, not_or]
          exact ⟨fun heq => hids.1 (List.mem_map.mpr ⟨b, hb, heq⟩), h₃⟩
        · rw [List.mem_cons, not_or]
          exact ⟨fun heq => htokens.1 (List.mem_map.mpr ⟨b, hb, heq⟩), h₄⟩
      have huuid : attemptUuid a.attemptId "attempt_id" = .ok () := attemptUuid_eq_ok.mpr huuid
      have hdigest : attemptDigest a.releaseTokenDigest "release_token_digest" = .ok () :=
        attemptDigest_eq_ok.mpr hdigest
      rw [validateAttemptsFrom, huuid, hdigest, bind_ok_eq, bind_ok_eq, check,
        if_pos (decide_eq_true ⟨hid, htoken⟩), bind_ok_eq, hrest]

theorem validateAttempts_eq_ok {u : Unit} :
    validateAttempts attempts = .ok u ↔ ValidAttempts attempts := by
  constructor
  · intro h
    obtain ⟨m, hm, h⟩ := bind_eq_ok h
    obtain ⟨hall, hids, htokens, rfl⟩ := validateAttemptsFrom_eq_ok.mp hm
    have hlive := of_decide_eq_true (check_eq_ok.mp h)
    exact ⟨fun a ha => (hall a ha).1, fun a ha => (hall a ha).2.1, hids, htokens,
      by simpa using hlive⟩
  · intro h
    have hm : validateAttemptsFrom [] [] 0 attempts = .ok (attempts.countP (·.state.live)) := by
      rw [validateAttemptsFrom_eq_ok]
      exact ⟨fun a ha => ⟨h.uuids a ha, h.digests a ha, List.not_mem_nil, List.not_mem_nil⟩,
        h.ids, h.tokens, by simp⟩
    rw [validateAttempts, hm, bind_ok_eq, check_eq_ok]
    exact decide_eq_true h.live

/-- A record that its canonical text gives back. -/
def Encoded (E : TextEncoding) (a : AttemptRecord) : Prop := encodeRecord E a = .ok a

theorem encodeResult_encodeResult (r : TerminalResult) :
    encodeResult E (encodeResult E r) = encodeResult E r := by
  simp only [encodeResult, E.nfc_nfc]

theorem encodeRecord_encoded (h : encodeRecord E a = .ok b) : Encoded E b := by
  obtain ⟨m, hm, h⟩ := bind_eq_ok h
  obtain ⟨_, hdigits, h⟩ := bind_eq_ok h
  cases h
  have hagain := (normal_of_normalize hm).normalize
  simp only [Encoded, encodeRecord, hagain, bind_ok_eq, hdigits, pure_eq_ok, E.nfc_nfc,
    Option.map_map, Except.ok.injEq, AttemptRecord.mk.injEq, true_and]
  constructor
  · congr 1
    funext x
    exact E.nfc_nfc x
  · congr 1
    funext x
    exact encodeResult_encodeResult x

theorem encodeRecord_same (hid : isUuid a.attemptId = true)
    (htoken : isDigest a.releaseTokenDigest = true) (h : encodeRecord E a = .ok b) :
    b.attemptId = a.attemptId ∧ b.releaseTokenDigest = a.releaseTokenDigest ∧
      b.state = a.state := by
  obtain ⟨m, -, h⟩ := bind_eq_ok h
  obtain ⟨_, -, h⟩ := bind_eq_ok h
  cases h
  exact ⟨E.nfc_ascii _ (ascii_of_isUuid hid), E.nfc_ascii _ (ascii_of_isDigest htoken), rfl⟩

/-- A stored record with a new state: only the new texts are encoded. -/
theorem Encoded.update (h : Encoded E a) (state : AttemptState) (releasedAt : Option String)
    (result : Option TerminalResult) :
    encodeRecord E { a with state := state, releasedAt := releasedAt, result := result } =
      .ok { a with state := state, releasedAt := releasedAt.map E.nfc,
                   result := result.map (encodeResult E) } := by
  obtain ⟨m, hm, h⟩ := bind_eq_ok h
  obtain ⟨_, hdigits, h⟩ := bind_eq_ok h
  have h := Except.ok.inj h
  simp only [encodeRecord, hm, bind_ok_eq, hdigits, pure_eq_ok]
  rw [← h]
  simp only [E.nfc_nfc]

theorem Encoded.releasedAt (h : Encoded E a) : a.releasedAt.map E.nfc = a.releasedAt := by
  obtain ⟨m, -, h⟩ := bind_eq_ok h
  obtain ⟨_, -, h⟩ := bind_eq_ok h
  rw [← Except.ok.inj h, Option.map_map]
  congr 1
  funext x
  exact E.nfc_nfc x

theorem Encoded.result (h : Encoded E a) : a.result.map (encodeResult E) = a.result := by
  obtain ⟨m, -, h⟩ := bind_eq_ok h
  obtain ⟨_, -, h⟩ := bind_eq_ok h
  rw [← Except.ok.inj h, Option.map_map]
  congr 1
  funext x
  exact encodeResult_encodeResult x

/-- Encoding touches neither the ids nor the tokens nor the states. -/
theorem ValidAttempts.encode {encoded : List AttemptRecord} (h : ValidAttempts attempts)
    (hencode : List.Forall₂ (fun a b => encodeRecord E a = .ok b) attempts encoded) :
    ValidAttempts encoded := by
  have hsame : List.Forall₂ (fun a b : AttemptRecord => a.attemptId = b.attemptId ∧
      a.releaseTokenDigest = b.releaseTokenDigest ∧ a.state = b.state) attempts encoded := by
    have huuids := h.uuids
    have hdigests := h.digests
    clear h
    induction hencode with
    | nil => exact .nil
    | cons hab _ ih =>
      rw [List.forall_mem_cons] at huuids hdigests
      obtain ⟨hid, htoken, hstate⟩ := encodeRecord_same huuids.1 hdigests.1 hab
      exact .cons ⟨hid.symm, htoken.symm, hstate.symm⟩ (ih huuids.2 hdigests.2)
  have hmaps : attempts.map (·.attemptId) = encoded.map (·.attemptId) ∧
      attempts.map (·.releaseTokenDigest) = encoded.map (·.releaseTokenDigest) ∧
      attempts.countP (·.state.live) = encoded.countP (·.state.live) := by
    clear hencode h
    induction hsame with
    | nil => exact ⟨rfl, rfl, rfl⟩
    | cons hab _ ih =>
      obtain ⟨hid, htoken, hstate⟩ := hab
      simp only [List.map_cons, List.countP_cons, ih.1, ih.2.1, ih.2.2, hid, htoken, hstate,
        and_self]
  refine ⟨fun b hb => ?_, fun b hb => ?_, ?_, ?_, ?_⟩
  · obtain ⟨a, ha, hid, -⟩ := forall₂_right hsame b hb
    rw [← hid]
    exact h.uuids a ha
  · obtain ⟨a, ha, -, htoken, -⟩ := forall₂_right hsame b hb
    rw [← htoken]
    exact h.digests a ha
  · rw [← hmaps.1]
    exact h.ids
  · rw [← hmaps.2.1]
    exact h.tokens
  · rw [← hmaps.2.2]
    exact h.live

/-! ### Receipts -/

variable {receipt stored : Members}

/-- What the check of a receipt against an attempt establishes. -/
structure ReceiptOf (A : AttemptStore) (a : AttemptRecord) (receipt : Members) : Prop where
  closed : fieldsAre receipt receiptFields = true
  version : isOne (getField receipt "schema_version") = true
  texts : ∀ f ∈ A.expectedTexts a, getField receipt f.1 = .string f.2
  released : ∃ text, getField receipt "released_at" = .string text

theorem receiptMismatches_eq_nil : A.receiptMismatches a receipt = [] ↔
    isOne (getField receipt "schema_version") = true ∧
      ∀ f ∈ A.expectedTexts a, getField receipt f.1 = .string f.2 := by
  have hperm : ∀ l : List String, sortStrings l = [] ↔ l = [] := by
    intro l
    rw [← List.length_eq_zero_iff, sortStrings, List.length_insertionSort, List.length_eq_zero_iff]
  rw [AttemptStore.receiptMismatches, hperm, List.append_eq_nil_iff, List.map_eq_nil_iff,
    List.filter_eq_nil_iff]
  refine and_congr ?_ (forall₂_congr fun f _ => ?_)
  · cases isOne (getField receipt "schema_version") <;> simp
  · rw [decide_eq_true_eq, not_not, isString_iff]

theorem validateReceipt_eq_ok {u : Unit} :
    A.validateReceipt a receipt = .ok u ↔ ReceiptOf A a receipt := by
  have htext : (stringValue? (getField receipt "released_at")).isSome = true ↔
      ∃ text, getField receipt "released_at" = .string text := by
    cases getField receipt "released_at" <;> simp [stringValue?]
  constructor
  · intro h
    obtain ⟨_, hclosed, h⟩ := bind_eq_ok h
    have h := of_decide_eq_true (check_eq_ok.mp h)
    obtain ⟨hversion, htexts⟩ := receiptMismatches_eq_nil.mp h.1
    exact ⟨check_eq_ok.mp hclosed, hversion, htexts, htext.mp h.2⟩
  · intro h
    have hnil := receiptMismatches_eq_nil.mpr ⟨h.version, h.texts⟩
    rw [AttemptStore.validateReceipt, h.closed]
    simp only [check, if_true, bind_ok_eq]
    rw [if_pos (decide_eq_true ⟨hnil, htext.mpr h.released⟩)]

theorem same_string {v : JsonValue} {text : String} (h : same v (.string text) = true) :
    v = .string text := by
  cases v <;> simp [same] at h
  rw [h]

theorem isOne_of_same {v w : JsonValue} (h : same v w = true) (hw : isOne w = true) :
    isOne v = true := by
  cases w with
  | int n =>
    cases v <;> simp [same] at h
    rw [h]
    exact hw
  | bool b =>
    cases v <;> simp [same] at h
    rw [h]
    exact hw
  | float b =>
    cases v <;> simp [same] at h
    rw [h]
    exact hw
  | _ => cases hw

/-- A stored receipt that equals a valid one is valid itself, and of the same moment. -/
theorem ReceiptOf.equal (h : ReceiptOf A a receipt) (heq : receiptsEqual stored receipt = true) :
    ReceiptOf A a stored ∧ getField stored "released_at" = getField receipt "released_at" := by
  unfold receiptsEqual at heq
  rw [Bool.and_eq_true, List.all_eq_true, List.all_eq_true] at heq
  obtain ⟨hleft, hright⟩ := heq
  have hclosed := h.closed
  unfold fieldsAre at hclosed
  rw [Bool.and_eq_true, List.all_eq_true, List.all_eq_true] at hclosed
  have hkey : ∀ k, hasKey receipt k = true → hasKey stored k = true := fun k hk =>
    hright _ (mem_of_lookup (lookup_of_hasKey hk))
  have hvalue : ∀ k, hasKey receipt k = true →
      (isOne (getField stored k) = true ∧ isOne (getField receipt k) = true ∨
        same (getField stored k) (getField receipt k) = true) := by
    intro k hk
    have := hleft _ (mem_of_lookup (lookup_of_hasKey (hkey k hk)))
    rw [Bool.and_eq_true, Bool.or_eq_true, Bool.and_eq_true] at this
    exact this.2
  have hstring : ∀ k text, getField receipt k = .string text →
      getField stored k = .string text := by
    intro k text hk
    rcases hvalue k (hasKey_of_getField hk) with ⟨-, hone⟩ | hsame
    · rw [hk] at hone
      cases hone
    · rw [hk] at hsame
      exact same_string hsame
  obtain ⟨text, htext⟩ := h.released
  refine ⟨⟨?_, ?_, fun f hf => hstring f.1 f.2 (h.texts f hf), text, hstring _ _ htext⟩, ?_⟩
  · unfold fieldsAre
    rw [Bool.and_eq_true, List.all_eq_true, List.all_eq_true]
    constructor
    · intro m hm
      have hm := hleft m hm
      rw [Bool.and_eq_true] at hm
      exact hclosed.1 (m.1, getField receipt m.1) (mem_of_lookup (lookup_of_hasKey hm.1))
    · exact fun k hk => hkey k (hclosed.2 k hk)
  · rcases hvalue "schema_version" (hclosed.2 _ (by decide)) with ⟨hone, -⟩ | hsame
    · exact hone
    · exact isOne_of_same hsame h.version
  · rw [hstring _ _ htext, htext]

/-- A receipt that its canonical text gives back. -/
def ReceiptEncoded (E : TextEncoding) (receipt : Members) : Prop :=
  encodeReceipt E receipt = .ok receipt

theorem encodeReceipt_encoded (h : encodeReceipt E receipt = .ok stored) :
    ReceiptEncoded E stored := by
  obtain ⟨ns, hns, h⟩ := bind_eq_ok h
  obtain ⟨_, hdigits, h⟩ := bind_eq_ok h
  cases h
  have hvalue : normalizeJsonValue E.toEncoding (.object receipt) = .ok (.object stored) := by
    rw [normalizeJsonValue, hns]
    rfl
  obtain ⟨ns', hns', h⟩ := bind_eq_ok (normal_of_normalize hvalue).normalize
  cases h
  rw [ReceiptEncoded, encodeReceipt, hns', bind_ok_eq, hdigits]
  rfl

/-- Encoding keeps the keys that are ASCII and encodes the values under them. -/
theorem encoded_lookup
    (h : List.Forall₂ (fun m n => n.1 = E.nfc m.1 ∧
      normalizeJsonValue E.toEncoding m.2 = .ok n.2) receipt stored)
    (hascii : ∀ m ∈ receipt, Ascii m.1) :
    stored.map Prod.fst = receipt.map Prod.fst ∧ ∀ k v, receipt.lookup k = some v →
      ∃ w, normalizeJsonValue E.toEncoding v = .ok w ∧ stored.lookup k = some w := by
  induction h with
  | nil => exact ⟨rfl, fun k v hk => by cases hk⟩
  | @cons m n _ _ hmn _ ih =>
    obtain ⟨hkey, hval⟩ := hmn
    rw [List.forall_mem_cons] at hascii
    have hk : n.1 = m.1 := by rw [hkey, E.nfc_ascii _ hascii.1]
    obtain ⟨hkeys, hvalues⟩ := ih hascii.2
    refine ⟨by rw [List.map_cons, List.map_cons, hk, hkeys], fun k v hv => ?_⟩
    obtain ⟨mk, mv⟩ := m
    obtain ⟨nk, nv⟩ := n
    obtain rfl : nk = mk := hk
    rw [List.lookup_cons] at hv ⊢
    split at hv
    next heq =>
      cases hv
      exact ⟨nv, hval, rfl⟩
    next hne =>
      exact hvalues k v hv

theorem ReceiptOf.ascii (h : ReceiptOf A a receipt) : ∀ m ∈ receipt, Ascii m.1 := by
  have hfields : ∀ k ∈ receiptFields, Ascii k := by decide
  have hclosed := h.closed
  unfold fieldsAre at hclosed
  rw [Bool.and_eq_true, List.all_eq_true] at hclosed
  exact fun m hm => hfields _ (of_decide_eq_true (hclosed.1 m hm))

theorem normalize_isOne {v w : JsonValue} (h : normalizeJsonValue E.toEncoding v = .ok w)
    (hv : isOne v = true) : isOne w = true := by
  cases v with
  | int n =>
    cases h
    exact hv
  | bool b =>
    cases h
    exact hv
  | float b =>
    rw [normalizeJsonValue] at h
    split at h
    · cases h
      exact hv
    · cases h
  | _ => cases hv

/-- The texts of an attempt that a receipt repeats are their own normal forms. -/
theorem Encoded.expectedTexts (h : Encoded E a) : ∀ f ∈ A.expectedTexts a, E.nfc f.2 = f.2 := by
  obtain ⟨m, -, h⟩ := bind_eq_ok h
  obtain ⟨_, -, h⟩ := bind_eq_ok h
  have h := Except.ok.inj h
  have hid : E.nfc a.attemptId = a.attemptId := congrArg AttemptRecord.attemptId h
  have htoken : E.nfc a.releaseTokenDigest = a.releaseTokenDigest :=
    congrArg AttemptRecord.releaseTokenDigest h
  have hbroker : E.nfc a.brokerLivenessIdentity = a.brokerLivenessIdentity :=
    congrArg AttemptRecord.brokerLivenessIdentity h
  have hschema : Ascii "agent-workflow.provider-release-receipt" := by decide
  have hworkspace := ascii_of_isUuid (attemptUuid_eq_ok.mp A.workspace_ok)
  have hplan := ascii_of_isDigest (attemptDigest_eq_ok.mp A.plan_ok)
  have htransaction := ascii_of_isUuid (attemptUuid_eq_ok.mp A.transaction_ok)
  simp only [AttemptStore.expectedTexts, List.forall_mem_cons, List.not_mem_nil, false_implies,
    implies_true, and_true]
  exact ⟨E.nfc_ascii _ hschema, E.nfc_ascii _ hworkspace, E.nfc_ascii _ hplan,
    E.nfc_ascii _ htransaction, hid, htoken, hbroker⟩

/-- A valid receipt of a stored attempt is valid as it is written. -/
theorem ReceiptOf.encode (h : ReceiptOf A a receipt) (ha : Encoded E a)
    (hencode : encodeReceipt E receipt = .ok stored) : ReceiptOf A a stored ∧
      ∃ text, getField receipt "released_at" = .string text ∧
        getField stored "released_at" = .string (E.nfc text) := by
  obtain ⟨ns, hns, hencode⟩ := bind_eq_ok hencode
  obtain ⟨_, -, hencode⟩ := bind_eq_ok hencode
  obtain rfl := Except.ok.inj hencode
  obtain ⟨hkeys, hvalues⟩ := encoded_lookup (normalizeMembers_ok hns).1 h.ascii
  have hvalue : ∀ k, hasKey receipt k = true →
      normalizeJsonValue E.toEncoding (getField receipt k) = .ok (getField ns k) ∧
        hasKey ns k = true := by
    intro k hk
    obtain ⟨w, hw, hlookup⟩ := hvalues k _ (lookup_of_hasKey hk)
    unfold getField hasKey at *
    rw [hlookup]
    exact ⟨hw, rfl⟩
  have hstring : ∀ k text, getField receipt k = .string text →
      getField ns k = .string (E.nfc text) := by
    intro k text hk
    have := (hvalue k (hasKey_of_getField hk)).1
    rw [hk] at this
    exact (Except.ok.inj this).symm
  have hclosed := h.closed
  unfold fieldsAre at hclosed
  rw [Bool.and_eq_true, List.all_eq_true, List.all_eq_true] at hclosed
  obtain ⟨text, htext⟩ := h.released
  refine ⟨⟨?_, ?_, fun f hf => ?_, _, hstring _ _ htext⟩, text, htext, hstring _ _ htext⟩
  · unfold fieldsAre
    rw [Bool.and_eq_true, List.all_eq_true, List.all_eq_true]
    constructor
    · intro n hn
      have hmem := List.mem_map_of_mem (f := Prod.fst) hn
      rw [hkeys] at hmem
      obtain ⟨m, hm, heq⟩ := List.mem_map.mp hmem
      rw [← heq]
      exact hclosed.1 m hm
    · exact fun k hk => (hvalue k (hclosed.2 k hk)).2
  · exact normalize_isOne (hvalue "schema_version" (hclosed.2 _ (by decide))).1 h.version
  · rw [hstring _ _ (h.texts f hf), ha.expectedTexts f hf]

theorem ReceiptEncoded.released {text : String} (h : ReceiptEncoded E receipt)
    (hr : ReceiptOf A a receipt) (htext : getField receipt "released_at" = .string text) :
    E.nfc text = text := by
  obtain ⟨ns, hns, h⟩ := bind_eq_ok h
  obtain ⟨_, -, h⟩ := bind_eq_ok h
  obtain rfl := Except.ok.inj h
  obtain ⟨-, hvalues⟩ := encoded_lookup (normalizeMembers_ok hns).1 hr.ascii
  have hlookup := lookup_of_hasKey (hasKey_of_getField htext)
  obtain ⟨w, hw, hlookup'⟩ := hvalues _ _ hlookup
  rw [hlookup, htext] at hlookup'
  rw [htext] at hw
  cases hlookup'
  exact JsonValue.string.inj (Except.ok.inj hw)

end AgentStack.Providers
