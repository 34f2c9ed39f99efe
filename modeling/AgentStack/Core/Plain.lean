import AgentStack.Core.Fields

/-! Values that canonicalization leaves as they are: what the package itself puts into digests. -/
namespace AgentStack.Core

open JsonText JsonValue

structure Plain (E : Encoding) (v : JsonValue) : Prop where
  normal : Normal E v
  floatFree : v.FloatFree
  short : withinDigits intDigits v = true

variable {E : Encoding} {v w : JsonValue}

theorem plain_string {s : String} (h : E.nfc s = s) : Plain E (.string s) where
  normal := normal_of_normalize (v := .string s) (by rw [normalizeJsonValue, h])
  floatFree b hb := by
    have := part_scalar (by simp) (by simp) hb
    cases this
  short := rfl

theorem plain_int {n : Int} (h : withinDigits intDigits (.int n) = true) : Plain E (.int n) where
  normal := normal_of_normalize (v := .int n) rfl
  floatFree b hb := by
    have := part_scalar (by simp) (by simp) hb
    cases this
  short := h

theorem plain_array {xs : List JsonValue} (h : ∀ x ∈ xs, Plain E x) : Plain E (.array xs) where
  normal := normal_array fun x hx => (h x hx).normal
  floatFree := floatFree_array.mpr fun x hx => (h x hx).floatFree
  short := by
    rw [withinDigits]
    exact itemsWithinDigits_iff.mpr fun x hx => (h x hx).short

theorem plain_object {ms : List (String × JsonValue)} (hkeys : (ms.map Prod.fst).Nodup)
    (hnfc : ∀ m ∈ ms, E.nfc m.1 = m.1) (h : ∀ m ∈ ms, Plain E m.2) : Plain E (.object ms) where
  normal := normal_object hkeys hnfc fun m hm => (h m hm).normal
  floatFree := floatFree_object.mpr fun m hm => (h m hm).floatFree
  short := by
    rw [withinDigits]
    exact membersWithinDigits_iff.mpr fun m hm => (h m hm).short

theorem Plain.bytes (h : Plain E v) :
    canonicalJsonBytes E v = .ok (encodeUtf8 (text E.formatFloat v.sorted)) := by
  rw [canonicalJsonBytes, canonicalJson, h.normal.normalize, bind_ok_eq, if_pos h.short,
    serialize_eq_text]
  rfl

/-- Plain values with the same canonical bytes are the same. -/
theorem Plain.same_of_bytes (h : Plain E v) (h' : Plain E w) {b : Bytes}
    (hb : canonicalJsonBytes E v = .ok b) (hb' : canonicalJsonBytes E w = .ok b) :
    v.same w = true := by
  rw [h.bytes] at hb
  rw [h'.bytes] at hb'
  rw [← text_eq_iff h.normal h'.normal h.floatFree h'.floatFree h.short h'.short]
  exact encodeUtf8_injective ((Except.ok.inj hb).trans (Except.ok.inj hb').symm)

theorem Plain.preimage (h : Plain E v) {domain : String} (hne : domain ≠ "")
    (hdomain : DomainOk domain) : ∃ p, digestPreimage E domain v = .ok p := by
  unfold digestPreimage
  rw [if_neg (by simp [hne, hdomain.1]), if_neg, h.bytes]
  · exact ⟨_, rfl⟩
  · simp only [List.any_eq_true, decide_eq_true_eq, not_exists, not_and, not_le]
    exact hdomain.2

theorem Plain.same_of_preimage (h : Plain E v) (h' : Plain E w) {domain : String} {p : Bytes}
    (hp : digestPreimage E domain v = .ok p) (hp' : digestPreimage E domain w = .ok p) :
    v.same w = true := by
  obtain ⟨hdomain, b, hb, heq⟩ := digestPreimage_eq_ok hp
  obtain ⟨-, b', hb', heq'⟩ := digestPreimage_eq_ok hp'
  rw [heq] at heq'
  have hnul := nul_notMem_domainBytes hdomain
  rw [← (split_at_nul hnul hnul heq').2] at hb'
  exact h.same_of_bytes h' hb hb'

end AgentStack.Core
