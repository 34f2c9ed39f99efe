import AgentStack.Core.CanonicalJson
import AgentStack.Substitution.Replace

/-! ASCII texts in UTF-8. -/
namespace AgentStack.Core

open Substitution

theorem utf8EncodeChar_ascii {c : Char} (h : c.toNat < 0x80) :
    String.utf8EncodeChar c = [c.toNat.toUInt8] := by
  have hval : c.val.toNat ≤ 0x7F := Nat.le_of_lt_succ h
  unfold String.utf8EncodeChar
  simp only [hval, if_true]
  rfl

theorem utf8EncodeChar_high {c : Char} (h : 0x80 ≤ c.toNat) :
    ∀ b ∈ String.utf8EncodeChar c, 0x80 ≤ b.toNat := by
  have hval : ¬ c.val.toNat ≤ 0x7F := Nat.not_le_of_lt h
  have hmax : c.val.toNat < 0x110000 := by
    have hvalid := c.valid
    simp only [UInt32.isValidChar, Nat.isValidChar] at hvalid
    omega
  intro b hb
  unfold String.utf8EncodeChar at hb
  simp only [hval, if_false] at hb
  split_ifs at hb
  · simp only [List.mem_cons, List.not_mem_nil, or_false] at hb
    rcases hb with rfl | rfl
    all_goals
      rw [UInt8.toNat_ofNat']
      omega
  · simp only [List.mem_cons, List.not_mem_nil, or_false] at hb
    rcases hb with rfl | rfl | rfl
    all_goals
      rw [UInt8.toNat_ofNat']
      omega
  · simp only [List.mem_cons, List.not_mem_nil, or_false] at hb
    rcases hb with rfl | rfl | rfl | rfl
    all_goals
      rw [UInt8.toNat_ofNat']
      omega

theorem encodeUtf8_cons (c : Char) (cs : List Char) :
    encodeUtf8 (c :: cs) = String.utf8EncodeChar c ++ encodeUtf8 cs := rfl

theorem encodeUtf8_append (cs ds : List Char) :
    encodeUtf8 (cs ++ ds) = encodeUtf8 cs ++ encodeUtf8 ds := List.flatMap_append

theorem encodeUtf8_eq_map {ps : List Char} (hps : ∀ c ∈ ps, c.toNat < 0x80) :
    encodeUtf8 ps = ps.map fun c => c.toNat.toUInt8 := by
  induction ps with
  | nil => rfl
  | cons p ps ih =>
    rw [List.forall_mem_cons] at hps
    rw [encodeUtf8_cons, utf8EncodeChar_ascii hps.1, ih hps.2]
    rfl

theorem ascii_toUInt8 {c d : Char} (hc : c.toNat < 0x80) (hd : d.toNat < 0x80)
    (h : c.toNat.toUInt8 = d.toNat.toUInt8) : c = d := by
  have hnat := congrArg UInt8.toNat h
  rw [toNat_toUInt8 hc, toNat_toUInt8 hd] at hnat
  rw [← Char.ofNat_toNat c, hnat, Char.ofNat_toNat]

theorem encodeUtf8_ascii {ps : List Char} (hps : ∀ c ∈ ps, c.toNat < 0x80) :
    ∀ b ∈ encodeUtf8 ps, b.toNat < 0x80 := by
  intro b hb
  obtain ⟨c, hc, hb⟩ := List.mem_flatMap.mp hb
  rw [utf8EncodeChar_ascii (hps c hc), List.mem_singleton] at hb
  rw [hb, toNat_toUInt8 (hps c hc)]
  exact hps c hc

/-- The bytes of a character beyond ASCII are in no ASCII text. -/
theorem notMem_encodeUtf8 {ps : List Char} (hps : ∀ c ∈ ps, c.toNat < 0x80) {c : Char}
    (hc : 0x80 ≤ c.toNat) : ∀ b ∈ String.utf8EncodeChar c, b ∉ encodeUtf8 ps := by
  intro b hb hmem
  have hhigh := utf8EncodeChar_high hc b hb
  have hlow := encodeUtf8_ascii hps b hmem
  omega

theorem encodeUtf8_ne_nil {ps : List Char} (h : ps ≠ []) : encodeUtf8 ps ≠ [] := by
  cases ps with
  | nil => exact absurd rfl h
  | cons c ps => simp [encodeUtf8_cons, String.utf8EncodeChar_ne_nil]

theorem encodeUtf8_prefix_iff {ps cs : List Char} (hps : ∀ c ∈ ps, c.toNat < 0x80) :
    encodeUtf8 ps <+: encodeUtf8 cs ↔ ps <+: cs := by
  induction ps generalizing cs with
  | nil => simp [encodeUtf8]
  | cons p ps ih =>
    rw [List.forall_mem_cons] at hps
    cases cs with
    | nil => simp [encodeUtf8]
    | cons c cs =>
      rw [encodeUtf8_cons, encodeUtf8_cons, utf8EncodeChar_ascii hps.1, List.cons_prefix_cons,
        ← ih hps.2]
      by_cases hc : c.toNat < 0x80
      · rw [utf8EncodeChar_ascii hc, List.singleton_append, List.singleton_append,
          List.cons_prefix_cons]
        constructor
        · intro h
          exact ⟨ascii_toUInt8 hps.1 hc h.1, h.2⟩
        · intro h
          exact ⟨by rw [h.1], h.2⟩
      · constructor
        · intro h
          cases hbytes : String.utf8EncodeChar c with
          | nil => exact absurd hbytes String.utf8EncodeChar_ne_nil
          | cons b bytes =>
            have hhigh := utf8EncodeChar_high (by omega) b (hbytes ▸ List.mem_cons_self)
            rw [hbytes, List.singleton_append, List.cons_append, List.cons_prefix_cons] at h
            rw [← h.1, toNat_toUInt8 hps.1] at hhigh
            omega
        · intro h
          rw [h.1] at hps
          exact absurd hps.1 hc

/-- An ASCII text occurs in the bytes exactly where it occurs in the characters. -/
theorem encodeUtf8_infix_iff {ps cs : List Char} (hps : ∀ c ∈ ps, c.toNat < 0x80) (hne : ps ≠ []) :
    encodeUtf8 ps <:+: encodeUtf8 cs ↔ ps <:+: cs := by
  induction cs with
  | nil =>
    have hbytes := encodeUtf8_ne_nil hne
    rw [List.infix_nil]
    exact ⟨fun h => absurd (List.infix_nil.mp h) hbytes, fun h => absurd h hne⟩
  | cons c cs ih =>
    rw [List.infix_cons_iff, ← ih, ← encodeUtf8_prefix_iff hps, encodeUtf8_cons]
    by_cases hc : c.toNat < 0x80
    · rw [utf8EncodeChar_ascii hc, List.singleton_append, List.infix_cons_iff]
    · have hdisjoint := notMem_encodeUtf8 hps (Nat.le_of_not_lt hc)
      have hnot : ¬ encodeUtf8 ps <+: String.utf8EncodeChar c ++ encodeUtf8 cs := by
        rw [← encodeUtf8_cons, encodeUtf8_prefix_iff hps]
        intro h
        cases ps with
        | nil => exact hne rfl
        | cons p ps =>
          rw [List.cons_prefix_cons] at h
          exact hc (h.1 ▸ hps p List.mem_cons_self)
      rw [infix_append_of_disjoint (encodeUtf8_ne_nil hne) hdisjoint, or_iff_right hnot]

end AgentStack.Core
