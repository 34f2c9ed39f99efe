import AgentStack.Core.Canonical
import AgentStack.JsonText.Parser
import AgentStack.KeyedList.Basic

/-! Schema-normalized JSON canonicalization, digest pre-images and duplicate-safe parsing. -/
namespace AgentStack.Core

open JsonText JsonValue KeyedList

/-- The Unicode and float conversions of the language. -/
structure Encoding where
  nfc : String → String
  nfc_nfc : ∀ s, nfc (nfc s) = nfc s
  formatFloat : UInt64 → List Char
  readFloat : List Char → UInt64

/-- `sys.int_info.default_max_str_digits`. -/
def intDigits : Nat := 4300

def valueError (message : String) : Failure := ⟨.core, "ValueError", message, []⟩

def intDigitsFailure : Failure :=
  valueError "Exceeds the limit (4300 digits) for integer string conversion"

def schemaFailure (message : String) (details : List (String × String)) : Failure :=
  ⟨.core, "AWP_SCHEMA_INVALID", message, details⟩

def isFinite (bits : UInt64) : Bool := (bits >>> 52) &&& 0x7FF ≠ 0x7FF

section Normalize

variable (E : Encoding)

mutual
def normalizeJsonValue : JsonValue → Except Failure JsonValue
  | .float bits =>
    if isFinite bits then .ok (.float bits)
    else .error (canonicalizationFailure "non-finite JSON number is forbidden")
  | .string s => .ok (.string (E.nfc s))
  | .array xs => do return .array (← normalizeItems xs)
  | .object ms => do return .object (← normalizeMembers [] ms)
  | v => .ok v
def normalizeItems : List JsonValue → Except Failure (List JsonValue)
  | [] => .ok []
  | x :: xs => do
    let x ← normalizeJsonValue x
    let xs ← normalizeItems xs
    return x :: xs
/-- `seen` are the keys of the members before. -/
def normalizeMembers (seen : List String) :
    List (String × JsonValue) → Except Failure (List (String × JsonValue))
  | [] => .ok []
  | (k, x) :: ms =>
    if E.nfc k ∈ seen then
      .error { canonicalizationFailure "object keys collide after NFC normalization" with
        details := [("key", E.nfc k)] }
    else do
      let x ← normalizeJsonValue x
      let ms ← normalizeMembers (E.nfc k :: seen) ms
      return (E.nfc k, x) :: ms
end

def encodeUtf8 (cs : List Char) : Bytes := cs.flatMap String.utf8EncodeChar

def decodeUtf8 (bytes : Bytes) : Option (List Char) :=
  (String.fromUTF8? bytes.toByteArray).map String.toList

def canonicalJson (v : JsonValue) : Except Failure (List Char) := do
  let n ← normalizeJsonValue E v
  if withinDigits intDigits n then return serialize E.formatFloat n
  else .error intDigitsFailure

def canonicalJsonBytes (v : JsonValue) : Except Failure Bytes :=
  (canonicalJson E v).map encodeUtf8

/-- What `digest` hashes: the ASCII domain, one NUL byte, and the canonical bytes. -/
def digestPreimage (domain : String) (v : JsonValue) : Except Failure Bytes :=
  if domain = "" ∨ '\x00' ∈ domain.toList then
    .error (canonicalizationFailure "digest domain must be nonempty ASCII without NUL")
  else if domain.toList.any fun c => 0x80 ≤ c.toNat then
    .error (canonicalizationFailure "digest domain must be ASCII")
  else do
    let payload ← canonicalJsonBytes E v
    return domain.toList.map (fun c => c.toNat.toUInt8) ++ 0 :: payload

/-- `rawKeys` and `keys` are those of the members before, as spelled and normalized. -/
def duplicateSafeMembers (rawKeys keys : List String) :
    List (String × JsonValue) → Except Failure (List (String × JsonValue))
  | [] => .ok []
  | (k, x) :: ms =>
    if k ∈ rawKeys ∨ E.nfc k ∈ keys then
      .error (schemaFailure "duplicate JSON object key" [("key", E.nfc k)])
    else do
      let ms ← duplicateSafeMembers (k :: rawKeys) (E.nfc k :: keys) ms
      return (E.nfc k, x) :: ms

def jsonDecoder : Decoder Failure where
  invalid := schemaFailure "invalid JSON document" []
  surrogate := schemaFailure "Unicode surrogate code points are not permitted" []
  tooManyDigits := intDigitsFailure
  constant value := schemaFailure "non-finite JSON number is forbidden" [("value", value)]
  digitLimit := intDigits
  readFloat := E.readFloat
  objectPairs := duplicateSafeMembers E [] []

def normalizeParsed (v : JsonValue) : Except Failure JsonValue :=
  match normalizeJsonValue E v with
  | .ok n => .ok n
  | .error e => .error (schemaFailure e.message e.details)

def parseJson (cs : List Char) : Except Failure JsonValue := do
  let v ← loads (jsonDecoder E) cs
  normalizeParsed E v

end Normalize

variable {E : Encoding} {v w n : JsonValue}

/-! ### Normal values -/

/-- What normalization leaves as it is. -/
structure Normal (E : Encoding) (v : JsonValue) : Prop where
  keyed : v.Keyed
  strings : ∀ s, Part (.string s) v → E.nfc s = s
  keys : ∀ ms, Part (.object ms) v → ∀ m ∈ ms, E.nfc m.1 = m.1
  floats : ∀ b, Part (.float b) v → isFinite b

theorem Normal.item {xs : List JsonValue} (h : Normal E (.array xs)) {x : JsonValue}
    (hx : x ∈ xs) : Normal E x where
  keyed := keyed_array.mp h.keyed x hx
  strings := fun s hs => h.strings s (.item hx hs)
  keys := fun ms hms => h.keys ms (.item hx hms)
  floats := fun b hb => h.floats b (.item hx hb)

theorem Normal.member {ms : List (String × JsonValue)} (h : Normal E (.object ms))
    {m : String × JsonValue} (hm : m ∈ ms) : Normal E m.2 where
  keyed := (keyed_object.mp h.keyed).2 m hm
  strings := fun s hs => h.strings s (.member hm hs)
  keys := fun ns hns => h.keys ns (.member hm hns)
  floats := fun b hb => h.floats b (.member hm hb)

theorem normal_array {xs : List JsonValue} (h : ∀ x ∈ xs, Normal E x) : Normal E (.array xs) where
  keyed := keyed_array.mpr fun x hx => (h x hx).keyed
  strings := by
    intro s hs
    rcases part_array.mp hs with heq | ⟨x, hx, hs⟩
    · cases heq
    · exact (h x hx).strings s hs
  keys := by
    intro ms hms
    rcases part_array.mp hms with heq | ⟨x, hx, hms⟩
    · cases heq
    · exact (h x hx).keys ms hms
  floats := by
    intro b hb
    rcases part_array.mp hb with heq | ⟨x, hx, hb⟩
    · cases heq
    · exact (h x hx).floats b hb

theorem normal_object {ms : List (String × JsonValue)} (hnodup : (ms.map Prod.fst).Nodup)
    (hkeys : ∀ m ∈ ms, E.nfc m.1 = m.1) (h : ∀ m ∈ ms, Normal E m.2) :
    Normal E (.object ms) where
  keyed := keyed_object.mpr ⟨hnodup, fun m hm => (h m hm).keyed⟩
  strings := by
    intro s hs
    rcases part_object.mp hs with heq | ⟨m, hm, hs⟩
    · cases heq
    · exact (h m hm).strings s hs
  keys := by
    intro ns hns
    rcases part_object.mp hns with heq | ⟨m, hm, hns⟩
    · cases heq
      exact hkeys
    · exact (h m hm).keys ns hns
  floats := by
    intro b hb
    rcases part_object.mp hb with heq | ⟨m, hm, hb⟩
    · cases heq
    · exact (h m hm).floats b hb

theorem part_scalar {u : JsonValue} (ha : ∀ xs, v ≠ .array xs) (ho : ∀ ms, v ≠ .object ms)
    (h : Part u v) : u = v := by
  cases h with
  | self => rfl
  | item hx h => exact absurd rfl (ha _)
  | member hm h => exact absurd rfl (ho _)

theorem normalizeItems_ok {xs ys : List JsonValue} (h : normalizeItems E xs = .ok ys) :
    List.Forall₂ (fun x y => normalizeJsonValue E x = .ok y) xs ys := by
  induction xs generalizing ys with
  | nil =>
    cases h
    exact .nil
  | cons x xs ih =>
    obtain ⟨y, hy, h⟩ := bind_eq_ok h
    obtain ⟨zs, hzs, h⟩ := bind_eq_ok h
    cases h
    exact .cons hy (ih hzs)

theorem normalizeMembers_ok {seen : List String} {ms ns : List (String × JsonValue)}
    (h : normalizeMembers E seen ms = .ok ns) :
    List.Forall₂ (fun m n => n.1 = E.nfc m.1 ∧ normalizeJsonValue E m.2 = .ok n.2) ms ns ∧
      (ns.map Prod.fst).Nodup ∧ ∀ n ∈ ns, n.1 ∉ seen := by
  induction ms generalizing seen ns with
  | nil =>
    cases h
    exact ⟨.nil, List.nodup_nil, fun n hn => absurd hn List.not_mem_nil⟩
  | cons m ms ih =>
    obtain ⟨k, x⟩ := m
    rw [normalizeMembers] at h
    split at h
    · cases h
    next hfresh =>
    obtain ⟨y, hy, h⟩ := bind_eq_ok h
    obtain ⟨ns, hns, h⟩ := bind_eq_ok h
    cases h
    obtain ⟨hall, hnodup, hnew⟩ := ih hns
    refine ⟨.cons ⟨rfl, hy⟩ hall, ?_, ?_⟩
    · rw [List.map_cons, List.nodup_cons]
      refine ⟨fun hmem => ?_, hnodup⟩
      obtain ⟨n, hn, hkey⟩ := List.mem_map.mp hmem
      exact hnew n hn (by rw [hkey]; exact List.mem_cons_self)
    · intro n hn
      rcases List.mem_cons.mp hn with rfl | hn
      · exact hfresh
      · exact fun hseen => hnew n hn (List.mem_cons_of_mem _ hseen)

theorem normal_of_normalize (h : normalizeJsonValue E v = .ok n) : Normal E n := by
  induction v using induct generalizing n with
  | array xs ih =>
    obtain ⟨ys, hys, h⟩ := bind_eq_ok h
    cases h
    refine normal_array fun y hy => ?_
    obtain ⟨x, hx, hxy⟩ := forall₂_right (normalizeItems_ok hys) y hy
    exact ih x hx hxy
  | object ms ih =>
    obtain ⟨ns, hns, h⟩ := bind_eq_ok h
    cases h
    obtain ⟨hall, hnodup, -⟩ := normalizeMembers_ok hns
    refine normal_object hnodup (fun n hn => ?_) fun n hn => ?_
    · obtain ⟨m, -, hkey, -⟩ := forall₂_right hall n hn
      rw [hkey, E.nfc_nfc]
    · obtain ⟨m, hm, -, hval⟩ := forall₂_right hall n hn
      exact ih m hm hval
  | float b =>
    rw [normalizeJsonValue] at h
    split at h
    next hfinite =>
      cases h
      refine ⟨?_, ?_, ?_, ?_⟩
      all_goals
        intro x hx
        obtain heq := part_scalar (by simp) (by simp) hx
        cases heq
      exact hfinite
    next => cases h
  | string s =>
    cases h
    refine ⟨?_, ?_, ?_, ?_⟩
    all_goals
      intro x hx
      obtain heq := part_scalar (by simp) (by simp) hx
      cases heq
    exact E.nfc_nfc s
  | _ =>
    cases h
    refine ⟨?_, ?_, ?_, ?_⟩
    all_goals
      intro x hx
      obtain heq := part_scalar (by simp) (by simp) hx
      cases heq

theorem normalizeItems_eq {xs : List JsonValue} (h : ∀ x ∈ xs, normalizeJsonValue E x = .ok x) :
    normalizeItems E xs = .ok xs := by
  induction xs with
  | nil => rfl
  | cons x xs ih =>
    rw [List.forall_mem_cons] at h
    rw [normalizeItems, h.1, ih h.2]
    rfl

theorem normalizeMembers_eq {seen : List String} {ms : List (String × JsonValue)}
    (hnodup : (ms.map Prod.fst).Nodup) (hseen : ∀ m ∈ ms, m.1 ∉ seen)
    (hkeys : ∀ m ∈ ms, E.nfc m.1 = m.1) (h : ∀ m ∈ ms, normalizeJsonValue E m.2 = .ok m.2) :
    normalizeMembers E seen ms = .ok ms := by
  induction ms generalizing seen with
  | nil => rfl
  | cons m ms ih =>
    obtain ⟨k, x⟩ := m
    rw [List.map_cons, List.nodup_cons] at hnodup
    rw [List.forall_mem_cons] at hseen hkeys h
    obtain ⟨hx, h⟩ := h
    have hk : E.nfc k = k := hkeys.1
    have hrest : normalizeMembers E (k :: seen) ms = .ok ms := ih hnodup.2 (by
      intro m hm hmem
      rcases List.mem_cons.mp hmem with heq | hmem
      · exact hnodup.1 (List.mem_map.mpr ⟨m, hm, heq⟩)
      · exact hseen.2 m hm hmem) hkeys.2 h
    rw [normalizeMembers, hk, if_neg hseen.1, hx, hrest]
    rfl

theorem Normal.normalize (h : Normal E n) : normalizeJsonValue E n = .ok n := by
  induction n using induct with
  | array xs ih =>
    rw [normalizeJsonValue, normalizeItems_eq fun x hx => ih x hx (h.item hx)]
    rfl
  | object ms ih =>
    rw [normalizeJsonValue, normalizeMembers_eq (keyed_object.mp h.keyed).1
      (fun _ _ => List.not_mem_nil) (h.keys ms .self) fun m hm => ih m hm (h.member hm)]
    rfl
  | float b => rw [normalizeJsonValue, if_pos (h.floats b .self)]
  | string s => rw [normalizeJsonValue, h.strings s .self]
  | _ => rfl

theorem Normal.sorted (h : Normal E n) : Normal E n.sorted where
  keyed := h.keyed.sorted
  strings := by
    intro s hs
    obtain ⟨u, hu, heq⟩ := part_sorted hs
    cases u with
    | string t =>
      cases heq
      exact h.strings s hu
    | _ => simp [JsonValue.sorted] at heq
  keys := by
    intro ns hns n hn
    obtain ⟨ms, hms, rfl⟩ := part_sorted_object hns
    obtain ⟨m, hm, rfl⟩ := List.mem_map.mp ((List.mem_insertionSort KeyLe).mp hn)
    exact h.keys ms hms m hm
  floats := by
    intro b hb
    obtain ⟨u, hu, heq⟩ := part_sorted hb
    cases u with
    | float c =>
      cases heq
      exact h.floats b hu
    | _ => simp [JsonValue.sorted] at heq

theorem floatFree_of_normalize (hv : v.FloatFree) (h : normalizeJsonValue E v = .ok n) :
    n.FloatFree := by
  induction v using induct generalizing n with
  | array xs ih =>
    obtain ⟨ys, hys, h⟩ := bind_eq_ok h
    cases h
    refine floatFree_array.mpr fun y hy => ?_
    obtain ⟨x, hx, hxy⟩ := forall₂_right (normalizeItems_ok hys) y hy
    exact ih x hx (floatFree_array.mp hv x hx) hxy
  | object ms ih =>
    obtain ⟨ns, hns, h⟩ := bind_eq_ok h
    cases h
    refine floatFree_object.mpr fun n hn => ?_
    obtain ⟨m, hm, -, hval⟩ := forall₂_right (normalizeMembers_ok hns).1 n hn
    exact ih m hm (floatFree_object.mp hv m hm) hval
  | float b => exact absurd .self (hv b)
  | _ =>
    cases h
    intro b hb
    have heq := part_scalar (by simp) (by simp) hb
    cases heq

theorem duplicateSafeMembers_eq {rawKeys keys : List String} {ms : List (String × JsonValue)}
    (hnodup : (ms.map Prod.fst).Nodup) (hraw : ∀ m ∈ ms, m.1 ∉ rawKeys)
    (hseen : ∀ m ∈ ms, m.1 ∉ keys) (hkeys : ∀ m ∈ ms, E.nfc m.1 = m.1) :
    duplicateSafeMembers E rawKeys keys ms = .ok ms := by
  induction ms generalizing rawKeys keys with
  | nil => rfl
  | cons m ms ih =>
    obtain ⟨k, x⟩ := m
    rw [List.map_cons, List.nodup_cons] at hnodup
    rw [List.forall_mem_cons] at hraw hseen hkeys
    have hk : E.nfc k = k := hkeys.1
    have hne : ∀ m ∈ ms, ∀ l : List String, m.1 ∉ l → m.1 ∉ k :: l := by
      intro m hm l hl hmem
      rcases List.mem_cons.mp hmem with heq | hmem
      · exact hnodup.1 (List.mem_map.mpr ⟨m, hm, heq⟩)
      · exact hl hmem
    have hrest : duplicateSafeMembers E (k :: rawKeys) (k :: keys) ms = .ok ms := ih hnodup.2
      (fun m hm => hne m hm _ (hraw.2 m hm)) (fun m hm => hne m hm _ (hseen.2 m hm)) hkeys.2
    rw [duplicateSafeMembers, hk, if_neg (by simp [hraw.1, hseen.1]), hrest]
    rfl

/-! ### Bytes -/

theorem decodeUtf8_encodeUtf8 (cs : List Char) : decodeUtf8 (encodeUtf8 cs) = some cs := by
  have hbytes : (encodeUtf8 cs).toByteArray = (String.ofList cs).toByteArray := by
    rw [String.toByteArray_ofList]
    rfl
  unfold decodeUtf8 String.fromUTF8?
  rw [hbytes, dif_pos (String.ofList cs).isValidUTF8]
  exact congrArg some String.toList_ofList

theorem encodeUtf8_injective {a b : List Char} (h : encodeUtf8 a = encodeUtf8 b) : a = b := by
  have := decodeUtf8_encodeUtf8 a
  rw [h, decodeUtf8_encodeUtf8] at this
  exact (Option.some.inj this).symm

/-- The text written for a value, and what it is the text of. -/
theorem canonicalJson_eq_ok {cs : List Char} (h : canonicalJson E v = .ok cs) :
    ∃ n, normalizeJsonValue E v = .ok n ∧ Normal E n ∧ withinDigits intDigits n ∧
      cs = text E.formatFloat n.sorted := by
  obtain ⟨n, hn, h⟩ := bind_eq_ok h
  split at h
  · next hdigits =>
    cases h
    exact ⟨n, hn, normal_of_normalize hn, hdigits, serialize_eq_text E.formatFloat n⟩
  · cases h

theorem Normal.readable (h : Normal E n) (hfree : n.FloatFree) (hd : withinDigits intDigits n) :
    Readable (jsonDecoder E) n.sorted where
  floatFree := hfree.sorted
  short := fun m hm => withinDigits_iff.mp hd m (part_sorted_int hm)
  pairs := by
    intro ms hms
    have hobject : Normal E n.sorted := h.sorted
    exact duplicateSafeMembers_eq (hobject.keyed ms hms) (fun _ _ => List.not_mem_nil)
      (fun _ _ => List.not_mem_nil) (hobject.keys ms hms)

/-- The canonical text of a normal value parses to its sorted form, which has the same text. -/
theorem parseJson_canonical (h : Normal E n) (hfree : n.FloatFree)
    (hd : withinDigits intDigits n) :
    parseJson E (text E.formatFloat n.sorted) = .ok n.sorted ∧
      canonicalJson E n.sorted = .ok (text E.formatFloat n.sorted) := by
  have hnorm := h.sorted.normalize
  constructor
  · unfold parseJson
    rw [loads_text E.formatFloat (h.readable hfree hd)]
    show normalizeParsed E n.sorted = _
    rw [normalizeParsed, hnorm]
  · have hdigits : withinDigits intDigits n.sorted := by
      refine withinDigits_iff.mpr fun m hm => ?_
      exact withinDigits_iff.mp hd m (part_sorted_int hm)
    unfold canonicalJson
    rw [hnorm, bind_ok_eq, if_pos hdigits, serialize_eq_text, sorted_sorted]
    rfl

/-- Equal texts are texts of the same value. -/
theorem text_eq_iff {m : JsonValue} (hn : Normal E n) (hm : Normal E m) (hnf : n.FloatFree)
    (hmf : m.FloatFree) (hnd : withinDigits intDigits n) (hmd : withinDigits intDigits m) :
    text E.formatFloat n.sorted = text E.formatFloat m.sorted ↔ n.same m := by
  rw [same_iff_sorted hn.keyed hm.keyed]
  constructor
  · intro h
    have hparse := (parseJson_canonical hn hnf hnd).1
    rw [h, (parseJson_canonical hm hmf hmd).1] at hparse
    exact (Except.ok.inj hparse).symm
  · exact congrArg _

theorem canonicalJsonBytes_eq_ok {b : Bytes} (hfree : v.FloatFree)
    (h : canonicalJsonBytes E v = .ok b) :
    ∃ n, normalizeJsonValue E v = .ok n ∧ Normal E n ∧ n.FloatFree ∧
      withinDigits intDigits n ∧ b = encodeUtf8 (text E.formatFloat n.sorted) := by
  unfold canonicalJsonBytes at h
  cases hc : canonicalJson E v with
  | error e =>
    rw [hc] at h
    cases h
  | ok cs =>
    rw [hc] at h
    cases h
    obtain ⟨n, hn, hnormal, hd, rfl⟩ := canonicalJson_eq_ok hc
    exact ⟨n, hn, hnormal, floatFree_of_normalize hfree hn, hd, rfl⟩

/-! ### Digest pre-images -/

def domainBytes (domain : String) : Bytes := domain.toList.map fun c => c.toNat.toUInt8

/-- A domain `digest` takes. -/
def DomainOk (domain : String) : Prop :=
  '\x00' ∉ domain.toList ∧ ∀ c ∈ domain.toList, c.toNat < 0x80

theorem digestPreimage_eq_ok {domain : String} {p : Bytes}
    (h : digestPreimage E domain v = .ok p) :
    DomainOk domain ∧ ∃ b, canonicalJsonBytes E v = .ok b ∧ p = domainBytes domain ++ 0 :: b := by
  unfold digestPreimage at h
  split at h
  · cases h
  next hnul =>
  split at h
  · cases h
  next hascii =>
  obtain ⟨b, hb, h⟩ := bind_eq_ok h
  cases h
  rw [not_or] at hnul
  refine ⟨⟨hnul.2, fun c hc => ?_⟩, b, hb, rfl⟩
  simp only [List.any_eq_true, decide_eq_true_eq, not_exists, not_and, not_le] at hascii
  exact hascii c hc

theorem toNat_toUInt8 {n : Nat} (h : n < 0x80) : n.toUInt8.toNat = n := by
  simp
  omega

theorem domainBytes_injective {a b : String} (ha : DomainOk a) (hb : DomainOk b)
    (h : domainBytes a = domainBytes b) : a = b := by
  have hdecode : ∀ domain, DomainOk domain →
      (domainBytes domain).map (fun u => Char.ofNat u.toNat) = domain.toList := by
    intro domain hd
    rw [domainBytes, List.map_map]
    refine (List.map_congr_left fun c hc => ?_).trans (List.map_id _)
    rw [Function.comp_apply, toNat_toUInt8 (hd.2 c hc), Char.ofNat_toNat, id]
  have hlist := hdecode a ha
  rw [h, hdecode b hb] at hlist
  exact String.toList_inj.mp hlist.symm

theorem nul_notMem_domainBytes {domain : String} (h : DomainOk domain) :
    0 ∉ domainBytes domain := by
  intro hmem
  obtain ⟨c, hc, hzero⟩ := List.mem_map.mp hmem
  have hnat := toNat_toUInt8 (h.2 c hc)
  rw [hzero] at hnat
  have hnul : c = '\x00' := by
    rw [← Char.ofNat_toNat c, ← hnat]
    rfl
  exact h.1 (hnul ▸ hc)

/-- The first NUL byte ends the domain. -/
theorem split_at_nul {a b p q : Bytes} (ha : 0 ∉ a) (hb : 0 ∉ b) (h : a ++ 0 :: p = b ++ 0 :: q) :
    a = b ∧ p = q := by
  induction a generalizing b with
  | nil =>
    cases b with
    | nil => exact ⟨rfl, (List.cons.inj h).2⟩
    | cons y b =>
      obtain ⟨hy, -⟩ := List.cons.inj h
      exact absurd (hy ▸ List.mem_cons_self) hb
  | cons x a ih =>
    cases b with
    | nil =>
      obtain ⟨hx, -⟩ := List.cons.inj h
      exact absurd (hx ▸ List.mem_cons_self) ha
    | cons y b =>
      obtain ⟨hxy, hrest⟩ := List.cons.inj h
      rw [List.mem_cons, not_or] at ha hb
      obtain ⟨hab, hpq⟩ := ih ha.2 hb.2 hrest
      exact ⟨by rw [hxy, hab], hpq⟩

/-- Over float-free values: what is encoded parses to the normalized value and encodes to the same
bytes again; bytes are equal exactly when the normalized values are the same; and a digest
pre-image determines its domain and its normalized value. -/
theorem canonical_json_faithful (E : Encoding) :
    (∀ v b, FloatFree v → canonicalJsonBytes E v = .ok b →
      ∃ n cs w, normalizeJsonValue E v = .ok n ∧ decodeUtf8 b = some cs ∧
        parseJson E cs = .ok w ∧ w.same n ∧ canonicalJsonBytes E w = .ok b) ∧
    (∀ v v' b b', FloatFree v → FloatFree v' → canonicalJsonBytes E v = .ok b →
      canonicalJsonBytes E v' = .ok b' →
      ∃ n n', normalizeJsonValue E v = .ok n ∧ normalizeJsonValue E v' = .ok n' ∧
        (b = b' ↔ n.same n')) ∧
    (∀ domain domain' v v' p p', FloatFree v → FloatFree v' →
      digestPreimage E domain v = .ok p → digestPreimage E domain' v' = .ok p' →
      ∃ n n', normalizeJsonValue E v = .ok n ∧ normalizeJsonValue E v' = .ok n' ∧
        (p = p' ↔ domain = domain' ∧ n.same n')) := by
  have hbytes : ∀ v v' b b', FloatFree v → FloatFree v' → canonicalJsonBytes E v = .ok b →
      canonicalJsonBytes E v' = .ok b' →
      ∃ n n', normalizeJsonValue E v = .ok n ∧ normalizeJsonValue E v' = .ok n' ∧
        (b = b' ↔ n.same n') := by
    intro v v' b b' hv hv' hb hb'
    obtain ⟨n, hn, hnormal, hfree, hd, rfl⟩ := canonicalJsonBytes_eq_ok hv hb
    obtain ⟨n', hn', hnormal', hfree', hd', rfl⟩ := canonicalJsonBytes_eq_ok hv' hb'
    refine ⟨n, n', hn, hn', ?_⟩
    rw [← text_eq_iff hnormal hnormal' hfree hfree' hd hd']
    exact ⟨encodeUtf8_injective, congrArg _⟩
  refine ⟨?_, hbytes, ?_⟩
  · intro v b hv hb
    obtain ⟨n, hn, hnormal, hfree, hd, rfl⟩ := canonicalJsonBytes_eq_ok hv hb
    obtain ⟨hparse, hagain⟩ := parseJson_canonical hnormal hfree hd
    refine ⟨n, _, n.sorted, hn, decodeUtf8_encodeUtf8 _, hparse, ?_, ?_⟩
    · rw [same_iff_sorted hnormal.keyed.sorted hnormal.keyed, sorted_sorted]
    · rw [canonicalJsonBytes, hagain]
      rfl
  · intro domain domain' v v' p p' hv hv' hp hp'
    obtain ⟨hok, b, hb, rfl⟩ := digestPreimage_eq_ok hp
    obtain ⟨hok', b', hb', rfl⟩ := digestPreimage_eq_ok hp'
    obtain ⟨n, n', hn, hn', hiff⟩ := hbytes v v' b b' hv hv' hb hb'
    refine ⟨n, n', hn, hn', ?_⟩
    rw [← hiff]
    constructor
    · intro h
      obtain ⟨hdomain, hpayload⟩ :=
        split_at_nul (nul_notMem_domainBytes hok) (nul_notMem_domainBytes hok') h
      exact ⟨domainBytes_injective hok hok' hdomain, hpayload⟩
    · rintro ⟨rfl, rfl⟩
      rfl

def sampleEncoding : Encoding := ⟨id, fun _ => rfl, fun _ => [], fun _ => 0⟩

def sampleDocument : JsonValue :=
  .object [("b", .int (-12)), ("a", .array [.string "x\n", .bool true, .null])]

theorem sampleDocument_floatFree : sampleDocument.FloatFree := by
  intro b hb
  simp only [sampleDocument, part_object, part_array, List.mem_cons, List.not_mem_nil, or_false,
    exists_eq_or_imp, exists_eq_left, reduceCtorEq, false_or] at hb
  rcases hb with h | h | h | h <;> cases h

example : canonicalJson sampleEncoding sampleDocument =
    .ok "\x7b\"a\":[\"x\\n\",true,null],\"b\":-12\x7d".toList := by
  decide

theorem canonical_json_faithful_sample :
    ∃ b n cs w, canonicalJsonBytes sampleEncoding sampleDocument = .ok b ∧
      normalizeJsonValue sampleEncoding sampleDocument = .ok n ∧ decodeUtf8 b = some cs ∧
      parseJson sampleEncoding cs = .ok w ∧ w.same n := by
  have hok : (canonicalJsonBytes sampleEncoding sampleDocument).isOk = true := by decide
  cases hb : canonicalJsonBytes sampleEncoding sampleDocument with
  | error e =>
    rw [hb] at hok
    cases hok
  | ok b =>
    obtain ⟨n, cs, w, hn, hcs, hw, hsame, -⟩ := (canonical_json_faithful sampleEncoding).1
      sampleDocument b sampleDocument_floatFree hb
    exact ⟨b, n, cs, w, rfl, hn, hcs, hw, hsame⟩

end AgentStack.Core
