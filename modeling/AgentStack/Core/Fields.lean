import AgentStack.Core.CanonicalJson
import AgentStack.Core.Paths

/-! Reading the fields of a document, and its digest. `fail` is the failure of the module that
reads. -/
namespace AgentStack.Core

open JsonText JsonValue FileTree

abbrev Members := List (String × JsonValue)

/-- `members.get(key)`. -/
def getField (ms : Members) (key : String) : JsonValue := (ms.lookup key).getD .null

/-- `members.get(key, default)`. -/
def getFieldOr (ms : Members) (key : String) (default : JsonValue) : JsonValue :=
  (ms.lookup key).getD default

def hasKey (ms : Members) (key : String) : Bool := (ms.lookup key).isSome

/-- `set(members) == fields`. -/
def fieldsAre (ms : Members) (fields : List String) : Bool :=
  ms.all (fun m => m.1 ∈ fields) && fields.all (hasKey ms)

/-- A field of a document that is an object. -/
def fieldOf (v : JsonValue) (key : String) : JsonValue :=
  match v with
  | .object ms => getField ms key
  | _ => .null

/-- The elements of an array. -/
def itemsOf (v : JsonValue) : List JsonValue :=
  match v with
  | .array xs => xs
  | _ => []

/-- `value == 1`: a boolean and a float compare as numbers. -/
def isOne (v : JsonValue) : Bool :=
  match v with
  | .int n => n = 1
  | .bool b => b
  | .float bits => bits = 0x3FF0000000000000
  | _ => false

def isString (v : JsonValue) (s : String) : Bool :=
  match v with
  | .string t => t = s
  | _ => false

def stringValue? : JsonValue → Option String
  | .string s => some s
  | _ => none

def members? : JsonValue → Option Members
  | .object ms => some ms
  | _ => none

def items? : JsonValue → Option (List JsonValue)
  | .array xs => some xs
  | _ => none

def sortStrings (l : List String) : List String := l.insertionSort (· ≤ ·)

theorem mem_sortStrings {l : List String} {s : String} : s ∈ sortStrings l ↔ s ∈ l :=
  (List.perm_insertionSort _ l).mem_iff

theorem sortStrings_nodup {l : List String} (h : l.Nodup) : (sortStrings l).Nodup :=
  (List.perm_insertionSort (· ≤ ·) l).nodup_iff.mpr h

/-- A test for membership in a set takes the hash of the value. -/
def typeError : Failure := ⟨.assertion, "TypeError", "unhashable type", []⟩

def inStrings (v : JsonValue) (set : List String) : Except Failure Bool :=
  match v with
  | .string s => .ok (s ∈ set)
  | .array _ | .object _ => .error typeError
  | _ => .ok false

section Readers

variable (fail : String → Failure)

def mappingOf (v : JsonValue) (label : String) : Except Failure Members :=
  match v with
  | .object ms => .ok ms
  | _ => .error (fail (label ++ " must be a string-keyed object"))

def arrayOf (v : JsonValue) (label : String) : Except Failure (List JsonValue) :=
  match v with
  | .array xs => .ok xs
  | _ => .error (fail (label ++ " must be an array"))

def stringOf (v : JsonValue) (label : String) : Except Failure String :=
  match v with
  | .string s => if s = "" then .error (fail (label ++ " must be a nonempty string")) else .ok s
  | _ => .error (fail (label ++ " must be a nonempty string"))

def sha256Of (v : JsonValue) (label : String) : Except Failure String :=
  match v with
  | .string s => if isDigest s then .ok s else .error (fail (label ++ " must be lowercase SHA-256"))
  | _ => .error (fail (label ++ " must be lowercase SHA-256"))

def uuidOf (v : JsonValue) (label : String) : Except Failure String := do
  let text ← stringOf fail v label
  if isUuid text then return text
  else .error (fail (label ++ " must be a canonical UUID"))

def pathOf (nfc : String → String) (v : JsonValue) (label : String) : Except Failure String :=
  match stringOf fail v label with
  | .ok text =>
    match normalizePath nfc text with
    | .ok path => .ok (joinPath path)
    | .error _ => .error (fail (label ++ " must be a normalized repository path"))
  | .error _ => .error (fail (label ++ " must be a normalized repository path"))

end Readers

/-- `normalize_mode` of a value that is not known to be a text. -/
def normalizeModeValue (v : JsonValue) : Except Failure FileTree.Mode :=
  match v with
  | .bool _ => .error (canonicalizationFailure "boolean is not a POSIX mode")
  | .int n =>
    if n < 0 then .error (canonicalizationFailure "POSIX mode must be nonnegative")
    else .ok (Fin.ofNat 512 n.toNat)
  | .string s => normalizeMode s
  | _ => .error (canonicalizationFailure "POSIX mode must be an octal integer or string")

def check (ok : Bool) (e : Failure) : Except Failure Unit := if ok then .ok () else .error e

theorem check_eq_ok {ok : Bool} {e : Failure} {u : Unit} : check ok e = .ok u ↔ ok = true := by
  cases ok <;> simp [check]

variable {α β : Type}

def require (o : Option α) (e : Failure) : Except Failure α :=
  match o with
  | some a => .ok a
  | none => .error e

theorem require_eq_ok {o : Option α} {e : Failure} {a : α} : require o e = .ok a ↔ o = some a := by
  cases o <;> simp [require]

/-- A loop over the elements and their indices, from `i` on. -/
def enumerateM (f : Nat → α → Except Failure β) (i : Nat) : List α → Except Failure (List β)
  | [] => .ok []
  | x :: xs => do
    let y ← f i x
    let ys ← enumerateM f (i + 1) xs
    return y :: ys

theorem enumerateM_ok {f : Nat → α → Except Failure β} {i : Nat} {xs : List α} {ys : List β}
    (h : enumerateM f i xs = .ok ys) : List.Forall₂ (fun x y => ∃ j, f j x = .ok y) xs ys := by
  induction xs generalizing i ys with
  | nil =>
    cases h
    exact .nil
  | cons x xs ih =>
    obtain ⟨y, hy, h⟩ := bind_eq_ok h
    obtain ⟨zs, hzs, h⟩ := bind_eq_ok h
    cases h
    exact .cons ⟨i, hy⟩ (ih hzs)

theorem mappingOf_eq_ok {fail : String → Failure} {v : JsonValue} {label : String} {ms : Members} :
    mappingOf fail v label = .ok ms ↔ v = .object ms := by
  cases v <;> simp [mappingOf]

theorem arrayOf_eq_ok {fail : String → Failure} {v : JsonValue} {label : String}
    {xs : List JsonValue} : arrayOf fail v label = .ok xs ↔ v = .array xs := by
  cases v <;> simp [arrayOf]

theorem stringOf_eq_ok {fail : String → Failure} {v : JsonValue} {label s : String} :
    stringOf fail v label = .ok s ↔ v = .string s ∧ s ≠ "" := by
  cases v with
  | string t =>
    rw [stringOf]
    split
    next h =>
      subst h
      simp only [reduceCtorEq, false_iff, not_and, not_not, JsonValue.string.injEq]
      exact fun h => h.symm
    next h =>
      simp only [Except.ok.injEq, JsonValue.string.injEq]
      constructor
      · rintro rfl
        exact ⟨rfl, h⟩
      · exact And.left
  | _ => simp [stringOf]

theorem sha256Of_eq_ok {fail : String → Failure} {v : JsonValue} {label s : String} :
    sha256Of fail v label = .ok s ↔ v = .string s ∧ isDigest s := by
  cases v with
  | string t =>
    rw [sha256Of]
    split
    next h =>
      simp only [Except.ok.injEq, JsonValue.string.injEq]
      constructor
      · rintro rfl
        exact ⟨rfl, h⟩
      · exact And.left
    next h =>
      simp only [reduceCtorEq, false_iff, not_and, JsonValue.string.injEq]
      rintro rfl
      exact h
  | _ => simp [sha256Of]

/-- The labels of the readers are only those of their failures. -/
theorem uuidOf_relabel {fail : String → Failure} {v : JsonValue} {label s : String}
    (h : uuidOf fail v label = .ok s) (label' : String) : uuidOf fail v label' = .ok s := by
  obtain ⟨text, htext, h⟩ := bind_eq_ok h
  rw [uuidOf, stringOf_eq_ok.mpr (stringOf_eq_ok.mp htext), bind_ok_eq]
  split at h
  next huuid =>
    rw [if_pos huuid]
    exact h
  next => cases h

theorem pathOf_relabel {fail : String → Failure} {nfc : String → String} {v : JsonValue}
    {label s : String} (h : pathOf fail nfc v label = .ok s) (label' : String) :
    pathOf fail nfc v label' = .ok s := by
  rw [pathOf] at h ⊢
  cases htext : stringOf fail v label with
  | error e =>
    rw [htext] at h
    cases h
  | ok text =>
    rw [htext] at h
    rw [stringOf_eq_ok.mpr (stringOf_eq_ok.mp htext)]
    cases hpath : normalizePath nfc text with
    | error e =>
      simp only [hpath] at h
      cases h
    | ok path =>
      simp only [hpath] at h
      simpa only [hpath] using h

theorem isString_iff {v : JsonValue} {s : String} : isString v s = true ↔ v = .string s := by
  cases v <;> simp [isString]

theorem mem_of_lookup {l : List (String × α)} {k : String} {v : α} (h : l.lookup k = some v) :
    (k, v) ∈ l := by
  obtain ⟨before, after, rfl, -⟩ := List.lookup_eq_some_iff.mp h
  simp

theorem lookup_of_hasKey {ms : Members} {k : String} (h : hasKey ms k = true) :
    ms.lookup k = some (getField ms k) := by
  unfold hasKey at h
  unfold getField
  cases hk : ms.lookup k with
  | none =>
    rw [hk] at h
    cases h
  | some v => rfl

theorem hasKey_of_getField {ms : Members} {k s : String} (h : getField ms k = .string s) :
    hasKey ms k = true := by
  unfold getField at h
  unfold hasKey
  cases hk : ms.lookup k with
  | none =>
    rw [hk] at h
    cases h
  | some v => rfl

theorem stringValue?_eq_some {v : JsonValue} {s : String} :
    stringValue? v = some s ↔ v = .string s := by
  cases v <;> simp [stringValue?]

theorem members?_eq_some {v : JsonValue} {ms : Members} :
    members? v = some ms ↔ v = .object ms := by
  cases v <;> simp [members?]

theorem items?_eq_some {v : JsonValue} {xs : List JsonValue} :
    items? v = some xs ↔ v = .array xs := by
  cases v <;> simp [items?]

theorem fieldsAre_iff {ms : Members} {fields : List String} :
    fieldsAre ms fields = true ↔ ∀ k, hasKey ms k = true ↔ k ∈ fields := by
  have hkey : ∀ k, hasKey ms k = true ↔ ∃ m ∈ ms, m.1 = k := fun k =>
    (KeyedList.lookup_isSome_iff_mem ms k).trans List.mem_map
  rw [fieldsAre, Bool.and_eq_true, List.all_eq_true, List.all_eq_true]
  simp only [decide_eq_true_eq]
  constructor
  · rintro ⟨hsub, hall⟩ k
    refine ⟨fun hk => ?_, hall k⟩
    obtain ⟨m, hm, rfl⟩ := (hkey k).mp hk
    exact hsub m hm
  · intro h
    exact ⟨fun m hm => (h m.1).mp ((hkey m.1).mpr ⟨m, hm, rfl⟩), fun k hk => (h k).mpr hk⟩

/-- Documents with the same fields, as far as which there are. -/
theorem fieldsAre_congr {ms ms' : Members} {fields : List String}
    (h : ∀ k, hasKey ms' k = hasKey ms k) : fieldsAre ms' fields = fieldsAre ms fields := by
  rw [Bool.eq_iff_iff, fieldsAre_iff, fieldsAre_iff]
  simp only [h]

/-! ### Failures by their codes -/

section Codes

variable {α β : Type} {code : String}

/-- Nothing else is raised. -/
def FailsWith (code : String) (x : Except Failure α) : Prop :=
  ∀ e, x = .error e → e.kind = .core ∧ e.code = code

theorem FailsWith.bind {x : Except Failure α} {f : α → Except Failure β} (hx : FailsWith code x)
    (hf : ∀ a, FailsWith code (f a)) : FailsWith code (x >>= f) := by
  intro e h
  cases hxe : x with
  | error e' =>
    rw [hxe] at h
    cases h
    exact hx _ hxe
  | ok a =>
    rw [hxe] at h
    exact hf a e h

end Codes

/-! ### The order of arrays -/

def ArrayReordered (v w : JsonValue) : Prop :=
  ∃ xs ys, v = .array xs ∧ w = .array ys ∧ xs.Perm ys

/-- The fields are the same, those under `keys` up to the order of their arrays. -/
structure FieldsReordered (keys : List String) (ms ms' : Members) : Prop where
  other : ∀ k, k ∉ keys → ms'.lookup k = ms.lookup k
  array : ∀ k ∈ keys, ArrayReordered (getField ms k) (getField ms' k)

theorem getField_congr {ms ms' : Members} {k : String} (h : ms'.lookup k = ms.lookup k) :
    getField ms' k = getField ms k := by
  rw [getField, getField, h]

theorem hasKey_of_array {ms : Members} {k : String} {xs : List JsonValue}
    (h : getField ms k = .array xs) : hasKey ms k = true := by
  unfold getField at h
  unfold hasKey
  cases hk : ms.lookup k with
  | none =>
    rw [hk] at h
    cases h
  | some v => rfl

theorem FieldsReordered.hasKey {keys : List String} {ms ms' : Members}
    (h : FieldsReordered keys ms ms') (k : String) : hasKey ms' k = hasKey ms k := by
  by_cases hk : k ∈ keys
  · obtain ⟨xs, ys, hxs, hys, -⟩ := h.array k hk
    rw [hasKey_of_array hxs, hasKey_of_array hys]
  · rw [Core.hasKey, Core.hasKey, h.other k hk]

theorem FieldsReordered.get {keys : List String} {ms ms' : Members}
    (h : FieldsReordered keys ms ms') {k : String} (hk : k ∉ keys) :
    getField ms' k = getField ms k := getField_congr (h.other k hk)

/-! ### ASCII texts and digests -/

def Ascii (s : String) : Prop := ∀ c ∈ s.toList, c.toNat < 0x80

instance (s : String) : Decidable (Ascii s) := inferInstanceAs (Decidable (∀ c ∈ s.toList, _))

theorem ascii_of_isLowerHex {c : Char} (h : isLowerHex c = true) : c.toNat < 0x80 := by
  have hle : ∀ u v : Char, u ≤ v → u.toNat ≤ v.toNat := fun u v huv => huv
  simp only [isLowerHex, Bool.decide_or, Bool.decide_and, Bool.or_eq_true, Bool.and_eq_true,
    decide_eq_true_eq] at h
  rcases h with ⟨-, h⟩ | ⟨-, h⟩
  · have := hle _ _ h
    simp at this
    omega
  · have := hle _ _ h
    simp at this
    omega

theorem ascii_of_isDigest {s : String} (h : isDigest s = true) : Ascii s := by
  rw [isDigest, charsOf_eq, Bool.and_eq_true, List.all_eq_true] at h
  exact fun c hc => ascii_of_isLowerHex (h.2 c hc)

theorem ascii_of_hyphenated {hex : List Char} (h : hex.all isLowerHex = true) {c : Char}
    (hc : c ∈ hex.take 8 ++ '-' :: (hex.drop 8).take 4 ++ '-' :: (hex.drop 12).take 4 ++
      '-' :: (hex.drop 16).take 4 ++ '-' :: hex.drop 20) : c.toNat < 0x80 := by
  have hhex : ∀ c ∈ hex, c.toNat < 0x80 := fun c hc =>
    ascii_of_isLowerHex (List.all_eq_true.mp h c hc)
  by_cases hdash : c = '-'
  · subst hdash
    decide
  · apply hhex
    simp only [List.mem_append, List.mem_cons, hdash, false_or] at hc
    rcases hc with (((hc | hc) | hc) | hc) | hc
    · exact List.mem_of_mem_take hc
    · exact List.mem_of_mem_drop (List.mem_of_mem_take hc)
    · exact List.mem_of_mem_drop (List.mem_of_mem_take hc)
    · exact List.mem_of_mem_drop (List.mem_of_mem_take hc)
    · exact List.mem_of_mem_drop hc

theorem ascii_of_isUuid {s : String} (h : isUuid s = true) : Ascii s := by
  have hparse : parseUuid s = some s := of_decide_eq_true h
  unfold parseUuid at hparse
  simp only at hparse
  intro c hc
  split_ifs at hparse with hpre hhex hhex
  all_goals
    have hs := Option.some.inj hparse
    rw [← hs, String.toList_ofList] at hc
    exact ascii_of_hyphenated hhex.2 hc

/-- Normalization leaves ASCII alone. -/
structure TextEncoding extends Encoding where
  nfc_ascii : ∀ s : String, Ascii s → nfc s = s

def sampleTextEncoding : TextEncoding := ⟨sampleEncoding, fun _ _ => rfl⟩

/-- The conversions of the language together with its hash function. -/
structure Hasher extends TextEncoding where
  sha256 : Bytes → String
  sha256_isDigest : ∀ b, isDigest (sha256 b) = true

def digest (H : Hasher) (domain : String) (v : JsonValue) : Except Failure String :=
  (digestPreimage H.toEncoding domain v).map H.sha256

end AgentStack.Core
