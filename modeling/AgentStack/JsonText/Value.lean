import AgentStack.KeyedList.Basic
import Mathlib.Data.List.Lex
import Mathlib.Data.List.Perm.Subperm

/-! JSON values. The members of an object have no order: two values are the same when they are
alike up to it, which is when their sorted forms are equal. -/
namespace AgentStack.JsonText

/-- The characters of a text, read off its bytes where all are ASCII: texts of digits evaluate much
faster so. -/
def charsOf (value : String) : List Char :=
  let bytes := value.toByteArray.data.toList
  if bytes.all (· < 0x80) then bytes.map fun b => Char.ofNat b.toNat else value.toList

/-- A character whose encoding is below `0x80` is its one byte. -/
theorem ofNat_of_ascii {c : Char} (h : (String.utf8EncodeChar c).all (· < 0x80) = true) :
    (String.utf8EncodeChar c).map (fun b => Char.ofNat b.toNat) = [c] := by
  have hbytes : (String.utf8EncodeChar c).all (· < 0x80) = true →
      String.utf8EncodeChar c = [c.val.toUInt8] ∧ c.toNat < 0x80 := by
    have hor : ∀ x y : UInt8, 0x80 ≤ y → ¬ x ||| y < 0x80 := by
      intro x y hy hlt
      have hle : y.toNat ≤ (x ||| y).toNat := by
        rw [UInt8.toNat_or]
        exact Nat.right_le_or
      rw [UInt8.lt_iff_toNat_lt] at hlt
      rw [UInt8.le_iff_toNat_le] at hy
      exact absurd (hy.trans hle) (not_le.mpr hlt)
    rw [String.utf8EncodeChar_eq_utf8EncodeCharFast]
    unfold String.utf8EncodeCharFast
    dsimp only
    split_ifs with h₁ h₂ h₃
    · intro _
      refine ⟨rfl, ?_⟩
      have := UInt32.le_iff_toNat_le.mp h₁
      exact Nat.lt_succ_of_le this
    all_goals
      intro hall
      rw [List.all_cons, Bool.and_eq_true] at hall
      exact absurd (of_decide_eq_true hall.1) (hor _ _ (by decide))
  obtain ⟨hone, hlt⟩ := hbytes h
  rw [hone, List.map_singleton]
  have : c.val.toUInt8.toNat = c.toNat := by
    rw [UInt32.toNat_toUInt8]
    exact Nat.mod_eq_of_lt (lt_trans hlt (by decide))
  rw [this, Char.ofNat_toNat]

theorem map_ofNat_of_ascii {cs : List Char}
    (h : (cs.flatMap String.utf8EncodeChar).all (· < 0x80) = true) :
    (cs.flatMap String.utf8EncodeChar).map (fun b => Char.ofNat b.toNat) = cs := by
  induction cs with
  | nil => rfl
  | cons c cs ih =>
    rw [List.flatMap_cons, List.all_append, Bool.and_eq_true] at h
    rw [List.flatMap_cons, List.map_append, ofNat_of_ascii h.1, ih h.2]
    rfl

@[simp]
theorem charsOf_eq (value : String) : charsOf value = value.toList := by
  have hbytes : value.toByteArray.data.toList = value.toList.flatMap String.utf8EncodeChar := by
    rw [← String.utf8Encode_toList, List.utf8Encode]
    simp
  rw [charsOf, hbytes]
  split_ifs with h
  · exact map_ofNat_of_ascii h
  · rfl

/-- A float is the bits of its binary64 format. -/
inductive JsonValue
  | null
  | bool (b : Bool)
  | int (n : Int)
  | float (bits : UInt64)
  | string (s : String)
  | array (items : List JsonValue)
  | object (members : List (String × JsonValue))
  deriving Repr

namespace JsonValue

@[elab_as_elim]
theorem induct {P : JsonValue → Prop} (null : P .null) (bool : ∀ b, P (.bool b))
    (int : ∀ n, P (.int n)) (float : ∀ b, P (.float b)) (string : ∀ s, P (.string s))
    (array : ∀ xs : List JsonValue, (∀ x ∈ xs, P x) → P (.array xs))
    (object : ∀ ms : List (String × JsonValue), (∀ m ∈ ms, P m.2) → P (.object ms))
    (v : JsonValue) :
    P v := by
  refine @JsonValue.rec P (fun xs => ∀ x ∈ xs, P x) (fun ms => ∀ m ∈ ms, P m.2) (fun m => P m.2)
    null bool int float string array object ?_ ?_ ?_ ?_ ?_ v
  · exact fun x hx => absurd hx List.not_mem_nil
  · intro x xs hx hxs y hy
    rcases List.mem_cons.mp hy with rfl | hy
    · exact hx
    · exact hxs y hy
  · exact fun m hm => absurd hm List.not_mem_nil
  · intro m ms hm hms n hn
    rcases List.mem_cons.mp hn with rfl | hn
    · exact hm
    · exact hms n hn
  · exact fun _ _ h => h

/-- `w` stands somewhere in a value. -/
inductive Part (w : JsonValue) : JsonValue → Prop
  | self : Part w w
  | item {xs : List JsonValue} {x : JsonValue} (hx : x ∈ xs) (h : Part w x) : Part w (.array xs)
  | member {ms : List (String × JsonValue)} {m : String × JsonValue} (hm : m ∈ ms)
    (h : Part w m.2) : Part w (.object ms)

/-- No key occurs twice in an object. -/
def Keyed (v : JsonValue) : Prop := ∀ ms, Part (.object ms) v → (ms.map Prod.fst).Nodup

def FloatFree (v : JsonValue) : Prop := ∀ b, ¬ Part (.float b) v

@[simp] theorem part_array {w : JsonValue} {xs : List JsonValue} :
    Part w (.array xs) ↔ w = .array xs ∨ ∃ x ∈ xs, Part w x := by
  constructor
  · intro h
    cases h with
    | self => exact Or.inl rfl
    | item hx h => exact Or.inr ⟨_, hx, h⟩
  · rintro (rfl | ⟨x, hx, h⟩)
    · exact .self
    · exact .item hx h

@[simp] theorem part_object {w : JsonValue} {ms : List (String × JsonValue)} :
    Part w (.object ms) ↔ w = .object ms ∨ ∃ m ∈ ms, Part w m.2 := by
  constructor
  · intro h
    cases h with
    | self => exact Or.inl rfl
    | member hm h => exact Or.inr ⟨_, hm, h⟩
  · rintro (rfl | ⟨m, hm, h⟩)
    · exact .self
    · exact .member hm h

theorem keyed_array {xs : List JsonValue} : Keyed (.array xs) ↔ ∀ x ∈ xs, x.Keyed := by
  constructor
  · intro h x hx ms hms
    exact h ms (.item hx hms)
  · intro h ms hms
    rcases part_array.mp hms with heq | ⟨x, hx, hpart⟩
    · cases heq
    · exact h x hx ms hpart

theorem keyed_object {ms : List (String × JsonValue)} :
    Keyed (.object ms) ↔ (ms.map Prod.fst).Nodup ∧ ∀ m ∈ ms, m.2.Keyed := by
  constructor
  · intro h
    exact ⟨h ms .self, fun m hm ns hns => h ns (.member hm hns)⟩
  · rintro ⟨hnodup, h⟩ ns hns
    rcases part_object.mp hns with heq | ⟨m, hm, hpart⟩
    · cases heq
      exact hnodup
    · exact h m hm ns hpart

theorem floatFree_array {xs : List JsonValue} :
    FloatFree (.array xs) ↔ ∀ x ∈ xs, x.FloatFree := by
  simp only [FloatFree, part_array, not_or, not_exists, not_and]
  constructor
  · intro h x hx b
    exact (h b).2 x hx
  · intro h b
    exact ⟨by simp, fun x hx => h x hx b⟩

theorem floatFree_object {ms : List (String × JsonValue)} :
    FloatFree (.object ms) ↔ ∀ m ∈ ms, m.2.FloatFree := by
  simp only [FloatFree, part_object, not_or, not_exists, not_and]
  constructor
  · intro h m hm b
    exact (h b).2 m hm
  · intro h b
    exact ⟨by simp, fun m hm => h m hm b⟩

/-! ### Sameness -/

mutual
/-- Equality of lists is by position, equality of objects is by key. -/
def same : JsonValue → JsonValue → Bool
  | .null, .null => true
  | .bool b, .bool b' => b = b'
  | .int n, .int n' => n = n'
  | .float b, .float b' => b = b'
  | .string s, .string s' => s = s'
  | .array xs, .array ys => sameItems xs ys
  | .object ms, .object ns => ms.length = ns.length && sameMembers ms ns
  | _, _ => false
def sameItems : List JsonValue → List JsonValue → Bool
  | [], [] => true
  | x :: xs, y :: ys => same x y && sameItems xs ys
  | _, _ => false
def sameMembers : List (String × JsonValue) → List (String × JsonValue) → Bool
  | [], _ => true
  | (k, x) :: ms, ns =>
    (match ns.lookup k with
      | some y => same x y
      | none => false) && sameMembers ms ns
end

theorem sameItems_iff {xs ys : List JsonValue} :
    sameItems xs ys ↔ List.Forall₂ (fun x y => same x y = true) xs ys := by
  induction xs generalizing ys with
  | nil => cases ys <;> simp [sameItems]
  | cons x xs ih =>
    cases ys with
    | nil => simp [sameItems]
    | cons y ys => simp [sameItems, ih]

theorem sameMembers_iff {ms ns : List (String × JsonValue)} :
    sameMembers ms ns ↔ ∀ m ∈ ms, ∃ y, ns.lookup m.1 = some y ∧ same m.2 y := by
  induction ms with
  | nil => simp [sameMembers]
  | cons m ms ih =>
    obtain ⟨k, x⟩ := m
    simp only [sameMembers, Bool.and_eq_true, ih, List.forall_mem_cons]
    refine and_congr ?_ Iff.rfl
    cases ns.lookup k <;> simp

/-! ### The sorted form -/

/-- The bytes of the UTF-16 code units of a text, the high byte first. -/
def utf16Char (c : Char) : List Nat :=
  let n := c.toNat
  if n < 0x10000 then [n / 256, n % 256]
  else
    let high := 0xD800 + (n - 0x10000) / 1024
    let low := 0xDC00 + (n - 0x10000) % 1024
    [high / 256, high % 256, low / 256, low % 256]

def utf16 (s : String) : List Nat := (charsOf s).flatMap utf16Char

/-- The order of the members of a sorted object. -/
def KeyLe {α : Type} (a b : String × α) : Prop := utf16 a.1 ≤ utf16 b.1

instance {α : Type} : DecidableRel (KeyLe (α := α)) := fun a b =>
  inferInstanceAs (Decidable (utf16 a.1 ≤ utf16 b.1))

mutual
def sorted : JsonValue → JsonValue
  | .array xs => .array (sortedItems xs)
  | .object ms => .object ((sortedMembers ms).insertionSort KeyLe)
  | v => v
def sortedItems : List JsonValue → List JsonValue
  | [] => []
  | x :: xs => sorted x :: sortedItems xs
def sortedMembers : List (String × JsonValue) → List (String × JsonValue)
  | [] => []
  | (k, x) :: ms => (k, sorted x) :: sortedMembers ms
end

theorem sortedItems_eq (xs : List JsonValue) : sortedItems xs = xs.map sorted := by
  induction xs with
  | nil => rfl
  | cons x xs ih => rw [sortedItems, ih, List.map_cons]

theorem sortedMembers_eq (ms : List (String × JsonValue)) :
    sortedMembers ms = ms.map fun m => (m.1, sorted m.2) := by
  induction ms with
  | nil => rfl
  | cons m ms ih => rw [sortedMembers, ih, List.map_cons]

theorem sorted_array (xs : List JsonValue) : sorted (.array xs) = .array (xs.map sorted) := by
  rw [sorted, sortedItems_eq]

theorem sorted_object (ms : List (String × JsonValue)) : sorted (.object ms) =
    .object ((ms.map fun m => (m.1, sorted m.2)).insertionSort KeyLe) := by
  rw [sorted, sortedMembers_eq]

/-- The code units of one character are told apart from whatever follows them. -/
theorem utf16Char_append {c d : Char} {r r' : List Nat}
    (h : utf16Char c ++ r = utf16Char d ++ r') : c = d ∧ r = r' := by
  have hc : c.toNat.isValidChar := c.valid
  have hd : d.toNat.isValidChar := d.valid
  unfold Nat.isValidChar at hc hd
  have hval : c.toNat = d.toNat ∧ r = r' := by
    unfold utf16Char at h
    simp only at h
    split at h
    · split at h
      · simp only [List.cons_append, List.nil_append, List.cons.injEq] at h
        obtain ⟨hhigh, hlow, hr⟩ := h
        exact ⟨by omega, hr⟩
      · -- a single code unit is no high surrogate
        simp only [List.cons_append, List.nil_append, List.cons.injEq] at h
        omega
    · split at h
      · simp only [List.cons_append, List.nil_append, List.cons.injEq] at h
        omega
      · simp only [List.cons_append, List.nil_append, List.cons.injEq] at h
        obtain ⟨h₁, h₂, h₃, h₄, hr⟩ := h
        exact ⟨by omega, hr⟩
  exact ⟨Char.ext (UInt32.toNat_inj.mp hval.1), hval.2⟩

theorem utf16_injective {a b : String} (h : utf16 a = utf16 b) : a = b := by
  have hlist : ∀ l m : List Char, l.flatMap utf16Char = m.flatMap utf16Char → l = m := by
    have hne : ∀ c, utf16Char c ≠ [] := by
      intro c
      unfold utf16Char
      simp only
      split <;> simp
    intro l
    induction l with
    | nil =>
      intro m hm
      cases m with
      | nil => rfl
      | cons d m =>
        have := List.append_eq_nil_iff.mp hm.symm
        exact absurd this.1 (hne d)
    | cons c l ih =>
      intro m hm
      cases m with
      | nil =>
        have := List.append_eq_nil_iff.mp hm
        exact absurd this.1 (hne c)
      | cons d m =>
        obtain ⟨rfl, hrest⟩ := utf16Char_append hm
        rw [ih m hrest]
  rw [utf16, utf16, charsOf_eq, charsOf_eq] at h
  exact String.toList_inj.mp (hlist _ _ h)

section Sorting

variable {α : Type} {ms ns : List (String × α)}

instance : Std.Total (KeyLe (α := α)) := ⟨fun a b => le_total (utf16 a.1) (utf16 b.1)⟩

instance : IsTrans (String × α) KeyLe :=
  ⟨fun a b _ h h' => le_trans (show utf16 a.1 ≤ utf16 b.1 from h) h'⟩

theorem eq_of_fst_eq {m n : String × α} (h : (ms.map Prod.fst).Nodup) (hm : m ∈ ms)
    (hn : n ∈ ms) (hkey : m.1 = n.1) : m = n :=
  List.inj_on_of_nodup_map h hm hn hkey

/-- Sorting by key forgets the order of the members, and nothing else. -/
theorem sort_eq_iff_perm (h : (ms.map Prod.fst).Nodup) :
    ms.insertionSort KeyLe = ns.insertionSort KeyLe ↔ ms.Perm ns := by
  constructor
  · intro heq
    have hms := List.perm_insertionSort KeyLe ms
    rw [heq] at hms
    exact hms.symm.trans (List.perm_insertionSort KeyLe ns)
  · intro hperm
    have hns := (List.perm_insertionSort KeyLe ms).trans
      (hperm.trans (List.perm_insertionSort KeyLe ns).symm)
    refine List.Perm.eq_of_pairwise ?_ (List.pairwise_insertionSort KeyLe ms)
      (List.pairwise_insertionSort KeyLe ns) hns
    intro a b ha hb hab hba
    have hkey := utf16_injective (le_antisymm (show utf16 a.1 ≤ utf16 b.1 from hab) hba)
    refine eq_of_fst_eq h ((List.mem_insertionSort KeyLe).mp ha) ?_ hkey
    exact hperm.symm.subset ((List.mem_insertionSort KeyLe).mp hb)

end Sorting

/-! ### Sameness and sorted forms -/

theorem map_sorted_eq_iff {xs ys : List JsonValue}
    (ih : ∀ x ∈ xs, ∀ w : JsonValue, x.Keyed → w.Keyed → (same x w ↔ sorted x = sorted w))
    (hx : ∀ x ∈ xs, x.Keyed) (hy : ∀ y ∈ ys, y.Keyed) :
    List.Forall₂ (fun x y => same x y = true) xs ys ↔ xs.map sorted = ys.map sorted := by
  induction xs generalizing ys with
  | nil => cases ys <;> simp
  | cons x xs ihxs =>
    cases ys with
    | nil => simp
    | cons y ys =>
      rw [List.forall_mem_cons] at ih hx hy
      rw [List.forall₂_cons, List.map_cons, List.map_cons, List.cons.injEq,
        ih.1 y hx.1 hy.1, ihxs ih.2 hx.2 hy.2]

/-- Members agree by key exactly when the lists are equal up to order. -/
theorem members_perm_iff {ms ns : List (String × JsonValue)}
    (ih : ∀ m ∈ ms, ∀ w : JsonValue, m.2.Keyed → w.Keyed → (same m.2 w ↔ sorted m.2 = sorted w))
    (hms : Keyed (.object ms)) (hns : Keyed (.object ns)) :
    (ms.length = ns.length ∧ ∀ m ∈ ms, ∃ y, ns.lookup m.1 = some y ∧ same m.2 y) ↔
      (ms.map fun m => (m.1, sorted m.2)).Perm (ns.map fun m => (m.1, sorted m.2)) := by
  obtain ⟨hnodup, hkeyed⟩ := keyed_object.mp hms
  obtain ⟨hnodup', hkeyed'⟩ := keyed_object.mp hns
  have hlookup := fun k y => KeyedList.lookup_eq_some hnodup' k y
  constructor
  · rintro ⟨hlen, hall⟩
    have hdistinct : (ms.map fun m => (m.1, sorted m.2)).Nodup := by
      apply List.Nodup.of_map Prod.fst
      rwa [List.map_map]
    have hsub : (ms.map fun m => (m.1, sorted m.2)) ⊆ ns.map fun m => (m.1, sorted m.2) := by
      intro p hp
      obtain ⟨m, hm, rfl⟩ := List.mem_map.mp hp
      obtain ⟨y, hy, hsame⟩ := hall m hm
      have hmem := (hlookup m.1 y).mp hy
      have heq := (ih m hm y (hkeyed m hm) (hkeyed' _ hmem)).mp hsame
      exact List.mem_map.mpr ⟨(m.1, y), hmem, by rw [heq]⟩
    exact (List.subperm_of_subset hdistinct hsub).perm_of_length_le (by simp [hlen])
  · intro hperm
    refine ⟨by simpa using hperm.length_eq, fun m hm => ?_⟩
    have hmem := hperm.subset (List.mem_map_of_mem hm)
    obtain ⟨n, hn, heq⟩ := List.mem_map.mp hmem
    obtain ⟨hkey, hval⟩ := Prod.mk.inj heq
    refine ⟨n.2, ?_, (ih m hm n.2 (hkeyed m hm) (hkeyed' n hn)).mpr hval.symm⟩
    rw [hlookup, ← hkey]
    exact hn

theorem same_iff_sorted {v w : JsonValue} (hv : v.Keyed) (hw : w.Keyed) :
    same v w ↔ sorted v = sorted w := by
  induction v using induct generalizing w with
  | null => cases w <;> simp [same, sorted]
  | bool b => cases w <;> simp [same, sorted]
  | int n => cases w <;> simp [same, sorted]
  | float b => cases w <;> simp [same, sorted]
  | string s => cases w <;> simp [same, sorted]
  | array xs ih =>
    cases w with
    | array ys =>
      rw [same, sameItems_iff, sorted_array, sorted_array, JsonValue.array.injEq]
      exact map_sorted_eq_iff (fun x hx w => ih x hx) (keyed_array.mp hv) (keyed_array.mp hw)
    | _ => simp [same, sorted]
  | object ms ih =>
    cases w with
    | object ns =>
      have hnodup : ((ms.map fun m => (m.1, sorted m.2)).map Prod.fst).Nodup := by
        rw [List.map_map]
        exact (keyed_object.mp hv).1
      rw [same, Bool.and_eq_true, decide_eq_true_eq, sameMembers_iff, sorted_object,
        sorted_object, JsonValue.object.injEq, sort_eq_iff_perm hnodup]
      exact members_perm_iff (fun m hm w => ih m hm) hv hw
    | _ => simp [same, sorted]

theorem Keyed.sorted {v : JsonValue} (h : v.Keyed) : v.sorted.Keyed := by
  induction v using induct with
  | array xs ih =>
    rw [sorted_array, keyed_array]
    intro y hy
    obtain ⟨x, hx, rfl⟩ := List.mem_map.mp hy
    exact ih x hx (keyed_array.mp h x hx)
  | object ms ih =>
    obtain ⟨hnodup, hkeyed⟩ := keyed_object.mp h
    have hperm := List.perm_insertionSort KeyLe (ms.map fun m => (m.1, JsonValue.sorted m.2))
    rw [sorted_object, keyed_object]
    constructor
    · rw [(hperm.map Prod.fst).nodup_iff, List.map_map]
      exact hnodup
    · intro n hn
      obtain ⟨m, hm, rfl⟩ := List.mem_map.mp (hperm.subset hn)
      exact ih m hm (hkeyed m hm)
  | _ => exact h

theorem sorted_sorted (v : JsonValue) : v.sorted.sorted = v.sorted := by
  induction v using induct with
  | array xs ih =>
    rw [sorted_array, sorted_array, List.map_map]
    congr 1
    exact List.map_congr_left fun x hx => ih x hx
  | object ms ih =>
    have hid : (((ms.map fun m => (m.1, sorted m.2)).insertionSort KeyLe).map
        fun m => (m.1, sorted m.2)) = (ms.map fun m => (m.1, sorted m.2)).insertionSort KeyLe := by
      refine (List.map_congr_left fun n hn => ?_).trans (List.map_id _)
      obtain ⟨m, hm, rfl⟩ := List.mem_map.mp ((List.mem_insertionSort KeyLe).mp hn)
      rw [ih m hm, id]
    rw [sorted_object, sorted_object, hid,
      (List.pairwise_insertionSort KeyLe _).insertionSort_eq]
  | _ => rfl

/-- The parts of a sorted form are the sorted forms of the parts. -/
theorem part_sorted {v w : JsonValue} (h : Part w v.sorted) : ∃ u, Part u v ∧ w = u.sorted := by
  induction v using induct with
  | array xs ih =>
    rw [sorted_array, part_array] at h
    rcases h with rfl | ⟨y, hy, hw⟩
    · exact ⟨_, .self, (sorted_array xs).symm⟩
    · obtain ⟨x, hx, rfl⟩ := List.mem_map.mp hy
      obtain ⟨u, hu, rfl⟩ := ih x hx hw
      exact ⟨u, .item hx hu, rfl⟩
  | object ms ih =>
    rw [sorted_object, part_object] at h
    rcases h with rfl | ⟨n, hn, hw⟩
    · exact ⟨_, .self, (sorted_object ms).symm⟩
    · obtain ⟨m, hm, rfl⟩ := List.mem_map.mp ((List.mem_insertionSort KeyLe).mp hn)
      obtain ⟨u, hu, rfl⟩ := ih m hm hw
      exact ⟨u, .member hm hu, rfl⟩
  | _ =>
    cases h
    exact ⟨_, .self, rfl⟩

theorem part_sorted_int {v : JsonValue} {n : Int} (h : Part (.int n) v.sorted) :
    Part (.int n) v := by
  obtain ⟨u, hu, heq⟩ := part_sorted h
  cases u with
  | int m =>
    rw [heq]
    exact hu
  | _ => simp [sorted] at heq

theorem FloatFree.sorted {v : JsonValue} (h : v.FloatFree) : v.sorted.FloatFree := by
  intro b hb
  obtain ⟨u, hu, heq⟩ := part_sorted hb
  cases u with
  | float c =>
    exact h c hu
  | _ => simp [JsonValue.sorted] at heq

theorem part_sorted_object {v : JsonValue} {ns : List (String × JsonValue)}
    (h : Part (.object ns) v.sorted) : ∃ ms, Part (.object ms) v ∧
      ns = (ms.map fun m => (m.1, sorted m.2)).insertionSort KeyLe := by
  obtain ⟨u, hu, heq⟩ := part_sorted h
  cases u with
  | object ms =>
    rw [sorted_object] at heq
    exact ⟨ms, hu, JsonValue.object.inj heq⟩
  | _ => simp [sorted] at heq

end JsonValue
end AgentStack.JsonText
