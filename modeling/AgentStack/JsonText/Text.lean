import AgentStack.JsonText.Value

/-! How a JSON value is written: without spaces, with the members of an object in the order of
their keys, and with nothing escaped but what must be. -/
namespace AgentStack.JsonText

open JsonValue

def escapeChar (c : Char) : List Char :=
  if c = '"' then ['\\', '"']
  else if c = '\\' then ['\\', '\\']
  else if c = '\n' then ['\\', 'n']
  else if c = '\r' then ['\\', 'r']
  else if c = '\t' then ['\\', 't']
  else if c = '\x0c' then ['\\', 'f']
  else if c = '\x08' then ['\\', 'b']
  else if c.toNat < 0x20 then
    ['\\', 'u', '0', '0', Nat.digitChar (c.toNat / 16), Nat.digitChar (c.toNat % 16)]
  else [c]

def escape (s : String) : List Char := (charsOf s).flatMap escapeChar

def quote (s : String) : List Char := '"' :: (escape s ++ ['"'])

def intText (n : Int) : List Char :=
  if n < 0 then '-' :: Nat.toDigits 10 n.natAbs else Nat.toDigits 10 n.natAbs

def joined (pieces : List (List Char)) : List Char := List.intercalate [','] pieces

def memberText (m : String × List Char) : List Char := quote m.1 ++ ':' :: m.2

mutual
/-- No integer has more digits than `limit`. -/
def withinDigits (limit : Nat) : JsonValue → Bool
  | .int n => (Nat.toDigits 10 n.natAbs).length ≤ limit
  | .array xs => itemsWithinDigits limit xs
  | .object ms => membersWithinDigits limit ms
  | _ => true
def itemsWithinDigits (limit : Nat) : List JsonValue → Bool
  | [] => true
  | x :: xs => withinDigits limit x && itemsWithinDigits limit xs
def membersWithinDigits (limit : Nat) : List (String × JsonValue) → Bool
  | [] => true
  | (_, x) :: ms => withinDigits limit x && membersWithinDigits limit ms
end

theorem itemsWithinDigits_iff {limit : Nat} {xs : List JsonValue} :
    itemsWithinDigits limit xs ↔ ∀ x ∈ xs, withinDigits limit x := by
  induction xs with
  | nil => simp [itemsWithinDigits]
  | cons x xs ih => simp [itemsWithinDigits, ih]

theorem membersWithinDigits_iff {limit : Nat} {ms : List (String × JsonValue)} :
    membersWithinDigits limit ms ↔ ∀ m ∈ ms, withinDigits limit m.2 := by
  induction ms with
  | nil => simp [membersWithinDigits]
  | cons m ms ih => simp [membersWithinDigits, ih]

theorem withinDigits_iff {limit : Nat} {v : JsonValue} : withinDigits limit v ↔
    ∀ n, Part (.int n) v → (Nat.toDigits 10 n.natAbs).length ≤ limit := by
  have hscalar : ∀ w : JsonValue, (∀ xs, w ≠ .array xs) → (∀ ms, w ≠ .object ms) →
      ∀ n, Part (.int n) w → w = .int n := by
    intro w ha ho n h
    cases h with
    | self => rfl
    | item hx h => exact absurd rfl (ha _)
    | member hm h => exact absurd rfl (ho _)
  induction v using induct with
  | int m =>
    simp only [withinDigits, decide_eq_true_eq]
    constructor
    · intro h n hn
      obtain rfl : m = n := by simpa using hscalar _ (by simp) (by simp) n hn
      exact h
    · intro h
      exact h m .self
  | array xs ih =>
    rw [withinDigits, itemsWithinDigits_iff]
    constructor
    · intro h n hn
      rcases part_array.mp hn with heq | ⟨x, hx, hpart⟩
      · cases heq
      · exact (ih x hx).mp (h x hx) n hpart
    · intro h x hx
      exact (ih x hx).mpr fun n hn => h n (.item hx hn)
  | object ms ih =>
    rw [withinDigits, membersWithinDigits_iff]
    constructor
    · intro h n hn
      rcases part_object.mp hn with heq | ⟨m, hm, hpart⟩
      · cases heq
      · exact (ih m hm).mp (h m hm) n hpart
    · intro h m hm
      exact (ih m hm).mpr fun n hn => h n (.member hm hn)
  | _ =>
    refine iff_of_true rfl fun n hn => ?_
    have := hscalar _ (by simp) (by simp) n hn
    cases this

section Serialize

variable (formatFloat : UInt64 → List Char)

mutual
def serialize : JsonValue → List Char
  | .null => ['n', 'u', 'l', 'l']
  | .bool true => ['t', 'r', 'u', 'e']
  | .bool false => ['f', 'a', 'l', 's', 'e']
  | .int n => intText n
  | .float b => formatFloat b
  | .string s => quote s
  | .array xs => '[' :: (joined (serializeItems xs) ++ [']'])
  | .object ms =>
    '{' :: (joined (((serializeMembers ms).insertionSort KeyLe).map memberText) ++ ['}'])
def serializeItems : List JsonValue → List (List Char)
  | [] => []
  | x :: xs => serialize x :: serializeItems xs
def serializeMembers : List (String × JsonValue) → List (String × List Char)
  | [] => []
  | (k, x) :: ms => (k, serialize x) :: serializeMembers ms
end

mutual
/-- The text of a value with the members in the order they have. -/
def text : JsonValue → List Char
  | .null => ['n', 'u', 'l', 'l']
  | .bool true => ['t', 'r', 'u', 'e']
  | .bool false => ['f', 'a', 'l', 's', 'e']
  | .int n => intText n
  | .float b => formatFloat b
  | .string s => quote s
  | .array xs => '[' :: (joined (textItems xs) ++ [']'])
  | .object ms => '{' :: (joined (textMembers ms) ++ ['}'])
def textItems : List JsonValue → List (List Char)
  | [] => []
  | x :: xs => text x :: textItems xs
def textMembers : List (String × JsonValue) → List (List Char)
  | [] => []
  | (k, x) :: ms => memberText (k, text x) :: textMembers ms
end

theorem serializeItems_eq (xs : List JsonValue) :
    serializeItems formatFloat xs = xs.map (serialize formatFloat) := by
  induction xs with
  | nil => rfl
  | cons x xs ih => rw [serializeItems, ih, List.map_cons]

theorem serializeMembers_eq (ms : List (String × JsonValue)) :
    serializeMembers formatFloat ms = ms.map fun m => (m.1, serialize formatFloat m.2) := by
  induction ms with
  | nil => rfl
  | cons m ms ih => rw [serializeMembers, ih, List.map_cons]

theorem textItems_eq (xs : List JsonValue) :
    textItems formatFloat xs = xs.map (text formatFloat) := by
  induction xs with
  | nil => rfl
  | cons x xs ih => rw [textItems, ih, List.map_cons]

theorem textMembers_eq (ms : List (String × JsonValue)) :
    textMembers formatFloat ms = ms.map fun m => memberText (m.1, text formatFloat m.2) := by
  induction ms with
  | nil => rfl
  | cons m ms ih => rw [textMembers, ih, List.map_cons]

/-- What is written is the sorted form. -/
theorem serialize_eq_text (v : JsonValue) :
    serialize formatFloat v = text formatFloat v.sorted := by
  induction v using induct with
  | array xs ih =>
    rw [sorted_array, serialize, text, serializeItems_eq, textItems_eq, List.map_map]
    congr 3
    exact List.map_congr_left fun x hx => ih x hx
  | object ms ih =>
    have hsort := List.map_insertionSort (r := KeyLe) (s := KeyLe)
      (fun m : String × JsonValue => (m.1, text formatFloat m.2))
      (ms.map fun m => (m.1, sorted m.2)) fun _ _ _ _ => Iff.rfl
    have hmap : (ms.map fun m => (m.1, serialize formatFloat m.2)) =
        (ms.map fun m => (m.1, sorted m.2)).map fun m => (m.1, text formatFloat m.2) := by
      rw [List.map_map]
      refine List.map_congr_left fun m hm => ?_
      show (m.1, serialize formatFloat m.2) = (m.1, text formatFloat m.2.sorted)
      rw [ih m hm]
    rw [sorted_object, serialize, text, serializeMembers_eq, textMembers_eq, hmap, ← hsort,
      List.map_map]
    rfl
  | bool b => cases b <;> rfl
  | _ => rfl

end Serialize

end AgentStack.JsonText
