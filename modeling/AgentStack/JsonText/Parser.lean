import AgentStack.JsonText.Text

/-! How JSON is read. What was written is read back, whatever follows it. -/
namespace AgentStack.JsonText

open JsonValue

/-- What a reader is told: the failures it raises, the longest integer it reads, what the floats
are, and what becomes of the members of an object. -/
structure Decoder (ε : Type) where
  invalid : ε
  surrogate : ε
  tooManyDigits : ε
  constant : String → ε
  digitLimit : Nat
  readFloat : List Char → UInt64
  objectPairs : List (String × JsonValue) → Except ε (List (String × JsonValue))

def hexValue (c : Char) : Option Nat :=
  if '0' ≤ c ∧ c ≤ '9' then some (c.toNat - 48)
  else if 'a' ≤ c ∧ c ≤ 'f' then some (c.toNat - 87)
  else if 'A' ≤ c ∧ c ≤ 'F' then some (c.toNat - 55)
  else none

def hexNumber (a b c d : Char) : Option Nat := do
  let a ← hexValue a
  let b ← hexValue b
  let c ← hexValue c
  let d ← hexValue d
  return ((a * 16 + b) * 16 + c) * 16 + d

def isSpace (c : Char) : Bool := c = ' ' || c = '\t' || c = '\n' || c = '\r'

def skipSpace (cs : List Char) : List Char := cs.dropWhile isSpace

section Scan

variable {ε : Type} (D : Decoder ε)

def push (c : Char) (x : Except ε (List Char × List Char)) : Except ε (List Char × List Char) :=
  x.map fun p => (c :: p.1, p.2)

/-- The rest of a string after its opening quote. -/
def scanString : List Char → Except ε (List Char × List Char)
  | [] => .error D.invalid
  | '"' :: r => .ok ([], r)
  | '\\' :: '"' :: r => push '"' (scanString r)
  | '\\' :: '\\' :: r => push '\\' (scanString r)
  | '\\' :: '/' :: r => push '/' (scanString r)
  | '\\' :: 'b' :: r => push '\x08' (scanString r)
  | '\\' :: 'f' :: r => push '\x0c' (scanString r)
  | '\\' :: 'n' :: r => push '\n' (scanString r)
  | '\\' :: 'r' :: r => push '\r' (scanString r)
  | '\\' :: 't' :: r => push '\t' (scanString r)
  | '\\' :: 'u' :: a :: b :: c :: d :: r =>
    match hexNumber a b c d with
    | none => .error D.invalid
    | some n =>
      if 0xD800 ≤ n ∧ n < 0xDC00 then
        match r with
        | '\\' :: 'u' :: a' :: b' :: c' :: d' :: r' =>
          match hexNumber a' b' c' d' with
          | none => .error D.invalid
          | some m =>
            if 0xDC00 ≤ m ∧ m < 0xE000 then
              push (Char.ofNat (0x10000 + (n - 0xD800) * 1024 + (m - 0xDC00))) (scanString r')
            else .error D.surrogate
        | _ => .error D.surrogate
      else if 0xDC00 ≤ n ∧ n < 0xE000 then .error D.surrogate
      else push (Char.ofNat n) (scanString r)
  | '\\' :: _ => .error D.invalid
  | c :: r => if c.toNat < 0x20 then .error D.invalid else push c (scanString r)

/-- An integer without superfluous zeros, as it is spelled. -/
def scanInteger (cs : List Char) : Option (List Char × List Char) :=
  match cs with
  | '0' :: r => some (['0'], r)
  | c :: r =>
    if c.isDigit then some (c :: r.takeWhile Char.isDigit, r.dropWhile Char.isDigit) else none
  | [] => none

def scanFraction (cs : List Char) : List Char × List Char :=
  match cs with
  | '.' :: d :: r =>
    if d.isDigit then ('.' :: d :: r.takeWhile Char.isDigit, r.dropWhile Char.isDigit)
    else ([], cs)
  | _ => ([], cs)

def scanExponent (cs : List Char) : List Char × List Char :=
  match cs with
  | e :: r =>
    if e = 'e' ∨ e = 'E' then
      let (sign, r) := match r with
        | '+' :: r => (['+'], r)
        | '-' :: r => (['-'], r)
        | _ => ([], r)
      match r with
      | d :: r =>
        if d.isDigit then
          (e :: sign ++ d :: r.takeWhile Char.isDigit, r.dropWhile Char.isDigit)
        else ([], cs)
      | [] => ([], cs)
    else ([], cs)
  | [] => ([], cs)

def scanNumber (cs : List Char) : Except ε (JsonValue × List Char) :=
  let (negative, body) := match cs with
    | '-' :: r => (true, r)
    | _ => (false, cs)
  match scanInteger body with
  | none => .error D.invalid
  | some (digits, r) =>
    let (fraction, r') := scanFraction r
    let (exponent, r'') := scanExponent r'
    if fraction = [] ∧ exponent = [] then
      if D.digitLimit < digits.length then .error D.tooManyDigits
      else
        let n := (Nat.ofDigitChars 10 digits 0 : Int)
        .ok (.int (if negative then -n else n), r)
    else
      let spelled := (if negative then ['-'] else []) ++ digits ++ fraction ++ exponent
      .ok (.float (D.readFloat spelled), r'')

mutual
/-- One value and what follows it; every call goes down by one. -/
def scanValue : Nat → List Char → Except ε (JsonValue × List Char)
  | 0, _ => .error D.invalid
  | fuel + 1, cs =>
    match cs with
    | '"' :: r => do
      let (s, r) ← scanString D r
      return (.string (String.ofList s), r)
    | '{' :: r =>
      match skipSpace r with
      | '}' :: r => do
        let ms ← D.objectPairs []
        return (.object ms, r)
      | r => do
        let (ms, r) ← scanMembers fuel r
        let ms ← D.objectPairs ms
        return (.object ms, r)
    | '[' :: r =>
      match skipSpace r with
      | ']' :: r => return (.array [], r)
      | r => do
        let (xs, r) ← scanItems fuel r
        return (.array xs, r)
    | 'n' :: 'u' :: 'l' :: 'l' :: r => .ok (.null, r)
    | 't' :: 'r' :: 'u' :: 'e' :: r => .ok (.bool true, r)
    | 'f' :: 'a' :: 'l' :: 's' :: 'e' :: r => .ok (.bool false, r)
    | 'N' :: 'a' :: 'N' :: _ => .error (D.constant "NaN")
    | 'I' :: 'n' :: 'f' :: 'i' :: 'n' :: 'i' :: 't' :: 'y' :: _ => .error (D.constant "Infinity")
    | '-' :: 'I' :: 'n' :: 'f' :: 'i' :: 'n' :: 'i' :: 't' :: 'y' :: _ =>
      .error (D.constant "-Infinity")
    | cs => scanNumber D cs
def scanItems : Nat → List Char → Except ε (List JsonValue × List Char)
  | 0, _ => .error D.invalid
  | fuel + 1, cs => do
    let (x, r) ← scanValue fuel cs
    match skipSpace r with
    | ']' :: r => return ([x], r)
    | ',' :: r => do
      let (xs, r) ← scanItems fuel (skipSpace r)
      return (x :: xs, r)
    | _ => .error D.invalid
def scanMembers : Nat → List Char → Except ε (List (String × JsonValue) × List Char)
  | 0, _ => .error D.invalid
  | fuel + 1, cs =>
    match cs with
    | '"' :: r => do
      let (k, r) ← scanString D r
      match skipSpace r with
      | ':' :: r => do
        let (x, r) ← scanValue fuel (skipSpace r)
        match skipSpace r with
        | '}' :: r => return ([(String.ofList k, x)], r)
        | ',' :: r => do
          let (ms, r) ← scanMembers fuel (skipSpace r)
          return ((String.ofList k, x) :: ms, r)
        | _ => .error D.invalid
      | _ => .error D.invalid
    | _ => .error D.invalid
end

/-- `json.loads`: one value, and nothing but space around it. -/
def loads (cs : List Char) : Except ε JsonValue :=
  if cs.head? = some '\ufeff' then .error D.invalid
  else do
    let (v, r) ← scanValue D (2 * cs.length + 1) (skipSpace cs)
    if skipSpace r = [] then return v else .error D.invalid

/-! ### Strings -/

theorem hexValue_digitChar {n : Nat} (h : n < 16) : hexValue (Nat.digitChar n) = some n := by
  have hall : ∀ n < 16, hexValue (Nat.digitChar n) = some n := by decide
  exact hall n h

theorem hexNumber_low {n : Nat} (h : n < 0x20) :
    hexNumber '0' '0' (Nat.digitChar (n / 16)) (Nat.digitChar (n % 16)) = some n := by
  have hzero : hexValue '0' = some 0 := by decide
  have hhigh := hexValue_digitChar (n := n / 16) (by omega)
  have hlow := hexValue_digitChar (n := n % 16) (by omega)
  simp only [hexNumber, hzero, hhigh, hlow, Option.bind_eq_bind, Option.bind_some, Option.pure_def,
    Option.some.injEq]
  omega

theorem scanString_plain {c : Char} (hquote : c ≠ '"') (hslash : c ≠ '\\')
    (hc : ¬ c.toNat < 0x20) (r : List Char) :
    scanString D (c :: r) = push c (scanString D r) := by
  rw [scanString.eq_def]
  split
  all_goals first
    | (next heq => cases heq; exact absurd rfl hquote)
    | (next heq => cases heq; exact absurd rfl hslash)
    | skip
  · next heq => cases heq
  · next heq =>
    cases heq
    rw [if_neg hc]

/-- Each character is read back from what it is escaped to. -/
theorem scanString_escapeChar (c : Char) (r : List Char) :
    scanString D (escapeChar c ++ r) = push c (scanString D r) := by
  unfold escapeChar
  split_ifs with hquote hslash hn hr ht hf hb hlow
  · rw [hquote]
    rfl
  · rw [hslash]
    rfl
  · rw [hn]
    rfl
  · rw [hr]
    rfl
  · rw [ht]
    rfl
  · rw [hf]
    rfl
  · rw [hb]
    rfl
  · show scanString D ('\\' :: 'u' :: '0' :: '0' :: _ :: _ :: r) = _
    rw [scanString]
    simp only [hexNumber_low hlow]
    rw [if_neg (by omega), if_neg (by omega), Char.ofNat_toNat]
  · exact scanString_plain D hquote hslash hlow r

theorem scanString_escape (s : String) (r : List Char) :
    scanString D (escape s ++ '"' :: r) = .ok (s.toList, r) := by
  rw [escape, charsOf_eq]
  induction s.toList with
  | nil => rfl
  | cons c cs ih =>
    rw [List.flatMap_cons, List.append_assoc, scanString_escapeChar, ih]
    rfl

/-! ### Numbers -/

/-- What may follow a number. -/
def Stops (r : List Char) : Prop :=
  ∀ c, r.head? = some c → c.isDigit = false ∧ c ≠ '.' ∧ c ≠ 'e' ∧ c ≠ 'E'

theorem stops_nil : Stops [] := by
  intro c hc
  cases hc

theorem stops_cons {c : Char} (r : List Char) (h : c = ',' ∨ c = ']' ∨ c = '}') :
    Stops (c :: r) := by
  intro d hd
  obtain rfl := Option.some.inj hd
  rcases h with rfl | rfl | rfl <;> decide

theorem toDigits_cons {n : Nat} (hn : 0 < n) :
    ∃ c l, Nat.toDigits 10 n = c :: l ∧ c ≠ '0' := by
  induction n using Nat.strong_induction_on with
  | h n ih =>
    rw [Nat.toDigits_eq_if (by omega)]
    split
    · next hlt =>
      have hall : ∀ n < 10, 0 < n → Nat.digitChar n ≠ '0' := by decide
      exact ⟨_, _, rfl, hall n hlt hn⟩
    · obtain ⟨c, l, hcl, hc⟩ := ih (n / 10) (by omega) (by omega)
      exact ⟨c, _, by rw [hcl, List.cons_append], hc⟩

theorem takeWhile_digits {ds r : List Char} (hds : ∀ c ∈ ds, c.isDigit = true) (hr : Stops r) :
    (ds ++ r).takeWhile Char.isDigit = ds ∧ (ds ++ r).dropWhile Char.isDigit = r := by
  rw [List.takeWhile_append_of_pos hds, List.dropWhile_append_of_pos hds]
  cases r with
  | nil => simp
  | cons c r =>
    have := (hr c rfl).1
    simp [this]

theorem scanInteger_toDigits (n : Nat) {r : List Char} (hr : Stops r) :
    scanInteger (Nat.toDigits 10 n ++ r) = some (Nat.toDigits 10 n, r) := by
  rcases Nat.eq_zero_or_pos n with rfl | hn
  · rfl
  · obtain ⟨c, l, hcl, hc⟩ := toDigits_cons hn
    have hdigits : ∀ d ∈ c :: l, d.isDigit = true := by
      rw [← hcl]
      exact fun d hd => Nat.isDigit_of_mem_toDigits (by omega) (by omega) hd
    rw [List.forall_mem_cons] at hdigits
    obtain ⟨htake, hdrop⟩ := takeWhile_digits hdigits.2 hr
    rw [hcl, List.cons_append, scanInteger.eq_def]
    split
    · next heq =>
      cases heq
      exact absurd rfl hc
    · next heq =>
      cases heq
      rw [if_pos hdigits.1, htake, hdrop]
    · next heq => cases heq

theorem scanFraction_stops {r : List Char} (hr : Stops r) : scanFraction r = ([], r) := by
  unfold scanFraction
  split
  · exact absurd rfl (hr '.' rfl).2.1
  · rfl

theorem scanExponent_stops {r : List Char} (hr : Stops r) : scanExponent r = ([], r) := by
  unfold scanExponent
  split
  · next c r =>
    obtain ⟨-, -, he, hE⟩ := hr c rfl
    rw [if_neg (by simp [he, hE])]
  · rfl

theorem scanNumber_intText {n : Int} (hn : (Nat.toDigits 10 n.natAbs).length ≤ D.digitLimit)
    {r : List Char} (hr : Stops r) : scanNumber D (intText n ++ r) = .ok (.int n, r) := by
  have hdigits := scanInteger_toDigits n.natAbs hr
  have hvalue : Nat.ofDigitChars 10 (Nat.toDigits 10 n.natAbs) 0 = n.natAbs :=
    Nat.ofDigitChars_ten_toDigits
  unfold intText
  by_cases hneg : n < 0
  · rw [if_pos hneg, List.cons_append, scanNumber]
    simp only [hdigits, scanFraction_stops hr, scanExponent_stops hr, and_self, if_true,
      if_neg (Nat.not_lt.mpr hn), hvalue]
    congr
    omega
  · rw [if_neg hneg]
    have hhead : ∀ r', Nat.toDigits 10 n.natAbs ++ r ≠ '-' :: r' := by
      intro r' h
      have hne : Nat.toDigits 10 n.natAbs ≠ [] := Nat.toDigits_ne_nil
      obtain ⟨c, l, hcl⟩ := List.exists_cons_of_ne_nil hne
      have hc : c.isDigit = true :=
        Nat.isDigit_of_mem_toDigits (n := n.natAbs) (b := 10) (by omega) (by omega) (by simp [hcl])
      rw [hcl] at h
      cases h
      revert hc
      decide
    unfold scanNumber
    split
    next negative body heq =>
    have hbody : negative = false ∧ body = Nat.toDigits 10 n.natAbs ++ r := by
      split at heq
      · next r' h => exact absurd h (hhead r')
      · cases heq
        exact ⟨rfl, rfl⟩
    obtain ⟨rfl, rfl⟩ := hbody
    simp only [hdigits, scanFraction_stops hr, scanExponent_stops hr, and_self, if_true,
      if_neg (Nat.not_lt.mpr hn), hvalue, Bool.false_eq_true, if_false]
    congr
    omega

/-! ### Values -/

theorem toDigits_digit (n : Nat) : ∃ c l, Nat.toDigits 10 n = c :: l ∧ c.isDigit = true := by
  obtain ⟨c, l, hcl⟩ := List.exists_cons_of_ne_nil (Nat.toDigits_ne_nil (n := n) (b := 10))
  refine ⟨c, l, hcl, ?_⟩
  apply Nat.isDigit_of_mem_toDigits (n := n) (b := 10) (by omega) (by omega)
  rw [hcl]
  exact List.mem_cons_self

theorem digit_ne {c d : Char} (hc : c.isDigit = true) (hd : d.isDigit = false) : c ≠ d := by
  rintro rfl
  rw [hd] at hc
  cases hc

/-- An integer begins with a digit, or with a sign and a digit. -/
theorem intText_head (n : Int) : ∃ c l, c.isDigit = true ∧
    (intText n = c :: l ∨ intText n = '-' :: c :: l) := by
  obtain ⟨c, l, hcl, hc⟩ := toDigits_digit n.natAbs
  refine ⟨c, l, hc, ?_⟩
  unfold intText
  split
  · exact Or.inr (by rw [hcl])
  · exact Or.inl hcl

theorem scanValue_intText (fuel : Nat) (n : Int) (r : List Char) :
    scanValue D (fuel + 1) (intText n ++ r) = scanNumber D (intText n ++ r) := by
  obtain ⟨c, l, hc, htext⟩ := intText_head n
  rw [scanValue.eq_def]
  simp only
  rcases htext with htext | htext
  · rw [htext, List.cons_append]
    split
    all_goals first
      | (next heq => exact absurd (List.cons.inj heq).1 (digit_ne hc (by decide)))
      | rfl
  · rw [htext, List.cons_append, List.cons_append]
    split
    all_goals first
      | (next heq => exact absurd (List.cons.inj heq).1 (by decide))
      | (next heq => exact absurd (List.cons.inj (List.cons.inj heq).2).1 (digit_ne hc (by decide)))
      | rfl

/-- What the decoder gives back unchanged. -/
structure Readable (v : JsonValue) : Prop where
  floatFree : v.FloatFree
  short : ∀ n, Part (.int n) v → (Nat.toDigits 10 n.natAbs).length ≤ D.digitLimit
  pairs : ∀ ms, Part (.object ms) v → D.objectPairs ms = .ok ms

variable {D}

theorem Readable.item {xs : List JsonValue} (h : Readable D (.array xs)) {x : JsonValue}
    (hx : x ∈ xs) : Readable D x where
  floatFree := floatFree_array.mp h.floatFree x hx
  short := fun n hn => h.short n (.item hx hn)
  pairs := fun ms hms => h.pairs ms (.item hx hms)

theorem Readable.member {ms : List (String × JsonValue)} (h : Readable D (.object ms))
    {m : String × JsonValue} (hm : m ∈ ms) : Readable D m.2 where
  floatFree := floatFree_object.mp h.floatFree m hm
  short := fun n hn => h.short n (.member hm hn)
  pairs := fun ns hns => h.pairs ns (.member hm hns)

variable {formatFloat : UInt64 → List Char}

variable (formatFloat) in
/-- A value starts with what is no space and closes nothing. -/
theorem text_head {v : JsonValue} (h : v.FloatFree) :
    ∃ c l, text formatFloat v = c :: l ∧ isSpace c = false ∧ c ≠ ']' ∧ c ≠ '\ufeff' := by
  cases v with
  | null => exact ⟨_, _, rfl, by decide, by decide, by decide⟩
  | bool b => cases b <;> exact ⟨_, _, rfl, by decide, by decide, by decide⟩
  | int n =>
    obtain ⟨c, l, hc, htext⟩ := intText_head n
    rcases htext with htext | htext
    · refine ⟨c, l, htext, ?_, digit_ne hc (by decide), digit_ne hc (by decide)⟩
      simp [isSpace, digit_ne hc (show (' ' : Char).isDigit = false by decide),
        digit_ne hc (show '\t'.isDigit = false by decide),
        digit_ne hc (show '\n'.isDigit = false by decide),
        digit_ne hc (show '\r'.isDigit = false by decide)]
    · exact ⟨_, _, htext, by decide, by decide, by decide⟩
  | float b => exact absurd .self (h b)
  | string s => exact ⟨_, _, rfl, by decide, by decide, by decide⟩
  | array xs => exact ⟨_, _, rfl, by decide, by decide, by decide⟩
  | object ms => exact ⟨_, _, rfl, by decide, by decide, by decide⟩

theorem skipSpace_cons {c : Char} (r : List Char) (h : isSpace c = false) :
    skipSpace (c :: r) = c :: r := by
  simp [skipSpace, h]

variable (formatFloat) in
theorem skipSpace_text {v : JsonValue} (h : v.FloatFree) (r : List Char) :
    skipSpace (text formatFloat v ++ r) = text formatFloat v ++ r := by
  obtain ⟨c, l, hcl, hc, -⟩ := text_head formatFloat h
  rw [hcl]
  exact skipSpace_cons _ hc

theorem joined_cons (x : List Char) {xs : List (List Char)} (h : xs ≠ []) :
    joined (x :: xs) = x ++ ',' :: joined xs := by
  obtain ⟨y, ys, rfl⟩ := List.exists_cons_of_ne_nil h
  simp [joined]

theorem scanItems_text {xs : List JsonValue} (hne : xs ≠ [])
    (ih : ∀ x ∈ xs, ∀ fuel r, Stops r → 2 * (text formatFloat x).length ≤ fuel →
      scanValue D fuel (text formatFloat x ++ r) = .ok (x, r))
    (hfree : ∀ x ∈ xs, x.FloatFree) (fuel : Nat) (r : List Char)
    (hfuel : 2 * (joined (xs.map (text formatFloat))).length + 1 ≤ fuel) :
    scanItems D fuel (joined (xs.map (text formatFloat)) ++ ']' :: r) = .ok (xs, r) := by
  induction xs generalizing fuel with
  | nil => exact absurd rfl hne
  | cons x xs ihxs =>
    obtain ⟨fuel, rfl⟩ : ∃ m, fuel = m + 1 := ⟨fuel - 1, by omega⟩
    rw [List.forall_mem_cons] at ih hfree
    rw [List.map_cons] at hfuel ⊢
    rcases eq_or_ne xs [] with rfl | hxs
    · have hx := ih.1 fuel (']' :: r) (stops_cons r (by simp)) (by
        simpa [joined] using hfuel)
      have htext : joined [text formatFloat x] = text formatFloat x := by simp [joined]
      rw [scanItems, List.map_nil, htext, hx]
      simp only [bind, Except.bind]
      rw [skipSpace_cons _ (by decide)]
      rfl
    · have hmap : xs.map (text formatFloat) ≠ [] := by simpa using hxs
      rw [joined_cons _ hmap] at hfuel ⊢
      simp only [List.length_append, List.length_cons] at hfuel
      obtain ⟨y, ys, rfl⟩ := List.exists_cons_of_ne_nil hxs
      have hx := ih.1 fuel (',' :: (joined ((y :: ys).map (text formatFloat)) ++ ']' :: r))
        (stops_cons _ (by simp)) (by omega)
      have hrest := ihxs hxs ih.2 hfree.2 fuel (by omega)
      have hskip : skipSpace (joined ((y :: ys).map (text formatFloat)) ++ ']' :: r) =
          joined ((y :: ys).map (text formatFloat)) ++ ']' :: r := by
        obtain ⟨c, l, hcl, hc, -⟩ := text_head formatFloat (hfree.2 y (by simp))
        have hhead : ∃ l', joined ((y :: ys).map (text formatFloat)) = c :: l' := by
          rcases eq_or_ne ys [] with rfl | hys
          · exact ⟨l, by simp [joined, hcl]⟩
          · rw [List.map_cons, joined_cons _ (by simpa using hys), hcl]
            exact ⟨_, List.cons_append⟩
        obtain ⟨l', hl'⟩ := hhead
        rw [hl']
        exact skipSpace_cons _ hc
      rw [scanItems, List.append_assoc, List.cons_append, hx]
      simp only [bind, Except.bind]
      rw [skipSpace_cons _ (by decide)]
      simp only [hskip, hrest]
      rfl

theorem scanMembers_text {ms : List (String × JsonValue)} (hne : ms ≠ [])
    (ih : ∀ m ∈ ms, ∀ fuel r, Stops r → 2 * (text formatFloat m.2).length ≤ fuel →
      scanValue D fuel (text formatFloat m.2 ++ r) = .ok (m.2, r))
    (hfree : ∀ m ∈ ms, m.2.FloatFree) (fuel : Nat) (r : List Char)
    (hfuel : 2 * (joined (textMembers formatFloat ms)).length + 1 ≤ fuel) :
    scanMembers D fuel (joined (textMembers formatFloat ms) ++ '}' :: r) = .ok (ms, r) := by
  induction ms generalizing fuel with
  | nil => exact absurd rfl hne
  | cons m ms ihms =>
    obtain ⟨k, x⟩ := m
    obtain ⟨fuel, rfl⟩ : ∃ n, fuel = n + 1 := ⟨fuel - 1, by omega⟩
    rw [List.forall_mem_cons] at ih hfree
    have hmember : ∀ r', memberText (k, text formatFloat x) ++ r' =
        '"' :: (escape k ++ '"' :: ':' :: (text formatFloat x ++ r')) := by
      intro r'
      simp [memberText, quote]
    have hlen : (memberText (k, text formatFloat x)).length =
        (escape k).length + (text formatFloat x).length + 3 := by
      simp only [memberText, quote, List.length_append, List.length_cons, List.length_nil]
      omega
    rw [textMembers] at hfuel ⊢
    rcases eq_or_ne ms [] with rfl | hms
    · have htext : joined [memberText (k, text formatFloat x)] =
        memberText (k, text formatFloat x) := by simp [joined]
      rw [textMembers, htext, hlen] at hfuel
      have hx := ih.1 fuel ('}' :: r) (stops_cons r (by simp)) (by
        show 2 * (text formatFloat x).length ≤ fuel
        omega)
      rw [textMembers, htext, hmember, scanMembers, scanString_escape]
      simp only [bind, Except.bind]
      rw [skipSpace_cons _ (by decide)]
      simp only [skipSpace_text formatFloat hfree.1, hx]
      rw [skipSpace_cons _ (by decide)]
      simp only [String.ofList_toList]
      rfl
    · have hmap : textMembers formatFloat ms ≠ [] := by
        rw [textMembers_eq]
        simpa using hms
      rw [joined_cons _ hmap] at hfuel ⊢
      simp only [List.length_append, List.length_cons, hlen] at hfuel
      have hx := ih.1 fuel (',' :: (joined (textMembers formatFloat ms) ++ '}' :: r))
        (stops_cons _ (by simp)) (by
          show 2 * (text formatFloat x).length ≤ fuel
          omega)
      have hrest := ihms hms ih.2 hfree.2 fuel (by omega)
      have hskip : skipSpace (joined (textMembers formatFloat ms) ++ '}' :: r) =
          joined (textMembers formatFloat ms) ++ '}' :: r := by
        obtain ⟨⟨k', y⟩, ns, rfl⟩ := List.exists_cons_of_ne_nil hms
        have hhead : ∃ l, joined (textMembers formatFloat ((k', y) :: ns)) = '"' :: l := by
          rcases eq_or_ne ns [] with rfl | hns
          · exact ⟨_, by simp [joined, textMembers, memberText, quote]; rfl⟩
          · rw [textMembers, joined_cons]
            · exact ⟨_, List.cons_append⟩
            · rw [textMembers_eq]
              simpa using hns
        obtain ⟨l, hl⟩ := hhead
        rw [hl]
        exact skipSpace_cons _ (by decide)
      rw [List.append_assoc, hmember, scanMembers, scanString_escape]
      simp only [bind, Except.bind]
      rw [skipSpace_cons _ (by decide)]
      simp only [skipSpace_text formatFloat hfree.1, List.cons_append, hx]
      rw [skipSpace_cons _ (by decide)]
      simp only [hskip, hrest, String.ofList_toList]
      rfl

theorem fuel_succ {v : JsonValue} (h : v.FloatFree) {fuel : Nat}
    (hfuel : 2 * (text formatFloat v).length ≤ fuel) : ∃ n, fuel = n + 1 := by
  obtain ⟨c, l, hcl, -, -⟩ := text_head formatFloat h
  rw [hcl, List.length_cons] at hfuel
  exact ⟨fuel - 1, by omega⟩

theorem scanValue_array {xs : List JsonValue} (hne : xs ≠ []) (hfree : ∀ x ∈ xs, x.FloatFree)
    {fuel : Nat} {r : List Char}
    (h : scanItems D fuel (joined (xs.map (text formatFloat)) ++ ']' :: r) = .ok (xs, r)) :
    scanValue D (fuel + 1) (text formatFloat (.array xs) ++ r) = .ok (.array xs, r) := by
  obtain ⟨x, xs, rfl⟩ := List.exists_cons_of_ne_nil hne
  obtain ⟨c, l, hcl, hspace, hclose, -⟩ :=
    text_head formatFloat (hfree x (by simp))
  obtain ⟨l', hl'⟩ : ∃ l', joined ((x :: xs).map (text formatFloat)) = c :: l' := by
    rcases eq_or_ne xs [] with rfl | hxs
    · exact ⟨l, by simp [joined, hcl]⟩
    · rw [List.map_cons, joined_cons _ (by simpa using hxs), hcl]
      exact ⟨_, List.cons_append⟩
  have htext : text formatFloat (.array (x :: xs)) ++ r = '[' :: c :: (l' ++ ']' :: r) := by
    rw [text, textItems_eq, hl']
    simp
  rw [hl', List.cons_append] at h
  rw [htext, scanValue]
  simp only
  rw [skipSpace_cons _ hspace]
  split
  · next heq => exact absurd (List.cons.inj heq).1 hclose
  · rw [h]
    rfl

theorem scanValue_object {ms : List (String × JsonValue)} (hne : ms ≠ [])
    (hpairs : D.objectPairs ms = .ok ms) {fuel : Nat} {r : List Char}
    (h : scanMembers D fuel (joined (textMembers formatFloat ms) ++ '}' :: r) = .ok (ms, r)) :
    scanValue D (fuel + 1) (text formatFloat (.object ms) ++ r) = .ok (.object ms, r) := by
  obtain ⟨⟨k, x⟩, ms, rfl⟩ := List.exists_cons_of_ne_nil hne
  obtain ⟨l, hl⟩ : ∃ l, joined (textMembers formatFloat ((k, x) :: ms)) = '"' :: l := by
    rcases eq_or_ne ms [] with rfl | hms
    · exact ⟨_, by simp [joined, textMembers, memberText, quote]; rfl⟩
    · rw [textMembers, joined_cons]
      · exact ⟨_, List.cons_append⟩
      · rw [textMembers_eq]
        simpa using hms
  have htext : text formatFloat (.object ((k, x) :: ms)) ++ r = '{' :: '"' :: (l ++ '}' :: r) := by
    rw [text, hl]
    simp
  rw [hl, List.cons_append] at h
  rw [htext, scanValue]
  simp only
  rw [skipSpace_cons _ (by decide)]
  split
  · next heq => exact absurd (List.cons.inj heq).1 (by decide)
  · rw [h]
    simp only [bind, Except.bind, hpairs]
    rfl

variable (formatFloat) in
/-- What is written is read back, whatever follows it. -/
theorem scanValue_text {v : JsonValue} (h : Readable D v) (fuel : Nat) (r : List Char)
    (hr : Stops r) (hfuel : 2 * (text formatFloat v).length ≤ fuel) :
    scanValue D fuel (text formatFloat v ++ r) = .ok (v, r) := by
  induction v using induct generalizing fuel r with
  | null =>
    obtain ⟨fuel, rfl⟩ := fuel_succ h.floatFree hfuel
    rfl
  | bool b =>
    obtain ⟨fuel, rfl⟩ := fuel_succ h.floatFree hfuel
    cases b <;> rfl
  | int n =>
    obtain ⟨fuel, rfl⟩ := fuel_succ h.floatFree hfuel
    rw [text, scanValue_intText]
    exact scanNumber_intText D (h.short n .self) hr
  | float b => exact absurd .self (h.floatFree b)
  | string s =>
    obtain ⟨fuel, rfl⟩ := fuel_succ h.floatFree hfuel
    have hquote : quote s ++ r = '"' :: (escape s ++ '"' :: r) := by simp [quote]
    rw [text, hquote, scanValue, scanString_escape]
    simp only [bind, Except.bind, String.ofList_toList]
    rfl
  | array xs ih =>
    obtain ⟨fuel, rfl⟩ := fuel_succ h.floatFree hfuel
    rcases eq_or_ne xs [] with rfl | hxs
    · rfl
    · have hfree := floatFree_array.mp h.floatFree
      refine scanValue_array hxs hfree (scanItems_text hxs ?_ hfree fuel r ?_)
      · exact fun x hx fuel r hr hfuel => ih x hx (h.item hx) fuel r hr hfuel
      · rw [text, textItems_eq, List.length_cons, List.length_append, List.length_singleton]
          at hfuel
        omega
  | object ms ih =>
    obtain ⟨fuel, rfl⟩ := fuel_succ h.floatFree hfuel
    have hpairs := h.pairs ms .self
    rcases eq_or_ne ms [] with rfl | hms
    · show (D.objectPairs [] >>= fun ms => pure (JsonValue.object ms, r)) = _
      rw [hpairs]
      rfl
    · have hfree := floatFree_object.mp h.floatFree
      refine scanValue_object hms hpairs (scanMembers_text hms ?_ hfree fuel r ?_)
      · exact fun m hm fuel r hr hfuel => ih m hm (h.member hm) fuel r hr hfuel
      · rw [text, List.length_cons, List.length_append, List.length_singleton] at hfuel
        omega

variable (formatFloat) in
/-- `json.loads` inverts the writing of a sorted value. -/
theorem loads_text {v : JsonValue} (h : Readable D v) : loads D (text formatFloat v) = .ok v := by
  have hscan := scanValue_text formatFloat h
    (2 * (text formatFloat v).length + 1) [] stops_nil (by omega)
  have hskip := skipSpace_text formatFloat h.floatFree []
  rw [List.append_nil] at hscan hskip
  unfold loads
  rw [if_neg, hskip, hscan]
  · rfl
  · obtain ⟨c, l, hcl, -, -, hbom⟩ := text_head formatFloat h.floatFree
    rw [hcl]
    simpa using hbom

end Scan

end AgentStack.JsonText
