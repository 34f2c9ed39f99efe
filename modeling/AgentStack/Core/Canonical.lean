import AgentStack.Core.Failure
import AgentStack.JsonText.Value

/-! Normal forms of paths, modes and identifiers. -/
namespace AgentStack.Core

open FileTree JsonText

abbrev Bytes := List UInt8

/-- The characters of a text are decided one by one, not with all characters there are. -/
instance (priority := high) charsDecidable (cs : List Char) (p : Char → Prop) [DecidablePred p] :
    Decidable (∀ c ∈ cs, p c) :=
  List.decidableBAll p cs

def canonicalizationFailure (message : String) : Failure :=
  ⟨.core, "AWP_CANONICALIZATION_INVALID", message, []⟩

/-- The pieces of a string between separators. -/
def splitChars (sep : Char) : List Char → List (List Char)
  | [] => [[]]
  | c :: cs =>
    if c = sep then [] :: splitChars sep cs
    else match splitChars sep cs with
      | [] => [[c]]
      | piece :: rest => (c :: piece) :: rest

/-- `root / relative`: the segments of a relative path. -/
def segments (value : String) : Path := (splitChars '/' (charsOf value)).map String.ofList

def isControlChar (c : Char) : Bool := c.val < 0x20

def windowsDrive (cs : List Char) : Bool :=
  match cs with
  | c :: ':' :: _ => c.isAlpha
  | _ => false

/-- One strict repository-relative path, as its segments. Unicode normalization is `nfc`. -/
def normalizePath (nfc : String → String) (value : String) : Except Failure Path :=
  let cs := charsOf (nfc value)
  if cs = [] then .error (canonicalizationFailure "repository path must not be empty")
  else if '\x00' ∈ cs ∨ '\\' ∈ cs then
    .error (canonicalizationFailure "repository path contains a forbidden separator or NUL")
  else if cs.head? = some '/' ∨ windowsDrive cs then
    .error (canonicalizationFailure "repository path must be relative")
  else if cs.any fun c => isControlChar c || c.val = 0x7F then
    .error (canonicalizationFailure "repository path contains a control character")
  else
    let pieces := (splitChars '/' cs).map String.ofList
    if pieces.any fun n => n ∈ ["", ".", ".."] then
      .error (canonicalizationFailure "repository path contains an empty or alias segment")
    else .ok pieces

def octalDigit? (c : Char) : Option Nat :=
  if '0' ≤ c ∧ c ≤ '7' then some (c.val.toNat - '0'.val.toNat) else none

/-- The mode an octal text `(0o)?[0-7]{3,6}` stands for, masked to `0o777`. -/
def normalizeMode (value : String) : Except Failure Mode :=
  let digits := match charsOf value with
    | '0' :: 'o' :: cs => cs
    | cs => cs
  match digits.mapM octalDigit? with
  | some ds =>
    if 3 ≤ ds.length ∧ ds.length ≤ 6 then
      .ok (Fin.ofNat 512 (ds.foldl (fun n d => 8 * n + d) 0))
    else .error (canonicalizationFailure "POSIX mode must be an octal integer or string")
  | none => .error (canonicalizationFailure "POSIX mode must be an octal integer or string")

def isLowerHex (c : Char) : Bool := ('0' ≤ c ∧ c ≤ '9') ∨ ('a' ≤ c ∧ c ≤ 'f')

/-- `^[0-9a-f]{64}$`. -/
def isDigest (value : String) : Bool :=
  (charsOf value).length = 64 && (charsOf value).all isLowerHex

/-- `str(uuid.UUID(value))` for the spellings `uuid.UUID` reads: an optional `urn:uuid:`, braces
and hyphens around 32 hexadecimal digits. -/
def parseUuid (value : String) : Option String :=
  let cs := charsOf value
  let cs := if "urn:uuid:".toList.isPrefixOf cs then cs.drop 9 else cs
  let brace (c : Char) : Bool := c = '{' ∨ c = '}'
  let cs := ((cs.dropWhile brace).reverse.dropWhile brace).reverse
  let hex := (cs.filter (· ≠ '-')).map Char.toLower
  if hex.length = 32 ∧ hex.all isLowerHex then
    some (String.ofList (hex.take 8 ++ '-' :: (hex.drop 8).take 4 ++ '-' :: (hex.drop 12).take 4 ++
      '-' :: (hex.drop 16).take 4 ++ '-' :: hex.drop 20))
  else none

/-- A UUID in its one lowercase hyphenated spelling. -/
def isUuid (value : String) : Bool := parseUuid value = some value

/-- A nonempty text without control characters. -/
def isToken (value : String) : Bool :=
  charsOf value ≠ [] && !(charsOf value).any isControlChar

/-- `str.isspace` of one character. -/
def isBlank (c : Char) : Bool :=
  (0x09 ≤ c.toNat && c.toNat ≤ 0x0D) || (0x1C ≤ c.toNat && c.toNat ≤ 0x20) ||
    (0x2000 ≤ c.toNat && c.toNat ≤ 0x200A) ||
    c.toNat ∈ [0x85, 0xA0, 0x1680, 0x2028, 0x2029, 0x202F, 0x205F, 0x3000]

/-- `surface_id and surface_id == surface_id.strip()`. -/
def isStripped (value : String) : Bool :=
  value ≠ "" && !(charsOf value).head?.any isBlank && !(charsOf value).getLast?.any isBlank

end AgentStack.Core
