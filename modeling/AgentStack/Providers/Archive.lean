import AgentStack.Core.Surfaces
import AgentStack.Crash.Rescue
import AgentStack.FileTree.Removal
import Mathlib.Algebra.GroupWithZero.Nat
import Mathlib.Data.String.Basic

/-! Inspecting an archive before anything is written, extracting it into a new directory, and the
digest of what was extracted. -/
namespace AgentStack.Providers

open AgentStack.Core Crash FileTree FileTree.DirTree JsonText JsonValue

structure ArchiveMember where
  normalizedPath : Path
  isDirectory : Bool
  size : Nat
  mode : Mode
  deriving DecidableEq, Repr

structure ArchiveInspection where
  archiveFormat : String
  archiveSha256 : String
  memberPaths : List String
  expandedBytes : Nat
  inspectionDigest : String
  deriving DecidableEq, Repr

structure ArchivePolicy where
  allowedFormats : List String
  maxMembers : Nat
  maxFileBytes : Nat
  maxExpandedBytes : Nat
  maxDepth : Nat
  maxCompressionRatio : Nat
  allowExecutable : Bool
  deriving DecidableEq, Repr

def archiveUnsafe (message : String) (details : List (String × String)) : Failure :=
  ⟨.core, "AWP_PROVIDER_ARCHIVE_UNSAFE", message, details⟩

/-- What the archive code asks of the platform. -/
structure ArchiveHost where
  casefold : String → String
  /-- `expanded / compressed > ratio`, a division of floats. -/
  ratioExceeds : Nat → Nat → Nat → Bool
  /-- How many of the bytes one `os.write` to a path takes. -/
  written : Path → Bytes → Nat
  written_some : ∀ path data, data ≠ [] → 0 < written path data ∧ written path data ≤ data.length
  /-- Whether the process can read a file of its own that has this mode. -/
  reads : Mode → Bool

/-! ### The policy -/

def policyLimits : List String :=
  ["max_members", "max_file_bytes", "max_expanded_bytes", "max_depth", "max_compression_ratio"]

def policyFields : List String :=
  ["schema_id", "schema_version", "allowed_formats"] ++ policyLimits ++ ["allow_executable"]

def policyLimit (document : Members) (field : String) : Except Failure Nat :=
  match getField document field with
  | .int n =>
    if 0 < n then .ok n.toNat
    else .error (archiveUnsafe "archive policy limit must be positive" [("field", field)])
  | _ => .error (archiveUnsafe "archive policy limit must be positive" [("field", field)])

/-- `all(item in {"zip", "tar"} for item in formats)`. -/
def checkFormats : List JsonValue → Except Failure (List String)
  | [] => .ok []
  | item :: items => do
    check (← inStrings item ["zip", "tar"]) (archiveUnsafe "archive allowed_formats is invalid" [])
    let format ← require (stringValue? item) (archiveUnsafe "archive allowed_formats is invalid" [])
    let formats ← checkFormats items
    return format :: formats

def parsePolicy (document : Members) : Except Failure ArchivePolicy := do
  check (fieldsAre document policyFields) (archiveUnsafe "archive policy fields are not closed" [])
  check (isString (getField document "schema_id") "agent-workflow.archive-policy" &&
      isOne (getField document "schema_version"))
    (archiveUnsafe "archive policy schema identity/version is invalid" [])
  let items ← require (items? (getField document "allowed_formats"))
    (archiveUnsafe "archive allowed_formats is invalid" [])
  check (items ≠ []) (archiveUnsafe "archive allowed_formats is invalid" [])
  let formats ← checkFormats items
  check (decide formats.Nodup) (archiveUnsafe "archive allowed_formats contains duplicates" [])
  let maxMembers ← policyLimit document "max_members"
  let maxFileBytes ← policyLimit document "max_file_bytes"
  let maxExpandedBytes ← policyLimit document "max_expanded_bytes"
  let maxDepth ← policyLimit document "max_depth"
  let maxCompressionRatio ← policyLimit document "max_compression_ratio"
  match getField document "allow_executable" with
  | .bool allowExecutable =>
    return ⟨sortStrings formats, maxMembers, maxFileBytes, maxExpandedBytes, maxDepth,
      maxCompressionRatio, allowExecutable⟩
  | _ => .error (archiveUnsafe "allow_executable must be boolean" [])

/-! ### The members -/

def memberPath (nfc : String → String) (raw : String) : Except Failure Path :=
  let cs := if raw.toList.getLast? = some '/' then raw.toList.dropLast else raw.toList
  if cs = [] then .error (archiveUnsafe "archive contains an empty member path" [])
  else (normalizePath nfc (String.ofList cs)).mapError fun _ =>
    archiveUnsafe "archive member path is unsafe" [("path", String.ofList cs)]

def memberMode (rawMode : Nat) (isDirectory : Bool) (policy : ArchivePolicy) :
    Except Failure Mode := do
  check (decide (rawMode < 0o1000))
    (archiveUnsafe "archive member uses unsupported or privileged mode bits" [])
  let mode := if rawMode = 0 then (if isDirectory then 0o755 else 0o644) else rawMode
  check (policy.allowExecutable || isDirectory || mode &&& 0o111 = 0)
    (archiveUnsafe "archive executable mode is not authorized" [])
  return Fin.ofNat 512 mode

structure ZipInfo where
  filename : String
  externalAttr : Nat
  fileSize : Nat
  compressSize : Nat
  /-- What reading the whole entry gives, or raises. -/
  payload : Except Failure Bytes

inductive TarKind
  | file
  | dir
  | special
  deriving DecidableEq, Repr

structure TarInfo where
  name : String
  kind : TarKind
  mode : Nat
  size : Nat
  /-- `extractfile` gives no stream, or one that is read to its end. -/
  payload : Except Failure (Option Bytes)

/-- A file as the archive libraries see it; `none` where a library cannot read it. -/
structure ArchiveFile where
  isRegular : Bool
  content : Bytes
  isZip : Bool
  zipInfos : Option (List ZipInfo)
  isTar : Bool
  tarInfos : Option (List TarInfo)

section Inspection

variable (H : Hasher) (host : ArchiveHost) (policy : ArchivePolicy)

def ZipInfo.member (info : ZipInfo) : Except Failure ArchiveMember := do
  let normalized ← memberPath H.nfc info.filename
  let rawMode := (info.externalAttr >>> 16) &&& 0xFFFF
  let fileType := rawMode &&& 0o170000
  check (fileType ∈ [0, 0o100000, 0o040000])
    (archiveUnsafe "zip contains a link or unsupported special member" [])
  let isDirectory := decide (info.filename.toList.getLast? = some '/') || fileType = 0o040000
  check (!isDirectory || info.fileSize = 0)
    (archiveUnsafe "zip directory member has file bytes" [])
  let mode ← memberMode (rawMode &&& 0o7777) isDirectory policy
  return ⟨normalized, isDirectory, info.fileSize, mode⟩

def TarInfo.member (info : TarInfo) : Except Failure ArchiveMember := do
  check (info.kind ≠ .special)
    (archiveUnsafe "tar contains a link or unsupported special member" [])
  let normalized ← memberPath H.nfc info.name
  let mode ← memberMode info.mode (info.kind = .dir) policy
  return ⟨normalized, info.kind = .dir, info.size, mode⟩

def zipMembers (file : ArchiveFile) : Except Failure (List ArchiveMember × Nat) := do
  let infos ← require file.zipInfos (archiveUnsafe "invalid zip archive" [])
  let members ← infos.mapM fun info => info.member H policy
  return (members, (infos.map (·.compressSize)).sum)

def tarMembers (file : ArchiveFile) : Except Failure (List ArchiveMember × Nat) := do
  let infos ← require file.tarInfos (archiveUnsafe "invalid tar archive" [])
  let members ← infos.mapM fun info => info.member H policy
  return (members, file.content.length)

/-- The members one after the other: `seen` has the folded paths before, by what they were. -/
def checkMembers (seen : List (String × String)) : List ArchiveMember → Except Failure Nat
  | [] => .ok 0
  | member :: members => do
    let path := joinPath member.normalizedPath
    match seen.lookup (host.casefold path) with
    | some first => .error (archiveUnsafe
      "archive member paths collide after Unicode/case normalization"
      [("first", first), ("second", path)])
    | none =>
      check (member.normalizedPath.length ≤ policy.maxDepth)
        (archiveUnsafe "archive member exceeds maximum depth" [("path", path)])
      check (member.isDirectory || member.size ≤ policy.maxFileBytes)
        (archiveUnsafe "archive member exceeds per-file size" [("path", path)])
      let expanded ← checkMembers ((host.casefold path, path) :: seen) members
      return (if member.isDirectory then 0 else member.size) + expanded

def validateMembers (members : List ArchiveMember) (compressedBytes : Nat) :
    Except Failure Unit := do
  check (members.length ≤ policy.maxMembers)
    (archiveUnsafe "archive member count exceeds policy" [])
  let expanded ← checkMembers host policy [] members
  check (expanded ≤ policy.maxExpandedBytes)
    (archiveUnsafe "archive expanded size exceeds policy" [])
  check (expanded = 0 ||
      !host.ratioExceeds expanded (max compressedBytes 1) policy.maxCompressionRatio)
    (archiveUnsafe "archive compression ratio exceeds policy" [])

end Inspection

def completeHash (H : Hasher) (file : ArchiveFile) (expectedSha256 : String) :
    Except Failure String := do
  check (isDigest expectedSha256)
    ⟨.core, "AWP_PROVIDER_PLAN_INVALID", "expected archive digest is not canonical", []⟩
  check file.isRegular ⟨.core, "AWP_PROVIDER_CACHE_CORRUPT",
    "verified archive object is not a regular file", []⟩
  let actual := H.sha256 file.content
  check (actual = expectedSha256) ⟨.core, "AWP_PROVIDER_HASH_MISMATCH",
    "complete archive bytes do not match locked identity", []⟩
  return actual

/-- `sorted(members, key=lambda member: member.normalized_path)`. -/
def orderMembers (members : List ArchiveMember) : List ArchiveMember :=
  members.insertionSort fun a b => joinPath a.normalizedPath ≤ joinPath b.normalizedPath

def memberProjection (member : ArchiveMember) : JsonValue :=
  .object [("path", .string (joinPath member.normalizedPath)),
    ("directory", .bool member.isDirectory), ("size", .int member.size),
    ("mode", .string (modeText member.mode))]

/-- The format of the archive, its members, and how many bytes they take up compressed. -/
def archiveMembers (H : Hasher) (policy : ArchivePolicy) (file : ArchiveFile) :
    Except Failure (String × List ArchiveMember × Nat) :=
  if file.isZip then (zipMembers H policy file).map fun r => ("zip", r)
  else if file.isTar then (tarMembers H policy file).map fun r => ("tar", r)
  else .error (archiveUnsafe "archive format is unsupported or malformed" [])

def inspectMembers (H : Hasher) (host : ArchiveHost) (file : ArchiveFile)
    (expectedSha256 : String) (policyDocument : Members) :
    Except Failure (ArchiveInspection × List ArchiveMember) := do
  let archiveSha ← completeHash H file expectedSha256
  let policy ← parsePolicy policyDocument
  let (archiveFormat, members, compressed) ← archiveMembers H policy file
  check (archiveFormat ∈ policy.allowedFormats)
    (archiveUnsafe "archive format is not allowed" [("archive_format", archiveFormat)])
  validateMembers host policy members compressed
  let ordered := orderMembers members
  let inspectionDigest ← digest H "agent-workflow.archive-inspection.v1" (.object
    [("archive_format", .string archiveFormat), ("archive_sha256", .string archiveSha),
      ("members", .array (ordered.map memberProjection))])
  return (⟨archiveFormat, archiveSha, ordered.map fun member => joinPath member.normalizedPath,
    ((ordered.filter (!·.isDirectory)).map (·.size)).sum, inspectionDigest⟩, ordered)

def inspectArchive (H : Hasher) (host : ArchiveHost) (file : ArchiveFile)
    (expectedSha256 : String) (policy : Members) : Except Failure ArchiveInspection := do
  let (inspection, _) ← inspectMembers H host file expectedSha256 policy
  return inspection

/-! ### Extraction -/

section Extraction

variable (host : ArchiveHost)

/-- One level of `_ensure_directory`. -/
def ensureOne (current : Path) : Program (DirTree Bytes) Failure Unit := do
  let present ← Program.read fun s => s.exists current
  if present then
    Program.inspect fun s => check (!s.isSymlink current && s.isDir current)
      (archiveUnsafe "extraction directory path is not a real directory" [])
  else syscall (DirTree.mkdir 0o755 current)

def ensureDirectory (root : Path) : Path → Program (DirTree Bytes) Failure Unit
  | [] => pure ()
  | segment :: segments => do
    ensureOne (root ++ [segment])
    ensureDirectory (root ++ [segment]) segments

/-- `os.write`, the count it returns not looked at. -/
def writeChunk (path : Path) (chunk : Bytes) (s : DirTree Bytes) :
    Except OsError (DirTree Bytes) :=
  match s.get path with
  | some (.file content mode) =>
    .ok (s.set path (.file (content ++ chunk.take (host.written path chunk)) mode))
  | _ => .error ⟨.invalid, path⟩

def writeMember (root : Path) (member : ArchiveMember) (chunks : List Bytes) :
    Program (DirTree Bytes) Failure Unit := do
  let path := root ++ member.normalizedPath
  if member.isDirectory then
    ensureDirectory root member.normalizedPath
    syscall (DirTree.chmod member.mode path)
  else
    ensureDirectory root (parent member.normalizedPath)
    syscall (DirTree.create [] member.mode path)
    Program.each chunks fun chunk => syscall (writeChunk host path chunk)
    syscall (DirTree.chmod member.mode path)

/-- The payloads under the normalized paths of the entries. -/
def payloads (nfc : String → String) (entries : List (String × Except Failure Bytes)) :
    Except Failure (List (Path × Except Failure Bytes)) :=
  entries.mapM fun entry => (memberPath nfc entry.1).map fun path => (path, entry.2)

def tarPayload (info : TarInfo) : Except Failure Bytes := do
  let stream ← info.payload
  require stream (archiveUnsafe "tar regular file has no readable payload" [])

/-- The entries of the archive as the second pass reads them. -/
def archiveEntries (archiveFormat : String) (file : ArchiveFile) :
    List (String × Except Failure Bytes) :=
  if archiveFormat = "zip" then
    (file.zipInfos.getD []).map fun info => (info.filename, info.payload)
  else (file.tarInfos.getD []).map fun info => (info.name, tarPayload info)

/-- `by_path[path]`, the last entry under a path. -/
def payloadAt (byPath : List (Path × Except Failure Bytes)) (path : Path) :
    Except Failure Bytes := do
  let payload ← require (byPath.reverse.lookup path) ⟨.core, "KeyError", joinPath path, []⟩
  payload

def memberChunks (byPath : List (Path × Except Failure Bytes)) (member : ArchiveMember) :
    Except Failure (List Bytes) :=
  if member.isDirectory then .ok []
  else (payloadAt byPath member.normalizedPath).map fun data => [data]

def extractMembers (nfc : String → String) (root : Path)
    (entries : List (String × Except Failure Bytes)) (members : List ArchiveMember) :
    Program (DirTree Bytes) Failure Unit := do
  let byPath ← Program.lift (payloads nfc entries)
  Program.each members fun member => do
    let chunks ← Program.lift (memberChunks byPath member)
    writeMember host root member chunks

/-- `root.rglob("*")`, in no particular order. -/
def belowRoot (root : Path) (s : DirTree Bytes) : List Path :=
  ((s.entries.map Prod.fst).filter fun p => root <+: p ∧ p ≠ root).dedup

def removeChild (child : Path) : Program (DirTree Bytes) Failure Unit := do
  let dir ← Program.read fun s => s.isDir child && !s.isSymlink child
  if dir then syscall (DirTree.rmdir child)
  else Program.whenever (fun s => (s.get child).isSome) (syscall (DirTree.unlink child))

def removeExtracted (root : Path) : Program (DirTree Bytes) Failure Unit := do
  let children ← Program.read fun s => (belowRoot root s).insertionSort fun a b => b ≤ a
  Program.each children removeChild
  syscall (DirTree.rmdir root)

end Extraction

/-! ### The digest of a content root -/

structure ContentRecord where
  path : String
  byteHash : String
  mode : Mode
  deriving DecidableEq, Repr

def contentRecord (H : Hasher) (host : ArchiveHost) (root p : Path) (s : DirTree Bytes) :
    Except Failure (Option ContentRecord) :=
  match s.get p with
  | some (.file content mode) => do
    let path ← normalizePath H.nfc (joinPath (p.drop root.length))
    check (host.reads mode) (OfOsError.ofOsError ⟨.permission, p⟩)
    return some ⟨joinPath path, H.sha256 content, mode⟩
  | some (.dir _) => .ok none
  | some (.symlink _) => .error (archiveUnsafe "content root contains a symlink" [])
  | none => .error (archiveUnsafe "content root contains a special file" [])

def ContentRecord.json (record : ContentRecord) : JsonValue :=
  .object [("path", .string record.path), ("byte_hash", .string record.byteHash),
    ("mode", .string (modeText record.mode))]

def contentDigest (H : Hasher) (records : List ContentRecord) : Except Failure String :=
  digest H "agent-workflow.initializer-content-root.v1" (.array (records.map ContentRecord.json))

def contentRootDigest (H : Hasher) (host : ArchiveHost) (root : Path) (s : DirTree Bytes) :
    Except Failure String := do
  check (!s.isSymlink root && s.isDir root)
    (archiveUnsafe "content root is not a real directory" [])
  let paths := (belowRoot root s).insertionSort fun a b =>
    joinPath (a.drop root.length) ≤ joinPath (b.drop root.length)
  let records ← paths.mapM fun p => contentRecord H host root p s
  contentDigest H (records.filterMap id)

def extractVerifiedArchive (H : Hasher) (host : ArchiveHost) (file : ArchiveFile)
    (expectedSha256 : String) (policy : Members) (destination : Path) :
    Program (DirTree Bytes) Failure String := do
  let (inspection, members) ← Program.lift (inspectMembers H host file expectedSha256 policy)
  Program.inspect fun s => check (!(s.exists destination || s.isSymlink destination))
    (archiveUnsafe "extraction destination must have original absence" [])
  mkdirs 0o777 (parent destination)
  syscall (DirTree.mkdir 0o700 destination)
  Program.rescue
    (extractMembers host H.nfc destination (archiveEntries inspection.archiveFormat file) members)
    (removeExtracted destination)
  Program.inspect (contentRootDigest H host destination)

end AgentStack.Providers
