import AgentStack.Gzip.Stored
import Mathlib.Data.List.Range

/-! The gzip container of a source distribution: stored blocks under a fixed header. -/
namespace AgentStack.Release

open Gzip

/-- `struct.pack` of an unsigned number of `width` bytes; `none` when it does not fit. -/
def packUnsigned (width value : Nat) : Option Bytes :=
  if value < 256 ^ width then some (littleEndian width value) else none

def blockSize : Nat := 65535

/-- `range(0, length, 65_535)`. -/
def blockStarts (length : Nat) : List Nat :=
  (List.range ((length + (blockSize - 1)) / blockSize)).map (· * blockSize)

def gzipHeader : Bytes := [0x1f, 0x8b, 8, 0, 0, 0, 0, 0, 0, 0xff]

/-- `body[start : start + 65_535]`. -/
def blockAt (body : Bytes) (start : Nat) : Bytes := (body.drop start).take blockSize

def appendBlock (body compressed : Bytes) (start : Nat) : Option Bytes := do
  let block := blockAt body start
  let isFinal : Bool := start + block.length = body.length
  let len ← packUnsigned 2 block.length
  let nlen ← packUnsigned 2 (0xFFFF - block.length)
  return compressed ++ [if isFinal then 1 else 0] ++ (len ++ nlen) ++ block

def deterministicGzip (crc32 : Bytes → Nat) (body : Bytes) : Option Bytes := do
  let compressed ← (blockStarts body.length).foldlM (appendBlock body) gzipHeader
  let compressed := if body = [] then compressed ++ [1, 0, 0, 0xff, 0xff] else compressed
  let crc ← packUnsigned 4 (crc32 body % 2 ^ 32)
  let length ← packUnsigned 4 (body.length % 2 ^ 32)
  return compressed ++ (crc ++ length)

variable {body : Bytes}

theorem blockAt_length (body : Bytes) (start : Nat) :
    (blockAt body start).length = min blockSize (body.length - start) := by
  rw [blockAt, List.length_take, List.length_drop]

theorem blockAt_length_le (body : Bytes) (start : Nat) :
    (blockAt body start).length ≤ 0xFFFF := by
  rw [blockAt_length]
  exact min_le_left _ _

/-- A turn of the loop writes one block, the final one when it ends the body. -/
theorem appendBlock_eq (body compressed : Bytes) (start : Nat) :
    appendBlock body compressed start = some (compressed ++
      writeBlock (start + (blockAt body start).length = body.length) (blockAt body start)) := by
  have hle := blockAt_length_le body start
  have hlen : (blockAt body start).length < 256 ^ 2 := by omega
  have hnlen : 0xFFFF - (blockAt body start).length < 256 ^ 2 := by omega
  simp only [appendBlock, packUnsigned, if_pos hlen, if_pos hnlen, Option.bind_eq_bind,
    Option.bind_some, writeBlock]
  simp

/-- The blocks before `count` of them are the first bytes of the body. -/
theorem flatMap_blockAt (body : Bytes) (count : Nat) :
    (List.range count).flatMap (fun i => blockAt body (i * blockSize)) =
      body.take (count * blockSize) := by
  induction count with
  | zero => simp
  | succ count ih =>
    rw [List.range_succ, List.flatMap_append, ih, List.flatMap_singleton, blockAt, Nat.succ_mul,
      List.take_add]

theorem blocks_eq (body compressed : Bytes) (starts : List Nat) :
    starts.foldlM (appendBlock body) compressed = some (compressed ++ starts.flatMap fun start =>
      writeBlock (start + (blockAt body start).length = body.length) (blockAt body start)) := by
  induction starts generalizing compressed with
  | nil => simp
  | cons start starts ih =>
    rw [List.foldlM_cons, appendBlock_eq]
    simp only [Option.bind_eq_bind, Option.bind_some, ih, List.flatMap_cons, List.append_assoc]

/-- What the loop has written: blocks that are not final, and the final one at the end. -/
theorem deterministicGzip_blocks (body : Bytes) : ∃ (init : List Bytes) (last : Bytes),
    (∀ data ∈ init, data.length ≤ 0xFFFF) ∧ last.length ≤ 0xFFFF ∧ init.flatten ++ last = body ∧
    ∃ compressed, (blockStarts body.length).foldlM (appendBlock body) gzipHeader =
      some compressed ∧
    (if body = [] then compressed ++ [1, 0, 0, 0xff, 0xff] else compressed) =
      gzipHeader ++ init.flatMap (writeBlock false) ++ writeBlock true last := by
  by_cases hbody : body = []
  · subst hbody
    exact ⟨[], [], by simp, by simp, rfl, gzipHeader, rfl, rfl⟩
  · have hpos : 0 < body.length := List.length_pos_of_ne_nil hbody
    obtain ⟨count, hcount⟩ : ∃ count, (body.length + (blockSize - 1)) / blockSize = count + 1 := by
      have hle : 1 ≤ (body.length + (blockSize - 1)) / blockSize := by
        simp only [blockSize]
        omega
      exact ⟨_, (Nat.sub_add_cancel hle).symm⟩
    have hbounds : count * blockSize < body.length ∧ body.length ≤ (count + 1) * blockSize := by
      simp only [blockSize] at hcount ⊢
      omega
    have hinit : ∀ i ∈ List.range count,
        writeBlock (i * blockSize + (blockAt body (i * blockSize)).length = body.length)
          (blockAt body (i * blockSize)) = writeBlock false (blockAt body (i * blockSize)) := by
      intro i hi
      have hi := List.mem_range.mp hi
      have hne : i * blockSize + (blockAt body (i * blockSize)).length ≠ body.length := by
        rw [blockAt_length]
        simp only [blockSize] at hbounds ⊢
        omega
      rw [decide_eq_false hne]
    have hlast : count * blockSize + (blockAt body (count * blockSize)).length = body.length := by
      rw [blockAt_length]
      simp only [blockSize] at hbounds ⊢
      omega
    refine ⟨(List.range count).map fun i => blockAt body (i * blockSize),
      blockAt body (count * blockSize), ?_, blockAt_length_le _ _, ?_, _, blocks_eq _ _ _, ?_⟩
    · intro data hdata
      obtain ⟨i, -, rfl⟩ := List.mem_map.mp hdata
      exact blockAt_length_le _ _
    · have hall := flatMap_blockAt body (count + 1)
      rw [List.take_of_length_le hbounds.2, List.range_succ, List.flatMap_append,
        List.flatMap_singleton] at hall
      rw [← List.flatMap_def]
      exact hall
    · rw [if_neg hbody, blockStarts, hcount, List.range_succ, List.map_append, List.flatMap_append,
        List.flatMap_map, List.flatMap_map, List.append_assoc]
      simp only [List.flatMap_singleton, decide_eq_true hlast]
      rw [List.flatMap_congr hinit, List.flatMap_map]

/-- The output is read back: the blocks in order, the last alone final, and the trailer. -/
theorem deterministic_gzip_decodes (crc32 : Bytes → Nat) (body : Bytes) :
    ∃ output member, deterministicGzip crc32 body = some output ∧
      gunzip crc32 output = some body ∧ readMember output = some member ∧
      member.body = body ∧ member.FinalLast ∧ (∀ b ∈ member.blocks, b.Exact) ∧
      member.crc = crc32 body % 2 ^ 32 ∧ member.isize = body.length % 2 ^ 32 := by
  obtain ⟨init, last, hinit, hlast, hbody, compressed, hloop, hcompressed⟩ :=
    deterministicGzip_blocks body
  have hcrc : crc32 body % 2 ^ 32 < 2 ^ 32 := Nat.mod_lt _ (by decide)
  have hisize : body.length % 2 ^ 32 < 2 ^ 32 := Nat.mod_lt _ (by decide)
  have hread := readMember_write 0 0 0 0 0 0xff hinit hlast hcrc hisize
  have hout : deterministicGzip crc32 body = some (gzipHeader ++ init.flatMap (writeBlock false) ++
      writeBlock true last ++ (littleEndian 4 (crc32 body % 2 ^ 32) ++
        littleEndian 4 (body.length % 2 ^ 32))) := by
    have hpack : ∀ n, n % 2 ^ 32 < 256 ^ 4 := fun n => Nat.mod_lt _ (by decide)
    simp only [deterministicGzip, hloop, Option.bind_eq_bind, Option.bind_some, hcompressed,
      packUnsigned, if_pos (hpack _)]
    rfl
  have hmember : Member.body ⟨init.map (blockOf false) ++ [blockOf true last],
      crc32 body % 2 ^ 32, body.length % 2 ^ 32⟩ = body := by
    rw [Member.body, List.flatMap_append, List.flatMap_map, List.flatMap_singleton]
    simpa [blockOf, List.flatMap_id'] using hbody
  refine ⟨_, _, hout, ?_, hread, hmember, ?_, ?_, rfl, rfl⟩
  · rw [gunzip, show gzipHeader = [0x1f, 0x8b, 8, 0, 0, 0, 0, 0, 0, 0xff] from rfl, hread]
    simp only [Option.bind_eq_bind, Option.bind_some, hmember]
    simp
  · refine ⟨init.map (blockOf false), blockOf true last, rfl, rfl, ?_⟩
    intro b hb
    obtain ⟨data, -, rfl⟩ := List.mem_map.mp hb
    rfl
  · intro b hb
    rw [List.mem_append, List.mem_singleton] at hb
    rcases hb with hb | rfl
    · obtain ⟨data, hdata, rfl⟩ := List.mem_map.mp hb
      exact blockOf_exact false (hinit data hdata)
    · exact blockOf_exact true hlast

end AgentStack.Release
