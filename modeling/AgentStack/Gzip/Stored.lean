import Mathlib.Data.List.Basic
import Mathlib.Tactic.Ring

/-! Stored DEFLATE blocks, and the gzip container around them. -/
namespace AgentStack.Gzip

abbrev Bytes := List UInt8

/-- The `width` low bytes of a number, the least first. -/
def littleEndian : Nat → Nat → Bytes
  | 0, _ => []
  | width + 1, n => UInt8.ofNat n :: littleEndian width (n / 256)

def readLittleEndian : Bytes → Nat
  | [] => 0
  | b :: bs => b.toNat + 256 * readLittleEndian bs

@[simp] theorem length_littleEndian (width n : Nat) : (littleEndian width n).length = width := by
  induction width generalizing n with
  | zero => rfl
  | succ width ih => rw [littleEndian, List.length_cons, ih]

theorem read_littleEndian {width n : Nat} (h : n < 256 ^ width) :
    readLittleEndian (littleEndian width n) = n := by
  induction width generalizing n with
  | zero =>
    have hn : n = 0 := by simpa using h
    rw [hn]
    rfl
  | succ width ih =>
    have hdiv : n / 256 < 256 ^ width := by
      rw [Nat.div_lt_iff_lt_mul (by decide)]
      calc n < 256 ^ (width + 1) := h
        _ = 256 ^ width * 256 := by ring
    rw [littleEndian, readLittleEndian, ih hdiv, UInt8.toNat_ofNat']
    omega

/-! ### Blocks -/

/-- A block as it is read: its final flag, LEN, NLEN, and its bytes. -/
structure StoredBlock where
  final : Bool
  len : Nat
  nlen : Nat
  data : Bytes
  deriving DecidableEq, Repr

/-- LEN counts the bytes, and NLEN is its complement in 16 bits. -/
def StoredBlock.Exact (b : StoredBlock) : Prop := b.len = b.data.length ∧ b.len + b.nlen = 0xFFFF

/-- Bit 0 of the first byte is the final flag, bits 1 and 2 the type, which is 0. -/
def readBlock : Bytes → Option (StoredBlock × Bytes)
  | header :: a :: b :: c :: d :: rest =>
    let len := readLittleEndian [a, b]
    let nlen := readLittleEndian [c, d]
    if header &&& 6 = 0 ∧ len + nlen = 0xFFFF ∧ len ≤ rest.length then
      some (⟨header &&& 1 = 1, len, nlen, rest.take len⟩, rest.drop len)
    else none
  | _ => none

/-- The blocks up to the first final one, and what follows. A block takes a byte at least. -/
def readBlocks : Nat → Bytes → Option (List StoredBlock × Bytes)
  | 0, _ => none
  | fuel + 1, bytes => do
    let (block, rest) ← readBlock bytes
    if block.final then return ([block], rest)
    else
      let (blocks, rest) ← readBlocks fuel rest
      return (block :: blocks, rest)

def writeBlock (final : Bool) (data : Bytes) : Bytes :=
  (if final then 1 else 0) :: littleEndian 2 data.length ++
    littleEndian 2 (0xFFFF - data.length) ++ data

def blockOf (final : Bool) (data : Bytes) : StoredBlock :=
  ⟨final, data.length, 0xFFFF - data.length, data⟩

theorem blockOf_exact {data : Bytes} (final : Bool) (h : data.length ≤ 0xFFFF) :
    (blockOf final data).Exact := by
  constructor
  · rfl
  · simp only [blockOf]
    omega

theorem readBlock_writeBlock {data : Bytes} (final : Bool) (rest : Bytes)
    (h : data.length ≤ 0xFFFF) :
    readBlock (writeBlock final data ++ rest) = some (blockOf final data, rest) := by
  have hlen : readLittleEndian (littleEndian 2 data.length) = data.length :=
    read_littleEndian (by omega)
  have hnlen : readLittleEndian (littleEndian 2 (0xFFFF - data.length)) = 0xFFFF - data.length :=
    read_littleEndian (by omega)
  simp only [littleEndian] at hlen hnlen
  have hsum : data.length + (0xFFFF - data.length) = 0xFFFF := by omega
  simp only [writeBlock, littleEndian, List.cons_append, List.nil_append, readBlock, hlen, hnlen]
  have hheader : ((if final then 1 else 0 : UInt8) &&& 6) = 0 ∧
      decide (((if final then 1 else 0 : UInt8) &&& 1) = 1) = final := by
    cases final <;> decide
  rw [if_pos ⟨hheader.1, hsum, by simp⟩, hheader.2, List.take_left, List.drop_left]
  rfl

theorem writeBlock_length (final : Bool) (data : Bytes) :
    (writeBlock final data).length = data.length + 5 := by
  simp only [writeBlock, List.cons_append, List.length_cons, List.length_append,
    length_littleEndian]
  omega

theorem length_le_flatMap_writeBlock (init : List Bytes) :
    init.length ≤ (init.flatMap (writeBlock false)).length := by
  induction init with
  | nil => rfl
  | cons data init ih =>
    rw [List.flatMap_cons, List.length_append, List.length_cons, writeBlock_length]
    omega

/-- Blocks of which the last alone is final are read back, whatever follows them. -/
theorem readBlocks_write {fuel : Nat} {init : List Bytes} {last : Bytes} (rest : Bytes)
    (hinit : ∀ data ∈ init, data.length ≤ 0xFFFF) (hlast : last.length ≤ 0xFFFF)
    (hfuel : init.length < fuel) :
    readBlocks fuel (init.flatMap (writeBlock false) ++ (writeBlock true last ++ rest)) =
      some (init.map (blockOf false) ++ [blockOf true last], rest) := by
  induction init generalizing fuel with
  | nil =>
    obtain ⟨fuel, rfl⟩ := Nat.exists_eq_add_of_lt hfuel
    simp only [List.length_nil, Nat.zero_add, readBlocks, List.flatMap_nil, List.nil_append,
      readBlock_writeBlock true rest hlast]
    rfl
  | cons data init ih =>
    rw [List.forall_mem_cons] at hinit
    obtain ⟨fuel, rfl⟩ : ∃ n, fuel = n + 1 := ⟨fuel - 1, by omega⟩
    have hlength : init.length < fuel := by simpa using hfuel
    have hrest := ih hinit.2 hlength
    rw [List.flatMap_cons, List.append_assoc, readBlocks, readBlock_writeBlock false _ hinit.1]
    simp only [Option.bind_eq_bind, Option.bind_some, blockOf, Bool.false_eq_true, if_false]
    rw [hrest]
    rfl

/-! ### The container -/

structure Member where
  blocks : List StoredBlock
  crc : Nat
  isize : Nat
  deriving DecidableEq, Repr

def Member.body (m : Member) : Bytes := m.blocks.flatMap (·.data)

/-- A header without optional fields, blocks, and the trailer, with nothing after it. -/
def readMember : Bytes → Option Member
  | 0x1f :: 0x8b :: 8 :: 0 :: _ :: _ :: _ :: _ :: _ :: _ :: bytes => do
    let (blocks, trailer) ← readBlocks bytes.length bytes
    if trailer.length = 8 then
      return ⟨blocks, readLittleEndian (trailer.take 4), readLittleEndian (trailer.drop 4)⟩
    else none
  | _ => none

/-- The body, when the trailer is its CRC-32 and its length. -/
def gunzip (crc32 : Bytes → Nat) (bytes : Bytes) : Option Bytes := do
  let m ← readMember bytes
  if m.crc = crc32 m.body % 2 ^ 32 ∧ m.isize = m.body.length % 2 ^ 32 then return m.body
  else none

/-- One final block, the last. -/
def Member.FinalLast (m : Member) : Prop :=
  ∃ init last, m.blocks = init ++ [last] ∧ last.final = true ∧ ∀ b ∈ init, b.final = false

/-- What is written as blocks under a plain header is one member. -/
theorem readMember_write (a b c d e f : UInt8) {init : List Bytes} {last : Bytes}
    {crc isize : Nat} (hinit : ∀ data ∈ init, data.length ≤ 0xFFFF) (hlast : last.length ≤ 0xFFFF)
    (hcrc : crc < 2 ^ 32) (hisize : isize < 2 ^ 32) :
    readMember ([0x1f, 0x8b, 8, 0, a, b, c, d, e, f] ++ init.flatMap (writeBlock false) ++
      writeBlock true last ++ (littleEndian 4 crc ++ littleEndian 4 isize)) =
      some ⟨init.map (blockOf false) ++ [blockOf true last], crc, isize⟩ := by
  have hcrc' : readLittleEndian (littleEndian 4 crc) = crc := read_littleEndian (by omega)
  have hisize' : readLittleEndian (littleEndian 4 isize) = isize := read_littleEndian (by omega)
  have hfuel : init.length < (init.flatMap (writeBlock false) ++ (writeBlock true last ++
      (littleEndian 4 crc ++ littleEndian 4 isize))).length := by
    have hle := length_le_flatMap_writeBlock init
    simp only [List.length_append, writeBlock_length]
    omega
  have hblocks := readBlocks_write (littleEndian 4 crc ++ littleEndian 4 isize) hinit hlast hfuel
  simp only [List.append_assoc, List.cons_append, List.nil_append, readMember]
  rw [hblocks]
  simp only [Option.bind_eq_bind, Option.bind_some, List.length_append, length_littleEndian]
  rw [List.take_left' (length_littleEndian 4 crc), List.drop_left' (length_littleEndian 4 crc),
    hcrc', hisize']
  rfl

end AgentStack.Gzip
