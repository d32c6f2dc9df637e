import SqlMemo.Storage.Medium

/-!
# Blocks of a blob file

A block begins with its type and the number of 4096-byte chunks that it spans. It holds either one
blob of any size, or up to 64 small blobs that share one chunk.

* A single blob: its length as four bytes at 3, its modification number as two bytes at 7, and its
  content from 9 on.
* Shared: a table of 64 entries of five bytes at 12. An entry begins with the unit where its blob
  starts and the number of units that it takes up, where a unit has 16 bytes.
-/

set_option autoImplicit false

namespace SqlMemo

namespace Block

def chunkSize : Nat := 4096

/-- The number of bytes that hold the type and the number of chunks. -/
def headerSize : Nat := 3

def singleType : UInt8 := 2

def sharedType : UInt8 := 3

def singleStart : Nat := 9

/-- The slot number in the address of a single blob. -/
def singleSlot : Nat := 255

def tableStart : Nat := 12

def entrySize : Nat := 5

def slotCount : Nat := 64

def unitSize : Nat := 16

/-! ## Loading -/

/-- The number of bytes that a block of a given type and chunk number has behind its first chunk. -/
def extraSize (type : UInt8) (chunks : Nat) : Nat :=
  if type = singleType then (chunks - 1) * chunkSize else 0

/-- Reads the block at a position: its header, the rest of its first chunk, and then its further
chunks. It needs a header, and beyond that takes what there is. -/
def load (position : Nat) (medium : Medium) : Except IoError Bytes := do
  match ← medium.read position headerSize with
  | [type, low, high] =>
    let chunk ← medium.read (position + headerSize) (chunkSize - headerSize)
    let block := type :: low :: high :: chunk
    let extra ← medium.read (position + block.length) (extraSize type (Bytes.toNat [low, high]))
    return block ++ extra
  | _ => throw .unexpectedEnd

/-! ## Blobs -/

def singleBlob (block : Bytes) (slot length : Nat) : Except Corruption Bytes := do
  if slot ≠ singleSlot then throw (.slotInSingleBlob slot)
  let some stored := block.littleEndian? 3 4 | throw .truncatedHeader
  if stored < length then throw (.beyondBlob length stored)
  let some content := block.window? singleStart length | throw .beyondFile
  return content

def sharedBlob (block : Bytes) (slot length : Nat) : Except Corruption Bytes := do
  if slotCount ≤ slot then throw (.slotOutOfRange slot)
  match block.window? (tableStart + slot * entrySize) entrySize with
  | some (start :: units :: _) =>
    if units = 0 then throw (.emptySlot slot)
    let capacity := units.toNat * unitSize
    if capacity < length then throw (.beyondSlot length slot capacity)
    let some content := block.window? (start.toNat * unitSize) length | throw .beyondFile
    return content
  | _ => throw .truncatedTable

/-- The first `length` bytes of the blob in a slot of a block. -/
def blob (block : Bytes) (slot length : Nat) : Except Corruption Bytes :=
  let type := block.headD 0
  if type = singleType then singleBlob block slot length
  else if type = sharedType then sharedBlob block slot length
  else .error (.unexpectedType type.toNat)

end Block

end SqlMemo
