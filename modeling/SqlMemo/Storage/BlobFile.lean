import Std.Data.HashMap
import SqlMemo.Storage.Block

/-!
# Blob files

A blob has an address, which is the offset of its block and its slot there in one number. The
offset is a multiple of 256 and the slot takes the last byte. Each block is loaded once and then
kept, whatever becomes of the file; a block that could not be loaded is tried again.
-/

set_option autoImplicit false

namespace SqlMemo

/-- Something that blobs can be read from, which may change by being read. -/
class ByteSource (σ : Type) where
  /-- The first `length` bytes of the blob at an address. -/
  read : σ → (address length : UInt32) → Except Error Bytes × σ

/-- A file of blobs with the blocks that were loaded so far, by offset. -/
structure BlobFile where
  medium : Medium
  blocks : Std.HashMap Nat Bytes

namespace BlobFile

def blockOffset (address : UInt32) : Nat :=
  address.toNat / 256 * 256

def slot (address : UInt32) : Nat :=
  address.toNat % 256

def ofMedium (medium : Medium) : BlobFile :=
  ⟨medium, ∅⟩

/-- The block at an offset, which is loaded unless it has been. -/
def block (file : BlobFile) (offset : Nat) : Except IoError Bytes × BlobFile :=
  match file.blocks[offset]? with
  | some block => (.ok block, file)
  | none =>
    let (sought, medium) := file.medium.seek offset
    match sought.bind fun _ => Block.load offset medium with
    | .ok block => (.ok block, ⟨medium, file.blocks.insert offset block⟩)
    | .error failure => (.error failure, { file with medium })

theorem block_of_kept {file : BlobFile} {offset : Nat} {block : Bytes}
    (kept : file.blocks[offset]? = some block) : file.block offset = (.ok block, file) := by
  simp [BlobFile.block, kept]

/-- The first `length` bytes of the blob at an address. -/
def read (file : BlobFile) (address length : UInt32) : Except Error Bytes × BlobFile :=
  let offset := blockOffset address
  let (loaded, file) := file.block offset
  match loaded with
  | .error failure => (.error (.io failure), file)
  | .ok block =>
    ((Block.blob block (slot address) length.toNat).mapError (.corruptBlock offset), file)

instance : ByteSource BlobFile where
  read := read

end BlobFile

end SqlMemo
