import SqlMemo.Bytes
import SqlMemo.Error

/-!
# Memo pointers

A memo field of a table holds the beginning of the memo's value, the leader, and a pointer of ten
bytes behind it: the address of the whole value, its length, and a modification number.
-/

set_option autoImplicit false

namespace SqlMemo

/-- The content of a memo field. A field with room for the pointer alone has no leader. -/
structure MemoPointer where
  leader : Option Bytes
  address : UInt32
  length : UInt32
  modification : UInt16
  deriving DecidableEq, Repr

namespace MemoPointer

def size : Nat := 10

def ofField (field : Bytes) : Except Error MemoPointer :=
  if field.length < size then .error .invalidPointer
  else
    let start := field.length - size
    .ok {
      leader := if start = 0 then none else some (field.take start)
      address := UInt32.ofNat (field.window start 4).toNat
      length := UInt32.ofNat (field.window (start + 4) 4).toNat
      modification := UInt16.ofNat (field.window (start + 8) 2).toNat }

def toField (pointer : MemoPointer) : Bytes :=
  pointer.leader.getD [] ++ Bytes.ofNat 4 pointer.address.toNat ++
    Bytes.ofNat 4 pointer.length.toNat ++ Bytes.ofNat 2 pointer.modification.toNat

end MemoPointer

end SqlMemo
