import SqlMemo.Memo.Pointer
import SqlMemo.Storage.BlobFile
import SqlMemo.Text.Utf8

/-!
# Memo values

A memo is a long value of a table field. It is either in the field itself or in a blob file, from
where it is loaded when it is needed for the first time. What has been loaded is never loaded again,
what could not be loaded is tried again.
-/

set_option autoImplicit false

namespace SqlMemo

/-- A memo, as far as it is known: the value itself, the address and length of the value in a blob
file, or nothing any more. -/
inductive Memo where
  | loaded (value : Bytes)
  | stored (address length : UInt32)
  | released
  deriving DecidableEq, Repr

namespace Memo

/-- What can be asked of a memo. Positions count from 1. -/
inductive Request where
  | length
  | bytes (position length : UInt64)
  | text (position length : UInt64)
  | contents
  | range (position length : UInt64)
  | truncate (length : UInt64)
  | release
  deriving DecidableEq, Repr

inductive Reply where
  | length (length : Nat)
  | bytes (content : Bytes)
  | text (content : String)
  | done
  deriving DecidableEq, Repr

/-- The memo that a pointer points at. Address zero means that the leader holds the whole value. -/
def ofPointer (pointer : MemoPointer) : Memo :=
  if pointer.address = 0 then .loaded ((pointer.leader.getD []).take pointer.length.toNat)
  else .stored pointer.address pointer.length

/-- The `length` bytes of a value from `position` on. The position is checked first. -/
def slice (value : Bytes) (position length : UInt64) : Except Error Bytes :=
  if position = 0 ∨ value.length < position.toNat then .error (.invalidPosition position)
  else if value.length < position.toNat - 1 + length.toNat then .error .invalidSubstring
  else .ok (value.window (position.toNat - 1) length.toNat)

/-- The value of a memo, the memo as known afterwards, and the source behind it. -/
def load {σ : Type} [ByteSource σ] (memo : Memo) (source : Option σ) :
    Except Error Bytes × Memo × Option σ :=
  match memo, source with
  | .loaded value, source => (.ok value, .loaded value, source)
  | .stored address length, some source =>
    let (result, source) := ByteSource.read source address length
    match result with
    | .ok value => (.ok value, .loaded value, some source)
    | .error cause => (.error (.unreadable cause), .stored address length, some source)
  | memo, source => (.error .invalidPointer, memo, source)

/-- The answer to a request about a value, and the value afterwards. -/
def answer (value : Bytes) : Request → Except Error (Reply × Bytes)
  | .length => .ok (.length value.length, value)
  | .bytes position length | .range position length =>
    (slice value position length).map fun content => (.bytes content, value)
  | .text position length =>
    (slice value position length).map fun content =>
      (.text (Text.Utf8.decodeLenient content), value)
  | .contents => .ok (.bytes value, value)
  | .truncate length =>
    if value.length < length.toNat then .error (.invalidLength length)
    else .ok (.done, value.take length.toNat)
  | .release => .ok (.done, value)

/-- Answers a request, for which the value is loaded if need be. A range without any bytes is
refused before that, and releasing a memo does not need its value. -/
def perform {σ : Type} [ByteSource σ] (memo : Memo) (source : Option σ) (request : Request) :
    Except Error Reply × Memo × Option σ :=
  match request with
  | .release => (.ok .done, .released, source)
  | .range _ 0 => (.error (.invalidLength 0), memo, source)
  | request =>
    let (result, memo, source) := memo.load source
    match result with
    | .error error => (.error error, memo, source)
    | .ok value =>
      match answer value request with
      | .error error => (.error error, memo, source)
      | .ok (reply, value) => (.ok reply, .loaded value, source)

end Memo

end SqlMemo
