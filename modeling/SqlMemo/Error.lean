import SqlMemo.Sql.ScanError
import SqlMemo.Text.Hexadecimal

/-!
# Errors

Everything that can go wrong, with the text that reports it. An error that another one brought about
keeps that one as its cause.
-/

set_option autoImplicit false

namespace SqlMemo

/-- Why a file cannot be opened or read. -/
inductive IoError where
  /-- The bytes that have to be there end too early. -/
  | unexpectedEnd
  /-- The operating system refuses, for a described reason with a number. -/
  | system (description : String) (number : Nat)
  /-- The storage device refuses, for a described reason. -/
  | device (description : String)
  deriving DecidableEq, Repr

def IoError.notFound : IoError :=
  .system "No such file or directory" 2

def IoError.message : IoError → String
  | unexpectedEnd => "failed to fill whole buffer"
  | system description number => s!"{description} (os error {number})"
  | device description => description

/-- What is wrong with a block of a blob file, or with a request that it cannot serve. -/
inductive Corruption where
  | slotInSingleBlob (slot : Nat)
  | truncatedHeader
  | beyondBlob (requested stored : Nat)
  | slotOutOfRange (slot : Nat)
  | truncatedTable
  | emptySlot (slot : Nat)
  | beyondSlot (requested slot capacity : Nat)
  | beyondFile
  | unexpectedType (number : Nat)
  /-- A source that is no blob file has reasons of its own. -/
  | other (reason : String)
  deriving DecidableEq, Repr

def Corruption.message : Corruption → String
  | slotInSingleBlob slot => s!"slot {slot} in a single blob block"
  | truncatedHeader => "truncated header"
  | beyondBlob requested stored => s!"{requested} bytes requested, {stored} stored"
  | slotOutOfRange slot => s!"slot {slot} out of range"
  | truncatedTable => "truncated slot table"
  | emptySlot slot => s!"slot {slot} is empty"
  | beyondSlot requested slot capacity =>
    s!"{requested} bytes requested, slot {slot} holds {capacity}"
  | beyondFile => "blob runs past end of file"
  | unexpectedType number => s!"unexpected block type {number}"
  | other reason => reason

/-- The errors of statements, field types, memos and blob files. -/
inductive Error where
  | scan (fault : Sql.ScanError)
  | invalidFieldType (code : Int)
  | invalidPointer
  | invalidPosition (position : UInt64)
  | invalidSubstring
  | invalidLength (length : UInt64)
  | corruptBlock (offset : Nat) (corruption : Corruption)
  | unreadable (cause : Error)
  | io (failure : IoError)
  deriving DecidableEq, Repr

namespace Error

/-- The text by which an error is reported, without its cause. -/
def message : Error → String
  | scan fault => fault.message
  | invalidFieldType code => s!"invalid field type: {code}"
  | invalidPointer => "invalid CLOB descriptor"
  | invalidPosition position => s!"invalid position '{position}' in CLOB"
  | invalidSubstring => "invalid position and substring length"
  | invalidLength length => s!"invalid length specified: {length}"
  | corruptBlock offset corruption =>
    let place := Text.hexadecimal offset
    let reason := corruption.message
    s!"corrupt blob block at {place}: {reason}"
  | unreadable _ => "reading CLOB data"
  | io failure => failure.message

/-- The texts of an error and its causes, the error first. -/
def messages : Error → List String
  | unreadable cause => "reading CLOB data" :: cause.messages
  | error => [error.message]

end Error

end SqlMemo
