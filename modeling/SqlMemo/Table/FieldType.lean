import SqlMemo.Table.ColumnType
import SqlMemo.Error

/-!
# Field types of Paradox tables

The types of fields, the codes by which a table header names them, and the column type that each
of them has in SQL.
-/

set_option autoImplicit false

namespace SqlMemo

/-- A type of a table field. -/
inductive FieldType where
  | alpha | date | integer | long | currency | number | logical | memo | blob | formattedMemo
  | ole | graphic | time | timestamp | autoIncrement | bcd | bytes
  deriving DecidableEq, Repr

namespace FieldType

/-- All field types, in the order of their codes. -/
def all : List FieldType :=
  [.alpha, .date, .integer, .long, .currency, .number, .logical, .memo, .blob, .formattedMemo,
    .ole, .graphic, .time, .timestamp, .autoIncrement, .bcd, .bytes]

/-- The code of a field type in a table header. -/
def code : FieldType → Nat
  | .alpha => 0x01
  | .date => 0x02
  | .integer => 0x03
  | .long => 0x04
  | .currency => 0x05
  | .number => 0x06
  | .logical => 0x09
  | .memo => 0x0C
  | .blob => 0x0D
  | .formattedMemo => 0x0E
  | .ole => 0x0F
  | .graphic => 0x10
  | .time => 0x14
  | .timestamp => 0x15
  | .autoIncrement => 0x16
  | .bcd => 0x17
  | .bytes => 0x18

def name : FieldType → String
  | .alpha => "ALPHA"
  | .date => "DATE"
  | .integer => "INTEGER"
  | .long => "LONG"
  | .currency => "CURRENCY"
  | .number => "NUMBER"
  | .logical => "LOGICAL"
  | .memo => "MEMO"
  | .blob => "BLOB"
  | .formattedMemo => "FORMATTED_MEMO"
  | .ole => "OLE"
  | .graphic => "GRAPHIC"
  | .time => "TIME"
  | .timestamp => "TIMESTAMP"
  | .autoIncrement => "AUTO_INCREMENT"
  | .bcd => "BCD"
  | .bytes => "BYTES"

def columnType : FieldType → ColumnType
  | .alpha => .varchar
  | .date => .date
  | .integer | .long | .autoIncrement => .integer
  | .currency | .number => .double
  | .logical => .boolean
  | .memo => .clob
  | .blob | .formattedMemo | .ole | .graphic => .blob
  | .time => .time
  | .timestamp => .timestamp
  | .bcd => .numeric
  | .bytes => .binary

/-- The field type with a given code. -/
def ofCode (code : Int) : Except Error FieldType :=
  match all.find? fun fieldType => (fieldType.code : Int) == code with
  | some fieldType => .ok fieldType
  | none => .error (.invalidFieldType code)

def columnTypeOfCode (code : Int) : Except Error ColumnType :=
  (ofCode code).map columnType

theorem ofCode_eq_ok_iff {code : Int} {fieldType : FieldType} :
    ofCode code = .ok fieldType ↔ (fieldType.code : Int) = code := by
  constructor
  · intro known
    unfold ofCode at known
    split at known
    · rename_i found
      have same := List.find?_some found
      obtain rfl := Except.ok.inj known
      exact eq_of_beq same
    · cases known
  · rintro rfl
    cases fieldType <;> rfl

theorem ofCode_of_unknown {code : Int}
    (unknown : ∀ fieldType : FieldType, (fieldType.code : Int) ≠ code) :
    ofCode code = .error (.invalidFieldType code) := by
  have absent : (all.find? fun fieldType => (fieldType.code : Int) == code) = none :=
    List.find?_eq_none.mpr fun fieldType _ => by simpa using unknown fieldType
  rw [ofCode, absent]

end FieldType

end SqlMemo
