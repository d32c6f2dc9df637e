/-!
# Column types

The types of columns and results, as an SQL client sees them.
-/

set_option autoImplicit false

namespace SqlMemo

/-- A type of an SQL column or result. -/
inductive ColumnType where
  | varchar | date | integer | double | numeric | boolean
  | clob | blob | time | timestamp | binary
  deriving DecidableEq, Repr

namespace ColumnType

def name : ColumnType → String
  | .varchar => "VARCHAR"
  | .date => "DATE"
  | .integer => "INTEGER"
  | .double => "DOUBLE"
  | .numeric => "NUMERIC"
  | .boolean => "BOOLEAN"
  | .clob => "CLOB"
  | .blob => "BLOB"
  | .time => "TIME"
  | .timestamp => "TIMESTAMP"
  | .binary => "BINARY"

end ColumnType

end SqlMemo
