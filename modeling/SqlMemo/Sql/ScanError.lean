/-!
# Faults of statements

What reading a statement can come upon in the place of a token, with the text that reports it.
-/

set_option autoImplicit false

namespace SqlMemo.Sql

/-- Why there is no token to read. -/
inductive ScanError where
  | missingStatement
  | endOfStatement
  | malformedNumber (fragment : String) (position : Nat)
  deriving DecidableEq, Repr

/-- The text by which a fault is reported. -/
def ScanError.message : ScanError → String
  | missingStatement => "NULL SQL query"
  | endOfStatement => "unexpected end of statement"
  | malformedNumber fragment position =>
    s!"invalid numeric format '{fragment}' at position {position}"

end SqlMemo.Sql
