import Std.Data.HashMap
import SqlMemo.Catalog.Aggregate
import SqlMemo.Table.ColumnType
import SqlMemo.Text.UpperCase

/-!
# Catalogs of procedures

The procedures that a statement can call. A catalog keeps them in the order of their registration
and finds them by name in any case, where a later procedure hides an earlier one of the same name.
-/

set_option autoImplicit false

namespace SqlMemo

/-- A procedure: an aggregate under a name. -/
structure Procedure where
  name : String
  remarks : String
  returnType : ColumnType
  kind : Aggregate
  deriving DecidableEq, Repr

/-- Procedures in order of registration, with the position of the last one of each upper-case
name. -/
structure Catalog where
  procedures : List Procedure
  index : Std.HashMap String Nat

namespace Catalog

/-- The index of a list of procedures by upper-case name. -/
def indexOf (procedures : List Procedure) : Std.HashMap String Nat :=
  procedures.zipIdx.foldl
    (fun index (procedure, position) => index.insert (Text.upper procedure.name) position) ∅

def ofList (procedures : List Procedure) : Catalog :=
  ⟨procedures, indexOf procedures⟩

/-- The procedure with a given name, in any case. -/
def find? (catalog : Catalog) (name : String) : Option Procedure :=
  catalog.index[Text.upper name]?.bind fun position => catalog.procedures[position]?

/-- The procedures that every statement can call. -/
def standard : Catalog :=
  .ofList [
    { name := "AVG"
      remarks := "Returns the average value of a numeric column."
      returnType := .double
      kind := .average },
    { name := "COUNT"
      remarks := "Returns the number of rows with a value."
      returnType := .integer
      kind := .count },
    { name := "MAX"
      remarks := "Returns the largest value of the selected column."
      returnType := .double
      kind := .max },
    { name := "MIN"
      remarks := "Returns the smallest value of the selected column."
      returnType := .double
      kind := .min },
    { name := "SUM"
      remarks := "Returns the total sum of a numeric column."
      returnType := .double
      kind := .sum }]

@[simp] theorem procedures_ofList (procedures : List Procedure) :
    (ofList procedures).procedures = procedures := rfl

end Catalog

end SqlMemo
