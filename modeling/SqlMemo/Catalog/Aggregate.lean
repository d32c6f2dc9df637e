/-!
# Aggregates

Functions that reduce a column to one value. A missing value takes no part. The numbers are summed
up and compared from left to right, in floating point, so that order matters for the last digits.
-/

set_option autoImplicit false

namespace SqlMemo

/-- A column of numbers, some of which may be missing. -/
abbrev Column := List (Option Float)

inductive Aggregate where
  | average | count | max | min | sum
  deriving DecidableEq, Repr

namespace Aggregate

/-- The larger of two numbers. What is not a number gives way to the other one. -/
def larger (left right : Float) : Float :=
  if left.isNaN then right
  else if right.isNaN then left
  else if left < right then right
  else left

def smaller (left right : Float) : Float :=
  if left.isNaN then right
  else if right.isNaN then left
  else if right < left then right
  else left

/-- Combines the numbers from left to right, beginning with the first one. -/
def reduce (combine : Float → Float → Float) : List Float → Option Float
  | [] => none
  | first :: rest => some (rest.foldl combine first)

/-- The numbers of a column that are there. -/
def present (column : Column) : List Float :=
  column.filterMap id

/-- The value of an aggregate. There is none for a column without numbers, except that their count
is always known. -/
def apply (aggregate : Aggregate) (column : Column) : Option Float :=
  let numbers := present column
  match aggregate with
  | .count => some (Float.ofNat numbers.length)
  | .sum => reduce (· + ·) numbers
  | .max => reduce larger numbers
  | .min => reduce smaller numbers
  | .average =>
    if numbers.isEmpty then none
    else some (numbers.foldl (· + ·) 0 / Float.ofNat numbers.length)

end Aggregate

end SqlMemo
