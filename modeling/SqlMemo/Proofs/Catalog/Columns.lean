import Mathlib.Data.List.ReduceOption
import SqlMemo.Catalog.Aggregate
import SqlMemo.Proofs.Catalog.Counts

/-!
# Aggregates of columns

An aggregate sees the numbers of a column and none of the missing values between them. It combines
the numbers from left to right, so that a further number at the end is combined with what the ones
before it gave.
-/

set_option autoImplicit false

namespace SqlMemo.Aggregate

/-! ## Missing values -/

/-- Columns with the same numbers in the same order, and missing values at any places. -/
inductive SameNumbers : Column → Column → Prop where
  | nil : SameNumbers [] []
  | number {first second : Column} (number : Float) :
      SameNumbers first second → SameNumbers (some number :: first) (some number :: second)
  | insert {first second : Column} :
      SameNumbers first second → SameNumbers first (none :: second)
  | delete {first second : Column} :
      SameNumbers first second → SameNumbers (none :: first) second

section

variable {column first second : Column} {aggregate : Aggregate}

@[simp] theorem present_none (column : Column) : present (none :: column) = present column := rfl

@[simp] theorem present_some (number : Float) (column : Column) :
    present (some number :: column) = number :: present column := rfl

theorem present_concat (column : Column) (number : Float) :
    present (column ++ [some number]) = present column ++ [number] := by
  rw [present, List.filterMap_append]
  rfl

theorem present_eq_nil_iff : present column = [] ↔ ∀ value ∈ column, value = none := by
  rw [present, List.filterMap_eq_nil_iff]
  rfl

theorem length_present (column : Column) :
    (present column).length = column.countP Option.isSome :=
  List.length_filterMap_eq_countP

theorem SameNumbers.present_eq (same : SameNumbers first second) :
    present first = present second := by
  induction same with
  | nil => rfl
  | number number _ ih => rw [present_some, present_some, ih]
  | insert _ ih => rw [present_none, ih]
  | delete _ ih => rw [present_none, ih]

theorem sameNumbers_of_present_eq (same : present first = present second) :
    SameNumbers first second := by
  induction first generalizing second with
  | nil =>
      induction second with
      | nil => exact .nil
      | cons value second ih =>
          cases value with
          | none => exact .insert (ih same)
          | some number => cases same
  | cons value first ih =>
      cases value with
      | none => exact .delete (ih same)
      | some number =>
          induction second with
          | nil => cases same
          | cons value second ih' =>
              cases value with
              | none => exact .insert (ih' same)
              | some number' =>
                  obtain ⟨rfl, tails⟩ := List.cons.inj same
                  exact .number number (ih tails)

/-- Inserting and deleting missing values leads from one column to another exactly if the numbers in
them are the same. -/
theorem sameNumbers_iff : SameNumbers first second ↔ present first = present second :=
  ⟨SameNumbers.present_eq, sameNumbers_of_present_eq⟩

theorem apply_of_sameNumbers (same : SameNumbers first second) :
    aggregate.apply second = aggregate.apply first := by
  simp only [apply, same.present_eq]

/-! ## Numbers -/

theorem reduce_eq_none_iff {combine : Float → Float → Float} {numbers : List Float} :
    reduce combine numbers = none ↔ numbers = [] := by
  cases numbers with
  | nil => exact iff_of_true rfl rfl
  | cons number numbers => simp [reduce]

/-- A number at the end is combined with the value of those before it, if there are any. -/
theorem reduce_concat (combine : Float → Float → Float) (numbers : List Float) (number : Float) :
    reduce combine (numbers ++ [number]) =
      some ((reduce combine numbers).elim number (combine · number)) := by
  cases numbers with
  | nil => rfl
  | cons first rest =>
      rw [List.cons_append, reduce, reduce, List.foldl_append]
      rfl

theorem apply_average_eq_some_iff {mean : Float} :
    average.apply column = some mean ↔
      present column ≠ [] ∧
        mean = (present column).foldl (· + ·) 0 / Float.ofNat (present column).length := by
  cases numbers : present column with
  | nil => simp [apply, numbers]
  | cons number rest =>
      simp only [apply, numbers, List.isEmpty_cons, Bool.false_eq_true, if_false, Option.some.injEq,
        ne_eq, reduceCtorEq, not_false_eq_true, true_and]
      exact eq_comm

theorem apply_eq_none_iff :
    aggregate.apply column = none ↔ aggregate ≠ .count ∧ ∀ value ∈ column, value = none := by
  rw [← present_eq_nil_iff]
  cases aggregate with
  | count => simp [apply]
  | sum | max | min => simp [apply, reduce_eq_none_iff]
  | average => simp [apply]

end

/-- Missing values do not count: columns with the same numbers, however many missing values are
inserted or deleted between them, have the same aggregates. Without a number there is no value, but
the number of numbers is always there. A number at the end of a column is added to the sum of what
is before it, or compared with its largest or smallest number, and if there is none before it, it is
itself the value. The average is the sum from the left, beginning with positive zero, divided by the
number of numbers, which is not zero then. -/
theorem apply_of_column (column : Column) :
    let count := column.countP Option.isSome
    (∀ other, SameNumbers column other ↔ column.reduceOption = other.reduceOption) ∧
    (∀ aggregate other, SameNumbers column other →
      apply aggregate other = apply aggregate column) ∧
    (∀ aggregate, apply aggregate column = none ↔
      aggregate ≠ .count ∧ ∀ value ∈ column, value = none) ∧
    apply .count column = some (Float.ofNat count) ∧
    (∀ number,
      apply .sum (column ++ [some number]) =
        some ((apply .sum column).elim number (· + number)) ∧
      apply .max (column ++ [some number]) =
        some ((apply .max column).elim number (larger · number)) ∧
      apply .min (column ++ [some number]) =
        some ((apply .min column).elim number (smaller · number))) ∧
    ∀ mean, apply .average column = some mean ↔
      0 < count ∧ (Float.ofNat count == 0) = false ∧
        mean = column.reduceOption.foldl (· + ·) 0 / Float.ofNat count := by
  intro count
  have count_eq : (present column).length = count := length_present column
  refine ⟨fun _ => sameNumbers_iff, fun _ _ => apply_of_sameNumbers, fun _ => apply_eq_none_iff,
    ?_, ?_, ?_⟩
  · rw [← count_eq]
    rfl
  · intro number
    simp only [apply, present_concat, reduce_concat, and_self]
  · intro mean
    rw [apply_average_eq_some_iff, count_eq, ← List.length_pos_iff, count_eq]
    refine and_congr_right fun positive => ?_
    exact (and_iff_right (Counts.ofNat_beq_zero (Nat.ne_of_gt positive))).symm

/-- The order of the numbers counts: a one is lost next to a number that is much larger. -/
example : apply .sum [some 1e100, none, some 1, some (-1e100)] = some 0 ∧
    apply .sum [some 1e100, none, some (-1e100), some 1] = some 1 := by
  decide +kernel

end SqlMemo.Aggregate
