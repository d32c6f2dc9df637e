import SqlMemo.Sql.Lexeme
import SqlMemo.Sql.ScanError

/-!
# Reading a statement from left to right

A cursor is a place in a statement. Reading at a cursor skips separators and then takes one lexeme,
which is a token or a fault. A fault is over with its fragment: the cursor behind it goes on right
there.
-/

set_option autoImplicit false

namespace SqlMemo.Sql

/-- A place in a statement: the number of characters before it and the characters behind it. -/
structure Cursor where
  position : Nat
  rest : List Char
  deriving DecidableEq, Repr

namespace Cursor

/-- The beginning of a statement, without the separators around it. -/
def ofStatement (statement : String) : Cursor :=
  ⟨0, trimSeparators statement.toList⟩

/-- The next place that holds no separator. -/
def skipSeparators (cursor : Cursor) : Cursor :=
  ⟨cursor.position + (cursor.rest.takeWhile isSeparator).length,
    cursor.rest.dropWhile isSeparator⟩

/-- The lexeme at a cursor and the cursor behind it. -/
def lexeme? (cursor : Cursor) : Option (Lexeme × Cursor) :=
  match cursor.rest with
  | [] => none
  | first :: rest =>
    let (lexeme, behind) := Lexeme.read first rest
    some (lexeme, ⟨cursor.position + lexeme.source.length, behind⟩)

/-- Reads one token or fault. At the end there is nothing but the fault that says so. -/
def next (cursor : Cursor) : Except ScanError Token × Cursor :=
  let start := cursor.skipSeparators
  match start.lexeme? with
  | none => (.error .endOfStatement, start)
  | some (lexeme, behind) =>
    (lexeme.toToken.mapError fun fragment => .malformedNumber fragment start.position, behind)

theorem length_skipSeparators_le (cursor : Cursor) :
    cursor.skipSeparators.rest.length ≤ cursor.rest.length := by
  have halves := congrArg List.length (cursor.rest.takeWhile_append_dropWhile (p := isSeparator))
  simp only [List.length_append] at halves
  simp only [skipSeparators]
  omega

theorem lexeme?_eq_none_iff {cursor : Cursor} : cursor.lexeme? = none ↔ cursor.rest = [] := by
  unfold lexeme?
  cases cursor.rest <;> simp

/-- A lexeme takes at least one character. -/
theorem length_lexeme?_lt {cursor behind : Cursor} {lexeme : Lexeme}
    (taken : cursor.lexeme? = some (lexeme, behind)) :
    behind.rest.length < cursor.rest.length := by
  unfold lexeme? at taken
  cases rest_eq : cursor.rest with
  | nil => simp [rest_eq] at taken
  | cons first rest =>
    simp only [rest_eq, Option.some.injEq, Prod.mk.injEq] at taken
    rw [← taken.2]
    exact Nat.lt_succ_of_le (Lexeme.length_read_le first rest)

/-- Every reading takes at least one character, as long as there is one. -/
theorem length_next_lt {cursor : Cursor} (unread : cursor.rest ≠ []) :
    cursor.next.2.rest.length < cursor.rest.length := by
  have skipped := cursor.length_skipSeparators_le
  cases taken : cursor.skipSeparators.lexeme? with
  | none =>
    have exhausted := lexeme?_eq_none_iff.mp taken
    simpa [next, taken, exhausted] using List.length_pos_iff.mpr unread
  | some step =>
    have shorter := length_lexeme?_lt taken
    simp only [next, taken]
    omega

end Cursor

end SqlMemo.Sql
