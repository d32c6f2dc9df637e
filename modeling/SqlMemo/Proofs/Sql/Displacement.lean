import SqlMemo.Proofs.Sql.PendingItems

/-!
# Places in longer statements

What is read behind a place does not depend on the number of characters before it, except that a
fault names its own place. Reading a text behind other text therefore gives the same items, with
the places of the faults moved.
-/

set_option autoImplicit false

namespace SqlMemo.Sql

/-- A fault as it is reported with more characters in front. -/
def ScanError.displace (distance : Nat) : ScanError → ScanError
  | .malformedNumber fragment position => .malformedNumber fragment (position + distance)
  | .missingStatement => .missingStatement
  | .endOfStatement => .endOfStatement

def Item.displace (distance : Nat) (item : Item) : Item :=
  item.mapError (ScanError.displace distance)

namespace Cursor

def displace (distance : Nat) (cursor : Cursor) : Cursor :=
  ⟨cursor.position + distance, cursor.rest⟩

theorem skipSeparators_displace (distance : Nat) (cursor : Cursor) :
    (cursor.displace distance).skipSeparators = cursor.skipSeparators.displace distance := by
  simp only [skipSeparators, displace, Nat.add_right_comm]

theorem lexeme?_displace (distance : Nat) (cursor : Cursor) :
    (cursor.displace distance).lexeme? =
      cursor.lexeme?.map fun step => (step.1, step.2.displace distance) := by
  obtain ⟨position, rest⟩ := cursor
  cases rest with
  | nil => rfl
  | cons first rest => simp only [lexeme?, displace, Option.map_some, Nat.add_right_comm]

theorem next_displace (distance : Nat) (cursor : Cursor) :
    (cursor.displace distance).next =
      (Item.displace distance cursor.next.1, cursor.next.2.displace distance) := by
  simp only [next, skipSeparators_displace, lexeme?_displace]
  cases cursor.skipSeparators.lexeme? with
  | none => rfl
  | some step =>
      obtain ⟨lexeme, behind⟩ := step
      simp only [Option.map_some]
      cases lexeme.toToken <;> rfl

/-- Separators are skipped wherever reading sets in among them. -/
theorem next_of_gap {gap : List Char} (separators : Gap gap) (position : Nat) (rest : List Char) :
    Cursor.next ⟨position, gap ++ rest⟩ = Cursor.next ⟨position + gap.length, rest⟩ := by
  have skipped : Cursor.skipSeparators ⟨position, gap ++ rest⟩ =
      Cursor.skipSeparators ⟨position + gap.length, rest⟩ := by
    simp only [skipSeparators, List.dropWhile_append_of_pos separators,
      List.takeWhile_append_of_pos separators, List.length_append, Nat.add_assoc]
  simp only [next, skipped]

end Cursor

theorem tokensOf_map_displace (distance : Nat) (items : List Item) :
    tokensOf (items.map (Item.displace distance)) =
      (tokensOf items).mapError (ScanError.displace distance) := by
  induction items with
  | nil => rfl
  | cons item items ih =>
      cases item with
      | error fault => rfl
      | ok token =>
          rw [List.map_cons, show Item.displace distance (.ok token) = .ok token from rfl, tokensOf,
            tokensOf, ih]
          cases tokensOf items <;> rfl

namespace TokenStream

/-- With more characters in front the same items are pending, and only the faults are further on. -/
theorem pending_displace (distance : Nat) (cursor : Cursor) :
    (TokenStream.mk [] (cursor.displace distance)).pending =
      (TokenStream.mk [] cursor).pending.map (Item.displace distance) := by
  have sameEnd : (TokenStream.mk [] (cursor.displace distance)).hasNext =
      (TokenStream.mk [] cursor).hasNext := rfl
  cases more : (TokenStream.mk [] cursor).hasNext with
  | false =>
      rw [more] at sameEnd
      rw [pending_of_end more, pending_of_end sameEnd, List.map_nil]
  | true =>
      rw [more] at sameEnd
      have unread : cursor.rest ≠ [] := by simpa [hasNext] using more
      have shorter := Cursor.length_next_lt unread
      rw [pending_of_hasNext more, pending_of_hasNext sameEnd, List.map_cons]
      simp only [next, cursor.next_displace distance]
      rw [pending_displace distance cursor.next.2]
termination_by cursor.rest.length

theorem pending_of_gap {gap rest : List Char} (separators : Gap gap) (unread : rest ≠ [])
    (position : Nat) :
    (TokenStream.mk [] ⟨position, gap ++ rest⟩).pending =
      (TokenStream.mk [] ⟨position + gap.length, rest⟩).pending := by
  have more : (TokenStream.mk [] ⟨position, gap ++ rest⟩).hasNext = true := by
    simp [hasNext, unread]
  have more' : (TokenStream.mk [] ⟨position + gap.length, rest⟩).hasNext = true := by
    simp [hasNext, unread]
  rw [pending_of_hasNext more, pending_of_hasNext more']
  simp only [next, Cursor.next_of_gap separators]

theorem collect_of_gap {gap rest : List Char} (separators : Gap gap) (unread : rest ≠ [])
    (position : Nat) :
    (TokenStream.mk [] ⟨position, gap ++ rest⟩).collect.1 =
      (TokenStream.mk [] ⟨0, rest⟩).collect.1.mapError
        (ScanError.displace (position + gap.length)) := by
  have start : Cursor.displace (position + gap.length) ⟨0, rest⟩ =
      ⟨position + gap.length, rest⟩ := by
    rw [Cursor.displace, Nat.zero_add]
  rw [collect_eq_tokensOf, collect_eq_tokensOf, pending_of_gap separators unread, ← start,
    pending_displace, tokensOf_map_displace]

end TokenStream

end SqlMemo.Sql
