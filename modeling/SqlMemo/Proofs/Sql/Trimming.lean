import Mathlib.Data.List.Basic
import SqlMemo.Proofs.Sql.StatementGrammar

/-!
# Trimming

What remains of a text without the separators at its ends is settled by the text. It is found again
in longer texts: between further separators as it is, and beside another visible text with some
separators in between.
-/

set_option autoImplicit false

namespace SqlMemo.Sql

namespace Gap

theorem nil : Gap [] := by
  intro char member
  cases member

theorem dropWhile_append {gap : List Char} (separators : Gap gap) (text : List Char) :
    (gap ++ text).dropWhile isSeparator = text.dropWhile isSeparator :=
  List.dropWhile_append_of_pos separators

theorem dropWhile_eq_nil {gap : List Char} (separators : Gap gap) :
    gap.dropWhile isSeparator = [] := by
  simpa using separators.dropWhile_append []

theorem reverse {gap : List Char} (separators : Gap gap) : Gap gap.reverse :=
  fun char member => separators char (List.mem_reverse.mp member)

end Gap

private theorem dropWhile_of_visible {text : List Char} (unread : text ≠ [])
    (visible : ∀ char, text.head? = some char → isSeparator char = false) (behind : List Char) :
    (text ++ behind).dropWhile isSeparator = text ++ behind := by
  cases text with
  | nil => exact absurd rfl unread
  | cons first rest => simp [visible first rfl]

theorem EndsVisible.append {right : List Char} (ends : EndsVisible right) (unread : right ≠ [])
    (left : List Char) : EndsVisible (left ++ right) := by
  intro char last
  rw [List.getLast?_append_of_ne_nil _ unread] at last
  exact ends char last

/-- The separators at the end of a text are behind a text that ends visibly. -/
theorem exists_trailing_gap (chars : List Char) :
    ∃ text trailing, chars = text ++ trailing ∧ Gap trailing ∧ EndsVisible text := by
  obtain ⟨⟨leading, trailing, before, behind, chars_eq⟩, -, ends⟩ := trimmed_trimSeparators chars
  by_cases empty : trimSeparators chars = []
  · refine ⟨[], leading ++ trailing, ?_, before.append behind, by simp [EndsVisible]⟩
    rw [empty, List.append_nil] at chars_eq
    exact chars_eq
  · exact ⟨leading ++ trimSeparators chars, trailing, chars_eq, behind, ends.append empty leading⟩

namespace Trimmed

variable {chars text : List Char}

/-- There is only one way to trim a text. -/
theorem trimSeparators_eq (trimmed : Trimmed chars text) : trimSeparators chars = text := by
  obtain ⟨⟨leading, trailing, before, behind, rfl⟩, begins, ends⟩ := trimmed
  rw [trimSeparators, List.append_assoc, before.dropWhile_append]
  by_cases empty : text = []
  · subst text
    rw [List.nil_append, behind.dropWhile_eq_nil]
    rfl
  · rw [dropWhile_of_visible empty begins, List.reverse_append, behind.reverse.dropWhile_append]
    have visible : ∀ char, text.reverse.head? = some char → isSeparator char = false := by
      intro char head
      rw [List.head?_reverse] at head
      exact ends char head
    have reversed := dropWhile_of_visible (by simpa using empty) visible []
    rw [List.append_nil] at reversed
    rw [reversed, List.reverse_reverse]

theorem gap_of_nil (trimmed : Trimmed chars []) : Gap chars := by
  obtain ⟨⟨leading, trailing, before, behind, rfl⟩, -, -⟩ := trimmed
  rw [List.append_nil]
  exact before.append behind

theorem of_visible (begins : ∀ char, text.head? = some char → isSeparator char = false)
    (ends : EndsVisible text) : Trimmed text text :=
  ⟨⟨[], [], .nil, .nil, by rw [List.nil_append, List.append_nil]⟩, begins, ends⟩

theorem gap_append (trimmed : Trimmed chars text) {gap : List Char} (separators : Gap gap) :
    Trimmed (gap ++ chars) text := by
  obtain ⟨⟨leading, trailing, before, behind, rfl⟩, begins, ends⟩ := trimmed
  refine ⟨⟨gap ++ leading, trailing, separators.append before, behind, ?_⟩, begins, ends⟩
  simp only [List.append_assoc]

theorem append_gap (trimmed : Trimmed chars text) {gap : List Char} (separators : Gap gap) :
    Trimmed (chars ++ gap) text := by
  obtain ⟨⟨leading, trailing, before, behind, rfl⟩, begins, ends⟩ := trimmed
  refine ⟨⟨leading, trailing ++ gap, before, behind.append separators, ?_⟩, begins, ends⟩
  simp only [List.append_assoc]

theorem join {chars' text' gap : List Char} (first : Trimmed chars text)
    (second : Trimmed chars' text') (unread : text ≠ []) (unread' : text' ≠ [])
    (separators : Gap gap) (apart : gap ≠ []) :
    ∃ between, Gap between ∧ between ≠ [] ∧
      Trimmed (chars ++ gap ++ chars') (text ++ (between ++ text')) := by
  obtain ⟨⟨leading, before, outside, inside, rfl⟩, begins, -⟩ := first
  obtain ⟨⟨behind, trailing, inside', outside', rfl⟩, -, ends⟩ := second
  refine ⟨before ++ gap ++ behind, (inside.append separators).append inside', by simp [apart],
    ⟨leading, trailing, outside, outside', ?_⟩, ?_, ?_⟩
  · simp only [List.append_assoc]
  · intro char head
    rw [List.head?_append_of_ne_nil _ unread] at head
    exact begins char head
  · exact (ends.append unread' _).append (by simp [unread']) _

theorem extend (trimmed : Trimmed chars text) (unread : text ≠ []) (further : List Char) :
    ∃ tail, Trimmed (chars ++ further) (text ++ tail) := by
  obtain ⟨⟨leading, trailing, before, behind, rfl⟩, begins, ends⟩ := trimmed
  obtain ⟨tail, outside, split, separators, tail_ends⟩ := exists_trailing_gap (trailing ++ further)
  refine ⟨tail, ⟨leading, outside, before, separators, ?_⟩, ?_, ?_⟩
  · rw [List.append_assoc, split]
    simp only [List.append_assoc]
  · intro char head
    rw [List.head?_append_of_ne_nil _ unread] at head
    exact begins char head
  · by_cases empty : tail = []
    · rw [empty, List.append_nil]
      exact ends
    · exact tail_ends.append empty text

end Trimmed

/-- Statements that are the same but for the separators at their ends have the same tokens. -/
theorem tokens_eq_of_trimmed {first second : String} {text : List Char}
    (trimmed : Trimmed first.toList text) (trimmed' : Trimmed second.toList text) :
    tokens first = tokens second := by
  rw [tokens_eq_collect, tokens_eq_collect, trimmed.trimSeparators_eq, trimmed'.trimSeparators_eq]

end SqlMemo.Sql
