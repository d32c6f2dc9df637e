import SqlMemo.Proofs.Sql.Displacement
import SqlMemo.Proofs.Sql.Trimming

/-!
# Statements behind each other

A lexeme looks at no more than the next character. So the tokens of a statement are not changed by
what is written behind it after a separator, unless a literal is still open, and a fault is not
changed by anything behind it.
-/

set_option autoImplicit false

namespace SqlMemo.Sql

/-! ## Lexemes in front of other text -/

namespace Lexeme.Fits

variable {lexeme : Lexeme} {behind : List Char}

/-- Whether a lexeme fits depends on the next character alone. -/
theorem of_head?_eq {other : List Char} (fits : lexeme.Fits behind)
    (same : other.head? = behind.head?) : lexeme.Fits other := by
  cases fits with
  | closed isQuote noQuote => exact .closed isQuote (same ▸ noQuote)
  | unclosed isQuote =>
      obtain rfl := List.head?_eq_none_iff.mp same
      exact .unclosed isQuote
  | special special => exact .special special
  | pair pair => exact .pair pair
  | operator operator single =>
      refine .operator operator ?_
      rw [same]
      exact single
  | word free noQuote noDigit ends =>
      refine .word free noQuote noDigit ?_
      rw [RunEnds, same]
      exact ends
  | number numeral points ends noPoint =>
      refine .number numeral points ?_ (same ▸ noPoint)
      rw [RunEnds, same]
      exact ends
  | malformed numeral points => exact .malformed numeral points

theorem append (fits : lexeme.Fits behind) (unread : behind ≠ []) (tail : List Char) :
    lexeme.Fits (behind ++ tail) :=
  fits.of_head?_eq (List.head?_append_of_ne_nil _ unread)

/-- A separator ends every lexeme but a literal that is still open. -/
theorem of_separator {first : Char} {tail : List Char} (fits : lexeme.Fits [])
    (finished : ∀ quote text, lexeme ≠ .quoted quote text false)
    (separator : isSeparator first = true) : lexeme.Fits (first :: tail) := by
  have ends : RunEnds (first :: tail) := by
    intro next head
    obtain rfl : first = next := by simpa using head
    simp [isFree, separator]
  have unlike : ∀ char, isSeparator char = false → first ≠ char := by
    rintro char visible rfl
    rw [separator] at visible
    cases visible
  cases fits with
  | @closed quote text _ isQuote _ =>
      have visible := (isFree_iff.mp (isFree_of_isQuote isQuote)).1
      exact .closed isQuote (by simpa using unlike quote visible)
  | @unclosed quote text isQuote => exact absurd rfl (finished quote text)
  | special special => exact .special special
  | pair pair => exact .pair pair
  | @operator char _ operator single =>
      refine .operator operator ?_
      intro next head
      obtain rfl : first = next := by simpa using head
      rintro (⟨-, second⟩ | ⟨-, second⟩)
      · exact unlike '>' rfl second
      · exact unlike '=' rfl second
  | word free noQuote noDigit _ => exact .word free noQuote noDigit ends
  | number numeral points _ _ =>
      exact .number numeral points ends (by simpa using unlike '.' rfl)
  | malformed numeral points => exact .malformed numeral points

theorem source_ne_nil (fits : lexeme.Fits behind) : lexeme.source ≠ [] := by
  obtain ⟨first, rest, source_eq, -, -⟩ := fits.read
  rw [source_eq]
  exact List.cons_ne_nil first rest

end Lexeme.Fits

namespace Lexed

variable {text rest : List Char} {lexemes : List Lexeme}

theorem ne_nil (lexed : Lexed text lexemes rest) (unread : rest ≠ []) : text ≠ [] := by
  obtain ⟨before, rfl⟩ := lexed.exists_append
  simp [unread]

theorem append (lexed : Lexed text lexemes rest) (unread : rest ≠ []) (tail : List Char) :
    Lexed (text ++ tail) lexemes (rest ++ tail) := by
  induction lexed with
  | nil => exact .nil
  | cons separators fits lexed ih =>
      have extended := Lexed.cons separators (fits.append (lexed.ne_nil unread) tail) (ih unread)
      simpa only [List.append_assoc] using extended

theorem exists_last {before : List Lexeme} {last : Lexeme}
    (lexed : Lexed text (before ++ [last]) rest) :
    ∃ gap, Gap gap ∧ last.Fits rest ∧ Lexed text before (gap ++ (last.source ++ rest)) := by
  generalize all : before ++ [last] = lexemes at lexed
  induction lexed generalizing before with
  | nil => simp at all
  | @cons gap behind rest lexeme lexemes separators fits lexed ih =>
      cases before with
      | nil =>
          obtain ⟨rfl, rfl⟩ : last = lexeme ∧ [] = lexemes := by simpa using all
          cases lexed
          exact ⟨gap, separators, fits, .nil⟩
      | cons first before =>
          obtain ⟨rfl, rfl⟩ : first = lexeme ∧ before ++ [last] = lexemes := by simpa using all
          obtain ⟨inner, innerGap, lastFits, front⟩ := ih rfl
          exact ⟨inner, innerGap, lastFits, .cons separators fits front⟩

theorem concat {gap : List Char} {before : List Lexeme} {last : Lexeme}
    (lexed : Lexed text before (gap ++ (last.source ++ rest))) (separators : Gap gap)
    (fits : last.Fits rest) : Lexed text (before ++ [last]) rest := by
  generalize place : gap ++ (last.source ++ rest) = middle at lexed
  induction lexed with
  | nil =>
      subst place
      exact .cons separators fits .nil
  | cons separators' fits' lexed ih => exact .cons separators' fits' (ih place)

end Lexed

/-! ## Statements -/

/-- The last lexeme of a statement is a literal without its closing quote. -/
def EndsOpen (statement : String) : Prop :=
  ∃ lexemes quote text,
    Lexed (trimSeparators statement.toList) (lexemes ++ [.quoted quote text false]) []

theorem not_endsOpen_of_noQuotes {statement : String}
    (noQuotes : ∀ char ∈ statement.toList, isQuote char = false) : ¬ EndsOpen statement := by
  rintro ⟨lexemes, quote, text, lexed⟩
  obtain ⟨gap, -, fits, front⟩ := lexed.exists_last
  obtain ⟨before, trimmed_eq⟩ := front.exists_append
  obtain ⟨⟨leading, trailing, -, -, whole⟩, -, -⟩ := trimmed_trimSeparators statement.toList
  have member : quote ∈ statement.toList := by
    rw [whole, trimmed_eq]
    simp [Lexeme.source]
  cases fits with
  | unclosed isQuote =>
      rw [noQuotes quote member] at isQuote
      cases isQuote

/-- The lexemes of a statement without an open literal are the same in front of a separator. -/
theorem lexed_before_gap {statement : String} {lexemes : List Lexeme} {first : Char}
    (lexed : Lexed (trimSeparators statement.toList) lexemes [])
    (finished : ¬ EndsOpen statement) (unread : trimSeparators statement.toList ≠ [])
    (separator : isSeparator first = true) (tail : List Char) :
    Lexed (trimSeparators statement.toList ++ first :: tail) lexemes (first :: tail) := by
  rcases List.eq_nil_or_concat lexemes with rfl | ⟨before, last, rfl⟩
  · generalize trimSeparators statement.toList = text at lexed unread
    cases lexed
    exact absurd rfl unread
  · rw [List.concat_eq_append] at lexed ⊢
    have closed : ∀ quote text, last ≠ .quoted quote text false := by
      rintro quote text rfl
      exact finished ⟨before, quote, text, lexed⟩
    obtain ⟨gap, separators, fits, front⟩ := lexed.exists_last
    have inFront : gap ++ (last.source ++ []) ≠ [] := by simp [fits.source_ne_nil]
    have extended := front.append inFront (first :: tail)
    rw [List.append_nil, List.append_assoc] at extended
    exact extended.concat separators (fits.of_separator closed separator)

theorem tokens_of_trimmed_nil {statement : String}
    (empty : trimSeparators statement.toList = []) : tokens statement = .ok [] := by
  rw [tokens_eq_collect, empty, TokenStream.collect_of_end (by rfl)]

private theorem tokens_of_visible {first second gap : String} {read : List Token}
    (succeeds : tokens first = .ok read) (finished : ¬ EndsOpen first)
    (separators : Gap gap.toList) (apart : gap ≠ "")
    (unread : trimSeparators first.toList ≠ []) (unread' : trimSeparators second.toList ≠ []) :
    tokens (first ++ gap ++ second) =
      ((tokens second).mapError (ScanError.displace
        ((trimSeparators (first ++ gap ++ second).toList).length -
          (trimSeparators second.toList).length))).map (read ++ ·) := by
  obtain ⟨between, betweenGap, nonempty, joined⟩ :=
    (trimmed_trimSeparators first.toList).join (trimmed_trimSeparators second.toList) unread
      unread' separators (by simpa using apart)
  obtain ⟨lexemes, lexed, meaning⟩ := exists_lexed_of_tokens succeeds
  rw [← String.toList_append, ← String.toList_append] at joined
  rw [joined.trimSeparators_eq, tokens_eq_collect, joined.trimSeparators_eq, tokens_eq_collect]
  obtain ⟨char, between, rfl⟩ := List.exists_cons_of_ne_nil nonempty
  have whole := lexed_before_gap lexed finished unread (betweenGap char List.mem_cons_self)
    (between ++ trimSeparators second.toList)
  rw [← List.cons_append] at whole
  rw [whole.collect meaning, TokenStream.collect_of_gap betweenGap unread']
  generalize trimSeparators first.toList = left
  generalize trimSeparators second.toList = right
  -- Both distances count the characters of the first statement and of the gap.
  have distance : 0 + ((left ++ (char :: between ++ right)).length -
      (char :: between ++ right).length) + (char :: between).length =
      (left ++ (char :: between ++ right)).length - right.length := by
    simp only [List.length_append]
    omega
  rw [distance]

theorem tokens_append_gap_append {first gap : String} {read : List Token}
    (succeeds : tokens first = .ok read) (finished : ¬ EndsOpen first)
    (separators : Gap gap.toList) (apart : gap ≠ "") (second : String) :
    tokens (first ++ gap ++ second) =
      ((tokens second).mapError (ScanError.displace
        ((trimSeparators (first ++ gap ++ second).toList).length -
          (trimSeparators second.toList).length))).map (read ++ ·) := by
  have left := trimmed_trimSeparators first.toList
  have right := trimmed_trimSeparators second.toList
  by_cases unread : trimSeparators first.toList = []
  · -- The first statement is a gap itself, so the whole one is the second one.
    rw [tokens_of_trimmed_nil unread] at succeeds
    obtain rfl := Except.ok.inj succeeds
    rw [unread] at left
    have whole : Trimmed (first ++ gap ++ second).toList (trimSeparators second.toList) := by
      rw [String.toList_append, String.toList_append]
      exact right.gap_append (left.gap_of_nil.append separators)
    rw [tokens_eq_of_trimmed whole right, whole.trimSeparators_eq, Nat.sub_self]
    cases tokens second with
    | ok found => rfl
    | error fault => cases fault <;> rfl
  by_cases unread' : trimSeparators second.toList = []
  · rw [unread'] at right
    have whole : Trimmed (first ++ gap ++ second).toList (trimSeparators first.toList) := by
      rw [String.toList_append, String.toList_append, List.append_assoc]
      exact left.append_gap (separators.append right.gap_of_nil)
    rw [tokens_eq_of_trimmed whole left, succeeds, tokens_of_trimmed_nil unread']
    simp [Except.mapError, Except.map]
  · exact tokens_of_visible succeeds finished separators apart unread unread'

theorem tokens_append_of_error {first : String} {fault : ScanError}
    (fails : tokens first = .error fault) (second : String) :
    tokens (first ++ second) = .error fault := by
  obtain ⟨lexemes, read, gap, fragment, behind, lexed, meaning, separators, fits, rfl⟩ :=
    exists_malformed_of_tokens fails
  have nonempty : fragment ≠ [] := fits.source_ne_nil
  have unread : gap ++ (fragment ++ behind) ≠ [] := by simp [nonempty]
  obtain ⟨tail, whole⟩ :=
    (trimmed_trimSeparators first.toList).extend (lexed.ne_nil unread) second.toList
  rw [← String.toList_append] at whole
  have extended := lexed.append unread tail
  rw [List.append_assoc, List.append_assoc, ← whole.trimSeparators_eq] at extended
  have stillFits : (Lexeme.malformed fragment).Fits (behind ++ tail) := by
    cases fits with
    | malformed numeral points => exact .malformed numeral points
  rw [tokens_of_malformed extended meaning separators stillFits, whole.trimSeparators_eq]
  -- The tail is behind the fault, so it counts on both sides of the difference.
  have place : (trimSeparators first.toList ++ tail).length - (fragment ++ (behind ++ tail)).length =
      (trimSeparators first.toList).length - (fragment ++ behind).length := by
    simp only [List.length_append]
    omega
  rw [place]

/-- The tokens of a statement behind another one and a separator are read behind the tokens of that
one, unless it ends in an open literal, and a fault is reported as many characters further on as
the trimmed text has become longer. The fault of a statement is its fault with anything behind. -/
theorem tokens_of_append (first second : String) :
    (∀ gap read, Gap gap.toList → gap ≠ "" → ¬ EndsOpen first → tokens first = .ok read →
      (∀ read', tokens second = .ok read' →
        tokens (first ++ gap ++ second) = .ok (read ++ read')) ∧
      (∀ fragment position, tokens second = .error (.malformedNumber fragment position) →
        tokens (first ++ gap ++ second) = .error (.malformedNumber fragment (position +
          ((trimSeparators (first ++ gap ++ second).toList).length -
            (trimSeparators second.toList).length))))) ∧
    (∀ fault, tokens second = .error fault → ∃ fragment position,
      fault = .malformedNumber fragment position) ∧
    (∀ fault, tokens first = .error fault → tokens (first ++ second) = .error fault) := by
  refine ⟨?_, ?_, fun fault fails => tokens_append_of_error fails second⟩
  · intro gap read separators apart finished succeeds
    have whole := tokens_append_gap_append succeeds finished separators apart second
    constructor
    · intro read' succeeds'
      rw [whole, succeeds']
      rfl
    · intro fragment position fails
      rw [whole, fails]
      rfl
  · intro fault fails
    obtain ⟨_, _, _, fragment, _, _, _, _, _, rfl⟩ := exists_malformed_of_tokens fails
    exact ⟨_, _, rfl⟩

theorem tokens_of_name_number :
    Gap " ".toList ∧ " " ≠ "" ∧ ¬ EndsOpen "a" ∧ tokens "a" = .ok [⟨.identifier, "a"⟩] ∧
      tokens "1.2.3" = .error (.malformedNumber "1.2." 0) ∧
      tokens "a 1.2.3" = .error (.malformedNumber "1.2." 2) := by
  have separators : Gap " ".toList := by simp [Gap, isSeparator]
  have finished : ¬ EndsOpen "a" := not_endsOpen_of_noQuotes (by simp [isQuote])
  have first : tokens "a" = .ok [⟨.identifier, "a"⟩] := by decide +kernel
  have second : tokens "1.2.3" = .error (.malformedNumber "1.2." 0) := by decide +kernel
  exact ⟨separators, by decide, finished, first, second,
    ((tokens_of_append "a" "1.2.3").1 " " _ separators (by decide) finished first).2 _ _ second⟩

end SqlMemo.Sql
