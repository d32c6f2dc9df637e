import Mathlib.Data.List.Forall2
import SqlMemo.Sql.TokenStream
import SqlMemo.Proofs.Sql.LexemeGrammar

/-!
# The grammar of statements

A statement without the separators at its ends is a sequence of lexemes with separators between
them. Its tokens are those of the lexemes, in order, up to the first lexeme that stands for none.
-/

set_option autoImplicit false

namespace SqlMemo.Sql

/-! ## Separators -/

/-- A run of separators, which may be empty. -/
def Gap (chars : List Char) : Prop :=
  ∀ char ∈ chars, isSeparator char = true

theorem Gap.append {first second : List Char} (left : Gap first) (right : Gap second) :
    Gap (first ++ second) := by
  intro char member
  rcases List.mem_append.mp member with member | member
  · exact left char member
  · exact right char member

/-- A text that does not end in a separator. -/
def EndsVisible (text : List Char) : Prop :=
  ∀ char, text.getLast? = some char → isSeparator char = false

/-- A text is what remains of `chars` without the separators at both ends. -/
structure Trimmed (chars text : List Char) : Prop where
  surrounded : ∃ leading trailing,
    Gap leading ∧ Gap trailing ∧ chars = leading ++ text ++ trailing
  beginsVisible : ∀ char, text.head? = some char → isSeparator char = false
  endsVisible : EndsVisible text

theorem gap_takeWhile (chars : List Char) : Gap (chars.takeWhile isSeparator) := by
  simpa only [Gap, List.all_eq_true] using List.all_takeWhile (p := isSeparator) (l := chars)

theorem head?_dropWhile_visible (chars : List Char) {char : Char}
    (head : (chars.dropWhile isSeparator).head? = some char) : isSeparator char = false := by
  simpa [head] using List.head?_dropWhile_not isSeparator chars

theorem EndsVisible.of_append {left right : List Char} (visible : EndsVisible (left ++ right)) :
    EndsVisible right := by
  intro char last
  apply visible
  rw [List.getLast?_append, last]
  rfl

theorem EndsVisible.eq_nil_of_gap {text : List Char} (visible : EndsVisible text)
    (gap : Gap text) : text = [] := by
  cases last : text.getLast? with
  | none => exact List.getLast?_eq_none_iff.mp last
  | some char =>
      have separator := gap char (List.mem_of_getLast? last)
      rw [visible char last] at separator
      contradiction

theorem trimmed_trimSeparators (chars : List Char) : Trimmed chars (trimSeparators chars) := by
  -- The text in between, read backwards, is what the second `dropWhile` leaves.
  generalize begun : chars.dropWhile isSeparator = rest
  have left := chars.takeWhile_append_dropWhile (p := isSeparator)
  have right := rest.reverse.takeWhile_append_dropWhile (p := isSeparator)
  have trimmed : trimSeparators chars = (rest.reverse.dropWhile isSeparator).reverse := by
    rw [trimSeparators, begun]
  have rest_eq : rest = trimSeparators chars ++
      (rest.reverse.takeWhile isSeparator).reverse := by
    rw [trimmed, ← List.reverse_append, right, List.reverse_reverse]
  refine ⟨⟨chars.takeWhile isSeparator, (rest.reverse.takeWhile isSeparator).reverse,
    gap_takeWhile chars, ?_, ?_⟩, ?_, ?_⟩
  · intro char member
    exact gap_takeWhile rest.reverse char (List.mem_reverse.mp member)
  · rw [List.append_assoc, ← rest_eq, ← begun, left]
  · intro char head
    apply head?_dropWhile_visible chars
    rw [begun, rest_eq, List.head?_append, head]
    rfl
  · intro char last
    rw [trimmed, List.getLast?_reverse] at last
    exact head?_dropWhile_visible rest.reverse last

/-! ## One lexeme -/

/-- Reading behind a gap takes the lexeme that fits there. -/
theorem Cursor.next_of_fits {gap behind : List Char} {lexeme : Lexeme} (separators : Gap gap)
    (fits : lexeme.Fits behind) (position : Nat) :
    Cursor.next ⟨position, gap ++ (lexeme.source ++ behind)⟩ =
      (lexeme.toToken.mapError fun fragment => .malformedNumber fragment (position + gap.length),
        ⟨position + gap.length + lexeme.source.length, behind⟩) := by
  obtain ⟨first, rest, source_eq, visible, read⟩ := fits.read
  have kept : (gap ++ first :: (rest ++ behind)).dropWhile isSeparator =
      first :: (rest ++ behind) := by
    rw [List.dropWhile_append_of_pos separators, List.dropWhile_cons_of_neg (by simp [visible])]
  have skipped : (gap ++ first :: (rest ++ behind)).takeWhile isSeparator = gap := by
    rw [List.takeWhile_append_of_pos separators, List.takeWhile_cons_of_neg (by simp [visible]),
      List.append_nil]
  have shape : lexeme.source ++ behind = first :: (rest ++ behind) := by
    rw [source_eq, List.cons_append]
  simp only [Cursor.next, Cursor.skipSeparators, Cursor.lexeme?, shape, kept, skipped, read]

theorem TokenStream.hasNext_of_fits (gap : List Char) {behind : List Char} {lexeme : Lexeme}
    (fits : lexeme.Fits behind) (position : Nat) :
    (TokenStream.mk [] ⟨position, gap ++ (lexeme.source ++ behind)⟩).hasNext = true := by
  obtain ⟨first, rest, source_eq, -, -⟩ := fits.read
  simp [TokenStream.hasNext, source_eq]

theorem TokenStream.next_of_fits {gap behind : List Char} {lexeme : Lexeme} (separators : Gap gap)
    (fits : lexeme.Fits behind) (position : Nat) :
    (TokenStream.mk [] ⟨position, gap ++ (lexeme.source ++ behind)⟩).next =
      (lexeme.toToken.mapError fun fragment => .malformedNumber fragment (position + gap.length),
        ⟨[], ⟨position + gap.length + lexeme.source.length, behind⟩⟩) := by
  simp only [TokenStream.next, Cursor.next_of_fits separators fits]

/-- A text that does not end in a separator begins with a lexeme, behind a gap. -/
theorem EndsVisible.exists_fits {text : List Char} (visible : EndsVisible text)
    (unread : text ≠ []) :
    ∃ gap lexeme behind, Gap gap ∧ Lexeme.Fits lexeme behind ∧
      text = gap ++ (lexeme.source ++ behind) := by
  have halves := text.takeWhile_append_dropWhile (p := isSeparator)
  cases rest_eq : text.dropWhile isSeparator with
  | nil =>
      have gap := gap_takeWhile text
      rw [rest_eq, List.append_nil] at halves
      rw [halves] at gap
      exact absurd (visible.eq_nil_of_gap gap) unread
  | cons first rest =>
      have firstVisible : isSeparator first = false :=
        head?_dropWhile_visible text (by rw [rest_eq]; rfl)
      refine ⟨text.takeWhile isSeparator, (Lexeme.read first rest).1, (Lexeme.read first rest).2,
        gap_takeWhile text, Lexeme.read_fits firstVisible rest, ?_⟩
      rw [Lexeme.read_source, ← rest_eq, halves]

/-! ## Sequences of lexemes -/

/-- A text begins with the lexemes of a list, each behind a gap, and goes on with a rest. -/
inductive Lexed : List Char → List Lexeme → List Char → Prop where
  | nil {text : List Char} : Lexed text [] text
  | cons {gap behind rest : List Char} {lexeme : Lexeme} {lexemes : List Lexeme} :
      Gap gap → lexeme.Fits behind → Lexed behind lexemes rest →
      Lexed (gap ++ (lexeme.source ++ behind)) (lexeme :: lexemes) rest

namespace Lexed

theorem exists_append {text rest : List Char} {lexemes : List Lexeme}
    (lexed : Lexed text lexemes rest) : ∃ before, text = before ++ rest := by
  induction lexed with
  | nil => exact ⟨[], rfl⟩
  | @cons gap _ _ lexeme _ _ _ _ ih =>
      obtain ⟨before, rfl⟩ := ih
      exact ⟨gap ++ (lexeme.source ++ before), by simp only [List.append_assoc]⟩

theorem length_le {text rest : List Char} {lexemes : List Lexeme}
    (lexed : Lexed text lexemes rest) : rest.length ≤ text.length := by
  obtain ⟨before, rfl⟩ := lexed.exists_append
  simp only [List.length_append]
  omega

theorem endsVisible {text rest : List Char} {lexemes : List Lexeme}
    (lexed : Lexed text lexemes rest) (visible : EndsVisible text) : EndsVisible rest := by
  obtain ⟨before, rfl⟩ := lexed.exists_append
  exact visible.of_append

/-- Separators in front of a lexeme join the gap before it. -/
theorem gap_append {gap text rest : List Char} {lexeme : Lexeme} {lexemes : List Lexeme}
    (separators : Gap gap) (lexed : Lexed text (lexeme :: lexemes) rest) :
    Lexed (gap ++ text) (lexeme :: lexemes) rest := by
  cases lexed with
  | @cons inner behind _ _ _ innerGap fits lexed =>
      have extended := Lexed.cons (separators.append innerGap) fits lexed
      rwa [List.append_assoc] at extended

/-- The tokens of a text begin with those of its first lexemes. -/
theorem collect {text rest : List Char} {lexemes : List Lexeme} (lexed : Lexed text lexemes rest) :
    ∀ {read : List Token}, lexemes.map Lexeme.toToken = read.map .ok → ∀ position,
      (TokenStream.mk [] ⟨position, text⟩).collect.1 =
        (TokenStream.mk [] ⟨position + (text.length - rest.length), rest⟩).collect.1.map
          (read ++ ·) := by
  induction lexed with
  | nil =>
      intro read tokens position
      obtain rfl : read = [] := by simpa using tokens.symm
      rw [Nat.sub_self, Nat.add_zero]
      cases (TokenStream.mk [] ⟨position, _⟩).collect.1 <;> rfl
  | @cons gap behind rest lexeme lexemes separators fits lexed ih =>
      intro read tokens position
      cases read with
      | nil => simp at tokens
      | cons token read =>
          simp only [List.map_cons, List.cons.injEq] at tokens
          obtain ⟨first, tokens⟩ := tokens
          have more := TokenStream.hasNext_of_fits gap fits position
          have step := TokenStream.next_of_fits separators fits position
          have item := congrArg Prod.fst step
          rw [first] at item
          have shorter := lexed.length_le
          -- The induction hypothesis counts from behind the first lexeme, the goal from its gap.
          have place : position + gap.length + lexeme.source.length +
              (behind.length - rest.length) =
              position + ((gap ++ (lexeme.source ++ behind)).length - rest.length) := by
            simp only [List.length_append]
            omega
          rw [TokenStream.collect_of_ok more item, step, ih tokens, place]
          cases (TokenStream.mk [] ⟨_, rest⟩).collect.1 <;> rfl

end Lexed

theorem Lexeme.toToken_eq_error_iff {lexeme : Lexeme} {fragment : String} :
    lexeme.toToken = .error fragment ↔
      ∃ text, lexeme = .malformed text ∧ fragment = String.ofList text := by
  cases lexeme with
  | malformed text =>
      simp only [toToken, Except.error.injEq, malformed.injEq]
      constructor
      · rintro rfl
        exact ⟨text, rfl, rfl⟩
      · rintro ⟨_, rfl, rfl⟩
        rfl
  | quoted | sign | word | number => simp [toToken]

theorem map_toToken_eq_iff {lexemes : List Lexeme} {read : List Token} :
    lexemes.map Lexeme.toToken = read.map .ok ↔ List.Forall₂ Lexeme.StandsFor lexemes read := by
  rw [← List.forall₂_eq_eq_eq, List.forall₂_map_left_iff, List.forall₂_map_right_iff]
  simp only [Lexeme.toToken_eq_ok_iff]

/-- The lexemes of a text stand for tokens throughout, or up to a malformed one. -/
theorem EndsVisible.exists_lexed {text : List Char} (visible : EndsVisible text) :
    ∃ (lexemes : List Lexeme) (read : List Token) (rest : List Char),
      Lexed text lexemes rest ∧ lexemes.map Lexeme.toToken = read.map .ok ∧
      (rest = [] ∨ ∃ gap fragment behind, rest = gap ++ (fragment ++ behind) ∧ Gap gap ∧
        (Lexeme.malformed fragment).Fits behind) := by
  by_cases ended : text = []
  · exact ⟨[], [], text, .nil, rfl, .inl ended⟩
  obtain ⟨gap, lexeme, behind, separators, fits, text_eq⟩ := visible.exists_fits ended
  cases meaning : lexeme.toToken with
  | error fragment =>
      obtain ⟨malformed, rfl, rfl⟩ := Lexeme.toToken_eq_error_iff.mp meaning
      exact ⟨[], [], text, .nil, rfl, .inr ⟨gap, malformed, behind, text_eq, separators, fits⟩⟩
  | ok token =>
      obtain ⟨first, tail, source_eq, -, -⟩ := fits.read
      have shorter : behind.length < text.length := by
        simp only [text_eq, source_eq, List.length_append, List.length_cons]
        omega
      rw [text_eq] at visible
      obtain ⟨lexemes, read, rest, lexed, tokens, finished⟩ := visible.of_append.of_append.exists_lexed
      refine ⟨lexeme :: lexemes, token :: read, rest, ?_, ?_, finished⟩
      · rw [text_eq]
        exact .cons separators fits lexed
      · rw [List.map_cons, List.map_cons, meaning, tokens]
termination_by text.length

/-! ## Whole statements -/

theorem tokens_eq_collect (statement : String) :
    tokens statement = (TokenStream.mk [] ⟨0, trimSeparators statement.toList⟩).collect.1 :=
  rfl

theorem tokens_of_lexed {statement : String} {lexemes : List Lexeme} {read : List Token}
    (lexed : Lexed (trimSeparators statement.toList) lexemes [])
    (meaning : lexemes.map Lexeme.toToken = read.map .ok) :
    tokens statement = .ok read := by
  rw [tokens_eq_collect, lexed.collect meaning, TokenStream.collect_of_end (by rfl)]
  simp [Except.map]

theorem tokens_of_malformed {statement : String} {lexemes : List Lexeme}
    {read : List Token} {gap fragment behind : List Char}
    (lexed : Lexed (trimSeparators statement.toList) lexemes (gap ++ (fragment ++ behind)))
    (meaning : lexemes.map Lexeme.toToken = read.map .ok) (separators : Gap gap)
    (fits : (Lexeme.malformed fragment).Fits behind) :
    tokens statement = .error (.malformedNumber (String.ofList fragment)
      ((trimSeparators statement.toList).length - (fragment ++ behind).length)) := by
  have shorter := lexed.length_le
  have place : 0 + ((trimSeparators statement.toList).length -
      (gap ++ (fragment ++ behind)).length) + gap.length =
      (trimSeparators statement.toList).length - (fragment ++ behind).length := by
    simp only [List.length_append] at shorter ⊢
    omega
  generalize start_eq : 0 + ((trimSeparators statement.toList).length -
    (gap ++ (fragment ++ behind)).length) = start at place
  have more : (TokenStream.mk [] ⟨start, gap ++ (fragment ++ behind)⟩).hasNext = true :=
    TokenStream.hasNext_of_fits gap fits start
  have item : (TokenStream.mk [] ⟨start, gap ++ (fragment ++ behind)⟩).next.1 =
      .error (.malformedNumber (String.ofList fragment) (start + gap.length)) :=
    congrArg Prod.fst (TokenStream.next_of_fits separators fits start)
  rw [place] at item
  rw [tokens_eq_collect, lexed.collect meaning, start_eq, TokenStream.collect_of_error more item]
  rfl

theorem tokens_cases (statement : String) :
    (∃ lexemes read, Lexed (trimSeparators statement.toList) lexemes [] ∧
      lexemes.map Lexeme.toToken = read.map .ok ∧ tokens statement = .ok read) ∨
    (∃ lexemes read gap fragment behind,
      Lexed (trimSeparators statement.toList) lexemes (gap ++ (fragment ++ behind)) ∧
      lexemes.map Lexeme.toToken = List.map .ok read ∧ Gap gap ∧
      (Lexeme.malformed fragment).Fits behind ∧
      tokens statement = .error (.malformedNumber (String.ofList fragment)
        ((trimSeparators statement.toList).length - (fragment ++ behind).length))) := by
  obtain ⟨lexemes, read, rest, lexed, meaning, finished⟩ :=
    (trimmed_trimSeparators statement.toList).endsVisible.exists_lexed
  rcases finished with rfl | ⟨gap, fragment, behind, rfl, separators, fits⟩
  · exact .inl ⟨lexemes, read, lexed, meaning, tokens_of_lexed lexed meaning⟩
  · exact .inr ⟨lexemes, read, gap, fragment, behind, lexed, meaning, separators, fits,
      tokens_of_malformed lexed meaning separators fits⟩

theorem exists_lexed_of_tokens {statement : String} {read : List Token}
    (succeeds : tokens statement = .ok read) :
    ∃ lexemes, Lexed (trimSeparators statement.toList) lexemes [] ∧
      lexemes.map Lexeme.toToken = read.map .ok := by
  rcases tokens_cases statement with
    ⟨lexemes, found, lexed, meaning, result⟩ | ⟨_, _, _, _, _, _, _, _, _, result⟩
  · rw [succeeds] at result
    cases result
    exact ⟨lexemes, lexed, meaning⟩
  · rw [succeeds] at result
    cases result

theorem exists_malformed_of_tokens {statement : String} {fault : ScanError}
    (fails : tokens statement = .error fault) :
    ∃ lexemes read gap fragment behind,
      Lexed (trimSeparators statement.toList) lexemes (gap ++ (fragment ++ behind)) ∧
      lexemes.map Lexeme.toToken = List.map .ok read ∧ Gap gap ∧
      (Lexeme.malformed fragment).Fits behind ∧
      fault = .malformedNumber (String.ofList fragment)
        ((trimSeparators statement.toList).length - (fragment ++ behind).length) := by
  rcases tokens_cases statement with
    ⟨_, _, _, _, result⟩ |
    ⟨lexemes, read, gap, fragment, behind, lexed, meaning, separators, fits, result⟩
  · rw [fails] at result
    cases result
  · rw [fails] at result
    cases result
    exact ⟨lexemes, read, gap, fragment, behind, lexed, meaning, separators, fits, rfl⟩

/-- A statement's tokens are exactly those that its lexemes stand for, in order, and it has a fault
exactly where these lead to a malformed number. The place of the fault counts the characters of the
trimmed statement in front of that number. -/
theorem tokens_iff_lexed (statement : String) :
    Trimmed statement.toList (trimSeparators statement.toList) ∧
    (∀ read, tokens statement = .ok read ↔ ∃ lexemes trailing,
      Lexed (trimSeparators statement.toList) lexemes trailing ∧ Gap trailing ∧
      List.Forall₂ Lexeme.StandsFor lexemes read) ∧
    (∀ fault, tokens statement = .error fault ↔ ∃ lexemes read gap fragment behind,
      Lexed (trimSeparators statement.toList) lexemes (gap ++ (fragment ++ behind)) ∧
      List.Forall₂ Lexeme.StandsFor lexemes read ∧ Gap gap ∧
      (Lexeme.malformed fragment).Fits behind ∧
      fault = .malformedNumber (String.ofList fragment)
        ((trimSeparators statement.toList).length - (fragment ++ behind).length)) := by
  have trimmed := trimmed_trimSeparators statement.toList
  simp only [← map_toToken_eq_iff]
  refine ⟨trimmed, ?_, ?_⟩
  · intro read
    constructor
    · intro succeeds
      obtain ⟨lexemes, lexed, meaning⟩ := exists_lexed_of_tokens succeeds
      exact ⟨lexemes, [], lexed, by simp [Gap], meaning⟩
    · rintro ⟨lexemes, trailing, lexed, separators, meaning⟩
      obtain rfl := (lexed.endsVisible trimmed.endsVisible).eq_nil_of_gap separators
      exact tokens_of_lexed lexed meaning
  · intro fault
    constructor
    · exact exists_malformed_of_tokens
    · rintro ⟨lexemes, read, gap, fragment, behind, lexed, meaning, separators, fits, rfl⟩
      exact tokens_of_malformed lexed meaning separators fits

end SqlMemo.Sql
