import Mathlib
import SqlMemo.Proofs.Sql.CallResolution
import SqlMemo.Proofs.Sql.Trimming

/-!
# The case of ASCII letters

Writing a statement in small ASCII letters makes the texts of its tokens small and changes nothing
else: neither where lexemes begin and end, nor kinds, nor the procedures that are called. So
statements that differ in the case of ASCII letters alone are read in the same way.
-/

set_option autoImplicit false

namespace SqlMemo

/-- Two characters are the same, or one of them is an ASCII capital and the other its small form. -/
def SameLetter (left right : Char) : Prop :=
  left = right ∨ left.isUpper = true ∧ right = left.toLower ∨
    right.isUpper = true ∧ left = right.toLower

def SameLetters (left right : String) : Prop :=
  List.Forall₂ SameLetter left.toList right.toList

/-! ## Letters -/

theorem sameLetter_iff_toLower {left right : Char} :
    SameLetter left right ↔ left.toLower = right.toLower := by
  constructor
  · intro same
    rcases same with equal | ⟨-, small⟩ | ⟨-, small⟩
    · rw [equal]
    · rw [small, Char.toLower_toLower_eq_toLower]
    · rw [small, Char.toLower_toLower_eq_toLower]
  · intro same
    by_cases leftUpper : left.isUpper = true
    · by_cases rightUpper : right.isUpper = true
      · -- Two capitals with the same small form are the capitals of that form.
        have capitals := congrArg Char.toUpper same
        rw [Char.toUpper_toLower_eq_toUpper, Char.toUpper_toLower_eq_toUpper,
          Char.toUpper_eq_of_not_isLower (Char.not_isLower_of_isUpper leftUpper),
          Char.toUpper_eq_of_not_isLower (Char.not_isLower_of_isUpper rightUpper)] at capitals
        exact .inl capitals
      · rw [Char.toLower_eq_of_not_isUpper rightUpper] at same
        exact .inr (.inl ⟨leftUpper, same.symm⟩)
    · rw [Char.toLower_eq_of_not_isUpper leftUpper] at same
      by_cases rightUpper : right.isUpper = true
      · exact .inr (.inr ⟨rightUpper, same⟩)
      · rw [Char.toLower_eq_of_not_isUpper rightUpper] at same
        exact .inl same

theorem sameLetters_iff_toLower {left right : String} :
    SameLetters left right ↔ left.toLower = right.toLower := by
  have relation : SameLetter = fun left right => left.toLower = right.toLower := by
    funext left right
    exact propext sameLetter_iff_toLower
  rw [← String.toList_inj, String.toLower, String.toLower, String.toList_map, String.toList_map,
    ← List.forall₂_eq_eq_eq, List.forall₂_map_left_iff, List.forall₂_map_right_iff, SameLetters,
    relation]

private theorem toLower_eq_iff {char other : Char} (noLetter : other.isAlpha = false) :
    char.toLower = other ↔ char = other := by
  by_cases upper : char.isUpper = true
  · have letter : char.isAlpha = true := by simp [Char.isAlpha, upper]
    constructor
    · intro same
      rw [← same, Char.isAlpha_toLower_eq_isAlpha, letter] at noLetter
      cases noLetter
    · intro same
      rw [← same, letter] at noLetter
      cases noLetter
  · rw [Char.toLower_eq_of_not_isUpper upper]

private theorem toLower_beq {char other : Char} (noLetter : other.isAlpha = false) :
    (char.toLower == other) = (char == other) := by
  rw [Bool.eq_iff_iff, beq_iff_eq, beq_iff_eq, toLower_eq_iff noLetter]

private theorem isDigit_of_isAlpha {char : Char} (letter : char.isAlpha = true) :
    char.isDigit = false := by
  simp [Char.isAlpha, Char.isUpper, Char.isLower, Char.isDigit, UInt32.le_iff_toNat_le] at letter ⊢
  omega

@[simp] private theorem isDigit_toLower (char : Char) : char.toLower.isDigit = char.isDigit := by
  by_cases upper : char.isUpper = true
  · have letter : char.isAlpha = true := by simp [Char.isAlpha, upper]
    rw [isDigit_of_isAlpha letter, isDigit_of_isAlpha (by simpa using letter)]
  · rw [Char.toLower_eq_of_not_isUpper upper]

private theorem toNat_lt_of_isAlpha {char : Char} (letter : char.isAlpha = true) :
    char.toNat < 0x80 := by
  simp [Char.isAlpha, Char.isUpper, Char.isLower, UInt32.le_iff_toNat_le] at letter
  omega

namespace Text

theorem capital_toLower (char : Char) : capital char.toLower = capital char := by
  by_cases upper : char.isUpper = true
  · have letter : char.isAlpha = true := by simp [Char.isAlpha, upper]
    rw [capital_of_ascii (toNat_lt_of_isAlpha letter),
      capital_of_ascii (toNat_lt_of_isAlpha (by simpa using letter)),
      Char.toUpper_toLower_eq_toUpper]
  · rw [Char.toLower_eq_of_not_isUpper upper]

theorem upper_toLower (text : String) : upper text.toLower = upper text := by
  simp only [upper, upperChars, String.toLower, String.toList_map, List.flatMap_map,
    capital_toLower]

end Text

namespace Sql

/-! ## Character classes -/

@[simp] theorem isSeparator_toLower (char : Char) :
    isSeparator char.toLower = isSeparator char := by
  simp (disch := decide) only [isSeparator, toLower_beq]

@[simp] theorem isSpecial_toLower (char : Char) : isSpecial char.toLower = isSpecial char := by
  simp (disch := decide) only [isSpecial, toLower_beq]

@[simp] theorem isQuote_toLower (char : Char) : isQuote char.toLower = isQuote char := by
  simp (disch := decide) only [isQuote, toLower_beq]

@[simp] theorem isOperator_toLower (char : Char) : isOperator char.toLower = isOperator char := by
  simp (disch := decide) only [isOperator, toLower_beq]

@[simp] theorem isFree_toLower (char : Char) : isFree char.toLower = isFree char := by
  simp only [isFree, isSeparator_toLower, isSpecial_toLower, isOperator_toLower]

theorem isPair_toLower_iff {first second : Char} :
    IsPair first.toLower second.toLower ↔ IsPair first second := by
  simp (disch := decide) only [IsPair, toLower_eq_iff]

/-! ## Lexemes -/

/-- A lexeme with the same quotes around a text in small letters. -/
def Lexeme.toLower : Lexeme → Lexeme
  | quoted quote text closed => quoted quote (text.map Char.toLower) closed
  | sign text => sign (text.map Char.toLower)
  | word text => word (text.map Char.toLower)
  | number text => number (text.map Char.toLower)
  | malformed fragment => malformed (fragment.map Char.toLower)

private theorem isAlpha_of_isQuote {quote : Char} (isQuote : isQuote quote = true) :
    quote.isAlpha = false := by
  simp only [Sql.isQuote, Bool.or_eq_true, beq_iff_eq] at isQuote
  rcases isQuote with single | double
  · subst quote
    rfl
  · subst quote
    rfl

private theorem map_doubleQuotes {quote : Char} (noLetter : quote.isAlpha = false)
    (text : List Char) :
    Lexeme.doubleQuotes quote (text.map Char.toLower) =
      (Lexeme.doubleQuotes quote text).map Char.toLower := by
  have small : quote.toLower = quote := (toLower_eq_iff noLetter).mpr rfl
  induction text with
  | nil => rfl
  | cons char text ih =>
      simp only [Lexeme.doubleQuotes, List.map_cons, List.flatMap_cons, List.map_append] at ih ⊢
      rw [ih]
      by_cases same : char = quote
      · simp [same, small]
      · simp [same, toLower_eq_iff noLetter]

private theorem forall_free_map {run : List Char} (free : ∀ char ∈ run, isFree char = true) :
    ∀ char ∈ run.map Char.toLower, isFree char = true := by
  simpa using free

private theorem runEnds_map {behind : List Char} (ends : RunEnds behind) :
    RunEnds (behind.map Char.toLower) := by
  cases behind with
  | nil => exact ends
  | cons next behind => simpa [RunEnds] using ends

private theorem head?_map_ne {behind : List Char} {other : Char} (noLetter : other.isAlpha = false)
    (different : behind.head? ≠ some other) :
    (behind.map Char.toLower).head? ≠ some other := by
  cases behind with
  | nil => exact different
  | cons next behind => simpa [toLower_eq_iff noLetter] using different

private theorem count_point_map (text : List Char) :
    (text.map Char.toLower).count '.' = text.count '.' := by
  rw [List.count_eq_countP, List.countP_map, List.count_eq_countP]
  congr 1
  funext char
  exact toLower_beq rfl

private theorem isNumeral_map {text : List Char} (numeral : IsNumeral text) :
    IsNumeral (text.map Char.toLower) := by
  obtain ⟨first, run, rfl, digit, run_chars⟩ := numeral
  refine ⟨first.toLower, run.map Char.toLower, rfl, by simpa using digit, ?_⟩
  intro char member
  obtain ⟨found, inside, rfl⟩ := List.mem_map.mp member
  rw [isFree_toLower, toLower_eq_iff rfl]
  exact run_chars found inside

namespace Lexeme.Fits

variable {lexeme : Lexeme} {behind : List Char}

theorem toLower (fits : lexeme.Fits behind) :
    lexeme.toLower.Fits (behind.map Char.toLower) := by
  cases fits with
  | closed isQuote noQuote =>
      exact .closed isQuote (head?_map_ne (isAlpha_of_isQuote isQuote) noQuote)
  | unclosed isQuote => exact .unclosed isQuote
  | special special => exact .special (by simpa using special)
  | pair pair => exact .pair (isPair_toLower_iff.mpr pair)
  | @operator char _ operator single =>
      refine .operator (by simpa using operator) ?_
      cases behind with
      | nil => simp
      | cons next behind => simpa [isPair_toLower_iff] using single
  | @word first run _ free noQuote noDigit ends =>
      exact .word (forall_free_map free) (by simpa using noQuote) (by simpa using noDigit)
        (runEnds_map ends)
  | @number text _ numeral points ends noPoint =>
      refine .number (isNumeral_map numeral) ?_ (runEnds_map ends) (head?_map_ne rfl noPoint)
      rwa [count_point_map]
  | @malformed text _ numeral points =>
      rw [Lexeme.toLower, List.map_append]
      exact .malformed (isNumeral_map numeral) (by rwa [count_point_map])

theorem source_toLower (fits : lexeme.Fits behind) :
    lexeme.toLower.source = lexeme.source.map Char.toLower := by
  cases lexeme with
  | quoted quote text closed =>
      have isQuote : isQuote quote = true := by cases fits <;> assumption
      have noLetter := isAlpha_of_isQuote isQuote
      have small : quote.toLower = quote := (toLower_eq_iff noLetter).mpr rfl
      simp only [Lexeme.toLower, source, map_doubleQuotes noLetter, List.map_append, List.map_cons,
        small]
      cases closed with
      | false => rfl
      | true => simp [small]
  | sign | word | number | malformed => rfl

end Lexeme.Fits

/-! ## Texts and kinds -/

private theorem toLower_eq_spelling {text spelling : String}
    (noLetters : ∀ char ∈ spelling.toList, char.isAlpha = false) :
    text.toLower = spelling ↔ text = spelling := by
  rw [← String.toList_inj, ← String.toList_inj, String.toLower, String.toList_map]
  generalize spelling.toList = letters at noLetters
  generalize text.toList = chars
  induction letters generalizing chars with
  | nil => simp
  | cons letter letters ih =>
      cases chars with
      | nil => simp
      | cons char chars =>
          simp only [List.forall_mem_cons] at noLetters
          rw [List.map_cons, List.cons.injEq, List.cons.injEq, toLower_eq_iff noLetters.1,
            ih noLetters.2]

theorem Symbol.ofText?_toLower (text : String) :
    Symbol.ofText? text.toLower = Symbol.ofText? text := by
  apply Option.ext
  intro sign
  have noLetters : ∀ char ∈ sign.spelling.toList, char.isAlpha = false := by
    cases sign <;> simp [spelling]
  rw [ofText?_eq_some_iff, ofText?_eq_some_iff, eq_comm, toLower_eq_spelling noLetters, eq_comm]

theorem Keyword.ofText?_toLower (text : String) :
    Keyword.ofText? text.toLower = Keyword.ofText? text := by
  rw [ofText?, ofText?, Text.upper_toLower]

theorem Kind.ofText_toLower (text : String) : Kind.ofText text.toLower = Kind.ofText text := by
  have digit : startsWithDigit text.toLower = startsWithDigit text := by
    rw [startsWithDigit, startsWithDigit, String.toLower, String.toList_map]
    cases text.toList with
    | nil => rfl
    | cons first rest => simp
  rw [ofText, ofText, digit, ofSpelling?, ofSpelling?, Symbol.ofText?_toLower,
    Keyword.ofText?_toLower]

def Token.toLower (token : Token) : Token :=
  ⟨token.kind, token.text.toLower⟩

def ScanError.toLower : ScanError → ScanError
  | .malformedNumber fragment position => .malformedNumber fragment.toLower position
  | .missingStatement => .missingStatement
  | .endOfStatement => .endOfStatement

private theorem ofList_map (chars : List Char) :
    String.ofList (chars.map Char.toLower) = (String.ofList chars).toLower := by
  rw [← String.toList_inj, String.toLower, String.toList_map, String.toList_ofList,
    String.toList_ofList]

private theorem token_ofText_map (chars : List Char) :
    Token.ofText (String.ofList (chars.map Char.toLower)) =
      (Token.ofText (String.ofList chars)).toLower := by
  rw [ofList_map, Token.ofText, Kind.ofText_toLower]
  rfl

/-- What a lexeme stands for in small letters. -/
theorem Lexeme.toToken_toLower (lexeme : Lexeme) :
    lexeme.toLower.toToken = (lexeme.toToken.map Token.toLower).mapError String.toLower := by
  cases lexeme with
  | quoted quote text closed =>
      simp only [Lexeme.toLower, toToken]
      by_cases literal : quote = '\''
      · rw [if_pos literal, if_pos literal, ofList_map]
        rfl
      · rw [if_neg literal, if_neg literal, token_ofText_map]
        rfl
  | sign text | word text | number text =>
      simp only [Lexeme.toLower, toToken, token_ofText_map]
      rfl
  | malformed fragment =>
      simp only [Lexeme.toLower, toToken, ofList_map]
      rfl

/-! ## Statements -/

theorem Gap.toLower {gap : List Char} (separators : Gap gap) : Gap (gap.map Char.toLower) := by
  simpa [Gap] using separators

theorem Lexed.toLower {text rest : List Char} {lexemes : List Lexeme}
    (lexed : Lexed text lexemes rest) :
    Lexed (text.map Char.toLower) (lexemes.map Lexeme.toLower) (rest.map Char.toLower) := by
  induction lexed with
  | nil => exact .nil
  | cons separators fits _ ih =>
      have extended := Lexed.cons separators.toLower fits.toLower ih
      rwa [fits.source_toLower, ← List.map_append, ← List.map_append] at extended

theorem trimSeparators_toLower (chars : List Char) :
    trimSeparators (chars.map Char.toLower) = (trimSeparators chars).map Char.toLower := by
  obtain ⟨⟨leading, trailing, before, behind, chars_eq⟩, begins, ends⟩ :=
    trimmed_trimSeparators chars
  apply Trimmed.trimSeparators_eq
  refine ⟨⟨_, _, before.toLower, behind.toLower, ?_⟩, ?_, ?_⟩
  · rw [← List.map_append, ← List.map_append, ← chars_eq]
  · simpa using begins
  · simpa [EndsVisible] using ends

private theorem meaning_toLower {lexemes : List Lexeme} {read : List Token}
    (meaning : lexemes.map Lexeme.toToken = read.map .ok) :
    (lexemes.map Lexeme.toLower).map Lexeme.toToken = (read.map Token.toLower).map .ok := by
  have small := congrArg
    (List.map fun item => (item.map Token.toLower).mapError String.toLower) meaning
  rw [List.map_map, List.map_map] at small ⊢
  refine Eq.trans ?_ small
  exact List.map_congr_left fun lexeme _ => lexeme.toToken_toLower

theorem tokens_toLower (statement : String) :
    tokens statement.toLower =
      ((tokens statement).map (List.map Token.toLower)).mapError ScanError.toLower := by
  have trimmed : trimSeparators statement.toLower.toList =
      (trimSeparators statement.toList).map Char.toLower := by
    rw [String.toLower, String.toList_map, trimSeparators_toLower]
  rcases tokens_cases statement with
    ⟨lexemes, read, lexed, meaning, result⟩ |
    ⟨lexemes, read, gap, fragment, behind, lexed, meaning, separators, fits, result⟩
  · have small := lexed.toLower
    rw [← trimmed] at small
    rw [result, tokens_of_lexed small (meaning_toLower meaning)]
    rfl
  · have small := lexed.toLower
    rw [← trimmed, List.map_append, List.map_append] at small
    have smallFits := fits.toLower
    rw [Lexeme.toLower] at smallFits
    rw [result, tokens_of_malformed small (meaning_toLower meaning) separators.toLower smallFits,
      trimmed, ofList_map]
    simp [Except.map, Except.mapError, ScanError.toLower]

/-! ## Calls -/

def ResolvedToken.toLower (entry : ResolvedToken) : ResolvedToken :=
  ⟨entry.token.toLower, entry.procedure⟩

theorem calledBy_toLower (catalog : Catalog) (token : Token) (behind : List Token) :
    calledBy catalog token.toLower (behind.map Token.toLower) =
      calledBy catalog token behind := by
  have found : catalog.find? token.text.toLower = catalog.find? token.text := by
    rw [Catalog.find?, Catalog.find?, Text.upper_toLower]
  rw [calledBy, calledBy, Token.toLower, found]
  cases behind <;> rfl

theorem resolve_toLower (catalog : Catalog) (statement : String) :
    resolve catalog statement.toLower =
      ((resolve catalog statement).map (List.map ResolvedToken.toLower)).mapError
        ScanError.toLower := by
  have resolved : ∀ read, resolveTokens catalog (read.map Token.toLower) =
      (resolveTokens catalog read).map ResolvedToken.toLower := by
    intro read
    induction read with
    | nil => rfl
    | cons token behind ih =>
        simp only [List.map_cons, resolveTokens, ih, calledBy_toLower]
        rfl
  rw [resolve_eq_map_tokens, resolve_eq_map_tokens, tokens_toLower]
  cases tokens statement with
  | error fault => rfl
  | ok read =>
      simp only [Except.map, Except.mapError, resolved]

/-- Two tokens with the same kind and procedure, whose texts are the same up to the case of ASCII
letters. -/
structure ResolvedToken.SameButCase (first second : ResolvedToken) : Prop where
  kind : first.token.kind = second.token.kind
  procedure : first.procedure = second.procedure
  text : SameLetters first.token.text second.token.text

private theorem sameButCase_of_toLower {first second : ResolvedToken}
    (same : first.toLower = second.toLower) : first.SameButCase second := by
  obtain ⟨⟨kind, text⟩, procedure⟩ := first
  obtain ⟨⟨kind', text'⟩, procedure'⟩ := second
  simp only [ResolvedToken.toLower, Token.toLower, ResolvedToken.mk.injEq, Token.mk.injEq] at same
  exact ⟨same.1.1, same.2, sameLetters_iff_toLower.mpr same.1.2⟩

private theorem forall₂_of_map_toLower {read read' : List ResolvedToken}
    (same : read.map ResolvedToken.toLower = read'.map ResolvedToken.toLower) :
    List.Forall₂ ResolvedToken.SameButCase read read' := by
  rw [← List.forall₂_eq_eq_eq, List.forall₂_map_left_iff, List.forall₂_map_right_iff] at same
  exact same.imp fun _ _ => sameButCase_of_toLower

private theorem malformed_of_resolve {catalog : Catalog} {statement : String} {fault : ScanError}
    (fails : resolve catalog statement = .error fault) :
    ∃ fragment position, fault = .malformedNumber fragment position := by
  rw [resolve_eq_map_tokens] at fails
  cases result : tokens statement with
  | ok read =>
      rw [result] at fails
      cases fails
  | error found =>
      rw [result] at fails
      obtain rfl := Except.error.inj fails
      obtain ⟨_, _, _, fragment, _, _, _, _, _, rfl⟩ := exists_malformed_of_tokens result
      exact ⟨_, _, rfl⟩

/-- Statements that differ in the case of ASCII letters alone have the same tokens up to that case,
or faults at the same place whose fragments are the same up to that case. Neither kinds nor the
procedures that are called depend on it. -/
theorem resolve_of_sameLetters (catalog : Catalog) {first second : String}
    (same : SameLetters first second) :
    (∃ read read', resolve catalog first = .ok read ∧ resolve catalog second = .ok read' ∧
      List.Forall₂ ResolvedToken.SameButCase read read') ∨
    (∃ fragment fragment' position,
      resolve catalog first = .error (.malformedNumber fragment position) ∧
      resolve catalog second = .error (.malformedNumber fragment' position) ∧
      SameLetters fragment fragment') := by
  have small := resolve_toLower catalog first
  rw [sameLetters_iff_toLower.mp same, resolve_toLower catalog second] at small
  cases result : resolve catalog first with
  | ok read =>
      cases result' : resolve catalog second with
      | ok read' =>
          rw [result, result'] at small
          exact .inl ⟨read, read', rfl, rfl, forall₂_of_map_toLower (Except.ok.inj small).symm⟩
      | error fault =>
          rw [result, result'] at small
          cases small
  | error fault =>
      cases result' : resolve catalog second with
      | ok read' =>
          rw [result, result'] at small
          cases small
      | error fault' =>
          rw [result, result'] at small
          obtain ⟨fragment, position, rfl⟩ := malformed_of_resolve result
          obtain ⟨fragment', position', rfl⟩ := malformed_of_resolve result'
          have faults := Except.error.inj small
          simp only [ScanError.toLower, ScanError.malformedNumber.injEq] at faults
          obtain ⟨letters, rfl⟩ := faults
          exact .inr ⟨fragment, fragment', position', rfl, rfl,
            sameLetters_iff_toLower.mpr letters.symm⟩

theorem resolve_of_sameLetters_sum :
    SameLetters "Sum('B')" "sUM('b')" ∧
    ∃ read read', resolve .standard "Sum('B')" = .ok read ∧
      resolve .standard "sUM('b')" = .ok read' ∧
      List.Forall₂ ResolvedToken.SameButCase read read' := by
  have same : SameLetters "Sum('B')" "sUM('b')" := by
    simp [SameLetters, SameLetter]
  have result : tokens "Sum('B')" = .ok [⟨.identifier, "Sum"⟩, ⟨.symbol .openParenthesis, "("⟩,
      ⟨.character, "B"⟩, ⟨.symbol .closeParenthesis, ")"⟩] := by decide +kernel
  refine ⟨same, ?_⟩
  rcases resolve_of_sameLetters .standard same with both | ⟨_, _, _, fails, -⟩
  · exact both
  · rw [resolve_eq_map_tokens, result] at fails
    cases fails

end Sql

end SqlMemo
