import SqlMemo.Proofs.Sql.Spelling
import SqlMemo.Proofs.Sql.Trimming

/-!
# Rendering tokens

Every token can be written between quotes, whatever its text. Tokens that are written so, with
separators between them, are read again as they were. The tokens that statements have are exactly
the well-formed ones.
-/

set_option autoImplicit false

namespace SqlMemo.Sql

namespace Token

/-- A token whose kind follows from its text, unless it is a literal. -/
inductive WellFormed : Token → Prop where
  | literal (text : String) : WellFormed ⟨.character, text⟩
  | number {text : String} : Kind.startsWithDigit text = true → WellFormed ⟨.numeric, text⟩
  | spelled {kind : Kind} {text : String} :
      Kind.startsWithDigit text = false → kind.Spells text → WellFormed ⟨kind, text⟩
  | name {text : String} :
      Kind.startsWithDigit text = false → (∀ kind : Kind, ¬ kind.Spells text) →
      WellFormed ⟨.identifier, text⟩

def quote (token : Token) : Char :=
  if token.kind = .character then '\'' else '"'

/-- A token between quotes, with each quote inside it written twice. -/
def render (token : Token) : List Char :=
  token.quote :: Lexeme.doubleQuotes token.quote token.text.toList ++ [token.quote]

end Token

inductive Renders : List Token → List Char → Prop where
  | nil : Renders [] []
  | single (token : Token) : Renders [token] token.render
  | cons {gap text : List Char} {next : Token} {tokens : List Token} (token : Token) :
      Gap gap → gap ≠ [] → Renders (next :: tokens) text →
      Renders (token :: next :: tokens) (token.render ++ (gap ++ text))

/-! ## Well-formed tokens -/

namespace Token

theorem wellFormed_of_suits {kind : Kind} {text : String} (suits : kind.Suits text) :
    WellFormed ⟨kind, text⟩ := by
  cases suits with
  | number digit => exact .number digit
  | spelled spelled => exact .spelled spelled.startsWithDigit_eq_false spelled
  | name noDigit unspelled => exact .name noDigit unspelled

theorem WellFormed.eq_ofText {token : Token} (wellFormed : token.WellFormed)
    (noLiteral : token.kind ≠ .character) : token = .ofText token.text := by
  cases wellFormed with
  | literal text => exact absurd rfl noLiteral
  | number digit => rw [ofText, (Kind.Suits.number digit).ofText_eq]
  | spelled _ spelled => rw [ofText, (Kind.Suits.spelled spelled).ofText_eq]
  | name noDigit unspelled => rw [ofText, (Kind.Suits.name noDigit unspelled).ofText_eq]

end Token

theorem Lexeme.StandsFor.wellFormed {lexeme : Lexeme} {token : Token}
    (stands : lexeme.StandsFor token) : token.WellFormed := by
  cases stands with
  | literal => exact .literal _
  | quoted _ _ suits | sign suits | word suits | number suits =>
      exact Token.wellFormed_of_suits suits

/-! ## Rendered tokens -/

namespace Token

def lexeme (token : Token) : Lexeme :=
  .quoted token.quote token.text.toList true

theorem isQuote_quote (token : Token) : isQuote token.quote = true := by
  unfold quote
  split <;> rfl

theorem quote_visible (token : Token) : isSeparator token.quote = false :=
  (isFree_iff.mp (isFree_of_isQuote token.isQuote_quote)).1

theorem WellFormed.toToken_lexeme {token : Token} (wellFormed : token.WellFormed) :
    token.lexeme.toToken = .ok token := by
  rw [lexeme, Lexeme.toToken, String.ofList_toList]
  by_cases literal : token.kind = .character
  · obtain ⟨kind, text⟩ := token
    obtain rfl : kind = .character := literal
    rfl
  · rw [quote, if_neg literal, if_neg (by decide), ← wellFormed.eq_ofText literal]

theorem lexeme_fits {token : Token} {behind : List Char}
    (ends : ∀ char, behind.head? = some char → isSeparator char = true) :
    token.lexeme.Fits behind := by
  refine .closed token.isQuote_quote ?_
  intro head
  have separator := ends _ head
  rw [token.quote_visible] at separator
  cases separator

theorem render_ne_nil (token : Token) : token.render ≠ [] := by
  simp [render]

theorem render_begins (token : Token) (behind : List Char) {char : Char}
    (head : (token.render ++ behind).head? = some char) : isSeparator char = false := by
  obtain rfl : token.quote = char := by simpa [render] using head
  exact token.quote_visible

theorem render_ends (token : Token) : EndsVisible token.render := by
  intro char last
  obtain rfl : token.quote = char := by
    rw [render, List.getLast?_append_of_ne_nil _ (by simp)] at last
    simpa using last
  exact token.quote_visible

end Token

namespace Renders

variable {read : List Token} {text : List Char}

theorem exists_renders (read : List Token) : ∃ text, Renders read text := by
  induction read with
  | nil => exact ⟨[], .nil⟩
  | cons token read ih =>
      obtain ⟨text, renders⟩ := ih
      cases read with
      | nil => exact ⟨_, .single token⟩
      | cons next tokens =>
          have space : Gap [' '] := by simp [Gap, isSeparator]
          exact ⟨_, .cons token space (by simp) renders⟩

theorem ne_nil (renders : Renders read text) (unread : read ≠ []) : text ≠ [] := by
  cases renders with
  | nil => exact absurd rfl unread
  | single token => exact token.render_ne_nil
  | cons token => simp [token.render_ne_nil]

theorem begins (renders : Renders read text) :
    ∀ char, text.head? = some char → isSeparator char = false := by
  intro char head
  cases renders with
  | nil => cases head
  | single token =>
      rw [← List.append_nil token.render] at head
      exact token.render_begins [] head
  | cons token => exact token.render_begins _ head

theorem endsVisible (renders : Renders read text) : EndsVisible text := by
  induction renders with
  | nil => simp [EndsVisible]
  | single token => exact token.render_ends
  | cons token _ _ renders ih =>
      have unread := renders.ne_nil (by simp)
      exact (ih.append unread _).append (by simp [unread]) _

private theorem lexed_single (token : Token) : Lexed token.render [token.lexeme] [] := by
  have fits : token.lexeme.Fits [] := Token.lexeme_fits (by simp)
  have lexed := Lexed.cons .nil fits .nil
  rwa [List.nil_append, List.append_nil] at lexed

theorem lexed (renders : Renders read text) : Lexed text (read.map Token.lexeme) [] := by
  induction renders with
  | nil => exact .nil
  | single token => exact lexed_single token
  | @cons gap text next tokens token separators apart renders ih =>
      have fits : token.lexeme.Fits (gap ++ text) := by
        apply Token.lexeme_fits
        intro char head
        rw [List.head?_append_of_ne_nil _ apart] at head
        exact separators char (List.mem_of_head? head)
      exact .cons .nil fits (ih.gap_append separators)

theorem tokens_eq (renders : Renders read text) (wellFormed : ∀ token ∈ read, token.WellFormed) :
    tokens (String.ofList text) = .ok read := by
  have trimmed := Trimmed.of_visible renders.begins renders.endsVisible
  have meaning : (read.map Token.lexeme).map Lexeme.toToken = read.map .ok := by
    rw [List.map_map]
    exact List.map_congr_left fun token member => (wellFormed token member).toToken_lexeme
  apply tokens_of_lexed _ meaning
  rw [String.toList_ofList, trimmed.trimSeparators_eq]
  exact renders.lexed

end Renders

theorem wellFormed_of_mem_tokens {statement : String} {read : List Token}
    (succeeds : tokens statement = .ok read) : ∀ token ∈ read, token.WellFormed := by
  intro token member
  obtain ⟨lexemes, -, meaning⟩ := exists_lexed_of_tokens succeeds
  have standing : Except.ok token ∈ lexemes.map Lexeme.toToken := by
    rw [meaning]
    exact List.mem_map_of_mem member
  obtain ⟨lexeme, -, meaning⟩ := List.mem_map.mp standing
  exact (Lexeme.standsFor_of_toToken meaning).wellFormed

/-- Well-formed tokens are read again as they were, whatever separators stand between their
renderings, and statements have no other tokens. So rendering the tokens of a statement gives
another one with the same tokens. What well-formed means is settled, since no text spells two
kinds or a kind and a number. -/
theorem tokens_of_renders :
    (∀ (read : List Token) text, (∀ token ∈ read, token.WellFormed) → Renders read text →
      tokens (String.ofList text) = .ok read) ∧
    (∀ statement read, tokens statement = .ok read → ∀ token ∈ read, token.WellFormed) ∧
    (∀ statement read text, tokens statement = .ok read → Renders read text →
      tokens (String.ofList text) = tokens statement) ∧
    (∀ read, ∃ text, Renders read text) ∧
    (∀ read, (∃ statement, tokens statement = .ok read) ↔ ∀ token ∈ read, token.WellFormed) ∧
    (∀ text (kind : Kind), kind.Spells text →
      Kind.startsWithDigit text = false ∧ ∀ other : Kind, other.Spells text → other = kind) := by
  refine ⟨?_, ?_, ?_, Renders.exists_renders, ?_, ?_⟩
  · intro read text wellFormed renders
    exact renders.tokens_eq wellFormed
  · intro statement read succeeds
    exact wellFormed_of_mem_tokens succeeds
  · intro statement read text succeeds renders
    rw [succeeds]
    exact renders.tokens_eq (wellFormed_of_mem_tokens succeeds)
  · intro read
    constructor
    · rintro ⟨statement, succeeds⟩
      exact wellFormed_of_mem_tokens succeeds
    · intro wellFormed
      obtain ⟨text, renders⟩ := Renders.exists_renders read
      exact ⟨_, renders.tokens_eq wellFormed⟩
  · intro text kind spelled
    exact ⟨spelled.startsWithDigit_eq_false, fun other spelled' => spelled'.unique spelled⟩

theorem tokens_of_renders_quote_number :
    Renders [⟨.character, "'"⟩, ⟨.numeric, "1 2"⟩] "'''' \"1 2\"".toList ∧
      tokens "'''' \"1 2\"" = .ok [⟨.character, "'"⟩, ⟨.numeric, "1 2"⟩] := by
  have space : Gap [' '] := by simp [Gap, isSeparator]
  have renders : Renders [⟨.character, "'"⟩, ⟨.numeric, "1 2"⟩] "'''' \"1 2\"".toList :=
    .cons _ space (by simp) (.single _)
  have wellFormed : ∀ token ∈ [⟨.character, "'"⟩, ⟨.numeric, "1 2"⟩], Token.WellFormed token := by
    simpa using ⟨.literal "'", .number rfl⟩
  have read := tokens_of_renders.1 _ _ wellFormed renders
  rw [String.ofList_toList] at read
  exact ⟨renders, read⟩

end SqlMemo.Sql
