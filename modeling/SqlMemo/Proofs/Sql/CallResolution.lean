import SqlMemo.Proofs.Sql.PendingItems
import SqlMemo.Proofs.Sql.Spelling

/-!
# Resolved calls

Resolving the calls of a statement reads ahead by one token and puts it back. What comes out is the
plain reading of the statement, fault for fault and token for token, and whether a token calls a
procedure depends on that token and the next one alone.
-/

set_option autoImplicit false

namespace SqlMemo.Sql

/-- The procedure that a token calls in front of other tokens. -/
def calledBy (catalog : Catalog) (token : Token) (behind : List Token) : Option Procedure :=
  if token.kind = .identifier ∧ behind.head?.map Token.kind = some (.symbol .openParenthesis) then
    catalog.find? token.text
  else none

def resolveTokens (catalog : Catalog) : List Token → List ResolvedToken
  | [] => []
  | token :: behind => ⟨token, calledBy catalog token behind⟩ :: resolveTokens catalog behind

theorem map_token_resolveTokens (catalog : Catalog) (read : List Token) :
    (resolveTokens catalog read).map ResolvedToken.token = read := by
  induction read with
  | nil => rfl
  | cons token behind ih => rw [resolveTokens, List.map_cons, ih]

theorem getElem?_resolveTokens (catalog : Catalog) (read : List Token) (place : Nat) :
    (resolveTokens catalog read)[place]? =
      read[place]?.map fun token => ⟨token, calledBy catalog token (read.drop (place + 1))⟩ := by
  induction read generalizing place with
  | nil => rfl
  | cons token behind ih =>
      cases place with
      | zero => rfl
      | succ place => simpa [resolveTokens] using ih place

theorem calledBy_eq_some_iff {catalog : Catalog} {token : Token} {behind : List Token}
    {procedure : Procedure} :
    calledBy catalog token behind = some procedure ↔ token.kind = .identifier ∧
      (∃ follower, behind.head? = some follower ∧ follower.kind = .symbol .openParenthesis) ∧
      catalog.find? token.text = some procedure := by
  unfold calledBy
  constructor
  · intro called
    split at called
    · rename_i calls
      obtain ⟨follower, head, opens⟩ := Option.map_eq_some_iff.mp calls.2
      exact ⟨calls.1, ⟨follower, head, opens⟩, called⟩
    · cases called
  · rintro ⟨name, ⟨follower, head, opens⟩, found⟩
    rw [if_pos ⟨name, Option.map_eq_some_iff.mpr ⟨follower, head, opens⟩⟩]
    exact found

namespace TokenStream

/-! ## Looking ahead -/

theorem callee_eq_calledBy {catalog : Catalog} {token : Token} {stream : TokenStream}
    {procedure : Option Procedure} {behind : List Token}
    (looked : (stream.callee catalog token).1 = .ok procedure)
    (pending : tokensOf stream.pending = .ok behind) :
    procedure = calledBy catalog token behind := by
  unfold callee at looked
  split at looked
  · rename_i looks
    rw [pending_of_hasNext looks.2] at pending
    cases item : stream.next.1 with
    | error fault => simp [item] at looked
    | ok follower =>
        rw [item, tokensOf] at pending
        cases later : tokensOf stream.next.2.pending with
        | error fault => simp [later, Except.map] at pending
        | ok further =>
            obtain rfl : follower :: further = behind := by
              simpa [later, Except.map] using pending
            simpa [item, calledBy, looks.1] using looked.symm
  · rename_i unlooked
    obtain rfl : none = procedure := by simpa using looked
    -- Either the token is no name, or nothing stands behind it.
    by_cases name : token.kind = .identifier
    · have ended : stream.hasNext = false := by simpa [name] using unlooked
      rw [pending_of_end ended, tokensOf] at pending
      obtain rfl : [] = behind := by simpa using pending
      simp [calledBy]
    · simp [calledBy, name]

/-- Resolving reads the pending items. Every token that is looked at is pending again. -/
theorem resolveOnto_eq_tokensOf (catalog : Catalog) (read : List ResolvedToken)
    (stream : TokenStream) :
    stream.resolveOnto catalog read =
      (tokensOf stream.pending).map (read.reverse ++ resolveTokens catalog ·) := by
  fun_induction resolveOnto catalog read stream with
  | case1 read stream more step fault item =>
      rw [pending_of_hasNext more, show stream.next.1 = _ from item, tokensOf]
      rfl
  | case2 read stream more step token item look fault looked =>
      rw [pending_of_hasNext more, show stream.next.1 = _ from item, tokensOf,
        tokensOf_of_callee_error looked]
      rfl
  | case3 read stream more step token item look procedure looked ih =>
      rw [ih, pending_callee looked, pending_of_hasNext more, show stream.next.1 = _ from item,
        tokensOf]
      cases pending : tokensOf step.2.pending with
      | error fault => rfl
      | ok behind =>
          rw [callee_eq_calledBy looked pending]
          simp [Except.map, resolveTokens]
  | case4 read stream ended =>
      rw [pending_of_end (by simpa using ended), tokensOf]
      simp [Except.map, resolveTokens]

end TokenStream

theorem resolve_eq_map_tokens (catalog : Catalog) (statement : String) :
    resolve catalog statement = (tokens statement).map (resolveTokens catalog) := by
  rw [resolve, TokenStream.resolveOnto_eq_tokensOf, ← TokenStream.collect_eq_tokensOf]
  rfl

/-! ## Parentheses -/

private theorem opens_ofText_iff {text : List Char} :
    (Token.ofText (String.ofList text)).kind = .symbol .openParenthesis ↔ text = ['('] := by
  rw [Token.ofText, Kind.ofText_eq_symbol_iff]
  constructor
  · intro same
    have chars := congrArg String.toList same
    rw [String.toList_ofList] at chars
    exact chars
  · rintro rfl
    rfl

theorem Lexeme.Fits.opens_iff {lexeme : Lexeme} {behind : List Char} {token : Token}
    (fits : lexeme.Fits behind) (meaning : lexeme.toToken = .ok token) :
    token.kind = .symbol .openParenthesis ↔
      lexeme = .sign ['('] ∨ ∃ closed, lexeme = .quoted '"' ['('] closed := by
  cases lexeme with
  | quoted quote text closed =>
      obtain rfl := Except.ok.inj meaning
      have quotes : isQuote quote = true := by cases fits <;> assumption
      rw [isQuote, Bool.or_eq_true, beq_iff_eq, beq_iff_eq] at quotes
      rcases quotes with rfl | rfl
      · simp [Token.ofLiteral]
      · simp [opens_ofText_iff]
  | sign text =>
      obtain rfl := Except.ok.inj meaning
      simp [opens_ofText_iff]
  | word text =>
      obtain rfl := Except.ok.inj meaning
      have free : ∀ char ∈ text, isFree char = true := by cases fits; assumption
      have unlike : text ≠ ['('] := by
        rintro rfl
        exact absurd (free '(' List.mem_cons_self) (by decide)
      simp [opens_ofText_iff, unlike]
  | number text =>
      obtain rfl := Except.ok.inj meaning
      have unlike : text ≠ ['('] := by
        rintro rfl
        cases fits with
        | number numeral =>
            obtain ⟨first, run, shape, digit, -⟩ := numeral
            obtain ⟨rfl, rfl⟩ : '(' = first ∧ [] = run := by simpa using shape
            exact absurd digit (by decide)
      simp [opens_ofText_iff, unlike]
  | malformed fragment => cases meaning

/-- Resolving the calls of a statement gives its fault or its tokens. A token calls a procedure if
it is an identifier of the catalog in front of an opening parenthesis, whether bare or quoted. -/
theorem resolve_reads_tokens (catalog : Catalog) (statement : String) :
    (∀ fault, resolve catalog statement = .error fault ↔ tokens statement = .error fault) ∧
    (∀ resolved, resolve catalog statement = .ok resolved →
      tokens statement = .ok (resolved.map ResolvedToken.token) ∧
      ∀ place entry, resolved[place]? = some entry → ∀ procedure,
        entry.procedure = some procedure ↔
          entry.token.kind = .identifier ∧
          (∃ follower, resolved[place + 1]? = some follower ∧
            follower.token.kind = .symbol .openParenthesis) ∧
          catalog.find? entry.token.text = some procedure) ∧
    (∀ (lexeme : Lexeme) behind token, lexeme.Fits behind → lexeme.toToken = .ok token →
      (token.kind = .symbol .openParenthesis ↔
        lexeme = .sign ['('] ∨ ∃ closed, lexeme = .quoted '"' ['('] closed)) := by
  have agrees := resolve_eq_map_tokens catalog statement
  refine ⟨?_, ?_, fun _ _ _ fits meaning => fits.opens_iff meaning⟩
  · intro fault
    rw [agrees]
    cases tokens statement <;> simp [Except.map]
  · intro resolved succeeds
    rw [agrees] at succeeds
    cases read_eq : tokens statement with
    | error fault => simp [read_eq, Except.map] at succeeds
    | ok read =>
        obtain rfl : resolveTokens catalog read = resolved := by
          simpa [read_eq, Except.map] using succeeds
        rw [map_token_resolveTokens]
        refine ⟨rfl, ?_⟩
        intro place entry at_place procedure
        rw [getElem?_resolveTokens] at at_place
        obtain ⟨token, -, rfl⟩ := Option.map_eq_some_iff.mp at_place
        rw [calledBy_eq_some_iff, List.head?_drop, getElem?_resolveTokens]
        refine and_congr_right fun _ => and_congr_left fun _ => ⟨?_, ?_⟩
        · rintro ⟨follower, next, opens⟩
          exact ⟨_, Option.map_eq_some_iff.mpr ⟨follower, next, rfl⟩, opens⟩
        · rintro ⟨entry, next, opens⟩
          obtain ⟨follower, behind, rfl⟩ := Option.map_eq_some_iff.mp next
          exact ⟨follower, behind, opens⟩

end SqlMemo.Sql
