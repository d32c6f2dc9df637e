import SqlMemo.Sql.Keyword
import SqlMemo.Sql.Character

/-!
# Tokens

A token is a text with the kind of thing that it stands for. The kind of a bare or double-quoted
text follows from the text alone: a digit in front makes it a number, the spelling of a symbol or
keyword makes it that, and any other text is an identifier.
-/

set_option autoImplicit false

namespace SqlMemo.Sql

inductive Kind where
  | keyword (word : Keyword)
  | symbol (sign : Symbol)
  | character
  | numeric
  | identifier
  deriving DecidableEq, Repr

namespace Kind

/-- All kinds: keywords, symbols, then the kinds without a spelling of their own. -/
def all : List Kind :=
  Keyword.all.map .keyword ++ Symbol.all.map .symbol ++ [.character, .numeric, .identifier]

/-- The spelling of a kind, if its tokens share one. -/
def spelling? : Kind → Option String
  | .keyword word => some word.spelling
  | .symbol sign => some sign.spelling
  | .character | .numeric | .identifier => none

/-- The name by which a kind is reported. A keyword is its own name. -/
def name : Kind → String
  | .keyword word => word.spelling
  | .symbol sign => sign.name
  | .character => "CHARACTER"
  | .numeric => "NUMERIC"
  | .identifier => "IDENTIFIER"

def ofName? (text : String) : Option Kind :=
  all.find? fun kind => kind.name == text

/-- The kind of a text that spells a symbol or a keyword. -/
def ofSpelling? (text : String) : Option Kind :=
  match Symbol.ofText? text with
  | some sign => some (.symbol sign)
  | none => (Keyword.ofText? text).map .keyword

/-- Whether a text has a decimal digit in front. -/
def startsWithDigit (text : String) : Bool :=
  text.toList.head?.any Char.isDigit

/-- The kind of a bare or double-quoted text. -/
def ofText (text : String) : Kind :=
  if startsWithDigit text then .numeric else (ofSpelling? text).getD .identifier

theorem mem_all (kind : Kind) : kind ∈ all := by
  cases kind <;> simp [all, Keyword.mem_all, Symbol.mem_all]

end Kind

structure Token where
  kind : Kind
  text : String
  deriving DecidableEq, Repr

namespace Token

/-- The token of a bare or double-quoted text. -/
def ofText (text : String) : Token :=
  ⟨.ofText text, text⟩

/-- The token of a single-quoted text. -/
def ofLiteral (text : String) : Token :=
  ⟨.character, text⟩

end Token

end SqlMemo.Sql
