import SqlMemo.Text.UpperCase

/-!
# Keywords and symbols

The words and signs of the language. A symbol is recognised by its exact spelling, a keyword by
its spelling in any case.
-/

set_option autoImplicit false

namespace SqlMemo.Sql

inductive Keyword where
  | and | as | between | «by» | delete | distinct | «exists» | «from» | having
  | inner | insert | into | join | left | not | null | on | or | order
  | outer | right | select | update | «where» | xor
  deriving DecidableEq, Repr

/-- The signs of one or two characters. -/
inductive Symbol where
  | asterisk | comma | equals | less | openParenthesis | minus | more
  | unequalAngles | unequalBang | period | plus | closeParenthesis | semicolon
  deriving DecidableEq, Repr

namespace Keyword

def all : List Keyword :=
  [.and, .as, .between, .by, .delete, .distinct, .exists, .from, .having, .inner, .insert, .into,
    .join, .left, .not, .null, .on, .or, .order, .outer, .right, .select, .update, .where, .xor]

/-- The spelling of a keyword, which is in upper case. -/
def spelling : Keyword → String
  | .and => "AND"
  | .as => "AS"
  | .between => "BETWEEN"
  | .by => "BY"
  | .delete => "DELETE"
  | .distinct => "DISTINCT"
  | .exists => "EXISTS"
  | .from => "FROM"
  | .having => "HAVING"
  | .inner => "INNER"
  | .insert => "INSERT"
  | .into => "INTO"
  | .join => "JOIN"
  | .left => "LEFT"
  | .not => "NOT"
  | .null => "NULL"
  | .on => "ON"
  | .or => "OR"
  | .order => "ORDER"
  | .outer => "OUTER"
  | .right => "RIGHT"
  | .select => "SELECT"
  | .update => "UPDATE"
  | .where => "WHERE"
  | .xor => "XOR"

/-- The keyword that a text spells, in any case. -/
def ofText? (text : String) : Option Keyword :=
  let spelled := Text.upper text
  all.find? fun keyword => keyword.spelling == spelled

theorem mem_all (keyword : Keyword) : keyword ∈ all := by
  cases keyword <;> decide

end Keyword

namespace Symbol

def all : List Symbol :=
  [.asterisk, .comma, .equals, .less, .openParenthesis, .minus, .more, .unequalAngles,
    .unequalBang, .period, .plus, .closeParenthesis, .semicolon]

def spelling : Symbol → String
  | .asterisk => "*"
  | .comma => ","
  | .equals => "="
  | .less => "<"
  | .openParenthesis => "("
  | .minus => "-"
  | .more => ">"
  | .unequalAngles => "<>"
  | .unequalBang => "!="
  | .period => "."
  | .plus => "+"
  | .closeParenthesis => ")"
  | .semicolon => ";"

/-- The name by which a symbol is reported. -/
def name : Symbol → String
  | .asterisk => "ASTERISK"
  | .comma => "COMMA"
  | .equals => "EQUALS"
  | .less => "LESS"
  | .openParenthesis => "LPAREN"
  | .minus => "MINUS"
  | .more => "MORE"
  | .unequalAngles => "NOTEQUALS"
  | .unequalBang => "NOTEQUALS2"
  | .period => "PERIOD"
  | .plus => "PLUS"
  | .closeParenthesis => "RPAREN"
  | .semicolon => "SEMI"

def ofText? (text : String) : Option Symbol :=
  all.find? fun symbol => symbol.spelling == text

theorem mem_all (symbol : Symbol) : symbol ∈ all := by
  cases symbol <;> decide

end Symbol

end SqlMemo.Sql
