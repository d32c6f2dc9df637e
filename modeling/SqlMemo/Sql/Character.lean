/-!
# Character classes of statements

Four disjoint classes of characters shape a statement: separators, special characters, quotes and
operator characters. All other characters make up words and numbers.
-/

set_option autoImplicit false

namespace SqlMemo.Sql

/-- A separator stands between lexemes and belongs to none. -/
def isSeparator (char : Char) : Bool :=
  char == ' ' || char == '\t' || char == '\n' || char == '\r' || char == '\x00'

/-- A special character is a lexeme of its own, except for a point inside a number. -/
def isSpecial (char : Char) : Bool :=
  char == '(' || char == ')' || char == '+' || char == '-' || char == ',' || char == '.' ||
    char == '=' || char == ';'

/-- A quote opens a quoted lexeme. -/
def isQuote (char : Char) : Bool :=
  char == '\'' || char == '"'

/-- An operator character is a lexeme of its own or with the one behind it. -/
def isOperator (char : Char) : Bool :=
  char == '<' || char == '>' || char == '!' || char == '*'

/-- A free character does not end the word or number that it stands in. A quote inside a word is
free. -/
def isFree (char : Char) : Bool :=
  !isSeparator char && !isSpecial char && !isOperator char

/-- Leaves out the separators at both ends. -/
def trimSeparators (chars : List Char) : List Char :=
  ((chars.dropWhile isSeparator).reverse.dropWhile isSeparator).reverse

end SqlMemo.Sql
