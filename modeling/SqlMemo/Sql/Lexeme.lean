import SqlMemo.Sql.Token

/-!
# Lexemes

A lexeme is a stretch of a statement that stands for one token, or for one fault. Reading always
takes the longest lexeme, and it keeps every character: a lexeme's source followed by what was left
unread is what there was to read.
-/

set_option autoImplicit false

namespace SqlMemo.Sql

/-- A stretch of a statement.

* `quoted`: a text between two quotes, each quote inside it written twice. The closing quote may
  be missing at the end of the statement.
* `sign`: a special character, an operator character, or one of the pairs `<>` and `!=`.
* `word`: a run of free characters with no quote and no digit in front.
* `number`: a run with a digit in front, of free characters and at most one point.
* `malformed`: such a run up to and with its second point. -/
inductive Lexeme where
  | quoted (quote : Char) (text : List Char) (closed : Bool)
  | sign (text : List Char)
  | word (text : List Char)
  | number (text : List Char)
  | malformed (fragment : List Char)
  deriving DecidableEq, Repr

namespace Lexeme

/-- A text with every quote in it written twice. -/
def doubleQuotes (quote : Char) (text : List Char) : List Char :=
  text.flatMap fun char => if char = quote then [quote, quote] else [char]

/-- The characters of the statement that a lexeme consists of. -/
def source : Lexeme → List Char
  | quoted quote text closed =>
    quote :: doubleQuotes quote text ++ if closed then [quote] else []
  | sign text | word text | number text | malformed text => text

/-! ## Reading -/

/-- Reads a quoted text behind its opening quote and appends it to the reverse of `read`. -/
def readQuoted (quote : Char) (read : List Char) : List Char → Lexeme × List Char
  | [] => (.quoted quote read.reverse false, [])
  | char :: rest =>
    if char = quote then
      match rest with
      | [] => (.quoted quote read.reverse true, [])
      | next :: behind =>
        if next = quote then readQuoted quote (quote :: read) behind
        else (.quoted quote read.reverse true, next :: behind)
    else readQuoted quote (char :: read) rest

/-- Reads an operator behind its first character. -/
def readOperator (first : Char) : List Char → Lexeme × List Char
  | [] => (.sign [first], [])
  | next :: rest =>
    if (first = '<' ∧ next = '>') ∨ (first = '!' ∧ next = '=') then (.sign [first, next], rest)
    else (.sign [first], next :: rest)

def readWord (first : Char) (rest : List Char) : Lexeme × List Char :=
  (.word (first :: rest.takeWhile isFree), rest.dropWhile isFree)

def readFraction (whole rest : List Char) : Lexeme × List Char :=
  let text := whole ++ '.' :: rest.takeWhile isFree
  match rest.dropWhile isFree with
  | '.' :: behind => (.malformed (text ++ ['.']), behind)
  | behind => (.number text, behind)

def readNumber (first : Char) (rest : List Char) : Lexeme × List Char :=
  let whole := first :: rest.takeWhile isFree
  match rest.dropWhile isFree with
  | '.' :: behind => readFraction whole behind
  | behind => (.number whole, behind)

/-- Reads the lexeme whose first character is `first`, which is no separator. -/
def read (first : Char) (rest : List Char) : Lexeme × List Char :=
  if isQuote first then readQuoted first [] rest
  else if isSpecial first then (.sign [first], rest)
  else if isOperator first then readOperator first rest
  else if first.isDigit then readNumber first rest
  else readWord first rest

/-! ## Meaning -/

/-- The token that a lexeme stands for, or the fragment that stands for none. -/
def toToken : Lexeme → Except String Token
  | quoted quote text _ =>
    let text := String.ofList text
    .ok (if quote = '\'' then .ofLiteral text else .ofText text)
  | sign text | word text | number text => .ok (.ofText (String.ofList text))
  | malformed fragment => .error (String.ofList fragment)

/-! ## Nothing is lost -/

@[simp] theorem doubleQuotes_append (quote : Char) (left right : List Char) :
    doubleQuotes quote (left ++ right) = doubleQuotes quote left ++ doubleQuotes quote right := by
  simp [doubleQuotes]

private theorem readQuoted_source (quote : Char) (read rest : List Char) :
    (readQuoted quote read rest).1.source ++ (readQuoted quote read rest).2 =
      quote :: doubleQuotes quote read.reverse ++ rest := by
  fun_induction readQuoted quote read rest with
  | case1 read => simp [source]
  | case2 read => simp [source]
  | case3 read behind ih => simpa [doubleQuotes] using ih
  | case4 read next behind different => simp [source]
  | case5 read char rest different ih => simpa [doubleQuotes, different] using ih

private theorem readOperator_source (first : Char) (rest : List Char) :
    (readOperator first rest).1.source ++ (readOperator first rest).2 = first :: rest := by
  fun_cases readOperator first rest <;> simp [source]

private theorem readWord_source (first : Char) (rest : List Char) :
    (readWord first rest).1.source ++ (readWord first rest).2 = first :: rest := by
  simp [readWord, source, List.takeWhile_append_dropWhile]

private theorem readFraction_source (whole rest : List Char) :
    (readFraction whole rest).1.source ++ (readFraction whole rest).2 = whole ++ '.' :: rest := by
  have halves := rest.takeWhile_append_dropWhile (p := isFree)
  unfold readFraction
  split
  · rename_i behind dropped
    rw [dropped] at halves
    simp [source, halves]
  · simp [source, halves]

private theorem readNumber_source (first : Char) (rest : List Char) :
    (readNumber first rest).1.source ++ (readNumber first rest).2 = first :: rest := by
  have halves := rest.takeWhile_append_dropWhile (p := isFree)
  unfold readNumber
  split
  · rename_i behind dropped
    rw [dropped] at halves
    simp [readFraction_source, halves]
  · simp [source, halves]

/-- A lexeme's source and the unread rest make up what was read. -/
theorem read_source (first : Char) (rest : List Char) :
    (read first rest).1.source ++ (read first rest).2 = first :: rest := by
  unfold read
  split
  · simpa [doubleQuotes] using readQuoted_source first [] rest
  split
  · simp [source]
  split
  · exact readOperator_source first rest
  split
  · exact readNumber_source first rest
  · exact readWord_source first rest

private theorem readQuoted_length (quote : Char) (read rest : List Char) :
    (readQuoted quote read rest).2.length ≤ rest.length := by
  fun_induction readQuoted quote read rest with
  | case1 read => simp
  | case2 read => simp
  | case3 read behind ih => simp only [List.length_cons]; omega
  | case4 read next behind different => simp
  | case5 read char rest different ih => exact Nat.le_succ_of_le ih

theorem length_read_le (first : Char) (rest : List Char) :
    (read first rest).2.length ≤ rest.length := by
  by_cases quoted : isQuote first
  · rw [read, if_pos quoted]
    exact readQuoted_length first [] rest
  · have kept := congrArg List.length (read_source first rest)
    have nonempty : (read first rest).1.source ≠ [] := by
      unfold read readOperator readNumber readFraction readWord
      grind [source]
    have positive := List.length_pos_iff.mpr nonempty
    simp only [List.length_append, List.length_cons] at kept
    omega

end Lexeme

end SqlMemo.Sql
