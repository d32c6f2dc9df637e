import SqlMemo.Sql.Lexeme
import SqlMemo.Proofs.Sql.Spelling

/-!
# The grammar of lexemes

Which stretches of a statement are lexemes, said without reading from left to right. Whether a
stretch is a lexeme depends on the text behind it, because the longest one is taken. Reading finds
exactly the lexeme that the grammar allows. The token that a lexeme stands for has its text, without
quotes, and the kind that the quotes and the text call for.
-/

set_option autoImplicit false

namespace SqlMemo.Sql

/-! ## Character classes -/

theorem isFree_iff {char : Char} : isFree char = true ↔
    isSeparator char = false ∧ isSpecial char = false ∧ isOperator char = false := by
  simp [isFree, and_assoc]

theorem isFree_of_isQuote {char : Char} (quote : isQuote char = true) : isFree char = true := by
  simp only [isQuote, Bool.or_eq_true, beq_iff_eq] at quote
  rcases quote with rfl | rfl <;> rfl

theorem isSpecial_disjoint {char : Char} (special : isSpecial char = true) :
    isSeparator char = false ∧ isQuote char = false := by
  simp only [isSpecial, Bool.or_eq_true, beq_iff_eq] at special
  rcases special with (((((((rfl | rfl) | rfl) | rfl) | rfl) | rfl) | rfl) | rfl) <;>
    exact ⟨rfl, rfl⟩

theorem isOperator_disjoint {char : Char} (operator : isOperator char = true) :
    isSeparator char = false ∧ isQuote char = false ∧ isSpecial char = false := by
  simp only [isOperator, Bool.or_eq_true, beq_iff_eq] at operator
  rcases operator with ((rfl | rfl) | rfl) | rfl <;> exact ⟨rfl, rfl, rfl⟩

theorem isDigit_disjoint {char : Char} (digit : char.isDigit = true) :
    isFree char = true ∧ isQuote char = false := by
  have excluded : ∀ other : Char, other.isDigit = false → char ≠ other := by
    rintro other noDigit rfl
    simp [noDigit] at digit
  simp [isFree, isSeparator, isSpecial, isOperator, isQuote, excluded]

/-! ## Lexemes -/

/-- The two characters that are an operator together. -/
def IsPair (first second : Char) : Prop :=
  first = '<' ∧ second = '>' ∨ first = '!' ∧ second = '='

/-- A digit with free characters and points behind it. -/
def IsNumeral (text : List Char) : Prop :=
  ∃ first run, text = first :: run ∧ first.isDigit = true ∧
    ∀ char ∈ run, isFree char = true ∨ char = '.'

/-- A numeral with one point is a point between two runs of free characters. -/
private theorem IsNumeral.split {text : List Char} (numeral : IsNumeral text)
    (onePoint : text.count '.' = 1) :
    ∃ first whole fraction, text = first :: whole ++ '.' :: fraction ∧ first.isDigit = true ∧
      (∀ char ∈ whole, isFree char = true) ∧ ∀ char ∈ fraction, isFree char = true := by
  obtain ⟨first, run, rfl, digit, run_chars⟩ := numeral
  have first_free := (isDigit_disjoint digit).1
  have different : first ≠ '.' := by
    rintro rfl
    exact absurd first_free (by decide)
  -- The run has one point, so there is none on either side of it.
  have run_onePoint : run.count '.' = 1 := by
    rwa [List.count_cons_of_ne different] at onePoint
  have member : '.' ∈ run := by
    rw [← List.count_pos_iff, run_onePoint]
    exact Nat.one_pos
  obtain ⟨whole, fraction, rfl⟩ := List.append_of_mem member
  rw [List.count_append, List.count_cons_self] at run_onePoint
  have whole_noPoint : '.' ∉ whole := List.count_eq_zero.mp (by omega)
  have fraction_noPoint : '.' ∉ fraction := List.count_eq_zero.mp (by omega)
  refine ⟨first, whole, fraction, rfl, digit, ?_, ?_⟩
  · intro char member
    rcases run_chars char (List.mem_append_left _ member) with free | rfl
    · exact free
    · exact absurd member whole_noPoint
  · intro char member
    rcases run_chars char (List.mem_append_right _ (List.mem_cons_of_mem _ member)) with free | rfl
    · exact free
    · exact absurd member fraction_noPoint

/-- A numeral without a point is a run of free characters. -/
private theorem IsNumeral.run_free {text : List Char} (numeral : IsNumeral text)
    (noPoint : text.count '.' = 0) :
    ∃ first run, text = first :: run ∧ first.isDigit = true ∧
      ∀ char ∈ run, isFree char = true := by
  obtain ⟨first, run, rfl, digit, run_chars⟩ := numeral
  have absent : '.' ∉ first :: run := List.count_eq_zero.mp noPoint
  refine ⟨first, run, rfl, digit, ?_⟩
  intro char member
  rcases run_chars char member with free | rfl
  · exact free
  · exact absurd (List.mem_cons_of_mem _ member) absent

/-- A run of free characters is over in front of a text. -/
def RunEnds (behind : List Char) : Prop :=
  ∀ next, behind.head? = some next → isFree next = false

/-- A lexeme is well formed and the longest one in front of a text. -/
inductive Lexeme.Fits : Lexeme → List Char → Prop where
  | closed {quote : Char} {text behind : List Char} :
      isQuote quote = true → behind.head? ≠ some quote → Fits (.quoted quote text true) behind
  | unclosed {quote : Char} {text : List Char} :
      isQuote quote = true → Fits (.quoted quote text false) []
  | special {char : Char} {behind : List Char} :
      isSpecial char = true → Fits (.sign [char]) behind
  | pair {first second : Char} {behind : List Char} :
      IsPair first second → Fits (.sign [first, second]) behind
  | operator {char : Char} {behind : List Char} :
      isOperator char = true → (∀ next, behind.head? = some next → ¬ IsPair char next) →
      Fits (.sign [char]) behind
  | word {first : Char} {run behind : List Char} :
      (∀ char ∈ first :: run, isFree char = true) → isQuote first = false →
      first.isDigit = false → RunEnds behind → Fits (.word (first :: run)) behind
  | number {text behind : List Char} :
      IsNumeral text → text.count '.' ≤ 1 → RunEnds behind → behind.head? ≠ some '.' →
      Fits (.number text) behind
  | malformed {text behind : List Char} :
      IsNumeral text → text.count '.' = 1 → Fits (.malformed (text ++ ['.'])) behind

namespace Lexeme

/-! ## What is read is a lexeme -/

private theorem runEnds_dropWhile (text : List Char) : RunEnds (text.dropWhile isFree) := by
  intro next head
  simpa [head] using List.head?_dropWhile_not isFree text

private theorem forall_mem_takeWhile (text : List Char) :
    ∀ char ∈ text.takeWhile isFree, isFree char = true := by
  simpa only [List.all_eq_true] using List.all_takeWhile (p := isFree) (l := text)

theorem count_point_eq_zero {run : List Char} (free : ∀ char ∈ run, isFree char = true) :
    run.count '.' = 0 := by
  rw [List.count_eq_zero]
  intro member
  exact absurd (free _ member) (by decide)

private theorem readQuoted_fits {quote : Char} (isQuote : isQuote quote = true)
    (read rest : List Char) :
    (readQuoted quote read rest).1.Fits (readQuoted quote read rest).2 := by
  fun_induction readQuoted quote read rest with
  | case1 read => exact .unclosed isQuote
  | case2 read => exact .closed isQuote (by simp)
  | case3 read behind ih => exact ih
  | case4 read next behind different => exact .closed isQuote (by simpa using different)
  | case5 read char rest different ih => exact ih

private theorem readOperator_fits {first : Char} (operator : isOperator first = true)
    (rest : List Char) : (readOperator first rest).1.Fits (readOperator first rest).2 := by
  fun_cases readOperator first rest with
  | case1 => exact .operator operator (by simp)
  | case2 next rest pair => exact .pair pair
  | case3 next rest single => exact .operator operator (by simpa [IsPair] using single)

private theorem readWord_fits {first : Char} (free : isFree first = true)
    (noQuote : isQuote first = false) (noDigit : first.isDigit = false) (rest : List Char) :
    (readWord first rest).1.Fits (readWord first rest).2 := by
  refine .word ?_ noQuote noDigit (runEnds_dropWhile rest)
  rintro char member
  rcases List.mem_cons.mp member with rfl | member
  · exact free
  · exact forall_mem_takeWhile rest char member

private theorem readFraction_fits {whole : List Char} (numeral : IsNumeral whole)
    (noPoint : whole.count '.' = 0) (rest : List Char) :
    (readFraction whole rest).1.Fits (readFraction whole rest).2 := by
  obtain ⟨first, run, rfl, digit, run_chars⟩ := numeral
  have fraction_free := forall_mem_takeWhile rest
  have numeral : IsNumeral (first :: run ++ '.' :: rest.takeWhile isFree) := by
    refine ⟨first, run ++ '.' :: rest.takeWhile isFree, rfl, digit, ?_⟩
    intro char member
    rcases List.mem_append.mp member with member | member
    · exact run_chars char member
    rcases List.mem_cons.mp member with rfl | member
    · exact .inr rfl
    · exact .inl (fraction_free char member)
  have onePoint : (first :: run ++ '.' :: rest.takeWhile isFree).count '.' = 1 := by
    rw [List.count_append, noPoint, List.count_cons_self, count_point_eq_zero fraction_free]
  unfold readFraction
  split
  · exact .malformed numeral onePoint
  · rename_i noFurtherPoint
    refine .number numeral (Nat.le_of_eq onePoint) (runEnds_dropWhile rest) ?_
    intro head
    obtain ⟨behind, shape⟩ := List.head?_eq_some_iff.mp head
    exact noFurtherPoint behind shape

private theorem readNumber_fits {first : Char} (digit : first.isDigit = true) (rest : List Char) :
    (readNumber first rest).1.Fits (readNumber first rest).2 := by
  have run_free := forall_mem_takeWhile rest
  have numeral : IsNumeral (first :: rest.takeWhile isFree) :=
    ⟨first, _, rfl, digit, fun char member => .inl (run_free char member)⟩
  have noPoint : (first :: rest.takeWhile isFree).count '.' = 0 := by
    apply count_point_eq_zero
    intro char member
    rcases List.mem_cons.mp member with rfl | member
    · exact (isDigit_disjoint digit).1
    · exact run_free char member
  unfold readNumber
  split
  · exact readFraction_fits numeral noPoint _
  · rename_i noFurtherPoint
    refine .number numeral (Nat.le_trans (Nat.le_of_eq noPoint) (Nat.zero_le 1))
      (runEnds_dropWhile rest) ?_
    intro head
    obtain ⟨behind, shape⟩ := List.head?_eq_some_iff.mp head
    exact noFurtherPoint behind shape

/-- Every lexeme that is read fits in front of what is left unread. -/
theorem read_fits {first : Char} (visible : isSeparator first = false) (rest : List Char) :
    (read first rest).1.Fits (read first rest).2 := by
  unfold read
  split
  · rename_i quote
    exact readQuoted_fits quote [] rest
  split
  · rename_i special
    exact .special special
  split
  · rename_i operator
    exact readOperator_fits operator rest
  split
  · rename_i digit
    exact readNumber_fits digit rest
  · rename_i noQuote noSpecial noOperator noDigit
    simp only [Bool.not_eq_true] at noQuote noSpecial noOperator noDigit
    exact readWord_fits (isFree_iff.mpr ⟨visible, noSpecial, noOperator⟩) noQuote noDigit rest

/-! ## What is a lexeme is read -/

private theorem takeWhile_run {run behind : List Char} (free : ∀ char ∈ run, isFree char = true)
    (ends : RunEnds behind) : (run ++ behind).takeWhile isFree = run := by
  rw [List.takeWhile_append_of_pos free]
  cases behind with
  | nil => simp
  | cons next behind => simp [ends next rfl]

private theorem dropWhile_run {run behind : List Char} (free : ∀ char ∈ run, isFree char = true)
    (ends : RunEnds behind) : (run ++ behind).dropWhile isFree = behind := by
  rw [List.dropWhile_append_of_pos free]
  cases behind with
  | nil => rfl
  | cons next behind => simp [ends next rfl]

private theorem runEnds_point (behind : List Char) : RunEnds ('.' :: behind) := by
  intro next head
  cases head
  rfl

private theorem readQuoted_of_ne {quote char : Char} (different : char ≠ quote)
    (read rest : List Char) :
    readQuoted quote read (char :: rest) = readQuoted quote (char :: read) rest := by
  rw [readQuoted.eq_def]
  simp [different]

private theorem readQuoted_closed {quote : Char} {behind : List Char}
    (noQuote : behind.head? ≠ some quote) (read text : List Char) :
    readQuoted quote read (doubleQuotes quote text ++ quote :: behind) =
      (.quoted quote (read.reverse ++ text) true, behind) := by
  induction text generalizing read with
  | nil =>
      cases behind with
      | nil => simp [doubleQuotes, readQuoted]
      | cons next behind =>
          have different : next ≠ quote := by simpa using noQuote
          simp [doubleQuotes, readQuoted, different]
  | cons char text ih =>
      by_cases same : char = quote
      · subst char
        simpa [doubleQuotes, readQuoted] using ih (quote :: read)
      · simpa [doubleQuotes, readQuoted_of_ne same, same] using ih (char :: read)

private theorem readQuoted_unclosed (quote : Char) (read text : List Char) :
    readQuoted quote read (doubleQuotes quote text) =
      (.quoted quote (read.reverse ++ text) false, []) := by
  induction text generalizing read with
  | nil => simp [doubleQuotes, readQuoted]
  | cons char text ih =>
      by_cases same : char = quote
      · subst char
        simpa [doubleQuotes, readQuoted] using ih (quote :: read)
      · simpa [doubleQuotes, readQuoted_of_ne same, same] using ih (char :: read)

private theorem readNumber_point {whole : List Char} (first : Char)
    (free : ∀ char ∈ whole, isFree char = true) (behind : List Char) :
    readNumber first (whole ++ '.' :: behind) = readFraction (first :: whole) behind := by
  simp only [readNumber, takeWhile_run free (runEnds_point behind),
    dropWhile_run free (runEnds_point behind)]

private theorem readNumber_number {first : Char} {text run behind : List Char}
    (shape : text = first :: run) (numeral : IsNumeral text) (points : text.count '.' ≤ 1)
    (ends : RunEnds behind) (noPoint : behind.head? ≠ some '.') :
    readNumber first (run ++ behind) = (.number text, behind) := by
  have stops : ∀ tail, behind ≠ '.' :: tail := by
    rintro tail rfl
    exact noPoint rfl
  rcases Nat.le_one_iff_eq_zero_or_eq_one.mp points with none | one
  · obtain ⟨first', run', shape', -, free⟩ := numeral.run_free none
    obtain ⟨rfl, rfl⟩ : first = first' ∧ run = run' := by simpa [shape] using shape'
    simp only [readNumber, takeWhile_run free ends, dropWhile_run free ends]
    rw [shape]
  · obtain ⟨first', whole, fraction, shape', -, whole_free, fraction_free⟩ := numeral.split one
    obtain ⟨rfl, rfl⟩ : first = first' ∧ run = whole ++ '.' :: fraction := by
      simpa [shape] using shape'
    rw [List.append_assoc, List.cons_append, readNumber_point first whole_free]
    simp only [readFraction, takeWhile_run fraction_free ends, dropWhile_run fraction_free ends]
    rw [shape']

private theorem readNumber_malformed {first : Char} {text run : List Char}
    (shape : text = first :: run) (numeral : IsNumeral text) (points : text.count '.' = 1)
    (behind : List Char) :
    readNumber first (run ++ ['.'] ++ behind) = (.malformed (text ++ ['.']), behind) := by
  obtain ⟨first', whole, fraction, shape', -, whole_free, fraction_free⟩ := numeral.split points
  obtain ⟨rfl, rfl⟩ : first = first' ∧ run = whole ++ '.' :: fraction := by
    simpa [shape] using shape'
  have regroup : whole ++ '.' :: fraction ++ ['.'] ++ behind =
      whole ++ '.' :: (fraction ++ '.' :: behind) := by simp
  rw [regroup, readNumber_point first whole_free]
  simp only [readFraction, takeWhile_run fraction_free (runEnds_point behind),
    dropWhile_run fraction_free (runEnds_point behind), shape']

/-- Every lexeme begins with a visible character, and where it fits it is what is read. -/
theorem Fits.read {lexeme : Lexeme} {behind : List Char} (fits : lexeme.Fits behind) :
    ∃ first rest, lexeme.source = first :: rest ∧ isSeparator first = false ∧
      Lexeme.read first (rest ++ behind) = (lexeme, behind) := by
  cases fits with
  | @closed quote text behind isQuote noQuote =>
      refine ⟨quote, doubleQuotes quote text ++ [quote], rfl,
        (isFree_iff.mp (isFree_of_isQuote isQuote)).1, ?_⟩
      rw [Lexeme.read, if_pos isQuote, List.append_assoc, List.singleton_append,
        readQuoted_closed noQuote]
      rfl
  | @unclosed quote text isQuote =>
      refine ⟨quote, doubleQuotes quote text ++ [], rfl,
        (isFree_iff.mp (isFree_of_isQuote isQuote)).1, ?_⟩
      rw [Lexeme.read, if_pos isQuote, List.append_nil, List.append_nil, readQuoted_unclosed]
      rfl
  | @special char _ special =>
      obtain ⟨visible, noQuote⟩ := isSpecial_disjoint special
      exact ⟨char, [], rfl, visible, by simp [Lexeme.read, noQuote, special]⟩
  | @pair first second _ isPair =>
      have operator : isOperator first = true := by
        rcases isPair with ⟨rfl, rfl⟩ | ⟨rfl, rfl⟩ <;> rfl
      obtain ⟨visible, noQuote, noSpecial⟩ := isOperator_disjoint operator
      refine ⟨first, [second], rfl, visible, ?_⟩
      have paired : first = '<' ∧ second = '>' ∨ first = '!' ∧ second = '=' := isPair
      simp [Lexeme.read, noQuote, noSpecial, operator, readOperator, paired]
  | @operator char _ operator single =>
      obtain ⟨visible, noQuote, noSpecial⟩ := isOperator_disjoint operator
      refine ⟨char, [], rfl, visible, ?_⟩
      cases behind with
      | nil => simp [Lexeme.read, noQuote, noSpecial, operator, readOperator]
      | cons next behind =>
          have unpaired : ¬ (char = '<' ∧ next = '>' ∨ char = '!' ∧ next = '=') := single next rfl
          simp [Lexeme.read, noQuote, noSpecial, operator, readOperator, unpaired]
  | @word first run _ free noQuote noDigit ends =>
      obtain ⟨visible, noSpecial, noOperator⟩ := isFree_iff.mp (free first List.mem_cons_self)
      have run_free : ∀ char ∈ run, isFree char = true :=
        fun char member => free char (List.mem_cons_of_mem _ member)
      refine ⟨first, run, rfl, visible, ?_⟩
      simp [Lexeme.read, noQuote, noSpecial, noOperator, noDigit, readWord,
        takeWhile_run run_free ends, dropWhile_run run_free ends]
  | @number text _ numeral points ends noPoint =>
      obtain ⟨first, run, shape, digit, -⟩ := id numeral
      obtain ⟨free, noQuote⟩ := isDigit_disjoint digit
      obtain ⟨visible, noSpecial, noOperator⟩ := isFree_iff.mp free
      refine ⟨first, run, shape, visible, ?_⟩
      simp [Lexeme.read, noQuote, noSpecial, noOperator, digit,
        readNumber_number shape numeral points ends noPoint]
  | @malformed text _ numeral points =>
      obtain ⟨first, run, shape, digit, -⟩ := id numeral
      obtain ⟨free, noQuote⟩ := isDigit_disjoint digit
      obtain ⟨visible, noSpecial, noOperator⟩ := isFree_iff.mp free
      refine ⟨first, run ++ ['.'], by rw [source, shape, List.cons_append], visible, ?_⟩
      rw [Lexeme.read, if_neg (by simp [noQuote]), if_neg (by simp [noSpecial]),
        if_neg (by simp [noOperator]), if_pos digit, readNumber_malformed shape numeral points]

/-! ## Tokens of lexemes -/

/-- The token that a lexeme stands for. A text in single quotes is a literal, and every other text
has the kind that suits it. A malformed number stands for none. -/
inductive StandsFor : Lexeme → Token → Prop where
  | literal (text : List Char) (closed : Bool) :
      StandsFor (.quoted '\'' text closed) ⟨.character, String.ofList text⟩
  | quoted {quote : Char} {text : List Char} {kind : Kind} (closed : Bool) :
      quote ≠ '\'' → kind.Suits (String.ofList text) →
      StandsFor (.quoted quote text closed) ⟨kind, String.ofList text⟩
  | sign {text : List Char} {kind : Kind} :
      kind.Suits (String.ofList text) → StandsFor (.sign text) ⟨kind, String.ofList text⟩
  | word {text : List Char} {kind : Kind} :
      kind.Suits (String.ofList text) → StandsFor (.word text) ⟨kind, String.ofList text⟩
  | number {text : List Char} {kind : Kind} :
      kind.Suits (String.ofList text) → StandsFor (.number text) ⟨kind, String.ofList text⟩

section

variable {lexeme : Lexeme} {token : Token}

theorem StandsFor.toToken_eq (stands : lexeme.StandsFor token) : lexeme.toToken = .ok token := by
  cases stands with
  | literal => rfl
  | quoted _ double suits => rw [toToken, if_neg double, Token.ofText, suits.ofText_eq]
  | sign suits | word suits | number suits => rw [toToken, Token.ofText, suits.ofText_eq]

theorem standsFor_of_toToken (meaning : lexeme.toToken = .ok token) : lexeme.StandsFor token := by
  cases lexeme with
  | quoted quote text closed =>
      obtain rfl := Except.ok.inj meaning
      split
      · subst quote
        exact .literal text closed
      · rename_i double
        exact .quoted closed double (Kind.suits_ofText _)
  | sign text =>
      obtain rfl := Except.ok.inj meaning
      exact .sign (Kind.suits_ofText _)
  | word text =>
      obtain rfl := Except.ok.inj meaning
      exact .word (Kind.suits_ofText _)
  | number text =>
      obtain rfl := Except.ok.inj meaning
      exact .number (Kind.suits_ofText _)
  | malformed => cases meaning

theorem toToken_eq_ok_iff : lexeme.toToken = .ok token ↔ lexeme.StandsFor token :=
  ⟨standsFor_of_toToken, StandsFor.toToken_eq⟩

end

end Lexeme

end SqlMemo.Sql
