import SqlMemo.Proofs.Sql.Concatenation

/-!
# Reading step by step

A reader that goes through a text character by character, by numbers alone. It looks one character
ahead by taking it and stepping back, and a step back to the first character of a lexeme is refused.
No step is ever refused, and the reader finds what a token stream holds. Every reading takes it
further on, so all loops over a statement end.
-/

set_option autoImplicit false

namespace SqlMemo.Sql

/-! ## Steps -/

/-- One step back, unless it leads to the first character of a lexeme or before it. -/
def stepBack? (start current : Nat) : Option Nat :=
  if start + 1 < current then some (current - 1) else none

section

variable (text : List Char)

def skipFrom (current : Nat) : Nat :=
  if _ : current < text.length then
    if isSeparator text[current] then skipFrom (current + 1) else current
  else current
termination_by text.length - current

/-- Reads a quoted text on, with the reverse of `read` before it. -/
def quotedFrom? (start : Nat) (quote : Char) (read : List Char) (current : Nat) :
    Option (List Char × Nat) :=
  if _ : current < text.length then
    if text[current] = quote then
      match text[current + 1]? with
      | none => some (read.reverse, current + 1)
      | some next =>
        if next = quote then quotedFrom? start quote (quote :: read) (current + 2)
        else (stepBack? start (current + 2)).map fun current => (read.reverse, current)
    else quotedFrom? start quote (text[current] :: read) (current + 1)
  else some (read.reverse, current)
termination_by text.length - current

def operatorFrom (first : Char) (current : Nat) : List Char × Nat :=
  match text[current]? with
  | none => ([first], current)
  | some next =>
    if (first = '<' ∧ next = '>') ∨ (first = '!' ∧ next = '=') then ([first, next], current + 1)
    else ([first], current)

/-- Whether a word or number ends in front of a character. -/
def endsRun (numeric : Bool) (char : Char) : Bool :=
  isSeparator char || isOperator char || (isSpecial char && !(numeric && char == '.'))

/-- Reads a word or number on from a character that has been taken, with the reverse of `read`
before it. The second point is a fault. -/
def runFrom? (start : Nat) (numeric : Bool) (points : Nat) (read : List Char) (char : Char)
    (current : Nat) : Option (Except (List Char) (List Char) × Nat) :=
  if endsRun numeric char then
    (stepBack? start current).map fun current => (.ok read.reverse, current)
  else
    let points := if char = '.' then points + 1 else points
    if 1 < points then some (.error (char :: read).reverse, current)
    else if _ : current < text.length then
      runFrom? start numeric points (char :: read) text[current] (current + 1)
    else some (.ok (char :: read).reverse, current)
termination_by text.length - current

/-- Reads the item whose first character has been taken. -/
def itemFrom? (start : Nat) (first : Char) (current : Nat) : Option (Item × Nat) :=
  if isQuote first then
    (quotedFrom? text start first [] current).map fun (content, current) =>
      let content := String.ofList content
      (.ok (if first = '\'' then .ofLiteral content else .ofText content), current)
  else if isSpecial first then some (.ok (.ofText (String.ofList [first])), current)
  else if isOperator first then
    let (sign, current) := operatorFrom text first current
    some (.ok (.ofText (String.ofList sign)), current)
  else
    (runFrom? text start first.isDigit 0 [] first current).map fun (outcome, current) =>
      match outcome with
      | .ok content => (.ok (.ofText (String.ofList content)), current)
      | .error fragment => (.error (.malformedNumber (String.ofList fragment) start), current)

end

/-! ## One lexeme -/

section

variable {text : List Char} {start current : Nat}

private theorem getElem_of_drop {char : Char} {rest : List Char}
    (here : text.drop current = char :: rest) :
    ∃ inside : current < text.length, text[current] = char ∧ text.drop (current + 1) = rest := by
  have found : text[current]? = some char := by rw [← List.head?_drop, here, List.head?_cons]
  obtain ⟨inside, same⟩ := List.getElem?_eq_some_iff.mp found
  refine ⟨inside, same, ?_⟩
  rw [← List.drop_drop, here, List.drop_succ_cons, List.drop_zero]

private theorem not_lt_of_drop (ended : text.drop current = []) : ¬ current < text.length :=
  Nat.not_lt.mpr (List.drop_eq_nil_iff.mp ended)

private theorem stepBack?_of_lt (inside : start < current) :
    stepBack? start (current + 1) = some current :=
  if_pos (Nat.succ_lt_succ inside)

theorem skipFrom_of_gap {gap rest : List Char} (separators : Gap gap)
    (visible : ∀ char, rest.head? = some char → isSeparator char = false)
    (here : text.drop current = gap ++ rest) : skipFrom text current = current + gap.length := by
  induction gap generalizing current with
  | nil =>
      cases rest with
      | nil => rw [skipFrom, dif_neg (not_lt_of_drop here)]; rfl
      | cons char rest =>
          obtain ⟨inside, same, -⟩ := getElem_of_drop here
          rw [skipFrom, dif_pos inside, same, visible char rfl]
          rfl
  | cons char gap ih =>
      obtain ⟨inside, same, behind⟩ := getElem_of_drop here
      have later := ih (fun other member => separators other (List.mem_cons_of_mem _ member)) behind
      rw [skipFrom, dif_pos inside, same, if_pos (separators char List.mem_cons_self), later,
        List.length_cons]
      omega

theorem quotedFrom?_of_doubled {quote : Char} {content rest : List Char}
    (here : text.drop current = Lexeme.doubleQuotes quote content ++ rest) (read : List Char) :
    quotedFrom? text start quote read current = quotedFrom? text start quote
      (content.reverse ++ read) (current + (Lexeme.doubleQuotes quote content).length) := by
  induction content generalizing read current with
  | nil => rfl
  | cons char content ih =>
      rw [List.reverse_cons, List.append_assoc, List.singleton_append]
      by_cases same : char = quote
      · subst char
        have doubled : Lexeme.doubleQuotes quote (quote :: content) =
            quote :: quote :: Lexeme.doubleQuotes quote content := by
          simp [Lexeme.doubleQuotes]
        rw [doubled] at here ⊢
        obtain ⟨inside, first, here⟩ := getElem_of_drop here
        obtain ⟨inside', second, here⟩ := getElem_of_drop here
        rw [quotedFrom?, dif_pos inside, if_pos first, List.getElem?_eq_getElem inside', second]
        simp only [if_true]
        rw [ih here, List.length_cons, List.length_cons]
        congr 1
        omega
      · have kept : Lexeme.doubleQuotes quote (char :: content) =
            char :: Lexeme.doubleQuotes quote content := by
          simp [Lexeme.doubleQuotes, same]
        rw [kept] at here ⊢
        obtain ⟨inside, first, here⟩ := getElem_of_drop here
        rw [quotedFrom?, dif_pos inside, first, if_neg same, ih here, List.length_cons]
        congr 1
        omega

theorem quotedFrom?_of_closing {quote : Char} {behind : List Char}
    (here : text.drop current = quote :: behind) (single : behind.head? ≠ some quote)
    (beyond : start < current) (read : List Char) :
    quotedFrom? text start quote read current = some (read.reverse, current + 1) := by
  obtain ⟨inside, first, here⟩ := getElem_of_drop here
  have ahead : text[current + 1]? = behind.head? := by rw [← List.head?_drop, here]
  rw [quotedFrom?, dif_pos inside, if_pos first, ahead]
  cases behind with
  | nil => rfl
  | cons next behind =>
      have different : next ≠ quote := by simpa using single
      simp only [List.head?_cons, if_neg different, stepBack?_of_lt (Nat.lt_succ_of_lt beyond),
        Option.map_some]

theorem quotedFrom?_of_fits {quote : Char} {content tail behind : List Char} {closed : Bool}
    (fits : (Lexeme.quoted quote content closed).Fits behind)
    (source : (Lexeme.quoted quote content closed).source = quote :: tail)
    (here : text.drop (start + 1) = tail ++ behind) :
    quotedFrom? text start quote [] (start + 1) = some (content, start + 1 + tail.length) := by
  cases fits with
  | closed _ single =>
      simp only [Lexeme.source, if_true, List.cons_append, List.cons.injEq, true_and] at source
      subst source
      rw [List.append_assoc, List.singleton_append] at here
      have closing : text.drop (start + 1 + (Lexeme.doubleQuotes quote content).length) =
          quote :: behind := by
        rw [← List.drop_drop, here, List.drop_left]
      rw [quotedFrom?_of_doubled here,
        quotedFrom?_of_closing closing single (Nat.lt_add_right _ (Nat.lt_succ_self start)),
        List.append_nil, List.reverse_reverse, List.length_append]
      rfl
  | unclosed =>
      simp only [Lexeme.source, Bool.false_eq_true, if_false, List.append_nil, List.cons.injEq,
        true_and] at source
      subst source
      have ended : text.drop (start + 1 + (Lexeme.doubleQuotes quote content).length) = [] := by
        rw [← List.drop_drop, here, List.drop_left]
      rw [quotedFrom?_of_doubled here, quotedFrom?, dif_neg (not_lt_of_drop ended),
        List.append_nil, List.reverse_reverse]

theorem endsRun_eq (numeric : Bool) (char : Char) :
    endsRun numeric char = (!isFree char && !(numeric && char == '.')) := by
  by_cases point : char = '.'
  · subst char
    cases numeric <;> rfl
  · have other : (char == '.') = false := by simpa using point
    simp only [endsRun, isFree, other, Bool.and_false, Bool.not_false, Bool.and_true]
    cases isSeparator char <;> cases isOperator char <;> cases isSpecial char <;> rfl

theorem runFrom?_of_char {numeric : Bool} {points : Nat} {char : Char}
    (fits : isFree char = true ∨ (numeric = true ∧ char = '.'))
    (few : points + [char].count '.' ≤ 1) (read : List Char) :
    runFrom? text start numeric points read char current =
      if _ : current < text.length then
        runFrom? text start numeric (points + [char].count '.') (char :: read) text[current]
          (current + 1)
      else some (.ok (char :: read).reverse, current) := by
  have goes : endsRun numeric char = false := by
    rw [endsRun_eq]
    rcases fits with free | ⟨numeric_eq, rfl⟩
    · rw [free]
      rfl
    · rw [numeric_eq]
      rfl
  have points_eq : (if char = '.' then points + 1 else points) = points + [char].count '.' := by
    by_cases point : char = '.' <;> simp [point]
  rw [runFrom?, goes]
  simp only [Bool.false_eq_true, if_false, points_eq, if_neg (Nat.not_lt.mpr few)]

/-- Free characters and points are taken up to the character behind them, if there is no second
point. -/
theorem runFrom?_of_run {numeric : Bool} {points : Nat} {char next : Char}
    {run behind : List Char}
    (fits : ∀ other ∈ char :: run, isFree other = true ∨ (numeric = true ∧ other = '.'))
    (few : points + (char :: run).count '.' ≤ 1) (here : text.drop current = run ++ next :: behind)
    (read : List Char) :
    runFrom? text start numeric points read char current =
      runFrom? text start numeric (points + (char :: run).count '.')
        ((char :: run).reverse ++ read) next (current + run.length + 1) := by
  induction run generalizing char current read points with
  | nil =>
      obtain ⟨inside, same, -⟩ := getElem_of_drop here
      rw [runFrom?_of_char (fits char List.mem_cons_self) few, dif_pos inside, same]
      rfl
  | cons second run ih =>
      have split : (char :: second :: run).count '.' =
          [char].count '.' + (second :: run).count '.' := by
        rw [← List.count_append, List.singleton_append]
      obtain ⟨inside, same, here⟩ := getElem_of_drop here
      rw [runFrom?_of_char (fits char List.mem_cons_self) (by omega), dif_pos inside, same,
        ih (fun other member => fits other (List.mem_cons_of_mem _ member)) (by omega) here, split,
        @List.reverse_cons _ char, List.append_assoc, List.singleton_append, List.length_cons]
      congr 1 <;> omega

/-- At the end of the text a run is over with its last character. -/
theorem runFrom?_of_end {numeric : Bool} {char : Char} {run : List Char}
    (fits : ∀ other ∈ char :: run, isFree other = true ∨ (numeric = true ∧ other = '.'))
    (few : (char :: run).count '.' ≤ 1) (here : text.drop current = run) :
    runFrom? text start numeric 0 [] char current =
      some (.ok (char :: run), current + run.length) := by
  rcases run.eq_nil_or_concat with rfl | ⟨front, last, rfl⟩
  · rw [runFrom?_of_char (fits char List.mem_cons_self) (by rwa [Nat.zero_add]),
      dif_neg (not_lt_of_drop here)]
    rfl
  · rw [List.concat_eq_append] at fits few here ⊢
    rw [← List.cons_append, List.count_append] at few
    have fits_last := fits last (by simp)
    have ended : text.drop (current + front.length + 1) = [] := by
      rw [Nat.add_assoc, ← List.drop_drop, here]
      simp
    have fits_front : ∀ other ∈ char :: front, isFree other = true ∨ (numeric = true ∧ other = '.') :=
      fun other member => fits other (List.mem_append_left [last] member)
    rw [runFrom?_of_run fits_front (by omega) here,
      runFrom?_of_char fits_last (by omega), dif_neg (not_lt_of_drop ended)]
    simp [Nat.add_assoc]

/-- A run that is over in front of a text is given back up to its end. -/
theorem runFrom?_of_ends {numeric : Bool} {char : Char} {run behind : List Char}
    (fits : ∀ other ∈ char :: run, isFree other = true ∨ (numeric = true ∧ other = '.'))
    (few : (char :: run).count '.' ≤ 1) (here : text.drop current = run ++ behind)
    (ends : ∀ next, behind.head? = some next → endsRun numeric next = true)
    (beyond : start < current) :
    runFrom? text start numeric 0 [] char current =
      some (.ok (char :: run), current + run.length) := by
  cases behind with
  | nil =>
      rw [List.append_nil] at here
      exact runFrom?_of_end fits few here
  | cons next behind =>
      rw [runFrom?_of_run fits (by rwa [Nat.zero_add]) here, runFrom?, if_pos (ends next rfl),
        stepBack?_of_lt (Nat.lt_add_right _ beyond), Option.map_some, List.append_nil,
        List.reverse_reverse]

theorem runFrom?_of_second_point (read : List Char) :
    runFrom? text start true 1 read '.' current =
      some (.error (read.reverse ++ ['.']), current) := by
  have goes : endsRun true '.' = false := rfl
  rw [runFrom?, goes, List.reverse_cons]
  rfl

theorem itemFrom?_of_run {first : Char} (free : isFree first = true)
    (noQuote : isQuote first = false) :
    itemFrom? text start first current =
      (runFrom? text start first.isDigit 0 [] first current).map fun (outcome, current) =>
        match outcome with
        | .ok content => (.ok (.ofText (String.ofList content)), current)
        | .error fragment =>
          (.error (.malformedNumber (String.ofList fragment) start), current) := by
  obtain ⟨-, noSpecial, noOperator⟩ := isFree_iff.mp free
  rw [itemFrom?, noQuote, noSpecial, noOperator]
  rfl

theorem IsNumeral.fits {first : Char} {run : List Char} (numeral : IsNumeral (first :: run)) :
    first.isDigit = true ∧
      ∀ char ∈ first :: run, isFree char = true ∨ first.isDigit = true ∧ char = '.' := by
  obtain ⟨first', run', same, digit, run_chars⟩ := numeral
  obtain ⟨rfl, rfl⟩ := List.cons.inj same
  refine ⟨digit, ?_⟩
  intro char member
  rcases List.mem_cons.mp member with rfl | member
  · exact .inl (isDigit_disjoint digit).1
  · exact (run_chars char member).imp_right fun point => ⟨digit, point⟩

/-- Where a lexeme fits, its item is read, and no step back is refused. -/
theorem itemFrom?_of_fits {lexeme : Lexeme} {first : Char} {tail behind : List Char}
    (fits : lexeme.Fits behind) (source : lexeme.source = first :: tail)
    (here : text.drop (start + 1) = tail ++ behind) :
    itemFrom? text start first (start + 1) =
      some (lexeme.toToken.mapError fun fragment => .malformedNumber fragment start,
        start + 1 + tail.length) := by
  have beyond : start < start + 1 := Nat.lt_succ_self start
  cases fits with
  | @closed quote content _ isQuote single =>
      obtain ⟨rfl, -⟩ := List.cons.inj source
      rw [itemFrom?, if_pos isQuote, quotedFrom?_of_fits (.closed isQuote single) source here]
      rfl
  | @unclosed quote content isQuote =>
      obtain ⟨rfl, -⟩ := List.cons.inj source
      rw [itemFrom?, if_pos isQuote, quotedFrom?_of_fits (.unclosed isQuote) source here]
      rfl
  | @special char _ special =>
      obtain ⟨rfl, rfl⟩ := List.cons.inj source
      rw [itemFrom?, (isSpecial_disjoint special).2, special]
      rfl
  | @pair one two _ isPair =>
      obtain ⟨rfl, rfl⟩ := List.cons.inj source
      have operator : isOperator one = true := by
        rcases isPair with ⟨rfl, rfl⟩ | ⟨rfl, rfl⟩ <;> rfl
      obtain ⟨-, noQuote, noSpecial⟩ := isOperator_disjoint operator
      obtain ⟨inside, same, -⟩ := getElem_of_drop here
      have both : operatorFrom text one (start + 1) = ([one, two], start + 1 + 1) := by
        simp only [operatorFrom, List.getElem?_eq_getElem inside, same]
        exact if_pos isPair
      rw [itemFrom?, noQuote, noSpecial, operator, both]
      rfl
  | @operator char _ operator single =>
      obtain ⟨rfl, rfl⟩ := List.cons.inj source
      obtain ⟨-, noQuote, noSpecial⟩ := isOperator_disjoint operator
      have ahead : text[start + 1]? = behind.head? := by
        rw [← List.head?_drop, here]
        rfl
      have one : operatorFrom text char (start + 1) = ([char], start + 1) := by
        rw [operatorFrom, ahead]
        cases behind with
        | nil => rfl
        | cons next behind => exact if_neg (single next rfl)
      rw [itemFrom?, noQuote, noSpecial, operator, one]
      rfl
  | @word char run _ free noQuote noDigit ends =>
      obtain ⟨rfl, rfl⟩ := List.cons.inj source
      have ended : ∀ next, behind.head? = some next → endsRun false next = true := by
        intro next head
        rw [endsRun_eq, ends next head]
        rfl
      have points : (char :: run).count '.' ≤ 1 := by
        rw [Lexeme.count_point_eq_zero free]
        exact Nat.zero_le 1
      rw [itemFrom?_of_run (free char List.mem_cons_self) noQuote, noDigit,
        runFrom?_of_ends (fun other member => .inl (free other member)) points here ended beyond]
      rfl
  | @number content _ numeral points ends noPoint =>
      obtain rfl : content = first :: tail := source
      obtain ⟨digit, fits⟩ := numeral.fits
      obtain ⟨free, noQuote⟩ := isDigit_disjoint digit
      have ended : ∀ next, behind.head? = some next → endsRun first.isDigit next = true := by
        intro next head
        have other : next ≠ '.' := by
          rintro rfl
          exact noPoint head
        rw [endsRun_eq, ends next head, beq_false_of_ne other, Bool.and_false]
        rfl
      rw [itemFrom?_of_run free noQuote, runFrom?_of_ends fits points here ended beyond]
      rfl
  | @malformed content _ numeral points =>
      obtain ⟨digitFirst, run, rfl, -, -⟩ := id numeral
      have shape : digitFirst :: (run ++ ['.']) = first :: tail := source
      obtain ⟨rfl, rfl⟩ := List.cons.inj shape
      obtain ⟨digit, fits⟩ := numeral.fits
      obtain ⟨free, noQuote⟩ := isDigit_disjoint digit
      rw [List.append_assoc, List.singleton_append] at here
      have one : 0 + (digitFirst :: run).count '.' ≤ 1 := by omega
      rw [itemFrom?_of_run free noQuote, runFrom?_of_run fits one here, points, digit,
        Nat.zero_add, runFrom?_of_second_point, List.append_nil, List.reverse_reverse,
        List.length_append]
      rfl

end

/-! ## Readers -/

/-- A reader of a text, with the tokens put back, the place where its last lexeme begins and the
place of the next character. -/
structure Reader where
  text : List Char
  pushed : List Token
  start : Nat
  current : Nat

namespace Reader

open TokenStream (Operation Answer)

def ofStatement (statement : String) : Reader :=
  ⟨trimSeparators statement.toList, [], 0, 0⟩

def hasNext (reader : Reader) : Bool :=
  !reader.pushed.isEmpty || reader.current < reader.text.length

/-- The next item and the reader behind it, or nothing if a step back is refused. -/
def next? (reader : Reader) : Option (Item × Reader) :=
  match reader.pushed with
  | token :: pushed => some (.ok token, { reader with pushed })
  | [] =>
    let start := skipFrom reader.text reader.current
    match reader.text[start]? with
    | none => some (.error .endOfStatement, { reader with start, current := start })
    | some first =>
      (itemFrom? reader.text start first (start + 1)).map fun (item, current) =>
        (item, { reader with start, current })

def perform? (reader : Reader) : Operation → Option (Answer × Reader)
  | .next => reader.next?.map fun (item, behind) => (.item item, behind)
  | .next? =>
    if reader.hasNext then reader.next?.map fun (item, behind) => (.item? (some item), behind)
    else some (.item? none, reader)
  | .putBack token => some (.done, { reader with pushed := token :: reader.pushed })
  | .hasNext => some (.more reader.hasNext, reader)

def run? (reader : Reader) : List Operation → Option (List Answer × Reader)
  | [] => some ([], reader)
  | operation :: operations =>
    (reader.perform? operation).bind fun (answer, behind) =>
      (behind.run? operations).map fun (answers, last) => (answer :: answers, last)

/-- A reader is at the place of a stream, and its own places are in order. -/
structure StandsAt (reader : Reader) (stream : TokenStream) : Prop where
  visible : EndsVisible reader.text
  pushed : reader.pushed = stream.pushed
  position : reader.current = stream.cursor.position
  rest : reader.text.drop reader.current = stream.cursor.rest
  start_le : reader.start ≤ reader.current
  current_le : reader.current ≤ reader.text.length

namespace StandsAt

variable {reader : Reader} {stream : TokenStream}

theorem ofStatement (statement : String) :
    StandsAt (.ofStatement statement) (.ofStatement statement) :=
  ⟨(trimmed_trimSeparators statement.toList).endsVisible, rfl, rfl, rfl, Nat.le_refl 0,
    Nat.zero_le _⟩

theorem hasNext_eq (stands : reader.StandsAt stream) : reader.hasNext = stream.hasNext := by
  have unread : decide (reader.current < reader.text.length) = !stream.cursor.rest.isEmpty := by
    rw [← stands.rest, Bool.eq_iff_iff]
    simp
  rw [Reader.hasNext, TokenStream.hasNext, stands.pushed, unread]

end StandsAt

section

variable {text : List Char} (start : Nat) {current : Nat}

theorem next?_of_end (ended : text.drop current = []) :
    next? ⟨text, [], start, current⟩ =
      some (.error .endOfStatement, ⟨text, [], current, current⟩) := by
  have noGap : Gap [] := by simp [Gap]
  have stays : skipFrom text current = current := skipFrom_of_gap noGap (by simp) ended
  have nothing : text[current]? = none := List.getElem?_eq_none (List.drop_eq_nil_iff.mp ended)
  simp only [next?, stays, nothing]

theorem next?_of_fits {gap behind : List Char} {lexeme : Lexeme} (separators : Gap gap)
    (fits : lexeme.Fits behind) (here : text.drop current = gap ++ (lexeme.source ++ behind)) :
    next? ⟨text, [], start, current⟩ =
      some (lexeme.toToken.mapError fun fragment =>
          .malformedNumber fragment (current + gap.length),
        ⟨text, [], current + gap.length, current + gap.length + lexeme.source.length⟩) := by
  obtain ⟨first, tail, source, visible, -⟩ := fits.read
  have skips : skipFrom text current = current + gap.length := by
    refine skipFrom_of_gap separators ?_ here
    rw [source]
    rintro char head
    cases head
    exact visible
  have there : text.drop (current + gap.length) = first :: (tail ++ behind) := by
    rw [← List.drop_drop, here, List.drop_left, source, List.cons_append]
  obtain ⟨inside, same, after⟩ := getElem_of_drop there
  have found : text[current + gap.length]? = some first := by
    rw [List.getElem?_eq_getElem inside, same]
  have stop : current + gap.length + 1 + tail.length =
      current + gap.length + lexeme.source.length := by
    rw [source, List.length_cons]
    omega
  simp only [next?, skips, found, itemFrom?_of_fits fits source after, Option.map_some, stop]

end

namespace StandsAt

variable {reader : Reader} {stream : TokenStream}

/-- A reading is not refused. If it takes an item of the text, the item begins no earlier than
reading does and has at least one character. -/
theorem next? (stands : reader.StandsAt stream) :
    ∃ behind, reader.next? = some (stream.next.1, behind) ∧ behind.text = reader.text ∧
      behind.StandsAt stream.next.2 ∧
      (stream.pushed = [] → stream.hasNext = true →
        reader.current ≤ behind.start ∧ behind.start < behind.current) := by
  obtain ⟨text, pushed, start, current⟩ := reader
  obtain ⟨pushed', position, rest⟩ := stream
  obtain ⟨visible, rfl, rfl, rfl, start_le, current_le⟩ := stands
  simp only at visible start_le current_le ⊢
  cases pushed with
  | cons token pushed =>
      exact ⟨_, rfl, rfl, ⟨visible, rfl, rfl, rfl, start_le, current_le⟩,
        fun nothing => absurd nothing (List.cons_ne_nil _ _)⟩
  | nil =>
      by_cases ended : text.drop current = []
      · have item : TokenStream.next ⟨[], ⟨current, text.drop current⟩⟩ =
            (.error .endOfStatement, ⟨[], ⟨current, text.drop current⟩⟩) := by
          rw [ended]
          rfl
        rw [item]
        refine ⟨_, next?_of_end start ended, rfl,
          ⟨visible, rfl, rfl, rfl, Nat.le_refl current, current_le⟩, ?_⟩
        intro _ more
        simp [TokenStream.hasNext, ended] at more
      · have unread : EndsVisible (text.drop current) := by
          rw [← text.take_append_drop current] at visible
          exact visible.of_append
        obtain ⟨gap, lexeme, behind, separators, fits, here⟩ := unread.exists_fits ended
        have item := TokenStream.next_of_fits separators fits current
        rw [← here] at item
        rw [item]
        have left : text.drop (current + gap.length + lexeme.source.length) = behind := by
          rw [← List.drop_drop, ← List.drop_drop, here, List.drop_left, List.drop_left]
        have length := congrArg List.length here
        have positive := List.length_pos_iff.mpr fits.source_ne_nil
        simp only [List.length_append, List.length_drop] at length
        refine ⟨_, next?_of_fits start separators fits here, rfl,
          ⟨visible, rfl, rfl, left, Nat.le_add_right _ _, ?_⟩,
          fun _ _ => ⟨Nat.le_add_right _ _, Nat.lt_add_of_pos_right positive⟩⟩
        simp only
        omega

theorem perform? (stands : reader.StandsAt stream) (operation : Operation) :
    ∃ behind, reader.perform? operation = some ((stream.perform operation).1, behind) ∧
      behind.text = reader.text ∧ behind.StandsAt (stream.perform operation).2 := by
  cases operation with
  | next =>
      obtain ⟨behind, read, text_eq, there, -⟩ := stands.next?
      exact ⟨behind, by rw [Reader.perform?, read]; rfl, text_eq, there⟩
  | next? =>
      cases more : stream.hasNext with
      | true =>
          obtain ⟨behind, read, text_eq, there, -⟩ := stands.next?
          refine ⟨behind, ?_, text_eq, ?_⟩
          · rw [Reader.perform?, stands.hasNext_eq, more, read]
            simp [TokenStream.perform, TokenStream.next?, more]
          · simpa [TokenStream.perform, TokenStream.next?, more] using there
      | false =>
          refine ⟨reader, ?_, rfl, ?_⟩
          · rw [Reader.perform?, stands.hasNext_eq, more]
            simp [TokenStream.perform, TokenStream.next?, more]
          · simpa [TokenStream.perform, TokenStream.next?, more] using stands
  | putBack token =>
      refine ⟨_, rfl, rfl, stands.visible, ?_, stands.position, stands.rest, stands.start_le,
        stands.current_le⟩
      exact congrArg (List.cons token) stands.pushed
  | hasNext => exact ⟨reader, by rw [Reader.perform?, stands.hasNext_eq]; rfl, rfl, stands⟩

/-- No step of any sequence of operations is refused. -/
theorem run? (stands : reader.StandsAt stream) (operations : List Operation) :
    ∃ behind, reader.run? operations = some ((stream.run operations).1, behind) ∧
      behind.text = reader.text ∧ behind.StandsAt (stream.run operations).2 := by
  induction operations generalizing reader stream with
  | nil => exact ⟨reader, rfl, rfl, stands⟩
  | cons operation operations ih =>
      obtain ⟨middle, performed, text_eq, there⟩ := stands.perform? operation
      obtain ⟨behind, run, text_eq', last⟩ := ih there
      refine ⟨behind, ?_, text_eq'.trans text_eq, last⟩
      simp only [Reader.run?, performed, Option.bind_some, run, Option.map_some]
      rfl

end StandsAt

end Reader

end SqlMemo.Sql
