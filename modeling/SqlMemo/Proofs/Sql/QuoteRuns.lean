import Mathlib.Data.List.SplitBy
import SqlMemo.Proofs.Sql.Stepping

/-!
# Runs of quotes

Where a quoted text ends, told from the text behind its opening quote. This falls into runs of
quotes and runs of other characters. A run of quotes of even length is in the text, half as long,
and the first one of odd length closes it. Without such a run the text goes on to the end.
-/

set_option autoImplicit false

namespace SqlMemo.Sql

/-! ## Runs -/

/-- The longest runs of quotes and of other characters, in order. -/
def quoteRuns (quote : Char) (text : List Char) : List (List Char) :=
  text.splitBy fun left right => (left == quote) == (right == quote)

/-- Whether a run is one of quotes and has an odd length. -/
def closes (quote : Char) (run : List Char) : Bool :=
  run.head? == some quote && run.length % 2 == 1

/-- What a run stands for: quotes for half as many of them, rounded down, and other characters for
themselves. -/
def halved (quote : Char) (run : List Char) : List Char :=
  if run.head? = some quote then List.replicate (run.length / 2) quote else run

/-- The runs up to the first one that closes a text, and with it. -/
def upToClosing (quote : Char) : List (List Char) → List (List Char)
  | [] => []
  | run :: runs => if closes quote run then [run] else run :: upToClosing quote runs

section

variable {quote : Char} {run text : List Char} {runs : List (List Char)}

/-- In a run that goes on alike, all is like the first character. -/
private theorem beq_quote_of_mem {first char : Char}
    (alike : run.IsChain fun left right => ((left == quote) == (right == quote)) = true)
    (begins : run.head? = some first) (member : char ∈ run) :
    (char == quote) = (first == quote) := by
  have equal : (run.map (· == quote)).IsChain (· = ·) := by
    rw [List.isChain_map]
    exact alike.imp fun _ _ => eq_of_beq
  have begins' : (run.map (· == quote)).head? = some (first == quote) := by
    rw [List.head?_map, begins, Option.map_some]
  have constant := List.isChain_eq_iff_eq_replicate.mp equal _ begins'
  rw [List.length_map] at constant
  exact List.map_eq_replicate_iff.mp constant char member

/-- The first run has no quotes, or it has all the quotes up to another character. -/
theorem quoteRuns_eq_cons (split : quoteRuns quote text = run :: runs) :
    text = run ++ runs.flatten ∧ quoteRuns quote runs.flatten = runs ∧
    (quote ∉ run ∨ ∃ count, run = List.replicate (count + 1) quote ∧
      runs.flatten.head? ≠ some quote) := by
  obtain ⟨text_eq, nonempty, alike, apart⟩ := List.splitBy_eq_iff.mp split
  rw [List.mem_cons, not_or] at nonempty
  rw [List.forall_mem_cons] at alike
  rw [List.isChain_cons] at apart
  refine ⟨text_eq, List.splitBy_eq_iff.mpr ⟨rfl, nonempty.2, alike.2, apart.2⟩, ?_⟩
  obtain ⟨first, rest, rfl⟩ := List.exists_cons_of_ne_nil (Ne.symm nonempty.1)
  by_cases quotes : first = quote
  · subst first
    have all : ∀ char ∈ quote :: rest, char = quote := by
      intro char member
      simpa using beq_quote_of_mem alike.1 rfl member
    refine .inr ⟨rest.length, List.eq_replicate_iff.mpr ⟨rfl, all⟩, ?_⟩
    cases runs with
    | nil => simp
    | cons next later =>
        obtain ⟨_, nonempty', differ⟩ := apart.1 next rfl
        rw [all _ (List.getLast_mem _), beq_self_eq_true] at differ
        rw [List.flatten_cons, List.head?_append_of_ne_nil _ nonempty',
          List.head?_eq_some_head nonempty']
        intro same
        rw [Option.some.inj same] at differ
        simp at differ
  · left
    intro member
    have like := beq_quote_of_mem alike.1 rfl member
    rw [beq_self_eq_true] at like
    exact quotes (eq_of_beq like.symm)

theorem closes_replicate (count : Nat) :
    closes quote (List.replicate (count + 1) quote) = ((count + 1) % 2 == 1) := by
  simp [closes, List.replicate_succ]

theorem halved_replicate (count : Nat) :
    halved quote (List.replicate (count + 1) quote) = List.replicate ((count + 1) / 2) quote := by
  simp [halved, List.replicate_succ]

theorem closes_of_not_mem (absent : quote ∉ run) : closes quote run = false := by
  have begins : run.head? ≠ some quote := fun head => absent (List.mem_of_head? head)
  simp [closes, begins]

theorem halved_of_not_mem (absent : quote ∉ run) : halved quote run = run :=
  if_neg fun head => absent (List.mem_of_head? head)

theorem doubleQuotes_replicate (quote : Char) (count : Nat) :
    Lexeme.doubleQuotes quote (List.replicate count quote) = List.replicate (count * 2) quote := by
  have pair : [quote, quote] = List.replicate 2 quote := rfl
  rw [Lexeme.doubleQuotes, List.flatMap_replicate, if_pos rfl, pair,
    List.flatten_replicate_replicate]

theorem doubleQuotes_of_not_mem (absent : quote ∉ run) : Lexeme.doubleQuotes quote run = run := by
  induction run with
  | nil => rfl
  | cons char run ih =>
      obtain ⟨different, absent⟩ := not_or.mp (mt List.mem_cons.mpr absent)
      have ih := ih absent
      rw [Lexeme.doubleQuotes] at ih ⊢
      rw [List.flatMap_cons, if_neg (Ne.symm different), ih, List.singleton_append]

/-- The first run closes the text, or it is what it stands for with every quote written twice. A run
that closes the text has one quote more, and no quote behind it. -/
theorem first_run_cases (split : quoteRuns quote text = run :: runs) :
    (closes quote run = false ∧ Lexeme.doubleQuotes quote (halved quote run) = run) ∨
    (closes quote run = true ∧ Lexeme.doubleQuotes quote (halved quote run) ++ [quote] = run ∧
      runs.flatten.head? ≠ some quote) := by
  obtain ⟨-, -, absent | ⟨count, rfl, behind⟩⟩ := quoteRuns_eq_cons split
  · left
    rw [halved_of_not_mem absent]
    exact ⟨closes_of_not_mem absent, doubleQuotes_of_not_mem absent⟩
  · rw [closes_replicate, halved_replicate, doubleQuotes_replicate]
    rcases Nat.mod_two_eq_zero_or_one (count + 1) with even | odd
    · left
      refine ⟨by rw [even]; rfl, ?_⟩
      congr 1
      omega
    · right
      refine ⟨by rw [odd]; rfl, ?_, behind⟩
      rw [← List.replicate_succ']
      congr 1
      omega

/-! ## Quoted texts -/

/-- The runs up to the closing one are a quoted text without its opening quote. -/
theorem exists_behind_of_quoteRuns (split : quoteRuns quote text = runs) :
    let taken := upToClosing quote runs
    let closed := runs.any (closes quote)
    ∃ behind, text = taken.flatten ++ behind ∧
      taken.flatten = Lexeme.doubleQuotes quote (taken.flatMap (halved quote)) ++
        (if closed then [quote] else []) ∧
      (closed = true → behind.head? ≠ some quote) ∧ (closed = false → behind = []) := by
  induction runs generalizing text with
  | nil =>
      obtain rfl := List.splitBy_eq_nil.mp split
      exact ⟨[], rfl, rfl, by simp, fun _ => rfl⟩
  | cons run runs ih =>
      obtain ⟨rfl, split', -⟩ := quoteRuns_eq_cons split
      rcases first_run_cases split with ⟨goesOn, run_eq⟩ | ⟨stops, run_eq, single⟩
      · obtain ⟨behind, rest_eq, taken_eq, closed_end, open_end⟩ := ih split'
        refine ⟨behind, ?_, ?_, ?_, ?_⟩
        all_goals simp only [upToClosing, List.any_cons, goesOn, Bool.false_or, if_false,
          Bool.false_eq_true]
        · rw [rest_eq]
          simp
        · rw [List.flatten_cons, List.flatMap_cons, Lexeme.doubleQuotes_append, run_eq,
            List.append_assoc, ← taken_eq]
        · exact closed_end
        · exact open_end
      · refine ⟨runs.flatten, ?_, ?_, ?_, ?_⟩
        all_goals simp only [upToClosing, List.any_cons, stops, Bool.true_or, if_true]
        · simp
        · simp [run_eq]
        · exact fun _ => single
        · simp

/-- Behind an opening quote, a text goes on up to the first run of quotes of odd length and with it,
or to the end if all are even. It is what the runs stand for, one after the other. The reader that
goes by numbers is left right there, and so is the cursor. -/
theorem quoted_of_runs {source : List Char} {position : Nat}
    (opens : source[position]? = some quote) (quotes : isQuote quote = true) :
    let behind := source.drop (position + 1)
    let runs := quoteRuns quote behind
    let taken := upToClosing quote runs
    let content := taken.flatMap (halved quote)
    let closed := runs.any (closes quote)
    let stop := position + 1 + taken.flatten.length
    Lexeme.readQuoted quote [] behind = (.quoted quote content closed, source.drop stop) ∧
    quotedFrom? source position quote [] (position + 1) = some (content, stop) ∧
    (Cursor.mk position (source.drop position)).next =
      (.ok (if quote = '\'' then .ofLiteral (String.ofList content)
        else .ofText (String.ofList content)), ⟨stop, source.drop stop⟩) ∧
    (closed = false → stop = source.length) := by
  intro behind runs taken content closed stop
  obtain ⟨rest, behind_eq, taken_eq, closed_end, open_end⟩ :
      ∃ rest, source.drop (position + 1) = taken.flatten ++ rest ∧
        taken.flatten = Lexeme.doubleQuotes quote content ++ (if closed then [quote] else []) ∧
        (closed = true → rest.head? ≠ some quote) ∧ (closed = false → rest = []) :=
    exists_behind_of_quoteRuns rfl
  obtain ⟨inside, quote_eq⟩ := List.getElem?_eq_some_iff.mp opens
  have left : source.drop stop = rest := by
    rw [← List.drop_drop, behind_eq, List.drop_left]
  have source_eq : (Lexeme.quoted quote content closed).source = quote :: taken.flatten := by
    rw [Lexeme.source, List.cons_append, ← taken_eq]
  have fits : (Lexeme.quoted quote content closed).Fits rest := by
    cases closed_eq : closed with
    | true => exact .closed quotes (closed_end closed_eq)
    | false =>
        rw [open_end closed_eq]
        exact .unclosed quotes
  rw [left]
  refine ⟨?_, quotedFrom?_of_fits fits source_eq behind_eq, ?_, ?_⟩
  · obtain ⟨first, tail, source_eq', -, read⟩ := fits.read
    obtain ⟨rfl, rfl⟩ := List.cons.inj (source_eq.symm.trans source_eq')
    rwa [← behind_eq, Lexeme.read, if_pos quotes] at read
  · have here : source.drop position =
        [] ++ ((Lexeme.quoted quote content closed).source ++ rest) := by
      rw [List.drop_eq_getElem_cons inside, quote_eq, behind_eq, source_eq]
      rfl
    have noGap : Gap [] := fun _ member => absurd member List.not_mem_nil
    rw [here, Cursor.next_of_fits noGap fits, source_eq, List.length_cons, List.length_nil,
      Nat.add_zero, ← Nat.add_assoc, Nat.add_right_comm]
    rfl
  · intro unclosed
    have lengths := congrArg List.length behind_eq
    rw [open_end unclosed, List.append_nil, List.length_drop] at lengths
    omega

/-- Of two quotes one is in the text, and three of them have the closing one. The other quote does
not count, and two quotes at the end leave a text open. -/
theorem quoted_of_runs_two_three :
    let three := "'it''s''' x".toList
    let two := "\"a'b\"\"".toList
    three[0]? = some '\'' ∧ two[0]? = some '"' ∧ isQuote '\'' = true ∧ isQuote '"' = true ∧
    quotedFrom? three 0 '\'' [] 1 = some ("it's'".toList, 9) ∧
    (Cursor.mk 0 three).next = (.ok (.ofLiteral "it's'"), ⟨9, " x".toList⟩) ∧
    quotedFrom? two 0 '"' [] 1 = some ("a'b\"".toList, 6) ∧ two.length = 6 := by
  intro three two
  have opens : three[0]? = some '\'' := by decide +kernel
  have opens' : two[0]? = some '"' := by decide +kernel
  have quotes : isQuote '\'' = true := rfl
  have quotes' : isQuote '"' = true := rfl
  obtain ⟨-, reads, next, -⟩ := quoted_of_runs opens quotes
  obtain ⟨-, reads', -, -⟩ := quoted_of_runs opens' quotes'
  exact ⟨opens, opens', quotes, quotes', reads.trans (by decide +kernel),
    next.trans (by decide +kernel), reads'.trans (by decide +kernel), by decide +kernel⟩

end

end SqlMemo.Sql
