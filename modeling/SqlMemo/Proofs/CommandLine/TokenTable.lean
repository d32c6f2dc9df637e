import SqlMemo.Proofs.Catalog.Lookup
import SqlMemo.Proofs.CommandLine.EmptyStatements

/-!
# Tokens in columns

A token is printed as a line with a kind, a text and a procedure between tabs. The text is printed
as it is, whatever is in it. A line feed in a text breaks its line, and a tab makes a further column
of it. Without line feeds the tokens can be told from the table, and without tabs each line has the
three columns.
-/

set_option autoImplicit false

namespace SqlMemo.CommandLine

/-! ## Cells -/

section

variable {α : Type} [BEq α] [LawfulBEq α]

theorem piece_of_mem_splitOn {separator : α} {list piece : List α}
    (member : piece ∈ list.splitOn separator) : separator ∉ piece ∧ piece ⊆ list := by
  induction list generalizing piece with
  | nil =>
      rw [List.splitOn_nil, List.mem_singleton] at member
      rw [member]
      exact ⟨List.not_mem_nil, List.Subset.refl _⟩
  | cons first rest ih =>
      rw [List.splitOn_cons_eq_if_modifyHead] at member
      split at member
      · rcases List.mem_cons.mp member with rfl | later
        · exact ⟨List.not_mem_nil, List.nil_subset _⟩
        · exact ⟨(ih later).1, List.subset_cons_of_subset first (ih later).2⟩
      · rename_i kept
        obtain ⟨head, pieces, pieces_eq⟩ :=
          List.exists_cons_of_ne_nil (List.splitOn_ne_nil separator rest)
        rw [pieces_eq] at ih member
        rw [List.modifyHead_cons, List.mem_cons] at member
        rcases member with rfl | later
        · obtain ⟨free, within⟩ := ih List.mem_cons_self
          refine ⟨?_, List.cons_subset_cons first within⟩
          rw [List.mem_cons, not_or]
          refine ⟨?_, free⟩
          rintro rfl
          exact kept BEq.rfl
        · obtain ⟨free, within⟩ := ih (List.mem_cons_of_mem _ later)
          exact ⟨free, List.subset_cons_of_subset first within⟩

end

/-- The cells of a line, with tabs between them. -/
def cellsOfLine (line : List Char) : List String :=
  (line.splitOn '\t').map String.ofList

/-- The cells of a text line by line. Behind a line feed at the end there is one more line, with an
empty cell. -/
def cellsOf (text : String) : List (List String) :=
  (text.toList.splitOn '\n').map cellsOfLine

theorem intercalate_cellsOfLine (text : String) :
    "\t".intercalate (cellsOfLine text.toList) = text := by
  apply String.toList_inj.mp
  rw [String.toList_intercalate, cellsOfLine, List.map_map]
  have unchanged : String.toList ∘ String.ofList = id := funext fun _ => String.toList_ofList
  rw [unchanged, List.map_id]
  exact List.intercalate_splitOn '\t'

theorem cellsOfLine_append (first second : List Char) :
    cellsOfLine (first ++ '\t' :: second) = cellsOfLine first ++ cellsOfLine second := by
  rw [cellsOfLine, List.splitOn_append_cons_self, List.map_append]
  rfl

theorem cellsOfLine_of_not_mem {line : List Char} (whole : '\t' ∉ line) :
    cellsOfLine line = [String.ofList line] := by
  rw [cellsOfLine, List.splitOn_eq_singleton whole]
  rfl

/-- Whether a text can be the text of a cell. -/
def FitsCell (text : String) : Prop :=
  '\t' ∉ text.toList ∧ '\n' ∉ text.toList

instance (text : String) : Decidable (FitsCell text) :=
  inferInstanceAs (Decidable (_ ∧ _))

theorem fitsCell_of_mem {text cell : String} {line : List String}
    (of_text : line ∈ cellsOf text) (of_line : cell ∈ line) : FitsCell cell := by
  obtain ⟨chars, split, rfl⟩ := List.mem_map.mp of_text
  obtain ⟨piece, split', rfl⟩ := List.mem_map.mp of_line
  rw [FitsCell, String.toList_ofList]
  obtain ⟨noTab, within⟩ := piece_of_mem_splitOn split'
  exact ⟨noTab, fun breaks => (piece_of_mem_splitOn split).1 (within breaks)⟩

theorem cellsOf_append {line rest : String} {row : List Char}
    (ends : line.toList = row ++ ['\n']) (unbroken : '\n' ∉ row) :
    cellsOf (line ++ rest) = cellsOfLine row :: cellsOf rest := by
  rw [cellsOf, String.toList_append, ends, List.append_assoc, List.singleton_append,
    List.splitOn_append_cons_self_of_not_mem unbroken]
  rfl

/-! ## Lines -/

/-- The name of the procedure that a token calls, or the empty text. -/
def called (resolved : Sql.ResolvedToken) : String :=
  (resolved.procedure.map Procedure.name).getD ""

/-- The three columns of a token. -/
def columns (resolved : Sql.ResolvedToken) : List String :=
  [resolved.token.kind.name, resolved.token.text, called resolved]

/-- The cells of a token without a line feed in its text: as many for the text as its tabs make of
it. -/
def cells (resolved : Sql.ResolvedToken) : List String :=
  resolved.token.kind.name :: (cellsOfLine resolved.token.text.toList ++ [called resolved])

/-- The token of a line: its kind is the first cell, and its text is in the cells between the first
and the last one. -/
def tokenOf? (line : List String) : Option Sql.Token :=
  (Sql.Kind.ofName? (line.headD "")).map fun kind => ⟨kind, "\t".intercalate line.tail.dropLast⟩

theorem fitsCell_name (kind : Sql.Kind) : FitsCell kind.name := by
  have named : ∀ kind ∈ Sql.Kind.all, FitsCell kind.name := by decide +kernel
  exact named kind kind.mem_all

theorem fitsCell_called (token : Sql.Token) (behind : List Sql.Token) :
    FitsCell (called ⟨token, Sql.calledBy .standard token behind⟩) := by
  have named : ∀ procedure ∈ Catalog.standard.procedures, FitsCell procedure.name := by
    decide +kernel
  unfold called
  cases calls : Sql.calledBy .standard token behind with
  | none => exact ⟨List.not_mem_nil, List.not_mem_nil⟩
  | some procedure =>
      exact named procedure (Catalog.mem_of_find? (Sql.calledBy_eq_some_iff.mp calls).2.2)

theorem tokenOf?_cells (resolved : Sql.ResolvedToken) :
    tokenOf? (cells resolved) = some resolved.token := by
  simp only [tokenOf?, cells, List.headD_cons, List.tail_cons, List.dropLast_concat]
  rw [Sql.Kind.ofName?_name, intercalate_cellsOfLine]
  rfl

theorem cells_of_fitsCell {resolved : Sql.ResolvedToken}
    (fits : FitsCell resolved.token.text) : cells resolved = columns resolved := by
  rw [cells, cellsOfLine_of_not_mem fits.1, String.ofList_toList]
  rfl

/-- The line of a token without the line feed behind it. -/
def row (resolved : Sql.ResolvedToken) : List Char :=
  resolved.token.kind.name.toList ++ '\t' ::
    (resolved.token.text.toList ++ '\t' :: (called resolved).toList)

theorem toList_line (resolved : Sql.ResolvedToken) :
    (TokenFormat.tsv.line resolved).toList = row resolved ++ ['\n'] := by
  have line : TokenFormat.tsv.line resolved = resolved.token.kind.name ++ "\t" ++
      resolved.token.text ++ "\t" ++ called resolved ++ "\n" := rfl
  simp [line, row]

theorem cellsOfLine_row {resolved : Sql.ResolvedToken} (fits : FitsCell (called resolved)) :
    cellsOfLine (row resolved) = cells resolved := by
  rw [row, cellsOfLine_append, cellsOfLine_append, cellsOfLine_of_not_mem (fitsCell_name _).1,
    cellsOfLine_of_not_mem fits.1, String.ofList_toList, String.ofList_toList]
  rfl

theorem count_row {resolved : Sql.ResolvedToken} (fits : FitsCell (called resolved)) :
    (row resolved).count '\n' = resolved.token.text.toList.count '\n' := by
  simp [row, List.count_eq_zero.mpr (fitsCell_name resolved.token.kind).2,
    List.count_eq_zero.mpr fits.2]

/-! ## Tables -/

/-- The tokens of a statement as they are printed in columns. -/
def table (read : List Sql.Token) : String :=
  String.join ((Sql.resolveTokens .standard read).map TokenFormat.tsv.line)

theorem table_cons (token : Sql.Token) (behind : List Sql.Token) :
    table (token :: behind) =
      TokenFormat.tsv.line ⟨token, Sql.calledBy .standard token behind⟩ ++ table behind := by
  rw [table, Sql.resolveTokens, List.map_cons, String.join_cons, table]

theorem count_table (read : List Sql.Token) :
    (table read).toList.count '\n' =
      read.length + (read.flatMap fun token => token.text.toList).count '\n' := by
  induction read with
  | nil => rfl
  | cons token behind ih =>
      have line : (row ⟨token, Sql.calledBy .standard token behind⟩).count '\n' =
          token.text.toList.count '\n' := count_row (fitsCell_called token behind)
      rw [table_cons, String.toList_append, toList_line, List.count_append, List.count_append, line,
        ih, List.flatMap_cons, List.count_append, List.length_cons, List.count_singleton_self]
      omega

theorem cellsOf_table {read : List Sql.Token}
    (unbroken : ∀ token ∈ read, '\n' ∉ token.text.toList) :
    cellsOf (table read) = (Sql.resolveTokens .standard read).map cells ++ [[""]] := by
  induction read with
  | nil => rfl
  | cons token behind ih =>
      obtain ⟨whole, unbroken⟩ := List.forall_mem_cons.mp unbroken
      have fits := fitsCell_called token behind
      have whole : '\n' ∉ row ⟨token, Sql.calledBy .standard token behind⟩ := by
        rw [← List.count_eq_zero, count_row fits]
        exact List.count_eq_zero.mpr whole
      rw [table_cons, cellsOf_append (toList_line _) whole, cellsOfLine_row fits, ih unbroken]
      rfl

theorem cellsOf_table_eq_columns_iff {read : List Sql.Token} :
    cellsOf (table read) = (Sql.resolveTokens .standard read).map columns ++ [[""]] ↔
      ∀ token ∈ read, FitsCell token.text := by
  constructor
  · intro in_columns token member
    rw [← Sql.map_token_resolveTokens .standard read] at member
    obtain ⟨resolved, resolves, rfl⟩ := List.mem_map.mp member
    have line : columns resolved ∈ cellsOf (table read) := by
      rw [in_columns]
      exact List.mem_append_left _ (List.mem_map_of_mem resolves)
    apply fitsCell_of_mem line
    simp [columns]
  · intro fit
    rw [cellsOf_table fun token member => (fit token member).2]
    congr 1
    apply List.map_congr_left
    intro resolved resolves
    apply cells_of_fitsCell
    apply fit
    rw [← Sql.map_token_resolveTokens .standard read]
    exact List.mem_map_of_mem resolves

theorem tokens_of_table {read : List Sql.Token}
    (unbroken : ∀ token ∈ read, '\n' ∉ token.text.toList) :
    (cellsOf (table read)).dropLast.map tokenOf? = read.map some := by
  rw [cellsOf_table unbroken, List.dropLast_concat, List.map_map]
  have reads : tokenOf? ∘ cells = some ∘ Sql.ResolvedToken.token := funext tokenOf?_cells
  rw [reads, ← List.map_map, Sql.map_token_resolveTokens]

theorem table_inj {first second : List Sql.Token}
    (unbroken : ∀ token ∈ first, '\n' ∉ token.text.toList)
    (unbroken' : ∀ token ∈ second, '\n' ∉ token.text.toList)
    (same : table first = table second) : first = second := by
  have readings : first.map some = second.map some := by
    rw [← tokens_of_table unbroken, same, tokens_of_table unbroken']
  exact (List.map_inj_right fun _ _ => Option.some.inj).mp readings

/-- A statement that scans is printed as the table of its tokens, with a line for each of them and
one more for each line feed in their texts. The lines are the three columns of the tokens, one token
after the other, if and only if no text holds a tab or a line feed. Tabs alone hide nothing: while
there are no line feeds in the texts, the tokens can be read from the table, and other tokens are
never printed alike. -/
theorem table_of_statement {environment : Environment} {given : Option String}
    {statement : String} {read : List Sql.Token}
    (source : statementOf environment given = .ok statement)
    (visible : Text.isBlank statement = false) (scans : Sql.tokens statement = .ok read) :
    let outcome := (Command.tokens given .tsv).outcome environment
    let resolved := Sql.resolveTokens .standard read
    outcome = ⟨0, String.join (resolved.map TokenFormat.tsv.line), ""⟩ ∧
    outcome.output.toList.count '\n' =
      read.length + (read.flatMap fun token => token.text.toList).count '\n' ∧
    (cellsOf outcome.output = resolved.map columns ++ [[""]] ↔
      ∀ token ∈ read, FitsCell token.text) ∧
    ((∀ token ∈ read, '\n' ∉ token.text.toList) →
      (cellsOf outcome.output).dropLast.map tokenOf? = read.map some ∧
      ∀ environment' given' statement' read',
        statementOf environment' given' = .ok statement' → Text.isBlank statement' = false →
        Sql.tokens statement' = .ok read' → (∀ token ∈ read', '\n' ∉ token.text.toList) →
        ((Command.tokens given' .tsv).outcome environment').output = outcome.output →
        read' = read) := by
  intro outcome resolved
  have outcome_eq : outcome = ⟨0, table read, ""⟩ :=
    outcome_of_tokens source .tsv visible scans
  refine ⟨outcome_eq, ?_, ?_, ?_⟩
  · rw [outcome_eq]
    exact count_table read
  · rw [outcome_eq]
    exact cellsOf_table_eq_columns_iff
  · intro unbroken
    rw [outcome_eq]
    refine ⟨tokens_of_table unbroken, ?_⟩
    intro environment' given' statement' read' source' visible' scans' unbroken' same
    rw [outcome_of_tokens source' .tsv visible' scans'] at same
    exact table_inj unbroken' unbroken same

/-- A call is printed in three columns, the last of which names the procedure. -/
theorem table_of_statement_call :
    let environment : Environment := ⟨.ok [], fun _ => .error .notFound⟩
    let read : List Sql.Token := [⟨.identifier, "sum"⟩, ⟨.symbol .openParenthesis, "("⟩,
      ⟨.identifier, "x"⟩, ⟨.symbol .closeParenthesis, ")"⟩]
    statementOf environment (some "sum(x)") = .ok "sum(x)" ∧
    Text.isBlank "sum(x)" = false ∧ Sql.tokens "sum(x)" = .ok read ∧
    (∀ token ∈ read, FitsCell token.text) ∧
    cellsOf ((Command.tokens (some "sum(x)") .tsv).outcome environment).output =
      [["IDENTIFIER", "sum", "SUM"], ["LPAREN", "(", ""], ["IDENTIFIER", "x", ""],
        ["RPAREN", ")", ""], [""]] := by
  intro environment read
  have source : statementOf environment (some "sum(x)") = .ok "sum(x)" := rfl
  have visible : Text.isBlank "sum(x)" = false := by decide +kernel
  have scans : Sql.tokens "sum(x)" = .ok read := by decide +kernel
  have fit : ∀ token ∈ read, FitsCell token.text := by decide +kernel
  have found : Catalog.standard.find? "sum" = Catalog.standard.procedures.getLast? :=
    (Catalog.find?_ofList _ _).trans (by decide +kernel)
  have resolved : Sql.resolveTokens .standard read =
      [⟨⟨.identifier, "sum"⟩, Catalog.standard.find? "sum"⟩,
        ⟨⟨.symbol .openParenthesis, "("⟩, none⟩, ⟨⟨.identifier, "x"⟩, none⟩,
        ⟨⟨.symbol .closeParenthesis, ")"⟩, none⟩] := rfl
  refine ⟨source, visible, scans, fit, ?_⟩
  rw [(table_of_statement source visible scans).2.2.1.mpr fit, resolved, found]
  rfl

/-- A tab in a literal makes a fourth column of it. A literal with a line feed can be printed like
two literals. -/
theorem literals_leave_columns :
    let environment : Environment := ⟨.ok [], fun _ => .error .notFound⟩
    let printed (statement : String) : Outcome :=
      run environment ["tokens", "--format", "tsv", statement]
    Sql.tokens "'a\tb'" = .ok [⟨.character, "a\tb"⟩] ∧
    printed "'a\tb'" = ⟨0, "CHARACTER\ta\tb\t\n", ""⟩ ∧
    cellsOf (printed "'a\tb'").output = [["CHARACTER", "a", "b", ""], [""]] ∧
    Sql.tokens "'x\t\nCHARACTER\ty'" = .ok [⟨.character, "x\t\nCHARACTER\ty"⟩] ∧
    Sql.tokens "'x' 'y'" = .ok [⟨.character, "x"⟩, ⟨.character, "y"⟩] ∧
    printed "'x\t\nCHARACTER\ty'" = printed "'x' 'y'" := by
  decide +kernel

end SqlMemo.CommandLine
