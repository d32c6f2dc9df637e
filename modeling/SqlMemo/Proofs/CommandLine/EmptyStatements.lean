import SqlMemo.CommandLine.Outcome
import SqlMemo.Proofs.Sql.CallResolution
import SqlMemo.Proofs.Sql.Concatenation
import SqlMemo.Proofs.Text.Decoding

/-!
# Empty statements

The command that prints tokens refuses a statement of white space alone. A statement without tokens
is one of separators alone. These are different notions: some white space is no separator, and one
separator, NUL, is no white space.
-/

set_option autoImplicit false

namespace SqlMemo.Sql

theorem tokens_eq_nil_iff {statement : String} :
    tokens statement = .ok [] ↔ ∀ char ∈ statement.toList, isSeparator char = true := by
  constructor
  · intro empty
    obtain ⟨lexemes, lexed, meaning⟩ := exists_lexed_of_tokens empty
    obtain rfl := List.map_eq_nil_iff.mp meaning
    have trimmed := trimmed_trimSeparators statement.toList
    generalize trimSeparators statement.toList = text at lexed trimmed
    cases lexed
    exact trimmed.gap_of_nil
  · intro separators
    have gap : Gap statement.toList := separators
    exact tokens_of_trimmed_nil (by rw [trimSeparators, gap.dropWhile_eq_nil]; rfl)

/-- NUL is the only separator that is no white space. -/
theorem isWhiteSpace_of_isSeparator {char : Char} (separator : isSeparator char = true) :
    Text.isWhiteSpace char = true ∨ char = '\x00' := by
  simp only [isSeparator, Bool.or_eq_true, beq_iff_eq] at separator
  rcases separator with (((rfl | rfl) | rfl) | rfl) | rfl
  · exact .inl rfl
  · exact .inl rfl
  · exact .inl rfl
  · exact .inl rfl
  · exact .inr rfl

end SqlMemo.Sql

namespace SqlMemo.CommandLine

/-! ## Outcomes -/

/-- The statement on standard input is the text whose encoding is there. -/
theorem statementOf_none_eq_ok_iff {environment : Environment} {statement : String} :
    statementOf environment none = .ok statement ↔
      environment.standardInput = .ok (Text.Utf8.encode statement) := by
  simp [statementOf_eq_ok_iff, Text.Utf8.decode?_eq_some_iff]

theorem render_blank : Failure.render ⟨"no SQL input provided", []⟩ =
    "Error: no SQL input provided\n" := by
  decide +kernel

theorem render_fault_ne (cause : String) :
    Failure.render ⟨"scan statement", [cause]⟩ ≠ "Error: no SQL input provided\n" := by
  intro same
  have char := congrArg (fun text => text.toList[7]?) same
  simp [Failure.render] at char

section

variable {environment : Environment} {given : Option String} {statement : String}

theorem print_tokens (source : statementOf environment given = .ok statement)
    (format : TokenFormat) :
    (Command.tokens given format).print environment = printTokens statement format := by
  rw [Command.print, source]
  rfl

theorem outcome_of_blank (source : statementOf environment given = .ok statement)
    (format : TokenFormat) (blank : Text.isBlank statement = true) :
    (Command.tokens given format).outcome environment =
      ⟨1, "", "Error: no SQL input provided\n"⟩ := by
  have refuses : printTokens statement format = .error ⟨"no SQL input provided", []⟩ := by
    rw [printTokens, if_pos blank]
  simp only [Command.outcome, print_tokens source, refuses, render_blank]

theorem outcome_of_fault (source : statementOf environment given = .ok statement)
    (format : TokenFormat) (visible : Text.isBlank statement = false) {fault : Sql.ScanError}
    (fails : Sql.tokens statement = .error fault) :
    (Command.tokens given format).outcome environment =
      ⟨1, "", Failure.render ⟨"scan statement", [fault.message]⟩⟩ := by
  have reports : printTokens statement format = .error ⟨"scan statement", [fault.message]⟩ := by
    rw [printTokens, if_neg (Bool.eq_false_iff.mp visible), Sql.resolve_eq_map_tokens, fails]
    rfl
  simp only [Command.outcome, print_tokens source, reports]

theorem outcome_of_tokens (source : statementOf environment given = .ok statement)
    (format : TokenFormat) (visible : Text.isBlank statement = false) {read : List Sql.Token}
    (scans : Sql.tokens statement = .ok read) :
    (Command.tokens given format).outcome environment =
      ⟨0, String.join ((Sql.resolveTokens .standard read).map format.line), ""⟩ := by
  have prints : printTokens statement format =
      .ok (String.join ((Sql.resolveTokens .standard read).map format.line)) := by
    rw [printTokens, if_neg (Bool.eq_false_iff.mp visible), Sql.resolve_eq_map_tokens, scans]
    rfl
  simp only [Command.outcome, print_tokens source, prints]

/-- What the command can do with a statement: refuse it, report its first fault, or print its
tokens. -/
theorem outcome_cases (source : statementOf environment given = .ok statement)
    (format : TokenFormat) :
    let outcome := (Command.tokens given format).outcome environment
    (Text.isBlank statement = true ∧ outcome = ⟨1, "", "Error: no SQL input provided\n"⟩) ∨
    (Text.isBlank statement = false ∧ ∃ fault, Sql.tokens statement = .error fault ∧
      outcome = ⟨1, "", Failure.render ⟨"scan statement", [fault.message]⟩⟩) ∨
    (Text.isBlank statement = false ∧ ∃ read, Sql.tokens statement = .ok read ∧
      outcome = ⟨0, String.join ((Sql.resolveTokens .standard read).map format.line), ""⟩) := by
  intro outcome
  cases blank : Text.isBlank statement with
  | true => exact .inl ⟨rfl, outcome_of_blank source format blank⟩
  | false =>
      cases scan : Sql.tokens statement with
      | error fault =>
          exact .inr (.inl ⟨rfl, fault, rfl, outcome_of_fault source format blank scan⟩)
      | ok read => exact .inr (.inr ⟨rfl, read, rfl, outcome_of_tokens source format blank scan⟩)

theorem isBlank_iff :
    Text.isBlank statement = true ↔ ∀ char ∈ statement.toList, Text.isWhiteSpace char = true := by
  rw [Text.isBlank, List.all_eq_true]

theorem refused_iff (source : statementOf environment given = .ok statement)
    (format : TokenFormat) :
    (Command.tokens given format).outcome environment =
        ⟨1, "", "Error: no SQL input provided\n"⟩ ↔
      ∀ char ∈ statement.toList, Text.isWhiteSpace char = true := by
  rw [← isBlank_iff]
  rcases outcome_cases source format with
    ⟨blank, outcome_eq⟩ | ⟨blank, fault, -, outcome_eq⟩ | ⟨blank, read, -, outcome_eq⟩
  · exact iff_of_true outcome_eq blank
  · rw [outcome_eq]
    refine iff_of_false (fun same => ?_) (by simp [blank])
    exact render_fault_ne _ (congrArg Outcome.diagnostics same)
  · rw [outcome_eq]
    exact iff_of_false (by simp) (by simp [blank])

/-- The command refuses a statement as empty if it is white space throughout, and a statement has no
tokens if it is separators throughout. So the two differ on white space with some other character
than a separator in it, and on separators with a NUL among them. Behind any other character than a
separator, success means that a token is printed, and any other character than white space makes the
command read the statement. -/
theorem refusal_of_statement (source : statementOf environment given = .ok statement)
    (format : TokenFormat) :
    let outcome := (Command.tokens given format).outcome environment
    let refused := outcome = ⟨1, "", "Error: no SQL input provided\n"⟩
    let chars := statement.toList
    (refused ↔ ∀ char ∈ chars, Text.isWhiteSpace char = true) ∧
    (Sql.tokens statement = .ok [] ↔ ∀ char ∈ chars, Sql.isSeparator char = true) ∧
    (refused ∧ Sql.tokens statement ≠ .ok [] ↔
      (∀ char ∈ chars, Text.isWhiteSpace char = true) ∧
        ∃ char ∈ chars, Sql.isSeparator char = false) ∧
    (¬ refused ∧ Sql.tokens statement = .ok [] ↔
      (∀ char ∈ chars, Sql.isSeparator char = true) ∧ '\x00' ∈ chars) ∧
    ((∃ char ∈ chars, Sql.isSeparator char = false) → outcome.code = 0 →
      ∃ read, read ≠ [] ∧ Sql.tokens statement = .ok read ∧
        outcome.output = String.join ((Sql.resolveTokens .standard read).map format.line)) ∧
    ((∃ char ∈ chars, Text.isWhiteSpace char = false) →
      (∀ read, Sql.tokens statement = .ok read →
        outcome = ⟨0, String.join ((Sql.resolveTokens .standard read).map format.line), ""⟩) ∧
      ∀ fault, Sql.tokens statement = .error fault →
        outcome = ⟨1, "", Failure.render ⟨"scan statement", [fault.message]⟩⟩) := by
  intro outcome refused chars
  have refused_iff : refused ↔ _ := refused_iff source format
  have unread_iff := @Sql.tokens_eq_nil_iff statement
  have exists_iff (property : Char → Bool) :
      (∃ char ∈ chars, property char = false) ↔ ¬ ∀ char ∈ chars, property char = true := by
    simp
  refine ⟨refused_iff, unread_iff, ?_, ?_, ?_, ?_⟩
  · rw [refused_iff, Ne, unread_iff, exists_iff]
  · rw [refused_iff, unread_iff, and_comm]
    refine and_congr_right fun separators => ?_
    constructor
    · intro visible
      obtain ⟨char, member, solid⟩ := (exists_iff _).mpr visible
      rcases Sql.isWhiteSpace_of_isSeparator (separators char member) with white | rfl
      · rw [white] at solid
        cases solid
      · exact member
    · intro member white
      cases white _ member
  · intro solid succeeds
    rcases outcome_cases source format with
      ⟨-, outcome_eq⟩ | ⟨-, fault, -, outcome_eq⟩ | ⟨-, read, scans, outcome_eq⟩
    · cases (congrArg Outcome.code outcome_eq).symm.trans succeeds
    · cases (congrArg Outcome.code outcome_eq).symm.trans succeeds
    · refine ⟨read, ?_, scans, congrArg Outcome.output outcome_eq⟩
      rintro rfl
      exact (exists_iff _).mp solid (unread_iff.mp scans)
  · intro solid
    have visible : Text.isBlank statement = false :=
      Bool.eq_false_iff.mpr (mt isBlank_iff.mp ((exists_iff _).mp solid))
    exact ⟨fun _ => outcome_of_tokens source format visible,
      fun _ => outcome_of_fault source format visible⟩

/-- A name on standard input is read, and printed as the one token that it is. -/
theorem refusal_of_statement_name :
    statementOf ⟨.ok [0x61], fun _ => .error .notFound⟩ none = .ok "a" ∧
    (∃ char ∈ "a".toList, Text.isWhiteSpace char = false) ∧
    Sql.tokens "a" = .ok [⟨.identifier, "a"⟩] ∧
    (Command.tokens none .plain).outcome ⟨.ok [0x61], fun _ => .error .notFound⟩ =
      ⟨0, "IDENTIFIER a\n", ""⟩ := by
  have source : statementOf ⟨.ok [0x61], fun _ => .error .notFound⟩ none = .ok "a" :=
    statementOf_none_eq_ok_iff.mpr (by decide +kernel)
  have solid : ∃ char ∈ "a".toList, Text.isWhiteSpace char = false :=
    ⟨'a', by decide +kernel, rfl⟩
  have scans : Sql.tokens "a" = .ok [⟨.identifier, "a"⟩] := by decide +kernel
  refine ⟨source, solid, scans, ?_⟩
  rw [((refusal_of_statement source .plain).2.2.2.2.2 solid).1 _ scans]
  decide +kernel

/-- A vertical tab is refused, though it is a token. A NUL is not refused, though it is none, and
nothing is printed. -/
theorem not_refused_iff_no_tokens :
    let environment (input : Bytes) : Environment := ⟨.ok input, fun _ => .error .notFound⟩
    let refusal : Outcome := ⟨1, "", "Error: no SQL input provided\n"⟩
    ¬ (run (environment []) ["tokens", "\x0B"] = refusal ↔ Sql.tokens "\x0B" = .ok []) ∧
    ¬ (run (environment [0]) ["tokens"] = refusal ↔ Sql.tokens "\x00" = .ok []) ∧
    run (environment [0]) ["tokens"] = ⟨0, "", ""⟩ := by
  intro environment refusal
  have refused : run (environment []) ["tokens", "\x0B"] = refusal := by decide +kernel
  have token : Sql.tokens "\x0B" = .ok [⟨.identifier, "\x0B"⟩] := by decide +kernel
  have accepted : run (environment [0]) ["tokens"] = ⟨0, "", ""⟩ := by decide +kernel
  have noToken : Sql.tokens "\x00" = .ok [] := by decide +kernel
  refine ⟨?_, ?_, accepted⟩
  · rw [token]
    intro agree
    cases agree.mp refused
  · rw [accepted]
    intro agree
    exact absurd (congrArg Outcome.code (agree.mpr noToken)) (by decide)

end

end SqlMemo.CommandLine
