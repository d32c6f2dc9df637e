import SqlMemo.CommandLine.Outcome
import SqlMemo.Proofs.Text.Beginnings

/-!
# Memos in print

A memo whose address is zero is in the leader, and no file is opened for it. The leader is a text,
and it is cut to a number of bytes. What is left is a text again, and is printed, exactly if the cut
is in front of a character or behind the end.
-/

set_option autoImplicit false

namespace SqlMemo.CommandLine

open Text

/-! ## Memos in the leader -/

/-- A memo in the leader needs no file, even if one is given. -/
theorem file?_leader (file leader : Option String) (length : UInt32) :
    (Command.memo file 0 length leader).file? = none := by
  cases file <;> rfl

theorem print_leader (environment : Environment) (file leader : Option String)
    (length : UInt32) :
    (Command.memo file 0 length leader).print environment =
      match Utf8.decode? ((Utf8.encode (leader.getD "")).take length.toNat) with
      | some text => .ok (text ++ "\n")
      | none => .error ⟨"decode clob", [invalidText]⟩ := by
  have value : (leader.map Utf8.encode).getD [] = Utf8.encode (leader.getD "") := by
    cases leader <;> rfl
  rw [← value]
  rfl

theorem render_decode : Failure.render ⟨"decode clob", [invalidText]⟩ =
    "Error: decode clob\n\nCaused by:\n    stream did not contain valid UTF-8\n" := by
  decide +kernel

theorem run_leader {arguments : List String} {file leader : Option String} {length : UInt32}
    (parsed : Command.ofArguments arguments = .ok (.memo file 0 length leader))
    (environment : Environment) :
    run environment arguments =
      match Utf8.decode? ((Utf8.encode (leader.getD "")).take length.toNat) with
      | some text => ⟨0, text ++ "\n", ""⟩
      | none =>
        ⟨1, "", "Error: decode clob\n\nCaused by:\n    stream did not contain valid UTF-8\n"⟩ := by
  simp only [run, parsed, Command.outcome, print_leader]
  cases Utf8.decode? ((Utf8.encode (leader.getD "")).take length.toNat) with
  | some text => rfl
  | none => simp only [render_decode]

/-- For a memo in the leader, no file is opened and standard input is not read. The leader, or no
text at all if there is none, is cut to the given number of bytes, and the run prints what is left
if the cut is behind the end or in front of a character. Otherwise it fails, and prints only why. -/
theorem outcome_of_leader {arguments : List String} {file leader : Option String}
    {length : UInt32}
    (parsed : Command.ofArguments arguments = .ok (.memo file 0 length leader)) :
    let text := leader.getD ""
    let fits := text.utf8ByteSize ≤ length.toNat ∨ String.Pos.Raw.IsValid text ⟨length.toNat⟩
    let command := Command.memo file 0 length leader
    command.file? = none ∧ command.readsInput = false ∧
    ∀ environment,
      let outcome := run environment arguments
      (outcome.code = 0 ↔ fits) ∧
      (fits → ∃ first rest, text = first ++ rest ∧
        first.utf8ByteSize = min length.toNat text.utf8ByteSize ∧
        outcome = ⟨0, first ++ "\n", ""⟩) ∧
      (¬ fits → outcome = ⟨1, "",
        "Error: decode clob\n\nCaused by:\n    stream did not contain valid UTF-8\n"⟩) := by
  intro text fits command
  refine ⟨file?_leader file leader length, rfl, ?_⟩
  intro environment outcome
  have outcome_eq : outcome = _ := run_leader parsed environment
  rcases Utf8.decode?_take_cases text length.toNat with
    ⟨fit, first, rest, split, size, decodes⟩ | ⟨unfit, fails⟩
  · rw [decodes] at outcome_eq
    refine ⟨iff_of_true (congrArg Outcome.code outcome_eq) fit, ?_, fun unfit => absurd fit unfit⟩
    exact fun _ => ⟨first, rest, split, size, outcome_eq⟩
  · rw [fails] at outcome_eq
    refine ⟨iff_of_false ?_ unfit, fun fit => absurd fit unfit, fun _ => outcome_eq⟩
    rw [outcome_eq]
    exact (by decide : (1 : UInt32) ≠ 0)

/-- A letter of two bytes is printed whole, and half of it is refused, whatever the file holds. -/
theorem outcome_of_leader_accent :
    let arguments (length : String) : List String :=
      ["clob", "t.mb", "--offset", "0", "--length", length, "--leader", "é!"]
    Command.ofArguments (arguments "2") = .ok (.memo (some "t.mb") 0 2 (some "é!")) ∧
    Command.ofArguments (arguments "1") = .ok (.memo (some "t.mb") 0 1 (some "é!")) ∧
    (Command.memo (some "t.mb") 0 1 (some "é!")).file? = none ∧
    ∀ environment,
      (run environment (arguments "2")).code = 0 ∧
      run environment (arguments "1") = ⟨1, "",
        "Error: decode clob\n\nCaused by:\n    stream did not contain valid UTF-8\n"⟩ := by
  intro arguments
  have whole : Command.ofArguments (arguments "2") =
      .ok (.memo (some "t.mb") 0 2 (some "é!")) := rfl
  have half : Command.ofArguments (arguments "1") =
      .ok (.memo (some "t.mb") 0 1 (some "é!")) := rfl
  refine ⟨whole, half, (outcome_of_leader half).1, fun environment => ⟨?_, ?_⟩⟩
  · refine ((outcome_of_leader whole).2.2 environment).1.mpr (.inr ?_)
    exact Utf8.isBoundary_iff_isValid.mp (by decide +kernel : Utf8.IsBoundary "é!".toList 2)
  · refine ((outcome_of_leader half).2.2 environment).2.2 ?_
    rintro (long | valid)
    · exact absurd long (by decide +kernel)
    · exact absurd (Utf8.isBoundary_iff_isValid.mpr valid)
        (by decide +kernel : ¬ Utf8.IsBoundary "é!".toList 1)

end SqlMemo.CommandLine
