import SqlMemo.CommandLine.Command
import SqlMemo.Memo
import SqlMemo.Sql.Call
import SqlMemo.Table.FieldType
import SqlMemo.Text.WhiteSpace

/-!
# Running a command

What the program prints and how it ends, as a function of its arguments and of what it finds on
standard input and in files. A command either succeeds and prints, or it fails and prints nothing
but the reason.
-/

set_option autoImplicit false

namespace SqlMemo.CommandLine

/-- What a command can find outside the program. -/
structure Environment where
  standardInput : Except IoError Bytes
  openFile : String → Except IoError Medium

/-- Why a command failed: what it was doing, and the causes, each brought about by the next. -/
structure Failure where
  context : String
  causes : List String
  deriving DecidableEq, Repr

/-- How a run of the program ends: the exit code and what is printed on either channel. -/
structure Outcome where
  code : UInt32
  output : String
  diagnostics : String
  deriving DecidableEq, Repr

/-! ## Texts -/

/-- The text of a failure. Several causes are numbered from zero. -/
def Failure.render (failure : Failure) : String :=
  let lines := match failure.causes with
    | [] => []
    | [cause] => ["", "Caused by:", "    " ++ cause]
    | causes =>
      "" :: "Caused by:" :: causes.mapIdx fun number cause => s!"    {number}: " ++ cause
  String.join ((("Error: " ++ failure.context) :: lines).map (· ++ "\n"))

/-- The cause of a failure to decode. -/
def invalidText : String :=
  "stream did not contain valid UTF-8"

def versionText : String :=
  "paradox-sql 0.1.0\n"

def helpText : String :=
  String.join ([
    "SQL scanner and CLOB/BLOB decoding for Paradox tables",
    "",
    "Usage: paradox-sql <COMMAND>",
    "",
    "Commands:",
    "  tokens  Print the tokens of a SQL statement",
    "  clob    Print a memo value stored in a .MB file",
    "  types   Print the Paradox field type to SQL type mapping",
    "  help    Print this message or the help of the given subcommand(s)",
    "",
    "Options:",
    "  -h, --help     Print help",
    "  -V, --version  Print version"].map (· ++ "\n"))

/-! ## Commands -/

def TokenFormat.line (format : TokenFormat) (resolved : Sql.ResolvedToken) : String :=
  let kind := resolved.token.kind.name
  let text := resolved.token.text
  match format, resolved.procedure with
  | .plain, none => s!"{kind} {text}\n"
  | .plain, some procedure =>
    let name := procedure.name
    s!"{kind} {text} (procedure {name})\n"
  | .tsv, procedure =>
    let name := (procedure.map Procedure.name).getD ""
    s!"{kind}\t{text}\t{name}\n"

def typeLine (fieldType : FieldType) : String :=
  let code := Text.hexadecimalPadded 2 fieldType.code
  let name := fieldType.name
  let columnType := fieldType.columnType.name
  s!"{code}\t{name}\t{columnType}\n"

/-- The statement that a command is about, which is on standard input unless it is given. -/
def statementOf (environment : Environment) : Option String → Except Failure String
  | some statement => .ok statement
  | none =>
    match environment.standardInput with
    | .error failure => .error ⟨"read statement from stdin", [failure.message]⟩
    | .ok bytes =>
      match Text.Utf8.decode? bytes with
      | some statement => .ok statement
      | none => .error ⟨"read statement from stdin", [invalidText]⟩

/-- A given statement is taken as it is, whatever is on standard input. Without one, the statement is
the text of standard input. -/
theorem statementOf_eq_ok_iff {environment : Environment} {given : Option String}
    {statement : String} :
    statementOf environment given = .ok statement ↔
      given = some statement ∨
        given = none ∧ ∃ bytes, environment.standardInput = .ok bytes ∧
          Text.Utf8.decode? bytes = some statement := by
  cases given with
  | some given => simp [statementOf]
  | none =>
    cases input : environment.standardInput with
    | error failure => simp [statementOf, input]
    | ok bytes => cases decoded : Text.Utf8.decode? bytes <;> simp [statementOf, input, decoded]

/-- The tokens of a statement in print. A blank statement is refused. -/
def printTokens (statement : String) (format : TokenFormat) : Except Failure String :=
  if Text.isBlank statement then .error ⟨"no SQL input provided", []⟩
  else
    match Sql.resolve .standard statement with
    | .error fault => .error ⟨"scan statement", [fault.message]⟩
    | .ok resolved => .ok (String.join (resolved.map format.line))

/-- The file that a memo is in, unless its address is zero. -/
def sourceOf (environment : Environment) (file : Option String) (address : UInt32) :
    Except Failure (Option BlobFile) :=
  if address = 0 then .ok none
  else
    match file with
    | none => .error ⟨"a blob file is needed for offset " ++ Text.hexadecimal address.toNat, []⟩
    | some path =>
      match environment.openFile path with
      | .error failure => .error ⟨"open blob file " ++ path, [failure.message]⟩
      | .ok medium => .ok (some (.ofMedium medium))

def printMemo (pointer : MemoPointer) (source : Option BlobFile) : Except Failure String :=
  match ((Memo.ofPointer pointer).load source).1 with
  | .error error => .error ⟨"load clob", error.messages⟩
  | .ok value =>
    match Text.Utf8.decode? value with
    | some text => .ok (text ++ "\n")
    | none => .error ⟨"decode clob", [invalidText]⟩

def Command.print (environment : Environment) : Command → Except Failure String
  | .tokens statement format => do printTokens (← statementOf environment statement) format
  | .memo file address length leader => do
    let source ← sourceOf environment file address
    printMemo ⟨leader.map Text.Utf8.encode, address, length, 0⟩ source
  | .types => .ok (String.join (FieldType.all.map typeLine))

def Command.outcome (environment : Environment) (command : Command) : Outcome :=
  match command.print environment with
  | .ok output => ⟨0, output, ""⟩
  | .error failure => ⟨1, "", failure.render⟩

/-- Outside the program, a command finds out no more than what the file that it names holds, and what
is on standard input if it reads that. -/
theorem Command.outcome_congr {command : Command} {environment environment' : Environment}
    (input : command.readsInput = true →
      environment.standardInput = environment'.standardInput)
    (file : ∀ path, command.file? = some path →
      environment.openFile path = environment'.openFile path) :
    command.outcome environment = command.outcome environment' := by
  suffices printed : command.print environment = command.print environment' by
    rw [outcome, outcome, printed]
  cases command with
  | types => rfl
  | tokens given format =>
    cases given with
    | some statement => rfl
    | none => simp only [print, statementOf, input rfl]
  | memo path address length leader =>
    by_cases inLeader : address = 0
    · simp only [print, sourceOf, inLeader, if_true]
    · cases path with
      | none => simp only [print, sourceOf, inLeader, if_false]
      | some path => simp only [print, sourceOf, inLeader, if_false, file path (if_neg inLeader)]

def Stop.outcome : Stop → Outcome
  | .misuse => ⟨2, "", helpText⟩
  | .help => ⟨0, helpText, ""⟩
  | .version => ⟨0, versionText, ""⟩

def run (environment : Environment) (arguments : List String) : Outcome :=
  match Command.ofArguments arguments with
  | .ok command => command.outcome environment
  | .error stop => stop.outcome

end SqlMemo.CommandLine
