import SqlMemo.CommandLine.Arguments

/-!
# Commands

The three things that the program does, each with its arguments: to print the tokens of a
statement, a memo, or the table of field types.
-/

set_option autoImplicit false

namespace SqlMemo.CommandLine

/-- How tokens are printed: for reading, or as columns between tabs. -/
inductive TokenFormat where
  | plain | tsv
  deriving DecidableEq, Repr

def TokenFormat.ofName? : String → Option TokenFormat
  | "plain" => some .plain
  | "tsv" => some .tsv
  | _ => none

/-- A command with its arguments.

* `tokens`: the statement comes from standard input, unless it is given.
* `memo`: a memo with a given address and length in a file, or with its value in the leader. -/
inductive Command where
  | tokens (statement : Option String) (format : TokenFormat)
  | memo (file : Option String) (address length : UInt32) (leader : Option String)
  | types
  deriving DecidableEq, Repr

namespace Command

/-- The names of the commands, and of the help that is one too. -/
def names : List String :=
  ["tokens", "clob", "types", "help"]

def tokensGrammar : Grammar where
  options := [("format", fun value => (TokenFormat.ofName? value).isSome)]
  operandCount := 1
  isOperand _ := true

def memoGrammar : Grammar where
  options := [("offset", fun value => (parseWord? value).isSome),
    ("length", fun value => (parseWord? value).isSome), ("leader", fun _ => true)]
  operandCount := 1
  isOperand operand := operand != ""

/-- The command that prints field types takes no arguments. -/
def typesGrammar : Grammar where
  options := []
  operandCount := 0
  isOperand _ := false

def tokensOf (arguments : List String) : Except Stop Command := do
  let found ← tokensGrammar.parse arguments
  let format := (found.option? "format").bind TokenFormat.ofName?
  return .tokens found.operands.head? (format.getD .plain)

def memoOf (arguments : List String) : Except Stop Command := do
  let found ← memoGrammar.parse arguments
  match (found.option? "offset").bind parseWord?, (found.option? "length").bind parseWord? with
  | some address, some length =>
    return .memo found.operands.head? address length (found.option? "leader")
  | _, _ => throw .misuse

def typesOf (arguments : List String) : Except Stop Command := do
  let _ ← typesGrammar.parse arguments
  return .types

def helpOn : List String → Stop
  | [] => .help
  | [name] => if name ∈ names then .help else .misuse
  | _ => .misuse

/-- The command that the arguments of the program ask for. -/
def ofArguments : List String → Except Stop Command
  | [] => .error .misuse
  | "tokens" :: arguments => tokensOf arguments
  | "clob" :: arguments => memoOf arguments
  | "types" :: arguments => typesOf arguments
  | "help" :: arguments => .error (helpOn arguments)
  | "--help" :: _ => .error .help
  | "--version" :: _ => .error .version
  | argument :: _ =>
    match argument.toList with
    | '-' :: 'h' :: _ => .error .help
    | '-' :: 'V' :: _ => .error .version
    | _ => .error .misuse

/-- Whether a command reads standard input. -/
def readsInput : Command → Bool
  | tokens none _ => true
  | _ => false

/-- The file that a command opens. A memo at address zero needs none. -/
def file? : Command → Option String
  | memo (some file) address _ _ => if address = 0 then none else some file
  | _ => none

end Command

end SqlMemo.CommandLine
