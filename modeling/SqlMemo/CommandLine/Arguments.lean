/-!
# Command-line arguments

Arguments are options with a value and operands, in any order. An option is written `--name value`
or `--name=value`, and only the second form allows a value that looks like an option itself. Behind
`--` everything is an operand. The first argument that does not fit decides.
-/

set_option autoImplicit false

namespace SqlMemo.CommandLine

/-- Why there is no command to run: a fault in the arguments, or a request to the program itself. -/
inductive Stop where
  | misuse | help | version
  deriving DecidableEq, Repr

/-- The arguments that a command takes: its options with their admissible values, the number of
operands, and the admissible operands. -/
structure Grammar where
  options : List (String × (String → Bool))
  operandCount : Nat
  isOperand : String → Bool

structure Matches where
  options : List (String × String)
  operands : List String
  deriving DecidableEq, Repr

def Matches.option? (found : Matches) (name : String) : Option String :=
  found.options.lookup name

/-- Whether an argument does not look like an option. A hyphen alone does not. -/
def isPlain (argument : String) : Bool :=
  match argument.toList with
  | '-' :: _ :: _ => false
  | _ => true

/-- Splits an option at its first equals sign into name and value. -/
def splitOption (option : List Char) : String × Option String :=
  let name := String.ofList (option.takeWhile (· != '='))
  match option.dropWhile (· != '=') with
  | [] => (name, none)
  | _ :: value => (name, some (String.ofList value))

namespace Grammar

/-- Adds an operand, if there is room for it and it is admissible. -/
def addOperand (grammar : Grammar) (found : Matches) (operand : String) : Except Stop Matches :=
  if found.operands.length < grammar.operandCount && grammar.isOperand operand then
    .ok { found with operands := found.operands ++ [operand] }
  else .error .misuse

/-- Adds an option, if it exists, is new, and the value is admissible. -/
def addOption (grammar : Grammar) (found : Matches) (name value : String) : Except Stop Matches :=
  match grammar.options.lookup name, found.option? name with
  | some isValue, none =>
    if isValue value then .ok { found with options := (name, value) :: found.options }
    else .error .misuse
  | _, _ => .error .misuse

def addAll (grammar : Grammar) (found : Matches) : List String → Except Stop Matches
  | [] => .ok found
  | argument :: rest =>
    match argument.toList with
    | ['-', '-'] => rest.foldlM grammar.addOperand found
    | '-' :: '-' :: option =>
      match splitOption option with
      | ("help", none) => .error .help
      | (name, some value) => do grammar.addAll (← grammar.addOption found name value) rest
      | (name, none) =>
        match rest with
        | [] => .error .misuse
        | value :: rest =>
          if isPlain value then do grammar.addAll (← grammar.addOption found name value) rest
          else .error .misuse
    | '-' :: 'h' :: _ => .error .help
    | '-' :: _ :: _ => .error .misuse
    | _ => do grammar.addAll (← grammar.addOperand found argument) rest

def parse (grammar : Grammar) (arguments : List String) : Except Stop Matches :=
  grammar.addAll ⟨[], []⟩ arguments

end Grammar

/-- A decimal number of 32 bits, with or without a sign. Zero alone may be negative. -/
def parseWord? (text : String) : Option UInt32 :=
  let (negative, digits) := match text.toList with
    | '+' :: digits => (false, digits)
    | '-' :: digits => (true, digits)
    | digits => (false, digits)
  if digits.isEmpty || !digits.all Char.isDigit then none
  else
    let value := digits.foldl (fun value digit => value * 10 + (digit.toNat - '0'.toNat)) 0
    if (negative && value != 0) || UInt32.size ≤ value then none else some (UInt32.ofNat value)

end SqlMemo.CommandLine
