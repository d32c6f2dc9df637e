import SqlMemo.CommandLine.Outcome

/-!
# The program

Reads what the command needs from outside, runs the command, and prints.
-/

set_option autoImplicit false

namespace SqlMemo.CommandLine

/-- An error of the operating system, as a failure of a file. -/
def describe : IO.Error → IoError
  | .noFileOrDirectory _ code details => .system details code.toNat
  | .permissionDenied _ code details => .system details code.toNat
  | .inappropriateType _ code details => .system details code.toNat
  | .invalidArgument _ code details => .system details code.toNat
  | .otherError code details => .system details code.toNat
  | error => .device error.toString

def readToEnd (stream : IO.FS.Stream) : IO ByteArray := do
  let mut content := ByteArray.empty
  repeat
    let chunk ← stream.read 65536
    if chunk.isEmpty then break
    content := content ++ chunk
  return content

def attempt {α : Type} (action : IO α) : IO (Except IoError α) := do
  match ← action.toBaseIO with
  | .ok result => return .ok result
  | .error error => return .error (describe error)

def readInput : IO (Except IoError Bytes) :=
  attempt do return (← readToEnd (← IO.getStdin)).toList

/-- The content of a file. A file that opens and cannot be read is bad from its beginning on. -/
def readFile (path : String) : IO (Except IoError Medium) := do
  match ← attempt (IO.FS.Handle.mk path .read) with
  | .error failure => return .error failure
  | .ok handle =>
    match ← attempt handle.readBinToEnd with
    | .ok content => return .ok (.ofBytes content.toList)
    | .error failure => return .ok { Medium.ofBytes [] with badArea := some (0, failure) }

/-- What a command needs to find outside the program. -/
def environmentFor (command : Command) : IO Environment := do
  let standardInput ← if command.readsInput then readInput else pure (.ok [])
  let file ← match command.file? with
    | some path => readFile path
    | none => pure (.error .notFound)
  return ⟨standardInput, fun _ => file⟩

/-- For a command that names no file and does not read standard input, nothing is done outside the
program. -/
theorem environmentFor_eq_pure {command : Command} (noFile : command.file? = none)
    (noInput : command.readsInput = false) :
    environmentFor command = pure ⟨.ok [], fun _ => .error .notFound⟩ := by
  rw [environmentFor, noFile, noInput]
  rfl

end SqlMemo.CommandLine

def main (arguments : List String) : IO UInt32 := do
  let outcome ← match SqlMemo.CommandLine.Command.ofArguments arguments with
    | .ok command => command.outcome <$> SqlMemo.CommandLine.environmentFor command
    | .error stop => pure stop.outcome
  IO.print outcome.output
  IO.eprint outcome.diagnostics
  return outcome.code
