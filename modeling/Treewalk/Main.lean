import Treewalk.Runner

/-! The command line: runs a program file and exits with 1 if that fails. -/
namespace Treewalk.Main

def depth : Nat := 1000000000

def environment : IO (Table Text Text) :=
  Setting.all.filterMapM fun s => do
    let name := String.fromUTF8? ⟨s.variableName.toArray⟩
    match ← IO.getEnv (name.getD "") with
    | some value => return some (s.variableName, Text.ofString value)
    | none => return none

def fileError : IO.Error → FileError
  | .inappropriateType .. => .isADirectory
  | .invalidArgument .. => .badName
  | _ => .notFound

def content (path : Text) : IO (Except FileError Text) := do
  match String.fromUTF8? ⟨path.toArray⟩ with
  | none => return .error .notFound
  | some name =>
    try
      return .ok (← IO.FS.readBinFile name).data.toList
    catch e => return .error (fileError e)

def write (stream : IO.FS.Stream) (t : Text) : IO Unit := do
  stream.write ⟨t.toArray⟩
  stream.flush

def present (report : Report) : IO UInt32 := do
  let diagnostics ← IO.getStderr
  for e in report.journal do
    write diagnostics (Text.line (e.level.label ++ Text.ofString ": " ++ e.message))
  write (← IO.getStdout) report.output
  match report.error with
  | none => return 0
  | some e =>
    write diagnostics (Text.line (Text.ofString "error [" ++ ErrorKind.labelOf e.kind?
      ++ Text.ofString "]: " ++ e.message))
    return 1

def run (arguments : List Text) : IO UInt32 := do
  let report ← match Options.read (← environment) arguments with
    | .error halt => pure (some (.halted none halt))
    | .ok o => pure (o.run depth (← content o.program) .unlimited)
  match report with
  | some report => present report
  | none => return 2

end Treewalk.Main

def main (arguments : List String) : IO UInt32 :=
  Treewalk.Main.run (arguments.map Treewalk.Text.ofString)
