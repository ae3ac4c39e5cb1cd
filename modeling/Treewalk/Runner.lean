import Treewalk.Document
import Treewalk.Executor
import Treewalk.Files
import Treewalk.HelpPage

/-! Runs of program files. The options say which file is run, whether its tree is shown first,
and what the journal keeps; only the file and the first of these show in the output. -/
namespace Treewalk

inductive RunError where
  | usage (e : UsageError)
  | level (e : LevelError)
  | unreadable (path : Text) (e : FileError)
  | document (e : DocumentError)
  | refusedTree
  | fault (f : Fault)

namespace RunError

def message : RunError → Text
  | .usage e => e.message
  | .level e => e.message
  | .unreadable path e => Text.ofString "could not read program: " ++ e.message path
  | .document e => e.message
  | .refusedTree => "sink closed"
  | .fault f => f.message

def kind? : RunError → Option ErrorKind
  | .document e => e.kind?
  | .fault f => f.kind?
  | _ => none

end RunError

structure Report where
  output : Text
  error : Option RunError
  journal : List Entry

namespace Report

def refused (e : RunError) : Report := ⟨[], some e, []⟩

def halted (limit : Option Nat) : Halt → Report
  | .help => ⟨HelpPage.written limit, none, []⟩
  | .misuse e => refused (.usage e)

end Report

namespace Format

/-- What follows the last point of the last name of a path, the point included. -/
def extension (path : Text) : Text :=
  let name := path.reverse.takeWhile (· ≠ Text.ascii '/')
  if Text.ascii '.' ∈ name then
    Text.ascii '.' :: (name.takeWhile (· ≠ Text.ascii '.')).reverse
  else []

def ofPath (path : Text) : Format :=
  let extension := Text.lowered (extension path)
  if extension = Text.ofString ".yaml" ∨ extension = Text.ofString ".yml" then .yaml else .json

end Format

namespace Options

def tree (o : Options) (content : Except FileError Text) : Except RunError Tree :=
  match content with
  | .error e => .error (.unreadable o.program e)
  | .ok text => (Tree.ofDocument (.ofPath o.program) text).mapError .document

def showTree? (o : Options) (t : Tree) (sink : Sink) : Option Sink :=
  if o.printTree then sink.write? t.text else some sink

def host (o : Options) : Host :=
  ((Host.new o.trace).mark "decode.done").log (.running o.program)

/-- Runs the program in a new global scope. There is no report if the depth `n` is exhausted. -/
def run (n : Nat) (o : Options) (content : Except FileError Text) (sink : Sink) : Option Report :=
  match Level.enabled o.development o.level, o.tree content with
  | .error e, _ => some (.refused (.level e))
  | .ok _, .error e => some (.refused e)
  | .ok levels, .ok t =>
    match o.showTree? t sink with
    | none => some (.refused .refusedTree)
    | some sink =>
      let (root, store) := Store.empty.newScope none
      let (outcome, host) := execute n true t root store sink o.host
      let journal := host.journal.toList.filter fun e => e.level ∈ levels
      match outcome with
      | .value _ st => some ⟨st.sink.text, none, journal⟩
      | .fault f st => some ⟨st.sink.text, some (.fault f), journal⟩
      | .exhausted => none

end Options

def runCommand (n : Nat) (files : Files) (environment : Table Text Text)
    (arguments : List Text) (limit : Option Nat) : Option Report :=
  match Options.read environment arguments with
  | .error halt => some (.halted limit halt)
  | .ok o => o.run n (files.read o.program) ⟨limit, #[]⟩

end Treewalk
