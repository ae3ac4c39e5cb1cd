import Treewalk.Table
import Treewalk.Text.Quoted
import Treewalk.Text.Truth

/-! Options of the command line. Every setting may come from an environment variable and from
arguments; arguments come later and replace what the environment gave. -/
namespace Treewalk

inductive Setting where
  | program | printTree | trace | development | level
deriving DecidableEq

namespace Setting

def all : List Setting := [program, printTree, trace, development, level]

def label : Setting → Text
  | program => "program"
  | printTree => "print-ast"
  | trace => "trace"
  | development => "dev"
  | level => "log-level"

def variableName : Setting → Text
  | program => "FWJS_PROGRAM"
  | printTree => "FWJS_PRINT_AST"
  | trace => "FWJS_TRACE"
  | development => "FWJS_DEV"
  | level => "FWJS_LOG_LEVEL"

def isFlag : Setting → Bool
  | printTree | trace | development => true
  | program | level => false

def default? : Setting → Option Text
  | program => none
  | printTree | trace | development => some (Text.truth false)
  | level => some "info"

/-- The setting of a name. The empty name selects the first setting. -/
def ofName? (name : Text) : Option Setting :=
  if name = [] then all.head? else all.find? fun s => s.label = name

end Setting

inductive UsageError where
  | badVariable (setting : Setting) (value : Text)
  | badValue (argument value : Text)
  | unknownArgument (argument : Text)
  | missingValue (argument : Text)
  | surplusArgument (argument : Text)
  | programRequired
  | versionAsked

namespace UsageError

def notTruth (value : Text) : Text :=
  Text.ofString "strconv.ParseBool: parsing " ++ Text.quoted value
    ++ Text.ofString ": invalid syntax"

def message : UsageError → Text
  | .badVariable setting value =>
    Text.ofString "error processing environment variable " ++ setting.variableName
      ++ Text.ofString ": " ++ notTruth value
  | .badValue argument value =>
    Text.ofString "error processing " ++ argument ++ Text.ofString ": " ++ notTruth value
  | .unknownArgument argument => Text.ofString "unknown argument " ++ argument
  | .missingValue argument => Text.ofString "missing value for " ++ argument
  | .surplusArgument argument =>
    Text.ofString "too many positional arguments at " ++ Text.shown argument
  | .programRequired => "--program is required"
  | .versionAsked => "version requested by user"

end UsageError

inductive Halt where
  | help
  | misuse (e : UsageError)

structure Options where
  program : Text
  printTree : Bool
  trace : Bool
  development : Bool
  level : Text

structure Draft where
  program : Option Text
  printTree : Option Bool
  trace : Option Bool
  development : Option Bool
  level : Option Text

namespace Draft

def empty : Draft := ⟨none, none, none, none, none⟩

def set? (d : Draft) (value : Text) : Setting → Option Draft
  | .program => some { d with program := some value }
  | .printTree => (Text.readTruth value).map fun b => { d with printTree := some b }
  | .trace => (Text.readTruth value).map fun b => { d with trace := some b }
  | .development => (Text.readTruth value).map fun b => { d with development := some b }
  | .level => some { d with level := some value }

def fromVariable (environment : Table Text Text) (d : Draft) (s : Setting) :
    Except Halt Draft :=
  match environment.lookup s.variableName with
  | none => .ok d
  | some value =>
    match d.set? value s with
    | some d => .ok d
    | none => .error (.misuse (.badVariable s value))

def fromEnvironment (environment : Table Text Text) : Except Halt Draft :=
  Setting.all.foldlM (fromVariable environment) empty

/-- An argument that names a setting: it starts with a dash and holds more than dashes. -/
def isOption (argument : Text) : Bool :=
  argument.head? = some (Text.ascii '-') && argument.any (· ≠ Text.ascii '-')

def asksHelp (argument : Text) : Bool :=
  argument = Text.ofString "-h" || argument = Text.ofString "--help"

def splitOption (argument : Text) : Text × Text :=
  let body := argument.dropWhile (· = Text.ascii '-')
  let isName (b : UInt8) : Bool := b ≠ Text.ascii '='
  (body.takeWhile isName, (body.dropWhile isName).drop 1)

def separator : Text := "--"

/-- Reads arguments in order. The result has the first positional argument, if there is any. -/
def read (d : Draft) (positional : Option Text) (separated : Bool) :
    List Text → Except Halt (Draft × Option Text)
  | [] => .ok (d, positional)
  | argument :: rest =>
    if argument = separator then read d positional true rest
    else if separated || !isOption argument then
      read d (positional.or (some argument)) separated rest
    else if asksHelp argument then .error .help
    else if argument = Text.ofString "--version" then .error (.misuse .versionAsked)
    else
      let (name, value) := splitOption argument
      match Setting.ofName? name with
      | none => .error (.misuse (.unknownArgument argument))
      | some s =>
        if s.isFlag || value ≠ [] then
          let value := if value = [] then Text.truth true else value
          match d.set? value s with
          | some d => read d positional separated rest
          | none => .error (.misuse (.badValue argument value))
        else
          match rest with
          | [] => .error (.misuse (.missingValue argument))
          | next :: rest =>
            if isOption next then .error (.misuse (.missingValue argument))
            else
              match d.set? next s with
              | some d => read d positional separated rest
              | none => .error (.misuse (.badValue argument next))

def finish (d : Draft) : Except Halt Options :=
  match d.program with
  | none => .error (.misuse .programRequired)
  | some program =>
    .ok ⟨program, d.printTree.getD false, d.trace.getD false, d.development.getD false,
      d.level.getD (Setting.level.default?.getD [])⟩

end Draft

namespace Options

def gather (environment : Table Text Text) (arguments : List Text) : Except Halt Options := do
  let d ← Draft.fromEnvironment environment
  let (d, positional) ← d.read none false arguments
  match positional with
  | some argument => .error (.misuse (.surplusArgument argument))
  | none => d.finish

/-- Reads the options. A request for help in front of any separator wins over all mistakes. -/
def read (environment : Table Text Text) (arguments : List Text) : Except Halt Options :=
  match gather environment arguments with
  | .ok o => .ok o
  | .error halt =>
    if (arguments.takeWhile (· ≠ Draft.separator)).any Draft.asksHelp then .error .help
    else .error halt

end Options
end Treewalk
