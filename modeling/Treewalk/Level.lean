import Treewalk.Text.LowerCase
import Treewalk.Text.Quoted

/-! Severity levels of journal entries and the choice of the levels that are kept. -/
namespace Treewalk

inductive Level where
  | debug | info | warn | error | dpanic | panic | fatal
deriving DecidableEq

structure LevelError where
  text : Text

def LevelError.message (e : LevelError) : Text :=
  Text.ofString "invalid log level " ++ Text.shown e.text
    ++ Text.ofString ": unrecognized level: " ++ Text.quoted e.text

namespace Level

def all : List Level := [debug, info, warn, error, dpanic, panic, fatal]

def label : Level → Text
  | debug => "debug"
  | info => "info"
  | warn => "warn"
  | error => "error"
  | dpanic => "dpanic"
  | panic => "panic"
  | fatal => "fatal"

def rank (l : Level) : Nat := all.idxOf l

/-- The level that a text names, in any case; no text at all names `info`. -/
def ofText? (t : Text) : Option Level :=
  if t = [] then some info else all.find? fun l => l.label = Text.lowered t

def upward (l : Level) : List Level := all.filter fun m => l.rank ≤ m.rank

/-- The levels that are kept: all during development, else those from the named one upward. -/
def enabled (development : Bool) (name : Text) : Except LevelError (List Level) :=
  if development then .ok all
  else
    match ofText? name with
    | some l => .ok l.upward
    | none => .error ⟨name⟩

end Level
end Treewalk
