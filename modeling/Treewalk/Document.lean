import Treewalk.Datum.Json
import Treewalk.Tree.Decode
import Treewalk.Yaml.Load

/-! Program documents. A JSON document is decoded as it stands; a YAML document is read as
generic data, written as JSON and decoded from that. -/
namespace Treewalk

inductive Format where
  | json
  | yaml
deriving DecidableEq

/-- Why a document holds no tree. All such errors are of the kind of malformed trees. -/
inductive DocumentError where
  | tree (e : DecodeError)
  | notYaml
  | unwritable (e : WriteError)

namespace DocumentError

def message : DocumentError → Text
  | .tree e => e.message
  | .notYaml =>
    ErrorKind.malformedTree.heading ++ Text.ofString ": yaml: the document is not well-formed"
  | .unwritable e => ErrorKind.malformedTree.heading ++ Text.ofString ": " ++ e.message

def cause (e : DocumentError) : Cause := .wrap e.message (.kind .malformedTree)

def kind? (e : DocumentError) : Option ErrorKind := e.cause.kind?

end DocumentError

namespace Tree

def ofDatum (d : Datum) : Except DocumentError Tree :=
  match d.json with
  | .ok text => (ofJson text).mapError .tree
  | .error e => .error (.unwritable e)

def ofYaml (t : Text) : Except DocumentError Tree :=
  match Yaml.load? t with
  | some d => ofDatum d
  | none => .error .notYaml

def ofDocument : Format → Text → Except DocumentError Tree
  | .json, t => (ofJson t).mapError .tree
  | .yaml, t => ofYaml t

end Tree
end Treewalk
