import Treewalk.ErrorKind
import Treewalk.Tree.Basic
import Treewalk.Wire.Member

/-! Trees on the wire. Every node is an object with a `kind`; its parts are looked up in a fixed
order, and the first one that is absent or wrong is reported. A list of parameters or arguments
is read as a whole before its elements are looked at. -/
namespace Treewalk

inductive NodeKind where
  | int | bool | null | var | print | binop | ifElse | loop | seq | declare | assign | function
  | call
deriving DecidableEq

namespace NodeKind

def all : List NodeKind :=
  [int, bool, null, var, print, binop, ifElse, loop, seq, declare, assign, function, call]

def label : NodeKind → Text
  | int => "int"
  | bool => "bool"
  | null => "null"
  | var => "var"
  | print => "print"
  | binop => "binop"
  | ifElse => "if"
  | loop => "while"
  | seq => "seq"
  | declare => "var_decl"
  | assign => "assign"
  | function => "function"
  | call => "call"

def ofLabel? (t : Text) : Option NodeKind := all.find? fun k => k.label = t

theorem ofLabel?_label (k : NodeKind) : ofLabel? k.label = some k := by
  cases k <;> decide

end NodeKind

inductive DecodeError where
  | unreadable (e : Wire.ReadError)
  | notAnObject (kind : Wire.Kind)
  | noKind (raw : Text)
  | unknownKind (label : Text)
  | badInteger (e : Wire.ReadError)
  | badBoolean (e : Wire.ReadError)
  | missingName (kind : NodeKind)
  | missingOperator
  | missingChild (kind : NodeKind) (key : Text)
  | badChild (kind : NodeKind) (key : Text) (e : Wire.ReadError)
  | parameterNotText (raw : Text)
  | badParameter (e : Wire.ReadError)
  | badParameters (e : Wire.ReadError)
  | badArguments (e : Wire.ReadError)

namespace DecodeError

def about (kind : NodeKind) (remark : Text) : Text := kind.label ++ Text.ofString ": " ++ remark

def detail : DecodeError → Text
  | .unreadable e => e.message
  | .notAnObject kind => Text.ofString "expected an object but got: " ++ kind.text
  | .noKind raw => Text.ofString "node without a kind: " ++ Text.shown raw
  | .unknownKind label => Text.ofString "unknown node kind: " ++ Text.shown label
  | .badInteger e => about .int (Text.ofString "value is not an integer: " ++ e.message)
  | .badBoolean e => about .bool (Text.ofString "value is not a boolean: " ++ e.message)
  | .missingName kind => about kind "missing name"
  | .missingOperator => about .binop "missing op"
  | .missingChild kind key => about kind (Text.ofString "missing " ++ Text.shown key)
  | .badChild kind key e => about kind (Text.shown key ++ Text.ofString ": " ++ e.message)
  | .parameterNotText raw =>
    about .function (Text.ofString "parameter is not a string: " ++ Text.shown raw)
  | .badParameter e => about .function (Text.ofString "parameter: " ++ e.message)
  | .badParameters e => about .function (Text.ofString "params: " ++ e.message)
  | .badArguments e => about .call (Text.ofString "args: " ++ e.message)

def message (e : DecodeError) : Text :=
  ErrorKind.malformedTree.heading ++ Text.ofString ": " ++ e.detail

end DecodeError

namespace Tree

open Wire (Inner)

def child (kind : NodeKind) (key data : Text) : Except DecodeError (Inner data) :=
  match Wire.member key data with
  | .error .keyNotFound => .error (.missingChild kind key)
  | .error e => .error (.badChild kind key e)
  | .ok v => if v.val.kind = .null then .error (.missingChild kind key) else .ok v

def optionalChild (kind : NodeKind) (key data : Text) :
    Except DecodeError (Option (Inner data)) :=
  match child kind key data with
  | .ok v => .ok (some v)
  | .error (.missingChild _ _) => .ok none
  | .error e => .error e

def nameOf (kind : NodeKind) (data : Text) : Except DecodeError Name :=
  match Wire.textMember "name" data with
  | some name => .ok name
  | none => .error (.missingName kind)

def parameter (v : Wire.Value) : Except DecodeError Name :=
  if v.kind = .string then
    match Wire.unescape v.raw with
    | some name => .ok name
    | none => .error (.badParameter .badValue)
  else .error (.parameterNotText v.raw)

def parameters (data : Text) : Except DecodeError (List Name) :=
  match Wire.arrayMember "params" data with
  | .error .keyNotFound => .ok []
  | .error e => .error (.badParameters e)
  | .ok vs => vs.mapM fun v => parameter v.val

def arguments (data : Text) : Except DecodeError (List (Inner data)) :=
  match Wire.arrayMember "args" data with
  | .error .keyNotFound => .ok []
  | .error e => .error (.badArguments e)
  | .ok vs => .ok vs

/-- The tree of a node, given how the values inside of it are decoded. -/
def node (v : Wire.Value) (decode : Inner v.raw → Except DecodeError Tree) :
    Except DecodeError Tree :=
  if v.kind ≠ .object then .error (.notAnObject v.kind)
  else
    match Wire.textMember "kind" v.raw with
    | none => .error (.noKind v.raw)
    | some label =>
      match NodeKind.ofLabel? label with
      | none => .error (.unknownKind label)
      | some .int =>
        match Wire.intMember "value" v.raw with
        | .ok n => .ok (.int n)
        | .error e => .error (.badInteger e)
      | some .bool =>
        match Wire.boolMember "value" v.raw with
        | .ok b => .ok (.bool b)
        | .error e => .error (.badBoolean e)
      | some .null => .ok .null
      | some .var => return .var (← nameOf .var v.raw)
      | some .print => do
        let operand ← child .print "expr" v.raw
        return .print (← decode operand)
      | some .binop => do
        let some op := Wire.textMember "op" v.raw | .error .missingOperator
        let left ← child .binop "left" v.raw
        let left ← decode left
        let right ← child .binop "right" v.raw
        return .binary left op (← decode right)
      | some .ifElse => do
        let condition ← child .ifElse "cond" v.raw
        let condition ← decode condition
        let thenDo ← child .ifElse "then" v.raw
        let thenDo ← decode thenDo
        match ← optionalChild .ifElse "else" v.raw with
        | some elseDo => return .ifElse condition thenDo (← decode elseDo)
        | none => return .ifElse condition thenDo .missing
      | some .loop => do
        let condition ← child .loop "cond" v.raw
        let condition ← decode condition
        let body ← child .loop "body" v.raw
        return .loop condition (← decode body)
      | some .seq => do
        let first ← child .seq "first" v.raw
        let first ← decode first
        let second ← child .seq "second" v.raw
        return .seq first (← decode second)
      | some .declare => do
        let name ← nameOf .declare v.raw
        let init ← child .declare "init" v.raw
        return .declare name (← decode init)
      | some .assign => do
        let name ← nameOf .assign v.raw
        let expr ← child .assign "expr" v.raw
        return .assign name (← decode expr)
      | some .function => do
        let params ← parameters v.raw
        let body ← child .function "body" v.raw
        return .function params (← decode body)
      | some .call => do
        let callee ← child .call "fn" v.raw
        let callee ← decode callee
        let args ← arguments v.raw
        return .call callee (← args.mapM decode)

/-- The values inside of a node are nodes in turn, each strictly shorter than the one it is in. -/
def ofWire (v : Wire.Value) : Except DecodeError Tree := node v fun w => ofWire w.val
termination_by v.raw.length
decreasing_by exact w.property

def ofJson (t : Text) : Except DecodeError Tree :=
  match Wire.readValue t with
  | .ok (v, _) => ofWire v
  | .error e => .error (.unreadable e)

end Tree
end Treewalk
