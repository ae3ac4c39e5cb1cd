import Treewalk.Yaml.Lexer
import Treewalk.Yaml.Scalar

/-! The nodes of a document. An alias names the node it stands for by a number, so that it may lie
inside that very node. -/
namespace Treewalk.Yaml

inductive Node where
  | scalar (tag : Tag) (text : Text)
  | sequence (items : List Node)
  | mapping (entries : List (Node × Node))
  /-- An alias: its name, the number of its anchor, and a number of its own. -/
  | reference (name : Text) (anchor occurrence : Nat)

namespace Node

def empty : Node := .scalar .null []

def scalarTag (given : Option Text) (style : Style) (text : Text) : Tag :=
  match given with
  | some tag => if tag = Text.ofString "!" then untagged else Tag.short tag
  | none => untagged
where
  untagged : Tag :=
    if style ≠ .plain then .str
    else if text = Text.ofString "<<" then .merge
    else (Scalar.read true text).tag

def ofScalar (given : Option Text) (style : Style) (chars : List Char) : Node :=
  let text := Text.Utf8.ofChars chars
  .scalar (scalarTag given style text) text

end Node

structure Composer where
  lexer : Lexer
  handles : Handles
  anchors : Table (List Char) Nat
  anchored : Table Nat Node
  nextNumber : Nat

abbrev Compose := StateT Composer Option

namespace Compose

def lex {α : Type} (x : Lex α) : Compose α := fun c =>
  (x c.lexer).map fun (a, lexer) => (a, { c with lexer })

def peek : Compose Token := lex Lexer.peek

def skip : Compose Unit := lex Lexer.skip

def freshNumber : Compose Nat := do
  let number := (← get).nextNumber
  modify fun c => { c with nextNumber := number + 1 }
  return number

/-- Registers the anchor before the node is composed, and the node behind it. -/
def anchored (anchor : Option (List Char)) (compose : Compose Node) : Compose Node := do
  match anchor with
  | none => compose
  | some name =>
    let number ← freshNumber
    modify fun c => { c with anchors := (name, number) :: c.anchors }
    let node ← compose
    modify fun c => { c with anchored := (number, node) :: c.anchored }
    return node

def referenceNode (name : List Char) : Compose Node := do
  match (← get).anchors.lookup name with
  | none => failure
  | some anchor => return .reference (Text.Utf8.ofChars name) anchor (← freshNumber)

def expand (handle suffix : Text) : Compose Text := do
  if handle = [] then return suffix
  else
    match (← get).handles.lookup handle with
    | some expansion => return expansion ++ suffix
    | none => failure

def properties : Compose (Option (List Char) × Option Text) := do
  match ← peek with
  | .anchor name =>
    skip
    match ← peek with
    | .tag handle suffix =>
      skip
      return (some name, some (← expand handle suffix))
    | _ => return (some name, none)
  | .tag handle suffix =>
    skip
    let anchor ← match ← peek with
      | .anchor name => do
        skip
        pure (some name)
      | _ => pure none
    return (anchor, some (← expand handle suffix))
  | _ => return (none, none)

mutual

/-- A node. `inBlock` allows block collections, `indentless` a sequence at the column of the
mapping around it. -/
def node : Nat → Bool → Bool → Compose Node
  | 0, _, _ => failure
  | n + 1, inBlock, indentless => do
    match ← peek with
    | .reference name =>
      skip
      referenceNode name
    | _ =>
      let (anchor, tag) ← properties
      anchored anchor do
        match ← peek with
        | .scalar style chars =>
          skip
          return .ofScalar tag style chars
        | .flowSequence =>
          skip
          return .sequence (← flowItems n true)
        | .flowMapping =>
          skip
          return .mapping (← flowEntries n true)
        | t =>
          if t = .blockEntry ∧ indentless then return .sequence (← indentlessItems n)
          else if t = .blockSequence ∧ inBlock then
            skip
            return .sequence (← blockItems n)
          else if t = .blockMapping ∧ inBlock then
            skip
            return .mapping (← blockEntries n)
          else if anchor.isSome || tag.isSome then return .ofScalar tag .plain []
          else failure

def nodeUnless : Nat → List Token → Bool → Bool → Compose Node
  | 0, _, _, _ => failure
  | n + 1, ends, inBlock, indentless => do
    if (← peek) ∈ ends then return .empty else node n inBlock indentless

def blockItems : Nat → Compose (List Node)
  | 0 => failure
  | n + 1 => do
    match ← peek with
    | .blockEntry =>
      skip
      let item ← nodeUnless n [.blockEntry, .blockEnd] true false
      return item :: (← blockItems n)
    | .blockEnd =>
      skip
      return []
    | _ => failure

def indentlessItems : Nat → Compose (List Node)
  | 0 => failure
  | n + 1 => do
    match ← peek with
    | .blockEntry =>
      skip
      let item ← nodeUnless n [.blockEntry, .key, .value, .blockEnd] true false
      return item :: (← indentlessItems n)
    | _ => return []

def blockEntries : Nat → Compose (List (Node × Node))
  | 0 => failure
  | n + 1 => do
    match ← peek with
    | .key =>
      skip
      let key ← nodeUnless n [.key, .value, .blockEnd] true true
      let value ← valueUnless n [.key, .value, .blockEnd] true true
      return (key, value) :: (← blockEntries n)
    | .blockEnd =>
      skip
      return []
    | _ => failure

def valueUnless : Nat → List Token → Bool → Bool → Compose Node
  | 0, _, _, _ => failure
  | n + 1, ends, inBlock, indentless => do
    match ← peek with
    | .value =>
      skip
      nodeUnless n ends inBlock indentless
    | _ => return .empty

def flowItems : Nat → Bool → Compose (List Node)
  | 0, _ => failure
  | n + 1, first => do
    if (← peek) = .flowSequenceEnd then
      skip
      return []
    if !first then
      if (← peek) = .flowEntry then skip else failure
    match ← peek with
    | .flowSequenceEnd =>
      skip
      return []
    | .key =>
      skip
      let entry ← flowPair n
      return .mapping [entry] :: (← flowItems n false)
    | _ =>
      let item ← node n false false
      return item :: (← flowItems n false)

/-- A single entry of a sequence in brackets. Where its key is left out, the token that shows
this is skipped as well. -/
def flowPair : Nat → Compose (Node × Node)
  | 0 => failure
  | n + 1 => do
    let key ←
      if (← peek) ∈ [Token.value, .flowEntry, .flowSequenceEnd] then do
        skip
        pure Node.empty
      else node n false false
    let value ← valueUnless n [.flowEntry, .flowSequenceEnd] false false
    return (key, value)

def flowEntries : Nat → Bool → Compose (List (Node × Node))
  | 0, _ => failure
  | n + 1, first => do
    if (← peek) = .flowMappingEnd then
      skip
      return []
    if !first then
      if (← peek) = .flowEntry then skip else failure
    match ← peek with
    | .flowMappingEnd =>
      skip
      return []
    | .key =>
      skip
      let key ← nodeUnless n [.value, .flowEntry, .flowMappingEnd] false false
      let value ← valueUnless n [.flowEntry, .flowMappingEnd] false false
      return (key, value) :: (← flowEntries n false)
    | _ =>
      let key ← node n false false
      return (key, .empty) :: (← flowEntries n false)

end

/-- Directives in front of a document: at most one version, which must be 1.1, and handles, none
of them twice. -/
def directives : Nat → Bool → Handles → Compose Handles
  | 0, _, _ => failure
  | n + 1, versioned, own => do
    match ← peek with
    | .version major minor =>
      if versioned || major ≠ 1 || minor ≠ 1 then failure
      else
        skip
        directives n true own
    | .tagDirective handle expansion =>
      if (own.lookup handle).isSome then failure
      else
        skip
        directives n versioned ((handle, expansion) :: own)
    | _ => return own ++ defaultHandles

def startsOutside : Token → Bool
  | .version _ _ | .tagDirective _ _ | .documentStart | .documentEnd | .streamEnd => true
  | _ => false

/-- The root of the first document, if there is a document. What follows it is looked at only as
far as the next token needs. -/
def root (fuel : Nat) : Compose (Option Node) := do
  match ← peek with
  | .streamEnd => return none
  | .version _ _ | .tagDirective _ _ | .documentStart =>
    let handles ← directives fuel false []
    modify fun c => { c with handles }
    if (← peek) ≠ .documentStart then failure
    else
      skip
      if startsOutside (← peek) then return some .empty else content
  | _ => content
where
  content : Compose (Option Node) := do
    let node ← node fuel true false
    discard peek
    return some node

end Compose

def root? (t : Text) : Option (Option Node × Table Nat Node) := do
  let fuel := 16 * t.length + 64
  let (root, c) ← (Compose.root fuel).run ⟨.start t, defaultHandles, [], [], 0⟩
  return (root, c.anchored)

end Treewalk.Yaml
