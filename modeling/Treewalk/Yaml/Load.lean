import Treewalk.Table
import Treewalk.Yaml.Node

/-! From nodes to generic data. Aliases are followed, merge keys take members over from other
mappings without replacing any, and documents that consist almost only of aliases are refused. -/
namespace Treewalk.Yaml

/-- How many nodes were visited, how many of them under an alias, and the numbers of the aliases
that are being followed. -/
structure Effort where
  visits : Nat
  aliased : Nat
  followed : List Nat

namespace Effort

/-- The share of visits under aliases that is allowed, in parts per hundred million: from 99 to
10 percent as the number of visits grows from 400 thousand to 4 million. -/
def allowedShare (visits : Nat) : Nat :=
  if visits ≤ 400000 then 99000000
  else if 4000000 ≤ visits then 10000000
  else 99000000 - 89000000 * (visits - 400000) / 3600000

def isExcessive (e : Effort) : Bool :=
  100 < e.aliased && 1000 < e.visits &&
    allowedShare e.visits * e.visits < e.aliased * 100000000

end Effort

abbrev Load := StateT Effort Option

namespace Load

def visit : Load Unit := do
  let e ← get
  let e := { e with
    visits := e.visits + 1, aliased := if e.followed = [] then e.aliased else e.aliased + 1 }
  if e.isExcessive then failure else set e

/-- Follows an alias, which must not lead to itself. -/
def follow {α : Type} (occurrence : Nat) (load : Load α) : Load α := do
  let e ← get
  if occurrence ∈ e.followed then failure
  else
    set { e with followed := occurrence :: e.followed }
    let a ← load
    modify fun e => { e with followed := e.followed.tail }
    return a

end Load

abbrev Anchored := Table Nat Node

namespace Node

def ownTag : Node → Tag
  | .scalar tag _ => tag
  | .sequence _ => .seq
  | .mapping _ => .map
  | .reference _ _ _ => []

def tag (nodes : Anchored) : Node → Tag
  | .reference _ anchor _ => ((nodes.lookup anchor).map ownTag).getD []
  | node => node.ownTag

def alike : Node → Node → Bool
  | .scalar _ a, .scalar _ b => a = b
  | .sequence _, .sequence _ => true
  | .mapping _, .mapping _ => true
  | .reference a _ _, .reference b _ _ => a = b
  | _, _ => false

def hasRepeatedKey : List (Node × Node) → Bool
  | [] => false
  | (k, _) :: rest => rest.any (fun e => k.alike e.1) || hasRepeatedKey rest

def isMerge : Node → Bool
  | .scalar tag text => tag = .merge && text = Text.ofString "<<"
  | _ => false

def isMergeable (nodes : Anchored) : Node → Bool
  | .mapping _ => true
  | .reference _ anchor _ =>
    match nodes.lookup anchor with
    | some (.mapping _) => true
    | _ => false
  | _ => false

def hasTextKeys (nodes : Anchored) (entries : List (Node × Node)) : Bool :=
  entries.all fun e => e.1.tag nodes = .str || e.1.tag nodes = .merge

def loadScalar (tag : Tag) (text : Text) : Load Datum := do
  match Scalar.value? tag text with
  | some d => return d
  | none => failure

/-- The key of a member that goes into a mapping of texts: scalars as they are written, and null
as none at all. -/
def textKey (nodes : Anchored) : Node → Load (Option Key)
  | .scalar tag text => ofScalarKey tag text
  | .reference _ anchor occurrence => do
    Load.visit
    Load.follow occurrence do
      match nodes.lookup anchor with
      | some (.scalar tag text) => ofScalarKey tag text
      | _ => failure
  | _ => failure
where
  ofScalarKey (tag : Tag) (text : Text) : Load (Option Key) := do
    Load.visit
    match ← loadScalar tag text with
    | .null => return none
    | .text t => return some (.text t)
    | _ => return some (.text text)

/-- The members gathered so far, and the keys that a merge must not set again, if this is part
of a merge. -/
structure Members where
  list : Table Key Datum
  taken : Option (List Key)

namespace Members

def isTaken (m : Members) (k : Key) : Bool :=
  !k.isSingular && m.taken.any fun keys => keys.contains k

def add (m : Members) (k : Key) (v : Datum) : Members :=
  let list := if k.isSingular then m.list ++ [(k, v)] else m.list.set k v
  ⟨list, m.taken.map (k :: ·)⟩

def datum (texts : Bool) (m : Members) : Datum :=
  if texts then
    .record <| m.list.filterMap fun
      | (.text t, v) => some (t, v)
      | _ => none
  else .map m.list

/-- Adds the entries that are no merges. A key that is taken is left alone, and its value is not
looked at. -/
def addEntries (key : Node → Load (Option Key)) (value : Node → Load Datum) (m : Members) :
    List (Node × Node) → Load Members
  | [] => return m
  | (k, v) :: rest => do
    if k.isMerge then m.addEntries key value rest
    else
      match ← key k with
      | none => m.addEntries key value rest
      | some k =>
        if m.isTaken k then m.addEntries key value rest
        else
          let d ← value v
          (m.add k d).addEntries key value rest

end Members

def mergeSource? (entries : List (Node × Node)) : Option Node :=
  (entries.find? (·.1.isMerge)).map (·.2)

def asKey (d : Datum) : Load Key :=
  match d.key? with
  | some key => return key
  | none => failure

mutual

def load (nodes : Anchored) : Nat → Node → Load Datum
  | 0, _ => failure
  | n + 1, node => do
    Load.visit
    match node with
    | .scalar tag text => loadScalar tag text
    | .sequence items => return .seq (← items.mapM (load nodes n))
    | .mapping entries =>
      if hasRepeatedKey entries then failure
      else
        let texts := hasTextKeys nodes entries
        let own ← Members.addEntries (loadKey nodes n texts) (load nodes n) ⟨[], none⟩ entries
        match mergeSource? entries with
        | none => return own.datum texts
        | some source =>
          let taken ← entries.mapM fun (k, _) => do asKey (← load nodes n k)
          return (← mergeFrom nodes n texts ⟨own.list, some taken⟩ source).datum texts
    | .reference _ anchor occurrence =>
      Load.follow occurrence do
        match nodes.lookup anchor with
        | some target => load nodes n target
        | none => failure

def loadKey (nodes : Anchored) : Nat → Bool → Node → Load (Option Key)
  | 0, _, _ => failure
  | _ + 1, true, node => node.textKey nodes
  | n + 1, false, node => do return some (← asKey (← load nodes n node))

def mergeFrom (nodes : Anchored) : Nat → Bool → Members → Node → Load Members
  | 0, _, _, _ => failure
  | n + 1, texts, m, node => do
    match node with
    | .sequence items => items.foldlM (mergeMapping nodes n texts) m
    | node => mergeMapping nodes n texts m node

def mergeMapping (nodes : Anchored) : Nat → Bool → Members → Node → Load Members
  | 0, _, _, _ => failure
  | n + 1, texts, m, node => do
    if !node.isMergeable nodes then failure
    else
      Load.visit
      match node with
      | .mapping entries =>
        if hasRepeatedKey entries then failure
        else
          let m ← m.addEntries (loadKey nodes n texts) (load nodes n) entries
          match mergeSource? entries with
          | none => return m
          | some source => mergeFrom nodes n texts m source
      | .reference _ anchor occurrence =>
        Load.follow occurrence do
          match nodes.lookup anchor with
          | some target => mergeMapping nodes n texts m target
          | none => failure
      | _ => failure

end

end Node

/-- The generic value of the first document; an absent document is null. -/
def load? (t : Text) : Option Datum := do
  let t := if t = [] then [Text.ascii '\n'] else t
  match ← root? t with
  | (none, _) => some .null
  | (some root, nodes) =>
    let depth := (t.length + 4) * (t.length + 4)
    let (d, _) ← (do Load.visit; root.load nodes depth : Load Datum).run ⟨0, 0, []⟩
    some d

end Treewalk.Yaml
