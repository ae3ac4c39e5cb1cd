import Treewalk.Fault
import Treewalk.Table
import Treewalk.Value.Basic

/-! The scope graph. All scopes of a run live in one store and are named by their place, so a
scope can be shared by any number of closures. A new scope links outward to an earlier place
only, which is what makes every chain of outer links end. -/
namespace Treewalk

structure Scope where
  outer : Option ScopeId
  table : Table Name Value

namespace Scope

def get? (s : Scope) (name : Name) : Option Value := s.table.lookup name

def put (s : Scope) (name : Name) (value : Value) : Scope :=
  { s with table := s.table.set name value }

theorem get?_put (s : Scope) (name other : Name) (value : Value) :
    (s.put name value).get? other = if other = name then some value else s.get? other :=
  Table.lookup_set name other value s.table

@[simp] theorem outer_put (s : Scope) (name : Name) (value : Value) :
    (s.put name value).outer = s.outer := rfl

end Scope

structure Store where
  scopes : Array Scope
  nextIdentity : Nat

namespace Store

def empty : Store := ⟨#[], 0⟩

def newScope (st : Store) (outer : Option ScopeId) : ScopeId × Store :=
  (st.scopes.size, { st with scopes := st.scopes.push ⟨outer, []⟩ })

def newClosure (st : Store) (params : List Name) (body : Tree) (scope : Option ScopeId) :
    Closure × Store :=
  (⟨st.nextIdentity, params, body, scope⟩, { st with nextIdentity := st.nextIdentity + 1 })

/-- The outer link, which counts only if it leads to an earlier place. -/
def outer? (st : Store) (s : ScopeId) : Option ScopeId :=
  (st.scopes[s]?).bind fun scope => scope.outer.filter (· < s)

theorem outer?_lt {st : Store} {s o : ScopeId} (linked : st.outer? s = some o) : o < s := by
  obtain ⟨scope, -, kept⟩ := Option.bind_eq_some_iff.mp linked
  simpa using (Option.filter_eq_some_iff.mp kept).2

/-- The scope itself, then the scopes around it, ending with its global scope. -/
def chain (st : Store) (s : ScopeId) : List ScopeId :=
  match _linked : st.outer? s with
  | some o => s :: st.chain o
  | none => [s]
termination_by s
decreasing_by exact outer?_lt _linked

def global (st : Store) (s : ScopeId) : ScopeId := (st.chain s).getLastD s

def depth (st : Store) (s : ScopeId) : Nat := (st.chain s).length - 1

def own? (st : Store) (s : ScopeId) (name : Name) : Option Value :=
  (st.scopes[s]?).bind fun scope => scope.get? name

def declares (st : Store) (s : ScopeId) (name : Name) : Bool := (st.own? s name).isSome

def lookup? (st : Store) (s : ScopeId) (name : Name) : Option Value :=
  (st.chain s).findSome? fun t => st.own? t name

/-- A name that nothing binds stands for null. -/
def resolve (st : Store) (s : ScopeId) (name : Name) : Value := (st.lookup? s name).getD .null

def bindAt (st : Store) (s : ScopeId) (name : Name) (value : Value) : Store :=
  { st with scopes := st.scopes.modify s fun scope => scope.put name value }

/-- The scope that an assignment changes: the nearest one that binds the name, or the global
scope if none does. -/
def target (st : Store) (s : ScopeId) (name : Name) : ScopeId :=
  ((st.chain s).find? fun t => st.declares t name).getD (st.global s)

def update (st : Store) (s : ScopeId) (name : Name) (value : Value) : Store :=
  st.bindAt (st.target s name) name value

def create (st : Store) (s : ScopeId) (name : Name) (value : Value) : Except Fault Store :=
  if st.declares s name then .error (.alreadyDeclared name)
  else .ok (st.bindAt s name value)

end Store
end Treewalk
