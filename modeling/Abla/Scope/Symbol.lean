import Abla.Syntax.Tree
import Abla.Typing.Type

/-!
# Symbols and scopes

A scope maps names to symbols and may have a parent scope; a name is looked up in a scope and
then in its ancestors. Scopes live in one store and are named by their index there; a scope is
always created after its parent, so a parent's index is smaller than its child's, and the walk
up the chain ends.
-/

namespace Abla

/-- What a symbol names. -/
inductive SymbolKind where
  | func
  | param
  | type
  deriving DecidableEq, Repr, Inhabited

/-- A named entity: its kind, its type if known, the unit that declares it, the number of the
declaring node, and for a function its declaration. -/
structure Symbol where
  name : String
  kind : SymbolKind
  type : Option DataType := none
  unit : String := ""
  node : Nat := 0
  decl : Option FuncDecl := none
  compileTimeOnly : Bool := false
  deriving Inhabited

/-- The index of a scope in the store. -/
abbrev ScopeId := Nat

/-- A scope: its parent and its symbols, in the order they were defined. -/
structure Scope where
  parent : Option ScopeId
  symbols : List Symbol
  deriving Inhabited

/-- The store of all scopes of a build. -/
structure Scopes where
  tables : Array Scope := #[]
  deriving Inhabited

namespace Scopes

/-- A new scope below `parent`, and its index. -/
def create (st : Scopes) (parent : Option ScopeId) : Scopes × ScopeId :=
  (⟨st.tables.push ⟨parent, []⟩⟩, st.tables.size)

/-- The symbol a scope itself defines for a name. -/
def lookupLocal (st : Scopes) (id : ScopeId) (name : String) : Option Symbol :=
  match st.tables[id]? with
  | some sc => sc.symbols.find? (·.name = name)
  | none => none

/-- Adds a symbol to a scope, unless the scope already defines its name; reports whether it
was added. -/
def define (st : Scopes) (id : ScopeId) (sym : Symbol) : Scopes × Bool :=
  match st.tables[id]? with
  | none => (st, false)
  | some sc =>
    if sc.symbols.any (·.name = sym.name) then (st, false)
    else (⟨st.tables.set! id { sc with symbols := sc.symbols ++ [sym] }⟩, true)

/-- The symbol a name resolves to in a scope or, failing that, in its ancestors. -/
def lookup (st : Scopes) (id : ScopeId) (name : String) : Option Symbol :=
  match st.lookupLocal id name with
  | some sym => some sym
  | none =>
    match st.tables[id]? with
    | some ⟨some p, _⟩ => if p < id then st.lookup p name else none
    | _ => none
termination_by id

/-- The symbols a scope defines, ordered by name. -/
def symbolsOf (st : Scopes) (id : ScopeId) : List Symbol :=
  match st.tables[id]? with
  | some sc => sc.symbols.mergeSort (fun a b => decide (a.name ≤ b.name))
  | none => []

end Scopes

end Abla
