import Std.Data.HashMap
import Abla.Scope.Symbol

/-!
# Annotations of nodes

The analyses record facts about nodes by node number: the type of a declaration or an
expression, the constant a `#` expression computed, and the scope a file, class, function or
function literal opens.
-/

namespace Abla

/-- A constant computed at compile time and embedded in the program. -/
inductive ConstValue where
  | int (v : Int)
  | str (s : String)
  | bool (b : Bool)
  deriving DecidableEq, Repr, Inhabited

/-- The primitive type of a constant. -/
def ConstValue.prim : ConstValue → Prim
  | .int _ => .int
  | .str _ => .string
  | .bool _ => .bool

/-- The facts recorded about nodes, by node number. -/
structure Notes where
  types : Std.HashMap Nat DataType := {}
  consts : Std.HashMap Nat ConstValue := {}
  scopes : Std.HashMap Nat ScopeId := {}
  deriving Inhabited

namespace Notes

/-- Records the type of a node. -/
def setType (n : Notes) (node : Nat) (t : DataType) : Notes := { n with types := n.types.insert node t }

/-- Records the constant of a node. -/
def setConst (n : Notes) (node : Nat) (c : ConstValue) : Notes := { n with consts := n.consts.insert node c }

/-- Records the scope a node opens. -/
def setScope (n : Notes) (node : Nat) (s : ScopeId) : Notes := { n with scopes := n.scopes.insert node s }

/-- The type recorded for a node. -/
def typeOf? (n : Notes) (node : Nat) : Option DataType := n.types[node]?

/-- The constant recorded for a node. -/
def constOf? (n : Notes) (node : Nat) : Option ConstValue := n.consts[node]?

/-- The scope recorded for a node. -/
def scopeOf? (n : Notes) (node : Nat) : Option ScopeId := n.scopes[node]?

@[simp] theorem typeOf?_setType (n : Notes) (node : Nat) (t : DataType) :
    (n.setType node t).typeOf? node = some t := by
  simp [setType, typeOf?]

@[simp] theorem constOf?_setConst (n : Notes) (node : Nat) (c : ConstValue) :
    (n.setConst node c).constOf? node = some c := by
  simp [setConst, constOf?]

@[simp] theorem constOf?_setType (n : Notes) (node k : Nat) (t : DataType) :
    (n.setType node t).constOf? k = n.constOf? k := rfl

theorem constOf?_setConst_of_ne (n : Notes) {node k : Nat} (c : ConstValue) (h : node ≠ k) :
    (n.setConst node c).constOf? k = n.constOf? k := by
  simp [setConst, constOf?, Std.HashMap.getElem?_insert, h]

@[simp] theorem scopeOf?_setScope (n : Notes) (node : Nat) (s : ScopeId) :
    (n.setScope node s).scopeOf? node = some s := by
  simp [setScope, scopeOf?]

end Notes

end Abla

namespace Abla

/-- The scopes of a build and the annotations of its nodes. -/
structure Tables where
  scopes : Scopes := {}
  notes : Notes := {}
  deriving Inhabited

end Abla
