/-!
# Data types

The types of Abla values: four primitive types, function types and class types with type
parameters. `DataType.repr` writes a type as it is spelled in messages, and `DataType.equiv`
is type equivalence: primitive types by name, function types by their parameters and their
returns, where a missing return is `Void`, and class types by name and parameters.
-/

namespace Abla

/-- The primitive types. -/
inductive Prim where
  | int
  | string
  | void
  | bool
  deriving DecidableEq, Repr, Inhabited

namespace Prim

/-- The name of a primitive type in source text and messages. -/
def name : Prim → String
  | .int => "Int"
  | .string => "String"
  | .void => "Void"
  | .bool => "Bool"

/-- The primitive type with a given name, if any. -/
def byName? : String → Option Prim
  | "Int" => some .int
  | "String" => some .string
  | "Void" => some .void
  | "Bool" => some .bool
  | _ => none

theorem byName?_name (p : Prim) : byName? p.name = some p := by cases p <;> rfl

end Prim

/-- The type of an Abla value. A function type without a return type returns `Void`. -/
inductive DataType where
  | prim (p : Prim)
  | func (params : List DataType) (ret : Option DataType)
  | user (name : String) (params : List DataType)
  deriving Repr, Inhabited

namespace DataType

/-- `Int`. -/
abbrev int : DataType := .prim .int
/-- `String`. -/
abbrev string : DataType := .prim .string
/-- `Void`. -/
abbrev void : DataType := .prim .void
/-- `Bool`. -/
abbrev bool : DataType := .prim .bool

mutual

/-- The spelling of a type: `Int`, `(Int, String) -> Bool`, `Map<String, Int>`. -/
def repr : DataType → String
  | .prim p => p.name
  | .func ps r => "(" ++ reprList ps ++ ") -> " ++ reprRet r
  | .user n [] => n
  | .user n (p :: ps) => n ++ "<" ++ reprList (p :: ps) ++ ">"

/-- The spellings of a list of types, separated by commas. -/
def reprList : List DataType → String
  | [] => ""
  | [t] => t.repr
  | t :: u :: us => t.repr ++ ", " ++ reprList (u :: us)

/-- The spelling of a return type; none is `Void`. -/
def reprRet : Option DataType → String
  | none => "Void"
  | some t => t.repr

end

/-- Whether a type is `Void`; a missing type counts as `Void`. -/
def isVoid : Option DataType → Bool
  | none => true
  | some (.prim .void) => true
  | some _ => false

mutual

/-- Type equivalence. -/
def equiv : DataType → DataType → Bool
  | .prim a, .prim b => a = b
  | .func ps r, .func qs s => equivList ps qs && equivRet r s
  | .user n ps, .user m qs => n = m && equivList ps qs
  | _, _ => false

/-- Equivalence of two lists of types, position by position, of equal length. -/
def equivList : List DataType → List DataType → Bool
  | [], [] => true
  | a :: as, b :: bs => a.equiv b && equivList as bs
  | _, _ => false

/-- Equivalence of two return types: either both are `Void`, or neither is and they are
equivalent. -/
def equivRet : Option DataType → Option DataType → Bool
  | some a, some b =>
    if isVoid (some a) || isVoid (some b) then isVoid (some a) && isVoid (some b) else a.equiv b
  | r, s => isVoid r && isVoid s

end

end DataType

end Abla
