import Abla.Build.State

/-!
# Compile-time values

The values `#` expressions compute: 32-bit integers that wrap on overflow, strings, booleans,
the empty value of `Void`, functions and the built-in functions `import` and `compile`.
A function is a declared function with its type, or a function literal with the environment
it was evaluated in. An environment binds parameter values and names the scope its other
names resolve in; a literal's environment also sees the one around it.
-/

namespace Abla

/-- The built-in functions of compile time. -/
inductive Builtin where
  /-- `import(path)`: compiles a file and brings its symbols into the calling unit. -/
  | importFile
  /-- `compile(text)`: compiles a text as a new unit, brings its symbols in, and gives its
  name. -/
  | compileText
  deriving DecidableEq, Repr, Inhabited

namespace Builtin

/-- The name a built-in is called by. -/
def name : Builtin → String
  | .importFile => "import"
  | .compileText => "compile"

/-- The built-in a name denotes, if any. -/
def byName? : String → Option Builtin
  | "import" => some .importFile
  | "compile" => some .compileText
  | _ => none

/-- The type of a built-in: both take a `String`. -/
def type : Builtin → DataType
  | .importFile => .func [.string] (some .void)
  | .compileText => .func [.string] (some .string)

end Builtin

mutual

/-- A value computed at compile time. -/
inductive Value where
  | int (n : Int32)
  | str (s : String)
  | bool (b : Bool)
  | void
  /-- A function literal and the environment it was evaluated in. -/
  | lambda (body : Block) (env : Env)
  /-- A declared function and its function type, when it has one. -/
  | func (f : FuncDecl) (type : Option DataType)
  | builtin (b : Builtin)
  deriving Inhabited

/-- Parameter values, the scope other names resolve in, and the environment around. -/
inductive Env where
  | mk (vars : List (String × Value)) (scope : ScopeId) (outer : Option Env)
  deriving Inhabited

end

namespace Value

/-- The type of a value. A function literal, and a function known without a type, count as
`() -> Int`. -/
def type : Value → DataType
  | .int _ => .int
  | .str _ => .string
  | .bool _ => .bool
  | .void => .void
  | .lambda _ _ => .func [] (some .int)
  | .func _ (some t) => t
  | .func _ none => .func [] (some .int)
  | .builtin b => b.type

/-- How a value reads when it is interpolated into a string. -/
def render : Value → String
  | .int n => toString n.toInt
  | .str s => s
  | .bool b => if b then "true" else "false"
  | .void => ""
  | .lambda _ _ => "<fun literal>"
  | .func f _ => "<fun " ++ f.name ++ ">"
  | .builtin b => "<builtin " ++ b.name ++ ">"

end Value

namespace Env

/-- The scope names resolve in. -/
def scope : Env → ScopeId
  | .mk _ s _ => s

/-- The value bound to a name here or in an environment around. -/
def find? : Env → String → Option Value
  | .mk vars _ outer, name =>
    match vars.lookup name with
    | some v => some v
    | none =>
      match outer with
      | some o => o.find? name
      | none => none

end Env

end Abla
