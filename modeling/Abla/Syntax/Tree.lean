import Abla.Text.Span

/-!
# The syntax tree

An Abla file is a list of declarations: functions, classes holding further declarations, and
top-level `#` calls. Function bodies are blocks of expression and return statements.
Expressions are identifiers, integer and string literals, calls, function literals, binary
operations and `#` expressions evaluated at compile time.

Each node that analyses annotate carries a `Site`: a node number, unique within a build, and
the span of its text. The parser leaves the numbers at zero; `SourceFile.number` assigns them.
-/

namespace Abla

/-- The identity of a node within a build and the span of its text. -/
structure Site where
  id : Nat
  span : Span
  deriving DecidableEq, Repr, Inhabited

/-- A type as written in source: a name with type arguments, or a function type. -/
inductive TypeLabel where
  | named (name : String) (params : List TypeLabel) (span : Span)
  | func (params : List TypeLabel) (ret : TypeLabel) (span : Span)
  deriving Repr, Inhabited

/-- The span of a type label. -/
def TypeLabel.span : TypeLabel → Span
  | .named _ _ s => s
  | .func _ _ s => s

/-- The binary operators. -/
inductive BinOp where
  | add | sub | mul | div
  | eq | neq | gt | lt | ge | le
  deriving DecidableEq, Repr, Inhabited

namespace BinOp

/-- The operator's symbol. -/
def symbol : BinOp → String
  | .add => "+"
  | .sub => "-"
  | .mul => "*"
  | .div => "/"
  | .eq => "=="
  | .neq => "!="
  | .gt => ">"
  | .lt => "<"
  | .ge => ">="
  | .le => "<="

/-- Comparisons produce a `Bool`; the other operators produce an `Int`. -/
def isComparison : BinOp → Bool
  | .add | .sub | .mul | .div => false
  | _ => true

/-- Equality and inequality, the operators defined on every type. -/
def isEquality : BinOp → Bool
  | .eq | .neq => true
  | _ => false

end BinOp

mutual

/-- An expression. -/
inductive Expr where
  | ident (site : Site) (name : String)
  | int (site : Site) (text : String)
  | str (site : Site) (parts : List Piece)
  | call (site : Site) (fn : Expr) (args : List Expr)
  | lambda (site : Site) (body : Block)
  | binary (site : Site) (op : BinOp) (lhs rhs : Expr)
  | exec (site : Site) (inner : Expr)
  deriving Repr, Inhabited

/-- A piece of a string literal: text, or an interpolated expression. -/
inductive Piece where
  | text (s : String)
  | interp (e : Expr)
  deriving Repr, Inhabited

/-- A statement of a block. -/
inductive Stmt where
  | expr (site : Site) (e : Expr)
  | ret (site : Site) (value : Option Expr)
  deriving Repr, Inhabited

/-- A block of statements between braces. -/
inductive Block where
  | mk (site : Site) (stmts : List Stmt)
  deriving Repr, Inhabited

end

/-- The value of an integer literal's text: decimal digits, underscores ignored, if it fits in
32 bits. -/
def literalValue? (text : String) : Option Int32 :=
  let ds := text.toList.filter (· ≠ '_')
  if ds.isEmpty || !ds.all Char.isDigit then none
  else
    let n := ds.foldl (fun acc c => acc * 10 + (c.toNat - '0'.toNat)) 0
    if n < Int.pow 2 31 then some (Int32.ofInt n) else none

/-- The identity and span of an expression. -/
def Expr.site : Expr → Site
  | .ident s _ | .int s _ | .str s _ | .call s _ _ | .lambda s _ | .binary s _ _ _ | .exec s _ => s

/-- The span of an expression. -/
def Expr.span (e : Expr) : Span := e.site.span

/-- The identity and span of a statement. -/
def Stmt.site : Stmt → Site
  | .expr s _ | .ret s _ => s

/-- The identity and span of a block. -/
def Block.site : Block → Site
  | .mk s _ => s

/-- The statements of a block. -/
def Block.stmts : Block → List Stmt
  | .mk _ ss => ss

/-- Whether a string literal is made of text alone. -/
def Piece.isText : Piece → Bool
  | .text _ => true
  | .interp _ => false

/-- A declaration modifier: `extern` with an optional library name, or `compiler`. -/
inductive Modifier where
  | external (lib : Option Expr) (span : Span)
  | compiler (span : Span)
  deriving Repr, Inhabited

/-- A function parameter and its type label. -/
structure Param where
  site : Site
  name : String
  label : TypeLabel
  deriving Repr, Inhabited

/-- A function declaration. A function given by `= expr` has a block holding that expression. -/
structure FuncDecl where
  site : Site
  name : String
  nameSpan : Span
  modifiers : List Modifier
  params : List Param
  ret : Option TypeLabel
  body : Option Block
  deriving Repr, Inhabited

namespace FuncDecl

/-- Whether the function is declared `extern`. -/
def isExtern (f : FuncDecl) : Bool := f.modifiers.any fun | .external _ _ => true | _ => false

/-- Whether the function is declared `compiler`: it runs only at compile time. -/
def isCompiler (f : FuncDecl) : Bool := f.modifiers.any fun | .compiler _ => true | _ => false

/-- The library name of an `extern` modifier, if one is given. -/
def externLib? (f : FuncDecl) : Option Expr :=
  f.modifiers.findSome? fun | .external lib _ => lib | _ => none

end FuncDecl

/-- A declaration: a function, a class with its members, or a top-level `#` call. -/
inductive Decl where
  | func (f : FuncDecl)
  | cls (site : Site) (name : String) (modifiers : List Modifier) (members : List Decl)
  | hashCall (site : Site) (call : Expr)
  deriving Repr, Inhabited

/-- Whether a modifier list holds `compiler`. -/
def Modifier.hasCompiler (ms : List Modifier) : Bool :=
  ms.any fun | .compiler _ => true | _ => false

/-- A parsed source file: the unit name and its declarations. -/
structure SourceFile where
  site : Site
  name : String
  decls : List Decl
  deriving Repr, Inhabited

end Abla
