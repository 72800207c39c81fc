import Abla.Syntax.Tree
import Abla.Text.Quoted

/-!
# Outlines of syntax trees

`SourceFile.outline` prints a parsed file as an indented tree, one node a line: the kind of the
node, what it names or holds, and its span as one-based `LINE:COL-LINE:COL`. Children are
indented two blanks deeper than their parent.
-/

namespace Abla

/-- A span as one-based `LINE:COL-LINE:COL`, the end column one past the last character. -/
def Span.show (s : Span) : String :=
  toString (s.startLine + 1) ++ ":" ++ toString (s.startCol + 1) ++ "-" ++
    toString (s.endLine + 1) ++ ":" ++ toString (s.endCol + 1)

/-- A line of an outline at a depth. -/
def outlineLine (depth : Nat) (text : String) : String :=
  String.ofList (List.replicate (2 * depth) ' ') ++ text ++ "\n"

mutual

/-- A type label as written. -/
def TypeLabel.show : TypeLabel → String
  | .named n [] _ => n
  | .named n ps _ => n ++ "[" ++ TypeLabel.showList ps ++ "]"
  | .func ps r _ => "(" ++ TypeLabel.showList ps ++ ") -> " ++ r.show

/-- Type labels separated by commas. -/
def TypeLabel.showList : List TypeLabel → String
  | [] => ""
  | [t] => t.show
  | t :: u :: ts => t.show ++ ", " ++ TypeLabel.showList (u :: ts)

end

mutual

/-- The outline of an expression. -/
def Expr.outline (d : Nat) : Expr → String
  | .ident s n => outlineLine d ("Identifier " ++ n ++ " " ++ s.span.show)
  | .int s t => outlineLine d ("IntLit " ++ t ++ " " ++ s.span.show)
  | .str s ps => outlineLine d ("StringLit " ++ s.span.show) ++ Piece.outlineList (d + 1) ps
  | .call s f as => outlineLine d ("Call " ++ s.span.show) ++ f.outline (d + 1) ++
      Expr.outlineList (d + 1) as
  | .lambda s b => outlineLine d ("FuncLit " ++ s.span.show) ++ b.outline (d + 1)
  | .binary s op l r => outlineLine d ("BinaryOp " ++ op.symbol ++ " " ++ s.span.show) ++
      l.outline (d + 1) ++ r.outline (d + 1)
  | .exec s e => outlineLine d ("CompilerExec " ++ s.span.show) ++ e.outline (d + 1)

/-- The outlines of expressions, in order. -/
def Expr.outlineList (d : Nat) : List Expr → String
  | [] => ""
  | e :: es => e.outline d ++ Expr.outlineList d es

/-- The outlines of the pieces of a string literal. -/
def Piece.outlineList (d : Nat) : List Piece → String
  | [] => ""
  | .text t :: ps => outlineLine d ("Text " ++ quote t) ++ Piece.outlineList d ps
  | .interp e :: ps => outlineLine d "Interpolation" ++ e.outline (d + 1) ++ Piece.outlineList d ps

/-- The outline of a statement. -/
def Stmt.outline (d : Nat) : Stmt → String
  | .expr _ e => e.outline d
  | .ret s none => outlineLine d ("Return " ++ s.span.show)
  | .ret s (some e) => outlineLine d ("Return " ++ s.span.show) ++ e.outline (d + 1)

/-- The outlines of statements, in order. -/
def Stmt.outlineList (d : Nat) : List Stmt → String
  | [] => ""
  | s :: ss => s.outline d ++ Stmt.outlineList d ss

/-- The outline of a block. -/
def Block.outline (d : Nat) : Block → String
  | .mk s ss => outlineLine d ("Block " ++ s.span.show) ++ Stmt.outlineList (d + 1) ss

end

/-- The outline of a modifier. -/
def Modifier.outline (d : Nat) : Modifier → String
  | .external none s => outlineLine d ("extern " ++ s.show)
  | .external (some e) s => outlineLine d ("extern " ++ s.show) ++ e.outline (d + 1)
  | .compiler s => outlineLine d ("compiler " ++ s.show)

/-- The outline of a function declaration. -/
def FuncDecl.outline (d : Nat) (f : FuncDecl) : String :=
  let params := ", ".intercalate (f.params.map fun p => p.name ++ ": " ++ p.label.show)
  let ret := match f.ret with
    | some t => ": " ++ t.show
    | none => ""
  outlineLine d ("FuncDecl " ++ f.name ++ "(" ++ params ++ ")" ++ ret ++ " " ++ f.site.span.show) ++
    String.join (f.modifiers.map (Modifier.outline (d + 1))) ++
    match f.body with
    | some b => b.outline (d + 1)
    | none => ""

mutual

/-- The outline of a declaration. -/
def Decl.outline (d : Nat) : Decl → String
  | .func f => f.outline d
  | .cls s n ms members => outlineLine d ("ClassDecl " ++ n ++ " " ++ s.span.show) ++
      String.join (ms.map (Modifier.outline (d + 1))) ++ Decl.outlineList (d + 1) members
  | .hashCall s e => outlineLine d ("CompilerCall " ++ s.span.show) ++ e.outline (d + 1)

/-- The outlines of declarations, in order. -/
def Decl.outlineList (d : Nat) : List Decl → String
  | [] => ""
  | x :: xs => x.outline d ++ Decl.outlineList d xs

end

/-- The outline of a parsed file. -/
def SourceFile.outline (f : SourceFile) : String :=
  outlineLine 0 ("File " ++ f.name ++ " " ++ f.site.span.show) ++ Decl.outlineList 1 f.decls

end Abla
