import Abla.Syntax.Tree

/-!
# The `#` expressions of a file

`SourceFile.execSites` lists the sites of every `#` expression of a file in source pre-order:
a `#` expression comes before the ones nested inside it. Function bodies, the library names of
`extern` modifiers, class members and top-level `#` calls are all searched.
-/

namespace Abla

mutual

/-- The `#` sites of an expression, in pre-order. -/
def Expr.execSites : Expr → List Site
  | .ident _ _ | .int _ _ => []
  | .str _ ps => Piece.execSitesList ps
  | .call _ f as => f.execSites ++ Expr.execSitesList as
  | .lambda _ b => b.execSites
  | .binary _ _ l r => l.execSites ++ r.execSites
  | .exec s e => s :: e.execSites

/-- The `#` sites of a list of expressions, in order. -/
def Expr.execSitesList : List Expr → List Site
  | [] => []
  | e :: es => e.execSites ++ Expr.execSitesList es

/-- The `#` sites of the interpolations of a string literal. -/
def Piece.execSitesList : List Piece → List Site
  | [] => []
  | .text _ :: ps => Piece.execSitesList ps
  | .interp e :: ps => e.execSites ++ Piece.execSitesList ps

/-- The `#` sites of a statement. -/
def Stmt.execSites : Stmt → List Site
  | .expr _ e => e.execSites
  | .ret _ none => []
  | .ret _ (some e) => e.execSites

/-- The `#` sites of a list of statements. -/
def Stmt.execSitesList : List Stmt → List Site
  | [] => []
  | s :: ss => s.execSites ++ Stmt.execSitesList ss

/-- The `#` sites of a block. -/
def Block.execSites : Block → List Site
  | .mk _ ss => Stmt.execSitesList ss

end

/-- The `#` sites of a modifier's library name. -/
def Modifier.execSites : Modifier → List Site
  | .external (some e) _ => e.execSites
  | _ => []

/-- The `#` sites of a function declaration: its modifiers, then its body. -/
def FuncDecl.execSites (f : FuncDecl) : List Site :=
  (f.modifiers.flatMap Modifier.execSites) ++
    match f.body with
    | some b => b.execSites
    | none => []

mutual

/-- The `#` sites of a declaration. -/
def Decl.execSites : Decl → List Site
  | .func f => f.execSites
  | .cls _ _ ms members => ms.flatMap Modifier.execSites ++ Decl.execSitesList members
  | .hashCall _ e => e.execSites

/-- The `#` sites of a list of declarations. -/
def Decl.execSitesList : List Decl → List Site
  | [] => []
  | d :: ds => d.execSites ++ Decl.execSitesList ds

end

/-- The `#` sites of a file, in source pre-order. -/
def SourceFile.execSites (f : SourceFile) : List Site := Decl.execSitesList f.decls

end Abla
