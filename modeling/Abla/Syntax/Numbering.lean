import Abla.Syntax.Tree

/-!
# Numbering the nodes of a tree

`SourceFile.number n` gives every node of a file a distinct number, counting up from `n` in
pre-order, and returns the next free number. Spans and structure are kept.
-/

namespace Abla

/-- Numbering threads the next free node number. -/
abbrev Numbering := StateM Nat

/-- A fresh site with the given span. -/
def freshSite (span : Span) : Numbering Site :=
  modifyGet fun n => (⟨n, span⟩, n + 1)

mutual

/-- Numbers an expression and its subexpressions. -/
def Expr.number : Expr → Numbering Expr
  | .ident s n => return .ident (← freshSite s.span) n
  | .int s t => return .int (← freshSite s.span) t
  | .str s ps => do
    let s' ← freshSite s.span
    return .str s' (← Piece.numberList ps)
  | .call s f as => do
    let s' ← freshSite s.span
    let f' ← f.number
    return .call s' f' (← Expr.numberList as)
  | .lambda s b => do
    let s' ← freshSite s.span
    return .lambda s' (← b.number)
  | .binary s op l r => do
    let s' ← freshSite s.span
    let l' ← l.number
    return .binary s' op l' (← r.number)
  | .exec s e => do
    let s' ← freshSite s.span
    return .exec s' (← e.number)

/-- Numbers a list of expressions in order. -/
def Expr.numberList : List Expr → Numbering (List Expr)
  | [] => return []
  | e :: es => do
    let e' ← e.number
    return e' :: (← Expr.numberList es)

/-- Numbers the interpolations of a string literal. -/
def Piece.numberList : List Piece → Numbering (List Piece)
  | [] => return []
  | .text t :: ps => return .text t :: (← Piece.numberList ps)
  | .interp e :: ps => do
    let e' ← e.number
    return .interp e' :: (← Piece.numberList ps)

/-- Numbers a statement. -/
def Stmt.number : Stmt → Numbering Stmt
  | .expr s e => do
    let s' ← freshSite s.span
    return .expr s' (← e.number)
  | .ret s none => return .ret (← freshSite s.span) none
  | .ret s (some e) => do
    let s' ← freshSite s.span
    return .ret s' (some (← e.number))

/-- Numbers a list of statements in order. -/
def Stmt.numberList : List Stmt → Numbering (List Stmt)
  | [] => return []
  | st :: sts => do
    let st' ← st.number
    return st' :: (← Stmt.numberList sts)

/-- Numbers a block. -/
def Block.number : Block → Numbering Block
  | .mk s sts => do
    let s' ← freshSite s.span
    return .mk s' (← Stmt.numberList sts)

end

/-- Numbers the library name of a modifier. -/
def Modifier.number : Modifier → Numbering Modifier
  | .external (some e) sp => return .external (some (← e.number)) sp
  | m => return m

/-- Numbers a parameter. -/
def Param.number (p : Param) : Numbering Param := do
  return { p with site := ← freshSite p.site.span }

/-- Numbers a function declaration, its parameters and its body. -/
def FuncDecl.number (f : FuncDecl) : Numbering FuncDecl := do
  let site ← freshSite f.site.span
  let mods ← f.modifiers.mapM Modifier.number
  let params ← f.params.mapM Param.number
  let body ← match f.body with
    | none => pure none
    | some b => some <$> b.number
  return { f with site := site, modifiers := mods, params := params, body := body }

mutual

/-- Numbers a declaration and, for a class, its members. -/
def Decl.number : Decl → Numbering Decl
  | .func f => .func <$> f.number
  | .cls s n ms members => do
    let s' ← freshSite s.span
    let ms' ← ms.mapM Modifier.number
    return .cls s' n ms' (← Decl.numberList members)
  | .hashCall s e => do
    let s' ← freshSite s.span
    return .hashCall s' (← e.number)

/-- Numbers a list of declarations in order. -/
def Decl.numberList : List Decl → Numbering (List Decl)
  | [] => return []
  | d :: ds => do
    let d' ← d.number
    return d' :: (← Decl.numberList ds)

end

/-- Numbers every node of a file from `next` on; returns the file and the next free number. -/
def SourceFile.number (f : SourceFile) (next : Nat) : SourceFile × Nat :=
  let act : Numbering SourceFile := do
    let site ← freshSite f.site.span
    return { f with site := site, decls := ← Decl.numberList f.decls }
  act.run next

end Abla
