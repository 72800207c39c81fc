import Abla.Eval.Interp

/-!
# Executing a unit

Executing a unit runs its top-level `#` calls in order, then computes every `#` expression
found in the bodies of its run-time functions and classes, in source order, and records the
constant each one gives. Only integers, strings and booleans can be embedded in the program:
`Void` and functions cannot. A `#` expression nested inside another is evaluated as part of
the outer one and records nothing of its own. Functions and classes declared `compiler` exist
only at compile time and are skipped.
-/

namespace Abla

namespace Eval

/-- Records the constant a `#` expression computed, and its type. -/
def recordConst (site : Site) (v : Value) : Run Unit := do
  let c ← match v with
    | .int n => pure (ConstValue.int n.toInt)
    | .str s => pure (ConstValue.str s)
    | .bool b => pure (ConstValue.bool b)
    | .void => execError site.span "compile-time expression produced no value"
    | _ => execError site.span ("cannot embed a value of type `" ++ v.type.repr ++
        "` computed at compile time")
  modify fun b => { b with tables := { b.tables with
    notes := (b.tables.notes.setConst site.id c).setType site.id v.type } }

mutual

/-- Computes the `#` expressions inside an expression, with names resolved in `scope`. -/
def constsExpr (sc : Scene) (scope : ScopeId) : Expr → Run Unit
  | .str _ ps => constsPieces sc scope ps
  | .call _ f as => do
    constsExpr sc scope f
    constsArgs sc scope as
  | .lambda _ (.mk _ sts) => constsStmts sc scope sts
  | .binary _ _ l r => do
    constsExpr sc scope l
    constsExpr sc scope r
  | .exec site e => do
    let v ← evaluate sc (.mk [] scope none) e
    recordConst site v
  | _ => pure ()

/-- Computes the `#` expressions inside the interpolations of a string literal. -/
def constsPieces (sc : Scene) (scope : ScopeId) : List Piece → Run Unit
  | [] => pure ()
  | .text _ :: ps => constsPieces sc scope ps
  | .interp e :: ps => do
    constsExpr sc scope e
    constsPieces sc scope ps

/-- Computes the `#` expressions inside a list of expressions. -/
def constsArgs (sc : Scene) (scope : ScopeId) : List Expr → Run Unit
  | [] => pure ()
  | e :: es => do
    constsExpr sc scope e
    constsArgs sc scope es

/-- Computes the `#` expressions inside statements. -/
def constsStmts (sc : Scene) (scope : ScopeId) : List Stmt → Run Unit
  | [] => pure ()
  | .expr _ e :: rest => do
    constsExpr sc scope e
    constsStmts sc scope rest
  | .ret _ (some e) :: rest => do
    constsExpr sc scope e
    constsStmts sc scope rest
  | .ret _ none :: rest => constsStmts sc scope rest

end

mutual

/-- Computes the `#` expressions of a run-time declaration. -/
def execDecl (sc : Scene) : Decl → Run Unit
  | .func f =>
    match f.body with
    | none => pure ()
    | some body =>
      if f.isCompiler then pure ()
      else do
        let some scope := (← get).tables.notes.scopeOf? f.site.id
          | internalError f.site.span ("no scope recorded for `" ++ f.name ++ "`")
        constsStmts sc scope body.stmts
  | .cls _ _ mods members =>
    if Modifier.hasCompiler mods then pure () else execDecls sc members
  | .hashCall _ _ => pure ()

/-- Computes the `#` expressions of declarations in order. -/
def execDecls (sc : Scene) : List Decl → Run Unit
  | [] => pure ()
  | d :: ds => do
    execDecl sc d
    execDecls sc ds

end

/-- Runs the top-level `#` calls of a list of declarations in order. -/
def runCalls (sc : Scene) : List Decl → Run Unit
  | [] => pure ()
  | .hashCall _ call :: ds => do
    let _ ← evaluate sc (.mk [] sc.fileScope none) call
    runCalls sc ds
  | _ :: ds => runCalls sc ds

end Eval

/-- Executes a gathered file on behalf of `requesters`: its top-level calls first, then the
`#` expressions of its declarations. Errors carry the file's unit name. -/
def SourceFile.execute (f : SourceFile) (host : Eval.Host) (requesters : List String) :
    Eval.Run Unit := do
  try
    let some scope := (← get).tables.notes.scopeOf? f.site.id
      | Eval.internalError f.site.span ("no scope recorded for `" ++ f.name ++ "`")
    let sc : Eval.Scene := ⟨f.name, scope, requesters, host⟩
    Eval.runCalls sc f.decls
    Eval.execDecls sc f.decls
  catch e => throw (e.inUnit f.name)

end Abla
