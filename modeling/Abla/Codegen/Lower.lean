import Abla.Codegen.Program

/-!
# Generating function bodies

A body is generated statement by statement into its function's `entry` block. Expressions
leave their LLVM values on the value stack; a call to a function returning `void` leaves
none, so it cannot be used as a value. Names resolve in the scope of the innermost block:
functions become function pointers and parameters the function's own parameters. A function
literal becomes an internal function `uK.lambda.N` of its unit, generated on the spot; it may
not use the parameters of the function around it.

Values must match: a call's arguments the parameter types, the operands of an operator each
other, a returned value the return type. Only `==` and `!=` compare values that are not
`i32`. Strings become private constant globals, shared by content; interpolation exists only
at compile time, and a `#` expression becomes the constant it computed.

A block that has not returned when its statements end returns its last value, if its
function returns a value and there is one, and returns nothing otherwise. A function literal
takes its return type from its first `return` or from its final value, and returns `i32 1`
when it has neither. Statements after a `return` are skipped with a warning.
-/

namespace Abla

/-- The instruction an operator lowers to: arithmetic for `+ - * /`, a signed comparison for
the orderings, and an equality test for `==` and `!=`, the only operators defined on values
that are not `i32`. -/
def BinOp.inst (op : BinOp) (a b : Ir.Operand) : Ir.Inst :=
  match op with
  | .add => .arith .add a b
  | .sub => .arith .sub a b
  | .mul => .arith .mul a b
  | .div => .arith .sdiv a b
  | .eq => .icmp .eq a b
  | .neq => .icmp .ne a b
  | .gt => .icmp .sgt a b
  | .lt => .icmp .slt a b
  | .ge => .icmp .sge a b
  | .le => .icmp .sle a b

namespace Codegen

/-- The function being generated. -/
structure FnFrame where
  fn : Nat
  isLambda : Bool
  retInferred : Bool := false
  deriving Inhabited

/-- The state of generating one unit. -/
structure Gen where
  prog : Program
  unit : String
  unitPrefix : String
  stack : GenStack Nat Ir.Operand := {}
  frame : FnFrame := default
  lambdas : Nat := 0
  deriving Inhabited

/-- Generation reads the build's tables, extends the program, and may fail. -/
abbrev G := ExceptT CompileError (StateT Gen (ReaderT Tables Id))

/-- An error of a given kind at a span. -/
def raise {α : Type} (kind : ErrorKind) (span : Span) (message : String) : G α :=
  throw { kind := kind, span := some span, message := message }

/-- Runs a step of the generator's stacks. -/
def onStack {α : Type} (r : Except CompileError α) : G α :=
  match r with
  | .ok a => pure a
  | .error e => throw e

/-- Pushes a value. -/
def push (v : Ir.Operand) : G Unit := modify fun g => { g with stack := g.stack.pushValue v }

/-- Pops a value. -/
def pop : G Ir.Operand := do
  let (v, st) ← onStack (← get).stack.popValue
  modify fun g => { g with stack := st }
  pure v

/-- The number of values on the stack. -/
def depth : G Nat := return (← get).stack.depth

/-- Keeps only the bottom `n` values. -/
def truncate (n : Nat) : G Unit := modify fun g => { g with stack := g.stack.truncate n }

/-- The function being generated. -/
def curFunc : G Ir.Func := do
  let g ← get
  match g.prog.module.funcs[g.frame.fn]? with
  | some f => pure f
  | none => throw (.internal "function vanished")

/-- Reports a warning of the unit. -/
def warn (span : Span) (message : String) : G Unit :=
  modify fun g => { g with prog := { g.prog with
    log := g.prog.log.push (.warning g.unit (some span) message) } }

/-- Appends an instruction to the innermost block; gives its result. -/
def emit (span : Span) (inst : Ir.Inst) : G Ir.Operand := do
  let f ← onStack ((← get).stack.emitTarget (some span))
  let g ← get
  let (m, v) := g.prog.module.append f.block inst
  set { g with prog := { g.prog with module := m } }
  pure v

/-- Ends the innermost block with a `ret`. -/
def emitRet (span : Span) (v : Option Ir.Operand) : G Unit := do
  let f ← onStack ((← get).stack.emitTarget (some span))
  modify fun g => { g with prog := { g.prog with module := g.prog.module.setRet f.block v } }

/-- Marks the innermost block as returned. -/
def markReturned : G Unit := do
  let st ← onStack (← get).stack.markReturned
  modify fun g => { g with stack := st }

/-- The operand of a string global with the given content, made on first use. -/
def stringConst (s : String) : G Ir.Operand := do
  let g ← get
  match g.prog.strings.lookup s with
  | some v => pure v
  | none =>
    let name := "str." ++ toString g.prog.strings.length
    let glob : Ir.Global := ⟨name, s⟩
    let v := Ir.Operand.string name glob.size
    set { g with prog := { g.prog with
      strings := g.prog.strings ++ [(s, v)],
      module := { g.prog.module with globals := g.prog.module.globals.push glob } } }
    pure v

/-- The operand a handle stands for. -/
def handleOperand (h : Handle) : G Ir.Operand := do
  let m := (← get).prog.module
  match h with
  | .func i =>
    match m.funcs[i]? with
    | some f => pure f.operand
    | none => throw (.internal "function vanished")
  | .param i k =>
    match m.funcs[i]? >>= fun f => f.params[k]? with
    | some p => pure (.param p.name p.ty)
    | none => throw (.internal "parameter vanished")

/-- Pushes the value of a name. -/
def genIdent (span : Span) (name : String) : G Unit := do
  let fr ← onStack (← get).stack.current
  let some sym := (← read).scopes.lookup fr.scope name
    | raise .unresolved span ("undefined symbol: `" ++ name ++ "`")
  if sym.compileTimeOnly then
    raise .unresolved span ("`" ++ name ++ "` is a compiler function and has no runtime value")
  if sym.kind = .type then raise .type span ("`" ++ name ++ "` is a type, not a value")
  let some h := (← get).prog.handles[sym.node]?
    | raise .unresolved span ("`" ++ name ++ "` has no runtime definition")
  match h with
  | .param owner _ =>
    if owner ≠ (← get).frame.fn then
      raise .unsupported span ("function literals cannot capture parameter `" ++ name ++ "`")
  | _ => pure ()
  push (← handleOperand h)

/-- Pushes a string literal made of text alone. -/
def genString (parts : List Piece) : G Unit := do
  let mut text := ""
  for p in parts do
    match p with
    | .text t => text := text ++ t
    | .interp e => raise .unsupported e.span "string interpolation is only supported at compile time"
  push (← stringConst text)

/-- Pushes the constant a `#` expression computed. -/
def genConst (site : Site) : G Unit := do
  match (← read).notes.constOf? site.id with
  | none => raise .internalState site.span "compiler expression was never executed"
  | some (.int n) => push (.int n)
  | some (.str s) => push (← stringConst s)
  | some (.bool b) => push (.bool b)

/-- Checks a value's type against the return type of the function being generated. -/
def checkReturnType (span : Span) (ty : Ir.Ty) : G Unit := do
  let rt := (← curFunc).ret
  if !Ir.Ty.same rt ty then
    raise .type span ("cannot return a value of type `" ++ ty.text ++ "` from a function returning `" ++
      rt.text ++ "`")

/-- Takes a function literal's return type from its first return, and checks later ones. -/
def inferReturnType (span : Span) (ty : Ir.Ty) : G Unit := do
  let g ← get
  if !g.frame.retInferred then
    set { g with frame := { g.frame with retInferred := true },
                 prog := { g.prog with
                   module := g.prog.module.modifyFunc g.frame.fn (fun f => { f with ret := ty }) } }
  else checkReturnType span ty

/-- Ends a block that has not returned, returning its last value as the function allows. -/
def genImplicitReturn (span : Span) (base : Nat) : G Unit := do
  let g ← get
  let mut result := if g.stack.depth > base then g.stack.topValue else none
  if g.frame.isLambda then
    match result with
    | some v => inferReturnType span v.ty
    | none => if !(← get).frame.retInferred then result := some (.int 1)
  let ret := (← curFunc).ret
  match result with
  | some v =>
    if Ir.Ty.same ret .void then emitRet span none
    else do
      checkReturnType span v.ty
      emitRet span (some v)
  | none => emitRet span none
  markReturned

/-- Adds the entry point `main`, which calls the program's `main` and returns its result, or
zero when it returns nothing. -/
def genEntryPoint (abmain : Ir.Func) : G Unit := do
  let g ← get
  let (m, i) := g.prog.module.addFunc
    { name := "main", linkage := .external, ret := .i32, blocks := #[{ name := "entry" }] }
  let (m, r) := m.append i (.call abmain.operand [] abmain.ret)
  let m := m.setRet i (some (if Ir.Ty.same abmain.ret .i32 then r else .int 0))
  set { g with prog := { g.prog with module := m } }

/-- The LLVM function type a callee points to, if it is a function pointer. -/
def calleeType (v : Ir.Operand) : Option (Ir.Ty × List Ir.Ty) := v.ty.pointee?

mutual

/-- Generates an expression, pushing its value if it has one. -/
def genExpr : Expr → G Unit
  | .ident s n => genIdent s.span n
  | .int s t =>
    match literalValue? t with
    | some n => push (.int n.toInt)
    | none => raise .parse s.span ("invalid integer literal: `" ++ t ++ "`")
  | .str _ ps => genString ps
  | .call s f as => do
    let callee ← genValue f
    let args ← genArgs as
    let some (ret, ptys) := calleeType callee
      | raise .type f.span ("cannot call a value of type `" ++ callee.ty.text ++ "`")
    if args.length ≠ ptys.length then
      raise .type s.span ("expected " ++ toString ptys.length ++ " arguments but got " ++
        toString args.length)
    for ((a, p), e) in (args.zip ptys).zip as do
      if !Ir.Ty.same a.ty p then
        raise .type e.span ("expected argument of type `" ++ p.text ++ "` but got `" ++ a.ty.text ++ "`")
    let r ← emit s.span (.call callee args ret)
    if !Ir.Ty.same ret .void then push r
  | .lambda s (.mk _ sts) => do
    let f ← genLambda s sts
    push f
  | .binary s op l r => do
    let lv ← genValue l
    let rv ← genValue r
    if !Ir.Ty.same lv.ty rv.ty then
      raise .type s.span ("operator `" ++ op.symbol ++ "` applied to mismatched types `" ++
        lv.ty.text ++ "` and `" ++ rv.ty.text ++ "`")
    let _ ← onStack ((← get).stack.emitTarget (some s.span))
    if !op.isEquality && !Ir.Ty.same lv.ty .i32 then
      raise .type s.span ("operator `" ++ op.symbol ++ "` is not defined for `" ++ lv.ty.text ++ "`")
    push (← emit s.span (op.inst lv rv))
  | .exec s _ => genConst s

/-- Generates an expression that must give a value, and takes that value. -/
def genValue (e : Expr) : G Ir.Operand := do
  let d ← depth
  genExpr e
  if (← depth) = d then raise .type e.span "expression produces no value"
  pop

/-- Generates arguments in order and takes their values. -/
def genArgs : List Expr → G (List Ir.Operand)
  | [] => pure []
  | e :: es => do
    let v ← genValue e
    return v :: (← genArgs es)

/-- Generates a statement. -/
def genStmt : Stmt → G Unit
  | .expr _ e => genExpr e
  | .ret s none => do
    let fr := (← get).frame
    if fr.isLambda then inferReturnType s.span .void
    else if !Ir.Ty.same (← curFunc).ret .void then raise .type s.span "missing return value"
    emitRet s.span none
    markReturned
  | .ret s (some e) => do
    let v ← genValue e
    if (← get).frame.isLambda then inferReturnType s.span v.ty
    else checkReturnType s.span v.ty
    emitRet s.span (some v)
    markReturned

/-- Generates statements until one returns; the rest are skipped with a warning. Each
statement starts from the values there were before the first. -/
def genStmts (base : Nat) : List Stmt → G Unit
  | [] => pure ()
  | st :: rest => do
    let fr ← onStack (← get).stack.current
    if fr.returned then warn st.site.span "unreachable code"
    else do
      truncate base
      genStmt st
      genStmts base rest

/-- Generates a function literal as a new internal function; gives that function. -/
def genLambda (site : Site) (sts : List Stmt) : G Ir.Operand := do
  let some scope := (← read).notes.scopeOf? site.id
    | raise .internalState site.span "no scope recorded for function literal"
  let g ← get
  let name := g.unitPrefix ++ "lambda." ++ toString g.lambdas
  let (m, i) := g.prog.module.addFunc
    { name := name, linkage := .internal, ret := .i32, blocks := #[{ name := "entry" }] }
  let enclosing := g.frame
  set { g with prog := { g.prog with module := m }, lambdas := g.lambdas + 1,
               frame := { fn := i, isLambda := true } }
  let base ← depth
  modify fun g => { g with stack := g.stack.pushBlock i scope }
  genStmts base sts
  let fr ← onStack (← get).stack.current
  if !fr.returned then genImplicitReturn site.span base
  let (_, st) ← onStack (← get).stack.popBlock
  modify fun g => { g with stack := st.truncate base, frame := enclosing }
  match (← get).prog.module.funcs[i]? with
  | some f => pure f.operand
  | none => throw (.internal "function vanished")

end

/-- Generates the body of a declared function; after `main`, adds the entry point. -/
def genFunc (f : FuncDecl) : G Unit := do
  if f.isExtern || f.isCompiler then return
  let some (.func i) := (← get).prog.handles[f.site.id]?
    | raise .internalState f.nameSpan ("function `" ++ f.name ++ "` was never declared")
  let some scope := (← read).notes.scopeOf? f.site.id
    | raise .internalState f.nameSpan ("no scope recorded for `" ++ f.name ++ "`")
  modify fun g => { g with frame := { fn := i, isLambda := false } }
  modify fun g => { g with stack := g.stack.pushBlock i scope }
  let base ← depth
  let sts := match f.body with
    | some b => b.stmts
    | none => []
  genStmts base sts
  let fr ← onStack (← get).stack.current
  if !fr.returned then genImplicitReturn f.site.span base
  let (_, st) ← onStack (← get).stack.popBlock
  modify fun g => { g with stack := st.clearValues }
  if (← get).prog.main = some f.site.id then genEntryPoint (← curFunc)

mutual

/-- Generates the functions of a declaration. -/
def genDecl : Decl → G Unit
  | .func f => genFunc f
  | .cls _ _ mods members => if Modifier.hasCompiler mods then pure () else genDecls members
  | .hashCall _ _ => pure ()

/-- Generates the functions of declarations in order. -/
def genDecls : List Decl → G Unit
  | [] => pure ()
  | d :: ds => do
    genDecl d
    genDecls ds

end

end Codegen

end Abla
