import Abla.Eval.Value
import Abla.Text.Path

/-!
# Evaluating expressions at compile time

Expressions are evaluated from left to right: a call evaluates its function, then its
arguments, then calls. Integer arithmetic wraps at 32 bits and division truncates toward zero;
strings and booleans support only `==` and `!=`. A block gives the value of its last
expression statement, or of a `return`, which ends it.

Calls nest at most `maxCallDepth` deep. Evaluation is split along that bound: `Walk` evaluates
expressions and blocks given a way to call functions, and `callWith b` calls a function whose
body is walked with `callWith (b - 1)`; at `callWith 0` every call fails. So evaluation
terminates by recursion on the budget and, within one budget, on the expression.

The built-ins reach other units through a `Host`: they compile a file or a text as a unit on
behalf of the executing unit, and then bring that unit's run-time symbols into the executing
unit's file scope.
-/

namespace Abla

namespace Eval

/-- Evaluation reads and extends the build, and may fail with a compile error. -/
abbrev Run := ExceptT CompileError (StateM Build)

/-- The most calls that may be in progress at once. -/
def maxCallDepth : Nat := 256

/-- How evaluation asks the build to compile other units. Each request names the units that
wait on it, innermost first. -/
structure Host where
  /-- Compiles the file a unit is named by. -/
  compileFile : String → List String → StateM Build (Option Failure)
  /-- Compiles a text as a new unit, and gives the unit's name. -/
  compileText : String → List String → StateM Build (String × Option Failure)

/-- The unit being executed: its name, its file scope, the units waiting on it, and the host. -/
structure Scene where
  unit : String
  fileScope : ScopeId
  requesters : List String
  host : Host

/-- Calls a function value with arguments, at the span of the call. -/
abbrev Caller := Value → List Value → Span → Run Value

/-- The error of an execution that failed at a span. -/
def execFailure (span : Span) (message : String) : CompileError :=
  { kind := .execution, span := some span, message := message }

/-- An execution error at a span. -/
def execError {α : Type} (span : Span) (message : String) : Run α :=
  throw (execFailure span message)

/-- An internal error at a span. -/
def internalError {α : Type} (span : Span) (message : String) : Run α :=
  throw { kind := .internalState, span := some span, message := message }

/-- The function type of a symbol's type, if it is one. -/
def funcType? : Option DataType → Option DataType
  | some (.func ps r) => some (.func ps r)
  | _ => none

/-- The value of a name: a bound parameter, then a symbol of the environment's scope, then a
built-in. Parameters without a value and types are not values. -/
def identifier (env : Env) (span : Span) (name : String) : Run Value := do
  match env.find? name with
  | some v => pure v
  | none =>
    match (← get).tables.scopes.lookup env.scope name with
    | some sym =>
      match sym.kind, sym.decl with
      | .func, some f => pure (.func f (funcType? sym.type))
      | .func, none => internalError span ("symbol `" ++ name ++ "` has no declaration")
      | .param, _ => execError span ("parameter `" ++ name ++ "` has no value at compile time")
      | .type, _ => execError span ("`" ++ name ++ "` is a type, not a value")
    | none =>
      match Builtin.byName? name with
      | some b => pure (.builtin b)
      | none => throw { kind := .unresolved, span := some span,
                        message := "undefined symbol: `" ++ name ++ "`" }

/-- An operator on two integers. -/
def intOp (span : Span) (op : BinOp) (a b : Int32) : Except CompileError Value :=
  match op with
  | .add => .ok (.int (a + b))
  | .sub => .ok (.int (a - b))
  | .mul => .ok (.int (a * b))
  | .div => if b = 0 then .error (execFailure span "division by zero") else .ok (.int (a / b))
  | .eq => .ok (.bool (a == b))
  | .neq => .ok (.bool (a != b))
  | .gt => .ok (.bool (decide (a > b)))
  | .lt => .ok (.bool (decide (a < b)))
  | .ge => .ok (.bool (decide (a ≥ b)))
  | .le => .ok (.bool (decide (a ≤ b)))

/-- An operator on two values: arithmetic and comparison on integers, equality on strings
and on booleans. It reads nothing of the build. -/
def binary (span : Span) (op : BinOp) (l r : Value) : Except CompileError Value :=
  let undefined : Except CompileError Value :=
    .error (execFailure span ("operator `" ++ op.symbol ++ "` is not defined for `" ++
      l.type.repr ++ "` and `" ++ r.type.repr ++ "`"))
  match l, r with
  | .int a, .int b => intOp span op a b
  | .str a, .str b =>
    if op = .eq then .ok (.bool (a == b))
    else if op = .neq then .ok (.bool (a != b))
    else undefined
  | .bool a, .bool b =>
    if op = .eq then .ok (.bool (a == b))
    else if op = .neq then .ok (.bool (a != b))
    else undefined
  | _, _ => undefined

namespace Walk

mutual

/-- Evaluates an expression. -/
def expr (call : Caller) (env : Env) : Expr → Run Value
  | .ident s n => identifier env s.span n
  | .int s t =>
    match literalValue? t with
    | some n => pure (.int n)
    | none => throw { kind := .parse, span := some s.span,
                      message := "invalid integer literal: `" ++ t ++ "`" }
  | .str _ ps => return .str (← pieces call env ps)
  | .call s f as => do
    let fv ← expr call env f
    let avs ← args call env as
    call fv avs s.span
  | .lambda _ b => pure (.lambda b env)
  | .binary s op l r => do
    let lv ← expr call env l
    let rv ← expr call env r
    MonadExcept.ofExcept (binary s.span op lv rv)
  | .exec _ e => expr call env e

/-- Evaluates the pieces of a string literal and joins them. -/
def pieces (call : Caller) (env : Env) : List Piece → Run String
  | [] => pure ""
  | .text t :: ps => return t ++ (← pieces call env ps)
  | .interp e :: ps => do
    let v ← expr call env e
    match v with
    | .void => execError e.span "cannot interpolate a value of type `Void`"
    | _ => return v.render ++ (← pieces call env ps)

/-- Evaluates arguments from left to right. -/
def args (call : Caller) (env : Env) : List Expr → Run (List Value)
  | [] => pure []
  | e :: es => do
    let v ← expr call env e
    return v :: (← args call env es)

end

/-- Runs statements. Gives the value of a `return` (`Void` without a value), which ends the
block, or else of the last expression statement run, starting from `last`. -/
def block (call : Caller) (env : Env) : List Stmt → Option Value → Run (Option Value)
  | [], last => pure last
  | .expr _ e :: rest, _ => do
    let v ← expr call env e
    block call env rest (some v)
  | .ret _ none :: _, _ => pure (some .void)
  | .ret _ (some e) :: _, _ => return some (← expr call env e)

end Walk

/-- Checks arguments against a function type: their number, and the type of each argument
whose parameter has a primitive type. A function known without a type takes anything. -/
def checkArgs (name : String) (type : Option DataType) (vals : List Value) (span : Span) :
    Run Unit := do
  match type with
  | some (.func params _) =>
    if vals.length ≠ params.length then
      execError span ("`" ++ name ++ "` expects " ++ toString params.length ++
        " arguments but got " ++ toString vals.length)
    for (i, v, p) in (List.range vals.length).zip (vals.zip params) do
      match p with
      | .prim _ =>
        if !v.type.equiv p then
          execError span ("argument " ++ toString (i + 1) ++ " of `" ++ name ++
            "` must be of type `" ++ p.repr ++ "` but got `" ++ v.type.repr ++ "`")
      | _ => pure ()
  | _ => pure ()

/-- Whether two symbols are one: declared by the same node of the same unit. -/
def Symbol.same (a b : Symbol) : Bool := a.name == b.name && a.unit == b.unit && a.node == b.node

/-- Brings the run-time symbols a unit declares into the executing unit's file scope. A name
the file scope already gives to another symbol keeps it, with a warning. -/
def importUnit (sc : Scene) (name : String) (span : Span) : Run Unit := do
  let b ← get
  let some file := b.units.file? name
    | internalError span ("imported unit `" ++ name ++ "` has no AST")
  let some table := b.tables.notes.scopeOf? file.site.id
    | internalError span ("no scope recorded for `" ++ name ++ "`")
  for sym in b.tables.scopes.symbolsOf table do
    if sym.unit = name && !sym.compileTimeOnly then
      let b ← get
      let (scopes, ok) := b.tables.scopes.define sc.fileScope sym
      if ok then set { b with tables := { b.tables with scopes := scopes } }
      else
        let same := match b.tables.scopes.lookupLocal sc.fileScope sym.name with
          | some ex => Symbol.same ex sym
          | none => false
        if !same then
          set (b.report (.warning sc.unit (some span)
            ("imported symbol `" ++ sym.name ++ "` is shadowed by a local definition")))

/-- Runs a built-in on checked arguments. -/
def runBuiltin (sc : Scene) (b : Builtin) (vals : List Value) (span : Span) : Run Value :=
  match b, vals with
  | .importFile, [.str path] => do
    let joined := if Path.isAbs path || sc.unit.startsWith "<" then path
      else Path.join (Path.dir sc.unit) path
    let name := Path.clean joined
    let err ← (sc.host.compileFile name (sc.unit :: sc.requesters) : StateM Build _)
    match err with
    | some f => execError span ("failed to import `" ++ name ++ "`: " ++ f.text)
    | none => do
      importUnit sc name span
      pure .void
  | .compileText, [.str text] => do
    let (name, err) ← (sc.host.compileText text (sc.unit :: sc.requesters) : StateM Build _)
    match err with
    | some f => execError span ("failed to compile inline source: " ++ f.text)
    | none => do
      importUnit sc name span
      pure (.str name)
  | _, _ => internalError span ("bad arguments to `" ++ b.name ++ "`")

/-- Calls a function value with at most `budget` calls nested in it, the call itself
included. -/
def callWith (sc : Scene) : Nat → Caller
  | 0 => fun _ _ span =>
    execError span ("maximum call depth of " ++ toString maxCallDepth ++ " exceeded")
  | budget + 1 => fun fn vals span =>
    match fn with
    | .builtin b => do
      checkArgs b.name (some b.type) vals span
      runBuiltin sc b vals span
    | .lambda body env => do
      if vals.length > 0 then
        execError span ("function literal takes no arguments but got " ++ toString vals.length)
      let r ← Walk.block (callWith sc budget) (.mk [] env.scope (some env)) body.stmts none
      pure (r.getD (.int 1))
    | .func f type => do
      if f.isExtern then
        execError span ("extern function `" ++ f.name ++ "` cannot be called at compile time")
      checkArgs f.name type vals span
      let some scope := (← get).tables.notes.scopeOf? f.site.id
        | internalError span ("no scope recorded for `" ++ f.name ++ "`")
      let vars := ((f.params.map (·.name)).zip vals).reverse
      let stmts := match f.body with
        | some b => b.stmts
        | none => []
      let r ← Walk.block (callWith sc budget) (.mk vars scope none) stmts none
      match type with
      | some (.func _ ret) =>
        if DataType.isVoid ret then pure .void
        else match r with
          | some v => pure v
          | none => execError span ("function `" ++ f.name ++ "` produced no value")
      | _ => pure .void
    | v => execError span ("cannot call a value of type `" ++ v.type.repr ++ "`")

/-- Evaluates an expression of the executing unit, with no call in progress. -/
def evaluate (sc : Scene) (env : Env) (e : Expr) : Run Value :=
  Walk.expr (callWith sc maxCallDepth) env e

end Eval

end Abla
