import Abla.Scope.Notes
import Abla.Report.Error

/-!
# Gathering declarations and types

Gathering a file builds its scopes and types its declarations and expressions, in three passes:
classes are declared first, with a scope each, so that every type label of the file can name
any of them; then functions are declared with their types; then bodies are walked, recording
the type of every expression that has one.

Every failure is a type error at the offending text, except an unknown type name. The first
failure ends the gathering.
-/

namespace Abla

namespace Gather

/-- Gathering reads and extends the build's scopes and annotations, and may fail. -/
abbrev M := ExceptT CompileError (StateM Tables)

/-- A type error at a span. -/
def typeError {α : Type} (span : Span) (message : String) : M α :=
  throw { kind := .type, span := some span, message := message }

/-- A new scope below `parent`. -/
def newScope (parent : Option ScopeId) : M ScopeId :=
  modifyGet fun t =>
    let (sc, id) := t.scopes.create parent
    (id, { t with scopes := sc })

/-- Defines a symbol in a scope; a name defined twice in one scope is an error at `span`. -/
def define (scope : ScopeId) (sym : Symbol) (span : Span) : M Unit := do
  let t ← get
  let (sc, ok) := t.scopes.define scope sym
  if ok then set { t with scopes := sc }
  else typeError span ("multiple symbols named `" ++ sym.name ++ "` defined in the same scope")

/-- Records the type of a node. -/
def note (node : Nat) (ty : DataType) : M Unit :=
  modify fun t => { t with notes := t.notes.setType node ty }

/-- Records the scope a node opens. -/
def noteScope (node : Nat) (scope : ScopeId) : M Unit :=
  modify fun t => { t with notes := t.notes.setScope node scope }

/-- The type recorded for a node. -/
def typeOf? (node : Nat) : M (Option DataType) := do
  return (← get).notes.typeOf? node

/-- The symbol a name resolves to from a scope. -/
def lookup (scope : ScopeId) (name : String) : M (Option Symbol) := do
  return (← get).scopes.lookup scope name

mutual

/-- The data type a type label denotes in a scope: a primitive type, a declared class (with
its type arguments) or a function type. -/
def resolve (scope : ScopeId) : TypeLabel → M DataType
  | .named n ps span =>
    match Prim.byName? n with
    | some p =>
      if ps.isEmpty then pure (.prim p)
      else typeError span ("type `" ++ n ++ "` does not take type parameters")
    | none => do
      match ← lookup scope n with
      | some sym =>
        if sym.kind = .type then return .user n (← resolveList scope ps)
        else throw { kind := .unknownType, span := some span, message := "unknown type: `" ++ n ++ "`" }
      | none => throw { kind := .unknownType, span := some span, message := "unknown type: `" ++ n ++ "`" }
  | .func ps r _ => do
    let params ← resolveList scope ps
    let ret ← resolve scope r
    return .func params (some ret)

/-- The data types of a list of labels, in order. -/
def resolveList (scope : ScopeId) : List TypeLabel → M (List DataType)
  | [] => pure []
  | l :: ls => do
    let t ← resolve scope l
    return t :: (← resolveList scope ls)

end

mutual

/-- Declares a class in a scope, opens its scope, and declares the classes nested in it. -/
def declareClass (unit : String) (scope : ScopeId) : Decl → M Unit
  | .cls site name mods members => do
    let ty : DataType := .user name []
    let sym : Symbol :=
      { name := name, kind := .type, type := some ty, unit := unit, node := site.id,
        compileTimeOnly := Modifier.hasCompiler mods }
    define scope sym site.span
    note site.id ty
    let inner ← newScope (some scope)
    noteScope site.id inner
    declareClasses unit inner members
  | _ => pure ()

/-- Declares the classes of a list of declarations. -/
def declareClasses (unit : String) (scope : ScopeId) : List Decl → M Unit
  | [] => pure ()
  | d :: ds => do
    declareClass unit scope d
    declareClasses unit scope ds

end

/-- The library name of the first `extern` modifier of a function. -/
def firstExternLib (f : FuncDecl) : Option Expr :=
  match f.modifiers.find? (fun | .external _ _ => true | _ => false) with
  | some (.external lib _) => lib
  | _ => none

/-- Whether an expression is a string literal made of text alone. -/
def isConstantString : Expr → Bool
  | .str _ ps => ps.all Piece.isText
  | _ => false

end Gather

namespace Gather

/-- Declares a function in a scope: checks its modifiers against its body, resolves its type
(parameters before the return, a missing return being `Void`), checks `main`, and defines it. -/
def declareFunc (unit : String) (fileScope scope : ScopeId) (f : FuncDecl) : M Unit := do
  if f.isExtern && f.isCompiler then
    typeError f.nameSpan "function cannot be both `extern` and `compiler`"
  else if f.isExtern && f.body.isSome then
    typeError f.nameSpan "extern function must not have a body"
  else if f.isCompiler && f.body.isNone then
    typeError f.nameSpan "compiler function must have a body"
  else if !f.isExtern && f.body.isNone then
    typeError f.nameSpan "function must have a body"
  match firstExternLib f with
  | some lib =>
    if !isConstantString lib then typeError lib.span "extern library name must be a constant string"
  | none => pure ()
  let mut params : List DataType := []
  for p in f.params do
    let pt ← resolve scope p.label
    if DataType.isVoid (some pt) then
      typeError p.site.span ("parameter `" ++ p.name ++ "` cannot be of type `Void`")
    params := params ++ [pt]
    note p.site.id pt
  let ret ← match f.ret with
    | some l => resolve scope l
    | none => pure DataType.void
  if f.name = "main" ∧ scope = fileScope then
    if !f.params.isEmpty then typeError f.nameSpan "`main` must not take any parameters"
    if !(ret.equiv .int) && !DataType.isVoid (some ret) then
      typeError f.nameSpan ("`main` must return `Int` or `Void`, not `" ++ ret.repr ++ "`")
  let ty : DataType := .func params (some ret)
  let sym : Symbol :=
    { name := f.name, kind := .func, type := some ty, unit := unit, node := f.site.id,
      decl := some f, compileTimeOnly := f.isCompiler }
  define scope sym f.nameSpan
  note f.site.id ty

mutual

/-- Declares the functions of a declaration, descending into classes. -/
def declareMembers (unit : String) (fileScope scope : ScopeId) : Decl → M Unit
  | .func f => declareFunc unit fileScope scope f
  | .cls site _ _ members => do
    let inner := ((← get).notes.scopeOf? site.id).getD scope
    declareMembersList unit fileScope inner members
  | .hashCall _ _ => pure ()

/-- Declares the functions of a list of declarations. -/
def declareMembersList (unit : String) (fileScope scope : ScopeId) : List Decl → M Unit
  | [] => pure ()
  | d :: ds => do
    declareMembers unit fileScope scope d
    declareMembersList unit fileScope scope ds

end

end Gather

namespace Gather

mutual

/-- Types an expression and records its type when it has one. -/
def walkExpr (scope : ScopeId) (e : Expr) : M (Option DataType) := do
  let dt ← exprType scope e
  if let some t := dt then note e.site.id t
  return dt

/-- The type of an expression, after typing its parts. -/
def exprType (scope : ScopeId) : Expr → M (Option DataType)
  | .ident _ n => do
    match ← lookup scope n with
    | some sym => return if sym.kind = .type then none else sym.type
    | none => return none
  | .int _ _ => return some .int
  | .str _ ps => do
    walkPieces scope ps
    return some .string
  | .call site fn args => do
    let ft ← walkExpr scope fn
    walkArgs scope args
    match ft with
    | some (.func ps r) =>
      if args.length ≠ ps.length then
        typeError site.span ("expected " ++ toString ps.length ++ " arguments but got " ++ toString args.length)
      else return r
    | _ => return none
  | .lambda site body => walkLambda scope site body
  | .binary site op l r => do
    let lt ← walkExpr scope l
    let rt ← walkExpr scope r
    if let (some a, some b) := (lt, rt) then
      if !a.equiv b then
        typeError site.span ("mismatched operand types `" ++ a.repr ++ "` and `" ++ b.repr ++ "` for `" ++ op.symbol ++ "`")
    if op.isEquality then
      if let some a := lt then
        if DataType.isVoid (some a) then typeError site.span "cannot compare values of type `Void`"
      return some .bool
    let needInt (t : DataType) : M Unit :=
      if t.equiv .int then pure ()
      else typeError site.span ("operator `" ++ op.symbol ++ "` requires operands of type `Int` but got `" ++ t.repr ++ "`")
    match lt, rt with
    | some a, _ =>
      if a.equiv .int then
        match rt with
        | some b => needInt b
        | none => pure ()
      else needInt a
    | none, some b => needInt b
    | none, none => pure ()
    return some (if op.isComparison then .bool else .int)
  | .exec _ inner => do
    let _ ← walkExpr scope inner
    return none

/-- Types the interpolations of a string literal. -/
def walkPieces (scope : ScopeId) : List Piece → M Unit
  | [] => pure ()
  | .text _ :: ps => walkPieces scope ps
  | .interp e :: ps => do
    let _ ← walkExpr scope e
    walkPieces scope ps

/-- Types the arguments of a call. -/
def walkArgs (scope : ScopeId) : List Expr → M Unit
  | [] => pure ()
  | a :: as => do
    let _ ← walkExpr scope a
    walkArgs scope as

/-- Types a function literal: it takes no parameters and returns the value of its last
statement, `Void` after a bare `return`, or `Int` when its body is empty. Its statements are
typed in the enclosing scope, and the literal records that scope. -/
def walkLambda (scope : ScopeId) (site : Site) : Block → M (Option DataType)
  | .mk _ stmts => do
    noteScope site.id scope
    match ← walkLambdaStmts scope (some .int) stmts with
    | some rt => return some (.func [] (some rt))
    | none => return none

/-- Types the statements of a function literal; the result is the literal's return type. -/
def walkLambdaStmts (scope : ScopeId) (rt : Option DataType) : List Stmt → M (Option DataType)
  | [] => pure rt
  | .expr _ e :: rest => do
    let dt ← walkExpr scope e
    walkLambdaStmts scope (if rest.isEmpty then dt else rt) rest
  | .ret site v :: rest => do
    walkReturn scope none site v
    let last ← match v with
      | none => pure (some DataType.void)
      | some e => typeOf? e.site.id
    walkLambdaStmts scope (if rest.isEmpty then last else rt) rest

/-- Types a return statement against the declared return type of the enclosing function, if
it is not a function literal. -/
def walkReturn (scope : ScopeId) (enclosing : Option DataType) (site : Site) : Option Expr → M Unit
  | none =>
    match enclosing with
    | some rt =>
      if DataType.isVoid (some rt) then pure ()
      else typeError site.span ("missing return value of type `" ++ rt.repr ++ "`")
    | none => pure ()
  | some e => do
    let vt ← walkExpr scope e
    match enclosing with
    | none => pure ()
    | some rt =>
      if DataType.isVoid (some rt) then
        typeError e.span "cannot return a value from a function returning `Void`"
      else match vt with
        | some t =>
          if !t.equiv rt then
            typeError e.span ("expected return value of type `" ++ rt.repr ++ "` but got `" ++ t.repr ++ "`")
        | none => pure ()

end

/-- Types the statements of a function body against its declared return type. -/
def walkBody (scope : ScopeId) (rt : DataType) : List Stmt → M Unit
  | [] => pure ()
  | .expr _ e :: rest => do
    let _ ← walkExpr scope e
    walkBody scope rt rest
  | .ret site v :: rest => do
    walkReturn scope (some rt) site v
    walkBody scope rt rest

/-- Walks a function with a body: opens its scope with its parameters, types its statements,
and checks that a final expression has the declared return type. -/
def walkFunc (unit : String) (scope : ScopeId) (f : FuncDecl) : M Unit := do
  match f.body with
  | none => pure ()
  | some body => do
    let inner ← newScope (some scope)
    noteScope f.site.id inner
    for p in f.params do
      let pt ← typeOf? p.site.id
      let sym : Symbol := { name := p.name, kind := .param, type := pt, unit := unit, node := p.site.id }
      define inner sym p.site.span
    let rt := match ← typeOf? f.site.id with
      | some (.func _ (some r)) => r
      | _ => DataType.void
    walkBody inner rt body.stmts
    if !DataType.isVoid (some rt) then
      match body.stmts.getLast? with
      | some (.expr site e) =>
        match ← typeOf? e.site.id with
        | some dt =>
          if !dt.equiv rt then
            typeError site.span ("expected value of type `" ++ rt.repr ++ "` but got `" ++ dt.repr ++ "`")
        | none => pure ()
      | _ => pure ()

mutual

/-- Walks the bodies of a declaration. -/
def walkDecl (unit : String) (scope : ScopeId) : Decl → M Unit
  | .func f => walkFunc unit scope f
  | .cls site _ _ members => do
    let inner := ((← get).notes.scopeOf? site.id).getD scope
    walkDecls unit inner members
  | .hashCall _ call => do
    let _ ← walkExpr scope call
    pure ()

/-- Walks the bodies of a list of declarations. -/
def walkDecls (unit : String) (scope : ScopeId) : List Decl → M Unit
  | [] => pure ()
  | d :: ds => do
    walkDecl unit scope d
    walkDecls unit scope ds

end

end Gather

/-- Gathers a file: opens its scope, declares its classes and functions, and types its bodies.
Errors carry the file's unit name. -/
def SourceFile.gather (f : SourceFile) : Gather.M Unit := do
  try
    let fileScope ← Gather.newScope none
    Gather.noteScope f.site.id fileScope
    Gather.declareClasses f.name fileScope f.decls
    Gather.declareMembersList f.name fileScope fileScope f.decls
    Gather.walkDecls f.name fileScope f.decls
  catch e => throw (e.inUnit f.name)

end Abla
