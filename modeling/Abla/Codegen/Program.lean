import Std.Data.HashMap
import Abla.Ir.Module
import Abla.Codegen.TypeMap
import Abla.Codegen.Stack
import Abla.Build.State

/-!
# Declaring a program

Code is generated for every installed unit, in two rounds over the units in name order: the
first declares every function, the second generates their bodies, so that a body may call a
function of any unit.

Unit number `k` in that order gives its functions the prefix `uK.`, and a class member also
takes the prefixes of its classes: `u0.Math.sq`. The one top-level function `main` is named
`__abla_main`, and an entry point `main` calling it is added once its body is generated. An
`extern` function keeps its own name and is declared once; later declarations of it must
have the same signature. Functions and classes declared `compiler` have no code.

The LLVM values of declarations are kept by node number: a function's value is the function,
and a parameter's value is that parameter of its function.
-/

namespace Abla

namespace Codegen

/-- The LLVM value a declaration node stands for. -/
inductive Handle where
  /-- A function of the module, by index. -/
  | func (index : Nat)
  /-- A parameter of a function of the module, by function index and position. -/
  | param (owner pos : Nat)
  deriving DecidableEq, Repr, Inhabited

/-- What generation knows about the whole program. -/
structure Program where
  module : Ir.Module := {}
  /-- The prefix of each declared unit. -/
  prefixes : List (String × String) := []
  /-- The units generated so far. -/
  generated : List String := []
  /-- The module index of each `extern` function, by name. -/
  externs : List (String × Nat) := []
  /-- The node number of the function `main`, once declared. -/
  main : Option Nat := none
  /-- The string globals, by content. -/
  strings : List (String × Ir.Operand) := []
  handles : Std.HashMap Nat Handle := {}
  /-- Warnings and errors, in the order they are reported. -/
  log : Array Event := #[]
  deriving Inhabited

/-- Declaration reads the build's tables and extends the program; it may fail. -/
abbrev Declare := ExceptT CompileError (StateT Program (ReaderT Tables Id))

/-- A type error at a span. -/
def typeError {α : Type} {m : Type → Type} [Monad m] [MonadExcept CompileError m] (span : Span)
    (message : String) : m α :=
  throw { kind := .type, span := some span, message := message }

/-- A failure of the type mapping, as an error of generation. -/
def liftConv {α : Type} : Except CompileError α → Declare α
  | .ok a => pure a
  | .error e => throw e

/-- The LLVM parameters of a function. -/
def irParams (f : FuncDecl) (types : List DataType) : Declare (List Ir.Param) := do
  let tys ← liftConv (DataType.toIrList types)
  return (f.params.zip tys).map fun (p, t) => ⟨p.name, t⟩

/-- Declares an `extern` function, or checks a later declaration against the first. -/
def declareExtern (f : FuncDecl) (ret : Ir.Ty) (params : List Ir.Param) : Declare Nat := do
  let p ← get
  match p.externs.lookup f.name with
  | some i =>
    let same : Bool := match p.module.funcs[i]? with
      | some g => Ir.Ty.same g.ptrTy (.ptr (.func ret (params.map (·.ty))))
      | none => false
    if same then pure i
    else typeError f.nameSpan ("conflicting declarations of extern function `" ++ f.name ++ "`")
  | none =>
    let (m, i) := p.module.addFunc { name := f.name, linkage := .external, ret := ret, params := params }
    set { p with module := m, externs := p.externs ++ [(f.name, i)] }
    pure i

/-- Declares a function under a unit prefix and the prefixes of its classes. -/
def declareFunc (unitPrefix classPrefix : String) (f : FuncDecl) : Declare Unit := do
  let some dt := (← read).notes.typeOf? f.site.id
    | throw { kind := .internalState, span := some f.nameSpan,
              message := "no type recorded for `" ++ f.name ++ "`" }
  let (ptypes, rtype) := match dt with
    | .func ps r => (ps, r)
    | _ => ([], none)
  let params ← irParams f ptypes
  let ret ← liftConv (DataType.retToIr rtype)
  let index ← if f.isExtern then declareExtern f ret params
    else do
      let isMain := classPrefix = "" ∧ f.name = "main"
      if isMain then
        if (← get).main.isSome then typeError f.nameSpan "multiple definitions of `main`"
        modify fun p => { p with main := some f.site.id }
      let name := if isMain then "__abla_main" else unitPrefix ++ classPrefix ++ f.name
      let p ← get
      let (m, i) := p.module.addFunc { name := name, ret := ret, params := params,
                                       blocks := #[{ name := "entry" }] }
      set { p with module := m }
      pure i
  modify fun p =>
    let hs := p.handles.insert f.site.id (.func index)
    let hs := (List.range f.params.length).zip f.params |>.foldl
      (fun hs (k, q) => hs.insert q.site.id (.param index k)) hs
    { p with handles := hs }

mutual

/-- Declares the functions of a declaration. -/
def declareDecl (unitPrefix classPrefix : String) : Decl → Declare Unit
  | .func f => if f.isCompiler then pure () else declareFunc unitPrefix classPrefix f
  | .cls _ name mods members =>
    if Modifier.hasCompiler mods then pure ()
    else declareDecls unitPrefix (classPrefix ++ name ++ ".") members
  | .hashCall _ _ => pure ()

/-- Declares the functions of declarations in order. -/
def declareDecls (unitPrefix classPrefix : String) : List Decl → Declare Unit
  | [] => pure ()
  | d :: ds => do
    declareDecl unitPrefix classPrefix d
    declareDecls unitPrefix classPrefix ds

end

/-- Declares the functions of a unit. Errors carry the unit's name. -/
def declareUnit (f : SourceFile) : Declare Unit := do
  try
    let p ← get
    if (p.prefixes.lookup f.name).isSome then
      throw (.internal ("unit `" ++ f.name ++ "` declared twice"))
    let pre := "u" ++ toString p.prefixes.length ++ "."
    set { p with prefixes := p.prefixes ++ [(f.name, pre)] }
    declareDecls pre "" f.decls
  catch e => throw (e.inUnit f.name)

end Codegen

end Abla
