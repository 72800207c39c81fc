import Abla.Codegen.Lower

/-!
# Generating a program

`generateProgram` turns the installed units, in name order, into one module: it declares the
functions of every unit, and when no declaration failed it generates every unit's bodies. A
unit stops at its first error and the others go on, so every unit reports its own first
error; the errors are also logged in order among the warnings.
-/

namespace Abla

namespace Codegen

/-- Logs an error, if there is one. -/
def Program.logError (p : Program) : Option CompileError → Program
  | some e => { p with log := p.log.push (.error e) }
  | none => p

/-- Declares the functions of a unit. -/
def declareStep (tables : Tables) (p : Program) (f : SourceFile) : Option CompileError × Program :=
  let (r, p) := ((declareUnit f).run.run p).run tables
  match r with
  | .ok () => (none, p)
  | .error e => (some e, p.logError (some e))

/-- Generates the bodies of a declared unit. Errors carry the unit's name. -/
def generateStep (tables : Tables) (p : Program) (f : SourceFile) : Option CompileError × Program :=
  let fail (msg : String) : Option CompileError × Program :=
    let e := (CompileError.internal msg).inUnit f.name
    (some e, p.logError (some e))
  match p.prefixes.lookup f.name with
  | none => fail ("unit `" ++ f.name ++ "` was never declared")
  | some pre =>
    if p.generated.contains f.name then fail ("unit `" ++ f.name ++ "` generated twice")
    else
      let g : Gen := { prog := { p with generated := p.generated ++ [f.name] }, unit := f.name,
                       unitPrefix := pre }
      let (r, g) := ((genDecls f.decls).run.run g).run tables
      match r with
      | .ok () => (none, g.prog)
      | .error e =>
        let e := e.inUnit f.name
        (some e, g.prog.logError (some e))

/-- Runs a step over units in order, collecting the errors. -/
def eachUnit (step : Program → SourceFile → Option CompileError × Program) (p : Program) :
    List SourceFile → List CompileError × Program
  | [] => ([], p)
  | f :: fs =>
    let (r, p) := step p f
    let (errs, p) := eachUnit step p fs
    (r.toList ++ errs, p)

/-- Generates the module of a program from its units in name order. Gives the errors of the
declaration round if there are any, and otherwise those of the generation round. -/
def generateProgram (tables : Tables) (units : List SourceFile) : List CompileError × Program :=
  let (errs, p) := eachUnit (declareStep tables) {} units
  if !errs.isEmpty then (errs, p)
  else eachUnit (generateStep tables) p units

end Codegen

end Abla
