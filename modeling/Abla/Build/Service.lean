import Abla.Eval.Execute
import Abla.Typing.Gather
import Abla.Syntax.Parse

/-!
# The compile service

A request compiles one unit through three phases: parse, gather and execute. A unit is named
by its cleaned path when it is read from a file, and `<source#N>` or `<stream#N>` when its
text is given, with one counter for both kinds. Executing a unit may request further units,
on behalf of the unit and of every unit waiting on it.

A request for an installed unit succeeds at once. A request for a pending unit comes from a
unit that waits on it: the import cycle is reported as a warning and the request succeeds, so
the requester sees the symbols declared so far. Otherwise the unit becomes pending, its phases
run, and it is installed on success; its failure is kept until a later compilation of it
succeeds. A parallel request hands its outcome to its context only.

Once the service drains, top-level requests are refused; once it is cancelled, every new
compilation fails and nothing more is installed.
-/

namespace Abla

/-- Where the text of a unit comes from. -/
inductive Origin where
  /-- The file the unit is named by. -/
  | file
  /-- A text given whole. -/
  | text (s : String)
  /-- A text read from a stream, which may fail after a number of bytes with a message. -/
  | stream (s : String) (cut : Option (Nat × String))
  deriving Inhabited

/-- What a request gives: the failure its caller sees, and the failure its context is
completed with. The two differ only for a parallel request, whose caller sees none. -/
structure Outcome where
  err : Option Failure
  job : Option Failure
  deriving Inhabited

namespace Service

/-- The service reads and extends the build. -/
abbrev Serve := StateM Build

/-- The failure of a refused top-level request. -/
def closedFailure : Failure := .other "compile service is draining"

/-- The failure of a unit compiled after cancellation. -/
def cancelledFailure (name : String) : Failure :=
  .other (name ++ ": compilation cancelled: context canceled")

/-- How deeply requests may nest. -/
def nestingLimit : Nat := 10000

/-- Reports an event. -/
def report (e : Event) : Serve Unit := modify fun b => b.report e

/-- The next unit name of a kind, `<KIND#N>`. -/
def freshName (kind : String) : Serve String :=
  modifyGet fun b =>
    let n := b.units.counter + 1
    ("<" ++ kind ++ "#" ++ toString n ++ ">", { b with units := { b.units with counter := n } })

/-- The source of a unit. A file that cannot be opened fails with the system's words; a
directory opens, and reading it fails. -/
def readSource (name : String) : Origin → Serve (Except Failure Source)
  | .file => do
    match (← get).files.probe name with
    | .file t => pure (.ok (Source.ofString t))
    | .dir => pure (.ok ⟨[], .fault ("read " ++ name ++ ": is a directory")⟩)
    | pr => pure (.error (.other ("failed to open `" ++ name ++ "`: open " ++ name ++ ": " ++
        pr.reason)))
  | .text s => pure (.ok (Source.ofString s))
  | .stream s none => pure (.ok (Source.ofString s))
  | .stream s (some (n, message)) => pure (.ok (Source.truncated s n message))

/-- Parses and numbers a unit. A failed read is an internal error of the unit. -/
def parse (name : String) (origin : Origin) : Serve (Except Failure SourceFile) := do
  match ← readSource name origin with
  | .error f => pure (.error f)
  | .ok src =>
    match Source.parse name src with
    | .error (.compile e) => pure (.error (.compile e))
    | .error (.other m) => do
      report (.internal (name ++ ": " ++ m))
      pure (.error (.compile { kind := .internalState, file := name, message := m }))
    | .ok f => do
      let b ← get
      let (f, next) := f.number b.nextNode
      set { b with nextNode := next }
      pure (.ok f)

/-- Gathers a parsed unit into the build's tables. -/
def gather (f : SourceFile) : Serve (Option CompileError) := do
  let b ← get
  let (r, tables) := f.gather.run.run b.tables
  set { b with tables := tables }
  match r with
  | .ok () => pure none
  | .error e => pure (some e)

/-- Runs the first two phases of a pending unit, parse and gather, and gives the tree to
execute. The parsed tree is recorded with the pending unit. -/
def prepare (name : String) (origin : Origin) : Serve (Except Failure SourceFile) := do
  if (← get).units.cancelled then return .error (cancelledFailure name)
  match ← parse name origin with
  | .error f => pure (.error f)
  | .ok f => do
    report (.phase name "parse")
    modify fun b => { b with units := { b.units with
      pending := Units.setEntry b.units.pending name (some f) } }
    if (← get).units.cancelled then return .error (cancelledFailure name)
    match ← gather f with
    | some e => pure (.error (.compile e))
    | none => do
      report (.phase name "gather")
      if (← get).units.cancelled then return .error (cancelledFailure name)
      pure (.ok f)

/-- Runs the phases of a pending unit, with `host` serving the requests its execution makes. -/
def phases (host : Eval.Host) (name : String) (origin : Origin) (requesters : List String) :
    Serve (Option Failure) := do
  match ← prepare name origin with
  | .error f => pure (some f)
  | .ok f =>
    match ← (f.execute host requesters).run with
    | .error e => pure (some (.compile e))
    | .ok () => do
      report (.phase name "execute")
      pure none

/-- Ends a unit's job: it is no longer pending, it is installed on success, and its latest
failure is kept or cleared. -/
def finish (name : String) (err : Option Failure) : Serve (Option Failure) := do
  let b ← get
  let err := match err with
    | none => if b.units.cancelled then some (cancelledFailure name) else none
    | some f => some f
  let units := { b.units with pending := Units.dropEntry b.units.pending name }
  let units := match err, b.units.file? name with
    | none, some f => { units with compiled := Units.setEntry units.compiled name f,
                                   failures := Units.dropEntry units.failures name }
    | none, none => { units with failures := Units.dropEntry units.failures name }
    | some e, _ => { units with failures := Units.setEntry units.failures name e }
  set { b with units := units }
  pure err

mutual

/-- Requests a unit on behalf of `requesters`, innermost first; a top-level request has
none. `fuel` bounds how deeply requests nest. -/
def request : Nat → String → Origin → Bool → List String → Serve Outcome
  | 0, name, _, _, _ =>
    let f := Failure.compile { kind := .internalState, file := name,
                               message := "units are nested too deeply" }
    pure ⟨some f, some f⟩
  | fuel + 1, name, origin, parallel, requesters => do
    let b ← get
    if requesters.isEmpty && b.units.closed then return ⟨some closedFailure, some closedFailure⟩
    if b.units.isCompiled name then return ⟨none, none⟩
    if b.units.isPending name then
      if !parallel && requesters.contains name then
        report (.warning (requesters.headD "") none ("import cycle through `" ++ name ++ "`"))
      return ⟨none, none⟩
    modify fun b => { b with units := { b.units with
      pending := Units.setEntry b.units.pending name none } }
    let err ← phases (host fuel) name origin requesters
    let err ← finish name err
    pure ⟨if parallel then none else err, err⟩

/-- The host that serves nested requests with the given fuel. -/
def host (fuel : Nat) : Eval.Host :=
  ⟨fun name rs => do
      let o ← request fuel name .file false rs
      pure o.err,
   fun text rs => do
      let name ← freshName "source"
      let o ← request fuel name (.text text) false rs
      pure (name, o.err)⟩

end

end Service

namespace Build

open Service

/-- Compiles the unit of a file, named by its cleaned path. -/
def compileFile (path : String) (parallel : Bool) : Service.Serve Outcome :=
  request nestingLimit (Path.clean path) .file parallel []

/-- Compiles a text as a new unit `<source#N>`. -/
def compileSource (text : String) (parallel : Bool) : Service.Serve (String × Outcome) := do
  let name ← freshName "source"
  return (name, ← request nestingLimit name (.text text) parallel [])

/-- Compiles a stream as a new unit `<stream#N>`; the stream may fail after a number of bytes. -/
def compileStream (text : String) (cut : Option (Nat × String)) (parallel : Bool) :
    Service.Serve (String × Outcome) := do
  let name ← freshName "stream"
  return (name, ← request nestingLimit name (.stream text cut) parallel [])

/-- Stops taking top-level requests; gives the number of installed units and the latest
failures, by unit name. -/
def drain : Service.Serve (Nat × List Failure) := do
  modify fun b => { b with units := { b.units with closed := true } }
  let u := (← get).units
  pure (u.compiled.length, u.sortedFailures.map (·.2))

/-- Cancels the build: every later compilation fails. -/
def cancel : Service.Serve Unit :=
  modify fun b => { b with units := { b.units with cancelled := true } }

end Build

end Abla
