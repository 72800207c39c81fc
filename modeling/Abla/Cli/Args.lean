import Abla.Cli.Report

/-!
# The command line

`ablac` takes a subcommand and named arguments. A named argument is written `-SHORT=VALUE` or
`--NAME=VALUE` (any number of dashes from two on); an argument of the command is looked up in
the subcommand first and then in the root, so root arguments may follow the subcommand. Some
arguments allow only certain values, and each may be given once. Without a value after `=` a
dash starts a flag; the only flag is `-h`/`--help`.

A word is the primary argument of a command that takes one, given at most once; an empty word
leaves it unset. For any other command a word names a subcommand, and only before the
command's named arguments.

The grammar:

* `ablac [-ll=LEVEL] build PATH [-p=PROFILE] [-m=MODE]` builds a project or a source file;
* `ablac parse PATH` parses a source file and prints its syntax tree;
* `ablac repl` starts an interactive session;
* `ablac version` prints the version.

`LEVEL` is `silent`, `error`, `warn` or `verbose`, and `MODE` is `llvm`, `asm` or `obj`.
-/

namespace Abla

namespace Cli

/-- A named argument: its name, its short name, and the values it allows (any when empty). -/
structure ArgSpec where
  name : String
  short : String
  choices : List String := []
  deriving Repr, Inhabited

/-- A subcommand: its name, the name of its required primary argument if it takes one, and
its own arguments. -/
structure SubSpec where
  name : String
  primary : Option String := none
  args : List ArgSpec := []
  deriving Repr, Inhabited

/-- The arguments of the root command. -/
def rootArgs : List ArgSpec := [⟨"loglevel", "ll", LogLevel.names⟩]

/-- The subcommands. -/
def subcommands : List SubSpec :=
  [{ name := "build", primary := some "path",
     args := [⟨"profile", "p", []⟩, ⟨"mode", "m", ["llvm", "asm", "obj"]⟩] },
   { name := "parse", primary := some "path" },
   { name := "repl" },
   { name := "version" }]

/-- What a command line asks for. -/
inductive Invocation where
  | build (path profile : String) (mode : Option String) (level : Option LogLevel)
  | parse (path : String) (level : Option LogLevel)
  | repl (level : Option LogLevel)
  | version
  /-- The usage of a command: the root's, or a subcommand's. -/
  | help (sub : Option String)
  deriving Repr, Inhabited

/-- The command line read so far: the values of the root's and the subcommand's arguments,
the subcommand, its primary argument (empty until a word sets it), whether a named argument
or flag was read since the last word that chose a command, and whether help was asked for. -/
structure Reading where
  rootValues : List (String × String) := []
  sub : Option SubSpec := none
  subValues : List (String × String) := []
  primary : String := ""
  namedSeen : Bool := false
  help : Bool := false
  deriving Repr, Inhabited

/-- The arguments a command line can set now: the subcommand's, then the root's. -/
def Reading.specs (r : Reading) : List ArgSpec := ((r.sub.map (·.args)).getD []) ++ rootArgs

/-- Sets a named argument. -/
def setArg (r : Reading) (spec : ArgSpec) (value : String) : Except String Reading := do
  let inSub := ((r.sub.map (·.args)).getD []).any (·.name = spec.name)
  let values := if inSub then r.subValues else r.rootValues
  if (values.lookup spec.name).isSome then
    throw ("argument `" ++ spec.name ++ "` set multiple times")
  if !spec.choices.isEmpty && !spec.choices.contains value then
    throw ("`" ++ value ++ "` is not a valid value for argument [" ++ spec.name ++ "]")
  if inSub then return { r with subValues := r.subValues ++ [(spec.name, value)] }
  else return { r with rootValues := r.rootValues ++ [(spec.name, value)] }

/-- Reads a named argument or a flag, without its dashes. A value after `=` makes it an
argument; with no value it is a flag. Names are looked up as written: a short name among the
short names, a long name among the long names. -/
def named (r : Reading) (body : String) (short : Bool) : Except String Reading :=
  let (name, rest) := body.toList.span (· ≠ '=')
  let name := String.ofList name
  let r := { r with namedSeen := true }
  match rest with
  | _ :: value@(_ :: _) =>
    let spec := r.specs.find? fun a => if short then a.short = name else a.name = name
    match spec with
    | some a => setArg r a (String.ofList value)
    | none =>
      if short then .error ("unknown argument by short name: `" ++ name ++ "`")
      else .error ("unknown argument: `" ++ name ++ "`")
  | _ =>
    if short then
      if name = "h" then .ok { r with help := true }
      else .error ("unknown flag by short name: `" ++ name ++ "`")
    else if name = "help" then .ok { r with help := true }
    else .error ("unknown flag: `" ++ name ++ "`")

/-- Reads a word: the primary argument of a command that takes one, and otherwise a
subcommand, which must come before any named argument of its command. An empty primary
argument counts as not given. -/
def word (r : Reading) (w : String) : Except String Reading :=
  match r.sub with
  | some s =>
    if s.primary.isSome then
      if r.primary ≠ "" then
        .error ("multiple primary arguments specified for command `" ++ s.name ++ "`")
      else .ok { r with primary := w }
    else if r.namedSeen then .error ("unexpected subcommand: `" ++ w ++ "`")
    else .error ("unknown subcommand: `" ++ w ++ "`")
  | none =>
    if r.namedSeen then .error ("unexpected subcommand: `" ++ w ++ "`")
    else match subcommands.find? (·.name = w) with
      | some s => .ok { r with sub := some s }
      | none => .error ("unknown subcommand: `" ++ w ++ "`")

/-- Reads one argument: two or more dashes start a long name, one dash a short name. -/
def step (r : Reading) (arg : String) : Except String Reading :=
  if r.help then .ok r
  else if arg.startsWith "--" then named r (String.ofList (arg.toList.dropWhile (· = '-'))) false
  else if arg.startsWith "-" then named r (arg.drop 1).toString true
  else word r arg

/-- What a command line asks for, or the usage error. -/
def invocation (args : List String) : Except String Invocation := do
  let r ← args.foldlM step {}
  if r.help then return .help (r.sub.map (·.name))
  let level := (r.rootValues.lookup "loglevel").map LogLevel.ofName
  match r.sub with
  | none => throw "`ablac` requires a subcommand"
  | some s =>
    if let some p := s.primary then
      if r.primary = "" then
        throw ("missing required primary argument `" ++ s.name ++ "` for subcommand `" ++ p ++ "`")
    let path := r.primary
    let profile := (r.subValues.lookup "profile").getD ""
    let mode := r.subValues.lookup "mode"
    if s.name = "build" then return .build path profile mode level
    else if s.name = "parse" then return .parse path level
    else if s.name = "repl" then return .repl level
    else return .version

/-- The usage text of the root command or of a subcommand. -/
def usage : Option String → String
  | none =>
    "Usage: ablac [-ll=LEVEL] <subcommand> ...\n\n" ++
    "ablac is the compiler for the Abla language\n\n" ++
    "Subcommands:\n" ++
    "  build    compile a project or source file\n" ++
    "  parse    parse a source file and print its syntax tree\n" ++
    "  repl     start an interactive session\n" ++
    "  version  print the Abla version\n\n" ++
    "Arguments:\n" ++
    "  -ll, --loglevel  the compiler log level: silent, error, warn or verbose\n"
  | some "build" =>
    "Usage: ablac build <path> [-p=PROFILE] [-m=MODE]\n\n" ++
    "compile a project or source file\n\n" ++
    "Arguments:\n" ++
    "  path            the path to the project directory or source file to build\n" ++
    "  -p, --profile   the name of the profile to build\n" ++
    "  -m, --mode      the output mode: llvm, asm or obj\n"
  | some "parse" =>
    "Usage: ablac parse <path>\n\n" ++
    "parse a source file and print its syntax tree\n\n" ++
    "Arguments:\n" ++
    "  path  the path to the source file\n"
  | some name => "Usage: ablac " ++ name ++ "\n"

end Cli

end Abla
