import Abla.Toml.Read
import Abla.Project.Semver
import Abla.Build.Files
import Abla.Text.Identifier

/-!
# Build profiles

A build starts from a path. A source file is built alone: the project is named after the
file, and its output sits beside it. A directory is a project described by its `abla.toml`:

* `name`, a valid identifier, is required;
* `abla-version` is the compiler version the project targets; a missing one, one of another
  major version, and a newer one each give a warning, and an invalid one is an error;
* `entry` lists the entry files (default `main.abla`), `output` the output path without
  extension (default `out`), `mode` the output kind, `llvm`, `asm` or `obj` (default `llvm`);
* `parallel` and `log-level` set how the build runs and reports;
* `[[profiles]]` are named variants whose `output`, `mode`, `log-level` and `parallel`, when
  given, replace the project's.

Relative paths are taken from the project directory. The output path gets the extension of
its mode unless it has one. Values of the wrong type are refused as the TOML decoder refuses
them, with the position of their key.
-/

namespace Abla

/-- The compiler's version. -/
def compilerVersion : String := "0.1.0"

/-- The name of a project's profile file. -/
def profileFileName : String := "abla.toml"

/-- What a build writes. -/
inductive OutputMode where
  | llvm
  | asm
  | obj
  deriving DecidableEq, Repr, Inhabited

namespace OutputMode

/-- The mode a name selects. -/
def byName? : String → Option OutputMode
  | "llvm" => some .llvm
  | "asm" => some .asm
  | "obj" => some .obj
  | _ => none

/-- The number of a mode. -/
def index : OutputMode → Nat
  | .llvm => 0
  | .asm => 1
  | .obj => 2

/-- The extension of a mode's output. -/
def ext : OutputMode → String
  | .llvm => ".ll"
  | .asm => ".s"
  | .obj => ".o"

end OutputMode

/-- How to build a project. -/
structure Profile where
  projectName : String
  rootDir : String
  entries : List String
  outputBase : String
  outputMode : OutputMode := .llvm
  parallel : Bool := false
  logLevel : String := ""
  warnings : List String := []
  deriving Repr, Inhabited

namespace Profile

/-- The output path: the output base with the extension of the mode, unless it has one. -/
def outputPath (p : Profile) : String :=
  if Path.ext p.outputBase = "" then p.outputBase ++ p.outputMode.ext else p.outputBase

/-- Selects the output mode by name. -/
def setOutputMode (p : Profile) (name : String) : Except String Profile :=
  match OutputMode.byName? name with
  | some m => .ok { p with outputMode := m }
  | none => .error ("invalid output mode: `" ++ name ++ "`")

end Profile

/-- A named variant of a project's settings. -/
structure Variant where
  name : String := ""
  output : String := ""
  mode : String := ""
  logLevel : String := ""
  parallel : Option Bool := none
  deriving Repr, Inhabited

/-- The settings of a project as its profile file writes them. -/
structure Settings where
  name : String := ""
  version : String := ""
  entry : List String := []
  output : String := ""
  mode : String := ""
  parallel : Bool := false
  logLevel : String := ""
  variants : List Variant := []
  deriving Repr, Inhabited

namespace Decode

open Toml

/-- The refusal to turn a value into a field's type. -/
def refuse (v : Node) (target : String) : String :=
  "Can't convert " ++ v.show ++ "(" ++ v.typeName ++ ") to " ++ target

/-- The refusal for values that are tables, arrays of tables or arrays. -/
def refuseShape (v : Node) : Option String :=
  match v with
  | .table _ _ _ => some (refuse v "a tree")
  | .tables _ => some (refuse v "trees")
  | .array _ => some (refuse v "a slice")
  | _ => none

/-- A value as a string. -/
def asString (v : Node) : Except String String :=
  match v with
  | .str s => .ok s
  | _ =>
    match refuseShape v with
    | some m => .error m
    | none => .error (refuse v "string")

/-- A value as a boolean. -/
def asBool (v : Node) : Except String Bool :=
  match v with
  | .bool b => .ok b
  | _ =>
    match refuseShape v with
    | some m => .error m
    | none => .error (refuse v "bool")

/-- A value as a list of strings. -/
def asStrings (v : Node) : Except String (List String) :=
  match v with
  | .array items => items.mapM asString
  | .table _ _ _ => .error (refuse v "a tree")
  | .tables _ => .error (refuse v "trees")
  | _ => .error (refuse v "[]string(slice)")

/-- Puts the position of a key before a message that has none. -/
def located (p : Pos) (m : String) : String :=
  if m.startsWith "(" then m else p.text ++ ": " ++ m

/-- The entry a setting reads: its key as written, in lower case, in upper case, or
with a lower-case first letter. -/
def field? (t : Node) (key : String) : Option (Node × Pos) :=
  let lowerFirst := match key.toList with
    | c :: cs => String.ofList (c.toLower :: cs)
    | [] => key
  let tries := [key, key.toLower, key.toUpper, lowerFirst]
  tries.findSome? fun k => (t.entry? k).map fun (v, _) => (v, t.positionAt [k])

/-- Decodes a field with a reader, keeping the default when the key is missing. -/
def read {α : Type} (t : Node) (key : String) (f : Node → Except String α) (default : α) :
    Except String α :=
  match field? t key with
  | none => .ok default
  | some (v, p) =>
    match f v with
    | .ok a => .ok a
    | .error m => .error (located p m)

/-- Decodes a variant from its table. -/
def variant (t : Node) : Except String Variant := do
  let name ← read t "name" asString ""
  let output ← read t "output" asString ""
  let mode ← read t "mode" asString ""
  let logLevel ← read t "log-level" asString ""
  let parallel ← read t "parallel" (fun v => some <$> asBool v) none
  return { name, output, mode, logLevel, parallel }

/-- Decodes the variants from an array of tables. -/
def variants (v : Node) : Except String (List Variant) :=
  match v with
  | .tables ts => ts.mapM variant
  | .table _ _ _ => .error (refuse v "a tree")
  | .array _ => .error (refuse v "a slice")
  | _ => .error (refuse v "[]*cmd.tomlProfile(slice)")

/-- Decodes the settings of a project, field by field in order. -/
def settings (t : Node) : Except String Settings := do
  let name ← read t "name" asString ""
  let version ← read t "abla-version" asString ""
  let entry ← read t "entry" asStrings []
  let output ← read t "output" asString ""
  let mode ← read t "mode" asString ""
  let parallel ← read t "parallel" asBool false
  let logLevel ← read t "log-level" asString ""
  let vs ← read t "profiles" variants []
  return { name, version, entry, output, mode, parallel, logLevel, variants := vs }

end Decode

/-- Checks the targeted compiler version; gives a warning, if any. -/
def checkVersion (project version : String) : Except String (Option String) :=
  if version = "" then .ok (some ("project `" ++ project ++ "` does not specify an abla-version"))
  else
    let target := "v" ++ (if version.startsWith "v" then (version.drop 1).toString else version)
    let current := "v" ++ compilerVersion
    if !Semver.isValid target then
      .error ("invalid abla-version `" ++ version ++ "` in project `" ++ project ++ "`")
    else if Semver.major target ≠ Semver.major current then
      .ok (some ("project `" ++ project ++ "` targets Abla " ++ target ++
        " which is incompatible with this compiler (" ++ current ++ ")"))
    else if Semver.compare target current = .gt then
      .ok (some ("project `" ++ project ++ "` targets Abla " ++ target ++
        " which is newer than this compiler (" ++ current ++ ")"))
    else .ok none

/-- A path of a project, taken from its root unless it is absolute. -/
def resolveIn (root path : String) : String :=
  if Path.isAbs path then Path.clean path else Path.join root path

/-- The profile of a project from its settings, with a variant selected by name if one is
given. -/
def Settings.toProfile (s : Settings) (root selected : String) : Except String Profile := do
  if s.name = "" then throw ("missing project name in profile at `" ++ root ++ "`")
  if !isValidIdentifier s.name then throw ("project name `" ++ s.name ++ "` must be a valid identifier")
  let warning ← checkVersion s.name s.version
  let mut output := s.output
  let mut mode := s.mode
  let mut logLevel := s.logLevel
  let mut parallel := s.parallel
  if selected ≠ "" then
    match s.variants.find? (·.name = selected) with
    | none => throw ("project `" ++ s.name ++ "` has no profile `" ++ selected ++ "`")
    | some v =>
      if v.output ≠ "" then output := v.output
      if v.mode ≠ "" then mode := v.mode
      if v.logLevel ≠ "" then logLevel := v.logLevel
      if let some b := v.parallel then parallel := b
  let outputOr := if output = "" then "out" else output
  let modeOr := if mode = "" then "llvm" else mode
  let base : Profile :=
    { projectName := s.name, rootDir := root, entries := [], outputBase := resolveIn root outputOr,
      parallel := parallel, logLevel := logLevel, warnings := warning.toList }
  let p ← match base.setOutputMode modeOr with
    | .ok p => pure p
    | .error m => throw (m ++ " in project `" ++ s.name ++ "`")
  let entries := if s.entry.isEmpty then ["main.abla"] else s.entry
  return { p with entries := entries.map (resolveIn root) }

/-- Why a profile could not be loaded: an error with its message, or a profile whose TOML text
holds a token the reader does not handle, which ends the program with a fault. -/
inductive LoadError where
  | message (text : String)
  | fault (token : String)
  deriving Repr, DecidableEq, Inhabited

/-- Loads the profile of a path: a source file alone, or a project directory. A variant can
be selected only for a project. -/
def loadProfile (fs : Files) (path selected : String) : Except LoadError Profile :=
  let abs := fs.absolute path
  match fs.probe abs with
  | .file _ =>
    if selected ≠ "" then .error (.message "profiles can only be selected when building a project directory")
    else
      let base := Path.base abs
      let ext := Path.ext abs
      let name := if base.endsWith ext then String.ofList (base.toList.take (base.length - ext.length)) else base
      .ok { projectName := name, rootDir := Path.dir abs, entries := [abs],
            outputBase := Path.join (Path.dir abs) name }
  | .dir =>
    let file := Path.join abs profileFileName
    match fs.probe file with
    | .file text =>
      let parsing (m : String) : LoadError := .message ("error parsing profile at `" ++ file ++ "`: " ++ m)
      match Toml.read text with
      | .error (.unhandled tok) => .error (.fault tok)
      | .error (.invalid m) => .error (parsing m)
      | .ok tree =>
        match Decode.settings tree with
        | .error m => .error (parsing m)
        | .ok s => (s.toProfile abs selected).mapError .message
    | .dir => .error (.message ("failed to read profile: read " ++ file ++ ": is a directory"))
    | pr => .error (.message ("failed to read profile: open " ++ file ++ ": " ++ pr.reason))
  | pr => .error (.message ("stat " ++ abs ++ ": " ++ pr.reason))

end Abla
