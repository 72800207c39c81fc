import Abla.Cli.Args
import Abla.Project.Profile
import Abla.Session.Repl
import Abla.Codegen.Generate
import Abla.Ir.Text
import Abla.Syntax.Outline
import Abla.Text.LineReader

/-!
# Running the compiler

`Cli.run` carries out a command line on a file tree and gives what the command prints, its
exit code and the file tree it leaves.

* `build` loads the profile of its path, compiles the entry units and everything they import,
  reports the failures, generates the module of the installed units in name order and writes
  it to the output path. Modes `asm` and `obj` need the native code generator `llc`, which is
  not available: the textual module is written beside the output, removed again, and the build
  fails. A build succeeds when nothing failed and no error was reported.
* `parse` parses one file and prints the outline of its syntax tree, or reports why it could
  not; only a file that cannot be opened fails the command.
* `repl` reads lines until `:quit` or the end of the input, through a buffer of 4096 bytes
  that delivers a longer line in pieces; every line is evaluated in one session, and its value
  or failure printed after the prompt.
* `version` prints the version.

A usage error is reported as a fatal error. Fatal errors end the command with exit code 1.
A profile with a TOML token its reader does not handle ends the program with a fault: exit
code 2 and the fault written to the error stream.
-/

namespace Abla

namespace Cli

/-- What a command leaves: what it printed, its exit code, the file tree after it, and what it
wrote to the error stream. -/
structure Exit where
  out : String
  code : Nat
  files : Files
  errText : String
  deriving Inhabited

/-- Why native output cannot be produced. -/
def llcMissing : String := "failed to run llc: exec: \"llc\": executable file not found in $PATH"

/-- Writes a module to the output path in a mode; gives the file tree and the failure, if
any. Native modes write the textual module next to the output and remove it afterwards. -/
def emitModule (fs : Files) (m : Ir.Module) (path : String) (mode : OutputMode) :
    Files × Option String :=
  match fs.mkdirAll (Path.dir path) with
  | .error e => (fs, some ("failed to create output directory: " ++ e))
  | .ok fs =>
    let target := if mode = .llvm then path else path ++ ".ll"
    match fs.write target m.text with
    | .error e => (fs, some ("failed to write module to `" ++ target ++ "`: " ++ e))
    | .ok fs => if mode = .llvm then (fs, none) else (fs.remove target, some llcMissing)

/-- Compiles the entries of a profile and drains the build. -/
def analyze (p : Profile) : StateM Build (Nat × List Failure) := do
  p.entries.forM fun e => discard (Build.compileFile e p.parallel)
  Build.drain

/-- Builds a project with a reporter: gives the reporter, the file tree, and whether every
step succeeded. -/
def compile (fs : Files) (p : Profile) (r : Reporter) : Reporter × Files × Bool :=
  let r := r.header compilerVersion p.projectName
  let ((n, errs), b) := (analyze p).run (Build.start fs)
  let r := b.events.foldl (Reporter.event b.files) r
  let (r, out, ok) : Reporter × Files × Bool :=
    if !errs.isEmpty then (errs.foldl (Reporter.failure b.files) r, fs, false)
    else
      let units := b.units.names.filterMap fun nm => b.units.compiled.lookup nm
      let (gerrs, prog) := Codegen.generateProgram b.tables units
      let r := prog.log.foldl (Reporter.event b.files) r
      if !gerrs.isEmpty then (r, fs, false)
      else
        match emitModule fs prog.module p.outputPath p.outputMode with
        | (out, none) => (r, out, true)
        | (out, some e) => (r.failure out (.other e), out, false)
  let r := r.finished n
  (r, out, ok && r.errors = 0)

/-- The level a profile's log level names, if it names one. -/
def profileLevel (name : String) : Option LogLevel :=
  if name = "" then none else some (LogLevel.ofName name)

/-- Ends a command with a fatal error. -/
def fatalExit (r : Reporter) (msg : String) (fs : Files) : Exit := ⟨(r.fatal msg).out, 1, fs, ""⟩

/-- Ends the program with the fault of the TOML reader at an unhandled token: the token's error
is recovered and the recovery fails in turn. -/
def faultExit (token : String) (fs : Files) : Exit :=
  ⟨"", 2, fs, "panic: unhandled token: " ++ token ++ " [recovered]\n\tpanic: " ++ Toml.faultMessage ++ "\n"⟩

/-- The `build` command. -/
def build (fs : Files) (path selected : String) (mode : Option String)
    (level : Option LogLevel) : Exit :=
  match loadProfile fs path selected with
  | .error (.message m) => fatalExit { level := level.getD .verbose } ("failed to load profile: " ++ m) fs
  | .error (.fault tok) => faultExit tok fs
  | .ok p =>
    let r : Reporter := { level := (level <|> profileLevel p.logLevel).getD .verbose }
    let r := p.warnings.foldl (fun r w => r.warning fs profileFileName none w) r
    let chosen : Except String Profile := match mode with
      | none => .ok p
      | some m => p.setOutputMode m
    match chosen with
    | .error e => fatalExit r e fs
    | .ok p =>
      let (r, fs, ok) := compile fs p r
      ⟨r.out, if ok then 0 else 1, fs, ""⟩

/-- The `parse` command. A directory opens, and reading it fails inside the parser. -/
def parse (fs : Files) (path : String) (level : Option LogLevel) : Exit :=
  let r : Reporter := { level := level.getD .verbose }
  let src : Except String Source := match fs.probe path with
    | .file t => .ok (Source.ofString t)
    | .dir => .ok ⟨[], .fault ("read " ++ path ++ ": is a directory")⟩
    | pr => .error ("failed to open `" ++ path ++ "`: open " ++ path ++ ": " ++ pr.reason)
  match src with
  | .error m => fatalExit r m fs
  | .ok src =>
    match Source.parse path src with
    | .ok f => ⟨r.out ++ f.outline, 0, fs, ""⟩
    | .error (.compile e) => ⟨(r.failure fs (.compile e)).out, 0, fs, ""⟩
    | .error (.other m) =>
      let r := r.internal (path ++ ": " ++ m)
      let r := r.failure fs (.compile { kind := .internalState, file := path, message := m })
      ⟨r.out, 0, fs, ""⟩

/-- An interactive session and its reporter. -/
structure Console where
  session : Session
  reporter : Reporter
  deriving Inhabited

/-- The greeting of a session. -/
def banner : String := "Abla REPL v" ++ compilerVersion ++ " (enter :quit to exit)\n"

/-- The prompt before each line. -/
def prompt : String := "abla> "

/-- Whether a line ends the session. -/
def isQuit (line : String) : Bool := Session.trim line = ":quit"

/-- A new session on a file tree. -/
def Console.start (fs : Files) (level : Option LogLevel) : Console :=
  ⟨{ build := Build.start fs }, { level := level.getD .warn }⟩

/-- Evaluates one line: what happened during the evaluation is reported, then the value or
the failure. Gives what was printed. -/
def Console.step (c : Console) (line : String) : String × Console :=
  let seen := c.session.build.events.size
  let (res, s) := (Session.eval line).run c.session
  let fs := s.build.files
  let r := (s.build.events.extract seen s.build.events.size).foldl (Reporter.event fs) c.reporter
  let r := match res with
    | .error f => r.failure fs f
    | .ok "" => r
    | .ok v => r.print (v ++ "\n")
  let (out, r) := r.flush
  (out, ⟨s, r⟩)

/-- A session over the lines of an input, each read after a prompt, until `:quit` or the end
of the input. -/
def Console.transcript (c : Console) : List String → String
  | [] => prompt
  | line :: rest =>
    if isQuit line then prompt
    else
      let (out, c) := c.step line
      prompt ++ out ++ c.transcript rest

/-- The `repl` command over an input. -/
def repl (fs : Files) (input : String) (level : Option LogLevel) : Exit :=
  ⟨banner ++ (Console.start fs level).transcript (readerLines input), 0, fs, ""⟩

/-- The text `version` prints. -/
def versionText : String := "Abla Version " ++ compilerVersion ++ "\n"

/-- Carries out a command line on a file tree with an input. -/
def run (args : List String) (fs : Files) (input : String) : Exit :=
  match invocation args with
  | .error m => fatalExit { level := .error } ("usage error: " ++ m) fs
  | .ok (.build path selected mode level) => build fs path selected mode level
  | .ok (.parse path level) => parse fs path level
  | .ok (.repl level) => repl fs input level
  | .ok .version => ⟨versionText, 0, fs, ""⟩
  | .ok (.help sub) => ⟨usage sub, 0, fs, ""⟩

end Cli

end Abla
