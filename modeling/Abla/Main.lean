import Abla.Cli.Run

/-!
# The `ablac` executable

The command line runs on the file tree of the working directory, read before the command
starts; the files the command writes or removes are then written or removed on disk. The
interactive session reads its lines from standard input one at a time, and answers each
before reading the next.
-/

open Abla

/-- Adds a directory entry to a file tree: a regular file with its text, or a directory and
everything below it. Files that are not text are left out. -/
partial def loadEntry (fs : Files) (e : IO.FS.DirEntry) : IO Files := do
  let path := e.path.toString
  if ← e.path.isDir then
    let subs ← e.path.readDir
    subs.foldlM loadEntry (fs.put path .dir)
  else
    try
      let text ← IO.FS.readFile e.path
      return fs.put path (.file text)
    catch _ => return fs

/-- The file tree of the working directory. -/
def loadTree : IO Files := do
  let cwd ← IO.currentDir
  let entries ← cwd.readDir
  entries.foldlM loadEntry (Files.empty cwd.toString)

/-- Makes the disk agree with a file tree that a command left: new directories are created,
new and changed files written, and files that are gone removed. -/
def saveTree (before after : Files) : IO Unit := do
  for (p, e) in after.entries do
    if e = .dir && before.entries.lookup p ≠ some .dir then IO.FS.createDirAll p
  for (p, e) in after.entries do
    match e with
    | .file t => if before.entries.lookup p ≠ some (.file t) then IO.FS.writeFile p t
    | .dir => pure ()
  for (p, e) in before.entries do
    match e, after.entries.lookup p with
    | .file _, none => IO.FS.removeFile p
    | _, _ => pure ()

/-- Reads and answers lines until `:quit` or the end of the input. A line read from the input
arrives in the pieces the buffered reader delivers; `pending` holds the pieces not yet read. -/
partial def replLoop (stdin : IO.FS.Stream) (stdout : IO.FS.Stream) (c : Cli.Console)
    (pending : List String) : IO Unit := do
  stdout.putStr Cli.prompt
  stdout.flush
  let (line, pending) ← match pending with
    | l :: ls => pure (some l, ls)
    | [] => do
      let raw ← stdin.getLine
      match readerLines raw with
      | l :: ls => pure (some l, ls)
      | [] => pure (none, [])
  match line with
  | none => return
  | some line =>
    if Cli.isQuit line then return
    let (out, c) := c.step line
    stdout.putStr out
    stdout.flush
    replLoop stdin stdout c pending

/-- Runs `ablac` with its arguments. -/
def main (args : List String) : IO UInt32 := do
  let fs ← loadTree
  let stdout ← IO.getStdout
  match Cli.invocation args with
  | .ok (.repl level) =>
    stdout.putStr Cli.banner
    replLoop (← IO.getStdin) stdout (Cli.Console.start fs level) []
    return 0
  | _ =>
    let r := Cli.run args fs ""
    stdout.putStr r.out
    stdout.flush
    let stderr ← IO.getStderr
    stderr.putStr r.errText
    stderr.flush
    saveTree fs r.files
    return r.code.toUInt32
