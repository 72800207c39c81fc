import Abla.Text.Path

/-!
# A file tree

The files a build reads and writes: regular files with their text, and directories. Entries
are keyed by absolute clean paths; a directory exists when it is listed or when some entry lies
below it, and the root always exists. Relative paths are taken against the working directory.

Failures read as the operating system reports them: a missing path is
`no such file or directory`, a path through a regular file is `not a directory`, and writing
over a directory is `is a directory`. A path is resolved element by element the way the system
walks it, so a path holding a zero byte is an `invalid argument`, and a path of `pathMax`
bytes or more, or an element longer than `nameMax` bytes, is a `file name too long`.
-/

namespace Abla

/-- What a path holds. -/
inductive Entry where
  | file (text : String)
  | dir
  deriving DecidableEq, Repr, Inhabited

/-- What looking up a path finds. -/
inductive Probe where
  | missing
  | notDir
  | file (text : String)
  | dir
  | tooLong
  | invalid
  deriving DecidableEq, Repr, Inhabited

/-- The words the operating system uses for a failed lookup. -/
def Probe.reason : Probe → String
  | .notDir => "not a directory"
  | .dir => "is a directory"
  | .tooLong => "file name too long"
  | .invalid => "invalid argument"
  | _ => "no such file or directory"

/-- A file tree and the working directory relative paths are taken against. -/
structure Files where
  cwd : String
  entries : List (String × Entry) := []
  deriving Inhabited

namespace Files

/-- A tree holding only the working directory. -/
def empty (cwd : String) : Files := ⟨cwd, [(cwd, .dir)]⟩

/-- The absolute clean form of a path. -/
def absolute (fs : Files) (p : String) : String := Path.resolve fs.cwd p

/-- What an absolute clean path holds, ancestors aside. -/
def entryAt (fs : Files) (abs : String) : Option Entry :=
  match fs.entries.lookup abs with
  | some e => some e
  | none =>
    if abs = "/" || fs.entries.any (fun (p, _) => p.startsWith (abs ++ "/")) then some .dir
    else none

/-- The proper ancestors of an absolute clean path, outermost first, the root left out. -/
def ancestors (abs : String) : List String :=
  let elems := (abs.splitOn "/").filter (· ≠ "")
  let prefixes := (List.range elems.length).map fun k => "/" ++ "/".intercalate (elems.take k)
  prefixes.filter (· ≠ "/")

/-- The size limit of a whole path in bytes; the terminating zero byte counts, so a path must
be shorter. -/
def pathMax : Nat := 4096

/-- The size limit of one path element in bytes. -/
def nameMax : Nat := 255

/-- The absolute clean path of an element inside a directory. -/
def child (dir name : String) : String :=
  if dir = "/" then "/" ++ name else dir ++ "/" ++ name

/-- Walks path elements from where the walk stands, `here`, which holds `found`. Only a
directory can be walked on from: `.` stays, `..` climbs (the root is its own parent), and a
name is looked up below `here` once its size is within `nameMax`. -/
def walk (fs : Files) (here : String) (found : Probe) : List String → Probe
  | [] => found
  | e :: es =>
    match found with
    | .file _ => .notDir
    | _ =>
      if e = "." then fs.walk here .dir es
      else if e = ".." then fs.walk (Path.dir here) .dir es
      else if e.utf8ByteSize > nameMax then .tooLong
      else
        let c := child here e
        match fs.entryAt c with
        | none => .missing
        | some (.file t) => fs.walk c (.file t) es
        | some .dir => fs.walk c .dir es

/-- Looks a path up as the system does: a zero byte or an oversized path is refused outright,
then the elements are walked from the root or the working directory. A regular file named
with a trailing slash is not a directory. -/
def probe (fs : Files) (p : String) : Probe :=
  if p.contains (Char.ofNat 0) then .invalid
  else if p.utf8ByteSize ≥ pathMax then .tooLong
  else if p = "" then .missing
  else
    let start := if Path.isAbs p then "/" else fs.cwd
    match fs.walk start .dir ((p.splitOn "/").filter (· ≠ "")) with
    | .file t => if p.endsWith "/" then .notDir else .file t
    | r => r

/-- Sets the entry at an absolute path. -/
def put (fs : Files) (abs : String) (e : Entry) : Files :=
  if fs.entries.any (·.1 = abs) then
    { fs with entries := fs.entries.map fun (p, old) => if p = abs then (p, e) else (p, old) }
  else { fs with entries := fs.entries ++ [(abs, e)] }

/-- Writes a regular file, creating or truncating it. Its directory must exist. -/
def write (fs : Files) (p text : String) : Except String Files :=
  let abs := fs.absolute p
  let blocked := (ancestors abs).findSome? fun a =>
    match fs.entryAt a with
    | none => some Probe.missing
    | some (.file _) => some Probe.notDir
    | some .dir => none
  match blocked with
  | some pr => .error ("open " ++ p ++ ": " ++ Probe.reason pr)
  | none =>
    match fs.entryAt abs with
    | some .dir => .error ("open " ++ p ++ ": is a directory")
    | _ => .ok (fs.put abs (.file text))

/-- The textual prefixes of a path that end before a slash, and the path itself. -/
def prefixes (p : String) : List String :=
  let cs := p.toList
  let cuts := (List.range cs.length).filter fun i => cs[i]? = some '/' ∧ i > 0
  (cuts.map fun i => String.ofList (cs.take i)) ++ [p]

/-- Makes a directory and its missing ancestors. A prefix that is a regular file stops it
with `mkdir PREFIX: not a directory`. -/
def mkdirAll (fs : Files) (p : String) : Except String Files :=
  let step (acc : Files) (q : String) : Except String Files :=
    match acc.entryAt (acc.absolute q) with
    | some (.file _) => .error ("mkdir " ++ q ++ ": not a directory")
    | some .dir => .ok acc
    | none => .ok (acc.put (acc.absolute q) .dir)
  (prefixes p).foldlM step fs

/-- Removes the entry at a path, if it is a regular file. -/
def remove (fs : Files) (p : String) : Files :=
  let abs := fs.absolute p
  { fs with entries := fs.entries.filter fun (q, e) => !(q = abs ∧ e ≠ .dir) }

end Files

end Abla
