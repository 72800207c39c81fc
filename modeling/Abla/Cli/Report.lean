import Abla.Build.State

/-!
# Reporting to the user

A reporter prints what a command has to say at its log level and counts the errors and
warnings it printed. The levels are ordered `silent < error < warn < verbose`: errors, internal
compiler errors and fatal errors show from `error` up, warnings from `warn` up, and the header,
the phase lines and the summary only at `verbose`. What is not shown is not counted.

An error or warning reads `LABEL FILE:LINE:COL: MESSAGE`, or `LABEL FILE: MESSAGE` without a
span, followed by a blank line. When the file is a regular file, the spanned lines follow: tabs
widened to four spaces, their common indentation removed, each line numbered and underlined
with carets from the start column on the first line to the end column on the last.
-/

namespace Abla

/-- How much a command reports. -/
inductive LogLevel where
  | silent
  | error
  | warn
  | verbose
  deriving DecidableEq, Repr, Inhabited

namespace LogLevel

/-- The place of a level in the order. -/
def rank : LogLevel → Nat
  | .silent => 0
  | .error => 1
  | .warn => 2
  | .verbose => 3

/-- The level a name selects; an unknown name selects `verbose`. -/
def ofName : String → LogLevel
  | "silent" => .silent
  | "error" => .error
  | "warn" => .warn
  | _ => .verbose

/-- The names of the levels. -/
def names : List String := ["silent", "error", "warn", "verbose"]

/-- Whether messages of level `m` show at level `l`. -/
def shows (l m : LogLevel) : Bool := m.rank ≤ l.rank

end LogLevel

/-- The lines of a text as a line scanner reads them: split at line feeds, a carriage return
before a line feed dropped, and no empty line after a final line feed. -/
def scanLines (text : String) : List String :=
  let parts := text.splitOn "\n"
  let parts := if parts.getLast? = some "" then parts.dropLast else parts
  parts.map fun l => if l.endsWith "\r" then String.ofList (l.toList.dropLast) else l

/-- A line with each tab widened to four spaces. -/
def expandTabs (line : String) : String :=
  String.ofList (line.toList.flatMap fun c => if c = '\t' then List.replicate 4 ' ' else [c])

/-- The number of leading blanks of a line. -/
def indentOf (line : String) : Nat := (line.toList.takeWhile (· = ' ')).length

/-- A number padded with blanks on the right to a width. -/
def padRight (width : Nat) (s : String) : String :=
  s ++ String.ofList (List.replicate (width - s.length) ' ')

/-- The excerpt of a source text under a span: each spanned line and its carets, then a blank
line. Lines are measured in bytes and the span in characters, so the carets of lines with
tabs or wide characters are placed by those numbers as they are. No line in the span gives no
excerpt. -/
def excerpt (text : String) (span : Span) : String :=
  let all := scanLines text
  let lines := ((all.drop span.startLine).take (span.endLine + 1 - span.startLine)).map
    expandTabs
  match lines with
  | [] => ""
  | first :: rest =>
    let minIndent := rest.foldl (fun m l => min m (indentOf l)) (indentOf first)
    let width := (toString (span.endLine + 1)).length
    let count := lines.length
    let one (i : Nat) (line : String) : String :=
      let size : Int := line.utf8ByteSize
      let lead : Int := if i = 0 then (span.startCol : Int) - minIndent else 0
      let stop : Int :=
        if i + 1 = count && (span.endCol : Int) - minIndent < size - minIndent then
          (span.endCol : Int) - minIndent
        else size - minIndent
      let carets := max 1 (stop - lead)
      let lead := max 0 lead
      padRight width (toString (i + span.startLine + 1)) ++ " | " ++
        String.ofList (line.toList.drop minIndent) ++ "\n" ++
        String.ofList (List.replicate width ' ') ++ " | " ++
        String.ofList (List.replicate lead.toNat ' ') ++
        String.ofList (List.replicate carets.toNat '^') ++ "\n"
    String.join (lines.zipIdx.map fun (l, i) => one i l) ++ "\n"

/-- What a command has printed so far at its log level, and the errors and warnings counted. -/
structure Reporter where
  level : LogLevel
  errors : Nat := 0
  warnings : Nat := 0
  out : String := ""
  deriving Repr, Inhabited

namespace Reporter

/-- Prints a text whatever the level. -/
def print (r : Reporter) (s : String) : Reporter := { r with out := r.out ++ s }

/-- Prints a text if messages of level `m` show. -/
def printAt (r : Reporter) (m : LogLevel) (s : String) : Reporter :=
  if r.level.shows m then r.print s else r

/-- Takes what was printed, leaving the counts. -/
def flush (r : Reporter) : String × Reporter := (r.out, { r with out := "" })

/-- An error or warning message with its excerpt. -/
def message (fs : Files) (label file : String) (span : Option Span) (msg : String) : String :=
  match span with
  | none => label ++ " " ++ file ++ ": " ++ msg ++ "\n\n"
  | some s =>
    let head := label ++ " " ++ file ++ ":" ++ toString (s.startLine + 1) ++ ":" ++
      toString (s.startCol + 1) ++ ": " ++ msg ++ "\n\n"
    match fs.probe file with
    | .file text => head ++ excerpt text s
    | _ => head

/-- Reports a compile error, or another failure by its text. -/
def failure (fs : Files) (r : Reporter) (f : Failure) : Reporter :=
  if r.level.shows .error then
    let r := { r with errors := r.errors + 1 }
    match f with
    | .compile e => r.print (message fs "error" e.file e.span (e.kind.name ++ ": " ++ e.message))
    | .other t => r.print ("error " ++ t ++ "\n\n")
  else r

/-- Reports a warning. -/
def warning (fs : Files) (r : Reporter) (file : String) (span : Option Span) (msg : String) :
    Reporter :=
  if r.level.shows .warn then
    { r with warnings := r.warnings + 1 }.print (message fs "warning" file span msg)
  else r

/-- Reports an internal compiler error: a bug of the compiler. It counts as an error. -/
def internal (r : Reporter) (msg : String) : Reporter :=
  if r.level.shows .error then
    { r with errors := r.errors + 1 }.print ("internal compiler error " ++ msg ++
      "\nThis error was not supposed to happen: please open an issue.\n\n")
  else r

/-- Reports a fatal error, after which the command stops. -/
def fatal (r : Reporter) (msg : String) : Reporter :=
  r.printAt .error ("fatal error " ++ msg ++ "\n\n")

/-- Reports that a unit finished a phase. The time taken is not measured. -/
def phase (r : Reporter) (unit name : String) : Reporter :=
  r.printAt .verbose (" " ++ name ++ "  " ++ unit ++ " (0.000s)\n")

/-- Reports the header of a build. -/
def header (r : Reporter) (version project : String) : Reporter :=
  r.printAt .verbose ("ablac v" ++ version ++ " -- project: " ++ project ++ "\n")

/-- Reports the summary of a build. -/
def finished (r : Reporter) (units : Nat) : Reporter :=
  r.printAt .verbose ("\n" ++ (if r.errors = 0 then "All done! " else "Oh no! ") ++ "(" ++
    toString units ++ " compiled units, " ++ toString r.errors ++ " errors, " ++
    toString r.warnings ++ " warnings)\n")

/-- Reports an event of a build as it happened. -/
def event (fs : Files) (r : Reporter) : Event → Reporter
  | .phase unit name => r.phase unit name
  | .warning file span msg => r.warning fs file span msg
  | .internal msg => r.internal msg
  | .error e => r.failure fs (.compile e)

end Reporter

end Abla
