import Abla.Build.Files
import Abla.Scope.Notes
import Abla.Report.Error

/-!
# The state of a build

A build holds the file tree, the scopes and annotations of every unit, the units installed,
pending and failed, and the events reported on the way: finished phases, warnings and internal
errors. Node numbers are unique across the build, so one annotation table serves every unit.

Units are compiled one request at a time: a request runs its unit to completion before it
returns, nested requests included. A unit is pending exactly while its phases run, so a
pending unit that is requested again is one of the requesters of that request: an import
cycle.
-/

namespace Abla

/-- Something a build reports as it goes. -/
inductive Event where
  /-- A unit finished a phase. -/
  | phase (unit name : String)
  /-- A warning, in a file and possibly at a span. -/
  | warning (file : String) (span : Option Span) (message : String)
  /-- A broken invariant of the compiler. -/
  | internal (message : String)
  /-- An error, reported as it is found. -/
  | error (e : CompileError)
  deriving Repr, Inhabited

/-- The compilation units of a build. -/
structure Units where
  /-- The installed units and their trees. -/
  compiled : List (String × SourceFile) := []
  /-- The units whose phases are running, with their tree once it is parsed. -/
  pending : List (String × Option SourceFile) := []
  /-- The latest failure of each unit whose last compilation failed. -/
  failures : List (String × Failure) := []
  /-- Whether the build stopped taking requests. -/
  closed : Bool := false
  /-- Whether the build was cancelled. -/
  cancelled : Bool := false
  /-- The number of units named so far from given text. -/
  counter : Nat := 0
  deriving Inhabited

namespace Units

/-- Whether a unit is installed. -/
def isCompiled (u : Units) (name : String) : Bool := (u.compiled.lookup name).isSome

/-- Whether a unit's phases are running. -/
def isPending (u : Units) (name : String) : Bool := (u.pending.lookup name).isSome

/-- The tree of a unit that is installed, or pending and parsed. -/
def file? (u : Units) (name : String) : Option SourceFile :=
  match u.compiled.lookup name with
  | some f => some f
  | none => (u.pending.lookup name).bind id

/-- Replaces or adds the entry for a name. -/
def setEntry {α : Type} (xs : List (String × α)) (name : String) (a : α) : List (String × α) :=
  if xs.any (·.1 = name) then xs.map fun (n, b) => if n = name then (n, a) else (n, b)
  else xs ++ [(name, a)]

/-- Removes the entry for a name. -/
def dropEntry {α : Type} (xs : List (String × α)) (name : String) : List (String × α) :=
  xs.filter (·.1 ≠ name)

/-- The installed unit names, sorted. -/
def names (u : Units) : List String :=
  (u.compiled.map (·.1)).mergeSort (fun a b => decide (a ≤ b))

/-- The failures, sorted by unit name. -/
def sortedFailures (u : Units) : List (String × Failure) :=
  u.failures.mergeSort (fun a b => decide (a.1 ≤ b.1))

end Units

/-- Everything a build knows. -/
structure Build where
  files : Files
  tables : Tables := {}
  units : Units := {}
  /-- The next free node number. -/
  nextNode : Nat := 1
  events : Array Event := #[]
  deriving Inhabited

namespace Build

/-- A build over a file tree, with nothing compiled. -/
def start (files : Files) : Build := { files := files }

/-- Reports an event. -/
def report (b : Build) (e : Event) : Build := { b with events := b.events.push e }

end Build

end Abla
