import Abla.Build.State

/-!
# Named locks

A named lock is a set of mutexes keyed by name. A name's mutex is made the first time the name
is locked and dropped once no goroutine holds or waits on it, so the set holds only the names
in use. `Lock(name)` takes the set's own mutex, looks the name up, makes its mutex if there is
none, counts itself on it, releases the set's mutex, and only then takes the name's mutex.
`Unlock(name)` takes the set's mutex, counts itself off the name's mutex, drops the entry when
the count reaches zero, and releases the name's mutex, all before the deferred release of the
set's mutex. It panics when the name has no entry.

The set is a transition system over every goroutine that uses it. A mutex is known by the
goroutine that holds it, and taking it is a step that can be taken only while it is free:
that is all that is assumed of a mutex. A step is one goroutine's move from one of these points
to the next; between two points a goroutine touches only what the set's mutex guards, or takes
or releases one mutex. Mutexes live at addresses, so that an entry dropped and made again is a
new mutex. The goroutines are started at will, and call `Lock` on any name and `Unlock` on a
name they hold.
-/

namespace Abla

namespace NamedLock

/-- A name's mutex: the goroutine holding it, and the count of goroutines holding or waiting
on it, which the set's mutex guards. -/
structure Cell where
  holder : Option Nat := none
  refs : Int := 0
  deriving DecidableEq, Repr, Inhabited

/-- Where a goroutine is in a call of `Lock` or `Unlock`. -/
inductive Pc where
  | idle
  /-- In `Lock(name)`, about to take the set's mutex. -/
  | lockEnter (name : String)
  /-- In `Lock(name)`, holding the set's mutex, about to look the name up. -/
  | lockLookup (name : String)
  /-- In `Lock(name)`, counted on the mutex at `cell`, about to release the set's mutex. -/
  | lockRelease (name : String) (cell : Nat)
  /-- In `Lock(name)`, about to take the mutex at `cell`. -/
  | lockAcquire (name : String) (cell : Nat)
  /-- In `Unlock(name)`, about to take the set's mutex. -/
  | unlockEnter (name : String)
  /-- In `Unlock(name)`, holding the set's mutex, about to look the name up. -/
  | unlockBody (name : String)
  /-- In `Unlock(name)`, about to run the deferred release of the set's mutex. -/
  | unlockRelease (name : String)
  /-- Stopped by a panic with this message. -/
  | panicked (message : String)
  deriving DecidableEq, Repr, Inhabited

/-- Whether a goroutine at this point holds the set's mutex. -/
def Pc.guarded : Pc → Bool
  | .lockLookup _ | .lockRelease _ _ | .unlockBody _ | .unlockRelease _ => true
  | _ => false

/-- A goroutine: the names it holds, each with the address of the mutex it took, and where it
is. -/
structure Goroutine where
  held : List (String × Nat) := []
  pc : Pc := .idle
  deriving Inhabited

/-- What happens next: a goroutine is started, an idle goroutine calls `Lock` or `Unlock`, or
a goroutine in a call takes its next step. -/
inductive Action where
  | spawn
  | lock (g : Nat) (name : String)
  | unlock (g : Nat) (name : String)
  | next (g : Nat)

end NamedLock

/-- A named lock with the goroutines that use it: the holder of the set's own mutex, the
entries from names to mutex addresses, the mutexes by address, and the goroutines by number. -/
structure NamedLock where
  guard : Option Nat := none
  locks : List (String × Nat) := []
  cells : List NamedLock.Cell := []
  goroutines : List NamedLock.Goroutine := []
  deriving Inhabited

namespace NamedLock

/-- The mutex at an address. -/
def cell (s : NamedLock) (c : Nat) : Cell := s.cells.getD c {}

def setCell (s : NamedLock) (c : Nat) (x : Cell) : NamedLock := { s with cells := s.cells.set c x }

def setGoroutine (s : NamedLock) (g : Nat) (r : Goroutine) : NamedLock :=
  { s with goroutines := s.goroutines.set g r }

/-- `Len()`: the number of names in use. -/
def len (s : NamedLock) : Nat := s.locks.length

/-- `Lock`'s section under the set's mutex: the name's mutex, made at the next address if the
name has none, counts one more goroutine. Gives the mutex's address. -/
def register (s : NamedLock) (name : String) : NamedLock × Nat :=
  match s.locks.lookup name with
  | some c => (s.setCell c { s.cell c with refs := (s.cell c).refs + 1 }, c)
  | none =>
    ({ s with locks := Units.setEntry s.locks name s.cells.length, cells := s.cells ++ [{ refs := 1 }] },
      s.cells.length)

/-- `Unlock`'s section under the set's mutex, for goroutine `g` at `r`: the name's mutex counts
one goroutine fewer, its entry goes when none is left, and the mutex is released. A name with
no entry panics, and so does releasing a mutex that nobody holds; the deferred release of the
set's mutex runs in the first case. -/
def release (s : NamedLock) (g : Nat) (r : Goroutine) (name : String) : NamedLock :=
  match s.locks.lookup name with
  | none =>
    { s.setGoroutine g { r with pc := .panicked ("build: unlock of unlocked name " ++ name) } with
      guard := none }
  | some c =>
    if (s.cell c).holder = none then
      s.setGoroutine g { r with pc := .panicked "sync: unlock of unlocked mutex" }
    else
      let refs := (s.cell c).refs - 1
      let s' := (s.setCell c { holder := none, refs := refs }).setGoroutine g
        { held := r.held.filter (·.1 ≠ name), pc := .unlockRelease name }
      if refs = 0 then { s' with locks := Units.dropEntry s.locks name } else s'

/-- The next step of goroutine `g`, which is at `r`; `none` while it waits for a mutex that
another goroutine holds, and when it is not in a call. -/
def advance (s : NamedLock) (g : Nat) (r : Goroutine) : Option NamedLock :=
  match r.pc with
  | .idle | .panicked _ => none
  | .lockEnter name =>
    if s.guard = none then
      some { s.setGoroutine g { r with pc := .lockLookup name } with guard := some g }
    else none
  | .lockLookup name =>
    let (s', c) := s.register name
    some (s'.setGoroutine g { r with pc := .lockRelease name c })
  | .lockRelease name c => some { s.setGoroutine g { r with pc := .lockAcquire name c } with guard := none }
  | .lockAcquire name c =>
    if (s.cell c).holder = none then
      some ((s.setCell c { s.cell c with holder := some g }).setGoroutine g
        { held := r.held ++ [(name, c)], pc := .idle })
    else none
  | .unlockEnter name =>
    if s.guard = none then
      some { s.setGoroutine g { r with pc := .unlockBody name } with guard := some g }
    else none
  | .unlockBody name => some (s.release g r name)
  | .unlockRelease _ => some { s.setGoroutine g { r with pc := .idle } with guard := none }

/-- One step. -/
def step (s : NamedLock) : Action → Option NamedLock
  | .spawn => some { s with goroutines := s.goroutines ++ [{}] }
  | .lock g name =>
    match s.goroutines[g]? with
    | some r => if r.pc = .idle then some (s.setGoroutine g { r with pc := .lockEnter name }) else none
    | none => none
  | .unlock g name =>
    match s.goroutines[g]? with
    | some r =>
      if r.pc = .idle ∧ r.held.any (·.1 == name) then
        some (s.setGoroutine g { r with pc := .unlockEnter name })
      else none
    | none => none
  | .next g =>
    match s.goroutines[g]? with
    | some r => s.advance g r
    | none => none

/-- The states reachable from the empty set, with no goroutine started. -/
inductive Reachable : NamedLock → Prop where
  | init : Reachable {}
  | step {s s' : NamedLock} (a : Action) : Reachable s → s.step a = some s' → Reachable s'

end NamedLock

end Abla
