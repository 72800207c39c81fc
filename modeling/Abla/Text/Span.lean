/-!
# Source positions and spans

A position is a zero-based line and a zero-based column counted in code points. A span runs
from its start position to an end column one past its last character.
-/

namespace Abla

/-- A place in a source text: zero-based line and code-point column. -/
structure Position where
  line : Nat
  col : Nat
  deriving DecidableEq, Repr, Inhabited

/-- A stretch of source text; the end column is one past the last character. -/
structure Span where
  startLine : Nat
  startCol : Nat
  endLine : Nat
  endCol : Nat
  deriving DecidableEq, Repr, Inhabited

namespace Span

/-- The span from position `a` to position `b`. -/
def between (a b : Position) : Span := ⟨a.line, a.col, b.line, b.col⟩

/-- The span that starts where `a` starts and ends where `b` ends. -/
def hull (a b : Span) : Span := ⟨a.startLine, a.startCol, b.endLine, b.endCol⟩

/-- The position at which the span begins. -/
def start (s : Span) : Position := ⟨s.startLine, s.startCol⟩

@[simp] theorem hull_start (a b : Span) : (hull a b).start = a.start := rfl

@[simp] theorem hull_endCol (a b : Span) : (hull a b).endCol = b.endCol := rfl

@[simp] theorem hull_endLine (a b : Span) : (hull a b).endLine = b.endLine := rfl

theorem hull_assoc (a b c : Span) : hull (hull a b) c = hull a (hull b c) := rfl

end Span

namespace Position

/-- The position after reading character `c`: a newline starts the next line. -/
def advance (p : Position) (c : Char) : Position :=
  if c = '\n' then ⟨p.line + 1, 0⟩ else ⟨p.line, p.col + 1⟩

/-- The position after reading all of `cs`. -/
def advanceAll (p : Position) (cs : List Char) : Position := cs.foldl advance p

@[simp] theorem advanceAll_nil (p : Position) : p.advanceAll [] = p := rfl

@[simp] theorem advanceAll_cons (p : Position) (c : Char) (cs : List Char) :
    p.advanceAll (c :: cs) = (p.advance c).advanceAll cs := rfl

end Position

end Abla
