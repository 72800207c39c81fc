import Abla.Text.Span

/-!
# Compile errors

A compile error has a kind, the unit it belongs to (empty until it reaches a unit boundary),
an optional span and a message. Other failures, such as a missing file or a refused request,
carry only their text. `CompileError.text` is the one-line form `FILE:LINE:COL: KIND: MSG`,
with the file and the position left out when they are unknown.
-/

namespace Abla

/-- The class of a compile error. -/
inductive ErrorKind where
  | parse
  | type
  | unresolved
  | unknownType
  | unsupported
  | execution
  | internalState
  deriving DecidableEq, Repr, Inhabited

/-- The words naming each kind of error in messages. -/
def ErrorKind.name : ErrorKind → String
  | .parse => "parse error"
  | .type => "type error"
  | .unresolved => "unresolved identifier"
  | .unknownType => "unknown type"
  | .unsupported => "unsupported feature"
  | .execution => "execution error"
  | .internalState => "internal state error"

/-- An error in one compilation unit. -/
structure CompileError where
  kind : ErrorKind
  file : String := ""
  span : Option Span := none
  message : String
  deriving DecidableEq, Repr, Inhabited

namespace CompileError

/-- The one-line text: positions are printed one-based. -/
def text (e : CompileError) : String :=
  if e.file = "" then s!"{e.kind.name}: {e.message}"
  else match e.span with
    | none => s!"{e.file}: {e.kind.name}: {e.message}"
    | some s => s!"{e.file}:{s.startLine + 1}:{s.startCol + 1}: {e.kind.name}: {e.message}"

/-- Stamps the unit name on an error that has none yet. -/
def inUnit (file : String) (e : CompileError) : CompileError :=
  if e.file = "" then { e with file := file } else e

/-- An internal error: a broken invariant of the compiler, with no position. -/
def internal (message : String) : CompileError := { kind := .internalState, message := message }

@[simp] theorem inUnit_kind (file : String) (e : CompileError) : (e.inUnit file).kind = e.kind := by
  unfold inUnit; split <;> rfl

@[simp] theorem inUnit_span (file : String) (e : CompileError) : (e.inUnit file).span = e.span := by
  unfold inUnit; split <;> rfl

end CompileError

/-- Why a request failed: a compile error or another failure known by its text. -/
inductive Failure where
  | compile (e : CompileError)
  | other (text : String)
  deriving DecidableEq, Repr, Inhabited

namespace Failure

/-- The text of a failure as it appears inside other messages. -/
def text : Failure → String
  | .compile e => e.text
  | .other t => t

end Failure

end Abla
