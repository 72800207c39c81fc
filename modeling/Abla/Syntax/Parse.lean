import Abla.Syntax.Grammar
import Abla.Syntax.Numbering

/-!
# Reading a source into a syntax tree

`Source.parse` lexes a source and reads it as a file. The expression of an interpolation
`${ … }` inside a string literal is read by its own lexer and parser, started at the
interpolation's position; its text lies inside a string token, so it is shorter than the text
around it, which bounds the nesting.
-/

namespace Abla

/-- Reads the expression of an interpolation from its text, lexed from position `pos`. -/
def readInterpolation (text : List Char) (pos : Position) : Except Failure Expr :=
  Grammar.interpolation
    (fun sub p => if sub.length < text.length then readInterpolation sub p
      else .error (.compile (.internal "an interpolation is not shorter than its context")))
    (Lexer.tokenize .eof pos text)
termination_by text.length

/-- The failure of a unit's parse as a compile error of that unit: a failed read becomes an
internal error carrying the reader's message. -/
def Failure.inUnit (file : String) : Failure → CompileError
  | .compile e => e.inUnit file
  | .other m => { kind := .internalState, file := file, message := m }

/-- Reads a source as the file of the unit `name`; node numbers are left at zero. -/
def Source.parse (name : String) (src : Source) : Except Failure SourceFile :=
  match Grammar.file readInterpolation name src.tokens with
  | .ok f => .ok f
  | .error (.compile e) => .error (.compile (e.inUnit name))
  | .error e => .error e

end Abla
