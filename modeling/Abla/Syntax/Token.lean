import Abla.Text.Span

/-!
# Tokens

The lexical tokens of Abla: five keywords, operators, punctuation, identifiers, integer and
string literals, significant newlines and the end of the file. A token keeps its text and the
span it covers; the text of a string token is its raw content between the quotes.
-/

namespace Abla

/-- The kinds of lexical tokens. -/
inductive TokenKind where
  | kwFun | kwClass | kwExtern | kwCompiler | kwReturn
  | plus | minus | star | div
  | eq | neq | lt | gt | ltEq | gtEq
  | assign | arrow
  | lparen | rparen | lbrace | rbrace
  | comma | colon | semi | hash
  | ident | intLit | stringLit
  | newline | eof
  deriving DecidableEq, Repr, Inhabited

namespace TokenKind

/-- How a parse error names a token kind it expected; kinds without a name give `""`. -/
def describe : TokenKind → String
  | .kwFun => "`fun`"
  | .kwClass => "`class`"
  | .kwExtern => "`extern`"
  | .kwCompiler => "`compiler`"
  | .kwReturn => "`return`"
  | .assign => "`=`"
  | .arrow => "`->`"
  | .lparen => "`(`"
  | .rparen => "`)`"
  | .lbrace => "`\x7b`"
  | .rbrace => "`\x7d`"
  | .comma => "`,`"
  | .colon => "`:`"
  | .ident => "identifier"
  | .intLit => "integer literal"
  | .stringLit => "string literal"
  | .newline => "newline"
  | .eof => "end of file"
  | _ => ""

/-- The keyword spelled by a word, if any. -/
def keyword? : String → Option TokenKind
  | "fun" => some .kwFun
  | "class" => some .kwClass
  | "extern" => some .kwExtern
  | "compiler" => some .kwCompiler
  | "return" => some .kwReturn
  | _ => none

/-- The operator or punctuation symbol spelled by a text of one or two characters. -/
def symbol? : List Char → Option TokenKind
  | ['+'] => some .plus
  | ['-'] => some .minus
  | ['*'] => some .star
  | ['=', '='] => some .eq
  | ['!', '='] => some .neq
  | ['<'] => some .lt
  | ['<', '='] => some .ltEq
  | ['>'] => some .gt
  | ['>', '='] => some .gtEq
  | ['='] => some .assign
  | ['-', '>'] => some .arrow
  | ['('] => some .lparen
  | [')'] => some .rparen
  | ['{'] => some .lbrace
  | ['}'] => some .rbrace
  | [','] => some .comma
  | [':'] => some .colon
  | [';'] => some .semi
  | ['#'] => some .hash
  | _ => none

end TokenKind

/-- A lexical token: its kind, its text and the span it covers. -/
structure Token where
  kind : TokenKind
  value : String
  span : Span
  deriving DecidableEq, Repr, Inhabited

end Abla
