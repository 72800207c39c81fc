import Abla.Syntax.Lexer
import Abla.Syntax.Tree
import Abla.Text.Format

/-!
# The grammar

A recursive-descent reading of the token stream:

```text
file     = { decl (newline | ";" | end) }
decl     = "#" (ident | block) suffix { suffix } | { modifier } (funcDecl | classDecl)
funcDecl = "fun" ident "(" [ param { "," param } ] ")" [ ":" type ] [ block | "=" expr ]
expr     = "#" expr | binary₀
binaryₗ  = binaryₗ₊₁ { opₗ binaryₗ₊₁ }        (levels: == != / < > <= >= / + - / * /)
chain    = primary { "(" args ")" [ block ] | block }
primary  = ident | int | string | block | "(" expr ")"
```

Every function takes the stream it starts on and returns the stream after what it read, with
a proof that the stream did not grow (`Parsed`) or shrank (`Taken`). Recursion is well founded
on the stream's length, scaled, plus a rank that falls along calls that read nothing first.
Interpolations inside string literals are read by a function passed in, so that a string's
inner text is parsed by recursion on its length (see `Abla.Syntax.Parse`).
-/

namespace Abla

/-- The parser's view of the lexer's output: the current token, the tokens after it, and the
failure that stopped the lexer after them, if any. -/
structure TokenStream where
  cur : Token
  rest : List Token
  stop : Option Failure

namespace TokenStream

/-- The number of tokens after the current one. -/
def size (s : TokenStream) : Nat := s.rest.length

/-- The kind of the current token. -/
def kind (s : TokenStream) : TokenKind := s.cur.kind

end TokenStream

/-- A value read from stream `s`, and the stream after it, no longer than `s`. -/
structure Parsed (s : TokenStream) (α : Type) where
  val : α
  next : TokenStream
  le : next.size ≤ s.size

/-- A value read from stream `s` that took at least one token. -/
structure Taken (s : TokenStream) (α : Type) where
  val : α
  next : TokenStream
  lt : next.size < s.size

/-- What reads the expression of an interpolation: its text and its first position. -/
abbrev InterpReader := List Char → Position → Except Failure Expr

namespace Grammar

/-- A parse error at a span. -/
def parseError (span : Span) (message : String) : Failure :=
  .compile { kind := .parse, span := some span, message := message }

/-- The error for a token that cannot stand where it is. -/
def reject (s : TokenStream) : Failure :=
  let msg := match s.kind with
    | .newline => "unexpected newline"
    | .eof => "unexpected end of file"
    | _ => expandTemplate ("unexpected token: `" ++ s.cur.value ++ "`")
  parseError s.cur.span msg

/-- The error for a token other than the kind `k` that had to come. -/
def rejectWant (k : TokenKind) (s : TokenStream) : Failure :=
  let found := if s.kind.describe = "" then "`" ++ s.cur.value ++ "`" else s.kind.describe
  parseError s.cur.span ("expected " ++ k.describe ++ " but found " ++ found)

/-- An error with its own message at the current token. -/
def rejectWith (message : String) (s : TokenStream) : Failure := parseError s.cur.span message

/-- The stream at the first token of the lexer's output. -/
def start (lx : Lexed) : Except Failure TokenStream :=
  match lx.tokens with
  | t :: ts => .ok ⟨t, ts, lx.stop⟩
  | [] => .error (lx.stop.getD (.compile (.internal "the lexer produced no token")))

/-- Moves to the next token; past the last token lies the lexer's failure. -/
def advance (s : TokenStream) : Except Failure (Taken s Unit) :=
  match h : s.rest with
  | t :: ts => .ok ⟨(), ⟨t, ts, s.stop⟩, by simp [TokenStream.size, h]⟩
  | [] => .error (s.stop.getD (.compile (.internal "the parser moved past the end of the file")))

/-- Takes the current token, which must be of kind `k`. -/
def want (k : TokenKind) (s : TokenStream) : Except Failure (Taken s Token) :=
  if s.kind = k then do
    let ⟨_, n, h⟩ ← advance s
    .ok ⟨s.cur, n, h⟩
  else .error (rejectWant k s)

/-- Skips newline tokens. -/
def newlines (s : TokenStream) : Except Failure (Parsed s Unit) :=
  if s.kind = .newline then do
    let ⟨_, s1, h1⟩ ← advance s
    let ⟨_, s2, h2⟩ ← newlines s1
    .ok ⟨(), s2, by omega⟩
  else .ok ⟨(), s, Nat.le_refl _⟩
termination_by s.size

/-- The character an escape `\c` stands for, if `c` names one. -/
def escape? : Char → Option Char
  | 'n' => some '\n'
  | 't' => some '\t'
  | 'r' => some '\r'
  | '0' => some '\x00'
  | '\\' => some '\\'
  | '"' => some '"'
  | '\'' => some '\''
  | '$' => some '$'
  | _ => none

/-- The text of an interpolation up to its closing brace, and what follows that brace;
`depth` counts the braces still open. Without a closing brace the text runs to the end. -/
def interpText : Nat → List Char → List Char × List Char
  | _, [] => ([], [])
  | depth, c :: cs =>
    if c = '{' then
      let r := interpText (depth + 1) cs
      (c :: r.1, r.2)
    else if c = '}' then
      if depth ≤ 1 then ([], cs)
      else
        let r := interpText (depth - 1) cs
        (c :: r.1, r.2)
    else
      let r := interpText depth cs
      (c :: r.1, r.2)

theorem interpText_rest_le : ∀ (d : Nat) (cs : List Char), (interpText d cs).2.length ≤ cs.length
  | _, [] => by simp [interpText]
  | d, c :: cs => by
    have h1 := interpText_rest_le (d + 1) cs
    have h2 := interpText_rest_le (d - 1) cs
    have h3 := interpText_rest_le d cs
    unfold interpText
    by_cases ha : c = '{'
    · rw [if_pos ha]; simp only [List.length_cons]; omega
    · rw [if_neg ha]
      by_cases hb : c = '}'
      · rw [if_pos hb]
        by_cases hd : d ≤ 1
        · rw [if_pos hd]; simp
        · rw [if_neg hd]; simp only [List.length_cons]; omega
      · rw [if_neg hb]; simp only [List.length_cons]; omega

theorem interpText_tail_lt (cs : List Char) : (interpText 1 cs.tail).2.length < cs.length + 1 := by
  have := interpText_rest_le 1 cs.tail
  simp only [List.length_tail] at this
  omega

/-- The pieces of a string literal's raw text. `i` is the index of `cs` in the raw text,
`buf` the text gathered since the last piece, in reverse; the first character of the raw text
stands at column `col` of line `line`. -/
def pieces (interp : InterpReader) (line col : Nat) :
    Nat → List Char → List Char → List Piece → Except Failure (List Piece)
  | _, [], buf, acc => .ok (flush buf acc)
  | i, c :: cs, buf, acc =>
    if c = '\\' then
      match cs with
      | [] => .error (.compile (.internal "a string literal ends inside an escape"))
      | d :: cs' =>
        match escape? d with
        | some e => pieces interp line col (i + 2) cs' (e :: buf) acc
        | none => .error (parseError ⟨line, col + i, line, col + i + 2⟩
            ("unknown escape sequence: `\\" ++ String.singleton d ++ "`"))
    else if c = '$' ∧ cs.head? = some '{' then do
      let start := i + 2
      let r := interpText 1 cs.tail
      let e ← interp r.1 ⟨line, col + start⟩
      pieces interp line col (start + r.1.length + 1) r.2 [] (flush buf acc ++ [.interp e])
    else pieces interp line col (i + 1) cs (c :: buf) acc
termination_by _ cs _ _ => cs.length
decreasing_by
  all_goals simp_wf
  all_goals first
    | omega
    | exact interpText_tail_lt _
    | exact Nat.lt_succ_iff.mp (interpText_tail_lt _)
where
  /-- Closes the text gathered so far into a piece, unless it is empty. -/
  flush (buf : List Char) (acc : List Piece) : List Piece :=
    if buf.isEmpty then acc else acc ++ [.text (String.ofList buf.reverse)]

/-- A string literal: the token, then its pieces. -/
def stringLit (interp : InterpReader) (s : TokenStream) : Except Failure (Taken s Expr) := do
  let ⟨tok, s1, h1⟩ ← want .stringLit s
  let ps ← pieces interp tok.span.startLine (tok.span.startCol + 1) 0 tok.value.toList [] []
  .ok ⟨.str ⟨0, tok.span⟩ ps, s1, h1⟩

/-- The binary operator of a precedence level that a token kind spells. Level 0 binds
loosest. -/
def opAt : Nat → TokenKind → Option BinOp
  | 0, .eq => some .eq
  | 0, .neq => some .neq
  | 1, .gt => some .gt
  | 1, .lt => some .lt
  | 1, .gtEq => some .ge
  | 1, .ltEq => some .le
  | 2, .plus => some .add
  | 2, .minus => some .sub
  | 3, .star => some .mul
  | 3, .div => some .div
  | _, _ => none

/-- Whether a kind may end a `return` that carries no value. -/
def endsStatement (k : TokenKind) : Bool :=
  k = .newline || k = .semi || k = .rbrace || k = .eof

mutual

/-- An expression: `#` and the expression after it, or a binary expression. -/
def expr (interp : InterpReader) (s : TokenStream) : Except Failure (Taken s Expr) :=
  if s.kind = .hash then do
    let ⟨hashTok, s1, h1⟩ ← want .hash s
    let ⟨e, s2, h2⟩ ← expr interp s1
    .ok ⟨.exec ⟨0, Span.hull hashTok.span e.span⟩ e, s2, by omega⟩
  else binary interp 0 s
termination_by s.size * 32 + 20

/-- A binary expression whose operators are of level `level` or tighter. -/
def binary (interp : InterpReader) (level : Nat) (s : TokenStream) : Except Failure (Taken s Expr) :=
  if level < 4 then do
    let ⟨lhs, s1, h1⟩ ← binary interp (level + 1) s
    let ⟨e, s2, h2⟩ ← binaryRest interp level lhs s1
    .ok ⟨e, s2, by omega⟩
  else callChain interp s
termination_by s.size * 32 + (18 - min level 4)

/-- The operators of level `level` after a left operand, each taking the operand so far as
its left side. -/
def binaryRest (interp : InterpReader) (level : Nat) (lhs : Expr) (s : TokenStream) :
    Except Failure (Parsed s Expr) :=
  match opAt level s.kind with
  | none => .ok ⟨lhs, s, Nat.le_refl _⟩
  | some op => do
    let ⟨_, s1, h1⟩ ← advance s
    let ⟨_, s2, h2⟩ ← newlines s1
    let ⟨rhs, s3, h3⟩ ← binary interp (level + 1) s2
    let ⟨e, s4, h4⟩ ← binaryRest interp level (.binary ⟨0, Span.hull lhs.span rhs.span⟩ op lhs rhs) s3
    .ok ⟨e, s4, by omega⟩
termination_by s.size * 32

/-- A primary expression and the calls applied to it. -/
def callChain (interp : InterpReader) (s : TokenStream) : Except Failure (Taken s Expr) := do
  let ⟨root, s1, h1⟩ ← primary interp s
  let ⟨e, s2, h2⟩ ← suffixes interp root s1
  .ok ⟨e, s2, by omega⟩
termination_by s.size * 32 + 13

/-- Calls applied to `root`: argument lists in parentheses, or a trailing function literal. -/
def suffixes (interp : InterpReader) (root : Expr) (s : TokenStream) : Except Failure (Parsed s Expr) :=
  if s.kind = .lparen then do
    let ⟨c, s1, h1⟩ ← callSuffix interp root s
    let ⟨e, s2, h2⟩ ← suffixes interp c s1
    .ok ⟨e, s2, by omega⟩
  else if s.kind = .lbrace then do
    let ⟨lit, s1, h1⟩ ← funcLit interp s
    let ⟨e, s2, h2⟩ ← suffixes interp (.call ⟨0, Span.hull root.span lit.span⟩ root [lit]) s1
    .ok ⟨e, s2, by omega⟩
  else .ok ⟨root, s, Nat.le_refl _⟩
termination_by s.size * 32 + 11

/-- One argument list in parentheses after `fn`, and a function literal right after it. -/
def callSuffix (interp : InterpReader) (fn : Expr) (s : TokenStream) : Except Failure (Taken s Expr) := do
  let ⟨_, s1, h1⟩ ← want .lparen s
  let ⟨_, s2, h2⟩ ← newlines s1
  let ⟨args, s3, h3⟩ ← callArgs interp [] s2
  let ⟨rp, s4, h4⟩ ← want .rparen s3
  if s4.kind = .lbrace then do
    let ⟨lit, s5, h5⟩ ← funcLit interp s4
    .ok ⟨.call ⟨0, Span.hull fn.span lit.span⟩ fn (args ++ [lit]), s5, by omega⟩
  else .ok ⟨.call ⟨0, Span.hull fn.span rp.span⟩ fn args, s4, by omega⟩
termination_by s.size * 32 + 10

/-- The arguments of a call up to the closing parenthesis, after those in `acc`. -/
def callArgs (interp : InterpReader) (acc : List Expr) (s : TokenStream) :
    Except Failure (Parsed s (List Expr)) :=
  if s.kind = .rparen then .ok ⟨acc, s, Nat.le_refl _⟩
  else do
    let ⟨a, s1, h1⟩ ← expr interp s
    let ⟨_, s2, h2⟩ ← newlines s1
    if s2.kind = .comma then do
      let ⟨_, s3, h3⟩ ← advance s2
      let ⟨_, s4, h4⟩ ← newlines s3
      let ⟨r, s5, h5⟩ ← callArgs interp (acc ++ [a]) s4
      .ok ⟨r, s5, by omega⟩
    else if s2.kind = .rparen then .ok ⟨acc ++ [a], s2, by omega⟩
    else .error (rejectWant .rparen s2)
termination_by s.size * 32 + 21

/-- An identifier, a literal, a function literal or an expression in parentheses. -/
def primary (interp : InterpReader) (s : TokenStream) : Except Failure (Taken s Expr) :=
  match s.kind with
  | .ident => do
    let ⟨t, s1, h1⟩ ← want .ident s
    .ok ⟨.ident ⟨0, t.span⟩ t.value, s1, h1⟩
  | .intLit => do
    let ⟨t, s1, h1⟩ ← want .intLit s
    .ok ⟨.int ⟨0, t.span⟩ t.value, s1, h1⟩
  | .stringLit => stringLit interp s
  | .lbrace => funcLit interp s
  | .lparen => do
    let ⟨_, s1, h1⟩ ← advance s
    let ⟨_, s2, h2⟩ ← newlines s1
    let ⟨e, s3, h3⟩ ← expr interp s2
    let ⟨_, s4, h4⟩ ← newlines s3
    let ⟨_, s5, h5⟩ ← want .rparen s4
    .ok ⟨e, s5, by omega⟩
  | _ => .error (reject s)
termination_by s.size * 32 + 12

/-- A function literal: a block used as a value. -/
def funcLit (interp : InterpReader) (s : TokenStream) : Except Failure (Taken s Expr) := do
  let ⟨b, s1, h1⟩ ← block interp s
  .ok ⟨.lambda ⟨0, b.site.span⟩ b, s1, h1⟩
termination_by s.size * 32 + 6

/-- A block: statements between braces. -/
def block (interp : InterpReader) (s : TokenStream) : Except Failure (Taken s Block) := do
  let ⟨lb, s1, h1⟩ ← want .lbrace s
  let ⟨stmts, s2, h2⟩ ← blockStmts interp [] s1
  let ⟨rb, s3, h3⟩ ← want .rbrace s2
  .ok ⟨.mk ⟨0, Span.hull lb.span rb.span⟩ stmts, s3, by omega⟩
termination_by s.size * 32 + 5

/-- The statements of a block up to its closing brace, after those in `acc`. -/
def blockStmts (interp : InterpReader) (acc : List Stmt) (s : TokenStream) :
    Except Failure (Parsed s (List Stmt)) := do
  let ⟨_, s1, h1⟩ ← newlines s
  if s1.kind = .rbrace then .ok ⟨acc, s1, h1⟩
  else do
    let ⟨st, s2, h2⟩ ← stmt interp s1
    if s2.kind = .semi then do
      let ⟨_, s3, h3⟩ ← advance s2
      let ⟨r, s4, h4⟩ ← blockStmts interp (acc ++ [st]) s3
      .ok ⟨r, s4, by omega⟩
    else if s2.kind = .newline ∨ s2.kind = .rbrace then do
      let ⟨r, s3, h3⟩ ← blockStmts interp (acc ++ [st]) s2
      .ok ⟨r, s3, by omega⟩
    else .error (reject s2)
termination_by s.size * 32 + 23

/-- A statement: `return` with an optional value, or an expression. -/
def stmt (interp : InterpReader) (s : TokenStream) : Except Failure (Taken s Stmt) :=
  if s.kind = .kwReturn then do
    let ⟨rt, s1, h1⟩ ← want .kwReturn s
    if endsStatement s1.kind then .ok ⟨.ret ⟨0, rt.span⟩ none, s1, h1⟩
    else do
      let ⟨v, s2, h2⟩ ← expr interp s1
      .ok ⟨.ret ⟨0, Span.hull rt.span v.span⟩ (some v), s2, by omega⟩
  else do
    let ⟨e, s1, h1⟩ ← expr interp s
    .ok ⟨.expr ⟨0, e.span⟩ e, s1, h1⟩
termination_by s.size * 32 + 22

end

mutual

/-- A type label: a name with optional type arguments in angle brackets, or a function type
`(P, …) -> R`. -/
def typeLabel (s : TokenStream) : Except Failure (Taken s TypeLabel) :=
  match s.kind with
  | .ident => do
    let ⟨t, s1, h1⟩ ← want .ident s
    if s1.kind = .lt then do
      let ⟨_, s2, h2⟩ ← advance s1
      let ⟨ps, s3, h3⟩ ← typeArgs [] s2
      let ⟨gt, s4, h4⟩ ← want .gt s3
      .ok ⟨.named t.value ps (Span.hull t.span gt.span), s4, by omega⟩
    else .ok ⟨.named t.value [] t.span, s1, h1⟩
  | .lparen => do
    let ⟨_, s1, h1⟩ ← advance s
    let ⟨ps, s2, h2⟩ ← funcTypeParams [] s1
    let ⟨_, s3, h3⟩ ← advance s2
    let ⟨_, s4, h4⟩ ← want .arrow s3
    let ⟨r, s5, h5⟩ ← typeLabel s4
    .ok ⟨.func ps r (Span.hull s.cur.span r.span), s5, by omega⟩
  | _ => .error (rejectWith "expected a type" s)
termination_by s.size * 4 + 2

/-- Type arguments separated by commas, after those in `acc`. -/
def typeArgs (acc : List TypeLabel) (s : TokenStream) : Except Failure (Taken s (List TypeLabel)) := do
  let ⟨t, s1, h1⟩ ← typeLabel s
  if s1.kind = .comma then do
    let ⟨_, s2, h2⟩ ← advance s1
    let ⟨r, s3, h3⟩ ← typeArgs (acc ++ [t]) s2
    .ok ⟨r, s3, by omega⟩
  else .ok ⟨acc ++ [t], s1, h1⟩
termination_by s.size * 4 + 3

/-- The parameter types of a function type up to the closing parenthesis. -/
def funcTypeParams (acc : List TypeLabel) (s : TokenStream) : Except Failure (Parsed s (List TypeLabel)) :=
  if s.kind = .rparen then .ok ⟨acc, s, Nat.le_refl _⟩
  else do
    let ⟨t, s1, h1⟩ ← typeLabel s
    if s1.kind = .comma then do
      let ⟨_, s2, h2⟩ ← advance s1
      let ⟨r, s3, h3⟩ ← funcTypeParams (acc ++ [t]) s2
      .ok ⟨r, s3, by omega⟩
    else if s1.kind = .rparen then .ok ⟨acc ++ [t], s1, by omega⟩
    else .error (rejectWant .rparen s1)
termination_by s.size * 4 + 3

end

/-- Declaration modifiers, after those in `acc`: `extern`, `extern("lib")` and `compiler`. -/
def modifiers (interp : InterpReader) (acc : List Modifier) (s : TokenStream) :
    Except Failure (Parsed s (List Modifier)) :=
  if s.kind = .kwExtern then do
    let ⟨_, s1, h1⟩ ← advance s
    if s1.kind = .lparen then do
      let ⟨_, s2, h2⟩ ← advance s1
      let ⟨lib, s3, h3⟩ ← stringLit interp s2
      let ⟨rp, s4, h4⟩ ← want .rparen s3
      let ⟨r, s5, h5⟩ ← modifiers interp (acc ++ [.external (some lib) (Span.hull s.cur.span rp.span)]) s4
      .ok ⟨r, s5, by omega⟩
    else do
      let ⟨r, s2, h2⟩ ← modifiers interp (acc ++ [.external none s.cur.span]) s1
      .ok ⟨r, s2, by omega⟩
  else if s.kind = .kwCompiler then do
    let ⟨_, s1, h1⟩ ← advance s
    let ⟨r, s2, h2⟩ ← modifiers interp (acc ++ [.compiler s.cur.span]) s1
    .ok ⟨r, s2, by omega⟩
  else .ok ⟨acc, s, Nat.le_refl _⟩
termination_by s.size

/-- A parameter: a name, a colon and a type label. -/
def param (s : TokenStream) : Except Failure (Taken s Param) := do
  let ⟨n, s1, h1⟩ ← want .ident s
  let ⟨_, s2, h2⟩ ← want .colon s1
  let ⟨t, s3, h3⟩ ← typeLabel s2
  .ok ⟨⟨⟨0, Span.hull n.span t.span⟩, n.value, t⟩, s3, by omega⟩

/-- The parameters of a function declaration up to the closing parenthesis. -/
def params (acc : List Param) (s : TokenStream) : Except Failure (Parsed s (List Param)) :=
  if s.kind = .rparen then .ok ⟨acc, s, Nat.le_refl _⟩
  else do
    let ⟨p, s1, h1⟩ ← param s
    let ⟨_, s2, h2⟩ ← newlines s1
    if s2.kind = .comma then do
      let ⟨_, s3, h3⟩ ← advance s2
      let ⟨_, s4, h4⟩ ← newlines s3
      let ⟨r, s5, h5⟩ ← params (acc ++ [p]) s4
      .ok ⟨r, s5, by omega⟩
    else if s2.kind = .rparen then .ok ⟨acc ++ [p], s2, by omega⟩
    else .error (rejectWant .rparen s2)
termination_by s.size

/-- A function declaration from `fun` on; `startSpan` is where its modifiers began. -/
def funcDecl (interp : InterpReader) (startSpan : Span) (mods : List Modifier) (s : TokenStream) :
    Except Failure (Taken s FuncDecl) := do
  let ⟨_, s1, h1⟩ ← want .kwFun s
  let ⟨name, s2, h2⟩ ← want .ident s1
  let ⟨_, s3, h3⟩ ← want .lparen s2
  let ⟨_, s4, h4⟩ ← newlines s3
  let ⟨ps, s5, h5⟩ ← params [] s4
  let ⟨rp, s6, h6⟩ ← want .rparen s5
  let ⟨(ret, endSpan), s7, h7⟩ ← (if s6.kind = .colon then do
      let ⟨_, a, ha⟩ ← advance s6
      let ⟨t, b, hb⟩ ← typeLabel a
      .ok ⟨(some t, t.span), b, by omega⟩
    else .ok ⟨(none, rp.span), s6, Nat.le_refl _⟩ : Except Failure (Parsed s6 (Option TypeLabel × Span)))
  let mk (body : Option Block) (endSpan : Span) : FuncDecl :=
    ⟨⟨0, Span.hull startSpan endSpan⟩, name.value, name.span, mods, ps, ret, body⟩
  if s7.kind = .lbrace then do
    let ⟨b, s8, h8⟩ ← block interp s7
    .ok ⟨mk (some b) b.site.span, s8, by omega⟩
  else if s7.kind = .assign then do
    let ⟨_, s8, h8⟩ ← advance s7
    let ⟨_, s9, h9⟩ ← newlines s8
    let ⟨e, s10, h10⟩ ← expr interp s9
    let body : Block := .mk ⟨0, e.span⟩ [.expr ⟨0, e.span⟩ e]
    .ok ⟨mk (some body) e.span, s10, by omega⟩
  else .ok ⟨mk none endSpan, s7, by omega⟩

mutual

/-- A class declaration from `class` on, with its members in braces. -/
def classDecl (interp : InterpReader) (startSpan : Span) (mods : List Modifier) (s : TokenStream) :
    Except Failure (Taken s Decl) := do
  let ⟨_, s1, h1⟩ ← want .kwClass s
  let ⟨name, s2, h2⟩ ← want .ident s1
  if s2.kind = .lbrace then do
    let ⟨_, s3, h3⟩ ← advance s2
    let ⟨ms, s4, h4⟩ ← members interp [] s3
    let ⟨rb, s5, h5⟩ ← want .rbrace s4
    .ok ⟨.cls ⟨0, Span.hull startSpan rb.span⟩ name.value mods ms, s5, by omega⟩
  else .ok ⟨.cls ⟨0, Span.hull startSpan name.span⟩ name.value mods [], s2, by omega⟩
termination_by s.size * 4 + 1

/-- The members of a class up to its closing brace, after those in `acc`. -/
def members (interp : InterpReader) (acc : List Decl) (s : TokenStream) :
    Except Failure (Parsed s (List Decl)) := do
  let ⟨_, s1, h1⟩ ← newlines s
  if s1.kind = .rbrace then .ok ⟨acc, s1, h1⟩
  else do
    let ⟨mods, s2, h2⟩ ← modifiers interp [] s1
    let ⟨d, s3, h3⟩ ← (match s2.kind with
      | .kwFun => do
        let ⟨f, a, ha⟩ ← funcDecl interp s1.cur.span mods s2
        .ok ⟨.func f, a, ha⟩
      | .kwClass => classDecl interp s1.cur.span mods s2
      | _ => .error (reject s2) : Except Failure (Taken s2 Decl))
    if s3.kind = .semi then do
      let ⟨_, s4, h4⟩ ← advance s3
      let ⟨r, s5, h5⟩ ← members interp (acc ++ [d]) s4
      .ok ⟨r, s5, by omega⟩
    else if s3.kind = .newline ∨ s3.kind = .rbrace then do
      let ⟨r, s4, h4⟩ ← members interp (acc ++ [d]) s3
      .ok ⟨r, s4, by omega⟩
    else .error (reject s3)
termination_by s.size * 4 + 2

end

/-- A top-level `#` call: an identifier or a function literal, then at least one call. -/
def hashCall (interp : InterpReader) (s : TokenStream) : Except Failure (Taken s Decl) := do
  let ⟨hashTok, s1, h1⟩ ← want .hash s
  let ⟨root, s2, h2⟩ ← (match s1.kind with
    | .ident => do
      let ⟨t, a, ha⟩ ← want .ident s1
      .ok ⟨.ident ⟨0, t.span⟩ t.value, a, ha⟩
    | .lbrace => funcLit interp s1
    | _ => .error (reject s1) : Except Failure (Taken s1 Expr))
  if s2.kind = .lparen ∨ s2.kind = .lbrace then do
    let ⟨call, s3, h3⟩ ← suffixes interp root s2
    .ok ⟨.hashCall ⟨0, Span.hull hashTok.span call.span⟩ call, s3, by omega⟩
  else .error (rejectWith "compiler call must call a function" s2)

/-- A declaration: a `#` call, or modifiers and a function or class. -/
def decl (interp : InterpReader) (s : TokenStream) : Except Failure (Taken s Decl) :=
  if s.kind = .hash then hashCall interp s
  else do
    let ⟨mods, s1, h1⟩ ← modifiers interp [] s
    match s1.kind with
    | .kwFun => do
      let ⟨f, s2, h2⟩ ← funcDecl interp s.cur.span mods s1
      .ok ⟨.func f, s2, by omega⟩
    | .kwClass => do
      let ⟨d, s2, h2⟩ ← classDecl interp s.cur.span mods s1
      .ok ⟨d, s2, by omega⟩
    | _ => .error (reject s1)

/-- The declarations of a file up to its end, after those in `acc`; returns them with the
span of the end token. -/
def decls (interp : InterpReader) (acc : List Decl) (s : TokenStream) :
    Except Failure (List Decl × Span) := do
  let ⟨_, s1, h1⟩ ← newlines s
  if s1.kind = .eof then .ok (acc, s1.cur.span)
  else do
    let ⟨d, s2, h2⟩ ← decl interp s1
    if s2.kind = .semi then do
      let ⟨_, s3, h3⟩ ← advance s2
      decls interp (acc ++ [d]) s3
    else if s2.kind = .newline ∨ s2.kind = .eof then decls interp (acc ++ [d]) s2
    else .error (reject s2)
termination_by s.size

/-- A whole file read from the lexer's output; its span runs from the first token to the end. -/
def file (interp : InterpReader) (name : String) (lx : Lexed) : Except Failure SourceFile := do
  let s ← start lx
  let (ds, endSpan) ← decls interp [] s
  .ok ⟨⟨0, Span.hull s.cur.span endSpan⟩, name, ds⟩

/-- The expression of an interpolation: the whole of its tokens. -/
def interpolation (interp : InterpReader) (lx : Lexed) : Except Failure Expr := do
  let s ← start lx
  if s.kind = .eof then .error (rejectWith "empty interpolation" s)
  else do
    let ⟨e, s1, _⟩ ← expr interp s
    if s1.kind = .eof then .ok e else .error (reject s1)

end Grammar

end Abla
