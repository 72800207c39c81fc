import Abla.Syntax.Token
import Abla.Report.Error
import Abla.Text.Letter

/-!
# The lexer

`Lexer.next` reads one token from a list of characters: blanks other than the newline are
skipped, `//` starts a comment that runs to the end of the line (the newline stays, it is a
token), and each token is the longest run of its class. Operators are read greedily, two
characters at most. A string token ends at the first quote outside `${ … }`, and a raw
newline inside it is an error. Every look at the next character can meet a failed read of
the source, which stops the lexer at once.

`tokenize` reads tokens up to and including the end token, or up to the first error.
-/

namespace Abla

/-- How a source ends: after its last character, or with a read that failed. -/
inductive Ending where
  | eof
  | fault (message : String)
  deriving DecidableEq, Repr, Inhabited

/-- The characters a reader delivers, and how it ends. -/
structure Source where
  chars : List Char
  ending : Ending := .eof
  deriving DecidableEq, Repr, Inhabited

/-- The source of a whole text that is read without fault. -/
def Source.ofString (s : String) : Source := ⟨s.toList, .eof⟩

/-- The characters of the first `n` bytes of a text's UTF-8 form, after which reading fails
with `message`. Each byte of a character that the limit cuts reads as U+FFFD. -/
def Source.truncated (s : String) (n : Nat) (message : String) : Source :=
  ⟨go s.toList 0, .fault message⟩
where
  /-- The characters that fit after `used` bytes. -/
  go : List Char → Nat → List Char
    | [], _ => []
    | c :: cs, used =>
      if used + c.utf8Size ≤ n then c :: go cs (used + c.utf8Size)
      else List.replicate (n - used) '\uFFFD'

/-- The tokens of a source up to the end token or up to the error that stopped the lexer. -/
structure Lexed where
  tokens : List Token
  stop : Option Failure
  deriving Inhabited

namespace Lexer

/-- Characters that may start an identifier. -/
def isIdentStart (c : Char) : Bool := c = '_' || isLetter c

/-- Characters that may continue an identifier. -/
def isIdentChar (c : Char) : Bool := isIdentStart c || c.isDigit

/-- Blanks that separate tokens; the newline is not one of them. -/
def isBlank (c : Char) : Bool :=
  c = '\t' || c = ' ' || c = '\r' || c = '\x0b' || c = '\x0c'

/-- Every character but the newline; a comment runs over these. -/
def notNewline (c : Char) : Bool := c != '\n'

/-- A parse error raised by the lexer, between two positions. -/
def fail (a b : Position) (message : String) : Failure :=
  .compile { kind := .parse, span := some (Span.between a b), message := message }

/-- Looking past the last character fails when the source ends with a failed read. -/
def lookPast (en : Ending) : List Char → Except Failure Unit
  | [] => match en with
    | .eof => .ok ()
    | .fault m => .error (.other m)
  | _ :: _ => .ok ()

/-- The body of a string literal after the opening quote: the raw characters up to the
closing quote, the position after it and the rest. `depth` counts the open interpolation
braces, `acc` holds the characters read so far in reverse, and `start` is the position of
the opening quote. -/
def stringBody (en : Ending) (start : Position) :
    Nat → List Char → Position → List Char → Except Failure (List Char × Position × List Char)
  | _, _, pos, [] => do
    lookPast en []
    .error (fail start pos "unclosed string literal")
  | depth, acc, pos, c :: rest =>
    if c = '\n' then .error (fail start pos "unclosed string literal")
    else if c = '\\' then
      match rest with
      | [] => do
        lookPast en []
        .error (fail start (pos.advance c) "unclosed string literal")
      | d :: rest' => stringBody en start depth (d :: c :: acc) ((pos.advance c).advance d) rest'
    else if c = '$' ∧ rest.head? = some '{' then
      stringBody en start (depth + 1) ('{' :: '$' :: acc) ((pos.advance c).advance '{') (rest.drop 1)
    else if c = '"' ∧ depth = 0 then .ok (acc.reverse, pos.advance c, rest)
    else
      let depth' := if c = '{' ∧ depth > 0 then depth + 1
        else if c = '}' ∧ depth > 0 then depth - 1 else depth
      stringBody en start depth' (c :: acc) (pos.advance c) rest
termination_by _ _ _ cs => cs.length
decreasing_by all_goals simp_wf <;> omega

theorem dropWhile_length_le {α : Type} (p : α → Bool) : ∀ l : List α, (l.dropWhile p).length ≤ l.length
  | [] => by simp
  | a :: l => by
    rw [List.dropWhile_cons]
    split
    · have := dropWhile_length_le p l
      simp only [List.length_cons]
      omega
    · simp

/-- Reads one token starting at `pos`, returning it with the position and the characters
after it. -/
def next (en : Ending) (pos : Position) : List Char → Except Failure (Token × Position × List Char)
  | [] => do
    lookPast en []
    .ok (⟨.eof, "", Span.between pos pos⟩, pos, [])
  | c :: rest =>
    if isBlank c then next en (pos.advance c) rest
    else if c = '\n' then .ok (⟨.newline, "\n", Span.between pos (pos.advance c)⟩, pos.advance c, rest)
    else if c = '/' then do
      lookPast en rest
      if rest.head? = some '/' then
        let comment := (c :: rest).takeWhile notNewline
        let after := rest.dropWhile notNewline
        lookPast en after
        next en (pos.advanceAll comment) after
      else .ok (⟨.div, "/", Span.between pos (pos.advance c)⟩, pos.advance c, rest)
    else if c = '"' then do
      let (raw, pos', rest') ← stringBody en pos 0 [] (pos.advance c) rest
      .ok (⟨.stringLit, String.ofList raw, Span.between pos pos'⟩, pos', rest')
    else if c.isDigit then do
      let digits := c :: rest.takeWhile (fun d => d.isDigit || d = '_')
      let rest' := rest.dropWhile (fun d => d.isDigit || d = '_')
      lookPast en rest'
      let pos' := pos.advanceAll digits
      if digits.getLast? = some '_' then
        .error (fail pos pos' "integer literal cannot end with `_`")
      else .ok (⟨.intLit, String.ofList digits, Span.between pos pos'⟩, pos', rest')
    else if isIdentStart c then do
      let word := c :: rest.takeWhile isIdentChar
      let rest' := rest.dropWhile isIdentChar
      lookPast en rest'
      let pos' := pos.advanceAll word
      let kind := (TokenKind.keyword? (String.ofList word)).getD .ident
      .ok (⟨kind, String.ofList word, Span.between pos pos'⟩, pos', rest')
    else
      let pos1 := pos.advance c
      if (TokenKind.symbol? [c]).isNone ∧ c ≠ '!' then .error (fail pos pos1 "unknown rune")
      else do
        lookPast en rest
        let (text, pos', rest') := match rest with
          | d :: r => if (TokenKind.symbol? [c, d]).isSome then ([c, d], pos1.advance d, r)
            else ([c], pos1, rest)
          | [] => ([c], pos1, rest)
        lookPast en rest'
        match TokenKind.symbol? text with
        | some kind => .ok (⟨kind, String.ofList text, Span.between pos pos'⟩, pos', rest')
        | none => .error (fail pos pos' "unknown rune")
termination_by cs => cs.length
decreasing_by
  all_goals simp_wf
  all_goals
    have := dropWhile_length_le notNewline rest
    omega

/-- Reads tokens from `pos` on, up to and including the end token or the first error. -/
def tokenize (en : Ending) (pos : Position) (cs : List Char) : Lexed :=
  match next en pos cs with
  | .error e => ⟨[], some e⟩
  | .ok (t, pos', rest) =>
    if t.kind = .eof then ⟨[t], none⟩
    else if rest.length < cs.length then
      let more := tokenize en pos' rest
      ⟨t :: more.tokens, more.stop⟩
    else ⟨[t], some (.compile (.internal "the lexer read a token without consuming text"))⟩
termination_by cs.length

end Lexer

/-- The tokens of a source read from its start. -/
def Source.tokens (src : Source) : Lexed := Lexer.tokenize src.ending ⟨0, 0⟩ src.chars

end Abla
