import Abla.Text.Quoted
import Abla.Text.Format

/-!
# Reading TOML: tokens

Project profiles are TOML files. The lexer is a state machine over the characters of the
text: between statements it reads keys, table headers and comments; after an `=` or inside an
array it reads values: strings in their four forms, integers (decimal, `0x`, `0o`, `0b`),
floats, `inf` and `nan`, booleans, dates and times, arrays and inline tables. Every token
records the line and column where it starts, from one; a string token starts after its opening
quotes.

A date is `YYYY-MM-DD`, and may be followed by a time after a `T` or after a blank that two
digits follow; a time is `HH:MM:SS` with an optional fraction, and after a date it may have an
offset, `Z` or `±HH:MM`. A date, a time and an offset are three tokens. A date must be followed
by the end, a blank or a `T`.

A malformed text ends the tokens with an error token, placed at the start of the token being
read, whose text says what is wrong: `unclosed string`, `no value can start with x`,
`keys cannot contain new lines` and so on.
-/

namespace Abla

namespace Toml

/-- A position in a text: line and column, both from one. -/
structure Pos where
  line : Nat
  col : Nat
  deriving DecidableEq, Repr, Inhabited

/-- A position as messages show it: `(LINE, COL)`. -/
def Pos.text (p : Pos) : String := "(" ++ toString p.line ++ ", " ++ toString p.col ++ ")"

/-- The kinds of tokens. -/
inductive Kind where
  | error | eof | key | string | integer | trueLit | falseLit | float | inf | nan
  | equal | lbracket | rbracket | lcurly | rcurly | dlbracket | drbracket
  | localDate | localTime | timeOffset | keyGroup | keyGroupArray | comma
  deriving DecidableEq, Repr, Inhabited

/-- How messages name a kind of token. -/
def Kind.name : Kind → String
  | .error => "Error"
  | .eof => "EOF"
  | .key => "Key"
  | .string => "String"
  | .integer => "Integer"
  | .trueLit => "True"
  | .falseLit => "False"
  | .float => "Float"
  | .inf => "Inf"
  | .nan => "NaN"
  | .equal => "="
  | .lbracket => "["
  | .rbracket => "]"
  | .lcurly => "\x7b"
  | .rcurly => "\x7d"
  | .dlbracket => "]]"
  | .drbracket => "[["
  | .localDate => "LocalDate"
  | .localTime => "LocalTime"
  | .timeOffset => "TimeOffset"
  | .keyGroup => "KeyGroup"
  | .keyGroupArray => "KeyGroupArray"
  | .comma => ","

/-- A token: its kind, its text and where it starts. -/
structure Token where
  kind : Kind
  value : String
  pos : Pos
  deriving Repr, Inhabited

/-- How messages show a token: `EOF`, the message of an error, or the quoted text. -/
def Token.text (t : Token) : String :=
  match t.kind with
  | .eof => "EOF"
  | .error => t.value
  | _ => quote t.value

/-- Blanks inside a line. -/
def isSpace (c : Char) : Bool := c = ' ' || c = '\t'

/-- Decimal digits. -/
def isDigit (c : Char) : Bool := '0' ≤ c && c ≤ '9'

/-- Hexadecimal digits. -/
def isHexDigit (c : Char) : Bool := isDigit c || ('a' ≤ c && c ≤ 'f') || ('A' ≤ c && c ≤ 'F')

/-- Characters of a bare key: ASCII letters and digits, `_` and `-`. -/
def isBareChar (c : Char) : Bool :=
  ('a' ≤ c && c ≤ 'z') || ('A' ≤ c && c ≤ 'Z') || c = '_' || c = '-' || isDigit c

/-- Characters that may start a key: all but blanks, line ends and `[`. -/
def isKeyStart (c : Char) : Bool := !(isSpace c || c = '\r' || c = '\n' || c = '[')

/-- Uppercase hexadecimal digits of a number, at least `width` of them. -/
def hexUpper (n width : Nat) : String :=
  let ds := Nat.toDigits 16 n |>.map Char.toUpper
  String.ofList (List.replicate (width - ds.length) '0' ++ ds)

/-- The character with a code point, or U+FFFD when there is none. -/
def charOf (n : Nat) : Char := if n.isValidChar then Char.ofNat n else '�'

/-- The lexer's position in the text. -/
structure Cursor where
  rest : List Char
  /-- Where the next character is. -/
  pos : Pos
  /-- Where the token being read starts. -/
  start : Pos
  /-- The characters of the token being read, last first. -/
  taken : List Char := []
  toks : Array Token := #[]
  /-- The open brackets and braces, innermost first. -/
  brackets : List Char := []
  deriving Inhabited

namespace Cursor

/-- The next character. -/
def peek (c : Cursor) : Option Char := c.rest.head?

/-- Whether the text goes on with the given characters. -/
def follows (c : Cursor) (s : List Char) : Bool := s.isPrefixOf c.rest

/-- Moves past one character; at the end only the column moves. -/
def next (c : Cursor) : Cursor :=
  match c.rest with
  | [] => { c with pos := { c.pos with col := c.pos.col + 1 } }
  | ch :: r =>
    { c with rest := r, taken := ch :: c.taken,
             pos := if ch = '\n' then ⟨c.pos.line + 1, 1⟩ else { c.pos with col := c.pos.col + 1 } }

/-- Moves past `n` characters. -/
def forward (c : Cursor) : Nat → Cursor
  | 0 => c
  | n + 1 => (c.next).forward n

/-- Starts a new token at the current position. -/
def ignore (c : Cursor) : Cursor := { c with start := c.pos, taken := [] }

/-- Moves past one character that belongs to no token. -/
def skip (c : Cursor) : Cursor := c.next.ignore

/-- Adds a token with the given text at the start of the token being read. -/
def emitWith (c : Cursor) (k : Kind) (v : String) : Cursor :=
  { c with toks := c.toks.push ⟨k, v, c.start⟩ }.ignore

/-- Adds a token made of the characters read since its start. -/
def emit (c : Cursor) (k : Kind) : Cursor := c.emitWith k (String.ofList c.taken.reverse)

/-- Ends the tokens with an error. -/
def fail (c : Cursor) (message : String) : Cursor :=
  { c with toks := c.toks.push ⟨.error, message, c.start⟩ }

/-- Ends the tokens with an error found in the body of a string. Such a message is read once
more as a template with no arguments, so a `%` in it, as in the escape `\%`, becomes a
directive: `invalid escape sequence: \%!(NOVERB)`. -/
def failInString (c : Cursor) (message : String) : Cursor := c.fail (expandTemplate message)

/-- The innermost open bracket. -/
def top (c : Cursor) : Option Char := c.brackets.head?

end Cursor

/-- Moves past characters while they satisfy `p`. -/
def skipWhile (p : Char → Bool) (c : Cursor) : Nat → Cursor
  | 0 => c
  | n + 1 =>
    match c.peek with
    | some ch => if p ch then skipWhile p c.next n else c
    | none => c

/-- Reads `n` hexadecimal digits of an escape. -/
def hexDigits (c : Cursor) : Nat → Except String (List Char × Cursor)
  | 0 => .ok ([], c)
  | n + 1 =>
    match c.peek with
    | some ch =>
      if isHexDigit ch then do
        let (ds, c') ← hexDigits c.next n
        .ok (ch :: ds, c')
      else .error "unfinished unicode escape"
    | none => .error "unfinished unicode escape"

/-- The value of hexadecimal digits. -/
def hexValue (ds : List Char) : Nat :=
  ds.foldl (fun n d =>
    n * 16 + (if isDigit d then d.toNat - '0'.toNat
      else if 'a' ≤ d && d ≤ 'f' then d.toNat - 'a'.toNat + 10 else d.toNat - 'A'.toNat + 10)) 0

/-- Reads the body of a basic string up to its terminator, which is left unread. Escapes are
replaced; raw control characters other than the tab are refused, and so are raw newlines
unless the string is multi-line. -/
def basicBody (term : List Char) (multi : Bool) (c : Cursor) (acc : String) :
    Nat → Except String (String × Cursor)
  | 0 => .error "unclosed string"
  | fuel + 1 =>
    if c.follows term then .ok (acc, c)
    else do
      let (acc, c) ← if c.follows ['\\'] then
          let c := c.next
          match c.peek with
          | some '\r' | some '\n' | some '\t' | some ' ' =>
            .ok (acc, skipWhile (fun ch => ch = '\r' || ch = '\n' || ch = '\t' || ch = ' ') c c.rest.length)
          | some '"' => .ok (acc.push '"', c.next)
          | some 'n' => .ok (acc.push '\n', c.next)
          | some 'b' => .ok (acc.push (Char.ofNat 8), c.next)
          | some 'f' => .ok (acc.push (Char.ofNat 12), c.next)
          | some '/' => .ok (acc.push '/', c.next)
          | some 't' => .ok (acc.push '\t', c.next)
          | some 'r' => .ok (acc.push '\r', c.next)
          | some '\\' => .ok (acc.push '\\', c.next)
          | some 'u' => do
            let (ds, c') ← hexDigits c.next 4
            .ok (acc.push (charOf (hexValue ds)), c')
          | some 'U' => do
            let (ds, c') ← hexDigits c.next 8
            .ok (acc.push (charOf (hexValue ds)), c')
          | some ch => .error ("invalid escape sequence: \\" ++ String.singleton ch)
          | none => .error "invalid escape sequence: \\�"
        else
          match c.peek with
          | some ch =>
            if ch.toNat ≤ 0x1F && ch ≠ '\t' && !(multi && (ch = '\n' || ch = '\r')) then
              .error ("unescaped control character U+" ++ hexUpper ch.toNat 4)
            else .ok (acc.push ch, c.next)
          | none => .ok (acc.push '�', c.next)
      if c.peek.isNone then .error "unclosed string"
      else basicBody term multi c acc fuel

/-- Reads the body of a literal string up to its terminator, which is left unread. -/
def literalBody (term : List Char) (c : Cursor) (acc : String) : Nat → Except String (String × Cursor)
  | 0 => .error "unclosed string"
  | fuel + 1 =>
    if c.follows term then .ok (acc, c)
    else match c.peek with
      | some ch => literalBody term c.next (acc.push ch) fuel
      | none => .error "unclosed string"

/-- Drops the newline that directly follows the opening of a multi-line string. -/
def dropLeadingNewline (c : Cursor) : Cursor :=
  if c.follows ['\r', '\n'] then c.skip.skip
  else if c.peek = some '\n' then c.skip else c

/-- The states of the lexer. -/
inductive State where
  | void | key | rvalue | equal
  /-- A comment, then back to values or to statements. -/
  | comment (toValue : Bool)
  | string | literal | tableKey | insideTable | insideArrayTable
  | number | dateOrNumber | lbracket | rbracket | lcurly | rcurly | comma
  | trueLit | falseLit | inf | nan
  deriving DecidableEq, Repr, Inhabited

/-- Reads a key: bare parts, quoted parts, and dots with blanks around them. -/
def keyBody (c : Cursor) (acc : String) : Nat → Cursor × Option State
  | 0 => (c.emitWith .key acc, some .void)
  | fuel + 1 =>
    match c.peek with
    | none | some '=' => (c.emitWith .key acc, some .void)
    | some '"' =>
      match basicBody ['"'] true c.next "" c.rest.length with
      | .error m => (c.failInString m, none)
      | .ok (s, c') => keyBody c'.next (acc ++ "\"" ++ s ++ "\"") fuel
    | some '\'' =>
      match literalBody ['\''] c.next "" c.rest.length with
      | .error m => (c.failInString m, none)
      | .ok (s, c') => keyBody c'.next (acc ++ "'" ++ s ++ "'") fuel
    | some '\n' => (c.fail "keys cannot contain new lines", none)
    | some ch =>
      if isSpace ch then
        let c1 := c.next
        let blanks := c1.rest.takeWhile isSpace
        let c2 := skipWhile isSpace c1 c1.rest.length
        if c2.peek ≠ some '.' then (c2.emitWith .key acc, some .void)
        else
          let c3 := c2.next
          let blanks2 := c3.rest.takeWhile isSpace
          let c4 := skipWhile isSpace c3 c3.rest.length
          keyBody c4 (acc ++ " " ++ String.ofList blanks ++ "." ++ String.ofList blanks2) fuel
      else if ch = '.' || isBareChar ch then keyBody c.next (acc.push ch) fuel
      else (c.fail ("keys cannot contain " ++ String.singleton ch ++ " character"), none)

/-- Reads a table header's key up to `]`. -/
def tableBody (c : Cursor) : Nat → Cursor × Option State
  | 0 => (c.fail "unclosed table key", none)
  | fuel + 1 =>
    match c.peek with
    | some ']' =>
      let c := if c.taken.isEmpty then c else c.emit .keyGroup
      ((c.next).emit .rbracket, some .void)
    | some '[' => (c.fail "table key cannot contain ']'", none)
    | some _ => tableBody c.next fuel
    | none => (c.fail "unclosed table key", none)

/-- Reads an array-of-tables header's key up to `]]`. -/
def arrayTableBody (c : Cursor) : Nat → Cursor × Option State
  | 0 => (c.fail "unclosed table array key", none)
  | fuel + 1 =>
    match c.peek with
    | some ']' =>
      let c := if c.taken.isEmpty then c else c.emit .keyGroupArray
      let c := c.next
      if c.peek ≠ some ']' then arrayTableBody c fuel
      else ((c.next).emit .drbracket, some .void)
    | some '[' => (c.fail "table array key cannot contain ']'", none)
    | some _ => arrayTableBody c.next fuel
    | none => (c.fail "unclosed table array key", none)

/-- Reads the digits of an integer in base 16, 8 or 2 after its prefix. -/
def baseDigits (ok : Char → Bool) (c : Cursor) (seen : Bool) : Nat → Cursor × Bool
  | 0 => (c, seen)
  | fuel + 1 =>
    match c.peek with
    | some ch => if ok ch then baseDigits ok c.next true fuel else (c, seen)
    | none => (c, seen)

/-- Reads the body of a decimal integer or float. -/
def decimalBody (c : Cursor) (point exp digit : Bool) : Nat → Except (Cursor × String) (Cursor × Bool × Bool)
  | 0 => .ok (c, point || exp, digit)
  | fuel + 1 => do
    let (c, point, exp, digit, stop) ← match c.peek with
      | some '.' =>
        if point then .error (c, "cannot have two dots in one float")
        else
          let c := c.next
          if !(c.peek.map isDigit).getD false then .error (c, "float cannot end with a dot")
          else .ok (c, true, exp, digit, false)
      | some 'e' | some 'E' =>
        let c := c.next
        let c := if c.peek = some '+' || c.peek = some '-' then c.next else c
        .ok (c, point, true, digit, false)
      | some '_' => .ok (c.next, point, exp, digit, false)
      | some ch => if isDigit ch then .ok (c.next, point, exp, true, false) else .ok (c, point, exp, digit, true)
      | none => .ok (c, point, exp, digit, true)
    if stop then .ok (c, point || exp, digit)
    else if point && !digit then .error (c, "cannot start float with a dot")
    else decimalBody c point exp digit fuel

/-- Reads a number. -/
def number (c : Cursor) : Cursor × Option State :=
  let based : Option (Char → Bool) :=
    if c.peek = some '0' then
      match c.rest with
      | _ :: 'x' :: _ => some (fun ch => isHexDigit ch || ch = '_')
      | _ :: 'o' :: _ => some (fun ch => '0' ≤ ch && ch ≤ '7' || ch = '_')
      | _ :: 'b' :: _ => some (fun ch => ch = '0' || ch = '1' || ch = '_')
      | _ => none
    else none
  let badBase : Option Char :=
    if c.peek = some '0' then
      match c.rest with
      | _ :: b :: _ =>
        if (b ≠ 'x' && b ≠ 'o' && b ≠ 'b') && (('a' ≤ b && b ≤ 'z') || ('A' ≤ b && b ≤ 'Z')) then some b
        else none
      | _ => none
    else none
  match badBase, based with
  | some b, _ =>
    (c.fail ("unknown number base: " ++ String.singleton b ++
      ". possible options are x (hex) o (octal) b (binary)"), none)
  | none, some ok =>
    let (c', seen) := baseDigits ok (c.next.next) false c.rest.length
    if !seen then (c'.fail "number needs at least one digit", none)
    else (c'.emit .integer, some .rvalue)
  | none, none =>
    let signed := c.peek = some '+' || c.peek = some '-'
    let c := if signed then c.next else c
    if signed && c.follows "inf".toList then (c, some .inf)
    else if signed && c.follows "nan".toList then (c, some .nan)
    else
      match decimalBody c false false false c.rest.length with
      | .error (c', m) => (c'.fail m, none)
      | .ok (c', isFloat, digit) =>
        if !digit then (c'.fail "no digit in that number", none)
        else (c'.emit (if isFloat then .float else .integer), some .rvalue)

/-- The next character as a message names it; U+FFFD at the end. -/
def Cursor.shown (c : Cursor) : String := String.singleton (c.peek.getD '�')

/-- Whether the next character is a digit. -/
def Cursor.atDigit (c : Cursor) : Bool := (c.peek.map isDigit).getD false

/-- Reads `n` digits; another character ends the tokens with `what` and that character. -/
def Cursor.digits (c : Cursor) (what : String) : Nat → Except Cursor Cursor
  | 0 => .ok c
  | n + 1 => if c.atDigit then c.next.digits what n else .error (c.fail (what ++ c.shown))

/-- Reads a separator; another character ends the tokens with `what` and that character. -/
def Cursor.separator (c : Cursor) (ch : Char) (what : String) : Except Cursor Cursor :=
  if c.peek = some ch then .ok c.next else .error (c.fail (what ++ c.shown))

/-- Reads the fraction of a time, if a `.` comes next: at least one digit. -/
def Cursor.fraction (c : Cursor) : Except Cursor Cursor :=
  if c.peek = some '.' then
    let c := c.next
    if c.atDigit then .ok (skipWhile isDigit c c.rest.length)
    else .error (c.fail ("expected at least one digit in time's fraction, not " ++ c.shown))
  else .ok c

/-- Reads the minutes, seconds and fraction of a time after its `HH:`. -/
def Cursor.minutesOn (c : Cursor) : Except Cursor Cursor := do
  let c ← c.digits "invalid minute digit in time: " 2
  let c ← c.separator ':' "time minute/second separator should be :, not "
  let c ← c.digits "invalid second digit in time: " 2
  c.fraction

/-- Reads the offset of a time, if one comes next. -/
def Cursor.offset (c : Cursor) : Except Cursor Cursor :=
  match c.peek with
  | some 'Z' => .ok (c.next.emit .timeOffset)
  | some '+' | some '-' => do
    let c ← c.next.digits "invalid hour digit in time offset: " 2
    let c ← c.separator ':' "time offset hour/minute separator should be :, not "
    let c ← c.digits "invalid minute digit in time offset: " 2
    .ok (c.emit .timeOffset)
  | _ => .ok c

/-- Reads the time after a date and its separator, and its offset. -/
def Cursor.timeAfterDate (c : Cursor) : Except Cursor Cursor := do
  let c ← c.digits "invalid hour digit in time: " 2
  let c ← c.separator ':' "time hour/minute separator should be :, not "
  let c ← c.minutesOn
  (c.emit .localTime).offset

/-- Reads a date from the `-` after its year, and what follows it. -/
def Cursor.dateOn (c : Cursor) : Except Cursor Cursor := do
  let c ← c.digits "invalid month digit in date: " 2
  let c ← c.separator '-' "expected - to separate month of a date, not "
  let c ← c.digits "invalid day digit in date: " 2
  let c := c.emit .localDate
  match c.rest with
  | [] => .ok c
  | ' ' :: d1 :: d2 :: _ => if isDigit d1 && isDigit d2 then c.skip.timeAfterDate else .ok c
  | ' ' :: _ => .ok c
  | 'T' :: _ => c.skip.timeAfterDate
  | ch :: _ => .error (c.fail ("incorrect date/time separation character: " ++ String.singleton ch))

/-- Reads a date or a time, which starts with two digits: a `:` after them makes it a time. -/
def dateTime (c : Cursor) : Cursor × Option State :=
  let c := c.forward 2
  let read := if c.peek = some ':' then (c.next.minutesOn).map (·.emit .localTime)
    else (c.forward 3).dateOn
  match read with
  | .ok c => (c, some .rvalue)
  | .error c => (c, none)

/-- Moves to the end of a comment's line, before its `\n` or `\r\n`. -/
def commentBody (c : Cursor) : Nat → Cursor
  | 0 => c
  | fuel + 1 =>
    match c.rest with
    | '\n' :: _ | '\r' :: '\n' :: _ | [] => c
    | _ :: _ => commentBody c.next fuel

/-- One step of the lexer: reads in a state and gives the next state, or none at the end. -/
def step (c : Cursor) : State → Cursor × Option State
  | .void =>
    match c.peek with
    | some '\x7d' => (c, some .rcurly)
    | some '[' => (c, some .tableKey)
    | some '#' => (c, some (.comment false))
    | some '=' => (c, some .equal)
    | some '\r' | some '\n' => (c.skip, some .void)
    | some ch =>
      if isSpace ch then (c.skip, some .void)
      else if isKeyStart ch then (c, some .key)
      else ((c.next).emit .eof, none)
    | none => ((c.next).emit .eof, none)
  | .key => keyBody c "" (c.rest.length + 1)
  | .equal => ((c.next).emit .equal, some .rvalue)
  | .comment toValue => ((commentBody c c.rest.length).ignore, some (if toValue then .rvalue else .void))
  | .string =>
    let c := c.skip
    let (c, term, multi) := if c.follows ['"', '"'] then (c.skip.skip, ['"', '"', '"'], true)
      else (c, ['"'], false)
    let c := if multi then dropLeadingNewline c else c
    match basicBody term multi c "" (c.rest.length + 1) with
    | .error m => (c.failInString m, none)
    | .ok (s, c') => (((c'.emitWith .string s).forward term.length).ignore, some .rvalue)
  | .literal =>
    let c := c.skip
    let (c, term, multi) := if c.follows ['\'', '\''] then (c.skip.skip, ['\'', '\'', '\''], true)
      else (c, ['\''], false)
    let c := if multi then dropLeadingNewline c else c
    match literalBody term c "" (c.rest.length + 1) with
    | .error m => (c.failInString m, none)
    | .ok (s, c') => (((c'.emitWith .string s).forward term.length).ignore, some .rvalue)
  | .tableKey =>
    let c := c.next
    if c.peek = some '[' then ((c.next).emit .dlbracket, some .insideArrayTable)
    else (c.emit .lbracket, some .insideTable)
  | .insideTable => tableBody c (c.rest.length + 1)
  | .insideArrayTable => arrayTableBody c (c.rest.length + 1)
  | .lbracket =>
    let c := (c.next).emit .lbracket
    ({ c with brackets := '[' :: c.brackets }, some .rvalue)
  | .rbracket =>
    let c := (c.next).emit .rbracket
    if c.top ≠ some '[' then (c.fail "cannot have ']' here", none)
    else ({ c with brackets := c.brackets.drop 1 }, some .rvalue)
  | .lcurly =>
    let c := (c.next).emit .lcurly
    ({ c with brackets := '\x7b' :: c.brackets }, some .void)
  | .rcurly =>
    let c := (c.next).emit .rcurly
    if c.top ≠ some '\x7b' then (c.fail "cannot have '\x7d' here", none)
    else ({ c with brackets := c.brackets.drop 1 }, some .rvalue)
  | .comma =>
    let c := (c.next).emit .comma
    (c, some (if c.top = some '\x7b' then .void else .rvalue))
  | .trueLit => ((c.forward 4).emit .trueLit, some .rvalue)
  | .falseLit => ((c.forward 5).emit .falseLit, some .rvalue)
  | .inf => ((c.forward 3).emit .inf, some .rvalue)
  | .nan => ((c.forward 3).emit .nan, some .rvalue)
  | .number => number c
  | .dateOrNumber =>
    let ahead := c.rest.take 5
    if ahead.length < 3 then (c, some .number)
    else
      match (List.range ahead.length).zip ahead |>.find? (fun (_, ch) => !isDigit ch) with
      | some (2, ':') | some (4, '-') => dateTime c
      | _ => (c, some .number)
  | .rvalue =>
    match c.peek with
    | some '.' => (c.fail "cannot start float with a dot", none)
    | some '=' => (c, some .equal)
    | some '[' => (c, some .lbracket)
    | some ']' => (c, some .rbracket)
    | some '\x7b' => (c, some .lcurly)
    | some '\x7d' => (c, some .rcurly)
    | some '#' => (c, some (.comment true))
    | some '"' => (c, some .string)
    | some '\'' => (c, some .literal)
    | some ',' => (c, some .comma)
    | some '\r' | some '\n' => (c.skip, some (if c.top = some '[' then .rvalue else .void))
    | some ch =>
      if c.follows "true".toList then (c, some .trueLit)
      else if c.follows "false".toList then (c, some .falseLit)
      else if c.follows "inf".toList then (c, some .inf)
      else if c.follows "nan".toList then (c, some .nan)
      else if isSpace ch then (c.skip, some .rvalue)
      else if ch = '+' || ch = '-' then (c, some .number)
      else if isDigit ch then (c, some .dateOrNumber)
      else (c.fail ("no value can start with " ++ String.singleton ch), none)
    | none => ((c.next).emit .eof, none)

/-- Runs the lexer from a state for at most `fuel` steps. -/
def run (c : Cursor) (st : State) : Nat → Array Token
  | 0 => c.toks
  | fuel + 1 =>
    match step c st with
    | (c', some st') => run c' st' fuel
    | (c', none) => c'.toks

/-- The tokens of a TOML text, ending with the end token or an error token. A leading byte
order mark is ignored. -/
def tokenize (s : String) : Array Token :=
  let cs := match s.toList with
    | '﻿' :: rest => rest
    | cs => cs
  run { rest := cs, pos := ⟨1, 1⟩, start := ⟨1, 1⟩ } .void (4 * cs.length + 16)

end Toml

end Abla
