import Abla.Toml.Tree

/-!
# Reading TOML: statements

The reader takes the tokens of a document statement by statement: `key = value` assigns in
the current table, `[a.b]` opens a table and `[[a.b]]` adds a table to an array of tables.
A key is assigned once per table and a table header appears once. Values are strings,
signed 64-bit integers, binary64 floats (rounded to nearest, ties to even), booleans, dates and
times, arrays and inline tables; an array whose items are all inline tables is an array of
tables.

An error is reported as `(LINE, COL): message`, at the token where reading failed.
-/

namespace Abla

namespace Toml

/-- Splits a key into its parts: bare parts and quoted parts separated by dots, with blanks
around the dots. -/
def keyParts (cs : List Char) (acc : List String) : Nat → Except String (List String)
  | 0 => if acc.isEmpty then .error "empty key" else .ok acc.reverse
  | fuel + 1 =>
    let cs := cs.dropWhile isSpace
    match cs with
    | [] => if acc.isEmpty then .error "empty key" else .ok acc.reverse
    | c :: rest =>
      if isBareChar c then
        let part := c :: rest.takeWhile isBareChar
        let after := rest.dropWhile isBareChar
        match after with
        | [] => keyParts [] (String.ofList part :: acc) fuel
        | '.' :: _ => keyParts after (String.ofList part :: acc) fuel
        | d :: _ =>
          if isSpace d then
            let after' := after.dropWhile isSpace
            match after' with
            | [] | '.' :: _ => keyParts after' (String.ofList part :: acc) fuel
            | e :: _ => .error ("invalid key character after whitespace: " ++ String.singleton e)
          else .error ("invalid bare key character: " ++ String.singleton d)
      else if c = '\'' || c = '"' then
        match rest.findIdx? (· = c) with
        | some i => keyParts (rest.drop (i + 1)) (String.ofList (rest.take i) :: acc) fuel
        | none => .error (if c = '\'' then "unclosed single-quoted key" else "unclosed double-quoted key")
      else if c = '.' then
        match rest with
        | [] => .error "unexpected end of key"
        | d :: _ =>
          if isBareChar d || d = '\'' || d = '"' || d = ' ' then keyParts rest acc fuel
          else .error "expecting key part after dot"
      else .error ("invalid key character: " ++ String.singleton c)

/-- The parts of a key. -/
def parseKey (key : String) : Except String (List String) :=
  if key.isEmpty then .error "empty key" else keyParts key.toList [] (key.length + 1)

/-- Whether the underscores of a number each stand between digits, where `digit` tells the
digits of its base. -/
def underscoresOk (digit : Char → Bool) (cs : List Char) : Bool :=
  let rec go : List Char → Bool → Bool
    | [], _ => true
    | '_' :: rest, before => before && !rest.isEmpty && go rest false
    | c :: rest, _ => go rest (digit c)
  go cs false

/-- The value of digits in a base, if they are all digits of it. -/
def digitsValue (base : Nat) (cs : List Char) : Option Nat :=
  cs.foldlM (fun n c =>
    let d := if isDigit c then c.toNat - '0'.toNat
      else if 'a' ≤ c && c ≤ 'z' then c.toNat - 'a'.toNat + 10
      else if 'A' ≤ c && c ≤ 'Z' then c.toNat - 'A'.toNat + 10 else base
    if d < base then some (n * base + d) else none) 0

/-- Reads an integer token as a signed 64-bit integer. A prefix `0x`, `0o` or `0b` gives the
base; any other integer of three or more characters that starts with `0` is refused as a
base the lexer should have caught, with no position. -/
def readInteger (text : String) : Except (Option String) Node :=
  let cleaned := text.toList.filter (· ≠ '_')
  let (base, digits) := match cleaned with
    | '0' :: b :: r@(_ :: _) =>
      if b = 'x' then (some 16, r) else if b = 'o' then (some 8, r)
      else if b = 'b' then (some 2, r) else (none, cleaned)
    | r => (some 10, r)
  match base with
  | none => .error none
  | some base =>
    let ok := if base = 16 then underscoresOk isHexDigit text.toList else underscoresOk isDigit text.toList
    if !ok then
      .error (some (if base = 16 then "invalid use of _ in hex number" else "invalid use of _ in number"))
    else
      let shown := quote (String.ofList digits)
      let (neg, body) := match digits with
        | '-' :: r => (true, r)
        | '+' :: r => (false, r)
        | r => (false, r)
      match (if body.isEmpty then none else digitsValue base body) with
      | none => .error (some ("strconv.ParseInt: parsing " ++ shown ++ ": invalid syntax"))
      | some n =>
        if (neg && n ≤ Nat.pow 2 63) || (!neg && n < Nat.pow 2 63) then .ok (.int (if neg then -(n : Int) else n))
        else .error (some ("strconv.ParseInt: parsing " ++ shown ++ ": value out of range"))

/-- Reads a float token: an optional sign, digits with an optional point, and an optional
exponent. The value is the binary64 value nearest to the decimal; one too large for binary64
is out of range. -/
def readFloat (text : String) : Except String Node :=
  if !underscoresOk isDigit text.toList then .error "invalid use of _ in number"
  else
    let cs := text.toList.filter (· ≠ '_')
    let shown := quote (String.ofList cs)
    let bad : Except String Node := .error ("strconv.ParseFloat: parsing " ++ shown ++ ": invalid syntax")
    let (neg, body) := match cs with
      | '-' :: r => (true, r)
      | '+' :: r => (false, r)
      | r => (false, r)
    let mant := body.takeWhile (fun c => c ≠ 'e' && c ≠ 'E')
    let expPart := body.drop (mant.length + 1)
    let intPart := mant.takeWhile (· ≠ '.')
    let frac := mant.drop (intPart.length + 1)
    let expVal : Option Int := if mant.length = body.length then some 0
      else match expPart with
        | '-' :: ds => if ds.isEmpty || !ds.all isDigit then none else (digitsValue 10 ds).map fun n => -(n : Int)
        | '+' :: ds => if ds.isEmpty || !ds.all isDigit then none else (digitsValue 10 ds).map fun n => (n : Int)
        | ds => if ds.isEmpty || !ds.all isDigit then none else (digitsValue 10 ds).map fun n => (n : Int)
    let dotted := mant.length > intPart.length
    if (intPart.isEmpty && frac.isEmpty) || !intPart.all isDigit || !frac.all isDigit ||
        (dotted && frac.any (· = '.')) then bad
    else match expVal, digitsValue 10 (intPart ++ frac) with
      | some e, some digits =>
        match FloatFormat.binary64.ofDecimal neg digits (e - frac.length) with
        | .inf _ => .error ("strconv.ParseFloat: parsing " ++ shown ++ ": value out of range")
        | x => .ok (.float x)
      | _, _ => bad

/-- Why a document could not be read: an error with its message, or a value token that no
value starts with (a closing bracket or brace, or a comma), which the reader does not handle
and which ends the program with a fault. -/
inductive ReadError where
  | invalid (message : String)
  | unhandled (token : String)
  deriving Repr, DecidableEq, Inhabited

/-- The message of the fault an unhandled token causes: the reader's recovery expects a text
and finds an error value. -/
def faultMessage : String := "interface conversion: interface \x7b\x7d is *errors.errorString, not string"

/-- The state of the reader. -/
structure Reader where
  toks : Array Token
  idx : Nat := 0
  tree : Node := .table ⟨1, 1⟩ false []
  current : List String := []
  seen : List String := []
  deriving Inhabited

/-- Reading may fail with a message. -/
abbrev R := ExceptT ReadError (StateM Reader)

/-- Fails at a token. -/
def raise {α : Type} (t : Token) (message : String) : R α :=
  throw (.invalid (t.pos.text ++ ": " ++ message))

/-- The token past the end: the last token, which ends every token list. -/
def lastTok (r : Reader) : Token := r.toks.back?.getD ⟨.eof, "", ⟨0, 0⟩⟩

/-- The next token, if any. -/
def peekTok : R (Option Token) := return (← get).toks[(← get).idx]?

/-- Takes the next token; past the end, the last one. -/
def takeTok : R Token := do
  let r ← get
  set { r with idx := r.idx + 1 }
  pure (r.toks[r.idx]?.getD (lastTok r))

/-- Takes a token of a given kind. -/
def expect (k : Kind) : R Unit := do
  let t ← takeTok
  if t.kind ≠ k then raise t ("was expecting token " ++ k.name ++ ", but got " ++ t.text ++ " instead")

/-- Whether a token is a comma. -/
def isComma : Option Token → Bool
  | some t => t.kind = .comma
  | none => false

mutual

/-- Reads a value. -/
def value : Nat → R Node
  | 0 => do raise (lastTok (← get)) "expecting a value"
  | fuel + 1 => do
    let t ← takeTok
    match t.kind with
    | .eof => raise t "expecting a value"
    | .string => pure (.str t.value)
    | .trueLit => pure (.bool true)
    | .falseLit => pure (.bool false)
    | .inf => pure (.float (.inf (t.value.startsWith "-")))
    | .nan => pure (.float .nan)
    | .integer =>
      match readInteger t.value with
      | .ok v => pure v
      | .error (some m) => raise t m
      | .error none => throw (.invalid "invalid base")
    | .float =>
      match readFloat t.value with
      | .ok v => pure v
      | .error m => raise t m
    | .localDate => do
      let stamp ← match ← peekTok with
        | some { kind := .localTime, value := time, .. } => do
          let _ ← takeTok
          match ← peekTok with
          | some { kind := .timeOffset, value := offset, .. } => do
            let _ ← takeTok
            pure (readMoment t.value time offset)
          | _ => pure (readDateClock t.value time)
        | _ => pure (readDate t.value)
      match stamp with
      | .ok s => pure (.stamp s)
      | .error m => raise t m
    | .localTime =>
      match readClock t.value with
      | .ok s => pure (.stamp s)
      | .error m => raise t m
    | .lbracket => array fuel []
    | .lcurly => inlineTable fuel (.table ⟨0, 0⟩ false []) none
    | .equal => raise t "cannot have multiple equals for the same key"
    | .error => raise t t.text
    | _ => throw (.unhandled t.text)

/-- Reads the items of an array after its `[`. -/
def array : Nat → List Node → R Node
  | 0, _ => do raise (lastTok (← get)) "unterminated array"
  | fuel + 1, items => do
    let some f ← peekTok | raise (lastTok (← get)) "unterminated array"
    if f.kind = .eof then raise f "unterminated array"
    if f.kind = .rbracket then
      let _ ← takeTok
      if !items.isEmpty && items.all Node.isTable then pure (.tables items.reverse)
      else pure (.array items.reverse)
    else
      let v ← value fuel
      let some f ← peekTok | raise (lastTok (← get)) "unterminated array"
      if f.kind = .eof then raise f "unterminated array"
      if f.kind ≠ .rbracket && f.kind ≠ .comma then raise f "missing comma"
      if f.kind = .comma then
        let _ ← takeTok
      array fuel (v :: items)

/-- Reads the fields of an inline table after its opening brace. -/
def inlineTable : Nat → Node → Option Token → R Node
  | 0, _, _ => do raise (lastTok (← get)) "unterminated inline table"
  | fuel + 1, tree, previous => do
    let some f ← peekTok | raise (lastTok (← get)) "unterminated inline table"
    match f.kind with
    | .eof => raise f "unterminated inline table"
    | .rcurly =>
      let _ ← takeTok
      if isComma previous then
        match previous with
        | some p => raise p "trailing comma at the end of inline table"
        | none => pure tree
      else
        match tree with
        | .table p _ es => pure (.table p true es)
        | other => pure other
    | .key | .integer | .string =>
      if !isComma previous && previous.isSome then
        raise f "comma expected between fields in inline table"
      let key ← takeTok
      expect .equal
      let parts ← match parseKey key.value with
        | .ok ps => pure ps
        | .error m => raise key ("invalid key: " ++ m)
      let v ← value fuel
      inlineTable fuel (tree.setPath v ⟨0, 0⟩ 0 parts) (some f)
    | .comma =>
      if isComma previous then raise f "need field between two commas in inline table"
      let _ ← takeTok
      inlineTable fuel tree (some f)
    | _ => raise f ("unexpected token type in inline table: " ++ f.text)

end

/-- Reads an `[[key]]` header. -/
def groupArray : R Unit := do
  let start ← takeTok
  let key ← takeTok
  if key.kind ≠ .keyGroupArray then
    raise key ("unexpected token " ++ key.text ++ ", was expecting a table array key")
  let keys ← match parseKey key.value with
    | .ok ks => pure ks
    | .error m => raise key ("invalid table array key: " ++ m)
  let r ← get
  let tree := match r.tree.createPath keys start.pos keys.dropLast with
    | .ok t => t
    | .error _ => r.tree
  let arr ← match tree.getPath keys with
    | none => pure []
    | some (.tables ts) => pure ts
    | some _ => raise key ("key " ++ key.text ++ " is already assigned and not of type table array")
  let tree := tree.setPath (.tables (arr ++ [.table start.pos false []])) ⟨1, 1⟩ 0 keys
  let pre := key.value ++ "."
  let kept := r.seen.filter fun k => !k.startsWith pre
  let found := kept.getLast? = some key.value
  set { r with tree := tree, current := keys, seen := if found then kept else kept ++ [key.value] }
  expect .drbracket

/-- Reads a `[key]` header. -/
def group : R Unit := do
  let start ← takeTok
  let key ← takeTok
  if key.kind ≠ .keyGroup then
    raise key ("unexpected token " ++ key.text ++ ", was expecting a table key")
  let r ← get
  if r.seen.contains key.value then raise key "duplicated tables"
  set { r with seen := r.seen ++ [key.value] }
  let keys ← match parseKey key.value with
    | .ok ks => pure ks
    | .error m => raise key ("invalid table array key: " ++ m)
  let r ← get
  let tree ← match r.tree.createPath keys start.pos keys with
    | .ok t => pure t
    | .error m => raise key m
  if (tree.getPath keys).map Node.isInline = some true then
    raise key ("could not re-define exist inline table or its sub-table : " ++ ".".intercalate keys)
  set { r with tree := tree }
  expect .rbracket
  modify fun r => { r with current := keys }

/-- Reads a `key = value` statement. -/
def assign : R Unit := do
  let key ← takeTok
  expect .equal
  let parts ← match parseKey key.value with
    | .ok ps => pure ps
    | .error m => raise key ("invalid key: " ++ m)
  let v ← value ((← get).toks.size + 1)
  let r ← get
  let tableKey := r.current ++ parts.dropLast
  let tree ← match r.tree.getPath tableKey with
    | some (.tables _) | some (.table _ _ _) => pure r.tree
    | none =>
      match r.tree.createPath tableKey key.pos tableKey with
      | .ok t => pure t
      | .error m => raise key ("could not create intermediate group: " ++ m)
    | some _ => raise key ("Unknown table type for path: " ++ ".".intercalate tableKey)
  let target := (tree.getPath tableKey).bind Node.enter?
  if (target.map Node.isInline).getD false then
    raise key ("could not add key or sub-table to exist inline table or its sub-table : " ++
      ".".intercalate tableKey)
  let last := parts.getLast?.getD ""
  if ((target.bind fun t => t.entry? last)).isSome then
    raise key ("The following key was defined twice: " ++ ".".intercalate (tableKey ++ [last]))
  match tree.modifyAt (fun t => .ok (t.setEntry last v key.pos)) tableKey with
  | .ok t => set { r with tree := t }
  | .error m => raise key m

/-- Reads statements until the end. -/
def statements : Nat → R Unit
  | 0 => pure ()
  | fuel + 1 => do
    let some t ← peekTok | pure ()
    match t.kind with
    | .dlbracket => groupArray; statements fuel
    | .lbracket => group; statements fuel
    | .key => assign; statements fuel
    | .eof => pure ()
    | .error => raise t ("parsing error: " ++ t.text)
    | k => raise t ("unexpected token " ++ k.name)

/-- Reads a TOML document. -/
def read (text : String) : Except ReadError Node :=
  let toks := tokenize text
  match (statements (toks.size + 1)).run.run { toks := toks } with
  | (.ok (), r) => .ok r.tree
  | (.error m, _) => .error m

end Toml

end Abla
