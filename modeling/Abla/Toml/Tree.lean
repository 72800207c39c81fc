import Abla.Toml.Lex
import Abla.Toml.DateTime
import Abla.Float.Decimal

/-!
# Reading TOML: documents

A TOML document is a tree: a table maps keys to values, to tables, and to arrays of tables.
A table knows where it was opened and whether it was written inline; a plain value knows the
position of its key. Paths of keys walk down through tables, and through the last table of an
array of tables.

Messages show a value in three notations: its plain text (`5`, `yes`, `[a 1]`), the name
of the decoder's type for it (`int64`, `string`, `[]interface {}`), and its literal syntax.
The plain text of a table is the table written back as a TOML document: in every table the
plain values come first and then the tables and arrays of tables, each group sorted by key; a
table is a `[a.b]` section and every table of an array a `[[a.b]]` section, preceded by an
empty line and indented by two spaces a level. Tables inside arrays are written inline,
`{ k = v, … }`, in the same order.
-/

namespace Abla

namespace Toml

/-- A TOML value. -/
inductive Node where
  | str (s : String)
  /-- A signed 64-bit integer. -/
  | int (n : Int)
  | float (x : Binary)
  | bool (b : Bool)
  | stamp (s : Stamp)
  | array (items : List Node)
  /-- A table: where it was opened, whether it is inline, and its entries; a plain value's
  entry keeps the position of its key. -/
  | table (pos : Pos) (inline : Bool) (entries : List (String × Node × Pos))
  /-- An array of tables. -/
  | tables (items : List Node)
  deriving Repr, Inhabited

namespace Node

/-- An empty table opened at a position. -/
def empty (pos : Pos) (inline : Bool) : Node := .table pos inline []

/-- Whether a value is a table. -/
def isTable : Node → Bool
  | .table _ _ _ => true
  | _ => false

/-- Whether a value is an inline table. -/
def isInline : Node → Bool
  | .table _ i _ => i
  | _ => false

/-- The entry of a key in a table. -/
def entry? (t : Node) (k : String) : Option (Node × Pos) :=
  match t with
  | .table _ _ es => (es.find? (·.1 = k)).map (·.2)
  | _ => none

/-- Sets the entry of a key in a table, keeping the order of keys. -/
def setEntry (t : Node) (k : String) (v : Node) (p : Pos) : Node :=
  match t with
  | .table pos i es =>
    if es.any (·.1 = k) then .table pos i (es.map fun e => if e.1 = k then (k, v, p) else e)
    else .table pos i (es ++ [(k, v, p)])
  | other => other

/-- The position of a table. -/
def pos? : Node → Option Pos
  | .table p _ _ => some p
  | _ => none

/-- The table a path step enters: a table itself, or the last table of an array of tables. -/
def enter? : Node → Option Node
  | .table p i es => some (.table p i es)
  | .tables ts => ts.getLast?
  | _ => none

/-- Replaces the table a path step entered. -/
def reenter (outer new : Node) : Node :=
  match outer with
  | .tables ts => .tables (ts.dropLast ++ [new])
  | _ => new

/-- The value at a path of keys; the empty path is the table itself. -/
def getPath (t : Node) : List String → Option Node
  | [] => some t
  | [k] => (t.entry? k).map (·.1)
  | k :: ks =>
    match t.entry? k with
    | some (v, _) =>
      match v.enter? with
      | some sub => sub.getPath ks
      | none => none
    | none => none

/-- The position recorded for the value at a path. -/
def positionAt (t : Node) (ks : List String) : Pos :=
  match ks with
  | [] => (t.pos?).getD ⟨0, 0⟩
  | [k] =>
    match t.entry? k with
    | some (.table p _ _, _) => p
    | some (.tables ts, _) => ((ts.getLast?).bind pos?).getD ⟨0, 0⟩
    | some (_, p) => p
    | none => ⟨0, 0⟩
  | k :: rest =>
    match t.entry? k with
    | some (v, _) =>
      match v.enter? with
      | some sub => sub.positionAt rest
      | none => ⟨0, 0⟩
    | none => ⟨0, 0⟩

/-- Changes the table at a path of keys, which must exist; steps through arrays of tables go to
their last table. -/
def modifyAt (t : Node) (f : Node → Except String Node) : List String → Except String Node
  | [] => f t
  | k :: ks =>
    match t.entry? k with
    | some (v, p) =>
      match v.enter? with
      | some sub => do
        let sub' ← sub.modifyAt f ks
        .ok (t.setEntry k (v.reenter sub') p)
      | none => .error "no table"
    | none => .error "no table"

end Node

/-- The name of the decoder's type for a value. -/
def Node.typeName : Node → String
  | .str _ => "string"
  | .int _ => "int64"
  | .float _ => "float64"
  | .bool _ => "bool"
  | .stamp s => s.typeName
  | .array _ => "[]interface \x7b\x7d"
  | .table _ _ _ => "*toml.Tree"
  | .tables _ => "[]*toml.Tree"

/-- Whether a value is written as a section of its own: a table or an array of tables. -/
def Node.isSection : Node → Bool
  | .table _ _ _ | .tables _ => true
  | _ => false

/-- A string's characters as they are written inside TOML quotes: the quote, the backslash
and the usual control characters by their escapes, and every other character whose code
point, taken modulo `2 ^ 16`, is below `0x1F` as `\uXXXX` of that remainder. -/
def escapeString (s : String) : String :=
  String.join (s.toList.map fun c =>
    if c = '\x08' then "\\b" else if c = '\t' then "\\t" else if c = '\n' then "\\n"
    else if c = '\x0c' then "\\f" else if c = '\r' then "\\r" else if c = '"' then "\\\""
    else if c = '\\' then "\\\\"
    else if c.toNat % 65536 < 0x1F then "\\u" ++ hexUpper (c.toNat % 65536) 4
    else String.singleton c)

/-- A key as it is written: bare when it has only bare-key characters (the empty key too),
as it is when it already starts and ends with a double quote, and quoted otherwise. -/
def quoteKey (k : String) : String :=
  let cs := k.toList
  if cs.length ≥ 2 && cs.head? = some '"' && cs.getLast? = some '"' then k
  else if cs.all isBareChar then k
  else "\"" ++ escapeString k ++ "\""

/-- A key made of bare-key characters is written as it is. -/
theorem quoteKey_of_bare (k : String) (h : k.toList.all isBareChar = true) : quoteKey k = k := by
  unfold quoteKey
  simp only [h]
  split <;> rfl

/-- A float as it is written: a whole number with one decimal, `1.0`; any other value with the
fewest digits that read back to it, in binary32 when it is exactly a binary32 value and in
binary64 otherwise; always positional, and `+inf`, `-inf` and `nan` in lower case. -/
def floatText (x : Binary) : String :=
  match x with
  | .nan => "nan"
  | .inf neg => if neg then "-inf" else "+inf"
  | .finite neg m e =>
    if x.isWhole then Decimal.positional neg (FloatFormat.exactDecimal m e) 1
    else
      let d := match FloatFormat.binary32.holds? m e with
        | some (m', e') => FloatFormat.binary32.shortest m' e'
        | none => FloatFormat.binary64.shortest m e
      Decimal.positional neg d d.decimals

/-- Sorts entries by key. -/
def sortByKey (es : List (String × Node × Pos)) : List (String × Node × Pos) :=
  es.mergeSort fun a b => !(b.1 < a.1)

mutual

/-- Sorts the entries of every table by key. -/
def Node.sortKeys : Node → Node
  | .array items => .array (Node.sortList items)
  | .tables items => .tables (Node.sortList items)
  | .table p i es => .table p i (sortByKey (Node.sortEntries es))
  | n => n

/-- Sorts the entries of the tables in values. -/
def Node.sortList : List Node → List Node
  | [] => []
  | n :: ns => n.sortKeys :: Node.sortList ns

/-- Sorts the entries of the tables in entries. -/
def Node.sortEntries : List (String × Node × Pos) → List (String × Node × Pos)
  | [] => []
  | (k, v, p) :: es => (k, v.sortKeys, p) :: Node.sortEntries es

end

mutual

/-- A value written inline; its tables must be sorted. -/
def Node.inline : Node → String
  | .str s => "\"" ++ escapeString s ++ "\""
  | .int n => toString n
  | .float x => floatText x
  | .bool b => if b then "true" else "false"
  | .stamp s => s.tomlText
  | .array items => "[" ++ Node.inlineList items ++ "]"
  | .tables items => "[" ++ Node.inlineList items ++ "]"
  | .table _ _ es => "\x7b " ++ ", ".intercalate (Node.inlineFields false es ++ Node.inlineFields true es) ++ " \x7d"

/-- Values written inline, separated by commas. -/
def Node.inlineList : List Node → String
  | [] => ""
  | [n] => n.inline
  | n :: m :: ns => n.inline ++ ", " ++ Node.inlineList (m :: ns)

/-- The `key = value` fields of the entries that are sections, or of those that are not. -/
def Node.inlineFields (sections : Bool) : List (String × Node × Pos) → List String
  | [] => []
  | (k, v, _) :: es =>
    (if v.isSection = sections then [quoteKey k ++ " = " ++ v.inline] else []) ++
      Node.inlineFields sections es

end

mutual

/-- A sorted table written as a document: its plain values as `key = value` lines, then its
sections, under a path of keys and with an indent. -/
def Node.document (indent path : String) : Node → String
  | .table _ _ es => Node.valueLines indent es ++ Node.sections indent path es
  | _ => ""

/-- The `key = value` lines of the entries that are not sections. -/
def Node.valueLines (indent : String) : List (String × Node × Pos) → String
  | [] => ""
  | (k, v, _) :: es =>
    (if v.isSection then "" else indent ++ quoteKey k ++ " = " ++ v.inline ++ "\n") ++
      Node.valueLines indent es

/-- The sections of the entries that are tables or arrays of tables. -/
def Node.sections (indent path : String) : List (String × Node × Pos) → String
  | [] => ""
  | (k, v, _) :: es =>
    let key := if path = "" then quoteKey k else path ++ "." ++ quoteKey k
    let here := match v with
      | .table p i fs => "\n" ++ indent ++ "[" ++ key ++ "]\n" ++
          Node.document (indent ++ "  ") key (.table p i fs)
      | .tables items => Node.arraySections indent key items
      | _ => ""
    here ++ Node.sections indent path es

/-- The `[[key]]` sections of the tables of an array. -/
def Node.arraySections (indent key : String) : List Node → String
  | [] => ""
  | t :: ts => "\n" ++ indent ++ "[[" ++ key ++ "]]\n" ++ Node.document (indent ++ "  ") key t ++
      Node.arraySections indent key ts

end

mutual

/-- The plain text of a value. -/
def Node.show : Node → String
  | .str s => s
  | .int n => toString n
  | .float x => x.general
  | .bool b => if b then "true" else "false"
  | .stamp s => s.text
  | .array items => "[" ++ Node.showList items ++ "]"
  | .table p i es => (Node.table p i es).sortKeys.document "" ""
  | .tables items => "[" ++ Node.showList items ++ "]"

/-- Values separated by blanks. -/
def Node.showList : List Node → String
  | [] => ""
  | [n] => n.show
  | n :: m :: ns => n.show ++ " " ++ Node.showList (m :: ns)

end

mutual

/-- A value in literal syntax. -/
def Node.literal : Node → String
  | .str s => quote s
  | .int n => toString n
  | .float x => x.general
  | .bool b => if b then "true" else "false"
  | .stamp s => s.literal
  | .array [] => "[]interface \x7b\x7d(nil)"
  | .array items => "[]interface \x7b\x7d\x7b" ++ Node.literalList items ++ "\x7d"
  | .table _ _ _ => "&toml.Tree\x7b\x7d"
  | .tables _ => "[]*toml.Tree\x7b\x7d"

/-- Values in literal syntax, separated by commas. -/
def Node.literalList : List Node → String
  | [] => ""
  | [n] => n.literal
  | n :: m :: ns => n.literal ++ ", " ++ Node.literalList (m :: ns)

end

/-- How a plain value's entry shows in literal syntax. -/
def valueSyntax (v : Node) (p : Pos) : String :=
  "&toml.tomlValue\x7bvalue:" ++ v.literal ++
    ", comment:\"\", commented:false, multiline:false, literal:false, position:toml.Position\x7bLine:" ++
    toString p.line ++ ", Col:" ++ toString p.col ++ "\x7d\x7d"

namespace Node

/-- Makes sure the tables along a path exist, creating missing ones at `pos`; a new table is
inline when its parent is. A plain value on the path is an error. -/
def createPath (t : Node) (all : List String) (pos : Pos) : List String → Except String Node
  | [] => .ok t
  | k :: ks =>
    match t.entry? k with
    | none => do
      let sub ← (Node.empty pos t.isInline).createPath all pos ks
      .ok (t.setEntry k sub pos)
    | some (v, p) =>
      match v.enter? with
      | some sub => do
        let sub' ← sub.createPath all pos ks
        .ok (t.setEntry k (v.reenter sub') p)
      | none =>
        .error ("unknown type for path " ++ ".".intercalate all ++ " (" ++ k ++ "): *toml.tomlValue (" ++
          valueSyntax v p ++ ")")

/-- The position a plain value gets when it is set in a table: the line after the table's
entries, counted before it is set, in the table's column. -/
def nextValuePos : Node → Pos
  | .table p _ es => ⟨p.line + es.length + 1, p.col⟩
  | _ => ⟨0, 0⟩

/-- Sets the value at a path below a table opened at `base`. The table missing at the `i`-th
step is created at `base.line + i`, in the column of `base`; a step onto a plain value stays in
the table it starts from; an empty array of tables on the way gets a first table. -/
def setPath (t : Node) (v : Node) (base : Pos) (depth : Nat) : List String → Node
  | [] => t
  | [k] => t.setEntry k v t.nextValuePos
  | k :: ks =>
    let here : Pos := ⟨base.line + depth, base.col⟩
    match t.entry? k with
    | none => t.setEntry k ((Node.empty here false).setPath v base (depth + 1) ks) here
    | some (.tables [], p) =>
      t.setEntry k (.tables [(Node.empty here false).setPath v base (depth + 1) ks]) p
    | some (sub, p) =>
      match sub.enter? with
      | some inner => t.setEntry k (sub.reenter (inner.setPath v base (depth + 1) ks)) p
      | none => t.setPath v base (depth + 1) ks

end Node

end Toml

end Abla
