import Abla.Build.Service
import Abla.Text.Quoted

/-!
# Interactive sessions

A session evaluates one input at a time on one build. A blank input does nothing. An input
that starts with `#` or with the word `fun`, `class`, `extern` or `compiler` is a declaration:
it is compiled as a new unit after the declarations kept so far, and kept if that succeeds.
Any other input is an expression: it is compiled, after the kept declarations, as the body
`#(…)` of a fresh function `__replN`, and its value is the constant that `#` expression
computed. Integers read in decimal, booleans as `true` or `false`, and strings in quoted form.
-/

namespace Abla

/-- An interactive session: the build, the declarations kept, and how many expressions have
been read. -/
structure Session where
  build : Build
  decls : List String := []
  counter : Nat := 0
  deriving Inhabited

namespace Session

/-- The words that start a declaration. -/
def declWords : List String := ["fun", "class", "extern", "compiler"]

/-- Whether a character is white space: the ASCII blanks, U+0085, U+00A0 and the Unicode
space separators. -/
def isSpace (c : Char) : Bool :=
  c = ' ' || c = '\t' || c = '\n' || c = '\r' || c.toNat = 11 || c.toNat = 12 ||
    c.toNat = 0x85 || c.toNat = 0xA0 || c.toNat = 0x1680 ||
    (0x2000 ≤ c.toNat && c.toNat ≤ 0x200A) || c.toNat = 0x2028 || c.toNat = 0x2029 ||
    c.toNat = 0x202F || c.toNat = 0x205F || c.toNat = 0x3000

/-- A text without the white space at its ends. -/
def trim (s : String) : String :=
  String.ofList ((s.toList.dropWhile isSpace).reverse.dropWhile isSpace).reverse

/-- Whether a character can continue a word. -/
def isWordChar (c : Char) : Bool := c = '_' || (c.isAlpha && c.toNat < 128) || c.isDigit

/-- Whether an input is a declaration: it starts with `#`, or with a declaration word that is
not the start of a longer word. -/
def isDecl (input : String) : Bool :=
  input.startsWith "#" || declWords.any fun w =>
    input.startsWith w &&
      match input.toList.drop w.length with
      | [] => true
      | c :: _ => !isWordChar c

/-- The text of a unit: the kept declarations and the input, one per line. -/
def unitText (s : Session) (input : String) : String := "\n".intercalate (s.decls ++ [input])

/-- The reading of a constant. -/
def showConst : ConstValue → String
  | .str t => quote t
  | .bool b => if b then "true" else "false"
  | .int n => toString n

/-- The `#` expression that is the first statement of the function `name`, if it is one. -/
def replSite (f : SourceFile) (name : String) : Option Site :=
  f.decls.findSome? fun
    | .func fd =>
      if fd.name = name then
        match fd.body with
        | some (.mk _ (.expr _ (.exec site _) :: _)) => some site
        | _ => none
      else none
    | _ => none

/-- Runs a request on the session's build. -/
def onBuild {α : Type} (act : StateM Build α) : StateM Session α :=
  modifyGet fun s =>
    let (a, b) := act.run s.build
    (a, { s with build := b })

/-- Evaluates one input: gives what to print, or the failure. -/
def eval (raw : String) : StateM Session (Except Failure String) := do
  let input := trim raw
  if input.isEmpty then return .ok ""
  let s ← get
  if isDecl input then
    let (_, o) ← onBuild (Build.compileSource (s.unitText input) false)
    match o.err with
    | some f => return .error f
    | none =>
      modify fun s => { s with decls := s.decls ++ [input] }
      return .ok ""
  let fn := "__repl" ++ toString s.counter
  set { s with counter := s.counter + 1 }
  let text := s.unitText ("fun " ++ fn ++ "() \x7b #(" ++ input ++ ") \x7d")
  let (name, o) ← onBuild (Build.compileSource text false)
  match o.err with
  | some f => return .error f
  | none =>
    let b := (← get).build
    match b.units.compiled.lookup name with
    | none => return .error (.other ("unit `" ++ name ++ "` was not installed"))
    | some file =>
      let found := match replSite file fn with
        | some site => b.tables.notes.constOf? site.id
        | none => none
      match found with
      | some c => return .ok (showConst c)
      | none => return .error (.other "expression produced no value")

end Session

end Abla
