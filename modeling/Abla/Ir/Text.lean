import Abla.Ir.Module
import Abla.Float.Binary

/-!
# The textual form of a module

`Module.text` writes a module as LLVM assembly: the string globals one per line, a blank
line, then the functions separated by blank lines, each ending in a newline.

A name made only of letters, digits and `$ - . _` is written as is; any other name is quoted,
with every byte outside printable ASCII, and every `"` and `\`, written as `\XX` in uppercase
hexadecimal. A name that reads as a number is quoted too, so that it is not taken for a
numbered value. A string constant is written `c"…"` under the same escaping. An integer
constant is written in decimal, or in hexadecimal when that form is both plain and markedly
plainer than the decimal one (`intLiteral`). Instructions with a result are numbered `%0`, `%1`, … in order; a call returning `void` takes no number.
-/

namespace Abla.Ir

namespace Text

/-- Uppercase hexadecimal digits. -/
def hex (n : Nat) : Char := "0123456789ABCDEF".toList.getD n '0'

/-- A byte written as `\XX`. -/
def escapeByte (b : UInt8) : String := String.ofList ['\\', hex (b.toNat / 16), hex (b.toNat % 16)]

/-- Whether a byte may appear plainly in an unquoted name. -/
def isNameByte (b : UInt8) : Bool :=
  let c := Char.ofNat b.toNat
  c.isAlphanum || c = '$' || c = '-' || c = '.' || c = '_'

/-- Whether a byte may appear plainly inside quotes. -/
def isQuotable (b : UInt8) : Bool := b ≥ 32 && b ≤ 126 && b ≠ 34 && b ≠ 92

/-- The bytes of a text, each written plainly or escaped. -/
def escapeBytes (s : String) : String :=
  String.join (s.toUTF8.toList.map fun b =>
    if isQuotable b then String.singleton (Char.ofNat b.toNat) else escapeByte b)

/-- A name as it follows `@` or `%`. -/
def name (s : String) : String :=
  if !s.isEmpty && s.all Char.isDigit then "\"" ++ s ++ "\""
  else if s.toUTF8.toList.all isNameByte then s
  else "\"" ++ escapeBytes s ++ "\""

/-- A string constant, its zero byte included. -/
def charArray (s : String) : String := "c\"" ++ escapeBytes s ++ "\\00\""

/-- The text number of the instruction at an index: the calls returning `void` before it take
no number. -/
def localNumber (insts : Array Inst) (k : Nat) : Nat :=
  ((insts.toList.take k).filter fun i => !Ty.same i.ty .void).length

/-- The spread of a natural number written in a base: its distinct digits and its digit
count. Their ratio tells how much of the base the written form spends; few distinct digits over
many places read as a pattern. -/
def spread (base n : Nat) : Nat × Nat :=
  let ds := Nat.toDigits base n
  (ds.eraseDups.length, ds.length)

/-- Whether a hexadecimal form is plain enough to be worth writing: its distinct digits are at
most `0.42` of its digit count plus one. Among the forms of up to eight digits, those of a
positive 32-bit value, that allows two distinct digits, and three from seven digits on. -/
def plainHex (distinct len : Nat) : Bool := 100 * distinct ≤ 42 * (len + 1)

/-- Whether the ratio `a` is at least the ratio `b` plus `0.2`, all in binary64 arithmetic: each
ratio and `0.2` are rounded, and so is the sum. The roundings matter at a tie: `0.6` is not at
least `0.4 + 0.2`, whose binary64 sum lies just above `0.6`. -/
def clearsByFifth (a b : Nat × Nat) : Bool :=
  let (an, ad) := (FloatFormat.binary64.round false a.1 a.2).magnitude
  let (bn, bd) := (FloatFormat.binary64.round false b.1 b.2).magnitude
  let (fn, fd) := (FloatFormat.binary64.round false 1 5).magnitude
  let (sn, sd) := (FloatFormat.binary64.round false (bn * fd + fn * bd) (bd * fd)).magnitude
  an * sd ≥ sn * ad

/-- How an integer constant is written: in decimal, except that a value of at least `4096` whose
hexadecimal form is plain (`plainHex`) and whose decimal spread ratio exceeds the hexadecimal
one by at least `0.2` (`clearsByFifth`) is written in hexadecimal, upper case after `u0x`:
`u0x7FFFFFFF` and `u0x1212`, but `12288` rather than `u0x3000` and `4627` rather than
`u0x1213`. -/
def intLiteral (n : Int) : String :=
  let hexDigits := (Nat.toDigits 16 n.toNat).map Char.toUpper
  let (dh, lh) := spread 16 n.toNat
  let (dd, ld) := spread 10 n.toNat
  if n ≥ 4096 && plainHex dh lh && clearsByFifth (dd, ld) (dh, lh) then
    "u0x" ++ String.ofList hexDigits
  else toString n

/-- An operand without its type. -/
def ident (insts : Array Inst) : Operand → String
  | .int n => intLiteral n
  | .bool b => if b then "true" else "false"
  | .param n _ => "%" ++ name n
  | .func n _ => "@" ++ name n
  | .string g len =>
    let arr := "[" ++ toString len ++ " x i8]"
    "getelementptr (" ++ arr ++ ", " ++ arr ++ "* @" ++ name g ++ ", i32 0, i32 0)"
  | .inst k _ => "%" ++ toString (localNumber insts k)

/-- An operand with its type. -/
def typed (insts : Array Inst) (o : Operand) : String := o.ty.text ++ " " ++ ident insts o

/-- An instruction at an index of its function. -/
def inst (insts : Array Inst) (k : Nat) : Inst → String
  | .arith op a b =>
    "%" ++ toString (localNumber insts k) ++ " = " ++ op.name ++ " " ++ typed insts a ++ ", " ++
      ident insts b
  | .icmp p a b =>
    "%" ++ toString (localNumber insts k) ++ " = icmp " ++ p.name ++ " " ++ typed insts a ++
      ", " ++ ident insts b
  | .call callee args ret =>
    let lhs := if Ty.same ret .void then "" else "%" ++ toString (localNumber insts k) ++ " = "
    lhs ++ "call " ++ ret.text ++ " " ++ ident insts callee ++ "(" ++
      ", ".intercalate (args.map (typed insts)) ++ ")"

/-- A block: its label, its instructions and its `ret`, each instruction on a line of its own
after a tab. -/
def block (b : Block) : String :=
  let body := (List.range b.insts.size).zip b.insts.toList |>.map fun (k, i) =>
    "\t" ++ inst b.insts k i ++ "\n"
  let ret := match b.ret with
    | some (some v) => "\tret " ++ typed b.insts v
    | some none => "\tret void"
    | none => ""
  name b.name ++ ":\n" ++ String.join body ++ ret

/-- The header of a function: linkage, calling convention, return type, name and
parameters. -/
def header (f : Func) : String :=
  let link := if f.linkage = .none then "" else " " ++ f.linkage.name
  let params := ", ".intercalate (f.params.map fun p => p.ty.text ++ " %" ++ name p.name)
  link ++ " ccc " ++ f.ret.text ++ " @" ++ name f.name ++ "(" ++ params ++ ")"

/-- A function: `declare` for one without blocks, `define` with its body otherwise. -/
def func (f : Func) : String :=
  if f.blocks.isEmpty then "declare" ++ header f
  else
    let blocks := "\n".intercalate (f.blocks.toList.map fun b => block b ++ "\n")
    "define" ++ header f ++ " \x7b\n" ++ blocks ++ "\x7d"

/-- A string global. -/
def global (g : Global) : String :=
  "@" ++ name g.name ++ " = private constant [" ++ toString g.size ++ " x i8] " ++ charArray g.text

end Text

/-- The LLVM assembly of a module. -/
def Module.text (m : Module) : String :=
  let globals := String.join (m.globals.toList.map fun g => Text.global g ++ "\n")
  let sep := if !m.funcs.isEmpty && !globals.isEmpty then "\n" else ""
  let funcs := "\n".intercalate (m.funcs.toList.map fun f => Text.func f ++ "\n")
  globals ++ sep ++ funcs

end Abla.Ir
