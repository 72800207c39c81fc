import Abla.Text.Printable

/-!
# Quoted string literals

The quoted form of a text is a double-quoted literal: a quote and a backslash are preceded by a
backslash, printable characters stand as they are, the seven control characters with a short
name are written `\a \b \f \n \r \t \v`, other characters below U+0020 and U+007F as `\xHH`,
other characters of the Basic Multilingual Plane as `\uHHHH` and the rest as `\UHHHHHHHH`,
with lower-case hexadecimal digits.
-/

namespace Abla

namespace Quoted

/-- The `width` lower-case hexadecimal digits of `n`, most significant first. -/
def hexDigits (width n : Nat) : List Char :=
  (List.range width).reverse.map fun i => Nat.digitChar (n / Nat.pow 16 i % 16)

/-- The written form of one character inside the quotes. -/
def escapeChar (c : Char) : List Char :=
  if c = '"' then ['\\', '"']
  else if c = '\\' then ['\\', '\\']
  else if isPrintable c then [c]
  else match c.toNat with
    | 7 => ['\\', 'a']
    | 8 => ['\\', 'b']
    | 12 => ['\\', 'f']
    | 10 => ['\\', 'n']
    | 13 => ['\\', 'r']
    | 9 => ['\\', 't']
    | 11 => ['\\', 'v']
    | n =>
      if n < 32 ∨ n = 127 then '\\' :: 'x' :: hexDigits 2 n
      else if n < 65536 then '\\' :: 'u' :: hexDigits 4 n
      else '\\' :: 'U' :: hexDigits 8 n

end Quoted

/-- The double-quoted literal form of a text. -/
def quote (s : String) : String :=
  String.ofList ('"' :: (s.toList.flatMap Quoted.escapeChar ++ ['"']))

end Abla
