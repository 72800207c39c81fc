import Abla.Float.Binary

/-!
# Decimal text of binary floating-point values

A finite value is written with decimal digits in one of two ways: its exact expansion, or the
shortest decimal that reads back to it. A decimal reads back to a value when it lies in the
value's rounding interval: between the midpoints to its two neighbours, with the midpoints
themselves included when the significand is even, since ties round to even.

The shortest decimal is found by walking digit positions down from the first digit of the
interval's upper end: at each position the value truncated there (`down`) and that plus one unit
(`up`) are the only candidates, and the walk stops at the first position where one of them lies
in the interval. When both do, the nearer one is taken, and on a tie the one with an even last
digit. Every decimal in the interval at a position is at least as far away as one of these two,
so the decimal found has the fewest digits, and among those it is the nearest.

The texts are those of the general form (positional for decimal exponents from -4 to 5,
exponent form otherwise, `1e+06`) and of the positional form with a given number of decimals.
-/

namespace Abla

/-- A decimal `significand × 10 ^ exponent`. -/
structure Decimal where
  significand : Nat
  exponent : Int
  deriving Repr, DecidableEq, Inhabited

namespace Decimal

/-- Drops the trailing zeros of the significand, keeping the value. -/
def canonical (d : Decimal) : Decimal :=
  let ds := Nat.toDigits 10 d.significand
  let zeros := (ds.reverse.takeWhile (· = '0')).length
  if d.significand = 0 then ⟨0, 0⟩
  else ⟨d.significand / Nat.pow 10 zeros, d.exponent + zeros⟩

/-- The digits of a canonical decimal and the position of its point: the value is
`0.d₁d₂…dₙ × 10 ^ point`. Zero has no digits. -/
def digitsAndPoint (d : Decimal) : List Char × Int :=
  if d.significand = 0 then ([], 0)
  else
    let ds := Nat.toDigits 10 d.significand
    (ds, ds.length + d.exponent)

end Decimal

/-- Compares `a × 10 ^ j` with `x / q`. -/
def comparePow10 (a : Nat) (j : Int) (x q : Nat) : Ordering :=
  if 0 ≤ j then compare (a * Nat.pow 10 j.toNat * q) x else compare (a * q) (x * Nat.pow 10 j.natAbs)

/-- `⌊x / q / 10 ^ j⌋`. -/
def floorPow10 (x q : Nat) (j : Int) : Nat :=
  if 0 ≤ j then x / (q * Nat.pow 10 j.toNat) else x * Nat.pow 10 j.natAbs / q

/-- The position of the point in the decimal expansion of a positive `x / q`: the `t` with
`10 ^ (t - 1) ≤ x / q < 10 ^ t`. Scaling by `10 ^ k` with `10 ^ k > q` makes the quotient at
least one, and its number of digits less `k` is the position. -/
def pointOf (x q : Nat) : Int :=
  let k := q.log2 + 1
  ((Nat.toDigits 10 (x * Nat.pow 10 k / q)).length : Int) - k

/-- The rounding interval of a positive finite value, as three numerators over one
denominator: the lower midpoint, the value and the upper midpoint. -/
structure Interval where
  lower : Nat
  value : Nat
  upper : Nat
  scale : Nat
  /-- Whether the midpoints themselves read back to the value. -/
  inclusive : Bool
  deriving Repr

/-- The rounding interval of `mant × 2 ^ exp` in a format. The neighbour below is half as far
as the one above when the significand is the least of its exponent and not subnormal. -/
def FloatFormat.interval (f : FloatFormat) (mant : Nat) (exp : Int) : Interval :=
  let lower := if mant = Nat.pow 2 (f.precision - 1) && exp > f.minExp then 4 * mant - 1 else 4 * mant - 2
  let (k, q) := if 2 ≤ exp then (Nat.pow 2 (exp - 2).toNat, 1) else (1, Nat.pow 2 (2 - exp).toNat)
  ⟨lower * k, 4 * mant * k, (4 * mant + 2) * k, q, mant % 2 = 0⟩

namespace Interval

/-- Whether `a × 10 ^ j` lies above the lower end. -/
def aboveLower (iv : Interval) (a : Nat) (j : Int) : Bool :=
  match comparePow10 a j iv.lower iv.scale with
  | .gt => true
  | .eq => iv.inclusive
  | .lt => false

/-- Whether `a × 10 ^ j` lies below the upper end. -/
def belowUpper (iv : Interval) (a : Nat) (j : Int) : Bool :=
  match comparePow10 a j iv.upper iv.scale with
  | .lt => true
  | .eq => iv.inclusive
  | .gt => false

/-- Of `k × 10 ^ j` and `(k + 1) × 10 ^ j`, the one nearer to the value; on a tie, the one
with an even last digit. -/
def nearer (iv : Interval) (k : Nat) (j : Int) : Nat :=
  match comparePow10 (2 * k + 1) j (2 * iv.value) iv.scale with
  | .gt => k
  | .lt => k + 1
  | .eq => if k % 2 = 0 then k else k + 1

/-- Walks digit positions down from `10 ^ j` to the first one where a truncation of the value
or the truncation plus one unit lies in the interval. -/
def walk (iv : Interval) (j : Int) : Nat → Option Decimal
  | 0 => none
  | fuel + 1 =>
    let k := floorPow10 iv.value iv.scale j
    let down := iv.aboveLower k j
    let up := iv.belowUpper (k + 1) j
    if down && up then some ⟨iv.nearer k j, j⟩
    else if down then some ⟨k, j⟩
    else if up then some ⟨k + 1, j⟩
    else iv.walk (j - 1) fuel

end Interval

namespace FloatFormat

/-- The exact decimal expansion of `mant × 2 ^ exp`; with a negative exponent it ends at the
digit for `10 ^ exp`, since `2 ^ -n = 5 ^ n / 10 ^ n`. -/
def exactDecimal (mant : Nat) (exp : Int) : Decimal :=
  if 0 ≤ exp then Decimal.canonical ⟨mant * Nat.pow 2 exp.toNat, 0⟩
  else Decimal.canonical ⟨mant * Nat.pow 5 exp.natAbs, exp⟩

/-- The shortest decimal that reads back to `mant × 2 ^ exp` in the format. The walk ends at
the latest at the position of the last digit of the exact expansion, where the truncation is
the value itself. -/
def shortest (f : FloatFormat) (mant : Nat) (exp : Int) : Decimal :=
  if mant = 0 then ⟨0, 0⟩
  else
    let iv := f.interval mant exp
    let top := pointOf iv.upper iv.scale
    match iv.walk (top - 1) ((top - min exp 0).toNat + 2) with
    | some d => d.canonical
    | none => exactDecimal mant exp

end FloatFormat

namespace Decimal

/-- The general form of a decimal with a sign, as the shortest text of a value is printed:
exponent form `d.ddde±XX` when the decimal exponent is below -4 or above 5, positional form
otherwise. -/
def general (neg : Bool) (d : Decimal) : String :=
  let sign := if neg then "-" else ""
  let (digits, point) := d.canonical.digitsAndPoint
  if digits.isEmpty then sign ++ "0"
  else
    let n := digits.length
    let exp := point - 1
    if exp < -4 || exp ≥ 6 then
      let mant := match digits with
        | [c] => String.singleton c
        | c :: cs => String.singleton c ++ "." ++ String.ofList cs
        | [] => "0"
      let e := exp.natAbs
      let es := (if e < 10 then "0" else "") ++ toString e
      sign ++ mant ++ "e" ++ (if exp < 0 then "-" else "+") ++ es
    else if point ≤ 0 then
      sign ++ "0." ++ String.ofList (List.replicate point.natAbs '0') ++ String.ofList digits
    else if point.toNat ≥ n then
      sign ++ String.ofList digits ++ String.ofList (List.replicate (point.toNat - n) '0')
    else
      sign ++ String.ofList (digits.take point.toNat) ++ "." ++ String.ofList (digits.drop point.toNat)

/-- The positional form of a decimal with a sign and `decimals` digits after the point, the
missing ones zeros; the decimal must need no more. -/
def positional (neg : Bool) (d : Decimal) (decimals : Nat) : String :=
  let sign := if neg then "-" else ""
  let (digits, point) := d.canonical.digitsAndPoint
  let whole := if point > 0 then
      String.ofList (digits.take point.toNat ++ List.replicate (point.toNat - digits.length) '0')
    else "0"
  let frac := (List.range decimals).map fun (i : Nat) =>
    let j : Int := point + (i : Int)
    if 0 ≤ j then digits.getD j.toNat '0' else '0'
  sign ++ whole ++ (if decimals > 0 then "." ++ String.ofList frac else "")

/-- The number of digits after the point that a decimal needs. -/
def decimals (d : Decimal) : Nat :=
  let (digits, point) := d.canonical.digitsAndPoint
  (digits.length - point).toNat

end Decimal

namespace Binary

/-- The general text of a value: the shortest decimal that reads back to it, `+Inf`, `-Inf`
or `NaN`. -/
def general : Binary → String
  | .finite neg m e => Decimal.general neg (FloatFormat.binary64.shortest m e)
  | .inf neg => if neg then "-Inf" else "+Inf"
  | .nan => "NaN"

end Binary

end Abla
