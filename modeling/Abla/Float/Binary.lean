/-!
# Binary floating-point values

A binary format keeps a significand of `precision` bits and an exponent in a range. A finite
value of the format is `mant × 2 ^ exp` with `mant < 2 ^ precision` and `exp` at least the
exponent of the last bit of the subnormals; the largest finite values have the exponent
`maxExp`.

Rounding a positive fraction goes to the nearest value of the format, ties to an even
significand, and past the largest finite value to an infinity. `FloatFormat.ofDecimal` reads
`digits × 10 ^ exp10` this way, exactly, however many digits it has; values far out of range
are told by their number of digits alone.
-/

namespace Abla

/-- A binary floating-point format. -/
structure FloatFormat where
  /-- Significand bits, the leading one included. -/
  precision : Nat
  /-- The exponent of the last significand bit of the subnormals. -/
  minExp : Int
  /-- The largest exponent of the last significand bit of a finite value. -/
  maxExp : Int
  deriving Repr, DecidableEq

namespace FloatFormat

/-- IEEE binary64. -/
def binary64 : FloatFormat := ⟨53, -1074, 971⟩

/-- IEEE binary32. -/
def binary32 : FloatFormat := ⟨24, -149, 104⟩

end FloatFormat

/-- A floating-point value: `± mant × 2 ^ exp`, an infinity, or not a number. A finite value is
normalized for its format: its significand has all its bits unless its exponent is the least
one, and zero has the significand `0`. -/
inductive Binary where
  | finite (neg : Bool) (mant : Nat) (exp : Int)
  | inf (neg : Bool)
  | nan
  deriving Repr, DecidableEq, Inhabited

/-- The fraction `num / den × 2 ^ k`, as a numerator and a denominator. -/
def scaleTwo (num den : Nat) (k : Int) : Nat × Nat :=
  if 0 ≤ k then (num * Nat.pow 2 k.toNat, den) else (num, den * Nat.pow 2 k.natAbs)

/-- The natural number nearest to `num / den`, ties to the even one. -/
def roundHalfEven (num den : Nat) : Nat :=
  let q := num / den
  let r := num % den
  if 2 * r > den || (2 * r = den && q % 2 = 1) then q + 1 else q

/-- Rounding to nearest gives the quotient or the one above it. -/
theorem roundHalfEven_cases (num den : Nat) :
    roundHalfEven num den = num / den ∨ roundHalfEven num den = num / den + 1 := by
  unfold roundHalfEven
  simp only
  split
  · exact Or.inr rfl
  · exact Or.inl rfl

/-- A multiple of the denominator rounds to its quotient. -/
theorem roundHalfEven_mul (q den : Nat) (h : 0 < den) : roundHalfEven (q * den) den = q := by
  unfold roundHalfEven
  simp only
  rw [Nat.mul_div_cancel _ h, Nat.mul_mod_left]
  split
  · -- the remainder is zero, below half of the denominator
    rename_i hc
    simp only [Bool.or_eq_true, decide_eq_true_eq, Bool.and_eq_true] at hc
    omega
  · rfl

/-- `⌊log₂ (num / den)⌋` for a positive fraction. With `a` and `b` the bit lengths less one of
`num` and `den`, the fraction lies between `2 ^ (a - b - 1)` and `2 ^ (a - b + 1)`, so one
comparison with `2 ^ (a - b)` decides. -/
def floorLog2 (num den : Nat) : Int :=
  let guess : Int := (num.log2 : Int) - den.log2
  let (a, b) := scaleTwo num den (-guess)
  if a ≥ b then guess else guess - 1

namespace FloatFormat

/-- The exponent of the last significand bit for a positive fraction: the one that leaves
`precision` bits, or the least exponent of the format. -/
def lastBit (f : FloatFormat) (num den : Nat) : Int :=
  max f.minExp (floorLog2 num den - (f.precision - 1 : Nat))

/-- The value of the format nearest to `± num / den`, ties to an even significand. -/
def round (f : FloatFormat) (neg : Bool) (num den : Nat) : Binary :=
  if num = 0 then .finite neg 0 f.minExp
  else
    let e := f.lastBit num den
    let (a, b) := scaleTwo num den (-e)
    let m := roundHalfEven a b
    let (m, e) := if m = Nat.pow 2 f.precision then (m / 2, e + 1) else (m, e)
    if e > f.maxExp then .inf neg else .finite neg m e

/-- The value of the format nearest to `± digits × 10 ^ exp10`. Beyond `10 ^ 400` every value
is an infinity and below `10 ^ -400` every value rounds to zero, in both formats. -/
def ofDecimal (f : FloatFormat) (neg : Bool) (digits : Nat) (exp10 : Int) : Binary :=
  if digits = 0 then .finite neg 0 f.minExp
  else
    let size : Int := (Nat.toDigits 10 digits).length
    if size + exp10 > 400 then .inf neg
    else if size + exp10 < -400 then .finite neg 0 f.minExp
    else if 0 ≤ exp10 then f.round neg (digits * Nat.pow 10 exp10.toNat) 1
    else f.round neg digits (Nat.pow 10 exp10.natAbs)

/-- Whether `m × 2 ^ e` and `n × 2 ^ k` are the same number. -/
def sameValue (m : Nat) (e : Int) (n : Nat) (k : Int) : Bool :=
  if e ≤ k then m = n * Nat.pow 2 (k - e).toNat else m * Nat.pow 2 (e - k).toNat = n

/-- The significand and exponent of `mant × 2 ^ exp` in the format, if it is one of its
values: rounding it to the format changes nothing exactly then. -/
def holds? (f : FloatFormat) (mant : Nat) (exp : Int) : Option (Nat × Int) :=
  let (n, d) := scaleTwo mant 1 exp
  match f.round false n d with
  | .finite _ m e => if sameValue mant exp m e then some (m, e) else none
  | _ => none

end FloatFormat

/-- Zero is a value of every format. -/
theorem round_zero (f : FloatFormat) (neg : Bool) (den : Nat) :
    f.round neg 0 den = .finite neg 0 f.minExp := by
  simp [FloatFormat.round]

/-- The magnitude of a finite value as a fraction; zero for an infinity or not-a-number. -/
def Binary.magnitude : Binary → Nat × Nat
  | .finite _ m e => scaleTwo m 1 e
  | _ => (0, 1)

/-- Whether a value is a whole number; infinities count as whole, not-a-number does not. -/
def Binary.isWhole : Binary → Bool
  | .finite _ m e => 0 ≤ e || m % Nat.pow 2 e.natAbs = 0
  | .inf _ => true
  | .nan => false

end Abla
