import Abla.Ir.Module

/-!
# Running straight-line integer code

What the arithmetic and comparison instructions of a function compute, as LLVM defines them.
Values are `i32` and `i1` integers. `add`, `sub` and `mul` give the mathematical result of
their operands read as signed integers, taken modulo 2^32. `sdiv` gives the quotient rounded
toward zero; it is undefined when the divisor is zero, and for `-2^31 / -1`, whose quotient
does not fit. `icmp` compares two values of one type as signed integers, so an `i1` that is
true reads as `-1`.

Instructions run in order, and each result is numbered after the results of the
instructions before it, which is how operands name them. Calls and pointers are outside this
description: an instruction that uses them has no value here, and neither has an undefined
division.
-/

namespace Abla.Ir

/-- A value of an integer type. -/
inductive Val where
  | i32 (v : BitVec 32)
  | i1 (b : Bool)
  deriving DecidableEq, Repr

namespace Val

/-- The type of a value. -/
def ty : Val → Ty
  | .i32 _ => .i32
  | .i1 _ => .i1

end Val

/-- An `i1` read as a signed integer. -/
def signedBit (b : Bool) : Int := if b then -1 else 0

/-- What an operand denotes, given the values of the function's parameters and the results
of the instructions run so far. An `i32` constant is taken modulo 2^32. -/
def Operand.value (args : String → Option Val) (done : List Val) : Operand → Option Val
  | .int n => some (.i32 (BitVec.ofInt 32 n))
  | .bool b => some (.i1 b)
  | .param name _ => args name
  | .inst k _ => done[k]?
  | .func _ _ | .string _ _ => none

/-- An arithmetic instruction on two `i32` values; `none` where LLVM leaves it undefined. -/
def Arith.apply : Arith → BitVec 32 → BitVec 32 → Option (BitVec 32)
  | .add, a, b => some (BitVec.ofInt 32 (a.toInt + b.toInt))
  | .sub, a, b => some (BitVec.ofInt 32 (a.toInt - b.toInt))
  | .mul, a, b => some (BitVec.ofInt 32 (a.toInt * b.toInt))
  | .sdiv, a, b =>
    if b.toInt = 0 ∨ (a.toInt = -Int.pow 2 31 ∧ b.toInt = -1) then none
    else some (BitVec.ofInt 32 (a.toInt.tdiv b.toInt))

/-- Whether a comparison holds between two signed integers. -/
def Pred.holds : Pred → Int → Int → Bool
  | .eq, a, b => a == b
  | .ne, a, b => a != b
  | .sgt, a, b => decide (a > b)
  | .slt, a, b => decide (a < b)
  | .sge, a, b => decide (a ≥ b)
  | .sle, a, b => decide (a ≤ b)

/-- The result of an instruction, given the parameters and the results before it. -/
def Inst.eval (args : String → Option Val) (done : List Val) : Inst → Option Val
  | .arith op a b =>
    match a.value args done, b.value args done with
    | some (.i32 x), some (.i32 y) => (op.apply x y).map .i32
    | _, _ => none
  | .icmp p a b =>
    match a.value args done, b.value args done with
    | some (.i32 x), some (.i32 y) => some (.i1 (p.holds x.toInt y.toInt))
    | some (.i1 x), some (.i1 y) => some (.i1 (p.holds (signedBit x) (signedBit y)))
    | _, _ => none
  | .call _ _ _ => none

/-- Runs instructions in order after the results `done` of those before them, and gives all
results so far; `none` at the first instruction that has no value. -/
def run (args : String → Option Val) : List Val → List Inst → Option (List Val)
  | done, [] => some done
  | done, i :: is =>
    match i.eval args done with
    | some v => run args (done ++ [v]) is
    | none => none

/-- The instructions of a function, block after block. -/
def Func.insts (f : Func) : List Inst := f.blocks.toList.flatMap fun b => b.insts.toList

@[simp] theorem run_nil (args : String → Option Val) (done : List Val) :
    run args done [] = some done := rfl

theorem run_cons (args : String → Option Val) (done : List Val) (i : Inst) (is : List Inst) :
    run args done (i :: is) = (i.eval args done).bind fun v => run args (done ++ [v]) is := by
  simp only [run]
  cases i.eval args done <;> rfl

/-- Running two stretches of code runs the second after the results of the first. -/
theorem run_append (args : String → Option Val) (done : List Val) (xs ys : List Inst) :
    run args done (xs ++ ys) = (run args done xs).bind fun d => run args d ys := by
  induction xs generalizing done with
  | nil => rfl
  | cons i is ih =>
    rw [List.cons_append, run_cons, run_cons]
    cases i.eval args done with
    | none => rfl
    | some v => exact ih (done ++ [v])

/-- A run adds one result per instruction after the results it started from. -/
theorem run_extends {args : String → Option Val} {done d : List Val} {is : List Inst}
    (h : run args done is = some d) : ∃ more, d = done ++ more ∧ more.length = is.length := by
  induction is generalizing done with
  | nil => exact ⟨[], by simpa using h.symm, rfl⟩
  | cons i is ih =>
    rw [run_cons] at h
    cases hv : i.eval args done with
    | none => simp [hv] at h
    | some v =>
      rw [hv, Option.bind_some] at h
      obtain ⟨more, rfl, hlen⟩ := ih h
      exact ⟨v :: more, by simp, by simp [hlen]⟩

/-- An operand that names an earlier result keeps its value as more results follow. -/
theorem Operand.value_append {args : String → Option Val} {done : List Val} {o : Operand}
    {x : Val} (h : o.value args done = some x) (more : List Val) :
    o.value args (done ++ more) = some x := by
  cases o with
  | inst k ty =>
    have hk : k < done.length := (List.getElem?_eq_some_iff.1 h).1
    simpa [Operand.value, List.getElem?_append_left hk] using h
  | _ => exact h

end Abla.Ir
