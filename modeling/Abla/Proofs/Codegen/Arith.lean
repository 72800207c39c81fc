import Mathlib
import Abla.Proofs.Codegen.Emit
import Abla.Proofs.Eval.World

/-!
# Compile time and run time agree on arithmetic

An expression built from integer literals, binary operators and `#` has a value at compile
time, computed on 32-bit integers that wrap, and code at run time: the `add`, `sub`, `mul`,
`sdiv` and `icmp` instructions the generator emits, each outermost `#` part replaced by the
constant that executing the unit recorded for it. `lowering_agrees_with_eval` says the two
agree. Executing the unit records for each `#` part the value of its expression; from those
records the emitted code computes the compile-time value, as an `i32` or an `i1`, unless one of
its divisions is `-2^31 / -1`, which the evaluator wraps to `-2^31` and LLVM leaves
undefined. An integer literal too large for 32 bits is the same parse error on both paths.

The proof follows the generator. `genExpr_arith` is an induction over the expression that
names the instructions appended and the operand left on the stack, and `BinOp.inst_eval`
says that each operator's instruction computes what the evaluator's operator computes: a sum,
difference or product read as signed integers and wrapped, a quotient rounded toward zero, a
signed comparison, or an equality of booleans.
-/

namespace Abla

/-- Expressions built from integer literals, binary operators and `#`. -/
inductive Arith : Expr → Prop
  | int (s : Site) (t : String) : Arith (.int s t)
  | binary (s : Site) (op : BinOp) {l r : Expr} : Arith l → Arith r → Arith (.binary s op l r)
  | exec (s : Site) {e : Expr} : Arith e → Arith (.exec s e)

namespace Expr

/-- The compile-time value of an expression of literals, operators and `#`, or the error
the evaluator stops with. Other expressions have no value here. -/
def arithValue : Expr → Except CompileError Value
  | .int s t =>
    match literalValue? t with
    | some n => .ok (.int n)
    | none => .error { kind := .parse, span := some s.span,
                       message := "invalid integer literal: `" ++ t ++ "`" }
  | .binary s op l r => do Eval.binary s.span op (← l.arithValue) (← r.arithValue)
  | .exec _ e => e.arithValue
  | _ => .error (.internal "not an arithmetic expression")

/-- The node numbers of the outermost `#` parts of an expression of literals and operators. -/
def execIds : Expr → List Nat
  | .binary _ _ l r => l.execIds ++ r.execIds
  | .exec s _ => [s.id]
  | _ => []

end Expr

/-- The LLVM value of an integer or a boolean computed at compile time. -/
def Value.toIr? : Value → Option Ir.Val
  | .int n => some (.i32 n.toBitVec)
  | .bool b => some (.i1 b)
  | _ => none

/-- The constant a value is embedded as, when it can be. -/
def Value.const? : Value → Option ConstValue
  | .int n => some (.int n.toInt)
  | .str s => some (.str s)
  | .bool b => some (.bool b)
  | _ => none

/-- Whether an operator divides `-2^31` by `-1`. -/
def BinOp.divOverflows : BinOp → Value → Value → Bool
  | .div, .int a, .int b => a == Int32.minValue && b == -1
  | _, _, _ => false

/-- No division outside `#` divides `-2^31` by `-1`. -/
def DivSafe : Expr → Prop
  | .binary _ op l r =>
    DivSafe l ∧ DivSafe r ∧
      ∀ lv rv, l.arithValue = .ok lv → r.arithValue = .ok rv → op.divOverflows lv rv = false
  | _ => True

/-- The tables hold, for each outermost `#` part of an expression, the constant of the value
of its own expression, as executing the unit records it. -/
def Recorded (t : Tables) : Expr → Prop
  | .binary _ _ l r => Recorded t l ∧ Recorded t r
  | .exec s e => ∃ v, e.arithValue = .ok v ∧ t.notes.constOf? s.id = v.const?
  | _ => True

section Wrap

/-! The readings of a 32-bit word: Go's `int32` operations are those of two's complement
words, which is how LLVM defines its instructions. -/

/-- Adding the signed readings of two words and wrapping gives their 32-bit sum. -/
theorem bitVec_ofInt_add (a b : Int32) :
    BitVec.ofInt 32 (a.toInt + b.toInt) = a.toBitVec + b.toBitVec := by
  apply BitVec.eq_of_toInt_eq
  rw [BitVec.toInt_ofInt, BitVec.toInt_add]
  rfl

theorem bitVec_ofInt_sub (a b : Int32) :
    BitVec.ofInt 32 (a.toInt - b.toInt) = a.toBitVec - b.toBitVec := by
  apply BitVec.eq_of_toInt_eq
  rw [BitVec.toInt_ofInt, BitVec.toInt_sub]
  rfl

theorem bitVec_ofInt_mul (a b : Int32) :
    BitVec.ofInt 32 (a.toInt * b.toInt) = a.toBitVec * b.toBitVec := by
  apply BitVec.eq_of_toInt_eq
  rw [BitVec.toInt_ofInt, BitVec.toInt_mul]
  rfl

/-- Dividing the signed readings, rounding toward zero, and wrapping gives the signed
quotient of the words. -/
theorem bitVec_ofInt_tdiv (a b : Int32) :
    BitVec.ofInt 32 (a.toInt.tdiv b.toInt) = a.toBitVec.sdiv b.toBitVec := by
  apply BitVec.eq_of_toInt_eq
  rw [BitVec.toInt_ofInt, BitVec.toInt_sdiv]
  rfl

@[simp] theorem bitVec_ofInt_int32_toInt (n : Int32) : BitVec.ofInt 32 n.toInt = n.toBitVec :=
  BitVec.ofInt_toInt

theorem int32_bne_toInt (a b : Int32) : (a.toInt != b.toInt) = (a != b) := by
  rw [Bool.eq_iff_iff]
  simp [Int32.toInt_inj]

theorem int32_eq_minValue_iff (a : Int32) : a = Int32.minValue ↔ a.toInt = -Int.pow 2 31 := by
  rw [← Int32.toInt_inj]
  rfl

theorem int32_eq_neg_one_iff (a : Int32) : a = -1 ↔ a.toInt = -1 := by
  rw [← Int32.toInt_inj]
  rfl

end Wrap

namespace Eval

/-- The evaluator computes `arithValue` and leaves the build alone, whatever it calls and
wherever its names resolve. -/
theorem Walk.expr_arith (call : Caller) (env : Env) {e : Expr} (he : Arith e) (b : Build) :
    (Walk.expr call env e).run.run b = (e.arithValue, b) := by
  induction he generalizing b with
  | int s t =>
    simp only [Walk.expr, Expr.arithValue]
    cases literalValue? t <;> rfl
  | @binary s op l r _ _ ihl ihr =>
    simp only [Walk.expr, Run.run_bind, ihl, Expr.arithValue]
    cases l.arithValue with
    | error err => rfl
    | ok lv =>
      simp only [ihr]
      cases r.arithValue with
      | error err => rfl
      | ok rv => simp [bind, Except.bind]
  | exec s _ ih => simpa [Walk.expr, Expr.arithValue] using ih b

/-- What an operator the evaluator accepts was applied to: two integers, or two strings or
two booleans compared for equality. -/
theorem binary_ok {sp : Span} {op : BinOp} {lv rv v : Value}
    (h : binary sp op lv rv = .ok v) :
    (∃ m n, lv = .int m ∧ rv = .int n ∧ intOp sp op m n = .ok v) ∨
    (∃ p q, lv = .str p ∧ rv = .str q ∧ op.isEquality) ∨
    (∃ p q, lv = .bool p ∧ rv = .bool q ∧ op.isEquality ∧
      v = .bool (if op = .eq then p == q else p != q)) := by
  cases lv <;> cases rv <;> simp only [binary, reduceCtorEq] at h
  case int.int m n => exact .inl ⟨m, n, rfl, rfl, h⟩
  case str.str p q =>
    refine .inr (.inl ⟨p, q, rfl, rfl, ?_⟩)
    cases op <;> simp_all [BinOp.isEquality]
  case bool.bool p q =>
    refine .inr (.inr ⟨p, q, rfl, rfl, ?_⟩)
    cases op <;> simp_all [BinOp.isEquality]

end Eval

/-- An expression of literals, operators and `#` has an integer or a boolean value. -/
theorem Arith.value_cases {e : Expr} (he : Arith e) {v : Value} (hv : e.arithValue = .ok v) :
    (∃ n, v = .int n) ∨ (∃ b, v = .bool b) := by
  induction he generalizing v with
  | int s t =>
    simp only [Expr.arithValue] at hv
    split at hv
    · cases hv
      exact .inl ⟨_, rfl⟩
    · cases hv
  | @binary s op l r _ _ ihl ihr =>
    simp only [Expr.arithValue] at hv
    cases hl : l.arithValue <;> cases hr : r.arithValue <;>
      simp only [hl, hr, bind, Except.bind, reduceCtorEq] at hv
    rename_i lv rv
    rcases Eval.binary_ok hv with ⟨m, n, -, -, hmn⟩ | ⟨p, q, rfl, -, -⟩ | ⟨p, q, -, -, -, rfl⟩
    · -- integers: arithmetic gives an integer, a comparison a boolean
      cases op <;> simp only [Eval.intOp] at hmn
      case div =>
        split at hmn
        · cases hmn
        · cases hmn; simp
      all_goals cases hmn; simp
    · simpa using ihl hl
    · simp
  | exec s _ ih => exact ih hv

/-- Each operator's instruction computes what the evaluator computes on the operands'
values, except `-2^31 / -1`, which the evaluator wraps and LLVM leaves undefined. -/
theorem BinOp.inst_eval {sp : Span} {op : BinOp} {lv rv v : Value}
    (hv : Eval.binary sp op lv rv = .ok v) {x y : Ir.Val} (hx : lv.toIr? = some x)
    (hy : rv.toIr? = some y) {args : String → Option Ir.Val} {d : List Ir.Val}
    {a b : Ir.Operand} (ha : a.value args d = some x) (hb : b.value args d = some y) :
    (op.inst a b).eval args d = if op.divOverflows lv rv then none else v.toIr? := by
  rcases Eval.binary_ok hv with ⟨m, n, rfl, rfl, hmn⟩ | ⟨p, q, rfl, rfl, -⟩ |
    ⟨p, q, rfl, rfl, hop, rfl⟩
  · -- two integers: arithmetic wraps, division truncates, comparisons are signed
    simp only [Value.toIr?, Option.some.injEq] at hx hy
    subst hx hy
    cases op <;> simp only [Eval.intOp, Except.ok.injEq] at hmn
    case div =>
      split at hmn
      · cases hmn
      · rename_i hn
        cases hmn
        have hn0 : n.toInt ≠ 0 := fun h => hn (Int32.toInt_inj.1 (by simpa using h))
        simp [BinOp.inst, Ir.Inst.eval, ha, hb, Ir.Arith.apply, BinOp.divOverflows, Value.toIr?,
          int32_eq_minValue_iff, int32_eq_neg_one_iff, bitVec_ofInt_tdiv, hn0]
        split <;> rfl
    all_goals
      subst hmn
      simp [BinOp.inst, Ir.Inst.eval, ha, hb, Ir.Arith.apply, Ir.Pred.holds, BinOp.divOverflows,
        Value.toIr?, bitVec_ofInt_add, bitVec_ofInt_sub, bitVec_ofInt_mul, Int32.lt_iff_toInt_lt,
        Int32.le_iff_toInt_le, Int32.toInt_inj, int32_bne_toInt]
  · simp [Value.toIr?] at hx
  · -- two booleans compared for equality, as `i1` values
    simp only [Value.toIr?, Option.some.injEq] at hx hy
    subst hx hy
    cases op <;> cases p <;> cases q <;>
      simp_all [BinOp.isEquality, BinOp.inst, Ir.Inst.eval, Ir.Pred.holds, Ir.signedBit,
        BinOp.divOverflows, Value.toIr?]

/-- An operator the evaluator accepts has operands of one LLVM type, `i32` unless it is `==`
or `!=`, and its instruction has the type of the result. -/
theorem BinOp.inst_typed {sp : Span} {op : BinOp} {lv rv v : Value}
    (hv : Eval.binary sp op lv rv = .ok v) {x y : Ir.Val} (hx : lv.toIr? = some x)
    (hy : rv.toIr? = some y) (a b : Ir.Operand) (ha : a.ty = x.ty) :
    x.ty = y.ty ∧ (op.isEquality = false → x.ty = .i32) ∧
      ∃ z, v.toIr? = some z ∧ (op.inst a b).ty = z.ty := by
  rcases Eval.binary_ok hv with ⟨m, n, rfl, rfl, hmn⟩ | ⟨p, q, rfl, rfl, -⟩ |
    ⟨p, q, rfl, rfl, hop, rfl⟩
  · simp only [Value.toIr?, Option.some.injEq] at hx hy
    subst hx hy
    refine ⟨rfl, fun _ => rfl, ?_⟩
    cases op <;> simp only [Eval.intOp, Except.ok.injEq] at hmn
    case div =>
      split at hmn
      · cases hmn
      · cases hmn
        exact ⟨_, rfl, ha⟩
    case add | sub | mul => subst hmn; exact ⟨_, rfl, ha⟩
    -- the comparisons give a boolean, and their instruction an `i1`
    all_goals subst hmn; exact ⟨_, rfl, rfl⟩
  · simp [Value.toIr?] at hx
  · simp only [Value.toIr?, Option.some.injEq] at hx hy
    subst hx hy
    refine ⟨rfl, by simp [hop], ?_⟩
    cases op <;> simp [BinOp.isEquality] at hop <;> exact ⟨_, rfl, rfl⟩

/-- The code the generator emits for an expression: appended after `base` instructions, it
leaves in `op` the LLVM value of `v` when `safe` holds, and stops at an undefined division
otherwise. -/
structure Lowers (base : Nat) (new : List Ir.Inst) (op : Ir.Operand) (v : Value) (safe : Prop) :
    Prop where
  value : ∃ x, v.toIr? = some x ∧ op.ty = x.ty ∧
    ∀ args done, done.length = base → safe →
      ∃ d, Ir.run args done new = some d ∧ op.value args d = some x
  stuck : ∀ args done, done.length = base → ¬ safe → Ir.run args done new = none

namespace Codegen

/-- Generating an expression of literals, operators and `#` from a state that emits into
function `fn` appends code to `fn` and leaves one operand, and that code computes the
expression's compile-time value, each `#` part read from the tables. -/
theorem genExpr_arith {e : Expr} (he : Arith e) {v : Value} (hv : e.arithValue = .ok v)
    {t : Tables} (hr : Recorded t e) {g : Gen} {fn : Nat} (hg : Emitting g fn) :
    ∃ new op, ((genExpr e).run.run g).run t =
        (.ok (), { g.emitted fn new with stack := g.stack.pushValue op }) ∧
      Lowers (g.code fn).length new op v (DivSafe e) := by
  induction he generalizing v g with
  | int s txt =>
    cases hn : literalValue? txt with
    | none => simp [Expr.arithValue, hn] at hv
    | some n =>
      simp only [Expr.arithValue, hn, Except.ok.injEq] at hv
      subst hv
      refine ⟨[], .int n.toInt, by simp [genExpr, hn], ⟨⟨_, rfl, rfl, ?_⟩, ?_⟩⟩
      · intro args done _ _
        exact ⟨done, rfl, by simp [Ir.Operand.value]⟩
      · intro args done _ hns
        exact absurd trivial hns
  | @exec s e he _ =>
    obtain ⟨v', hv', hc⟩ := hr
    simp only [Expr.arithValue] at hv
    rw [hv, Except.ok.injEq] at hv'
    subst hv'
    rcases Arith.value_cases he hv with ⟨n, rfl⟩ | ⟨b, rfl⟩
    · refine ⟨[], .int n.toInt, ?_, ⟨⟨_, rfl, rfl, ?_⟩, fun _ _ _ hns => absurd trivial hns⟩⟩
      · simp only [genExpr, genConst, G.run_bind, G.run_read, hc, Value.const?, push_run]
        rfl
      · intro args done _ _
        exact ⟨done, rfl, by simp [Ir.Operand.value]⟩
    · refine ⟨[], .bool b, ?_, ⟨⟨_, rfl, rfl, ?_⟩, fun _ _ _ hns => absurd trivial hns⟩⟩
      · simp only [genExpr, genConst, G.run_bind, G.run_read, hc, Value.const?, push_run]
        rfl
      · intro args done _ _
        exact ⟨done, rfl, rfl⟩
  | @binary s op l r _ _ ihl ihr =>
    -- the values of both sides, and what the operator makes of them
    simp only [Expr.arithValue] at hv
    cases hlv : l.arithValue with
    | error err => simp [hlv, bind, Except.bind] at hv
    | ok lv =>
    cases hrv : r.arithValue with
    | error err => simp [hlv, hrv, bind, Except.bind] at hv
    | ok rv =>
    simp only [hlv, hrv, bind, Except.bind] at hv
    obtain ⟨hrl, hrr⟩ := hr
    -- the left side is generated first, the right side after it
    obtain ⟨newl, opl, hgl, hLl⟩ := ihl hlv hrl hg
    obtain ⟨newr, opr, hgr, hLr⟩ := ihr hrv hrr (hg.emitted newl)
    obtain ⟨x, hx, hxty, hxrun⟩ := hLl.value
    obtain ⟨y, hy, hyty, hyrun⟩ := hLr.value
    obtain ⟨hxy, hint, z, hz, hzty⟩ := BinOp.inst_typed hv hx hy opl opr hxty
    have hsame : Ir.Ty.same opl.ty opr.ty = true := by
      rw [hxty, hyty, hxy]
      cases y <;> rfl
    have hok : (!op.isEquality && !Ir.Ty.same opl.ty .i32) = false := by
      cases heq : op.isEquality
      · rw [hxty, hint heq]; rfl
      · rfl
    have hg₂ : Emitting (g.emitted fn (newl ++ newr)) fn := hg.emitted (newl ++ newr)
    obtain ⟨fr, htarget, -⟩ := hg.emitTarget (some s.span)
    refine ⟨newl ++ newr ++ [op.inst opl opr],
      .inst ((g.emitted fn (newl ++ newr)).code fn).length (op.inst opl opr).ty, ?_, ?_⟩
    · simp only [genExpr, G.run_bind, genValue_run hgl rfl, genValue_run hgr rfl, hsame, hok,
        Bool.not_true, Bool.false_eq_true, if_false, G.run_get, Gen.emitted_stack, htarget,
        G.run_onStack_ok, emit_run hg₂, push_run, Gen.emitted_emitted, List.append_assoc]
    · -- the instruction's operands are the values the two sides' code left
      have hcode : (g.emitted fn (newl ++ newr)).code fn = g.code fn ++ newl ++ newr := by
        rw [hg.code_emitted, List.append_assoc]
      have hcodel : (g.emitted fn newl).code fn = g.code fn ++ newl := hg.code_emitted newl
      refine ⟨⟨z, hz, hzty, ?_⟩, ?_⟩
      · rintro args done hlen ⟨hsl, hsr, hnov⟩
        obtain ⟨dl, hdl, hvl⟩ := hxrun args done hlen hsl
        obtain ⟨morel, rfl, hmorel⟩ := Ir.run_extends hdl
        obtain ⟨dr, hdr, hvr⟩ := hyrun args (done ++ morel) (by simp [hcodel, hlen, hmorel]) hsr
        obtain ⟨morer, rfl, hmorer⟩ := Ir.run_extends hdr
        have heval := BinOp.inst_eval hv hx hy (Ir.Operand.value_append hvl morer) hvr
        rw [hnov lv rv hlv hrv, hz] at heval
        refine ⟨done ++ morel ++ morer ++ [z], ?_, ?_⟩
        · rw [Ir.run_append, Ir.run_append, hdl, Option.bind_some, hdr, Option.bind_some,
            Ir.run_cons, heval]
          rfl
        · simp [Ir.Operand.value, hcode, hlen, hmorel, hmorer]
      · intro args done hlen hns
        rw [Ir.run_append, Ir.run_append]
        by_cases hsl : DivSafe l
        · obtain ⟨dl, hdl, hvl⟩ := hxrun args done hlen hsl
          obtain ⟨morel, rfl, hmorel⟩ := Ir.run_extends hdl
          have hlenr : (done ++ morel).length = ((g.emitted fn newl).code fn).length := by
            simp [hcodel, hlen, hmorel]
          rw [hdl, Option.bind_some]
          by_cases hsr : DivSafe r
          · -- both sides run, and the division at the top is the undefined one
            obtain ⟨dr, hdr, hvr⟩ := hyrun args (done ++ morel) hlenr hsr
            obtain ⟨morer, rfl, -⟩ := Ir.run_extends hdr
            have hov : op.divOverflows lv rv = true := by
              by_contra hno
              exact hns ⟨hsl, hsr, fun lv' rv' hl' hr' => by
                rw [hlv, Except.ok.injEq] at hl'
                rw [hrv, Except.ok.injEq] at hr'
                subst hl' hr'
                simpa using hno⟩
            have heval := BinOp.inst_eval hv hx hy (Ir.Operand.value_append hvl morer) hvr
            rw [hov, if_pos rfl] at heval
            rw [hdr, Option.bind_some, Ir.run_cons, heval]
            rfl
          · rw [hLr.stuck args (done ++ morel) hlenr hsr]
            rfl
        · rw [hLl.stuck args done hlen hsl]
          rfl

end Codegen

/-- Whether the tables record the `#` parts of an expression depends only on the constants
recorded for their node numbers. -/
theorem Recorded.congr {e : Expr} (he : Arith e) {t t' : Tables}
    (h : ∀ id ∈ e.execIds, t'.notes.constOf? id = t.notes.constOf? id) (hr : Recorded t e) :
    Recorded t' e := by
  induction he with
  | int s txt => trivial
  | @binary s op l r _ _ ihl ihr =>
    obtain ⟨hrl, hrr⟩ := hr
    exact ⟨ihl (fun id hid => h id (by simp [Expr.execIds, hid])) hrl,
      ihr (fun id hid => h id (by simp [Expr.execIds, hid])) hrr⟩
  | @exec s e _ _ =>
    obtain ⟨v, hv, hc⟩ := hr
    exact ⟨v, hv, by rw [h s.id (by simp [Expr.execIds]), hc]⟩

/-- Executing the `#` parts of an expression of literals and operators, as executing its
unit does, records for each the constant of its expression's value, and no other constant.
The node numbers of the parts are distinct, as in any numbered tree. -/
theorem constsExpr_records (sc : Eval.Scene) (scope : ScopeId) {e : Expr} (he : Arith e)
    (hids : e.execIds.Nodup) {v : Value} (hv : e.arithValue = .ok v) (b : Build) :
    ∃ b', (Eval.constsExpr sc scope e).run.run b = (.ok (), b') ∧ Recorded b'.tables e ∧
      ∀ id ∉ e.execIds, b'.tables.notes.constOf? id = b.tables.notes.constOf? id := by
  induction he generalizing v b with
  | int s txt => exact ⟨b, by simp [Eval.constsExpr]; rfl, trivial, fun _ _ => rfl⟩
  | @binary s op l r _ _ ihl ihr =>
    simp only [Expr.arithValue] at hv
    cases hlv : l.arithValue with
    | error err => simp [hlv, bind, Except.bind] at hv
    | ok lv =>
    cases hrv : r.arithValue with
    | error err => simp [hlv, hrv, bind, Except.bind] at hv
    | ok rv =>
    simp only [Expr.execIds, List.nodup_append] at hids
    obtain ⟨hidl, hidr, hdisj⟩ := hids
    obtain ⟨b₁, hb₁, hrl, hfl⟩ := ihl hidl hlv b
    obtain ⟨b₂, hb₂, hrr, hfr⟩ := ihr hidr hrv b₁
    refine ⟨b₂, by simp only [Eval.constsExpr, Eval.Run.run_bind, hb₁, hb₂], ⟨?_, hrr⟩, ?_⟩
    · -- the right side's records leave the left side's alone
      exact Recorded.congr ‹Arith l› (fun id hid => hfr id fun hr' => hdisj id hid id hr' rfl) hrl
    · intro id hid
      simp only [Expr.execIds, List.mem_append, not_or] at hid
      rw [hfr id hid.2, hfl id hid.1]
  | @exec s e he _ =>
    simp only [Expr.arithValue] at hv
    have heval := Eval.Walk.expr_arith (Eval.callWith sc Eval.maxCallDepth) (.mk [] scope none) he b
    rw [hv] at heval
    rcases Arith.value_cases he hv with ⟨n, rfl⟩ | ⟨p, rfl⟩
    all_goals
      refine ⟨_, by simp only [Eval.constsExpr, Eval.evaluate, Eval.Run.run_bind, heval,
        Eval.recordConst]; rfl, ⟨_, hv, by simp [Value.const?]⟩, ?_⟩
      intro id hid
      simp only [Expr.execIds, List.mem_singleton] at hid
      simp [Notes.constOf?_setConst_of_ne _ _ (Ne.symm hid)]

section Literals

/-- Text an integer literal may have: decimal digits and underscores, at least one digit. -/
def IsNumeral (t : String) : Prop :=
  (∀ c ∈ t.toList, c.isDigit = true ∨ c = '_') ∧ ∃ c ∈ t.toList, c.isDigit = true

/-- The number a numeral denotes, its underscores ignored. -/
def numeralValue (t : String) : Nat :=
  Nat.ofDigits 10 (((t.toList.filter (· ≠ '_')).map fun c => c.toNat - '0'.toNat).reverse)

/-- Reading decimal digits from the left, as the literal reader does, gives the number they
denote after what was read before. -/
theorem foldl_digits (ds : List Char) (k : Nat) :
    ds.foldl (fun acc c => acc * 10 + (c.toNat - '0'.toNat)) k =
      k * 10 ^ ds.length + Nat.ofDigits 10 ((ds.map fun c => c.toNat - '0'.toNat).reverse) := by
  induction ds generalizing k with
  | nil => simp
  | cons c cs ih =>
    rw [List.foldl_cons, ih, List.map_cons, List.reverse_cons, Nat.ofDigits_append]
    simp only [List.length_cons, List.length_reverse, List.length_map, Nat.ofDigits_singleton]
    ring

/-- A numeral is refused exactly when the number it denotes does not fit in 31 bits. -/
theorem literalValue?_eq_none_iff {t : String} (h : IsNumeral t) :
    literalValue? t = none ↔ 2 ^ 31 ≤ numeralValue t := by
  obtain ⟨hall, c, hc, hdigit⟩ := h
  -- what is left after the underscores is a nonempty run of digits
  have hne : (t.toList.filter (· ≠ '_')).isEmpty = false := by
    rw [List.isEmpty_eq_false_iff_exists_mem]
    have hcu : c ≠ '_' := by
      rintro rfl
      simp at hdigit
    exact ⟨c, List.mem_filter.2 ⟨hc, by simpa using hcu⟩⟩
  have hdigits : (t.toList.filter (· ≠ '_')).all Char.isDigit = true := by
    rw [List.all_eq_true]
    intro d hd
    obtain ⟨hd, hne⟩ := List.mem_filter.1 hd
    rcases hall d hd with h | h
    · exact h
    · simp [h] at hne
  have hpow : (Int.pow 2 31 : Int) = ((2 ^ 31 : Nat) : Int) := rfl
  simp only [literalValue?, hne, hdigits, Bool.not_true, Bool.or_self, Bool.false_eq_true,
    if_false, foldl_digits, zero_mul, zero_add, hpow, Nat.cast_lt]
  unfold numeralValue
  split
  · rename_i hlt
    simp only [reduceCtorEq, false_iff, not_le]
    exact hlt
  · rename_i hge
    simp only [true_iff]
    omega

/-- A numeral too large for 32 bits is the same parse error for the evaluator and for the
generator. -/
theorem literal_too_large_rejected (s : Site) {t : String} (h : IsNumeral t)
    (hbig : 2 ^ 31 ≤ numeralValue t) :
    ∃ err : CompileError, err.kind = .parse ∧
      (∀ call env b, (Eval.Walk.expr call env (.int s t)).run.run b = (.error err, b)) ∧
      ∀ g tab, ((Codegen.genExpr (.int s t)).run.run g).run tab = (.error err, g) := by
  have hnone := (literalValue?_eq_none_iff h).2 hbig
  refine ⟨{ kind := .parse, span := some s.span, message := "invalid integer literal: `" ++ t ++ "`" },
    rfl, fun call env b => ?_, fun g tab => ?_⟩
  · simp only [Eval.Walk.expr, hnone]
    rfl
  · simp only [Codegen.genExpr, hnone]
    rfl

end Literals

/-- Compile time and run time agree on arithmetic. Let `e` be an expression of integer
literals, binary operators and `#`, on which the evaluator gives `v`. Executing the unit records,
for each outermost `#` part of `e`, the constant of its value. From tables holding these
records, generating `e` in a function body appends code to the function and leaves an operand;
once that code has run after the function's earlier instructions, the operand holds `v` as an
`i32` or an `i1`, unless a division of the code is `-2^31 / -1`, and then the code stops
there, undefined. A numeral too large for 32 bits is the same parse error on both paths. -/
theorem lowering_agrees_with_eval :
    (∀ (e : Expr) (v : Value) (call : Eval.Caller) (env : Env) (b b' : Build), Arith e →
      (Eval.Walk.expr call env e).run.run b = (.ok v, b') →
      (∀ (sc : Eval.Scene) (scope : ScopeId) (b₀ : Build), e.execIds.Nodup →
        ∃ b₁, (Eval.constsExpr sc scope e).run.run b₀ = (.ok (), b₁) ∧ Recorded b₁.tables e) ∧
      ∀ (t : Tables) (g : Codegen.Gen) (fn : Nat), Recorded t e → Codegen.Emitting g fn →
        ∃ new op x, ((Codegen.genExpr e).run.run g).run t =
            (.ok (), { g.emitted fn new with stack := g.stack.pushValue op }) ∧
          v.toIr? = some x ∧ op.ty = x.ty ∧
          ∀ args done, done.length = (g.code fn).length →
            (DivSafe e → ∃ d, Ir.run args done new = some d ∧ op.value args d = some x) ∧
            (¬ DivSafe e → Ir.run args done new = none)) ∧
    ∀ (s : Site) (t : String), IsNumeral t → 2 ^ 31 ≤ numeralValue t →
      ∃ err : CompileError, err.kind = .parse ∧
        (∀ call env b, (Eval.Walk.expr call env (.int s t)).run.run b = (.error err, b)) ∧
        ∀ g tab, ((Codegen.genExpr (.int s t)).run.run g).run tab = (.error err, g) := by
  refine ⟨fun e v call env b b' he heval => ?_, fun s t h hbig => literal_too_large_rejected s h hbig⟩
  -- whatever it calls, the evaluator gives the expression's value
  have hv : e.arithValue = .ok v := by
    rw [Eval.Walk.expr_arith call env he b, Prod.mk.injEq] at heval
    exact heval.1
  refine ⟨fun sc scope b₀ hids => ?_, fun t g fn hr hg => ?_⟩
  · obtain ⟨b₁, hb₁, hrec, -⟩ := constsExpr_records sc scope he hids hv b₀
    exact ⟨b₁, hb₁, hrec⟩
  · obtain ⟨new, op, hgen, hlow⟩ := Codegen.genExpr_arith he hv hr hg
    obtain ⟨x, hx, hty, hrun⟩ := hlow.value
    exact ⟨new, op, x, hgen, hx, hty, fun args done hlen =>
      ⟨hrun args done hlen, hlow.stuck args done hlen⟩⟩

/-- `#(2147483647 + 1) < 7 / 2`, whose `#` part wraps to `-2^31`. -/
def wrapCompare : Expr :=
  .binary default .lt
    (.exec ⟨1, default⟩ (.binary default .add (.int default "2147483647") (.int default "1")))
    (.binary default .div (.int default "7") (.int default "2"))

/-- A generator state about to fill the empty entry block of a function `f` returning `i1`. -/
def freshBody : Codegen.Gen :=
  { prog := { module := { funcs := #[{ name := "f", ret := .i1, blocks := #[{ name := "entry" }] }] } },
    unit := "a.abla", unitPrefix := "u0.", stack := { blocks := [{ block := 0, scope := 0 }] } }

/-- The unit `a.abla` executing with a host that compiles nothing. -/
def quietScene : Eval.Scene :=
  ⟨"a.abla", 0, [], ⟨fun _ _ => pure none, fun _ _ => pure ("", none)⟩⟩

/-- Executing `#(2147483647 + 1) < 7 / 2` records `-2^31` for its `#` part, and the code
generated from that record compares it with `7 / 2` and gives `true`, as the evaluator does. -/
theorem lowering_agrees_with_eval_wrapCompare :
    Arith wrapCompare ∧ wrapCompare.execIds.Nodup ∧ Codegen.Emitting freshBody 0 ∧
      DivSafe wrapCompare ∧
      ∃ b₁ new op, (Eval.constsExpr quietScene 0 wrapCompare).run.run default = (.ok (), b₁) ∧
        ((Codegen.genExpr wrapCompare).run.run freshBody).run b₁.tables =
          (.ok (), { freshBody.emitted 0 new with stack := freshBody.stack.pushValue op }) ∧
        ∀ args, ∃ d, Ir.run args [] new = some d ∧ op.value args d = some (.i1 true) := by
  have he : Arith wrapCompare :=
    .binary _ _ (.exec _ (.binary _ _ (.int _ _) (.int _ _))) (.binary _ _ (.int _ _) (.int _ _))
  have hids : wrapCompare.execIds.Nodup := by decide
  have hg : Codegen.Emitting freshBody 0 := ⟨⟨_, rfl, rfl, rfl⟩, ⟨_, rfl, by decide⟩⟩
  have hsafe : DivSafe wrapCompare := by
    refine ⟨trivial, ⟨trivial, trivial, fun lv rv hl hr => ?_⟩, fun _ _ _ _ => rfl⟩
    cases hl
    cases hr
    rfl
  have heval : (Eval.Walk.expr (Eval.callWith quietScene 0) (.mk [] 0 none) wrapCompare).run.run
      default = (.ok (.bool true), default) := rfl
  obtain ⟨hrecords, hcode⟩ := lowering_agrees_with_eval.1 wrapCompare (.bool true)
    (Eval.callWith quietScene 0) (.mk [] 0 none) default default he heval
  obtain ⟨b₁, hb₁, hr⟩ := hrecords quietScene 0 default hids
  obtain ⟨new, op, x, hgen, hx, -, hrun⟩ := hcode b₁.tables freshBody 0 hr hg
  cases hx
  exact ⟨he, hids, hg, hsafe, b₁, new, op, hb₁, hgen, fun args => (hrun args [] rfl).1 hsafe⟩

end Abla
