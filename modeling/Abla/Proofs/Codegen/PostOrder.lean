import Mathlib
import Abla.Proofs.Codegen.Returns

/-!
# Post-order emission and the value stack

Lowering an expression appends its instructions to the open block of its function in
post-order: a call's callee, then its arguments from left to right, then the call itself; an
operator's left operand, then its right operand, then the operator. Names, literals, `#`
constants and function literals append nothing there, a literal's body going into a function
of its own. Every expression leaves exactly one value above the values it found, except a call
of a function returning `void`, which leaves none, and the block stack is left as it was.
`PostOrder n e xs r` says this of the instructions `xs` and the value `r` of `e`, the result of
each instruction numbered after the `n` instructions its function held and those emitted since.

Two consequences follow. A block of statements leaves above its base exactly the value of its
final statement, when that is an expression statement that is reached, and nothing once a
return statement ends it (`BlockPostOrder`). `genValue` fails with `expression produces no
value` exactly on calls of functions returning `void` (`VoidCall`).

The proof follows the generator's mutual recursion for expressions, values and arguments, one
lemma per case (`ExprPost`, `ValuePost`, `ArgsPost`), and then the list of statements of a
block (`genStmts_postOrder`).
-/

namespace Abla

/-- Whether an expression is a call. -/
def Expr.isCall : Expr → Bool
  | .call _ _ _ => true
  | _ => false

namespace Ir.Func

/-- Ending the last block with a `ret` leaves the instructions as they were. -/
@[simp] theorem insts_withRet (f : Func) (r : Option Operand) : (f.withRet r).insts = f.insts := by
  simp only [insts, withRet, Array.toList_modify]
  -- only the `ret` of one block changes
  generalize f.blocks.toList = bs
  generalize f.blocks.size - 1 = k
  induction bs generalizing k with
  | nil => simp
  | cons b bs ih => cases k <;> simp [ih]

end Ir.Func

namespace Codegen

mutual

/-- `PostOrder n e xs r`: lowering `e` into a function holding `n` instructions appends the
instructions `xs` and leaves the value `r`, none for a call of a function returning `void`. -/
inductive PostOrder : Nat → Expr → List Ir.Inst → Option Ir.Operand → Prop
  | ident (n : Nat) (s : Site) (name : String) (v : Ir.Operand) :
      PostOrder n (.ident s name) [] (some v)
  | int (n : Nat) (s : Site) (text : String) (v : Ir.Operand) :
      PostOrder n (.int s text) [] (some v)
  | str (n : Nat) (s : Site) (ps : List Piece) (v : Ir.Operand) :
      PostOrder n (.str s ps) [] (some v)
  | lambda (n : Nat) (s : Site) (body : Block) (v : Ir.Operand) :
      PostOrder n (.lambda s body) [] (some v)
  | exec (n : Nat) (s : Site) (inner : Expr) (v : Ir.Operand) :
      PostOrder n (.exec s inner) [] (some v)
  /-- The callee, then the arguments, then the call. -/
  | call {n : Nat} {s : Site} {f : Expr} {as : List Expr} {xs ys : List Ir.Inst}
      {callee : Ir.Operand} {vs : List Ir.Operand} {ret : Ir.Ty} {ptys : List Ir.Ty} :
      PostOrder n f xs (some callee) → ArgsPostOrder (n + xs.length) as ys vs →
      calleeType callee = some (ret, ptys) →
      PostOrder n (.call s f as) (xs ++ ys ++ [.call callee vs ret])
        (if Ir.Ty.same ret .void then none else some (.inst (n + xs.length + ys.length) ret))
  /-- The left operand, then the right operand, then the operator. -/
  | binary {n : Nat} {s : Site} {op : BinOp} {l r : Expr} {xs ys : List Ir.Inst}
      {a b : Ir.Operand} :
      PostOrder n l xs (some a) → PostOrder (n + xs.length) r ys (some b) →
      PostOrder n (.binary s op l r) (xs ++ ys ++ [op.inst a b])
        (some (.inst (n + xs.length + ys.length) (op.inst a b).ty))

/-- `ArgsPostOrder n es xs vs`: lowering the arguments `es` from left to right into a function
holding `n` instructions appends `xs` and gives their values `vs`. -/
inductive ArgsPostOrder : Nat → List Expr → List Ir.Inst → List Ir.Operand → Prop
  | nil (n : Nat) : ArgsPostOrder n [] [] []
  | cons {n : Nat} {e : Expr} {es : List Expr} {xs ys : List Ir.Inst} {v : Ir.Operand}
      {vs : List Ir.Operand} :
      PostOrder n e xs (some v) → ArgsPostOrder (n + xs.length) es ys vs →
      ArgsPostOrder n (e :: es) (xs ++ ys) (v :: vs)

end

/-- `e` is a call, and its lowering `xs` ends with a call of a function returning `void`. -/
def VoidCall (e : Expr) (xs : List Ir.Inst) : Prop :=
  e.isCall = true ∧
    ∃ callee vs ret, xs.getLast? = some (.call callee vs ret) ∧ Ir.Ty.same ret .void = true

/-- An expression leaves no value exactly when it is a call of a function returning `void`. -/
theorem PostOrder.eq_none_iff {n : Nat} {e : Expr} {xs : List Ir.Inst} {r : Option Ir.Operand}
    (h : PostOrder n e xs r) : r = none ↔ VoidCall e xs := by
  cases h with
  | @call _ _ _ _ xs ys callee vs ret _ _ _ _ =>
    -- the call instruction comes last, whatever the callee and the arguments appended
    have hlast : (xs ++ ys ++ [Ir.Inst.call callee vs ret]).getLast? =
        some (Ir.Inst.call callee vs ret) := List.getLast?_concat
    simp only [VoidCall, Expr.isCall, hlast, Option.some.injEq, Ir.Inst.call.injEq, true_and]
    constructor
    · intro h
      split at h
      · exact ⟨callee, vs, ret, ⟨rfl, rfl, rfl⟩, ‹_›⟩
      · cases h
    · rintro ⟨_, _, _, ⟨rfl, rfl, rfl⟩, hvoid⟩
      simp [hvoid]
  | binary => simp [VoidCall, Expr.isCall]
  | ident | int | str | lambda | exec => simp [VoidCall, Expr.isCall]

/-- `BlockPostOrder n sts xs r`: lowering the statements `sts` into the open block of a
function holding `n` instructions appends `xs`, the instructions of each statement in turn up to
the first return statement, and leaves `r` above the values it found: the value of the final
statement when that is an expression statement, and nothing when a return statement ends the
block, after which nothing is lowered. -/
inductive BlockPostOrder : Nat → List Stmt → List Ir.Inst → Option Ir.Operand → Prop
  | nil (n : Nat) : BlockPostOrder n [] [] none
  | last {n : Nat} {site : Site} {e : Expr} {xs : List Ir.Inst} {r : Option Ir.Operand} :
      PostOrder n e xs r → BlockPostOrder n [.expr site e] xs r
  | expr {n : Nat} {site : Site} {e : Expr} {st : Stmt} {rest : List Stmt}
      {xs ys : List Ir.Inst} {r r' : Option Ir.Operand} :
      PostOrder n e xs r → BlockPostOrder (n + xs.length) (st :: rest) ys r' →
      BlockPostOrder n (.expr site e :: st :: rest) (xs ++ ys) r'
  | retNone {n : Nat} {s : Site} {rest : List Stmt} :
      BlockPostOrder n (.ret s none :: rest) [] none
  | retSome {n : Nat} {s : Site} {e : Expr} {rest : List Stmt} {xs : List Ir.Inst}
      {v : Ir.Operand} :
      PostOrder n e xs (some v) → BlockPostOrder n (.ret s (some e) :: rest) xs none

section States

variable {g g' g₁ : Gen} {c d : Nat}

/-- The code of a function does not depend on the stacks. -/
@[simp] theorem Gen.code_withStack (g : Gen) (st : GenStack Nat Ir.Operand) (c : Nat) :
    ({ g with stack := st } : Gen).code c = g.code c := rfl

namespace Emitting

/-- Pushing and popping values keeps a state emitting where it did. -/
theorem withValues (hg : Emitting g c) (vs : List Ir.Operand) :
    Emitting { g with stack := { g.stack with values := vs } } c :=
  ⟨hg.target, hg.func⟩

/-- Lowering in any block keeps a state emitting into `c`. -/
theorem lowered (hg : Emitting g c) (h : Lowered d g g') : Emitting g' c := by
  obtain ⟨fr, hcur, hblock, hret⟩ := hg.target
  obtain ⟨f, hf, hb⟩ := hg.func
  refine ⟨⟨fr, h.current hcur, hblock, hret⟩, ?_⟩
  obtain ⟨xs, hxs⟩ := h.funcs
  have hc : c < g.prog.module.funcs.size := (Array.getElem?_eq_some_iff.1 hf).1
  rw [hxs c hc, hf]
  split
  · exact ⟨f.extend xs, rfl, by simpa [Ir.Func.extend] using hb⟩
  · exact ⟨f, rfl, hb⟩

end Emitting

/-- Lowering in the block of another function leaves the code of `c` as it was. -/
theorem Lowered.code_of_ne (h : Lowered d g g') (hcd : d ≠ c)
    (hc : c < g.prog.module.funcs.size) : g'.code c = g.code c := by
  obtain ⟨xs, hxs⟩ := h.funcs
  simp only [Gen.code, hxs c hc, if_neg hcd]

/-- A value pushed after steps that changed only the code of other functions: the code of `c`
is as it was, and the value stands on top of the values there were. -/
theorem pushed_of_lowered (hg : Emitting g c) (hst : g₁.stack = g.stack)
    (hl : Lowered (c + 1) g g₁) (v : Ir.Operand) :
    ({ g₁ with stack := g₁.stack.pushValue v } : Gen).code c = g.code c ∧
      ({ g₁ with stack := g₁.stack.pushValue v } : Gen).stack =
        { g.stack with values := g.stack.values ++ [v] } ∧
      Emitting { g₁ with stack := g₁.stack.pushValue v } c := by
  obtain ⟨f, hf, -⟩ := hg.func
  have hc : c < g.prog.module.funcs.size := (Array.getElem?_eq_some_iff.1 hf).1
  exact ⟨hl.code_of_ne (by omega) hc, by rw [hst]; rfl, (hg.lowered hl).withValues _⟩

end States

section Expressions

/-- Lowering `e` from a state emitting into `c` appends the post-order instructions of `e` to
`c` and leaves its value, if any, above the values it found; the blocks are as they were. -/
def ExprPost (e : Expr) : Prop :=
  ∀ ⦃g g' : Gen⦄ ⦃t : Tables⦄ ⦃c : Nat⦄, Emitting g c →
    ((genExpr e).run.run g).run t = (.ok (), g') →
    ∃ xs r, PostOrder (g.code c).length e xs r ∧ g'.code c = g.code c ++ xs ∧
      g'.stack = { g.stack with values := g.stack.values ++ r.toList } ∧ Emitting g' c

/-- Lowering `e` for its value appends its post-order instructions and leaves the stacks as
they were. -/
def ValuePost (e : Expr) : Prop :=
  ∀ ⦃g g' : Gen⦄ ⦃t : Tables⦄ ⦃c : Nat⦄ ⦃v : Ir.Operand⦄, Emitting g c →
    ((genValue e).run.run g).run t = (.ok v, g') →
    ∃ xs, PostOrder (g.code c).length e xs (some v) ∧ g'.code c = g.code c ++ xs ∧
      g'.stack = g.stack ∧ Emitting g' c

/-- Lowering arguments for their values appends their post-order instructions in turn and
leaves the stacks as they were. -/
def ArgsPost (es : List Expr) : Prop :=
  ∀ ⦃g g' : Gen⦄ ⦃t : Tables⦄ ⦃c : Nat⦄ ⦃vs : List Ir.Operand⦄, Emitting g c →
    ((genArgs es).run.run g).run t = (.ok vs, g') →
    ∃ xs, ArgsPostOrder (g.code c).length es xs vs ∧ g'.code c = g.code c ++ xs ∧
      g'.stack = g.stack ∧ Emitting g' c

namespace ExprPost

theorem ident (s : Site) (n : String) : ExprPost (.ident s n) := by
  intro g g' t c hg h
  simp only [genExpr] at h
  obtain ⟨v, rfl⟩ := genIdent_ok h
  exact ⟨[], some v, .ident _ _ _ _, by simp [Gen.code], rfl, hg.withValues _⟩

theorem int_ok (s : Site) (text : String) (k : Int32) (hk : literalValue? text = some k) :
    ExprPost (.int s text) := by
  intro g g' t c hg h
  simp only [genExpr, hk, push_run, G.result_eq] at h
  obtain ⟨-, rfl⟩ := h
  exact ⟨[], some _, .int _ _ _ _, by simp [Gen.code], rfl, hg.withValues _⟩

theorem int_error (s : Site) (text : String) (hk : literalValue? text = none) :
    ExprPost (.int s text) := by
  intro g g' t c hg h
  simp only [genExpr, hk] at h
  cases h

theorem str (site : Site) (ps : List Piece) : ExprPost (.str site ps) := by
  intro g g' t c hg h
  simp only [genExpr] at h
  -- the string global is shared or added; no function's code changes
  obtain ⟨v, g₁, hst, hl, rfl⟩ := genString_ok (c := c + 1) h
  obtain ⟨hcode, hstack, hg'⟩ := pushed_of_lowered hg hst hl v
  exact ⟨[], some v, .str _ _ _ _, by simpa using hcode, hstack, hg'⟩

theorem exec (s : Site) (inner : Expr) : ExprPost (.exec s inner) := by
  intro g g' t c hg h
  simp only [genExpr] at h
  obtain ⟨v, g₁, hst, hl, rfl⟩ := genConst_ok (c := c + 1) h
  obtain ⟨hcode, hstack, hg'⟩ := pushed_of_lowered hg hst hl v
  exact ⟨[], some v, .exec _ _ _ _, by simpa using hcode, hstack, hg'⟩

theorem lambda (s site : Site) (sts : List Stmt) : ExprPost (.lambda s (.mk site sts)) := by
  intro g g' t c hg h
  simp only [genExpr, G.bind_ok, push_run, G.result_eq] at h
  obtain ⟨op, g₁, h₁, -, rfl⟩ := h
  -- the body goes into a new function; the stacks are those of the enclosing code
  obtain ⟨hst, hl⟩ := lowering_footprint.2.1 s sts h₁
  obtain ⟨hcode, hstack, hg'⟩ := pushed_of_lowered hg hst (hl (c + 1)) op
  exact ⟨[], some op, .lambda _ _ _ _, by simpa using hcode, hstack, hg'⟩

theorem call (s : Site) (f : Expr) (as : List Expr) (hf : ValuePost f) (has : ArgsPost as) :
    ExprPost (.call s f as) := by
  intro g g' t c hg h
  simp only [genExpr, G.bind_ok] at h
  obtain ⟨callee, g₁, h₁, args, g₂, h₂, h⟩ := h
  obtain ⟨xs, hpf, hcode₁, hst₁, hg₁⟩ := hf hg h₁
  obtain ⟨ys, hpas, hcode₂, hst₂, hg₂⟩ := has hg₁ h₂
  split at h
  · next ret ptys hty =>
    split at h
    · cases h
    · -- the argument checks read the state; the call is emitted into the block
      simp only [G.bind_ok] at h
      obtain ⟨_, g₃, h₃, r, g₄, h₄, h⟩ := h
      obtain rfl : g₃ = g₂ := G.forIn_reads (fun x b g g' r hr => by
        split at hr
        · cases hr
        · simp only [G.run_pure, G.result_eq] at hr
          exact hr.2.symm) _ _ h₃
      rw [emit_run hg₂, G.result_eq] at h₄
      obtain ⟨hr, rfl⟩ := h₄
      cases hr
      have hlen : (g₃.code c).length = (g.code c).length + xs.length + ys.length := by
        simp [hcode₂, hcode₁, Nat.add_assoc]
      have hcode : (g₃.emitted c [.call callee args ret]).code c =
          g.code c ++ (xs ++ ys ++ [.call callee args ret]) := by
        simp [hg₂.code_emitted, hcode₂, hcode₁]
      have hpas' : ArgsPostOrder ((g.code c).length + xs.length) as ys args := by
        rwa [hcode₁, List.length_append] at hpas
      have hpo := PostOrder.call (s := s) hpf hpas' hty
      -- the call's result is pushed unless it returns nothing
      split at h
      · next hvoid =>
        simp only [push_run, G.result_eq] at h
        obtain ⟨-, rfl⟩ := h
        have hnv : Ir.Ty.same ret .void = false := by simpa using hvoid
        refine ⟨_, _, hpo, hcode, ?_, (hg₂.emitted _).withValues _⟩
        simp [hnv, hlen, GenStack.pushValue, hst₂, hst₁, Ir.Inst.ty]
      · next hvoid =>
        simp only [G.run_pure, G.result_eq] at h
        obtain ⟨-, rfl⟩ := h
        have hv : Ir.Ty.same ret .void = true := by simpa using hvoid
        refine ⟨_, _, hpo, hcode, ?_, hg₂.emitted _⟩
        simp [hv, hst₂, hst₁]
  · cases h

theorem binary (s : Site) (op : BinOp) (l r : Expr) (hl : ValuePost l) (hr : ValuePost r) :
    ExprPost (.binary s op l r) := by
  intro g g' t c hg h
  simp only [genExpr, G.bind_ok] at h
  obtain ⟨a, g₁, h₁, b, g₂, h₂, h⟩ := h
  obtain ⟨xs, hpl, hcode₁, hst₁, hg₁⟩ := hl hg h₁
  obtain ⟨ys, hpr, hcode₂, hst₂, hg₂⟩ := hr hg₁ h₂
  split at h
  · cases h
  · -- the type checks pass; the operator is emitted after both operands
    obtain ⟨fr, ht, -⟩ := hg₂.emitTarget (some s.span)
    simp only [G.get_bind, ht, G.onStack_ok_bind] at h
    split at h
    · cases h
    · simp only [G.bind_ok, emit_run hg₂, push_run, G.result_eq, Except.ok.injEq] at h
      obtain ⟨_, _, ⟨rfl, rfl⟩, -, rfl⟩ := h
      have hpr' : PostOrder ((g.code c).length + xs.length) r ys (some b) := by
        rwa [hcode₁, List.length_append] at hpr
      have hpo : PostOrder (g.code c).length (.binary s op l r) (xs ++ ys ++ [op.inst a b])
          (some (.inst ((g.code c).length + xs.length + ys.length) (op.inst a b).ty)) :=
        PostOrder.binary hpl hpr'
      refine ⟨_, _, hpo, ?_, ?_, (hg₂.emitted _).withValues _⟩
      · show (g₂.emitted c [op.inst a b]).code c = _
        simp [hg₂.code_emitted, hcode₂, hcode₁]
      · simp [GenStack.pushValue, hst₂, hst₁, hcode₂, hcode₁, Nat.add_assoc]

end ExprPost

/-- A value is what its expression left on top, taken back off. -/
theorem ValuePost.of_expr (e : Expr) (he : ExprPost e) : ValuePost e := by
  intro g g' t c v hg h
  simp only [genValue, G.depth_bind, G.bind_ok] at h
  obtain ⟨_, g₁, h₁, h⟩ := h
  obtain ⟨xs, r, hpo, hcode, hst, hg₁⟩ := he hg h₁
  split at h
  · cases h
  · next hne =>
    obtain ⟨st, hpop, rfl⟩ := pop_ok h
    obtain ⟨hlast, rfl⟩ := GenStack.popValue_eq_ok.1 hpop
    -- an expression that pushed nothing has no value to take
    cases r with
    | none => simp [GenStack.depth, hst] at hne
    | some w =>
      simp only [hst, Option.toList_some, List.getLast?_concat, Option.some.injEq] at hlast
      subst hlast
      exact ⟨xs, hpo, hcode, by simp [hst], hg₁.withValues _⟩

theorem ArgsPost.nil : ArgsPost [] := by
  intro g g' t c vs hg h
  simp only [genArgs, G.run_pure, G.result_eq, Except.ok.injEq] at h
  obtain ⟨rfl, rfl⟩ := h
  exact ⟨[], .nil _, by simp, rfl, hg⟩

theorem ArgsPost.cons (e : Expr) (es : List Expr) (he : ValuePost e) (hes : ArgsPost es) :
    ArgsPost (e :: es) := by
  intro g g' t c vs hg h
  simp only [genArgs, G.bind_ok, G.run_pure, G.result_eq, Except.ok.injEq] at h
  obtain ⟨v, g₁, h₁, vs', g₂, h₂, rfl, rfl⟩ := h
  obtain ⟨xs, hpo, hcode₁, hst₁, hg₁⟩ := he hg h₁
  obtain ⟨ys, hpos, hcode₂, hst₂, hg₂⟩ := hes hg₁ h₂
  exact ⟨xs ++ ys, .cons hpo (by rwa [hcode₁, List.length_append] at hpos),
    by simp [hcode₂, hcode₁], hst₂.trans hst₁, hg₂⟩

/-- Post-order emission for every expression, value and list of arguments, one case of the
generator's mutual recursion at a time; statements and function literals are not needed. -/
theorem lowering_postOrder : (∀ e, ExprPost e) ∧ (∀ e, ValuePost e) ∧ ∀ es, ArgsPost es := by
  obtain ⟨hexpr, -, -, -, hvalue, hargs⟩ := genExpr.mutual_induct ExprPost
    (fun _ _ => True) (fun _ _ => True) (fun _ => True) ValuePost ArgsPost
    ExprPost.ident ExprPost.int_ok ExprPost.int_error ExprPost.str ExprPost.call
    (fun s site sts _ => ExprPost.lambda s site sts) ExprPost.binary ExprPost.exec
    (fun _ _ _ => trivial) (fun _ => trivial) (fun _ _ _ _ _ => trivial) (fun _ _ _ => trivial)
    (fun _ => trivial) (fun _ _ _ => trivial) ValuePost.of_expr ArgsPost.nil ArgsPost.cons
  exact ⟨hexpr, hvalue, hargs⟩

end Expressions

section Statements

variable {α β : Type}

/-- A step that changes neither the instructions of any function nor the values: the checks,
the `ret`, the return type and the mark with which a return statement ends a block. -/
def Keeps (x : G α) : Prop :=
  ∀ ⦃g g' : Gen⦄ ⦃t : Tables⦄ ⦃a : α⦄, (x.run.run g).run t = (.ok a, g') →
    (∀ c, g'.code c = g.code c) ∧ g'.stack.values = g.stack.values

namespace Keeps

theorem bind {x : G α} {f : α → G β} (hx : Keeps x) (hf : ∀ a, Keeps (f a)) :
    Keeps (x >>= f) := by
  intro g g' t b h
  obtain ⟨a, g₁, h₁, h₂⟩ := G.bind_ok.1 h
  obtain ⟨hc₁, hv₁⟩ := hx h₁
  obtain ⟨hc₂, hv₂⟩ := hf a h₂
  exact ⟨fun c => (hc₂ c).trans (hc₁ c), hv₂.trans hv₁⟩

/-- A step that only reads the state. -/
theorem of_reads {x : G α}
    (h : ∀ ⦃g g' : Gen⦄ ⦃t : Tables⦄ ⦃a : α⦄, (x.run.run g).run t = (.ok a, g') → g' = g) :
    Keeps x := by
  intro g g' t a hx
  obtain rfl := h hx
  exact ⟨fun _ => rfl, rfl⟩

theorem get_bind {f : Gen → G β} (hf : ∀ g, Keeps (f g)) : Keeps ((get : G Gen) >>= f) := by
  intro g g' t b h
  rw [G.get_bind] at h
  exact hf g h

theorem raise (k : ErrorKind) (sp : Span) (msg : String) : Keeps (raise k sp msg : G α) := by
  intro g g' t a h
  cases h

theorem curFunc : Keeps curFunc := of_reads fun _ _ _ _ h => (curFunc_ok h).1

theorem checkReturnType (sp : Span) (ty : Ir.Ty) : Keeps (checkReturnType sp ty) :=
  of_reads fun _ _ _ _ h => (checkReturnType_ok h).1

theorem inferReturnType (sp : Span) (ty : Ir.Ty) : Keeps (inferReturnType sp ty) := by
  intro g g' t a h
  rcases inferReturnType_ok h with ⟨-, rfl⟩ | ⟨-, rfl, -⟩
  · -- only the return type of the frame's function changes
    refine ⟨fun c => ?_, rfl⟩
    simp only [Gen.code, Ir.Module.funcs_modifyFunc]
    by_cases hc : g.frame.fn = c
    · rw [if_pos hc]
      cases g.prog.module.funcs[c]? <;> rfl
    · rw [if_neg hc]
  · exact ⟨fun _ => rfl, rfl⟩

theorem emitRet (sp : Span) (r : Option Ir.Operand) : Keeps (emitRet sp r) := by
  intro g g' t a h
  obtain ⟨cur, -, -, rfl⟩ := emitRet_ok h
  refine ⟨fun c => ?_, rfl⟩
  simp only [Gen.code, Ir.Module.setRet_eq, Ir.Module.funcs_modifyFunc]
  by_cases hc : cur.block = c
  · rw [if_pos hc]
    cases g.prog.module.funcs[c]? <;> simp
  · rw [if_neg hc]

theorem markReturned : Keeps markReturned := by
  intro g g' t a h
  obtain ⟨cur, -, rfl⟩ := markReturned_ok h
  exact ⟨fun _ => rfl, rfl⟩

theorem warn (sp : Span) (msg : String) : Keeps (warn sp msg) := by
  intro g g' t a h
  simp only [warn_run, G.result_eq] at h
  obtain ⟨-, rfl⟩ := h
  exact ⟨fun _ => rfl, rfl⟩

end Keeps

/-- A bare return statement appends nothing and leaves the values. -/
theorem genStmt_ret_none_keeps (s : Site) : Keeps (genStmt (.ret s none)) := by
  simp only [genStmt]
  refine Keeps.get_bind fun g => ?_
  split
  · exact (Keeps.inferReturnType _ _).bind fun _ => (Keeps.emitRet _ _).bind fun _ =>
      Keeps.markReturned
  · refine Keeps.curFunc.bind fun f => ?_
    split
    · exact (Keeps.raise _ _ _).bind fun _ => (Keeps.emitRet _ _).bind fun _ =>
        Keeps.markReturned
    · exact (Keeps.emitRet _ _).bind fun _ => Keeps.markReturned

/-- A return statement with a value lowers the value, then only checks and ends the block. -/
theorem genStmt_ret_some_eq (s : Site) (e : Expr) :
    ∃ k : Ir.Operand → G Unit, genStmt (.ret s (some e)) = genValue e >>= k ∧ ∀ v, Keeps (k v) :=
  ⟨_, by rw [genStmt], fun v => by
    refine Keeps.get_bind fun g => ?_
    split
    · exact (Keeps.inferReturnType _ _).bind fun _ => (Keeps.emitRet _ _).bind fun _ =>
        Keeps.markReturned
    · exact (Keeps.checkReturnType _ _).bind fun _ => (Keeps.emitRet _ _).bind fun _ =>
        Keeps.markReturned⟩

variable {g g' : Gen} {t : Tables} {c base : Nat}

/-- In a block that has returned, statements are reported, not lowered. -/
theorem genStmts_returned_keeps {sts : List Stmt} {cur : Frame Nat}
    (hcur : g.stack.current = .ok cur) (hret : cur.returned = true)
    (h : ((genStmts base sts).run.run g).run t = (.ok (), g')) :
    (∀ c, g'.code c = g.code c) ∧ g'.stack.values = g.stack.values := by
  cases sts with
  | nil =>
    simp only [genStmts, G.run_pure, G.result_eq] at h
    obtain ⟨-, rfl⟩ := h
    exact ⟨fun _ => rfl, rfl⟩
  | cons st rest =>
    rw [genStmts_cons_of_returned _ _ hcur hret] at h
    exact Keeps.warn _ _ h

/-- The first statement of an open block is lowered from the values below `base`, and the rest
of the block after it. -/
theorem genStmts_first {st : Stmt} {rest : List Stmt} (hg : Emitting g c)
    (h : ((genStmts base (st :: rest)).run.run g).run t = (.ok (), g')) :
    ∃ g₁, ((genStmt st).run.run { g with stack := g.stack.truncate base }).run t = (.ok (), g₁) ∧
      ((genStmts base rest).run.run g₁).run t = (.ok (), g') := by
  obtain ⟨fr, hcur, -, hopen⟩ := hg.target
  rw [genStmts_cons_of_open _ _ hcur hopen, G.bind_ok] at h
  obtain ⟨⟨⟩, g₀, h₀, h⟩ := h
  simp only [truncate_run, G.result_eq] at h₀
  obtain ⟨-, rfl⟩ := h₀
  obtain ⟨⟨⟩, g₁, h₁, h⟩ := G.bind_ok.1 h
  exact ⟨g₁, h₁, h⟩

/-- A return statement first in an open block ends it: the block gets the instructions of the
returned value, and nothing is left above `base`. -/
theorem genStmts_ret_postOrder {s : Site} {oe : Option Expr} {rest : List Stmt}
    (hg : Emitting g c) (h : ((genStmts base (.ret s oe :: rest)).run.run g).run t = (.ok (), g')) :
    ∃ xs, BlockPostOrder (g.code c).length (.ret s oe :: rest) xs none ∧
      g'.code c = g.code c ++ xs ∧ g'.stack.values = g.stack.values.take base := by
  obtain ⟨g₁, h₁, h⟩ := genStmts_first hg h
  obtain ⟨fr, hcur, -, -⟩ := hg.target
  -- the statement marks the block returned, so the rest is not lowered
  obtain ⟨hc, hv⟩ := genStmts_returned_keeps (genStmt_ret_marks h₁ hcur) rfl h
  cases oe with
  | none =>
    obtain ⟨hc₁, hv₁⟩ := genStmt_ret_none_keeps s h₁
    exact ⟨[], .retNone, by simp [hc, hc₁], hv.trans hv₁⟩
  | some e =>
    obtain ⟨k, hk, hkeep⟩ := genStmt_ret_some_eq s e
    rw [hk, G.bind_ok] at h₁
    obtain ⟨v, g₂, h₂, h₁⟩ := h₁
    obtain ⟨xs, hpo, hcode₂, hst₂, -⟩ := lowering_postOrder.2.1 e (hg.withValues _) h₂
    simp only [Gen.code_withStack] at hpo hcode₂
    obtain ⟨hc₁, hv₁⟩ := hkeep v h₁
    refine ⟨xs, .retSome hpo, by rw [hc, hc₁, hcode₂], ?_⟩
    rw [hv, hv₁, hst₂]

/-- An expression statement first in an open block leaves its value above `base` and keeps the
block open for the rest. -/
theorem genStmts_expr_first {site : Site} {e : Expr} {rest : List Stmt} (hg : Emitting g c)
    (h : ((genStmts base (.expr site e :: rest)).run.run g).run t = (.ok (), g')) :
    ∃ xs r g₁, PostOrder (g.code c).length e xs r ∧ g₁.code c = g.code c ++ xs ∧
      g₁.stack.values = g.stack.values.take base ++ r.toList ∧ Emitting g₁ c ∧
      ((genStmts base rest).run.run g₁).run t = (.ok (), g') := by
  obtain ⟨g₁, h₁, h⟩ := genStmts_first hg h
  rw [genStmt_expr] at h₁
  obtain ⟨xs, r, hpo, hcode, hst, hg₁⟩ := lowering_postOrder.1 e (hg.withValues _) h₁
  simp only [Gen.code_withStack] at hpo hcode
  exact ⟨xs, r, g₁, hpo, hcode, by rw [hst], hg₁, h⟩

/-- Lowering the statements of an open block from above `base`: each statement starts from the
values below `base`, and the block ends with the value of its final statement above them. The
induction is on the statements after the first. -/
theorem genStmts_cons_postOrder (rest : List Stmt) :
    ∀ (st : Stmt) {g g' : Gen}, Emitting g c → base ≤ g.stack.depth →
      ((genStmts base (st :: rest)).run.run g).run t = (.ok (), g') →
      ∃ xs r, BlockPostOrder (g.code c).length (st :: rest) xs r ∧ g'.code c = g.code c ++ xs ∧
        g'.stack.values = g.stack.values.take base ++ r.toList := by
  induction rest with
  | nil =>
    intro st g g' hg hbase h
    cases st with
    | ret s oe =>
      obtain ⟨xs, hpo, hcode, hv⟩ := genStmts_ret_postOrder hg h
      exact ⟨xs, none, hpo, hcode, by simpa using hv⟩
    | expr site e =>
      obtain ⟨xs, r, g₁, hpo, hcode, hv, -, h⟩ := genStmts_expr_first hg h
      simp only [genStmts, G.run_pure, G.result_eq] at h
      obtain ⟨-, rfl⟩ := h
      exact ⟨xs, r, .last hpo, hcode, hv⟩
  | cons st' rest ih =>
    intro st g g' hg hbase h
    cases st with
    | ret s oe =>
      obtain ⟨xs, hpo, hcode, hv⟩ := genStmts_ret_postOrder hg h
      exact ⟨xs, none, hpo, hcode, by simpa using hv⟩
    | expr site e =>
      obtain ⟨xs, r, g₁, hpo, hcode, hv, hg₁, h⟩ := genStmts_expr_first hg h
      -- the value below `base` are those the block started with
      have htake : (g.stack.values.take base).length = base := by
        simp only [List.length_take, GenStack.depth] at hbase ⊢
        omega
      have hbase₁ : base ≤ g₁.stack.depth := by
        simp only [GenStack.depth, hv, List.length_append, htake]
        omega
      obtain ⟨ys, r', hpo', hcode', hv'⟩ := ih st' hg₁ hbase₁ h
      refine ⟨xs ++ ys, r', .expr hpo (by rwa [hcode, List.length_append] at hpo'),
        by rw [hcode', hcode, List.append_assoc], ?_⟩
      rw [hv', hv, List.take_append_of_le_length (by omega), List.take_of_length_le (by omega)]

/-- A block of statements lowered into an open block from its entry depth appends each
statement's instructions in order, up to the first return statement, and leaves above that
depth exactly the value of its final statement, when that is an expression statement reached. -/
theorem genStmts_postOrder {sts : List Stmt} (hg : Emitting g c)
    (h : ((genStmts g.stack.depth sts).run.run g).run t = (.ok (), g')) :
    ∃ xs r, BlockPostOrder (g.code c).length sts xs r ∧ g'.code c = g.code c ++ xs ∧
      g'.stack.values = g.stack.values ++ r.toList := by
  cases sts with
  | nil =>
    simp only [genStmts, G.run_pure, G.result_eq] at h
    obtain ⟨-, rfl⟩ := h
    exact ⟨[], none, .nil _, by simp, by simp⟩
  | cons st rest =>
    obtain ⟨xs, r, hpo, hcode, hv⟩ := genStmts_cons_postOrder rest st hg le_rfl h
    refine ⟨xs, r, hpo, hcode, ?_⟩
    rw [hv, List.take_of_length_le (by simp [GenStack.depth])]

end Statements

/-- `genValue` takes the value an expression left, and fails with `expression produces no
value` when it left none. -/
theorem genValue_of_expr {e : Expr} {g g₁ : Gen} {t : Tables} {r : Option Ir.Operand}
    (h : ((genExpr e).run.run g).run t = (.ok (), g₁))
    (hst : g₁.stack = { g.stack with values := g.stack.values ++ r.toList }) :
    (r = none → ((genValue e).run.run g).run t =
      (.error { kind := .type, span := some e.span, message := "expression produces no value" },
        g₁)) ∧
      ∀ v, r = some v → ((genValue e).run.run g).run t = (.ok v, { g₁ with stack := g.stack }) := by
  constructor
  · rintro rfl
    have hdepth : g₁.stack.depth = g.stack.depth := by simp [GenStack.depth, hst]
    rw [genValue, G.depth_bind, G.run_bind, h]
    simp only [G.depth_bind, hdepth, if_true, G.raise_bind]
  · rintro v rfl
    refine genValue_run ?_ rfl
    rw [show g.stack.pushValue v = g₁.stack from hst.symm]
    exact h

/-- The generator's value-stack discipline. Lowering an expression into the open block of a
function `c` appends the instructions of the expression in post-order, leaves its value above
the values there were, or nothing exactly when it is a call of a function returning `void`, and
leaves the block stack as it was; `genValue` takes that value, or fails with `expression
produces no value` when there is none. Lowering a block from its entry depth leaves above that
depth exactly the value of its final statement, if it has one. -/
theorem value_stack_discipline :
    (∀ (e : Expr) (g g' : Gen) (t : Tables) (c : Nat), Emitting g c →
      ((genExpr e).run.run g).run t = (.ok (), g') →
      ∃ xs r, PostOrder (g.code c).length e xs r ∧ g'.code c = g.code c ++ xs ∧
        g'.stack = { g.stack with values := g.stack.values ++ r.toList } ∧ Lowered c g g' ∧
        (r = none ↔ VoidCall e xs) ∧
        (r = none → ((genValue e).run.run g).run t =
          (.error { kind := .type, span := some e.span, message := "expression produces no value" },
            g')) ∧
        ∀ v, r = some v → ((genValue e).run.run g).run t = (.ok v, { g' with stack := g.stack })) ∧
    ∀ (sts : List Stmt) (g g' : Gen) (t : Tables) (c : Nat), Emitting g c →
      ((genStmts g.stack.depth sts).run.run g).run t = (.ok (), g') →
      ∃ xs r, BlockPostOrder (g.code c).length sts xs r ∧ g'.code c = g.code c ++ xs ∧
        g'.stack.values = g.stack.values ++ r.toList := by
  refine ⟨fun e g g' t c hg h => ?_, fun sts g g' t c hg h => genStmts_postOrder hg h⟩
  obtain ⟨xs, r, hpo, hcode, hst, -⟩ := lowering_postOrder.1 e hg h
  obtain ⟨fr, hcur, rfl, -⟩ := hg.target
  obtain ⟨hnone, hsome⟩ := genValue_of_expr h hst
  exact ⟨xs, r, hpo, hcode, hst, (genExpr_lowered h hcur).1, hpo.eq_none_iff, hnone, hsome⟩

/-- A function `f : i32 ()` whose one block `entry` holds the given instructions. -/
def entryWith (insts : Array Ir.Inst) : Ir.Func :=
  { name := "f", ret := .i32, blocks := #[{ name := "entry", insts := insts }] }

/-- The generator about to fill the empty block `entry` of `f`. -/
def openEntry : Gen :=
  { prog := { module := { funcs := #[entryWith #[]] } }, unit := "a.abla", unitPrefix := "u0.",
    stack := { blocks := [{ block := 0, scope := 0 }] } }

/-- `1 + 2 * 3`. -/
def sumOfProduct : Expr :=
  .binary default .add (.int default "1") (.binary default .mul (.int default "2") (.int default "3"))

/-- `openEntry` once `1 + 2 * 3` is lowered: the product first, then the sum that uses it, whose
result is left on the value stack. -/
def sumDone : Gen :=
  { openEntry with
    prog := { module := { funcs :=
      #[entryWith #[.arith .mul (.int 2) (.int 3), .arith .add (.int 1) (.inst 0 .i32)]] } },
    stack := { blocks := [{ block := 0, scope := 0 }], values := [.inst 1 .i32] } }

/-- `1 + 2 * 3` lowered into an empty open block, as an expression and as a block of one
statement. -/
theorem value_stack_discipline_sumOfProduct :
    Emitting openEntry 0 ∧ ((genExpr sumOfProduct).run.run openEntry).run default = (.ok (), sumDone) ∧
      ((genStmts openEntry.stack.depth [.expr default sumOfProduct]).run.run openEntry).run default =
        (.ok (), sumDone) ∧
      (∃ xs r, PostOrder (openEntry.code 0).length sumOfProduct xs r ∧
        sumDone.code 0 = openEntry.code 0 ++ xs ∧
        sumDone.stack = { openEntry.stack with values := openEntry.stack.values ++ r.toList } ∧
        Lowered 0 openEntry sumDone ∧ (r = none ↔ VoidCall sumOfProduct xs) ∧
        (r = none → ((genValue sumOfProduct).run.run openEntry).run default =
          (.error
            { kind := .type, span := some sumOfProduct.span,
              message := "expression produces no value" }, sumDone)) ∧
        ∀ v, r = some v → ((genValue sumOfProduct).run.run openEntry).run default =
          (.ok v, { sumDone with stack := openEntry.stack })) ∧
      ∃ xs r, BlockPostOrder (openEntry.code 0).length [.expr default sumOfProduct] xs r ∧
        sumDone.code 0 = openEntry.code 0 ++ xs ∧
        sumDone.stack.values = openEntry.stack.values ++ r.toList := by
  have hg : Emitting openEntry 0 := ⟨⟨_, rfl, rfl, rfl⟩, ⟨_, rfl, by decide⟩⟩
  -- the literals are read first, so that the rest runs by evaluation
  have h1 : literalValue? "1" = some 1 := by decide
  have h2 : literalValue? "2" = some 2 := by decide
  have h3 : literalValue? "3" = some 3 := by decide
  have hrun : ((genExpr sumOfProduct).run.run openEntry).run default = (.ok (), sumDone) := by
    simp only [sumOfProduct, genExpr, genValue, h1, h2, h3]
    rfl
  have hblock : ((genStmts openEntry.stack.depth [.expr default sumOfProduct]).run.run
      openEntry).run default = (.ok (), sumDone) := by
    simp only [genStmts, genStmt, sumOfProduct, genExpr, genValue, h1, h2, h3]
    rfl
  exact ⟨hg, hrun, hblock, value_stack_discipline.1 _ _ _ _ _ hg hrun,
    value_stack_discipline.2 _ _ _ _ _ hg hblock⟩

end Codegen

end Abla
