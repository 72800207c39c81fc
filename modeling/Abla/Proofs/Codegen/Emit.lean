import Mathlib
import Abla.Codegen.Lower
import Abla.Ir.Exec

/-!
# Running the generator step by step

The generator is a computation in `G`, which reads the build's tables, keeps a state and may
fail. This module gives the equations that run its primitives, so that a proof about a part
of the generator can follow the code one statement at a time: `G.run_bind` splits a `do`
block, and the `*_run` lemmas say what pushing, popping and emitting do.

Emitting appends to the last block of the function being generated. `Gen.emitted` names the
state after a list of instructions was appended to a function, `Gen.code` the instructions a
function holds, and `Emitting g fn` says that `g` may emit into function `fn`: its innermost
block belongs to `fn` and has not returned, and `fn` has a block to append to.
-/

namespace Abla

namespace Codegen

section Run

variable {α β : Type} (g : Gen) (t : Tables)

/-- Running a `do` block runs its first step and, on success, the rest from the state that
step leaves. -/
theorem G.run_bind (x : G α) (f : α → G β) :
    ((x >>= f).run.run g).run t =
      match (x.run.run g).run t with
      | (.ok a, g') => ((f a).run.run g').run t
      | (.error e, g') => (.error e, g') := by
  simp only [ExceptT.run_bind, StateT.run_bind, ReaderT.run_bind]
  rcases h : (x.run.run g).run t with ⟨r, g'⟩
  cases r <;> simp_all <;> rfl

@[simp] theorem G.run_read : ((read : G Tables).run.run g).run t = (.ok t, g) := rfl

@[simp] theorem G.run_get : ((get : G Gen).run.run g).run t = (.ok g, g) := rfl

@[simp] theorem G.run_set (g' : Gen) : ((set g' : G Unit).run.run g).run t = (.ok (), g') :=
  rfl

@[simp] theorem G.run_modify (f : Gen → Gen) :
    ((modify f : G Unit).run.run g).run t = (.ok (), f g) := rfl

@[simp] theorem G.run_pure (a : α) : ((pure a : G α).run.run g).run t = (.ok a, g) := rfl

@[simp] theorem G.run_throw (e : CompileError) :
    ((throw e : G α).run.run g).run t = (.error e, g) := rfl

@[simp] theorem G.run_onStack_ok (a : α) :
    ((onStack (.ok a) : G α).run.run g).run t = (.ok a, g) := rfl

@[simp] theorem push_run (v : Ir.Operand) :
    ((push v).run.run g).run t = (.ok (), { g with stack := g.stack.pushValue v }) := rfl

@[simp] theorem depth_run : (depth.run.run g).run t = (.ok g.stack.depth, g) := rfl

/-- Popping what was pushed gives it back and restores the stack. -/
theorem pop_run_pushValue (v : Ir.Operand) :
    (pop.run.run { g with stack := g.stack.pushValue v }).run t = (.ok v, g) := by
  simp only [pop, G.run_bind, G.run_get, GenStack.popValue_pushValue, G.run_onStack_ok,
    G.run_modify, G.run_pure]

end Run

/-- Appends instructions one after another to the last block of function `fn`. -/
def appendAll (m : Ir.Module) (fn : Nat) (insts : List Ir.Inst) : Ir.Module :=
  insts.foldl (fun m i => (m.append fn i).1) m

/-- The generator state after `insts` were appended to function `fn`. -/
def Gen.emitted (g : Gen) (fn : Nat) (insts : List Ir.Inst) : Gen :=
  { g with prog := { g.prog with module := appendAll g.prog.module fn insts } }

/-- The instructions function `fn` holds so far. -/
def Gen.code (g : Gen) (fn : Nat) : List Ir.Inst :=
  match g.prog.module.funcs[fn]? with
  | some f => f.insts
  | none => []

/-- `g` may emit into function `fn`: its innermost block belongs to `fn` and has not
returned, and `fn` exists with a block to append to. -/
structure Emitting (g : Gen) (fn : Nat) : Prop where
  target : ∃ fr, g.stack.current = .ok fr ∧ fr.block = fn ∧ fr.returned = false
  func : ∃ f, g.prog.module.funcs[fn]? = some f ∧ 0 < f.blocks.size

namespace Ir.Func

/-- A function's instruction count is the length of its instruction list. -/
theorem instCount_eq (f : Ir.Func) : f.instCount = f.insts.length := by
  have hfold : ∀ (bs : List Ir.Block) (k : Nat),
      bs.foldl (fun n b => n + b.insts.size) k =
        k + (bs.flatMap fun b => b.insts.toList).length := by
    intro bs
    induction bs with
    | nil => simp
    | cons b bs ih => intro k; simp [ih]; omega
  simp [Ir.Func.instCount, Ir.Func.insts, ← Array.foldl_toList, hfold]

end Ir.Func

/-- Appending to a function with a block adds the instruction at the end of its instruction
list; its result is numbered after the instructions before it. -/
theorem Module.append_func {m : Ir.Module} {fn : Nat} {f : Ir.Func}
    (hf : m.funcs[fn]? = some f) (hb : 0 < f.blocks.size) (i : Ir.Inst) :
    (m.append fn i).2 = .inst f.insts.length i.ty ∧
      ∃ f', (m.append fn i).1.funcs[fn]? = some f' ∧ f'.insts = f.insts ++ [i] ∧
        0 < f'.blocks.size := by
  refine ⟨by simp [Ir.Module.append, hf, Ir.Func.instCount_eq], ?_⟩
  refine ⟨{ f with
    blocks := f.blocks.modify (f.blocks.size - 1) fun b => { b with insts := b.insts.push i } },
    by simp [Ir.Module.append, Ir.Module.modifyFunc, Array.getElem?_modify, hf], ?_,
    by simpa using hb⟩
  -- the blocks are those before the last, then the last with the instruction pushed
  obtain ⟨bs, b, hbs⟩ : ∃ bs b, f.blocks.toList = bs ++ [b] := by
    rcases List.eq_nil_or_concat f.blocks.toList with h | ⟨bs, b, h⟩
    · rw [← Array.length_toList, h] at hb
      simp at hb
    · exact ⟨bs, b, by simpa using h⟩
  have hlen : f.blocks.size - 1 = bs.length := by
    rw [← Array.length_toList, hbs]; simp
  simp only [Ir.Func.insts, Array.toList_modify, hbs, hlen, List.modify_eq_set]
  simp

/-- Appending a list of instructions to a function with a block extends its instruction
list by them, and leaves every other function as it was. -/
theorem appendAll_func {m : Ir.Module} {fn : Nat} {f : Ir.Func} (hf : m.funcs[fn]? = some f)
    (hb : 0 < f.blocks.size) (insts : List Ir.Inst) :
    ∃ f', (appendAll m fn insts).funcs[fn]? = some f' ∧ f'.insts = f.insts ++ insts ∧
      0 < f'.blocks.size := by
  induction insts generalizing m f with
  | nil => exact ⟨f, hf, by simp, hb⟩
  | cons i is ih =>
    obtain ⟨-, f₁, hf₁, hi₁, hb₁⟩ := Module.append_func hf hb i
    obtain ⟨f', hf', hi', hb'⟩ := ih hf₁ hb₁
    exact ⟨f', hf', by simp [hi', hi₁], hb'⟩

@[simp] theorem appendAll_append (m : Ir.Module) (fn : Nat) (xs ys : List Ir.Inst) :
    appendAll (appendAll m fn xs) fn ys = appendAll m fn (xs ++ ys) := by
  simp [appendAll, List.foldl_append]

@[simp] theorem Gen.emitted_stack (g : Gen) (fn : Nat) (insts : List Ir.Inst) :
    (g.emitted fn insts).stack = g.stack := rfl

@[simp] theorem Gen.emitted_emitted (g : Gen) (fn : Nat) (xs ys : List Ir.Inst) :
    (g.emitted fn xs).emitted fn ys = g.emitted fn (xs ++ ys) := by
  simp [Gen.emitted]

@[simp] theorem Gen.emitted_nil (g : Gen) (fn : Nat) : g.emitted fn [] = g := rfl

theorem Gen.emitted_withStack (g : Gen) (fn : Nat) (insts : List Ir.Inst)
    (st : GenStack Nat Ir.Operand) :
    { g with stack := st }.emitted fn insts = { g.emitted fn insts with stack := st } := rfl

namespace Emitting

variable {g : Gen} {fn : Nat}

/-- The block a state emits into takes code at any span. -/
theorem emitTarget (hg : Emitting g fn) (span : Option Span) :
    ∃ fr, g.stack.emitTarget span = .ok fr ∧ fr.block = fn := by
  obtain ⟨fr, hcur, hblock, hret⟩ := hg.target
  exact ⟨fr, by simp [GenStack.emitTarget, hcur, hret, bind, Except.bind], hblock⟩

/-- Emitting more code keeps a state emitting into the same function. -/
theorem emitted (hg : Emitting g fn) (insts : List Ir.Inst) :
    Emitting (g.emitted fn insts) fn := by
  obtain ⟨f, hf, hb⟩ := hg.func
  obtain ⟨f', hf', -, hb'⟩ := appendAll_func hf hb insts
  exact ⟨hg.target, f', hf', hb'⟩

/-- The code of the function emitted into grows by what is appended. -/
theorem code_emitted (hg : Emitting g fn) (insts : List Ir.Inst) :
    (g.emitted fn insts).code fn = g.code fn ++ insts := by
  obtain ⟨f, hf, hb⟩ := hg.func
  obtain ⟨f', hf', hi', -⟩ := appendAll_func hf hb insts
  simp [Gen.code, Gen.emitted, hf, hf', hi']

end Emitting

/-- Emitting appends the instruction to the function being generated, and gives its result,
numbered after the instructions before it. -/
theorem emit_run {g : Gen} {fn : Nat} (hg : Emitting g fn) (span : Span) (i : Ir.Inst)
    (t : Tables) :
    ((emit span i).run.run g).run t = (.ok (.inst (g.code fn).length i.ty), g.emitted fn [i]) := by
  obtain ⟨fr, htarget, hblock⟩ := hg.emitTarget (some span)
  obtain ⟨f, hf, hb⟩ := hg.func
  obtain ⟨happ, -⟩ := Module.append_func hf hb i
  subst hblock
  simp only [emit, G.run_bind, G.run_get, htarget, G.run_onStack_ok, G.run_set, G.run_pure]
  simp [Gen.code, hf, happ, Gen.emitted, appendAll]

/-- Generating an expression that leaves one value and taking it: `genValue` gives that value
and leaves the stack as it found it. -/
theorem genValue_run {e : Expr} {g g' : Gen} {op : Ir.Operand} {t : Tables}
    (h : ((genExpr e).run.run g).run t = (.ok (), { g' with stack := g'.stack.pushValue op }))
    (hstack : g'.stack = g.stack) :
    ((genValue e).run.run g).run t = (.ok op, g') := by
  have hdepth : g'.stack.depth + 1 ≠ g.stack.depth := by rw [hstack]; omega
  simp only [genValue, G.run_bind, depth_run, h, GenStack.depth_pushValue, hdepth,
    if_false, pop_run_pushValue]

end Codegen

end Abla
