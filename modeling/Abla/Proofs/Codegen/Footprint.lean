import Mathlib
import Abla.Proofs.Codegen.Emit

/-!
# What lowering may change

Lowering an expression appends instructions to the function of the innermost block, adds new
functions after the existing ones (one for each function literal) and string globals, and
pushes at most one value; the block stack and the function frame are left as they were.
`Lowered c g g'` says this of a run from `g` to `g'` whose innermost block belongs to function
`c`. Lowering a statement may in addition end the innermost block with a `ret`, mark it
returned and, in a function literal, fix the literal's return type: `Stepped cur g g'`.

The two are proved together over the generator's mutual recursion, with one lemma for each
case of `genExpr.mutual_induct`: an expression pushes at most one value (`ExprLowers`), a
value or a list of arguments pushes none (`ValueLowers`, `ArgsLowers`), a function literal
leaves the stacks as they were (`LambdaLowers`), and statements keep the values below their
base (`StmtLowers`, `StmtsLower`). The equations that open single steps of the generator come
first: each primitive either fails or changes the state in one stated way.
-/

namespace Abla

namespace Ir.Func

/-- The function with instructions appended to its last block. -/
def extend (f : Func) (xs : List Inst) : Func :=
  { f with blocks := f.blocks.modify (f.blocks.size - 1) fun b =>
      { b with insts := b.insts ++ xs.toArray } }

/-- The function with its last block ended by a `ret`. -/
def withRet (f : Func) (r : Option Operand) : Func :=
  { f with blocks := f.blocks.modify (f.blocks.size - 1) fun b => { b with ret := some r } }

@[simp] theorem extend_nil (f : Func) : f.extend [] = f := by
  simp only [extend]
  congr 1
  ext i h₁ h₂
  · simp
  · simp only [Array.getElem_modify]
    split <;> rfl

@[simp] theorem extend_extend (f : Func) (xs ys : List Inst) :
    (f.extend xs).extend ys = f.extend (xs ++ ys) := by
  simp only [extend, Array.size_modify]
  congr 1
  ext i h₁ h₂
  · simp
  · simp only [Array.getElem_modify]
    split <;> simp [Array.append_assoc]

@[simp] theorem extend_ret (f : Func) (xs : List Inst) : (f.extend xs).ret = f.ret := rfl

@[simp] theorem extend_name (f : Func) (xs : List Inst) : (f.extend xs).name = f.name := rfl

@[simp] theorem extend_params (f : Func) (xs : List Inst) : (f.extend xs).params = f.params := rfl

end Ir.Func

namespace Ir.Module

variable (m : Module) (c j : Nat)

theorem funcs_modifyFunc (h : Func → Func) :
    (m.modifyFunc c h).funcs[j]? = if c = j then (m.funcs[j]?).map h else m.funcs[j]? :=
  Array.getElem?_modify

@[simp] theorem size_modifyFunc (h : Func → Func) :
    (m.modifyFunc c h).funcs.size = m.funcs.size :=
  Array.size_modify

theorem append_fst (i : Inst) : (m.append c i).1 = m.modifyFunc c (·.extend [i]) := rfl

theorem setRet_eq (v : Option Operand) : m.setRet c v = m.modifyFunc c (·.withRet v) := rfl

@[simp] theorem size_addFunc (f : Func) : (m.addFunc f).1.funcs.size = m.funcs.size + 1 :=
  Array.size_push _

@[simp] theorem addFunc_snd (f : Func) : (m.addFunc f).2 = m.funcs.size := rfl

theorem funcs_addFunc_of_lt (f : Func) (h : j < m.funcs.size) :
    (m.addFunc f).1.funcs[j]? = m.funcs[j]? := by
  simp [addFunc, Array.getElem?_push, Nat.ne_of_lt h]

@[simp] theorem funcs_addFunc_self (f : Func) :
    (m.addFunc f).1.funcs[m.funcs.size]? = some f := by
  simp [addFunc]

end Ir.Module

namespace Codegen

section Run

variable {α β : Type} {g g' g'' : Gen} {t : Tables}

/-- Two outcomes of a run are equal when their results and their states are. -/
@[simp] theorem G.result_eq {a b : Except CompileError α} {g₁ g₂ : Gen} :
    @Eq (Id (Except CompileError α × Gen)) (a, g₁) (b, g₂) ↔ a = b ∧ g₁ = g₂ := by
  constructor
  · intro h
    exact Prod.mk.inj h
  · rintro ⟨rfl, rfl⟩
    rfl

/-- A `do` block succeeds when its first step does and the rest succeeds after it. -/
theorem G.bind_ok {x : G α} {f : α → G β} {b : β} :
    ((x >>= f).run.run g).run t = (.ok b, g'') ↔
      ∃ a g', (x.run.run g).run t = (.ok a, g') ∧ ((f a).run.run g').run t = (.ok b, g'') := by
  rw [G.run_bind]
  constructor
  · intro h
    rcases hx : (x.run.run g).run t with ⟨_ | a, g'⟩ <;> simp only [hx] at h
    · simp at h
    · exact ⟨a, g', rfl, h⟩
  · rintro ⟨a, g', hx, h⟩
    simp only [hx]
    exact h

/-- Two `do` blocks with the same first step run alike when their rests do from every state
that step reaches. -/
theorem G.bind_congr {x : G α} {f f' : α → G β}
    (h : ∀ a g', (x.run.run g).run t = (.ok a, g') →
      ((f a).run.run g').run t = ((f' a).run.run g').run t) :
    ((x >>= f).run.run g).run t = ((x >>= f').run.run g).run t := by
  rw [G.run_bind, G.run_bind]
  rcases hx : (x.run.run g).run t with ⟨_ | a, g'⟩
  · rfl
  · exact h a g' hx

/-- A step taken only under a condition, before a rest that runs either way. -/
theorem G.ite_seq_ok {c : Prop} [Decidable c] {x : G PUnit} {k : G β} {b : β}
    (h : ((if c then x >>= (fun _ => k) else k).run.run g).run t = (.ok b, g'')) :
    ∃ g', (if c then (x.run.run g).run t = (.ok (), g') else g' = g) ∧
      (k.run.run g').run t = (.ok b, g'') := by
  split at h
  · next hc =>
    obtain ⟨_, g', hx, hk⟩ := G.bind_ok.1 h
    exact ⟨g', by simpa [hc] using hx, hk⟩
  · next hc => exact ⟨g, by simp [hc], h⟩

/-- A check that raises when its condition holds and otherwise goes on. -/
theorem G.ite_raise_ok {c : Prop} [Decidable c] {k : ErrorKind} {sp : Span} {msg : String}
    {f : α → G β} {x : G β} {b : β}
    (h : ((if c then raise k sp msg >>= f else x).run.run g).run t = (.ok b, g'')) :
    (x.run.run g).run t = (.ok b, g'') := by
  split at h
  · cases h
  · exact h

@[simp] theorem G.get_bind (f : Gen → G β) :
    (((get : G Gen) >>= f).run.run g).run t = ((f g).run.run g).run t := rfl

@[simp] theorem G.read_bind (f : Tables → G β) :
    (((read : G Tables) >>= f).run.run g).run t = ((f t).run.run g).run t := rfl

@[simp] theorem G.modify_bind (h : Gen → Gen) (f : PUnit → G β) :
    (((modify h : G PUnit) >>= f).run.run g).run t = ((f ()).run.run (h g)).run t := rfl

@[simp] theorem G.set_bind (g₁ : Gen) (f : PUnit → G β) :
    (((set g₁ : G PUnit) >>= f).run.run g).run t = ((f ()).run.run g₁).run t := rfl

@[simp] theorem G.depth_bind (f : Nat → G β) :
    ((depth >>= f).run.run g).run t = ((f g.stack.depth).run.run g).run t := rfl

@[simp] theorem G.onStack_ok_bind (a : α) (f : α → G β) :
    (((onStack (.ok a)) >>= f).run.run g).run t = ((f a).run.run g).run t := rfl

@[simp] theorem G.onStack_error_bind (e : CompileError) (f : α → G β) :
    (((onStack (.error e)) >>= f).run.run g).run t = (.error e, g) := rfl

@[simp] theorem G.run_onStack_error (e : CompileError) :
    ((onStack (.error e) : G α).run.run g).run t = (.error e, g) := rfl

@[simp] theorem G.raise_bind (k : ErrorKind) (sp : Span) (msg : String) (f : α → G β) :
    (((raise k sp msg : G α) >>= f).run.run g).run t =
      (.error { kind := k, span := some sp, message := msg }, g) := rfl

@[simp] theorem G.run_raise (k : ErrorKind) (sp : Span) (msg : String) :
    ((raise k sp msg : G α).run.run g).run t =
      (.error { kind := k, span := some sp, message := msg }, g) := rfl

@[simp] theorem G.throw_bind (e : CompileError) (f : α → G β) :
    (((throw e : G α) >>= f).run.run g).run t = (.error e, g) := rfl

@[simp] theorem truncate_run (n : Nat) :
    ((truncate n).run.run g).run t = (.ok (), { g with stack := g.stack.truncate n }) := rfl

@[simp] theorem warn_run (sp : Span) (msg : String) :
    ((warn sp msg).run.run g).run t =
      (.ok (), { g with prog := { g.prog with
        log := g.prog.log.push (.warning g.unit (some sp) msg) } }) := rfl

end Run

section Steps

variable {α : Type} {g g' : Gen} {t : Tables}

theorem GenStack.emitTarget_eq_ok {st : GenStack Nat Ir.Operand} {sp : Option Span}
    {fr : Frame Nat} : st.emitTarget sp = .ok fr ↔ st.current = .ok fr ∧ fr.returned = false := by
  simp only [GenStack.emitTarget]
  rcases st.current with e | cur
  · simp [bind, Except.bind]
  · cases h : cur.returned <;> simp [bind, Except.bind, h] <;> rintro rfl <;> exact h

theorem GenStack.markReturned_eq_ok {st st' : GenStack Nat Ir.Operand} :
    st.markReturned = .ok st' ↔ ∃ cur, st.current = .ok cur ∧
      st' = st.setCurrent { cur with returned := true } := by
  simp only [GenStack.markReturned]
  rcases st.current with e | cur <;> simp [bind, Except.bind, eq_comm]

theorem pop_ok {v : Ir.Operand} (h : (pop.run.run g).run t = (.ok v, g')) :
    ∃ st, g.stack.popValue = .ok (v, st) ∧ g' = { g with stack := st } := by
  simp only [pop, G.get_bind] at h
  rcases hp : g.stack.popValue with e | ⟨v', st⟩
  · simp only [hp, G.onStack_error_bind, G.result_eq, reduceCtorEq, false_and] at h
  · simp only [hp, G.onStack_ok_bind, G.modify_bind, G.run_pure, G.result_eq,
      Except.ok.injEq] at h
    obtain ⟨rfl, rfl⟩ := h
    exact ⟨st, rfl, rfl⟩

theorem emit_ok {sp : Span} {i : Ir.Inst} {v : Ir.Operand}
    (h : ((emit sp i).run.run g).run t = (.ok v, g')) :
    ∃ cur, g.stack.current = .ok cur ∧ cur.returned = false ∧
      g' = { g with prog := { g.prog with module := (g.prog.module.append cur.block i).1 } } ∧
      v = (g.prog.module.append cur.block i).2 := by
  simp only [emit, G.get_bind] at h
  rcases ht : g.stack.emitTarget (some sp) with e | cur
  · simp only [ht, G.onStack_error_bind, G.result_eq, reduceCtorEq, false_and] at h
  · simp only [ht, G.onStack_ok_bind, G.get_bind, G.set_bind, G.run_pure, G.result_eq,
      Except.ok.injEq] at h
    obtain ⟨hcur, hret⟩ := GenStack.emitTarget_eq_ok.1 ht
    exact ⟨cur, hcur, hret, h.2.symm, h.1.symm⟩

theorem emitRet_ok {sp : Span} {r : Option Ir.Operand}
    (h : ((emitRet sp r).run.run g).run t = (.ok (), g')) :
    ∃ cur, g.stack.current = .ok cur ∧ cur.returned = false ∧
      g' = { g with prog := { g.prog with module := g.prog.module.setRet cur.block r } } := by
  simp only [emitRet, G.get_bind] at h
  rcases ht : g.stack.emitTarget (some sp) with e | cur
  · simp only [ht, G.onStack_error_bind, G.result_eq, reduceCtorEq, false_and] at h
  · simp only [ht, G.onStack_ok_bind, G.run_modify, G.result_eq] at h
    obtain ⟨hcur, hret⟩ := GenStack.emitTarget_eq_ok.1 ht
    exact ⟨cur, hcur, hret, h.2.symm⟩

theorem markReturned_ok (h : (markReturned.run.run g).run t = (.ok (), g')) :
    ∃ cur, g.stack.current = .ok cur ∧
      g' = { g with stack := g.stack.setCurrent { cur with returned := true } } := by
  simp only [markReturned, G.get_bind] at h
  rcases hm : g.stack.markReturned with e | st
  · simp only [hm, G.onStack_error_bind, G.result_eq, reduceCtorEq, false_and] at h
  · simp only [hm, G.onStack_ok_bind, G.run_modify, G.result_eq] at h
    obtain ⟨cur, hcur, rfl⟩ := GenStack.markReturned_eq_ok.1 hm
    exact ⟨cur, hcur, h.2.symm⟩

theorem curFunc_ok {f : Ir.Func} (h : (curFunc.run.run g).run t = (.ok f, g')) :
    g' = g ∧ g.prog.module.funcs[g.frame.fn]? = some f := by
  simp only [curFunc, G.get_bind] at h
  split at h
  · next f' hf =>
    simp only [G.run_pure, G.result_eq, Except.ok.injEq] at h
    obtain ⟨rfl, rfl⟩ := h
    exact ⟨rfl, hf⟩
  · simp only [G.run_throw, G.result_eq, reduceCtorEq, false_and] at h

theorem checkReturnType_ok {sp : Span} {ty : Ir.Ty}
    (h : ((checkReturnType sp ty).run.run g).run t = (.ok (), g')) :
    g' = g ∧ ∃ f, g.prog.module.funcs[g.frame.fn]? = some f ∧ Ir.Ty.same f.ret ty = true := by
  simp only [checkReturnType] at h
  obtain ⟨f, g₁, hf, hcheck⟩ := G.bind_ok.1 h
  obtain ⟨rfl, hfn⟩ := curFunc_ok hf
  split at hcheck
  · simp at hcheck
  · next hsame =>
    simp only [G.run_pure, G.result_eq] at hcheck
    exact ⟨hcheck.2.symm, f, hfn, by simpa using hsame⟩

theorem inferReturnType_ok {sp : Span} {ty : Ir.Ty}
    (h : ((inferReturnType sp ty).run.run g).run t = (.ok (), g')) :
    (g.frame.retInferred = false ∧
      g' = { g with frame := { g.frame with retInferred := true },
                    prog := { g.prog with module :=
                      g.prog.module.modifyFunc g.frame.fn (fun f => { f with ret := ty }) } }) ∨
    (g.frame.retInferred = true ∧ g' = g ∧
      ∃ f, g.prog.module.funcs[g.frame.fn]? = some f ∧ Ir.Ty.same f.ret ty = true) := by
  simp only [inferReturnType, G.get_bind] at h
  cases hr : g.frame.retInferred
  · simp only [hr, Bool.not_false, if_true, G.run_set, G.result_eq] at h
    exact .inl ⟨rfl, h.2.symm⟩
  · simp only [hr, Bool.not_true, Bool.false_eq_true, if_false] at h
    exact .inr ⟨rfl, checkReturnType_ok h⟩

theorem handleOperand_reads {h : Handle} {v : Ir.Operand}
    (hr : ((handleOperand h).run.run g).run t = (.ok v, g')) : g' = g := by
  simp only [handleOperand, G.get_bind] at hr
  split at hr <;> split at hr <;>
    simp only [G.run_pure, G.run_throw, G.result_eq, reduceCtorEq, false_and] at hr
  all_goals exact hr.2.symm

end Steps

section Stack

variable {st : GenStack Nat Ir.Operand} {cur : Frame Nat}

theorem GenStack.blocks_of_current (h : st.current = .ok cur) :
    st.blocks = st.blocks.dropLast ++ [cur] := by
  unfold GenStack.current at h
  split at h
  · next f hf =>
    cases h
    obtain ⟨ys, hys⟩ := List.getLast?_eq_some_iff.1 hf
    simp [hys]
  · cases h

theorem GenStack.current_of_blocks {bs : List (Frame Nat)} (h : st.blocks = bs ++ [cur]) :
    st.current = .ok cur := by
  simp [GenStack.current, h]

@[simp] theorem GenStack.current_setCurrent (f : Frame Nat) : (st.setCurrent f).current = .ok f :=
  GenStack.current_of_blocks rfl

theorem GenStack.ext_of {st' : GenStack Nat Ir.Operand} (hb : st'.blocks = st.blocks)
    (hv : st'.values = st.values) : st' = st := by
  cases st
  cases st'
  simp_all

theorem GenStack.current_congr {st' : GenStack Nat Ir.Operand} (h : st'.blocks = st.blocks) :
    st'.current = st.current := by
  simp [GenStack.current, h]

theorem GenStack.popBlock_eq_ok {f : Frame Nat} {st' : GenStack Nat Ir.Operand} :
    st.popBlock = .ok (f, st') ↔ st.current = .ok f ∧ st' = { st with blocks := st.blocks.dropLast } := by
  simp only [GenStack.popBlock]
  rcases st.current with e | cur <;> simp [bind, Except.bind, eq_comm]

theorem GenStack.popValue_eq_ok {v : Ir.Operand} {st' : GenStack Nat Ir.Operand} :
    st.popValue = .ok (v, st') ↔
      st.values.getLast? = some v ∧ st' = { st with values := st.values.dropLast } := by
  simp only [GenStack.popValue]
  split <;> simp_all [eq_comm]

@[simp] theorem GenStack.current_pushBlock (b sc : Nat) :
    (st.pushBlock b sc).current = .ok ⟨b, sc, false⟩ :=
  GenStack.current_of_blocks rfl

end Stack

/-- A loop whose body only reads the state leaves it as it was. -/
theorem G.forIn_reads {γ δ : Type} {t : Tables} {f : γ → δ → G (ForInStep δ)}
    (hf : ∀ a b g g' r, ((f a b).run.run g).run t = (.ok r, g') → g' = g) :
    ∀ (xs : List γ) (b : δ) {g g' : Gen} {c : δ},
      ((forIn xs b f).run.run g).run t = (.ok c, g') → g' = g
  | [], b, g, g', c, h => by
    simp only [List.forIn_nil, G.run_pure, G.result_eq] at h
    exact h.2.symm
  | x :: xs, b, g, g', c, h => by
    rw [List.forIn_cons] at h
    obtain ⟨r, g₁, hr, h⟩ := G.bind_ok.1 h
    obtain rfl := hf x b g g₁ r hr
    cases r with
    | done b' =>
      simp only [G.run_pure, G.result_eq] at h
      exact h.2.symm
    | yield b' => exact G.forIn_reads hf xs b' h

/-- `g'` is `g` after lowering in a block of function `c`: the blocks, the function frame and
`main` are as they were, function `c` has more instructions in its last block, every other
function there was is unchanged, and functions may have been added after them. -/
structure Lowered (c : Nat) (g g' : Gen) : Prop where
  blocks : g'.stack.blocks = g.stack.blocks
  frame : g'.frame = g.frame
  main : g'.prog.main = g.prog.main
  size : g.prog.module.funcs.size ≤ g'.prog.module.funcs.size
  funcs : ∃ xs, ∀ j < g.prog.module.funcs.size, g'.prog.module.funcs[j]? =
    if c = j then (g.prog.module.funcs[j]?).map (·.extend xs) else g.prog.module.funcs[j]?

namespace Lowered

variable {c : Nat} {g g₁ g₂ : Gen}

theorem current (h : Lowered c g g₁) {cur : Frame Nat} (hcur : g.stack.current = .ok cur) :
    g₁.stack.current = .ok cur := by
  rw [GenStack.current_congr h.blocks, hcur]

theorem of_code (hb : g₁.stack.blocks = g.stack.blocks) (hf : g₁.frame = g.frame)
    (hm : g₁.prog.main = g.prog.main) (hfs : g₁.prog.module.funcs = g.prog.module.funcs) :
    Lowered c g g₁ :=
  ⟨hb, hf, hm, hfs ▸ le_rfl, [], fun j _ => by rw [hfs]; split <;> simp⟩

theorem refl (c : Nat) (g : Gen) : Lowered c g g := of_code rfl rfl rfl rfl

theorem trans (h₁ : Lowered c g g₁) (h₂ : Lowered c g₁ g₂) : Lowered c g g₂ where
  blocks := h₂.blocks.trans h₁.blocks
  frame := h₂.frame.trans h₁.frame
  main := h₂.main.trans h₁.main
  size := h₁.size.trans h₂.size
  funcs := by
    obtain ⟨xs, hxs⟩ := h₁.funcs
    obtain ⟨ys, hys⟩ := h₂.funcs
    refine ⟨xs ++ ys, fun j hj => ?_⟩
    rw [hys j (lt_of_lt_of_le hj h₁.size), hxs j hj]
    split <;> simp [Option.map_map, Function.comp_def]

/-- Values may be pushed and popped. -/
theorem values (g : Gen) (vs : List Ir.Operand) :
    Lowered c g { g with stack := { g.stack with values := vs } } :=
  of_code rfl rfl rfl rfl

/-- An instruction may be appended to the block's function. -/
theorem append (g : Gen) (i : Ir.Inst) :
    Lowered c g { g with prog := { g.prog with module := (g.prog.module.append c i).1 } } :=
  ⟨rfl, rfl, rfl, by simp [Ir.Module.append_fst], [i],
    fun j _ => by simp [Ir.Module.append_fst, Ir.Module.funcs_modifyFunc]⟩

end Lowered

/-- `g'` is `g` after lowering statements in the innermost block `cur`: of the blocks only
that one's returned flag may have changed, the frame's function and `main` are as they were,
and so is every function there was but the block's and the frame's. -/
structure Stepped (cur : Frame Nat) (g g' : Gen) : Prop where
  blocks : ∃ r, g'.stack.blocks = g.stack.blocks.dropLast ++ [{ cur with returned := r }]
  fn : g'.frame.fn = g.frame.fn
  main : g'.prog.main = g.prog.main
  size : g.prog.module.funcs.size ≤ g'.prog.module.funcs.size
  funcs : ∀ j < g.prog.module.funcs.size, j ≠ cur.block → j ≠ g.frame.fn →
    g'.prog.module.funcs[j]? = g.prog.module.funcs[j]?

namespace Stepped

variable {cur : Frame Nat} {g g₁ g₂ : Gen}

theorem current (h : Stepped cur g g₁) : ∃ r, g₁.stack.current = .ok { cur with returned := r } := by
  obtain ⟨r, hr⟩ := h.blocks
  exact ⟨r, GenStack.current_of_blocks hr⟩

theorem trans (h₁ : Stepped cur g g₁) (h₂ : Stepped cur g₁ g₂) : Stepped cur g g₂ where
  blocks := by
    obtain ⟨r₁, hr₁⟩ := h₁.blocks
    obtain ⟨r₂, hr₂⟩ := h₂.blocks
    exact ⟨r₂, by rw [hr₂, hr₁, List.dropLast_concat]⟩
  fn := h₂.fn.trans h₁.fn
  main := h₂.main.trans h₁.main
  size := h₁.size.trans h₂.size
  funcs j hj hc hf := by
    rw [h₂.funcs j (lt_of_lt_of_le hj h₁.size) hc (h₁.fn ▸ hf), h₁.funcs j hj hc hf]

theorem of_lowered (hcur : g.stack.current = .ok cur) (h : Lowered cur.block g g₁) :
    Stepped cur g g₁ where
  blocks := ⟨cur.returned, by rw [h.blocks]; exact GenStack.blocks_of_current hcur⟩
  fn := by rw [h.frame]
  main := h.main
  size := h.size
  funcs j hj hc _ := by
    obtain ⟨xs, hxs⟩ := h.funcs
    rw [hxs j hj, if_neg (Ne.symm hc)]

end Stepped

section Leaves

variable {g g' : Gen} {t : Tables} {c : Nat}

/-- A handle's operand is read from the module and pushed. -/
theorem handleOperand_push_ok {hd : Handle}
    (h : ((do let v ← handleOperand hd; push v : G Unit).run.run g).run t = (.ok (), g')) :
    ∃ v, g' = { g with stack := g.stack.pushValue v } := by
  obtain ⟨v, g₁, hv, hp⟩ := G.bind_ok.1 h
  obtain rfl := handleOperand_reads hv
  simp only [push_run, G.result_eq] at hp
  exact ⟨v, hp.2.symm⟩

/-- A name's checks only read the state; its operand is pushed last. -/
theorem genIdent_ok {sp : Span} {n : String}
    (h : ((genIdent sp n).run.run g).run t = (.ok (), g')) :
    ∃ v, g' = { g with stack := g.stack.pushValue v } := by
  simp only [genIdent, G.get_bind] at h
  cases hc : g.stack.current with
  | error e => simp only [hc, G.onStack_error_bind, G.result_eq, reduceCtorEq, false_and] at h
  | ok fr =>
    simp only [hc, G.onStack_ok_bind, G.read_bind] at h
    split at h
    · -- neither a compiler function nor a type
      replace h := G.ite_raise_ok (G.ite_raise_ok h)
      simp only [G.get_bind] at h
      split at h
      · split at h
        · simp only [G.get_bind] at h
          exact handleOperand_push_ok (G.ite_raise_ok h)
        · exact handleOperand_push_ok h
      · cases h
    · cases h

/-- A string constant adds a global at most; the code and the stacks are as they were. -/
theorem stringConst_ok {s : String} {v : Ir.Operand}
    (h : ((stringConst s).run.run g).run t = (.ok v, g')) :
    g'.stack = g.stack ∧ Lowered c g g' := by
  -- rewriting rather than simp keeps the kernel from unfolding the monad to compare the two forms
  rw [stringConst, G.get_bind] at h
  split at h
  · simp only [G.run_pure, G.result_eq] at h
    obtain ⟨-, rfl⟩ := h
    exact ⟨rfl, .refl c g⟩
  · simp only [G.set_bind, G.run_pure, G.result_eq] at h
    obtain ⟨-, rfl⟩ := h
    exact ⟨rfl, .of_code rfl rfl rfl rfl⟩

theorem genString_ok {ps : List Piece} (h : ((genString ps).run.run g).run t = (.ok (), g')) :
    ∃ v g₁, g₁.stack = g.stack ∧ Lowered c g g₁ ∧ g' = { g₁ with stack := g₁.stack.pushValue v } := by
  simp only [genString, G.bind_ok] at h
  obtain ⟨text, g₁, hloop, v, g₂, hv, hp⟩ := h
  -- the loop only checks that no piece is interpolated
  obtain rfl : g₁ = g := G.forIn_reads (fun p b g g' r hr => by
    split at hr
    · simp only [G.run_pure, G.result_eq] at hr
      exact hr.2.symm
    · cases hr) ps "" hloop
  obtain ⟨hst, hlow⟩ := stringConst_ok (c := c) hv
  simp only [push_run, G.result_eq] at hp
  exact ⟨v, g₂, hst, hlow, hp.2.symm⟩

theorem genConst_ok {site : Site} (h : ((genConst site).run.run g).run t = (.ok (), g')) :
    ∃ v g₁, g₁.stack = g.stack ∧ Lowered c g g₁ ∧ g' = { g₁ with stack := g₁.stack.pushValue v } := by
  simp only [genConst, G.read_bind] at h
  split at h
  · cases h
  · simp only [push_run, G.result_eq] at h
    exact ⟨_, g, rfl, .refl c g, h.2.symm⟩
  · obtain ⟨v, g₁, hv, hp⟩ := G.bind_ok.1 h
    obtain ⟨hst, hlow⟩ := stringConst_ok (c := c) hv
    simp only [push_run, G.result_eq] at hp
    exact ⟨v, g₁, hst, hlow, hp.2.symm⟩
  · simp only [push_run, G.result_eq] at h
    exact ⟨_, g, rfl, .refl c g, h.2.symm⟩

end Leaves

namespace Stepped

variable {cur : Frame Nat} {g g₁ : Gen}

theorem refl (hcur : g.stack.current = .ok cur) : Stepped cur g g :=
  of_lowered hcur (.refl cur.block g)

/-- A block is the same block whatever its returned flag says. -/
theorem of_returned {r : Bool} (h : Stepped { cur with returned := r } g g₁) : Stepped cur g g₁ :=
  ⟨h.blocks, h.fn, h.main, h.size, h.funcs⟩

/-- A step that changes at most the function of the innermost block, the function of the frame,
the frame's other flags, the strings and the log. -/
theorem of_code (hcur : g.stack.current = .ok cur) (hb : g₁.stack.blocks = g.stack.blocks)
    (hfn : g₁.frame.fn = g.frame.fn) (hm : g₁.prog.main = g.prog.main)
    (hs : g₁.prog.module.funcs.size = g.prog.module.funcs.size)
    (hf : ∀ j, j ≠ cur.block → j ≠ g.frame.fn →
      g₁.prog.module.funcs[j]? = g.prog.module.funcs[j]?) : Stepped cur g g₁ where
  blocks := ⟨cur.returned, by rw [hb]; exact GenStack.blocks_of_current hcur⟩
  fn := hfn
  main := hm
  size := hs.ge
  funcs j _ hc hfj := hf j hc hfj

end Stepped

section Statements

variable {α β : Type}

/-- Every successful run of `x` from a state whose innermost block is `cur` is `Stepped` and
keeps the values. -/
def Steps (x : G α) : Prop :=
  ∀ ⦃g g' : Gen⦄ ⦃t : Tables⦄ ⦃cur : Frame Nat⦄ ⦃a : α⦄, g.stack.current = .ok cur →
    (x.run.run g).run t = (.ok a, g') → Stepped cur g g' ∧ g'.stack.values = g.stack.values

namespace Steps

theorem bind {x : G α} {f : α → G β} (hx : Steps x) (hf : ∀ a, Steps (f a)) :
    Steps (x >>= f) := by
  intro g g' t cur b hcur h
  obtain ⟨a, g₁, h₁, h₂⟩ := G.bind_ok.1 h
  obtain ⟨hs₁, hv₁⟩ := hx hcur h₁
  obtain ⟨r, hcur₁⟩ := hs₁.current
  obtain ⟨hs₂, hv₂⟩ := hf a hcur₁ h₂
  exact ⟨hs₁.trans hs₂.of_returned, hv₂.trans hv₁⟩

/-- A step that only reads the state. -/
theorem of_reads {x : G α}
    (h : ∀ ⦃g g' : Gen⦄ ⦃t : Tables⦄ ⦃a : α⦄, (x.run.run g).run t = (.ok a, g') → g' = g) :
    Steps x := by
  intro g g' t cur a hcur hx
  obtain rfl := h hx
  exact ⟨.refl hcur, rfl⟩

theorem pure (a : α) : Steps (pure a : G α) :=
  of_reads fun _ _ _ _ h => by
    simp only [G.run_pure, G.result_eq] at h
    exact h.2.symm

theorem get_bind {f : Gen → G β} (hf : ∀ g, Steps (f g)) : Steps ((get : G Gen) >>= f) := by
  intro g g' t cur b hcur h
  rw [G.get_bind] at h
  exact hf g hcur h

theorem raise (k : ErrorKind) (sp : Span) (msg : String) : Steps (raise k sp msg : G α) := by
  intro g g' t cur a hcur h
  cases h

theorem curFunc : Steps curFunc := of_reads fun _ _ _ _ h => (curFunc_ok h).1

theorem checkReturnType (sp : Span) (ty : Ir.Ty) : Steps (checkReturnType sp ty) :=
  of_reads fun _ _ _ _ h => (checkReturnType_ok h).1

theorem inferReturnType (sp : Span) (ty : Ir.Ty) : Steps (inferReturnType sp ty) := by
  intro g g' t cur a hcur h
  rcases inferReturnType_ok h with ⟨-, rfl⟩ | ⟨-, rfl, -⟩
  · refine ⟨.of_code hcur rfl rfl rfl (by simp) fun j _ hj => ?_, rfl⟩
    simp [Ir.Module.funcs_modifyFunc, Ne.symm hj]
  · exact ⟨.refl hcur, rfl⟩

theorem emitRet (sp : Span) (r : Option Ir.Operand) : Steps (emitRet sp r) := by
  intro g g' t cur a hcur h
  obtain ⟨cur', hcur', -, rfl⟩ := emitRet_ok h
  rw [hcur] at hcur'
  cases hcur'
  refine ⟨.of_code hcur rfl rfl rfl (by simp [Ir.Module.setRet_eq]) fun j hj _ => ?_, rfl⟩
  simp [Ir.Module.setRet_eq, Ir.Module.funcs_modifyFunc, Ne.symm hj]

theorem markReturned : Steps markReturned := by
  intro g g' t cur a hcur h
  obtain ⟨cur', hcur', rfl⟩ := markReturned_ok h
  rw [hcur] at hcur'
  cases hcur'
  exact ⟨⟨⟨true, rfl⟩, rfl, rfl, le_rfl, fun _ _ _ _ => rfl⟩, rfl⟩

theorem warn (sp : Span) (msg : String) : Steps (warn sp msg) := by
  intro g g' t cur a hcur h
  simp only [warn_run, G.result_eq] at h
  obtain ⟨-, rfl⟩ := h
  exact ⟨.of_code hcur rfl rfl rfl rfl fun _ _ _ => rfl, rfl⟩

end Steps

/-- An implicit return only ends the innermost block, and may fix a literal's return type. -/
theorem genImplicitReturn_steps (sp : Span) (base : Nat) : Steps (genImplicitReturn sp base) := by
  unfold genImplicitReturn
  refine Steps.get_bind fun g => ?_
  extract_lets result finish jp one
  clear_value result one
  have hfinish : Steps (finish ()) := Steps.markReturned
  have hjp : ∀ u r, Steps (jp u r) := by
    intro u r
    refine Steps.curFunc.bind fun f => ?_
    dsimp only
    split
    · split
      · exact (Steps.emitRet _ _).bind fun _ => hfinish
      · exact (Steps.checkReturnType _ _).bind fun _ => (Steps.emitRet _ _).bind fun _ => hfinish
    · exact (Steps.emitRet _ _).bind fun _ => hfinish
  split
  · -- a literal takes its type from the value, or returns `1` when there is none
    rcases result with _ | v
    · refine Steps.get_bind fun g' => ?_
      split
      · exact hjp () one
      · exact hjp () none
    · exact (Steps.inferReturnType _ _).bind fun u => hjp u (some v)
  · exact hjp () result

/-- A `return` ends the innermost block once its value is lowered. -/
theorem genStmt_ret_none_steps (s : Site) : Steps (genStmt (.ret s none)) := by
  simp only [genStmt]
  refine Steps.get_bind fun g => ?_
  split
  · exact (Steps.inferReturnType _ _).bind fun _ => (Steps.emitRet _ _).bind fun _ =>
      Steps.markReturned
  · refine Steps.curFunc.bind fun f => ?_
    split
    · exact (Steps.raise _ _ _).bind fun _ => (Steps.emitRet _ _).bind fun _ => Steps.markReturned
    · exact (Steps.emitRet _ _).bind fun _ => Steps.markReturned

end Statements

section Mutual

-- The per-form lemmas below unfold the generator and are elaborated in parallel; its equation
-- lemmas are made here, once, so that none of them waits for another to make them.
attribute [local simp] genExpr genValue genArgs genStmt genStmts genLambda

/-- Lowering `e` in the innermost block `cur` is `Lowered` in that block's function and pushes
at most one value. -/
def ExprLowers (e : Expr) : Prop :=
  ∀ ⦃g g' : Gen⦄ ⦃t : Tables⦄ ⦃cur : Frame Nat⦄, ((genExpr e).run.run g).run t = (.ok (), g') →
    g.stack.current = .ok cur →
    Lowered cur.block g g' ∧ ∃ vs, g'.stack.values = g.stack.values ++ vs ∧ vs.length ≤ 1

/-- Lowering `e` for its value is `Lowered` and leaves the values as they were. -/
def ValueLowers (e : Expr) : Prop :=
  ∀ ⦃g g' : Gen⦄ ⦃t : Tables⦄ ⦃cur : Frame Nat⦄ ⦃v : Ir.Operand⦄,
    ((genValue e).run.run g).run t = (.ok v, g') → g.stack.current = .ok cur →
    Lowered cur.block g g' ∧ g'.stack.values = g.stack.values

/-- Lowering arguments for their values is `Lowered` and leaves the values as they were. -/
def ArgsLower (es : List Expr) : Prop :=
  ∀ ⦃g g' : Gen⦄ ⦃t : Tables⦄ ⦃cur : Frame Nat⦄ ⦃vs : List Ir.Operand⦄,
    ((genArgs es).run.run g).run t = (.ok vs, g') → g.stack.current = .ok cur →
    Lowered cur.block g g' ∧ g'.stack.values = g.stack.values

/-- A function literal leaves the stacks as they were and changes no function there was. -/
def LambdaLowers (site : Site) (sts : List Stmt) : Prop :=
  ∀ ⦃g g' : Gen⦄ ⦃t : Tables⦄ ⦃op : Ir.Operand⦄,
    ((genLambda site sts).run.run g).run t = (.ok op, g') →
    g'.stack = g.stack ∧ ∀ c, Lowered c g g'

/-- Lowering a statement is `Stepped` and only adds values. -/
def StmtLowers (st : Stmt) : Prop :=
  ∀ ⦃g g' : Gen⦄ ⦃t : Tables⦄ ⦃cur : Frame Nat⦄, ((genStmt st).run.run g).run t = (.ok (), g') →
    g.stack.current = .ok cur →
    Stepped cur g g' ∧ g.stack.values <+: g'.stack.values

/-- Lowering statements above `base` is `Stepped` and keeps the values below `base`. -/
def StmtsLower (base : Nat) (sts : List Stmt) : Prop :=
  ∀ ⦃g g' : Gen⦄ ⦃t : Tables⦄ ⦃cur : Frame Nat⦄, ((genStmts base sts).run.run g).run t = (.ok (), g') →
    g.stack.current = .ok cur → base ≤ g.stack.depth →
    Stepped cur g g' ∧ base ≤ g'.stack.depth ∧
      g'.stack.values.take base = g.stack.values.take base


namespace ExprLowers

theorem ident (s : Site) (n : String) : ExprLowers (.ident s n) := by
  intro g g' t cur h hcur
  simp only [genExpr] at h
  obtain ⟨v, rfl⟩ := genIdent_ok h
  exact ⟨.values g _, [v], rfl, by simp⟩

theorem int_ok (s : Site) (txt : String) (n : Int32) (hn : literalValue? txt = some n) :
    ExprLowers (.int s txt) := by
  intro g g' t cur h hcur
  simp only [genExpr, hn, push_run, G.result_eq] at h
  obtain ⟨-, rfl⟩ := h
  exact ⟨.values g _, [_], rfl, by simp⟩

theorem int_error (s : Site) (txt : String) (hn : literalValue? txt = none) :
    ExprLowers (.int s txt) := by
  intro g g' t cur h hcur
  simp only [genExpr, hn] at h
  cases h

theorem str (site : Site) (ps : List Piece) : ExprLowers (.str site ps) := by
  intro g g' t cur h hcur
  simp only [genExpr] at h
  obtain ⟨v, g₁, hst, hl, rfl⟩ := genString_ok (c := cur.block) h
  exact ⟨hl.trans (.values g₁ _), [v], by simp [GenStack.pushValue, hst], by simp⟩

theorem exec (s : Site) (inner : Expr) : ExprLowers (.exec s inner) := by
  intro g g' t cur h hcur
  simp only [genExpr] at h
  obtain ⟨v, g₁, hst, hl, rfl⟩ := genConst_ok (c := cur.block) h
  exact ⟨hl.trans (.values g₁ _), [v], by simp [GenStack.pushValue, hst], by simp⟩

theorem lambda (s site : Site) (sts : List Stmt) (hlam : LambdaLowers s sts) :
    ExprLowers (.lambda s (.mk site sts)) := by
  intro g g' t cur h hcur
  simp only [genExpr, G.bind_ok, push_run, G.result_eq] at h
  obtain ⟨op, g₁, h₁, -, rfl⟩ := h
  obtain ⟨hst, hl⟩ := hlam h₁
  exact ⟨(hl cur.block).trans (.values g₁ _), [op], by simp [GenStack.pushValue, hst], by simp⟩

theorem call (s : Site) (f : Expr) (as : List Expr) (hf : ValueLowers f) (has : ArgsLower as) :
    ExprLowers (.call s f as) := by
  intro g g' t cur h hcur
  simp only [genExpr, G.bind_ok] at h
  obtain ⟨callee, g₁, h₁, args, g₂, h₂, h⟩ := h
  obtain ⟨hl₁, hv₁⟩ := hf h₁ hcur
  obtain ⟨hl₂, hv₂⟩ := has h₂ (hl₁.current hcur)
  split at h
  · split at h
    · cases h
    · -- the argument checks read the state; the call is emitted into the block
      simp only [G.bind_ok] at h
      obtain ⟨_, g₃, h₃, r, g₄, h₄, h⟩ := h
      obtain rfl : g₃ = g₂ := G.forIn_reads (fun x b g g' r hr => by
        split at hr
        · cases hr
        · simp only [G.run_pure, G.result_eq] at hr
          exact hr.2.symm) _ _ h₃
      obtain ⟨cur', hcur', -, rfl, rfl⟩ := emit_ok h₄
      rw [(hl₁.trans hl₂).current hcur] at hcur'
      cases hcur'
      -- the call's result is pushed unless it returns nothing
      split at h
      · simp only [push_run, G.result_eq] at h
        obtain ⟨-, rfl⟩ := h
        exact ⟨((hl₁.trans hl₂).trans (.append g₃ _)).trans (.values _ _), [_],
          by rw [← hv₁, ← hv₂]; rfl, by simp⟩
      · simp only [G.run_pure, G.result_eq] at h
        obtain ⟨-, rfl⟩ := h
        exact ⟨(hl₁.trans hl₂).trans (.append g₃ _), [], by simp [hv₂, hv₁], by simp⟩
  · cases h

theorem binary (s : Site) (op : BinOp) (l r : Expr) (hl : ValueLowers l) (hr : ValueLowers r) :
    ExprLowers (.binary s op l r) := by
  intro g g' t cur h hcur
  simp only [genExpr, G.bind_ok] at h
  obtain ⟨lv, g₁, h₁, rv, g₂, h₂, h⟩ := h
  obtain ⟨hl₁, hv₁⟩ := hl h₁ hcur
  obtain ⟨hl₂, hv₂⟩ := hr h₂ (hl₁.current hcur)
  split at h
  · cases h
  · simp only [G.get_bind] at h
    rcases ht : g₂.stack.emitTarget (some s.span) with e | fr
    · simp only [ht, G.onStack_error_bind, G.result_eq, reduceCtorEq, false_and] at h
    · simp only [ht, G.onStack_ok_bind] at h
      split at h
      · cases h
      · simp only [G.bind_ok, push_run, G.result_eq] at h
        obtain ⟨v, g₃, h₃, -, rfl⟩ := h
        obtain ⟨cur', hcur', -, rfl, rfl⟩ := emit_ok h₃
        rw [(hl₁.trans hl₂).current hcur] at hcur'
        cases hcur'
        exact ⟨((hl₁.trans hl₂).trans (.append g₂ _)).trans (.values _ _), [_],
          by rw [← hv₁, ← hv₂]; rfl, by simp⟩

end ExprLowers

theorem ValueLowers.of_expr (e : Expr) (he : ExprLowers e) : ValueLowers e := by
  intro g g' t cur v h hcur
  simp only [genValue, G.depth_bind, G.bind_ok] at h
  obtain ⟨_, g₁, h₁, h⟩ := h
  obtain ⟨hl₁, vs, hvs, hlen⟩ := he h₁ hcur
  split at h
  · cases h
  · next hne =>
    -- the expression pushed one value, which is taken back
    obtain ⟨st, hpop, rfl⟩ := pop_ok h
    obtain ⟨hlast, rfl⟩ := GenStack.popValue_eq_ok.1 hpop
    have hvs' : vs.length = 1 := by
      simp only [GenStack.depth, hvs, List.length_append] at hne
      omega
    obtain ⟨w, rfl⟩ := List.length_eq_one_iff.1 hvs'
    exact ⟨hl₁.trans (.values g₁ _), by simp [hvs]⟩

theorem ArgsLower.nil : ArgsLower [] := by
  intro g g' t cur vs h hcur
  simp only [genArgs, G.run_pure, G.result_eq] at h
  obtain ⟨-, rfl⟩ := h
  exact ⟨.refl _ g, rfl⟩

theorem ArgsLower.cons (e : Expr) (es : List Expr) (he : ValueLowers e) (hes : ArgsLower es) :
    ArgsLower (e :: es) := by
  intro g g' t cur vs h hcur
  simp only [genArgs, G.bind_ok, G.run_pure, G.result_eq] at h
  obtain ⟨v, g₁, h₁, vs', g₂, h₂, -, rfl⟩ := h
  obtain ⟨hl₁, hv₁⟩ := he h₁ hcur
  obtain ⟨hl₂, hv₂⟩ := hes h₂ (hl₁.current hcur)
  exact ⟨hl₁.trans hl₂, hv₂.trans hv₁⟩

theorem Steps.of_value {e : Expr} (he : ValueLowers e) : Steps (genValue e) := by
  intro g g' t cur v hcur h
  obtain ⟨hl, hv⟩ := he h hcur
  exact ⟨.of_lowered hcur hl, hv⟩

namespace StmtLowers

theorem expr (site : Site) (e : Expr) (he : ExprLowers e) : StmtLowers (.expr site e) := by
  intro g g' t cur h hcur
  simp only [genStmt] at h
  obtain ⟨hl, vs, hvs, -⟩ := he h hcur
  exact ⟨.of_lowered hcur hl, vs, hvs.symm⟩

theorem ret_none (s : Site) : StmtLowers (.ret s none) := by
  intro g g' t cur h hcur
  obtain ⟨hs, hv⟩ := genStmt_ret_none_steps s hcur h
  exact ⟨hs, hv ▸ List.prefix_refl _⟩

theorem ret_some (s : Site) (e : Expr) (he : ValueLowers e) : StmtLowers (.ret s (some e)) := by
  have hsteps : Steps (genStmt (.ret s (some e))) := by
    simp only [genStmt]
    refine (Steps.of_value he).bind fun v => Steps.get_bind fun g => ?_
    split
    · exact (Steps.inferReturnType _ _).bind fun _ => (Steps.emitRet _ _).bind fun _ =>
        Steps.markReturned
    · exact (Steps.checkReturnType _ _).bind fun _ => (Steps.emitRet _ _).bind fun _ =>
        Steps.markReturned
  intro g g' t cur h hcur
  obtain ⟨hs, hv⟩ := hsteps hcur h
  exact ⟨hs, hv ▸ List.prefix_refl _⟩

end StmtLowers

namespace StmtsLower

theorem nil (base : Nat) : StmtsLower base [] := by
  intro g g' t cur h hcur hbase
  simp only [genStmts, G.run_pure, G.result_eq] at h
  obtain ⟨-, rfl⟩ := h
  exact ⟨.refl hcur, hbase, rfl⟩

theorem cons (base : Nat) (st : Stmt) (rest : List Stmt) (hst : StmtLowers st)
    (hrest : StmtsLower base rest) : StmtsLower base (st :: rest) := by
  intro g g' t cur h hcur hbase
  simp only [genStmts, G.get_bind, hcur, G.onStack_ok_bind] at h
  split at h
  · -- the block has returned: the statements are skipped with a warning
    obtain ⟨hs, hv⟩ := Steps.warn _ _ hcur h
    exact ⟨hs, by rwa [GenStack.depth, hv], by rw [hv]⟩
  · simp only [truncate, G.modify_bind, G.bind_ok] at h
    obtain ⟨_, g₁, h₁, h⟩ := h
    -- each statement starts from the values below `base`
    have htrunc : Stepped cur g { g with stack := g.stack.truncate base } :=
      .of_code hcur rfl rfl rfl rfl fun _ _ _ => rfl
    have hlen : (g.stack.values.take base).length = base := by
      simp only [List.length_take, GenStack.depth] at hbase ⊢
      omega
    obtain ⟨hs₁, hv₁⟩ := hst h₁ hcur
    have htake₁ : g₁.stack.values.take base = g.stack.values.take base := by
      have htake := List.prefix_iff_eq_take.1 hv₁
      simp only [GenStack.truncate, hlen] at htake
      exact htake.symm
    have hbase₁ : base ≤ g₁.stack.depth := by
      have := hv₁.length_le
      simp only [GenStack.truncate, hlen] at this
      exact this
    obtain ⟨r, hcur₁⟩ := hs₁.current
    obtain ⟨hs₂, hbase₂, htake₂⟩ := hrest h hcur₁ hbase₁
    exact ⟨(htrunc.trans hs₁).trans hs₂.of_returned, hbase₂, htake₂.trans htake₁⟩

end StmtsLower

/-- A function literal is generated in a block and a function of its own; afterwards the stacks
and the frame are those of the enclosing code, and no function there was has changed. -/
theorem LambdaLowers.of_stmts (site : Site) (sts : List Stmt) (hsts : ∀ base, StmtsLower base sts) :
    LambdaLowers site sts := by
  intro g g' t op h
  simp only [genLambda, G.read_bind] at h
  split at h
  · next scope hscope =>
    simp only [G.get_bind, G.set_bind, G.depth_bind, G.modify_bind, Ir.Module.addFunc_snd] at h
    rw [G.bind_ok] at h
    obtain ⟨⟨⟩, g₁, h₁, h⟩ := h
    obtain ⟨hs₁, hbase₁, htake₁⟩ := hsts g.stack.depth h₁ (GenStack.current_pushBlock _ _) le_rfl
    obtain ⟨r, hcur₁⟩ := hs₁.current
    simp only [G.get_bind, hcur₁, G.onStack_ok_bind] at h
    obtain ⟨g₂, hif, h⟩ := G.ite_seq_ok h
    -- a body that has not returned gets its implicit return
    obtain ⟨hs₂, hv₂⟩ : Stepped ⟨g.prog.module.funcs.size, scope, false⟩ g₁ g₂ ∧
        g₂.stack.values = g₁.stack.values := by
      split at hif
      · obtain ⟨hs, hv⟩ := genImplicitReturn_steps _ _ hcur₁ hif
        exact ⟨hs.of_returned, hv⟩
      · subst hif
        exact ⟨(Stepped.refl hcur₁).of_returned, rfl⟩
    have hs := hs₁.trans hs₂
    obtain ⟨r₂, hcur₂⟩ := hs.current
    simp only [G.get_bind, GenStack.popBlock_eq_ok.2 ⟨hcur₂, rfl⟩, G.onStack_ok_bind,
      G.modify_bind] at h
    split at h
    · simp only [G.run_pure, G.result_eq, Except.ok.injEq] at h
      obtain ⟨-, rfl⟩ := h
      -- the literal's block is popped and the values above the enclosing ones dropped
      have hstack : ({ g₂.stack with blocks := g₂.stack.blocks.dropLast }.truncate
          g.stack.depth) = g.stack := by
        obtain ⟨r₃, hr₃⟩ := hs.blocks
        refine GenStack.ext_of ?_ ?_
        · simp [GenStack.truncate, hr₃, GenStack.pushBlock]
        · simp only [GenStack.truncate, hv₂, htake₁]
          simp [GenStack.pushBlock, GenStack.depth]
      refine ⟨hstack, fun c => ⟨by rw [hstack], rfl, hs.main, ?_, [], fun j hj => ?_⟩⟩
      · exact (Nat.le_succ _).trans (by simpa using hs.size)
      · have hfn : j ≠ g.prog.module.funcs.size := Nat.ne_of_lt hj
        rw [hs.funcs j (by simp; omega) hfn hfn, Ir.Module.funcs_addFunc_of_lt _ _ _ hj]
        split <;> simp
    · cases h
  · cases h

/-- What lowering may change, for every expression, statement and function literal: one case
of the generator's own mutual recursion at a time. -/
theorem lowering_footprint :
    (∀ e, ExprLowers e) ∧ (∀ site sts, LambdaLowers site sts) ∧
      (∀ base sts, StmtsLower base sts) ∧ (∀ st, StmtLowers st) ∧ (∀ e, ValueLowers e) ∧
        ∀ es, ArgsLower es :=
  genExpr.mutual_induct ExprLowers LambdaLowers StmtsLower StmtLowers ValueLowers ArgsLower
    ExprLowers.ident ExprLowers.int_ok ExprLowers.int_error ExprLowers.str ExprLowers.call
    ExprLowers.lambda ExprLowers.binary ExprLowers.exec LambdaLowers.of_stmts StmtsLower.nil
    StmtsLower.cons StmtLowers.expr StmtLowers.ret_none StmtLowers.ret_some ValueLowers.of_expr
    ArgsLower.nil ArgsLower.cons

section Footprints

variable {g g' : Gen} {t : Tables} {cur : Frame Nat}

theorem genExpr_lowered {e : Expr} (h : ((genExpr e).run.run g).run t = (.ok (), g'))
    (hcur : g.stack.current = .ok cur) :
    Lowered cur.block g g' ∧ ∃ vs, g'.stack.values = g.stack.values ++ vs ∧ vs.length ≤ 1 :=
  lowering_footprint.1 e h hcur

theorem genValue_lowered {e : Expr} {v : Ir.Operand}
    (h : ((genValue e).run.run g).run t = (.ok v, g')) (hcur : g.stack.current = .ok cur) :
    Lowered cur.block g g' ∧ g'.stack.values = g.stack.values :=
  lowering_footprint.2.2.2.2.1 e h hcur

theorem genStmts_stepped {base : Nat} {sts : List Stmt}
    (h : ((genStmts base sts).run.run g).run t = (.ok (), g')) (hcur : g.stack.current = .ok cur)
    (hbase : base ≤ g.stack.depth) :
    Stepped cur g g' ∧ base ≤ g'.stack.depth ∧
      g'.stack.values.take base = g.stack.values.take base :=
  lowering_footprint.2.2.1 base sts h hcur hbase

theorem genStmt_stepped {st : Stmt} (h : ((genStmt st).run.run g).run t = (.ok (), g'))
    (hcur : g.stack.current = .ok cur) : Stepped cur g g' ∧ g.stack.values <+: g'.stack.values :=
  lowering_footprint.2.2.2.1 st h hcur

theorem genArgs_lowered {es : List Expr} {vs : List Ir.Operand}
    (h : ((genArgs es).run.run g).run t = (.ok vs, g')) (hcur : g.stack.current = .ok cur) :
    Lowered cur.block g g' ∧ g'.stack.values = g.stack.values :=
  lowering_footprint.2.2.2.2.2 es h hcur

end Footprints

end Mutual

end Codegen

end Abla
