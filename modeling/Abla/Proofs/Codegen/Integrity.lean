import Mathlib
import Abla.Codegen.Generate
import Abla.Proofs.Codegen.Footprint
import Abla.Proofs.Typing.Layout

/-!
# Lowering breaks no invariant of its own

Generating a body can fail with an internal error only where the tables or the program lack
what the earlier phases leave there: a `#` expression without the constant execution recorded,
a function or function literal without its scope, a handle that names no function or no
parameter, a function with no handle, or an empty stack, a missing block or a block that has
returned. This module shows that none of these happens when the tables record what lowering
reads (`Notes.Records`: a scope at every function literal and a constant at every `#` node
execution visits) and the handles are valid (`Program.HandlesValid`).

`Tames t g x` says that the run of `x` from `g` fails, if at all, with an error that is not
internal, and otherwise keeps the handles and only grows the module (`Grown`). The triple
composes along binds; one lemma per primitive of the generator, then one case per case of the
generator's mutual recursion, give it for every expression, statement and function literal
(`lowering_tame`), and from there for every function of a unit (`genDecls_tame`).
-/

namespace Abla

mutual

/-- The `#` nodes of an expression whose constants execution records: every one that is not
nested in another `#` expression. -/
def Expr.constSites : Expr → List Nat
  | .ident _ _ | .int _ _ => []
  | .str _ ps => Piece.constSitesList ps
  | .call _ f as => f.constSites ++ Expr.constSitesList as
  | .lambda _ b => b.constSites
  | .binary _ _ l r => l.constSites ++ r.constSites
  | .exec s _ => [s.id]

/-- The `#` nodes execution visits in a list of expressions. -/
def Expr.constSitesList : List Expr → List Nat
  | [] => []
  | e :: es => e.constSites ++ Expr.constSitesList es

/-- The `#` nodes execution visits in the interpolations of a string literal. -/
def Piece.constSitesList : List Piece → List Nat
  | [] => []
  | .text _ :: ps => Piece.constSitesList ps
  | .interp e :: ps => e.constSites ++ Piece.constSitesList ps

/-- The `#` nodes execution visits in a statement. -/
def Stmt.constSites : Stmt → List Nat
  | .expr _ e => e.constSites
  | .ret _ none => []
  | .ret _ (some e) => e.constSites

/-- The `#` nodes execution visits in a list of statements. -/
def Stmt.constSitesList : List Stmt → List Nat
  | [] => []
  | st :: sts => st.constSites ++ Stmt.constSitesList sts

/-- The `#` nodes execution visits in a block. -/
def Block.constSites : Block → List Nat
  | .mk _ sts => Stmt.constSitesList sts

end

/-- The statements of a function's body; none when it has no body. -/
def FuncDecl.stmts (f : FuncDecl) : List Stmt := f.body.elim [] Block.stmts

mutual

/-- The functions of a declaration whose bodies are generated: those that are neither external
nor compile-time, outside compile-time classes. -/
def Decl.generated : Decl → List FuncDecl
  | .func f => if f.isExtern || f.isCompiler then [] else [f]
  | .cls _ _ mods ms => if Modifier.hasCompiler mods then [] else Decl.generatedList ms
  | .hashCall _ _ => []

/-- The functions of a list of declarations whose bodies are generated. -/
def Decl.generatedList : List Decl → List FuncDecl
  | [] => []
  | d :: ds => d.generated ++ Decl.generatedList ds

end

namespace Notes

/-- The notes record a scope at every node of `ls` and a constant at every node of `cs`. -/
def Records (n : Notes) (ls cs : List Nat) : Prop :=
  (∀ k ∈ ls, (n.scopeOf? k).isSome) ∧ ∀ k ∈ cs, (n.constOf? k).isSome

variable {n : Notes} {ls ls' cs cs' : List Nat}

@[simp] theorem records_append :
    n.Records (ls ++ ls') (cs ++ cs') ↔ n.Records ls cs ∧ n.Records ls' cs' := by
  simp only [Records, List.mem_append]
  constructor
  · rintro ⟨hl, hc⟩
    exact ⟨⟨fun k hk => hl k (.inl hk), fun k hk => hc k (.inl hk)⟩,
      fun k hk => hl k (.inr hk), fun k hk => hc k (.inr hk)⟩
  · rintro ⟨⟨hl, hc⟩, hl', hc'⟩
    exact ⟨fun k hk => hk.elim (hl k) (hl' k), fun k hk => hk.elim (hc k) (hc' k)⟩

@[simp] theorem records_nil : n.Records [] [] := by simp [Records]

@[simp] theorem records_cons_scope {k : Nat} :
    n.Records (k :: ls) cs ↔ (n.scopeOf? k).isSome ∧ n.Records ls cs := by
  simp only [Records, List.mem_cons, forall_eq_or_imp, and_assoc]

end Notes

namespace Codegen

/-- A handle names a function of the module, or a parameter its function has. -/
def Handle.Valid (m : Ir.Module) : Handle → Prop
  | .func i => ∃ f, m.funcs[i]? = some f
  | .param i k => ∃ f, m.funcs[i]? = some f ∧ k < f.params.length

/-- The handles of a program name functions and parameters of its module. -/
def Program.HandlesValid (p : Program) : Prop :=
  ∀ (k : Nat) (h : Handle), p.handles[k]? = some h → h.Valid p.module

/-- From `m` to `m'` every function stays, with its parameters; others may be added. -/
def ModuleGrows (m m' : Ir.Module) : Prop :=
  ∀ (j : Nat) (f : Ir.Func), m.funcs[j]? = some f → ∃ f', m'.funcs[j]? = some f' ∧ f'.params = f.params

namespace ModuleGrows

variable {m m₁ m₂ : Ir.Module}

theorem refl (m : Ir.Module) : ModuleGrows m m := fun _ f h => ⟨f, h, rfl⟩

theorem trans (h₁ : ModuleGrows m m₁) (h₂ : ModuleGrows m₁ m₂) : ModuleGrows m m₂ := by
  intro j f hf
  obtain ⟨f₁, hf₁, hp₁⟩ := h₁ j f hf
  obtain ⟨f₂, hf₂, hp₂⟩ := h₂ j f₁ hf₁
  exact ⟨f₂, hf₂, hp₂.trans hp₁⟩

/-- Changing one function in a way that keeps parameters. -/
theorem modifyFunc (m : Ir.Module) (c : Nat) {h : Ir.Func → Ir.Func}
    (hp : ∀ f, (h f).params = f.params) : ModuleGrows m (m.modifyFunc c h) := by
  intro j f hf
  rw [Ir.Module.funcs_modifyFunc]
  split
  · exact ⟨h f, by rw [hf]; rfl, hp f⟩
  · exact ⟨f, hf, rfl⟩

theorem addFunc (m : Ir.Module) (f : Ir.Func) : ModuleGrows m (m.addFunc f).1 := by
  intro j g hg
  have hj : j < m.funcs.size := (Array.getElem?_eq_some_iff.1 hg).1
  exact ⟨g, by rw [Ir.Module.funcs_addFunc_of_lt _ _ _ hj, hg], rfl⟩

theorem append (m : Ir.Module) (c : Nat) (i : Ir.Inst) : ModuleGrows m (m.append c i).1 := by
  rw [Ir.Module.append_fst]
  exact modifyFunc m c fun _ => rfl

theorem setRet (m : Ir.Module) (c : Nat) (v : Option Ir.Operand) : ModuleGrows m (m.setRet c v) :=
  modifyFunc m c fun _ => rfl

theorem of_funcs (h : m'.funcs = m.funcs) : ModuleGrows m m' := fun _ f hf => ⟨f, h ▸ hf, rfl⟩

end ModuleGrows

theorem Handle.Valid.mono {m m' : Ir.Module} (hg : ModuleGrows m m') :
    ∀ {h : Handle}, h.Valid m → h.Valid m'
  | .func _, ⟨f, hf⟩ => by
    obtain ⟨f', hf', -⟩ := hg _ f hf
    exact ⟨f', hf'⟩
  | .param _ _, ⟨f, hf, hk⟩ => by
    obtain ⟨f', hf', hp⟩ := hg _ f hf
    exact ⟨f', hf', hp ▸ hk⟩

/-- From `g` to `g'` the module grew, and the handles, the unit prefixes and the list of units
generated stayed. -/
structure Grown (g g' : Gen) : Prop where
  handles : g'.prog.handles = g.prog.handles
  module : ModuleGrows g.prog.module g'.prog.module
  prefixes : g'.prog.prefixes = g.prog.prefixes
  generated : g'.prog.generated = g.prog.generated

namespace Grown

variable {g g₁ g₂ : Gen}

theorem refl (g : Gen) : Grown g g := ⟨rfl, .refl _, rfl, rfl⟩

theorem trans (h₁ : Grown g g₁) (h₂ : Grown g₁ g₂) : Grown g g₂ :=
  ⟨h₂.handles.trans h₁.handles, h₁.module.trans h₂.module, h₂.prefixes.trans h₁.prefixes,
    h₂.generated.trans h₁.generated⟩

/-- A change of the stacks, the frame or the counters only. -/
theorem of_prog (h : g'.prog = g.prog) : Grown g g' :=
  ⟨by rw [h], by rw [h]; exact .refl _, by rw [h], by rw [h]⟩

/-- A change of the module that keeps the handles. -/
theorem of_module {m : Ir.Module} (hm : ModuleGrows g.prog.module m) :
    Grown g { g with prog := { g.prog with module := m } } := ⟨rfl, hm, rfl, rfl⟩

theorem handlesValid (h : Grown g g') (hv : g.prog.HandlesValid) : g'.prog.HandlesValid :=
  fun k hd hk => (hv k hd (h.handles ▸ hk)).mono h.module

end Grown

/-- What a run of the generator from `g` ends in, after success or failure alike: a state that
kept the handles and grew the module, and an error, if any, that is not internal. -/
structure Tame {α : Type} (g : Gen) (r : Except CompileError α × Gen) : Prop where
  grown : Grown g r.2
  kind : ∀ e, r.1 = .error e → e.kind ≠ .internalState

theorem Tame.of_ok {α : Type} {g g' : Gen} {a : α} (hg : Grown g g') : Tame g (.ok a, g') :=
  ⟨hg, fun _ h => by cases h⟩

theorem Tame.of_error {α : Type} {g : Gen} {e : CompileError} (hk : e.kind ≠ .internalState) :
    Tame (α := α) g (.error e, g) :=
  ⟨Grown.refl g, fun _ h => by cases h; exact hk⟩

/-- Running `x` from `g` with the tables `t` is tame. -/
def Tames {α : Type} (t : Tables) (g : Gen) (x : G α) : Prop := Tame g ((x.run.run g).run t)

namespace Tames

variable {α β : Type} {t : Tables} {g : Gen}

theorem of_run {x : G α} {r : Except CompileError α × Gen} (hx : (x.run.run g).run t = r)
    (h : Tame g r) : Tames t g x := by
  unfold Tames
  rw [hx]
  exact h

theorem pure (a : α) : Tames t g (Pure.pure a : G α) := .of_ok (Grown.refl g)

theorem raise {k : ErrorKind} (hk : k ≠ .internalState) (sp : Span) (msg : String) :
    Tames t g (raise k sp msg : G α) := .of_error hk

/-- The first step, then the rest from every state it reaches without error. -/
theorem bind {x : G α} {f : α → G β} (hx : Tames t g x)
    (hf : ∀ a g', (x.run.run g).run t = (.ok a, g') → Grown g g' → Tames t g' (f a)) :
    Tames t g (x >>= f) := by
  unfold Tames at *
  rw [G.run_bind]
  rcases h : (x.run.run g).run t with ⟨_ | a, g'⟩
  · rw [h] at hx
    exact ⟨hx.grown, fun e he => hx.kind e (by cases he; rfl)⟩
  · rw [h] at hx
    -- the rest's run ends where the whole does, and its state grew from `g'`
    obtain ⟨hrg, hrk⟩ := hf a g' h hx.grown
    exact ⟨hx.grown.trans hrg, hrk⟩

theorem raise_bind {k : ErrorKind} (hk : k ≠ .internalState) (sp : Span) (msg : String)
    (f : α → G β) : Tames t g (Codegen.raise k sp msg >>= f) := by
  unfold Tames
  rw [G.raise_bind]
  exact .of_error hk

theorem get_bind {f : Gen → G β} (hf : Tames t g (f g)) : Tames t g ((get : G Gen) >>= f) := by
  unfold Tames at *
  rw [G.get_bind]
  exact hf

theorem read_bind {f : Tables → G β} (hf : Tames t g (f t)) :
    Tames t g ((read : G Tables) >>= f) := by
  unfold Tames at *
  rw [G.read_bind]
  exact hf

theorem ite {c : Prop} [Decidable c] {x y : G α} (hx : c → Tames t g x) (hy : ¬c → Tames t g y) :
    Tames t g (if c then x else y) := by
  split
  · exact hx ‹_›
  · exact hy ‹_›

theorem modify_bind {h : Gen → Gen} {f : PUnit → G β} (hh : Grown g (h g))
    (hf : Tames t (h g) (f ())) : Tames t g ((modify h : G PUnit) >>= f) := by
  refine bind (of_run (G.run_modify g t h) (.of_ok hh)) fun _ g' hr _ => ?_
  simp only [G.run_modify, G.result_eq] at hr
  rw [← hr.2]
  exact hf

theorem modify {h : Gen → Gen} (hh : Grown g (h g)) : Tames t g (modify h : G PUnit) :=
  of_run (G.run_modify g t h) (.of_ok hh)

theorem set_bind {g₁ : Gen} {f : PUnit → G β} (hg : Grown g g₁) (hf : Tames t g₁ (f ())) :
    Tames t g ((set g₁ : G PUnit) >>= f) := by
  refine bind (of_run (G.run_set g t g₁) (.of_ok hg)) fun _ g' hr _ => ?_
  simp only [G.run_set, G.result_eq] at hr
  rw [← hr.2]
  exact hf

theorem depth_bind {f : Nat → G β} (hf : Tames t g (f g.stack.depth)) : Tames t g (depth >>= f) := by
  unfold Tames at *
  rw [G.depth_bind]
  exact hf

/-- A step taken only under a condition, before a rest that runs either way. -/
theorem ite_seq {c : Prop} [Decidable c] {x : G PUnit} {k : G β} (hx : c → Tames t g x)
    (hk : ∀ g', (if c then ∃ u, (x.run.run g).run t = (.ok u, g') else g' = g) → Grown g g' →
      Tames t g' k) :
    Tames t g (if c then x >>= (fun _ => k) else k) := by
  split
  · next hc => exact bind (hx hc) fun u g' h hg => hk g' (by simpa [hc] using ⟨u, h⟩) hg
  · next hc => exact hk g (by simp [hc]) (Grown.refl g)

theorem onStack_ok (a : α) : Tames t g (onStack (.ok a) : G α) := .of_ok (Grown.refl g)

theorem onStack_ok_bind {a : α} {f : α → G β} (hf : Tames t g (f a)) :
    Tames t g (onStack (.ok a) >>= f) := by
  unfold Tames at *
  rw [G.onStack_ok_bind]
  exact hf

theorem forIn {γ δ : Type} {f : γ → δ → G (ForInStep δ)}
    (hf : ∀ a b g, Tames t g (f a b)) : ∀ (xs : List γ) (b : δ) (g : Gen), Tames t g (ForIn.forIn xs b f)
  | [], b, g => by
    rw [List.forIn_nil]
    exact pure b
  | x :: xs, b, g => by
    rw [List.forIn_cons]
    refine bind (hf x b g) fun step g' _ _ => ?_
    cases step with
    | done b' => exact pure b'
    | yield b' => exact forIn hf xs b' g'

end Tames

/-- A state lowering may start from: its handles are valid and the function of its frame
exists. -/
structure Sane (g : Gen) : Prop where
  handles : g.prog.HandlesValid
  frame : ∃ f, g.prog.module.funcs[g.frame.fn]? = some f

/-- The innermost block exists and has not returned, so code may be emitted into it. -/
def Open (g : Gen) : Prop := ∃ cur, g.stack.current = .ok cur ∧ cur.returned = false

variable {α β : Type} {t : Tables} {g g' : Gen}

theorem Sane.of_grown (hs : Sane g) (hg : Grown g g') (hf : g'.frame.fn = g.frame.fn) : Sane g' := by
  refine ⟨hg.handlesValid hs.handles, ?_⟩
  obtain ⟨f, hfn⟩ := hs.frame
  obtain ⟨f', hf', -⟩ := hg.module _ f hfn
  exact ⟨f', hf ▸ hf'⟩

theorem Open.of_blocks (ho : Open g) (hb : g'.stack.blocks = g.stack.blocks) : Open g' := by
  obtain ⟨cur, hcur, hret⟩ := ho
  exact ⟨cur, by rw [GenStack.current_congr hb, hcur], hret⟩

theorem Sane.of_lowered {c : Nat} (hs : Sane g) (hg : Grown g g') (hl : Lowered c g g') : Sane g' :=
  hs.of_grown hg (by rw [hl.frame])

theorem Open.of_lowered {c : Nat} (ho : Open g) (hl : Lowered c g g') : Open g' :=
  ho.of_blocks hl.blocks

section Primitives

theorem push_tame (v : Ir.Operand) : Tames t g (push v) :=
  Tames.of_run (push_run g t v) (.of_ok (Grown.of_prog rfl))

theorem depth_tame : Tames t g depth := Tames.of_run (depth_run g t) (.of_ok (Grown.refl g))

theorem truncate_tame (n : Nat) : Tames t g (truncate n) :=
  Tames.of_run (truncate_run n) (.of_ok (Grown.of_prog rfl))

theorem warn_tame (sp : Span) (msg : String) : Tames t g (warn sp msg) :=
  Tames.of_run (warn_run sp msg) (.of_ok ⟨rfl, .refl _, rfl, rfl⟩)

/-- Popping needs a value on the stack. -/
theorem pop_tame (hv : g.stack.values ≠ []) : Tames t g pop := by
  obtain ⟨v, hlast⟩ := Option.ne_none_iff_exists'.1 (mt List.getLast?_eq_none_iff.1 hv)
  have hpop : g.stack.popValue = .ok (v, { g.stack with values := g.stack.values.dropLast }) :=
    GenStack.popValue_eq_ok.2 ⟨hlast, rfl⟩
  unfold Tames
  simp only [pop, G.get_bind, hpop, G.onStack_ok_bind, G.modify_bind, G.run_pure]
  exact .of_ok (Grown.of_prog rfl)

/-- Emitting needs an open block. -/
theorem emit_tame (ho : Open g) (sp : Span) (i : Ir.Inst) : Tames t g (emit sp i) := by
  obtain ⟨cur, hcur, hret⟩ := ho
  have ht : g.stack.emitTarget (some sp) = .ok cur := GenStack.emitTarget_eq_ok.2 ⟨hcur, hret⟩
  unfold Tames
  simp only [emit, G.get_bind, ht, G.onStack_ok_bind, G.set_bind, G.run_pure]
  exact .of_ok (Grown.of_module (.append _ _ _))

theorem emitRet_tame (ho : Open g) (sp : Span) (r : Option Ir.Operand) : Tames t g (emitRet sp r) := by
  obtain ⟨cur, hcur, hret⟩ := ho
  have ht : g.stack.emitTarget (some sp) = .ok cur := GenStack.emitTarget_eq_ok.2 ⟨hcur, hret⟩
  unfold Tames
  simp only [emitRet, G.get_bind, ht, G.onStack_ok_bind, G.run_modify]
  exact .of_ok (Grown.of_module (.setRet _ _ _))

/-- Marking the innermost block needs a block. -/
theorem markReturned_tame (hc : ∃ cur, g.stack.current = .ok cur) : Tames t g markReturned := by
  obtain ⟨cur, hcur⟩ := hc
  have hm : g.stack.markReturned = .ok (g.stack.setCurrent { cur with returned := true }) :=
    GenStack.markReturned_eq_ok.2 ⟨cur, hcur, rfl⟩
  unfold Tames
  simp only [markReturned, G.get_bind, hm, G.onStack_ok_bind, G.run_modify]
  exact .of_ok (Grown.of_prog rfl)

/-- Reading the function being generated needs it to exist. -/
theorem curFunc_tame (hf : ∃ f, g.prog.module.funcs[g.frame.fn]? = some f) : Tames t g curFunc := by
  obtain ⟨f, hfn⟩ := hf
  unfold Tames
  simp only [curFunc, G.get_bind, hfn, G.run_pure]
  exact .of_ok (Grown.refl g)

theorem checkReturnType_tame (hf : ∃ f, g.prog.module.funcs[g.frame.fn]? = some f) (sp : Span)
    (ty : Ir.Ty) : Tames t g (checkReturnType sp ty) := by
  unfold checkReturnType
  refine Tames.bind (curFunc_tame hf) fun f g' _ _ => ?_
  dsimp only
  split
  · exact Tames.raise (by decide) _ _
  · exact Tames.pure _

theorem inferReturnType_tame (hf : ∃ f, g.prog.module.funcs[g.frame.fn]? = some f) (sp : Span)
    (ty : Ir.Ty) : Tames t g (inferReturnType sp ty) := by
  unfold inferReturnType
  refine Tames.get_bind ?_
  split
  · unfold Tames
    rw [G.run_set]
    exact .of_ok ⟨rfl, .modifyFunc _ _ fun _ => rfl, rfl, rfl⟩
  · exact checkReturnType_tame hf sp ty

theorem stringConst_tame (s : String) : Tames t g (stringConst s) := by
  unfold Tames
  rw [stringConst, G.get_bind]
  split
  · rw [G.run_pure]
    exact .of_ok (Grown.refl g)
  · simp only [G.set_bind, G.run_pure]
    exact .of_ok ⟨rfl, .of_funcs rfl, rfl, rfl⟩

/-- A valid handle gives its operand. -/
theorem handleOperand_tame {h : Handle} (hv : h.Valid g.prog.module) :
    Tames t g (handleOperand h) := by
  unfold Tames
  cases h with
  | func i =>
    obtain ⟨f, hf⟩ := hv
    simp only [handleOperand, G.get_bind, hf, G.run_pure]
    exact .of_ok (Grown.refl g)
  | param i k =>
    obtain ⟨f, hf, hk⟩ := hv
    have hp : f.params[k]? = some f.params[k] := List.getElem?_eq_getElem hk
    simp only [handleOperand, G.get_bind, hf, Option.bind_eq_bind, Option.bind_some, hp, G.run_pure]
    exact .of_ok (Grown.refl g)

/-- A return ends an open block and marks it. -/
theorem emitRet_markReturned_tame (ho : Open g) (sp : Span) (r : Option Ir.Operand) :
    Tames t g (emitRet sp r >>= fun _ => markReturned) := by
  refine Tames.bind (emitRet_tame ho sp r) fun _ g' h _ => ?_
  obtain ⟨cur, hcur, -, rfl⟩ := emitRet_ok h
  exact markReturned_tame ⟨cur, hcur⟩

/-- Fixing or checking a return type keeps the stacks and the frame's function. -/
theorem inferReturnType_keeps {sp : Span} {ty : Ir.Ty}
    (h : ((inferReturnType sp ty).run.run g).run t = (.ok (), g')) :
    g'.stack = g.stack ∧ g'.frame.fn = g.frame.fn := by
  rcases inferReturnType_ok h with ⟨-, rfl⟩ | ⟨-, rfl, -⟩ <;> exact ⟨rfl, rfl⟩

end Primitives

section Leaves

/-- A name needs a block to resolve in and valid handles. -/
theorem genIdent_tame (hs : Sane g) (hc : ∃ cur, g.stack.current = .ok cur) (sp : Span)
    (name : String) : Tames t g (genIdent sp name) := by
  obtain ⟨cur, hcur⟩ := hc
  have hpush : ∀ h : Handle, h.Valid g.prog.module → Tames t g (handleOperand h >>= push) :=
    fun h hv => Tames.bind (handleOperand_tame hv) fun v _ _ _ => push_tame v
  unfold genIdent
  refine Tames.get_bind ?_
  rw [hcur]
  refine Tames.onStack_ok_bind (Tames.read_bind ?_)
  split
  · dsimp only
    refine Tames.ite (fun _ => Tames.raise_bind (by decide) _ _ _) fun _ => ?_
    refine Tames.ite (fun _ => Tames.raise_bind (by decide) _ _ _) fun _ => ?_
    refine Tames.get_bind ?_
    split
    · next h hh =>
      have hv := hs.handles _ _ hh
      split
      · exact Tames.get_bind (Tames.ite (fun _ => Tames.raise_bind (by decide) _ _ _)
          fun _ => hpush _ hv)
      · exact hpush _ hv
    · exact Tames.raise (by decide) _ _
  · exact Tames.raise (by decide) _ _

/-- Interpolation is refused as unsupported; text becomes a string constant. -/
theorem genString_tame (parts : List Piece) : Tames t g (genString parts) := by
  unfold genString
  dsimp only
  refine Tames.bind (Tames.forIn (fun p text g => ?_) parts _ g) fun text _ _ _ =>
    Tames.bind (stringConst_tame text) fun v _ _ _ => push_tame v
  split
  · exact Tames.pure _
  · exact Tames.raise_bind (by decide) _ _ _

/-- A `#` node with its constant recorded. -/
theorem genConst_tame {site : Site} (hk : (t.notes.constOf? site.id).isSome) :
    Tames t g (genConst site) := by
  unfold genConst
  refine Tames.read_bind ?_
  split
  · next hnone => simp [hnone] at hk
  · exact push_tame _
  · exact Tames.bind (stringConst_tame _) fun v _ _ _ => push_tame v
  · exact push_tame _

/-- An implicit return needs an open block in an existing function. -/
theorem genImplicitReturn_tame (hs : Sane g) (ho : Open g) (sp : Span) (base : Nat) :
    Tames t g (genImplicitReturn sp base) := by
  unfold genImplicitReturn
  refine Tames.get_bind ?_
  extract_lets result finish jp one
  clear_value result one
  -- fixing the literal's return type keeps the stacks and the frame, so the block stays open
  have hjp : ∀ u r g₁, Grown g g₁ → g₁.stack = g.stack → g₁.frame.fn = g.frame.fn →
      Tames t g₁ (jp u r) := by
    intro u r g₁ hg₁ hst hfn
    have hs₁ := hs.of_grown hg₁ hfn
    have ho₁ : Open g₁ := ho.of_blocks (by rw [hst])
    refine Tames.bind (curFunc_tame hs₁.frame) fun f g₂ h₂ _ => ?_
    obtain ⟨rfl, -⟩ := curFunc_ok h₂
    dsimp only
    split
    · split
      · exact emitRet_markReturned_tame ho₁ sp none
      · refine Tames.bind (checkReturnType_tame hs₁.frame _ _) fun _ g₃ h₃ _ => ?_
        obtain ⟨rfl, -⟩ := checkReturnType_ok h₃
        exact emitRet_markReturned_tame ho₁ sp _
    · exact emitRet_markReturned_tame ho₁ sp none
  split
  · rcases result with _ | v
    · refine Tames.get_bind ?_
      split
      · exact hjp () one g (.refl g) rfl rfl
      · exact hjp () none g (.refl g) rfl rfl
    · refine Tames.bind (inferReturnType_tame hs.frame _ _) fun u g₁ h₁ hg₁ => ?_
      obtain ⟨hst, hfn⟩ := inferReturnType_keeps h₁
      exact hjp u (some v) g₁ hg₁ hst hfn
  · exact hjp () result g (.refl g) rfl rfl

end Leaves

section Mutual

/-- Lowering `e` from a sane state with an open block, with its literals' scopes and its `#`
constants recorded, raises no internal error. -/
def ExprTame (e : Expr) : Prop :=
  ∀ ⦃t : Tables⦄ ⦃g : Gen⦄, Sane g → Open g → t.notes.Records e.literalIds e.constSites →
    Tames t g (genExpr e)

/-- Lowering `e` for its value, under the same conditions. -/
def ValueTame (e : Expr) : Prop :=
  ∀ ⦃t : Tables⦄ ⦃g : Gen⦄, Sane g → Open g → t.notes.Records e.literalIds e.constSites →
    Tames t g (genValue e)

/-- Lowering arguments for their values, under the same conditions. -/
def ArgsTame (es : List Expr) : Prop :=
  ∀ ⦃t : Tables⦄ ⦃g : Gen⦄, Sane g → Open g →
    t.notes.Records (Expr.literalIdsList es) (Expr.constSitesList es) → Tames t g (genArgs es)

/-- A function literal needs valid handles, its own scope and what its body needs. -/
def LambdaTame (site : Site) (sts : List Stmt) : Prop :=
  ∀ ⦃t : Tables⦄ ⦃g : Gen⦄, g.prog.HandlesValid →
    t.notes.Records (site.id :: Stmt.literalIdsList sts) (Stmt.constSitesList sts) →
    Tames t g (genLambda site sts)

/-- A statement starts in an open block. -/
def StmtTame (st : Stmt) : Prop :=
  ∀ ⦃t : Tables⦄ ⦃g : Gen⦄, Sane g → Open g → t.notes.Records st.literalIds st.constSites →
    Tames t g (genStmt st)

/-- Statements start in a block that may have returned: then they are skipped. -/
def StmtsTame (base : Nat) (sts : List Stmt) : Prop :=
  ∀ ⦃t : Tables⦄ ⦃g : Gen⦄, Sane g → (∃ cur, g.stack.current = .ok cur) →
    t.notes.Records (Stmt.literalIdsList sts) (Stmt.constSitesList sts) →
    Tames t g (genStmts base sts)

namespace ExprTame

theorem ident (s : Site) (n : String) : ExprTame (.ident s n) := by
  intro t g hs ho _
  obtain ⟨cur, hcur, -⟩ := ho
  simpa only [genExpr] using genIdent_tame hs ⟨cur, hcur⟩ s.span n

theorem int_ok (s : Site) (txt : String) (n : Int32) (hn : literalValue? txt = some n) :
    ExprTame (.int s txt) := by
  intro t g _ _ _
  simp only [genExpr, hn]
  exact push_tame _

theorem int_error (s : Site) (txt : String) (hn : literalValue? txt = none) :
    ExprTame (.int s txt) := by
  intro t g _ _ _
  simp only [genExpr, hn]
  exact Tames.raise (by decide) _ _

theorem str (site : Site) (ps : List Piece) : ExprTame (.str site ps) := by
  intro t g _ _ _
  simpa only [genExpr] using genString_tame ps

theorem exec (s : Site) (inner : Expr) : ExprTame (.exec s inner) := by
  intro t g _ _ hr
  simpa only [genExpr] using genConst_tame (hr.2 s.id (by simp [Expr.constSites]))

theorem lambda (s site : Site) (sts : List Stmt) (hlam : LambdaTame s sts) :
    ExprTame (.lambda s (.mk site sts)) := by
  intro t g hs _ hr
  simp only [Expr.literalIds, Block.literalIds, Expr.constSites, Block.constSites] at hr
  simp only [genExpr]
  exact Tames.bind (hlam hs.handles hr) fun op _ _ _ => push_tame op

theorem call (s : Site) (f : Expr) (as : List Expr) (hf : ValueTame f) (has : ArgsTame as) :
    ExprTame (.call s f as) := by
  intro t g hs ho hr
  obtain ⟨cur, hcur, hopen⟩ := ho
  simp only [Expr.literalIds, Expr.constSites, Notes.records_append] at hr
  simp only [genExpr]
  refine Tames.bind (hf hs ⟨cur, hcur, hopen⟩ hr.1) fun callee g₁ h₁ hg₁ => ?_
  have hl₁ := (genValue_lowered h₁ hcur).1
  refine Tames.bind (has (hs.of_lowered hg₁ hl₁) ⟨cur, hl₁.current hcur, hopen⟩ hr.2)
    fun args g₂ h₂ _ => ?_
  have hcur₂ := (genArgs_lowered h₂ (hl₁.current hcur)).1.current (hl₁.current hcur)
  split
  · refine Tames.ite (fun _ => Tames.raise_bind (by decide) _ _ _) fun _ => ?_
    refine Tames.bind (Tames.forIn (fun _ _ _ => ?_) _ _ _) fun _ g₃ h₃ _ => ?_
    · exact Tames.ite (fun _ => Tames.raise_bind (by decide) _ _ _) fun _ => Tames.pure _
    · -- the argument checks only read the state
      obtain rfl : g₃ = g₂ := G.forIn_reads (fun x b g g' r hr => by
        split at hr
        · cases hr
        · simp only [G.run_pure, G.result_eq] at hr
          exact hr.2.symm) _ _ h₃
      exact Tames.bind (emit_tame ⟨cur, hcur₂, hopen⟩ _ _) fun r _ _ _ =>
        Tames.ite (fun _ => push_tame r) fun _ => Tames.pure _
  · exact Tames.raise (by decide) _ _

theorem binary (s : Site) (op : BinOp) (l r : Expr) (hl : ValueTame l) (hr : ValueTame r) :
    ExprTame (.binary s op l r) := by
  intro t g hs ho hrec
  obtain ⟨cur, hcur, hopen⟩ := ho
  simp only [Expr.literalIds, Expr.constSites, Notes.records_append] at hrec
  simp only [genExpr]
  refine Tames.bind (hl hs ⟨cur, hcur, hopen⟩ hrec.1) fun lv g₁ h₁ hg₁ => ?_
  have hl₁ := (genValue_lowered h₁ hcur).1
  refine Tames.bind (hr (hs.of_lowered hg₁ hl₁) ⟨cur, hl₁.current hcur, hopen⟩ hrec.2)
    fun rv g₂ h₂ _ => ?_
  have hcur₂ := (genValue_lowered h₂ (hl₁.current hcur)).1.current (hl₁.current hcur)
  have ht : g₂.stack.emitTarget (some s.span) = .ok cur := GenStack.emitTarget_eq_ok.2 ⟨hcur₂, hopen⟩
  refine Tames.ite (fun _ => Tames.raise_bind (by decide) _ _ _) fun _ => Tames.get_bind ?_
  rw [ht]
  refine Tames.onStack_ok_bind (Tames.ite (fun _ => Tames.raise_bind (by decide) _ _ _) fun _ => ?_)
  exact Tames.bind (emit_tame ⟨cur, hcur₂, hopen⟩ _ _) fun v _ _ _ => push_tame v

end ExprTame

theorem ValueTame.of_expr (e : Expr) (he : ExprTame e) : ValueTame e := by
  intro t g hs ho hr
  obtain ⟨cur, hcur, hopen⟩ := ho
  simp only [genValue]
  refine Tames.depth_bind (Tames.bind (he hs ⟨cur, hcur, hopen⟩ hr) fun _ g₁ h₁ _ => ?_)
  obtain ⟨-, vs, hvs, -⟩ := genExpr_lowered h₁ hcur
  refine Tames.depth_bind (Tames.ite (fun _ => Tames.raise_bind (by decide) _ _ _) fun hne => ?_)
  -- the expression pushed a value, which is there to pop
  refine pop_tame fun hnil => hne ?_
  rw [hnil] at hvs
  obtain ⟨hnil₀, -⟩ := List.append_eq_nil_iff.1 hvs.symm
  simp [GenStack.depth, hnil, hnil₀]

theorem ArgsTame.nil : ArgsTame [] := by
  intro t g _ _ _
  simpa only [genArgs] using Tames.pure []

theorem ArgsTame.cons (e : Expr) (es : List Expr) (he : ValueTame e) (hes : ArgsTame es) :
    ArgsTame (e :: es) := by
  intro t g hs ho hr
  obtain ⟨cur, hcur, hopen⟩ := ho
  simp only [Expr.literalIdsList, Expr.constSitesList, Notes.records_append] at hr
  simp only [genArgs]
  refine Tames.bind (he hs ⟨cur, hcur, hopen⟩ hr.1) fun v g₁ h₁ hg₁ => ?_
  have hl₁ := (genValue_lowered h₁ hcur).1
  exact Tames.bind (hes (hs.of_lowered hg₁ hl₁) ⟨cur, hl₁.current hcur, hopen⟩ hr.2)
    fun vs _ _ _ => Tames.pure _

namespace StmtTame

theorem expr (site : Site) (e : Expr) (he : ExprTame e) : StmtTame (.expr site e) := by
  intro t g hs ho hr
  simpa only [genStmt] using he hs ho hr

theorem ret_none (s : Site) : StmtTame (.ret s none) := by
  intro t g hs ho _
  simp only [genStmt]
  refine Tames.get_bind ?_
  split
  · refine Tames.bind (inferReturnType_tame hs.frame _ _) fun _ g₁ h₁ _ => ?_
    exact emitRet_markReturned_tame (ho.of_blocks (by rw [(inferReturnType_keeps h₁).1])) _ _
  · refine Tames.bind (curFunc_tame hs.frame) fun f g₁ h₁ _ => ?_
    obtain ⟨rfl, -⟩ := curFunc_ok h₁
    exact Tames.ite (fun _ => Tames.raise_bind (by decide) _ _ _) fun _ =>
      emitRet_markReturned_tame ho _ _

theorem ret_some (s : Site) (e : Expr) (he : ValueTame e) : StmtTame (.ret s (some e)) := by
  intro t g hs ho hr
  obtain ⟨cur, hcur, hopen⟩ := ho
  simp only [genStmt]
  refine Tames.bind (he hs ⟨cur, hcur, hopen⟩ hr) fun v g₁ h₁ hg₁ => ?_
  have hl₁ := (genValue_lowered h₁ hcur).1
  have hs₁ := hs.of_lowered hg₁ hl₁
  have ho₁ : Open g₁ := ⟨cur, hl₁.current hcur, hopen⟩
  refine Tames.get_bind ?_
  split
  · refine Tames.bind (inferReturnType_tame hs₁.frame _ _) fun _ g₂ h₂ _ => ?_
    exact emitRet_markReturned_tame (ho₁.of_blocks (by rw [(inferReturnType_keeps h₂).1])) _ _
  · refine Tames.bind (checkReturnType_tame hs₁.frame _ _) fun _ g₂ h₂ _ => ?_
    obtain ⟨rfl, -⟩ := checkReturnType_ok h₂
    exact emitRet_markReturned_tame ho₁ _ _

end StmtTame

theorem StmtsTame.nil (base : Nat) : StmtsTame base [] := by
  intro t g _ _ _
  simpa only [genStmts] using Tames.pure ()

theorem StmtsTame.cons (base : Nat) (st : Stmt) (rest : List Stmt) (hst : StmtTame st)
    (hrest : StmtsTame base rest) : StmtsTame base (st :: rest) := by
  intro t g hs hc hr
  obtain ⟨cur, hcur⟩ := hc
  simp only [Stmt.literalIdsList, Stmt.constSitesList, Notes.records_append] at hr
  simp only [genStmts]
  refine Tames.get_bind ?_
  rw [hcur]
  refine Tames.onStack_ok_bind (Tames.ite (fun _ => warn_tame _ _) fun hret => ?_)
  -- a statement starts in the open block, with the values below `base`
  refine Tames.bind (truncate_tame base) fun _ g₁ h₁ hg₁ => ?_
  simp only [truncate_run, G.result_eq] at h₁
  obtain ⟨-, rfl⟩ := h₁
  have ho₁ : Open { g with stack := g.stack.truncate base } :=
    ⟨cur, hcur, by simpa using hret⟩
  refine Tames.bind (hst (hs.of_grown hg₁ rfl) ho₁ hr.1) fun _ g₂ h₂ hg₂ => ?_
  obtain ⟨hstep, -⟩ := genStmt_stepped h₂ hcur
  obtain ⟨r, hcur₂⟩ := hstep.current
  exact hrest ((hs.of_grown hg₁ rfl).of_grown hg₂ hstep.fn) ⟨_, hcur₂⟩ hr.2

/-- A state whose frame is a function just added, with the handles as they were. -/
theorem Sane.of_addFunc {f : Ir.Func} (hv : g.prog.HandlesValid)
    (hp : g'.prog.handles = g.prog.handles) (hm : g'.prog.module = (g.prog.module.addFunc f).1)
    (hfn : g'.frame.fn = g.prog.module.funcs.size) : Sane g' := by
  refine ⟨fun k h hk => (hv k h (hp ▸ hk)).mono (hm ▸ .addFunc _ _), f, ?_⟩
  rw [hm, hfn, Ir.Module.addFunc]
  simp

/-- A body runs in the block pushed for it, and ends with its implicit return unless it has
returned; what follows starts with that block still the innermost one, in the same function. -/
theorem body_tame {base : Nat} {sts : List Stmt} {k : G β}
    (hsts : StmtsTame base sts) (hs : Sane g) (hc : ∃ cur, g.stack.current = .ok cur)
    (hbase : base ≤ g.stack.depth)
    (hr : t.notes.Records (Stmt.literalIdsList sts) (Stmt.constSitesList sts))
    (hk : ∀ g', Grown g g' → g'.frame.fn = g.frame.fn → (∃ c, g'.stack.current = .ok c) →
      Tames t g' k) (sp : Span) :
    Tames t g (genStmts base sts >>= fun _ => (get : G Gen) >>= fun x =>
      onStack x.stack.current >>= fun fr =>
        if !fr.returned then genImplicitReturn sp base >>= (fun _ => k) else k) := by
  obtain ⟨cur, hcur⟩ := hc
  refine Tames.bind (hsts hs ⟨cur, hcur⟩ hr) fun _ g₁ h₁ hg₁ => ?_
  obtain ⟨hstep, -⟩ := genStmts_stepped h₁ hcur hbase
  obtain ⟨r, hcur₁⟩ := hstep.current
  have hs₁ := hs.of_grown hg₁ hstep.fn
  refine Tames.get_bind ?_
  rw [hcur₁]
  refine Tames.onStack_ok_bind (Tames.ite_seq (fun hopen =>
    genImplicitReturn_tame hs₁ ⟨_, hcur₁, by simpa using hopen⟩ _ _) fun g₂ h₂ hg₂ => ?_)
  -- with its implicit return or without, the body's block is still the innermost one
  obtain ⟨c, hc, hfn⟩ : ∃ c, g₂.stack.current = .ok c ∧ g₂.frame.fn = g₁.frame.fn := by
    split at h₂
    · obtain ⟨u, h₂⟩ := h₂
      have hstep₂ := (genImplicitReturn_steps _ _ hcur₁ h₂).1
      obtain ⟨r₂, hr₂⟩ := hstep₂.current
      exact ⟨_, hr₂, hstep₂.fn⟩
    · subst h₂
      exact ⟨_, hcur₁, rfl⟩
  exact hk g₂ (hg₁.trans hg₂) (hfn.trans hstep.fn) ⟨c, hc⟩

/-- A function literal gets a function and a block of its own; its body runs there, and the
block is popped and the function read back when it ends. -/
theorem LambdaTame.of_stmts (site : Site) (sts : List Stmt) (hsts : ∀ base, StmtsTame base sts) :
    LambdaTame site sts := by
  intro t g hv hr
  obtain ⟨hscope, hr⟩ := Notes.records_cons_scope.1 hr
  simp only [genLambda]
  refine Tames.read_bind ?_
  split
  · next scope hsc =>
    refine Tames.get_bind ?_
    simp only [Ir.Module.addFunc_snd]
    refine Tames.set_bind ⟨rfl, .addFunc _ _, rfl, rfl⟩ (Tames.depth_bind ?_)
    refine Tames.modify_bind (Grown.of_prog rfl) ?_
    refine body_tame (hsts _) (by exact Sane.of_addFunc hv rfl rfl rfl)
      ⟨_, GenStack.current_pushBlock _ _⟩ le_rfl hr (fun g₁ hg₁ hfn₁ hc₁ => ?_) _
    obtain ⟨c, hc⟩ := hc₁
    obtain ⟨f, hf⟩ := (Sane.of_grown (by exact Sane.of_addFunc hv rfl rfl rfl) hg₁ hfn₁).frame
    refine Tames.get_bind ?_
    rw [GenStack.popBlock_eq_ok.2 ⟨hc, rfl⟩]
    refine Tames.onStack_ok_bind (Tames.modify_bind (Grown.of_prog rfl) (Tames.get_bind ?_))
    -- the literal's function is still there to read back
    rw [hfn₁] at hf
    have hf' : g₁.prog.module.funcs[g.prog.module.funcs.size]? = some f := hf
    rw [hf']
    exact Tames.pure _
  · next _ hnone =>
    obtain ⟨sc, hsc⟩ := Option.isSome_iff_exists.1 hscope
    exact absurd hsc (hnone sc)

/-- Lowering raises no internal error, for every expression, statement and function literal
whose scopes and constants are recorded: one case of the generator's own mutual recursion at a
time. -/
theorem lowering_tame :
    (∀ e, ExprTame e) ∧ (∀ site sts, LambdaTame site sts) ∧ (∀ base sts, StmtsTame base sts) ∧
      (∀ st, StmtTame st) ∧ (∀ e, ValueTame e) ∧ ∀ es, ArgsTame es :=
  genExpr.mutual_induct ExprTame LambdaTame StmtsTame StmtTame ValueTame ArgsTame
    ExprTame.ident ExprTame.int_ok ExprTame.int_error ExprTame.str ExprTame.call
    ExprTame.lambda ExprTame.binary ExprTame.exec LambdaTame.of_stmts StmtsTame.nil
    StmtsTame.cons StmtTame.expr StmtTame.ret_none StmtTame.ret_some ValueTame.of_expr
    ArgsTame.nil ArgsTame.cons

end Mutual

section Functions

/-- The entry point is a function added beside the others. -/
theorem genEntryPoint_tame (abmain : Ir.Func) : Tames t g (genEntryPoint abmain) := by
  unfold genEntryPoint
  refine Tames.get_bind ?_
  dsimp only
  unfold Tames
  rw [G.run_set]
  exact .of_ok ⟨rfl, (ModuleGrows.addFunc _ _).trans ((ModuleGrows.append _ _ _).trans
    (.setRet _ _ _)), rfl, rfl⟩

/-- A state whose frame is the function a handle names. -/
theorem Sane.of_func {k i : Nat} (hv : g.prog.HandlesValid) (hi : g.prog.handles[k]? = some (.func i))
    (hp : g'.prog = g.prog) (hfn : g'.frame.fn = i) : Sane g' := by
  obtain ⟨f, hf⟩ := hv k _ hi
  exact ⟨hp ▸ hv, f, by rw [hp, hfn]; exact hf⟩

/-- What generating the body of `f` reads: a function handle at its node, and the scopes and
constants of its body. -/
def FuncReady (t : Tables) (p : Program) (f : FuncDecl) : Prop :=
  (∃ i, p.handles[f.site.id]? = some (.func i)) ∧
    t.notes.Records (f.site.id :: Stmt.literalIdsList f.stmts) (Stmt.constSitesList f.stmts)

theorem genFunc_tame (hv : g.prog.HandlesValid) (f : FuncDecl)
    (hf : (f.isExtern || f.isCompiler) = false → FuncReady t g.prog f) : Tames t g (genFunc f) := by
  unfold genFunc
  split
  · exact Tames.pure _
  · next hgen =>
    obtain ⟨⟨i, hi⟩, hr⟩ := hf (by simpa using hgen)
    obtain ⟨hscope, hr⟩ := Notes.records_cons_scope.1 hr
    obtain ⟨scope, hsc⟩ := Option.isSome_iff_exists.1 hscope
    refine Tames.get_bind ?_
    rw [hi]
    refine Tames.read_bind ?_
    dsimp only
    rw [hsc]
    refine Tames.modify_bind (Grown.of_prog rfl) (Tames.modify_bind (Grown.of_prog rfl)
      (Tames.depth_bind ?_))
    refine body_tame (lowering_tame.2.2.1 _ _) ?_ ?_ ?_ ?_ (fun g₁ hg₁ hfn₁ hc₁ => ?_) _
    · exact Sane.of_func hv hi rfl rfl
    · exact ⟨_, GenStack.current_pushBlock _ _⟩
    · exact le_rfl
    · -- the statements lowered are the body's
      rcases hb : f.body with _ | b <;> simpa [FuncDecl.stmts, hb] using hr
    obtain ⟨c, hc⟩ := hc₁
    obtain ⟨fi, hfi⟩ := hv _ _ hi
    obtain ⟨fi₁, hfi₁, -⟩ := hg₁.module i fi hfi
    -- the function is still there when `main`'s entry point reads it back
    have hcf : g₁.prog.module.funcs[g₁.frame.fn]? = some fi₁ := by
      rw [hfn₁]
      exact hfi₁
    refine Tames.get_bind ?_
    rw [GenStack.popBlock_eq_ok.2 ⟨hc, rfl⟩]
    refine Tames.onStack_ok_bind (Tames.modify_bind (Grown.of_prog rfl) (Tames.get_bind ?_))
    exact Tames.ite (fun _ => Tames.bind (curFunc_tame ⟨fi₁, hcf⟩) fun fn _ _ _ =>
      genEntryPoint_tame fn) fun _ => Tames.pure ()

theorem FuncReady.of_handles {p p' : Program} {f : FuncDecl} (h : FuncReady t p f)
    (hh : p'.handles = p.handles) : FuncReady t p' f :=
  ⟨by rw [hh]; exact h.1, h.2⟩

mutual

/-- The functions of a declaration are generated without internal error when each one that is
generated is ready. -/
theorem genDecl_tame : ∀ (d : Decl) {g : Gen}, g.prog.HandlesValid →
    (∀ f ∈ d.generated, FuncReady t g.prog f) → Tames t g (genDecl d)
  | .func f, g, hv, hr => by
    refine genFunc_tame hv f fun hgen => hr f ?_
    simp [Decl.generated, hgen]
  | .cls _ _ mods ms, g, hv, hr => by
    simp only [genDecl]
    split
    · exact Tames.pure ()
    · next hc => exact genDecls_tame ms hv fun f hf => hr f (by simp [Decl.generated, hc, hf])
  | .hashCall _ _, g, _, _ => by
    simpa only [genDecl] using Tames.pure ()

/-- The same for a list of declarations, generated in order. -/
theorem genDecls_tame : ∀ (ds : List Decl) {g : Gen}, g.prog.HandlesValid →
    (∀ f ∈ Decl.generatedList ds, FuncReady t g.prog f) → Tames t g (genDecls ds)
  | [], g, _, _ => by
    simpa only [genDecls] using Tames.pure ()
  | d :: ds, g, hv, hr => by
    simp only [genDecls]
    refine Tames.bind (genDecl_tame d hv fun f hf => hr f (by simp [Decl.generatedList, hf]))
      fun _ g' _ hg => ?_
    exact genDecls_tame ds (hg.handlesValid hv) fun f hf =>
      (hr f (by simp [Decl.generatedList, hf])).of_handles hg.handles

end

end Functions

section Units

theorem Program.HandlesValid.mono {p p' : Program} (hv : p.HandlesValid)
    (hh : p'.handles = p.handles) (hm : ModuleGrows p.module p'.module) : p'.HandlesValid :=
  fun k h hk => (hv k h (hh ▸ hk)).mono hm

/-- The bodies of unit `name` were generated from `p` into `p'`: the module grew, the handles
and the prefixes stayed, and the unit joined those generated. -/
structure UnitGenerated (name : String) (p p' : Program) : Prop where
  handles : p'.handles = p.handles
  module : ModuleGrows p.module p'.module
  prefixes : p'.prefixes = p.prefixes
  generated : p'.generated = p.generated ++ [name]

/-- A declared unit not yet generated, whose generated functions are ready, is generated
without internal error. -/
theorem generateStep_tame {t : Tables} {p : Program} {f : SourceFile} (hv : p.HandlesValid)
    (hpre : (p.prefixes.lookup f.name).isSome) (hnew : p.generated.contains f.name = false)
    (hr : ∀ fd ∈ Decl.generatedList f.decls, FuncReady t p fd) :
    (∀ e, (generateStep t p f).1 = some e → e.kind ≠ .internalState) ∧
      UnitGenerated f.name p (generateStep t p f).2 := by
  obtain ⟨pre, hpre⟩ := Option.isSome_iff_exists.1 hpre
  have htame : Tames t { prog := { p with generated := p.generated ++ [f.name] },
                         unit := f.name, unitPrefix := pre } (genDecls f.decls) :=
    genDecls_tame f.decls hv hr
  unfold Tames at htame
  simp only [generateStep, hpre, hnew, Bool.false_eq_true, if_false]
  generalize hg₀ : ({ prog := { p with generated := p.generated ++ [f.name] },
                      unit := f.name, unitPrefix := pre } : Gen) = g₀ at htame ⊢
  rcases h : ((genDecls f.decls).run.run g₀).run t with ⟨_ | u, g'⟩
  all_goals
    rw [h] at htame
    subst hg₀
    obtain ⟨⟨hh, hm, hp, hg⟩, hk⟩ := htame
    dsimp only [Program.logError]
    refine ⟨?_, ⟨hh, hm, hp, hg⟩⟩
  · -- the unit's error is the generator's, with the unit's name
    intro e he
    simp only [Option.some.injEq] at he
    subst he
    simpa using hk _ rfl
  · intro e he
    cases he

/-- What the generation round needs of a declared program and its units: valid handles, distinct
unit names, a prefix for every unit and none generated yet, and every generated function
ready. -/
structure RoundReady (t : Tables) (p : Program) (fs : List SourceFile) : Prop where
  handles : p.HandlesValid
  names : (fs.map SourceFile.name).Nodup
  declared : ∀ f ∈ fs, (p.prefixes.lookup f.name).isSome
  fresh : ∀ f ∈ fs, p.generated.contains f.name = false
  ready : ∀ f ∈ fs, ∀ fd ∈ Decl.generatedList f.decls, FuncReady t p fd

/-- Generating one unit leaves the rest ready. -/
theorem RoundReady.step {t : Tables} {p : Program} {f : SourceFile} {fs : List SourceFile}
    (hr : RoundReady t p (f :: fs)) :
    RoundReady t (generateStep t p f).2 fs := by
  have hmem : f ∈ f :: fs := List.mem_cons_self
  obtain ⟨-, hu⟩ := generateStep_tame hr.handles (hr.declared f hmem) (hr.fresh f hmem)
    (hr.ready f hmem)
  have hnames := List.nodup_cons.1 hr.names
  refine ⟨hr.handles.mono hu.handles hu.module, hnames.2, fun g hg => ?_, fun g hg => ?_,
    fun g hg fd hfd => (hr.ready g (.tail _ hg) fd hfd).of_handles hu.handles⟩
  · rw [hu.prefixes]
    exact hr.declared g (.tail _ hg)
  · -- the unit just generated is none of the rest
    have hne : f.name ≠ g.name := fun he => hnames.1 (he ▸ List.mem_map_of_mem hg)
    have hfresh := hr.fresh g (.tail _ hg)
    rw [hu.generated]
    simp only [List.contains_eq_mem, decide_eq_false_iff_not] at hfresh ⊢
    simpa [hfresh] using hne.symm

/-- The generation round over ready units raises no internal error. -/
theorem eachUnit_generate_tame {t : Tables} :
    ∀ (fs : List SourceFile) (p : Program), RoundReady t p fs →
      ∀ e ∈ (eachUnit (generateStep t) p fs).1, e.kind ≠ .internalState
  | [], p, _ => by simp [eachUnit]
  | f :: fs, p, hr => by
    have hmem : f ∈ f :: fs := List.mem_cons_self
    obtain ⟨hk, -⟩ := generateStep_tame hr.handles (hr.declared f hmem) (hr.fresh f hmem)
      (hr.ready f hmem)
    intro e he
    simp only [eachUnit, List.mem_append] at he
    rcases he with he | he
    · exact hk e (Option.mem_toList.1 he)
    · exact eachUnit_generate_tame fs _ hr.step e he

end Units

end Codegen

end Abla
