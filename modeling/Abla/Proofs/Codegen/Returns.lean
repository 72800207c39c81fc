import Mathlib
import Abla.Proofs.Codegen.Footprint

/-!
# How a function body ends

A body is lowered statement by statement into the single block `entry` of its function, until
the first return statement; what follows that statement is not lowered, and only the first of
it is reported as unreachable (`genStmts_skips_after_return`). `BodyEnd` says how a body ended:
at a return statement, with the value its expression lowered to, or past its last statement,
with the value that statement left. `Exit.close` is what that end makes of the function: the
`ret` of a declared function returns the value unless the function returns `void`, and a
function literal takes its return type from its first return, or from its last value.

The main statements are `genFunc_closes` and `genLambda_closes`: the lowered function has one
block, whose instructions are those there were when the returned value became known, ended by
the one `ret` that `Exit.close` gives. After the program's `main` comes the entry point `main`,
which calls it and returns its result (`genEntryPoint_run`). `bodies_return` gathers the three.
-/

namespace Abla

namespace Ir.Ty

mutual

theorem same_refl : ∀ a : Ty, same a a = true
  | .int _ => by simp [same]
  | .ptr a => by simp [same, same_refl a]
  | .void => rfl
  | .func r ps => by simp [same, same_refl r, sameList_refl ps]
  | .array _ a => by simp [same, same_refl a]

theorem sameList_refl : ∀ as : List Ty, sameList as as = true
  | [] => rfl
  | a :: as => by simp [sameList, same_refl a, sameList_refl as]

end

mutual

theorem eq_of_same : ∀ {a b : Ty}, same a b = true → a = b
  | .int _, .int _, h => by simpa [same] using h
  | .ptr _, .ptr _, h => by
    simp only [same] at h
    rw [eq_of_same h]
  | .void, .void, _ => rfl
  | .func r ps, .func s qs, h => by
    simp only [same, Bool.and_eq_true] at h
    rw [eq_of_same h.1, eq_of_sameList h.2]
  | .array n a, .array m b, h => by
    simp only [same, Bool.and_eq_true, beq_iff_eq] at h
    rw [h.1, eq_of_same h.2]
  | .int _, .ptr _, h | .int _, .void, h | .int _, .func _ _, h | .int _, .array _ _, h
  | .ptr _, .int _, h | .ptr _, .void, h | .ptr _, .func _ _, h | .ptr _, .array _ _, h
  | .void, .int _, h | .void, .ptr _, h | .void, .func _ _, h | .void, .array _ _, h
  | .func _ _, .int _, h | .func _ _, .ptr _, h | .func _ _, .void, h | .func _ _, .array _ _, h
  | .array _ _, .int _, h | .array _ _, .ptr _, h | .array _ _, .void, h
  | .array _ _, .func _ _, h => by simp [same] at h

theorem eq_of_sameList : ∀ {as bs : List Ty}, sameList as bs = true → as = bs
  | [], [], _ => rfl
  | a :: as, b :: bs, h => by
    simp only [sameList, Bool.and_eq_true] at h
    rw [eq_of_same h.1, eq_of_sameList h.2]
  | [], _ :: _, h | _ :: _, [], h => by simp [sameList] at h

end

/-- `same` is the equality of types. -/
theorem same_iff {a b : Ty} : same a b = true ↔ a = b :=
  ⟨eq_of_same, fun h => h ▸ same_refl a⟩

end Ir.Ty

namespace Ir.Func

/-- The entry point `main` of a program whose main function is `f`: an external `i32 ()` that
calls `f` and returns its result when `f` returns `i32`, and `0` otherwise. -/
def entryPoint (f : Func) : Func where
  name := "main"
  linkage := .external
  ret := .i32
  blocks := #[{ name := "entry", insts := #[.call f.operand [] f.ret],
                ret := some (some (if Ty.same f.ret .i32 then .inst 0 f.ret else .int 0)) }]

variable {f : Func}

/-- A function whose only block `entry` is empty, once instructions are appended. -/
theorem extend_of_entry (hb : f.blocks = #[{ name := "entry" }]) (xs : List Inst) :
    f.extend xs = { f with blocks := #[{ name := "entry", insts := xs.toArray }] } := by
  simp [extend, hb]

theorem withRet_extend_of_entry (hb : f.blocks = #[{ name := "entry" }]) (xs : List Inst)
    (r : Option Operand) :
    (f.extend xs).withRet r =
      { f with blocks := #[{ name := "entry", insts := xs.toArray, ret := some r }] } := by
  simp [withRet, extend_of_entry hb]

end Ir.Func

theorem modify_push_size {α : Type} (a : Array α) (x : α) (h : α → α) :
    (a.push x).modify a.size h = a.push (h x) := by
  ext i h₁ h₂
  · simp
  · simp only [Array.getElem_modify, Array.getElem_push]
    by_cases hi : i = a.size
    · subst hi
      simp
    · have : i < a.size := by simp at h₁; omega
      simp [this, Ne.symm hi]

/-- Whether a statement is a return statement. -/
def Stmt.isReturn : Stmt → Bool
  | .ret _ _ => true
  | .expr _ _ => false

/-- Every list of statements is a run of other statements, followed by the first return
statement and what comes after it, or by nothing. -/
theorem Stmt.split_first_return (sts : List Stmt) :
    ∃ pre, (∀ st ∈ pre, st.isReturn = false) ∧
      (sts = pre ∨ ∃ s oe post, sts = pre ++ .ret s oe :: post) := by
  induction sts with
  | nil => exact ⟨[], by simp, .inl rfl⟩
  | cons st rest ih =>
    cases st with
    | ret s oe => exact ⟨[], by simp, .inr ⟨s, oe, rest, rfl⟩⟩
    | expr s e =>
      obtain ⟨pre, hpre, hend⟩ := ih
      refine ⟨.expr s e :: pre, by simpa [Stmt.isReturn] using hpre, ?_⟩
      rcases hend with rfl | ⟨s', oe, post, rfl⟩
      · exact .inl rfl
      · exact .inr ⟨s', oe, post, rfl⟩

namespace Codegen

section Sequence

variable {g g' : Gen} {t : Tables} {base : Nat} {cur : Frame Nat}

/-- A `do` block runs as one whose first step runs alike. -/
theorem G.bind_run_congr {α β : Type} {x y : G α} (f : α → G β)
    (h : (x.run.run g).run t = (y.run.run g).run t) :
    ((x >>= f).run.run g).run t = ((y >>= f).run.run g).run t := by
  rw [G.run_bind, G.run_bind, h]

theorem genStmt_expr (s : Site) (e : Expr) : genStmt (.expr s e) = genExpr e := by
  rw [genStmt]

/-- A statement in a block that has not returned is lowered from the values below `base`. -/
theorem genStmts_cons_of_open (st : Stmt) (rest : List Stmt) (hcur : g.stack.current = .ok cur)
    (hopen : cur.returned = false) :
    ((genStmts base (st :: rest)).run.run g).run t =
      ((do truncate base; genStmt st; genStmts base rest : G Unit).run.run g).run t := by
  rw [genStmts, G.get_bind, hcur, G.onStack_ok_bind, hopen]
  rfl

/-- In a block that has returned, the next statement is reported and the rest dropped. -/
theorem genStmts_cons_of_returned (st : Stmt) (rest : List Stmt)
    (hcur : g.stack.current = .ok cur) (hret : cur.returned = true) :
    ((genStmts base (st :: rest)).run.run g).run t =
      ((warn st.site.span "unreachable code").run.run g).run t := by
  rw [genStmts, G.get_bind, hcur, G.onStack_ok_bind, hret]
  rfl

/-- Statements that are not returns keep the block open and only lower in its function. -/
theorem genStmts_exprs {pre : List Stmt} (hpre : ∀ st ∈ pre, st.isReturn = false) :
    ∀ {g g' : Gen}, ((genStmts base pre).run.run g).run t = (.ok (), g') →
      g.stack.current = .ok cur → cur.returned = false → Lowered cur.block g g' := by
  induction pre with
  | nil =>
    intro g g' h hcur hopen
    simp only [genStmts, G.run_pure, G.result_eq] at h
    obtain ⟨-, rfl⟩ := h
    exact .refl _ g
  | cons st rest ih =>
    intro g g' h hcur hopen
    cases st with
    | ret s oe => simp [Stmt.isReturn] at hpre
    | expr s e =>
      rw [genStmts_cons_of_open _ _ hcur hopen, G.bind_ok] at h
      obtain ⟨⟨⟩, g₁, h₁, h⟩ := h
      simp only [truncate_run, G.result_eq] at h₁
      obtain ⟨-, rfl⟩ := h₁
      rw [G.bind_ok, genStmt_expr] at h
      obtain ⟨⟨⟩, g₂, h₂, h⟩ := h
      have hl₁ : Lowered cur.block g { g with stack := g.stack.truncate base } := .values g _
      obtain ⟨hl₂, -⟩ := genExpr_lowered h₂ (hl₁.current hcur)
      have hl₃ := ih (fun st hst => hpre st (.tail _ hst)) h ((hl₁.trans hl₂).current hcur) hopen
      exact (hl₁.trans hl₂).trans hl₃

/-- Statements that are not returns are lowered one after another, and the block stays open
for what follows them. -/
theorem genStmts_append {pre : List Stmt} (rest : List Stmt)
    (hpre : ∀ st ∈ pre, st.isReturn = false) :
    ∀ {g : Gen}, g.stack.current = .ok cur → cur.returned = false →
      ((genStmts base (pre ++ rest)).run.run g).run t =
        ((genStmts base pre >>= fun _ => genStmts base rest).run.run g).run t := by
  induction pre with
  | nil =>
    intro g hcur hopen
    rw [List.nil_append, genStmts, pure_bind]
  | cons st pre ih =>
    intro g hcur hopen
    cases st with
    | ret s oe => simp [Stmt.isReturn] at hpre
    | expr s e =>
      rw [List.cons_append, genStmts_cons_of_open _ _ hcur hopen,
        G.bind_run_congr _ (genStmts_cons_of_open _ _ hcur hopen)]
      simp only [bind_assoc, genStmt_expr]
      refine G.bind_congr fun _ g₁ h₁ => G.bind_congr fun _ g₂ h₂ => ?_
      simp only [truncate_run, G.result_eq] at h₁
      obtain ⟨-, rfl⟩ := h₁
      have hl₂ := (genExpr_lowered h₂ hcur).1
      exact ih (fun st hst => hpre st (.tail _ hst)) (hl₂.current hcur) hopen

end Sequence

/-- How lowering a body ended: at a return statement, with its value if it had one, or past its
last statement, with the value that statement left if it left one. -/
inductive Exit where
  | ret (v : Option Ir.Operand)
  | fall (v : Option Ir.Operand)

namespace Exit

/-- The operand of a declared function's `ret`, for its return type `ρ`: the returned value,
or the last value unless the function returns `void`. -/
def funcRet (ρ : Ir.Ty) : Exit → Option Ir.Operand
  | .ret v => v
  | .fall v => if Ir.Ty.same ρ .void then none else v

/-- A function literal's return type and the operand of its `ret`: those of its returned
value, `void` for a bare `return`, those of its last value, or `i32` and `1` without one. -/
def literal : Exit → Ir.Ty × Option Ir.Operand
  | .ret (some v) => (v.ty, some v)
  | .ret none => (.void, none)
  | .fall (some v) => (v.ty, if Ir.Ty.same v.ty .void then none else some v)
  | .fall none => (.i32, some (.int 1))

/-- The function `f` once a body that ended so is closed; a literal (`lam`) first takes its
return type from the end. -/
def close (lam : Bool) (x : Exit) (f : Ir.Func) : Ir.Func :=
  if lam then { f with ret := x.literal.1 }.withRet x.literal.2 else f.withRet (x.funcRet f.ret)

/-- A literal returns a value of the type it takes. -/
theorem literal_typed {x : Exit} {v : Ir.Operand} (h : x.literal.2 = some v) :
    v.ty = x.literal.1 := by
  rcases x with (_ | w) | (_ | w)
  · simp [literal] at h
  · simp only [literal, Option.some.injEq] at h ⊢
    rw [h]
  · simp only [literal, Option.some.injEq] at h ⊢
    rw [← h]
    rfl
  · simp only [literal] at h ⊢
    split at h
    · cases h
    · simp only [Option.some.injEq] at h
      rw [h]

end Exit

/-- `g'` is `g` once the innermost block `cur`, of the function `f`, is closed as the end `x`
says: the block is marked returned, the function is `x.close lam f`, and the `ret` of a
declared function returns a value of its return type. Nothing else of the blocks, of `main`
or of the other functions has changed. -/
structure Closes (lam : Bool) (x : Exit) (cur : Frame Nat) (f : Ir.Func) (g g' : Gen) : Prop where
  stepped : Stepped cur g g'
  current : g'.stack.current = .ok { cur with returned := true }
  func : g'.prog.module.funcs[cur.block]? = some (x.close lam f)
  typed : lam = false → ∀ v, x.funcRet f.ret = some v → v.ty = f.ret

section Closing

variable {g g' : Gen} {t : Tables} {cur : Frame Nat} {f : Ir.Func} {lam : Bool}

theorem funcs_modifyFunc_self (m : Ir.Module) (c : Nat) (h : Ir.Func → Ir.Func) :
    (m.modifyFunc c h).funcs[c]? = (m.funcs[c]?).map h := by
  simp [Ir.Module.funcs_modifyFunc]

/-- `curFunc` reads the function of the frame and changes nothing. -/
theorem curFunc_of_frame {fc : Ir.Func} (h : (curFunc.run.run g).run t = (.ok fc, g'))
    (hfn : g.frame.fn = cur.block) (hf : g.prog.module.funcs[cur.block]? = some f) :
    fc = f ∧ g' = g := by
  obtain ⟨rfl, hfc⟩ := curFunc_ok h
  rw [hfn, hf, Option.some.injEq] at hfc
  exact ⟨hfc.symm, rfl⟩

/-- A return type check that passes was made against the frame's function's return type. -/
theorem checkReturnType_of_frame {sp : Span} {ty : Ir.Ty}
    (h : ((checkReturnType sp ty).run.run g).run t = (.ok (), g'))
    (hfn : g.frame.fn = cur.block) (hf : g.prog.module.funcs[cur.block]? = some f) :
    g' = g ∧ ty = f.ret := by
  obtain ⟨rfl, f', hf', hsame⟩ := checkReturnType_ok h
  rw [hfn, hf, Option.some.injEq] at hf'
  subst hf'
  exact ⟨rfl, (Ir.Ty.eq_of_same hsame).symm⟩

/-- Every return ends so: the block gets its `ret` and is marked returned. -/
theorem emitRet_markReturned {sp : Span} {r : Option Ir.Operand}
    (h : ((do emitRet sp r; markReturned : G Unit).run.run g).run t = (.ok (), g'))
    (hcur : g.stack.current = .ok cur) :
    Stepped cur g g' ∧ g'.stack.current = .ok { cur with returned := true } ∧
      g'.prog.module.funcs[cur.block]? = (g.prog.module.funcs[cur.block]?).map (·.withRet r) := by
  rw [G.bind_ok] at h
  obtain ⟨⟨⟩, g₁, h₁, h₂⟩ := h
  obtain ⟨cur₁, hcur₁, -, hg₁⟩ := emitRet_ok h₁
  rw [hcur] at hcur₁
  cases hcur₁
  have hcur' : g₁.stack.current = .ok cur := by rw [hg₁]; exact hcur
  have hs := (Steps.emitRet sp r hcur h₁).1.trans (Steps.markReturned hcur' h₂).1
  obtain ⟨cur₂, hcur₂, rfl⟩ := markReturned_ok h₂
  rw [hcur'] at hcur₂
  cases hcur₂
  refine ⟨hs, GenStack.current_setCurrent _, ?_⟩
  simp [hg₁, Ir.Module.setRet_eq, funcs_modifyFunc_self]

/-- A return statement with a value returns the value its expression lowers to; a literal
takes its type. -/
theorem genStmt_ret_some_closes {s : Site} {e : Expr} (hfr : g.frame = ⟨cur.block, lam, false⟩)
    (hcur : g.stack.current = .ok cur)
    (h : ((genStmt (.ret s (some e))).run.run g).run t = (.ok (), g')) :
    ∃ v g₁, ((genValue e).run.run g).run t = (.ok v, g₁) ∧ Lowered cur.block g g₁ ∧
      ∀ f, g₁.prog.module.funcs[cur.block]? = some f → Closes lam (.ret (some v)) cur f g₁ g' := by
  rw [genStmt, G.bind_ok] at h
  obtain ⟨v, g₁, h₁, h⟩ := h
  obtain ⟨hl₁, -⟩ := genValue_lowered h₁ hcur
  refine ⟨v, g₁, h₁, hl₁, fun f hf => ?_⟩
  have hfr₁ : g₁.frame = ⟨cur.block, lam, false⟩ := hl₁.frame.trans hfr
  have hcur₁ := hl₁.current hcur
  rw [G.get_bind] at h
  dsimp only at h
  rw [show g₁.frame.isLambda = lam by rw [hfr₁]] at h
  cases lam
  · -- a declared function checks the value against its return type
    rw [if_neg Bool.false_ne_true, G.bind_ok] at h
    obtain ⟨⟨⟩, g₂, h₂, h⟩ := h
    obtain ⟨rfl, hty⟩ := checkReturnType_of_frame h₂ (by rw [hfr₁]) hf
    obtain ⟨hs, hret, hfs⟩ := emitRet_markReturned h hcur₁
    refine ⟨hs, hret, by simp [hfs, hf, Exit.close, Exit.funcRet], fun _ v' hv' => ?_⟩
    cases hv'
    exact hty
  · -- a literal takes the value's type, as its first return
    rw [if_pos rfl, G.bind_ok] at h
    obtain ⟨⟨⟩, g₂, h₂, h⟩ := h
    rcases inferReturnType_ok h₂ with ⟨-, rfl⟩ | ⟨hri, -⟩
    · obtain ⟨hs, hret, hfs⟩ := emitRet_markReturned h hcur₁
      have hs₂ := (Steps.inferReturnType s.span v.ty hcur₁ h₂).1
      refine ⟨hs₂.trans hs, hret, ?_, by simp⟩
      simp [hfs, hfr₁, funcs_modifyFunc_self, hf, Exit.close, Exit.literal]
    · simp [hfr₁] at hri

/-- A bare return ends a declared function returning `void`; a literal takes `void`. -/
theorem genStmt_ret_none_closes {s : Site} (hfr : g.frame = ⟨cur.block, lam, false⟩)
    (hcur : g.stack.current = .ok cur) (hf : g.prog.module.funcs[cur.block]? = some f)
    (h : ((genStmt (.ret s none)).run.run g).run t = (.ok (), g')) :
    Closes lam (.ret none) cur f g g' := by
  rw [genStmt, G.get_bind] at h
  dsimp only at h
  rw [show g.frame.isLambda = lam by rw [hfr]] at h
  cases lam
  · rw [if_neg Bool.false_ne_true, G.bind_ok] at h
    obtain ⟨f', g₁, h₁, h⟩ := h
    obtain ⟨rfl, hf'⟩ := curFunc_ok h₁
    split at h
    · cases h
    · obtain ⟨hs, hret, hfs⟩ := emitRet_markReturned h hcur
      refine ⟨hs, hret, by simp [hfs, hf, Exit.close, Exit.funcRet], fun _ v hv => ?_⟩
      cases hv
  · rw [if_pos rfl, G.bind_ok] at h
    obtain ⟨⟨⟩, g₁, h₁, h⟩ := h
    rcases inferReturnType_ok h₁ with ⟨-, rfl⟩ | ⟨hri, -⟩
    · obtain ⟨hs, hret, hfs⟩ := emitRet_markReturned h hcur
      have hs₁ := (Steps.inferReturnType s.span .void hcur h₁).1
      refine ⟨hs₁.trans hs, hret, ?_, by simp⟩
      simp [hfs, hfr, funcs_modifyFunc_self, hf, Exit.close, Exit.literal]
    · simp [hfr] at hri

/-- The end of an implicit return with a value: it is returned, after a check against the
function's return type, unless the function returns `void`. -/
theorem value_tail {sp : Span} {w : Ir.Operand} {fc : Ir.Func}
    (h : ((if Ir.Ty.same fc.ret .void = true then (do emitRet sp none; markReturned)
      else (do checkReturnType sp w.ty; emitRet sp (some w); markReturned) : G Unit).run.run g).run t =
        (.ok (), g'))
    (hcur : g.stack.current = .ok cur) (hfn : g.frame.fn = cur.block)
    (hf : g.prog.module.funcs[cur.block]? = some fc) :
    Stepped cur g g' ∧ g'.stack.current = .ok { cur with returned := true } ∧
      g'.prog.module.funcs[cur.block]? =
        some (fc.withRet (if Ir.Ty.same fc.ret .void then none else some w)) ∧
      (Ir.Ty.same fc.ret .void = false → w.ty = fc.ret) := by
  split at h
  · next hvoid =>
    obtain ⟨hs, hret, hfs⟩ := emitRet_markReturned h hcur
    exact ⟨hs, hret, by simp [hfs, hf, hvoid], by simp [hvoid]⟩
  · next hvoid =>
    rw [G.bind_ok] at h
    obtain ⟨⟨⟩, g₁, h₁, h⟩ := h
    obtain ⟨rfl, hty⟩ := checkReturnType_of_frame h₁ hfn hf
    obtain ⟨hs, hret, hfs⟩ := emitRet_markReturned h hcur
    exact ⟨hs, hret, by simp [hfs, hf, hvoid], fun _ => hty⟩

/-- A body that ran past its last statement returns the value left above `base`, as the
function allows; a literal takes that value's type, or returns `1` without one. -/
theorem genImplicitReturn_closes {sp : Span} {base : Nat} {v : Option Ir.Operand}
    (h : ((genImplicitReturn sp base).run.run g).run t = (.ok (), g'))
    (hfr : g.frame = ⟨cur.block, lam, false⟩) (hcur : g.stack.current = .ok cur)
    (hf : g.prog.module.funcs[cur.block]? = some f) (hlam : lam = true → f.ret = .i32)
    (hv : (if g.stack.depth > base then g.stack.topValue else none) = v) :
    Closes lam (.fall v) cur f g g' := by
  have hfn : g.frame.fn = cur.block := by rw [hfr]
  rw [genImplicitReturn, G.get_bind] at h
  dsimp only at h
  rw [hv, show g.frame.isLambda = lam by rw [hfr]] at h
  cases lam
  · -- a declared function: the value is returned unless the function returns `void`
    rw [if_neg Bool.false_ne_true, G.bind_ok] at h
    obtain ⟨fc, g₁, h₁, h⟩ := h
    obtain ⟨hfc, rfl⟩ := curFunc_of_frame h₁ hfn hf
    rw [hfc] at h
    cases v with
    | none =>
      obtain ⟨hs, hret, hfs⟩ := emitRet_markReturned h hcur
      refine ⟨hs, hret, by simp [hfs, hf, Exit.close, Exit.funcRet], fun _ w hw => ?_⟩
      simp [Exit.funcRet] at hw
    | some w =>
      obtain ⟨hs, hret, hfs, hty⟩ := value_tail h hcur hfn hf
      refine ⟨hs, hret, by simp [hfs, Exit.close, Exit.funcRet], fun _ w' hw => ?_⟩
      simp only [Exit.funcRet] at hw
      split at hw
      · cases hw
      · next hvoid =>
        cases hw
        exact hty (by simpa using hvoid)
  · rw [if_pos rfl] at h
    cases v with
    | none =>
      -- a literal without a value returns `1`, its type `i32` unchanged
      simp only [G.get_bind, hfr, Bool.not_false, if_pos, G.bind_ok] at h
      obtain ⟨fc, g₁, h₁, h⟩ := h
      obtain ⟨hfc, rfl⟩ := curFunc_of_frame h₁ hfn hf
      rw [hfc] at h
      obtain ⟨hs, hret, hfs, -⟩ := value_tail h hcur hfn hf
      refine ⟨hs, hret, ?_, by simp⟩
      have hret32 : f.ret = .i32 := hlam rfl
      have hsame : Ir.Ty.same .i32 .void = false := rfl
      have hkeep : { f with ret := .i32 } = f := by rw [← hret32]
      simp [hfs, Exit.close, Exit.literal, hret32, hsame, hkeep]
    | some w =>
      -- a literal takes the type of its last value
      rw [G.bind_ok] at h
      obtain ⟨⟨⟩, g₁, h₁, h⟩ := h
      rcases inferReturnType_ok h₁ with ⟨-, rfl⟩ | ⟨hri, -⟩
      · rw [G.bind_ok] at h
        obtain ⟨fc, g₂, h₂, h⟩ := h
        obtain ⟨rfl, hfc⟩ := curFunc_ok h₂
        have hf₁ : (g.prog.module.modifyFunc g.frame.fn
            fun f => { f with ret := w.ty }).funcs[cur.block]? = some { f with ret := w.ty } := by
          rw [hfn, funcs_modifyFunc_self, hf]
          rfl
        obtain rfl : fc = { f with ret := w.ty } := by
          dsimp only at hfc
          rw [hfn] at hfc
          simpa [funcs_modifyFunc_self, hf] using hfc.symm
        have hs₁ := (Steps.inferReturnType sp w.ty hcur h₁).1
        obtain ⟨hs, hret, hfs, -⟩ := value_tail h hcur hfn hf₁
        exact ⟨hs₁.trans hs, hret, by simp [hfs, Exit.close, Exit.literal], by simp⟩
      · simp [hfr] at hri

theorem Closes.warn {x : Exit} (h : Closes lam x cur f g g') (sp : Span) (msg : String) :
    Closes lam x cur f g { g' with prog := { g'.prog with
      log := g'.prog.log.push (.warning g'.unit (some sp) msg) } } where
  stepped := h.stepped.trans (Steps.warn sp msg h.current (warn_run (t := default) sp msg)).1.of_returned
  current := h.current
  func := h.func
  typed := h.typed

end Closing

/-- How lowering the statements `sts` of a body from `g` ended, and the state in which the
value it returns became known. A return statement ends the body with the value its
expression lowers to after the statements before it; a body without one runs past its last
statement, which may leave a value. -/
inductive BodyEnd (t : Tables) (base : Nat) (g : Gen) : List Stmt → Gen → Exit → Prop where
  | ret {pre post : List Stmt} {s : Site} {e : Expr} {g₁ g₂ : Gen} {v : Ir.Operand} :
      (∀ st ∈ pre, st.isReturn = false) →
      ((genStmts base pre).run.run g).run t = (.ok (), g₁) →
      ((genValue e).run.run { g₁ with stack := g₁.stack.truncate base }).run t = (.ok v, g₂) →
      BodyEnd t base g (pre ++ .ret s (some e) :: post) g₂ (.ret (some v))
  | retVoid {pre post : List Stmt} {s : Site} {g₁ : Gen} :
      (∀ st ∈ pre, st.isReturn = false) →
      ((genStmts base pre).run.run g).run t = (.ok (), g₁) →
      BodyEnd t base g (pre ++ .ret s none :: post) { g₁ with stack := g₁.stack.truncate base }
        (.ret none)
  | fall {pre : List Stmt} {s : Site} {e : Expr} {g₁ g₂ : Gen} {v : Option Ir.Operand} :
      (∀ st ∈ pre, st.isReturn = false) →
      ((genStmts base pre).run.run g).run t = (.ok (), g₁) →
      ((genExpr e).run.run { g₁ with stack := g₁.stack.truncate base }).run t = (.ok (), g₂) →
      g₂.stack.values = g₁.stack.values.take base ++ v.toList →
      BodyEnd t base g (pre ++ [.expr s e]) g₂ (.fall v)
  | empty : BodyEnd t base g [] g (.fall none)

section Bodies

variable {g g' g₁ g₂ : Gen} {t : Tables} {base : Nat} {cur : Frame Nat} {f : Ir.Func}
  {lam : Bool}

theorem Lowered.func_extend {c : Nat} (h : Lowered c g g') (hf : g.prog.module.funcs[c]? = some f) :
    ∃ xs, g'.prog.module.funcs[c]? = some (f.extend xs) := by
  obtain ⟨xs, hxs⟩ := h.funcs
  have hc : c < g.prog.module.funcs.size := by
    rw [Array.getElem?_eq_some_iff] at hf
    exact hf.1
  exact ⟨xs, by rw [hxs c hc, if_pos rfl, hf]; rfl⟩

/-- What an implicit return finds above `base` once a statement has pushed at most one value
on the values below `base`. -/
theorem lastValue_eq {st : GenStack Nat Ir.Operand} {ys vs : List Ir.Operand}
    (hv : st.values = ys.take base ++ vs) (hbase : base ≤ ys.length) (hvs : vs.length ≤ 1) :
    (if st.depth > base then st.topValue else none) = vs.head? := by
  have hlen : (ys.take base).length = base := by simp [hbase]
  rcases vs with _ | ⟨w, _ | ⟨w', vs⟩⟩
  · simp [GenStack.depth, hv, hlen]
  · simp [GenStack.depth, GenStack.topValue, hv, hlen]
  · simp at hvs

/-- A body without a return statement runs past its last statement, which leaves at most one
value above `base`. -/
theorem genStmts_falls {sts : List Stmt} (hsts : ∀ st ∈ sts, st.isReturn = false)
    (hs : ((genStmts base sts).run.run g).run t = (.ok (), g₁))
    (hcur : g.stack.current = .ok cur) (hopen : cur.returned = false)
    (hbase : g.stack.depth = base) :
    ∃ v, BodyEnd t base g sts g₁ (.fall v) ∧ Lowered cur.block g g₁ ∧
      (if g₁.stack.depth > base then g₁.stack.topValue else none) = v := by
  rcases List.eq_nil_or_concat' sts with rfl | ⟨pre, last, rfl⟩
  · simp only [genStmts, G.run_pure, G.result_eq] at hs
    obtain ⟨-, rfl⟩ := hs
    exact ⟨none, .empty, .refl _ g, by simp [hbase]⟩
  · have hpre : ∀ st ∈ pre, st.isReturn = false := fun st h => hsts st (by simp [h])
    have hlast : last.isReturn = false := hsts last (by simp)
    cases last with
    | ret s oe => simp [Stmt.isReturn] at hlast
    | expr s e =>
      rw [genStmts_append _ hpre hcur hopen, G.bind_ok] at hs
      obtain ⟨⟨⟩, g₀, h₀, hs⟩ := hs
      have hl₀ := genStmts_exprs hpre h₀ hcur hopen
      have hb₀ := (genStmts_stepped h₀ hcur hbase.ge).2.1
      rw [genStmts_cons_of_open _ _ (hl₀.current hcur) hopen, G.bind_ok] at hs
      obtain ⟨⟨⟩, g₀', htr, hs⟩ := hs
      simp only [truncate_run, G.result_eq] at htr
      obtain ⟨-, rfl⟩ := htr
      rw [G.bind_ok, genStmt_expr] at hs
      obtain ⟨⟨⟩, g₂, h₂, hs⟩ := hs
      simp only [genStmts, G.run_pure, G.result_eq] at hs
      obtain ⟨-, rfl⟩ := hs
      have hl₀' : Lowered cur.block g { g₀ with stack := g₀.stack.truncate base } :=
        hl₀.trans (.values g₀ _)
      obtain ⟨hl₂, vs, hvs, hlen⟩ := genExpr_lowered h₂ (hl₀'.current hcur)
      -- the last statement left at most one value, which is what the implicit return finds
      have hone : vs.head?.toList = vs := by
        rcases vs with _ | ⟨w, _ | ⟨w', vs⟩⟩
        · rfl
        · rfl
        · simp at hlen
      refine ⟨vs.head?, .fall hpre h₀ h₂ (by rw [hvs, hone]; rfl), hl₀'.trans hl₂, ?_⟩
      exact lastValue_eq hvs hb₀ hlen

/-- A body with a return statement ends there: the statement closes the function, and what
follows it is at most reported. -/
theorem genStmts_returns {pre post : List Stmt} {s : Site} {oe : Option Expr}
    (hpre : ∀ st ∈ pre, st.isReturn = false)
    (hs : ((genStmts base (pre ++ .ret s oe :: post)).run.run g).run t = (.ok (), g₁))
    (hfr : g.frame = ⟨cur.block, lam, false⟩) (hcur : g.stack.current = .ok cur)
    (hopen : cur.returned = false) (hf : g.prog.module.funcs[cur.block]? = some f) :
    ∃ gᵣ x xs, BodyEnd t base g (pre ++ .ret s oe :: post) gᵣ x ∧ Lowered cur.block g gᵣ ∧
      gᵣ.prog.module.funcs[cur.block]? = some (f.extend xs) ∧
      Closes lam x cur (f.extend xs) gᵣ g₁ := by
  rw [genStmts_append _ hpre hcur hopen, G.bind_ok] at hs
  obtain ⟨⟨⟩, g₀, h₀, hs⟩ := hs
  have hl₀ := genStmts_exprs hpre h₀ hcur hopen
  rw [genStmts_cons_of_open _ _ (hl₀.current hcur) hopen, G.bind_ok] at hs
  obtain ⟨⟨⟩, g₀', htr, hs⟩ := hs
  simp only [truncate_run, G.result_eq] at htr
  obtain ⟨-, rfl⟩ := htr
  rw [G.bind_ok] at hs
  obtain ⟨⟨⟩, g₃, h₃, hs⟩ := hs
  have hl₀' : Lowered cur.block g { g₀ with stack := g₀.stack.truncate base } :=
    hl₀.trans (.values g₀ _)
  have hfr₀ := hl₀'.frame.trans hfr
  have hcur₀ := hl₀'.current hcur
  obtain ⟨xs₀, hf₀⟩ := hl₀'.func_extend hf
  -- the return statement closes the function
  obtain ⟨gᵣ, x, xs, hend, hl, hfᵣ, hcl⟩ : ∃ gᵣ x xs,
      BodyEnd t base g (pre ++ .ret s oe :: post) gᵣ x ∧ Lowered cur.block g gᵣ ∧
        gᵣ.prog.module.funcs[cur.block]? = some (f.extend xs) ∧
        Closes lam x cur (f.extend xs) gᵣ g₃ := by
    cases oe with
    | none => exact ⟨_, .ret none, xs₀, .retVoid hpre h₀, hl₀', hf₀,
        genStmt_ret_none_closes hfr₀ hcur₀ hf₀ h₃⟩
    | some e =>
      obtain ⟨v, gᵣ, hv, hlv, hclose⟩ := genStmt_ret_some_closes hfr₀ hcur₀ h₃
      obtain ⟨xs₁, hf₁⟩ := hlv.func_extend hf₀
      rw [Ir.Func.extend_extend] at hf₁
      exact ⟨gᵣ, .ret (some v), xs₀ ++ xs₁, .ret hpre h₀ hv, hl₀'.trans hlv, hf₁, hclose _ hf₁⟩
  refine ⟨gᵣ, x, xs, hend, hl, hfᵣ, ?_⟩
  -- what follows the return statement is not lowered: the first of it is reported
  cases post with
  | nil =>
    simp only [genStmts, G.run_pure, G.result_eq] at hs
    obtain ⟨-, rfl⟩ := hs
    exact hcl
  | cons st post =>
    rw [genStmts_cons_of_returned _ _ hcl.current rfl, warn_run, G.result_eq] at hs
    obtain ⟨-, rfl⟩ := hs
    exact hcl.warn _ _

/-- Lowering a body into the open block `cur` of the function `f`, with the implicit return
that follows when the body has not returned, ends as `BodyEnd` says and closes the function
accordingly. -/
theorem body_closes {sts : List Stmt} {sp : Span} {fr : Frame Nat}
    (hs : ((genStmts base sts).run.run g).run t = (.ok (), g₁))
    (hfr₁ : g₁.stack.current = .ok fr)
    (hi : if (!fr.returned) = true then
        ((genImplicitReturn sp base).run.run g₁).run t = (.ok (), g₂) else g₂ = g₁)
    (hfr : g.frame = ⟨cur.block, lam, false⟩) (hcur : g.stack.current = .ok cur)
    (hopen : cur.returned = false) (hbase : g.stack.depth = base)
    (hf : g.prog.module.funcs[cur.block]? = some f) (hlam : lam = true → f.ret = .i32) :
    ∃ gᵣ x xs, BodyEnd t base g sts gᵣ x ∧ Lowered cur.block g gᵣ ∧
      gᵣ.prog.module.funcs[cur.block]? = some (f.extend xs) ∧
      Closes lam x cur (f.extend xs) gᵣ g₂ := by
  obtain ⟨pre, hpre, rfl | ⟨s, oe, post, rfl⟩⟩ := Stmt.split_first_return sts
  · -- no return statement: the implicit return closes the function
    obtain ⟨v, hend, hl, hv⟩ := genStmts_falls hpre hs hcur hopen hbase
    rw [hl.current hcur] at hfr₁
    cases hfr₁
    rw [hopen, Bool.not_false, if_pos rfl] at hi
    obtain ⟨xs, hf₁⟩ := hl.func_extend hf
    exact ⟨g₁, .fall v, xs, hend, hl, hf₁, genImplicitReturn_closes hi (hl.frame.trans hfr)
      (hl.current hcur) hf₁ (by simpa using hlam) hv⟩
  · obtain ⟨gᵣ, x, xs, hend, hl, hfᵣ, hcl⟩ := genStmts_returns hpre hs hfr hcur hopen hf
    rw [hcl.current] at hfr₁
    cases hfr₁
    rw [Bool.not_true, if_neg Bool.false_ne_true] at hi
    subst hi
    exact ⟨gᵣ, x, xs, hend, hl, hfᵣ, hcl⟩

end Bodies

section Skipping

variable {g g' : Gen} {t : Tables} {base : Nat} {cur : Frame Nat}

/-- A return statement that is lowered marks its block returned, whatever function it is in. -/
theorem genStmt_ret_marks {s : Site} {oe : Option Expr}
    (h : ((genStmt (.ret s oe)).run.run g).run t = (.ok (), g')) (hcur : g.stack.current = .ok cur) :
    g'.stack.current = .ok { cur with returned := true } := by
  -- every way through the statement keeps the blocks up to `emitRet` and `markReturned`
  have hinfer : ∀ {g₁ g₂ : Gen} {ty : Ir.Ty},
      ((inferReturnType s.span ty).run.run g₁).run t = (.ok (), g₂) → g₂.stack = g₁.stack := by
    intro g₁ g₂ ty h₁
    rcases inferReturnType_ok h₁ with ⟨-, rfl⟩ | ⟨-, rfl, -⟩ <;> rfl
  cases oe with
  | none =>
    rw [genStmt, G.get_bind] at h
    dsimp only at h
    split at h
    · rw [G.bind_ok] at h
      obtain ⟨⟨⟩, g₁, h₁, h⟩ := h
      exact (emitRet_markReturned h (by rw [hinfer h₁]; exact hcur)).2.1
    · rw [G.bind_ok] at h
      obtain ⟨f, g₁, h₁, h⟩ := h
      obtain ⟨rfl, -⟩ := curFunc_ok h₁
      split at h
      · cases h
      · exact (emitRet_markReturned h hcur).2.1
  | some e =>
    rw [genStmt, G.bind_ok] at h
    obtain ⟨v, g₁, h₁, h⟩ := h
    have hcur₁ := (genValue_lowered h₁ hcur).1.current hcur
    rw [G.get_bind] at h
    dsimp only at h
    split at h
    · rw [G.bind_ok] at h
      obtain ⟨⟨⟩, g₂, h₂, h⟩ := h
      exact (emitRet_markReturned h (by rw [hinfer h₂]; exact hcur₁)).2.1
    · rw [G.bind_ok] at h
      obtain ⟨⟨⟩, g₂, h₂, h⟩ := h
      obtain ⟨rfl, -⟩ := checkReturnType_ok h₂
      exact (emitRet_markReturned h hcur₁).2.1

/-- What follows the first return statement of a block is not lowered: lowering the block is
lowering it up to that statement and reporting the next one as unreachable. -/
theorem genStmts_skips_after_return {pre post : List Stmt} {s : Site} {oe : Option Expr}
    {st : Stmt} (hpre : ∀ st ∈ pre, st.isReturn = false) (hcur : g.stack.current = .ok cur)
    (hopen : cur.returned = false) :
    ((genStmts base (pre ++ .ret s oe :: st :: post)).run.run g).run t =
      ((do genStmts base (pre ++ [.ret s oe]); warn st.site.span "unreachable code" : G Unit).run.run
        g).run t := by
  rw [genStmts_append _ hpre hcur hopen,
    G.bind_run_congr _ (genStmts_append [.ret s oe] hpre hcur hopen), bind_assoc]
  refine G.bind_congr fun _ g₁ h₁ => ?_
  have hcur₁ := (genStmts_exprs hpre h₁ hcur hopen).current hcur
  rw [genStmts_cons_of_open _ _ hcur₁ hopen,
    G.bind_run_congr _ (genStmts_cons_of_open _ _ hcur₁ hopen)]
  simp only [bind_assoc]
  refine G.bind_congr fun _ g₂ h₂ => G.bind_congr fun _ g₃ h₃ => ?_
  simp only [truncate_run, G.result_eq] at h₂
  obtain ⟨-, rfl⟩ := h₂
  -- the return statement marked the block returned
  have hret := genStmt_ret_marks h₃ hcur₁
  rw [genStmts_cons_of_returned _ _ hret rfl, genStmts, pure_bind]

end Skipping

section Functions

variable {g g' : Gen} {t : Tables}

/-- The entry point is added after the module's functions. -/
theorem genEntryPoint_run (f : Ir.Func) :
    ((genEntryPoint f).run.run g).run t = (.ok (), { g with prog := { g.prog with module :=
      { g.prog.module with funcs := g.prog.module.funcs.push f.entryPoint } } }) := by
  simp only [genEntryPoint, G.get_bind, G.run_set, G.result_eq, true_and]
  simp [Ir.Module.addFunc, Ir.Module.append, Ir.Module.setRet, Ir.Module.modifyFunc,
    Ir.Func.entryPoint, Ir.Func.instCount, Ir.Inst.ty, modify_push_size]

/-- Lowering a declared function with a body gives it one block `entry`, which holds the
instructions there were when the returned value became known, ended by the one `ret` that the
body's end gives; a returned operand has the function's return type. After `main`, the entry
point calling it comes last in the module. -/
theorem genFunc_closes {fd : FuncDecl} {i : Nat} {fn : Ir.Func}
    (h : ((genFunc fd).run.run g).run t = (.ok (), g'))
    (hext : fd.isExtern = false) (hcomp : fd.isCompiler = false)
    (hi : g.prog.handles[fd.site.id]? = some (.func i))
    (hfn : g.prog.module.funcs[i]? = some fn) (hb : fn.blocks = #[{ name := "entry" }]) :
    ∃ sc gᵣ x, ∃ xs : List Ir.Inst, t.notes.scopeOf? fd.site.id = some sc ∧
      BodyEnd t g.stack.depth
        { g with frame := { fn := i, isLambda := false }, stack := g.stack.pushBlock i sc }
        ((fd.body.map Block.stmts).getD []) gᵣ x ∧
      gᵣ.prog.module.funcs[i]? = some { fn with blocks := #[{ name := "entry", insts := xs.toArray }] } ∧
      g'.prog.module.funcs[i]? = some { fn with blocks :=
        #[{ name := "entry", insts := xs.toArray, ret := some (x.funcRet fn.ret) }] } ∧
      (∀ v, x.funcRet fn.ret = some v → v.ty = fn.ret) ∧
      (g.prog.main = some fd.site.id →
        g'.prog.module.funcs.back? = (g'.prog.module.funcs[i]?).map Ir.Func.entryPoint) := by
  rw [genFunc] at h
  have hcond : (fd.isExtern || fd.isCompiler) = false := by simp [hext, hcomp]
  rw [hcond, if_neg Bool.false_ne_true, G.get_bind, hi] at h
  generalize fd.body = ob at h ⊢
  -- the body's statements, or none without a body
  cases ob
  all_goals
    dsimp only at h
    rw [G.read_bind] at h
    split at h
    · next sc hsc =>
      rw [G.modify_bind, G.modify_bind, G.depth_bind, G.bind_ok] at h
      obtain ⟨⟨⟩, g₁, hs, h⟩ := h
      have hcur₀ : (g.stack.pushBlock i sc).current = .ok ⟨i, sc, false⟩ :=
        GenStack.current_pushBlock i sc
      obtain ⟨r, hcur₁⟩ := (genStmts_stepped hs hcur₀ le_rfl).1.current
      rw [G.get_bind, hcur₁, G.onStack_ok_bind] at h
      obtain ⟨g₂, hif, h⟩ := G.ite_seq_ok h
      obtain ⟨gᵣ, x, xs, hend, hl, hfᵣ, hcl⟩ :=
        body_closes hs hcur₁ hif rfl hcur₀ rfl rfl hfn (by simp)
      have hst := (Stepped.of_lowered hcur₀ hl).trans hcl.stepped
      have hfin : g₂.prog.module.funcs[i]? = some { fn with blocks :=
          #[{ name := "entry", insts := xs.toArray, ret := some (x.funcRet fn.ret) }] } := by
        rw [hcl.func]
        simp [Exit.close, Ir.Func.withRet_extend_of_entry hb]
      have hi₂ : i < g₂.prog.module.funcs.size := (Array.getElem?_eq_some_iff.1 hfin).1
      -- the block is popped, the values dropped, and after `main` the entry point added
      rw [G.get_bind, GenStack.popBlock_eq_ok.2 ⟨hcl.current, rfl⟩, G.onStack_ok_bind] at h
      dsimp only at h
      rw [G.modify_bind, G.get_bind] at h
      refine ⟨sc, gᵣ, x, xs, hsc, hend, by rw [hfᵣ, Ir.Func.extend_of_entry hb], ?_⟩
      split at h
      · next hmain =>
        rw [G.bind_ok] at h
        obtain ⟨fm, g₃, h₃, h⟩ := h
        obtain ⟨rfl, hfm⟩ := curFunc_ok h₃
        rw [genEntryPoint_run, G.result_eq] at h
        obtain ⟨-, rfl⟩ := h
        have hfm' : g₂.prog.module.funcs[i]? = some fm := by rw [← hfm, hst.fn]
        refine ⟨?_, fun v hv => ?_, fun _ => ?_⟩
        · simpa [Array.getElem?_push, Nat.ne_of_lt hi₂] using hfin
        · simpa using hcl.typed rfl v hv
        · simp [Array.back?_push, Array.getElem?_push, Nat.ne_of_lt hi₂, hfm']
      · next hmain =>
        simp only [G.run_pure, G.result_eq] at h
        obtain ⟨-, rfl⟩ := h
        refine ⟨hfin, fun v hv => by simpa using hcl.typed rfl v hv, fun hm => ?_⟩
        exact absurd (hst.main.trans hm) hmain
    · cases h

/-- Lowering a function literal adds a function after the module's functions, named by the
unit's prefix and the count of literals, with one block `entry` that holds the instructions
there were when the returned value became known, ended by the one `ret` that the body's end
gives; the function's return type is the one that end gives too. The literal's value is that
function. -/
theorem genLambda_closes {site : Site} {sts : List Stmt} {op : Ir.Operand}
    (h : ((genLambda site sts).run.run g).run t = (.ok op, g')) :
    ∃ sc gᵣ x, ∃ xs : List Ir.Inst, t.notes.scopeOf? site.id = some sc ∧
      BodyEnd t g.stack.depth
        { g with prog := { g.prog with module := (g.prog.module.addFunc
                   { name := g.unitPrefix ++ "lambda." ++ toString g.lambdas, linkage := .internal,
                     ret := .i32, blocks := #[{ name := "entry" }] }).1 },
                 lambdas := g.lambdas + 1,
                 frame := { fn := g.prog.module.funcs.size, isLambda := true },
                 stack := g.stack.pushBlock g.prog.module.funcs.size sc } sts gᵣ x ∧
      gᵣ.prog.module.funcs[g.prog.module.funcs.size]? =
        some { name := g.unitPrefix ++ "lambda." ++ toString g.lambdas, linkage := .internal,
               ret := .i32, blocks := #[{ name := "entry", insts := xs.toArray }] } ∧
      g'.prog.module.funcs[g.prog.module.funcs.size]? =
        some { name := g.unitPrefix ++ "lambda." ++ toString g.lambdas, linkage := .internal,
               ret := x.literal.1,
               blocks := #[{ name := "entry", insts := xs.toArray, ret := some x.literal.2 }] } ∧
      (g'.prog.module.funcs[g.prog.module.funcs.size]?).map Ir.Func.operand = some op := by
  rw [genLambda, G.read_bind] at h
  split at h
  · next sc hsc =>
    rw [G.get_bind] at h
    dsimp only at h
    simp only [Ir.Module.addFunc_snd] at h
    rw [G.set_bind, G.depth_bind, G.modify_bind, G.bind_ok] at h
    obtain ⟨⟨⟩, g₁, hs, h⟩ := h
    have hcur₀ : (g.stack.pushBlock g.prog.module.funcs.size sc).current =
        .ok ⟨g.prog.module.funcs.size, sc, false⟩ :=
      GenStack.current_pushBlock _ sc
    obtain ⟨r, hcur₁⟩ := (genStmts_stepped hs hcur₀ le_rfl).1.current
    rw [G.get_bind, hcur₁, G.onStack_ok_bind] at h
    obtain ⟨g₂, hif, h⟩ := G.ite_seq_ok h
    obtain ⟨gᵣ, x, xs, hend, hl, hfᵣ, hcl⟩ := body_closes hs hcur₁ hif rfl hcur₀ rfl rfl
      (Ir.Module.funcs_addFunc_self _ _) (fun _ => rfl)
    have hfin : g₂.prog.module.funcs[g.prog.module.funcs.size]? =
        some { name := g.unitPrefix ++ "lambda." ++ toString g.lambdas, linkage := .internal,
               ret := x.literal.1,
               blocks := #[{ name := "entry", insts := xs.toArray, ret := some x.literal.2 }] } := by
      rw [hcl.func]
      simp [Exit.close, Ir.Func.extend_of_entry, Ir.Func.withRet]
    -- the literal's block is popped, and its value is the new function
    rw [G.get_bind, GenStack.popBlock_eq_ok.2 ⟨hcl.current, rfl⟩, G.onStack_ok_bind,
      G.modify_bind, G.get_bind] at h
    dsimp only at h
    rw [hfin] at h
    simp only [G.run_pure, G.result_eq, Except.ok.injEq] at h
    obtain ⟨rfl, rfl⟩ := h
    exact ⟨sc, gᵣ, x, xs, hsc, hend, by rw [hfᵣ, Ir.Func.extend_of_entry rfl], hfin, by rw [hfin]; rfl⟩
  · cases h

end Functions

section Returns

/-- Function bodies end with one `ret` that returns the right value. What follows the first
return statement of a block is not lowered. A declared function, fresh with one empty block
`entry`, and a function literal each keep that one block, which holds the instructions there
were when the returned value became known (`BodyEnd`) and is ended by the `ret` of
`Exit.funcRet` or `Exit.literal`; a declared function's returned operand has its return type.
After `main`, the entry point calling it comes last in the module. -/
theorem bodies_return :
    (∀ (g : Gen) (t : Tables) (base : Nat) (cur : Frame Nat) (pre post : List Stmt) (s : Site)
        (oe : Option Expr) (st : Stmt), (∀ st ∈ pre, st.isReturn = false) →
        g.stack.current = .ok cur → cur.returned = false →
        ((genStmts base (pre ++ .ret s oe :: st :: post)).run.run g).run t =
          ((do genStmts base (pre ++ [.ret s oe]); warn st.site.span "unreachable code" : G Unit).run.run
            g).run t) ∧
    (∀ (g g' : Gen) (t : Tables) (fd : FuncDecl) (i : Nat) (fn : Ir.Func),
        ((genFunc fd).run.run g).run t = (.ok (), g') → fd.isExtern = false →
        fd.isCompiler = false → g.prog.handles[fd.site.id]? = some (.func i) →
        g.prog.module.funcs[i]? = some fn → fn.blocks = #[{ name := "entry" }] →
        ∃ sc gᵣ x, ∃ xs : List Ir.Inst, t.notes.scopeOf? fd.site.id = some sc ∧
          BodyEnd t g.stack.depth
            { g with frame := { fn := i, isLambda := false }, stack := g.stack.pushBlock i sc }
            ((fd.body.map Block.stmts).getD []) gᵣ x ∧
          gᵣ.prog.module.funcs[i]? =
            some { fn with blocks := #[{ name := "entry", insts := xs.toArray }] } ∧
          g'.prog.module.funcs[i]? = some { fn with blocks :=
            #[{ name := "entry", insts := xs.toArray, ret := some (x.funcRet fn.ret) }] } ∧
          (∀ v, x.funcRet fn.ret = some v → v.ty = fn.ret) ∧
          (g.prog.main = some fd.site.id →
            g'.prog.module.funcs.back? = (g'.prog.module.funcs[i]?).map Ir.Func.entryPoint)) ∧
    (∀ (g g' : Gen) (t : Tables) (site : Site) (sts : List Stmt) (op : Ir.Operand),
        ((genLambda site sts).run.run g).run t = (.ok op, g') →
        ∃ sc gᵣ x, ∃ xs : List Ir.Inst, t.notes.scopeOf? site.id = some sc ∧
          BodyEnd t g.stack.depth
            { g with prog := { g.prog with module := (g.prog.module.addFunc
                       { name := g.unitPrefix ++ "lambda." ++ toString g.lambdas, linkage := .internal,
                         ret := .i32, blocks := #[{ name := "entry" }] }).1 },
                     lambdas := g.lambdas + 1,
                     frame := { fn := g.prog.module.funcs.size, isLambda := true },
                     stack := g.stack.pushBlock g.prog.module.funcs.size sc } sts gᵣ x ∧
          gᵣ.prog.module.funcs[g.prog.module.funcs.size]? =
            some { name := g.unitPrefix ++ "lambda." ++ toString g.lambdas, linkage := .internal,
                   ret := .i32, blocks := #[{ name := "entry", insts := xs.toArray }] } ∧
          g'.prog.module.funcs[g.prog.module.funcs.size]? =
            some { name := g.unitPrefix ++ "lambda." ++ toString g.lambdas, linkage := .internal,
                   ret := x.literal.1,
                   blocks := #[{ name := "entry", insts := xs.toArray, ret := some x.literal.2 }] } ∧
          (g'.prog.module.funcs[g.prog.module.funcs.size]?).map Ir.Func.operand = some op) :=
  ⟨fun _ _ _ _ _ _ _ _ _ hpre hcur hopen => genStmts_skips_after_return hpre hcur hopen,
    fun _ _ _ _ _ _ h hext hcomp hi hfn hb => genFunc_closes h hext hcomp hi hfn hb,
    fun _ _ _ _ _ _ h => genLambda_closes h⟩

/-- Code of unit `a.abla` in the open block of function 0. -/
def enclosing : Gen :=
  { prog := {}, unit := "a.abla", unitPrefix := "u0.", stack := { blocks := [{ block := 0, scope := 0 }] } }

/-- Tables in which node 1, a function literal, opens scope 0. -/
def literalTables : Tables := { notes := ({} : Notes).setScope 1 0 }

/-- `enclosing` once `{ 2 }` is lowered: the literal is `u0.lambda.0 : i32 ()`, returning `2`. -/
def twoDone : Gen :=
  { enclosing with
    prog := { module := { funcs := #[{ name := "u0.lambda.0", linkage := .internal, ret := .i32,
                                       blocks := #[{ name := "entry", ret := some (some (.int 2)) }] }] } }
    lambdas := 1 }

/-- `fun main(): Int { return 2 }`, node 5. -/
def mainTwo : FuncDecl :=
  { site := ⟨5, default⟩, name := "main", nameSpan := default, modifiers := [], params := [],
    ret := some (.named "Int" [] default),
    body := some (.mk default [.ret default (some (.int default "2"))]) }

/-- `main` as declared: `__abla_main : i32 ()` with an empty block `entry`. -/
def mainFn : Ir.Func := { name := "__abla_main", ret := .i32, blocks := #[{ name := "entry" }] }

/-- Tables in which the body of `mainTwo` opens scope 0. -/
def mainTables : Tables := { notes := ({} : Notes).setScope 5 0 }

/-- A program with `mainTwo` declared as function 0, before its body is lowered. -/
def mainGen : Gen :=
  { prog := { module := { funcs := #[mainFn] }, main := some 5,
              handles := ({} : Std.HashMap Nat Handle).insert 5 (.func 0) },
    unit := "a.abla", unitPrefix := "u0." }

/-- `mainGen` once `mainTwo` is lowered: `__abla_main` returns `2`, and the entry point `main`
returns what it returns. -/
def mainDone : Gen :=
  { mainGen with
    prog := { mainGen.prog with
      module := { funcs := #[
        { mainFn with blocks := #[{ name := "entry", ret := some (some (.int 2)) }] },
        { name := "main", linkage := .external, ret := .i32,
          blocks := #[{ name := "entry", insts := #[.call (.func "__abla_main" (.ptr (.func .i32 []))) [] .i32],
                        ret := some (some (.inst 0 .i32)) }] }] } }
    frame := { fn := 0, isLambda := false } }

/-- `return` skips the statement after it; `fun main(): Int { return 2 }` returns `2` and gets
the entry point; `{ 2 }` is an `i32` function returning `2`. -/
theorem bodies_return_mainTwo :
    (enclosing.stack.current = .ok ⟨0, 0, false⟩ ∧
      ((genStmts 0 ([] ++ .ret default none :: .expr default (.int default "1") :: [])).run.run
          enclosing).run default =
        ((do genStmts 0 ([] ++ [.ret default none])
             warn (Stmt.expr default (.int default "1")).site.span "unreachable code" : G Unit).run.run
          enclosing).run default) ∧
    (((genFunc mainTwo).run.run mainGen).run mainTables = (.ok (), mainDone) ∧
      mainGen.prog.handles[mainTwo.site.id]? = some (.func 0) ∧
      ∃ sc gᵣ x, ∃ xs : List Ir.Inst, mainTables.notes.scopeOf? mainTwo.site.id = some sc ∧
        BodyEnd mainTables mainGen.stack.depth
          { mainGen with frame := { fn := 0, isLambda := false }, stack := mainGen.stack.pushBlock 0 sc }
          ((mainTwo.body.map Block.stmts).getD []) gᵣ x ∧
        gᵣ.prog.module.funcs[0]? =
          some { mainFn with blocks := #[{ name := "entry", insts := xs.toArray }] } ∧
        mainDone.prog.module.funcs[0]? = some { mainFn with blocks :=
          #[{ name := "entry", insts := xs.toArray, ret := some (x.funcRet mainFn.ret) }] } ∧
        (∀ v, x.funcRet mainFn.ret = some v → v.ty = mainFn.ret) ∧
        (mainGen.prog.main = some mainTwo.site.id →
          mainDone.prog.module.funcs.back? = (mainDone.prog.module.funcs[0]?).map Ir.Func.entryPoint)) ∧
    (((genLambda ⟨1, default⟩ [.expr default (.int default "2")]).run.run enclosing).run literalTables =
        (.ok (.func "u0.lambda.0" (.ptr (.func .i32 []))), twoDone) ∧
      ∃ sc gᵣ x, ∃ xs : List Ir.Inst, literalTables.notes.scopeOf? 1 = some sc ∧
        BodyEnd literalTables enclosing.stack.depth
          { enclosing with
            prog := { enclosing.prog with module := (enclosing.prog.module.addFunc
              { name := enclosing.unitPrefix ++ "lambda." ++ toString enclosing.lambdas,
                linkage := .internal, ret := .i32, blocks := #[{ name := "entry" }] }).1 },
            lambdas := enclosing.lambdas + 1,
            frame := { fn := enclosing.prog.module.funcs.size, isLambda := true },
            stack := enclosing.stack.pushBlock enclosing.prog.module.funcs.size sc }
          [.expr default (.int default "2")] gᵣ x ∧
        gᵣ.prog.module.funcs[enclosing.prog.module.funcs.size]? =
          some { name := enclosing.unitPrefix ++ "lambda." ++ toString enclosing.lambdas,
                 linkage := .internal, ret := .i32,
                 blocks := #[{ name := "entry", insts := xs.toArray }] } ∧
        twoDone.prog.module.funcs[enclosing.prog.module.funcs.size]? =
          some { name := enclosing.unitPrefix ++ "lambda." ++ toString enclosing.lambdas,
                 linkage := .internal, ret := x.literal.1,
                 blocks := #[{ name := "entry", insts := xs.toArray, ret := some x.literal.2 }] } ∧
        (twoDone.prog.module.funcs[enclosing.prog.module.funcs.size]?).map Ir.Func.operand =
          some (.func "u0.lambda.0" (.ptr (.func .i32 [])))) := by
  have hcur : enclosing.stack.current = .ok ⟨0, 0, false⟩ := rfl
  -- the kernel reads the digits by `decide`; unfolding them inside `rfl` runs out of depth
  have hlit : literalValue? "2" = some 2 := by decide
  have hmain : ((genFunc mainTwo).run.run mainGen).run mainTables = (.ok (), mainDone) := by
    rw [genFunc]
    simp only [mainTwo, FuncDecl.isExtern, FuncDecl.isCompiler, List.any_nil, Bool.or_self,
      Bool.false_eq_true, if_false, G.get_bind, G.read_bind, mainGen, mainTables,
      Std.HashMap.getElem?_insert_self, Notes.scopeOf?_setScope, Block.stmts, genStmts, genStmt,
      genValue, genExpr]
    rfl
  have hhandle : mainGen.prog.handles[mainTwo.site.id]? = some (.func 0) := by
    simp [mainGen, mainTwo]
  have htwo : ((genLambda ⟨1, default⟩ [.expr default (.int default "2")]).run.run enclosing).run
      literalTables = (.ok (.func "u0.lambda.0" (.ptr (.func .i32 []))), twoDone) := by
    rw [genLambda, G.read_bind]
    simp only [literalTables, Notes.scopeOf?_setScope, genStmts, genStmt, genExpr, hlit]
    rfl
  exact ⟨⟨hcur, bodies_return.1 enclosing default 0 _ [] [] default none _ (by simp) hcur rfl⟩,
    ⟨hmain, hhandle, bodies_return.2.1 mainGen mainDone mainTables mainTwo 0 mainFn hmain rfl rfl
      hhandle rfl rfl⟩,
    ⟨htwo, bodies_return.2.2 enclosing twoDone literalTables ⟨1, default⟩ _ _ htwo⟩⟩

/-- Lowering `{ return }`, a literal whose one statement is a bare return, gives a function
returning `void`, ended by `ret void`: not `i32 ()` returning `1`. -/
theorem bare_return_literal_void :
    ((genLambda ⟨1, default⟩ [.ret default none]).run.run enclosing).run literalTables =
      (.ok (.func "u0.lambda.0" (.ptr (.func .void []))),
        { enclosing with
          prog := { module := { funcs := #[{ name := "u0.lambda.0", linkage := .internal, ret := .void,
                                             blocks := #[{ name := "entry", ret := some none }] }] } }
          lambdas := 1 }) := by
  rw [genLambda, G.read_bind]
  simp only [literalTables, Notes.scopeOf?_setScope, genStmts, genStmt]
  rfl

end Returns

end Codegen

end Abla
