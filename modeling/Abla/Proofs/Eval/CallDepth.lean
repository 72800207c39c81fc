import Mathlib
import Abla.Proofs.Eval.World

/-!
# The call-depth guard

Compile-time evaluation counts the calls in progress, and a call made while `maxCallDepth`
of them are in progress fails with the depth error. In the evaluator the count is a budget:
a call at depth `d` is `callWith sc (maxCallDepth + 1 - d)`, which walks its callee's body with
the budget one lower, so every call (a declared function, a function literal or a built-in)
runs one deeper than its caller, and `callWith sc 0`, a call at depth `maxCallDepth + 1`, fails
at once. Evaluation terminates by recursion on the budget and, within one budget, on the
expression; the built-ins reach other units through the host, which answers with a failure or
none.

The main statement is `call_depth_guard`: the depth error is what a call at depth
`maxCallDepth + 1` gives, and an evaluation that does not end with it gives what evaluation
under any larger limit gives (`Walk.expr_upTo`, `callWith_upTo`), so its result does not depend
on the limit. An evaluation that would nest calls without end, such as a function calling
itself, ends with the depth error.
-/

namespace Abla

namespace Eval

/-- The error of a call made while `maxCallDepth` calls are in progress. -/
def depthFailure (span : Span) : CompileError :=
  execFailure span ("maximum call depth of " ++ toString maxCallDepth ++ " exceeded")

/-- An outcome that is the depth error. -/
def DepthFailed {α : Type} : Except CompileError α → Prop
  | .error e => ∃ span, e = depthFailure span
  | .ok _ => False

/-- A call made with no budget left fails with the depth error and changes nothing. -/
theorem callWith_zero (sc : Scene) (fn : Value) (vals : List Value) (span : Span) (b : Build) :
    (callWith sc 0 fn vals span).run.run b = (.error (depthFailure span), b) := rfl

section UpTo

variable {α β : Type}

/-- `x` gives what `y` gives, from every build, unless it stops at the depth limit first. -/
def UpTo (x y : Run α) : Prop :=
  ∀ b, DepthFailed (x.run.run b).1 ∨ x.run.run b = y.run.run b

theorem UpTo.refl (x : Run α) : UpTo x x := fun _ => .inr rfl

/-- A computation that stops at the depth limit stops the rest of a `do` block with it. -/
theorem UpTo.bind {x y : Run α} {f g : α → Run β} (hx : UpTo x y)
    (hf : ∀ a, UpTo (f a) (g a)) : UpTo (x >>= f) (y >>= g) := by
  intro b
  rw [Run.run_bind, Run.run_bind]
  rcases hx b with hd | he
  · rcases hr : x.run.run b with ⟨r, b'⟩
    rw [hr] at hd
    cases r with
    | error e => exact .inl hd
    | ok a => exact hd.elim
  · rw [he]
    rcases y.run.run b with ⟨r, b'⟩
    cases r with
    | error e => exact .inr rfl
    | ok a => exact hf a b'

theorem UpTo.ite {c : Prop} [Decidable c] {x₁ x₂ y₁ y₂ : Run α} (hx : UpTo x₁ x₂)
    (hy : UpTo y₁ y₂) : UpTo (if c then x₁ else y₁) (if c then x₂ else y₂) := by
  split
  · exact hx
  · exact hy

end UpTo

/-- Callers that agree on every call, unless the first stops at the depth limit. -/
def CallsUpTo (c₁ c₂ : Caller) : Prop :=
  ∀ fn vals span, UpTo (c₁ fn vals span) (c₂ fn vals span)

section Walk

variable {c₁ c₂ : Caller}

mutual

/-- An expression walked with a caller that stops sooner gives the same result, unless it
stops at the depth limit. -/
theorem Walk.expr_upTo (h : CallsUpTo c₁ c₂) (env : Env) :
    ∀ e, UpTo (Walk.expr c₁ env e) (Walk.expr c₂ env e)
  | .ident s n => by
    rw [Walk.expr, Walk.expr]
    exact UpTo.refl _
  | .int s t => by
    rw [Walk.expr, Walk.expr]
    exact UpTo.refl _
  | .str _ ps => by
    rw [Walk.expr, Walk.expr]
    exact (Walk.pieces_upTo h env ps).bind fun _ => UpTo.refl _
  | .call s f as => by
    rw [Walk.expr, Walk.expr]
    -- the function, then the arguments, then the call itself
    exact (Walk.expr_upTo h env f).bind fun fv =>
      (Walk.args_upTo h env as).bind fun avs => h fv avs s.span
  | .lambda _ b => by
    rw [Walk.expr, Walk.expr]
    exact UpTo.refl _
  | .binary s op l r => by
    rw [Walk.expr, Walk.expr]
    exact (Walk.expr_upTo h env l).bind fun _ => (Walk.expr_upTo h env r).bind fun _ => UpTo.refl _
  | .exec _ e => by
    rw [Walk.expr, Walk.expr]
    exact Walk.expr_upTo h env e

theorem Walk.pieces_upTo (h : CallsUpTo c₁ c₂) (env : Env) :
    ∀ ps, UpTo (Walk.pieces c₁ env ps) (Walk.pieces c₂ env ps)
  | [] => by
    rw [Walk.pieces, Walk.pieces]
    exact UpTo.refl _
  | .text _ :: ps => by
    rw [Walk.pieces, Walk.pieces]
    exact (Walk.pieces_upTo h env ps).bind fun _ => UpTo.refl _
  | .interp e :: ps => by
    rw [Walk.pieces, Walk.pieces]
    refine (Walk.expr_upTo h env e).bind fun v => ?_
    cases v with
    | void => exact UpTo.refl _
    | int _ | str _ | bool _ | lambda _ _ | func _ _ | builtin _ =>
      exact (Walk.pieces_upTo h env ps).bind fun _ => UpTo.refl _

theorem Walk.args_upTo (h : CallsUpTo c₁ c₂) (env : Env) :
    ∀ as, UpTo (Walk.args c₁ env as) (Walk.args c₂ env as)
  | [] => by
    rw [Walk.args, Walk.args]
    exact UpTo.refl _
  | e :: es => by
    rw [Walk.args, Walk.args]
    exact (Walk.expr_upTo h env e).bind fun _ => (Walk.args_upTo h env es).bind fun _ => UpTo.refl _

end

theorem Walk.block_upTo (h : CallsUpTo c₁ c₂) (env : Env) :
    ∀ sts last, UpTo (Walk.block c₁ env sts last) (Walk.block c₂ env sts last)
  | [], _ => by
    rw [Walk.block, Walk.block]
    exact UpTo.refl _
  | .expr _ e :: rest, _ => by
    rw [Walk.block, Walk.block]
    exact (Walk.expr_upTo h env e).bind fun v => Walk.block_upTo h env rest (some v)
  | .ret _ none :: _, _ => by
    rw [Walk.block, Walk.block]
    exact UpTo.refl _
  | .ret _ (some e) :: _, _ => by
    rw [Walk.block, Walk.block]
    exact (Walk.expr_upTo h env e).bind fun _ => UpTo.refl _

end Walk

/-- A call with a budget gives what a call with a larger budget gives, unless it stops at the
depth limit: the bodies of the callee are walked with budgets one lower. -/
theorem callWith_upTo (sc : Scene) :
    ∀ {n n' : Nat}, n ≤ n' → CallsUpTo (callWith sc n) (callWith sc n')
  | 0, _, _ => fun _ _ span _ => Or.inl ⟨span, rfl⟩
  | n + 1, 0, hle => absurd hle (by omega)
  | n + 1, n' + 1, hle => fun fn vals span => by
    have hin := callWith_upTo sc (Nat.le_of_succ_le_succ hle)
    cases fn with
    | builtin bi =>
      simp only [callWith]
      exact UpTo.refl _
    | lambda body env =>
      simp only [callWith]
      exact UpTo.ite (UpTo.refl _)
        ((Walk.block_upTo hin _ body.stmts none).bind fun _ => UpTo.refl _)
    | func f type =>
      simp only [callWith]
      -- with or without the extern error first, the arguments are checked and the scope is read
      -- as before; only the body is walked with the budgets one lower
      refine UpTo.ite (UpTo.bind (UpTo.refl _) fun _ => ?_) ?_
      all_goals
        refine UpTo.bind (UpTo.refl _) fun _ => UpTo.bind (UpTo.refl _) fun _ => ?_
        split
        · exact (Walk.block_upTo hin _ _ none).bind fun _ => UpTo.refl _
        · exact UpTo.refl _
    | int _ | str _ | bool _ | void =>
      simp only [callWith]
      exact UpTo.refl _


/-- Calls that proceed only by making another of them with one budget fewer, after which the
rest of their work waits on it: each ends with the depth error, whatever the budget. Direct,
mutual and closure-mediated recursion without end are such calls. -/
theorem depthFailed_of_reentrant (sc : Scene) (S : Value → List Value → Span → Build → Prop)
    (hS : ∀ n fn vals span b, S fn vals span b →
      ∃ fn' vals' span' b' k, S fn' vals' span' b' ∧
        (callWith sc (n + 1) fn vals span).run.run b =
          (callWith sc n fn' vals' span' >>= k).run.run b') :
    ∀ n fn vals span b, S fn vals span b →
      DepthFailed ((callWith sc n fn vals span).run.run b).1
  | 0, _, _, span, b, _ => by
    rw [callWith_zero]
    exact ⟨span, rfl⟩
  | n + 1, fn, vals, span, b, hs => by
    obtain ⟨fn', vals', span', b', k, hs', heq⟩ := hS n fn vals span b hs
    have hin := depthFailed_of_reentrant sc S hS n fn' vals' span' b' hs'
    rw [heq, Run.run_bind]
    rcases hr : (callWith sc n fn' vals' span').run.run b' with ⟨r, b''⟩
    rw [hr] at hin
    cases r with
    | error e => exact hin
    | ok v => exact hin.elim

/-- The call-depth guard is exact. A call made while `maxCallDepth` calls are in progress fails
with the depth error and changes nothing; an evaluation that does not end with the depth error
gives the same result, and leaves the same build, under every larger limit, so evaluation
either stops at the limit or gives what evaluation with no limit gives; and calls that recur
without end stop at the limit. -/
theorem call_depth_guard (sc : Scene) :
    (∀ fn vals span b,
      (callWith sc 0 fn vals span).run.run b = (.error (depthFailure span), b)) ∧
    (∀ (env : Env) (e : Expr) (b : Build) (n n' : Nat), n ≤ n' →
      DepthFailed ((Walk.expr (callWith sc n) env e).run.run b).1 ∨
        (Walk.expr (callWith sc n) env e).run.run b =
          (Walk.expr (callWith sc n') env e).run.run b) ∧
    (∀ (env : Env) (e : Expr) (b : Build),
      DepthFailed ((evaluate sc env e).run.run b).1 ∨
        ∀ n, maxCallDepth ≤ n →
          (Walk.expr (callWith sc n) env e).run.run b = (evaluate sc env e).run.run b) ∧
    (∀ S : Value → List Value → Span → Build → Prop,
      (∀ n fn vals span b, S fn vals span b → ∃ fn' vals' span' b' k, S fn' vals' span' b' ∧
        (callWith sc (n + 1) fn vals span).run.run b =
          (callWith sc n fn' vals' span' >>= k).run.run b') →
      ∀ fn vals span b, S fn vals span b →
        DepthFailed ((callWith sc maxCallDepth fn vals span).run.run b).1) := by
  refine ⟨callWith_zero sc, fun env e b n n' hle => Walk.expr_upTo (callWith_upTo sc hle) env e b,
    fun env e b => ?_, fun S hS fn vals span b hs =>
      depthFailed_of_reentrant sc S hS maxCallDepth fn vals span b hs⟩
  -- `evaluate` is the walk with the budget `maxCallDepth`
  by_cases hd : DepthFailed ((evaluate sc env e).run.run b).1
  · exact .inl hd
  · refine .inr fun n hn => ?_
    rcases Walk.expr_upTo (callWith_upTo sc hn) env e b with h | h
    · exact absurd h hd
    · exact h.symm

/-- `fun g(h: () -> Int): Int = h(h)`, declared at node 1, a function that calls its argument
with itself. Only arguments of primitive type are checked when a call is made, so `g(g)` is a
call that recurs without end. -/
def selfApply : FuncDecl :=
  { site := ⟨1, default⟩, name := "g", nameSpan := default, modifiers := [],
    params := [⟨⟨2, default⟩, "h", .func [] (.named "Int" [] default) default⟩],
    ret := some (.named "Int" [] default),
    body := some (.mk ⟨3, default⟩
      [.expr ⟨4, default⟩
        (.call ⟨5, default⟩ (.ident ⟨6, default⟩ "h") [.ident ⟨7, default⟩ "h"])]) }

/-- A build that records scope 0 as the scope of `g`. -/
def selfApplyBuild : Build :=
  { files := default, tables := { notes := ({} : Notes).setScope 1 0 } }

/-- One call `g(g)` is, after its argument check, the same call `g(g)` one level deeper. -/
theorem selfApply_reenters (sc : Scene) (n : Nat) (span : Span) :
    (callWith sc (n + 1) (.func selfApply (some (.func [.func [] (some .int)] (some .int))))
        [.func selfApply (some (.func [.func [] (some .int)] (some .int)))] span).run.run
        selfApplyBuild =
      (callWith sc n (.func selfApply (some (.func [.func [] (some .int)] (some .int))))
        [.func selfApply (some (.func [.func [] (some .int)] (some .int)))] default).run.run
        selfApplyBuild := by
  have hargs : (checkArgs selfApply.name (some (.func [.func [] (some .int)] (some .int)))
      [.func selfApply (some (.func [.func [] (some .int)] (some .int)))] span).run.run
      selfApplyBuild = (.ok (), selfApplyBuild) := rfl
  have hget : (get : Run Build).run.run selfApplyBuild = (.ok selfApplyBuild, selfApplyBuild) := rfl
  -- the scope notes are a hash map, which only its lemmas read
  have hscope : selfApplyBuild.tables.notes.scopeOf? selfApply.site.id = some 0 := by
    simp [selfApplyBuild, selfApply, Notes.scopeOf?, Notes.setScope]
  have hext : selfApply.isExtern = false := rfl
  have hvars : ((selfApply.params.map (·.name)).zip
      [Value.func selfApply (some (.func [.func [] (some .int)] (some .int)))]).reverse =
      [("h", Value.func selfApply (some (.func [.func [] (some .int)] (some .int))))] := rfl
  have hbody : selfApply.body = some (.mk ⟨3, default⟩
      [.expr ⟨4, default⟩
        (.call ⟨5, default⟩ (.ident ⟨6, default⟩ "h") [.ident ⟨7, default⟩ "h"])]) := rfl
  have hret : DataType.isVoid (some .int) = false := rfl
  have hpure : ∀ {α : Type} (x : α), (pure x : Id α) = x := fun _ => rfl
  simp only [callWith, hext, Bool.false_eq_true, if_false, Run.run_bind, hargs, hget, hscope, hvars,
    hbody, hret, Block.stmts, Walk.block, Walk.expr, Walk.args, identifier, Env.find?, List.lookup,
    beq_self_eq_true, ExceptT.run_pure, StateT.run_pure, hpure]
  -- what is left passes the inner call's outcome through
  rcases (callWith sc n (.func selfApply (some (.func [.func [] (some .int)] (some .int))))
      [.func selfApply (some (.func [.func [] (some .int)] (some .int)))] default).run.run
      selfApplyBuild with ⟨_ | _, _⟩ <;> rfl

/-- `g(g)`, evaluated at compile time, ends with the depth error. -/
theorem selfApply_depthFailed :
    DepthFailed ((callWith ⟨"main", 0, [], ⟨fun _ _ => pure none, fun _ _ => pure ("", none)⟩⟩
      maxCallDepth (.func selfApply (some (.func [.func [] (some .int)] (some .int))))
      [.func selfApply (some (.func [.func [] (some .int)] (some .int)))] default).run.run
      selfApplyBuild).1 :=
  (call_depth_guard _).2.2.2
    (fun fn vals _ b => fn = .func selfApply (some (.func [.func [] (some .int)] (some .int))) ∧
      vals = [.func selfApply (some (.func [.func [] (some .int)] (some .int)))] ∧
      b = selfApplyBuild)
    (fun n fn vals span b ⟨hfn, hvals, hb⟩ =>
      ⟨_, _, default, selfApplyBuild, pure, ⟨rfl, rfl, rfl⟩, by
        rw [hfn, hvals, hb, bind_pure]
        exact selfApply_reenters _ n span⟩)
    _ _ default selfApplyBuild ⟨rfl, rfl, rfl⟩

end Eval

end Abla
