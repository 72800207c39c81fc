import Mathlib
import Abla.Proofs.Service.Confinement

/-!
# What evaluation can change in a build

Evaluating an expression changes the build in three ways only: an import defines symbols in the
executing unit's file scope and reports warnings, a built-in asks the host to compile a unit,
and nothing else is written. So every relation between builds that is a preorder, that holds
across a change of the scopes and the events alone, and that the host's requests keep, relates
the build an evaluation starts from to the one it leaves (`evaluate_moves`).

`Moves R x` says that `x`, run from any build, leaves one that `R` relates to it. The lemmas
follow the evaluator: one per function, each case of an expression or a statement composed from
its parts with `Moves.run_bind`.
-/

namespace Abla

namespace Eval

/-- A relation between builds that evaluation keeps: a preorder that holds across a change of
the scopes and of the events alone. -/
structure Track (R : Build → Build → Prop) : Prop where
  refl : ∀ b, R b b
  trans : ∀ {b b₁ b₂ : Build}, R b b₁ → R b₁ b₂ → R b b₂
  scopes : ∀ (b : Build) (st : Scopes) (events : Array Event),
    R b { b with tables := { b.tables with scopes := st }, events := events }

/-- From every build, `x` leaves one that `R` relates to it. -/
def Moves (R : Build → Build → Prop) {α : Type} (x : StateM Build α) : Prop :=
  ∀ b, R b (x.run b).2

namespace Moves

variable {R : Build → Build → Prop} {α β : Type}

theorem ite {c : Prop} [Decidable c] {x y : StateM Build α} (hx : Moves R x) (hy : Moves R y) :
    Moves R (if c then x else y) := by
  split
  · exact hx
  · exact hy

theorem run_get_bind {f : Build → Run α} (hf : ∀ b, Moves R (f b).run) :
    Moves R (get >>= f).run := fun b => by
  show R b ((get >>= f).run.run b).2
  rw [Run.run_bind, Run.run_get]
  exact hf b b

theorem run_ite {c : Prop} [Decidable c] {x y : Run α} (hx : Moves R x.run) (hy : Moves R y.run) :
    Moves R (if c then x else y).run := by
  split
  · exact hx
  · exact hy

theorem run_liftM {x : StateM Build α} (h : Moves R x) : Moves R (liftM x : Run α).run :=
  fun b => h b

variable (hR : Track R)
include hR


/-- A computation that leaves the build as it found it. -/
theorem of_run {x : StateM Build α} (h : ∀ b, (x.run b).2 = b) : Moves R x := fun b => by
  rw [h b]
  exact hR.refl b

theorem pure (a : α) : Moves R (Pure.pure a : StateM Build α) := of_run hR fun _ => rfl

theorem bind {x : StateM Build α} {f : α → StateM Build β} (hx : Moves R x)
    (hf : ∀ a, Moves R (f a)) : Moves R (x >>= f) := fun b =>
  hR.trans (hx b) (hf _ _)

theorem run_pure (a : α) : Moves R (Pure.pure a : Run α).run := of_run hR fun _ => rfl

theorem run_throw (e : CompileError) : Moves R (throw e : Run α).run := of_run hR fun _ => rfl

theorem run_throw_bind (e : CompileError) (f : α → Run β) : Moves R (throw e >>= f : Run β).run :=
  of_run hR fun _ => rfl

/-- A step of the evaluator, then the rest from the build it leaves; an error ends the run. -/
theorem run_bind {x : Run α} {f : α → Run β} (hx : Moves R x.run) (hf : ∀ a, Moves R (f a).run) :
    Moves R (x >>= f).run := fun b => by
  show R b ((x >>= f).run.run b).2
  rw [Run.run_bind]
  have h₁ := hx b
  rcases h : x.run.run b with ⟨r, b'⟩
  rw [show (x.run.run b).2 = b' by rw [h]] at h₁
  cases r with
  | error e => exact h₁
  | ok a => exact hR.trans h₁ (hf a b')

/-- A loop whose every step moves along `R`. -/
theorem run_forIn {γ : Type} {f : γ → PUnit → Run (ForInStep PUnit)}
    (hf : ∀ a u, Moves R (f a u).run) :
    ∀ (xs : List γ) (u : PUnit), Moves R (ForIn.forIn xs u f).run
  | [], u => run_pure hR u
  | a :: as, u => by
    rw [List.forIn_cons]
    refine run_bind hR (hf a u) fun r => ?_
    cases r with
    | done u' => exact run_pure hR u'
    | yield u' => exact run_forIn hf as u'

/-- A computation with a handler for its errors, whose handler moves along `R`. -/
theorem run_tryCatch {x : Run α} {h : CompileError → Run α} (hx : Moves R x.run)
    (hh : ∀ e, Moves R (h e).run) : Moves R (MonadExcept.tryCatch x h : Run α).run := fun b => by
  show R b ((MonadExcept.tryCatch x h : Run α).run.run b).2
  rw [Run.run_tryCatch]
  have h₁ := hx b
  rcases hr : x.run.run b with ⟨r, b'⟩
  rw [show (x.run.run b).2 = b' by rw [hr]] at h₁
  cases r with
  | ok a => exact h₁
  | error e => exact hR.trans h₁ (hh e b')

end Moves

variable {R : Build → Build → Prop} (hR : Track R)
include hR

/-- Importing a unit changes only the scopes and the events. -/
theorem importUnit_moves (sc : Scene) (name : String) (span : Span) :
    Moves R (importUnit sc name span).run := by
  intro b
  cases hf : b.units.file? name with
  | none =>
    have h : ((importUnit sc name span).run.run b).2 = b := by
      unfold importUnit
      simp only [Run.run_bind, Run.run_get, hf]
      rfl
    rw [h]
    exact hR.refl b
  | some f =>
    cases ht : b.tables.notes.scopeOf? f.site.id with
    | none =>
      have h : ((importUnit sc name span).run.run b).2 = b := by
        unfold importUnit
        simp only [Run.run_bind, Run.run_get, hf, ht]
        rfl
      rw [h]
      exact hR.refl b
    | some table =>
      obtain ⟨ev, hev⟩ := importUnit_ok sc name span hf ht
      rw [hev]
      exact hR.scopes b _ ev

/-- A host whose requests move along `R`. -/
structure HostMoves (R : Build → Build → Prop) (host : Host) : Prop where
  file : ∀ name rs, Moves R (host.compileFile name rs)
  text : ∀ text rs, Moves R (host.compileText text rs)

/-- A caller whose every call moves along `R`. -/
def CallsMove (R : Build → Build → Prop) (call : Caller) : Prop :=
  ∀ fn vals span, Moves R (call fn vals span).run

section Walk

variable {call : Caller}

theorem identifier_moves (env : Env) (span : Span) (name : String) :
    Moves R (identifier env span name).run :=
  Moves.of_run hR fun b => by
    obtain ⟨r, h, -⟩ := identifier_run env span name b
    rw [h]

mutual

/-- Evaluation changes the build only through its calls. -/
theorem Walk.expr_moves (h : CallsMove R call) (env : Env) :
    ∀ e, Moves R (Walk.expr call env e).run
  | .ident s n => by
    rw [Walk.expr]
    exact identifier_moves hR env s.span n
  | .int s t => by
    rw [Walk.expr]
    split
    · exact Moves.run_pure hR _
    · exact Moves.run_throw hR _
  | .str _ ps => by
    rw [Walk.expr]
    exact Moves.run_bind hR (Walk.pieces_moves h env ps) fun _ => Moves.run_pure hR _
  | .call s f as => by
    rw [Walk.expr]
    exact Moves.run_bind hR (Walk.expr_moves h env f) fun fv =>
      Moves.run_bind hR (Walk.args_moves h env as) fun avs => h fv avs s.span
  | .lambda _ b => by
    rw [Walk.expr]
    exact Moves.run_pure hR _
  | .binary s op l r => by
    rw [Walk.expr]
    exact Moves.run_bind hR (Walk.expr_moves h env l) fun _ =>
      Moves.run_bind hR (Walk.expr_moves h env r) fun _ => Moves.of_run hR fun _ => by simp
  | .exec _ e => by
    rw [Walk.expr]
    exact Walk.expr_moves h env e

theorem Walk.pieces_moves (h : CallsMove R call) (env : Env) :
    ∀ ps, Moves R (Walk.pieces call env ps).run
  | [] => by
    rw [Walk.pieces]
    exact Moves.run_pure hR _
  | .text _ :: ps => by
    rw [Walk.pieces]
    exact Moves.run_bind hR (Walk.pieces_moves h env ps) fun _ => Moves.run_pure hR _
  | .interp e :: ps => by
    rw [Walk.pieces]
    refine Moves.run_bind hR (Walk.expr_moves h env e) fun v => ?_
    cases v with
    | void => exact Moves.run_throw hR _
    | int _ | str _ | bool _ | lambda _ _ | func _ _ | builtin _ =>
      exact Moves.run_bind hR (Walk.pieces_moves h env ps) fun _ => Moves.run_pure hR _

theorem Walk.args_moves (h : CallsMove R call) (env : Env) :
    ∀ as, Moves R (Walk.args call env as).run
  | [] => by
    rw [Walk.args]
    exact Moves.run_pure hR _
  | e :: es => by
    rw [Walk.args]
    exact Moves.run_bind hR (Walk.expr_moves h env e) fun _ =>
      Moves.run_bind hR (Walk.args_moves h env es) fun _ => Moves.run_pure hR _

end

theorem Walk.block_moves (h : CallsMove R call) (env : Env) :
    ∀ (sts : List Stmt) (last : Option Value), Moves R (Walk.block call env sts last).run
  | [], _ => by
    rw [Walk.block]
    exact Moves.run_pure hR _
  | .expr _ e :: rest, _ => by
    rw [Walk.block]
    exact Moves.run_bind hR (Walk.expr_moves hR h env e) fun v => Walk.block_moves h env rest _
  | .ret _ none :: _, _ => by
    rw [Walk.block]
    exact Moves.run_pure hR _
  | .ret _ (some e) :: _, _ => by
    rw [Walk.block]
    exact Moves.run_bind hR (Walk.expr_moves hR h env e) fun _ => Moves.run_pure hR _

end Walk

/-- Checking arguments only reads them. -/
theorem checkArgs_moves (name : String) (type : Option DataType) (vals : List Value)
    (span : Span) : Moves R (checkArgs name type vals span).run := by
  unfold checkArgs
  split
  · extract_lets jp
    have hjp : ∀ r, Moves R (jp r).run := by
      intro r
      simp -zeta only [jp]
      refine Moves.run_bind hR (Moves.run_forIn hR (fun a _ => ?_) _ _) fun _ =>
        Moves.run_pure hR _
      obtain ⟨i, v, p⟩ := a
      split
      · split
        · exact Moves.run_throw_bind hR _ _
        · exact Moves.run_pure hR _
      · exact Moves.run_pure hR _
    split
    · exact Moves.run_throw_bind hR _ _
    · exact hjp ()
  · exact Moves.run_pure hR _

/-- A built-in changes the build through the host and an import. -/
theorem runBuiltin_moves (sc : Scene) (hhost : HostMoves R sc.host) (bi : Builtin)
    (vals : List Value) (span : Span) : Moves R (runBuiltin sc bi vals span).run := by
  unfold runBuiltin
  split
  · refine Moves.run_bind hR (Moves.run_liftM (hhost.file _ _)) fun err => ?_
    split
    · exact Moves.run_throw hR _
    · exact Moves.run_bind hR (importUnit_moves hR sc _ span) fun _ => Moves.run_pure hR _
  · refine Moves.run_bind hR (Moves.run_liftM (hhost.text _ _)) fun r => ?_
    obtain ⟨name, err⟩ := r
    dsimp only
    split
    · exact Moves.run_throw hR _
    · exact Moves.run_bind hR (importUnit_moves hR sc _ span) fun _ => Moves.run_pure hR _
  · exact Moves.run_throw hR _

/-- Calls change the build only through built-ins, at every budget. -/
theorem callWith_moves (sc : Scene) (hhost : HostMoves R sc.host) :
    ∀ budget, CallsMove R (callWith sc budget)
  | 0 => fun _ _ _ => Moves.run_throw hR _
  | budget + 1 => fun fn vals span => by
    have hcall := callWith_moves sc hhost budget
    cases fn with
    | builtin bi =>
      simp only [callWith]
      exact Moves.run_bind hR (checkArgs_moves hR _ _ vals span) fun _ =>
        runBuiltin_moves hR sc hhost bi vals span
    | lambda body env =>
      simp only [callWith]
      refine Moves.run_ite (Moves.run_throw_bind hR _ _) ?_
      exact Moves.run_bind hR (Walk.block_moves hR hcall _ _ none) fun _ => Moves.run_pure hR _
    | func f type =>
      simp only [callWith]
      refine Moves.run_ite (Moves.run_throw_bind hR _ _) ?_
      refine Moves.run_bind hR (checkArgs_moves hR _ _ vals span) fun _ => ?_
      refine Moves.run_get_bind fun b => ?_
      split
      · refine Moves.run_bind hR (Walk.block_moves hR hcall _ _ none) fun r => ?_
        split
        · split
          · exact Moves.run_pure hR _
          · split
            · exact Moves.run_pure hR _
            · exact Moves.run_throw hR _
        · exact Moves.run_pure hR _
      · exact Moves.run_throw hR _
    | int _ | str _ | bool _ | void =>
      simp only [callWith]
      exact Moves.run_throw hR _

/-- Evaluating an expression moves along every relation evaluation keeps, when the host's
requests do. -/
theorem evaluate_moves (sc : Scene) (hhost : HostMoves R sc.host) (env : Env) (e : Expr) :
    Moves R (evaluate sc env e).run :=
  Walk.expr_moves hR (callWith_moves hR sc hhost maxCallDepth) env e

end Eval

end Abla
