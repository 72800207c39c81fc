import Mathlib
import Abla.Proofs.Eval.CallDepth

/-!
# Lexical scoping of compile-time evaluation

A name in a function's body means what it means where the function was written. A declared
function's body runs in its parameters alone, bound to the arguments, with the function's own
scope for every other name; a function literal's body runs in an environment that binds nothing
of its own around the one the literal was evaluated in. A name resolves to its innermost
binding, then to the symbol its scope chain gives, then to a built-in.

What an environment makes visible is its scope and the value `find?` gives each name.
`Env.Alike` relates environments that make the same bindings visible, up to `Value.Alike`,
which relates values that differ at most in how the environments of function literals are
built. Evaluation in alike environments gives alike values and leaves the same build
(`Walk.expr_alike`). So a literal's body runs as if in the literal's own environment, and a
call depends on the called value, the arguments, the budget and the build, and on the span of
the call only for the span its errors point at (`callWith_succ_alike`).

The main statement is `lexical_scoping`. The build is part of what a call reads: a built-in run
between two calls of one function may bring into a file scope a symbol that a name of the
function's body resolved past before (`import_rebinds_name`).
-/

namespace Abla

/-- Values that differ at most in how the environments of function literals are built: the
same value, or one literal over environments that resolve names in one scope and bind every
name to alike values. -/
inductive Value.Alike : Value → Value → Prop
  | refl (v : Value) : Value.Alike v v
  | lambda (body : Block) {e e' : Env} (scope : e.scope = e'.scope)
      (find? : ∀ x, Option.Rel Value.Alike (e.find? x) (e'.find? x)) :
      Value.Alike (.lambda body e) (.lambda body e')

/-- Environments that make the same bindings visible: they resolve names in one scope and bind
every name to alike values. -/
structure Env.Alike (e e' : Env) : Prop where
  scope : e.scope = e'.scope
  find? : ∀ x, Option.Rel Value.Alike (e.find? x) (e'.find? x)

namespace Value.Alike

variable {v v' : Value}

theorem of_env (body : Block) {e e' : Env} (h : Env.Alike e e') :
    Value.Alike (.lambda body e) (.lambda body e') :=
  .lambda body h.scope h.find?

theorem eq_or_lambda (h : Value.Alike v v') :
    v = v' ∨ ∃ body e e', v = .lambda body e ∧ v' = .lambda body e' := by
  cases h with
  | refl => exact .inl rfl
  | lambda body _ _ => exact .inr ⟨body, _, _, rfl, rfl⟩

/-- Alike values have one type: a literal's type does not depend on its environment. -/
theorem type_eq (h : Value.Alike v v') : v.type = v'.type := by
  cases h <;> rfl

theorem render_eq (h : Value.Alike v v') : v.render = v'.render := by
  cases h <;> rfl

theorem eq_of_not_lambda (h : Value.Alike v v') (hv : ∀ body e, v ≠ .lambda body e) : v = v' := by
  rcases h.eq_or_lambda with h | ⟨body, e, _, rfl, _⟩
  · exact h
  · exact absurd rfl (hv body e)

end Value.Alike

theorem Value.Alike.refl_forall₂ (vals : List Value) : List.Forall₂ Value.Alike vals vals :=
  List.forall₂_same.2 fun v _ => .refl v

theorem Option.rel_alike_refl (o : Option Value) : Option.Rel Value.Alike o o := by
  cases o with
  | none => exact .none
  | some v => exact .some (.refl v)

theorem Env.Alike.refl (e : Env) : Env.Alike e e :=
  ⟨rfl, fun x => Option.rel_alike_refl (e.find? x)⟩

@[simp] theorem Env.scope_mk (vars : List (String × Value)) (s : ScopeId) (o : Option Env) :
    (Env.mk vars s o).scope = s := rfl

/-- An environment that binds nothing of its own sees what the one around it sees. -/
@[simp] theorem Env.find?_enclose (e : Env) (s : ScopeId) (x : String) :
    (Env.mk [] s (some e)).find? x = e.find? x := rfl

theorem Env.find?_top (vars : List (String × Value)) (s : ScopeId) (x : String) :
    (Env.mk vars s none).find? x = vars.lookup x := by
  simp only [Env.find?]
  cases vars.lookup x <;> rfl

/-- The environment a literal's body runs in makes visible what the literal's own environment
does. -/
theorem Env.Alike.enclose (e : Env) : Env.Alike (.mk [] e.scope (some e)) e :=
  ⟨rfl, fun x => by rw [Env.find?_enclose]; exact Option.rel_alike_refl _⟩

theorem Env.Alike.enclose_congr {e e' : Env} (h : Env.Alike e e') :
    Env.Alike (.mk [] e.scope (some e)) (.mk [] e'.scope (some e')) :=
  ⟨h.scope, fun x => by simpa using h.find? x⟩

/-- Binding one list of names to alike values makes alike bindings, whichever binding of a
repeated name wins. -/
theorem lookup_alike {l l' : List (String × Value)}
    (h : List.Forall₂ (fun p q => p.1 = q.1 ∧ Value.Alike p.2 q.2) l l') (x : String) :
    Option.Rel Value.Alike (l.lookup x) (l'.lookup x) := by
  induction h with
  | nil => exact .none
  | cons hpq _ ih =>
    rename_i p q _ _
    obtain ⟨hk, hv⟩ := hpq
    rw [List.lookup_cons, List.lookup_cons, hk]
    split
    · exact .some hv
    · exact ih

theorem forall₂_zip {α α' β β' : Type} {R : α → α' → Prop} {S : β → β' → Prop}
    {as : List α} {as' : List α'} (h : List.Forall₂ R as as') :
    ∀ {bs : List β} {bs' : List β'}, List.Forall₂ S bs bs' →
      List.Forall₂ (fun p q => R p.1 q.1 ∧ S p.2 q.2) (as.zip bs) (as'.zip bs') := by
  induction h with
  | nil => exact fun _ => by simp
  | cons hr _ ih =>
    intro bs bs' hs
    cases hs with
    | nil => simp
    | cons hs hl => exact .cons ⟨hr, hs⟩ (ih hl)

theorem forall₂_eq_self {α : Type} (l : List α) : List.Forall₂ Eq l l :=
  List.forall₂_same.2 fun _ _ => rfl

/-- The environments of one function's body, its parameters bound to alike arguments. -/
theorem Env.Alike.params (names : List String) (s : ScopeId) {vals vals' : List Value}
    (h : List.Forall₂ Value.Alike vals vals') :
    Env.Alike (.mk (names.zip vals).reverse s none) (.mk (names.zip vals').reverse s none) :=
  ⟨rfl, fun x => by
    rw [Env.find?_top, Env.find?_top]
    exact lookup_alike (List.rel_reverse (forall₂_zip (forall₂_eq_self names) h)) x⟩

namespace Eval

section Agree

variable {α β γ δ : Type} {E E' : CompileError → CompileError → Prop}
  {R S : α → β → Prop}

/-- Outcomes that leave the same build, with results related by `R` or errors related by
`E`. -/
def Agrees (E : CompileError → CompileError → Prop) (R : α → β → Prop) :
    Except CompileError α × Build → Except CompileError β × Build → Prop
  | (.ok a, b), (.ok a', b') => R a a' ∧ b = b'
  | (.error e, b), (.error e', b') => E e e' ∧ b = b'
  | _, _ => False

/-- Computations whose outcomes agree from every build. -/
def Run.Alike (E : CompileError → CompileError → Prop) (R : α → β → Prop) (x : Run α)
    (y : Run β) : Prop :=
  ∀ b, Agrees E R (x.run.run b) (y.run.run b)

namespace Run.Alike

theorem refl (hE : ∀ e, E e e) {R : α → α → Prop} (hR : ∀ a, R a a) (x : Run α) :
    Run.Alike E R x x := fun b => by
  rcases x.run.run b with ⟨_ | a, b'⟩
  · exact ⟨hE _, rfl⟩
  · exact ⟨hR a, rfl⟩

theorem pure {a : α} {a' : β} (h : R a a') : Run.Alike E R (Pure.pure a) (Pure.pure a') :=
  fun _ => ⟨h, rfl⟩

theorem throw {e e' : CompileError} (h : E e e') :
    Run.Alike E R (MonadExcept.throw e : Run α) (MonadExcept.throw e' : Run β) :=
  fun _ => ⟨h, rfl⟩

theorem mono (hE : ∀ e e', E e e' → E' e e') (hR : ∀ a a', R a a' → S a a') {x : Run α}
    {y : Run β} (h : Run.Alike E R x y) : Run.Alike E' S x y := fun b => by
  have hb := h b
  revert hb
  rcases x.run.run b with ⟨_ | a, b₁⟩ <;> rcases y.run.run b with ⟨_ | a', b₂⟩
  · rintro ⟨he, hb⟩
    exact ⟨hE _ _ he, hb⟩
  · exact False.elim
  · exact False.elim
  · rintro ⟨hr, hb⟩
    exact ⟨hR _ _ hr, hb⟩

/-- Agreeing first steps, followed by steps that agree on related results, agree. -/
theorem bind {R' : γ → δ → Prop} {x : Run α} {y : Run β} {f : α → Run γ} {g : β → Run δ}
    (hx : Run.Alike E R x y) (hf : ∀ a a', R a a' → Run.Alike E R' (f a) (g a')) :
    Run.Alike E R' (x >>= f) (y >>= g) := fun b => by
  rw [Run.run_bind, Run.run_bind]
  have hb := hx b
  revert hb
  rcases x.run.run b with ⟨_ | a, b₁⟩ <;> rcases y.run.run b with ⟨_ | a', b₂⟩
  · exact id
  · exact False.elim
  · exact False.elim
  · rintro ⟨hr, rfl⟩
    exact hf a a' hr b₁

theorem get_bind {f : Build → Run α} {g : Build → Run β} (h : ∀ b, Run.Alike E R (f b) (g b)) :
    Run.Alike E R (MonadState.get >>= f) (MonadState.get >>= g) :=
  fun b => h b b

theorem ite {c : Prop} [Decidable c] {x₁ y₁ : Run α} {x₂ y₂ : Run β} (hx : Run.Alike E R x₁ x₂)
    (hy : Run.Alike E R y₁ y₂) :
    Run.Alike E R (if c then x₁ else y₁) (if c then x₂ else y₂) := by
  split
  · exact hx
  · exact hy

/-- Loops over related lists, whose bodies agree on related elements, agree. -/
theorem forIn {P : γ → δ → Prop} {f : γ → α → Run (ForInStep α)} {g : δ → α → Run (ForInStep α)}
    (hfg : ∀ a a' s, P a a' → Run.Alike E Eq (f a s) (g a' s)) :
    ∀ {l : List γ} {l' : List δ}, List.Forall₂ P l l' → ∀ s,
      Run.Alike E Eq (ForIn.forIn l s f) (ForIn.forIn l' s g)
  | [], [], .nil, _ => .pure rfl
  | a :: _, a' :: _, .cons hp hl, s => by
    rw [List.forIn_cons, List.forIn_cons]
    refine (hfg a a' s hp).bind fun r r' hr => ?_
    subst hr
    cases r with
    | done s' => exact .pure rfl
    | yield s' => exact Run.Alike.forIn hfg hl s'

end Run.Alike

end Agree

/-- `E` relates the errors a call reports at its own span, once at `sp` and once at `sp'`. -/
def AtSites (E : CompileError → CompileError → Prop) (sp sp' : Span) : Prop :=
  ∀ (k : ErrorKind) (msg : String),
    E { kind := k, span := some sp, message := msg } { kind := k, span := some sp', message := msg }

theorem atSites_eq (sp : Span) : AtSites Eq sp sp := fun _ _ => rfl

variable {E : CompileError → CompileError → Prop}

theorem Run.Alike.execError {α β : Type} {R : α → β → Prop} {sp sp' : Span}
    (hsite : AtSites E sp sp') (msg : String) :
    Run.Alike E R (execError sp msg : Run α) (execError sp' msg : Run β) :=
  Run.Alike.throw (hsite .execution msg)

theorem Run.Alike.internalError {α β : Type} {R : α → β → Prop} {sp sp' : Span}
    (hsite : AtSites E sp sp') (msg : String) :
    Run.Alike E R (internalError sp msg : Run α) (internalError sp' msg : Run β) :=
  Run.Alike.throw (hsite .internalState msg)

/-- A failure at the call's own span stops what follows it. -/
theorem Run.Alike.execError_bind {α β γ δ : Type} {R : γ → δ → Prop} {sp sp' : Span}
    (hsite : AtSites E sp sp') (msg : String) {f : α → Run γ} {g : β → Run δ} :
    Run.Alike E R (Eval.execError sp msg >>= f) (Eval.execError sp' msg >>= g) :=
  (Run.Alike.execError (R := fun _ _ => False) hsite msg).bind fun _ _ h => h.elim

/-- An operator reads only what alike values share. -/
theorem binary_alike {l l' r r' : Value} (hl : Value.Alike l l') (hr : Value.Alike r r')
    (span : Span) (op : BinOp) : binary span op l r = binary span op l' r' := by
  rcases hl.eq_or_lambda with rfl | ⟨b₁, e₁, e₁', rfl, rfl⟩ <;>
    rcases hr.eq_or_lambda with rfl | ⟨b₂, e₂, e₂', rfl, rfl⟩
  · rfl
  · cases l <;> rfl
  · cases r <;> rfl
  · rfl

/-- Arguments are checked by their types alone, and alike arguments have one type each. -/
theorem checkArgs_alike {sp sp' : Span} (hsite : AtSites E sp sp') (name : String)
    (type : Option DataType) {vals vals' : List Value} (hvals : List.Forall₂ Value.Alike vals vals') :
    Run.Alike E Eq (checkArgs name type vals sp) (checkArgs name type vals' sp') := by
  have hlen : vals.length = vals'.length := hvals.length_eq
  unfold checkArgs
  split
  · rename_i params _
    rw [hlen]
    extract_lets jp jp'
    -- the loop visits each argument with its number and its parameter
    have hloop : List.Forall₂ (fun a a' => a.1 = a'.1 ∧ Value.Alike a.2.1 a'.2.1 ∧ a.2.2 = a'.2.2)
        ((List.range vals'.length).zip (vals.zip params))
        ((List.range vals'.length).zip (vals'.zip params)) :=
      forall₂_zip (forall₂_eq_self _) (forall₂_zip hvals (forall₂_eq_self params))
    have hjp : Run.Alike E Eq (jp ()) (jp' ()) := by
      refine (Run.Alike.forIn (fun a a' s ha => ?_) hloop _).bind fun _ _ _ => .pure rfl
      obtain ⟨i, v, p⟩ := a
      obtain ⟨i', v', p'⟩ := a'
      obtain ⟨rfl, hv, rfl⟩ := ha
      simp only [hv.type_eq]
      cases p with
      | prim q =>
        exact Run.Alike.ite ((Run.Alike.execError (R := fun _ _ => False) hsite _).bind
          fun _ _ h => h.elim) (.pure rfl)
      | _ => exact .pure rfl
    exact Run.Alike.ite ((Run.Alike.execError (R := fun _ _ => False) hsite _).bind
      fun _ _ h => h.elim) hjp
  · exact .pure rfl

/-- A built-in given something other than one string fails at once. -/
theorem runBuiltin_of_ne (sc : Scene) (bi : Builtin) {vals : List Value} (span : Span)
    (h : ∀ s, vals ≠ [.str s]) :
    runBuiltin sc bi vals span = internalError span ("bad arguments to `" ++ bi.name ++ "`") := by
  unfold runBuiltin
  split
  · exact absurd rfl (h _)
  · exact absurd rfl (h _)
  · rfl

/-- A string is alike only to itself, so a built-in reads alike arguments alike. -/
theorem runBuiltin_alike (sc : Scene) (bi : Builtin) {vals vals' : List Value}
    (h : List.Forall₂ Value.Alike vals vals') (span : Span) :
    runBuiltin sc bi vals span = runBuiltin sc bi vals' span := by
  have hstr : ∀ {v v' : Value} (s : String), Value.Alike v v' → (v = .str s ↔ v' = .str s) := by
    intro v v' s hv
    rcases hv.eq_or_lambda with rfl | ⟨_, _, _, rfl, rfl⟩
    · exact Iff.rfl
    · simp
  have hone : ∀ s, vals = [.str s] ↔ vals' = [.str s] := by
    intro s
    cases h with
    | nil => simp
    | cons hv hl =>
      cases hl with
      | nil => simpa using hstr s hv
      | cons => simp
  by_cases hs : ∃ s, vals = [.str s]
  · obtain ⟨s, hs⟩ := hs
    rw [hs, (hone s).1 hs]
  · have hs' : ∀ s, vals' ≠ [.str s] := fun s h' => hs ⟨s, (hone s).2 h'⟩
    rw [runBuiltin_of_ne sc bi span fun s h' => hs ⟨s, h'⟩, runBuiltin_of_ne sc bi span hs']

/-- A name resolves alike in environments that make the same bindings visible: to alike bound
values, or through the one scope both resolve names in. -/
theorem identifier_alike {e₁ e₂ : Env} (he : Env.Alike e₁ e₂) (span : Span) (name : String) :
    Run.Alike Eq Value.Alike (identifier e₁ span name) (identifier e₂ span name) := by
  have hrel := he.find? name
  unfold identifier
  rw [← he.scope]
  revert hrel
  generalize e₁.find? name = o₁
  generalize e₂.find? name = o₂
  intro hrel
  cases hrel with
  | none => exact Run.Alike.refl (fun _ => rfl) Value.Alike.refl _
  | some hv => exact .pure hv

/-- Callers that give alike outcomes for alike functions on alike arguments at one span. -/
def CallsAlike (c₁ c₂ : Caller) : Prop :=
  ∀ {fn fn' : Value} {vals vals' : List Value} (span : Span), Value.Alike fn fn' →
    List.Forall₂ Value.Alike vals vals' →
      Run.Alike Eq Value.Alike (c₁ fn vals span) (c₂ fn' vals' span)

section Walk

variable {c₁ c₂ : Caller}

mutual

/-- An expression evaluated in environments that make the same bindings visible, with callers
that call alike, gives alike values and leaves the same build. -/
theorem Walk.expr_alike (h : CallsAlike c₁ c₂) {e₁ e₂ : Env} (he : Env.Alike e₁ e₂) :
    ∀ ex, Run.Alike Eq Value.Alike (Walk.expr c₁ e₁ ex) (Walk.expr c₂ e₂ ex)
  | .ident s n => by
    rw [Walk.expr, Walk.expr]
    exact identifier_alike he s.span n
  | .int s t => by
    rw [Walk.expr, Walk.expr]
    exact Run.Alike.refl (fun _ => rfl) Value.Alike.refl _
  | .str _ ps => by
    rw [Walk.expr, Walk.expr]
    exact (Walk.pieces_alike h he ps).bind fun _ _ hs => by
      subst hs
      exact .pure (.refl _)
  | .call s f as => by
    rw [Walk.expr, Walk.expr]
    exact (Walk.expr_alike h he f).bind fun _ _ hf =>
      (Walk.args_alike h he as).bind fun _ _ ha => h s.span hf ha
  | .lambda _ b => by
    rw [Walk.expr, Walk.expr]
    -- a literal closes over the environment it is evaluated in
    exact .pure (.of_env b he)
  | .binary s op l r => by
    rw [Walk.expr, Walk.expr]
    refine (Walk.expr_alike h he l).bind fun _ _ hl =>
      (Walk.expr_alike h he r).bind fun _ _ hr => ?_
    rw [binary_alike hl hr]
    exact Run.Alike.refl (fun _ => rfl) Value.Alike.refl _
  | .exec _ e => by
    rw [Walk.expr, Walk.expr]
    exact Walk.expr_alike h he e

theorem Walk.pieces_alike (h : CallsAlike c₁ c₂) {e₁ e₂ : Env} (he : Env.Alike e₁ e₂) :
    ∀ ps, Run.Alike Eq Eq (Walk.pieces c₁ e₁ ps) (Walk.pieces c₂ e₂ ps)
  | [] => by
    rw [Walk.pieces, Walk.pieces]
    exact .pure rfl
  | .text _ :: ps => by
    rw [Walk.pieces, Walk.pieces]
    exact (Walk.pieces_alike h he ps).bind fun _ _ hs => by
      subst hs
      exact .pure rfl
  | .interp e :: ps => by
    rw [Walk.pieces, Walk.pieces]
    refine (Walk.expr_alike h he e).bind fun v v' hv => ?_
    -- alike values are `Void` together and render alike
    rcases hv.eq_or_lambda with rfl | ⟨_, _, _, rfl, rfl⟩
    · cases v with
      | void => exact Run.Alike.refl (fun _ => rfl) (fun _ => rfl) _
      | _ =>
        exact (Walk.pieces_alike h he ps).bind fun _ _ hs => by
          subst hs
          exact .pure rfl
    · exact (Walk.pieces_alike h he ps).bind fun _ _ hs => by
        subst hs
        exact .pure rfl

theorem Walk.args_alike (h : CallsAlike c₁ c₂) {e₁ e₂ : Env} (he : Env.Alike e₁ e₂) :
    ∀ as, Run.Alike Eq (List.Forall₂ Value.Alike) (Walk.args c₁ e₁ as) (Walk.args c₂ e₂ as)
  | [] => by
    rw [Walk.args, Walk.args]
    exact .pure .nil
  | e :: es => by
    rw [Walk.args, Walk.args]
    exact (Walk.expr_alike h he e).bind fun _ _ hv =>
      (Walk.args_alike h he es).bind fun _ _ hvs => .pure (.cons hv hvs)

end

theorem Walk.block_alike (h : CallsAlike c₁ c₂) {e₁ e₂ : Env} (he : Env.Alike e₁ e₂) :
    ∀ sts {last last' : Option Value}, Option.Rel Value.Alike last last' →
      Run.Alike Eq (Option.Rel Value.Alike) (Walk.block c₁ e₁ sts last)
        (Walk.block c₂ e₂ sts last')
  | [], _, _, hl => by
    rw [Walk.block, Walk.block]
    exact .pure hl
  | .expr _ e :: rest, _, _, _ => by
    rw [Walk.block, Walk.block]
    exact (Walk.expr_alike h he e).bind fun _ _ hv => Walk.block_alike h he rest (.some hv)
  | .ret _ none :: _, _, _, _ => by
    rw [Walk.block, Walk.block]
    exact .pure (.some (.refl _))
  | .ret _ (some e) :: _, _, _, _ => by
    rw [Walk.block, Walk.block]
    exact (Walk.expr_alike h he e).bind fun _ _ hv => .pure (.some hv)

end Walk

theorem getD_alike {r r' : Option Value} (h : Option.Rel Value.Alike r r') (d : Value) :
    Value.Alike (r.getD d) (r'.getD d) := by
  cases h with
  | none => exact .refl d
  | some hv => exact hv

/-- Calls at every budget call alike: a function's body runs with calls one budget lower, in
environments that make the same bindings visible. -/
theorem callWith_alike (sc : Scene) (n : Nat) : CallsAlike (callWith sc n) (callWith sc n) := by
  induction n with
  | zero => exact fun span _ _ => Run.Alike.execError (atSites_eq span) _
  | succ n hin =>
    intro fn fn' vals vals' span hfn hvals
    have hsite := atSites_eq span
    have hlen := hvals.length_eq
    cases hfn with
    | refl fn =>
      cases fn with
      | builtin bi =>
        simp only [callWith]
        refine (checkArgs_alike hsite _ _ hvals).bind fun _ _ _ => ?_
        rw [runBuiltin_alike sc bi hvals]
        exact Run.Alike.refl (fun _ => rfl) Value.Alike.refl _
      | lambda body env =>
        simp only [callWith]
        rw [hlen]
        exact Run.Alike.ite (.execError_bind hsite _)
          ((Walk.block_alike hin (Env.Alike.refl _) body.stmts .none).bind fun _ _ hr =>
            .pure (getD_alike hr _))
      | func f type =>
        simp only [callWith]
        -- the arguments bind the parameters alike, in the scope recorded for the function
        refine Run.Alike.ite (.execError_bind hsite _)
          ((checkArgs_alike hsite f.name type hvals).bind fun _ _ _ =>
            Run.Alike.get_bind fun b => ?_)
        split
        · refine (Walk.block_alike hin (Env.Alike.params _ _ hvals) _ .none).bind
            fun r r' hr => ?_
          split
          · split
            · exact .pure (.refl _)
            · cases hr with
              | none => exact Run.Alike.execError hsite _
              | some hv => exact .pure hv
          · exact .pure (.refl _)
        · exact Run.Alike.internalError hsite _
      | int _ | str _ | bool _ | void =>
        simp only [callWith]
        exact Run.Alike.execError hsite _
    | lambda body hscope hfind =>
      simp only [callWith]
      rw [hlen]
      exact Run.Alike.ite (.execError_bind hsite _)
        ((Walk.block_alike hin (Env.Alike.enclose_congr ⟨hscope, hfind⟩) body.stmts .none).bind
          fun _ _ hr => .pure (getD_alike hr _))

@[simp] theorem Run.run_get (b : Build) : (MonadState.get : Run Build).run.run b = (.ok b, b) :=
  rfl

section Sites

/-- Errors that differ at most in the span they point at, and point at a span together or not
at all. -/
structure CompileError.Relocated (e e' : CompileError) : Prop where
  kind : e.kind = e'.kind
  file : e.file = e'.file
  message : e.message = e'.message
  located : e.span.isSome = e'.span.isSome

theorem CompileError.Relocated.refl (e : CompileError) : CompileError.Relocated e e :=
  ⟨rfl, rfl, rfl, rfl⟩

theorem CompileError.Relocated.symm {e e' : CompileError} (h : CompileError.Relocated e e') :
    CompileError.Relocated e' e :=
  ⟨h.kind.symm, h.file.symm, h.message.symm, h.located.symm⟩

theorem atSites_relocated (sp sp' : Span) : AtSites CompileError.Relocated sp sp' :=
  fun _ _ => ⟨rfl, rfl, rfl, rfl⟩

/-- The depth error moved to another span is the depth error. -/
theorem DepthFailed.relocated {α β : Type} {e e' : CompileError}
    (h : CompileError.Relocated e e') (hd : DepthFailed (.error e : Except CompileError α)) :
    DepthFailed (.error e' : Except CompileError β) := by
  obtain ⟨sp, rfl⟩ := hd
  obtain ⟨sp', hsp'⟩ := Option.isSome_iff_exists.1 (h.located.symm.trans rfl)
  refine ⟨sp', ?_⟩
  obtain ⟨kind, file, span, message⟩ := e'
  obtain ⟨hk, hf, hm, -⟩ := h
  simp only at hsp' hk hf hm
  subst hsp' hk hf hm
  rfl

variable {α β : Type} {R : α → β → Prop} {r : Except CompileError α × Build}
  {r' : Except CompileError β × Build}

theorem Agrees.depthFailed (h : Agrees CompileError.Relocated R r r') (hd : DepthFailed r.1) :
    DepthFailed r'.1 := by
  rcases r with ⟨_ | a, b⟩ <;> rcases r' with ⟨_ | a', b'⟩
  · exact DepthFailed.relocated h.1 hd
  · exact h.elim
  · exact h.elim
  · exact hd.elim

theorem Agrees.depthFailed_left (h : Agrees CompileError.Relocated R r r')
    (hd : DepthFailed r'.1) : DepthFailed r.1 := by
  rcases r with ⟨_ | a, b⟩ <;> rcases r' with ⟨_ | a', b'⟩
  · exact DepthFailed.relocated h.1.symm hd
  · exact h.elim
  · exact h.elim
  · exact hd.elim

end Sites

/-- A call of a function with a body reads the span of the call only for the errors it
reports there. -/
theorem callWith_succ_span (sc : Scene) (n : Nat) {fn : Value} (hbody : ∀ bi, fn ≠ .builtin bi)
    (vals : List Value) (sp sp' : Span) :
    Run.Alike CompileError.Relocated Eq (callWith sc (n + 1) fn vals sp)
      (callWith sc (n + 1) fn vals sp') := by
  have hsite := atSites_relocated sp sp'
  -- the body runs the same from both sites
  have hwalk : ∀ env sts, Run.Alike CompileError.Relocated Eq
      (Walk.block (callWith sc n) env sts none) (Walk.block (callWith sc n) env sts none) :=
    fun _ _ => Run.Alike.refl CompileError.Relocated.refl (fun _ => rfl) _
  cases fn with
  | builtin bi => exact absurd rfl (hbody bi)
  | lambda body env =>
    simp only [callWith]
    exact Run.Alike.ite (.execError_bind hsite _)
      ((hwalk _ _).bind fun _ _ hr => by
        subst hr
        exact .pure rfl)
  | func f type =>
    simp only [callWith]
    refine Run.Alike.ite (.execError_bind hsite _)
      ((checkArgs_alike hsite f.name type (Value.Alike.refl_forall₂ vals)).bind
        fun _ _ _ => Run.Alike.get_bind fun b => ?_)
    split
    · refine (hwalk _ _).bind fun r r' hr => ?_
      subst hr
      split
      · split
        · exact .pure rfl
        · split
          · exact .pure rfl
          · exact Run.Alike.execError hsite _
      · exact .pure rfl
    · exact Run.Alike.internalError hsite _
  | int _ | str _ | bool _ | void =>
    simp only [callWith]
    exact Run.Alike.execError hsite _

/-- Two calls of one function with a body on the same arguments, from one build, at any two
spans and with any two budgets: unless one of them stops at the depth limit, they leave the same
build and give the same value, or the same error up to the span it points at. -/
theorem call_sites_agree (sc : Scene) {fn : Value} (hbody : ∀ bi, fn ≠ .builtin bi)
    (vals : List Value) (n n' : Nat) (sp sp' : Span) (b : Build)
    (h₁ : ¬ DepthFailed ((callWith sc n fn vals sp).run.run b).1)
    (h₂ : ¬ DepthFailed ((callWith sc n' fn vals sp').run.run b).1) :
    Agrees CompileError.Relocated Eq ((callWith sc n fn vals sp).run.run b)
      ((callWith sc n' fn vals sp').run.run b) := by
  -- with one budget, the calls agree
  have hsame : ∀ m, Agrees CompileError.Relocated Eq
      ((callWith sc m fn vals sp).run.run b) ((callWith sc m fn vals sp').run.run b) := by
    intro m
    cases m with
    | zero => exact Run.Alike.execError (atSites_relocated sp sp') _ b
    | succ m => exact callWith_succ_span sc m hbody vals sp sp' b
  -- the call with the larger budget gives what it gives with the smaller one
  rcases le_total n n' with hle | hle
  · rcases callWith_upTo sc hle fn vals sp' b with hd | heq
    · exact absurd ((hsame n).depthFailed_left hd) h₁
    · rw [← heq]
      exact hsame n
  · rcases callWith_upTo sc hle fn vals sp b with hd | heq
    · exact absurd ((hsame n').depthFailed hd) h₂
    · rw [← heq]
      exact hsame n'

/-- A literal's body runs, whenever and wherever the literal is called, as if in the
environment the literal was evaluated in. -/
theorem callWith_lambda (sc : Scene) (n : Nat) (body : Block) (e : Env) (span : Span) :
    Run.Alike Eq Value.Alike (callWith sc (n + 1) (.lambda body e) [] span)
      (Walk.block (callWith sc n) e body.stmts none >>= fun r => pure (r.getD (.int 1))) := by
  simp only [callWith, List.length_nil, Nat.lt_irrefl, if_false]
  exact (Walk.block_alike (callWith_alike sc n) (Env.Alike.enclose e) body.stmts .none).bind
    fun _ _ hr => .pure (getD_alike hr _)

/-- What a call binds a name to: the argument of the last parameter of that name. -/
def paramBinding : List String → List Value → String → Option Value
  | n :: ns, v :: vs, x => (paramBinding ns vs x).or (if n = x then some v else none)
  | _, _, _ => none

theorem lookup_params (names : List String) (vals : List Value) (x : String) :
    ((names.zip vals).reverse).lookup x = paramBinding names vals x := by
  induction names generalizing vals with
  | nil => simp [paramBinding]
  | cons n ns ih =>
    cases vals with
    | nil => simp [paramBinding]
    | cons v vs =>
      rw [List.zip_cons_cons, List.reverse_cons, List.lookup_append, ih, paramBinding]
      congr 1
      by_cases h : n = x
      · subst h
        simp
      · simp [h, Ne.symm h]

/-- A declared function's body runs in its parameters alone. A call that passes its checks, of
a function whose scope is recorded, runs the body as if in any environment of that scope that
binds exactly the parameters, each to its argument, and goes on from the body's result. -/
theorem callWith_func (sc : Scene) (n : Nat) (f : FuncDecl) (type : Option DataType)
    (vals : List Value) (span : Span) :
    ∃ k : Option Value → Run Value, ∀ (b : Build) (s : ScopeId) (E : Env),
      f.isExtern = false → (checkArgs f.name type vals span).run.run b = (.ok (), b) →
      b.tables.notes.scopeOf? f.site.id = some s → E.scope = s →
      (∀ x, E.find? x = paramBinding (f.params.map (·.name)) vals x) →
      Agrees Eq Value.Alike ((callWith sc (n + 1) (.func f type) vals span).run.run b)
        ((Walk.block (callWith sc n) E ((f.body.map Block.stmts).getD []) none >>= k).run.run b) := by
  -- the call walks the body in the environment of its parameters, then goes on from the
  -- body's result, reading only what alike results share
  obtain ⟨k, hk, hresp⟩ : ∃ k : Option Value → Run Value,
      (∀ b s, f.isExtern = false → (checkArgs f.name type vals span).run.run b = (.ok (), b) →
        b.tables.notes.scopeOf? f.site.id = some s →
        (callWith sc (n + 1) (.func f type) vals span).run.run b =
          (Walk.block (callWith sc n) (.mk ((f.params.map (·.name)).zip vals).reverse s none)
            ((f.body.map Block.stmts).getD []) none >>= k).run.run b) ∧
      ∀ r r', Option.Rel Value.Alike r r' → Run.Alike Eq Value.Alike (k r) (k r') := by
    refine ⟨?k, fun b s hext hcheck hscope => ?eq, fun r r' hr => ?resp⟩
    case eq =>
      simp only [callWith, hext, Bool.false_eq_true, if_false]
      rw [Run.run_bind, hcheck]
      dsimp only
      rw [Run.run_bind, Run.run_get]
      dsimp only
      rw [hscope]
      dsimp only
      cases f.body <;> rfl
    case resp =>
      split
      · split
        · exact .pure (.refl _)
        · cases hr with
          | none => exact Run.Alike.refl (fun _ => rfl) Value.Alike.refl _
          | some hv => exact .pure hv
      · exact .pure (.refl _)
  refine ⟨k, fun b s E hext hcheck hscope hs hfind => ?_⟩
  -- the environment the call builds binds what `E` binds
  have henv : Env.Alike (.mk ((f.params.map (·.name)).zip vals).reverse s none) E :=
    ⟨hs.symm, fun x => by
      rw [Env.find?_top, lookup_params, ← hfind]
      exact Option.rel_alike_refl _⟩
  rw [hk b s hext hcheck hscope]
  exact (Walk.block_alike (callWith_alike sc n) henv _ .none).bind hresp b

/-- What a name denotes in an environment, over the scopes `t`: its innermost binding; else
the symbol the chain of scopes from the environment's scope gives, a function, or an error for
a function without its declaration, a parameter or a type; else a built-in; else nothing. -/
inductive Resolves (t : Scopes) (env : Env) (span : Span) (name : String) :
    Except CompileError Value → Prop
  | bound {v : Value} : env.find? name = some v → Resolves t env span name (.ok v)
  | func {sym : Symbol} {f : FuncDecl} : env.find? name = none →
      t.lookup env.scope name = some sym → sym.kind = .func → sym.decl = some f →
      Resolves t env span name (.ok (.func f (funcType? sym.type)))
  | undeclared {sym : Symbol} : env.find? name = none → t.lookup env.scope name = some sym →
      sym.kind = .func → sym.decl = none →
      Resolves t env span name
        (.error { kind := .internalState, span := some span,
                  message := "symbol `" ++ name ++ "` has no declaration" })
  | param {sym : Symbol} : env.find? name = none → t.lookup env.scope name = some sym →
      sym.kind = .param →
      Resolves t env span name
        (.error (execFailure span ("parameter `" ++ name ++ "` has no value at compile time")))
  | type {sym : Symbol} : env.find? name = none → t.lookup env.scope name = some sym →
      sym.kind = .type →
      Resolves t env span name (.error (execFailure span ("`" ++ name ++ "` is a type, not a value")))
  | builtin {b : Builtin} : env.find? name = none → t.lookup env.scope name = none →
      Builtin.byName? name = some b → Resolves t env span name (.ok (.builtin b))
  | unresolved : env.find? name = none → t.lookup env.scope name = none →
      Builtin.byName? name = none →
      Resolves t env span name
        (.error { kind := .unresolved, span := some span,
                  message := "undefined symbol: `" ++ name ++ "`" })

/-- A name denotes one thing. -/
theorem Resolves.unique {t : Scopes} {env : Env} {span : Span} {name : String}
    {r r' : Except CompileError Value} (h : Resolves t env span name r)
    (h' : Resolves t env span name r') : r = r' := by
  cases h <;> cases h' <;> simp_all

/-- Resolving a name reads the build and changes nothing. -/
theorem identifier_run (env : Env) (span : Span) (name : String) (b : Build) :
    ∃ r, (identifier env span name).run.run b = (r, b) ∧
      Resolves b.tables.scopes env span name r := by
  unfold identifier
  cases hf : env.find? name with
  | some v => exact ⟨_, rfl, .bound hf⟩
  | none =>
    simp only [Run.run_bind, Run.run_get]
    cases hl : b.tables.scopes.lookup env.scope name with
    | some sym =>
      dsimp only
      cases hk : sym.kind with
      | func =>
        cases hd : sym.decl with
        | some f => exact ⟨_, rfl, .func hf hl hk hd⟩
        | none => exact ⟨_, rfl, .undeclared hf hl hk hd⟩
      | param => exact ⟨_, rfl, .param hf hl hk⟩
      | type => exact ⟨_, rfl, .type hf hl hk⟩
    | none =>
      dsimp only
      cases hb : Builtin.byName? name with
      | some bi => exact ⟨_, rfl, .builtin hf hl hb⟩
      | none => exact ⟨_, rfl, .unresolved hf hl hb⟩

theorem identifier_resolves (env : Env) (span : Span) (name : String) (b b' : Build)
    (r : Except CompileError Value) :
    (identifier env span name).run.run b = (r, b') ↔
      b' = b ∧ Resolves b.tables.scopes env span name r := by
  obtain ⟨r₀, hrun, hres⟩ := identifier_run env span name b
  rw [hrun, Prod.mk.injEq]
  constructor
  · rintro ⟨rfl, rfl⟩
    exact ⟨rfl, hres⟩
  · rintro ⟨rfl, h⟩
    exact ⟨hres.unique h, rfl⟩

/-- Compile-time evaluation is lexically scoped. A name denotes its innermost binding, else the
symbol its chain of scopes gives, else a built-in, and resolving it changes nothing. Evaluation
reads of an environment only the bindings it makes visible. A declared function's body runs in
its parameters alone, and a literal's body as if where the literal was evaluated, whenever and
wherever either is called. So two calls of one function with a body on the same arguments,
from one build, at any two sites and with any two budgets, leave the same build and give the
same value, unless one of them stops at the depth limit. -/
theorem lexical_scoping (sc : Scene) :
    (∀ (env : Env) (span : Span) (name : String) (b b' : Build)
      (r : Except CompileError Value),
      (identifier env span name).run.run b = (r, b') ↔
        b' = b ∧ Resolves b.tables.scopes env span name r) ∧
    (∀ (n : Nat) (e₁ e₂ : Env) (ex : Expr), Env.Alike e₁ e₂ →
      Run.Alike Eq Value.Alike (Walk.expr (callWith sc n) e₁ ex)
        (Walk.expr (callWith sc n) e₂ ex)) ∧
    (∀ (n : Nat) (f : FuncDecl) (type : Option DataType) (vals : List Value) (span : Span),
      ∃ k : Option Value → Run Value, ∀ (b : Build) (s : ScopeId) (E : Env),
        f.isExtern = false → (checkArgs f.name type vals span).run.run b = (.ok (), b) →
        b.tables.notes.scopeOf? f.site.id = some s → E.scope = s →
        (∀ x, E.find? x = paramBinding (f.params.map (·.name)) vals x) →
        Agrees Eq Value.Alike ((callWith sc (n + 1) (.func f type) vals span).run.run b)
          ((Walk.block (callWith sc n) E ((f.body.map Block.stmts).getD []) none >>= k).run.run
            b)) ∧
    (∀ (n : Nat) (body : Block) (e : Env) (span : Span),
      Run.Alike Eq Value.Alike (callWith sc (n + 1) (.lambda body e) [] span)
        (Walk.block (callWith sc n) e body.stmts none >>= fun r => pure (r.getD (.int 1)))) ∧
    (∀ (fn : Value) (vals : List Value) (n n' : Nat) (sp sp' : Span) (b : Build),
      (∀ bi, fn ≠ .builtin bi) →
      ¬ DepthFailed ((callWith sc n fn vals sp).run.run b).1 →
      ¬ DepthFailed ((callWith sc n' fn vals sp').run.run b).1 →
      Agrees CompileError.Relocated Eq ((callWith sc n fn vals sp).run.run b)
        ((callWith sc n' fn vals sp').run.run b)) :=
  ⟨identifier_resolves, fun n _ _ ex he => Walk.expr_alike (callWith_alike sc n) he ex,
    callWith_func sc, callWith_lambda sc, fun _ vals n n' sp sp' b hbody h₁ h₂ =>
      call_sites_agree sc hbody vals n n' sp sp' b h₁ h₂⟩

/-- A host under which every unit asked for is there already: it compiles nothing and reports
no failure. -/
def settledHost : Host := ⟨fun _ _ => pure none, fun _ _ => pure ("", none)⟩

/-- The unit `v.abla` executing, with file scope 0 and nothing waiting on it. -/
def sceneV : Scene := ⟨"v.abla", 0, [], settledHost⟩

/-- `{ 3 + 4 }`. -/
def addSeven : Block :=
  .mk ⟨1, default⟩ [.expr ⟨2, default⟩
    (.binary ⟨3, default⟩ .add (.int ⟨4, default⟩ "3") (.int ⟨5, default⟩ "4"))]

/-- The literal `{ 3 + 4 }`, called at the outermost depth and again one deeper at another
span, gives 7 both times. -/
theorem lexical_scoping_addSeven :
    (∀ bi, Value.lambda addSeven (.mk [] 0 none) ≠ .builtin bi) ∧
    ¬ DepthFailed ((callWith sceneV maxCallDepth (.lambda addSeven (.mk [] 0 none)) []
      default).run.run default).1 ∧
    ¬ DepthFailed ((callWith sceneV (maxCallDepth - 1) (.lambda addSeven (.mk [] 0 none)) []
      ⟨2, 0, 2, 9⟩).run.run default).1 ∧
    Agrees CompileError.Relocated Eq
      ((callWith sceneV maxCallDepth (.lambda addSeven (.mk [] 0 none)) [] default).run.run default)
      ((callWith sceneV (maxCallDepth - 1) (.lambda addSeven (.mk [] 0 none)) []
        ⟨2, 0, 2, 9⟩).run.run default) := by
  have hfn : ∀ bi, Value.lambda addSeven (.mk [] 0 none) ≠ .builtin bi := fun _ h => by cases h
  have h₁ : (callWith sceneV maxCallDepth (.lambda addSeven (.mk [] 0 none)) [] default).run.run
      default = (.ok (.int 7), default) := rfl
  have h₂ : (callWith sceneV (maxCallDepth - 1) (.lambda addSeven (.mk [] 0 none)) []
      ⟨2, 0, 2, 9⟩).run.run default = (.ok (.int 7), default) := rfl
  have hd₁ : ¬ DepthFailed ((callWith sceneV maxCallDepth (.lambda addSeven (.mk [] 0 none)) []
      default).run.run default).1 := by
    rw [h₁]
    exact id
  have hd₂ : ¬ DepthFailed ((callWith sceneV (maxCallDepth - 1) (.lambda addSeven (.mk [] 0 none))
      [] ⟨2, 0, 2, 9⟩).run.run default).1 := by
    rw [h₂]
    exact id
  exact ⟨hfn, hd₁, hd₂, (lexical_scoping sceneV).2.2.2.2 _ _ _ _ _ _ _ hfn hd₁ hd₂⟩

/-- `fun import(): Int = 1`, declared at node 5 of the unit `u.abla`. -/
def importDecl : FuncDecl :=
  { site := ⟨5, default⟩, name := "import", nameSpan := default, modifiers := [], params := [],
    ret := some (.named "Int" [] default),
    body := some (.mk ⟨6, default⟩ [.expr ⟨7, default⟩ (.int ⟨8, default⟩ "1")]) }

/-- The symbol `import` of `u.abla`'s file scope. -/
def importSym : Symbol :=
  { name := "import", kind := .func, type := some (.func [] (some .int)), unit := "u.abla",
    node := 5, decl := some importDecl }

/-- `fun f(): String = "${import}"`, declared at node 1 of the unit `v.abla`. -/
def showImport : FuncDecl :=
  { site := ⟨1, default⟩, name := "f", nameSpan := default, modifiers := [], params := [],
    ret := some (.named "String" [] default),
    body := some (.mk ⟨2, default⟩
      [.expr ⟨3, default⟩ (.str ⟨4, default⟩ [.interp (.ident ⟨9, default⟩ "import")])]) }

/-- The build in which `v.abla` runs: `u.abla` is installed, its tree at node 10 with file scope
1, which declares `import`; `v.abla`'s file scope 0 declares nothing, and it is the scope of
`f`. -/
def beforeImport : Build :=
  { files := default,
    tables := { scopes := ⟨#[⟨none, []⟩, ⟨none, [importSym]⟩]⟩,
                notes := (({} : Notes).setScope 1 0).setScope 10 1 },
    units := { compiled := [("u.abla", ⟨⟨10, default⟩, "u.abla", []⟩)] } }

/-- The build once `import("u.abla")` has run in `v.abla`: `import` is defined in `v.abla`'s
file scope. -/
def afterImport : Build :=
  { beforeImport with
    tables := { beforeImport.tables with
                scopes := (beforeImport.tables.scopes.define 0 importSym).1 } }

section Import

theorem beforeImport_scope_f : beforeImport.tables.notes.scopeOf? 1 = some 0 := by
  simp only [beforeImport, Notes.scopeOf?, Notes.setScope, Std.HashMap.getElem?_insert]
  simp

theorem beforeImport_scope_u : beforeImport.tables.notes.scopeOf? 10 = some 1 := by
  simp only [beforeImport, Notes.scopeOf?, Notes.setScope, Std.HashMap.getElem?_insert]
  simp

/-- Before the import, `import` names nothing from `v.abla`'s file scope: it is the
built-in. -/
theorem beforeImport_import :
    (identifier (.mk [] 0 none) default "import").run.run beforeImport =
      (.ok (.builtin .importFile), beforeImport) := by
  have hlookup : beforeImport.tables.scopes.lookup 0 "import" = none := by
    rw [Scopes.lookup]
    simp [beforeImport, Scopes.lookupLocal]
  exact (identifier_resolves _ _ _ _ _ _).2 ⟨rfl, .builtin rfl hlookup rfl⟩

/-- After the import, `import` names `u.abla`'s function. -/
theorem afterImport_import :
    (identifier (.mk [] 0 none) default "import").run.run afterImport =
      (.ok (.func importDecl (some (.func [] (some .int)))), afterImport) := by
  have hlookup : afterImport.tables.scopes.lookup 0 "import" = some importSym := by
    rw [Scopes.lookup]
    simp [afterImport, beforeImport, Scopes.define, Scopes.lookupLocal, importSym]
  exact (identifier_resolves _ _ _ _ _ _).2 ⟨rfl, @Resolves.func _ _ _ _ importSym _ rfl hlookup rfl rfl⟩

/-- `f`, called from any site with budget left, renders what `import` denotes in `v.abla`'s file
scope. -/
theorem showImport_call (n : Nat) (span : Span) {b : Build} {v : Value}
    (hscope : b.tables.notes.scopeOf? 1 = some 0)
    (hid : (identifier (.mk [] 0 none) default "import").run.run b = (.ok v, b))
    (hv : v ≠ .void) :
    (callWith sceneV (n + 1) (.func showImport (some (.func [] (some .string)))) [] span).run.run
      b = (.ok (.str v.render), b) := by
  have hargs : (checkArgs showImport.name (some (.func [] (some .string))) [] span).run.run b =
      (.ok (), b) := rfl
  have hext : showImport.isExtern = false := rfl
  have hpure : ∀ {α : Type} (x : α), (pure x : Id α) = x := fun _ => rfl
  rw [callWith]
  simp only [hext, Bool.false_eq_true, if_false]
  rw [Run.run_bind, hargs]
  dsimp only
  rw [Run.run_bind, Run.run_get]
  dsimp only
  rw [show showImport.site.id = 1 from rfl, hscope]
  dsimp only
  -- the body is the one interpolation of `import`
  simp only [showImport, List.map_nil, List.zip_nil_left, List.reverse_nil, Block.stmts,
    Walk.block, Walk.expr, Walk.pieces, Run.run_bind, ExceptT.run_pure, StateT.run_pure, hpure, hid,
    String.append_empty]
  cases v with
  | void => exact absurd rfl hv
  | _ => rfl

/-- Running `import("u.abla")` in `v.abla` defines `u.abla`'s `import` in `v.abla`'s file
scope. -/
theorem importFile_u (n : Nat) (span : Span) :
    (callWith sceneV (n + 1) (.builtin .importFile) [.str "u.abla"] span).run.run beforeImport =
      (.ok .void, afterImport) := by
  have hargs : (checkArgs "import" (some Builtin.importFile.type) [.str "u.abla"] span).run.run
      beforeImport = (.ok (), beforeImport) := rfl
  have hjoin : (Path.isAbs "u.abla" || "v.abla".startsWith "<") = false := by
    simp +decide [Path.isAbs]
  have hname : Path.clean (Path.join (Path.dir "v.abla") "u.abla") = "u.abla" := by
    simp +decide [Path.clean, Path.join, Path.dir, String.splitOn, String.splitOnAux, Path.fold,
      Path.isAbs]
  have hfile : beforeImport.units.file? "u.abla" = some ⟨⟨10, default⟩, "u.abla", []⟩ := by
    simp [beforeImport, Units.file?]
  have hsyms : beforeImport.tables.scopes.symbolsOf 1 = [importSym] := by
    simp [beforeImport, Scopes.symbolsOf]
  -- the unit is there already, so the import only brings its symbols in
  have himport : (importUnit sceneV "u.abla" span).run.run beforeImport = (.ok (), afterImport) := by
    unfold importUnit
    simp only [Run.run_bind, Run.run_get, hfile, beforeImport_scope_u, hsyms]
    rfl
  rw [callWith]
  dsimp only
  rw [Run.run_bind, show Builtin.importFile.name = "import" from rfl, hargs]
  dsimp only
  simp only [runBuiltin, sceneV, hjoin, Bool.false_eq_true, if_false, hname]
  rw [Run.run_bind]
  simp only [settledHost]
  rw [show StateT.run (ExceptT.run (liftM (pure none : StateM Build (Option Failure)) :
    Run (Option Failure))) beforeImport = (.ok none, beforeImport) from rfl]
  dsimp only
  rw [Run.run_bind, show (⟨"v.abla", 0, [], ⟨fun _ _ => pure none, fun _ _ => pure ("", none)⟩⟩ :
    Scene) = sceneV from rfl, himport]
  rfl

end Import

/-- One function, called with no arguments from two sites with one budget, gives two values
when an import runs between the calls. `f`'s body names `import`, which `v.abla`'s file scope
leaves to the built-in; `import("u.abla")` then brings `u.abla`'s function `import` into that
scope, and the name in `f`'s body resolves to it. -/
theorem import_rebinds_name :
    (callWith sceneV maxCallDepth (.func showImport (some (.func [] (some .string)))) []
      ⟨2, 18, 2, 23⟩).run.run beforeImport = (.ok (.str "<builtin import>"), beforeImport) ∧
    (callWith sceneV maxCallDepth (.builtin .importFile) [.str "u.abla"] ⟨4, 2, 4, 18⟩).run.run
      beforeImport = (.ok .void, afterImport) ∧
    (callWith sceneV maxCallDepth (.func showImport (some (.func [] (some .string)))) []
      ⟨8, 18, 8, 23⟩).run.run afterImport = (.ok (.str "<fun import>"), afterImport) := by
  have hrender₁ : (Value.builtin .importFile).render = "<builtin import>" := by decide
  have hrender₂ : (Value.func importDecl (some (.func [] (some .int)))).render = "<fun import>" := by
    decide
  refine ⟨?_, importFile_u (maxCallDepth - 1) _, ?_⟩
  · rw [← hrender₁]
    exact showImport_call (maxCallDepth - 1) _ beforeImport_scope_f beforeImport_import
      fun h => by cases h
  · rw [← hrender₂]
    exact showImport_call (maxCallDepth - 1) _ beforeImport_scope_f afterImport_import
      fun h => by cases h

end Eval

end Abla
