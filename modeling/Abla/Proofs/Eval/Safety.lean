import Mathlib
import Abla.Proofs.Eval.World

/-!
# Evaluation meets no broken invariant

From a sound build, compile-time evaluation fails only with an error the program causes
(`Eval.Safe`): the broken invariants it checks for cannot occur. A name bound to a function
symbol has its declaration, because the good scopes hold callable symbols only
(`identifier_safe`); a called function that is not extern has a good scope recorded, since
good values are callable (`callWith_safe`); a built-in receives one string, because
`checkArgs` checked the count and the argument's type, and a good value whose type is `String`
is a string (`checkArgs_fits`); an imported unit has a tree and a good file scope, because the
host answered for it (`HostOk`); and the functions and the file that execution visits have
their scopes recorded, as gathering left them (`execute_safe`).

Evaluation is taken along its definitions: the expression walk for any caller that is safe
(`CallOk`), then calls by induction on the call budget.
-/

namespace Abla

namespace Eval

/-- A good value of the build. -/
def GoodValue (G : ScopeId → Prop) (b : Build) (v : Value) : Prop := v.Good G b.tables.notes

/-- Good values of the build. -/
def GoodValues (G : ScopeId → Prop) (b : Build) (vs : List Value) : Prop :=
  ∀ v ∈ vs, v.Good G b.tables.notes

/-- A caller that, given good values in a sound build, is safe and gives a good value. -/
def CallOk (call : Caller) : Prop :=
  ∀ G b fn vals span, Sound G b → GoodValue G b fn → GoodValues G b vals →
    Safe G b (call fn vals span) GoodValue

section Basics

variable {α : Type} {G : ScopeId → Prop} {b : Build} {Q : (ScopeId → Prop) → Build → α → Prop}

theorem Safe.execError (hs : Sound G b) (span : Span) (msg : String) :
    Safe G b (execError span msg : Run α) Q :=
  Safe.throw hs (by simp [execFailure, evalKinds])

@[simp] theorem funcType?_funcType? (t : Option DataType) :
    funcType? (funcType? t) = funcType? t := by
  cases t with
  | none => rfl
  | some ty => cases ty <;> rfl

/-- An operator gives an integer or a boolean, or fails with an execution error. -/
theorem binary_ends (sp : Span) (op : BinOp) (lv rv : Value) :
    (∃ v, binary sp op lv rv = .ok v ∧ ((∃ n, v = .int n) ∨ ∃ p, v = .bool p)) ∨
      ∃ e, binary sp op lv rv = .error e ∧ e.kind = .execution := by
  unfold binary
  split
  · unfold intOp
    split <;> (try split) <;>
      first
      | exact .inl ⟨_, rfl, .inl ⟨_, rfl⟩⟩
      | exact .inl ⟨_, rfl, .inr ⟨_, rfl⟩⟩
      | exact .inr ⟨_, rfl, rfl⟩
  all_goals
    (try split_ifs) <;>
      first
      | exact .inl ⟨_, rfl, .inr ⟨_, rfl⟩⟩
      | exact .inr ⟨_, rfl, rfl⟩

end Basics

variable {G : ScopeId → Prop} {b : Build}

/-- A name is a parameter's value, a callable function with a function type, or a built-in;
anything else fails as the program's error. -/
theorem identifier_safe {env : Env} (span : Span) (name : String) (hs : Sound G b)
    (henv : env.Good G b.tables.notes) : Safe G b (identifier env span name) GoodValue := by
  unfold identifier
  split
  · rename_i v hv
    exact Safe.pure hs (Env.Good.find? env henv hv)
  · refine Safe.get_bind ?_
    split
    · rename_i sym hsym
      -- the symbol stands in a good scope, so a function symbol has a callable declaration
      have hok := hs.closed.lookup env.scope henv.scope hsym
      split
      · rename_i f hk hd
        obtain ⟨g, hg, hcall⟩ := hok hk
        rw [hd, Option.some.injEq] at hg
        subst hg
        exact Safe.pure hs ⟨hcall, funcType?_funcType? _⟩
      · rename_i hk hd
        obtain ⟨g, hg, -⟩ := hok hk
        simp [hd] at hg
      · exact Safe.execError hs _ _
      · exact Safe.execError hs _ _
    · split
      · exact Safe.pure hs trivial
      · exact Safe.throw hs (by simp [evalKinds])

/-- An operator on values is safe: it gives an integer or a boolean, or fails with an
execution error. -/
theorem binary_safe (sp : Span) (op : BinOp) (lv rv : Value) (hs : Sound G b) :
    Safe G b (MonadExcept.ofExcept (binary sp op lv rv)) GoodValue := by
  rcases binary_ends sp op lv rv with ⟨v, hv, hint | hbool⟩ | ⟨e, he, hk⟩
  · obtain ⟨n, rfl⟩ := hint
    rw [hv]
    exact Safe.ofExcept hs (fun a ha => by cases ha; trivial) fun _ he => by cases he
  · obtain ⟨p, rfl⟩ := hbool
    rw [hv]
    exact Safe.ofExcept hs (fun a ha => by cases ha; trivial) fun _ he => by cases he
  · rw [he]
    exact Safe.ofExcept hs (fun _ ha => by cases ha) fun e' he' => by
      cases he'
      simp [hk, evalKinds]

section Walk

variable {call : Caller}

mutual

/-- Evaluating an expression in a good environment, with a safe caller, is safe and gives a
good value. -/
theorem Walk.expr_safe (hcall : CallOk call) :
    ∀ (e : Expr) {G : ScopeId → Prop} {b : Build} {env : Env}, Sound G b →
      env.Good G b.tables.notes → Safe G b (Walk.expr call env e) GoodValue
  | .ident s n, _, _, _, hs, henv => by
    rw [Walk.expr]
    exact identifier_safe s.span n hs henv
  | .int s t, _, _, _, hs, _ => by
    rw [Walk.expr]
    split
    · exact Safe.pure hs trivial
    · exact Safe.throw hs (by simp [evalKinds])
  | .str _ ps, _, _, _, hs, henv => by
    rw [Walk.expr]
    exact Safe.bind (Walk.pieces_safe hcall ps hs henv) fun _ _ _ _ hs' _ => Safe.pure hs' trivial
  | .call s f as, _, _, env, hs, henv => by
    rw [Walk.expr]
    -- the function, then the arguments, then the call, each from the build the last one left
    refine Safe.bind (Walk.expr_safe hcall f hs henv) fun G₁ b₁ fv hg₁ hs₁ hfv => ?_
    refine Safe.bind (Walk.args_safe hcall as hs₁ (Env.Good.mono hg₁ env henv))
      fun G₂ b₂ avs hg₂ hs₂ havs => ?_
    exact hcall G₂ b₂ fv avs s.span hs₂ (Value.Good.mono hg₂ fv hfv) havs
  | .lambda _ body, _, _, _, hs, henv => by
    rw [Walk.expr]
    exact Safe.pure hs henv
  | .binary s op l r, _, _, env, hs, henv => by
    rw [Walk.expr]
    refine Safe.bind (Walk.expr_safe hcall l hs henv) fun G₁ b₁ lv hg₁ hs₁ _ => ?_
    refine Safe.bind (Walk.expr_safe hcall r hs₁ (Env.Good.mono hg₁ env henv))
      fun G₂ b₂ rv _ hs₂ _ => ?_
    exact binary_safe s.span op lv rv hs₂
  | .exec _ e, _, _, _, hs, henv => by
    rw [Walk.expr]
    exact Walk.expr_safe hcall e hs henv

/-- Evaluating the pieces of a string literal is safe. -/
theorem Walk.pieces_safe (hcall : CallOk call) :
    ∀ (ps : List Piece) {G : ScopeId → Prop} {b : Build} {env : Env}, Sound G b →
      env.Good G b.tables.notes → Safe G b (Walk.pieces call env ps) fun _ _ _ => True
  | [], _, _, _, hs, _ => by
    rw [Walk.pieces]
    exact Safe.pure hs trivial
  | .text _ :: ps, _, _, _, hs, henv => by
    rw [Walk.pieces]
    exact Safe.bind (Walk.pieces_safe hcall ps hs henv) fun _ _ _ _ hs' _ => Safe.pure hs' trivial
  | .interp e :: ps, _, _, env, hs, henv => by
    rw [Walk.pieces]
    refine Safe.bind (Walk.expr_safe hcall e hs henv) fun G₁ b₁ v hg₁ hs₁ _ => ?_
    split
    · exact Safe.execError hs₁ _ _
    · exact Safe.bind (Walk.pieces_safe hcall ps hs₁ (Env.Good.mono hg₁ env henv))
        fun _ _ _ _ hs' _ => Safe.pure hs' trivial

/-- Evaluating arguments is safe and gives good values. -/
theorem Walk.args_safe (hcall : CallOk call) :
    ∀ (as : List Expr) {G : ScopeId → Prop} {b : Build} {env : Env}, Sound G b →
      env.Good G b.tables.notes → Safe G b (Walk.args call env as) GoodValues
  | [], _, _, _, hs, _ => by
    rw [Walk.args]
    exact Safe.pure hs fun _ h => by cases h
  | a :: as, _, _, env, hs, henv => by
    rw [Walk.args]
    refine Safe.bind (Walk.expr_safe hcall a hs henv) fun G₁ b₁ v hg₁ hs₁ hv => ?_
    refine Safe.bind (Walk.args_safe hcall as hs₁ (Env.Good.mono hg₁ env henv))
      fun G₂ b₂ vs hg₂ hs₂ hvs => Safe.pure hs₂ fun w hw => ?_
    rcases List.mem_cons.1 hw with rfl | hw
    · exact Value.Good.mono hg₂ w hv
    · exact hvs w hw

end

/-- Running statements in a good environment is safe and gives a good value, if any. -/
theorem Walk.block_safe (hcall : CallOk call) {env : Env} :
    ∀ (sts : List Stmt) (last : Option Value) {G : ScopeId → Prop} {b : Build}, Sound G b →
      env.Good G b.tables.notes → (∀ v, last = some v → v.Good G b.tables.notes) →
      Safe G b (Walk.block call env sts last) fun G b r => ∀ v, r = some v → GoodValue G b v
  | [], _, _, _, hs, _, hlast => by
    rw [Walk.block]
    exact Safe.pure hs hlast
  | .expr _ e :: rest, _, _, _, hs, henv, _ => by
    rw [Walk.block]
    refine Safe.bind (Walk.expr_safe hcall e hs henv) fun G₁ b₁ v hg₁ hs₁ hv => ?_
    exact Walk.block_safe hcall rest _ hs₁ (Env.Good.mono hg₁ env henv) fun w hw => by
      cases hw
      exact hv
  | .ret _ none :: _, _, _, _, hs, _, _ => by
    rw [Walk.block]
    exact Safe.pure hs fun v hv => by
      cases hv
      trivial
  | .ret _ (some e) :: _, _, _, _, hs, henv, _ => by
    rw [Walk.block]
    exact Safe.bind (Walk.expr_safe hcall e hs henv) fun _ _ v _ hs₁ hv =>
      Safe.pure hs₁ fun w hw => by
        cases hw
        exact hv

end Walk

section Calls

/-- Arguments that fit a function's parameters: as many as there are, and each whose parameter
has a primitive type of that type. -/
def ArgsFit (params : List DataType) (vals : List Value) : Prop :=
  vals.length = params.length ∧
    ∀ v p, (v, p) ∈ vals.zip params → ∀ q, p = .prim q → v.type.equiv p = true

/-- Every element of a list is numbered when the list is zipped behind a long enough range. -/
theorem exists_mem_zip_range {β : Type} {l : List β} {n : Nat} (hn : l.length ≤ n) {x : β}
    (hx : x ∈ l) : ∃ i, (i, x) ∈ (List.range n).zip l := by
  obtain ⟨j, hj, rfl⟩ := List.mem_iff_getElem.1 hx
  have hlen : j < ((List.range n).zip l).length := by simp; omega
  refine ⟨j, ?_⟩
  have hget : ((List.range n).zip l)[j] = (j, l[j]) := by simp [List.getElem_zip]
  rw [← hget]
  exact List.getElem_mem hlen

theorem Safe.execError_bind {α β : Type} {Q : (ScopeId → Prop) → Build → β → Prop}
    {f : α → Run β} (hs : Sound G b) (span : Span) (msg : String) :
    Safe G b (Eval.execError span msg >>= f) Q :=
  Safe.bind (Q := fun _ _ _ => False) (Safe.execError hs span msg) fun _ _ _ _ _ h => h.elim

/-- Checking arguments only reads them: it passes when they fit a function type's
parameters, and fails otherwise with an execution error. -/
theorem checkArgs_safe (name : String) (type : Option DataType) (vals : List Value) (span : Span)
    (hs : Sound G b) :
    Safe G b (checkArgs name type vals span) fun _ _ _ =>
      ∀ params r, type = some (.func params r) → ArgsFit params vals := by
  unfold checkArgs
  split
  · rename_i params ret
    extract_lets jp
    -- the loop checks each argument whose parameter has a primitive type
    have hjp : ∀ r G' b', Sound G' b' → Safe G' b' (jp r) fun _ _ _ =>
        ∀ v p, (v, p) ∈ vals.zip params → ∀ q, p = .prim q → v.type.equiv p = true := by
      intro r G' b' hs'
      simp -zeta only [jp]
      refine Safe.bind
        (Safe.forIn (P := fun a => ∀ q, a.2.2 = .prim q → a.2.1.type.equiv a.2.2 = true) _ hs'
          fun a _ G₁ b₁ _ hs₁ => ?_) fun G₂ b₂ _ _ hs₂ hall =>
          Safe.pure hs₂ fun v p hvp => ?_
      · obtain ⟨i, v, p⟩ := a
        split
        · rename_i q
          split
          · exact Safe.execError_bind hs₁ _ _
          · rename_i hne
            exact Safe.pure hs₁ ⟨rfl, fun q' hq' => by simpa using hne⟩
        · rename_i hnot
          exact Safe.pure hs₁ ⟨rfl, fun q hq => (hnot q hq).elim⟩
      · obtain ⟨i, hi⟩ := exists_mem_zip_range (n := vals.length) (by simp) hvp
        exact hall _ hi
    split
    · exact Safe.execError_bind hs _ _
    · rename_i hlen
      refine (hjp () G b hs).mono fun _ _ _ hfit params' r' heq => ?_
      cases heq
      exact ⟨by simpa using hlen, hfit⟩
  · rename_i hnot
    exact Safe.pure hs fun params r heq => (hnot params r heq).elim

/-- A good value whose type is `String` is a string: a function's type, when known, is a
function type. -/
theorem Value.Good.eq_str {n : Notes} {v : Value} (hv : v.Good G n)
    (ht : v.type.equiv .string = true) : ∃ s, v = .str s := by
  cases v with
  | str s => exact ⟨s, rfl⟩
  | func f t =>
    cases t with
    | none => simp [Value.type, DataType.equiv] at ht
    | some ty =>
      -- a known type of a function value is a function type
      have hty := hv.2
      cases ty <;> simp_all [funcType?, Value.type, DataType.equiv]
  | builtin bi => cases bi <;> simp [Value.type, Builtin.type, DataType.equiv] at ht
  | lambda _ _ => simp [Value.type, DataType.equiv] at ht
  | int _ | bool _ | void => simp [Value.type, DataType.equiv] at ht

/-- Good arguments that fit a built-in's parameters are one string. -/
theorem builtin_args {vals : List Value} (hv : GoodValues G b vals) (hfit : ArgsFit [.string] vals) :
    ∃ s, vals = [.str s] := by
  obtain ⟨hlen, htype⟩ := hfit
  match vals, hlen with
  | [v], _ =>
    obtain ⟨s, rfl⟩ := Value.Good.eq_str (hv v (by simp)) (htype v _ (by simp) _ rfl)
    exact ⟨s, rfl⟩

end Calls

/-- A host that keeps the build sound and, when it reports no failure, leaves the unit it was
asked for with a tree. -/
structure HostOk (host : Host) : Prop where
  file : ∀ G b name rs, Sound G b →
    Keeps G b (host.compileFile name rs) fun _ b err => err = none → (b.units.file? name).isSome
  text : ∀ G b text rs, Sound G b →
    Keeps G b (host.compileText text rs) fun _ b r => r.2 = none → (b.units.file? r.1).isSome

/-- Importing a unit with a tree into the executing unit is safe: the unit's file scope is a
good one, so the symbols brought in may stand in a good scope. -/
theorem importUnit_safe (sc : Scene) (name : String) (span : Span) (hs : Sound G b)
    (hfile : (b.units.file? name).isSome) :
    Safe G b (importUnit sc name span) fun _ _ _ => True := by
  unfold importUnit
  refine Safe.get_bind ?_
  obtain ⟨file, hf⟩ := Option.isSome_iff_exists.1 hfile
  obtain ⟨table, htable, hG⟩ := (hs.units name).1 file hf
  simp only [hf, htable]
  refine Safe.bind (Safe.forIn (P := fun _ => True) _ hs fun sym hsym G' b' hg' hs' => ?_)
    fun _ _ _ _ hs₂ _ => Safe.pure hs₂ trivial
  -- the symbol stands in the unit's file scope, so it may stand in any scope
  have hok : sym.Ok G' b'.tables.notes := by
    unfold Scopes.symbolsOf at hsym
    split at hsym
    · rename_i sc₀ hsc
      exact Symbol.Ok.mono hg' (hs.closed.symbols table sc₀ hG hsc sym
        ((List.mem_mergeSort).1 hsym))
    · cases hsym
  split
  · refine Safe.get_bind ?_
    rcases hd : b'.tables.scopes.define sc.fileScope sym with ⟨scopes, ok⟩
    have hscopes : scopes = (b'.tables.scopes.define sc.fileScope sym).1 := by rw [hd]
    subst hscopes
    split
    · exact Safe.of_run rfl (Grows.withTables fun _ => rfl)
        (hs'.withTables (hs'.closed.define hok) fun _ => rfl) ⟨rfl, trivial⟩
    · -- the name is taken: at most a warning is reported
      exact Safe.ite (fun _ => Safe.of_run rfl (Grows.of_eq rfl rfl) (hs'.report _) ⟨rfl, trivial⟩)
        fun _ => Safe.pure hs' ⟨rfl, trivial⟩
  · exact Safe.pure hs' ⟨rfl, trivial⟩

/-- A built-in given one string is safe: a unit the host compiled without failure has a tree to
import. -/
theorem runBuiltin_safe (sc : Scene) (hhost : HostOk sc.host) (bi : Builtin) (s : String)
    (span : Span) (hs : Sound G b) : Safe G b (runBuiltin sc bi [.str s] span) GoodValue := by
  cases bi with
  | importFile =>
    simp only [runBuiltin]
    refine Safe.bind (Safe.liftM (hhost.file G b _ _ hs)) fun G₁ b₁ err _ hs₁ herr => ?_
    split
    · exact Safe.execError hs₁ _ _
    · exact Safe.bind (importUnit_safe sc _ span hs₁ (herr rfl)) fun _ _ _ _ hs₂ _ =>
        Safe.pure hs₂ trivial
  | compileText =>
    simp only [runBuiltin]
    refine Safe.bind (Safe.liftM (hhost.text G b _ _ hs)) fun G₁ b₁ r _ hs₁ hr => ?_
    split
    · exact Safe.execError hs₁ _ _
    · rename_i hnone
      exact Safe.bind (importUnit_safe sc _ span hs₁ (hr hnone)) fun _ _ _ _ hs₂ _ =>
        Safe.pure hs₂ trivial

theorem GoodValues.mono {G' : ScopeId → Prop} {b' : Build} {vals : List Value}
    (hg : Grows G b G' b') (h : GoodValues G b vals) : GoodValues G' b' vals :=
  fun v hv => Value.Good.mono hg v (h v hv)

/-- The environment a called function's body runs in: its parameters bound to good values,
in its good scope. -/
theorem Env.good_params {n : Notes} {names : List String} {vals : List Value} {scope : ScopeId}
    (hvals : ∀ v ∈ vals, v.Good G n) (hscope : G scope) :
    (Env.mk (names.zip vals).reverse scope none).Good G n := by
  refine ⟨(Value.goodVars_iff _).2 fun p hp => ?_, hscope, trivial⟩
  exact hvals p.2 (List.of_mem_zip (List.mem_reverse.1 hp)).2

/-- Calling is safe at every budget: a built-in receives one string, a function literal runs in
its good environment, and a declared function that is not extern has a good scope recorded. -/
theorem callWith_safe (sc : Scene) (hhost : HostOk sc.host) :
    ∀ budget, CallOk (callWith sc budget)
  | 0 => fun _ _ _ _ span hs _ _ => Safe.execError hs span _
  | budget + 1 => fun G b fn vals span hs hfn hvals => by
    have hcall := callWith_safe sc hhost budget
    cases fn with
    | builtin bi =>
      simp only [callWith]
      -- both built-ins take one string
      obtain ⟨r, hr⟩ : ∃ r, bi.type = .func [.string] r := by cases bi <;> exact ⟨_, rfl⟩
      refine Safe.bind (checkArgs_safe _ _ vals span hs) fun G₁ b₁ _ hg₁ hs₁ hfit => ?_
      obtain ⟨s, rfl⟩ := builtin_args (hvals.mono hg₁) (hfit _ _ (by rw [hr]))
      exact runBuiltin_safe sc hhost bi s span hs₁
    | lambda body env =>
      simp only [callWith]
      -- the body runs in a new environment around the literal's own
      have henv : env.Good G b.tables.notes := hfn
      refine Safe.ite (fun _ => Safe.execError_bind hs _ _) fun _ => ?_
      refine Safe.bind (Walk.block_safe hcall body.stmts none hs ⟨trivial, henv.scope, henv⟩
        fun _ h => by cases h) fun G₂ b₂ r _ hs₂ hr => Safe.pure hs₂ ?_
      cases r with
      | none => trivial
      | some v => exact hr v rfl
    | func f type =>
      simp only [callWith]
      refine Safe.ite (fun _ => Safe.execError_bind hs _ _) fun hext => ?_
      refine Safe.bind (checkArgs_safe _ _ vals span hs) fun G₁ b₁ _ hg₁ hs₁ _ => ?_
      refine Safe.get_bind ?_
      -- a declared function value that is not extern has a good scope recorded
      obtain ⟨scope, hscope, hG⟩ : ∃ s, b₁.tables.notes.scopeOf? f.site.id = some s ∧ G₁ s :=
        (hfn.1.mono hg₁).resolve_left hext
      rw [hscope]
      refine Safe.bind (Walk.block_safe hcall _ none hs₁
        (Env.good_params (hvals.mono hg₁) hG) fun _ h => by cases h)
        fun G₂ b₂ r _ hs₂ hr => ?_
      split
      · split
        · exact Safe.pure hs₂ trivial
        · split
          · exact Safe.pure hs₂ (hr _ rfl)
          · exact Safe.execError hs₂ _ _
      · exact Safe.pure hs₂ trivial
    | int _ | str _ | bool _ | void =>
      simp only [callWith]
      exact Safe.execError hs _ _

/-- Evaluating an expression of the executing unit in a good environment is safe. -/
theorem evaluate_safe (sc : Scene) (hhost : HostOk sc.host) {env : Env} (e : Expr)
    (hs : Sound G b) (henv : env.Good G b.tables.notes) :
    Safe G b (evaluate sc env e) GoodValue :=
  Walk.expr_safe (callWith_safe sc hhost maxCallDepth) e hs henv

/-- Recording a constant is safe: only integers, strings and booleans are recorded, with their
types, and no scope changes. -/
theorem recordConst_safe (site : Site) (v : Value) (hs : Sound G b) :
    Safe G b (recordConst site v) fun _ _ _ => True := by
  unfold recordConst
  extract_lets record
  -- recording changes the notes but no scope recorded at a node
  have hrecord : ∀ c G' b', Sound G' b' → Safe G' b' (record c) fun _ _ _ => True :=
    fun c G' b' hs' => Safe.of_run rfl (Grows.withTables fun _ => rfl)
      (hs'.withTables (hs'.closed.of_notes rfl fun _ => rfl) fun _ => rfl) trivial
  split
  all_goals first
    | exact hrecord _ G b hs
    | exact Safe.execError_bind hs _ _

section Consts

variable (sc : Scene)

mutual

/-- Computing the `#` expressions inside an expression, with names resolved in a good scope,
is safe. -/
theorem constsExpr_safe (hhost : HostOk sc.host) :
    ∀ (e : Expr) {G : ScopeId → Prop} {b : Build} (scope : ScopeId), Sound G b → G scope →
      Safe G b (constsExpr sc scope e) fun _ _ _ => True
  | .ident _ _, _, _, _, hs, _ => by
    simp only [constsExpr]
    exact Safe.pure hs trivial
  | .int _ _, _, _, _, hs, _ => by
    simp only [constsExpr]
    exact Safe.pure hs trivial
  | .str _ ps, _, _, scope, hs, hG => by
    rw [constsExpr]
    exact constsPieces_safe hhost ps scope hs hG
  | .call _ f as, _, _, scope, hs, hG => by
    rw [constsExpr]
    exact Safe.bind (constsExpr_safe hhost f scope hs hG) fun _ _ _ hg₁ hs₁ _ =>
      constsArgs_safe hhost as scope hs₁ (hg₁.good scope hG)
  | .lambda _ (.mk _ sts), _, _, scope, hs, hG => by
    rw [constsExpr]
    exact constsStmts_safe hhost sts scope hs hG
  | .binary _ _ l r, _, _, scope, hs, hG => by
    rw [constsExpr]
    exact Safe.bind (constsExpr_safe hhost l scope hs hG) fun _ _ _ hg₁ hs₁ _ =>
      constsExpr_safe hhost r scope hs₁ (hg₁.good scope hG)
  | .exec site e, _, _, scope, hs, hG => by
    rw [constsExpr]
    exact Safe.bind (evaluate_safe sc hhost e hs ⟨trivial, hG, trivial⟩) fun _ _ v _ hs₁ _ =>
      recordConst_safe site v hs₁

theorem constsPieces_safe (hhost : HostOk sc.host) :
    ∀ (ps : List Piece) {G : ScopeId → Prop} {b : Build} (scope : ScopeId), Sound G b → G scope →
      Safe G b (constsPieces sc scope ps) fun _ _ _ => True
  | [], _, _, _, hs, _ => by
    rw [constsPieces]
    exact Safe.pure hs trivial
  | .text _ :: ps, _, _, scope, hs, hG => by
    rw [constsPieces]
    exact constsPieces_safe hhost ps scope hs hG
  | .interp e :: ps, _, _, scope, hs, hG => by
    rw [constsPieces]
    exact Safe.bind (constsExpr_safe hhost e scope hs hG) fun _ _ _ hg₁ hs₁ _ =>
      constsPieces_safe hhost ps scope hs₁ (hg₁.good scope hG)

theorem constsArgs_safe (hhost : HostOk sc.host) :
    ∀ (as : List Expr) {G : ScopeId → Prop} {b : Build} (scope : ScopeId), Sound G b → G scope →
      Safe G b (constsArgs sc scope as) fun _ _ _ => True
  | [], _, _, _, hs, _ => by
    rw [constsArgs]
    exact Safe.pure hs trivial
  | a :: as, _, _, scope, hs, hG => by
    rw [constsArgs]
    exact Safe.bind (constsExpr_safe hhost a scope hs hG) fun _ _ _ hg₁ hs₁ _ =>
      constsArgs_safe hhost as scope hs₁ (hg₁.good scope hG)

theorem constsStmts_safe (hhost : HostOk sc.host) :
    ∀ (sts : List Stmt) {G : ScopeId → Prop} {b : Build} (scope : ScopeId), Sound G b → G scope →
      Safe G b (constsStmts sc scope sts) fun _ _ _ => True
  | [], _, _, _, hs, _ => by
    rw [constsStmts]
    exact Safe.pure hs trivial
  | .expr _ e :: rest, _, _, scope, hs, hG => by
    rw [constsStmts]
    exact Safe.bind (constsExpr_safe hhost e scope hs hG) fun _ _ _ hg₁ hs₁ _ =>
      constsStmts_safe hhost rest scope hs₁ (hg₁.good scope hG)
  | .ret _ (some e) :: rest, _, _, scope, hs, hG => by
    rw [constsStmts]
    exact Safe.bind (constsExpr_safe hhost e scope hs hG) fun _ _ _ hg₁ hs₁ _ =>
      constsStmts_safe hhost rest scope hs₁ (hg₁.good scope hG)
  | .ret _ none :: rest, _, _, scope, hs, hG => by
    rw [constsStmts]
    exact constsStmts_safe hhost rest scope hs hG

end

end Consts

/-- Functions with a body have their scopes recorded, good ones. -/
def FuncsOk (G : ScopeId → Prop) (b : Build) (fs : List FuncDecl) : Prop :=
  ∀ g ∈ fs, g.body.isSome → ∃ s, b.tables.notes.scopeOf? g.site.id = some s ∧ G s

theorem FuncsOk.mono {G' : ScopeId → Prop} {b' : Build} {fs : List FuncDecl}
    (hg : Grows G b G' b') (h : FuncsOk G b fs) : FuncsOk G' b' fs := fun g hg' hb => by
  obtain ⟨s, hs, hG⟩ := h g hg' hb
  exact ⟨s, hg.noted _ _ hs, hg.good s hG⟩

theorem FuncsOk.sub {fs fs' : List FuncDecl} (h : FuncsOk G b fs) (hsub : ∀ g ∈ fs', g ∈ fs) :
    FuncsOk G b fs' := fun g hg => h g (hsub g hg)

section Decls

variable (sc : Scene)

mutual

/-- Computing the `#` expressions of a declaration is safe when its functions with a body have
their scopes recorded. -/
theorem execDecl_safe (hhost : HostOk sc.host) :
    ∀ (d : Decl) {G : ScopeId → Prop} {b : Build}, Sound G b → FuncsOk G b d.funcs →
      Safe G b (execDecl sc d) fun _ _ _ => True
  | .func f, G, b, hs, hf => by
    rw [execDecl]
    split
    · exact Safe.pure hs trivial
    · rename_i body hbody
      refine Safe.ite (fun _ => Safe.pure hs trivial) fun _ => Safe.get_bind ?_
      -- gathering recorded the function's scope
      obtain ⟨scope, hscope, hG⟩ := hf f (by simp [Decl.funcs]) (by simp [hbody])
      rw [hscope]
      exact constsStmts_safe sc hhost body.stmts scope hs hG
  | .cls _ _ mods members, G, b, hs, hf => by
    rw [execDecl]
    exact Safe.ite (fun _ => Safe.pure hs trivial) fun _ =>
      execDecls_safe hhost members hs (by simpa [Decl.funcs] using hf)
  | .hashCall _ _, _, _, hs, _ => by
    rw [execDecl]
    exact Safe.pure hs trivial

theorem execDecls_safe (hhost : HostOk sc.host) :
    ∀ (ds : List Decl) {G : ScopeId → Prop} {b : Build}, Sound G b →
      FuncsOk G b (Decl.funcsList ds) → Safe G b (execDecls sc ds) fun _ _ _ => True
  | [], _, _, hs, _ => by
    rw [execDecls]
    exact Safe.pure hs trivial
  | d :: ds, _, _, hs, hf => by
    rw [execDecls]
    refine Safe.bind (execDecl_safe hhost d hs
      (hf.sub fun g hg => by simp [Decl.funcsList, hg])) fun _ _ _ hg₁ hs₁ _ => ?_
    exact execDecls_safe hhost ds hs₁ ((hf.mono hg₁).sub fun g hg => by simp [Decl.funcsList, hg])

end

/-- Running the top-level `#` calls of a unit, in its good file scope, is safe. -/
theorem runCalls_safe (hhost : HostOk sc.host) :
    ∀ (ds : List Decl) {G : ScopeId → Prop} {b : Build}, Sound G b → G sc.fileScope →
      Safe G b (runCalls sc ds) fun _ _ _ => True
  | [], _, _, hs, _ => by
    rw [runCalls]
    exact Safe.pure hs trivial
  | .hashCall _ call :: ds, _, _, hs, hG => by
    rw [runCalls]
    exact Safe.bind (evaluate_safe sc hhost call hs ⟨trivial, hG, trivial⟩)
      fun _ _ _ hg₁ hs₁ _ => runCalls_safe hhost ds hs₁ (hg₁.good _ hG)
  | .func _ :: ds, _, _, hs, hG => by
    simp only [runCalls]
    exact runCalls_safe hhost ds hs hG
  | .cls _ _ _ _ :: ds, _, _, hs, hG => by
    simp only [runCalls]
    exact runCalls_safe hhost ds hs hG

end Decls

/-- Executing a unit is safe when its file and every function of it with a body have good
scopes recorded, as a successful gathering leaves them. -/
theorem execute_safe (f : SourceFile) (host : Host) (hhost : HostOk host) (rs : List String)
    (hs : Sound G b) (hfile : ∃ s, b.tables.notes.scopeOf? f.site.id = some s ∧ G s)
    (hfuncs : FuncsOk G b (Decl.funcsList f.decls)) :
    Safe G b (f.execute host rs) fun _ _ _ => True := by
  unfold SourceFile.execute
  refine Safe.tryCatch_inUnit f.name (Safe.get_bind ?_)
  obtain ⟨scope, hscope, hG⟩ := hfile
  rw [hscope]
  exact Safe.bind (runCalls_safe _ hhost f.decls hs hG) fun _ _ _ hg₁ hs₁ _ =>
    execDecls_safe _ hhost f.decls hs₁ (hfuncs.mono hg₁)

end Eval

end Abla
