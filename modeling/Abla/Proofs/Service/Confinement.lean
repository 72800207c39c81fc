import Mathlib
import Abla.Proofs.Service.Execution
import Abla.Proofs.Eval.Lexical

/-!
# Nested compilations keep the scopes that exist

An import compiles the imported unit in the middle of the importing unit's execution, and what it
then merges depends on the executing unit's file scope being as it was. A request, with every unit
it parses, gathers and executes, changes no scope that exists when it is made: gathering adds new
scopes only, and an execution writes only into its own unit's file scope, which gathering created.

`Confined ex b b'` says this of one change: from a tidy build (`Tidy`: no node from the next free
one on records a scope, and no scope gives two symbols one name) it leaves a tidy build, keeps
every scope, and changes none outside `ex`. `Confines ex x` says it of every run of `x`. These
compose along binds, so the lemmas below follow the evaluator and the service function by
function.
-/

namespace Abla

section Exports

/-- Whether a symbol is one that an import of `unit` brings in: `unit` declares it, and it
exists at run time. -/
def Symbol.exportedBy (unit : String) (s : Symbol) : Bool :=
  decide (s.unit = unit) && !s.compileTimeOnly

end Exports

namespace Scopes

/-- Defines in the scope `id`, one after another, the symbols of `syms` that `unit` exports. -/
def importOwn (st : Scopes) (id : ScopeId) (unit : String) (syms : List Symbol) : Scopes :=
  syms.foldl (fun st s => if s.exportedBy unit then (st.define id s).1 else st) st

@[simp] theorem importOwn_nil (st : Scopes) (id : ScopeId) (unit : String) :
    st.importOwn id unit [] = st := rfl

theorem importOwn_cons (st : Scopes) (id : ScopeId) (unit : String) (s : Symbol)
    (rest : List Symbol) :
    st.importOwn id unit (s :: rest) =
      (if s.exportedBy unit then (st.define id s).1 else st).importOwn id unit rest := rfl

@[simp] theorem importOwn_size (id : ScopeId) (unit : String) :
    ∀ (syms : List Symbol) (st : Scopes), (st.importOwn id unit syms).tables.size = st.tables.size
  | [], _ => rfl
  | s :: rest, st => by
    rw [importOwn_cons, importOwn_size id unit rest]
    split <;> simp

/-- Importing changes no scope but the one imported into. -/
theorem importOwn_getElem?_of_ne (id : ScopeId) (unit : String) {s : ScopeId} (hs : s ≠ id) :
    ∀ (syms : List Symbol) (st : Scopes), (st.importOwn id unit syms).tables[s]? = st.tables[s]?
  | [], _ => rfl
  | t :: rest, st => by
    rw [importOwn_cons, importOwn_getElem?_of_ne id unit hs rest]
    split
    · rw [define_getElem?, if_neg hs]
    · rfl

/-- No scope of the store gives two symbols one name. -/
def Distinct (st : Scopes) : Prop :=
  ∀ (s : ScopeId) (sc : Scope), st.tables[s]? = some sc → (sc.symbols.map (·.name)).Nodup

/-- Defining a symbol keeps the names of every scope distinct. -/
theorem define_distinct {st : Scopes} (h : st.Distinct) (id : ScopeId) (sym : Symbol) :
    (st.define id sym).1.Distinct := by
  intro s sc hsc
  rw [define_getElem?] at hsc
  split at hsc
  · subst s
    obtain ⟨sc₀, h₀, rfl⟩ := Option.map_eq_some_iff.1 hsc
    split
    · exact h id sc₀ h₀
    · rename_i hn
      simp only [List.map_append, List.map_cons, List.map_nil]
      refine List.nodup_append.2 ⟨h id sc₀ h₀, List.nodup_singleton _, ?_⟩
      intro a ha b hb
      simp only [List.mem_singleton] at hb
      subst hb
      obtain ⟨x, hx, rfl⟩ := List.mem_map.1 ha
      intro hxn
      exact hn (List.any_eq_true.2 ⟨x, hx, decide_eq_true hxn⟩)
  · exact h s sc hsc

theorem importOwn_distinct (id : ScopeId) (unit : String) :
    ∀ (syms : List Symbol) (st : Scopes), st.Distinct → (st.importOwn id unit syms).Distinct
  | [], _, h => h
  | t :: rest, st, h => by
    rw [importOwn_cons]
    refine importOwn_distinct id unit rest _ ?_
    split
    · exact define_distinct h id t
    · exact h

/-- The symbols a scope defines, ordered by name, have the names of its symbols. -/
theorem symbolsOf_names_nodup {st : Scopes} (h : st.Distinct) (s : ScopeId) :
    ((st.symbolsOf s).map (·.name)).Nodup := by
  unfold symbolsOf
  split
  · rename_i sc hsc
    exact ((List.mergeSort_perm _ _).map _).nodup_iff.2 (h s sc hsc)
  · exact List.nodup_nil

end Scopes

/-- What imports rely on in a build: no node numbered from the next free one on records a scope,
and no scope gives two symbols one name. -/
structure Tidy (b : Build) : Prop where
  fresh : ∀ k, b.nextNode ≤ k → b.tables.notes.scopeOf? k = none
  distinct : b.tables.scopes.Distinct

/-- A change from `b` to `b'` that, from a tidy build, leaves a tidy one, keeps every scope, and
changes none outside `ex`. -/
def Confined (ex : ScopeId → Prop) (b b' : Build) : Prop :=
  Tidy b → Tidy b' ∧ b.tables.scopes.tables.size ≤ b'.tables.scopes.tables.size ∧
    ∀ s, s < b.tables.scopes.tables.size → ¬ ex s →
      b'.tables.scopes.tables[s]? = b.tables.scopes.tables[s]?

namespace Confined

variable {ex ex' : ScopeId → Prop} {b b' b'' : Build}

theorem refl (ex : ScopeId → Prop) (b : Build) : Confined ex b b :=
  fun h => ⟨h, le_rfl, fun _ _ _ => rfl⟩

theorem trans (h₁ : Confined ex b b') (h₂ : Confined ex' b' b'') :
    Confined (fun s => ex s ∨ ex' s) b b'' := by
  intro ht
  obtain ⟨ht₁, hle₁, hs₁⟩ := h₁ ht
  obtain ⟨ht₂, hle₂, hs₂⟩ := h₂ ht₁
  refine ⟨ht₂, hle₁.trans hle₂, fun s hs hex => ?_⟩
  rw [hs₂ s (Nat.lt_of_lt_of_le hs hle₁) fun h => hex (.inr h),
    hs₁ s hs fun h => hex (.inl h)]

theorem mono (h : Confined ex b b')
    (hex : ∀ s, s < b.tables.scopes.tables.size → ex s → ex' s) : Confined ex' b b' := by
  intro ht
  obtain ⟨ht', hle, hs⟩ := h ht
  exact ⟨ht', hle, fun s hs' hn => hs s hs' fun he => hn (hex s hs' he)⟩

/-- Two changes that keep the same scopes keep them together. -/
theorem comp (h₁ : Confined ex b b') (h₂ : Confined ex b' b'') : Confined ex b b'' :=
  (h₁.trans h₂).mono fun _ _ h => h.elim id id

/-- A change of neither the tables nor the next free node. -/
theorem of_eq (ht : b'.tables = b.tables) (hn : b'.nextNode = b.nextNode) : Confined ex b b' := by
  intro h
  refine ⟨⟨fun k hk => ?_, ?_⟩, by rw [ht], fun _ _ _ => by rw [ht]⟩
  · rw [ht]
    exact h.fresh k (hn ▸ hk)
  · rw [ht]
    exact h.distinct

end Confined

/-- A computation on builds that, from every build, makes a change keeping the scopes outside
`ex`. -/
def Confines {α : Type} (ex : ScopeId → Prop) (x : StateM Build α) : Prop :=
  ∀ b, Confined ex b (x.run b).2

namespace Confines

variable {α β : Type} {ex ex' : ScopeId → Prop}

theorem mono {x : StateM Build α} (h : Confines ex x) (hex : ∀ s, ex s → ex' s) :
    Confines ex' x :=
  fun b => (h b).mono fun s _ => hex s

/-- A computation that leaves the build as it found it. -/
theorem of_run {x : StateM Build α} (h : ∀ b, (x.run b).2 = b) : Confines ex x := fun b => by
  rw [h b]
  exact Confined.refl ex b

theorem bind {x : StateM Build α} {f : α → StateM Build β} (hx : Confines ex x)
    (hf : ∀ a, Confines ex (f a)) : Confines ex (x >>= f) := fun b =>
  (hx b).comp (hf _ _)

theorem get_bind {f : Build → StateM Build α} (hf : ∀ b, Confines ex (f b)) :
    Confines ex (get >>= f) := fun b => hf b b

/-- A step of the evaluator, then the rest from the build it leaves; an error ends the run. -/
theorem run_bind {x : Eval.Run α} {f : α → Eval.Run β} (hx : Confines ex x.run)
    (hf : ∀ a, Confines ex (f a).run) : Confines ex (x >>= f).run := fun b => by
  show Confined ex b ((x >>= f).run.run b).2
  rw [Eval.Run.run_bind]
  have h₁ := hx b
  rcases h : x.run.run b with ⟨r, b'⟩
  rw [show (x.run.run b).2 = b' by rw [h]] at h₁
  cases r with
  | error e => exact h₁
  | ok a => exact h₁.comp (hf a b')

end Confines

/-- A symbol that is not added leaves the scopes as they were. -/
theorem Scopes.define_fst_of_snd {st : Scopes} {id : ScopeId} {sym : Symbol}
    (h : (st.define id sym).2 = false) : (st.define id sym).1 = st := by
  unfold Scopes.define at h ⊢
  split
  · rfl
  · rename_i sc _
    split
    · rfl
    · rename_i hsc hn
      simp [hsc, hn] at h

namespace Eval

/-- A loop whose every step yields runs its steps one after another. -/
theorem Run.forIn_yield {γ : Type} {body : γ → PUnit → Run (ForInStep PUnit)}
    (h : ∀ x b, ((body x PUnit.unit).run.run b).1 = .ok (.yield PUnit.unit)) :
    ∀ (xs : List γ) (b : Build), (forIn xs PUnit.unit body).run.run b =
      (.ok PUnit.unit, xs.foldl (fun b x => ((body x PUnit.unit).run.run b).2) b)
  | [], b => rfl
  | x :: xs, b => by
    rw [List.forIn_cons, Run.run_bind]
    rcases hr : (body x PUnit.unit).run.run b with ⟨r, b'⟩
    have hy := h x b
    rw [hr] at hy
    subst hy
    rw [List.foldl_cons, hr]
    exact Run.forIn_yield h xs b'

/-- Steps that each define their symbol in the scope `id` when `unit` exports it, and report at
most some events, import those symbols one after another. -/
theorem foldl_importOwn (id : ScopeId) (unit : String) {f : Build → Symbol → Build}
    (hf : ∀ b s, ∃ events, f b s = { b with
      tables := { b.tables with scopes := if s.exportedBy unit then (b.tables.scopes.define id s).1
        else b.tables.scopes }
      events := events }) :
    ∀ (xs : List Symbol) (b : Build), ∃ events, xs.foldl f b = { b with
      tables := { b.tables with scopes := b.tables.scopes.importOwn id unit xs }
      events := events }
  | [], b => ⟨b.events, rfl⟩
  | s :: rest, b => by
    obtain ⟨ev, hev⟩ := hf b s
    obtain ⟨ev', hev'⟩ := foldl_importOwn id unit hf rest (f b s)
    refine ⟨ev', ?_⟩
    rw [List.foldl_cons, hev', hev]
    rfl

/-- Importing a unit whose tree has its scope recorded defines, in the executing unit's file
scope, the symbols the unit exports, in the order of their names; it reports at most
warnings. -/
theorem importUnit_ok (sc : Scene) (name : String) (span : Span) {b : Build} {f : SourceFile}
    {table : ScopeId} (hf : b.units.file? name = some f)
    (ht : b.tables.notes.scopeOf? f.site.id = some table) :
    ∃ events, (importUnit sc name span).run.run b = (.ok (), { b with
      tables := { b.tables with
        scopes := b.tables.scopes.importOwn sc.fileScope name (b.tables.scopes.symbolsOf table) }
      events := events }) := by
  unfold importUnit
  simp only [Run.run_bind, Run.run_get, hf, ht]
  rw [Run.forIn_yield]
  · show ∃ events, (Except.ok (), List.foldl _ b _) = (Except.ok (), _)
    simp only [Prod.mk.injEq, true_and]
    refine foldl_importOwn sc.fileScope name (fun b' sym => ?_) _ b
    split
    · rename_i he
      rw [if_pos (show sym.exportedBy name = true from he)]
      simp only [Run.run_bind, Run.run_get]
      split
      · exact ⟨b'.events, rfl⟩
      · rename_i hd
        rw [Scopes.define_fst_of_snd (Bool.eq_false_iff.2 hd)]
        -- the name is taken: a warning is reported unless it is taken by this very symbol
        split <;> split
        all_goals exact ⟨_, rfl⟩
    · rename_i he
      rw [if_neg (show ¬sym.exportedBy name = true from he)]
      exact ⟨b'.events, rfl⟩
  · intro sym b'
    split
    · simp only [Run.run_bind, Run.run_get]
      split
      · rfl
      · split <;> split <;> rfl
    · rfl

end Eval

namespace Confined

variable {ex : ScopeId → Prop} {b b' : Build}

/-- A change of no scope and of no scope recorded at a node, that does not move the next free
node back. -/
theorem of_scopes (hs : b'.tables.scopes = b.tables.scopes)
    (hn : ∀ k, b'.tables.notes.scopeOf? k = b.tables.notes.scopeOf? k)
    (hnext : b.nextNode ≤ b'.nextNode) : Confined ex b b' := by
  intro h
  refine ⟨⟨fun k hk => ?_, ?_⟩, by rw [hs], fun _ _ _ => by rw [hs]⟩
  · rw [hn]
    exact h.fresh k (Nat.le_trans hnext hk)
  · rw [hs]
    exact h.distinct

/-- Importing symbols into the scope `id` changes no other scope. -/
theorem importOwn (b : Build) (id : ScopeId) (unit : String) (syms : List Symbol)
    (events : Array Event) :
    Confined (· = id) b { b with
      tables := { b.tables with scopes := b.tables.scopes.importOwn id unit syms }
      events := events } := by
  intro h
  refine ⟨⟨h.fresh, Scopes.importOwn_distinct id unit syms _ h.distinct⟩, by simp,
    fun s _ hs => Scopes.importOwn_getElem?_of_ne id unit hs syms _⟩

end Confined

namespace Confines

variable {α β : Type} {ex : ScopeId → Prop}

theorem run_pure (a : α) : Confines ex (Pure.pure a : Eval.Run α).run :=
  of_run fun _ => rfl

theorem run_throw (e : CompileError) : Confines ex (throw e : Eval.Run α).run :=
  of_run fun _ => rfl

theorem run_get_bind {f : Build → Eval.Run α} (hf : ∀ b, Confines ex (f b).run) :
    Confines ex (get >>= f).run := fun b => by
  show Confined ex b ((get >>= f).run.run b).2
  rw [Eval.Run.run_bind, Eval.Run.run_get]
  exact hf b b

theorem run_ite {c : Prop} [Decidable c] {x y : Eval.Run α} (hx : Confines ex x.run)
    (hy : Confines ex y.run) : Confines ex (if c then x else y).run := by
  split
  · exact hx
  · exact hy

theorem run_liftM {x : StateM Build α} (h : Confines ex x) :
    Confines ex (liftM x : Eval.Run α).run :=
  fun b => h b

/-- A loop whose every step keeps the scopes outside `ex`. -/
theorem run_forIn {γ : Type} {f : γ → PUnit → Eval.Run (ForInStep PUnit)}
    (hf : ∀ a u, Confines ex (f a u).run) :
    ∀ (xs : List γ) (u : PUnit), Confines ex (ForIn.forIn xs u f).run
  | [], u => run_pure u
  | a :: as, u => by
    rw [List.forIn_cons]
    refine run_bind (hf a u) fun r => ?_
    cases r with
    | done u' => exact run_pure u'
    | yield u' => exact run_forIn hf as u'

end Confines

namespace Eval

/-- Importing a unit writes into the executing unit's file scope only. -/
theorem importUnit_confines (sc : Scene) (name : String) (span : Span) :
    Confines (· = sc.fileScope) (importUnit sc name span).run := by
  intro b
  cases hf : b.units.file? name with
  | none =>
    have h : ((importUnit sc name span).run.run b).2 = b := by
      unfold importUnit
      simp only [Run.run_bind, Run.run_get, hf]
      rfl
    rw [h]
    exact Confined.refl _ b
  | some f =>
    cases ht : b.tables.notes.scopeOf? f.site.id with
    | none =>
      have h : ((importUnit sc name span).run.run b).2 = b := by
        unfold importUnit
        simp only [Run.run_bind, Run.run_get, hf, ht]
        rfl
      rw [h]
      exact Confined.refl _ b
    | some table =>
      obtain ⟨ev, hev⟩ := importUnit_ok sc name span hf ht
      rw [hev]
      exact Confined.importOwn b _ _ _ ev

/-- A caller whose every call keeps the scopes outside `ex`. -/
def CallsConfine (ex : ScopeId → Prop) (call : Caller) : Prop :=
  ∀ fn vals span, Confines ex (call fn vals span).run

section Walk

variable {ex : ScopeId → Prop} {call : Caller}

theorem identifier_confines (env : Env) (span : Span) (name : String) :
    Confines ex (identifier env span name).run :=
  Confines.of_run fun b => by
    obtain ⟨r, h, -⟩ := identifier_run env span name b
    rw [h]

mutual

/-- Evaluation changes the build only through its calls. -/
theorem Walk.expr_confines (h : CallsConfine ex call) (env : Env) :
    ∀ e, Confines ex (Walk.expr call env e).run
  | .ident s n => by
    rw [Walk.expr]
    exact identifier_confines env s.span n
  | .int s t => by
    rw [Walk.expr]
    split
    · exact Confines.run_pure _
    · exact Confines.run_throw _
  | .str _ ps => by
    rw [Walk.expr]
    exact Confines.run_bind (Walk.pieces_confines h env ps) fun _ => Confines.run_pure _
  | .call s f as => by
    rw [Walk.expr]
    exact Confines.run_bind (Walk.expr_confines h env f) fun fv =>
      Confines.run_bind (Walk.args_confines h env as) fun avs => h fv avs s.span
  | .lambda _ b => by
    rw [Walk.expr]
    exact Confines.run_pure _
  | .binary s op l r => by
    rw [Walk.expr]
    exact Confines.run_bind (Walk.expr_confines h env l) fun _ =>
      Confines.run_bind (Walk.expr_confines h env r) fun _ => Confines.of_run fun _ => by simp
  | .exec _ e => by
    rw [Walk.expr]
    exact Walk.expr_confines h env e

theorem Walk.pieces_confines (h : CallsConfine ex call) (env : Env) :
    ∀ ps, Confines ex (Walk.pieces call env ps).run
  | [] => by
    rw [Walk.pieces]
    exact Confines.run_pure _
  | .text _ :: ps => by
    rw [Walk.pieces]
    exact Confines.run_bind (Walk.pieces_confines h env ps) fun _ => Confines.run_pure _
  | .interp e :: ps => by
    rw [Walk.pieces]
    refine Confines.run_bind (Walk.expr_confines h env e) fun v => ?_
    cases v with
    | void => exact Confines.run_throw _
    | int _ | str _ | bool _ | lambda _ _ | func _ _ | builtin _ =>
      exact Confines.run_bind (Walk.pieces_confines h env ps) fun _ => Confines.run_pure _

theorem Walk.args_confines (h : CallsConfine ex call) (env : Env) :
    ∀ as, Confines ex (Walk.args call env as).run
  | [] => by
    rw [Walk.args]
    exact Confines.run_pure _
  | e :: es => by
    rw [Walk.args]
    exact Confines.run_bind (Walk.expr_confines h env e) fun _ =>
      Confines.run_bind (Walk.args_confines h env es) fun _ => Confines.run_pure _

end

theorem Walk.block_confines (h : CallsConfine ex call) (env : Env) :
    ∀ (sts : List Stmt) (last : Option Value), Confines ex (Walk.block call env sts last).run
  | [], _ => by
    rw [Walk.block]
    exact Confines.run_pure _
  | .expr _ e :: rest, _ => by
    rw [Walk.block]
    exact Confines.run_bind (Walk.expr_confines h env e) fun v => Walk.block_confines h env rest _
  | .ret _ none :: _, _ => by
    rw [Walk.block]
    exact Confines.run_pure _
  | .ret _ (some e) :: _, _ => by
    rw [Walk.block]
    exact Confines.run_bind (Walk.expr_confines h env e) fun _ => Confines.run_pure _

end Walk

end Eval

namespace Confines

variable {α β : Type} {ex : ScopeId → Prop}

theorem run_throw_bind (e : CompileError) (f : α → Eval.Run β) :
    Confines ex (throw e >>= f : Eval.Run β).run :=
  of_run fun _ => rfl

end Confines

/-- A computation with a handler for its errors, run from `b`: the handler runs from where the
computation failed. -/
theorem Confined.of_tryCatch {α : Type} {ex : ScopeId → Prop} {b : Build} {x : Eval.Run α}
    {h : CompileError → Eval.Run α} (hx : Confined ex b (x.run.run b).2)
    (hh : ∀ e, Confines ex (h e).run) :
    Confined ex b ((MonadExcept.tryCatch x h : Eval.Run α).run.run b).2 := by
  rw [Eval.Run.run_tryCatch]
  rcases hr : x.run.run b with ⟨r, b'⟩
  rw [show (x.run.run b).2 = b' by rw [hr]] at hx
  cases r with
  | ok a => exact hx
  | error e => exact hx.comp (hh e b')

namespace Eval

/-- A host whose requests change no scope that exists when they are made. -/
structure HostConfines (host : Host) : Prop where
  file : ∀ name rs, Confines (fun _ => False) (host.compileFile name rs)
  text : ∀ text rs, Confines (fun _ => False) (host.compileText text rs)

variable {ex : ScopeId → Prop}

/-- Checking arguments only reads them. -/
theorem checkArgs_confines (name : String) (type : Option DataType) (vals : List Value)
    (span : Span) : Confines ex (checkArgs name type vals span).run := by
  unfold checkArgs
  split
  · extract_lets jp
    have hjp : ∀ r, Confines ex (jp r).run := by
      intro r
      simp -zeta only [jp]
      refine Confines.run_bind (Confines.run_forIn (fun a _ => ?_) _ _) fun _ => Confines.run_pure _
      obtain ⟨i, v, p⟩ := a
      split
      · split
        · exact Confines.run_throw_bind _ _
        · exact Confines.run_pure _
      · exact Confines.run_pure _
    split
    · exact Confines.run_throw_bind _ _
    · exact hjp ()
  · exact Confines.run_pure _

/-- A built-in writes only into the executing unit's file scope, once the host has compiled
the unit it imports. -/
theorem runBuiltin_confines (sc : Scene) (hhost : HostConfines sc.host) (bi : Builtin)
    (vals : List Value) (span : Span) :
    Confines (· = sc.fileScope) (runBuiltin sc bi vals span).run := by
  unfold runBuiltin
  split
  · refine Confines.run_bind (Confines.run_liftM ((hhost.file _ _).mono fun _ h => h.elim))
      fun err => ?_
    split
    · exact Confines.run_throw _
    · exact Confines.run_bind (importUnit_confines sc _ span) fun _ => Confines.run_pure _
  · refine Confines.run_bind (Confines.run_liftM ((hhost.text _ _).mono fun _ h => h.elim))
      fun r => ?_
    obtain ⟨name, err⟩ := r
    dsimp only
    split
    · exact Confines.run_throw _
    · exact Confines.run_bind (importUnit_confines sc _ span) fun _ => Confines.run_pure _
  · exact Confines.run_throw _

/-- Calls write only into the executing unit's file scope, at every budget. -/
theorem callWith_confines (sc : Scene) (hhost : HostConfines sc.host) :
    ∀ budget, CallsConfine (· = sc.fileScope) (callWith sc budget)
  | 0 => fun _ _ _ => Confines.run_throw _
  | budget + 1 => fun fn vals span => by
    have hcall := callWith_confines sc hhost budget
    cases fn with
    | builtin bi =>
      simp only [callWith]
      exact Confines.run_bind (checkArgs_confines _ _ vals span) fun _ =>
        runBuiltin_confines sc hhost bi vals span
    | lambda body env =>
      simp only [callWith]
      refine Confines.run_ite (Confines.run_throw_bind _ _) ?_
      exact Confines.run_bind (Walk.block_confines hcall _ _ none) fun _ => Confines.run_pure _
    | func f type =>
      simp only [callWith]
      refine Confines.run_ite (Confines.run_throw_bind _ _) ?_
      refine Confines.run_bind (checkArgs_confines _ _ vals span) fun _ => ?_
      refine Confines.run_get_bind fun b => ?_
      split
      · refine Confines.run_bind (Walk.block_confines hcall _ _ none) fun r => ?_
        split
        · split
          · exact Confines.run_pure _
          · split
            · exact Confines.run_pure _
            · exact Confines.run_throw _
        · exact Confines.run_pure _
      · exact Confines.run_throw _
    | int _ | str _ | bool _ | void =>
      simp only [callWith]
      exact Confines.run_throw _

theorem evaluate_confines (sc : Scene) (hhost : HostConfines sc.host) (env : Env) (e : Expr) :
    Confines (· = sc.fileScope) (evaluate sc env e).run :=
  Walk.expr_confines (callWith_confines sc hhost maxCallDepth) env e

/-- Recording a constant changes the notes but no scope recorded at a node. -/
theorem recordConst_confines (site : Site) (v : Value) : Confines ex (recordConst site v).run := by
  unfold recordConst
  extract_lets record
  have hrecord : ∀ c, Confines ex (record c).run := fun c b =>
    Confined.of_scopes rfl (fun _ => rfl) le_rfl
  -- an integer, a string or a boolean is recorded; nothing else can be
  split
  · exact Confines.run_bind (Confines.run_pure _) hrecord
  · exact Confines.run_bind (Confines.run_pure _) hrecord
  · exact Confines.run_bind (Confines.run_pure _) hrecord
  · exact Confines.run_throw_bind _ _
  · exact Confines.run_throw_bind _ _


section Consts

variable (sc : Scene)

mutual

/-- Computing the `#` expressions inside an expression writes only into the executing unit's
file scope, whatever scope names are resolved in. -/
theorem constsExpr_confines (hhost : HostConfines sc.host) (scope : ScopeId) :
    ∀ e, Confines (· = sc.fileScope) (constsExpr sc scope e).run
  | .ident _ _ => by
    simp only [constsExpr]
    exact Confines.run_pure _
  | .int _ _ => by
    simp only [constsExpr]
    exact Confines.run_pure _
  | .str _ ps => by
    rw [constsExpr]
    exact constsPieces_confines hhost scope ps
  | .call _ f as => by
    rw [constsExpr]
    exact Confines.run_bind (constsExpr_confines hhost scope f) fun _ =>
      constsArgs_confines hhost scope as
  | .lambda _ (.mk _ sts) => by
    rw [constsExpr]
    exact constsStmts_confines hhost scope sts
  | .binary _ _ l r => by
    rw [constsExpr]
    exact Confines.run_bind (constsExpr_confines hhost scope l) fun _ =>
      constsExpr_confines hhost scope r
  | .exec site e => by
    rw [constsExpr]
    exact Confines.run_bind (evaluate_confines sc hhost _ e) fun v => recordConst_confines site v

theorem constsPieces_confines (hhost : HostConfines sc.host) (scope : ScopeId) :
    ∀ ps, Confines (· = sc.fileScope) (constsPieces sc scope ps).run
  | [] => by
    rw [constsPieces]
    exact Confines.run_pure _
  | .text _ :: ps => by
    rw [constsPieces]
    exact constsPieces_confines hhost scope ps
  | .interp e :: ps => by
    rw [constsPieces]
    exact Confines.run_bind (constsExpr_confines hhost scope e) fun _ =>
      constsPieces_confines hhost scope ps

theorem constsArgs_confines (hhost : HostConfines sc.host) (scope : ScopeId) :
    ∀ as, Confines (· = sc.fileScope) (constsArgs sc scope as).run
  | [] => by
    rw [constsArgs]
    exact Confines.run_pure _
  | a :: as => by
    rw [constsArgs]
    exact Confines.run_bind (constsExpr_confines hhost scope a) fun _ =>
      constsArgs_confines hhost scope as

theorem constsStmts_confines (hhost : HostConfines sc.host) (scope : ScopeId) :
    ∀ sts, Confines (· = sc.fileScope) (constsStmts sc scope sts).run
  | [] => by
    rw [constsStmts]
    exact Confines.run_pure _
  | .expr _ e :: rest => by
    rw [constsStmts]
    exact Confines.run_bind (constsExpr_confines hhost scope e) fun _ =>
      constsStmts_confines hhost scope rest
  | .ret _ (some e) :: rest => by
    rw [constsStmts]
    exact Confines.run_bind (constsExpr_confines hhost scope e) fun _ =>
      constsStmts_confines hhost scope rest
  | .ret _ none :: rest => by
    rw [constsStmts]
    exact constsStmts_confines hhost scope rest

end

mutual

/-- Computing the `#` expressions of declarations writes only into the executing unit's file
scope. -/
theorem execDecl_confines (hhost : HostConfines sc.host) :
    ∀ d, Confines (· = sc.fileScope) (execDecl sc d).run
  | .func f => by
    rw [execDecl]
    split
    · exact Confines.run_pure _
    · refine Confines.run_ite (Confines.run_pure _) (Confines.run_get_bind fun b => ?_)
      split
      · exact constsStmts_confines sc hhost _ _
      · exact Confines.run_throw _
  | .cls _ _ mods members => by
    rw [execDecl]
    exact Confines.run_ite (Confines.run_pure _) (execDecls_confines hhost members)
  | .hashCall _ _ => by
    rw [execDecl]
    exact Confines.run_pure _

theorem execDecls_confines (hhost : HostConfines sc.host) :
    ∀ ds, Confines (· = sc.fileScope) (execDecls sc ds).run
  | [] => by
    rw [execDecls]
    exact Confines.run_pure _
  | d :: ds => by
    rw [execDecls]
    exact Confines.run_bind (execDecl_confines hhost d) fun _ => execDecls_confines hhost ds

end

/-- Running the top-level `#` calls of a unit writes only into its file scope. -/
theorem runCalls_confines (hhost : HostConfines sc.host) :
    ∀ ds, Confines (· = sc.fileScope) (runCalls sc ds).run
  | [] => by
    rw [runCalls]
    exact Confines.run_pure _
  | .hashCall _ call :: ds => by
    rw [runCalls]
    exact Confines.run_bind (evaluate_confines sc hhost _ call) fun _ => runCalls_confines hhost ds
  | .func _ :: ds => by
    simp only [runCalls]
    exact runCalls_confines hhost ds
  | .cls _ _ _ _ :: ds => by
    simp only [runCalls]
    exact runCalls_confines hhost ds

end Consts

/-- Executing a unit writes only into its file scope, the one recorded at its file's node. -/
theorem execute_confined (f : SourceFile) (host : Host) (hhost : HostConfines host)
    (rs : List String) {b : Build} {s : ScopeId} (hs : b.tables.notes.scopeOf? f.site.id = some s) :
    Confined (· = s) b ((f.execute host rs).run.run b).2 := by
  unfold SourceFile.execute
  refine Confined.of_tryCatch ?_ fun e => Confines.run_throw _
  rw [Run.run_bind, Run.run_get]
  simp only [hs]
  exact Confines.run_bind (runCalls_confines ⟨f.name, s, rs, host⟩ hhost f.decls)
    (fun _ => execDecls_confines _ hhost f.decls) b

end Eval

namespace Gather

variable {own : Nat → Prop} {n₀ : Nat} {F : FuncDecl → Prop} {t t' : Tables}

/-- A step of gathering gives no scope two symbols of one name. -/
theorem Step.distinct (h : Step own n₀ F t t') (hd : t.scopes.Distinct) : t'.scopes.Distinct := by
  cases h with
  | note | noteScope => exact hd
  | create parent =>
    intro s sc hsc
    simp only [Scopes.create_tables, Array.getElem?_push] at hsc
    split at hsc
    · cases hsc
      exact List.nodup_nil
    · exact hd s sc hsc
  | define s sym => exact Scopes.define_distinct hd s sym

theorem Steps.distinct (h : Steps own n₀ F t t') (hd : t.scopes.Distinct) : t'.scopes.Distinct :=
  Steps.keep (fun t => t.scopes.Distinct) (fun _ _ hstep => hstep.distinct) h hd

end Gather

namespace Service

/-- Parsing numbers the unit's tree from the next free node on, and changes no table. -/
theorem parse_run (name : String) (origin : Origin) (b : Build) :
    ((parse name origin).run b).2.tables = b.tables ∧
      b.nextNode ≤ ((parse name origin).run b).2.nextNode ∧
      ∀ f, ((parse name origin).run b).1 = .ok f →
        ∀ k ∈ f.ids, b.nextNode ≤ k ∧ k < ((parse name origin).run b).2.nextNode := by
  have hread : (readSource name origin).run b = pure (((readSource name origin).run b).1, b) :=
    readSource_run name origin b
  unfold parse
  rw [StateT.run_bind, hread, pure_bind]
  split
  · exact ⟨rfl, le_rfl, fun _ h => by cases h⟩
  · split
    · exact ⟨rfl, le_rfl, fun _ h => by cases h⟩
    · exact ⟨rfl, le_rfl, fun _ h => by cases h⟩
    · -- the tree's numbers lie from the next free node up to the new one
      rename_i f _
      obtain ⟨hle, -, hids⟩ := f.number_fresh b.nextNode
      simp only [StateT.run_bind, StateT.run_get, StateT.run_set, StateT.run_pure, pure_bind]
      exact ⟨rfl, hle, fun g hg k hk => by cases hg; exact hids k hk⟩


/-- Gathering a tree whose nodes record no scope and lie before the next free node changes no
scope that exists; once it succeeds, the file's node records a scope it opened. -/
theorem gather_confined {f : SourceFile} {b b' : Build} {r : Option CompileError}
    (hg : (gather f).run b = (r, b'))
    (hids : ∀ k ∈ f.ids, b.tables.notes.scopeOf? k = none ∧ k < b.nextNode) :
    Confined (fun _ => False) b b' ∧
      (r = none → ∃ s, b'.tables.notes.scopeOf? f.site.id = some s ∧
        b.tables.scopes.tables.size ≤ s) := by
  obtain ⟨hsteps, hok⟩ := Gather.gather_scopes f b.tables fun k hk => (hids k hk).1
  rcases hrun : f.gather.run.run b.tables with ⟨res, t'⟩
  rw [hrun] at hsteps hok
  -- the gathering's steps change no scope opened before it, nor a note outside the tree
  have hframe : Confined (fun _ => False) b { b with tables := t' } := by
    intro ht
    refine ⟨⟨fun k hk => ?_, hsteps.distinct ht.distinct⟩, hsteps.size_le,
      fun s hs _ => hsteps.old_scope hs hs⟩
    have hk' : k ∉ f.ids := fun h => by
      have := (hids k h).2
      exact absurd hk (Nat.not_le.2 this)
    show t'.notes.scopeOf? k = none
    rw [hsteps.old_note hk']
    exact ht.fresh k hk
  unfold gather at hg
  simp only [StateT.run_bind, StateT.run_get, pure_bind, hrun] at hg
  cases res with
  | error e =>
    obtain ⟨rfl, rfl⟩ := Prod.mk.inj hg
    exact ⟨hframe, fun h => by cases h⟩
  | ok u =>
    obtain ⟨-, rfl⟩ := Prod.mk.inj hg
    refine ⟨hframe, fun _ => ?_⟩
    obtain ⟨s, hs⟩ := Option.isSome_iff_exists.1 (hok u rfl).1
    -- the file's node records a scope the gathering opened
    have hN : Gather.NewNotes (· ∈ f.ids) b.tables.scopes.tables.size b.tables :=
      fun k s hk hks => by simp [(hids k hk).1] at hks
    exact ⟨s, hs, ((hsteps.newNotes hN) f.site.id s (by simp [SourceFile.ids]) hs).1⟩


/-- Preparing a unit from a tidy build changes no scope that exists, and a tree it prepares has
at its file's node a scope opened after all of them. -/
theorem prepare_confined (name : String) (origin : Origin) {b : Build} (ht : Tidy b) :
    Confined (fun _ => False) b ((prepare name origin).run b).2 ∧
      ∀ f, ((prepare name origin).run b).1 = .ok f →
        ∃ s, ((prepare name origin).run b).2.tables.notes.scopeOf? f.site.id = some s ∧
          b.tables.scopes.tables.size ≤ s := by
  have hbind : ∀ {γ δ : Type} (x : γ) (k : γ → Id δ), x >>= k = k x := fun _ _ => rfl
  have hpure : ∀ {γ : Type} (x : γ), (pure x : Id γ) = x := fun _ => rfl
  unfold prepare
  simp only [StateT.run_bind, StateT.run_get, pure_bind]
  split
  · exact ⟨Confined.refl _ b, fun _ h => by cases h⟩
  obtain ⟨ht₁, hle₁, hids₁⟩ := parse_run name origin b
  rcases hp : (parse name origin).run b with ⟨r, b₁⟩
  rw [hp] at ht₁ hle₁ hids₁
  simp only at ht₁ hle₁ hids₁
  -- parsing changes no table
  have hfr₁ : Confined (fun _ => False) b b₁ :=
    Confined.of_scopes (by rw [← ht₁]) (fun k => by rw [← ht₁]) hle₁
  simp only [StateT.run_bind, hp, hbind]
  cases r with
  | error e =>
    simp only [StateT.run_pure, hpure]
    exact ⟨hfr₁, fun _ h => by cases h⟩
  | ok f =>
    simp only [report, StateT.run_modify, StateT.run_get, StateT.run_bind, hbind, hpure,
      Build.report]
    split
    · simp only [StateT.run_pure, hpure]
      exact ⟨hfr₁.comp (Confined.of_scopes rfl (fun _ => rfl) le_rfl), fun _ h => by cases h⟩
    simp only [StateT.run_bind]
    generalize hg : StateT.run (gather f) _ = res
    rcases res with ⟨g, b₄⟩
    -- the tree's nodes record no scope yet, and lie before the next free node
    obtain ⟨hfr₄, hsc₄⟩ := gather_confined hg fun k hk => by
      obtain ⟨h₁, h₂⟩ := hids₁ f rfl k hk
      exact ⟨by rw [ht₁]; exact ht.fresh k h₁, h₂⟩
    have hfr₃ : Confined (fun _ => False) b b₄ :=
      hfr₁.comp (Confined.comp (by exact Confined.of_scopes rfl (fun _ => rfl) le_rfl) hfr₄)
    simp only [hbind]
    cases g with
    | some e =>
      simp only [StateT.run_pure, hpure]
      exact ⟨hfr₃, fun _ h => by cases h⟩
    | none =>
      obtain ⟨s, hs, hle⟩ := hsc₄ rfl
      have hle' : b.tables.scopes.tables.size ≤ s := by
        rw [← ht₁]
        exact hle
      simp only [StateT.run_modify, StateT.run_get, StateT.run_bind, hbind, hpure]
      have hfr₅ : Confined (fun _ => False) b
          { b₄ with events := b₄.events.push (.phase name "gather") } :=
        hfr₃.comp (Confined.of_scopes rfl (fun _ => rfl) le_rfl)
      split
      · simp only [StateT.run_pure, hpure]
        exact ⟨hfr₅, fun _ h => by cases h⟩
      · simp only [StateT.run_pure, hpure]
        exact ⟨hfr₅, fun f' h => by cases h; exact ⟨s, hs, hle'⟩⟩

end Service

namespace Confines

variable {α β : Type} {ex : ScopeId → Prop}

theorem pure (a : α) : Confines ex (Pure.pure a : StateM Build α) := of_run fun _ => rfl

theorem ite {c : Prop} [Decidable c] {x y : StateM Build α} (hx : Confines ex x)
    (hy : Confines ex y) : Confines ex (if c then x else y) := by
  split
  · exact hx
  · exact hy

/-- A change of the units, the events or the next free node only. -/
theorem of_units {x : StateM Build α} (ht : ∀ b, (x.run b).2.tables = b.tables)
    (hn : ∀ b, b.nextNode ≤ (x.run b).2.nextNode) : Confines ex x := fun b =>
  Confined.of_scopes (by rw [ht]) (fun _ => by rw [ht]) (hn b)

end Confines

namespace Service

/-- The phases of a unit change no scope that exists: its execution writes only into the
unit's own file scope, which its gathering opened after all of them. -/
theorem phases_confined {host : Eval.Host} (hhost : Eval.HostConfines host) (name : String)
    (origin : Origin) (rs : List String) :
    Confines (fun _ => False) (phases host name origin rs) := by
  intro b ht
  have hbind : ∀ {γ δ : Type} (x : γ) (k : γ → Id δ), x >>= k = k x := fun _ _ => rfl
  have hpure : ∀ {γ : Type} (x : γ), (pure x : Id γ) = x := fun _ => rfl
  obtain ⟨hfr₁, hsc₁⟩ := prepare_confined name origin ht
  unfold phases
  simp only [StateT.run_bind]
  generalize hp : StateT.run (prepare name origin) b = res at hfr₁ hsc₁
  rcases res with ⟨r, b₁⟩
  simp only [hbind]
  cases r with
  | error f =>
    simp only [StateT.run_pure, hpure]
    exact hfr₁ ht
  | ok f =>
    obtain ⟨s, hs, hle⟩ := hsc₁ f rfl
    have hfr₂ := Eval.execute_confined f host hhost rs hs
    simp only [StateT.run_bind]
    generalize he : StateT.run (ExceptT.run (f.execute host rs)) b₁ = res at hfr₂
    rcases res with ⟨r, b₂⟩
    -- the file scope the execution writes into was opened after every scope of `b`
    have hfr : Confined (fun _ => False) b b₂ :=
      (hfr₁.trans hfr₂).mono fun t ht h => by
        rcases h with h | rfl
        · exact h
        · omega
    simp only [hbind]
    cases r with
    | error e =>
      simp only [StateT.run_pure, hpure]
      exact hfr ht
    | ok u =>
      simp only [report, StateT.run_bind, StateT.run_modify, StateT.run_pure, hbind, hpure]
      exact (hfr.comp (by exact Confined.of_scopes rfl (fun _ => rfl) le_rfl)) ht

/-- Drawing a fresh unit name changes only the counter of names. -/
theorem freshName_confines (kind : String) : Confines (fun _ => False) (freshName kind) :=
  Confines.of_units (fun _ => rfl) fun _ => le_rfl

/-- The host runs a file compilation as one request, with nothing after it but reading the
error. -/
theorem host_compileFile_run (fuel : Nat) (name : String) (rs : List String) (b : Build) :
    ((host fuel).compileFile name rs).run b =
      (((request fuel name .file false rs).run b).1.err,
        ((request fuel name .file false rs).run b).2) := by
  simp only [host, StateT.run_bind]
  rfl

/-- The host of nested requests changes no scope that exists when its requests do not. -/
theorem host_confines (fuel : Nat)
    (hreq : ∀ name origin parallel rs,
      Confines (fun _ => False) (request fuel name origin parallel rs)) :
    Eval.HostConfines (host fuel) := by
  refine ⟨fun name rs => ?_, fun text rs => ?_⟩ <;> rw [host]
  · exact Confines.bind (hreq name .file false rs) fun _ => Confines.pure _
  · exact Confines.bind (freshName_confines "source") fun name =>
      Confines.bind (hreq name (.text text) false rs) fun _ => Confines.pure _

/-- A request changes no scope that exists when it is made: the units it compiles write only
into scopes their gathering opens. -/
theorem request_confined : ∀ (fuel : Nat) (name : String) (origin : Origin) (parallel : Bool)
    (rs : List String), Confines (fun _ => False) (request fuel name origin parallel rs)
  | 0, _, _, _, _ => by
    rw [request]
    exact Confines.pure _
  | fuel + 1, name, origin, parallel, rs => by
    have hhost := host_confines fuel (request_confined fuel)
    rw [request]
    refine Confines.get_bind fun b => Confines.ite (Confines.pure _) ?_
    refine Confines.ite (Confines.pure _) ?_
    refine Confines.ite ?_ ?_
    · extract_lets jp
      exact Confines.ite (Confines.bind (Confines.of_units (fun _ => rfl) fun _ => le_rfl)
        fun _ => Confines.pure _) (Confines.pure _)
    · refine Confines.bind (Confines.of_units (fun _ => rfl) fun _ => le_rfl) fun _ => ?_
      refine Confines.bind (phases_confined hhost name origin rs) fun err => ?_
      refine Confines.bind (Confines.of_units (fun b => (finish_run name err b).1)
        fun b => (finish_run name err b).2.1.ge) fun _ => Confines.pure _

/-- The host of nested requests changes no scope that exists, whatever its fuel. -/
theorem host_keeps_scopes (fuel : Nat) : Eval.HostConfines (host fuel) :=
  host_confines fuel (request_confined fuel)

/-- A request, on behalf of some unit, for a unit that has a tree, installed or pending, answers
at once and changes no table and no unit. -/
theorem request_of_file {b : Build} {name : String} {f : SourceFile}
    (hf : b.units.file? name = some f) (fuel : Nat) (origin : Origin) (parallel : Bool)
    (r : String) (rs : List String) :
    ((request fuel name origin parallel (r :: rs)).run b).2.tables = b.tables ∧
      ((request fuel name origin parallel (r :: rs)).run b).2.units = b.units := by
  cases fuel with
  | zero =>
    rw [request]
    exact ⟨rfl, rfl⟩
  | succ fuel =>
    rw [request]
    simp only [StateT.run_bind, StateT.run_get, pure_bind, List.isEmpty_cons, Bool.false_and,
      Bool.false_eq_true, if_false]
    split
    · exact ⟨rfl, rfl⟩
    · rename_i hc
      split
      · split
        · exact ⟨rfl, rfl⟩
        · exact ⟨rfl, rfl⟩
      · -- a unit with a tree is installed or pending
        rename_i hp
        simp only [Units.isCompiled, Units.isPending, Bool.not_eq_true, Option.isSome_eq_false_iff,
          Option.isNone_iff_eq_none] at hc hp
        simp [Units.file?, hc, hp] at hf

end Service

/-- A fresh build is tidy: it records no scope and holds no table. -/
theorem Tidy.start (files : Files) : Tidy (Build.start files) where
  fresh _ _ := by simp [Build.start, Notes.scopeOf?]
  distinct _ _ h := by simp [Build.start] at h

namespace Service

/-- Every build the service reaches is tidy, so imports run in it merge as described. -/
theorem Served.tidy {b : Build} (h : Served b) : Tidy b := by
  -- a named compilation draws a fresh name, then requests it
  have hnamed : ∀ kind (origin : String → Origin) parallel,
      Confines (fun _ => False) (do
        let name ← freshName kind
        return (name, ← request nestingLimit name (origin name) parallel [])) :=
    fun kind origin parallel => Confines.bind (freshName_confines kind) fun name =>
      Confines.bind (request_confined _ name (origin name) parallel []) fun _ => Confines.pure _
  induction h with
  | start files => exact Tidy.start files
  | compileFile path parallel _ ih => exact (request_confined _ _ _ parallel [] _ ih).1
  | compileSource text parallel _ ih => exact (hnamed "source" _ parallel _ ih).1
  | compileStream text cut parallel _ ih => exact (hnamed "stream" _ parallel _ ih).1
  | drain _ ih =>
    have hdrain : Confines (fun _ => False) Build.drain :=
      Confines.of_units (fun _ => rfl) fun _ => le_rfl
    exact (hdrain _ ih).1
  | cancel _ ih =>
    have hcancel : Confines (fun _ => False) Build.cancel :=
      Confines.of_units (fun _ => rfl) fun _ => le_rfl
    exact (hcancel _ ih).1

end Service

end Abla
