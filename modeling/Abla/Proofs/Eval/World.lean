import Mathlib
import Abla.Eval.Execute
import Abla.Proofs.Typing.Scoping

/-!
# Sound builds

Compile-time evaluation fails with an internal error only where the build is not as the
earlier phases leave it: a name bound to a function symbol without its declaration, a function
called before its scope was recorded, a unit imported without its tree or its file scope.
`Sound G b` says that none of this can happen in the build `b`, for a set `G` of good scopes,
the scopes of the units that were gathered without error. A good scope exists, hangs below
good scopes, and holds symbols whose functions can be called: extern, or with a good scope
recorded. Every unit with a tree has a good file scope, and a pending unit has its tree.

Evaluation extends a build (`Grows`): the good scopes only grow, and a scope once recorded at a
node stays. The values the evaluator holds are good in a build (`Value.Good`): a function is
callable and typed by a function type, and a function literal closes over good scopes; both
stay good as the build grows.

`Keeps G b x Q` is the triple of a computation on builds: run from the sound build `b`, `x`
leaves a sound build extending it, where its result satisfies `Q`. `Eval.Safe` is its form for
evaluation, which may fail: a computation that fails does so with an error the program itself
causes (`evalKinds`): an integer literal out of range, a name that resolves to nothing, or an
execution error.
-/

namespace Abla

/-- A function that may be called at compile time: extern, so that calling it fails, or with
its scope recorded, a good one. -/
def Callable (G : ScopeId → Prop) (n : Notes) (f : FuncDecl) : Prop :=
  f.isExtern = true ∨ ∃ s, n.scopeOf? f.site.id = some s ∧ G s

/-- A symbol that may stand in a good scope: a function symbol has its declaration, which may
be called. -/
def Symbol.Ok (G : ScopeId → Prop) (n : Notes) (sym : Symbol) : Prop :=
  sym.kind = .func → ∃ f, sym.decl = some f ∧ Callable G n f

mutual

/-- A value the evaluator may hold: a function is callable, and its type, if known, is a
function type; a function literal closes over a good environment. -/
def Value.Good (G : ScopeId → Prop) (n : Notes) : Value → Prop
  | .lambda _ env => env.Good G n
  | .func f t => Callable G n f ∧ Eval.funcType? t = t
  | _ => True

/-- An environment whose values are good and whose scopes, its own and those around it, are
good. -/
def Env.Good (G : ScopeId → Prop) (n : Notes) : Env → Prop
  | .mk vars s outer => Value.GoodVars G n vars ∧ G s ∧ Env.GoodOuter G n outer

/-- Bindings to good values. -/
def Value.GoodVars (G : ScopeId → Prop) (n : Notes) : List (String × Value) → Prop
  | [] => True
  | (_, v) :: vs => v.Good G n ∧ Value.GoodVars G n vs

/-- No environment around, or a good one. -/
def Env.GoodOuter (G : ScopeId → Prop) (n : Notes) : Option Env → Prop
  | none => True
  | some e => e.Good G n

end

/-- The good scopes of tables exist, hang below good scopes, and hold symbols that may stand
there. -/
structure Closed (G : ScopeId → Prop) (t : Tables) : Prop where
  lt_size : ∀ s, G s → s < t.scopes.tables.size
  parent : ∀ s sc p, G s → t.scopes.tables[s]? = some sc → sc.parent = some p → G p
  symbols : ∀ s sc, G s → t.scopes.tables[s]? = some sc → ∀ sym ∈ sc.symbols, sym.Ok G t.notes

/-- A unit that may be imported: once it has a tree, the tree's scope is recorded, a good one,
and a pending unit has its tree. -/
def UnitOk (G : ScopeId → Prop) (b : Build) (name : String) : Prop :=
  (∀ f, b.units.file? name = some f → ∃ s, b.tables.notes.scopeOf? f.site.id = some s ∧ G s) ∧
    ∀ o, b.units.pending.lookup name = some o → o.isSome

/-- A build in which evaluation meets no broken invariant, for the good scopes `G`: its tables
are closed, no node not yet numbered records a scope, and its units may be imported. -/
structure Sound (G : ScopeId → Prop) (b : Build) : Prop where
  closed : Closed G b.tables
  fresh : ∀ k, b.nextNode ≤ k → b.tables.notes.scopeOf? k = none
  units : ∀ name, UnitOk G b name

/-- `b'` with good scopes `G'` extends `b` with `G`: more scopes are good, every scope recorded
at a node stays recorded there, and every pending unit stays pending as it was. -/
structure Grows (G : ScopeId → Prop) (b : Build) (G' : ScopeId → Prop) (b' : Build) : Prop where
  good : ∀ s, G s → G' s
  noted : ∀ k s, b.tables.notes.scopeOf? k = some s → b'.tables.notes.scopeOf? k = some s
  pending : ∀ n o, b.units.pending.lookup n = some o → b'.units.pending.lookup n = some o

section Growth

variable {G G' G'' : ScopeId → Prop} {b b' b'' : Build}

theorem Grows.refl (G : ScopeId → Prop) (b : Build) : Grows G b G b :=
  ⟨fun _ h => h, fun _ _ h => h, fun _ _ h => h⟩

theorem Grows.trans (h₁ : Grows G b G' b') (h₂ : Grows G' b' G'' b'') : Grows G b G'' b'' :=
  ⟨fun s h => h₂.good s (h₁.good s h), fun k s h => h₂.noted k s (h₁.noted k s h),
    fun n o h => h₂.pending n o (h₁.pending n o h)⟩

/-- A build with the tables and pending units of another extends it. -/
theorem Grows.of_eq (ht : b'.tables = b.tables) (hp : b'.units.pending = b.units.pending) :
    Grows G b G b' :=
  ⟨fun _ hs => hs, fun _ _ hk => by rwa [ht], fun _ _ hn => by rwa [hp]⟩

/-- A callable function stays callable in notes that keep every recorded scope, with more
good scopes. -/
theorem Callable.of_notes {n n' : Notes} {f : FuncDecl} (hG : ∀ s, G s → G' s)
    (hn : ∀ k s, n.scopeOf? k = some s → n'.scopeOf? k = some s) (h : Callable G n f) :
    Callable G' n' f := by
  rcases h with h | ⟨s, hs, hg⟩
  · exact Or.inl h
  · exact Or.inr ⟨s, hn _ _ hs, hG s hg⟩

theorem Symbol.Ok.of_notes {n n' : Notes} {sym : Symbol} (hG : ∀ s, G s → G' s)
    (hn : ∀ k s, n.scopeOf? k = some s → n'.scopeOf? k = some s) (h : sym.Ok G n) :
    sym.Ok G' n' := fun hk => by
  obtain ⟨f, hf, hc⟩ := h hk
  exact ⟨f, hf, hc.of_notes hG hn⟩

theorem Callable.mono {f : FuncDecl} (hg : Grows G b G' b')
    (h : Callable G b.tables.notes f) : Callable G' b'.tables.notes f :=
  h.of_notes hg.good hg.noted

theorem Symbol.Ok.mono {sym : Symbol} (hg : Grows G b G' b')
    (h : sym.Ok G b.tables.notes) : sym.Ok G' b'.tables.notes :=
  h.of_notes hg.good hg.noted

mutual

theorem Value.Good.mono (hg : Grows G b G' b') :
    ∀ v : Value, v.Good G b.tables.notes → v.Good G' b'.tables.notes
  | .lambda _ env, h => Env.Good.mono hg env h
  | .func _ _, h => ⟨h.1.mono hg, h.2⟩
  | .int _, _ | .str _, _ | .bool _, _ | .void, _ | .builtin _, _ => trivial

theorem Env.Good.mono (hg : Grows G b G' b') :
    ∀ env : Env, env.Good G b.tables.notes → env.Good G' b'.tables.notes
  | .mk vars _ outer, h =>
    ⟨Value.GoodVars.mono hg vars h.1, hg.good _ h.2.1, Env.GoodOuter.mono hg outer h.2.2⟩

theorem Value.GoodVars.mono (hg : Grows G b G' b') :
    ∀ vars : List (String × Value), Value.GoodVars G b.tables.notes vars →
      Value.GoodVars G' b'.tables.notes vars
  | [], _ => trivial
  | (_, v) :: vs, h => ⟨Value.Good.mono hg v h.1, Value.GoodVars.mono hg vs h.2⟩

theorem Env.GoodOuter.mono (hg : Grows G b G' b') :
    ∀ o : Option Env, Env.GoodOuter G b.tables.notes o → Env.GoodOuter G' b'.tables.notes o
  | none, _ => trivial
  | some e, h => Env.Good.mono hg e h

end

end Growth

section Values

variable {G : ScopeId → Prop} {n : Notes} {name : String} {v : Value}

theorem Value.GoodVars.lookup :
    ∀ vars : List (String × Value), Value.GoodVars G n vars → vars.lookup name = some v →
      v.Good G n
  | [], _, hl => by simp at hl
  | (m, w) :: vs, h, hl => by
    rw [List.lookup_cons] at hl
    split at hl
    · cases hl
      exact h.1
    · exact Value.GoodVars.lookup vs h.2 hl

theorem Value.goodVars_iff :
    ∀ vars : List (String × Value), Value.GoodVars G n vars ↔ ∀ p ∈ vars, p.2.Good G n
  | [] => by simp [Value.GoodVars]
  | (_, v) :: vs => by simp [Value.GoodVars, Value.goodVars_iff vs]

theorem Env.Good.scope {env : Env} (h : env.Good G n) : G env.scope := by
  cases env
  exact h.2.1

/-- A name bound in a good environment, or in one around it, is bound to a good value. -/
theorem Env.Good.find? : ∀ env : Env, env.Good G n → env.find? name = some v → v.Good G n
  | .mk vars _ none, h, hf => by
    unfold Env.find? at hf
    split at hf
    · rename_i w hw
      cases hf
      exact h.1.lookup vars hw
    · cases hf
  | .mk vars _ (some o), h, hf => by
    unfold Env.find? at hf
    split at hf
    · rename_i w hw
      cases hf
      exact h.1.lookup vars hw
    · exact Env.Good.find? o h.2.2 hf

end Values

section Tables

variable {G : ScopeId → Prop} {t : Tables}

/-- A name looked up from a good scope resolves to a symbol of a good scope. -/
theorem Closed.lookup (hc : Closed G t) {name : String} {sym : Symbol} :
    ∀ s : Nat, G s → t.scopes.lookup s name = some sym → sym.Ok G t.notes := by
  intro s
  induction s using Nat.strong_induction_on with
  | _ s ih =>
    intro hs h
    rw [Scopes.lookup] at h
    cases hl : t.scopes.lookupLocal s name with
    | some sym' =>
      simp only [hl, Option.some.injEq] at h
      subst h
      -- the scope itself defines the name
      unfold Scopes.lookupLocal at hl
      split at hl
      · rename_i sc hsc
        exact hc.symbols s sc hs hsc _ (List.mem_of_find?_eq_some hl)
      · cases hl
    | none =>
      simp only [hl] at h
      split at h
      · rename_i p syms hsc
        split at h
        · rename_i hp
          exact ih p hp (hc.parent s _ p hs hsc rfl) h
        · cases h
      · cases h

/-- Tables whose scopes are as they were and whose nodes record the same scopes are closed
when they were. -/
theorem Closed.of_notes {t' : Tables} (hc : Closed G t) (hs : t'.scopes = t.scopes)
    (hn : ∀ k, t'.notes.scopeOf? k = t.notes.scopeOf? k) : Closed G t' := by
  have hok : ∀ sym : Symbol, sym.Ok G t.notes → sym.Ok G t'.notes := fun sym h =>
    h.of_notes (fun _ h => h) fun k s hk => by rw [hn]; exact hk
  refine ⟨fun s h => hs ▸ hc.lt_size s h, fun s sc p h hsc hp => ?_, fun s sc h hsc => ?_⟩
  · rw [hs] at hsc
    exact hc.parent s sc p h hsc hp
  · rw [hs] at hsc
    exact fun sym hsym => hok sym (hc.symbols s sc h hsc sym hsym)

/-- Defining a symbol that may stand in a good scope keeps the tables closed. -/
theorem Closed.define (hc : Closed G t) {s : ScopeId} {sym : Symbol}
    (hsym : sym.Ok G t.notes) : Closed G { t with scopes := (t.scopes.define s sym).1 } := by
  refine ⟨fun s' h => by simpa using hc.lt_size s' h, fun s' sc p h hsc hp => ?_,
    fun s' sc h hsc => ?_⟩
  all_goals
    rw [Scopes.define_getElem?] at hsc
    split at hsc
  · rename_i hss
    obtain ⟨sc₀, hsc₀, rfl⟩ := Option.map_eq_some_iff.1 hsc
    refine hc.parent s' sc₀ p h hsc₀ ?_
    split at hp <;> exact hp
  · exact hc.parent s' sc p h hsc hp
  · rename_i hss
    obtain ⟨sc₀, hsc₀, rfl⟩ := Option.map_eq_some_iff.1 hsc
    intro y hy
    split at hy
    · exact hc.symbols s' sc₀ h hsc₀ y hy
    · rcases List.mem_append.1 hy with hy | hy
      · exact hc.symbols s' sc₀ h hsc₀ y hy
      · rw [List.mem_singleton.1 hy]
        exact hsym
  · exact hc.symbols s' sc h hsc

end Tables

section Builds

variable {G : ScopeId → Prop} {b : Build}

@[simp] theorem Build.report_tables (e : Event) : (b.report e).tables = b.tables := rfl

@[simp] theorem Build.report_units (e : Event) : (b.report e).units = b.units := rfl

@[simp] theorem Build.report_nextNode (e : Event) : (b.report e).nextNode = b.nextNode := rfl

/-- A build with the tables and the installed and pending units of a sound one, and a later node
counter, is sound. -/
theorem Sound.of_eq {b' : Build} (hs : Sound G b) (ht : b'.tables = b.tables)
    (hc : b'.units.compiled = b.units.compiled) (hp : b'.units.pending = b.units.pending)
    (hn : b.nextNode ≤ b'.nextNode) : Sound G b' := by
  obtain ⟨hcl, hf, hu⟩ := hs
  have hfile : ∀ name, b'.units.file? name = b.units.file? name := fun name => by
    simp [Units.file?, hc, hp]
  refine ⟨ht ▸ hcl, fun k hk => ht ▸ hf k (Nat.le_trans hn hk), fun name => ?_⟩
  rw [UnitOk, ht, hfile, hp]
  exact hu name

theorem Sound.report (hs : Sound G b) (e : Event) : Sound G (b.report e) :=
  hs.of_eq rfl rfl rfl le_rfl

/-- A sound build stays sound with closed tables whose nodes record the same scopes. -/
theorem Sound.withTables (hs : Sound G b) {t : Tables} (hc : Closed G t)
    (hn : ∀ k, t.notes.scopeOf? k = b.tables.notes.scopeOf? k) :
    Sound G { b with tables := t } := by
  refine ⟨hc, fun k hk => (hn k).trans (hs.fresh k hk), fun name => ⟨fun f hf => ?_, ?_⟩⟩
  · obtain ⟨s, hrec, hG⟩ := (hs.units name).1 f hf
    exact ⟨s, (hn _).trans hrec, hG⟩
  · exact (hs.units name).2

theorem Grows.withTables {t : Tables} (hn : ∀ k, t.notes.scopeOf? k = b.tables.notes.scopeOf? k) :
    Grows G b G { b with tables := t } :=
  ⟨fun _ h => h, fun k _ hk => (hn k).trans hk, fun _ _ h => h⟩

end Builds

/-- Run from the sound build `b` with good scopes `G`, `x` leaves a sound build that extends
it, where its result satisfies `Q`. -/
def Keeps {α : Type} (G : ScopeId → Prop) (b : Build) (x : StateM Build α)
    (Q : (ScopeId → Prop) → Build → α → Prop) : Prop :=
  ∃ G', Grows G b G' (x.run b).2 ∧ Sound G' (x.run b).2 ∧ Q G' (x.run b).2 (x.run b).1

namespace Keeps

variable {α β : Type} {G : ScopeId → Prop} {b : Build}
  {Q R : (ScopeId → Prop) → Build → α → Prop}

theorem pure (hs : Sound G b) {a : α} (hq : Q G b a) : Keeps G b (Pure.pure a) Q :=
  ⟨G, Grows.refl G b, hs, hq⟩

theorem mono {x : StateM Build α} (hQR : ∀ G b a, Q G b a → R G b a) (h : Keeps G b x Q) :
    Keeps G b x R := by
  obtain ⟨G', hg, hs, hq⟩ := h
  exact ⟨G', hg, hs, hQR _ _ _ hq⟩

theorem of_run {x : StateM Build α} {a : α} {G' : ScopeId → Prop} {b' : Build}
    (h : x.run b = (a, b')) (hg : Grows G b G' b') (hs : Sound G' b') (hq : Q G' b' a) :
    Keeps G b x Q := by
  unfold Keeps
  rw [h]
  exact ⟨G', hg, hs, hq⟩

theorem get_bind {f : Build → StateM Build α} (hf : Keeps G b (f b) Q) :
    Keeps G b (get >>= f) Q := hf

theorem ite {c : Prop} [Decidable c] {x y : StateM Build α} (hx : c → Keeps G b x Q)
    (hy : ¬c → Keeps G b y Q) : Keeps G b (if c then x else y) Q := by
  split
  · rename_i h
    exact hx h
  · rename_i h
    exact hy h

theorem bind {x : StateM Build α} {f : α → StateM Build β}
    {S : (ScopeId → Prop) → Build → β → Prop} (hx : Keeps G b x Q)
    (hf : ∀ G' b' a, Grows G b G' b' → Sound G' b' → Q G' b' a → Keeps G' b' (f a) S) :
    Keeps G b (x >>= f) S := by
  obtain ⟨G₁, hg₁, hs₁, hq₁⟩ := hx
  obtain ⟨G₂, hg₂, hs₂, hq₂⟩ := hf G₁ _ _ hg₁ hs₁ hq₁
  exact ⟨G₂, hg₁.trans hg₂, hs₂, hq₂⟩

end Keeps

/-- The kinds of error compile-time evaluation may fail with, each caused by the program: an
integer literal out of range, a name that resolves to nothing, and an execution error. -/
def evalKinds : List ErrorKind := [.parse, .unresolved, .execution]

namespace Eval

section Run

variable {α β : Type} (b : Build)

/-- Running a `do` block of the evaluator runs its first step and, on success, the rest from
the build that step leaves. -/
theorem Run.run_bind (x : Run α) (f : α → Run β) :
    (x >>= f).run.run b =
      match x.run.run b with
      | (.ok a, b') => (f a).run.run b'
      | (.error e, b') => (.error e, b') := by
  simp only [ExceptT.run_bind, StateT.run_bind]
  rcases h : x.run.run b with ⟨r, b'⟩
  cases r <;> simp_all <;> rfl

@[simp] theorem Run.run_ofExcept (x : Except CompileError α) :
    (MonadExcept.ofExcept x : Run α).run.run b = (x, b) := by
  cases x <;> rfl

theorem Run.run_tryCatch (x : Run α) (h : CompileError → Run α) :
    (MonadExcept.tryCatch x h : Run α).run.run b =
      match x.run.run b with
      | (.ok a, b') => (.ok a, b')
      | (.error e, b') => (h e).run.run b' := by
  rcases hr : x.run.run b with ⟨r, b'⟩
  show (ExceptT.tryCatch x h).run.run b = _
  simp only [ExceptT.tryCatch, ExceptT.run_mk, StateT.run_bind]
  rw [show StateT.run x b = (r, b') from hr]
  cases r <;> rfl

end Run

/-- The end of an evaluation: a result of `Q`, or an error the program causes. -/
def Ends {α : Type} (Q : (ScopeId → Prop) → Build → α → Prop) (G : ScopeId → Prop) (b : Build) :
    Except CompileError α → Prop
  | .ok a => Q G b a
  | .error e => e.kind ∈ evalKinds

/-- Run from a sound build, `x` leaves a sound build that extends it, and there either gives a
result of `Q` or fails with an error the program causes. -/
def Safe {α : Type} (G : ScopeId → Prop) (b : Build) (x : Run α)
    (Q : (ScopeId → Prop) → Build → α → Prop) : Prop :=
  Keeps G b x.run (Ends Q)

namespace Safe

variable {α β : Type} {G : ScopeId → Prop} {b : Build}
  {Q R : (ScopeId → Prop) → Build → α → Prop}

theorem pure (hs : Sound G b) {a : α} (hq : Q G b a) : Safe G b (Pure.pure a) Q :=
  ⟨G, Grows.refl G b, hs, hq⟩

theorem throw (hs : Sound G b) {e : CompileError} (he : e.kind ∈ evalKinds) :
    Safe G b (MonadExcept.throw e : Run α) Q :=
  ⟨G, Grows.refl G b, hs, he⟩

theorem mono {x : Run α} (hQR : ∀ G b a, Q G b a → R G b a) (h : Safe G b x Q) :
    Safe G b x R :=
  Keeps.mono (fun G b r hr => by cases r with
    | ok a => exact hQR G b a hr
    | error e => exact hr) h

theorem bind {x : Run α} {f : α → Run β} {S : (ScopeId → Prop) → Build → β → Prop}
    (hx : Safe G b x Q)
    (hf : ∀ G' b' a, Grows G b G' b' → Sound G' b' → Q G' b' a → Safe G' b' (f a) S) :
    Safe G b (x >>= f) S := by
  obtain ⟨G₁, hg₁, hs₁, hq₁⟩ := hx
  unfold Safe Keeps
  rw [Run.run_bind]
  rcases hr : x.run.run b with ⟨r, b₁⟩
  rw [hr] at hg₁ hs₁ hq₁
  cases r with
  | error e => exact ⟨G₁, hg₁, hs₁, hq₁⟩
  | ok a =>
    obtain ⟨G₂, hg₂, hs₂, hq₂⟩ := hf G₁ b₁ a hg₁ hs₁ hq₁
    exact ⟨G₂, hg₁.trans hg₂, hs₂, hq₂⟩

/-- A computation whose run is known. -/
theorem of_run {x : Run α} {G' : ScopeId → Prop} {b' : Build} {r : Except CompileError α}
    (h : x.run.run b = (r, b')) (hg : Grows G b G' b') (hs : Sound G' b') (hq : Ends Q G' b' r) :
    Safe G b x Q := by
  unfold Safe Keeps
  rw [h]
  exact ⟨G', hg, hs, hq⟩

/-- A computation on builds that cannot fail, run by the evaluator. -/
theorem liftM {x : StateM Build α} (h : Keeps G b x Q) : Safe G b (liftM x) Q := h

/-- A loop whose every step, from any sound build extending the first, is safe and continues
with `P` of its element is safe, and then `P` holds of every element. -/
theorem forIn {γ : Type} {P : γ → Prop} {f : γ → PUnit → Run (ForInStep PUnit)} :
    ∀ (xs : List γ) {G : ScopeId → Prop} {b : Build}, Sound G b →
      (∀ a ∈ xs, ∀ G' b', Grows G b G' b' → Sound G' b' →
        Safe G' b' (f a PUnit.unit) fun _ _ r => r = .yield PUnit.unit ∧ P a) →
      Safe G b (ForIn.forIn xs PUnit.unit f) fun _ _ _ => ∀ a ∈ xs, P a
  | [], G, b, hs, _ => Safe.pure hs (by simp)
  | a :: as, G, b, hs, hf => by
    rw [List.forIn_cons]
    refine Safe.bind (hf a (by simp) G b (Grows.refl G b) hs) fun G₁ b₁ r hg₁ hs₁ hr => ?_
    obtain ⟨rfl, hPa⟩ := hr
    refine Safe.mono ?_ (forIn as hs₁ fun a' ha' G' b' hg' hs' =>
      hf a' (by simp [ha']) G' b' (hg₁.trans hg') hs')
    intro _ _ _ hall a' ha'
    rcases List.mem_cons.1 ha' with rfl | ha'
    exacts [hPa, hall a' ha']

/-- A test whose branches are safe when they run. -/
theorem ite {c : Prop} [Decidable c] {x y : Run α} (hx : c → Safe G b x Q)
    (hy : ¬c → Safe G b y Q) : Safe G b (if c then x else y) Q := by
  split
  · rename_i h
    exact hx h
  · rename_i h
    exact hy h

/-- Reading the build. -/
theorem get_bind {f : Build → Run α} (hf : Safe G b (f b) Q) : Safe G b (get >>= f) Q := hf

/-- A failure of an operator on values is an execution error. -/
theorem ofExcept (hs : Sound G b) {x : Except CompileError α} (hok : ∀ a, x = .ok a → Q G b a)
    (herr : ∀ e, x = .error e → e.kind ∈ evalKinds) :
    Safe G b (MonadExcept.ofExcept x) Q := by
  cases x with
  | ok a => exact ⟨G, Grows.refl G b, hs, hok a rfl⟩
  | error e => exact ⟨G, Grows.refl G b, hs, herr e rfl⟩

/-- An error stamped with its unit keeps its kind. -/
theorem tryCatch_inUnit {x : Run α} (u : String) (h : Safe G b x Q) :
    Safe G b (MonadExcept.tryCatch x fun e => MonadExcept.throw (e.inUnit u)) Q := by
  obtain ⟨G₁, hg₁, hs₁, hq₁⟩ := h
  unfold Safe Keeps
  rw [Run.run_tryCatch]
  rcases hr : x.run.run b with ⟨r, b₁⟩
  rw [hr] at hg₁ hs₁ hq₁
  cases r with
  | ok a => exact ⟨G₁, hg₁, hs₁, hq₁⟩
  | error e =>
    exact ⟨G₁, hg₁, hs₁, show (e.inUnit u).kind ∈ evalKinds by simpa [Ends] using hq₁⟩

end Safe

end Eval

end Abla
