import Mathlib
import Abla.Typing.Gather
import Abla.Proofs.Syntax.Numbering

/-!
# What gathering does to the scopes

Gathering a file changes the build's tables in four ways only (`Gather.Step`): it records a
type, records at one of the file's nodes a scope of its own, opens a scope below one of its
own, and defines a symbol in a scope of its own, a function only with its declaration, which
is extern or has a body. A scope is the file's own when it was opened after the gathering
began: the store numbers scopes in order, and the file's nodes are numbered after all others
(`SourceFile.number_fresh`). Every gathering function is shown to make only such steps
(`Stays`), whether it succeeds or fails, so that a failed gathering leaves behind nothing but
scopes of its own and notes at its own nodes.

From the steps follows what the rest of the build relies on (`gather_scopes`): no scope
opened before changes, no scope recorded at another node changes, every scope the file opened
hangs below another of its own, and once the gathering succeeded, the file and every function
of it with a body have their scopes recorded.
-/

namespace Abla

namespace Scopes

@[simp] theorem create_tables (st : Scopes) (parent : Option ScopeId) :
    (st.create parent).1.tables = st.tables.push ⟨parent, []⟩ := rfl

@[simp] theorem create_id (st : Scopes) (parent : Option ScopeId) :
    (st.create parent).2 = st.tables.size := rfl

/-- Defining a symbol appends it to its scope, unless the scope already defines its name. -/
theorem define_tables (st : Scopes) (id : ScopeId) (sym : Symbol) :
    (st.define id sym).1.tables = match st.tables[id]? with
      | some sc => if sc.symbols.any (·.name = sym.name) then st.tables
          else st.tables.set! id { sc with symbols := sc.symbols ++ [sym] }
      | none => st.tables := by
  unfold define
  cases h : st.tables[id]? with
  | none => rfl
  | some sc =>
    by_cases hc : (sc.symbols.any fun x => decide (x.name = sym.name)) = true <;> simp [hc]

@[simp] theorem define_size (st : Scopes) (id : ScopeId) (sym : Symbol) :
    (st.define id sym).1.tables.size = st.tables.size := by
  rw [define_tables]
  split
  · split <;> simp
  · rfl

/-- Defining a symbol changes no other scope, and keeps the parent of its own. -/
theorem define_getElem? (st : Scopes) (id s : ScopeId) (sym : Symbol) :
    (st.define id sym).1.tables[s]? = if s = id then
      (st.tables[s]?).map fun sc =>
        if sc.symbols.any (·.name = sym.name) then sc else { sc with symbols := sc.symbols ++ [sym] }
      else st.tables[s]? := by
  rw [define_tables]
  split
  · rename_i sc hsc
    split
    · split <;> simp_all
    · simp only [Array.set!_eq_setIfInBounds, Array.getElem?_setIfInBounds]
      have hlt : id < st.tables.size := (Array.getElem?_eq_some_iff.1 hsc).1
      by_cases h : s = id
      · subst h
        simp_all
      · simp [h, Ne.symm h]
  · split
    · simp_all
    · rfl

end Scopes

namespace Notes

@[simp] theorem scopeOf?_setType (n : Notes) (node k : Nat) (t : DataType) :
    (n.setType node t).scopeOf? k = n.scopeOf? k := rfl

theorem scopeOf?_setScope_of_ne (n : Notes) {node k : Nat} (s : ScopeId) (h : node ≠ k) :
    (n.setScope node s).scopeOf? k = n.scopeOf? k := by
  simp [setScope, scopeOf?, Std.HashMap.getElem?_insert, h]

@[simp] theorem typeOf?_setScope (n : Notes) (node k : Nat) (s : Nat) :
    (n.setScope node s).typeOf? k = n.typeOf? k := rfl

theorem typeOf?_setType_of_ne (n : Notes) {node k : Nat} (t : DataType) (h : node ≠ k) :
    (n.setType node t).typeOf? k = n.typeOf? k := by
  simp [setType, typeOf?, Std.HashMap.getElem?_insert, h]

@[simp] theorem constOf?_setScope (n : Notes) (node k : Nat) (s : Nat) :
    (n.setScope node s).constOf? k = n.constOf? k := rfl

end Notes

namespace Gather

/-- A symbol that may stand in a scope: a function only with its declaration, one of `F`,
which is extern or has a body. -/
def Declared (F : FuncDecl → Prop) (sym : Symbol) : Prop :=
  sym.kind = .func → ∃ g, sym.decl = some g ∧ F g ∧ (g.isExtern = true ∨ g.body.isSome = true)

section Steps

variable (own : Nat → Prop) (n₀ : Nat) (F : FuncDecl → Prop)

/-- One change of the tables that gathering a file may make, for a file whose nodes are
those of `own` and whose functions are those of `F`, the scopes from `n₀` on
being its own. -/
inductive Step : Tables → Tables → Prop
  /-- Records the type of a node of the file. -/
  | note (t : Tables) (node : Nat) (ty : DataType) (hnode : own node) :
      Step t { t with notes := t.notes.setType node ty }
  /-- Records at a node of the file a scope of its own. -/
  | noteScope (t : Tables) (node s : Nat) (hnode : own node) (hs : n₀ ≤ s)
      (hsize : s < t.scopes.tables.size) :
      Step t { t with notes := t.notes.setScope node s }
  /-- Opens a scope, below one of its own if below any. -/
  | create (t : Tables) (parent : Option ScopeId)
      (hparent : ∀ p : Nat, parent = some p → n₀ ≤ p ∧ p < t.scopes.tables.size) :
      Step t { t with scopes := (t.scopes.create parent).1 }
  /-- Defines a symbol in a scope of its own. -/
  | define (t : Tables) (s : Nat) (sym : Symbol) (hs : n₀ ≤ s) (hsym : Declared F sym) :
      Step t { t with scopes := (t.scopes.define s sym).1 }

/-- Changes that gathering a file may make, one after another. -/
abbrev Steps : Tables → Tables → Prop := Relation.ReflTransGen (Step own n₀ F)

/-- The nodes of the file record scopes of its own, which exist. -/
def NewNotes (t : Tables) : Prop :=
  ∀ k s : Nat, own k → t.notes.scopeOf? k = some s → n₀ ≤ s ∧ s < t.scopes.tables.size

/-- The file's own scopes hang below its own scopes, which come before them, and hold
symbols that may stand there. -/
def NewScopes (t : Tables) : Prop :=
  ∀ (s : Nat) sc, n₀ ≤ s → t.scopes.tables[s]? = some sc →
    (∀ p : Nat, sc.parent = some p → n₀ ≤ p ∧ p < s) ∧ ∀ sym ∈ sc.symbols, Declared F sym

end Steps

section StepFacts

variable {own : Nat → Prop} {n₀ : Nat} {F : FuncDecl → Prop} {t t' : Tables}

/-- A property that every step keeps holds after any number of steps. -/
theorem Steps.keep (P : Tables → Prop) (hP : ∀ a b, Step own n₀ F a b → P a → P b)
    (h : Steps own n₀ F t t') (ht : P t) : P t' := by
  induction h with
  | refl => exact ht
  | tail _ hstep ih => exact hP _ _ hstep ih

theorem Step.size_le (h : Step own n₀ F t t') :
    t.scopes.tables.size ≤ t'.scopes.tables.size := by
  cases h <;> simp

theorem Steps.size_le (h : Steps own n₀ F t t') :
    t.scopes.tables.size ≤ t'.scopes.tables.size :=
  Steps.keep (fun b => t.scopes.tables.size ≤ b.scopes.tables.size)
    (fun _ _ hs hle => hle.trans hs.size_le) h le_rfl

/-- A step changes no scope opened before the file's. -/
theorem Step.old_scope (h : Step own n₀ F t t') {s : Nat} (hs : s < n₀)
    (hsize : s < t.scopes.tables.size) : t'.scopes.tables[s]? = t.scopes.tables[s]? := by
  cases h with
  | note | noteScope => rfl
  | create parent =>
    simp [Array.getElem?_push, Nat.ne_of_lt hsize]
  | define s' sym hs' =>
    rw [Scopes.define_getElem?, if_neg (show s ≠ s' by omega)]

theorem Steps.old_scope (h : Steps own n₀ F t t') {s : Nat} (hs : s < n₀)
    (hsize : s < t.scopes.tables.size) : t'.scopes.tables[s]? = t.scopes.tables[s]? :=
  Steps.keep (fun b => b.scopes.tables[s]? = t.scopes.tables[s]?)
    (fun a b hstep ha => by
      have hsa : s < a.scopes.tables.size := by
        have hne : t.scopes.tables[s]? ≠ none := by simp [hsize]
        rw [← ha] at hne
        exact Nat.lt_of_not_le fun hle => hne (Array.getElem?_eq_none_iff.2 hle)
      rw [hstep.old_scope hs hsa, ha]) h rfl

/-- A step changes the scope recorded at no node before the file's. -/
theorem Step.old_note (h : Step own n₀ F t t') {k : Nat} (hk : ¬ own k) :
    t'.notes.scopeOf? k = t.notes.scopeOf? k := by
  cases h with
  | note | create | define => rfl
  | noteScope node s hnode => exact Notes.scopeOf?_setScope_of_ne _ _ fun h => hk (h ▸ hnode)

theorem Steps.old_note (h : Steps own n₀ F t t') {k : Nat} (hk : ¬ own k) :
    t'.notes.scopeOf? k = t.notes.scopeOf? k :=
  Steps.keep (fun b => b.notes.scopeOf? k = t.notes.scopeOf? k)
    (fun _ _ hstep ha => (hstep.old_note hk).trans ha) h rfl

/-- A scope once recorded at a node stays recorded. -/
theorem Step.noted (h : Step own n₀ F t t') {k : Nat} (hk : (t.notes.scopeOf? k).isSome) :
    (t'.notes.scopeOf? k).isSome := by
  cases h with
  | note | create | define => exact hk
  | noteScope node s =>
    by_cases hnk : node = k
    · subst hnk
      simp
    · rwa [Notes.scopeOf?_setScope_of_ne _ _ hnk]

theorem Steps.noted (h : Steps own n₀ F t t') {k : Nat} (hk : (t.notes.scopeOf? k).isSome) :
    (t'.notes.scopeOf? k).isSome :=
  Steps.keep (fun b => (b.notes.scopeOf? k).isSome) (fun _ _ hstep => hstep.noted) h hk

/-- A step records no type at a node outside the file. -/
theorem Step.old_type (h : Step own n₀ F t t') {k : Nat} (hk : ¬ own k) :
    t'.notes.typeOf? k = t.notes.typeOf? k := by
  cases h with
  | note node ty hnode => exact Notes.typeOf?_setType_of_ne _ _ fun he => hk (he ▸ hnode)
  | noteScope | create | define => rfl

theorem Steps.old_type (h : Steps own n₀ F t t') {k : Nat} (hk : ¬ own k) :
    t'.notes.typeOf? k = t.notes.typeOf? k :=
  Steps.keep (fun b => b.notes.typeOf? k = t.notes.typeOf? k)
    (fun _ _ hstep ha => (hstep.old_type hk).trans ha) h rfl

/-- Gathering records no constant. -/
theorem Step.constOf? (h : Step own n₀ F t t') (k : Nat) :
    t'.notes.constOf? k = t.notes.constOf? k := by
  cases h <;> rfl

theorem Steps.constOf? (h : Steps own n₀ F t t') (k : Nat) :
    t'.notes.constOf? k = t.notes.constOf? k :=
  Steps.keep (fun b => b.notes.constOf? k = t.notes.constOf? k)
    (fun _ _ hstep ha => (hstep.constOf? k).trans ha) h rfl

theorem Step.newNotes (h : Step own n₀ F t t') (ht : NewNotes own n₀ t) : NewNotes own n₀ t' := by
  intro k s hk hks
  cases h with
  | note => exact ht k s hk hks
  | create =>
    obtain ⟨h₁, h₂⟩ := ht k s hk hks
    exact ⟨h₁, by simp only [Scopes.create_tables, Array.size_push]; omega⟩
  | define => simpa using ht k s hk hks
  | noteScope node s' hnode hs' hsize =>
    by_cases hnk : node = k
    · subst hnk
      simp only [Notes.scopeOf?_setScope, Option.some.injEq] at hks
      subst hks
      exact ⟨hs', hsize⟩
    · rw [Notes.scopeOf?_setScope_of_ne _ _ hnk] at hks
      exact ht k s hk hks

theorem Steps.newNotes (h : Steps own n₀ F t t') (ht : NewNotes own n₀ t) : NewNotes own n₀ t' :=
  Steps.keep _ (fun _ _ hstep => hstep.newNotes) h ht

theorem Step.newScopes (h : Step own n₀ F t t') (ht : NewScopes n₀ F t) : NewScopes n₀ F t' := by
  intro s sc hs hsc
  cases h with
  | note | noteScope => exact ht s sc hs hsc
  | create parent hparent =>
    simp only [Scopes.create_tables, Array.getElem?_push] at hsc
    by_cases hsz : s = t.scopes.tables.size
    · rw [if_pos hsz, Option.some.injEq] at hsc
      subst hsc
      refine ⟨fun p hp => ?_, by simp⟩
      obtain ⟨h₁, h₂⟩ := hparent p hp
      exact ⟨h₁, by omega⟩
    · rw [if_neg hsz] at hsc
      exact ht s sc hs hsc
  | define s' sym hs' hsym =>
    rw [Scopes.define_getElem?] at hsc
    split at hsc
    · rename_i hss
      subst hss
      obtain ⟨sc₀, hsc₀, rfl⟩ := Option.map_eq_some_iff.1 hsc
      obtain ⟨hpar, hsyms⟩ := ht s sc₀ hs hsc₀
      split
      · exact ⟨hpar, hsyms⟩
      · refine ⟨hpar, fun y hy => ?_⟩
        rcases List.mem_append.1 hy with hy | hy
        · exact hsyms y hy
        · rw [List.mem_singleton.1 hy]
          exact hsym
    · exact ht s sc hs hsc

theorem Steps.newScopes (h : Steps own n₀ F t t') (ht : NewScopes n₀ F t) : NewScopes n₀ F t' :=
  Steps.keep _ (fun _ _ hstep => hstep.newScopes) h ht

/-- The scope a class's members go into, the one recorded at the class's node or else the
enclosing one, is one of the file's own. -/
theorem NewNotes.scope_getD (hN : NewNotes own n₀ t) {s k : Nat} (hs : n₀ ≤ s)
    (hst : s < t.scopes.tables.size) (hk : own k) :
    n₀ ≤ ((t.notes.scopeOf? k).getD s : Nat) ∧
      ((t.notes.scopeOf? k).getD s : Nat) < t.scopes.tables.size := by
  cases hsc : t.notes.scopeOf? k with
  | none => exact ⟨hs, hst⟩
  | some i => simpa using hN k i hk hsc

end StepFacts

section Stays

variable {own : Nat → Prop} {n₀ : Nat} {F : FuncDecl → Prop} {α β : Type}

theorem M.run_bind (x : M α) (f : α → M β) (t : Tables) :
    (x >>= f).run.run t =
      match x.run.run t with
      | (.ok a, t') => (f a).run.run t'
      | (.error e, t') => (.error e, t') := by
  simp only [ExceptT.run_bind, StateT.run_bind]
  rcases h : x.run.run t with ⟨r, t'⟩
  cases r <;> simp_all <;> rfl

@[simp] theorem M.run_get (t : Tables) : (get : M Tables).run.run t = (.ok t, t) := rfl

@[simp] theorem M.run_set (t t' : Tables) : (set t' : M Unit).run.run t = (.ok (), t') := rfl

@[simp] theorem M.run_modify (f : Tables → Tables) (t : Tables) :
    (modify f : M Unit).run.run t = (.ok (), f t) := rfl

@[simp] theorem M.run_pure (a : α) (t : Tables) : (pure a : M α).run.run t = (.ok a, t) := rfl

theorem M.run_tryCatch (x : M α) (h : CompileError → M α) (t : Tables) :
    (tryCatch x h : M α).run.run t =
      match x.run.run t with
      | (.ok a, t') => (.ok a, t')
      | (.error e, t') => (h e).run.run t' := by
  rcases hr : x.run.run t with ⟨r, t'⟩
  show (ExceptT.tryCatch x h).run.run t = _
  simp only [ExceptT.tryCatch, ExceptT.run_mk, StateT.run_bind]
  rw [show StateT.run x t = (r, t') from hr]
  cases r <;> rfl

variable (own n₀ F) in
/-- Run from tables with at least `m` scopes whose file nodes record the file's own scopes,
`x` changes them only by steps of gathering the file. -/
def Stays (m : Nat) (x : M α) : Prop :=
  ∀ t, NewNotes own n₀ t → m ≤ t.scopes.tables.size → Steps own n₀ F t (x.run.run t).2

namespace Stays

variable {m : Nat} {x : M α}

/-- A computation that only reads the tables stays. -/
theorem of_state (h : ∀ t, (x.run.run t).2 = t) : Stays own n₀ F m x := fun t _ _ => by
  rw [h]

theorem pure (a : α) : Stays own n₀ F m (Pure.pure a : M α) := of_state fun _ => rfl

theorem throw (e : CompileError) : Stays own n₀ F m (MonadExcept.throw e : M α) :=
  of_state fun _ => rfl

theorem mono {m' : Nat} (hle : m ≤ m') (h : Stays own n₀ F m x) : Stays own n₀ F m' x :=
  fun t hN hm => h t hN (hle.trans hm)

theorem bind {f : α → M β} (hx : Stays own n₀ F m x) (hf : ∀ a, Stays own n₀ F m (f a)) :
    Stays own n₀ F m (x >>= f) := by
  intro t hN hm
  have hxs := hx t hN hm
  rw [M.run_bind]
  rcases hr : x.run.run t with ⟨r, t₁⟩
  rw [hr] at hxs
  cases r with
  | error e => exact hxs
  | ok a => exact hxs.trans (hf a t₁ (hxs.newNotes hN) (hm.trans hxs.size_le))

/-- What follows a computation that always fails never runs. -/
theorem bind_fails {f : α → M β} (hx : Stays own n₀ F m x)
    (hfail : ∀ t, ∃ e, (x.run.run t).1 = .error e) : Stays own n₀ F m (x >>= f) := by
  intro t hN hm
  obtain ⟨e, he⟩ := hfail t
  have hxs := hx t hN hm
  rw [M.run_bind]
  rcases hr : x.run.run t with ⟨r, t₁⟩
  rw [hr] at he hxs
  subst he
  exact hxs

/-- Reading the tables: what follows may use the scopes that exist when it reads them. -/
theorem get_bind {f : Tables → M β}
    (hf : ∀ t, NewNotes own n₀ t → m ≤ t.scopes.tables.size →
      Stays own n₀ F t.scopes.tables.size (f t)) :
    Stays own n₀ F m (get >>= f) :=
  fun t hN hm => hf t hN hm t hN le_rfl

/-- Opening a scope below one of the file's own: what follows may use it. -/
theorem newScope_bind {parent : Option ScopeId} {f : ScopeId → M β}
    (hp : ∀ p : Nat, parent = some p → n₀ ≤ p ∧ p < m)
    (hf : ∀ id : Nat, m ≤ id → Stays own n₀ F (id + 1) (f id)) :
    Stays own n₀ F m (newScope parent >>= f) := by
  intro t hN hm
  have hstep : Step own n₀ F t { t with scopes := (t.scopes.create parent).1 } :=
    .create t parent fun p hpp => by
      obtain ⟨h₁, h₂⟩ := hp p hpp
      exact ⟨h₁, by omega⟩
  have hrest := hf t.scopes.tables.size hm _ (hstep.newNotes hN) (by simp)
  exact Relation.ReflTransGen.head hstep hrest

/-- A loop over `xs` whose body stays for each element of `xs`. -/
theorem forIn_mem {γ : Type} {f : γ → β → M (ForInStep β)} :
    ∀ (xs : List γ), (∀ a ∈ xs, ∀ b, Stays own n₀ F m (f a b)) →
      ∀ (b : β), Stays own n₀ F m (ForIn.forIn xs b f)
  | [], _, b => pure b
  | a :: as, hf, b => by
    rw [List.forIn_cons]
    refine bind (hf a List.mem_cons_self b) fun r => ?_
    cases r with
    | done b' => exact pure b'
    | yield b' => exact forIn_mem as (fun a' ha' => hf a' (List.mem_cons_of_mem _ ha')) b'

theorem forIn {γ : Type} {f : γ → β → M (ForInStep β)} (hf : ∀ a b, Stays own n₀ F m (f a b)) :
    ∀ (xs : List γ) (b : β), Stays own n₀ F m (ForIn.forIn xs b f) :=
  fun xs => forIn_mem xs fun a _ => hf a

theorem tryCatch {h : CompileError → M α} (hx : Stays own n₀ F m x)
    (hh : ∀ e, Stays own n₀ F m (h e)) : Stays own n₀ F m (MonadExcept.tryCatch x h) := by
  intro t hN hm
  have hxs := hx t hN hm
  rw [M.run_tryCatch]
  rcases hr : x.run.run t with ⟨r, t₁⟩
  rw [hr] at hxs
  cases r with
  | ok a => exact hxs
  | error e => exact hxs.trans (hh e t₁ (hxs.newNotes hN) (hm.trans hxs.size_le))

/-- A join point of a `do` block: what several branches continue with is shown to stay once. -/
theorem join {γ : Type} {j : γ → M β} {body : (γ → M β) → M α}
    (hj : ∀ r, Stays own n₀ F m (j r)) (hb : ∀ j', (∀ r, Stays own n₀ F m (j' r)) → Stays own n₀ F m (body j')) :
    Stays own n₀ F m (have jp := j; body jp) := hb j hj

/-- A check: when it holds gathering fails, and what follows runs only when it does not. -/
theorem check {c : Prop} [Decidable c] {sp : Span} {msg : String} {f : Unit → M β} {y : M β}
    (hy : ¬c → Stays own n₀ F m y) : Stays own n₀ F m (if c then typeError sp msg >>= f else y) := by
  split
  · exact bind_fails (of_state fun _ => rfl) fun _ => ⟨_, rfl⟩
  · rename_i hc
    exact hy hc

end Stays

theorem typeError_stays {m : Nat} (sp : Span) (msg : String) :
    Stays own n₀ F m (typeError sp msg : M α) := Stays.of_state fun _ => rfl

theorem note_stays {m node : Nat} (ty : DataType) (hnode : own node) :
    Stays own n₀ F m (note node ty) :=
  fun t _ _ => .single (.note t node ty hnode)

theorem noteScope_stays {m node s : Nat} (hnode : own node) (hs : n₀ ≤ s) (hsm : s < m) :
    Stays own n₀ F m (noteScope node s) :=
  fun t _ hm => .single (.noteScope t node s hnode hs (by omega))

theorem define_stays {m s : Nat} {sym : Symbol} (hs : n₀ ≤ s) (hsym : Declared F sym)
    (sp : Span) : Stays own n₀ F m (define s sym sp) := by
  intro t _ _
  rcases hd : t.scopes.define s sym with ⟨sc, ok⟩
  have hsc : sc = (t.scopes.define s sym).1 := by rw [hd]
  cases ok with
  | true =>
    have hrun : ((define s sym sp).run.run t).2 = { t with scopes := sc } := by
      simp only [define, M.run_bind, M.run_get, hd, if_true, M.run_set]
    rw [hrun, hsc]
    exact .single (.define t s sym hs hsym)
  | false =>
    have hrun : ((define s sym sp).run.run t).2 = t := by
      simp only [define, M.run_bind, M.run_get, hd, Bool.false_eq_true, if_false]
      rfl
    rw [hrun]

theorem lookup_stays {m : Nat} (s : ScopeId) (name : String) :
    Stays own n₀ F m (lookup s name) := Stays.of_state fun _ => rfl

theorem typeOf?_stays {m : Nat} (node : Nat) : Stays own n₀ F m (typeOf? node) :=
  Stays.of_state fun _ => rfl

variable (own n₀ F) in
/-- Run as in `Stays`, `x` leaves, when it succeeds, a scope recorded at every node of `P`. -/
def Records (m : Nat) (P : Nat → Prop) (x : M α) : Prop :=
  ∀ t, NewNotes own n₀ t → m ≤ t.scopes.tables.size → ∀ a, (x.run.run t).1 = .ok a →
    ∀ k, P k → ((x.run.run t).2.notes.scopeOf? k).isSome

namespace Records

variable {m : Nat} {x : M α}

theorem none : Records own n₀ m (fun _ => False) x := fun _ _ _ _ _ _ h => h.elim

theorem mono {P Q : Nat → Prop} (hPQ : ∀ k, P k → Q k) (h : Records own n₀ m Q x) :
    Records own n₀ m P x :=
  fun t hN hm a ha k hk => h t hN hm a ha k (hPQ k hk)

theorem bind {f : α → M β} {P Q : Nat → Prop} (hx : Records own n₀ m P x)
    (hxs : Stays own n₀ F m x) (hfs : ∀ a, Stays own n₀ F m (f a))
    (hf : ∀ a, Records own n₀ m Q (f a)) : Records own n₀ m (fun k => P k ∨ Q k) (x >>= f) := by
  intro t hN hm b hb k hk
  rw [M.run_bind] at hb ⊢
  rcases hr : x.run.run t with ⟨r, t₁⟩
  rw [hr] at hb
  cases r with
  | error e => cases hb
  | ok a =>
    have hsteps := hxs t hN hm
    rw [hr] at hsteps
    have hN₁ := hsteps.newNotes hN
    have hm₁ := hm.trans hsteps.size_le
    rcases hk with hk | hk
    · have hx₁ := hx t hN hm a (by rw [hr]) k hk
      rw [hr] at hx₁
      exact (hfs a t₁ hN₁ hm₁).noted hx₁
    · exact hf a t₁ hN₁ hm₁ b hb k hk

theorem get_bind {f : Tables → M β} {P : Nat → Prop}
    (hf : ∀ t, NewNotes own n₀ t → m ≤ t.scopes.tables.size →
      Records own n₀ t.scopes.tables.size P (f t)) :
    Records own n₀ m P (get >>= f) :=
  fun t hN hm => hf t hN hm t hN le_rfl

theorem tryCatch {h : CompileError → M α} {P : Nat → Prop} (hx : Records own n₀ m P x)
    (hh : ∀ e t, ∃ e', ((h e).run.run t).1 = .error e') :
    Records own n₀ m P (MonadExcept.tryCatch x h) := by
  intro t hN hm a ha k hk
  rw [M.run_tryCatch] at ha ⊢
  rcases hr : x.run.run t with ⟨r, t₁⟩
  rw [hr] at ha
  cases r with
  | ok b =>
    have := hx t hN hm b (by rw [hr]) k hk
    rwa [hr] at this
  | error e =>
    obtain ⟨e', he'⟩ := hh e t₁
    rw [he'] at ha
    cases ha

end Records

/-- What follows a computation that stays records only what the continuation records. -/
theorem Records.bind_right {m : Nat} {x : M α} {f : α → M β} {Q : Nat → Prop}
    (hxs : Stays own n₀ F m x) (hfs : ∀ a, Stays own n₀ F m (f a))
    (hf : ∀ a, Records own n₀ m Q (f a)) : Records own n₀ m Q (x >>= f) :=
  (Records.bind Records.none hxs hfs hf).mono fun _ hk => Or.inr hk

/-- A computation with a handler that always fails stays, and records, as the computation
does. -/
theorem Stays.tryCatch_records {m : Nat} {x : M α} {h : CompileError → M α} {P : Nat → Prop}
    (hx : Stays own n₀ F m x ∧ Records own n₀ m P x) (hh : ∀ e, Stays own n₀ F m (h e))
    (hfail : ∀ e t, ∃ e', ((h e).run.run t).1 = .error e') :
    Stays own n₀ F m (MonadExcept.tryCatch x h) ∧ Records own n₀ m P (MonadExcept.tryCatch x h) :=
  ⟨Stays.tryCatch hx.1 hh, Records.tryCatch hx.2 hfail⟩

/-- Opening a scope and recording it at a node of the file: that node has a scope from then
on, whatever follows. -/
theorem Stays.opensScope {m k : Nat} {parent : Option ScopeId} {f : ScopeId → M β}
    {P Q : Nat → Prop} (hk : own k) (hp : ∀ p : Nat, parent = some p → n₀ ≤ p ∧ p < m)
    (hm : n₀ ≤ m)
    (hf : ∀ id : Nat, m ≤ id → Stays own n₀ F (id + 1) (f id) ∧ Records own n₀ (id + 1) Q (f id))
    (hP : ∀ j, P j → j = k ∨ Q j) :
    Stays own n₀ F m (newScope parent >>= fun id => noteScope k id >>= fun _ => f id) ∧
      Records own n₀ m P (newScope parent >>= fun id => noteScope k id >>= fun _ => f id) := by
  have hrest : ∀ id : Nat, m ≤ id →
      Stays own n₀ F (id + 1) (noteScope k id >>= fun _ => f id) ∧
        Records own n₀ (id + 1) (fun j => j = k ∨ Q j) (noteScope k id >>= fun _ => f id) :=
    fun id hid => ⟨Stays.bind (noteScope_stays hk (by omega) (by omega)) fun _ => (hf id hid).1,
      Records.bind (fun t _ _ _ _ j hj => by simp [noteScope, M.run_modify, hj])
        (noteScope_stays hk (by omega) (by omega)) (fun _ => (hf id hid).1) fun _ => (hf id hid).2⟩
  refine ⟨Stays.newScope_bind hp fun id hid => (hrest id hid).1, ?_⟩
  intro t hN hm' a ha j hj
  have hstep : Step own n₀ F t { t with scopes := (t.scopes.create parent).1 } :=
    .create t parent fun p hpp => by
      obtain ⟨h₁, h₂⟩ := hp p hpp
      exact ⟨h₁, by omega⟩
  exact (hrest t.scopes.tables.size hm').2 _ (hstep.newNotes hN) (by simp) a ha j (hP j hj)

end Stays

section Declare

variable {own : Nat → Prop} {n₀ : Nat} {F : FuncDecl → Prop}

mutual

/-- Resolving a type label only reads the tables. -/
theorem resolve_stays {m : Nat} (s : ScopeId) : ∀ l : TypeLabel, Stays own n₀ F m (resolve s l)
  | .named n ps span => by
    unfold resolve
    split
    · split
      · exact Stays.pure _
      · exact typeError_stays _ _
    · refine Stays.bind (lookup_stays s n) fun sym => ?_
      split
      · split
        · exact Stays.bind (resolveList_stays s ps) fun _ => Stays.pure _
        · exact Stays.throw _
      · exact Stays.throw _
  | .func ps r _ =>
    Stays.bind (resolveList_stays s ps) fun _ => Stays.bind (resolve_stays s r) fun _ => Stays.pure _

theorem resolveList_stays {m : Nat} (s : ScopeId) :
    ∀ ls : List TypeLabel, Stays own n₀ F m (resolveList s ls)
  | [] => Stays.pure _
  | l :: ls =>
    Stays.bind (resolve_stays s l) fun _ => Stays.bind (resolveList_stays s ls) fun _ => Stays.pure _

end

mutual

/-- Declaring the classes of the file opens scopes below the file's own. -/
theorem declareClass_stays (u : String) :
    ∀ (s : Nat) (d : Decl), n₀ ≤ s → (∀ k ∈ d.ids, own k) →
      Stays own n₀ F (s + 1) (declareClass u s d)
  | s, .cls site name mods members, hs, hids => by
    unfold declareClass
    refine Stays.bind (define_stays hs (fun h => by simp at h) _) fun _ => ?_
    refine Stays.bind (note_stays _ (hids site.id (by simp [Decl.ids]))) fun _ => ?_
    refine Stays.newScope_bind (fun p hp => ?_) fun inner hinner => ?_
    · cases hp
      exact ⟨hs, by omega⟩
    refine Stays.bind (noteScope_stays (hids site.id (by simp [Decl.ids])) (by omega) (by omega))
      fun _ => ?_
    exact declareClasses_stays u inner members (by omega)
      fun k hk => hids k (by simp [Decl.ids, hk])
  | _, .func _, _, _ => Stays.pure _
  | _, .hashCall _ _, _, _ => Stays.pure _

theorem declareClasses_stays (u : String) :
    ∀ (s : Nat) (ds : List Decl), n₀ ≤ s → (∀ k ∈ Decl.idsList ds, own k) →
      Stays own n₀ F (s + 1) (declareClasses u s ds)
  | _, [], _, _ => Stays.pure _
  | s, d :: ds, hs, hids =>
    Stays.bind (declareClass_stays u s d hs fun k hk => hids k (by simp [Decl.idsList, hk]))
      fun _ => declareClasses_stays u s ds hs fun k hk => hids k (by simp [Decl.idsList, hk])

end

/-- Declaring a function of the file defines it only once its checks passed: it is then
extern or has a body. -/
theorem declareFunc_stays (u : String) (fs : ScopeId) {s : Nat} {g : FuncDecl} (hs : n₀ ≤ s)
    (hids : ∀ k ∈ g.ids, own k) (hg : F g) : Stays own n₀ F (s + 1) (declareFunc u fs s g) := by
  have hdecl : g.isExtern = true ∨ g.body.isSome = true → ∀ ty,
      Declared F
        { name := g.name, kind := .func, type := some ty, unit := u, node := g.site.id,
          decl := some g, compileTimeOnly := g.isCompiler } :=
    fun h _ _ => ⟨g, rfl, hg, h⟩
  unfold declareFunc
  refine Stays.check fun _ => Stays.check fun _ => Stays.check fun _ => Stays.check fun hbody => ?_
  have hext : g.isExtern = true ∨ g.body.isSome = true := by
    cases hx : g.isExtern <;> cases hb : g.body <;> simp_all
  beta_reduce
  extract_lets params₀ afterLib
  -- what follows the library name's check: the parameters, the return type, `main`
  have hafter : ∀ r, Stays own n₀ F (s + 1) (afterLib r) := by
    intro r
    simp -zeta only [afterLib]
    refine Stays.bind (Stays.forIn_mem _ (fun p hp ps => ?_) _) fun ps => ?_
    · refine Stays.bind (resolve_stays _ _) fun pt => ?_
      extract_lets params' noteParam
      exact Stays.check fun _ => by
        simp only [noteParam]
        exact Stays.bind (note_stays _ (hids _ (FuncDecl.param_mem_ids (List.mem_map_of_mem hp))))
          fun _ => Stays.pure _
    · extract_lets params afterRet
      have hret : ∀ ret, Stays own n₀ F (s + 1) (afterRet ret) := by
        intro ret
        simp -zeta only [afterRet]
        extract_lets ty sym defineIt checkRet
        have hdef : ∀ r, Stays own n₀ F (s + 1) (defineIt r) := by
          intro r
          simp only [defineIt]
          exact Stays.bind (define_stays hs (hdecl hext _) _) fun _ =>
            note_stays _ (hids _ (FuncDecl.site_mem_ids g))
        split
        · exact Stays.check fun _ => by
            simp -zeta only [checkRet]
            exact Stays.check fun _ => hdef ()
        · exact hdef ()
      split
      · exact Stays.bind (resolve_stays _ _) hret
      · exact Stays.bind (Stays.pure _) hret
  split
  · exact Stays.check fun _ => hafter ()
  · exact hafter ()

mutual

/-- Declaring the functions of the file defines them in scopes of its own. -/
theorem declareMembers_stays (u : String) (fs : ScopeId) :
    ∀ (s : Nat) (d : Decl), n₀ ≤ s → (∀ k ∈ d.ids, own k) → (∀ g ∈ d.funcs, F g) →
      Stays own n₀ F (s + 1) (declareMembers u fs s d)
  | _, .func g, hs, hids, hF => declareFunc_stays u fs hs hids (hF g (by simp [Decl.funcs]))
  | s, .cls site _ _ members, hs, hids, hF => by
    unfold declareMembers
    refine Stays.get_bind fun t hN hm => ?_
    -- the class's scope was recorded at its node when the classes were declared
    have hinner := hN.scope_getD hs (Nat.lt_of_succ_le hm) (hids site.id (by simp [Decl.ids]))
    exact (declareMembersList_stays u fs _ members hinner.1
      (fun k hk => hids k (by simp [Decl.ids, hk])) hF).mono hinner.2
  | _, .hashCall _ _, _, _, _ => Stays.pure _

theorem declareMembersList_stays (u : String) (fs : ScopeId) :
    ∀ (s : Nat) (ds : List Decl), n₀ ≤ s → (∀ k ∈ Decl.idsList ds, own k) →
      (∀ g ∈ Decl.funcsList ds, F g) → Stays own n₀ F (s + 1) (declareMembersList u fs s ds)
  | _, [], _, _, _ => Stays.pure _
  | s, d :: ds, hs, hids, hF =>
    Stays.bind (declareMembers_stays u fs s d hs (fun k hk => hids k (by simp [Decl.idsList, hk]))
        fun g hg => hF g (by simp [Decl.funcsList, hg]))
      fun _ => declareMembersList_stays u fs s ds hs
        (fun k hk => hids k (by simp [Decl.idsList, hk]))
        fun g hg => hF g (by simp [Decl.funcsList, hg])

end

end Declare

section Walk

variable {own : Nat → Prop} {n₀ : Nat} {F : FuncDecl → Prop}

/-- Node numbers of a part of an expression are numbers of the expression. -/
theorem ids_sub {xs ys : List Nat} (h : ∀ k ∈ xs, own k) (hsub : ∀ k ∈ ys, k ∈ xs) :
    ∀ k ∈ ys, own k :=
  fun k hk => h k (hsub k hk)

mutual

/-- Walking an expression records types, and the enclosing scope of the function literals in
it: a scope of the file's own. -/
theorem walkExpr_stays (s : Nat) (e : Expr) (hs : n₀ ≤ s) (hids : ∀ k ∈ e.ids, own k) :
    Stays own n₀ F (s + 1) (walkExpr s e) := by
  rw [walkExpr]
  refine Stays.bind (exprType_stays s e hs hids) fun dt => ?_
  split
  · exact Stays.bind (note_stays _ (hids _ e.site_mem_ids)) fun _ => Stays.pure _
  · exact Stays.pure _
termination_by (sizeOf e, 1)

theorem exprType_stays (s : Nat) (e : Expr) (hs : n₀ ≤ s) (hids : ∀ k ∈ e.ids, own k) :
    Stays own n₀ F (s + 1) (exprType s e) := by
  match e with
  | .ident _ n =>
    rw [exprType]
    refine Stays.bind (lookup_stays _ _) fun sym => ?_
    split <;> exact Stays.pure _
  | .int _ _ =>
    rw [exprType]
    exact Stays.pure _
  | .str _ ps =>
    rw [exprType]
    exact Stays.bind (walkPieces_stays s ps hs (ids_sub hids fun k hk => by simp [Expr.ids, hk]))
      fun _ => Stays.pure _
  | .call site fn args =>
    rw [exprType]
    refine Stays.bind (walkExpr_stays s fn hs (ids_sub hids fun k hk => by simp [Expr.ids, hk]))
      fun ft => ?_
    refine Stays.bind (walkArgs_stays s args hs (ids_sub hids fun k hk => by simp [Expr.ids, hk]))
      fun _ => ?_
    split
    · split
      · exact typeError_stays _ _
      · exact Stays.pure _
    · exact Stays.pure _
  | .lambda site body =>
    rw [exprType]
    exact walkLambda_stays s site body hs hids
  | .binary site op l r =>
    rw [exprType]
    refine Stays.bind (walkExpr_stays s l hs (ids_sub hids fun k hk => by simp [Expr.ids, hk]))
      fun lt => ?_
    refine Stays.bind (walkExpr_stays s r hs (ids_sub hids fun k hk => by simp [Expr.ids, hk]))
      fun rt => ?_
    extract_lets doneEq needInt doneOp checks
    -- what follows the operands only checks their types
    have hneed : ∀ t, Stays own n₀ F (s + 1) (needInt t) := fun _ => by
      simp -zeta only [needInt]
      split
      · exact Stays.pure _
      · exact typeError_stays _ _
    have hchecks : ∀ r, Stays own n₀ F (s + 1) (checks r) := fun _ => by
      simp -zeta only [checks]
      split
      · split
        · exact Stays.check fun _ => Stays.pure _
        · exact Stays.pure _
      · split
        · split
          · split
            · exact Stays.bind (hneed _) fun _ => Stays.pure _
            · exact Stays.pure _
          · exact Stays.bind (hneed _) fun _ => Stays.pure _
        · exact Stays.bind (hneed _) fun _ => Stays.pure _
        · exact Stays.pure _
    split
    · exact Stays.check fun _ => hchecks ()
    · exact hchecks ()
  | .exec _ inner =>
    rw [exprType]
    exact Stays.bind (walkExpr_stays s inner hs (ids_sub hids fun k hk => by simp [Expr.ids, hk]))
      fun _ => Stays.pure _
termination_by (sizeOf e, 0)

theorem walkPieces_stays (s : Nat) (ps : List Piece) (hs : n₀ ≤ s)
    (hids : ∀ k ∈ Piece.idsList ps, own k) : Stays own n₀ F (s + 1) (walkPieces s ps) := by
  match ps with
  | [] =>
    rw [walkPieces]
    exact Stays.pure _
  | .text _ :: ps =>
    rw [walkPieces]
    exact walkPieces_stays s ps hs (ids_sub hids fun k hk => by simp [Piece.idsList, hk])
  | .interp e :: ps =>
    rw [walkPieces]
    exact Stays.bind (walkExpr_stays s e hs (ids_sub hids fun k hk => by simp [Piece.idsList, hk]))
      fun _ => walkPieces_stays s ps hs (ids_sub hids fun k hk => by simp [Piece.idsList, hk])
termination_by (sizeOf ps, 0)

theorem walkArgs_stays (s : Nat) (as : List Expr) (hs : n₀ ≤ s)
    (hids : ∀ k ∈ Expr.idsList as, own k) : Stays own n₀ F (s + 1) (walkArgs s as) := by
  match as with
  | [] =>
    rw [walkArgs]
    exact Stays.pure _
  | a :: as =>
    rw [walkArgs]
    exact Stays.bind (walkExpr_stays s a hs (ids_sub hids fun k hk => by simp [Expr.idsList, hk]))
      fun _ => walkArgs_stays s as hs (ids_sub hids fun k hk => by simp [Expr.idsList, hk])
termination_by (sizeOf as, 0)

theorem walkLambda_stays (s : Nat) (site : Site) (b : Block) (hs : n₀ ≤ s)
    (hids : ∀ k ∈ (Expr.lambda site b).ids, own k) :
    Stays own n₀ F (s + 1) (walkLambda s site b) := by
  match b with
  | .mk _ stmts =>
    rw [walkLambda]
    refine Stays.bind (noteScope_stays (hids site.id (by simp [Expr.ids])) hs (by omega))
      fun _ => ?_
    refine Stays.bind (walkLambdaStmts_stays s _ stmts hs
      (ids_sub hids fun k hk => by simp [Expr.ids, Block.ids, hk])) fun _ => ?_
    split <;> exact Stays.pure _
termination_by (sizeOf b, 0)

theorem walkLambdaStmts_stays (s : Nat) (rt : Option DataType) (sts : List Stmt) (hs : n₀ ≤ s)
    (hids : ∀ k ∈ Stmt.idsList sts, own k) :
    Stays own n₀ F (s + 1) (walkLambdaStmts s rt sts) := by
  match sts with
  | [] =>
    rw [walkLambdaStmts]
    exact Stays.pure _
  | .expr _ e :: rest =>
    rw [walkLambdaStmts]
    refine Stays.bind (walkExpr_stays s e hs
      (ids_sub hids fun k hk => by simp [Stmt.idsList, Stmt.ids, hk])) fun _ => ?_
    exact walkLambdaStmts_stays s _ rest hs (ids_sub hids fun k hk => by simp [Stmt.idsList, hk])
  | .ret site v :: rest =>
    rw [walkLambdaStmts]
    refine Stays.bind (walkReturn_stays s none site v hs
      (ids_sub hids fun k hk => by cases v <;> simp_all [Stmt.idsList, Stmt.ids])) fun _ => ?_
    extract_lets next
    -- the statements after the return are walked, with the return's type if it was the last
    have hnext : ∀ last, Stays own n₀ F (s + 1) (next last) := fun _ => by
      simp -zeta only [next]
      exact walkLambdaStmts_stays s _ rest hs (ids_sub hids fun k hk => by simp [Stmt.idsList, hk])
    split
    · exact Stays.bind (Stays.pure _) hnext
    · exact Stays.bind (typeOf?_stays _) hnext
termination_by (sizeOf sts, 0)

theorem walkReturn_stays (s : Nat) (enclosing : Option DataType) (site : Site)
    (v : Option Expr) (hs : n₀ ≤ s) (hids : ∀ k ∈ (v.map Expr.ids).getD [], own k) :
    Stays own n₀ F (s + 1) (walkReturn s enclosing site v) := by
  match v with
  | none =>
    unfold walkReturn
    split
    · split
      · exact Stays.pure _
      · exact typeError_stays _ _
    · exact Stays.pure _
  | some e =>
    unfold walkReturn
    refine Stays.bind (walkExpr_stays s e hs hids) fun vt => ?_
    split
    · exact Stays.pure _
    · split
      · exact typeError_stays _ _
      · split
        · split
          · exact typeError_stays _ _
          · exact Stays.pure _
        · exact Stays.pure _
termination_by (sizeOf v, 2)

end

theorem walkBody_stays (s : Nat) (rt : DataType) :
    ∀ sts : List Stmt, n₀ ≤ s → (∀ k ∈ Stmt.idsList sts, own k) →
      Stays own n₀ F (s + 1) (walkBody s rt sts)
  | [], _, _ => Stays.pure _
  | .expr _ e :: rest, hs, hids =>
    Stays.bind (walkExpr_stays s e hs
        (ids_sub hids fun k hk => by simp [Stmt.idsList, Stmt.ids, hk]))
      fun _ => walkBody_stays s rt rest hs (ids_sub hids fun k hk => by simp [Stmt.idsList, hk])
  | .ret site v :: rest, hs, hids =>
    Stays.bind (walkReturn_stays s (some rt) site v hs
        (ids_sub hids fun k hk => by cases v <;> simp_all [Stmt.idsList, Stmt.ids]))
      fun _ => walkBody_stays s rt rest hs (ids_sub hids fun k hk => by simp [Stmt.idsList, hk])

/-- Walking a function with a body opens its scope below the enclosing one and records it at
the function's node; its parameters are defined there. -/
theorem walkFunc_opens (u : String) {s : Nat} {g : FuncDecl} (hs : n₀ ≤ s)
    (hids : ∀ k ∈ g.ids, own k) :
    Stays own n₀ F (s + 1) (walkFunc u s g) ∧
      Records own n₀ (s + 1) (fun k => g.body.isSome ∧ k = g.site.id) (walkFunc u s g) := by
  unfold walkFunc
  split
  · rename_i hb
    exact ⟨Stays.pure _, Records.mono (fun k hk => by simp [hb] at hk) Records.none⟩
  · rename_i body hb
    have hbody : ∀ k ∈ Stmt.idsList body.stmts, own k := by
      cases body with
      | mk site sts =>
        refine ids_sub hids fun k hk => ?_
        have hk' : k ∈ Stmt.idsList sts := hk
        simp [FuncDecl.ids, hb, Block.ids, hk']
    refine Stays.opensScope (Q := fun _ => False) (hids g.site.id (by simp [FuncDecl.ids]))
      (fun p hp => by cases hp; omega) (by omega) (fun id hid => ⟨?_, Records.none⟩)
      fun j hj => Or.inl hj.2
    refine Stays.bind (Stays.forIn (fun p _ => ?_) _ _) fun _ => ?_
    · exact Stays.bind (typeOf?_stays _) fun pt =>
        Stays.bind (define_stays (by omega) (fun h => by cases h) _) fun _ => Stays.pure _
    · refine Stays.bind (typeOf?_stays _) fun ty => ?_
      extract_lets rt
      refine Stays.bind (walkBody_stays id rt body.stmts (by omega) hbody) fun _ => ?_
      split
      · split
        · refine Stays.bind (typeOf?_stays _) fun dt => ?_
          split
          · split
            · exact typeError_stays _ _
            · exact Stays.pure _
          · exact Stays.pure _
        · exact Stays.pure _
      · exact Stays.pure _

mutual

/-- Walking a declaration types its bodies, and records, when it succeeds, the scope of every
function in it with a body. -/
theorem walkDecl_opens (u : String) :
    ∀ (s : Nat) (d : Decl), n₀ ≤ s → (∀ k ∈ d.ids, own k) →
      Stays own n₀ F (s + 1) (walkDecl u s d) ∧
        Records own n₀ (s + 1) (fun k => ∃ g ∈ d.funcs, g.body.isSome ∧ k = g.site.id)
          (walkDecl u s d)
  | s, .func g, hs, hids => by
    obtain ⟨hst, hrec⟩ := walkFunc_opens (F := F) u hs (g := g) hids
    refine ⟨hst, hrec.mono fun k hk => ?_⟩
    obtain ⟨g', hg', hb, rfl⟩ := hk
    simp only [Decl.funcs, List.mem_singleton] at hg'
    subst hg'
    exact ⟨hb, rfl⟩
  | s, .cls site _ _ members, hs, hids => by
    unfold walkDecl
    have hmem : ∀ k ∈ Decl.idsList members, own k :=
      ids_sub hids fun k hk => by simp [Decl.ids, hk]
    refine ⟨Stays.get_bind fun t hN hm => ?_, Records.get_bind fun t hN hm => ?_⟩
    all_goals
      -- the members are walked in the class's scope, recorded when it was declared
      have hinner := hN.scope_getD hs (Nat.lt_of_succ_le hm) (hids site.id (by simp [Decl.ids]))
    · exact (walkDecls_opens u _ members hinner.1 hmem).1.mono hinner.2
    · refine fun t' hN' hm' a ha k hk =>
        (walkDecls_opens u _ members hinner.1 hmem).2 t' hN' (hinner.2.trans_le hm') a ha k ?_
      simpa [Decl.funcs] using hk
  | s, .hashCall _ call, hs, hids =>
    ⟨Stays.bind (walkExpr_stays s call hs (ids_sub hids fun k hk => by simp [Decl.ids, hk]))
        fun _ => Stays.pure _,
      Records.mono (fun k hk => by simp [Decl.funcs] at hk) Records.none⟩

theorem walkDecls_opens (u : String) :
    ∀ (s : Nat) (ds : List Decl), n₀ ≤ s → (∀ k ∈ Decl.idsList ds, own k) →
      Stays own n₀ F (s + 1) (walkDecls u s ds) ∧
        Records own n₀ (s + 1) (fun k => ∃ g ∈ Decl.funcsList ds, g.body.isSome ∧ k = g.site.id)
          (walkDecls u s ds)
  | _, [], _, _ =>
    ⟨Stays.pure _, Records.mono (fun k hk => by simp [Decl.funcsList] at hk) Records.none⟩
  | s, d :: ds, hs, hids => by
    obtain ⟨hst₁, hrec₁⟩ := walkDecl_opens u s d hs
      (ids_sub hids fun k hk => by simp [Decl.idsList, hk])
    obtain ⟨hst₂, hrec₂⟩ := walkDecls_opens u s ds hs
      (ids_sub hids fun k hk => by simp [Decl.idsList, hk])
    refine ⟨Stays.bind hst₁ fun _ => hst₂,
      (Records.bind hrec₁ hst₁ (fun _ => hst₂) fun _ => hrec₂).mono fun k hk => ?_⟩
    obtain ⟨g, hg, hb, rfl⟩ := hk
    simp only [Decl.funcsList, List.mem_append] at hg
    rcases hg with hg | hg
    · exact Or.inl ⟨g, hg, hb, rfl⟩
    · exact Or.inr ⟨g, hg, hb, rfl⟩

end

end Walk

section File

variable {own : Nat → Prop} {n₀ : Nat}

/-- Gathering a file makes only steps of its own, and when it succeeds the file and each of
its functions with a body have their scopes recorded. -/
theorem gather_opens (f : SourceFile) (hids : ∀ k ∈ f.ids, own k) :
    Stays own n₀ (· ∈ Decl.funcsList f.decls) n₀ f.gather ∧
      Records own n₀ n₀ (fun k => k = f.site.id ∨
        ∃ g ∈ Decl.funcsList f.decls, g.body.isSome ∧ k = g.site.id) f.gather := by
  have hdecls : ∀ k ∈ Decl.idsList f.decls, own k :=
    ids_sub hids fun k hk => by simp [SourceFile.ids, hk]
  unfold SourceFile.gather
  refine Stays.tryCatch_records ?_ (fun _ => Stays.throw _) fun _ _ => ⟨_, rfl⟩
  refine Stays.opensScope (hids f.site.id (by simp [SourceFile.ids])) (fun p hp => by cases hp)
    le_rfl (fun id hid => ?_) fun j hj => hj
  -- the classes and the functions are declared in the file's scope, then the bodies walked
  have hc := declareClasses_stays (F := (· ∈ Decl.funcsList f.decls)) f.name id f.decls
    (by omega) hdecls
  have hm := declareMembersList_stays f.name id id f.decls (by omega) hdecls fun g hg => hg
  obtain ⟨hw, hwr⟩ := walkDecls_opens f.name id f.decls (by omega) hdecls
  exact ⟨Stays.bind hc fun _ => Stays.bind hm fun _ => hw,
    Records.bind_right hc (fun _ => Stays.bind hm fun _ => hw) fun _ =>
      Records.bind_right hm (fun _ => hw) fun _ => hwr⟩

end File

/-- The scopes a file's gathering opens are its own: into tables that record no scope at the
file's nodes, gathering changes the tables by steps of the file only, the scopes opened before
it being the ones of the tables. When it succeeds, the file and each of its functions with a
body have their scopes recorded. -/
theorem gather_scopes (f : SourceFile) (t : Tables)
    (hfresh : ∀ k ∈ f.ids, t.notes.scopeOf? k = none) :
    Steps (· ∈ f.ids) t.scopes.tables.size (· ∈ Decl.funcsList f.decls) t (f.gather.run.run t).2 ∧
      ∀ a, (f.gather.run.run t).1 = .ok a →
        ((f.gather.run.run t).2.notes.scopeOf? f.site.id).isSome ∧
          ∀ g ∈ Decl.funcsList f.decls, g.body.isSome →
            ((f.gather.run.run t).2.notes.scopeOf? g.site.id).isSome := by
  obtain ⟨hst, hrec⟩ : Stays (· ∈ f.ids) t.scopes.tables.size _ _ f.gather ∧
      Records (· ∈ f.ids) t.scopes.tables.size _ _ f.gather :=
    gather_opens f fun _ hk => hk
  -- no node of the file records a scope yet
  have hN : NewNotes (· ∈ f.ids) t.scopes.tables.size t := fun k s hk hks => by
    simp [hfresh k hk] at hks
  refine ⟨hst t hN le_rfl, fun a ha => ⟨hrec t hN le_rfl a ha _ (Or.inl rfl), fun g hg hb => ?_⟩⟩
  exact hrec t hN le_rfl a ha _ (Or.inr ⟨g, hg, hb, rfl⟩)

end Gather

end Abla
