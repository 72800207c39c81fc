import Mathlib
import Abla.Proofs.Eval.Safety
import Abla.Proofs.Service.Steps

/-!
# Executing a gathered unit meets no broken invariant

Every build the service reaches is sound (`Served.sound`): the scopes of the units it gathered
without error are good, every unit with a tree has a good file scope, and every pending unit
has its tree. A request keeps a build sound, and when it reports no failure the unit it asked
for has a tree (`request_keeps`); so the host that serves the built-ins is one evaluation may
rely on (`host_ok`). Gathering a unit into a sound build adds its scopes to the good ones
(`Closed.gather_ok`), so executing a unit that was parsed and gathered fails, if at all, with
an error of the program: an integer literal out of range, a name that resolves to nothing, or
an execution error, never an internal error (`execute_error_kind`).

Within a request the build is sound but for the unit it compiles (`SoundBut`): that unit is
pending, and has no tree or a tree not yet gathered, until the request ends.
-/

namespace Abla

section Gathering

variable {G : ScopeId → Prop} {t t' : Tables} {f : SourceFile}

/-- Gathering a file whose nodes record no scope changes no good scope and no scope recorded
at a node outside the file, so it keeps closed tables closed. -/
theorem Closed.gather (hc : Closed G t) (hfresh : ∀ k ∈ f.ids, t.notes.scopeOf? k = none)
    (hrun : (f.gather.run.run t).2 = t') :
    Closed G t' ∧ ∀ k, k ∉ f.ids → t'.notes.scopeOf? k = t.notes.scopeOf? k := by
  obtain ⟨hsteps, -⟩ := Gather.gather_scopes f t hfresh
  rw [hrun] at hsteps
  have hnote : ∀ k, k ∉ f.ids → t'.notes.scopeOf? k = t.notes.scopeOf? k :=
    fun _ hk => hsteps.old_note hk
  -- a node that records a scope is not one of the file's
  have hkeep : ∀ k s, t.notes.scopeOf? k = some s → t'.notes.scopeOf? k = some s :=
    fun k s h => by
      have hk : k ∉ f.ids := fun hk => by simp [hfresh k hk] at h
      rw [hnote k hk]
      exact h
  have hold : ∀ s, G s → t'.scopes.tables[s]? = t.scopes.tables[s]? :=
    fun s hs => hsteps.old_scope (hc.lt_size s hs) (hc.lt_size s hs)
  refine ⟨⟨fun s hs => Nat.lt_of_lt_of_le (hc.lt_size s hs) hsteps.size_le,
    fun s sc p hs hsc hp => ?_, fun s sc hs hsc sym hsym => ?_⟩, hnote⟩
  · rw [hold s hs] at hsc
    exact hc.parent s sc p hs hsc hp
  · rw [hold s hs] at hsc
    exact (hc.symbols s sc hs hsc sym hsym).of_notes (fun _ h => h) hkeep

/-- The good scopes after a file was gathered without error: the good ones before, and the
scopes opened while gathering it. -/
def withOwn (G : ScopeId → Prop) (n₀ n₁ : Nat) : ScopeId → Prop :=
  fun s => G s ∨ (n₀ ≤ s ∧ s < n₁)

/-- Gathering a file whose nodes record no scope, without error, makes the scopes it opened
good: they hang below each other, and each function defined in them is extern or has its scope
recorded, as has the file. -/
theorem Closed.gather_ok (hc : Closed G t) (hfresh : ∀ k ∈ f.ids, t.notes.scopeOf? k = none)
    (hrun : f.gather.run.run t = (.ok (), t')) :
    Closed (withOwn G t.scopes.tables.size t'.scopes.tables.size) t' ∧
      (∃ s, t'.notes.scopeOf? f.site.id = some s ∧
        withOwn G t.scopes.tables.size t'.scopes.tables.size s) ∧
      ∀ g ∈ Decl.funcsList f.decls, g.body.isSome → ∃ s, t'.notes.scopeOf? g.site.id = some s ∧
        withOwn G t.scopes.tables.size t'.scopes.tables.size s := by
  obtain ⟨hold, hnote⟩ := hc.gather hfresh (congrArg Prod.snd hrun)
  obtain ⟨hsteps, hrec⟩ := Gather.gather_scopes f t hfresh
  rw [hrun] at hsteps hrec
  obtain ⟨hfile, hfuncs⟩ := hrec () rfl
  -- the file's nodes record scopes of its own, which hang below scopes of its own
  have hN := hsteps.newNotes fun k s hk hks => by simp [hfresh k hk] at hks
  have hS := hsteps.newScopes fun s sc hs hsc => by
    have : t.scopes.tables[s]? = none := Array.getElem?_eq_none_iff.2 hs
    simp [this] at hsc
  have hown : ∀ k, k ∈ f.ids → (t'.notes.scopeOf? k).isSome = true →
      ∃ s, t'.notes.scopeOf? k = some s ∧ withOwn G t.scopes.tables.size t'.scopes.tables.size s :=
    fun k hk hsome => by
      obtain ⟨s, hs⟩ := Option.isSome_iff_exists.1 hsome
      exact ⟨s, hs, Or.inr (hN k s hk hs)⟩
  have hsite : ∀ g ∈ Decl.funcsList f.decls, g.site.id ∈ f.ids := fun g hg => by
    simp [SourceFile.ids, Decl.funcsList_site_mem f.decls hg]
  refine ⟨⟨fun s hs => ?_, fun s sc p hs hsc hp => ?_, fun s sc hs hsc sym hsym => ?_⟩,
    hown _ (by simp [SourceFile.ids]) hfile, fun g hg hb => hown _ (hsite g hg) (hfuncs g hg hb)⟩
  · rcases hs with hs | hs
    · exact hold.lt_size s hs
    · exact hs.2
  · rcases hs with hs | hs
    · exact Or.inl (hold.parent s sc p hs hsc hp)
    · obtain ⟨h₁, h₂⟩ := (hS s sc hs.1 hsc).1 p hp
      exact Or.inr ⟨h₁, Nat.lt_trans h₂ hs.2⟩
  · rcases hs with hs | hs
    · exact (hold.symbols s sc hs hsc sym hsym).of_notes (fun _ h => Or.inl h) fun _ _ h => h
    · -- a function the file defined is extern or has a body, whose scope was recorded
      intro hk
      obtain ⟨g, hg, hF, hext⟩ := (hS s sc hs.1 hsc).2 sym hsym hk
      refine ⟨g, hg, ?_⟩
      rcases hext with hext | hbody
      · exact Or.inl hext
      · exact Or.inr (hown _ (hsite g hF) (hfuncs g hF hbody))

end Gathering

/-- A build that is sound but for the unit `name`, which it has not installed: the state of a
build while a request compiles `name`. -/
structure SoundBut (G : ScopeId → Prop) (b : Build) (name : String) : Prop where
  closed : Closed G b.tables
  fresh : ∀ k, b.nextNode ≤ k → b.tables.notes.scopeOf? k = none
  units : ∀ n, n ≠ name → UnitOk G b n
  uninstalled : b.units.compiled.lookup name = none

/-- `b'` extends `b` but for the pending entry of `name`, which a request for it changes. -/
structure GrowsBut (G : ScopeId → Prop) (b : Build) (G' : ScopeId → Prop) (b' : Build)
    (name : String) : Prop where
  good : ∀ s, G s → G' s
  noted : ∀ k s, b.tables.notes.scopeOf? k = some s → b'.tables.notes.scopeOf? k = some s
  pending : ∀ n o, n ≠ name → b.units.pending.lookup n = some o →
    b'.units.pending.lookup n = some o

section Frames

variable {G G' G'' : ScopeId → Prop} {b b' b'' : Build} {name : String}

theorem Sound.but (hs : Sound G b) (hu : b.units.compiled.lookup name = none) :
    SoundBut G b name :=
  ⟨hs.closed, hs.fresh, fun n _ => hs.units n, hu⟩

/-- A build with the tables and installed units of one sound but for `name`, the same pending
units other than `name`, and a later node counter, is sound but for `name`. -/
theorem SoundBut.of_eq (hs : SoundBut G b name) (ht : b'.tables = b.tables)
    (hc : b'.units.compiled = b.units.compiled)
    (hp : ∀ n, n ≠ name → b'.units.pending.lookup n = b.units.pending.lookup n)
    (hn : b.nextNode ≤ b'.nextNode) : SoundBut G b' name := by
  refine ⟨ht ▸ hs.closed, fun k hk => ht ▸ hs.fresh k (Nat.le_trans hn hk), fun n hne => ?_,
    hc ▸ hs.uninstalled⟩
  have hfile : b'.units.file? n = b.units.file? n := by simp [Units.file?, hc, hp n hne]
  rw [UnitOk, ht, hfile, hp n hne]
  exact hs.units n hne

theorem Grows.but (h : Grows G b G' b') : GrowsBut G b G' b' name :=
  ⟨h.good, h.noted, fun n o _ => h.pending n o⟩

theorem GrowsBut.refl (G : ScopeId → Prop) (b : Build) (name : String) :
    GrowsBut G b G b name :=
  (Grows.refl G b).but

theorem GrowsBut.trans (h₁ : GrowsBut G b G' b' name) (h₂ : GrowsBut G' b' G'' b'' name) :
    GrowsBut G b G'' b'' name :=
  ⟨fun s h => h₂.good s (h₁.good s h), fun k s h => h₂.noted k s (h₁.noted k s h),
    fun n o hn h => h₂.pending n o hn (h₁.pending n o hn h)⟩

theorem GrowsBut.of_eq (ht : b'.tables = b.tables)
    (hp : ∀ n, n ≠ name → b'.units.pending.lookup n = b.units.pending.lookup n) :
    GrowsBut G b G b' name :=
  ⟨fun _ h => h, fun _ _ hk => by rwa [ht], fun n _ hn h => by rwa [hp n hn]⟩

/-- A build extends another once the unit `name`, not pending in the first, is no longer
pending. -/
theorem GrowsBut.grows (h : GrowsBut G b G' b' name) (hn : b.units.pending.lookup name = none) :
    Grows G b G' b' :=
  ⟨h.good, h.noted, fun n o ho => h.pending n o (fun he => by simp [he, hn] at ho) ho⟩

end Frames

/-- Run from `b`, `x` leaves a build extending `b` but for the pending entry of `name`, where
its result satisfies `Q`. -/
def KeepsBut {α : Type} (name : String) (G : ScopeId → Prop) (b : Build) (x : StateM Build α)
    (Q : (ScopeId → Prop) → Build → α → Prop) : Prop :=
  ∃ G', GrowsBut G b G' (x.run b).2 name ∧ Q G' (x.run b).2 (x.run b).1

namespace KeepsBut

variable {α β : Type} {name : String} {G : ScopeId → Prop} {b : Build}
  {Q R : (ScopeId → Prop) → Build → α → Prop}

theorem pure {a : α} (hq : Q G b a) : KeepsBut name G b (Pure.pure a) Q :=
  ⟨G, GrowsBut.refl G b name, hq⟩

theorem of_run {x : StateM Build α} {a : α} {G' : ScopeId → Prop} {b' : Build}
    (h : x.run b = (a, b')) (hg : GrowsBut G b G' b' name) (hq : Q G' b' a) :
    KeepsBut name G b x Q := by
  unfold KeepsBut
  rw [h]
  exact ⟨G', hg, hq⟩

theorem mono {x : StateM Build α} (hQR : ∀ G b a, Q G b a → R G b a)
    (h : KeepsBut name G b x Q) : KeepsBut name G b x R := by
  obtain ⟨G', hg, hq⟩ := h
  exact ⟨G', hg, hQR _ _ _ hq⟩

theorem bind {x : StateM Build α} {f : α → StateM Build β}
    {S : (ScopeId → Prop) → Build → β → Prop} (hx : KeepsBut name G b x Q)
    (hf : ∀ G' b' a, GrowsBut G b G' b' name → Q G' b' a → KeepsBut name G' b' (f a) S) :
    KeepsBut name G b (x >>= f) S := by
  obtain ⟨G₁, hg₁, hq₁⟩ := hx
  obtain ⟨G₂, hg₂, hq₂⟩ := hf G₁ _ _ hg₁ hq₁
  exact ⟨G₂, hg₁.trans hg₂, hq₂⟩

theorem get_bind {f : Build → StateM Build α} (hf : KeepsBut name G b (f b) Q) :
    KeepsBut name G b (get >>= f) Q := hf

theorem ite {c : Prop} [Decidable c] {x y : StateM Build α} (hx : c → KeepsBut name G b x Q)
    (hy : ¬c → KeepsBut name G b y Q) : KeepsBut name G b (if c then x else y) Q := by
  split
  · rename_i h
    exact hx h
  · rename_i h
    exact hy h

/-- A computation that leaves a sound build, started where `name` was not pending, keeps the
build. -/
theorem keeps {x : StateM Build α} (h : KeepsBut name G b x fun G b a => Sound G b ∧ Q G b a)
    (hn : b.units.pending.lookup name = none) : Keeps G b x Q := by
  obtain ⟨G', hg, hs, hq⟩ := h
  exact ⟨G', hg.grows hn, hs, hq⟩

end KeepsBut

namespace KeepsBut

variable {α β : Type} {name : String} {G : ScopeId → Prop} {b : Build}

/-- A step whose run is known, then the rest from the build it leaves. -/
theorem seq {x : StateM Build α} {f : α → StateM Build β} {a : α} {b' : Build}
    {S : (ScopeId → Prop) → Build → β → Prop} (h : x.run b = (a, b'))
    (hg : GrowsBut G b G b' name) (hf : KeepsBut name G b' (f a) S) :
    KeepsBut name G b (x >>= f) S := by
  obtain ⟨G', hg', hs'⟩ := hf
  have hrun : (x >>= f).run b = (f a).run b' := by
    rw [StateT.run_bind, h]
    rfl
  unfold KeepsBut
  rw [hrun]
  exact ⟨G', hg.trans hg', hs'⟩

end KeepsBut

namespace Units

theorem file?_of_compiled {u : Units} {n : String} {f : SourceFile}
    (h : u.compiled.lookup n = some f) : u.file? n = some f := by
  simp [file?, h]

theorem compiled_eq_none {u : Units} {n : String} (h : u.file? n = none) :
    u.compiled.lookup n = none := by
  cases hc : u.compiled.lookup n with
  | none => rfl
  | some f => simp [file?_of_compiled hc] at h

/-- A name that has no entry by the test for one. -/
theorem lookup_eq_none_of_not {α : Type} {xs : List (String × α)} {n : String}
    (h : ¬(xs.lookup n).isSome = true) : xs.lookup n = none :=
  Option.not_isSome_iff_eq_none.1 h

/-- A unit pending with its tree has a tree. -/
theorem file?_isSome_of_pending {u : Units} {n : String} {f : SourceFile}
    (h : u.pending.lookup n = some (some f)) : (u.file? n).isSome := by
  unfold file?
  split <;> simp_all

end Units

/-- A unit that may be imported in a build stays so in a build with the same units, more good
scopes and every scope recorded still recorded. -/
theorem UnitOk.of_notes {G G' : ScopeId → Prop} {b b' : Build} {n : String} (h : UnitOk G b n)
    (hG : ∀ s, G s → G' s)
    (hn : ∀ k s, b.tables.notes.scopeOf? k = some s → b'.tables.notes.scopeOf? k = some s)
    (hu : b'.units = b.units) : UnitOk G' b' n := by
  refine ⟨fun f hf => ?_, fun o ho => h.2 o (by rwa [hu] at ho)⟩
  rw [hu] at hf
  obtain ⟨s, hs, hg⟩ := h.1 f hf
  exact ⟨s, hn _ _ hs, hG s hg⟩

namespace Service

section Steps

variable {G : ScopeId → Prop} {b : Build} {name : String}

theorem readSource_run (unit : String) (origin : Origin) (b : Build) :
    (readSource unit origin).run b = (((readSource unit origin).run b).1, b) := by
  cases origin with
  | file =>
    simp only [readSource, StateT.run_bind, StateT.run_get, pure_bind]
    split <;> rfl
  | text s => rfl
  | stream s cut => cases cut <;> rfl

/-- Parsing a unit numbers its tree with nodes no other tree has: none of them records a
scope, and all come before the next free node. -/
theorem parse_keeps (hs : SoundBut G b name) (unit : String) (origin : Origin) :
    KeepsBut name G b (parse unit origin) fun G b' r => SoundBut G b' name ∧
      ∀ f, r = .ok f → ∀ k ∈ f.ids, b'.tables.notes.scopeOf? k = none ∧ k < b'.nextNode := by
  unfold parse
  refine KeepsBut.seq (readSource_run unit origin b) (GrowsBut.refl G b name) ?_
  split
  · exact KeepsBut.pure ⟨hs, fun _ h => by cases h⟩
  · split
    · exact KeepsBut.pure ⟨hs, fun _ h => by cases h⟩
    · exact KeepsBut.of_run rfl (GrowsBut.of_eq rfl fun _ _ => rfl)
        ⟨hs.of_eq rfl rfl (fun _ _ => rfl) le_rfl, fun _ h => by cases h⟩
    · rename_i f _
      refine KeepsBut.get_bind ?_
      rcases hnum : f.number b.nextNode with ⟨f', next⟩
      -- the tree's numbers lie from the next free node up to the new one
      obtain ⟨hle, -, hids⟩ := f.number_fresh b.nextNode
      rw [hnum] at hle hids
      exact KeepsBut.of_run rfl (GrowsBut.of_eq rfl fun _ _ => rfl)
        ⟨hs.of_eq rfl rfl (fun _ _ => rfl) hle, fun g hg k hk => by
          cases hg
          exact ⟨hs.fresh k (hids k hk).1, (hids k hk).2⟩⟩

/-- Gathering a parsed tree pending under `name`: on success the build is sound, with the
tree's file and functions recorded in good scopes; on failure it is sound but for `name`. -/
theorem gather_keeps {f : SourceFile} (hs : SoundBut G b name)
    (hfresh : ∀ k ∈ f.ids, b.tables.notes.scopeOf? k = none ∧ k < b.nextNode)
    (hpend : b.units.pending.lookup name = some (some f)) :
    KeepsBut name G b (gather f) fun G' b' r => b'.units = b.units ∧ match r with
      | none => Sound G' b' ∧ (∃ s, b'.tables.notes.scopeOf? f.site.id = some s ∧ G' s) ∧
          Eval.FuncsOk G' b' (Decl.funcsList f.decls)
      | some _ => SoundBut G' b' name := by
  unfold gather
  refine KeepsBut.get_bind ?_
  rcases hrun : f.gather.run.run b.tables with ⟨r, t'⟩
  obtain ⟨hclosed, hnote⟩ := hs.closed.gather (fun k hk => (hfresh k hk).1)
    (congrArg Prod.snd hrun)
  -- the scopes recorded before are at nodes outside the tree, and stay
  have hkeep : ∀ k s, b.tables.notes.scopeOf? k = some s → t'.notes.scopeOf? k = some s :=
    fun k s h => by
      have hk : k ∉ f.ids := fun hk => by simp [(hfresh k hk).1] at h
      rw [hnote k hk]
      exact h
  have hfresh' : ∀ k, b.nextNode ≤ k → t'.notes.scopeOf? k = none := fun k hk => by
    have hk' : k ∉ f.ids := fun h => by have := (hfresh k h).2; omega
    rw [hnote k hk']
    exact hs.fresh k hk
  cases r with
  | error e =>
    exact KeepsBut.of_run rfl ⟨fun _ h => h, hkeep, fun _ _ _ h => h⟩
      ⟨rfl, hclosed, hfresh', fun n hn => (hs.units n hn).of_notes (fun _ h => h) hkeep rfl,
        hs.uninstalled⟩
  | ok u =>
    obtain ⟨hclosed', hfile, hfuncs⟩ := hs.closed.gather_ok (fun k hk => (hfresh k hk).1) hrun
    refine KeepsBut.of_run rfl ⟨fun _ h => Or.inl h, hkeep, fun _ _ _ h => h⟩
      ⟨rfl, ⟨hclosed', hfresh', fun n => ?_⟩, hfile, hfuncs⟩
    by_cases hn : n = name
    · -- the unit under compilation has its tree pending, now with a good file scope
      subst hn
      have hf : b.units.file? n = some f := by simp [Units.file?, hs.uninstalled, hpend]
      refine ⟨fun g hg => ?_, fun o ho => ?_⟩
      · rw [show ({ b with tables := t' } : Build).units = b.units from rfl, hf] at hg
        cases hg
        exact hfile
      · rw [show ({ b with tables := t' } : Build).units = b.units from rfl, hpend] at ho
        cases ho
        rfl
    · exact (hs.units n hn).of_notes (fun _ h => Or.inl h) hkeep rfl

/-- What preparing the unit `name` leaves: a sound build with its tree pending and gathered,
its file and functions in good scopes; or, when it failed, a build sound but for `name`. -/
def Prepared (name : String) (G : ScopeId → Prop) (b : Build) : Except Failure SourceFile → Prop
  | .ok f => Sound G b ∧ b.units.pending.lookup name = some (some f) ∧
      (∃ s, b.tables.notes.scopeOf? f.site.id = some s ∧ G s) ∧
      Eval.FuncsOk G b (Decl.funcsList f.decls)
  | .error _ => SoundBut G b name

/-- Preparing a unit from a build sound but for it. -/
theorem prepare_keeps (hs : SoundBut G b name) (origin : Origin) :
    KeepsBut name G b (prepare name origin) (Prepared name) := by
  unfold prepare
  refine KeepsBut.get_bind (KeepsBut.ite (fun _ => KeepsBut.pure hs) fun _ => ?_)
  refine KeepsBut.bind (parse_keeps hs name origin) fun G₁ b₁ r _ hr => ?_
  obtain ⟨hs₁, hids⟩ := hr
  cases r with
  | error e => exact KeepsBut.pure hs₁
  | ok f =>
    refine KeepsBut.seq rfl (GrowsBut.of_eq rfl fun _ _ => rfl) ?_
    -- the tree is recorded with the pending unit
    refine KeepsBut.bind (Q := fun G' b' _ => G' = G₁ ∧ SoundBut G₁ b' name ∧
        b'.units.pending.lookup name = some (some f) ∧
        ∀ k ∈ f.ids, b'.tables.notes.scopeOf? k = none ∧ k < b'.nextNode)
      (KeepsBut.of_run rfl (GrowsBut.of_eq rfl fun n hn => by simp [hn])
        ⟨rfl, hs₁.of_eq rfl rfl (fun n hn => by simp [hn]) le_rfl, by simp, by simpa using hids f rfl⟩)
      fun G₂ b₂ _ _ h₂ => ?_
    obtain ⟨rfl, hs₂, hpend, hids₂⟩ := h₂
    refine KeepsBut.get_bind (KeepsBut.ite (fun _ => KeepsBut.pure hs₂) fun _ => ?_)
    refine KeepsBut.bind (gather_keeps hs₂ hids₂ hpend) fun G₃ b₃ r _ h₃ => ?_
    obtain ⟨hu, hr⟩ := h₃
    cases r with
    | some e => exact KeepsBut.pure hr
    | none =>
      obtain ⟨hs₃, hfile, hfuncs⟩ := hr
      refine KeepsBut.seq rfl (GrowsBut.of_eq rfl fun _ _ => rfl) ?_
      refine KeepsBut.get_bind (KeepsBut.ite (fun _ => KeepsBut.pure ?_) fun _ => KeepsBut.pure ?_)
      · exact (hs₃.report _).but (by simpa [hu] using hs₂.uninstalled)
      · exact ⟨hs₃.report _, by simpa [hu] using hpend, hfile, hfuncs⟩

/-- Finishing a unit's job changes only the units: it drops the unit from the pending ones,
and installs its tree, as the only change to the installed units, exactly when it reports no
failure. A failed job reports its failure. -/
theorem finish_run (name : String) (err : Option Failure) (b : Build) :
    ((finish name err).run b).2.tables = b.tables ∧
      ((finish name err).run b).2.nextNode = b.nextNode ∧
      ((finish name err).run b).2.units.pending = Units.dropEntry b.units.pending name ∧
      (∀ n, n ≠ name →
        ((finish name err).run b).2.units.compiled.lookup n = b.units.compiled.lookup n) ∧
      ((finish name err).run b).2.units.compiled.lookup name =
        (if ((finish name err).run b).1 = none then b.units.file? name
          else b.units.compiled.lookup name) ∧
      (err.isSome → ((finish name err).run b).1.isSome) := by
  have hpure : ∀ p : Option Failure × Build, (pure p : Id _) = p := fun _ => rfl
  unfold finish
  simp only [StateT.run_bind, StateT.run_get, StateT.run_set, StateT.run_pure, pure_bind, hpure]
  cases err with
  | some e => simp
  | none =>
    cases b.units.cancelled
    · cases hf : b.units.file? name with
      | none => simp [Units.compiled_eq_none hf]
      | some f => simp +contextual
    · simp

/-- The tree of a finished unit: the one it had once its job succeeded, and else only one that
was installed before. -/
theorem finish_file?_self (name : String) (err : Option Failure) (b : Build) :
    ((finish name err).run b).2.units.file? name =
      (if ((finish name err).run b).1 = none then b.units.file? name
        else b.units.compiled.lookup name) := by
  obtain ⟨-, -, hp, -, hname, -⟩ := finish_run name err b
  -- the unit is no longer pending, so its tree is the one installed, if any
  have hfile : ((finish name err).run b).2.units.file? name =
      ((finish name err).run b).2.units.compiled.lookup name := by
    unfold Units.file?
    split <;> simp_all
  rw [hfile, hname]

/-- A finished job leaves every unit with no tree, or with the tree it had. -/
theorem finish_file? (name : String) (err : Option Failure) (b : Build) (n : String) :
    ((finish name err).run b).2.units.file? n = none ∨
      ((finish name err).run b).2.units.file? n = b.units.file? n := by
  obtain ⟨-, -, hp, hc, -, -⟩ := finish_run name err b
  by_cases hn : n = name
  · subst hn
    rw [finish_file?_self]
    split_ifs
    · exact Or.inr rfl
    · cases hc : b.units.compiled.lookup n with
      | none => exact Or.inl rfl
      | some f => exact Or.inr (Units.file?_of_compiled hc).symm
  · right
    simp [Units.file?, hp, hc n hn, hn]

/-- A unit that may be imported stays so once a job finished. -/
theorem finish_unitOk (name : String) (err : Option Failure) {n : String} (h : UnitOk G b n) :
    UnitOk G ((finish name err).run b).2 n := by
  obtain ⟨ht, -, hp, -, -, -⟩ := finish_run name err b
  refine ⟨fun f hf => ?_, fun o ho => ?_⟩
  · rcases finish_file? name err b n with hnone | heq
    · rw [hnone] at hf
      cases hf
    · rw [heq] at hf
      rw [ht]
      exact h.1 f hf
  · rw [hp, Units.lookup_dropEntry] at ho
    split at ho
    · cases ho
    · exact h.2 o ho

theorem finish_grows (name : String) (err : Option Failure) (b : Build) :
    GrowsBut G b G ((finish name err).run b).2 name := by
  obtain ⟨ht, -, hp, -, -, -⟩ := finish_run name err b
  exact GrowsBut.of_eq ht fun n hn => by simp [hp, hn]

/-- Finishing a job in a sound build leaves it sound; when the job succeeded, the unit keeps
its tree. -/
theorem finish_sound (hs : Sound G b) (err : Option Failure) :
    KeepsBut name G b (finish name err) fun G b' r =>
      Sound G b' ∧ (r = none → err = none ∧ b'.units.file? name = b.units.file? name) := by
  obtain ⟨ht, hn, -, -, -, hfail⟩ := finish_run name err b
  refine ⟨G, finish_grows name err b, ⟨ht ▸ hs.closed,
    fun k hk => ht ▸ hs.fresh k (hn ▸ hk), fun n => finish_unitOk name err (hs.units n)⟩,
    fun hr => ⟨?_, ?_⟩⟩
  · cases err with
    | none => rfl
    | some e => simp [hr] at hfail
  · rw [finish_file?_self, if_pos hr]

/-- Finishing a failed job in a build sound but for its unit leaves it sound: the unit was not
installed, and is no longer pending. -/
theorem finish_but (hs : SoundBut G b name) {err : Option Failure} (herr : err.isSome) :
    KeepsBut name G b (finish name err) fun G b' r => Sound G b' ∧ r.isSome := by
  obtain ⟨ht, hn, hp, -, -, hfail⟩ := finish_run name err b
  refine ⟨G, finish_grows name err b, ⟨ht ▸ hs.closed,
    fun k hk => ht ▸ hs.fresh k (hn ▸ hk), fun n => ?_⟩, hfail herr⟩
  by_cases hne : n = name
  · subst hne
    have hsome := hfail herr
    refine ⟨fun f hf => ?_, fun o ho => ?_⟩
    · rw [finish_file?_self, if_neg (by simpa [Option.isSome_iff_ne_none] using hsome),
        hs.uninstalled] at hf
      cases hf
    · simp [hp] at ho
  · exact finish_unitOk name err (hs.units n hne)

/-- Running the phases of a unit from a build sound but for it: unless they failed before
execution, the build is sound again, and a unit that ran without failure is pending with its
tree. -/
theorem phases_keeps {host : Eval.Host} (hhost : Eval.HostOk host) (hs : SoundBut G b name)
    (origin : Origin) (rs : List String) :
    KeepsBut name G b (phases host name origin rs) fun G b' err =>
      (Sound G b' ∧ (err = none → (b'.units.file? name).isSome)) ∨
        (SoundBut G b' name ∧ err.isSome) := by
  unfold phases
  refine KeepsBut.bind (prepare_keeps hs origin) fun G₁ b₁ r _ hr => ?_
  cases r with
  | error f => exact KeepsBut.pure (.inr ⟨hr, rfl⟩)
  | ok f =>
    obtain ⟨hs₁, hpend, hfile, hfuncs⟩ := hr
    -- execution keeps the build sound, and the unit pending with its tree
    obtain ⟨G₂, hg₂, hs₂, -⟩ := Eval.execute_safe f host hhost rs hs₁ hfile hfuncs
    refine KeepsBut.bind (x := (f.execute host rs).run)
      (Q := fun G b _ => Sound G b ∧ b.units.pending.lookup name = some (some f))
      ⟨G₂, hg₂.but, hs₂, hg₂.pending _ _ hpend⟩ fun G₃ b₃ r _ h₃ => ?_
    obtain ⟨hs₃, hpend₃⟩ := h₃
    cases r with
    | error e => exact KeepsBut.pure (.inl ⟨hs₃, fun h => by cases h⟩)
    | ok u =>
      exact KeepsBut.seq rfl (GrowsBut.of_eq rfl fun _ _ => rfl) (KeepsBut.pure (.inl
        ⟨hs₃.report _, fun _ => by simpa using Units.file?_isSome_of_pending hpend₃⟩))

end Steps

/-- Drawing a fresh unit name changes only the counter of names. -/
theorem freshName_keeps (hs : Sound G b) (kind : String) :
    Keeps G b (freshName kind) fun _ _ _ => True :=
  Keeps.of_run rfl (Grows.of_eq rfl rfl) (hs.of_eq rfl rfl rfl le_rfl) trivial

/-- What a request answers for: the build stays sound, and when the request reports no failure
to a caller that waits for it, the unit asked for has a tree. -/
def Answers (name : String) (parallel : Bool) (_ : ScopeId → Prop) (b : Build) (o : Outcome) :
    Prop :=
  parallel = false → o.err = none → (b.units.file? name).isSome

/-- The host of nested requests with some fuel is one evaluation may rely on, when requests
with that fuel answer for their units. -/
theorem host_ok (fuel : Nat)
    (hreq : ∀ name origin parallel rs G b, Sound G b →
      Keeps G b (request fuel name origin parallel rs) (Answers name parallel)) :
    Eval.HostOk (host fuel) := by
  refine ⟨fun G b name rs hs => ?_, fun G b text rs hs => ?_⟩ <;> rw [host]
  · exact Keeps.bind (hreq name .file false rs G b hs) fun _ _ o _ hs' ho =>
      Keeps.pure (Q := fun _ b err => err = none → (b.units.file? name).isSome) hs' (ho rfl)
  · show Keeps G b (freshName "source" >>= fun name =>
      request fuel name (.text text) false rs >>= fun o => pure (name, o.err)) _
    refine Keeps.bind (freshName_keeps hs "source") fun G₁ b₁ name _ hs₁ _ => ?_
    exact Keeps.bind (hreq name (.text text) false rs G₁ b₁ hs₁) fun _ _ o _ hs' ho =>
      Keeps.pure (Q := fun _ b (r : String × Option Failure) =>
        r.2 = none → (b.units.file? r.1).isSome) hs' (ho rfl)

/-- A request keeps a sound build sound, and when it reports no failure to a caller that waits
for it, the unit it asked for has a tree: installed, or pending and parsed when the caller is
one of the units it waits on. -/
theorem request_keeps : ∀ (fuel : Nat) (name : String) (origin : Origin) (parallel : Bool)
    (rs : List String) (G : ScopeId → Prop) (b : Build), Sound G b →
    Keeps G b (request fuel name origin parallel rs) (Answers name parallel)
  | 0, _, _, _, _, G, b, hs => by
    rw [request]
    exact Keeps.pure hs fun _ h => by cases h
  | fuel + 1, name, origin, parallel, rs, G, b, hs => by
    have hhost := host_ok fuel (request_keeps fuel)
    rw [request]
    refine Keeps.get_bind (Keeps.ite (fun _ => Keeps.pure hs fun _ h => by cases h) fun _ => ?_)
    refine Keeps.ite (fun hc => Keeps.pure hs fun _ _ => ?_) fun hc => ?_
    · -- an installed unit has its tree
      obtain ⟨f, hf⟩ := Option.isSome_iff_exists.1 (show (b.units.compiled.lookup name).isSome from hc)
      simp [Units.file?_of_compiled hf]
    refine Keeps.ite (fun hp => ?_) fun hp => ?_
    · -- a pending unit is being executed, so it has its tree
      have hfile : (b.units.file? name).isSome := by
        have hc' := Units.lookup_eq_none_of_not hc
        obtain ⟨o, ho⟩ := Option.isSome_iff_exists.1 (show (b.units.pending.lookup name).isSome from hp)
        obtain ⟨f, rfl⟩ := Option.isSome_iff_exists.1 ((hs.units name).2 o ho)
        simp [Units.file?, hc', ho]
      extract_lets jp
      exact Keeps.ite (fun _ => Keeps.of_run rfl (Grows.of_eq rfl rfl) (hs.report _)
        fun _ _ => by simpa using hfile) fun _ => Keeps.pure hs fun _ _ => hfile
    · -- the unit becomes pending, with no tree yet, until its job finishes
      refine KeepsBut.keeps ?_ (Units.lookup_eq_none_of_not hp)
      refine KeepsBut.seq rfl (GrowsBut.of_eq rfl fun n hn => by simp [hn]) ?_
      refine KeepsBut.bind (phases_keeps hhost ?_ origin rs) fun G₁ b₁ err _ hph => ?_
      · exact (hs.but (Units.lookup_eq_none_of_not hc)).of_eq rfl rfl (fun n hn => by simp [hn])
          le_rfl
      rcases hph with ⟨hs₁, hfile⟩ | ⟨hs₁, herr⟩
      · refine KeepsBut.bind (finish_sound hs₁ err) fun G₂ b₂ err' _ h₂ =>
          KeepsBut.pure ⟨h₂.1, fun hpar ho => ?_⟩
        subst hpar
        obtain ⟨hnone, hkeep⟩ := h₂.2 (by simpa using ho)
        rw [hkeep]
        exact hfile hnone
      · refine KeepsBut.bind (finish_but hs₁ herr) fun G₂ b₂ err' _ h₂ =>
          KeepsBut.pure ⟨h₂.1, fun hpar ho => ?_⟩
        subst hpar
        simp [show err' = none by simpa using ho] at h₂

/-! ## The builds the service reaches -/

/-- The builds reached from a fresh one by the commands callers give the service. -/
inductive Served : Build → Prop where
  | start (files : Files) : Served (Build.start files)
  | compileFile {b : Build} (path : String) (parallel : Bool) :
      Served b → Served ((Build.compileFile path parallel).run b).2
  | compileSource {b : Build} (text : String) (parallel : Bool) :
      Served b → Served ((Build.compileSource text parallel).run b).2
  | compileStream {b : Build} (text : String) (cut : Option (Nat × String)) (parallel : Bool) :
      Served b → Served ((Build.compileStream text cut parallel).run b).2
  | drain {b : Build} : Served b → Served (Build.drain.run b).2
  | cancel {b : Build} : Served b → Served (Build.cancel.run b).2

/-- A fresh build is sound with no good scope: it records no scope and has no unit. -/
theorem Sound.start (files : Files) : Sound (fun _ => False) (Build.start files) where
  closed := ⟨fun _ h => h.elim, fun _ _ _ h => h.elim, fun _ _ h => h.elim⟩
  fresh _ _ := by simp [Build.start, Notes.scopeOf?]
  units _ := ⟨fun _ hf => by simp [Build.start, Units.file?] at hf,
    fun _ ho => by simp [Build.start] at ho⟩

/-- A compilation of a new unit keeps the build sound. -/
theorem Keeps.named_request (kind : String) (origin : String → Origin) (parallel : Bool)
    (hs : Sound G b) :
    Keeps G b (do let name ← freshName kind
                  return (name, ← request nestingLimit name (origin name) parallel []))
      fun _ _ _ => True :=
  Keeps.bind (freshName_keeps hs kind) fun G₁ b₁ name _ hs₁ _ =>
    Keeps.bind (request_keeps _ name (origin name) parallel [] G₁ b₁ hs₁) fun _ _ _ _ hs₂ _ =>
      Keeps.pure hs₂ trivial

/-- Every build the service reaches is sound, for some good scopes. -/
theorem Served.sound (h : Served b) : ∃ G, Sound G b := by
  induction h with
  | start files => exact ⟨_, Sound.start files⟩
  | compileFile path parallel _ ih =>
    obtain ⟨G, hs⟩ := ih
    obtain ⟨G', -, hs', -⟩ := request_keeps nestingLimit (Path.clean path) .file parallel [] G _ hs
    exact ⟨G', hs'⟩
  | compileSource text parallel _ ih =>
    obtain ⟨G, hs⟩ := ih
    obtain ⟨G', -, hs', -⟩ := Keeps.named_request "source" (fun _ => .text text) parallel hs
    exact ⟨G', hs'⟩
  | compileStream text cut parallel _ ih =>
    obtain ⟨G, hs⟩ := ih
    obtain ⟨G', -, hs', -⟩ := Keeps.named_request "stream" (fun _ => .stream text cut) parallel hs
    exact ⟨G', hs'⟩
  | drain _ ih =>
    obtain ⟨G, hs⟩ := ih
    exact ⟨G, hs.of_eq rfl rfl rfl le_rfl⟩
  | cancel _ ih =>
    obtain ⟨G, hs⟩ := ih
    exact ⟨G, hs.of_eq rfl rfl rfl le_rfl⟩

/-! ## Executing a gathered unit -/

/-- A unit a request prepares from a sound build, once parsed and gathered, executes with the
host of nested requests to its end or to an error the program causes. Nested requests start
from sound builds too, so this covers every unit the service executes. -/
theorem prepared_execute_error_kind (hs : Sound G b) (fuel : Nat) (name : String)
    (origin : Origin) (rs : List String) (hc : b.units.compiled.lookup name = none) :
    match (prepare name origin).run { b with units := { b.units with
        pending := Units.setEntry b.units.pending name none } } with
    | (.ok f, b₂) => ∀ e, ((f.execute (host fuel) rs).run.run b₂).1 = .error e →
        e.kind ∈ evalKinds
    | (.error _, _) => True := by
  -- the unit is registered as pending, which leaves the build sound but for it
  have hs₁ : SoundBut G { b with units := { b.units with
      pending := Units.setEntry b.units.pending name none } } name :=
    (hs.but hc).of_eq rfl rfl (fun n hn => by simp [hn]) le_rfl
  obtain ⟨G₁, -, hprep⟩ := prepare_keeps hs₁ origin
  rcases hrun : (prepare name origin).run { b with units := { b.units with
      pending := Units.setEntry b.units.pending name none } } with ⟨_ | f, b₂⟩
  · trivial
  · rw [hrun] at hprep
    obtain ⟨hs₂, -, hfile, hfuncs⟩ := hprep
    -- the host serves nested requests, which keep the build sound
    obtain ⟨G₃, -, -, hend⟩ :=
      Eval.execute_safe f (host fuel) (host_ok fuel (request_keeps fuel)) rs hs₂ hfile hfuncs
    intro e he
    rw [he] at hend
    exact hend

/-- Executing a unit that was parsed and gathered in a build the service reached fails, if at
all, with an error the program causes: an integer literal out of range, a name that resolves
to nothing, or an execution error; never with an internal error. -/
theorem execute_error_kind (hb : Served b) (fuel : Nat) (name : String) (origin : Origin)
    (rs : List String) (hc : b.units.isCompiled name = false) :
    match (prepare name origin).run { b with units := { b.units with
        pending := Units.setEntry b.units.pending name none } } with
    | (.ok f, b₂) => ∀ e, ((f.execute (host fuel) rs).run.run b₂).1 = .error e →
        e.kind = .parse ∨ e.kind = .unresolved ∨ e.kind = .execution
    | (.error _, _) => True := by
  obtain ⟨G, hs⟩ := hb.sound
  have hexec := prepared_execute_error_kind hs fuel name origin rs
    (Units.lookup_eq_none_of_not (ne_true_of_eq_false hc))
  split
  · rename_i f b₂ hrun
    rw [hrun] at hexec
    intro e he
    simpa [evalKinds] using hexec e he
  · trivial

/-- A fresh build and a unit given as text, which nothing compiled yet. -/
theorem execute_error_kind_start :
    Served (Build.start default) ∧ (Build.start default).units.isCompiled "<source#1>" = false ∧
      match (prepare "<source#1>" (.text "fun main() {}")).run
          { Build.start default with units := { (Build.start default).units with
            pending := Units.setEntry (Build.start default).units.pending "<source#1>" none } } with
      | (.ok f, b₂) => ∀ e, ((f.execute (host nestingLimit) []).run.run b₂).1 = .error e →
          e.kind = .parse ∨ e.kind = .unresolved ∨ e.kind = .execution
      | (.error _, _) => True :=
  ⟨.start default, rfl,
    execute_error_kind (.start default) nestingLimit "<source#1>" (.text "fun main() {}") [] rfl⟩

end Service

end Abla
