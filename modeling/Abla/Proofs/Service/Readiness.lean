import Mathlib
import Abla.Proofs.Eval.Moves
import Abla.Proofs.Codegen.Declaring

/-!
# Every installed unit is ready to generate

Generation reads from the tables what the three phases of a unit leave there: gathering records
at each function's node the type its labels name and a scope at each body and function literal,
and execution records a constant at each `#` node of the bodies. This module shows that every
unit the service installs finds all of it in the build (`Served.ready`), and that the installed
trees are numbered apart, so the program's declaration round cannot overwrite one unit's handles
with another's.

The invariant is `Ready`. A build moves along `Advances W` when, from a ready build, it leaves a
ready one, writes types only at the nodes `W` (the `#` nodes of the unit executing), and only adds
scopes, constants, pending trees and installed units. Evaluation keeps `Advances W` whenever the
host's requests do (`Eval.evaluate_moves`); a request does, by induction on its fuel, since the
unit it installs was parsed, gathered and executed on the way.
-/

namespace Abla

section Trees

mutual

/-- The `#` nodes execution visits in an expression are nodes of it. -/
theorem Expr.constSites_sub : ∀ (e : Expr) {k : Nat}, k ∈ e.constSites → k ∈ e.ids
  | .ident _ _, _, h | .int _ _, _, h => by simp [Expr.constSites] at h
  | .str _ ps, _, h => by simp [Expr.ids, Piece.constSitesList_sub ps h]
  | .call _ f as, _, h => by
    simp only [Expr.constSites, List.mem_append] at h
    rcases h with h | h
    · simp [Expr.ids, f.constSites_sub h]
    · simp [Expr.ids, Expr.constSitesList_sub as h]
  | .lambda _ b, _, h => by simp [Expr.ids, Block.constSites_sub b h]
  | .binary _ _ l r, _, h => by
    simp only [Expr.constSites, List.mem_append] at h
    rcases h with h | h
    · simp [Expr.ids, l.constSites_sub h]
    · simp [Expr.ids, r.constSites_sub h]
  | .exec _ _, _, h => by
    simp only [Expr.constSites, List.mem_singleton] at h
    simp [Expr.ids, h]

theorem Expr.constSitesList_sub :
    ∀ (es : List Expr) {k : Nat}, k ∈ Expr.constSitesList es → k ∈ Expr.idsList es
  | [], _, h => by simp [Expr.constSitesList] at h
  | e :: es, _, h => by
    simp only [Expr.constSitesList, List.mem_append] at h
    rcases h with h | h
    · simp [Expr.idsList, e.constSites_sub h]
    · simp [Expr.idsList, Expr.constSitesList_sub es h]

theorem Piece.constSitesList_sub :
    ∀ (ps : List Piece) {k : Nat}, k ∈ Piece.constSitesList ps → k ∈ Piece.idsList ps
  | [], _, h => by simp [Piece.constSitesList] at h
  | .text _ :: ps, _, h => by simp [Piece.idsList, Piece.constSitesList_sub ps h]
  | .interp e :: ps, _, h => by
    simp only [Piece.constSitesList, List.mem_append] at h
    rcases h with h | h
    · simp [Piece.idsList, e.constSites_sub h]
    · simp [Piece.idsList, Piece.constSitesList_sub ps h]

theorem Stmt.constSites_sub : ∀ (st : Stmt) {k : Nat}, k ∈ st.constSites → k ∈ st.ids
  | .expr _ e, _, h => by simp [Stmt.ids, e.constSites_sub h]
  | .ret _ none, _, h => by simp [Stmt.constSites] at h
  | .ret _ (some e), _, h => by simp [Stmt.ids, e.constSites_sub h]

theorem Stmt.constSitesList_sub :
    ∀ (sts : List Stmt) {k : Nat}, k ∈ Stmt.constSitesList sts → k ∈ Stmt.idsList sts
  | [], _, h => by simp [Stmt.constSitesList] at h
  | st :: sts, _, h => by
    simp only [Stmt.constSitesList, List.mem_append] at h
    rcases h with h | h
    · simp [Stmt.idsList, st.constSites_sub h]
    · simp [Stmt.idsList, Stmt.constSitesList_sub sts h]

theorem Block.constSites_sub : ∀ (b : Block) {k : Nat}, k ∈ b.constSites → k ∈ b.ids
  | .mk _ sts, _, h => by simp [Block.ids, Stmt.constSitesList_sub sts h]

end

namespace FuncDecl

theorem stmts_ids_mem {g : FuncDecl} {k : Nat} (hk : k ∈ Stmt.idsList g.stmts) : k ∈ g.ids := by
  cases hb : g.body with
  | none => simp [FuncDecl.stmts, hb, Stmt.idsList] at hk
  | some b => exact body_ids_mem hb (by simpa [FuncDecl.stmts, hb] using hk)

/-- A function's own node is none of its statements'. -/
theorem site_not_mem_stmts {g : FuncDecl} (hnd : g.ids.Nodup) : g.site.id ∉ Stmt.idsList g.stmts := by
  cases hb : g.body with
  | none => simp [FuncDecl.stmts, hb, Stmt.idsList]
  | some b => simpa [FuncDecl.stmts, hb] using site_not_mem_body hnd hb

end FuncDecl

namespace Decl

mutual

/-- In a declaration with distinct nodes, no function's node is a node of a function's body. -/
theorem site_not_mem_stmts : ∀ (d : Decl) {g g' : FuncDecl}, d.ids.Nodup → g ∈ d.funcs →
    g' ∈ d.funcs → g'.site.id ∉ Stmt.idsList g.stmts
  | .func f, g, g', hnd, hg, hg' => by
    simp only [funcs, List.mem_singleton] at hg hg'
    subst hg hg'
    exact FuncDecl.site_not_mem_stmts hnd
  | .cls _ _ _ ms, g, g', hnd, hg, hg' =>
    site_not_mem_stmtsList ms (cls_ids_nodup hnd).2 hg hg'
  | .hashCall _ _, g, _, _, hg, _ => by simp [funcs] at hg

theorem site_not_mem_stmtsList : ∀ (ds : List Decl) {g g' : FuncDecl}, (idsList ds).Nodup →
    g ∈ funcsList ds → g' ∈ funcsList ds → g'.site.id ∉ Stmt.idsList g.stmts
  | [], g, _, _, hg, _ => by simp [funcsList] at hg
  | d :: ds, g, g', hnd, hg, hg' => by
    obtain ⟨hd, hds, hdisj⟩ := idsList_cons_nodup hnd
    simp only [funcsList, List.mem_append] at hg hg'
    -- two functions of one declaration, or of the rest; or one of each, whose nodes lie apart
    rcases hg with hg | hg <;> rcases hg' with hg' | hg'
    · exact site_not_mem_stmts d hd hg hg'
    · exact fun hk => hdisj _ (funcs_ids_mem d hg (FuncDecl.stmts_ids_mem hk))
        (funcsList_site_mem ds hg')
    · exact fun hk => hdisj _ (funcs_site_mem d hg')
        (funcsList_ids_mem ds hg (FuncDecl.stmts_ids_mem hk))
    · exact site_not_mem_stmtsList ds hds hg hg'

end

/-- The nodes of a list of declarations at which execution records a constant: the `#` nodes of
its functions' bodies. -/
def ConstSite (ds : List Decl) (k : Nat) : Prop :=
  ∃ g ∈ funcsList ds, k ∈ Stmt.constSitesList g.stmts

theorem ConstSite.mem_ids {ds : List Decl} {k : Nat} (h : ConstSite ds k) : k ∈ idsList ds := by
  obtain ⟨g, hg, hk⟩ := h
  exact funcsList_ids_mem ds hg (FuncDecl.stmts_ids_mem (Stmt.constSitesList_sub _ hk))

/-- No function's node is a `#` node. -/
theorem ConstSite.ne_site {ds : List Decl} {k : Nat} (hnd : (idsList ds).Nodup)
    (h : ConstSite ds k) {g' : FuncDecl} (hg' : g' ∈ funcsList ds) : k ≠ g'.site.id := by
  obtain ⟨g, hg, hk⟩ := h
  rintro rfl
  exact site_not_mem_stmtsList ds hnd hg hg' (Stmt.constSitesList_sub _ hk)

end Decl

end Trees

namespace Notes

@[simp] theorem typeOf?_setConst (n : Notes) (node k : Nat) (c : ConstValue) :
    (n.setConst node c).typeOf? k = n.typeOf? k := rfl

@[simp] theorem scopeOf?_setConst (n : Notes) (node k : Nat) (c : ConstValue) :
    (n.setConst node c).scopeOf? k = n.scopeOf? k := rfl

/-- What the notes record stays recorded in notes that only add scopes and constants. -/
theorem Records.mono {n n' : Notes} {ls cs : List Nat} (h : n.Records ls cs)
    (hs : ∀ k, (n.scopeOf? k).isSome → (n'.scopeOf? k).isSome)
    (hc : ∀ k, (n.constOf? k).isSome → (n'.constOf? k).isSome) : n'.Records ls cs :=
  ⟨fun k hk => hs k (h.1 k hk), fun k hk => hc k (h.2 k hk)⟩

end Notes

section Invariant

/-- What generating an installed unit reads from the tables: at each function's node the type its
labels name, and for each body generated the scope of the function and of its function literals
and the constant of each `#` node. -/
structure UnitReady (t : Tables) (f : SourceFile) : Prop where
  signed : Decl.Signed t f.decls
  records : ∀ g ∈ Decl.generatedList f.decls,
    t.notes.Records (g.site.id :: Stmt.literalIdsList g.stmts) (Stmt.constSitesList g.stmts)

/-- The invariant of the builds the service reaches: no node from the next free one on records a
scope, the installed trees have distinct nodes below the next free one, and each is ready. -/
structure Ready (b : Build) : Prop where
  fresh : ∀ k, b.nextNode ≤ k → b.tables.notes.scopeOf? k = none
  nodes : (b.units.compiled.flatMap fun e => e.2.ids).Nodup
  numbered : ∀ e ∈ b.units.compiled, ∀ k ∈ e.2.ids, k < b.nextNode
  units : ∀ e ∈ b.units.compiled, UnitReady b.tables e.2

/-- A ready build whose installed trees have no node in `W`, all of whose nodes lie below the next
free node. -/
structure Poised (W : Nat → Prop) (b : Build) : Prop where
  ready : Ready b
  below : ∀ k, W k → k < b.nextNode
  apart : ∀ e ∈ b.units.compiled, ∀ k ∈ e.2.ids, ¬ W k

/-- What a change from `b` to `b'` did: it left a ready build, wrote types below the next free
node only at nodes of `W`, kept every scope, constant and pending unit, and installed only trees
of units that were not pending, numbered from the next free node on. -/
structure Moved (W : Nat → Prop) (b b' : Build) : Prop where
  ready : Ready b'
  next : b.nextNode ≤ b'.nextNode
  types : ∀ k < b.nextNode, ¬ W k → b'.tables.notes.typeOf? k = b.tables.notes.typeOf? k
  scopes : ∀ k, (b.tables.notes.scopeOf? k).isSome → (b'.tables.notes.scopeOf? k).isSome
  consts : ∀ k, (b.tables.notes.constOf? k).isSome → (b'.tables.notes.constOf? k).isSome
  pending : ∀ n, (b.units.pending.lookup n).isSome → (b'.units.pending.lookup n).isSome
  parsed : ∀ n f, b.units.pending.lookup n = some (some f) →
    b'.units.pending.lookup n = some (some f)
  installs : ∀ e ∈ b'.units.compiled, e ∈ b.units.compiled ∨
    (b.units.pending.lookup e.1 = none ∧ ∀ k ∈ e.2.ids, b.nextNode ≤ k)

/-- From a build poised for `W`, the change from `b` to `b'` is `Moved W`. -/
def Advances (W : Nat → Prop) (b b' : Build) : Prop := Poised W b → Moved W b b'

variable {W W' : Nat → Prop} {b b₁ b₂ : Build}

theorem UnitReady.of_frame {t t' : Tables} {f : SourceFile} (h : UnitReady t f)
    (htypes : ∀ g ∈ Decl.funcsList f.decls, t'.notes.typeOf? g.site.id = t.notes.typeOf? g.site.id)
    (hs : ∀ k, (t.notes.scopeOf? k).isSome → (t'.notes.scopeOf? k).isSome)
    (hc : ∀ k, (t.notes.constOf? k).isSome → (t'.notes.constOf? k).isSome) : UnitReady t' f :=
  ⟨fun g hg => (htypes g hg).trans (h.signed g hg), fun g hg => (h.records g hg).mono hs hc⟩

/-- A function's node is a node of its unit. -/
theorem SourceFile.funcs_site_mem {f : SourceFile} {g : FuncDecl} (hg : g ∈ Decl.funcsList f.decls) :
    g.site.id ∈ f.ids := by
  simp [SourceFile.ids, Decl.funcsList_site_mem _ hg]

/-- A change that installs nothing keeps a build ready when it keeps the notes the installed
units read and records no scope from the new next free node on. -/
theorem Ready.of_frame (hp : Poised W b) (hc : b₁.units.compiled = b.units.compiled)
    (hn : b.nextNode ≤ b₁.nextNode)
    (hfresh : ∀ k, b₁.nextNode ≤ k → b₁.tables.notes.scopeOf? k = none)
    (htypes : ∀ k < b.nextNode, ¬ W k → b₁.tables.notes.typeOf? k = b.tables.notes.typeOf? k)
    (hs : ∀ k, (b.tables.notes.scopeOf? k).isSome → (b₁.tables.notes.scopeOf? k).isSome)
    (hcs : ∀ k, (b.tables.notes.constOf? k).isSome → (b₁.tables.notes.constOf? k).isSome) :
    Ready b₁ := by
  refine ⟨hfresh, hc ▸ hp.ready.nodes, fun e he k hk => ?_, fun e he => ?_⟩
  · rw [hc] at he
    exact Nat.lt_of_lt_of_le (hp.ready.numbered e he k hk) hn
  · rw [hc] at he
    -- the installed functions' nodes lie below the next free node, apart from `W`
    refine (hp.ready.units e he).of_frame (fun g hg => htypes _ ?_ ?_) hs hcs
    · exact hp.ready.numbered e he _ (SourceFile.funcs_site_mem hg)
    · exact hp.apart e he _ (SourceFile.funcs_site_mem hg)

namespace Moved

theorem refl (hr : Ready b) : Moved W b b :=
  ⟨hr, le_rfl, fun _ _ _ => rfl, fun _ h => h, fun _ h => h, fun _ h => h, fun _ _ h => h,
    fun _ he => .inl he⟩

/-- A move keeps a build poised: the trees it installs are numbered after every node of `W`. -/
theorem poised (h : Moved W' b b₁) (hp : Poised W b) : Poised W b₁ := by
  refine ⟨h.ready, fun k hk => Nat.lt_of_lt_of_le (hp.below k hk) h.next, fun e he k hk hk' => ?_⟩
  rcases h.installs e he with he | ⟨-, hnew⟩
  · exact hp.apart e he k hk hk'
  · exact absurd (hp.below k hk') (Nat.not_lt.2 (hnew k hk))

theorem trans (h₁ : Moved W b b₁) (h₂ : Moved W' b₁ b₂) (hW : ∀ k < b.nextNode, W' k → W k) :
    Moved W b b₂ := by
  refine ⟨h₂.ready, h₁.next.trans h₂.next, fun k hk hw => ?_, fun k h => h₂.scopes k (h₁.scopes k h),
    fun k h => h₂.consts k (h₁.consts k h), fun n h => h₂.pending n (h₁.pending n h),
    fun n f h => h₂.parsed n f (h₁.parsed n f h), fun e he => ?_⟩
  · rw [h₂.types k (Nat.lt_of_lt_of_le hk h₁.next) fun hw' => hw (hW k hk hw'), h₁.types k hk hw]
  · rcases h₂.installs e he with he | ⟨hnone, hnew⟩
    · exact h₁.installs e he
    · -- a unit pending before stays pending, so a new tree was not pending at the start either
      refine .inr ⟨?_, fun k hk => h₁.next.trans (hnew k hk)⟩
      cases hp : b.units.pending.lookup e.1 with
      | none => rfl
      | some o =>
        have := h₁.pending e.1 (by simp [hp])
        simp [hnone] at this

theorem mono (h : Moved W b b₁) (hW : ∀ k, W k → W' k) : Moved W' b b₁ :=
  { h with types := fun k hk hw => h.types k hk fun hw' => hw (hW k hw') }

end Moved

namespace Advances

theorem mono (h : Advances W b b₁) (hW : ∀ k, W k → W' k) : Advances W' b b₁ :=
  fun hp => (h ⟨hp.ready, fun k hk => hp.below k (hW k hk),
    fun e he k hk hw => hp.apart e he k hk (hW k hw)⟩).mono hW

/-- Advancing is a preorder, and a change of the scopes and the events alone advances. -/
theorem track : Eval.Track (Advances W) where
  refl _ := fun hp => Moved.refl hp.ready
  trans {b b₁ b₂} h₁ h₂ := fun hp => by
    have m₁ := h₁ hp
    exact m₁.trans (h₂ (m₁.poised hp)) fun _ _ h => h
  scopes b st events := fun hp =>
    ⟨⟨hp.ready.fresh, hp.ready.nodes, hp.ready.numbered,
      fun e he => (hp.ready.units e he).of_frame (fun _ _ => rfl) (fun _ h => h) fun _ h => h⟩,
      le_rfl, fun _ _ _ => rfl, fun _ h => h, fun _ h => h, fun _ h => h, fun _ _ h => h,
      fun _ he => .inl he⟩

/-- A change of the units' bookkeeping, the events or the next free node alone advances. -/
theorem of_frame (ht : b₁.tables = b.tables) (hn : b.nextNode ≤ b₁.nextNode)
    (hc : b₁.units.compiled = b.units.compiled) (hpend : b₁.units.pending = b.units.pending) :
    Advances W b b₁ := fun hp => by
  have hr : Ready b₁ := Ready.of_frame hp hc hn
    (fun k hk => by rw [ht]; exact hp.ready.fresh k (hn.trans hk)) (fun k _ _ => by rw [ht])
    (fun k h => by rwa [ht]) (fun k h => by rwa [ht])
  exact ⟨hr, hn, fun k _ _ => by rw [ht], fun k h => by rwa [ht], fun k h => by rwa [ht],
    fun n h => by rwa [hpend], fun n f h => by rwa [hpend], fun e he => .inl (hc ▸ he)⟩

end Advances

end Invariant

namespace Notes

theorem constOf?_setConst_isSome (n : Notes) {node k : Nat} (c : ConstValue)
    (h : (n.constOf? k).isSome) : ((n.setConst node c).constOf? k).isSome := by
  by_cases hk : node = k
  · subst hk
    simp
  · rwa [constOf?_setConst_of_ne n c hk]

end Notes

/-- Writing a constant and a type at a node of `W` advances along `W`. -/
theorem Advances.setConst {W : Nat → Prop} {k : Nat} (hk : W k) (c : ConstValue) (ty : DataType)
    (b : Build) : Advances W b { b with tables := { b.tables with
      notes := (b.tables.notes.setConst k c).setType k ty } } := by
  intro hp
  have htypes : ∀ j < b.nextNode, ¬ W j →
      ((b.tables.notes.setConst k c).setType k ty).typeOf? j = b.tables.notes.typeOf? j :=
    fun j _ hj => by
      rw [Notes.typeOf?_setType_of_ne _ ty fun (h : k = j) => hj (h ▸ hk), Notes.typeOf?_setConst]
  have hconsts : ∀ j, (b.tables.notes.constOf? j).isSome →
      (((b.tables.notes.setConst k c).setType k ty).constOf? j).isSome := fun j h => by
    rw [Notes.constOf?_setType]
    exact Notes.constOf?_setConst_isSome _ c h
  refine ⟨Ready.of_frame hp rfl le_rfl (fun j hj => ?_) htypes (fun j h => by simpa using h)
    hconsts, le_rfl, htypes, fun j h => by simpa using h, hconsts, fun _ h => h, fun _ _ h => h,
    fun _ he => .inl he⟩
  simpa using hp.ready.fresh j hj

namespace Eval

section Recording

variable {W : Nat → Prop} {α : Type}

/-- `x` advances along `W`, and a run of it from a poised build that succeeds records a constant
at every node of `ks`. -/
def Recording (W : Nat → Prop) (ks : List Nat) (x : Run Unit) : Prop :=
  Moves (Advances W) x.run ∧ ∀ b b', Poised W b → x.run.run b = (.ok (), b') →
    ∀ k ∈ ks, (b'.tables.notes.constOf? k).isSome

namespace Recording

variable {ks ks' : List Nat}

theorem mono {x : Run Unit} (h : Recording W ks x) (hks : ∀ k ∈ ks', k ∈ ks) :
    Recording W ks' x :=
  ⟨h.1, fun b b' hp hx k hk => h.2 b b' hp hx k (hks k hk)⟩

theorem pure : Recording W [] (Pure.pure () : Run Unit) :=
  ⟨Moves.run_pure Advances.track (), fun _ _ _ _ _ hk => by cases hk⟩

theorem throw (e : CompileError) : Recording W ks (throw e : Run Unit) :=
  ⟨Moves.run_throw Advances.track e, fun _ _ _ h => by cases h⟩

/-- A step that advances, then a recording step. -/
theorem bind {x : Run α} {f : α → Run Unit} (hx : Moves (Advances W) x.run)
    (hf : ∀ a, Recording W ks (f a)) : Recording W ks (x >>= f) := by
  refine ⟨Moves.run_bind Advances.track hx fun a => (hf a).1, fun b b' hp h => ?_⟩
  rw [Run.run_bind] at h
  have hm := hx b hp
  rcases hr : x.run.run b with ⟨_ | a, b₁⟩ <;> rw [hr] at h
  · cases h
  · rw [show (x.run.run b).2 = b₁ by rw [hr]] at hm
    exact (hf a).2 b₁ b' (hm.poised hp) h

/-- Two recording steps record what each does: the constants of the first are kept by the
second. -/
theorem seq {x y : Run Unit} (hx : Recording W ks x) (hy : Recording W ks' y) :
    Recording W (ks ++ ks') (x >>= fun _ => y) := by
  refine ⟨Moves.run_bind Advances.track hx.1 fun _ => hy.1, fun b b' hp h k hk => ?_⟩
  rw [Run.run_bind] at h
  have hm := hx.1 b hp
  rcases hr : x.run.run b with ⟨_ | a, b₁⟩ <;> rw [hr] at h
  · cases h
  · dsimp only at h
    rw [show (x.run.run b).2 = b₁ by rw [hr]] at hm
    have hm₁ := hy.1 b₁ (hm.poised hp)
    rw [show (y.run.run b₁).2 = b' by rw [h]] at hm₁
    rcases List.mem_append.1 hk with hk | hk
    · exact hm₁.consts k (hx.2 b b₁ hp hr k hk)
    · exact hy.2 b₁ b' (hm.poised hp) h k hk

/-- A step whose errors are all rethrown records what it records when it succeeds. -/
theorem tryCatch_throw {x : Run Unit} {g : CompileError → CompileError} (h : Recording W ks x) :
    Recording W ks (MonadExcept.tryCatch x fun e => MonadExcept.throw (g e)) := by
  refine ⟨Moves.run_tryCatch Advances.track h.1 fun e => Moves.run_throw Advances.track _,
    fun b b' hp hx => ?_⟩
  rw [Run.run_tryCatch] at hx
  rcases hr : x.run.run b with ⟨_ | a, b₁⟩ <;> rw [hr] at hx
  · cases hx
  · cases hx
    exact h.2 b b' hp hr

end Recording

/-- Recording a constant at a node of `W` advances, and records it when it succeeds. -/
theorem recordConst_recording {site : Site} (hs : W site.id) (v : Value) :
    Recording W [site.id] (recordConst site v) := by
  unfold recordConst
  extract_lets jp
  -- the write that follows the conversion of the value to a constant
  have hjp : ∀ c, Recording W [site.id] (jp c) := by
    intro c
    refine ⟨fun b => Advances.setConst hs c v.type b, fun b b' _ h k hk => ?_⟩
    cases h
    simp only [List.mem_singleton] at hk
    subst hk
    simp
  split
  all_goals first
    | exact Recording.bind (Moves.run_pure Advances.track _) hjp
    | exact Recording.bind (Moves.run_throw Advances.track _) hjp

end Recording

section Consts

variable {W : Nat → Prop} (sc : Scene)

mutual

/-- Computing the `#` expressions inside an expression records the constant of each. -/
theorem constsExpr_recording (hhost : HostMoves (Advances W) sc.host) (scope : ScopeId) :
    ∀ e : Expr, (∀ k ∈ e.constSites, W k) → Recording W e.constSites (constsExpr sc scope e)
  | .ident _ _, _ => by
    simp only [constsExpr]
    exact Recording.pure
  | .int _ _, _ => by
    simp only [constsExpr]
    exact Recording.pure
  | .str _ ps, hW => by
    rw [constsExpr]
    exact constsPieces_recording hhost scope ps hW
  | .call _ f as, hW => by
    simp only [Expr.constSites, List.mem_append] at hW ⊢
    rw [constsExpr]
    exact (constsExpr_recording hhost scope f fun k hk => hW k (.inl hk)).seq
      (constsArgs_recording hhost scope as fun k hk => hW k (.inr hk))
  | .lambda _ (.mk _ sts), hW => by
    rw [constsExpr]
    exact constsStmts_recording hhost scope sts hW
  | .binary _ _ l r, hW => by
    simp only [Expr.constSites, List.mem_append] at hW ⊢
    rw [constsExpr]
    exact (constsExpr_recording hhost scope l fun k hk => hW k (.inl hk)).seq
      (constsExpr_recording hhost scope r fun k hk => hW k (.inr hk))
  | .exec site e, hW => by
    rw [constsExpr]
    exact Recording.bind (evaluate_moves Advances.track sc hhost _ e) fun v =>
      recordConst_recording (hW site.id (by simp [Expr.constSites])) v

theorem constsPieces_recording (hhost : HostMoves (Advances W) sc.host) (scope : ScopeId) :
    ∀ ps : List Piece, (∀ k ∈ Piece.constSitesList ps, W k) →
      Recording W (Piece.constSitesList ps) (constsPieces sc scope ps)
  | [], _ => by
    rw [constsPieces]
    exact Recording.pure
  | .text _ :: ps, hW => by
    rw [constsPieces]
    exact constsPieces_recording hhost scope ps hW
  | .interp e :: ps, hW => by
    simp only [Piece.constSitesList, List.mem_append] at hW ⊢
    rw [constsPieces]
    exact (constsExpr_recording hhost scope e fun k hk => hW k (.inl hk)).seq
      (constsPieces_recording hhost scope ps fun k hk => hW k (.inr hk))

theorem constsArgs_recording (hhost : HostMoves (Advances W) sc.host) (scope : ScopeId) :
    ∀ as : List Expr, (∀ k ∈ Expr.constSitesList as, W k) →
      Recording W (Expr.constSitesList as) (constsArgs sc scope as)
  | [], _ => by
    rw [constsArgs]
    exact Recording.pure
  | a :: as, hW => by
    simp only [Expr.constSitesList, List.mem_append] at hW ⊢
    rw [constsArgs]
    exact (constsExpr_recording hhost scope a fun k hk => hW k (.inl hk)).seq
      (constsArgs_recording hhost scope as fun k hk => hW k (.inr hk))

theorem constsStmts_recording (hhost : HostMoves (Advances W) sc.host) (scope : ScopeId) :
    ∀ sts : List Stmt, (∀ k ∈ Stmt.constSitesList sts, W k) →
      Recording W (Stmt.constSitesList sts) (constsStmts sc scope sts)
  | [], _ => by
    rw [constsStmts]
    exact Recording.pure
  | .expr _ e :: rest, hW => by
    simp only [Stmt.constSitesList, Stmt.constSites, List.mem_append] at hW ⊢
    rw [constsStmts]
    exact (constsExpr_recording hhost scope e fun k hk => hW k (.inl hk)).seq
      (constsStmts_recording hhost scope rest fun k hk => hW k (.inr hk))
  | .ret _ (some e) :: rest, hW => by
    simp only [Stmt.constSitesList, Stmt.constSites, List.mem_append] at hW ⊢
    rw [constsStmts]
    exact (constsExpr_recording hhost scope e fun k hk => hW k (.inl hk)).seq
      (constsStmts_recording hhost scope rest fun k hk => hW k (.inr hk))
  | .ret _ none :: rest, hW => by
    simp only [Stmt.constSitesList, Stmt.constSites, List.nil_append] at hW ⊢
    rw [constsStmts]
    exact constsStmts_recording hhost scope rest hW

end

/-- A `#` node of a function a declaration generates is one of the function's, which is not a
compile-time function. -/
theorem Decl.mem_generated_func {f : FuncDecl} {k : Nat}
    (hk : k ∈ (Decl.func f).generated.flatMap fun g => Stmt.constSitesList g.stmts) :
    f.isCompiler = false ∧ k ∈ Stmt.constSitesList f.stmts := by
  simp only [Decl.generated] at hk
  split at hk
  · simp at hk
  · next h =>
    simp only [Bool.or_eq_true, not_or, Bool.not_eq_true] at h
    simpa [h.2] using hk

mutual

/-- Computing the `#` expressions of a declaration records the constant of each `#` node of the
functions it generates. -/
theorem execDecl_recording (hhost : HostMoves (Advances W) sc.host) :
    ∀ d : Decl, (∀ g ∈ d.funcs, ∀ k ∈ Stmt.constSitesList g.stmts, W k) →
      Recording W (d.generated.flatMap fun g => Stmt.constSitesList g.stmts) (execDecl sc d)
  | .func f, hW => by
    rw [execDecl]
    split
    · next hb =>
      -- a function without a body has no `#` node
      refine Recording.pure.mono fun k hk => ?_
      have hk' := (Decl.mem_generated_func hk).2
      simp [FuncDecl.stmts, hb, Stmt.constSitesList] at hk'
    · next body hb =>
      have hstmts : f.stmts = body.stmts := by simp [FuncDecl.stmts, hb]
      split
      · next hc =>
        refine Recording.pure.mono fun k hk => ?_
        simp [(Decl.mem_generated_func hk).1] at hc
      · refine Recording.bind (Moves.of_run Advances.track fun _ => rfl) fun b => ?_
        split
        · refine (constsStmts_recording sc hhost _ body.stmts fun k hk => ?_).mono fun k hk => ?_
          · exact hW f (by simp [Decl.funcs]) k (hstmts ▸ hk)
          · exact hstmts ▸ (Decl.mem_generated_func hk).2
        · exact Recording.throw _
  | .cls _ _ mods ms, hW => by
    rw [execDecl]
    split
    · next hc =>
      refine Recording.pure.mono fun k hk => ?_
      simp [Decl.generated, hc] at hk
    · next hc =>
      refine (execDecls_recording hhost ms hW).mono fun k hk => ?_
      simpa [Decl.generated, hc] using hk
  | .hashCall _ _, _ => by
    rw [execDecl]
    refine Recording.pure.mono fun k hk => ?_
    simp [Decl.generated] at hk

theorem execDecls_recording (hhost : HostMoves (Advances W) sc.host) :
    ∀ ds : List Decl, (∀ g ∈ Decl.funcsList ds, ∀ k ∈ Stmt.constSitesList g.stmts, W k) →
      Recording W ((Decl.generatedList ds).flatMap fun g => Stmt.constSitesList g.stmts)
        (execDecls sc ds)
  | [], _ => by
    rw [execDecls]
    refine Recording.pure.mono fun k hk => ?_
    simp [Decl.generatedList] at hk
  | d :: ds, hW => by
    rw [execDecls]
    refine ((execDecl_recording hhost d fun g hg => hW g (by simp [Decl.funcsList, hg])).seq
      (execDecls_recording hhost ds fun g hg => hW g (by simp [Decl.funcsList, hg]))).mono
      fun k hk => ?_
    simpa [Decl.generatedList, List.flatMap_append] using hk

end

/-- Running the top-level `#` calls of a unit advances. -/
theorem runCalls_moves (hhost : HostMoves (Advances W) sc.host) :
    ∀ ds, Moves (Advances W) (runCalls sc ds).run
  | [] => by
    rw [runCalls]
    exact Moves.run_pure Advances.track _
  | .hashCall _ call :: ds => by
    rw [runCalls]
    exact Moves.run_bind Advances.track (evaluate_moves Advances.track sc hhost _ call) fun _ =>
      runCalls_moves hhost ds
  | .func _ :: ds => by
    simp only [runCalls]
    exact runCalls_moves hhost ds
  | .cls _ _ _ _ :: ds => by
    simp only [runCalls]
    exact runCalls_moves hhost ds

end Consts

/-- Executing a unit writes types only at its `#` nodes, and when it succeeds it has recorded the
constant of every `#` node of the functions the unit generates. -/
theorem execute_recording (f : SourceFile) (host : Host) (rs : List String)
    (hhost : HostMoves (Advances (Decl.ConstSite f.decls)) host) :
    Recording (Decl.ConstSite f.decls)
      ((Decl.generatedList f.decls).flatMap fun g => Stmt.constSitesList g.stmts)
      (f.execute host rs) := by
  unfold SourceFile.execute
  refine Recording.tryCatch_throw (Recording.bind (Moves.of_run Advances.track fun _ => rfl)
    fun b => ?_)
  split
  · exact Recording.bind (runCalls_moves ⟨f.name, _, rs, host⟩ hhost f.decls) fun _ =>
      execDecls_recording ⟨f.name, _, rs, host⟩ hhost f.decls fun g hg k hk => ⟨g, hg, hk⟩
  · exact Recording.throw _

end Eval

end Abla
