import Mathlib
import Abla.Proofs.Service.Readiness

/-!
# The service installs only ready units

A request runs its unit's phases and installs the tree when they succeed. Parsing numbers the
tree from the next free node on; gathering writes only at the tree's nodes, records at each
function's node the type its labels name and the scopes of the bodies to generate; execution
records the constants of their `#` nodes. So the tree a request installs is ready, apart from
every tree installed before, and the request advances (`request_advances`, by induction on the
fuel, whose host serves nested requests with less). Every build the service reaches is then
ready (`Served.ready`).
-/

namespace Abla

namespace Decl

mutual

/-- The functions a declaration generates are neither external nor compile-time. -/
theorem generated_plain : ∀ (d : Decl) {g : FuncDecl}, g ∈ d.generated →
    (g.isExtern || g.isCompiler) = false
  | .func f, g, hg => by
    simp only [generated] at hg
    split at hg
    · simp at hg
    · next h =>
      simp only [List.mem_singleton] at hg
      subst hg
      simpa using h
  | .cls _ _ mods ms, g, hg => by
    simp only [generated] at hg
    split at hg
    · simp at hg
    · exact generatedList_plain ms hg
  | .hashCall _ _, g, hg => by simp [generated] at hg

theorem generatedList_plain : ∀ (ds : List Decl) {g : FuncDecl}, g ∈ generatedList ds →
    (g.isExtern || g.isCompiler) = false
  | [], g, hg => by simp [generatedList] at hg
  | d :: ds, g, hg => by
    simp only [generatedList, List.mem_append] at hg
    rcases hg with hg | hg
    · exact generated_plain d hg
    · exact generatedList_plain ds hg

end

mutual

/-- A function of declarations whose bodies have their scopes has its body's scope. -/
theorem BodiesAt.bodyAt {t : Tables} {u : String} : ∀ {p : Nat} (d : Decl), d.BodiesAt t u p →
    ∀ g ∈ d.funcs, ∃ q, g.BodyAt t u q
  | p, .func f, h, g, hg => by
    simp only [funcs, List.mem_singleton] at hg
    subst hg
    exact ⟨p, h⟩
  | _, .cls _ _ _ ms, h, g, hg => by
    obtain ⟨n, -, hms⟩ := h
    exact BodiesAtList.bodyAt ms hms g hg
  | _, .hashCall _ _, _, g, hg => by simp [funcs] at hg

theorem BodiesAtList.bodyAt {t : Tables} {u : String} : ∀ {p : Nat} (ds : List Decl),
    BodiesAtList t u p ds → ∀ g ∈ funcsList ds, ∃ q, g.BodyAt t u q
  | _, [], _, g, hg => by simp [funcsList] at hg
  | _, d :: ds, h, g, hg => by
    obtain ⟨hd, hds⟩ := h
    simp only [funcsList, List.mem_append] at hg
    rcases hg with hg | hg
    · exact BodiesAt.bodyAt d hd g hg
    · exact BodiesAtList.bodyAt ds hds g hg

end

end Decl

/-- What gathering leaves for generating a unit: its functions record the types their labels
name, and the functions it generates record the scopes of their bodies and function literals. -/
structure Gathered (t : Tables) (f : SourceFile) : Prop where
  signed : Decl.Signed t f.decls
  scopes : ∀ g ∈ Decl.generatedList f.decls, ∀ k ∈ g.site.id :: Stmt.literalIdsList g.stmts,
    (t.notes.scopeOf? k).isSome

namespace Gather

/-- A unit that gathers has what generating it needs from gathering. -/
theorem gather_gathered (f : SourceFile) {t t' : Tables} (hnd : f.ids.Nodup)
    (h : f.gather.run.run t = (.ok (), t')) : Gathered t' f := by
  obtain ⟨t₂, t₃, t₄, -, -, -, -, -, hm, hb, -⟩ := gather_passes f hnd h
  refine ⟨fun g hg => (hb.sites g hg).trans (hm.typed g hg).1, fun g hg k hk => ?_⟩
  have hfuncs := Decl.generatedList_subset_funcsList _ hg
  obtain ⟨q, hq⟩ := Decl.BodiesAtList.bodyAt _ hb.bodies g hfuncs
  -- a generated function is not external, so it has a body
  have hplain := Decl.generatedList_plain _ hg
  obtain ⟨body, hbody⟩ : ∃ body, g.body = some body := by
    rcases hm.bodies g hfuncs with hext | hsome
    · simp [hext] at hplain
    · exact Option.isSome_iff_exists.1 hsome
  obtain ⟨n, hn, -, -, hlit⟩ := hq body hbody
  have hstmts : g.stmts = body.stmts := by simp [FuncDecl.stmts, hbody]
  rcases List.mem_cons.1 hk with rfl | hk
  · simp [hn]
  · rw [hstmts, ← Block.literalIds_eq] at hk
    simp [hlit k hk]

end Gather

section Steps

variable {W : Nat → Prop} {b : Build}

theorem Ready.poised (hr : Ready b) : Poised (fun _ => False) b :=
  ⟨hr, fun _ h => h.elim, fun _ _ _ _ h => h⟩

/-- Reporting an event at the end of a move is still a move. -/
theorem Moved.events {b₁ : Build} (h : Moved W b b₁) (hp : Poised W b) (events : Array Event) :
    Moved W b { b₁ with events := events } :=
  h.trans (Advances.of_frame rfl le_rfl rfl rfl (h.poised hp)) fun _ _ h => h

/-- Recording the tree of a unit pending without one advances, whatever is reported. -/
theorem Advances.setParsed {name : String} {f : SourceFile} (events : Array Event)
    (hpend : b.units.pending.lookup name = some none) :
    Advances W b { b with
      events := events
      units := { b.units with pending := Units.setEntry b.units.pending name (some f) } } :=
  fun hp => by
  refine ⟨Ready.of_frame hp rfl le_rfl hp.ready.fresh (fun _ _ _ => rfl) (fun _ h => h)
    (fun _ h => h), le_rfl, fun _ _ _ => rfl, fun _ h => h, fun _ h => h, fun n h => ?_,
    fun n g h => ?_, fun _ he => .inl he⟩
  · simp only [Units.lookup_setEntry]
    split <;> simp_all
  · simp only [Units.lookup_setEntry]
    split
    · subst n
      simp [hpend] at h
    · exact h

/-- A tree that can be installed in `b`: its nodes are distinct, numbered from `n` on below the next
free node, none is a node of an installed tree, and it is ready. -/
structure Fits (b : Build) (n : Nat) (f : SourceFile) : Prop where
  nodup : f.ids.Nodup
  range : ∀ k ∈ f.ids, n ≤ k ∧ k < b.nextNode
  apart : ∀ e ∈ b.units.compiled, ∀ k ∈ e.2.ids, k ∉ f.ids
  ready : UnitReady b.tables f

/-- A build that installs one more tree, which fits it, stays ready. -/
theorem Ready.install {n : Nat} {name : String} {f : SourceFile} {b' : Build} (hr : Ready b)
    (hf : Fits b n f) (ht : b'.tables = b.tables) (hn : b'.nextNode = b.nextNode)
    (hc : b'.units.compiled = b.units.compiled ++ [(name, f)]) : Ready b' := by
  refine ⟨fun k hk => ?_, ?_, fun e he k hk => ?_, fun e he => ?_⟩
  · rw [ht]
    exact hr.fresh k (hn ▸ hk)
  · rw [hc, List.flatMap_append, List.flatMap_singleton]
    exact List.nodup_append.2 ⟨hr.nodes, hf.nodup, fun a ha c hc' hac => by
      obtain ⟨e, he, hae⟩ := List.mem_flatMap.1 ha
      exact hf.apart e he a hae (hac ▸ hc')⟩
  · rw [hn]
    rw [hc, List.mem_append, List.mem_singleton] at he
    rcases he with he | rfl
    · exact hr.numbered e he k hk
    · exact (hf.range k hk).2
  · rw [ht]
    rw [hc, List.mem_append, List.mem_singleton] at he
    rcases he with he | rfl
    · exact hr.units e he
    · exact hf.ready

/-- A build with the same tables, next free node and installed trees as a ready one is ready. -/
theorem Ready.of_eq {b' : Build} (hr : Ready b) (ht : b'.tables = b.tables)
    (hn : b'.nextNode = b.nextNode) (hc : b'.units.compiled = b.units.compiled) : Ready b' :=
  ⟨fun k hk => ht ▸ hr.fresh k (hn ▸ hk), hc ▸ hr.nodes, fun e he k hk => hn ▸ hr.numbered e (hc ▸ he) k hk,
    fun e he => ht ▸ hr.units e (hc ▸ he)⟩

theorem Eval.Moves.get_bind {R : Build → Build → Prop} {α : Type} {f : Build → StateM Build α}
    (hf : ∀ b, R b ((f b).run b).2) : Eval.Moves R (get >>= f) := hf

theorem Eval.HostMoves.mono {R R' : Build → Build → Prop} {host : Eval.Host}
    (h : Eval.HostMoves R host) (hR : ∀ b b', R b b' → R' b b') : Eval.HostMoves R' host :=
  ⟨fun name rs b => hR _ _ (h.file name rs b), fun text rs b => hR _ _ (h.text text rs b)⟩

end Steps

namespace Service

/-- Parsing changes no unit and advances, and numbers the tree it gives with distinct nodes from
the next free one on. -/
theorem parse_advances (name : String) (origin : Origin) (b : Build) :
    ((parse name origin).run b).2.units = b.units ∧
      Advances (fun _ => False) b ((parse name origin).run b).2 ∧
      ∀ f, ((parse name origin).run b).1 = .ok f → f.ids.Nodup ∧
        ∀ k ∈ f.ids, b.nextNode ≤ k ∧ k < ((parse name origin).run b).2.nextNode := by
  have hread : (readSource name origin).run b = pure (((readSource name origin).run b).1, b) :=
    readSource_run name origin b
  unfold parse
  rw [StateT.run_bind, hread, pure_bind]
  split
  · exact ⟨rfl, Advances.of_frame rfl le_rfl rfl rfl, fun _ h => by cases h⟩
  · split
    · exact ⟨rfl, Advances.of_frame rfl le_rfl rfl rfl, fun _ h => by cases h⟩
    · exact ⟨rfl, Advances.of_frame rfl le_rfl rfl rfl, fun _ h => by cases h⟩
    · rename_i f _
      obtain ⟨hle, hnd, hids⟩ := f.number_fresh b.nextNode
      simp only [StateT.run_bind, StateT.run_get, StateT.run_set, StateT.run_pure, pure_bind]
      exact ⟨rfl, Advances.of_frame rfl hle rfl rfl, fun g hg => by cases hg; exact ⟨hnd, hids⟩⟩

/-- Gathering a tree whose nodes record no scope writes types only at the tree's nodes; when it
succeeds, the tree is gathered. -/
theorem gather_advances (f : SourceFile) (b : Build)
    (hfresh : ∀ k ∈ f.ids, b.tables.notes.scopeOf? k = none) :
    ((gather f).run b).2.units = b.units ∧ Advances (· ∈ f.ids) b ((gather f).run b).2 ∧
      (f.ids.Nodup → ((gather f).run b).1 = none → Gathered ((gather f).run b).2.tables f) := by
  obtain ⟨hsteps, -⟩ := Gather.gather_scopes f b.tables hfresh
  rcases hrun : f.gather.run.run b.tables with ⟨res, t'⟩
  rw [hrun] at hsteps
  have hstate : ((gather f).run b).2 = { b with tables := t' } := by
    unfold gather
    simp only [StateT.run_bind, StateT.run_get, pure_bind, hrun]
    cases res <;> rfl
  have hres : ((gather f).run b).1 = none → res = .ok () := by
    unfold gather
    simp only [StateT.run_bind, StateT.run_get, pure_bind, hrun]
    cases res <;> simp
  rw [hstate]
  refine ⟨rfl, fun hp => ?_, fun hnd hok => ?_⟩
  · -- the gathering's steps write notes only at the tree's nodes, all below the next free node
    have hfr : ∀ k, b.nextNode ≤ k → t'.notes.scopeOf? k = none := fun k hk => by
      rw [hsteps.old_note fun hm => absurd (hp.below k hm) (Nat.not_lt.2 hk)]
      exact hp.ready.fresh k hk
    have htypes : ∀ k < b.nextNode, ¬ k ∈ f.ids → t'.notes.typeOf? k = b.tables.notes.typeOf? k :=
      fun k _ hk => hsteps.old_type hk
    have hconsts : ∀ k, (b.tables.notes.constOf? k).isSome → (t'.notes.constOf? k).isSome :=
      fun k h => by rwa [hsteps.constOf? k]
    exact ⟨Ready.of_frame hp rfl le_rfl hfr htypes (fun k h => hsteps.noted h) hconsts, le_rfl,
      htypes, fun k h => hsteps.noted h, hconsts, fun _ h => h, fun _ _ h => h,
      fun _ he => .inl he⟩
  · rw [hres hok] at hrun
    exact Gather.gather_gathered f hnd hrun

/-- Preparing a unit pending without a tree, from a ready build, advances; a tree it prepares is
pending for the unit, numbered with distinct nodes from the next free one on, and gathered. -/
theorem prepare_advances (name : String) (origin : Origin) {b : Build} (hr : Ready b)
    (hpend : b.units.pending.lookup name = some none) :
    Moved (fun _ => False) b ((prepare name origin).run b).2 ∧
      ((prepare name origin).run b).2.units.compiled = b.units.compiled ∧
      ∀ f, ((prepare name origin).run b).1 = .ok f →
        ((prepare name origin).run b).2.units.pending.lookup name = some (some f) ∧
        f.ids.Nodup ∧ (∀ k ∈ f.ids, b.nextNode ≤ k ∧ k < ((prepare name origin).run b).2.nextNode) ∧
        Gathered ((prepare name origin).run b).2.tables f := by
  have hbind : ∀ {γ δ : Type} (x : γ) (k : γ → Id δ), x >>= k = k x := fun _ _ => rfl
  have hpure : ∀ {γ : Type} (x : γ), (pure x : Id γ) = x := fun _ => rfl
  unfold prepare
  simp only [StateT.run_bind, StateT.run_get, pure_bind]
  split
  · exact ⟨Moved.refl hr, rfl, fun _ h => by cases h⟩
  obtain ⟨hunits₁, hadv₁, hids₁⟩ := parse_advances name origin b
  have htables₁ := (parse_run name origin b).1
  rcases hpr : (parse name origin).run b with ⟨r, b₁⟩
  rw [hpr] at hunits₁ hadv₁ hids₁ htables₁
  have hm₁ : Moved (fun _ => False) b b₁ := hadv₁ hr.poised
  simp only [StateT.run_bind, hpr, hbind]
  cases r with
  | error e =>
    simp only [StateT.run_pure, hpure]
    exact ⟨hm₁, by rw [hunits₁], fun _ h => by cases h⟩
  | ok f =>
    obtain ⟨hnd, hrange⟩ := hids₁ f rfl
    simp only [report, StateT.run_modify, StateT.run_get, StateT.run_bind, hbind, hpure,
      Build.report]
    set b₂ : Build := { b₁ with
        events := b₁.events.push (.phase name "parse")
        units := { b₁.units with pending := Units.setEntry b₁.units.pending name (some f) } }
      with hb₂
    dsimp only at htables₁ hunits₁ hrange
    -- the tree is recorded with the unit, which had none
    have hpend₁ : b₁.units.pending.lookup name = some none := by rw [hunits₁]; exact hpend
    have hm₂ : Moved (fun _ => False) b b₂ :=
      hm₁.trans (Advances.setParsed _ hpend₁ (hm₁.poised hr.poised)) fun _ _ h => h
    have hcompiled₂ : b₂.units.compiled = b.units.compiled := by rw [hb₂, ← hunits₁]
    split
    · simp only [StateT.run_pure, hpure]
      exact ⟨hm₂, hcompiled₂, fun _ h => by cases h⟩
    -- the tree's nodes record no scope, and lie apart from every installed tree
    have hfresh₂ : ∀ k ∈ f.ids, b₂.tables.notes.scopeOf? k = none := fun k hk => by
      rw [show b₂.tables = b.tables from htables₁]
      exact hr.fresh k (hrange k hk).1
    obtain ⟨hunits₃, hadv₃, hgath₃⟩ := gather_advances f b₂ hfresh₂
    have hm₃ := hadv₃ ⟨hm₂.ready, fun k hk => (hrange k hk).2, fun e he k hk hkf => by
      rw [hcompiled₂] at he
      exact absurd (hr.numbered e he k hk) (Nat.not_lt.2 (hrange k hkf).1)⟩
    have hm₄ : Moved (fun _ => False) b ((gather f).run b₂).2 :=
      hm₂.trans hm₃ fun k hk hkf => absurd hk (Nat.not_lt.2 (hrange k hkf).1)
    simp only [StateT.run_bind]
    rcases hg : (gather f).run b₂ with ⟨g, b₃⟩
    rw [hg] at hm₃ hm₄ hgath₃ hunits₃
    simp only [hbind]
    dsimp only at hm₃ hm₄ hgath₃ hunits₃
    have hcompiled₃ : b₃.units.compiled = b.units.compiled := by rw [hunits₃, hcompiled₂]
    cases g with
    | some e =>
      simp only [StateT.run_pure, hpure]
      exact ⟨hm₄, hcompiled₃, fun _ h => by cases h⟩
    | none =>
      simp only [StateT.run_modify, StateT.run_get, StateT.run_bind, hbind, hpure]
      have hm₅ : Moved (fun _ => False) b
          { b₃ with events := b₃.events.push (.phase name "gather") } :=
        hm₄.events hr.poised _
      split
      · simp only [StateT.run_pure, hpure]
        exact ⟨hm₅, hcompiled₃, fun _ h => by cases h⟩
      · simp only [StateT.run_pure, hpure]
        refine ⟨hm₅, hcompiled₃, fun f' h => ?_⟩
        cases h
        -- the tree stays recorded with the unit through its gathering
        have hpend₂ : b₂.units.pending.lookup name = some (some f) := by
          show (Units.setEntry b₁.units.pending name (some f)).lookup name = _
          simp
        exact ⟨hm₃.parsed name f hpend₂, hnd, fun k hk => ⟨(hrange k hk).1,
          Nat.lt_of_lt_of_le (hrange k hk).2 hm₃.next⟩, hgath₃ hnd rfl⟩

/-- The phases of a unit pending without a tree, from a ready build and with a host whose requests
advance, advance; when they succeed, the tree pending for the unit fits the build, numbered from
the next free node of the start on. -/
theorem phases_advances {host : Eval.Host} (hhost : Eval.HostMoves (Advances (fun _ => False)) host)
    (name : String) (origin : Origin) (rs : List String) {b : Build} (hr : Ready b)
    (hpend : b.units.pending.lookup name = some none) :
    Moved (fun _ => False) b ((phases host name origin rs).run b).2 ∧
      (((phases host name origin rs).run b).1 = none → ∀ f,
        ((phases host name origin rs).run b).2.units.pending.lookup name = some (some f) →
          Fits ((phases host name origin rs).run b).2 b.nextNode f) := by
  have hbind : ∀ {γ δ : Type} (x : γ) (k : γ → Id δ), x >>= k = k x := fun _ _ => rfl
  have hpure : ∀ {γ : Type} (x : γ), (pure x : Id γ) = x := fun _ => rfl
  obtain ⟨hm₁, hcompiled₁, hprep⟩ := prepare_advances name origin hr hpend
  unfold phases
  simp only [StateT.run_bind]
  rcases hp : (prepare name origin).run b with ⟨r, b₁⟩
  rw [hp] at hm₁ hcompiled₁ hprep
  simp only [hbind]
  dsimp only at hm₁ hcompiled₁ hprep
  cases r with
  | error e =>
    simp only [StateT.run_pure, hpure]
    exact ⟨hm₁, fun h => by cases h⟩
  | ok f =>
    obtain ⟨hpend₁, hnd, hrange, hgath⟩ := hprep f rfl
    have hdecls : (Decl.idsList f.decls).Nodup := (List.nodup_cons.1 hnd).2
    have hsite : ∀ {k}, Decl.ConstSite f.decls k → k ∈ f.ids := fun hk => by
      simp [SourceFile.ids, hk.mem_ids]
    -- execution writes types only at the unit's `#` nodes, all numbered from the start on
    have hpoised : Poised (Decl.ConstSite f.decls) b₁ := ⟨hm₁.ready,
      fun k hk => (hrange k (hsite hk)).2, fun e he k hk hc => by
        rw [hcompiled₁] at he
        exact absurd (hr.numbered e he k hk) (Nat.not_lt.2 (hrange k (hsite hc)).1)⟩
    have hrec := Eval.execute_recording f host rs
      (hhost.mono fun _ _ h => h.mono fun _ h => h.elim)
    have hm₂ := hrec.1 b₁ hpoised
    rcases he : (f.execute host rs).run.run b₁ with ⟨r', b₂⟩
    rw [he] at hm₂
    dsimp only at hm₂
    have hm₃ : Moved (fun _ => False) b b₂ :=
      hm₁.trans hm₂ fun k hk hc => absurd hk (Nat.not_lt.2 (hrange k (hsite hc)).1)
    simp only [StateT.run_bind, he, hbind]
    cases r' with
    | error e =>
      simp only [StateT.run_pure, hpure]
      exact ⟨hm₃, fun h => by cases h⟩
    | ok u =>
      simp only [report, StateT.run_modify, StateT.run_bind, StateT.run_pure, hbind, hpure,
        Build.report]
      refine ⟨hm₃.events hr.poised _, fun _ f' hf' => ?_⟩
      -- the tree executed is the one pending for the unit
      have hf : f' = f := by
        rw [show b₂.units.pending.lookup name = some (some f) from hm₂.parsed name f hpend₁] at hf'
        simpa using hf'.symm
      subst hf
      refine ⟨hnd, fun k hk => ⟨(hrange k hk).1, Nat.lt_of_lt_of_le (hrange k hk).2 hm₂.next⟩,
        fun e he' k hk hkf => ?_, ⟨fun g hg => ?_, fun g hg => ⟨fun k hk => ?_, fun k hk => ?_⟩⟩⟩
      · -- the trees installed during execution are numbered after it
        rcases hm₂.installs e he' with he' | ⟨-, hnew⟩
        · rw [hcompiled₁] at he'
          exact absurd (hr.numbered e he' k hk) (Nat.not_lt.2 (hrange k hkf).1)
        · exact absurd (hrange k hkf).2 (Nat.not_lt.2 (hnew k hk))
      · have hk := SourceFile.funcs_site_mem hg
        rw [hm₂.types _ (hrange _ hk).2 fun hc => hc.ne_site hdecls hg rfl]
        exact hgath.signed g hg
      · exact hm₂.scopes k (hgath.scopes g hg k hk)
      · exact hrec.2 b₁ b₂ hpoised he k (List.mem_flatMap.2 ⟨g, hg, hk⟩)

/-- Setting the entry of a name no entry has appends it. -/
theorem Units.setEntry_of_lookup_none {α : Type} {xs : List (String × α)} {name : String} {a : α}
    (h : xs.lookup name = none) : Units.setEntry xs name a = xs ++ [(name, a)] := by
  unfold Units.setEntry
  rw [if_neg]
  simp only [List.any_eq_true, decide_eq_true_eq, not_exists, not_and]
  intro p hp hpn
  have hne := List.lookup_eq_none_iff.1 h p hp
  simp [hpn] at hne

/-- Finishing the job of a unit that is not installed installs at most its pending tree, and only
when the job ends without a failure. -/
theorem finish_compiled (name : String) (err : Option Failure) (b : Build)
    (hnone : b.units.compiled.lookup name = none) :
    ((finish name err).run b).2.units.compiled = b.units.compiled ∨
      (err = none ∧ ∃ f, b.units.pending.lookup name = some (some f) ∧
        ((finish name err).run b).2.units.compiled = b.units.compiled ++ [(name, f)]) := by
  have hpure : ∀ p : Option Failure × Build, (pure p : Id _) = p := fun _ => rfl
  unfold finish
  simp only [StateT.run_bind, StateT.run_get, StateT.run_set, StateT.run_pure, pure_bind, hpure]
  cases err with
  | some e => exact .inl rfl
  | none =>
    cases hcan : b.units.cancelled
    · cases hf : b.units.file? name with
      | none => exact .inl (by simp)
      | some f =>
        -- the tree of a unit not installed is its pending one
        have hpend : b.units.pending.lookup name = some (some f) := by
          simp only [Units.file?, hnone, Option.bind_eq_some_iff] at hf
          obtain ⟨o, ho, rfl⟩ := hf
          exact ho
        exact .inr ⟨rfl, f, hpend, by simp [Units.setEntry_of_lookup_none hnone]⟩
    · exact .inl (by simp)

/-- A unit's job, run from a ready build in which the unit is neither installed nor pending,
advances: the unit becomes pending without a tree, its phases advance, and finishing the job
installs at most the tree the phases left pending, which fits. -/
theorem finish_moved {b b₂ : Build} {name : String} {err : Option Failure}
    (hc : b.units.compiled.lookup name = none) (hpend : b.units.pending.lookup name = none)
    (hm₂ : Moved (fun _ => False)
      { b with units := { b.units with pending := Units.setEntry b.units.pending name none } } b₂)
    (hfits : err = none → ∀ f, b₂.units.pending.lookup name = some (some f) →
      Fits b₂ b.nextNode f) :
    Moved (fun _ => False) b ((finish name err).run b₂).2 := by
  set b₁ : Build :=
    { b with units := { b.units with pending := Units.setEntry b.units.pending name none } }
    with hb₁
  have hpend₁ : b₁.units.pending.lookup name = some none := by simp [hb₁]
  have hother₁ : ∀ n, n ≠ name → b₁.units.pending.lookup n = b.units.pending.lookup n :=
    fun n hn => by simp [hb₁, hn]
  -- what the phases installed was installed before, or is a unit that was not pending then
  have hold : ∀ e ∈ b₂.units.compiled, e ∈ b.units.compiled ∨
      (b.units.pending.lookup e.1 = none ∧ ∀ k ∈ e.2.ids, b.nextNode ≤ k) := fun e he => by
    rcases hm₂.installs e he with he | ⟨hnone, hnew⟩
    · exact .inl he
    · have hne : e.1 ≠ name := by
        rintro hname
        rw [hname, hpend₁] at hnone
        cases hnone
      exact .inr ⟨(hother₁ e.1 hne).symm.trans hnone, hnew⟩
  -- so the unit itself is still not installed
  have hc₂ : b₂.units.compiled.lookup name = none := by
    refine List.lookup_eq_none_iff.2 fun e he => ?_
    rcases hm₂.installs e he with he | ⟨hnone, -⟩
    · exact List.lookup_eq_none_iff.1 hc e he
    · simp only [bne_iff_ne, ne_eq]
      intro h
      rw [← h, hpend₁] at hnone
      cases hnone
  obtain ⟨ht₃, hn₃, hp₃, -, -, -⟩ := finish_run name err b₂
  have hother₃ : ∀ n, n ≠ name →
      ((finish name err).run b₂).2.units.pending.lookup n = b₂.units.pending.lookup n :=
    fun n hn => by simp [hp₃, hn]
  have hname : ∀ {n}, (b.units.pending.lookup n).isSome → n ≠ name := fun h hn => by
    rw [hn, hpend] at h
    cases h
  refine ⟨?_, hm₂.next.trans hn₃.ge, fun k hk _ => ?_, fun k h => ?_, fun k h => ?_,
    fun n h => ?_, fun n f h => ?_, fun e he => ?_⟩
  · rcases finish_compiled name err b₂ hc₂ with hcomp | ⟨herr, f, hf, hcomp⟩
    · exact hm₂.ready.of_eq ht₃ hn₃ hcomp
    · exact hm₂.ready.install (hfits herr f hf) ht₃ hn₃ hcomp
  · rw [ht₃]
    exact hm₂.types k hk id
  · rw [ht₃]
    exact hm₂.scopes k h
  · rw [ht₃]
    exact hm₂.consts k h
  · have hn := hname h
    rw [hother₃ n hn]
    exact hm₂.pending n (by rwa [hother₁ n hn])
  · have hn := hname (by rw [h]; rfl)
    rw [hother₃ n hn]
    exact hm₂.parsed n f (by rwa [hother₁ n hn])
  · rcases finish_compiled name err b₂ hc₂ with hcomp | ⟨herr, f, hf, hcomp⟩
    · exact hold e (hcomp ▸ he)
    · rw [hcomp, List.mem_append, List.mem_singleton] at he
      rcases he with he | rfl
      · exact hold e he
      · exact .inr ⟨hpend, fun k hk => ((hfits herr f hf).range k hk).1⟩

/-- Drawing a fresh unit name advances. -/
theorem freshName_advances (kind : String) : Eval.Moves (Advances W) (freshName kind) :=
  fun _ => Advances.of_frame rfl le_rfl rfl rfl

/-- The host of nested requests advances when its requests do. -/
theorem host_advances (fuel : Nat)
    (hreq : ∀ name origin parallel rs,
      Eval.Moves (Advances (fun _ => False)) (request fuel name origin parallel rs)) :
    Eval.HostMoves (Advances (fun _ => False)) (host fuel) := by
  refine ⟨fun name rs => ?_, fun text rs => ?_⟩ <;> rw [host]
  · exact Eval.Moves.bind Advances.track (hreq name .file false rs) fun _ =>
      Eval.Moves.pure Advances.track _
  · exact Eval.Moves.bind Advances.track (freshName_advances "source") fun name =>
      Eval.Moves.bind Advances.track (hreq name (.text text) false rs) fun _ =>
        Eval.Moves.pure Advances.track _

/-- A request advances: it installs at most the unit it compiles, once its phases succeeded, and
its nested requests advance by induction on the fuel. -/
theorem request_advances : ∀ (fuel : Nat) (name : String) (origin : Origin) (parallel : Bool)
    (rs : List String), Eval.Moves (Advances (fun _ => False)) (request fuel name origin parallel rs)
  | 0, _, _, _, _ => by
    rw [request]
    exact Eval.Moves.pure Advances.track _
  | fuel + 1, name, origin, parallel, rs => by
    have hhost := host_advances fuel (request_advances fuel)
    rw [request]
    refine Eval.Moves.get_bind fun b => ?_
    split
    · exact Advances.of_frame rfl le_rfl rfl rfl
    split
    · exact Advances.of_frame rfl le_rfl rfl rfl
    split
    · -- a pending unit requested again: at most a warning
      extract_lets jp
      split
      · exact Advances.of_frame rfl le_rfl rfl rfl
      · exact Advances.of_frame rfl le_rfl rfl rfl
    · next hcomp hpend =>
      intro hpo
      simp only [StateT.run_bind, StateT.run_modify]
      set b₁ : Build :=
        { b with units := { b.units with pending := Units.setEntry b.units.pending name none } }
        with hb₁
      have hpend₁ : b₁.units.pending.lookup name = some none := by simp [hb₁]
      obtain ⟨hm₂, hfits⟩ :=
        phases_advances hhost name origin rs (show Ready b₁ from hpo.ready.of_eq rfl rfl rfl) hpend₁
      have hbind : ∀ {γ δ : Type} (x : γ) (k : γ → Id δ), x >>= k = k x := fun _ _ => rfl
      have hpure : ∀ {γ : Type} (x : γ), (pure x : Id γ) = x := fun _ => rfl
      rcases hph : (phases (host fuel) name origin rs).run b₁ with ⟨err, b₂⟩
      rw [hph] at hm₂ hfits
      simp only [hbind, hpure, hph]
      exact finish_moved (Units.lookup_eq_none_of_not hcomp) (Units.lookup_eq_none_of_not hpend)
        hm₂ hfits

end Service

/-- A fresh build is ready: it records no scope and installs nothing. -/
theorem Ready.start (files : Files) : Ready (Build.start files) where
  fresh _ _ := by simp [Build.start, Notes.scopeOf?]
  nodes := by simp [Build.start]
  numbered _ h := by simp [Build.start] at h
  units _ h := by simp [Build.start] at h

namespace Service

/-- Every build the service reaches is ready: its installed trees have distinct nodes, and each
finds in the tables what generating it reads. -/
theorem Served.ready {b : Build} (h : Served b) : Ready b := by
  -- a named compilation draws a fresh name, then requests it
  have hnamed : ∀ kind (origin : String → Origin) parallel,
      Eval.Moves (Advances (fun _ => False)) (do
        let name ← freshName kind
        return (name, ← request nestingLimit name (origin name) parallel [])) :=
    fun kind origin parallel => Eval.Moves.bind Advances.track (freshName_advances kind)
      fun name => Eval.Moves.bind Advances.track (request_advances _ name (origin name) parallel [])
        fun _ => Eval.Moves.pure Advances.track _
  induction h with
  | start files => exact Ready.start files
  | compileFile path parallel _ ih =>
    exact (request_advances _ _ _ parallel [] _ ih.poised).ready
  | compileSource text parallel _ ih => exact (hnamed "source" _ parallel _ ih.poised).ready
  | compileStream text cut parallel _ ih => exact (hnamed "stream" _ parallel _ ih.poised).ready
  | drain _ ih => exact ih.of_eq rfl rfl rfl
  | cancel _ ih => exact ih.of_eq rfl rfl rfl

end Service

end Abla
