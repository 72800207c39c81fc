import Mathlib
import Abla.Proofs.Codegen.Integrity
import Abla.Proofs.Codegen.Interning
import Abla.Proofs.Codegen.Returns

/-!
# The declaration round leaves every generated function a handle

Declaring a unit gives each of its functions, extern or not, a function of the module, and
records at the function's node a handle to it and at each parameter's node a handle to that
parameter. When the types gathering recorded at the function nodes are the ones their labels
name (`Decl.Signed`), each LLVM function has as many parameters as its declaration, so every
handle is valid (`Program.HandlesValid`). When the units' nodes are distinct, no unit overwrites
another's handles, so after a round in which every declaration succeeded, every function whose
body is generated has a function handle at its node (`declareRound_ok`).
-/

namespace Abla

mutual

/-- The functions generated are among the functions declared. -/
theorem Decl.generated_subset_funcs : ∀ d : Decl, d.generated ⊆ d.funcs
  | .func f => by
    simp only [Decl.generated, Decl.funcs]
    split <;> simp
  | .cls _ _ mods ms => by
    simp only [Decl.generated, Decl.funcs]
    split
    · simp
    · exact Decl.generatedList_subset_funcsList ms
  | .hashCall _ _ => by simp [Decl.generated]

theorem Decl.generatedList_subset_funcsList :
    ∀ ds : List Decl, Decl.generatedList ds ⊆ Decl.funcsList ds
  | [] => by simp [Decl.generatedList]
  | d :: ds => by
    simp only [Decl.generatedList, Decl.funcsList]
    exact List.append_subset.2
      ⟨List.Subset.trans (Decl.generated_subset_funcs d) (List.subset_append_left _ _),
        List.Subset.trans (Decl.generatedList_subset_funcsList ds) (List.subset_append_right _ _)⟩

end

namespace Decl

/-- Every function of a list of declarations, those of classes included, records at its node the
type its labels name. -/
def Signed (t : Tables) (ds : List Decl) : Prop :=
  ∀ g ∈ funcsList ds, t.notes.typeOf? g.site.id = some g.type

theorem signed_cons {t : Tables} {d : Decl} {ds : List Decl} :
    Signed t (d :: ds) ↔ Signed t [d] ∧ Signed t ds := by
  simp only [Signed, funcsList, List.append_nil, List.mem_append, or_imp, forall_and]

end Decl

namespace Codegen

section Runs

variable {ε σ ρ α β : Type}

/-- A successful run of `x >>= f` runs `x` to success first. -/
theorem Step.ok_bind {x : Step ε σ ρ α} {f : α → Step ε σ ρ β} {s s'' : σ} {r : ρ} {b : β}
    (h : ((x >>= f).run.run s).run r = (.ok b, s'')) :
    ∃ a s', (x.run.run s).run r = (.ok a, s') ∧ ((f a).run.run s').run r = (.ok b, s'') := by
  rw [Step.run_bind] at h
  rcases hx : (x.run.run s).run r with ⟨_ | a, s'⟩
  · rw [hx] at h
    cases h
  · rw [hx] at h
    exact ⟨a, s', rfl, h⟩

/-- A run that rethrows every error succeeds only where its body does. -/
theorem Step.ok_tryCatch_throw {x : Step ε σ ρ α} {g : ε → ε} {s s' : σ} {r : ρ} {a : α}
    (h : ((MonadExcept.tryCatch x (fun e => throw (g e)) : Step ε σ ρ α).run.run s).run r =
      (.ok a, s')) : (x.run.run s).run r = (.ok a, s') := by
  rw [Step.run_tryCatch] at h
  rcases hx : (x.run.run s).run r with ⟨_ | b, s₁⟩
  · rw [hx] at h
    cases h
  · rw [hx] at h
    exact h

@[simp] theorem Step.get_bind (f : σ → Step ε σ ρ β) (s : σ) (r : ρ) :
    (((MonadState.get : Step ε σ ρ σ) >>= f).run.run s).run r = ((f s).run.run s).run r := rfl

@[simp] theorem Step.read_bind (f : ρ → Step ε σ ρ β) (s : σ) (r : ρ) :
    (((MonadReader.read : Step ε σ ρ ρ) >>= f).run.run s).run r = ((f r).run.run s).run r := rfl

@[simp] theorem Step.set_bind (s' : σ) (f : PUnit → Step ε σ ρ β) (s : σ) (r : ρ) :
    (((MonadState.set s' : Step ε σ ρ PUnit) >>= f).run.run s).run r =
      ((f ⟨⟩).run.run s').run r := rfl

@[simp] theorem Step.run_pure (a : α) (s : σ) (r : ρ) :
    ((Pure.pure a : Step ε σ ρ α).run.run s).run r = (.ok a, s) := rfl

@[simp] theorem Step.modify_bind (g : σ → σ) (f : PUnit → Step ε σ ρ β) (s : σ) (r : ρ) :
    ((modify g >>= f : Step ε σ ρ β).run.run s).run r = ((f ⟨⟩).run.run (g s)).run r := rfl

@[simp] theorem Step.run_modify (f : σ → σ) (s : σ) (r : ρ) :
    ((modify f : Step ε σ ρ PUnit).run.run s).run r = (.ok ⟨⟩, f s) := rfl

end Runs

/-- The LLVM types of data types, when they all have one, are as many as the data types. -/
theorem DataType.toIrList_length {ds : List DataType} {ts : List Ir.Ty}
    (h : DataType.toIrList ds = .ok ts) : ts.length = ds.length := by
  induction ds generalizing ts with
  | nil =>
    simp only [DataType.toIrList, Except.ok.injEq] at h
    simp [← h]
  | cons d ds ih =>
    simp only [DataType.toIrList] at h
    rcases hd : d.toIr with e | a
    · simp [hd, bind, Except.bind] at h
    · rcases hds : DataType.toIrList ds with e | as
      · simp [hd, hds, bind, Except.bind] at h
      · simp only [hd, hds, bind, Except.bind, Except.ok.injEq] at h
        simp [← h, ih hds]

section Declare

variable {t : Tables} {p p₁ : Program}

theorem liftConv_ok {α : Type} {r : Except CompileError α} {a : α}
    (h : ((liftConv r).run.run p).run t = (.ok a, p₁)) : r = .ok a ∧ p₁ = p := by
  cases r with
  | ok b =>
    simp only [liftConv] at h
    cases h
    exact ⟨rfl, rfl⟩
  | error e => cases h

/-- The LLVM parameters of a function whose parameter types all have an LLVM type are as many as
its parameters, and computing them changes nothing. -/
theorem irParams_ok {f : FuncDecl} {types : List DataType} {ps : List Ir.Param}
    (hl : types.length = f.params.length) (h : ((irParams f types).run.run p).run t = (.ok ps, p₁)) :
    p₁ = p ∧ ps.length = f.params.length := by
  unfold irParams at h
  obtain ⟨tys, p₀, h₀, h₁⟩ := Step.ok_bind h
  obtain ⟨htys, rfl⟩ := liftConv_ok h₀
  simp only [Step.run_pure] at h₁
  obtain ⟨rfl, rfl⟩ := h₁
  refine ⟨rfl, ?_⟩
  simp [DataType.toIrList_length htys, hl]

/-- What choosing a function's index did, from `p` to `p₁`: the module grew, nothing else of
the program changed, and the function at the index has `n` parameters. -/
structure Indexed (n i : Nat) (p p₁ : Program) : Prop where
  module : ModuleGrows p.module p₁.module
  prefixes : p₁.prefixes = p.prefixes
  generated : p₁.generated = p.generated
  handles : p₁.handles = p.handles
  func : ∃ g, p₁.module.funcs[i]? = some g ∧ g.params.length = n

/-- An extern function is the one declared first under its name, which has the same signature,
or a new one. -/
theorem declareExtern_ok {f : FuncDecl} {ret : Ir.Ty} {params : List Ir.Param} {i : Nat}
    (h : ((declareExtern f ret params).run.run p).run t = (.ok i, p₁)) :
    Indexed params.length i p p₁ := by
  unfold declareExtern at h
  rw [Step.get_bind] at h
  split at h
  · next i' hi =>
    -- the first declaration under the name has the signature this one asks for
    rcases hg : p.module.funcs[i']? with _ | g
    · simp only [hg] at h
      cases h
    · simp only [hg] at h
      split at h
      · next hsame =>
        cases h
        have hparams := congrArg List.length (Ir.Ty.eq_of_sameList (by
          simp only [Ir.Func.ptrTy, Ir.Ty.same, Bool.and_eq_true] at hsame
          exact hsame.2))
        exact ⟨.refl _, rfl, rfl, rfl, g, hg, by simpa using hparams⟩
      · cases h
  · simp only [Ir.Module.addFunc] at h
    cases h
    exact ⟨.addFunc _ _, rfl, rfl, rfl,
      { name := f.name, linkage := .external, ret := ret, params := params }, by simp, rfl⟩

section Params

variable {i : Nat} {ins : Std.HashMap Nat Handle → Nat × Param → Std.HashMap Nat Handle}

/-- Recording parameter handles leaves every other node's handle as it was. -/
theorem foldl_params_frame (hins : ∀ hs j q, ins hs (j, q) = hs.insert q.site.id (.param i j)) :
    ∀ (ps : List (Nat × Param)) (hs : Std.HashMap Nat Handle) {k : Nat},
      k ∉ ps.map (fun jq => jq.2.site.id) → (ps.foldl ins hs)[k]? = hs[k]?
  | [], _, _, _ => rfl
  | (j, q) :: ps, hs, k, hk => by
    simp only [List.map_cons, List.mem_cons, not_or] at hk
    rw [List.foldl_cons, foldl_params_frame hins ps _ hk.2, hins, Std.HashMap.getElem?_insert,
      if_neg (by simpa using Ne.symm hk.1)]

/-- A handle after recording parameter handles was there before, or is the handle of one of
the positions recorded. -/
theorem foldl_params_origin (hins : ∀ hs j q, ins hs (j, q) = hs.insert q.site.id (.param i j)) :
    ∀ (ps : List (Nat × Param)) (hs : Std.HashMap Nat Handle) {k : Nat} {h : Handle},
      (ps.foldl ins hs)[k]? = some h → hs[k]? = some h ∨ ∃ j ∈ ps.map Prod.fst, h = .param i j
  | [], _, _, _, hk => .inl hk
  | (j, q) :: ps, hs, k, h, hk => by
    rw [List.foldl_cons] at hk
    rcases foldl_params_origin hins ps _ hk with hk | ⟨j', hj', rfl⟩
    · rw [hins, Std.HashMap.getElem?_insert] at hk
      split at hk
      · cases hk
        exact .inr ⟨j, by simp, rfl⟩
      · exact .inl hk
    · exact .inr ⟨j', by simp [hj'], rfl⟩

end Params

/-- What declaring went from `p` to `p'` did, for declarations with nodes `ids` of which the
functions `fs` are generated: the module grew, the prefixes and the units generated stayed, valid
handles stayed valid, the node of each of `fs` holds a function handle, and no node outside
`ids` changed its handle. -/
structure Declared (ids : List Nat) (fs : List FuncDecl) (p p' : Program) : Prop where
  module : ModuleGrows p.module p'.module
  prefixes : p'.prefixes = p.prefixes
  generated : p'.generated = p.generated
  valid : p.HandlesValid → p'.HandlesValid
  funcs : ∀ g ∈ fs, ∃ i, p'.handles[g.site.id]? = some (.func i)
  others : ∀ k ∉ ids, p'.handles[k]? = p.handles[k]?

/-- A new function of the module under any name, once the rest of the program is set. -/
theorem Indexed.addFunc {g : Ir.Func} (hm : p₁.module = p.module) (hp : p₁.prefixes = p.prefixes)
    (hg : p₁.generated = p.generated) (hh : p₁.handles = p.handles) :
    Indexed g.params.length (p₁.module.addFunc g).2 p { p₁ with module := (p₁.module.addFunc g).1 } :=
  ⟨hm ▸ ModuleGrows.addFunc _ _, hp, hg, hh, g, by simp [Ir.Module.addFunc], rfl⟩

/-- The nodes of a function's parameters, read off the positions they are recorded with. -/
theorem FuncDecl.zip_param_sites (f : FuncDecl) :
    ((List.range f.params.length).zip f.params).map (fun jq => jq.2.site.id) =
      f.params.map fun q => q.site.id := by
  rw [show (fun jq : Nat × Param => jq.2.site.id) = (fun q : Param => q.site.id) ∘ Prod.snd from rfl,
    ← List.map_map, List.map_snd_zip (by simp)]

/-- Recording a function's handles once it has an index: the function's at its node, and each
parameter's at the parameter's node. -/
theorem Declared.of_indexed {f : FuncDecl} {n index : Nat} (hnd : f.ids.Nodup)
    (hi : Indexed n index p p₁) (hn : n = f.params.length) :
    Declared f.ids [f] p
      { p₁ with
        handles := ((List.range f.params.length).zip f.params).foldl
          (fun hs x => hs.insert x.2.site.id (Handle.param index x.1))
          (p₁.handles.insert f.site.id (Handle.func index)) } := by
  have hins : ∀ (hs : Std.HashMap Nat Handle) j (q : Param),
      hs.insert q.site.id (Handle.param index j) = hs.insert q.site.id (Handle.param index j) :=
    fun _ _ _ => rfl
  obtain ⟨hsite, -⟩ := FuncDecl.params_nodup hnd
  refine ⟨hi.module, hi.prefixes, hi.generated, fun hv => ?_, fun g hg => ⟨index, ?_⟩, fun k hk => ?_⟩
  · intro k h hk
    obtain ⟨g, hg, hlen⟩ := hi.func
    rcases foldl_params_origin hins _ _ hk with hk | ⟨j, hj, rfl⟩
    · rw [Std.HashMap.getElem?_insert] at hk
      split at hk
      · cases hk
        exact ⟨g, hg⟩
      · rw [hi.handles] at hk
        exact (hv k h hk).mono hi.module
    · rw [List.map_fst_zip (by simp)] at hj
      exact ⟨g, hg, by simpa [hlen, hn] using hj⟩
  · rw [List.mem_singleton] at hg
    subst hg
    rw [foldl_params_frame hins _ _ (by rwa [FuncDecl.zip_param_sites]),
      Std.HashMap.getElem?_insert_self]
  · have hparam : k ∉ f.params.map fun q => q.site.id := fun hk' => hk (FuncDecl.param_mem_ids hk')
    have hne : f.site.id ≠ k := fun he => hk (he ▸ FuncDecl.site_mem_ids f)
    rw [foldl_params_frame hins _ _ (by rwa [FuncDecl.zip_param_sites]),
      Std.HashMap.getElem?_insert, if_neg (by simpa using hne), hi.handles]

theorem declareFunc_ok {u c : String} {f : FuncDecl} (hnd : f.ids.Nodup)
    (hty : t.notes.typeOf? f.site.id = some f.type)
    (h : ((declareFunc u c f).run.run p).run t = (.ok (), p₁)) : Declared f.ids [f] p p₁ := by
  unfold declareFunc at h
  rw [Step.read_bind] at h
  simp only [hty, FuncDecl.type] at h
  obtain ⟨params, p₀, h₀, h₁⟩ := Step.ok_bind h
  obtain ⟨rfl, hlen⟩ := irParams_ok (by simp) h₀
  obtain ⟨ret, p₂, h₂, h₃⟩ := Step.ok_bind h₁
  obtain ⟨-, rfl⟩ := liftConv_ok h₂
  split at h₃
  · obtain ⟨index, p₄, h₄, h₅⟩ := Step.ok_bind h₃
    simp only [Step.run_modify] at h₅
    obtain ⟨-, rfl⟩ := h₅
    exact Declared.of_indexed hnd (declareExtern_ok h₄) hlen
  · -- a new function of the module; a second function \`main\` stops here
    split at h₃
    · rw [Step.get_bind] at h₃
      split at h₃
      · simp [typeError] at h₃
        cases h₃
      · simp only [Step.modify_bind, Step.get_bind, pure_bind] at h₃
        obtain ⟨-, rfl⟩ := h₃
        exact Declared.of_indexed hnd
          (@Indexed.addFunc p₂ { p₂ with main := some f.site.id } _ rfl rfl rfl rfl) hlen
    · simp only [Step.get_bind, pure_bind] at h₃
      obtain ⟨-, rfl⟩ := h₃
      exact Declared.of_indexed hnd (Indexed.addFunc rfl rfl rfl rfl) hlen

namespace Declared

variable {ids ids' : List Nat} {fs fs' : List FuncDecl} {p₂ : Program}

theorem refl (ids : List Nat) (p : Program) : Declared ids [] p p :=
  ⟨.refl _, rfl, rfl, id, fun _ hg => (List.not_mem_nil hg).elim, fun _ _ => rfl⟩

/-- Declarations one after another, where the later ones' nodes avoid the earlier functions'. -/
theorem trans (h₁ : Declared ids fs p p₁) (h₂ : Declared ids' fs' p₁ p₂)
    (hdisj : ∀ g ∈ fs, g.site.id ∉ ids') : Declared (ids ++ ids') (fs ++ fs') p p₂ := by
  refine ⟨h₁.module.trans h₂.module, h₂.prefixes.trans h₁.prefixes,
    h₂.generated.trans h₁.generated, fun hv => h₂.valid (h₁.valid hv), fun g hg => ?_, fun k hk => ?_⟩
  · rcases List.mem_append.1 hg with hg | hg
    · rw [h₂.others _ (hdisj g hg)]
      exact h₁.funcs g hg
    · exact h₂.funcs g hg
  · simp only [List.mem_append, not_or] at hk
    rw [h₂.others k hk.2, h₁.others k hk.1]

theorem mono (h : Declared ids fs p p₁) (hids : ids ⊆ ids') (hfs : fs' ⊆ fs) :
    Declared ids' fs' p p₁ :=
  ⟨h.module, h.prefixes, h.generated, h.valid, fun g hg => h.funcs g (hfs hg),
    fun k hk => h.others k fun hk' => hk (hids hk')⟩

end Declared

mutual

/-- Declaring a declaration whose nodes are distinct and whose functions record their types
gives each function it generates a function handle. -/
theorem declareDecl_ok : ∀ (d : Decl) {u c : String} {p p₁ : Program}, d.ids.Nodup →
    Decl.Signed t [d] → ((declareDecl u c d).run.run p).run t = (.ok (), p₁) →
      Declared d.ids d.generated p p₁
  | .func f, u, c, p, p₁, hnd, hty, h => by
    simp only [declareDecl] at h
    split at h
    · next hc =>
      obtain ⟨-, rfl⟩ := h
      exact (Declared.refl _ _).mono (List.Subset.refl _) (by simp [Decl.generated, hc])
    · have hf := hty f (by simp [Decl.funcsList, Decl.funcs])
      refine (declareFunc_ok hnd hf h).mono (List.Subset.refl _) ?_
      simp only [Decl.generated]
      split <;> simp
  | .cls _ _ mods ms, u, c, p, p₁, hnd, hty, h => by
    simp only [declareDecl] at h
    split at h
    · next hc =>
      obtain ⟨-, rfl⟩ := h
      exact (Declared.refl _ _).mono (List.Subset.refl _) (by simp [Decl.generated, hc])
    · next hc =>
      obtain ⟨-, hnd'⟩ := Decl.cls_ids_nodup hnd
      have htyped : Decl.Signed t ms := by
        simpa [Decl.Signed, Decl.funcsList, Decl.funcs] using hty
      refine (declareDecls_ok ms hnd' htyped h).mono (fun k hk => by simp [Decl.ids, hk]) ?_
      simp [Decl.generated, hc]
  | .hashCall _ _, u, c, p, p₁, _, _, h => by
    simp only [declareDecl] at h
    obtain ⟨-, rfl⟩ := h
    exact (Declared.refl _ _).mono (List.Subset.refl _) (by simp [Decl.generated])

/-- The same for declarations in order: a later declaration touches no earlier function's node. -/
theorem declareDecls_ok : ∀ (ds : List Decl) {u c : String} {p p₁ : Program},
    (Decl.idsList ds).Nodup → Decl.Signed t ds →
      ((declareDecls u c ds).run.run p).run t = (.ok (), p₁) →
        Declared (Decl.idsList ds) (Decl.generatedList ds) p p₁
  | [], u, c, p, p₁, _, _, h => by
    simp only [declareDecls] at h
    obtain ⟨-, rfl⟩ := h
    exact Declared.refl _ _
  | d :: ds, u, c, p, p₁, hnd, hty, h => by
    simp only [declareDecls] at h
    obtain ⟨⟨⟩, p₂, h₁, h₂⟩ := Step.ok_bind h
    obtain ⟨hd, hds, hdisj⟩ := Decl.idsList_cons_nodup hnd
    obtain ⟨htd, htds⟩ := Decl.signed_cons.1 hty
    refine (declareDecl_ok d hd htd h₁).trans (declareDecls_ok ds hds htds h₂) fun g hg => ?_
    exact hdisj _ (Decl.funcs_ids_mem d (Decl.generated_subset_funcs d hg) (FuncDecl.site_mem_ids g))

end

/-- A unit is declared under a prefix new to the program, and then its declarations are. -/
theorem declareUnit_ok {f : SourceFile} (hnd : (Decl.idsList f.decls).Nodup)
    (hty : Decl.Signed t f.decls) (h : ((declareUnit f).run.run p).run t = (.ok (), p₁)) :
    p.prefixes.lookup f.name = none ∧ ∃ pre, Declared (Decl.idsList f.decls)
      (Decl.generatedList f.decls) { p with prefixes := p.prefixes ++ [(f.name, pre)] } p₁ := by
  unfold declareUnit at h
  have h₁ := Step.ok_tryCatch_throw h
  rw [Step.get_bind] at h₁
  split at h₁
  · cases h₁
  · next hnone =>
    exact ⟨Option.not_isSome_iff_eq_none.1 hnone, _, declareDecls_ok f.decls hnd hty h₁⟩

/-- A unit's declaration that reports no error ran to success. -/
theorem declareStep_ok {f : SourceFile} (h : (declareStep t p f).1 = none) :
    ((declareUnit f).run.run p).run t = (.ok (), (declareStep t p f).2) := by
  unfold declareStep at h ⊢
  rcases hr : ((declareUnit f).run.run p).run t with ⟨_ | ⟨⟩, p₁⟩
  · simp [hr] at h
  · rfl

/-- What a declaration round over units `fs` did from `p` to `p'`: the module grew, the units
generated stayed, valid handles stayed valid, the units joined the prefixes under names new to
them, each function a unit generates has a function handle, and no node outside the units changed
its handle. -/
structure RoundDeclared (fs : List SourceFile) (p p' : Program) : Prop where
  module : ModuleGrows p.module p'.module
  generated : p'.generated = p.generated
  valid : p.HandlesValid → p'.HandlesValid
  keys : p'.prefixes.map Prod.fst = p.prefixes.map Prod.fst ++ fs.map SourceFile.name
  nodup : (p.prefixes.map Prod.fst).Nodup → (p'.prefixes.map Prod.fst).Nodup
  funcs : ∀ f ∈ fs, ∀ g ∈ Decl.generatedList f.decls, ∃ i, p'.handles[g.site.id]? = some (.func i)
  others : ∀ k ∉ fs.flatMap (fun f => Decl.idsList f.decls), p'.handles[k]? = p.handles[k]?

/-- A declaration round in which no unit failed, over units with distinct nodes whose functions
record their types. The check that no unit is declared twice makes the names distinct. -/
theorem declareRound_ok : ∀ (fs : List SourceFile) (p : Program),
    (fs.flatMap fun f => Decl.idsList f.decls).Nodup → (∀ f ∈ fs, Decl.Signed t f.decls) →
      (eachUnit (declareStep t) p fs).1 = [] → RoundDeclared fs p (eachUnit (declareStep t) p fs).2
  | [], p, _, _, _ => ⟨.refl _, rfl, id, by simp [eachUnit], id, by simp, fun _ _ => rfl⟩
  | f :: fs, p, hnd, hty, herr => by
    simp only [eachUnit, List.append_eq_nil_iff] at herr ⊢
    obtain ⟨h₁, h₂⟩ := herr
    rw [List.flatMap_cons, List.nodup_append] at hnd
    obtain ⟨hnd₁, hnd₂, hdisj⟩ := hnd
    obtain ⟨hnone, pre, hd⟩ := declareUnit_ok hnd₁ (hty f List.mem_cons_self)
      (declareStep_ok (by simpa using h₁))
    have ih := declareRound_ok fs _ hnd₂ (fun g hg => hty g (.tail _ hg)) h₂
    have hfresh : f.name ∉ p.prefixes.map Prod.fst := by
      intro hk
      obtain ⟨q, hq, hqk⟩ := List.mem_map.1 hk
      have hne := List.lookup_eq_none_iff.1 hnone q hq
      simp [hqk] at hne
    refine ⟨hd.module.trans ih.module, ih.generated.trans hd.generated,
      fun hv => ih.valid (hd.valid hv), ?_, fun hn => ih.nodup ?_, ?_, ?_⟩
    · rw [ih.keys, hd.prefixes]
      simp
    · -- the unit's name is new to the prefixes: the check before declaring it
      rw [hd.prefixes, List.map_append]
      refine List.nodup_append.2 ⟨hn, List.nodup_singleton _, fun a ha b hb hab => ?_⟩
      rw [List.map_singleton, List.mem_singleton] at hb
      rw [hab, hb] at ha
      exact hfresh ha
    · intro g hg fd hfd
      rcases List.mem_cons.1 hg with rfl | hg
      · obtain ⟨i, hi⟩ := hd.funcs fd hfd
        have hsite : fd.site.id ∈ Decl.idsList g.decls :=
          Decl.funcsList_ids_mem g.decls (Decl.generatedList_subset_funcsList _ hfd)
            (FuncDecl.site_mem_ids fd)
        exact ⟨i, by rw [ih.others _ fun hk => hdisj _ hsite _ hk rfl]; exact hi⟩
      · exact ih.funcs g hg fd hfd
    · intro k hk
      simp only [List.flatMap_cons, List.mem_append, not_or] at hk
      rw [ih.others k hk.2, hd.others k hk.1]

end Declare

end Codegen

end Abla
