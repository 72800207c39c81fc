import Abla.Proofs.Service.Confinement

/-!
# What an import brings in

The built-ins that import a unit, by its path or by its text, compile it and then define in the
executing unit's file scope, one at a time and in the order of their names, the symbols of the
unit's file scope that the unit itself declares and that exist at run time. Each definition keeps
a name the scope gives already. `mergeImport` says what the scope holds afterwards: its symbols as
they were, then the imported ones whose names they do not give. Since the compilation changes no
scope that exists, this holds of the scope as it was before the import; and a second import of
the same file merges nothing more.
-/

namespace Abla

section Merging

/-- The symbols of a file scope holding `own` once `unit` is imported from a file scope holding
`theirs`: its own, then those of `theirs` that `unit` exports and whose names it does not give
yet. -/
def mergeImport (unit : String) (own theirs : List Symbol) : List Symbol :=
  own ++ theirs.filter fun s => s.exportedBy unit && !own.any (·.name = s.name)

theorem mergeImport_nil (unit : String) (own : List Symbol) : mergeImport unit own [] = own := by
  simp [mergeImport]

/-- Importing symbols one at a time: the first is added unless its name is taken, then the
rest, none of which shares its name. -/
theorem mergeImport_cons (unit : String) (own : List Symbol) (s : Symbol) (rest : List Symbol)
    (hs : s.name ∉ rest.map (·.name)) :
    mergeImport unit own (s :: rest) = mergeImport unit
      (if s.exportedBy unit && !own.any (·.name = s.name) then own ++ [s] else own) rest := by
  by_cases hq : (s.exportedBy unit && !own.any (·.name = s.name)) = true
  · -- the names after `s` are not its own, so adding it blocks none of them
    have hfil : rest.filter (fun t => t.exportedBy unit && !(own ++ [s]).any (·.name = t.name)) =
        rest.filter (fun t => t.exportedBy unit && !own.any (·.name = t.name)) := by
      refine List.filter_congr fun t ht => ?_
      have hne : s.name ≠ t.name := fun h => hs (h ▸ List.mem_map_of_mem ht)
      simp [List.any_append, hne]
    rw [if_pos hq, mergeImport, mergeImport, hfil]
    simp only [List.filter_cons, hq, if_true, List.append_assoc, List.singleton_append]
  · rw [if_neg hq, mergeImport, mergeImport]
    simp only [List.filter_cons, hq, Bool.false_eq_true, if_false]

/-- A file scope that gives the name of every symbol `unit` exports keeps its symbols. -/
theorem mergeImport_of_named (unit : String) {own theirs : List Symbol}
    (h : ∀ s ∈ theirs, s.exportedBy unit = true → ∃ t ∈ own, t.name = s.name) :
    mergeImport unit own theirs = own := by
  rw [mergeImport, List.filter_eq_nil_iff.2, List.append_nil]
  intro s hs
  cases he : s.exportedBy unit with
  | false => simp
  | true =>
    obtain ⟨t, ht, hn⟩ := h s hs he
    simp only [Bool.true_and, Bool.not_eq_eq_eq_not, Bool.not_true, List.any_eq_false]
    exact fun hall => hall t ht (decide_eq_true hn)

/-- After an import, the file scope gives the name of every symbol the imported unit exports. -/
theorem mergeImport_named (unit : String) (own theirs : List Symbol) :
    ∀ s ∈ theirs, s.exportedBy unit = true →
      ∃ t ∈ mergeImport unit own theirs, t.name = s.name := by
  intro s hs he
  by_cases ho : ∃ t ∈ own, t.name = s.name
  · obtain ⟨t, ht, hn⟩ := ho
    exact ⟨t, List.mem_append_left _ ht, hn⟩
  · refine ⟨s, List.mem_append_right _ (List.mem_filter.2 ⟨hs, ?_⟩), rfl⟩
    simpa [he] using ho

/-- Importing the same symbols a second time adds nothing. -/
theorem mergeImport_idem (unit : String) (own theirs : List Symbol) :
    mergeImport unit (mergeImport unit own theirs) theirs = mergeImport unit own theirs :=
  mergeImport_of_named unit (mergeImport_named unit own theirs)

end Merging

namespace Scopes

/-- Importing symbols of distinct names into a scope leaves it with its own symbols, then those
it gets from the import. -/
theorem importOwn_getElem? (id : ScopeId) (unit : String) :
    ∀ (syms : List Symbol) (st : Scopes), (syms.map (·.name)).Nodup →
      (st.importOwn id unit syms).tables[id]? =
        (st.tables[id]?).map fun sc => { sc with symbols := mergeImport unit sc.symbols syms }
  | [], st, _ => by
    rw [importOwn_nil]
    cases st.tables[id]? with
    | none => rfl
    | some sc =>
      rw [Option.map_some, mergeImport_nil]
  | t :: rest, st, hnd => by
    obtain ⟨hnot, hrest⟩ := List.nodup_cons.1 hnd
    rw [importOwn_cons, importOwn_getElem? id unit rest _ hrest]
    cases hsc : st.tables[id]? with
    | none =>
      split
      · rw [define_getElem?, if_pos rfl, hsc]
        rfl
      · rw [hsc]
        rfl
    | some sc =>
      rw [Option.map_some, mergeImport_cons unit sc.symbols t rest hnot]
      by_cases he : t.exportedBy unit = true
      · rw [if_pos he, define_getElem?, if_pos rfl, hsc, Option.map_some, Option.map_some]
        by_cases hn : (sc.symbols.any fun x => decide (x.name = t.name)) = true
        · rw [if_pos hn]
          simp [hn]
        · rw [if_neg hn]
          simp [hn, he]
      · rw [if_neg he, hsc]
        simp [he]

theorem symbolsOf_congr {st st' : Scopes} {s : ScopeId}
    (h : st'.tables[s]? = st.tables[s]?) : st'.symbolsOf s = st.symbolsOf s := by
  unfold symbolsOf
  rw [h]

end Scopes

/-- A file scope importing its own symbols gains nothing. -/
theorem mergeImport_symbolsOf_self (unit : String) {st : Scopes} {s : ScopeId} {sc : Scope}
    (h : st.tables[s]? = some sc) : mergeImport unit sc.symbols (st.symbolsOf s) = sc.symbols := by
  refine mergeImport_of_named unit fun t ht _ => ⟨t, ?_, rfl⟩
  unfold Scopes.symbolsOf at ht
  rw [h] at ht
  exact List.mem_mergeSort.1 ht

namespace Eval

/-- What an import does, from a tidy build in which the executing unit's file scope holds `u`:
the imported unit has a tree whose file scope is recorded, and that scope stays as it was, also
when it is the executing unit's own; the executing unit's file scope then holds `u`'s symbols
followed by those the imported unit exports whose names `u` does not give. Nothing else but
the events changes. -/
theorem importUnit_merges (sc : Scene) (name : String) (span : Span) {b b' : Build}
    (ht : Tidy b) {u : Scope} (hu : b.tables.scopes.tables[sc.fileScope]? = some u)
    (hrun : (importUnit sc name span).run.run b = (.ok (), b')) :
    Tidy b' ∧ b'.units = b.units ∧ b'.tables.notes = b.tables.notes ∧
      ∃ f table, b.units.file? name = some f ∧
        b.tables.notes.scopeOf? f.site.id = some table ∧
        b'.tables.scopes.symbolsOf table = b.tables.scopes.symbolsOf table ∧
        b'.tables.scopes.tables[sc.fileScope]? =
          some { u with
            symbols := mergeImport name u.symbols (b.tables.scopes.symbolsOf table) } := by
  -- an import that finds no tree, or no scope for it, fails
  cases hf : b.units.file? name with
  | none =>
    unfold importUnit at hrun
    simp only [Run.run_bind, Run.run_get, hf] at hrun
    cases hrun
  | some f =>
    cases hs : b.tables.notes.scopeOf? f.site.id with
    | none =>
      unfold importUnit at hrun
      simp only [Run.run_bind, Run.run_get, hf, hs] at hrun
      cases hrun
    | some table =>
      obtain ⟨ev, hev⟩ := importUnit_ok sc name span hf hs
      rw [hev] at hrun
      cases hrun
      have hnd := Scopes.symbolsOf_names_nodup ht.distinct table
      have hmerge := Scopes.importOwn_getElem? sc.fileScope name _ b.tables.scopes hnd
      rw [hu, Option.map_some] at hmerge
      refine ⟨(Confined.importOwn b sc.fileScope name _ ev ht).1, rfl, rfl, f, table, rfl, hs, ?_,
        hmerge⟩
      -- the imported unit's file scope is as it was
      refine Scopes.symbolsOf_congr ?_
      by_cases heq : table = sc.fileScope
      · subst heq
        rw [hmerge, hu, mergeImport_symbolsOf_self name hu]
      · exact Scopes.importOwn_getElem?_of_ne _ _ heq _ _


/-- The unit an import of `path` names, from the executing unit: a relative path is read from
the executing unit's directory, unless that unit is inline source. -/
def Scene.importPath (sc : Scene) (path : String) : String :=
  Path.clean (if Path.isAbs path || sc.unit.startsWith "<" then path
    else Path.join (Path.dir sc.unit) path)

/-- A computation on builds, run by the evaluator, cannot fail. -/
theorem Run.run_liftM {α : Type} (x : StateM Build α) (b : Build) :
    (liftM x : Run α).run.run b = (.ok (x.run b).1, (x.run b).2) := rfl

/-- Once the imported unit is compiled from a tidy build, importing it merges its symbols into
the executing unit's file scope as it was before the compilation. -/
theorem compiled_then_imported (sc : Scene) (name : String) (span : Span) {b b₁ b' : Build}
    (ht : Tidy b) {u : Scope} (hu : b.tables.scopes.tables[sc.fileScope]? = some u)
    (hframe : Confined (fun _ => False) b b₁)
    (hrun : (importUnit sc name span).run.run b₁ = (.ok (), b')) :
    Tidy b' ∧ ∃ f table, b'.units.file? name = some f ∧
      b'.tables.notes.scopeOf? f.site.id = some table ∧
      b'.tables.scopes.tables[sc.fileScope]? =
        some { u with
          symbols := mergeImport name u.symbols (b'.tables.scopes.symbolsOf table) } := by
  obtain ⟨ht₁, -, hkeep⟩ := hframe ht
  -- the compilation left the executing unit's file scope as it was
  have hlt : sc.fileScope < b.tables.scopes.tables.size :=
    (Array.getElem?_eq_some_iff.1 hu).1
  have hu₁ : b₁.tables.scopes.tables[sc.fileScope]? = some u := by
    rw [hkeep sc.fileScope hlt not_false, hu]
  obtain ⟨ht', hunits, hnotes, f, table, hf, hs, hsym, hmerge⟩ :=
    importUnit_merges sc name span ht₁ hu₁ hrun
  refine ⟨ht', f, table, by rw [hunits, hf], by rw [hnotes, hs], ?_⟩
  rw [hsym]
  exact hmerge

theorem runBuiltin_merges (fuel : Nat) (sc : Scene) (hhost : sc.host = Service.host fuel)
    {b b' : Build} (ht : Tidy b) {u : Scope} (hu : b.tables.scopes.tables[sc.fileScope]? = some u)
    (bi : Builtin) (arg : String) (span : Span) {v : Value}
    (hrun : (runBuiltin sc bi [.str arg] span).run.run b = (.ok v, b')) :
    Tidy b' ∧ ∃ name f table, b'.units.file? name = some f ∧
      b'.tables.notes.scopeOf? f.site.id = some table ∧
      (bi = .importFile → name = sc.importPath arg) ∧
      (bi = .compileText → v = .str name) ∧
      b'.tables.scopes.tables[sc.fileScope]? =
        some { u with
          symbols := mergeImport name u.symbols (b'.tables.scopes.symbolsOf table) } := by
  have hframed : HostConfines sc.host := hhost ▸ Service.host_keeps_scopes fuel
  cases bi with
  | importFile =>
    simp only [runBuiltin, Run.run_bind, Run.run_liftM] at hrun
    generalize hN : Path.clean (if (Path.isAbs arg || sc.unit.startsWith "<") = true then arg
      else Path.join (Path.dir sc.unit) arg) = name at hrun
    have hframe := hframed.file name (sc.unit :: sc.requesters) b
    rcases hc : (sc.host.compileFile name (sc.unit :: sc.requesters)).run b with ⟨err, b₁⟩
    rw [hc] at hrun hframe
    cases err with
    | some e => cases hrun
    | none =>
      simp only [Run.run_bind] at hrun
      rcases hi : (importUnit sc name span).run.run b₁ with ⟨r, b₂⟩
      rw [hi] at hrun
      cases r with
      | error e => cases hrun
      | ok w =>
        cases hrun
        obtain ⟨ht', f, table, hf, hs, hsym⟩ :=
          compiled_then_imported sc name span ht hu hframe hi
        exact ⟨ht', name, f, table, hf, hs, fun _ => hN.symm, (fun h => by cases h), hsym⟩
  | compileText =>
    simp only [runBuiltin, Run.run_bind, Run.run_liftM] at hrun
    have hframe := hframed.text arg (sc.unit :: sc.requesters) b
    rcases hc : (sc.host.compileText arg (sc.unit :: sc.requesters)).run b with
      ⟨⟨name, err⟩, b₁⟩
    rw [hc] at hrun hframe
    cases err with
    | some e => cases hrun
    | none =>
      simp only [Run.run_bind] at hrun
      rcases hi : (importUnit sc name span).run.run b₁ with ⟨r, b₂⟩
      rw [hi] at hrun
      cases r with
      | error e => cases hrun
      | ok w =>
        cases hrun
        obtain ⟨ht', f, table, hf, hs, hsym⟩ :=
          compiled_then_imported sc name span ht hu hframe hi
        exact ⟨ht', name, f, table, hf, hs, (fun h => by cases h), fun _ => rfl, hsym⟩


/-- Importing a file whose tree the build already holds compiles nothing: the executing unit's
file scope gains what the file's scope exports as the build holds it at the time. -/
theorem importFile_of_file (fuel : Nat) (sc : Scene) (hhost : sc.host = Service.host fuel)
    {b b' : Build} (ht : Tidy b) {u : Scope} (hu : b.tables.scopes.tables[sc.fileScope]? = some u)
    (arg : String) (span : Span) {f : SourceFile} {table : ScopeId}
    (hf : b.units.file? (sc.importPath arg) = some f)
    (hs : b.tables.notes.scopeOf? f.site.id = some table) {v : Value}
    (hrun : (runBuiltin sc .importFile [.str arg] span).run.run b = (.ok v, b')) :
    b'.tables.scopes.tables[sc.fileScope]? = some { u with
      symbols := mergeImport (sc.importPath arg) u.symbols (b.tables.scopes.symbolsOf table) } := by
  simp only [runBuiltin, Run.run_bind, Run.run_liftM] at hrun
  generalize hN : Path.clean (if (Path.isAbs arg || sc.unit.startsWith "<") = true then arg
    else Path.join (Path.dir sc.unit) arg) = name at hrun
  obtain rfl : sc.importPath arg = name := hN
  have hframed : HostConfines sc.host := hhost ▸ Service.host_keeps_scopes fuel
  have hframe := hframed.file (sc.importPath arg) (sc.unit :: sc.requesters) b
  -- the request finds the tree and changes nothing the import reads
  obtain ⟨htables, hunits⟩ :=
    Service.request_of_file hf fuel .file false sc.unit sc.requesters
  rw [hhost, Service.host_compileFile_run] at hrun
  rw [hhost, Service.host_compileFile_run] at hframe
  generalize hreq : (Service.request fuel (sc.importPath arg) .file false
    (sc.unit :: sc.requesters)).run b = res at hrun hframe htables hunits
  obtain ⟨o, b₁⟩ := res
  dsimp only at hrun hframe htables hunits
  generalize o.err = err at hrun
  cases err with
  | some e => cases hrun
  | none =>
    simp only [Run.run_bind] at hrun
    rcases hi : (importUnit sc (sc.importPath arg) span).run.run b₁ with ⟨r, b₂⟩
    rw [hi] at hrun
    cases r with
    | error e => cases hrun
    | ok w =>
      cases hrun
      have hu₁ : b₁.tables.scopes.tables[sc.fileScope]? = some u := by rw [htables, hu]
      obtain ⟨-, -, -, f₁, table₁, hf₁, hs₁, -, hmerge⟩ :=
        importUnit_merges sc (sc.importPath arg) span (hframe ht).1 hu₁ hi
      rw [hunits, hf] at hf₁
      cases hf₁
      rw [htables, hs] at hs₁
      cases hs₁
      rw [hmerge, htables]

/-- Importing a unit merges into the executing unit's file scope the runtime symbols the unit
itself declares, those whose names the scope does not yet give, after everything the scope
held; and importing the same file again leaves the scope as it is. -/
theorem import_merges_own_symbols (fuel : Nat) (sc : Scene) (hhost : sc.host = Service.host fuel)
    {b b' : Build} (ht : Tidy b) {u : Scope} (hu : b.tables.scopes.tables[sc.fileScope]? = some u)
    (bi : Builtin) (arg : String) (span : Span) {v : Value}
    (hrun : (runBuiltin sc bi [.str arg] span).run.run b = (.ok v, b')) :
    (∃ name f table, b'.units.file? name = some f ∧
      b'.tables.notes.scopeOf? f.site.id = some table ∧
      (bi = .importFile → name = sc.importPath arg) ∧ (bi = .compileText → v = .str name) ∧
      b'.tables.scopes.tables[sc.fileScope]? =
        some { u with
          symbols := mergeImport name u.symbols (b'.tables.scopes.symbolsOf table) }) ∧
    (bi = .importFile → ∀ v'' b'',
      (runBuiltin sc .importFile [.str arg] span).run.run b' = (.ok v'', b'') →
      b''.tables.scopes.tables[sc.fileScope]? = b'.tables.scopes.tables[sc.fileScope]?) := by
  obtain ⟨ht', name, f, table, hf, hs, hname, hv, hmerge⟩ :=
    runBuiltin_merges fuel sc hhost ht hu bi arg span hrun
  refine ⟨⟨name, f, table, hf, hs, hname, hv, hmerge⟩, ?_⟩
  rintro rfl v'' b'' hrun₂
  -- the second import finds the tree the first left, and merges the same symbols again
  obtain rfl := hname rfl
  rw [importFile_of_file fuel sc hhost ht' hmerge arg span hf hs hrun₂, hmerge]
  simp only [mergeImport_idem]

/-! ### Importing a library that shadows, hides and re-exports -/

/-- The symbols of `lib.abla`'s file scope: `f` and `x` are its own, `g` exists at compile time
only, and `h` it imported from `util.abla`. -/
def libF : Symbol := { name := "f", kind := .func, unit := "lib.abla", node := 11 }
def libG : Symbol :=
  { name := "g", kind := .func, unit := "lib.abla", node := 12, compileTimeOnly := true }
def libH : Symbol := { name := "h", kind := .func, unit := "util.abla", node := 3 }
def libX : Symbol := { name := "x", kind := .func, unit := "lib.abla", node := 13 }

/-- The symbol `x` of `main.abla`'s file scope. -/
def mainX : Symbol := { name := "x", kind := .func, unit := "main.abla", node := 2 }

/-- `lib.abla` is installed, its tree at node 10 with file scope 1; `main.abla`'s file scope 0
gives `x`. -/
def libInstalled : Build :=
  { files := default,
    tables := { scopes := ⟨#[⟨none, [mainX]⟩, ⟨none, [libF, libG, libH, libX]⟩]⟩,
                notes := ({} : Notes).setScope 10 1 },
    units := { compiled := [("lib.abla", ⟨⟨10, default⟩, "lib.abla", []⟩)] },
    nextNode := 14 }

/-- The build once `main.abla` has imported `lib.abla`: only `f` is added, and the clash on `x`
is reported. -/
def libImported : Build :=
  { libInstalled with
    tables := { libInstalled.tables with
      scopes := ⟨#[⟨none, [mainX, libF]⟩, ⟨none, [libF, libG, libH, libX]⟩]⟩ },
    events := #[.warning "main.abla" (some default)
      "imported symbol `x` is shadowed by a local definition"] }

/-- `main.abla` executing, with file scope 0, under the host of nested requests. -/
def sceneMain : Scene := ⟨"main.abla", 0, [], Service.host 1⟩

theorem libInstalled_symbolsOf :
    libInstalled.tables.scopes.symbolsOf 1 = [libF, libG, libH, libX] := by
  refine List.mergeSort_of_pairwise ?_
  decide

theorem sceneMain_importPath : sceneMain.importPath "lib.abla" = "lib.abla" := by
  simp +decide [Scene.importPath, sceneMain, Path.clean, Path.join, Path.dir, String.splitOn,
    String.splitOnAux, Path.fold, Path.isAbs]

theorem libInstalled_tidy : Tidy libInstalled where
  fresh k hk := by
    simp only [libInstalled, Notes.scopeOf?, Notes.setScope, Std.HashMap.getElem?_insert] at hk ⊢
    simp only [beq_iff_eq]
    rw [if_neg (by omega)]
    simp
  distinct s sc h := by
    simp only [libInstalled] at h
    rcases s with _ | _ | s
    · cases h
      decide
    · cases h
      decide
    · simp at h

theorem importUnit_lib :
    (importUnit sceneMain "lib.abla" default).run.run libInstalled = (.ok (), libImported) := by
  have hfile :
      libInstalled.units.file? "lib.abla" = some ⟨⟨10, default⟩, "lib.abla", []⟩ := by
    simp [libInstalled, Units.file?]
  have hscope : libInstalled.tables.notes.scopeOf? 10 = some 1 := by
    simp only [libInstalled, Notes.scopeOf?, Notes.setScope, Std.HashMap.getElem?_insert]
    simp
  unfold importUnit
  simp only [Run.run_bind, Run.run_get, hfile, hscope, libInstalled_symbolsOf]
  rfl

/-- `lib.abla` is installed, so the request for it answers at once. -/
theorem request_lib : (Service.request 1 "lib.abla" .file false ["main.abla"]).run libInstalled =
    (⟨none, none⟩, libInstalled) := by
  have hc : libInstalled.units.isCompiled "lib.abla" = true := by
    simp [libInstalled, Units.isCompiled]
  rw [Service.request]
  simp only [StateT.run_bind, StateT.run_get, pure_bind, List.isEmpty_cons, Bool.false_and,
    Bool.false_eq_true, if_false, hc, if_true]
  rfl

theorem importFile_lib :
    (runBuiltin sceneMain .importFile [.str "lib.abla"] default).run.run libInstalled =
      (.ok .void, libImported) := by
  have hname : Path.clean (if (Path.isAbs "lib.abla" || sceneMain.unit.startsWith "<") = true
      then "lib.abla" else Path.join (Path.dir sceneMain.unit) "lib.abla") = "lib.abla" :=
    sceneMain_importPath
  simp only [runBuiltin, Run.run_bind, Run.run_liftM, hname]
  rw [show sceneMain.host = Service.host 1 from rfl, Service.host_compileFile_run,
    show sceneMain.unit :: sceneMain.requesters = ["main.abla"] from rfl, request_lib]
  dsimp only
  rw [Run.run_bind, importUnit_lib]
  rfl

/-- `import("lib.abla")` in `main.abla`: of `lib.abla`'s symbols only `f` is merged, and
importing it again changes nothing. -/
theorem import_merges_own_symbols_lib :
    Tidy libInstalled ∧
    libInstalled.tables.scopes.tables[sceneMain.fileScope]? = some ⟨none, [mainX]⟩ ∧
    (runBuiltin sceneMain .importFile [.str "lib.abla"] default).run.run libInstalled =
      (.ok .void, libImported) ∧
    ((∃ name f table, libImported.units.file? name = some f ∧
      libImported.tables.notes.scopeOf? f.site.id = some table ∧
      (Builtin.importFile = .importFile → name = sceneMain.importPath "lib.abla") ∧
      (Builtin.importFile = .compileText → Value.void = .str name) ∧
      libImported.tables.scopes.tables[sceneMain.fileScope]? =
        some ⟨none, mergeImport name [mainX] (libImported.tables.scopes.symbolsOf table)⟩) ∧
    (Builtin.importFile = .importFile → ∀ v'' b'',
      (runBuiltin sceneMain .importFile [.str "lib.abla"] default).run.run libImported =
        (.ok v'', b'') →
      b''.tables.scopes.tables[sceneMain.fileScope]? =
        libImported.tables.scopes.tables[sceneMain.fileScope]?)) :=
  ⟨libInstalled_tidy, rfl, importFile_lib,
    import_merges_own_symbols 1 sceneMain rfl libInstalled_tidy rfl .importFile "lib.abla" default
      importFile_lib⟩

end Eval

end Abla
