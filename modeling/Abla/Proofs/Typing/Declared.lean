import Mathlib
import Abla.Proofs.Typing.Scoping

/-!
# The declarations of a gathered file

Gathering declares the classes of a file first, each in the scope around it and with a scope of
its own, then its functions, with their types. This module says what the first two passes
leave in the tables when they succeed, exactly: the scope a list of declarations is declared in
receives the symbols of its classes, then of its functions (`Decl.symbols`), with distinct
names; the classes' scopes are numbered in order of declaration and hold the same of their
members (`Decl.ClassesAt`); and each function records its type, read from its labels
(`FuncDecl.type`), as its parameters record theirs (`Decl.Typed`).

A type label that resolves denotes the type its text names (`resolve_ok`), whatever the
scopes: a label names a class only through a lookup that finds one, so a run that succeeds
read nothing else.
-/

namespace Abla

mutual

/-- The data type a type label names: a primitive type by its name, a class with its type
arguments, or a function type. -/
def TypeLabel.denote : TypeLabel → DataType
  | .named n ps _ =>
    match Prim.byName? n with
    | some p => .prim p
    | none => .user n (TypeLabel.denoteList ps)
  | .func ps r _ => .func (TypeLabel.denoteList ps) (some r.denote)

/-- The data types a list of type labels names, in order. -/
def TypeLabel.denoteList : List TypeLabel → List DataType
  | [] => []
  | l :: ls => l.denote :: TypeLabel.denoteList ls

end

/-- The type of a function as its labels name it: its parameters' types, and its return type,
`Void` when it has no return label. -/
def FuncDecl.type (f : FuncDecl) : DataType :=
  .func (f.params.map fun p => p.label.denote) (some ((f.ret.map TypeLabel.denote).getD .void))

namespace FuncDecl

/-- A function's own node and its parameters' are distinct nodes. -/
theorem params_nodup {f : FuncDecl} (h : f.ids.Nodup) :
    f.site.id ∉ f.params.map (fun p => p.site.id) ∧ (f.params.map fun p => p.site.id).Nodup := by
  have hmap : f.params.flatMap (fun p => [p.site.id]) = f.params.map fun p => p.site.id :=
    List.map_eq_flatMap.symm
  rw [ids, List.nodup_cons, hmap, List.nodup_append, List.nodup_append] at h
  exact ⟨fun hk => h.1 (by simp [hk]), h.2.1.2.1⟩

end FuncDecl

namespace Gather

/-- The symbol a class defines in the scope around it. -/
def classSymbol (unit : String) (site : Site) (name : String) (mods : List Modifier) : Symbol :=
  { name := name, kind := .type, type := some (.user name []), unit := unit, node := site.id,
    compileTimeOnly := Modifier.hasCompiler mods }

/-- The symbol a function defines in the scope it is declared in. -/
def funcSymbol (unit : String) (f : FuncDecl) : Symbol :=
  { name := f.name, kind := .func, type := some f.type, unit := unit, node := f.site.id,
    decl := some f, compileTimeOnly := f.isCompiler }

/-- The symbol a parameter defines in the scope of its function's body. -/
def paramSymbol (unit : String) (p : Param) : Symbol :=
  { name := p.name, kind := .param, type := some p.label.denote, unit := unit, node := p.site.id }

end Gather

namespace Decl

/-- The symbol of a declaration that is a class. -/
def classSymbol? (unit : String) : Decl → Option Symbol
  | .cls site name mods _ => some (Gather.classSymbol unit site name mods)
  | _ => none

/-- The symbol of a declaration that is a function. -/
def funcSymbol? (unit : String) : Decl → Option Symbol
  | .func f => some (Gather.funcSymbol unit f)
  | _ => none

/-- The symbols of the classes among a list of declarations, in order. -/
def classSymbols (unit : String) (ds : List Decl) : List Symbol := ds.filterMap (classSymbol? unit)

/-- The symbols of the functions among a list of declarations, in order. -/
def funcSymbols (unit : String) (ds : List Decl) : List Symbol := ds.filterMap (funcSymbol? unit)

/-- The symbols a list of declarations defines in its scope, in the order gathering defines
them: its classes, then its functions. -/
def symbols (unit : String) (ds : List Decl) : List Symbol :=
  classSymbols unit ds ++ funcSymbols unit ds

mutual

/-- The number of classes in a declaration, nested ones included. -/
def classCount : Decl → Nat
  | .cls _ _ _ ms => classCountList ms + 1
  | _ => 0

/-- The number of classes in a list of declarations, nested ones included. -/
def classCountList : List Decl → Nat
  | [] => 0
  | d :: ds => d.classCount + classCountList ds

end

/-- The number of functions with a body in a list of declarations, those of classes included. -/
def bodyCount (ds : List Decl) : Nat := (funcsList ds).countP fun g => g.body.isSome

@[simp] theorem classSymbols_nil (unit : String) : classSymbols unit [] = [] := rfl

@[simp] theorem funcSymbols_nil (unit : String) : funcSymbols unit [] = [] := rfl

theorem classSymbols_cons (unit : String) (d : Decl) (ds : List Decl) :
    classSymbols unit (d :: ds) = classSymbols unit [d] ++ classSymbols unit ds := by
  cases d <;> rfl

theorem funcSymbols_cons (unit : String) (d : Decl) (ds : List Decl) :
    funcSymbols unit (d :: ds) = funcSymbols unit [d] ++ funcSymbols unit ds := by
  cases d <;> rfl

@[simp] theorem classCountList_single (d : Decl) : classCountList [d] = d.classCount := by
  simp [classCountList]

mutual

/-- Each class of `d` records at its node the scope numbered `n` for it, then its nested
classes the ones after it in order of declaration: the scope hangs below `p`, the scope
around the class, and holds the symbols `contents` gives for the class's members, with
distinct names. -/
def ClassesAt (t : Tables) (contents : List Decl → List Symbol) (p n : Nat) : Decl → Prop
  | .cls site _ _ ms =>
    t.notes.scopeOf? site.id = some n ∧ t.scopes.tables[n]? = some ⟨some p, contents ms⟩ ∧
      ((contents ms).map Symbol.name).Nodup ∧ ClassesAtList t contents n (n + 1) ms
  | _ => True

/-- The classes of a list of declarations record their scopes, numbered from `n` in order of
declaration. -/
def ClassesAtList (t : Tables) (contents : List Decl → List Symbol) (p n : Nat) :
    List Decl → Prop
  | [] => True
  | d :: ds => d.ClassesAt t contents p n ∧ ClassesAtList t contents p (n + d.classCount) ds

end

/-- Every function of a list of declarations, those of classes included, records its type, and
its parameters theirs, as their labels name them. -/
def Typed (t : Tables) (ds : List Decl) : Prop :=
  ∀ g ∈ funcsList ds, t.notes.typeOf? g.site.id = some g.type ∧
    ∀ p ∈ g.params, t.notes.typeOf? p.site.id = some p.label.denote

mutual

/-- The nodes of a function declared among declarations are nodes of theirs. -/
theorem funcs_ids_mem : ∀ (d : Decl) {g : FuncDecl} {k : Nat}, g ∈ d.funcs → k ∈ g.ids → k ∈ d.ids
  | .func f, g, k, h, hk => by
    simp only [funcs, List.mem_singleton] at h
    subst h
    exact hk
  | .cls _ _ _ ms, g, k, h, hk => by
    simp only [funcs] at h
    simp [ids, funcsList_ids_mem ms h hk]
  | .hashCall _ _, g, k, h, _ => by simp [funcs] at h

theorem funcsList_ids_mem :
    ∀ (ds : List Decl) {g : FuncDecl} {k : Nat}, g ∈ funcsList ds → k ∈ g.ids → k ∈ idsList ds
  | [], g, k, h, _ => by simp [funcsList] at h
  | d :: ds, g, k, h, hk => by
    simp only [funcsList, List.mem_append] at h
    rcases h with h | h
    · simp [idsList, funcs_ids_mem d h hk]
    · simp [idsList, funcsList_ids_mem ds h hk]

end

/-- The functions of declarations keep their types while the notes of their nodes do. -/
theorem Typed.congr {t t' : Tables} {ds : List Decl} (h : Typed t ds)
    (hk : ∀ k ∈ idsList ds, t'.notes.typeOf? k = t.notes.typeOf? k) : Typed t' ds := by
  intro g hg
  obtain ⟨hg₁, hg₂⟩ := h g hg
  refine ⟨(hk _ (funcsList_ids_mem ds hg (FuncDecl.site_mem_ids g))).trans hg₁, fun p hp => ?_⟩
  have hmem := funcsList_ids_mem ds hg (FuncDecl.param_mem_ids (List.mem_map_of_mem hp))
  exact (hk _ hmem).trans (hg₂ p hp)

/-- The nodes of a list of declarations are distinct when those of its first declaration and of
the rest are, and none is in both. -/
theorem idsList_cons_nodup {d : Decl} {ds : List Decl} (h : (idsList (d :: ds)).Nodup) :
    d.ids.Nodup ∧ (idsList ds).Nodup ∧ ∀ k ∈ d.ids, k ∉ idsList ds := by
  rw [idsList, List.nodup_append] at h
  exact ⟨h.1, h.2.1, fun k hk hk' => h.2.2 k hk k hk' rfl⟩

/-- A class's own node is none of its members'. -/
theorem cls_ids_nodup {site : Site} {n : String} {mods : List Modifier} {ms : List Decl}
    (h : (Decl.cls site n mods ms).ids.Nodup) : site.id ∉ idsList ms ∧ (idsList ms).Nodup := by
  rw [Decl.ids, List.nodup_cons, List.nodup_append] at h
  exact ⟨fun hk => h.1 (List.mem_append_right _ hk), h.2.2.1⟩

mutual

/-- The class scopes of a declaration stay as they are while the notes of its nodes and the
scopes numbered for its classes do. -/
theorem ClassesAt.congr {t t' : Tables} {cs : List Decl → List Symbol} :
    ∀ {p n : Nat} (d : Decl), d.ClassesAt t cs p n →
      (∀ k ∈ d.ids, t'.notes.scopeOf? k = t.notes.scopeOf? k) →
      (∀ i, n ≤ i → i < n + d.classCount → i < t.scopes.tables.size →
        t'.scopes.tables[i]? = t.scopes.tables[i]?) →
      d.ClassesAt t' cs p n
  | p, n, .cls site _ _ ms, ⟨hsite, hn, hnd, hms⟩, hk, hi => by
    have hnt : n < t.scopes.tables.size := (Array.getElem?_eq_some_iff.1 hn).1
    refine ⟨(hk site.id (by simp [Decl.ids])).trans hsite,
      (hi n le_rfl (by simp [classCount]) hnt).trans hn, hnd, ?_⟩
    exact ClassesAtList.congr ms hms (fun k hk' => hk k (by simp [Decl.ids, hk']))
      fun i h₁ h₂ => hi i (by omega) (by simp only [classCount]; omega)
  | _, _, .func _, _, _, _ => trivial
  | _, _, .hashCall _ _, _, _, _ => trivial

theorem ClassesAtList.congr {t t' : Tables} {cs : List Decl → List Symbol} :
    ∀ {p n : Nat} (ds : List Decl), ClassesAtList t cs p n ds →
      (∀ k ∈ idsList ds, t'.notes.scopeOf? k = t.notes.scopeOf? k) →
      (∀ i, n ≤ i → i < n + classCountList ds → i < t.scopes.tables.size →
        t'.scopes.tables[i]? = t.scopes.tables[i]?) →
      ClassesAtList t' cs p n ds
  | _, _, [], _, _, _ => trivial
  | p, n, d :: ds, ⟨hd, hds⟩, hk, hi => by
    refine ⟨ClassesAt.congr d hd (fun k hk' => hk k (by simp [idsList, hk']))
      fun i h₁ h₂ => hi i h₁ (by simp only [classCountList]; omega), ?_⟩
    exact ClassesAtList.congr ds hds (fun k hk' => hk k (by simp [idsList, hk']))
      fun i h₁ h₂ => hi i (by omega) (by simp only [classCountList]; omega)

end

end Decl

namespace Gather

section Runs

variable {α β : Type} {t t' : Tables}

/-- A run of `x >>= f` that succeeds runs `x` to success first. -/
theorem M.ok_bind {x : M α} {f : α → M β} {b : β} (h : (x >>= f).run.run t = (.ok b, t')) :
    ∃ a t₁, x.run.run t = (.ok a, t₁) ∧ (f a).run.run t₁ = (.ok b, t') := by
  rw [M.run_bind] at h
  rcases hx : x.run.run t with ⟨r, t₁⟩
  rw [hx] at h
  cases r with
  | error e => cases h
  | ok a => exact ⟨a, t₁, rfl, h⟩

theorem M.ok_pure {a b : α} (h : (pure a : M α).run.run t = (.ok b, t')) : b = a ∧ t' = t := by
  rw [M.run_pure] at h
  cases h
  exact ⟨rfl, rfl⟩

theorem M.ok_throw {e : CompileError} {a : α} : (throw e : M α).run.run t ≠ (.ok a, t') := by
  intro h
  cases h

theorem typeError_not_ok {sp : Span} {msg : String} {a : α} :
    (typeError sp msg : M α).run.run t ≠ (.ok a, t') :=
  M.ok_throw

/-- A computation with a handler that never succeeds succeeds only as itself. -/
theorem M.ok_tryCatch {x : M α} {h : CompileError → M α} {a : α}
    (hh : ∀ e t a t', (h e).run.run t ≠ (.ok a, t'))
    (hx : (tryCatch x h : M α).run.run t = (.ok a, t')) : x.run.run t = (.ok a, t') := by
  rw [M.run_tryCatch] at hx
  rcases hr : x.run.run t with ⟨r, t₁⟩
  rw [hr] at hx
  cases r with
  | ok b => exact hx
  | error e => exact absurd hx (hh e _ _ _)

/-- A check that succeeds did not hold, and gathering went on. -/
theorem M.ok_check {c : Prop} [Decidable c] {sp : Span} {msg : String} {f : Unit → M β}
    {y : M β} {b : β} (h : (if c then typeError sp msg >>= f else y).run.run t = (.ok b, t')) :
    ¬c ∧ y.run.run t = (.ok b, t') := by
  split at h
  · obtain ⟨_, _, h₁, -⟩ := M.ok_bind h
    exact absurd h₁ typeError_not_ok
  · exact ⟨‹_›, h⟩

@[simp] theorem lookup_run (s : Nat) (n : String) :
    (lookup s n).run.run t = (.ok (t.scopes.lookup s n), t) := rfl

@[simp] theorem typeOf?_run (k : Nat) :
    (typeOf? k).run.run t = (.ok (t.notes.typeOf? k), t) := rfl

@[simp] theorem note_run (k : Nat) (ty : DataType) :
    (note k ty).run.run t = (.ok (), { t with notes := t.notes.setType k ty }) := rfl

@[simp] theorem noteScope_run (k : Nat) (s : Nat) :
    (noteScope k s).run.run t = (.ok (), { t with notes := t.notes.setScope k s }) := rfl

@[simp] theorem newScope_run (p : Option Nat) :
    (newScope p).run.run t =
      (.ok t.scopes.tables.size, { t with scopes := ⟨t.scopes.tables.push ⟨p, []⟩⟩ }) := rfl

/-- A loop whose body keeps an invariant of the elements done so far, for elements of `P`,
keeps it to the end of a list of such elements. -/
theorem M.ok_forIn {γ : Type} {body : γ → β → M (ForInStep β)} (I : List γ → β → Tables → Prop)
    (P : γ → Prop) (hbody : ∀ done x b t t' r, P x → I done b t →
      (body x b).run.run t = (.ok r, t') → ∃ b', r = .yield b' ∧ I (done ++ [x]) b' t') :
    ∀ (xs done : List γ) (b : β) {t t' : Tables} {r : β}, (∀ x ∈ xs, P x) → I done b t →
      (forIn xs b body).run.run t = (.ok r, t') → I (done ++ xs) r t'
  | [], done, b, t, t', r, _, hI, h => by
    rw [List.forIn_nil] at h
    obtain ⟨rfl, rfl⟩ := M.ok_pure h
    simpa using hI
  | x :: xs, done, b, t, t', r, hP, hI, h => by
    rw [List.forIn_cons] at h
    obtain ⟨step, t₁, h₁, h₂⟩ := M.ok_bind h
    obtain ⟨b', rfl, hI₁⟩ := hbody done x b t t₁ step (hP x List.mem_cons_self) hI h₁
    simpa using M.ok_forIn I P hbody xs (done ++ [x]) b'
      (fun y hy => hP y (List.mem_cons_of_mem x hy)) hI₁ h₂

end Runs

mutual

/-- A type label that resolves names the type its text names, and resolving it only read the
tables. -/
theorem resolve_ok (s : Nat) : ∀ (l : TypeLabel) {t t' : Tables} {d : DataType},
    (resolve s l).run.run t = (.ok d, t') → d = l.denote ∧ t' = t
  | .named n ps span, t, t', d, h => by
    unfold resolve at h
    split at h
    · rename_i p hp
      split at h
      · obtain ⟨rfl, rfl⟩ := M.ok_pure h
        simp [TypeLabel.denote, hp]
      · exact absurd h typeError_not_ok
    · rename_i hp
      obtain ⟨sym, t₁, h₁, h₂⟩ := M.ok_bind h
      rw [lookup_run] at h₁
      cases h₁
      -- the name is a class's only when the lookup finds a type: its arguments resolve then
      split at h₂
      · split at h₂
        · obtain ⟨ds, t₂, h₃, h₄⟩ := M.ok_bind h₂
          obtain ⟨rfl, rfl⟩ := M.ok_pure h₄
          obtain ⟨rfl, rfl⟩ := resolveList_ok s ps h₃
          simp [TypeLabel.denote, hp]
        · exact absurd h₂ M.ok_throw
      · exact absurd h₂ M.ok_throw
  | .func ps r _, t, t', d, h => by
    unfold resolve at h
    obtain ⟨ds, t₁, h₁, h₂⟩ := M.ok_bind h
    obtain ⟨r', t₂, h₃, h₄⟩ := M.ok_bind h₂
    obtain ⟨rfl, rfl⟩ := M.ok_pure h₄
    obtain ⟨rfl, rfl⟩ := resolveList_ok s ps h₁
    obtain ⟨rfl, rfl⟩ := resolve_ok s r h₃
    simp [TypeLabel.denote]

theorem resolveList_ok (s : Nat) : ∀ (ls : List TypeLabel) {t t' : Tables} {ds : List DataType},
    (resolveList s ls).run.run t = (.ok ds, t') → ds = TypeLabel.denoteList ls ∧ t' = t
  | [], t, t', ds, h => by
    unfold resolveList at h
    obtain ⟨rfl, rfl⟩ := M.ok_pure h
    simp [TypeLabel.denoteList]
  | l :: ls, t, t', ds, h => by
    unfold resolveList at h
    obtain ⟨d, t₁, h₁, h₂⟩ := M.ok_bind h
    obtain ⟨ds', t₂, h₃, h₄⟩ := M.ok_bind h₂
    obtain ⟨rfl, rfl⟩ := M.ok_pure h₄
    obtain ⟨rfl, rfl⟩ := resolve_ok s l h₁
    obtain ⟨rfl, rfl⟩ := resolveList_ok s ls h₃
    simp [TypeLabel.denoteList]

end

section Frames

variable {t t₁ t₂ t' : Tables}

/-- Scope `s` of `t'` holds what it holds in `t` followed by `new`, whose names are new to the
scope and distinct. -/
def Appended (s : Nat) (new : List Symbol) (t t' : Tables) : Prop :=
  ∃ sc, t.scopes.tables[s]? = some sc ∧
    t'.scopes.tables[s]? = some { sc with symbols := sc.symbols ++ new } ∧
    ((sc.symbols.map Symbol.name).Nodup → ((sc.symbols ++ new).map Symbol.name).Nodup)

theorem Appended.of_eq {s : Nat} (hs : s < t.scopes.tables.size)
    (h : t'.scopes.tables[s]? = t.scopes.tables[s]?) : Appended s [] t t' :=
  ⟨t.scopes.tables[s], by simp [hs], by simp [h, hs], by simp⟩

theorem Appended.congr {s : Nat} {new : List Symbol} (h : Appended s new t t₁)
    (h' : t₂.scopes.tables[s]? = t₁.scopes.tables[s]?) : Appended s new t t₂ := by
  obtain ⟨sc, h₀, h₁, hn⟩ := h
  exact ⟨sc, h₀, h'.trans h₁, hn⟩

theorem Appended.trans {s : Nat} {a b : List Symbol} (h₁ : Appended s a t t₁)
    (h₂ : Appended s b t₁ t₂) : Appended s (a ++ b) t t₂ := by
  obtain ⟨sc, h₀, hs₁, hn₁⟩ := h₁
  obtain ⟨sc₁, hs₁', hs₂, hn₂⟩ := h₂
  rw [hs₁, Option.some_inj] at hs₁'
  subst hs₁'
  refine ⟨sc, h₀, by simpa using hs₂, fun hn => ?_⟩
  simpa using hn₂ (hn₁ hn)

/-- `t'` records what `t` records, scopes and types, at every node outside `ks`. -/
def NotesKept (ks : List Nat) (t t' : Tables) : Prop :=
  ∀ k ∉ ks, t'.notes.scopeOf? k = t.notes.scopeOf? k ∧ t'.notes.typeOf? k = t.notes.typeOf? k

theorem NotesKept.refl (ks : List Nat) (t : Tables) : NotesKept ks t t :=
  fun _ _ => ⟨rfl, rfl⟩

theorem NotesKept.trans {a b : List Nat} (h₁ : NotesKept a t t₁) (h₂ : NotesKept b t₁ t₂) :
    NotesKept (a ++ b) t t₂ := fun k hk => by
  rw [List.mem_append, not_or] at hk
  obtain ⟨hs₂, ht₂⟩ := h₂ k hk.2
  obtain ⟨hs₁, ht₁⟩ := h₁ k hk.1
  exact ⟨hs₂.trans hs₁, ht₂.trans ht₁⟩

theorem NotesKept.mono {a b : List Nat} (h : NotesKept a t t') (hab : ∀ k ∈ a, k ∈ b) :
    NotesKept b t t' :=
  fun k hk => h k fun ha => hk (hab k ha)

/-- A scope holds what it held followed by what was appended, with distinct names if its own
were. -/
theorem Appended.of_some {s : Nat} {new : List Symbol} {p : Option Nat} {syms : List Symbol}
    (h : Appended s new t t') (hs : t.scopes.tables[s]? = some ⟨p, syms⟩) :
    t'.scopes.tables[s]? = some ⟨p, syms ++ new⟩ ∧
      ((syms.map Symbol.name).Nodup → ((syms ++ new).map Symbol.name).Nodup) := by
  obtain ⟨sc, h₀, h₁, hn⟩ := h
  rw [hs, Option.some_inj] at h₀
  subst h₀
  exact ⟨h₁, hn⟩

/-- A scope that was empty holds what was appended to it, with distinct names. -/
theorem Appended.fresh {s : Nat} {new : List Symbol} {p : Option Nat}
    (h : Appended s new t t') (hs : t.scopes.tables[s]? = some ⟨p, []⟩) :
    t'.scopes.tables[s]? = some ⟨p, new⟩ ∧ (new.map Symbol.name).Nodup := by
  obtain ⟨h₁, hn⟩ := h.of_some hs
  exact ⟨by simpa using h₁, by simpa using hn List.nodup_nil⟩

end Frames

end Gather

namespace Scopes

/-- A definition that succeeds appends the symbol to its scope, the name being new there. -/
theorem define_eq_true {st st' : Scopes} {id : Nat} {sym : Symbol}
    (h : st.define id sym = (st', true)) :
    ∃ sc, st.tables[id]? = some sc ∧ sym.name ∉ sc.symbols.map Symbol.name ∧
      st'.tables = st.tables.set! id { sc with symbols := sc.symbols ++ [sym] } := by
  unfold define at h
  split at h
  · cases h
  · rename_i sc hsc
    split at h
    · cases h
    · rename_i hany
      cases h
      refine ⟨sc, hsc, fun hmem => hany ?_, rfl⟩
      obtain ⟨x, hx, hxn⟩ := List.mem_map.1 hmem
      exact List.any_eq_true.2 ⟨x, hx, by simp [hxn]⟩

end Scopes

namespace Gather

/-- Defining a symbol that succeeds appends it to its scope and changes nothing else. -/
theorem define_ok {t t' : Tables} {s : Nat} {sym : Symbol} {sp : Span} {a : Unit}
    (h : (define s sym sp).run.run t = (.ok a, t')) :
    Appended s [sym] t t' ∧ t'.notes = t.notes ∧
      t'.scopes.tables.size = t.scopes.tables.size ∧
      ∀ i, i ≠ s → t'.scopes.tables[i]? = t.scopes.tables[i]? := by
  unfold define at h
  obtain ⟨t₀, t₁, h₁, h₂⟩ := M.ok_bind h
  rw [M.run_get] at h₁
  cases h₁
  rcases hd : t.scopes.define s sym with ⟨st', ok⟩
  rw [hd] at h₂
  cases ok with
  | false => exact absurd h₂ typeError_not_ok
  | true =>
    simp only [↓reduceIte, M.run_set] at h₂
    cases h₂
    obtain ⟨sc, hsc, hfresh, htables⟩ := Scopes.define_eq_true hd
    have hlt : s < t.scopes.tables.size := (Array.getElem?_eq_some_iff.1 hsc).1
    have hget : ∀ i, st'.tables[i]? =
        if s = i then some { sc with symbols := sc.symbols ++ [sym] } else t.scopes.tables[i]? := by
      intro i
      simp [htables, Array.set!_eq_setIfInBounds, Array.getElem?_setIfInBounds, hlt]
    refine ⟨⟨sc, hsc, by simp [hget], fun hn => ?_⟩, rfl, by simp [htables],
      fun i hi => by simp [hget, Ne.symm hi]⟩
    simpa [List.nodup_append, hn] using hfresh

section Classes

/-- What declaring the classes of `ds` in scope `s` did to tables `t`, leaving `t'`: the
classes' symbols are appended to `s`, their scopes opened after all others and recorded, and
nothing else changed but the notes of their nodes. -/
structure ClassesDeclared (u : String) (s : Nat) (ds : List Decl) (t t' : Tables) : Prop where
  size : t'.scopes.tables.size = t.scopes.tables.size + Decl.classCountList ds
  others : ∀ i, i ≠ s → i < t.scopes.tables.size → t'.scopes.tables[i]? = t.scopes.tables[i]?
  here : Appended s (Decl.classSymbols u ds) t t'
  notes : NotesKept (Decl.idsList ds) t t'
  classes : Decl.ClassesAtList t' (Decl.classSymbols u) s t.scopes.tables.size ds

variable {u : String} {s : Nat} {t t₁ t₂ : Tables}

theorem ClassesDeclared.nil (hs : s < t.scopes.tables.size) : ClassesDeclared u s [] t t :=
  ⟨rfl, fun _ _ _ => rfl, Appended.of_eq hs rfl, NotesKept.refl _ _, trivial⟩

/-- Declaring the classes of one declaration, then of the rest. -/
theorem ClassesDeclared.cons {d : Decl} {ds : List Decl} (hs : s < t.scopes.tables.size)
    (hnd : (Decl.idsList (d :: ds)).Nodup) (h₁ : ClassesDeclared u s [d] t t₁)
    (h₂ : ClassesDeclared u s ds t₁ t₂) : ClassesDeclared u s (d :: ds) t t₂ := by
  obtain ⟨-, -, hdisj⟩ := Decl.idsList_cons_nodup hnd
  have hsize₁ : t₁.scopes.tables.size = t.scopes.tables.size + d.classCount := by
    simpa using h₁.size
  refine ⟨?_, fun i hi hlt => ?_, ?_, ?_, ⟨?_, ?_⟩⟩
  · rw [h₂.size, hsize₁, Decl.classCountList]
    omega
  · rw [h₂.others i hi (by omega), h₁.others i hi hlt]
  · rw [Decl.classSymbols_cons]
    exact h₁.here.trans h₂.here
  · exact (h₁.notes.trans h₂.notes).mono fun k hk => by simpa [Decl.idsList] using hk
  · -- the classes of `d` keep their scopes while those of the rest are declared
    refine Decl.ClassesAt.congr d h₁.classes.1 (fun k hk => (h₂.notes k (hdisj k hk)).1)
      fun i h₃ h₄ _ => h₂.others i (by omega) (by omega)
  · rw [← hsize₁]
    exact h₂.classes

mutual

/-- Declaring the classes of a declaration that succeeds does what `ClassesDeclared` says. -/
theorem declareClass_ok (u : String) : ∀ (s : Nat) (d : Decl) {t t' : Tables},
    d.ids.Nodup → s < t.scopes.tables.size → (declareClass u s d).run.run t = (.ok (), t') →
    ClassesDeclared u s [d] t t'
  | s, .cls site name mods ms, t, t', hnd, hs, h => by
    obtain ⟨hsite, hnd'⟩ := Decl.cls_ids_nodup hnd
    unfold declareClass at h
    dsimp only at h
    obtain ⟨_, t₁, h₁, h₂⟩ := M.ok_bind h
    obtain ⟨happ, hnotes₁, hsize₁, hothers₁⟩ := define_ok h₁
    obtain ⟨_, t₂, h₃, h₄⟩ := M.ok_bind h₂
    rw [note_run] at h₃
    cases h₃
    obtain ⟨inner, t₃, h₅, h₆⟩ := M.ok_bind h₄
    rw [newScope_run] at h₅
    cases h₅
    obtain ⟨_, t₄, h₇, h₈⟩ := M.ok_bind h₆
    rw [noteScope_run] at h₇
    cases h₇
    have ih := declareClasses_ok u _ ms hnd' (by simp) h₈
    simp only at ih
    -- the class's scope is the next one, empty below `s`, and recorded at the class's node
    set t₃ : Tables :=
      { scopes := ⟨t₁.scopes.tables.push ⟨some s, []⟩⟩,
        notes := (t₁.notes.setType site.id (.user name [])).setScope site.id
          t₁.scopes.tables.size } with ht₃
    have hold : ∀ i, i < t.scopes.tables.size → t₃.scopes.tables[i]? = t₁.scopes.tables[i]? :=
      fun i hi => by simp [ht₃, Array.getElem?_push, hsize₁, Nat.ne_of_lt hi]
    have hnew : t₃.scopes.tables[t.scopes.tables.size]? = some ⟨some s, []⟩ := by
      rw [← hsize₁]
      simp [ht₃]
    have hsize₃ : t₃.scopes.tables.size = t.scopes.tables.size + 1 := by simp [ht₃, hsize₁]
    rw [hsize₁] at ih
    have hkept : ∀ i, i < t.scopes.tables.size → t'.scopes.tables[i]? = t₁.scopes.tables[i]? :=
      fun i hi => (ih.others i (Nat.ne_of_lt hi) (by omega)).trans (hold i hi)
    refine ⟨?_, fun i hi hlt => ?_, happ.congr (hkept s hs), fun k hk => ?_, ⟨?_, trivial⟩⟩
    · rw [ih.size, hsize₃]
      simp only [Decl.classCountList_single, Decl.classCount]
      omega
    · rw [hkept i hlt, hothers₁ i hi]
    · simp only [Decl.idsList, Decl.ids, List.append_nil, List.mem_cons, List.mem_append,
        not_or] at hk
      obtain ⟨hk₁, -, hk₂⟩ := hk
      rw [(ih.notes k hk₂).1, (ih.notes k hk₂).2, ht₃, Notes.scopeOf?_setScope_of_ne _ _ (Ne.symm hk₁),
        Notes.scopeOf?_setType, Notes.typeOf?_setScope, Notes.typeOf?_setType_of_ne _ _ (Ne.symm hk₁),
        hnotes₁]
      exact ⟨rfl, rfl⟩
    · obtain ⟨hcontents, hnodup⟩ := ih.here.fresh hnew
      refine ⟨?_, hcontents, hnodup, by rw [← hsize₃]; exact ih.classes⟩
      rw [(ih.notes site.id hsite).1, ht₃, Notes.scopeOf?_setScope, hsize₁]
  | _, .func _, t, t', _, hs, h => by
    obtain ⟨-, rfl⟩ := M.ok_pure h
    exact ⟨rfl, fun _ _ _ => rfl, Appended.of_eq hs rfl, NotesKept.refl _ _, ⟨trivial, trivial⟩⟩
  | _, .hashCall _ _, t, t', _, hs, h => by
    obtain ⟨-, rfl⟩ := M.ok_pure h
    exact ⟨rfl, fun _ _ _ => rfl, Appended.of_eq hs rfl, NotesKept.refl _ _, ⟨trivial, trivial⟩⟩

theorem declareClasses_ok (u : String) : ∀ (s : Nat) (ds : List Decl) {t t' : Tables},
    (Decl.idsList ds).Nodup → s < t.scopes.tables.size →
    (declareClasses u s ds).run.run t = (.ok (), t') → ClassesDeclared u s ds t t'
  | s, [], t, t', _, hs, h => by
    obtain ⟨-, rfl⟩ := M.ok_pure h
    exact ClassesDeclared.nil hs
  | s, d :: ds, t, t', hnd, hs, h => by
    obtain ⟨hd, hds, -⟩ := Decl.idsList_cons_nodup hnd
    obtain ⟨_, t₁, h₁, h₂⟩ := M.ok_bind h
    have ih₁ := declareClass_ok u s d hd hs h₁
    have hs₁ : s < t₁.scopes.tables.size := by
      have := ih₁.size
      omega
    exact ClassesDeclared.cons hs hnd ih₁ (declareClasses_ok u s ds hds hs₁ h₂)

end

end Classes

section Members

/-- The notes after recording, in order, the types of parameters as their labels name them. -/
def paramNotes (n : Notes) (ps : List Param) : Notes :=
  ps.foldl (fun n p => n.setType p.site.id p.label.denote) n

theorem paramNotes_append (n : Notes) (ps : List Param) (p : Param) :
    paramNotes n (ps ++ [p]) = (paramNotes n ps).setType p.site.id p.label.denote := by
  simp [paramNotes]

@[simp] theorem scopeOf?_paramNotes (n : Notes) (ps : List Param) (k : Nat) :
    (paramNotes n ps).scopeOf? k = n.scopeOf? k := by
  induction ps generalizing n with
  | nil => rfl
  | cons p ps ih => exact (ih _).trans (Notes.scopeOf?_setType _ _ _ _)

theorem typeOf?_paramNotes_of_not_mem (n : Notes) (ps : List Param) {k : Nat}
    (hk : k ∉ ps.map fun p => p.site.id) : (paramNotes n ps).typeOf? k = n.typeOf? k := by
  induction ps generalizing n with
  | nil => rfl
  | cons p ps ih =>
    simp only [List.map_cons, List.mem_cons, not_or] at hk
    exact (ih _ hk.2).trans (Notes.typeOf?_setType_of_ne _ _ (Ne.symm hk.1))

theorem typeOf?_paramNotes_of_mem (n : Notes) (ps : List Param)
    (hnd : (ps.map fun p => p.site.id).Nodup) {p : Param} (hp : p ∈ ps) :
    (paramNotes n ps).typeOf? p.site.id = some p.label.denote := by
  induction ps generalizing n with
  | nil => cases hp
  | cons q ps ih =>
    rw [List.map_cons, List.nodup_cons] at hnd
    rcases List.mem_cons.1 hp with rfl | hp
    · rw [paramNotes, List.foldl_cons, ← paramNotes, typeOf?_paramNotes_of_not_mem _ _ hnd.1]
      exact Notes.typeOf?_setType _ _ _
    · exact ih _ hnd.2 hp

theorem declareFunc_ok (u : String) (fs s : Nat) (g : FuncDecl) {t t' : Tables}
    (hnd : g.ids.Nodup) (h : (declareFunc u fs s g).run.run t = (.ok (), t')) :
    Appended s [funcSymbol u g] t t' ∧ t'.scopes.tables.size = t.scopes.tables.size ∧
      (∀ i, i ≠ s → t'.scopes.tables[i]? = t.scopes.tables[i]?) ∧
      (∀ k, t'.notes.scopeOf? k = t.notes.scopeOf? k) ∧
      (∀ k ∉ g.ids, t'.notes.typeOf? k = t.notes.typeOf? k) ∧ Decl.Typed t' [.func g] := by
  unfold declareFunc at h
  extract_lets params₀ afterLib libCheck at h
  replace h := (M.ok_check (M.ok_check (M.ok_check (M.ok_check h).2).2).2).2
  have h₁ : (afterLib ()).run.run t = (.ok (), t') := by
    simp only [libCheck] at h
    split at h
    · exact (M.ok_check h).2
    · exact h
  simp -zeta only [afterLib] at h₁
  obtain ⟨ps, t₁, hloop, h₂⟩ := M.ok_bind h₁
  -- the parameters' types are resolved in order and recorded at their nodes
  obtain ⟨hps, rfl⟩ := M.ok_forIn (fun done acc t₂ => acc = done.map (fun p => p.label.denote) ∧
      t₂ = { t with notes := paramNotes t.notes done }) (fun _ => True)
      (fun done p b t₂ t₃ r _ hI hb => by
        obtain ⟨rfl, rfl⟩ := hI
        obtain ⟨pt, t₄, hr, hrest⟩ := M.ok_bind hb
        obtain ⟨rfl, rfl⟩ := resolve_ok s p.label hr
        obtain ⟨_, t₅, hn, hy⟩ := M.ok_bind (M.ok_check hrest).2
        rw [note_run] at hn
        cases hn
        obtain ⟨rfl, rfl⟩ := M.ok_pure hy
        exact ⟨_, rfl, by simp, by simp [paramNotes_append]⟩) g.params [] []
      (fun _ _ => trivial) ⟨rfl, rfl⟩ hloop
  rw [List.nil_append] at hps h₂
  extract_lets ps' afterRet at h₂
  -- the return type is resolved, `Void` when there is no label
  have h₃ : (afterRet ((g.ret.map TypeLabel.denote).getD .void)).run.run
      { t with notes := paramNotes t.notes g.params } = (.ok (), t') := by
    split at h₂
    · rename_i l hl
      obtain ⟨ret, t₂, hr, hk⟩ := M.ok_bind h₂
      obtain ⟨rfl, rfl⟩ := resolve_ok s l hr
      simpa [hl] using hk
    · rename_i hl
      obtain ⟨ret, t₂, hr, hk⟩ := M.ok_bind h₂
      obtain ⟨rfl, rfl⟩ := M.ok_pure hr
      simpa [hl] using hk
  simp -zeta only [afterRet] at h₃
  extract_lets ty sym defineIt retCheck at h₃
  -- the checks of `main` only read, whichever function this is
  have h₄ : (defineIt ()).run.run { t with notes := paramNotes t.notes g.params } =
      (.ok (), t') := by
    split at h₃
    · have h₅ := (M.ok_check h₃).2
      simp only [retCheck] at h₅
      exact (M.ok_check h₅).2
    · exact h₃
  simp only [defineIt] at h₄
  obtain ⟨_, t₂, hdef, hnote⟩ := M.ok_bind h₄
  obtain ⟨happ, hnotes₂, hsize₂, hothers₂⟩ := define_ok hdef
  rw [note_run] at hnote
  cases hnote
  have hty : ty = g.type := by simp [ty, ps', hps, FuncDecl.type]
  have hsym : sym = funcSymbol u g := by simp [sym, hty, funcSymbol]
  rw [hsym] at happ
  obtain ⟨hsite, hpnd⟩ := FuncDecl.params_nodup hnd
  refine ⟨happ, hsize₂, hothers₂, fun k => by simp [hnotes₂], fun k hk => ?_, ?_⟩
  · have hk₁ : g.site.id ≠ k := fun he => hk (he ▸ FuncDecl.site_mem_ids g)
    have hk₂ : k ∉ g.params.map fun p => p.site.id := fun hm => hk (FuncDecl.param_mem_ids hm)
    rw [Notes.typeOf?_setType_of_ne _ _ hk₁, hnotes₂, typeOf?_paramNotes_of_not_mem _ _ hk₂]
  · intro g' hg'
    simp only [Decl.funcsList, Decl.funcs, List.append_nil, List.mem_singleton] at hg'
    subst hg'
    refine ⟨by simp [hty], fun p hp => ?_⟩
    have hne : g'.site.id ≠ p.site.id := fun he => hsite (he ▸ List.mem_map_of_mem hp)
    rw [Notes.typeOf?_setType_of_ne _ _ hne, hnotes₂]
    exact typeOf?_paramNotes_of_mem _ _ hpnd hp

/-- A function declared without error is extern or has a body. -/
theorem declareFunc_body (u : String) (fs s : Nat) (g : FuncDecl) {t t' : Tables}
    (h : (declareFunc u fs s g).run.run t = (.ok (), t')) :
    g.isExtern = true ∨ g.body.isSome = true := by
  unfold declareFunc at h
  extract_lets params₀ afterLib libCheck at h
  -- the fourth check refuses a function that is not extern and has no body
  have hc := (M.ok_check (M.ok_check (M.ok_check (M.ok_check h).2).2).2).1
  cases hx : g.isExtern <;> cases hb : g.body <;> simp_all

/-- What declaring the functions of `ds` in scope `s` did to tables `t`, leaving `t'`, the
scopes of the classes of `ds` being numbered from `n`: the functions' symbols are appended to
`s`, the class scopes receive their members', every function and parameter records its type,
and nothing else changed but the types of the declarations' nodes. -/
structure MembersDeclared (u : String) (s n : Nat) (ds : List Decl) (t t' : Tables) : Prop where
  size : t'.scopes.tables.size = t.scopes.tables.size
  others : ∀ i, i ≠ s → i < n ∨ n + Decl.classCountList ds ≤ i →
    t'.scopes.tables[i]? = t.scopes.tables[i]?
  here : Appended s (Decl.funcSymbols u ds) t t'
  scopes : ∀ k, t'.notes.scopeOf? k = t.notes.scopeOf? k
  types : ∀ k ∉ Decl.idsList ds, t'.notes.typeOf? k = t.notes.typeOf? k
  classes : Decl.ClassesAtList t' (Decl.symbols u) s n ds
  typed : Decl.Typed t' ds
  bodies : ∀ g ∈ Decl.funcsList ds, g.isExtern = true ∨ g.body.isSome = true

variable {u : String} {s n : Nat} {t t₁ t₂ : Tables}

/-- Declaring the functions of one declaration, then of the rest. -/
theorem MembersDeclared.cons {d : Decl} {ds : List Decl} (hsn : s < n)
    (hnd : (Decl.idsList (d :: ds)).Nodup) (h₁ : MembersDeclared u s n [d] t t₁)
    (h₂ : MembersDeclared u s (n + d.classCount) ds t₁ t₂) :
    MembersDeclared u s n (d :: ds) t t₂ := by
  obtain ⟨-, -, hdisj⟩ := Decl.idsList_cons_nodup hnd
  refine ⟨h₂.size.trans h₁.size, fun i hi hi' => ?_, ?_, fun k => (h₂.scopes k).trans (h₁.scopes k),
    fun k hk => ?_, ⟨?_, h₂.classes⟩, ?_, fun g hg => ?_⟩
  · simp only [Decl.classCountList] at hi'
    rw [h₂.others i hi (by omega), h₁.others i hi (by simp only [Decl.classCountList_single]; omega)]
  · rw [Decl.funcSymbols_cons]
    exact h₁.here.trans h₂.here
  · simp only [Decl.idsList, List.mem_append, not_or] at hk
    rw [h₂.types k hk.2, h₁.types k (by simpa [Decl.idsList] using hk.1)]
  · -- the classes of `d` keep their scopes while the rest is declared
    exact Decl.ClassesAt.congr d h₁.classes.1 (fun k _ => h₂.scopes k)
      fun i h₃ h₄ _ => h₂.others i (by omega) (by omega)
  · intro g hg
    simp only [Decl.funcsList, List.mem_append] at hg
    rcases hg with hg | hg
    · refine Decl.Typed.congr h₁.typed (fun k hk => h₂.types k ?_) g (by simpa [Decl.funcsList] using hg)
      exact hdisj k (by simpa [Decl.idsList] using hk)
    · exact h₂.typed g hg
  · simp only [Decl.funcsList, List.mem_append] at hg
    rcases hg with hg | hg
    · exact h₁.bodies g (by simpa [Decl.funcsList] using hg)
    · exact h₂.bodies g hg

mutual

/-- Declaring the functions of a declaration that succeeds does what `MembersDeclared` says. -/
theorem declareMembers_ok (u : String) (fs : Nat) : ∀ (s n : Nat) (d : Decl) {t t' : Tables},
    d.ids.Nodup → s < n → s < t.scopes.tables.size →
    d.ClassesAt t (Decl.classSymbols u) s n →
    (declareMembers u fs s d).run.run t = (.ok (), t') → MembersDeclared u s n [d] t t'
  | s, n, .func g, t, t', hnd, _, _, _, h => by
    obtain ⟨happ, hsize, hothers, hscopes, htypes, htyped⟩ := declareFunc_ok u fs s g hnd h
    refine ⟨hsize, fun i hi _ => hothers i hi, happ, hscopes,
      fun k hk => htypes k (by simpa [Decl.idsList, Decl.ids] using hk), ⟨trivial, trivial⟩, htyped,
      fun g' hg' => ?_⟩
    simp only [Decl.funcsList, Decl.funcs, List.append_nil, List.mem_singleton] at hg'
    subst hg'
    exact declareFunc_body u fs s g' h
  | s, n, .cls site name mods ms, t, t', hnd, hsn, hs, ⟨hsite, hn, hcnd, hms⟩, h => by
    obtain ⟨-, hnd'⟩ := Decl.cls_ids_nodup hnd
    unfold declareMembers at h
    obtain ⟨t₀, t₁, h₁, h₂⟩ := M.ok_bind h
    rw [M.run_get] at h₁
    cases h₁
    -- the members are declared in the scope recorded for the class
    simp only [hsite, Option.getD_some] at h₂
    have hnt : n < t.scopes.tables.size := (Array.getElem?_eq_some_iff.1 hn).1
    have ih := declareMembersList_ok u fs n (n + 1) ms hnd' (by omega) hnt hms h₂
    obtain ⟨hcontents, hnodup⟩ := ih.here.of_some hn
    refine ⟨ih.size, fun i _ hi => ih.others i (by simp [Decl.classCount] at hi; omega)
        (by simp [Decl.classCount] at hi; omega),
      Appended.of_eq hs (ih.others s (by omega) (by omega)), ih.scopes,
      fun k hk => ih.types k (by simp [Decl.idsList, Decl.ids] at hk; exact hk.2.2),
      ⟨⟨(ih.scopes _).trans hsite, hcontents, hnodup hcnd, ih.classes⟩, trivial⟩, ?_,
      by simpa [Decl.funcsList, Decl.funcs] using ih.bodies⟩
    simpa [Decl.Typed, Decl.funcsList, Decl.funcs] using ih.typed
  | s, n, .hashCall _ _, t, t', _, _, hs, _, h => by
    obtain ⟨-, rfl⟩ := M.ok_pure h
    exact ⟨rfl, fun _ _ _ => rfl, Appended.of_eq hs rfl, fun _ => rfl, fun _ _ => rfl,
      ⟨trivial, trivial⟩, by simp [Decl.Typed, Decl.funcsList, Decl.funcs],
      by simp [Decl.funcsList, Decl.funcs]⟩

theorem declareMembersList_ok (u : String) (fs : Nat) :
    ∀ (s n : Nat) (ds : List Decl) {t t' : Tables},
    (Decl.idsList ds).Nodup → s < n → s < t.scopes.tables.size →
    Decl.ClassesAtList t (Decl.classSymbols u) s n ds →
    (declareMembersList u fs s ds).run.run t = (.ok (), t') → MembersDeclared u s n ds t t'
  | s, n, [], t, t', _, _, hs, _, h => by
    obtain ⟨-, rfl⟩ := M.ok_pure h
    exact ⟨rfl, fun _ _ _ => rfl, Appended.of_eq hs rfl, fun _ => rfl, fun _ _ => rfl, trivial,
      by simp [Decl.Typed, Decl.funcsList], by simp [Decl.funcsList]⟩
  | s, n, d :: ds, t, t', hnd, hsn, hs, ⟨hd, hds⟩, h => by
    obtain ⟨hnd₁, hnd₂, -⟩ := Decl.idsList_cons_nodup hnd
    obtain ⟨_, t₁, h₁, h₂⟩ := M.ok_bind h
    have ih₁ := declareMembers_ok u fs s n d hnd₁ hsn hs hd h₁
    -- the classes of the rest keep their scopes while `d` is declared
    have hds₁ : Decl.ClassesAtList t₁ (Decl.classSymbols u) s (n + d.classCount) ds :=
      Decl.ClassesAtList.congr ds hds (fun k _ => ih₁.scopes k)
        fun i h₃ _ _ => ih₁.others i (by omega) (by simp only [Decl.classCountList_single]; omega)
    exact MembersDeclared.cons hsn hnd ih₁
      (declareMembersList_ok u fs s _ ds hnd₂ (by omega) (by rw [ih₁.size]; exact hs) hds₁ h₂)

end

end Members

end Gather

end Abla
