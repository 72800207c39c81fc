import Mathlib
import Abla.Proofs.Typing.Declared

/-!
# The scopes a gathered file builds

Walking the bodies, the third pass of gathering, opens a scope for each function with a body,
below the scope the function is declared in, and defines its parameters there; the function
literals of a body record the scope they stand in and open none of their own. With the first
two passes (`Gather.ClassesDeclared`, `Gather.MembersDeclared`) this gives the whole layout of
a file that gathers (`gather_layout`): the file's scope holds one symbol for each of its
classes and functions, with distinct names; each class's scope, below the scope around it,
holds the same of its members; each function with a body has a scope below the one it is
declared in holding its parameters, with their types; and no other scope is opened or
changed. A file with two declarations of one name in one scope therefore never gathers.
-/

namespace Abla

mutual

/-- The nodes of the function literals in an expression. -/
def Expr.literalIds : Expr → List Nat
  | .ident _ _ | .int _ _ => []
  | .str _ ps => Piece.literalIdsList ps
  | .call _ f as => f.literalIds ++ Expr.literalIdsList as
  | .lambda s b => s.id :: b.literalIds
  | .binary _ _ l r => l.literalIds ++ r.literalIds
  | .exec _ e => e.literalIds

/-- The nodes of the function literals in a list of expressions. -/
def Expr.literalIdsList : List Expr → List Nat
  | [] => []
  | e :: es => e.literalIds ++ Expr.literalIdsList es

/-- The nodes of the function literals in the interpolations of a string literal. -/
def Piece.literalIdsList : List Piece → List Nat
  | [] => []
  | .text _ :: ps => Piece.literalIdsList ps
  | .interp e :: ps => e.literalIds ++ Piece.literalIdsList ps

/-- The nodes of the function literals in a statement. -/
def Stmt.literalIds : Stmt → List Nat
  | .expr _ e => e.literalIds
  | .ret _ none => []
  | .ret _ (some e) => e.literalIds

/-- The nodes of the function literals in a list of statements. -/
def Stmt.literalIdsList : List Stmt → List Nat
  | [] => []
  | st :: sts => st.literalIds ++ Stmt.literalIdsList sts

/-- The nodes of the function literals in a block. -/
def Block.literalIds : Block → List Nat
  | .mk _ sts => Stmt.literalIdsList sts

end

mutual

/-- The function literals of an expression are nodes of it. -/
theorem Expr.literalIds_sub : ∀ (e : Expr) {k : Nat}, k ∈ e.literalIds → k ∈ e.ids
  | .ident _ _, _, h | .int _ _, _, h => by simp [Expr.literalIds] at h
  | .str _ ps, _, h => by simp [Expr.ids, Piece.literalIdsList_sub ps h]
  | .call _ f as, _, h => by
    simp only [Expr.literalIds, List.mem_append] at h
    rcases h with h | h
    · simp [Expr.ids, f.literalIds_sub h]
    · simp [Expr.ids, Expr.literalIdsList_sub as h]
  | .lambda _ b, _, h => by
    simp only [Expr.literalIds, List.mem_cons] at h
    rcases h with h | h
    · simp [Expr.ids, h]
    · simp [Expr.ids, Block.literalIds_sub b h]
  | .binary _ _ l r, _, h => by
    simp only [Expr.literalIds, List.mem_append] at h
    rcases h with h | h
    · simp [Expr.ids, l.literalIds_sub h]
    · simp [Expr.ids, r.literalIds_sub h]
  | .exec _ e, _, h => by simp [Expr.ids, e.literalIds_sub h]

theorem Expr.literalIdsList_sub :
    ∀ (es : List Expr) {k : Nat}, k ∈ Expr.literalIdsList es → k ∈ Expr.idsList es
  | [], _, h => by simp [Expr.literalIdsList] at h
  | e :: es, _, h => by
    simp only [Expr.literalIdsList, List.mem_append] at h
    rcases h with h | h
    · simp [Expr.idsList, e.literalIds_sub h]
    · simp [Expr.idsList, Expr.literalIdsList_sub es h]

theorem Piece.literalIdsList_sub :
    ∀ (ps : List Piece) {k : Nat}, k ∈ Piece.literalIdsList ps → k ∈ Piece.idsList ps
  | [], _, h => by simp [Piece.literalIdsList] at h
  | .text _ :: ps, _, h => by simp [Piece.idsList, Piece.literalIdsList_sub ps h]
  | .interp e :: ps, _, h => by
    simp only [Piece.literalIdsList, List.mem_append] at h
    rcases h with h | h
    · simp [Piece.idsList, e.literalIds_sub h]
    · simp [Piece.idsList, Piece.literalIdsList_sub ps h]

theorem Stmt.literalIds_sub : ∀ (st : Stmt) {k : Nat}, k ∈ st.literalIds → k ∈ st.ids
  | .expr _ e, _, h => by simp [Stmt.ids, e.literalIds_sub h]
  | .ret _ none, _, h => by simp [Stmt.literalIds] at h
  | .ret _ (some e), _, h => by simp [Stmt.ids, e.literalIds_sub h]

theorem Stmt.literalIdsList_sub :
    ∀ (sts : List Stmt) {k : Nat}, k ∈ Stmt.literalIdsList sts → k ∈ Stmt.idsList sts
  | [], _, h => by simp [Stmt.literalIdsList] at h
  | st :: sts, _, h => by
    simp only [Stmt.literalIdsList, List.mem_append] at h
    rcases h with h | h
    · simp [Stmt.idsList, st.literalIds_sub h]
    · simp [Stmt.idsList, Stmt.literalIdsList_sub sts h]

theorem Block.literalIds_sub : ∀ (b : Block) {k : Nat}, k ∈ b.literalIds → k ∈ b.ids
  | .mk _ sts, _, h => by simp [Block.ids, Stmt.literalIdsList_sub sts h]

end

namespace FuncDecl

theorem body_ids_mem {g : FuncDecl} {b : Block} (hb : g.body = some b) {k : Nat}
    (hk : k ∈ Stmt.idsList b.stmts) : k ∈ g.ids := by
  cases b with
  | mk site sts =>
    have hk' : k ∈ Stmt.idsList sts := hk
    simp [FuncDecl.ids, hb, Block.ids, hk']

/-- A function's own node is none of its body's. -/
theorem site_not_mem_body {g : FuncDecl} {b : Block} (hnd : g.ids.Nodup) (hb : g.body = some b) :
    g.site.id ∉ Stmt.idsList b.stmts := by
  intro hk
  rw [FuncDecl.ids, List.nodup_cons] at hnd
  cases b with
  | mk site sts =>
    have hk' : g.site.id ∈ Stmt.idsList sts := hk
    exact hnd.1 (by simp [hb, Block.ids, hk'])

/-- A function with a body records at its node the scope of its body: it hangs below `p`, the
scope the function is declared in, holds the function's parameters with distinct names and the
types their labels name, and every function literal of the body records it. -/
def BodyAt (t : Tables) (u : String) (p : Nat) (g : FuncDecl) : Prop :=
  ∀ b, g.body = some b → ∃ n, t.notes.scopeOf? g.site.id = some n ∧
    t.scopes.tables[n]? = some ⟨some p, g.params.map (Gather.paramSymbol u)⟩ ∧
    (g.params.map Param.name).Nodup ∧ ∀ k ∈ b.literalIds, t.notes.scopeOf? k = some n

end FuncDecl

@[simp] theorem Block.literalIds_eq (b : Block) : b.literalIds = Stmt.literalIdsList b.stmts := by
  cases b
  rfl

namespace Decl

mutual

/-- The bodies of a declaration declared in scope `p` have their scopes: a function with a body
as `FuncDecl.BodyAt` says, the members of a class in the scope the class records, and the
function literals of a top-level call record `p`. -/
def BodiesAt (t : Tables) (u : String) (p : Nat) : Decl → Prop
  | .func g => g.BodyAt t u p
  | .cls site _ _ ms => ∃ n, t.notes.scopeOf? site.id = some n ∧ BodiesAtList t u n ms
  | .hashCall _ e => ∀ k ∈ e.literalIds, t.notes.scopeOf? k = some p

/-- The bodies of a list of declarations declared in scope `p` have their scopes. -/
def BodiesAtList (t : Tables) (u : String) (p : Nat) : List Decl → Prop
  | [] => True
  | d :: ds => d.BodiesAt t u p ∧ BodiesAtList t u p ds

end

mutual

/-- The body scopes of a declaration stay as they are while the notes of its nodes and the
scopes that exist do. -/
theorem BodiesAt.congr {t t' : Tables} {u : String} : ∀ {p : Nat} (d : Decl), d.BodiesAt t u p →
    (∀ k ∈ d.ids, t'.notes.scopeOf? k = t.notes.scopeOf? k) →
    (∀ i < t.scopes.tables.size, t'.scopes.tables[i]? = t.scopes.tables[i]?) → d.BodiesAt t' u p
  | _, .func g, h, hk, hi => fun b hb => by
    obtain ⟨n, hn, htab, hnd, hlit⟩ := h b hb
    refine ⟨n, (hk _ (FuncDecl.site_mem_ids g)).trans hn,
      (hi n (Array.getElem?_eq_some_iff.1 htab).1).trans htab, hnd, fun k hk' => ?_⟩
    have hmem : k ∈ g.ids :=
      FuncDecl.body_ids_mem hb (Stmt.literalIdsList_sub _ (by simpa using hk'))
    exact (hk k hmem).trans (hlit k hk')
  | _, .cls site _ _ ms, ⟨n, hn, hms⟩, hk, hi =>
    ⟨n, (hk site.id (by simp [Decl.ids])).trans hn,
      BodiesAtList.congr ms hms (fun k hk' => hk k (by simp [Decl.ids, hk'])) hi⟩
  | _, .hashCall _ e, h, hk, _ => fun k hk' =>
    (hk k (by simp [Decl.ids, e.literalIds_sub hk'])).trans (h k hk')

theorem BodiesAtList.congr {t t' : Tables} {u : String} :
    ∀ {p : Nat} (ds : List Decl), BodiesAtList t u p ds →
    (∀ k ∈ idsList ds, t'.notes.scopeOf? k = t.notes.scopeOf? k) →
    (∀ i < t.scopes.tables.size, t'.scopes.tables[i]? = t.scopes.tables[i]?) →
    BodiesAtList t' u p ds
  | _, [], _, _, _ => trivial
  | _, d :: ds, ⟨hd, hds⟩, hk, hi =>
    ⟨BodiesAt.congr d hd (fun k hk' => hk k (by simp [idsList, hk'])) hi,
      BodiesAtList.congr ds hds (fun k hk' => hk k (by simp [idsList, hk'])) hi⟩

end

theorem bodyCount_cons (d : Decl) (ds : List Decl) :
    bodyCount (d :: ds) = bodyCount [d] + bodyCount ds := by
  simp [bodyCount, funcsList, List.countP_append]

theorem typed_cons {t : Tables} {d : Decl} {ds : List Decl} :
    Typed t (d :: ds) ↔ Typed t [d] ∧ Typed t ds := by
  simp only [Typed, funcsList, List.append_nil, List.mem_append]
  constructor
  · intro h
    exact ⟨fun g hg => h g (Or.inl hg), fun g hg => h g (Or.inr hg)⟩
  · rintro ⟨h₁, h₂⟩ g (hg | hg)
    · exact h₁ g hg
    · exact h₂ g hg

theorem BodiesAtList.of_mem {t : Tables} {u : String} {p : Nat} :
    ∀ {ds : List Decl}, BodiesAtList t u p ds → ∀ {d : Decl}, d ∈ ds → d.BodiesAt t u p
  | [], _, _, hd => by cases hd
  | _ :: _, ⟨h₁, h₂⟩, _, hd => by
    rcases List.mem_cons.1 hd with rfl | hd
    · exact h₁
    · exact BodiesAtList.of_mem h₂ hd

theorem ClassesAtList.of_mem {t : Tables} {cs : List Decl → List Symbol} {p : Nat} :
    ∀ {n : Nat} {ds : List Decl}, ClassesAtList t cs p n ds → ∀ {d : Decl}, d ∈ ds →
      ∃ m, d.ClassesAt t cs p m
  | _, [], _, _, hd => by cases hd
  | n, _ :: _, ⟨h₁, h₂⟩, _, hd => by
    rcases List.mem_cons.1 hd with rfl | hd
    · exact ⟨n, h₁⟩
    · exact ClassesAtList.of_mem h₂ hd

/-- The name a declaration declares in its scope, for a class or a function. -/
def name? : Decl → Option String
  | .func f => some f.name
  | .cls _ n _ _ => some n
  | .hashCall _ _ => none

/-- The symbols of a list of declarations carry the names it declares, classes first. -/
theorem symbols_names_perm (u : String) (ds : List Decl) :
    ((symbols u ds).map Symbol.name).Perm (ds.filterMap name?) := by
  induction ds with
  | nil => simp [symbols]
  | cons d ds ih =>
    simp only [symbols, List.map_append] at ih
    cases d with
    | func g =>
      -- a function's name comes after the classes'
      have hs : symbols u (.func g :: ds) =
          classSymbols u ds ++ Gather.funcSymbol u g :: funcSymbols u ds := rfl
      have hn : (Decl.func g :: ds).filterMap name? = g.name :: ds.filterMap name? := rfl
      rw [hs, hn, List.map_append, List.map_cons]
      exact List.perm_middle.trans (ih.cons _)
    | cls site n mods ms =>
      have hs : symbols u (.cls site n mods ms :: ds) =
          Gather.classSymbol u site n mods :: (classSymbols u ds ++ funcSymbols u ds) := rfl
      have hn : (Decl.cls site n mods ms :: ds).filterMap name? = n :: ds.filterMap name? := rfl
      rw [hs, hn, List.map_cons, List.map_append]
      exact ih.cons _
    | hashCall site e =>
      have hs : symbols u (.hashCall site e :: ds) = symbols u ds := rfl
      have hn : (Decl.hashCall site e :: ds).filterMap name? = ds.filterMap name? := rfl
      rw [hs, hn, symbols, List.map_append]
      exact ih

/-- A scope would receive two declarations of one name: two classes or functions among the same
declarations, at the top or in a class at any depth, or two parameters of a function with a
body. -/
inductive Clash : List Decl → Prop
  | names {ds : List Decl} : ¬ (ds.filterMap name?).Nodup → Clash ds
  | params {ds : List Decl} {g : FuncDecl} : Decl.func g ∈ ds → g.body.isSome →
      ¬ (g.params.map Param.name).Nodup → Clash ds
  | member {ds : List Decl} {site : Site} {n : String} {mods : List Modifier} {ms : List Decl} :
      Decl.cls site n mods ms ∈ ds → Clash ms → Clash ds

/-- Declarations laid out in their scopes with distinct names have no clash. -/
theorem Clash.absent {u : String} {t : Tables} {ds : List Decl} (hc : Clash ds) :
    ∀ {p n : Nat}, ((symbols u ds).map Symbol.name).Nodup →
      ClassesAtList t (symbols u) p n ds → BodiesAtList t u p ds → False := by
  induction hc with
  | names h =>
    intro p n hnd _ _
    exact h ((symbols_names_perm u _).nodup_iff.1 hnd)
  | params hg hb hp =>
    intro p n _ _ hbodies
    obtain ⟨b, hb'⟩ := Option.isSome_iff_exists.1 hb
    obtain ⟨_, _, _, hpnd, _⟩ := BodiesAtList.of_mem hbodies hg b hb'
    exact hp hpnd
  | member hm _ ih =>
    intro p n _ hclasses hbodies
    -- the class's scope is the one its members are laid out in
    obtain ⟨m, hsite, -, hmnd, hms⟩ := ClassesAtList.of_mem hclasses hm
    obtain ⟨m', hsite', hbs⟩ := BodiesAtList.of_mem hbodies hm
    rw [hsite, Option.some_inj] at hsite'
    subst hsite'
    exact ih hmnd hms hbs

end Decl

namespace Gather

section Walks

variable {α β : Type} {s : Nat} {t t₁ t₂ t' : Tables}

/-- What walking expressions in scope `s` did to tables `t`, leaving `t'`: the function literals
at `ls` record `s`, types change only at `ks`, and the scopes and all other notes stay. -/
structure Walked (s : Nat) (ls ks : List Nat) (t t' : Tables) : Prop where
  scopes : t'.scopes = t.scopes
  literals : ∀ k ∈ ls, t'.notes.scopeOf? k = some s
  others : ∀ k ∉ ls, t'.notes.scopeOf? k = t.notes.scopeOf? k
  types : ∀ k ∉ ks, t'.notes.typeOf? k = t.notes.typeOf? k

theorem Walked.refl (s : Nat) (t : Tables) : Walked s [] [] t t :=
  ⟨rfl, (fun _ h => by cases h), fun _ _ => rfl, fun _ _ => rfl⟩

theorem Walked.trans {l₁ l₂ k₁ k₂ : List Nat} (h₁ : Walked s l₁ k₁ t t₁)
    (h₂ : Walked s l₂ k₂ t₁ t₂) : Walked s (l₁ ++ l₂) (k₁ ++ k₂) t t₂ := by
  refine ⟨h₂.scopes.trans h₁.scopes, fun k hk => ?_, fun k hk => ?_, fun k hk => ?_⟩
  · -- a literal of the second part records `s` there; one of the first only keeps it
    by_cases hk₂ : k ∈ l₂
    · exact h₂.literals k hk₂
    · rw [h₂.others k hk₂]
      exact h₁.literals k ((List.mem_append.1 hk).resolve_right hk₂)
  · rw [List.mem_append, not_or] at hk
    rw [h₂.others k hk.2, h₁.others k hk.1]
  · rw [List.mem_append, not_or] at hk
    rw [h₂.types k hk.2, h₁.types k hk.1]

theorem Walked.mono {ls ls' ks ks' : List Nat} (h : Walked s ls ks t t')
    (hl : ∀ k, k ∈ ls ↔ k ∈ ls') (hk : ∀ k ∈ ks, k ∈ ks') : Walked s ls' ks' t t' :=
  ⟨h.scopes, fun k h' => h.literals k ((hl k).2 h'), fun k h' => h.others k fun h'' => h' ((hl k).1 h''),
    fun k h' => h.types k fun h'' => h' (hk k h'')⟩

/-- A computation whose runs that succeed walk as `Walked s ls ks` says. -/
def Walks (s : Nat) (ls ks : List Nat) (x : M α) : Prop :=
  ∀ t a t', x.run.run t = (.ok a, t') → Walked s ls ks t t'

namespace Walks

variable {ls ks : List Nat} {x : M α}

theorem mono {ls' ks' : List Nat} (h : Walks s ls ks x) (hl : ∀ k, k ∈ ls ↔ k ∈ ls')
    (hk : ∀ k ∈ ks, k ∈ ks') : Walks s ls' ks' x :=
  fun t a t' hx => (h t a t' hx).mono hl hk

theorem pure (a : α) : Walks s [] [] (Pure.pure a : M α) := fun t b t' h => by
  obtain ⟨-, rfl⟩ := M.ok_pure h
  exact Walked.refl s _

theorem throw (e : CompileError) : Walks s ls ks (MonadExcept.throw e : M α) :=
  fun _ _ _ h => absurd h M.ok_throw

theorem bind {f : α → M β} {l₂ k₂ : List Nat} (hx : Walks s ls ks x)
    (hf : ∀ a, Walks s l₂ k₂ (f a)) : Walks s (ls ++ l₂) (ks ++ k₂) (x >>= f) := fun t b t' h => by
  obtain ⟨a, t₁, h₁, h₂⟩ := M.ok_bind h
  exact (hx t a t₁ h₁).trans (hf a t₁ b t' h₂)

/-- A computation that only reads, followed by one that walks. -/
theorem read_bind {f : α → M β} {l₂ k₂ : List Nat} (hx : Walks s [] [] x)
    (hf : ∀ a, Walks s l₂ k₂ (f a)) : Walks s l₂ k₂ (x >>= f) :=
  (bind hx hf).mono (by simp) (by simp)

/-- A check: what follows runs only when it does not hold. -/
theorem check {c : Prop} [Decidable c] {sp : Span} {msg : String} {f : Unit → M β} {y : M β}
    (hy : ¬c → Walks s ls ks y) : Walks s ls ks (if c then typeError sp msg >>= f else y) :=
  fun t b t' h => by
    obtain ⟨hc, h'⟩ := M.ok_check h
    exact hy hc t b t' h'

theorem lookup (sc : Nat) (n : String) : Walks s [] [] (Gather.lookup sc n) := fun t a t' h => by
  rw [lookup_run] at h
  cases h
  exact Walked.refl s t

theorem typeOf? (k : Nat) : Walks s [] [] (Gather.typeOf? k) := fun t a t' h => by
  rw [typeOf?_run] at h
  cases h
  exact Walked.refl s t

theorem note (k : Nat) (ty : DataType) : Walks s [] [k] (Gather.note k ty) := fun t a t' h => by
  rw [note_run] at h
  cases h
  exact ⟨rfl, (fun _ h => by cases h), fun _ _ => rfl,
    fun j hj => Notes.typeOf?_setType_of_ne _ _ fun he => hj (List.mem_singleton.2 he.symm)⟩

theorem noteScope (k : Nat) : Walks s [k] [] (Gather.noteScope k s) := fun t a t' h => by
  rw [noteScope_run] at h
  cases h
  refine ⟨rfl, fun j hj => ?_, fun j hj => ?_, fun _ _ => rfl⟩
  · rw [List.mem_singleton.1 hj]
    exact Notes.scopeOf?_setScope _ _ _
  · exact Notes.scopeOf?_setScope_of_ne _ _ fun he => hj (List.mem_singleton.2 he.symm)

end Walks

end Walks

section Expressions

mutual

/-- Walking an expression in scope `s` records `s` at its function literals and types at its
nodes, and changes nothing else. -/
theorem walkExpr_walks (s : Nat) (e : Expr) : Walks s e.literalIds e.ids (walkExpr s e) := by
  rw [walkExpr]
  refine (Walks.bind (exprType_walks s e) fun dt => (?_ : Walks s [] [e.site.id] _)).mono
    (by simp) (fun k hk => ?_)
  · split
    · exact (Walks.bind (Walks.note _ _) fun _ => Walks.pure _).mono (by simp) (by simp)
    · exact (Walks.pure _).mono (by simp) (by simp)
  · rcases List.mem_append.1 hk with hk | hk
    · exact hk
    · rw [List.mem_singleton.1 hk]
      cases e <;> simp [Expr.site, Expr.ids]
termination_by (sizeOf e, 1)

theorem exprType_walks (s : Nat) (e : Expr) : Walks s e.literalIds e.ids (exprType s e) := by
  match e with
  | .ident _ n =>
    rw [exprType]
    refine (Walks.read_bind (Walks.lookup s n) fun sym => (?_ : Walks s [] [] _)).mono
      (by simp [Expr.literalIds]) (by simp)
    split <;> exact Walks.pure _
  | .int _ _ =>
    rw [exprType]
    exact (Walks.pure _).mono (by simp [Expr.literalIds]) (by simp)
  | .str _ ps =>
    rw [exprType]
    exact (Walks.bind (walkPieces_walks s ps) fun _ => Walks.pure _).mono
      (by simp [Expr.literalIds]) (by simp +contextual [Expr.ids])
  | .call site fn args =>
    rw [exprType]
    refine (Walks.bind (walkExpr_walks s fn) fun ft =>
      Walks.bind (walkArgs_walks s args) fun _ => (?_ : Walks s [] [] _)).mono
      (by simp [Expr.literalIds]) (by simp +contextual [Expr.ids])
    split
    · split
      · exact Walks.throw _
      · exact Walks.pure _
    · exact Walks.pure _
  | .lambda site body =>
    rw [exprType]
    exact walkLambda_walks s site body
  | .binary site op l r =>
    rw [exprType]
    refine (Walks.bind (walkExpr_walks s l) fun lt =>
      Walks.bind (walkExpr_walks s r) fun rt => (?_ : Walks s [] [] _)).mono
      (by simp [Expr.literalIds]) (by simp +contextual [Expr.ids])
    extract_lets doneEq needInt doneOp checks
    -- what follows the operands only checks their types
    have hneed : ∀ t, Walks s [] [] (needInt t) := fun _ => by
      simp -zeta only [needInt]
      split
      · exact Walks.pure _
      · exact Walks.throw _
    have hchecks : ∀ r, Walks s [] [] (checks r) := fun _ => by
      simp -zeta only [checks]
      split
      · split
        · exact Walks.check fun _ => Walks.pure _
        · exact Walks.pure _
      · split
        · split
          · split
            · exact Walks.read_bind (hneed _) fun _ => Walks.pure _
            · exact Walks.pure _
          · exact Walks.read_bind (hneed _) fun _ => Walks.pure _
        · exact Walks.read_bind (hneed _) fun _ => Walks.pure _
        · exact Walks.pure _
    split
    · exact Walks.check fun _ => hchecks ()
    · exact hchecks ()
  | .exec _ inner =>
    rw [exprType]
    exact (Walks.bind (walkExpr_walks s inner) fun _ => Walks.pure _).mono
      (by simp [Expr.literalIds]) (by simp +contextual [Expr.ids])
termination_by (sizeOf e, 0)

theorem walkPieces_walks (s : Nat) (ps : List Piece) :
    Walks s (Piece.literalIdsList ps) (Piece.idsList ps) (walkPieces s ps) := by
  match ps with
  | [] =>
    rw [walkPieces]
    exact Walks.pure _
  | .text _ :: ps =>
    rw [walkPieces]
    exact walkPieces_walks s ps
  | .interp e :: ps =>
    rw [walkPieces]
    exact Walks.bind (walkExpr_walks s e) fun _ => walkPieces_walks s ps
termination_by (sizeOf ps, 0)

theorem walkArgs_walks (s : Nat) (as : List Expr) :
    Walks s (Expr.literalIdsList as) (Expr.idsList as) (walkArgs s as) := by
  match as with
  | [] =>
    rw [walkArgs]
    exact Walks.pure _
  | a :: as =>
    rw [walkArgs]
    exact Walks.bind (walkExpr_walks s a) fun _ => walkArgs_walks s as
termination_by (sizeOf as, 0)

theorem walkLambda_walks (s : Nat) (site : Site) (b : Block) :
    Walks s (Expr.lambda site b).literalIds (Expr.lambda site b).ids (walkLambda s site b) := by
  match b with
  | .mk _ stmts =>
    rw [walkLambda]
    refine (Walks.bind (Walks.noteScope site.id) fun _ =>
      Walks.bind (walkLambdaStmts_walks s _ stmts) fun rt => (?_ : Walks s [] [] _)).mono
      (by simp [Expr.literalIds, Block.literalIds]) (by simp +contextual [Expr.ids, Block.ids])
    split <;> exact Walks.pure _
termination_by (sizeOf b, 0)

theorem walkLambdaStmts_walks (s : Nat) (rt : Option DataType) (sts : List Stmt) :
    Walks s (Stmt.literalIdsList sts) (Stmt.idsList sts) (walkLambdaStmts s rt sts) := by
  match sts with
  | [] =>
    rw [walkLambdaStmts]
    exact Walks.pure _
  | .expr _ e :: rest =>
    rw [walkLambdaStmts]
    exact (Walks.bind (walkExpr_walks s e) fun _ => walkLambdaStmts_walks s _ rest).mono
      (by simp [Stmt.literalIdsList, Stmt.literalIds]) (by simp +contextual [Stmt.idsList, Stmt.ids])
  | .ret site v :: rest =>
    rw [walkLambdaStmts]
    refine (Walks.bind (walkReturn_walks s none site v) fun _ =>
      (?_ : Walks s (Stmt.literalIdsList rest) (Stmt.idsList rest) _)).mono ?_ ?_
    · extract_lets next
      -- the statements after the return are walked, with the return's type if it was the last
      have hnext : ∀ last, Walks s (Stmt.literalIdsList rest) (Stmt.idsList rest) (next last) :=
        fun _ => by
          simp -zeta only [next]
          exact walkLambdaStmts_walks s _ rest
      split
      · exact Walks.read_bind (Walks.pure _) hnext
      · exact Walks.read_bind (Walks.typeOf? _) hnext
    · cases v <;> simp [Stmt.literalIdsList, Stmt.literalIds]
    · cases v <;> simp +contextual [Stmt.idsList, Stmt.ids]
termination_by (sizeOf sts, 0)

theorem walkReturn_walks (s : Nat) (enclosing : Option DataType) (site : Site) (v : Option Expr) :
    Walks s ((v.map Expr.literalIds).getD []) ((v.map Expr.ids).getD [])
      (walkReturn s enclosing site v) := by
  match v with
  | none =>
    unfold walkReturn
    split
    · split
      · exact Walks.pure _
      · exact Walks.throw _
    · exact Walks.pure _
  | some e =>
    unfold walkReturn
    refine (Walks.bind (walkExpr_walks s e) fun vt => (?_ : Walks s [] [] _)).mono (by simp) (by simp)
    split
    · exact Walks.pure _
    · split
      · exact Walks.throw _
      · split
        · split
          · exact Walks.throw _
          · exact Walks.pure _
        · exact Walks.pure _
termination_by (sizeOf v, 2)

end

/-- Walking the statements of a body in scope `s` records `s` at their function literals and
types at their nodes, and changes nothing else. -/
theorem walkBody_walks (s : Nat) (rt : DataType) :
    ∀ sts : List Stmt, Walks s (Stmt.literalIdsList sts) (Stmt.idsList sts) (walkBody s rt sts)
  | [] => Walks.pure _
  | .expr _ e :: rest =>
    (Walks.bind (walkExpr_walks s e) fun _ => walkBody_walks s rt rest).mono
      (by simp [Stmt.literalIdsList, Stmt.literalIds]) (by simp +contextual [Stmt.idsList, Stmt.ids])
  | .ret site v :: rest =>
    (Walks.bind (walkReturn_walks s (some rt) site v) fun _ => walkBody_walks s rt rest).mono
      (by cases v <;> simp [Stmt.literalIdsList, Stmt.literalIds])
      (by cases v <;> simp +contextual [Stmt.idsList, Stmt.ids])

end Expressions

section Bodies

/-- Walking a function with a body opens the scope of its body after all others, and records
it; nothing else changes but the notes of the function's nodes. -/
theorem walkFunc_ok (u : String) (s : Nat) (g : FuncDecl) {t t' : Tables} (hnd : g.ids.Nodup)
    (htyped : Decl.Typed t [.func g]) (h : (walkFunc u s g).run.run t = (.ok (), t')) :
    t'.scopes.tables.size = t.scopes.tables.size + Decl.bodyCount [.func g] ∧
      (∀ i < t.scopes.tables.size, t'.scopes.tables[i]? = t.scopes.tables[i]?) ∧
      NotesKept g.ids t t' ∧ g.BodyAt t' u s ∧
      t'.notes.typeOf? g.site.id = t.notes.typeOf? g.site.id := by
  unfold walkFunc at h
  split at h
  · rename_i hb
    obtain ⟨-, rfl⟩ := M.ok_pure h
    exact ⟨by simp [Decl.bodyCount, Decl.funcsList, Decl.funcs, hb], fun _ _ => rfl,
      NotesKept.refl _ _, fun b hb' => by simp [hb] at hb', rfl⟩
  · rename_i body hb
    obtain ⟨inner, t₁, h₁, h₂⟩ := M.ok_bind h
    rw [newScope_run] at h₁
    obtain ⟨hinner, ht₁⟩ := Prod.mk.inj h₁
    cases hinner
    obtain ⟨_, t₂, h₃, h₄⟩ := M.ok_bind h₂
    rw [noteScope_run] at h₃
    have ht₂ := (Prod.mk.inj h₃).2
    -- the body's scope is the next one, empty below `s`, and recorded at the function's node
    have hsize₂ : t₂.scopes.tables.size = t.scopes.tables.size + 1 := by
      rw [← ht₂, ← ht₁]
      simp
    have hnew₂ : t₂.scopes.tables[t.scopes.tables.size]? = some ⟨some s, []⟩ := by
      rw [← ht₂, ← ht₁]
      simp
    have hold₂ : ∀ i < t.scopes.tables.size, t₂.scopes.tables[i]? = t.scopes.tables[i]? :=
      fun i hi => by
        rw [← ht₂, ← ht₁]
        simp [Array.getElem?_push, Nat.ne_of_lt hi]
    have hsite₂ : t₂.notes.scopeOf? g.site.id = some t.scopes.tables.size := by
      rw [← ht₂]
      exact Notes.scopeOf?_setScope _ _ _
    have hscope₂ : ∀ k, k ≠ g.site.id → t₂.notes.scopeOf? k = t.notes.scopeOf? k := fun k hk => by
      rw [← ht₂, ← ht₁]
      exact Notes.scopeOf?_setScope_of_ne _ _ (Ne.symm hk)
    have htype₂ : ∀ k, t₂.notes.typeOf? k = t.notes.typeOf? k := fun k => by
      rw [← ht₂, ← ht₁]
      rfl
    obtain ⟨_, t₃, hloop, h₅⟩ := M.ok_bind h₄
    -- the parameters are defined in turn, with the types the functions' pass recorded
    obtain ⟨hn₃, hsize₃, hold₃, happ₃⟩ := M.ok_forIn
      (fun done _ t₃ => t₃.notes = t₂.notes ∧ t₃.scopes.tables.size = t₂.scopes.tables.size ∧
        (∀ i, i ≠ t.scopes.tables.size → t₃.scopes.tables[i]? = t₂.scopes.tables[i]?) ∧
        Appended t.scopes.tables.size (done.map (paramSymbol u)) t₂ t₃) (· ∈ g.params)
      (fun done p _ t₃ t₄ r hp hI hb => by
        obtain ⟨hn, hsz, ho, happ⟩ := hI
        obtain ⟨pt, t₅, hr, hrest⟩ := M.ok_bind hb
        rw [typeOf?_run] at hr
        cases hr
        obtain ⟨_, t₆, hdef, hy⟩ := M.ok_bind hrest
        obtain ⟨happ', hn', hsz', ho'⟩ := define_ok hdef
        obtain ⟨rfl, rfl⟩ := M.ok_pure hy
        have hpt : t₃.notes.typeOf? p.site.id = some p.label.denote := by
          rw [hn, htype₂]
          exact (htyped g (by simp [Decl.funcsList, Decl.funcs])).2 p hp
        refine ⟨_, rfl, hn'.trans hn, hsz'.trans hsz, fun i hi => (ho' i hi).trans (ho i hi), ?_⟩
        rw [List.map_append]
        refine happ.trans ?_
        simpa [hpt, paramSymbol] using happ')
      g.params [] () (fun _ hp => hp)
      ⟨rfl, rfl, fun _ _ => rfl, Appended.of_eq (by omega) rfl⟩ hloop
    rw [List.nil_append] at happ₃
    obtain ⟨ty, t₄, hty, h₆⟩ := M.ok_bind h₅
    rw [typeOf?_run] at hty
    cases hty
    obtain ⟨_, t₅, hbody, h₇⟩ := M.ok_bind h₆
    have hw₁ := walkBody_walks _ _ _ _ _ _ hbody
    -- the check of a final expression only reads
    have hw₂ : Walked t.scopes.tables.size [] [] t₅ t' := by
      refine (?_ : Walks t.scopes.tables.size [] [] _) t₅ () t' h₇
      -- whatever the declared return type
      split
      all_goals
        split
        · split
          · refine Walks.read_bind (Walks.typeOf? _) fun dt => ?_
            split
            · split
              · exact Walks.throw _
              · exact Walks.pure _
            · exact Walks.pure _
          · exact Walks.pure _
        · exact Walks.pure _
    have hsite : g.site.id ∉ Stmt.literalIdsList body.stmts := fun hk =>
      FuncDecl.site_not_mem_body hnd hb (Stmt.literalIdsList_sub _ hk)
    have hscopes : t'.scopes = t₃.scopes := hw₂.scopes.trans hw₁.scopes
    obtain ⟨hcontents, hnodup⟩ := happ₃.fresh hnew₂
    refine ⟨?_, fun i hi => ?_, fun k hk => ?_, fun b hb' => ?_, ?_⟩
    · rw [hscopes, hsize₃, hsize₂]
      simp [Decl.bodyCount, Decl.funcsList, Decl.funcs, hb]
    · rw [hscopes, hold₃ i (Nat.ne_of_lt hi), hold₂ i hi]
    · -- outside the function's nodes nothing was recorded
      have hk₁ : k ≠ g.site.id := fun he => hk (he ▸ FuncDecl.site_mem_ids g)
      have hk₂ : k ∉ Stmt.idsList body.stmts := fun hm => hk (FuncDecl.body_ids_mem hb hm)
      have hk₃ : k ∉ Stmt.literalIdsList body.stmts := fun hm => hk₂ (Stmt.literalIdsList_sub _ hm)
      refine ⟨?_, ?_⟩
      · rw [hw₂.others k (by simp), hw₁.others k hk₃, hn₃, hscope₂ k hk₁]
      · rw [hw₂.types k (by simp), hw₁.types k hk₂, hn₃, htype₂]
    · rw [hb, Option.some_inj] at hb'
      subst hb'
      refine ⟨t.scopes.tables.size, ?_, by rw [hscopes]; exact hcontents, ?_, fun k hk => ?_⟩
      · rw [hw₂.others _ (by simp), hw₁.others _ hsite, hn₃, hsite₂]
      · simpa [List.map_map, Function.comp_def, paramSymbol] using hnodup
      · rw [hw₂.others k (by simp)]
        exact hw₁.literals k (by simpa using hk)
    · -- the function's own type is none of its body's
      rw [hw₂.types _ (by simp), hw₁.types _ (FuncDecl.site_not_mem_body hnd hb), hn₃, htype₂]

/-- What walking the bodies of `ds` in scope `s` did to tables `t`, leaving `t'`: the scopes of
their functions with bodies are opened after all others and recorded, and nothing else changed
but the notes of the declarations' nodes. -/
structure BodiesWalked (u : String) (s : Nat) (ds : List Decl) (t t' : Tables) : Prop where
  size : t'.scopes.tables.size = t.scopes.tables.size + Decl.bodyCount ds
  kept : ∀ i < t.scopes.tables.size, t'.scopes.tables[i]? = t.scopes.tables[i]?
  notes : NotesKept (Decl.idsList ds) t t'
  bodies : Decl.BodiesAtList t' u s ds
  sites : ∀ g ∈ Decl.funcsList ds, t'.notes.typeOf? g.site.id = t.notes.typeOf? g.site.id

/-- Walking the bodies of one declaration, then of the rest. -/
theorem BodiesWalked.cons {u : String} {s : Nat} {d : Decl} {ds : List Decl} {t t₁ t₂ : Tables}
    (hnd : (Decl.idsList (d :: ds)).Nodup) (h₁ : BodiesWalked u s [d] t t₁)
    (h₂ : BodiesWalked u s ds t₁ t₂) : BodiesWalked u s (d :: ds) t t₂ := by
  obtain ⟨-, -, hdisj⟩ := Decl.idsList_cons_nodup hnd
  refine ⟨by rw [h₂.size, h₁.size, Decl.bodyCount_cons d ds]; omega, fun i hi => ?_,
    (h₁.notes.trans h₂.notes).mono fun k hk => by simpa [Decl.idsList] using hk, ⟨?_, h₂.bodies⟩,
    fun g hg => ?_⟩
  · rw [h₂.kept i (by rw [h₁.size]; omega), h₁.kept i hi]
  · -- the bodies of `d` keep their scopes while those of the rest are walked
    exact Decl.BodiesAt.congr d h₁.bodies.1 (fun k hk => (h₂.notes k (hdisj k hk)).1) h₂.kept
  · simp only [Decl.funcsList, List.mem_append] at hg
    rcases hg with hg | hg
    · have hsite := Decl.funcs_site_mem d hg
      rw [(h₂.notes _ (hdisj _ hsite)).2, h₁.sites g (by simpa [Decl.funcsList] using hg)]
    · have hsite : g.site.id ∉ Decl.idsList [d] := fun hm =>
        hdisj _ (by simpa [Decl.idsList] using hm) (Decl.funcsList_site_mem ds hg)
      rw [h₂.sites g hg, (h₁.notes _ hsite).2]

mutual

/-- Walking the bodies of a declaration that succeeds does what `BodiesWalked` says, and keeps
its class scopes. -/
theorem walkDecl_ok (u : String) :
    ∀ (s n : Nat) (d : Decl) {cs : List Decl → List Symbol} {t t' : Tables},
    d.ids.Nodup → d.ClassesAt t cs s n → Decl.Typed t [d] →
    (walkDecl u s d).run.run t = (.ok (), t') → BodiesWalked u s [d] t t' ∧ d.ClassesAt t' cs s n
  | s, n, .func g, cs, t, t', hnd, _, htyped, h => by
    obtain ⟨hsize, hkept, hnotes, hbody, hsite⟩ := walkFunc_ok u s g hnd htyped h
    refine ⟨⟨hsize, hkept, hnotes.mono fun k hk => by simpa [Decl.idsList, Decl.ids] using hk,
      ⟨hbody, trivial⟩, fun g' hg' => ?_⟩, trivial⟩
    simp only [Decl.funcsList, Decl.funcs, List.append_nil, List.mem_singleton] at hg'
    subst hg'
    exact hsite
  | s, n, .cls site name mods ms, cs, t, t', hnd, ⟨hsite, hn, hcnd, hms⟩, htyped, h => by
    obtain ⟨hsite', hnd'⟩ := Decl.cls_ids_nodup hnd
    unfold walkDecl at h
    obtain ⟨t₀, t₁, h₁, h₂⟩ := M.ok_bind h
    rw [M.run_get] at h₁
    cases h₁
    -- the members are walked in the scope recorded for the class
    simp only [hsite, Option.getD_some] at h₂
    have htyped' : Decl.Typed t ms := by
      simpa [Decl.Typed, Decl.funcsList, Decl.funcs] using htyped
    obtain ⟨ih, hms'⟩ := walkDecls_ok u n (n + 1) ms hnd' hms htyped' h₂
    have hsite₁ : t'.notes.scopeOf? site.id = some n := (ih.notes site.id hsite').1.trans hsite
    refine ⟨⟨?_, ih.kept, ih.notes.mono fun k hk => by simp [Decl.idsList, Decl.ids, hk],
      ⟨⟨n, hsite₁, ih.bodies⟩, trivial⟩, by simpa [Decl.funcsList, Decl.funcs] using ih.sites⟩,
      ⟨hsite₁, (ih.kept n (Array.getElem?_eq_some_iff.1 hn).1).trans hn, hcnd, hms'⟩⟩
    rw [ih.size]
    simp [Decl.bodyCount, Decl.funcsList, Decl.funcs]
  | s, n, .hashCall site call, cs, t, t', _, _, _, h => by
    unfold walkDecl at h
    obtain ⟨_, t₁, h₁, h₂⟩ := M.ok_bind h
    obtain ⟨-, rfl⟩ := M.ok_pure h₂
    have hw := walkExpr_walks s call t _ _ h₁
    refine ⟨⟨by simp [hw.scopes, Decl.bodyCount, Decl.funcsList, Decl.funcs],
      fun i _ => by rw [hw.scopes], fun k hk => ?_, ⟨hw.literals, trivial⟩,
      by simp [Decl.funcsList, Decl.funcs]⟩, trivial⟩
    have hk' : k ∉ call.ids := fun hm => hk (by simp [Decl.idsList, Decl.ids, hm])
    exact ⟨hw.others k fun hm => hk' (call.literalIds_sub hm), hw.types k hk'⟩

theorem walkDecls_ok (u : String) :
    ∀ (s n : Nat) (ds : List Decl) {cs : List Decl → List Symbol} {t t' : Tables},
    (Decl.idsList ds).Nodup → Decl.ClassesAtList t cs s n ds → Decl.Typed t ds →
    (walkDecls u s ds).run.run t = (.ok (), t') →
    BodiesWalked u s ds t t' ∧ Decl.ClassesAtList t' cs s n ds
  | s, n, [], cs, t, t', _, _, _, h => by
    obtain ⟨-, rfl⟩ := M.ok_pure h
    exact ⟨⟨rfl, fun _ _ => rfl, NotesKept.refl _ _, trivial, by simp [Decl.funcsList]⟩, trivial⟩
  | s, n, d :: ds, cs, t, t', hnd, ⟨hd, hds⟩, htyped, h => by
    obtain ⟨hnd₁, hnd₂, hdisj⟩ := Decl.idsList_cons_nodup hnd
    obtain ⟨htyped₁, htyped₂⟩ := Decl.typed_cons.1 htyped
    obtain ⟨_, t₁, h₁, h₂⟩ := M.ok_bind h
    obtain ⟨ih₁, hd₁⟩ := walkDecl_ok u s n d hnd₁ hd htyped₁ h₁
    -- the rest keeps its class scopes and its types while `d` is walked
    have hout : ∀ k ∈ Decl.idsList ds, k ∉ Decl.idsList [d] := fun k hk hm =>
      hdisj k (by simpa [Decl.idsList] using hm) hk
    have hds₁ : Decl.ClassesAtList t₁ cs s (n + d.classCount) ds :=
      Decl.ClassesAtList.congr ds hds (fun k hk => (ih₁.notes k (hout k hk)).1)
        fun i _ _ hi => ih₁.kept i hi
    obtain ⟨ih₂, hds₂⟩ := walkDecls_ok u s _ ds hnd₂ hds₁
      (Decl.Typed.congr htyped₂ fun k hk => (ih₁.notes k (hout k hk)).2) h₂
    exact ⟨BodiesWalked.cons hnd ih₁ ih₂,
      Decl.ClassesAt.congr d hd₁ (fun k hk => (ih₂.notes k (hdisj k hk)).1)
        (fun i _ _ hi => ih₂.kept i hi), hds₂⟩

end

end Bodies

section File

/-- The scopes a file `f` gathered from tables `t` into tables `t'` lays out: its own scope, the
next one, holds its classes and functions with distinct names, the scopes of its classes and
bodies follow as `Decl.ClassesAtList` and `Decl.BodiesAtList` say, there are no others, and the
scopes that were there stay. -/
structure LaidOut (f : SourceFile) (t t' : Tables) : Prop where
  fileScope : t'.notes.scopeOf? f.site.id = some t.scopes.tables.size
  fileSymbols : t'.scopes.tables[t.scopes.tables.size]? = some ⟨none, Decl.symbols f.name f.decls⟩
  distinct : ((Decl.symbols f.name f.decls).map Symbol.name).Nodup
  classes : Decl.ClassesAtList t' (Decl.symbols f.name) t.scopes.tables.size
    (t.scopes.tables.size + 1) f.decls
  bodies : Decl.BodiesAtList t' f.name t.scopes.tables.size f.decls
  size : t'.scopes.tables.size =
    t.scopes.tables.size + 1 + Decl.classCountList f.decls + Decl.bodyCount f.decls
  kept : ∀ i < t.scopes.tables.size, t'.scopes.tables[i]? = t.scopes.tables[i]?

/-- The passes of a file that gathers from tables `t`: its scope is opened after all others and
recorded at its node (`t₂`), then its classes are declared (`t₃`), its functions (`t₄`), and
its bodies walked (`t'`). -/
theorem gather_passes (f : SourceFile) {t t' : Tables} (hnd : f.ids.Nodup)
    (h : f.gather.run.run t = (.ok (), t')) :
    ∃ t₂ t₃ t₄ : Tables, t₂.scopes.tables.size = t.scopes.tables.size + 1 ∧
      t₂.scopes.tables[t.scopes.tables.size]? = some ⟨none, []⟩ ∧
      (∀ i < t.scopes.tables.size, t₂.scopes.tables[i]? = t.scopes.tables[i]?) ∧
      t₂.notes.scopeOf? f.site.id = some t.scopes.tables.size ∧
      ClassesDeclared f.name t.scopes.tables.size f.decls t₂ t₃ ∧
      MembersDeclared f.name t.scopes.tables.size (t.scopes.tables.size + 1) f.decls t₃ t₄ ∧
      BodiesWalked f.name t.scopes.tables.size f.decls t₄ t' ∧
      Decl.ClassesAtList t' (Decl.symbols f.name) t.scopes.tables.size
        (t.scopes.tables.size + 1) f.decls := by
  obtain ⟨-, hdecls⟩ := List.nodup_cons.1 hnd
  unfold SourceFile.gather at h
  replace h := M.ok_tryCatch (fun _ _ _ _ => M.ok_throw) h
  obtain ⟨fs, t₁, h₁, h₂⟩ := M.ok_bind h
  rw [newScope_run] at h₁
  obtain ⟨hfs, ht₁⟩ := Prod.mk.inj h₁
  cases hfs
  obtain ⟨_, t₂, h₃, h₄⟩ := M.ok_bind h₂
  rw [noteScope_run] at h₃
  have ht₂ := (Prod.mk.inj h₃).2
  -- the file's scope is the next one, empty and without parent, recorded at the file's node
  have hsize₂ : t₂.scopes.tables.size = t.scopes.tables.size + 1 := by
    rw [← ht₂, ← ht₁]
    simp
  have hnew₂ : t₂.scopes.tables[t.scopes.tables.size]? = some ⟨none, []⟩ := by
    rw [← ht₂, ← ht₁]
    simp
  have hold₂ : ∀ i < t.scopes.tables.size, t₂.scopes.tables[i]? = t.scopes.tables[i]? :=
    fun i hi => by
      rw [← ht₂, ← ht₁]
      simp [Array.getElem?_push, Nat.ne_of_lt hi]
  have hsite₂ : t₂.notes.scopeOf? f.site.id = some t.scopes.tables.size := by
    rw [← ht₂]
    exact Notes.scopeOf?_setScope _ _ _
  obtain ⟨_, t₃, h₅, h₆⟩ := M.ok_bind h₄
  have hc := declareClasses_ok f.name _ f.decls hdecls (by omega) h₅
  have hcl := hc.classes
  rw [hsize₂] at hcl
  obtain ⟨_, t₄, h₇, h₈⟩ := M.ok_bind h₆
  have hm := declareMembersList_ok f.name _ _ _ f.decls hdecls (Nat.lt_succ_self _)
    (by rw [hc.size]; omega) hcl h₇
  obtain ⟨hb, hclasses⟩ := walkDecls_ok f.name _ _ f.decls hdecls hm.classes hm.typed h₈
  exact ⟨t₂, t₃, t₄, hsize₂, hnew₂, hold₂, hsite₂, hc, hm, hb, hclasses⟩

/-- A file that gathers lays out its scopes. -/
theorem gather_ok (f : SourceFile) {t t' : Tables} (hnd : f.ids.Nodup)
    (h : f.gather.run.run t = (.ok (), t')) : LaidOut f t t' := by
  obtain ⟨hfile, -⟩ := List.nodup_cons.1 hnd
  obtain ⟨t₂, t₃, t₄, hsize₂, hnew₂, hold₂, hsite₂, hc, hm, hb, hclasses⟩ := gather_passes f hnd h
  -- what the functions' pass appended follows what the classes' pass appended
  obtain ⟨hclassSyms, hcnd⟩ := hc.here.fresh hnew₂
  obtain ⟨hsyms, hsnd⟩ := hm.here.of_some hclassSyms
  have hfs₄ : t.scopes.tables.size < t₄.scopes.tables.size := by
    rw [hm.size, hc.size]
    omega
  refine ⟨?_, (hb.kept _ hfs₄).trans hsyms, hsnd hcnd, hclasses, hb.bodies, ?_, fun i hi => ?_⟩
  · rw [(hb.notes _ hfile).1, hm.scopes, (hc.notes _ hfile).1, hsite₂]
  · rw [hb.size, hm.size, hc.size]
    omega
  · rw [hb.kept i (by omega), hm.others i (Nat.ne_of_lt hi) (Or.inl (by omega)),
      hc.others i (Nat.ne_of_lt hi) (by omega), hold₂ i hi]

/-- `extern fun puts(s: String): Int`, numbered from 0. -/
def putsFile : SourceFile :=
  { site := ⟨0, ⟨0, 0, 0, 31⟩⟩, name := "puts.abla",
    decls := [
      .func
        { site := ⟨1, ⟨0, 0, 0, 31⟩⟩, name := "puts", nameSpan := ⟨0, 11, 0, 15⟩,
          modifiers := [.external none ⟨0, 0, 0, 6⟩],
          params := [⟨⟨2, ⟨0, 16, 0, 25⟩⟩, "s", .named "String" [] ⟨0, 19, 0, 25⟩⟩],
          ret := some (.named "Int" [] ⟨0, 28, 0, 31⟩), body := none }] }

/-- `fun f(a: Widget) {}` and `fun f() {}`, numbered from 0: two functions named `f` in the
file's scope, the first with a label that names no type. -/
def twoFs : SourceFile :=
  { site := ⟨0, ⟨0, 0, 1, 10⟩⟩, name := "test.abla",
    decls := [
      .func
        { site := ⟨1, ⟨0, 0, 0, 19⟩⟩, name := "f", nameSpan := ⟨0, 4, 0, 5⟩, modifiers := [],
          params := [⟨⟨2, ⟨0, 6, 0, 15⟩⟩, "a", .named "Widget" [] ⟨0, 9, 0, 15⟩⟩], ret := none,
          body := some (.mk ⟨3, ⟨0, 17, 0, 19⟩⟩ []) },
      .func
        { site := ⟨4, ⟨1, 0, 1, 10⟩⟩, name := "f", nameSpan := ⟨1, 4, 1, 5⟩, modifiers := [],
          params := [], ret := none, body := some (.mk ⟨5, ⟨1, 8, 1, 10⟩⟩ []) }] }

end File

end Gather

end Abla
