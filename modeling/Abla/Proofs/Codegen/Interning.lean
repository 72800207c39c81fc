import Abla.Codegen.Generate
import Abla.Proofs.Codegen.Footprint
import Abla.Proofs.Service.Outcomes

/-!
# String constants are interned

Generation keeps one table of string constants for the whole program, shared by all units:
its `k`-th entry holds the `k`-th distinct text and the operand of the global `str.k`, which is
the module's `k`-th global and holds that text (`Interned`). A text takes a new entry at the
end of the table the first time it is used, and the entry it has every later time.

Every step of declaration and of generation, failed or not, keeps the table interned and only
adds entries after its own (`Along`, with one lemma per function of the generator and the
mutual recursion over expressions and statements in `lowering_interns`). The main statement
is `generateProgram_interned`: the table of every generated program is interned, so two of its
entries share a global exactly when they hold the same text (`Interned.operand_eq_iff`).
-/

namespace Abla

namespace Ir.Module

variable (m : Ir.Module)

@[simp] theorem globals_modifyFunc (i : Nat) (f : Ir.Func → Ir.Func) :
    (m.modifyFunc i f).globals = m.globals := rfl

@[simp] theorem globals_addFunc (f : Ir.Func) : (m.addFunc f).1.globals = m.globals := rfl

@[simp] theorem globals_append (i : Nat) (inst : Ir.Inst) :
    (m.append i inst).1.globals = m.globals := rfl

@[simp] theorem globals_setRet (i : Nat) (v : Option Ir.Operand) :
    (m.setRet i v).globals = m.globals := rfl

end Ir.Module

namespace Codegen

/-- The name of the `k`-th string global. -/
def strName (k : Nat) : String := "str." ++ toString k

/-- The operand of the `k`-th string global when it holds `s`: its address, of `s`'s bytes and
the zero after them. -/
def strOperand (k : Nat) (s : String) : Ir.Operand :=
  .string (strName k) (⟨strName k, s⟩ : Ir.Global).size

/-- Different string globals have different names. -/
theorem strName_injective : Function.Injective strName := by
  intro a b h
  have hl := congrArg String.toList h
  simp only [strName, String.toList_append, List.append_cancel_left_eq] at hl
  have hd : Nat.toDigits 10 a = Nat.toDigits 10 b := by
    have hrepr : Nat.repr a = Nat.repr b := String.toList_injective hl
    rw [Nat.repr_eq_ofList_toDigits, Nat.repr_eq_ofList_toDigits] at hrepr
    exact String.ofList_injective hrepr
  rw [← Nat.ofDigitChars_ten_toDigits (n := a), hd, Nat.ofDigitChars_ten_toDigits]

/-- The string table of a program as generation keeps it: its `k`-th entry holds the `k`-th
distinct text and the operand of global `str.k`, which is the module's `k`-th global and holds
that text. -/
structure Interned (p : Program) : Prop where
  operand : ∀ k s v, p.strings[k]? = some (s, v) → v = strOperand k s
  global : ∀ k s v, p.strings[k]? = some (s, v) → p.module.globals[k]? = some (⟨strName k, s⟩ : Ir.Global)
  size : p.module.globals.size = p.strings.length
  nodup : (p.strings.map (·.1)).Nodup

/-- The program once the text `s` took the next string global. -/
def Program.intern (p : Program) (s : String) : Program :=
  { p with strings := p.strings ++ [(s, strOperand p.strings.length s)],
           module := { p.module with
             globals := p.module.globals.push ⟨strName p.strings.length, s⟩ } }

namespace Interned

variable {p p' : Program}

theorem empty : Interned ({} : Program) where
  operand _ _ _ h := by simp at h
  global _ _ _ h := by simp at h
  size := rfl
  nodup := List.nodup_nil

/-- Only the table and the globals matter. -/
theorem congr (h : Interned p) (hs : p'.strings = p.strings)
    (hg : p'.module.globals = p.module.globals) : Interned p' where
  operand := hs ▸ h.operand
  global := hs ▸ hg ▸ h.global
  size := hs ▸ hg ▸ h.size
  nodup := hs ▸ h.nodup

/-- The entries of the table once `s` took the next global: the old ones, then `s`. -/
theorem strings_intern_getElem? (p : Program) (s : String) (k : Nat) :
    (p.intern s).strings[k]? =
      if k < p.strings.length then p.strings[k]?
      else if k = p.strings.length then some (s, strOperand k s) else none := by
  simp only [Program.intern]
  split
  · rw [List.getElem?_append_left ‹_›]
  · rw [List.getElem?_append_right (by omega)]
    split
    · subst k
      simp
    · rw [List.getElem?_eq_none]
      simp only [List.length_singleton]
      omega

/-- A text not in the table takes the next global. -/
theorem intern (h : Interned p) {s : String} (hs : s ∉ p.strings.map (·.1)) :
    Interned (p.intern s) where
  operand k s' v hk := by
    rw [strings_intern_getElem?] at hk
    split at hk
    · exact h.operand k s' v hk
    · split at hk
      · cases hk
        rfl
      · cases hk
  global k s' v hk := by
    rw [strings_intern_getElem?] at hk
    simp only [Program.intern, Array.getElem?_push, h.size]
    split at hk
    · rw [if_neg (by omega)]
      exact h.global k s' v hk
    · split at hk
      · rename_i hlen
        cases hk
        subst hlen
        rw [if_pos rfl]
      · cases hk
  size := by simp [Program.intern, h.size]
  nodup := by
    simp only [Program.intern, List.map_append, List.map_cons, List.map_nil]
    refine List.nodup_append.2 ⟨h.nodup, List.nodup_singleton _, fun a ha b hb => ?_⟩
    rw [List.mem_singleton] at hb
    subst hb
    exact fun hab => hs (hab ▸ ha)

/-- Two entries of an interned table share their operand, and so their global, exactly when
they hold the same text. -/
theorem operand_eq_iff (h : Interned p) {k₁ k₂ : Nat} {s₁ s₂ : String} {v₁ v₂ : Ir.Operand}
    (h₁ : p.strings[k₁]? = some (s₁, v₁)) (h₂ : p.strings[k₂]? = some (s₂, v₂)) :
    v₁ = v₂ ↔ s₁ = s₂ := by
  rw [h.operand k₁ s₁ v₁ h₁, h.operand k₂ s₂ v₂ h₂]
  constructor
  · -- one operand names one global, and one global is one entry
    intro hv
    simp only [strOperand, Ir.Operand.string.injEq] at hv
    obtain rfl := strName_injective hv.1
    rw [h₁] at h₂
    cases h₂
    rfl
  · -- the table holds each text once, so one text is one entry
    rintro rfl
    have hk₁ : (p.strings.map (·.1))[k₁]? = some s₁ := by simp [h₁]
    have hk₂ : (p.strings.map (·.1))[k₂]? = some s₁ := by simp [h₂]
    obtain ⟨hl₁, he₁⟩ := List.getElem?_eq_some_iff.1 hk₁
    obtain ⟨hl₂, he₂⟩ := List.getElem?_eq_some_iff.1 hk₂
    obtain rfl : k₁ = k₂ := (List.getElem_inj h.nodup).1 (he₁.trans he₂.symm)
    rfl

end Interned

/-! ### The table only grows -/

/-- From `p` to `p'` the string table stays interned and only gains entries after its own. -/
def TableGrows (p p' : Program) : Prop :=
  (Interned p → Interned p') ∧ p.strings <+: p'.strings

namespace TableGrows

theorem refl (p : Program) : TableGrows p p := ⟨id, List.prefix_refl _⟩

theorem trans {p₁ p₂ p₃ : Program} (h₁ : TableGrows p₁ p₂) (h₂ : TableGrows p₂ p₃) :
    TableGrows p₁ p₃ :=
  ⟨h₂.1 ∘ h₁.1, h₁.2.trans h₂.2⟩

/-- A change that leaves the table and the globals alone. -/
theorem of_eq {p p' : Program} (hs : p'.strings = p.strings)
    (hg : p'.module.globals = p.module.globals) : TableGrows p p' :=
  ⟨fun h => h.congr hs hg, hs ▸ List.prefix_refl _⟩

/-- A text not in the table takes the next global. -/
theorem intern {p : Program} {s : String} (hs : s ∉ p.strings.map (·.1)) :
    TableGrows p (p.intern s) :=
  ⟨fun h => h.intern hs, List.prefix_append _ _⟩

end TableGrows

section Along

variable {ε σ ρ α β : Type} {π : σ → Program}

/-- The monad of declaration and of generation: it reads `ρ`, keeps a state `σ` and may fail
with `ε`. -/
abbrev Step (ε σ ρ α : Type) := ExceptT ε (StateT σ (ReaderT ρ Id)) α

theorem Step.run_bind (x : Step ε σ ρ α) (f : α → Step ε σ ρ β) (s : σ) (r : ρ) :
    ((x >>= f).run.run s).run r =
      match (x.run.run s).run r with
      | (.ok a, s') => ((f a).run.run s').run r
      | (.error e, s') => (.error e, s') := by
  simp only [ExceptT.run_bind, StateT.run_bind, ReaderT.run_bind]
  rcases h : (x.run.run s).run r with ⟨q, s'⟩
  cases q <;> simp_all <;> rfl

theorem Step.run_tryCatch (x : Step ε σ ρ α) (h : ε → Step ε σ ρ α) (s : σ) (r : ρ) :
    ((MonadExcept.tryCatch x h : Step ε σ ρ α).run.run s).run r =
      match (x.run.run s).run r with
      | (.ok a, s') => (.ok a, s')
      | (.error e, s') => ((h e).run.run s').run r := by
  rcases hr : (x.run.run s).run r with ⟨q, s'⟩
  show ((ExceptT.tryCatch x h).run.run s).run r = _
  simp only [ExceptT.tryCatch, ExceptT.run_mk, StateT.run_bind, ReaderT.run_bind]
  rw [show ((StateT.run x s).run r) = (q, s') from hr]
  cases q <;> rfl

variable (π) in
/-- Every run of `x`, from any state and failed or not, grows the table of the program `π`
reads off the state. -/
def Along (x : Step ε σ ρ α) : Prop := ∀ s r, TableGrows (π s) (π ((x.run.run s).run r).2)

namespace Along

/-- The growth along one run of `x`. -/
theorem of_run_eq {x : Step ε σ ρ α} (hx : Along π x) {s s' : σ} {r : ρ} {q : Except ε α}
    (h : (x.run.run s).run r = (q, s')) : TableGrows (π s) (π s') := by
  have := hx s r
  rwa [h] at this

theorem of_state {x : Step ε σ ρ α} (h : ∀ s r, ((x.run.run s).run r).2 = s) : Along π x := by
  intro s r
  rw [h s r]
  exact TableGrows.refl _

theorem pure (a : α) : Along π (Pure.pure a : Step ε σ ρ α) := of_state fun _ _ => rfl

theorem get : Along π (MonadState.get : Step ε σ ρ σ) := of_state fun _ _ => rfl

theorem read : Along π (MonadReader.read : Step ε σ ρ ρ) := of_state fun _ _ => rfl

theorem throw (e : ε) : Along π (MonadExcept.throw e : Step ε σ ρ α) := of_state fun _ _ => rfl

theorem bind {x : Step ε σ ρ α} {f : α → Step ε σ ρ β} (hx : Along π x)
    (hf : ∀ a, Along π (f a)) : Along π (x >>= f) := by
  intro s r
  rw [Step.run_bind]
  have h₁ := hx s r
  rcases h : (x.run.run s).run r with ⟨q, s₁⟩
  rw [h] at h₁
  cases q with
  | error e => exact h₁
  | ok a => exact h₁.trans (hf a s₁ r)

/-- What follows a `get` may depend on the state it reads. -/
theorem get_bind {f : σ → Step ε σ ρ β}
    (hf : ∀ s r, TableGrows (π s) (π (((f s).run.run s).run r).2)) :
    Along π ((MonadState.get : Step ε σ ρ σ) >>= f) := hf

/-- A `set` to a state that grows the table from the one the run stands in. -/
theorem set_bind_from {s s' : σ} {k : PUnit → Step ε σ ρ β} (hs : TableGrows (π s) (π s'))
    (hk : Along π (k ⟨⟩)) (r : ρ) :
    TableGrows (π s) (π ((((MonadState.set s' : Step ε σ ρ PUnit) >>= k).run.run s).run r).2) :=
  hs.trans (hk s' r)

/-- A `set` that ends a step. -/
theorem set_from {s s' : σ} (hs : TableGrows (π s) (π s')) (r : ρ) :
    TableGrows (π s) (π (((MonadState.set s' : Step ε σ ρ PUnit).run.run s).run r).2) := hs

theorem throw_bind (e : ε) (f : α → Step ε σ ρ β) :
    Along π ((MonadExcept.throw e : Step ε σ ρ α) >>= f) := of_state fun _ _ => rfl

/-- A `get` followed by a `set` to a state computed from the one read. -/
theorem get_set_bind {F : σ → σ} {k : σ → PUnit → Step ε σ ρ β}
    (hF : ∀ s, TableGrows (π s) (π (F s))) (hk : ∀ s, Along π (k s ⟨⟩)) :
    Along π ((MonadState.get : Step ε σ ρ σ) >>= fun s =>
      (MonadState.set (F s) : Step ε σ ρ PUnit) >>= k s) :=
  get_bind fun s r => set_bind_from (hF s) (hk s) r

theorem of_modify {f : σ → σ} (hf : ∀ s, TableGrows (π s) (π (f s))) :
    Along π (modify f : Step ε σ ρ PUnit) := fun s _ => hf s

/-- A handler runs from the state where its computation failed. -/
theorem tryCatch {x : Step ε σ ρ α} {h : ε → Step ε σ ρ α} (hx : Along π x)
    (hh : ∀ e, Along π (h e)) : Along π (MonadExcept.tryCatch x h) := by
  intro s r
  rw [Step.run_tryCatch]
  have h₁ := hx s r
  rcases hq : (x.run.run s).run r with ⟨q, s'⟩
  rw [hq] at h₁
  cases q with
  | ok a => exact h₁
  | error e => exact h₁.trans (hh e s' r)

theorem ite {c : Prop} [Decidable c] {x y : Step ε σ ρ α} (hx : Along π x) (hy : Along π y) :
    Along π (if c then x else y) := by
  split
  · exact hx
  · exact hy

theorem forIn {γ δ : Type} {f : γ → δ → Step ε σ ρ (ForInStep δ)} (hf : ∀ a b, Along π (f a b)) :
    ∀ (xs : List γ) (b : δ), Along π (ForIn.forIn xs b f)
  | [], b => by
    rw [List.forIn_nil]
    exact pure b
  | x :: xs, b => by
    rw [List.forIn_cons]
    refine bind (hf x b) fun step => ?_
    cases step with
    | done b' => exact pure b'
    | yield b' => exact forIn hf xs b'

end Along

end Along

section Strings

variable {g : Gen}

/-- A text already in the table gives back its entry's operand and changes nothing. -/
theorem stringConst_of_mem (h : Interned g.prog) {k : Nat} {s : String} {v : Ir.Operand}
    (hk : g.prog.strings[k]? = some (s, v)) (t : Tables) :
    ((stringConst s).run.run g).run t = (.ok (strOperand k s), g) := by
  have hl : g.prog.strings.lookup s = some v :=
    (Units.Keyed.lookup_eq_some_iff h.nodup).2 (List.mem_of_getElem? hk)
  rw [stringConst, G.get_bind]
  simp only [hl, G.run_pure, h.operand k s v hk]

/-- A text not in the table takes the next global: `str.n` for a table of `n` entries. -/
theorem stringConst_of_not_mem {s : String} (hs : s ∉ g.prog.strings.map (·.1)) (t : Tables) :
    ((stringConst s).run.run g).run t =
      (.ok (strOperand g.prog.strings.length s), { g with prog := g.prog.intern s }) := by
  have hl : g.prog.strings.lookup s = none := by
    rw [List.lookup_eq_none_iff]
    intro q hq
    simp only [bne_iff_ne, ne_eq]
    rintro rfl
    exact hs (List.mem_map_of_mem hq)
  rw [stringConst, G.get_bind]
  simp only [hl, G.set_bind, G.run_pure]
  rfl

end Strings

/-! ### Every step of generation grows the table -/

section Generation

/-- Every run of a generator step, failed or not, keeps the string table interned and only
adds entries after the ones it had. -/
abbrev Interns {α : Type} (x : G α) : Prop := Along Gen.prog x

variable {α : Type}

theorem onStack_interns (r : Except CompileError α) : Interns (onStack r) := by
  cases r with
  | ok a => exact Along.pure a
  | error e => exact Along.throw e

theorem raise_interns (kind : ErrorKind) (span : Span) (message : String) :
    Interns (raise kind span message : G α) :=
  Along.throw _

theorem raise_bind_interns {β : Type} (kind : ErrorKind) (span : Span) (message : String)
    (f : α → G β) : Interns (raise kind span message >>= f) :=
  Along.throw_bind _ f

theorem push_interns (v : Ir.Operand) : Interns (push v) :=
  Along.of_modify fun _ => TableGrows.refl _

theorem pop_interns : Interns pop :=
  Along.get_bind fun g t => by
    refine Along.bind (onStack_interns _) (fun vs => ?_) g t
    exact Along.bind (Along.of_modify fun _ => TableGrows.refl _) fun _ => Along.pure _

theorem depth_interns : Interns depth :=
  Along.get_bind fun g t => Along.pure _ g t

theorem truncate_interns (n : Nat) : Interns (truncate n) :=
  Along.of_modify fun _ => TableGrows.refl _

theorem curFunc_interns : Interns curFunc :=
  Along.get_bind fun g t => by
    split
    · exact Along.pure _ g t
    · exact Along.throw _ g t

theorem warn_interns (span : Span) (message : String) : Interns (warn span message) :=
  Along.of_modify fun _ => TableGrows.of_eq rfl rfl

theorem emit_interns (span : Span) (inst : Ir.Inst) : Interns (emit span inst) := by
  refine Along.bind Along.get fun g => Along.bind (onStack_interns _) fun f => ?_
  refine Along.get_bind fun g' t' => ?_
  rcases hm : g'.prog.module.append f.block inst with ⟨m, v⟩
  -- appending touches the functions only
  have hglobals : m.globals = g'.prog.module.globals := by
    rw [← Ir.Module.globals_append g'.prog.module f.block inst, hm]
  have hgrow : TableGrows g'.prog { g'.prog with module := m } := TableGrows.of_eq rfl hglobals
  dsimp only
  exact Along.set_bind_from (π := Gen.prog) (k := fun _ => pure v) hgrow (Along.pure _) t'

theorem emitRet_interns (span : Span) (v : Option Ir.Operand) : Interns (emitRet span v) := by
  refine Along.get_bind fun g t => Along.bind (onStack_interns _) (fun f => ?_) g t
  exact Along.of_modify fun _ => TableGrows.of_eq rfl rfl

theorem markReturned_interns : Interns markReturned := by
  refine Along.get_bind fun g t => Along.bind (onStack_interns _) (fun st => ?_) g t
  exact Along.of_modify fun _ => TableGrows.refl _

/-- A `return` ends the innermost block: its `ret`, then the mark that the block returned. -/
theorem emitRet_markReturned_interns (span : Span) (v : Option Ir.Operand) :
    Interns (emitRet span v >>= fun _ => markReturned) :=
  Along.bind (emitRet_interns span v) fun _ => markReturned_interns

/-- The one step that writes the table: a new text takes the next global. -/
theorem stringConst_interns (s : String) : Interns (stringConst s) := by
  intro g t
  cases hl : g.prog.strings.lookup s with
  | some v =>
    rw [stringConst, G.get_bind]
    simp only [hl, G.run_pure]
    exact TableGrows.refl _
  | none =>
    have hs : s ∉ g.prog.strings.map (·.1) := by
      intro hmem
      obtain ⟨⟨s', v⟩, hq, rfl⟩ := List.mem_map.1 hmem
      simpa using List.lookup_eq_none_iff.1 hl _ hq
    rw [stringConst_of_not_mem hs]
    exact TableGrows.intern hs

theorem handleOperand_interns (h : Handle) : Interns (handleOperand h) := by
  refine Along.bind Along.get fun g => ?_
  dsimp only
  split
  · split
    · exact Along.pure _
    · exact Along.throw _
  · split
    · exact Along.pure _
    · exact Along.throw _

theorem genIdent_interns (span : Span) (name : String) : Interns (genIdent span name) := by
  have hpush : ∀ h, Interns (handleOperand h >>= push) := fun h =>
    Along.bind (handleOperand_interns h) push_interns
  unfold genIdent
  refine Along.bind Along.get fun g => Along.bind (onStack_interns _) fun fr => ?_
  refine Along.bind Along.read fun t => ?_
  split
  · dsimp only
    refine Along.ite (raise_bind_interns _ _ _ _) (Along.ite (raise_bind_interns _ _ _ _) ?_)
    refine Along.bind Along.get fun g' => ?_
    split
    · split
      · exact Along.bind Along.get fun _ => Along.ite (raise_bind_interns _ _ _ _) (hpush _)
      · exact hpush _
    · exact raise_interns _ _ _
  · exact raise_interns _ _ _

theorem genString_interns (parts : List Piece) : Interns (genString parts) := by
  unfold genString
  dsimp only
  refine Along.bind (Along.forIn (fun p text => ?_) parts _) fun text =>
    Along.bind (stringConst_interns text) push_interns
  split
  · exact Along.pure _
  · exact raise_bind_interns _ _ _ _

theorem genConst_interns (site : Site) : Interns (genConst site) := by
  unfold genConst
  refine Along.bind Along.read fun t => ?_
  split
  · exact raise_interns _ _ _
  · exact push_interns _
  · exact Along.bind (stringConst_interns _) push_interns
  · exact push_interns _

theorem checkReturnType_interns (span : Span) (ty : Ir.Ty) : Interns (checkReturnType span ty) := by
  unfold checkReturnType
  refine Along.bind curFunc_interns fun f => ?_
  exact Along.ite (raise_interns _ _ _) (Along.pure _)

theorem inferReturnType_interns (span : Span) (ty : Ir.Ty) : Interns (inferReturnType span ty) := by
  unfold inferReturnType
  refine Along.get_bind fun g t => ?_
  split
  · refine Along.set_from (π := Gen.prog) ?_ t
    exact TableGrows.of_eq rfl rfl
  · exact checkReturnType_interns span ty g t

theorem genImplicitReturn_interns (span : Span) (base : Nat) :
    Interns (genImplicitReturn span base) := by
  unfold genImplicitReturn
  refine Along.bind Along.get fun g => ?_
  extract_lets result finish jp one
  clear_value result one
  have hfinish : Interns (finish ()) := markReturned_interns
  have hjp : ∀ u r, Interns (jp u r) := by
    intro u r
    refine Along.bind curFunc_interns fun f => ?_
    dsimp only
    split
    · split
      · exact Along.bind (emitRet_interns _ _) fun _ => hfinish
      · exact Along.bind (checkReturnType_interns _ _) fun _ =>
          Along.bind (emitRet_interns _ _) fun _ => hfinish
    · exact Along.bind (emitRet_interns _ _) fun _ => hfinish
  split
  · rcases result with _ | v
    · refine Along.bind Along.get fun g' => ?_
      split
      · exact hjp () one
      · exact hjp () none
    · exact Along.bind (inferReturnType_interns _ _) fun u => hjp u (some v)
  · exact hjp () result

theorem genEntryPoint_interns (abmain : Ir.Func) : Interns (genEntryPoint abmain) := by
  refine Along.get_bind fun g t => ?_
  dsimp only
  refine Along.set_from (π := Gen.prog) ?_ t
  exact TableGrows.of_eq rfl (by simp)

/-- Generation of every expression, statement and function literal grows the table: one case
of the generator's own mutual recursion at a time. -/
theorem lowering_interns :
    (∀ e, Interns (genExpr e)) ∧ (∀ site sts, Interns (genLambda site sts)) ∧
      (∀ base sts, Interns (genStmts base sts)) ∧ (∀ st, Interns (genStmt st)) ∧
        (∀ e, Interns (genValue e)) ∧ ∀ es, Interns (genArgs es) := by
  refine genExpr.mutual_induct (fun e => Interns (genExpr e))
    (fun site sts => Interns (genLambda site sts)) (fun base sts => Interns (genStmts base sts))
    (fun st => Interns (genStmt st)) (fun e => Interns (genValue e)) (fun es => Interns (genArgs es))
    ?ident ?intOk ?intError ?str ?call ?lambda ?binary ?exec ?lambdaBody ?stmtsNil ?stmtsCons
    ?stmtExpr ?retNone ?retSome ?value ?argsNil ?argsCons
  case ident =>
    intro s n
    simpa only [genExpr] using genIdent_interns s.span n
  case intOk =>
    intro s t n hn
    simp only [genExpr, hn]
    exact push_interns _
  case intError =>
    intro s t hn
    simp only [genExpr, hn]
    exact raise_interns _ _ _
  case str =>
    intro site ps
    simpa only [genExpr] using genString_interns ps
  case call =>
    intro s f as hf has
    simp only [genExpr]
    refine Along.bind hf fun callee => Along.bind has fun args => ?_
    split
    · -- the arity and argument checks only read the values
      refine Along.ite (raise_bind_interns _ _ _ _) ?_
      refine Along.bind (Along.forIn (fun _ _ => ?_) _ _) fun _ =>
        Along.bind (emit_interns _ _) fun r => Along.ite (push_interns r) (Along.pure _)
      exact Along.ite (raise_bind_interns _ _ _ _) (Along.pure _)
    · exact raise_interns _ _ _
  case lambda =>
    intro s site sts hlam
    simp only [genExpr]
    exact Along.bind hlam push_interns
  case binary =>
    intro s op l r hl hr
    simp only [genExpr]
    refine Along.bind hl fun lv => Along.bind hr fun rv => ?_
    refine Along.ite (raise_bind_interns _ _ _ _) ?_
    refine Along.bind Along.get fun g => Along.bind (onStack_interns _) fun _ => ?_
    exact Along.ite (raise_bind_interns _ _ _ _) (Along.bind (emit_interns _ _) push_interns)
  case exec =>
    intro s inner
    simpa only [genExpr] using genConst_interns s
  case lambdaBody =>
    intro site sts hsts
    simp only [genLambda]
    refine Along.bind Along.read fun t => ?_
    split
    · -- the literal's function is added beside the others; the globals stay
      refine Along.get_bind fun g t' => Along.set_bind_from (π := Gen.prog) ?_ ?_ t'
      · exact TableGrows.of_eq rfl (by simp)
      · refine Along.bind depth_interns fun base => ?_
        refine Along.bind (Along.of_modify fun _ => TableGrows.refl _) fun _ => ?_
        refine Along.bind (hsts base) fun _ => ?_
        refine Along.bind Along.get fun _ => Along.bind (onStack_interns _) fun _ => ?_
        refine Along.ite (Along.bind (genImplicitReturn_interns _ _) fun _ => ?_) ?_
        -- with its implicit return or without, the literal's block is popped and its function read
        all_goals
          refine Along.bind Along.get fun _ => Along.bind (onStack_interns _) fun _ => ?_
          refine Along.bind (Along.of_modify fun _ => TableGrows.refl _) fun _ => ?_
          refine Along.bind Along.get fun _ => ?_
          split
          · exact Along.pure _
          · exact Along.throw _
    · exact raise_interns _ _ _
  case stmtsNil =>
    intro base
    simpa only [genStmts] using Along.pure ()
  case stmtsCons =>
    intro base st rest hst hrest
    simp only [genStmts]
    refine Along.bind Along.get fun g => Along.bind (onStack_interns _) fun fr => ?_
    exact Along.ite (warn_interns _ _)
      (Along.bind (truncate_interns _) fun _ => Along.bind hst fun _ => hrest)
  case stmtExpr =>
    intro site e he
    simpa only [genStmt] using he
  case retNone =>
    intro s
    simp only [genStmt]
    refine Along.bind Along.get fun g => Along.ite ?_ ?_
    · exact Along.bind (inferReturnType_interns _ _) fun _ => emitRet_markReturned_interns _ _
    · refine Along.bind curFunc_interns fun f => Along.ite (raise_bind_interns _ _ _ _) ?_
      exact emitRet_markReturned_interns _ _
  case retSome =>
    intro s e he
    simp only [genStmt]
    refine Along.bind he fun v => Along.bind Along.get fun g => Along.ite ?_ ?_
    · exact Along.bind (inferReturnType_interns _ _) fun _ => emitRet_markReturned_interns _ _
    · exact Along.bind (checkReturnType_interns _ _) fun _ => emitRet_markReturned_interns _ _
  case value =>
    intro e he
    simp only [genValue]
    exact Along.bind depth_interns fun _ => Along.bind he fun _ =>
      Along.bind depth_interns fun _ => Along.ite (raise_bind_interns _ _ _ _) pop_interns
  case argsNil =>
    simpa only [genArgs] using Along.pure []
  case argsCons =>
    intro e es he hes
    simp only [genArgs]
    exact Along.bind he fun _ => Along.bind hes fun _ => Along.pure _

theorem genFunc_interns (f : FuncDecl) : Interns (genFunc f) := by
  unfold genFunc
  refine Along.ite (Along.pure _) ?_
  refine Along.bind Along.get fun g => ?_
  split
  · refine Along.bind Along.read fun t => ?_
    split
    · refine Along.bind (Along.of_modify fun _ => TableGrows.refl _) fun _ => ?_
      refine Along.bind (Along.of_modify fun _ => TableGrows.refl _) fun _ => ?_
      dsimp only
      refine Along.bind depth_interns fun base => Along.bind (lowering_interns.2.2.1 base _) fun _ => ?_
      refine Along.bind Along.get fun _ => Along.bind (onStack_interns _) fun _ => ?_
      refine Along.ite (Along.bind (genImplicitReturn_interns _ _) fun _ => ?_) ?_
      all_goals
        refine Along.bind Along.get fun _ => Along.bind (onStack_interns _) fun x => ?_
        rcases x with ⟨_, st⟩
        dsimp only
        refine Along.bind (Along.of_modify fun _ => TableGrows.refl _) fun _ => ?_
        refine Along.bind Along.get fun _ => Along.ite ?_ (Along.pure _)
        exact Along.bind curFunc_interns genEntryPoint_interns
    · exact raise_interns _ _ _
  · exact raise_interns _ _ _

theorem genDecls_interns : ∀ ds, Interns (genDecls ds) := by
  refine (genDecl.mutual_induct (fun d => Interns (genDecl d)) (fun ds => Interns (genDecls ds))
    ?func ?compilerClass ?cls ?hashCall ?nil ?cons).2
  case func =>
    intro f
    simpa only [genDecl] using genFunc_interns f
  case compilerClass =>
    intro site name mods members hc
    simp only [genDecl]
    rw [if_pos hc]
    exact Along.pure ()
  case cls =>
    intro site name mods members hc hmembers
    simp only [genDecl]
    rw [if_neg hc]
    exact hmembers
  case hashCall =>
    intro site call
    simpa only [genDecl] using Along.pure ()
  case nil => simpa only [genDecls] using Along.pure ()
  case cons =>
    intro d ds hd hds
    simpa only [genDecls] using Along.bind hd fun _ => hds

end Generation

/-! ### Declaring leaves the table alone -/

section Declaration

variable {α : Type}

theorem liftConv_along (r : Except CompileError α) : Along id (liftConv r) := by
  cases r with
  | ok a => exact Along.pure a
  | error e => exact Along.throw e

theorem irParams_along (f : FuncDecl) (types : List DataType) : Along id (irParams f types) :=
  Along.bind (liftConv_along _) fun _ => Along.pure _

theorem declareExtern_along (f : FuncDecl) (ret : Ir.Ty) (params : List Ir.Param) :
    Along id (declareExtern f ret params) := by
  refine Along.get_bind fun p t => ?_
  dsimp only
  split
  · exact Along.ite (Along.pure _) (Along.throw _) p t
  · refine Along.set_bind_from (π := id) (k := fun _ => pure _) ?_ (Along.pure _) t
    exact TableGrows.of_eq rfl (by simp)

theorem declareFunc_along (unitPrefix classPrefix : String) (f : FuncDecl) :
    Along id (declareFunc unitPrefix classPrefix f) := by
  unfold declareFunc
  refine Along.bind Along.read fun t => ?_
  split
  · split
    refine Along.bind (irParams_along _ _) fun params => Along.bind (liftConv_along _) fun ret => ?_
    dsimp only
    refine Along.ite (Along.bind (declareExtern_along _ _ _) fun i =>
      Along.of_modify fun _ => TableGrows.of_eq rfl rfl) ?_
    -- `main` is recorded at most once; then the function is added after the others
    refine Along.ite (Along.bind Along.get fun _ => Along.ite (Along.throw_bind _ _)
      (Along.bind (Along.of_modify fun _ => TableGrows.of_eq rfl rfl) fun _ => ?_)) ?_
    all_goals
      exact Along.get_set_bind (fun _ => TableGrows.of_eq rfl (by simp)) fun _ =>
        Along.bind (Along.pure _) fun _ => Along.of_modify fun _ => TableGrows.of_eq rfl rfl
  · exact Along.throw _

theorem declareDecls_along (unitPrefix classPrefix : String) :
    ∀ ds, Along id (declareDecls unitPrefix classPrefix ds) := by
  refine (declareDecl.mutual_induct (fun c d => Along id (declareDecl unitPrefix c d))
    (fun c ds => Along id (declareDecls unitPrefix c ds)) ?compilerFunc ?func ?compilerClass ?cls
    ?hashCall ?nil ?cons).2 classPrefix
  case compilerFunc =>
    intro c f hf
    simp only [declareDecl]
    rw [if_pos hf]
    exact Along.pure ()
  case func =>
    intro c f hf
    simp only [declareDecl]
    rw [if_neg hf]
    exact declareFunc_along unitPrefix c f
  case compilerClass =>
    intro c site name mods members hc
    simp only [declareDecl]
    rw [if_pos hc]
    exact Along.pure ()
  case cls =>
    intro c site name mods members hc hmembers
    simp only [declareDecl]
    rw [if_neg hc]
    exact hmembers
  case hashCall =>
    intro c site call
    simpa only [declareDecl] using Along.pure ()
  case nil =>
    intro c
    simpa only [declareDecls] using Along.pure ()
  case cons =>
    intro c d ds hd hds
    simpa only [declareDecls] using Along.bind hd fun _ => hds

theorem declareUnit_along (f : SourceFile) : Along id (declareUnit f) := by
  unfold declareUnit
  refine Along.tryCatch ?_ fun e => Along.throw _
  refine Along.get_bind fun p t => ?_
  dsimp only
  split
  · exact Along.throw_bind _ _ p t
  · refine Along.set_bind_from (π := id) ?_ (declareDecls_along _ _ f.decls) t
    exact TableGrows.of_eq rfl rfl

end Declaration

/-! ### The whole program -/

section Program

theorem declareStep_grows (tables : Tables) (p : Program) (f : SourceFile) :
    TableGrows p (declareStep tables p f).2 := by
  unfold declareStep
  rcases hr : ((declareUnit f).run.run p).run tables with ⟨r, p'⟩
  have h := (declareUnit_along f).of_run_eq hr
  -- a failed unit only logs its error
  cases r with
  | ok _ => exact h
  | error e => exact h.trans (TableGrows.of_eq rfl rfl)

theorem generateStep_grows (tables : Tables) (p : Program) (f : SourceFile) :
    TableGrows p (generateStep tables p f).2 := by
  unfold generateStep
  split
  · exact TableGrows.of_eq rfl rfl
  · split
    · exact TableGrows.of_eq rfl rfl
    · -- the unit's bodies are generated from `p` marked as generated, which has its table
      dsimp only
      split
      next r g hrun =>
        have h₀ : TableGrows p { p with generated := p.generated ++ [f.name] } :=
          TableGrows.of_eq rfl rfl
        have hg : TableGrows p g.prog := h₀.trans ((genDecls_interns f.decls).of_run_eq hrun)
        split
        · exact hg
        · exact hg.trans (TableGrows.of_eq rfl rfl)

/-- Steps that each grow the table grow it over all units. -/
theorem eachUnit_grows {step : Program → SourceFile → Option CompileError × Program}
    (hstep : ∀ p f, TableGrows p (step p f).2) :
    ∀ (p : Program) (fs : List SourceFile), TableGrows p (eachUnit step p fs).2
  | p, [] => TableGrows.refl p
  | p, f :: fs => (hstep p f).trans (eachUnit_grows hstep _ fs)

/-- The string table of every generated program is interned. -/
theorem generateProgram_interned (tables : Tables) (units : List SourceFile) :
    Interned (generateProgram tables units).2 := by
  have hdecl := (eachUnit_grows (declareStep_grows tables) {} units).1 Interned.empty
  unfold generateProgram
  rcases hd : eachUnit (declareStep tables) {} units with ⟨errs, p⟩
  rw [hd] at hdecl
  dsimp only
  split
  · exact hdecl
  · exact (eachUnit_grows (generateStep_grows tables) p units).1 hdecl

end Program

end Codegen

end Abla
