import Mathlib
import Abla.Syntax.Numbering

/-!
# Node numbers are fresh

`SourceFile.number n` numbers the nodes of a file in pre-order from `n`. This module lists a
tree's node numbers in that order (`ids`) and proves that numbering from `n` gives out exactly
`n, n + 1, …, n' - 1`, where `n'` is the next free number it returns (`SourceFile.number_ids`).
So the numbers of a file are distinct, and none was given out before: the analyses may key
their annotations by node number across a whole build.

It also lists the function declarations of a list of declarations, classes included
(`Decl.funcsList`); each analysis visits them in its own way.
-/

namespace Abla

mutual

/-- The node numbers of an expression, in the order numbering visits them. -/
def Expr.ids : Expr → List Nat
  | .ident s _ | .int s _ => [s.id]
  | .str s ps => s.id :: Piece.idsList ps
  | .call s f as => s.id :: (f.ids ++ Expr.idsList as)
  | .lambda s b => s.id :: b.ids
  | .binary s _ l r => s.id :: (l.ids ++ r.ids)
  | .exec s e => s.id :: e.ids

/-- The node numbers of a list of expressions. -/
def Expr.idsList : List Expr → List Nat
  | [] => []
  | e :: es => e.ids ++ Expr.idsList es

/-- The node numbers of the interpolations of a string literal. -/
def Piece.idsList : List Piece → List Nat
  | [] => []
  | .text _ :: ps => Piece.idsList ps
  | .interp e :: ps => e.ids ++ Piece.idsList ps

/-- The node numbers of a statement. -/
def Stmt.ids : Stmt → List Nat
  | .expr s e => s.id :: e.ids
  | .ret s none => [s.id]
  | .ret s (some e) => s.id :: e.ids

/-- The node numbers of a list of statements. -/
def Stmt.idsList : List Stmt → List Nat
  | [] => []
  | st :: sts => st.ids ++ Stmt.idsList sts

/-- The node numbers of a block. -/
def Block.ids : Block → List Nat
  | .mk s sts => s.id :: Stmt.idsList sts

end

/-- The node numbers of a modifier's library name. -/
def Modifier.ids : Modifier → List Nat
  | .external (some e) _ => e.ids
  | _ => []

/-- The node numbers of a function declaration: its own, its modifiers', its parameters' and
its body's. -/
def FuncDecl.ids (f : FuncDecl) : List Nat :=
  f.site.id :: (f.modifiers.flatMap Modifier.ids ++ f.params.flatMap (fun p => [p.site.id]) ++
    (f.body.map Block.ids).getD [])

mutual

/-- The node numbers of a declaration. -/
def Decl.ids : Decl → List Nat
  | .func f => f.ids
  | .cls s _ ms members => s.id :: (ms.flatMap Modifier.ids ++ Decl.idsList members)
  | .hashCall s e => s.id :: e.ids

/-- The node numbers of a list of declarations. -/
def Decl.idsList : List Decl → List Nat
  | [] => []
  | d :: ds => d.ids ++ Decl.idsList ds

end

/-- The node numbers of a file. -/
def SourceFile.ids (f : SourceFile) : List Nat := f.site.id :: Decl.idsList f.decls

mutual

/-- The function declarations of a declaration, those of classes included. -/
def Decl.funcs : Decl → List FuncDecl
  | .func f => [f]
  | .cls _ _ _ members => Decl.funcsList members
  | .hashCall _ _ => []

/-- The function declarations of a list of declarations. -/
def Decl.funcsList : List Decl → List FuncDecl
  | [] => []
  | d :: ds => d.funcs ++ Decl.funcsList ds

end

/-- Numbering with `x` from `n` gives out the numbers `n, …, n + c - 1` for some `c`, and
`ids` lists them in that order. -/
def Numbers {α : Type} (ids : α → List Nat) (x : Numbering α) : Prop :=
  ∀ n, ∃ c, (x.run n).2 = n + c ∧ ids (x.run n).1 = List.range' n c

section Run

variable {α β : Type} (n : Nat)

@[simp] theorem Numbering.run_bind (x : Numbering α) (f : α → Numbering β) :
    (x >>= f).run n = (f (x.run n).1).run (x.run n).2 := rfl

@[simp] theorem Numbering.run_map (x : Numbering α) (f : α → β) :
    (f <$> x).run n = (f (x.run n).1, (x.run n).2) := rfl

@[simp] theorem Numbering.run_pure (a : α) : (pure a : Numbering α).run n = (a, n) := rfl

@[simp] theorem freshSite_run (sp : Span) : (freshSite sp).run n = (⟨n, sp⟩, n + 1) := rfl

end Run

/-- A node number followed by the numbers after it. -/
theorem range'_cons (n c : Nat) : n :: List.range' (n + 1) c = List.range' n (c + 1) := by
  rw [List.range'_succ]

/-- Numbering a list element by element gives out the numbers of the elements one after
another. -/
theorem Numbers.mapM {α : Type} {g : α → Numbering α} {ids : α → List Nat}
    (hg : ∀ a, Numbers ids (g a)) : ∀ xs : List α, Numbers (·.flatMap ids) (xs.mapM g)
  | [] => fun n => ⟨0, rfl, rfl⟩
  | x :: xs => by
    intro n
    obtain ⟨c₁, h₁, i₁⟩ := hg x n
    obtain ⟨c₂, h₂, i₂⟩ := Numbers.mapM hg xs (n + c₁)
    dsimp only at i₂
    refine ⟨c₁ + c₂, ?_, ?_⟩
    · simp only [List.mapM_cons, Numbering.run_bind, Numbering.run_pure]
      rw [h₁, h₂]
      omega
    · simp only [List.mapM_cons, Numbering.run_bind, Numbering.run_pure, List.flatMap_cons]
      rw [i₁, h₁]
      rw [i₂, List.range'_append_1]

mutual

theorem Expr.number_ids : ∀ e : Expr, Numbers Expr.ids e.number
  | .ident s _ | .int s _ => fun n => ⟨1, rfl, rfl⟩
  | .str s ps => by
    intro n
    obtain ⟨c, h, i⟩ := Piece.numberList_ids ps (n + 1)
    refine ⟨c + 1, ?_, ?_⟩
    · simp only [Expr.number, Numbering.run_bind, freshSite_run, Numbering.run_pure]
      rw [h]
      omega
    · simp only [Expr.number, Numbering.run_bind, freshSite_run, Numbering.run_pure, Expr.ids]
      rw [i, range'_cons]
  | .call s f as => by
    intro n
    obtain ⟨c₁, h₁, i₁⟩ := Expr.number_ids f (n + 1)
    obtain ⟨c₂, h₂, i₂⟩ := Expr.numberList_ids as (n + 1 + c₁)
    refine ⟨c₁ + c₂ + 1, ?_, ?_⟩
    · simp only [Expr.number, Numbering.run_bind, freshSite_run, Numbering.run_pure]
      rw [h₁, h₂]
      omega
    · simp only [Expr.number, Numbering.run_bind, freshSite_run, Numbering.run_pure, Expr.ids]
      rw [i₁, h₁, i₂, List.range'_append_1, range'_cons]
  | .lambda s b => by
    intro n
    obtain ⟨c, h, i⟩ := Block.number_ids b (n + 1)
    refine ⟨c + 1, ?_, ?_⟩
    · simp only [Expr.number, Numbering.run_bind, freshSite_run, Numbering.run_pure]
      rw [h]
      omega
    · simp only [Expr.number, Numbering.run_bind, freshSite_run, Numbering.run_pure, Expr.ids]
      rw [i, range'_cons]
  | .binary s _ l r => by
    intro n
    obtain ⟨c₁, h₁, i₁⟩ := Expr.number_ids l (n + 1)
    obtain ⟨c₂, h₂, i₂⟩ := Expr.number_ids r (n + 1 + c₁)
    refine ⟨c₁ + c₂ + 1, ?_, ?_⟩
    · simp only [Expr.number, Numbering.run_bind, freshSite_run, Numbering.run_pure]
      rw [h₁, h₂]
      omega
    · simp only [Expr.number, Numbering.run_bind, freshSite_run, Numbering.run_pure, Expr.ids]
      rw [i₁, h₁, i₂, List.range'_append_1, range'_cons]
  | .exec s e => by
    intro n
    obtain ⟨c, h, i⟩ := Expr.number_ids e (n + 1)
    refine ⟨c + 1, ?_, ?_⟩
    · simp only [Expr.number, Numbering.run_bind, freshSite_run, Numbering.run_pure]
      rw [h]
      omega
    · simp only [Expr.number, Numbering.run_bind, freshSite_run, Numbering.run_pure, Expr.ids]
      rw [i, range'_cons]

theorem Expr.numberList_ids : ∀ es : List Expr, Numbers Expr.idsList (Expr.numberList es)
  | [] => fun n => ⟨0, rfl, rfl⟩
  | e :: es => by
    intro n
    obtain ⟨c₁, h₁, i₁⟩ := Expr.number_ids e n
    obtain ⟨c₂, h₂, i₂⟩ := Expr.numberList_ids es (n + c₁)
    refine ⟨c₁ + c₂, ?_, ?_⟩
    · simp only [Expr.numberList, Numbering.run_bind, Numbering.run_pure]
      rw [h₁, h₂]
      omega
    · simp only [Expr.numberList, Numbering.run_bind, Numbering.run_pure, Expr.idsList]
      rw [i₁, h₁, i₂, List.range'_append_1]

theorem Piece.numberList_ids : ∀ ps : List Piece, Numbers Piece.idsList (Piece.numberList ps)
  | [] => fun n => ⟨0, rfl, rfl⟩
  | .text _ :: ps => by
    intro n
    obtain ⟨c, h, i⟩ := Piece.numberList_ids ps n
    refine ⟨c, ?_, ?_⟩
    · simp only [Piece.numberList, Numbering.run_bind, Numbering.run_pure]
      rw [h]
    · simp only [Piece.numberList, Numbering.run_bind, Numbering.run_pure, Piece.idsList]
      rw [i]
  | .interp e :: ps => by
    intro n
    obtain ⟨c₁, h₁, i₁⟩ := Expr.number_ids e n
    obtain ⟨c₂, h₂, i₂⟩ := Piece.numberList_ids ps (n + c₁)
    refine ⟨c₁ + c₂, ?_, ?_⟩
    · simp only [Piece.numberList, Numbering.run_bind, Numbering.run_pure]
      rw [h₁, h₂]
      omega
    · simp only [Piece.numberList, Numbering.run_bind, Numbering.run_pure, Piece.idsList]
      rw [i₁, h₁, i₂, List.range'_append_1]

theorem Stmt.number_ids : ∀ st : Stmt, Numbers Stmt.ids st.number
  | .expr s e | .ret s (some e) => by
    intro n
    obtain ⟨c, h, i⟩ := Expr.number_ids e (n + 1)
    refine ⟨c + 1, ?_, ?_⟩
    · simp only [Stmt.number, Numbering.run_bind, freshSite_run, Numbering.run_pure]
      rw [h]
      omega
    · simp only [Stmt.number, Numbering.run_bind, freshSite_run, Numbering.run_pure, Stmt.ids]
      rw [i, range'_cons]
  | .ret s none => fun n => ⟨1, rfl, rfl⟩

theorem Stmt.numberList_ids : ∀ sts : List Stmt, Numbers Stmt.idsList (Stmt.numberList sts)
  | [] => fun n => ⟨0, rfl, rfl⟩
  | st :: sts => by
    intro n
    obtain ⟨c₁, h₁, i₁⟩ := Stmt.number_ids st n
    obtain ⟨c₂, h₂, i₂⟩ := Stmt.numberList_ids sts (n + c₁)
    refine ⟨c₁ + c₂, ?_, ?_⟩
    · simp only [Stmt.numberList, Numbering.run_bind, Numbering.run_pure]
      rw [h₁, h₂]
      omega
    · simp only [Stmt.numberList, Numbering.run_bind, Numbering.run_pure, Stmt.idsList]
      rw [i₁, h₁, i₂, List.range'_append_1]

theorem Block.number_ids : ∀ b : Block, Numbers Block.ids b.number
  | .mk s sts => by
    intro n
    obtain ⟨c, h, i⟩ := Stmt.numberList_ids sts (n + 1)
    refine ⟨c + 1, ?_, ?_⟩
    · simp only [Block.number, Numbering.run_bind, freshSite_run, Numbering.run_pure]
      rw [h]
      omega
    · simp only [Block.number, Numbering.run_bind, freshSite_run, Numbering.run_pure, Block.ids]
      rw [i, range'_cons]

end

theorem Modifier.number_ids : ∀ m : Modifier, Numbers Modifier.ids m.number
  | .external (some e) _ => by
    intro n
    obtain ⟨c, h, i⟩ := Expr.number_ids e n
    refine ⟨c, ?_, ?_⟩
    · simp only [Modifier.number, Numbering.run_bind, Numbering.run_pure]
      rw [h]
    · simp only [Modifier.number, Numbering.run_bind, Numbering.run_pure, Modifier.ids]
      rw [i]
  | .external none _ | .compiler _ => fun n => ⟨0, rfl, rfl⟩

theorem Param.number_ids (p : Param) : Numbers (fun p => [p.site.id]) p.number :=
  fun _ => ⟨1, rfl, rfl⟩

theorem FuncDecl.number_ids (f : FuncDecl) : Numbers FuncDecl.ids f.number := by
  intro n
  obtain ⟨c₁, h₁, i₁⟩ := Numbers.mapM Modifier.number_ids f.modifiers (n + 1)
  obtain ⟨c₂, h₂, i₂⟩ := Numbers.mapM Param.number_ids f.params (n + 1 + c₁)
  dsimp only at i₁ i₂
  cases hb : f.body with
  | none =>
    -- a missing body takes no numbers
    refine ⟨c₁ + c₂ + 1, ?_, ?_⟩
    · simp only [FuncDecl.number, hb, Numbering.run_bind, freshSite_run, Numbering.run_pure]
      rw [h₁, h₂]
      omega
    · simp only [FuncDecl.number, hb, Numbering.run_bind, freshSite_run, Numbering.run_pure,
        FuncDecl.ids, Option.map_none, Option.getD_none, List.append_nil]
      rw [i₁, h₁, i₂, List.range'_append_1, range'_cons]
  | some b =>
    obtain ⟨c₃, h₃, i₃⟩ := Block.number_ids b (n + 1 + c₁ + c₂)
    refine ⟨c₁ + c₂ + c₃ + 1, ?_, ?_⟩
    · simp only [FuncDecl.number, hb, Numbering.run_bind, freshSite_run, Numbering.run_pure,
        Numbering.run_map]
      rw [h₁, h₂, h₃]
      omega
    · simp only [FuncDecl.number, hb, Numbering.run_bind, freshSite_run, Numbering.run_pure,
        Numbering.run_map, FuncDecl.ids, Option.map_some, Option.getD_some]
      rw [i₁, h₁, i₂, h₂, i₃, List.range'_append_1, Nat.add_assoc (n + 1), List.range'_append_1,
        range'_cons]

mutual

theorem Decl.number_ids : ∀ d : Decl, Numbers Decl.ids d.number
  | .func f => by
    intro n
    obtain ⟨c, h, i⟩ := FuncDecl.number_ids f n
    refine ⟨c, ?_, ?_⟩
    · simp only [Decl.number, Numbering.run_map]
      rw [h]
    · simp only [Decl.number, Numbering.run_map, Decl.ids]
      rw [i]
  | .cls s _ ms members => by
    intro n
    obtain ⟨c₁, h₁, i₁⟩ := Numbers.mapM Modifier.number_ids ms (n + 1)
    dsimp only at i₁
    obtain ⟨c₂, h₂, i₂⟩ := Decl.numberList_ids members (n + 1 + c₁)
    refine ⟨c₁ + c₂ + 1, ?_, ?_⟩
    · simp only [Decl.number, Numbering.run_bind, freshSite_run, Numbering.run_pure]
      rw [h₁, h₂]
      omega
    · simp only [Decl.number, Numbering.run_bind, freshSite_run, Numbering.run_pure, Decl.ids]
      rw [i₁, h₁, i₂, List.range'_append_1, range'_cons]
  | .hashCall s e => by
    intro n
    obtain ⟨c, h, i⟩ := Expr.number_ids e (n + 1)
    refine ⟨c + 1, ?_, ?_⟩
    · simp only [Decl.number, Numbering.run_bind, freshSite_run, Numbering.run_pure]
      rw [h]
      omega
    · simp only [Decl.number, Numbering.run_bind, freshSite_run, Numbering.run_pure, Decl.ids]
      rw [i, range'_cons]

theorem Decl.numberList_ids : ∀ ds : List Decl, Numbers Decl.idsList (Decl.numberList ds)
  | [] => fun n => ⟨0, rfl, rfl⟩
  | d :: ds => by
    intro n
    obtain ⟨c₁, h₁, i₁⟩ := Decl.number_ids d n
    obtain ⟨c₂, h₂, i₂⟩ := Decl.numberList_ids ds (n + c₁)
    refine ⟨c₁ + c₂, ?_, ?_⟩
    · simp only [Decl.numberList, Numbering.run_bind, Numbering.run_pure]
      rw [h₁, h₂]
      omega
    · simp only [Decl.numberList, Numbering.run_bind, Numbering.run_pure, Decl.idsList]
      rw [i₁, h₁, i₂, List.range'_append_1]

end

/-- Numbering a file from `n` gives out `n, …, n' - 1` to its nodes in pre-order, and returns
`n'`. -/
theorem SourceFile.number_ids (f : SourceFile) (n : Nat) :
    ∃ c, (f.number n).2 = n + c ∧ (f.number n).1.ids = List.range' n c := by
  obtain ⟨c, h, i⟩ := Decl.numberList_ids f.decls (n + 1)
  refine ⟨c + 1, ?_, ?_⟩
  · simp only [SourceFile.number, Numbering.run_bind, freshSite_run, Numbering.run_pure]
    rw [h]
    omega
  · simp only [SourceFile.number, Numbering.run_bind, freshSite_run, Numbering.run_pure,
        SourceFile.ids]
    rw [i, range'_cons]

/-- The numbers of a numbered file are distinct and lie between the number it started from
and the next free one. -/
theorem SourceFile.number_fresh (f : SourceFile) (n : Nat) :
    n ≤ (f.number n).2 ∧ (f.number n).1.ids.Nodup ∧
      ∀ k ∈ (f.number n).1.ids, n ≤ k ∧ k < (f.number n).2 := by
  obtain ⟨c, h, i⟩ := f.number_ids n
  refine ⟨by omega, by rw [i]; exact List.nodup_range', fun k hk => ?_⟩
  rw [i, List.mem_range'_1] at hk
  omega

theorem FuncDecl.site_mem_ids (f : FuncDecl) : f.site.id ∈ f.ids := by simp [FuncDecl.ids]

theorem FuncDecl.param_mem_ids {f : FuncDecl} {k : Nat} (hk : k ∈ f.params.map fun p => p.site.id) :
    k ∈ f.ids := by
  obtain ⟨p, hp, rfl⟩ := List.mem_map.1 hk
  simp only [FuncDecl.ids, List.mem_cons, List.mem_append, List.mem_flatMap]
  exact Or.inr (Or.inl (Or.inr ⟨p, hp, Or.inl rfl⟩))

/-- An expression's own node is one of its nodes. -/
theorem Expr.site_mem_ids (e : Expr) : e.site.id ∈ e.ids := by
  cases e <;> simp [Expr.site, Expr.ids]

mutual

/-- A function declared among declarations is numbered with them. -/
theorem Decl.funcs_site_mem : ∀ (d : Decl) {g : FuncDecl}, g ∈ d.funcs → g.site.id ∈ d.ids
  | .func f, g, h => by
    simp only [Decl.funcs, List.mem_singleton] at h
    subst h
    simp [Decl.ids, FuncDecl.ids]
  | .cls _ _ _ members, g, h => by
    simp only [Decl.funcs] at h
    simp [Decl.ids, Decl.funcsList_site_mem members h]
  | .hashCall _ _, g, h => by simp [Decl.funcs] at h

theorem Decl.funcsList_site_mem :
    ∀ (ds : List Decl) {g : FuncDecl}, g ∈ Decl.funcsList ds → g.site.id ∈ Decl.idsList ds
  | [], g, h => by simp [Decl.funcsList] at h
  | d :: ds, g, h => by
    simp only [Decl.funcsList, List.mem_append] at h
    rcases h with h | h
    · simp [Decl.idsList, Decl.funcs_site_mem d h]
    · simp [Decl.idsList, Decl.funcsList_site_mem ds h]

end

end Abla
