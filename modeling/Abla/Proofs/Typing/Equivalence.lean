import Mathlib
import Abla.Codegen.TypeMap

/-!
# Type equivalence and the LLVM types

`DataType.equiv` is an equivalence relation on all data types. On the types that mention no
class, `DataType.toIr` always gives an LLVM type, and two such types have the same LLVM type
exactly when they are equivalent: parameters are compared position by position, and a missing
return type is `Void`, which is the only type whose LLVM type is `void`. A type that mentions a
class anywhere, as a parameter or a return at any depth, has no LLVM type, and the error is
an `unknown type` error.

The main statement is `toIr_reflects_equiv`.
-/

namespace Abla

namespace DataType

mutual

/-- Whether a type mentions a class type, at any depth. -/
def hasClass : DataType → Bool
  | .prim _ => false
  | .func ps r => hasClassList ps || hasClassRet r
  | .user _ _ => true

/-- Whether one of a list of types mentions a class type. -/
def hasClassList : List DataType → Bool
  | [] => false
  | t :: ts => t.hasClass || hasClassList ts

/-- Whether a return type mentions a class type; a missing one does not. -/
def hasClassRet : Option DataType → Bool
  | none => false
  | some t => t.hasClass

end

/-! ## `equiv` is an equivalence relation -/

mutual

theorem equiv_refl : ∀ t : DataType, t.equiv t = true
  | .prim _ => by simp [equiv]
  | .func ps r => by simp [equiv, equivList_refl ps, equivRet_refl r]
  | .user _ ps => by simp [equiv, equivList_refl ps]

theorem equivList_refl : ∀ ts : List DataType, equivList ts ts = true
  | [] => rfl
  | t :: ts => by simp [equivList, equiv_refl t, equivList_refl ts]

theorem equivRet_refl : ∀ r : Option DataType, equivRet r r = true
  | none => rfl
  | some t => by simp [equivRet, equiv_refl t]

end

mutual

theorem equiv_comm : ∀ a b : DataType, a.equiv b = b.equiv a
  | .prim p, .prim q => by simp [equiv, eq_comm]
  | .func ps r, .func qs s => by simp [equiv, equivList_comm ps qs, equivRet_comm r s]
  | .user n ps, .user m qs => by simp [equiv, eq_comm, equivList_comm ps qs]
  | .prim _, .func _ _ | .prim _, .user _ _ | .func _ _, .prim _ | .func _ _, .user _ _
  | .user _ _, .prim _ | .user _ _, .func _ _ => rfl

theorem equivList_comm : ∀ as bs : List DataType, equivList as bs = equivList bs as
  | [], [] | [], _ :: _ | _ :: _, [] => rfl
  | a :: as, b :: bs => by simp [equivList, equiv_comm a b, equivList_comm as bs]

theorem equivRet_comm : ∀ r s : Option DataType, equivRet r s = equivRet s r
  | some a, some b => by simp [equivRet, equiv_comm a b, Bool.or_comm, Bool.and_comm]
  | none, none | none, some _ | some _, none => by simp [equivRet, Bool.and_comm]

end

/-- Two returns that are both `Void` are equivalent. -/
theorem equivRet_of_isVoid {r s : Option DataType} (hr : isVoid r = true) (hs : isVoid s = true) :
    equivRet r s = true := by
  cases r <;> cases s <;> simp_all [equivRet]

/-- Equivalent returns are both `Void` or both not. -/
theorem isVoid_eq_of_equivRet {r s : Option DataType} (h : equivRet r s = true) :
    isVoid r = isVoid s := by
  cases r with
  | none => cases s <;> simp_all [equivRet]
  | some a =>
    cases s with
    | none => simp_all [equivRet]
    | some b =>
      simp only [equivRet] at h
      split at h <;> grind

/-- Two returns that are not `Void` are equivalent when their types are. -/
theorem equivRet_some {a b : DataType} (ha : isVoid (some a) = false)
    (hb : isVoid (some b) = false) : equivRet (some a) (some b) = a.equiv b := by
  simp [equivRet, ha, hb]

mutual

theorem equiv_trans : ∀ {a b c : DataType}, a.equiv b = true → b.equiv c = true →
    a.equiv c = true
  | .prim p, .prim q, .prim r, h₁, h₂ => by simp_all [equiv]
  | .func ps r, .func qs s, .func us t, h₁, h₂ => by
    simp only [equiv, Bool.and_eq_true] at h₁ h₂ ⊢
    exact ⟨equivList_trans h₁.1 h₂.1, equivRet_trans h₁.2 h₂.2⟩
  | .user n ps, .user m qs, .user k us, h₁, h₂ => by
    simp only [equiv, Bool.and_eq_true, decide_eq_true_eq] at h₁ h₂ ⊢
    exact ⟨h₁.1.trans h₂.1, equivList_trans h₁.2 h₂.2⟩
  | .prim _, .func _ _, _, h, _ | .prim _, .user _ _, _, h, _ | .func _ _, .prim _, _, h, _
  | .func _ _, .user _ _, _, h, _ | .user _ _, .prim _, _, h, _ | .user _ _, .func _ _, _, h, _ =>
    by simp [equiv] at h
  | _, .prim _, .func _ _, _, h | _, .prim _, .user _ _, _, h | _, .func _ _, .prim _, _, h
  | _, .func _ _, .user _ _, _, h | _, .user _ _, .prim _, _, h | _, .user _ _, .func _ _, _, h =>
    by simp [equiv] at h

theorem equivList_trans : ∀ {as bs cs : List DataType}, equivList as bs = true →
    equivList bs cs = true → equivList as cs = true
  | [], [], [], _, _ => rfl
  | a :: as, b :: bs, c :: cs, h₁, h₂ => by
    simp only [equivList, Bool.and_eq_true] at h₁ h₂ ⊢
    exact ⟨equiv_trans h₁.1 h₂.1, equivList_trans h₁.2 h₂.2⟩
  | [], _ :: _, _, h, _ | _ :: _, [], _, h, _ | _, [], _ :: _, _, h | _, _ :: _, [], _, h =>
    by simp [equivList] at h

theorem equivRet_trans : ∀ {r s t : Option DataType}, equivRet r s = true →
    equivRet s t = true → equivRet r t = true
  | some a, some b, some c, h₁, h₂ => by
    -- either all three returns are `Void`, or none is and their types are equivalent
    have hab := isVoid_eq_of_equivRet h₁
    have hbc := isVoid_eq_of_equivRet h₂
    cases ha : isVoid (some a) with
    | false =>
      have hb : isVoid (some b) = false := by rw [← hab, ha]
      have hc : isVoid (some c) = false := by rw [← hbc, hb]
      rw [equivRet_some ha hb] at h₁
      rw [equivRet_some hb hc] at h₂
      rw [equivRet_some ha hc]
      exact equiv_trans h₁ h₂
    | true => exact equivRet_of_isVoid ha (by rw [← hbc, ← hab, ha])
  | none, s, t, h₁, h₂ | some _, none, t, h₁, h₂ | some _, some _, none, h₁, h₂ => by
    -- a missing return is `Void`, so all three are
    have hab := isVoid_eq_of_equivRet h₁
    have hbc := isVoid_eq_of_equivRet h₂
    exact equivRet_of_isVoid (by simp_all [isVoid]) (by simp_all [isVoid])

end

/-! ## The LLVM type of a type -/

theorem toIr_func_eq_ok {ps : List DataType} {r : Option DataType} {x : Ir.Ty} :
    (func ps r).toIr = .ok x ↔
      ∃ xs y, toIrList ps = .ok xs ∧ retToIr r = .ok y ∧ x = .ptr (.func y xs) := by
  rw [toIr]
  cases toIrList ps <;> cases retToIr r <;> simp [bind, Except.bind, eq_comm]

theorem toIrList_cons_eq_ok {t : DataType} {ts : List DataType} {xs : List Ir.Ty} :
    toIrList (t :: ts) = .ok xs ↔
      ∃ x xs', t.toIr = .ok x ∧ toIrList ts = .ok xs' ∧ xs = x :: xs' := by
  rw [toIrList]
  cases t.toIr <;> cases toIrList ts <;> simp [bind, Except.bind, eq_comm]

mutual

/-- A type without a class has an LLVM type. -/
theorem toIr_ok : ∀ t : DataType, t.hasClass = false → ∃ x, t.toIr = .ok x
  | .prim p, _ => ⟨p.toIr, rfl⟩
  | .func ps r, h => by
    simp only [hasClass, Bool.or_eq_false_iff] at h
    obtain ⟨xs, hxs⟩ := toIrList_ok ps h.1
    obtain ⟨y, hy⟩ := retToIr_ok r h.2
    exact ⟨_, toIr_func_eq_ok.2 ⟨xs, y, hxs, hy, rfl⟩⟩
  | .user _ _, h => by simp [hasClass] at h

theorem toIrList_ok : ∀ ts : List DataType, hasClassList ts = false → ∃ xs, toIrList ts = .ok xs
  | [], _ => ⟨[], rfl⟩
  | t :: ts, h => by
    simp only [hasClassList, Bool.or_eq_false_iff] at h
    obtain ⟨x, hx⟩ := toIr_ok t h.1
    obtain ⟨xs, hxs⟩ := toIrList_ok ts h.2
    exact ⟨_, toIrList_cons_eq_ok.2 ⟨x, xs, hx, hxs, rfl⟩⟩

theorem retToIr_ok : ∀ r : Option DataType, hasClassRet r = false → ∃ x, retToIr r = .ok x
  | none, _ => ⟨.void, rfl⟩
  | some t, h => toIr_ok t h

end

mutual

/-- A type with an LLVM type has no class. -/
theorem hasClass_of_toIr : ∀ {t : DataType} {x : Ir.Ty}, t.toIr = .ok x → t.hasClass = false
  | .prim _, _, _ => rfl
  | .func ps r, _, h => by
    obtain ⟨xs, y, hxs, hy, -⟩ := toIr_func_eq_ok.1 h
    simp [hasClass, hasClassList_of_toIrList hxs, hasClassRet_of_retToIr hy]
  | .user _ _, _, h => by simp [toIr] at h

theorem hasClassList_of_toIrList : ∀ {ts : List DataType} {xs : List Ir.Ty},
    toIrList ts = .ok xs → hasClassList ts = false
  | [], _, _ => rfl
  | t :: ts, _, h => by
    obtain ⟨x, xs', hx, hxs', -⟩ := toIrList_cons_eq_ok.1 h
    simp [hasClassList, hasClass_of_toIr hx, hasClassList_of_toIrList hxs']

theorem hasClassRet_of_retToIr : ∀ {r : Option DataType} {x : Ir.Ty},
    retToIr r = .ok x → hasClassRet r = false
  | none, _, _ => rfl
  | some _, _, h => hasClass_of_toIr h

end

mutual

/-- Every failure of the type mapping is an `unknown type` error. -/
theorem toIr_error_kind : ∀ {t : DataType} {e : CompileError}, t.toIr = .error e →
    e.kind = .unknownType
  | .prim _, _, h => by simp [toIr] at h
  | .func ps r, e, h => by
    rw [toIr] at h
    cases hps : toIrList ps with
    | error e' =>
      simp only [hps, bind, Except.bind, Except.error.injEq] at h
      exact h ▸ toIrList_error_kind hps
    | ok xs =>
      cases hr : retToIr r with
      | error e' =>
        simp only [hps, hr, bind, Except.bind, Except.error.injEq] at h
        exact h ▸ retToIr_error_kind hr
      | ok y => simp [hps, hr, bind, Except.bind] at h
  | .user _ _, _, h => by
    simp only [toIr, Except.error.injEq] at h
    rw [← h]

theorem toIrList_error_kind : ∀ {ts : List DataType} {e : CompileError},
    toIrList ts = .error e → e.kind = .unknownType
  | [], _, h => by simp [toIrList] at h
  | t :: ts, e, h => by
    rw [toIrList] at h
    cases ht : t.toIr with
    | error e' =>
      simp only [ht, bind, Except.bind, Except.error.injEq] at h
      exact h ▸ toIr_error_kind ht
    | ok x =>
      cases hts : toIrList ts with
      | error e' =>
        simp only [ht, hts, bind, Except.bind, Except.error.injEq] at h
        exact h ▸ toIrList_error_kind hts
      | ok xs => simp [ht, hts, bind, Except.bind] at h

theorem retToIr_error_kind : ∀ {r : Option DataType} {e : CompileError},
    retToIr r = .error e → e.kind = .unknownType
  | none, _, h => by simp [retToIr] at h
  | some _, _, h => toIr_error_kind h

end

/-- A type that mentions a class has no LLVM type, and the error says the type is unknown. -/
theorem toIr_unknownType {t : DataType} (h : t.hasClass = true) :
    ∃ e, t.toIr = .error e ∧ e.kind = .unknownType := by
  cases ht : t.toIr with
  | ok x => simp [hasClass_of_toIr ht] at h
  | error e => exact ⟨e, rfl, toIr_error_kind ht⟩

/-! ## Equivalent types and only they have the same LLVM type -/

/-- `void` is the LLVM type of `Void` alone. -/
theorem same_void_toIr {t : DataType} {y : Ir.Ty} (h : t.toIr = .ok y) :
    Ir.Ty.same .void y = isVoid (some t) := by
  cases t with
  | prim p =>
    simp only [toIr, Except.ok.injEq] at h
    subst h
    cases p <;> rfl
  | func ps r =>
    obtain ⟨xs, y', -, -, rfl⟩ := toIr_func_eq_ok.1 h
    rfl
  | user _ _ => simp [toIr] at h

theorem same_toIr_void {t : DataType} {x : Ir.Ty} (h : t.toIr = .ok x) :
    Ir.Ty.same x .void = isVoid (some t) := by
  cases t with
  | prim p =>
    simp only [toIr, Except.ok.injEq] at h
    subst h
    cases p <;> rfl
  | func ps r =>
    obtain ⟨xs, y', -, -, rfl⟩ := toIr_func_eq_ok.1 h
    rfl
  | user _ _ => simp [toIr] at h

mutual

theorem same_toIr : ∀ {a b : DataType} {x y : Ir.Ty}, a.toIr = .ok x → b.toIr = .ok y →
    Ir.Ty.same x y = a.equiv b
  | .prim p, .prim q, x, y, hx, hy => by
    simp only [toIr, Except.ok.injEq] at hx hy
    subst hx hy
    cases p <;> cases q <;> rfl
  | .prim p, .func qs s, x, y, hx, hy => by
    simp only [toIr, Except.ok.injEq] at hx
    obtain ⟨ys, y', -, -, rfl⟩ := toIr_func_eq_ok.1 hy
    subst hx
    cases p <;> rfl
  | .func ps r, .prim q, x, y, hx, hy => by
    simp only [toIr, Except.ok.injEq] at hy
    obtain ⟨xs, x', -, -, rfl⟩ := toIr_func_eq_ok.1 hx
    subst hy
    cases q <;> rfl
  | .func ps r, .func qs s, x, y, hx, hy => by
    obtain ⟨xs, x', hxs, hx', rfl⟩ := toIr_func_eq_ok.1 hx
    obtain ⟨ys, y', hys, hy', rfl⟩ := toIr_func_eq_ok.1 hy
    simp only [Ir.Ty.same, equiv, same_retToIr hx' hy', sameList_toIrList hxs hys]
    exact Bool.and_comm _ _
  | .user _ _, _, _, _, hx, _ => by simp [toIr] at hx
  | _, .user _ _, _, _, _, hy => by simp [toIr] at hy

theorem sameList_toIrList : ∀ {as bs : List DataType} {xs ys : List Ir.Ty},
    toIrList as = .ok xs → toIrList bs = .ok ys → Ir.Ty.sameList xs ys = equivList as bs
  | [], [], _, _, hx, hy => by simp_all [toIrList, Ir.Ty.sameList, equivList]
  | a :: as, b :: bs, _, _, hx, hy => by
    obtain ⟨x, xs, hxa, hxs, rfl⟩ := toIrList_cons_eq_ok.1 hx
    obtain ⟨y, ys, hyb, hys, rfl⟩ := toIrList_cons_eq_ok.1 hy
    simp [Ir.Ty.sameList, equivList, same_toIr hxa hyb, sameList_toIrList hxs hys]
  | [], b :: bs, _, _, hx, hy => by
    obtain ⟨y, ys, -, -, rfl⟩ := toIrList_cons_eq_ok.1 hy
    simp_all [toIrList, Ir.Ty.sameList, equivList]
  | a :: as, [], _, _, hx, hy => by
    obtain ⟨x, xs, -, -, rfl⟩ := toIrList_cons_eq_ok.1 hx
    simp_all [toIrList, Ir.Ty.sameList, equivList]

theorem same_retToIr : ∀ {r s : Option DataType} {x y : Ir.Ty}, retToIr r = .ok x →
    retToIr s = .ok y → Ir.Ty.same x y = equivRet r s
  | none, none, _, _, hx, hy => by
    simp only [retToIr, Except.ok.injEq] at hx hy
    subst hx hy
    rfl
  | none, some b, _, _, hx, hy => by
    simp only [retToIr, Except.ok.injEq] at hx
    subst hx
    simp [equivRet, isVoid, same_void_toIr hy]
  | some a, none, _, _, hx, hy => by
    simp only [retToIr, Except.ok.injEq] at hy
    subst hy
    simp [equivRet, isVoid, same_toIr_void hx]
  | some a, some b, x, y, hx, hy => by
    -- a `Void` return on either side is compared as `void`, anything else by its type
    simp only [retToIr] at hx hy
    cases ha : isVoid (some a) with
    | true =>
      have hxv : x = .void := by
        cases a with
        | prim p => cases p <;> simp_all [isVoid, toIr, Prim.toIr]
        | func _ _ | user _ _ => simp [isVoid] at ha
      subst hxv
      simp [equivRet, ha, same_void_toIr hy]
    | false =>
      cases hb : isVoid (some b) with
      | true =>
        have hyv : y = .void := by
          cases b with
          | prim p => cases p <;> simp_all [isVoid, toIr, Prim.toIr]
          | func _ _ | user _ _ => simp [isVoid] at hb
        subst hyv
        simp [equivRet, hb, same_toIr_void hx]
      | false => rw [equivRet_some ha hb, same_toIr hx hy]

end

/-- Type equivalence is an equivalence relation, and on the types without a class the LLVM type
reflects and preserves it: both types have an LLVM type, and these are the same type exactly
when the two types are equivalent, with a missing return type counted as `Void`. A type that
mentions a class anywhere has no LLVM type, and the error is an `unknown type` error. -/
theorem toIr_reflects_equiv :
    (∀ a : DataType, a.equiv a = true) ∧
    (∀ a b : DataType, a.equiv b = true → b.equiv a = true) ∧
    (∀ a b c : DataType, a.equiv b = true → b.equiv c = true → a.equiv c = true) ∧
    (∀ a b : DataType, a.hasClass = false → b.hasClass = false →
      ∃ x y, a.toIr = .ok x ∧ b.toIr = .ok y ∧ (Ir.Ty.same x y = true ↔ a.equiv b = true)) ∧
    (∀ t : DataType, t.hasClass = true → ∃ e, t.toIr = .error e ∧ e.kind = .unknownType) := by
  refine ⟨equiv_refl, fun a b h => equiv_comm a b ▸ h, fun _ _ _ => equiv_trans,
    fun a b ha hb => ?_, fun _ => toIr_unknownType⟩
  obtain ⟨x, hx⟩ := toIr_ok a ha
  obtain ⟨y, hy⟩ := toIr_ok b hb
  exact ⟨x, y, hx, hy, by rw [same_toIr hx hy]⟩

/-- `(Int) -> Void` written with and without its return type: one LLVM type, `void (i32)*`. -/
theorem toIr_reflects_equiv_voidReturn :
    (func [.int] none).hasClass = false ∧ (func [.int] (some .void)).hasClass = false ∧
    ∃ x y, (func [.int] none).toIr = .ok x ∧ (func [.int] (some .void)).toIr = .ok y ∧
      (Ir.Ty.same x y = true ↔ (func [.int] none).equiv (func [.int] (some .void)) = true) :=
  ⟨rfl, rfl, toIr_reflects_equiv.2.2.2.1 _ _ rfl rfl⟩

end DataType

end Abla
