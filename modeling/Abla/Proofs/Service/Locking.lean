import Mathlib
import Abla.Build.NamedLock
import Abla.Proofs.Service.Nesting

/-!
# Named locks exclude, and keep no entry that is not in use

In every reachable state of a named lock and the goroutines that use it:

* the set's own mutex is held by the goroutine that is in a section it guards, if any;
* a name has an entry exactly while some goroutine holds it or is counted on its mutex and
  waits to take it, and the entry's count is the number of holders plus the number of waiters;
* every goroutine that holds a name or waits for it has the entry's mutex, and that mutex is
  held by the goroutines that hold the name: by one at most;
* a goroutine in `Unlock(name)` holds the name, so `Unlock` finds an entry and a mutex that is
  held, and never panics.

The invariant is `Sound`, and `Sound.step` keeps it. The steps that only move a goroutine
between points where it is counted the same are one case (`Sound.move`); counting on a name
(`Sound.register`), taking its mutex (`Sound.acquire`) and releasing it (`Sound.release`) are
one case each. The main statement is `named_lock_exclusive`.
-/

namespace Abla

namespace NamedLock

/-- Whether a goroutine holds `name`. -/
def Goroutine.holds (r : Goroutine) (name : String) : Bool := r.held.any (·.1 == name)

/-- Whether a goroutine is counted on `name`'s mutex and has yet to take it. -/
def Goroutine.waits (r : Goroutine) (name : String) : Bool :=
  match r.pc with
  | .lockRelease n _ | .lockAcquire n _ => n == name
  | _ => false

/-- The address of the mutex a goroutine took, or is about to take, for `name`. -/
def Goroutine.Uses (r : Goroutine) (name : String) (c : Nat) : Prop :=
  (name, c) ∈ r.held ∨ r.pc = .lockRelease name c ∨ r.pc = .lockAcquire name c

/-- The number of goroutines holding `name`. -/
def holders (s : NamedLock) (name : String) : Nat := s.goroutines.countP (·.holds name)

/-- The number of goroutines counted on `name`'s mutex that wait to take it. -/
def waiters (s : NamedLock) (name : String) : Nat := s.goroutines.countP (·.waits name)

variable {s : NamedLock} {g : Nat} {r : Goroutine}

theorem Goroutine.holds_iff {r : Goroutine} {n : String} :
    r.holds n = true ↔ ∃ c, (n, c) ∈ r.held := by
  simp only [Goroutine.holds, List.any_eq_true, beq_iff_eq]
  constructor
  · rintro ⟨⟨m, c⟩, hm, rfl⟩
    exact ⟨c, hm⟩
  · rintro ⟨c, hc⟩
    exact ⟨(n, c), hc, rfl⟩

theorem Goroutine.waits_iff {r : Goroutine} {n : String} :
    r.waits n = true ↔ ∃ c, r.pc = .lockRelease n c ∨ r.pc = .lockAcquire n c := by
  rcases r with ⟨held, pc⟩
  cases pc with
  | lockRelease m c | lockAcquire m c =>
    simp only [Goroutine.waits, beq_iff_eq, Pc.lockRelease.injEq, Pc.lockAcquire.injEq,
      reduceCtorEq, or_false, false_or]
    constructor
    · rintro rfl
      exact ⟨c, rfl, rfl⟩
    · rintro ⟨c', rfl, rfl⟩
      rfl
  | _ => simp [Goroutine.waits]

@[simp] theorem setGoroutine_goroutines (s : NamedLock) (g : Nat) (r : Goroutine) :
    (s.setGoroutine g r).goroutines = s.goroutines.set g r := rfl

@[simp] theorem setGoroutine_locks (s : NamedLock) (g : Nat) (r : Goroutine) :
    (s.setGoroutine g r).locks = s.locks := rfl

@[simp] theorem setGoroutine_cells (s : NamedLock) (g : Nat) (r : Goroutine) :
    (s.setGoroutine g r).cells = s.cells := rfl

@[simp] theorem setGoroutine_guard (s : NamedLock) (g : Nat) (r : Goroutine) :
    (s.setGoroutine g r).guard = s.guard := rfl

@[simp] theorem setCell_goroutines (s : NamedLock) (c : Nat) (x : Cell) :
    (s.setCell c x).goroutines = s.goroutines := rfl

@[simp] theorem setCell_locks (s : NamedLock) (c : Nat) (x : Cell) :
    (s.setCell c x).locks = s.locks := rfl

@[simp] theorem setCell_guard (s : NamedLock) (c : Nat) (x : Cell) :
    (s.setCell c x).guard = s.guard := rfl

@[simp] theorem setCell_cells_length (s : NamedLock) (c : Nat) (x : Cell) :
    (s.setCell c x).cells.length = s.cells.length := by
  simp [setCell]

theorem cell_setCell {c : Nat} (hc : c < s.cells.length) (x : Cell) (c' : Nat) :
    (s.setCell c x).cell c' = if c' = c then x else s.cell c' := by
  simp only [cell, setCell, List.getD_eq_getElem?_getD, List.getElem?_set]
  by_cases h : c' = c
  · subst h
    simp [hc]
  · simp [h, Ne.symm h]

/-- The goroutines after one of them, at `r`, is replaced. -/
theorem getElem?_setGoroutine (hg : s.goroutines[g]? = some r) (r' : Goroutine) (g' : Nat) :
    (s.goroutines.set g r')[g']? = if g' = g then some r' else s.goroutines[g']? := by
  have hlt : g < s.goroutines.length := (List.getElem?_eq_some_iff.1 hg).1
  by_cases h : g' = g
  · subst h
    simp [hlt]
  · simp [Ne.symm h, h]

/-- Replacing a goroutine changes a count of goroutines by what the two records count. -/
theorem countP_setGoroutine (p : Goroutine → Bool) (hg : s.goroutines[g]? = some r)
    (r' : Goroutine) :
    (s.goroutines.set g r').countP p + (if p r then 1 else 0) =
      s.goroutines.countP p + (if p r' then 1 else 0) := by
  obtain ⟨hi, rfl⟩ := List.getElem?_eq_some_iff.1 hg
  have hle := List.boole_getElem_le_countP (p := p) hi
  rw [List.countP_set hi]
  omega

/-- The invariant of a named lock. -/
structure Sound (s : NamedLock) : Prop where
  /-- The set's mutex is held by the goroutine in a section it guards. -/
  guard_iff : ∀ (g : Nat) (r : Goroutine), s.goroutines[g]? = some r → (s.guard = some g ↔ r.pc.guarded = true)
  guard_lt : ∀ g, s.guard = some g → g < s.goroutines.length
  /-- Entries name mutexes that were made, a different one for each name. -/
  cell_lt : ∀ n c, s.locks.lookup n = some c → c < s.cells.length
  cell_inj : ∀ n n' c, s.locks.lookup n = some c → s.locks.lookup n' = some c → n = n'
  /-- A name's entry counts its holders and waiters, and is there exactly while they are. -/
  refs_eq : ∀ n c, s.locks.lookup n = some c → (s.cell c).refs = s.holders n + s.waiters n
  in_use : ∀ n c, s.locks.lookup n = some c → 0 < s.holders n + s.waiters n
  unused : ∀ n, s.locks.lookup n = none → s.holders n + s.waiters n = 0
  /-- The mutex a goroutine took or waits for is the entry's. -/
  uses_entry : ∀ (g : Nat) (r : Goroutine) (n : String) (c : Nat), s.goroutines[g]? = some r → r.Uses n c → s.locks.lookup n = some c
  /-- An entry's mutex is held by the goroutine that holds the name. -/
  holder_iff : ∀ n c g, s.locks.lookup n = some c →
    ((s.cell c).holder = some g ↔ ∃ r, s.goroutines[g]? = some r ∧ (n, c) ∈ r.held)
  /-- A goroutine in `Unlock(name)` holds the name. -/
  unlocking : ∀ (g : Nat) (r : Goroutine) (n : String), s.goroutines[g]? = some r →
    (r.pc = .unlockEnter n ∨ r.pc = .unlockBody n) → r.holds n = true
  not_panicked : ∀ (g : Nat) (r : Goroutine) (msg : String), s.goroutines[g]? = some r → r.pc ≠ .panicked msg

theorem Sound.init : Sound {} where
  guard_iff := by simp
  guard_lt := by simp
  cell_lt := by simp
  cell_inj := by simp
  refs_eq := by simp
  in_use := by simp
  unused := by simp [holders, waiters]
  uses_entry := by simp
  holder_iff := by simp
  unlocking := by simp
  not_panicked := by simp

/-- A goroutine holding a name holds the entry's mutex. -/
theorem Sound.holder_of_held (hs : Sound s) (hg : s.goroutines[g]? = some r) {n : String}
    {c : Nat} (hc : (n, c) ∈ r.held) : s.locks.lookup n = some c ∧ (s.cell c).holder = some g := by
  have he := hs.uses_entry g r n c hg (.inl hc)
  exact ⟨he, (hs.holder_iff n c g he).2 ⟨r, hg, hc⟩⟩

/-! ## Steps that leave the counts alone -/

/-- A goroutine moving to a point where it waits for the same mutex as before, if any, keeps
the invariant, provided the set's mutex goes with the sections it guards. -/
theorem Sound.move (hs : Sound s) (hg : s.goroutines[g]? = some r) {p : Pc} {G : Option Nat}
    {t : NamedLock} (hgs : t.goroutines = s.goroutines.set g { r with pc := p })
    (hlocks : t.locks = s.locks) (hcells : t.cells = s.cells) (hG : t.guard = G)
    (hwait : ∀ n c, (r.pc = .lockRelease n c ∨ r.pc = .lockAcquire n c) ↔
      (p = .lockRelease n c ∨ p = .lockAcquire n c))
    (hguard : G = some g ↔ p.guarded = true)
    (hothers : ∀ g', g' ≠ g → (G = some g' ↔ s.guard = some g'))
    (hunlock : ∀ n, (p = .unlockEnter n ∨ p = .unlockBody n) → r.holds n = true)
    (hpanic : ∀ msg, p ≠ .panicked msg) : Sound t := by
  have hlt : g < s.goroutines.length := (List.getElem?_eq_some_iff.1 hg).1
  have hw : ∀ n, ({ r with pc := p } : Goroutine).waits n = r.waits n := by
    intro n
    rw [Bool.eq_iff_iff, Goroutine.waits_iff, Goroutine.waits_iff]
    exact exists_congr fun c => (hwait n c).symm
  have hh : ∀ n, t.holders n = s.holders n := fun n => by
    have := countP_setGoroutine (·.holds n) hg { r with pc := p }
    simp only [holders, hgs]
    exact Nat.add_right_cancel this
  have hwt : ∀ n, t.waiters n = s.waiters n := fun n => by
    have := countP_setGoroutine (·.waits n) hg { r with pc := p }
    simp only [hw] at this
    simp only [waiters, hgs]
    exact Nat.add_right_cancel this
  have hcell : ∀ c, t.cell c = s.cell c := fun c => by simp [cell, hcells]
  have hget := getElem?_setGoroutine hg { r with pc := p }
  constructor
  · intro g' r' h'
    rw [hgs, hget] at h'
    rw [hG]
    split at h'
    · subst g'
      cases h'
      exact hguard
    · rename_i hne
      rw [hothers g' hne]
      exact hs.guard_iff g' r' h'
  · intro g' h'
    rw [hG] at h'
    rw [hgs, List.length_set]
    by_cases hne : g' = g
    · exact hne ▸ hlt
    · exact hs.guard_lt g' ((hothers g' hne).1 h')
  · intro n c h
    rw [hcells]
    exact hs.cell_lt n c (hlocks ▸ h)
  · intro n n' c h h'
    exact hs.cell_inj n n' c (hlocks ▸ h) (hlocks ▸ h')
  · intro n c h
    rw [hh, hwt, hcell]
    exact hs.refs_eq n c (hlocks ▸ h)
  · intro n c h
    rw [hh, hwt]
    exact hs.in_use n c (hlocks ▸ h)
  · intro n h
    rw [hh, hwt]
    exact hs.unused n (hlocks ▸ h)
  · intro g' r' n c h' hu
    rw [hgs, hget] at h'
    rw [hlocks]
    split at h'
    · cases h'
      refine hs.uses_entry g r n c hg ?_
      rcases hu with hu | hu
      · exact .inl hu
      · exact .inr ((hwait n c).2 hu)
    · exact hs.uses_entry g' r' n c h' hu
  · intro n c g' h
    rw [hcell, hs.holder_iff n c g' (hlocks ▸ h), hgs, hget]
    by_cases hne : g' = g
    · subst hne
      simp [hg]
    · simp [hne]
  · intro g' r' n h' hp
    rw [hgs, hget] at h'
    split at h'
    · cases h'
      exact hunlock n hp
    · exact hs.unlocking g' r' n h' hp
  · intro g' r' msg h'
    rw [hgs, hget] at h'
    split at h'
    · cases h'
      exact hpanic msg
    · exact hs.not_panicked g' r' msg h'

/-! ## Counting on a name -/

/-- A list with one more element at its end, read with a default. -/
theorem getD_concat {α : Type} (l : List α) (x d : α) (c : Nat) :
    (l ++ [x]).getD c d = if c = l.length then x else l.getD c d := by
  rcases Nat.lt_trichotomy c l.length with h | h | h
  · rw [List.getD_append _ _ _ _ h, if_neg (Nat.ne_of_lt h)]
  · subst h
    simp
  · rw [if_neg (Nat.ne_of_gt h), List.getD_eq_default _ _ (by simp; omega),
      List.getD_eq_default _ _ (by omega)]

/-- What a goroutine at `pc` is counted as waiting for. -/
theorem Goroutine.waits_lockRelease (held : List (String × Nat)) (n m : String) (c : Nat) :
    ({ held, pc := .lockRelease n c } : Goroutine).waits m = (n == m) := rfl

theorem Goroutine.waits_of_pc {r : Goroutine} (h : ∀ n c, r.pc ≠ .lockRelease n c ∧ r.pc ≠ .lockAcquire n c)
    (m : String) : r.waits m = false := by
  rw [← Bool.not_eq_true, Goroutine.waits_iff]
  rintro ⟨c, hc | hc⟩
  · exact (h m c).1 hc
  · exact (h m c).2 hc

/-- A goroutine counted on `n` adds one waiter for `n`. -/
theorem waiters_count {t : NamedLock} (hg : s.goroutines[g]? = some r) {r' : Goroutine}
    (hgs : t.goroutines = s.goroutines.set g r') (hr : ∀ m, r.waits m = false)
    {n : String} (hr' : ∀ m, r'.waits m = (n == m)) (m : String) :
    t.waiters m = s.waiters m + if n = m then 1 else 0 := by
  have := countP_setGoroutine (·.waits m) hg r'
  simp only [hr, hr', Bool.false_eq_true, if_false, beq_iff_eq] at this
  simp only [waiters, hgs]
  omega

/-- `Lock`'s section under the set's mutex keeps the invariant: the goroutine is counted on the
name's mutex, which is made if the name has none. -/
theorem Sound.register (hs : Sound s) (hg : s.goroutines[g]? = some r) {n : String}
    (hpc : r.pc = .lockLookup n) :
    Sound ((s.register n).1.setGoroutine g { r with pc := .lockRelease n (s.register n).2 }) := by
  have hguard : s.guard = some g := (hs.guard_iff g r hg).2 (by simp [hpc, Pc.guarded])
  have hr : ∀ m, r.waits m = false := Goroutine.waits_of_pc (by simp [hpc])
  have hlt : g < s.goroutines.length := (List.getElem?_eq_some_iff.1 hg).1
  unfold NamedLock.register
  split
  · -- the name has an entry: its mutex counts one more
    rename_i c hl
    have hc := hs.cell_lt n c hl
    set t := (s.setCell c { s.cell c with refs := (s.cell c).refs + 1 }).setGoroutine g
      { r with pc := .lockRelease n c }
    have hgs : t.goroutines = s.goroutines.set g { r with pc := .lockRelease n c } := rfl
    have hget := getElem?_setGoroutine hg { r with pc := .lockRelease n c }
    have hh : ∀ m, t.holders m = s.holders m := fun m => by
      have := countP_setGoroutine (·.holds m) hg { r with pc := .lockRelease n c }
      exact Nat.add_right_cancel this
    have hw := waiters_count hg hgs hr (Goroutine.waits_lockRelease r.held n · c)
    have hcell : ∀ c', t.cell c' = if c' = c then { s.cell c with refs := (s.cell c).refs + 1 }
        else s.cell c' := cell_setCell hc _
    constructor
    · intro g' r' h'
      rw [hgs, hget] at h'
      split at h'
      · subst g'
        cases h'
        simpa [t, Pc.guarded] using hguard
      · rename_i hne
        exact hs.guard_iff g' r' h'
    · intro g' h'
      simpa [t] using hs.guard_lt g' h'
    · intro m c' h
      simpa [t] using hs.cell_lt m c' h
    · exact hs.cell_inj
    · intro m c' h
      rw [hh, hw, hcell]
      split
      · subst c'
        have hm := hs.cell_inj m n c h hl
        subst m
        simp [hs.refs_eq n c hl]
        ring
      · rename_i hne
        have hm : n ≠ m := fun he => hne (Option.some.inj ((he ▸ hl).symm.trans h) ▸ rfl)
        simp [hs.refs_eq m c' h, hm]
    · intro m c' h
      rw [hh, hw]
      have := hs.in_use m c' h
      omega
    · intro m h
      have hm : n ≠ m := by
        rintro rfl
        exact absurd (hl.symm.trans h) (by simp)
      rw [hh, hw, if_neg hm]
      exact hs.unused m h
    · intro g' r' m c' h' hu
      rw [hgs, hget] at h'
      split at h'
      · cases h'
        rcases hu with hu | hu | hu
        · exact hs.uses_entry g r m c' hg (.inl hu)
        · simp only [Pc.lockRelease.injEq] at hu
          obtain ⟨rfl, rfl⟩ := hu
          exact hl
        · simp at hu
      · exact hs.uses_entry g' r' m c' h' hu
    · intro m c' g' h
      rw [hcell, hgs, hget]
      have hx : (if c' = c then { s.cell c with refs := (s.cell c).refs + 1 } else s.cell c').holder =
          (s.cell c').holder := by
        split <;> simp_all
      rw [hx, hs.holder_iff m c' g' h]
      by_cases hne : g' = g
      · subst hne
        simp [hg]
      · simp [hne]
    · intro g' r' m h' hp
      rw [hgs, hget] at h'
      split at h'
      · cases h'
        simp at hp
      · exact hs.unlocking g' r' m h' hp
    · intro g' r' msg h'
      rw [hgs, hget] at h'
      split at h'
      · cases h'
        simp
      · exact hs.not_panicked g' r' msg h'
  · -- the name has no entry: a new mutex is made for it, counting one goroutine
    rename_i hl
    have hfree := hs.unused n hl
    set L := s.cells.length
    set t := ({ s with locks := Units.setEntry s.locks n L, cells := s.cells ++ [{ refs := 1 }] } :
      NamedLock).setGoroutine g { r with pc := .lockRelease n L }
    have hgs : t.goroutines = s.goroutines.set g { r with pc := .lockRelease n L } := rfl
    have hget := getElem?_setGoroutine hg { r with pc := .lockRelease n L }
    have hlook : ∀ m, t.locks.lookup m = if m = n then some L else s.locks.lookup m :=
      fun m => Units.lookup_setEntry s.locks n m L
    have hh : ∀ m, t.holders m = s.holders m := fun m => by
      have := countP_setGoroutine (·.holds m) hg { r with pc := .lockRelease n L }
      exact Nat.add_right_cancel this
    have hw := waiters_count hg hgs hr (Goroutine.waits_lockRelease r.held n · L)
    have hcell : ∀ c', t.cell c' = if c' = L then { refs := 1 } else s.cell c' :=
      fun c' => getD_concat s.cells _ {} c'
    -- nobody used the name before, since it had no entry
    have hnone : ∀ (g' : Nat) (r' : Goroutine) (c' : Nat), s.goroutines[g']? = some r' →
        ¬ r'.Uses n c' := fun g' r' c' h' hu => by
      have := hs.uses_entry g' r' n c' h' hu
      rw [hl] at this
      exact absurd this (by simp)
    constructor
    · intro g' r' h'
      rw [hgs, hget] at h'
      split at h'
      · subst g'
        cases h'
        simpa [t, Pc.guarded] using hguard
      · exact hs.guard_iff g' r' h'
    · intro g' h'
      simpa [t] using hs.guard_lt g' h'
    · intro m c' h
      rw [hlook] at h
      have hlen : t.cells.length = L + 1 := by simp [t, L]
      rw [hlen]
      split at h
      · cases h
        omega
      · have := hs.cell_lt m c' h
        omega
    · intro m m' c' h h'
      rw [hlook] at h h'
      split at h <;> split at h'
      · simp_all
      · cases h
        have := hs.cell_lt m' _ h'
        omega
      · cases h'
        have := hs.cell_lt m _ h
        omega
      · exact hs.cell_inj m m' c' h h'
    · intro m c' h
      rw [hh, hw, hcell]
      rw [hlook] at h
      split at h
      · subst m
        cases h
        simp
        omega
      · rename_i hne
        have hc : c' ≠ L := Nat.ne_of_lt (hs.cell_lt m c' h)
        rw [if_neg hc, hs.refs_eq m c' h, if_neg (Ne.symm hne)]
        simp
    · intro m c' h
      rw [hh, hw]
      rw [hlook] at h
      split at h
      · simp_all
      · have := hs.in_use m c' h
        omega
    · intro m h
      rw [hlook] at h
      split at h
      · simp at h
      · rename_i hne
        rw [hh, hw, if_neg (Ne.symm hne)]
        exact hs.unused m h
    · intro g' r' m c' h' hu
      rw [hgs, hget] at h'
      rw [hlook]
      split at h'
      · cases h'
        rcases hu with hu | hu | hu
        · have := hs.uses_entry g r m c' hg (.inl hu)
          split
          · subst m
            exact absurd (.inl hu) (hnone g r c' hg)
          · exact this
        · simp only [Pc.lockRelease.injEq] at hu
          obtain ⟨rfl, rfl⟩ := hu
          simp
        · simp at hu
      · split
        · subst m
          exact absurd hu (hnone g' r' c' h')
        · exact hs.uses_entry g' r' m c' h' hu
    · intro m c' g' h
      rw [hcell, hgs, hget]
      rw [hlook] at h
      split at h
      · -- the new mutex is free, and no goroutine holds the name
        subst m
        cases h
        simp only [if_true]
        constructor
        · simp
        · rintro ⟨r', h', hm⟩
          split at h'
          · cases h'
            exact (hnone g r L hg (.inl hm)).elim
          · exact (hnone g' r' L h' (.inl hm)).elim
      · have hc := hs.cell_lt m c' h
        rw [if_neg (Nat.ne_of_lt hc), hs.holder_iff m c' g' h]
        by_cases hne : g' = g
        · subst hne
          simp [hg]
        · simp [hne]
    · intro g' r' m h' hp
      rw [hgs, hget] at h'
      split at h'
      · cases h'
        simp at hp
      · exact hs.unlocking g' r' m h' hp
    · intro g' r' msg h'
      rw [hgs, hget] at h'
      split at h'
      · cases h'
        simp
      · exact hs.not_panicked g' r' msg h'

/-! ## Taking a name's mutex -/

theorem Goroutine.holds_append (r : Goroutine) (n m : String) (c : Nat) (pc : Pc) :
    ({ held := r.held ++ [(n, c)], pc } : Goroutine).holds m = (r.holds m || n == m) := by
  simp [Goroutine.holds, List.any_append]

/-- Taking a free mutex keeps the invariant: the goroutine stops waiting for the name and holds
it, so the count does not change. It did not hold the name before, or the mutex would not be
free. -/
theorem Sound.acquire (hs : Sound s) (hg : s.goroutines[g]? = some r) {n : String} {c : Nat}
    (hpc : r.pc = .lockAcquire n c) (hfree : (s.cell c).holder = none) :
    Sound ((s.setCell c { s.cell c with holder := some g }).setGoroutine g
      { held := r.held ++ [(n, c)], pc := .idle }) := by
  have hl : s.locks.lookup n = some c := hs.uses_entry g r n c hg (.inr (.inr hpc))
  have hc := hs.cell_lt n c hl
  have hnot : r.holds n = false := by
    rw [← Bool.not_eq_true, Goroutine.holds_iff]
    rintro ⟨c', hc'⟩
    obtain ⟨hl', hh'⟩ := hs.holder_of_held hg hc'
    rw [hl] at hl'
    cases hl'
    rw [hfree] at hh'
    cases hh'
  have hnotg : s.guard ≠ some g := fun h => by
    simpa [hpc, Pc.guarded] using (hs.guard_iff g r hg).1 h
  set r' : Goroutine := { held := r.held ++ [(n, c)], pc := .idle }
  set t := (s.setCell c { s.cell c with holder := some g }).setGoroutine g r'
  have hgs : t.goroutines = s.goroutines.set g r' := rfl
  have hget := getElem?_setGoroutine hg r'
  have hsum : ∀ m, t.holders m + t.waiters m = s.holders m + s.waiters m := fun m => by
    have hh := countP_setGoroutine (·.holds m) hg r'
    have hw := countP_setGoroutine (·.waits m) hg r'
    beta_reduce at hh hw
    have hr : r.waits m = (n == m) := by simp [Goroutine.waits, hpc]
    have hr'h : r'.holds m = (r.holds m || n == m) := Goroutine.holds_append r n m c .idle
    have hr'w : r'.waits m = false := rfl
    rw [hr'h] at hh
    rw [hr, hr'w] at hw
    change (s.goroutines.set g r').countP (·.holds m) + (s.goroutines.set g r').countP (·.waits m) =
      s.goroutines.countP (·.holds m) + s.goroutines.countP (·.waits m)
    by_cases hm : n = m
    · subst hm
      simp only [hnot, beq_self_eq_true, Bool.or_true, Bool.false_eq_true, if_false, if_true] at hh hw
      omega
    · have hb : (n == m) = false := by simpa using hm
      simp only [hb, Bool.or_false, Bool.false_eq_true, if_false] at hh hw
      omega
  have hcell : ∀ c', t.cell c' = if c' = c then { s.cell c with holder := some g } else s.cell c' :=
    cell_setCell hc _
  constructor
  · intro g' r'' h'
    rw [hgs, hget] at h'
    split at h'
    · subst g'
      cases h'
      simpa [t, r', Pc.guarded] using hnotg
    · exact hs.guard_iff g' r'' h'
  · intro g' h'
    simpa [t] using hs.guard_lt g' h'
  · intro m c' h
    simpa [t] using hs.cell_lt m c' h
  · exact hs.cell_inj
  · intro m c' h
    have hrefs : (t.cell c').refs = (s.cell c').refs := by
      rw [hcell]
      split <;> simp_all
    have hsm := hsum m
    rw [hrefs, hs.refs_eq m c' h]
    omega
  · intro m c' h
    rw [hsum]
    exact hs.in_use m c' h
  · intro m h
    rw [hsum]
    exact hs.unused m h
  · intro g' r'' m c' h' hu
    rw [hgs, hget] at h'
    split at h'
    · cases h'
      rcases hu with hu | hu | hu
      · rcases List.mem_append.1 hu with hu | hu
        · exact hs.uses_entry g r m c' hg (.inl hu)
        · simp only [List.mem_singleton, Prod.mk.injEq] at hu
          obtain ⟨rfl, rfl⟩ := hu
          exact hl
      · simp [r'] at hu
      · simp [r'] at hu
    · exact hs.uses_entry g' r'' m c' h' hu
  · intro m c' g' h
    rw [hcell, hgs, hget]
    by_cases hcc : c' = c
    · -- the mutex just taken: its holder is the goroutine, the only one holding the name
      subst hcc
      have hm : m = n := hs.cell_inj m n c' h hl
      subst hm
      simp only [if_true]
      by_cases hne : g' = g
      · subst hne
        simp [r']
      · simp only [hne, if_false]
        constructor
        · intro he
          exact absurd (Option.some.inj he) (Ne.symm hne)
        · rintro ⟨r'', h', hm⟩
          have := (hs.holder_iff m c' g' h).2 ⟨r'', h', hm⟩
          rw [hfree] at this
          cases this
    · rw [if_neg hcc, hs.holder_iff m c' g' h]
      by_cases hne : g' = g
      · subst hne
        simp only [hg, if_true, Option.some.injEq, exists_eq_left', r', List.mem_append,
          List.mem_singleton, Prod.mk.injEq]
        constructor
        · exact .inl
        · rintro (h | ⟨-, rfl⟩)
          · exact h
          · exact absurd rfl hcc
      · simp [hne]
  · intro g' r'' m h' hp
    rw [hgs, hget] at h'
    split at h'
    · cases h'
      simp [r'] at hp
    · exact hs.unlocking g' r'' m h' hp
  · intro g' r'' msg h'
    rw [hgs, hget] at h'
    split at h'
    · cases h'
      simp [r']
    · exact hs.not_panicked g' r'' msg h'

/-! ## Releasing a name's mutex -/

theorem Goroutine.holds_filter_self (r : Goroutine) (n : String) (pc : Pc) :
    ({ held := r.held.filter (·.1 ≠ n), pc } : Goroutine).holds n = false := by
  simp [Goroutine.holds, List.any_filter]

theorem Goroutine.holds_filter_ne (r : Goroutine) {n m : String} (hm : m ≠ n) (pc : Pc) :
    ({ held := r.held.filter (·.1 ≠ n), pc } : Goroutine).holds m = r.holds m := by
  simp only [Goroutine.holds, List.any_filter]
  congr 1
  funext x
  by_cases hx : x.1 = m
  · simp [hx, hm]
  · simp [hx]

/-- A goroutine that holds or waits for a name counts in its entry. -/
theorem interest_pos {t : NamedLock} {g' : Nat} {r' : Goroutine} (h : t.goroutines[g']? = some r')
    {n : String} (hu : r'.holds n = true ∨ r'.waits n = true) : 0 < t.holders n + t.waiters n := by
  have hmem : r' ∈ t.goroutines := List.mem_of_getElem? h
  rcases hu with hu | hu
  · have : 0 < t.holders n := List.countP_pos_iff.2 ⟨r', hmem, hu⟩
    omega
  · have : 0 < t.waiters n := List.countP_pos_iff.2 ⟨r', hmem, hu⟩
    omega

theorem Goroutine.Uses.interest {r : Goroutine} {n : String} {c : Nat} (hu : r.Uses n c) :
    r.holds n = true ∨ r.waits n = true := by
  rcases hu with hu | hu | hu
  · exact .inl (Goroutine.holds_iff.2 ⟨c, hu⟩)
  · exact .inr (Goroutine.waits_iff.2 ⟨c, .inl hu⟩)
  · exact .inr (Goroutine.waits_iff.2 ⟨c, .inr hu⟩)

/-- `Unlock`'s section keeps the invariant, whether the entry stays or goes: the goroutine stops
holding the name, its mutex is free and counts one goroutine fewer, and the entry goes exactly
when that count reaches zero. -/
theorem Sound.release_of (hs : Sound s) (hg : s.goroutines[g]? = some r) {n : String} {c : Nat}
    (hpc : r.pc = .unlockBody n) (hc : (n, c) ∈ r.held) {t : NamedLock}
    (hgs : t.goroutines =
      s.goroutines.set g { held := r.held.filter (·.1 ≠ n), pc := .unlockRelease n })
    (hcells : t.cells = s.cells.set c { holder := none, refs := (s.cell c).refs - 1 })
    (hG : t.guard = s.guard)
    (hlook : ∀ m, t.locks.lookup m =
      if m = n then (if (s.cell c).refs - 1 = 0 then none else some c) else s.locks.lookup m) :
    Sound t := by
  obtain ⟨hl, hholder⟩ := hs.holder_of_held hg hc
  have hclt := hs.cell_lt n c hl
  have hguard : s.guard = some g := (hs.guard_iff g r hg).2 (by simp [hpc, Pc.guarded])
  set r' : Goroutine := { held := r.held.filter (·.1 ≠ n), pc := .unlockRelease n }
  have hget := getElem?_setGoroutine hg r'
  have hrw : ∀ m, r.waits m = false := Goroutine.waits_of_pc (by simp [hpc])
  have hw : ∀ m, t.waiters m = s.waiters m := fun m => by
    have := countP_setGoroutine (·.waits m) hg r'
    beta_reduce at this
    rw [hrw, show r'.waits m = false from rfl] at this
    simp only [waiters, hgs]
    exact Nat.add_right_cancel this
  have hh : ∀ m, t.holders m + (if m = n then 1 else 0) = s.holders m := fun m => by
    have := countP_setGoroutine (·.holds m) hg r'
    beta_reduce at this
    simp only [holders, hgs]
    by_cases hm : m = n
    · subst hm
      rw [Goroutine.holds_filter_self, hs.unlocking g r m hg (.inr hpc)] at this
      simpa using this
    · rw [Goroutine.holds_filter_ne r hm] at this
      simp only [hm, if_false]
      omega
  have hcell : ∀ c', t.cell c' = if c' = c then { holder := none, refs := (s.cell c).refs - 1 }
      else s.cell c' := fun c' => by
    have := cell_setCell hclt { holder := none, refs := (s.cell c).refs - 1 } c'
    simpa [cell, setCell, hcells] using this
  -- the count the entry keeps, if it stays
  have hcount : (s.cell c).refs - 1 = t.holders n + t.waiters n := by
    have h1 := hh n
    have h2 := hw n
    rw [hs.refs_eq n c hl]
    simp only [if_true] at h1
    omega
  have hother : ∀ m c', m ≠ n → s.locks.lookup m = some c' → c' ≠ c := fun m c' hm h he =>
    hm (hs.cell_inj m n c (he ▸ h) hl)
  constructor
  · intro g' r'' h'
    rw [hgs, hget] at h'
    rw [hG]
    split at h'
    · subst g'
      cases h'
      simpa [r', Pc.guarded] using hguard
    · exact hs.guard_iff g' r'' h'
  · intro g' h'
    rw [hG] at h'
    simpa [hgs] using hs.guard_lt g' h'
  · intro m c' h
    rw [hlook] at h
    rw [hcells, List.length_set]
    split at h
    · split at h
      · simp at h
      · cases h
        exact hclt
    · exact hs.cell_lt m c' h
  · intro m m' c' h h'
    rw [hlook] at h h'
    split at h <;> split at h'
    · simp_all
    · rename_i hm hm'
      split at h
      · simp at h
      · cases h
        exact absurd (hs.cell_inj m' n c h' hl) hm'
    · rename_i hm hm'
      split at h'
      · simp at h'
      · cases h'
        exact absurd (hs.cell_inj m n c h hl) hm
    · exact hs.cell_inj m m' c' h h'
  · intro m c' h
    rw [hlook] at h
    split at h
    · subst m
      split at h
      · simp at h
      · cases h
        rw [hcell, if_pos rfl]
        exact hcount
    · rename_i hm
      rw [hcell, if_neg (hother m c' hm h), hw, hs.refs_eq m c' h]
      have := hh m
      simp only [hm, if_false] at this
      omega
  · intro m c' h
    rw [hlook] at h
    split at h
    · subst m
      split at h
      · simp at h
      · rename_i hz
        omega
    · rename_i hm
      have := hh m
      have := hs.in_use m c' h
      simp only [hm, if_false] at *
      rw [hw]
      omega
  · intro m h
    rw [hlook] at h
    split at h
    · subst m
      split at h
      · rename_i hz
        omega
      · simp at h
    · rename_i hm
      have := hh m
      have := hs.unused m h
      simp only [hm, if_false] at *
      rw [hw]
      omega
  · intro g' r'' m c' h' hu
    rw [hlook]
    rw [hgs, hget] at h'
    split at h'
    · cases h'
      rcases hu with hu | hu | hu
      · obtain ⟨hu, hm⟩ := List.mem_filter.1 hu
        simp only [ne_eq, decide_eq_true_eq] at hm
        rw [if_neg hm]
        exact hs.uses_entry g r m c' hg (.inl hu)
      · simp [r'] at hu
      · simp [r'] at hu
    · rename_i hne
      have hold := hs.uses_entry g' r'' m c' h' hu
      split
      · -- another goroutine still on the name keeps its entry
        subst m
        rw [hl] at hold
        cases hold
        have hpos := interest_pos (t := t) (by rw [hgs, hget, if_neg hne]; exact h') hu.interest
        rw [if_neg (by omega)]
      · exact hold
  · intro m c' g' h
    rw [hlook] at h
    rw [hcell, hgs, hget]
    split at h
    · subst m
      split at h
      · simp at h
      · cases h
        simp only [if_true, reduceCtorEq, false_iff]
        rintro ⟨r'', h', hm⟩
        split at h'
        · cases h'
          simp [r'] at hm
        · rename_i hne
          have := (hs.holder_iff n c g' hl).2 ⟨r'', h', hm⟩
          rw [hholder] at this
          exact hne (Option.some.inj this).symm
    · rename_i hm
      rw [if_neg (hother m c' hm h), hs.holder_iff m c' g' h]
      by_cases hne : g' = g
      · subst hne
        simp [hg, r', hm]
      · simp [hne]
  · intro g' r'' m h' hp
    rw [hgs, hget] at h'
    split at h'
    · cases h'
      simp [r'] at hp
    · exact hs.unlocking g' r'' m h' hp
  · intro g' r'' msg h'
    rw [hgs, hget] at h'
    split at h'
    · cases h'
      simp [r']
    · exact hs.not_panicked g' r'' msg h'

/-- `Unlock`'s section keeps the invariant; the goroutine holds the name, so it finds the entry
and a mutex that is held, and does not panic. -/
theorem Sound.release (hs : Sound s) (hg : s.goroutines[g]? = some r) {n : String}
    (hpc : r.pc = .unlockBody n) : Sound (s.release g r n) := by
  obtain ⟨c, hc⟩ := Goroutine.holds_iff.1 (hs.unlocking g r n hg (.inr hpc))
  obtain ⟨hl, hholder⟩ := hs.holder_of_held hg hc
  unfold NamedLock.release
  simp only [hl, hholder, reduceCtorEq, if_false]
  split
  · rename_i hz
    exact hs.release_of hg hpc hc rfl rfl rfl fun m => by
      simp only [Units.lookup_dropEntry, hz, if_true]
  · rename_i hz
    exact hs.release_of hg hpc hc rfl rfl rfl fun m => by
      simp only [hz, if_false, setGoroutine_locks, setCell_locks]
      split
      · subst m
        exact hl
      · rfl

/-! ## Every step -/

/-- A new goroutine holds and waits for nothing. -/
theorem Sound.spawn (hs : Sound s) :
    Sound { s with goroutines := s.goroutines ++ [({} : Goroutine)] } := by
  have hget : ∀ (g' : Nat) (r' : Goroutine), (s.goroutines ++ [({} : Goroutine)])[g']? = some r' →
      s.goroutines[g']? = some r' ∨ (g' = s.goroutines.length ∧ r' = {}) :=
    fun _ _ h => Machine.getElem?_concat_cases h
  have hh : ∀ n, holders { s with goroutines := s.goroutines ++ [({} : Goroutine)] } n =
      s.holders n := by
    simp [holders, Goroutine.holds]
  have hw : ∀ n, waiters { s with goroutines := s.goroutines ++ [({} : Goroutine)] } n =
      s.waiters n := by
    simp [waiters, Goroutine.waits]
  constructor
  · intro g' r' h'
    rcases hget g' r' h' with h' | ⟨rfl, rfl⟩
    · exact hs.guard_iff g' r' h'
    · simp only [Pc.guarded, Bool.false_eq_true, iff_false]
      intro he
      exact absurd (hs.guard_lt _ he) (Nat.lt_irrefl _)
  · intro g' h'
    have := hs.guard_lt g' h'
    simp only [List.length_append, List.length_singleton]
    omega
  · exact hs.cell_lt
  · exact hs.cell_inj
  · intro n c h
    rw [hh, hw]
    exact hs.refs_eq n c h
  · intro n c h
    rw [hh, hw]
    exact hs.in_use n c h
  · intro n h
    rw [hh, hw]
    exact hs.unused n h
  · intro g' r' n c h' hu
    rcases hget g' r' h' with h' | ⟨-, rfl⟩
    · exact hs.uses_entry g' r' n c h' hu
    · simp [Goroutine.Uses] at hu
  · intro n c g' h
    show (s.cell c).holder = some g' ↔
      ∃ r, (s.goroutines ++ [({} : Goroutine)])[g']? = some r ∧ (n, c) ∈ r.held
    rw [hs.holder_iff n c g' h]
    constructor
    · rintro ⟨r', h', hm⟩
      refine ⟨r', ?_, hm⟩
      rw [List.getElem?_append_left (List.getElem?_eq_some_iff.1 h').1]
      exact h'
    · rintro ⟨r', h', hm⟩
      rcases hget g' r' h' with h' | ⟨-, rfl⟩
      · exact ⟨r', h', hm⟩
      · simp at hm
  · intro g' r' n h' hp
    rcases hget g' r' h' with h' | ⟨-, rfl⟩
    · exact hs.unlocking g' r' n h' hp
    · simp at hp
  · intro g' r' msg h'
    rcases hget g' r' h' with h' | ⟨-, rfl⟩
    · exact hs.not_panicked g' r' msg h'
    · simp

/-- The next step of a goroutine in a call keeps the invariant. -/
theorem Sound.advance (hs : Sound s) (hg : s.goroutines[g]? = some r) {t : NamedLock}
    (h : s.advance g r = some t) : Sound t := by
  have hgd := hs.guard_iff g r hg
  unfold NamedLock.advance at h
  split at h
  · simp at h
  · simp at h
  · -- `Lock` takes the set's mutex
    rename_i n hpc
    split at h
    · rename_i hfree
      cases h
      refine hs.move hg rfl rfl rfl rfl (by simp [hpc]) (by simp [Pc.guarded]) ?_ (by simp)
        (by simp)
      intro g' hne
      simp [hfree, Ne.symm hne]
    · simp at h
  · rename_i n hpc
    cases h
    exact hs.register hg hpc
  · -- `Lock` releases the set's mutex
    rename_i n c hpc
    cases h
    have hguard : s.guard = some g := hgd.2 (by simp [hpc, Pc.guarded])
    refine hs.move hg rfl rfl rfl rfl (by simp [hpc]) (by simp [Pc.guarded]) ?_ (by simp)
      (by simp)
    intro g' hne
    simp [hguard, Ne.symm hne]
  · rename_i n c hpc
    split at h
    · rename_i hfree
      cases h
      exact hs.acquire hg hpc hfree
    · simp at h
  · -- `Unlock` takes the set's mutex
    rename_i n hpc
    split at h
    · rename_i hfree
      cases h
      refine hs.move hg rfl rfl rfl rfl (by simp [hpc]) (by simp [Pc.guarded]) ?_ ?_ (by simp)
      · intro g' hne
        simp [hfree, Ne.symm hne]
      · intro m hm
        simp only [Pc.unlockBody.injEq, reduceCtorEq, false_or] at hm
        subst hm
        exact hs.unlocking g r n hg (.inl hpc)
    · simp at h
  · rename_i n hpc
    cases h
    exact hs.release hg hpc
  · -- `Unlock`'s deferred release of the set's mutex
    rename_i n hpc
    cases h
    have hguard : s.guard = some g := hgd.2 (by simp [hpc, Pc.guarded])
    refine hs.move hg rfl rfl rfl rfl (by simp [hpc]) (by simp [Pc.guarded]) ?_ (by simp)
      (by simp)
    intro g' hne
    simp [hguard, Ne.symm hne]

/-- Every step keeps the invariant. -/
theorem Sound.step (hs : Sound s) {a : Action} {t : NamedLock} (h : s.step a = some t) :
    Sound t := by
  cases a with
  | spawn =>
    cases h
    exact hs.spawn
  | lock g n =>
    simp only [NamedLock.step] at h
    split at h
    · rename_i r hg
      split at h
      · rename_i hidle
        cases h
        have hgd : s.guard ≠ some g := fun he => by
          simpa [hidle, Pc.guarded] using (hs.guard_iff g r hg).1 he
        exact hs.move hg rfl rfl rfl rfl (by simp [hidle]) (by simpa [Pc.guarded] using hgd)
          (fun _ _ => Iff.rfl) (by simp) (by simp)
      · simp at h
    · simp at h
  | unlock g n =>
    simp only [NamedLock.step] at h
    split at h
    · rename_i r hg
      split at h
      · rename_i hcall
        cases h
        have hgd : s.guard ≠ some g := fun he => by
          simpa [hcall.1, Pc.guarded] using (hs.guard_iff g r hg).1 he
        refine hs.move hg rfl rfl rfl rfl (by simp [hcall.1]) (by simpa [Pc.guarded] using hgd)
          (fun _ _ => Iff.rfl) ?_ (by simp)
        intro m hm
        simp only [Pc.unlockEnter.injEq, reduceCtorEq, or_false] at hm
        subst hm
        exact hcall.2
      · simp at h
    · simp at h
  | next g =>
    simp only [NamedLock.step] at h
    split at h
    · rename_i r hg
      exact hs.advance hg h
    · simp at h

theorem Sound.of_reachable {s : NamedLock} (h : Reachable s) : Sound s := by
  induction h with
  | init => exact Sound.init
  | step a _ hstep ih => exact ih.step hstep

/-! ## Exclusion -/

/-- What a named lock guarantees. -/
structure Exclusive (s : NamedLock) : Prop where
  /-- At most one goroutine holds a name. -/
  one_holder : ∀ (n : String) (g g' : Nat) (r r' : Goroutine), s.goroutines[g]? = some r →
    s.goroutines[g']? = some r' →
    r.holds n = true → r'.holds n = true → g = g'
  /-- Names do not exclude each other: a goroutine about to take a name's mutex can take it
  exactly when no goroutine holds that name. -/
  acquire_iff : ∀ (g : Nat) (r : Goroutine) (n : String) (c : Nat), s.goroutines[g]? = some r → r.pc = .lockAcquire n c →
    ((s.step (.next g)).isSome = true ↔ ∀ r' ∈ s.goroutines, r'.holds n = false)
  /-- A name has an entry exactly while some goroutine holds it or waits for it. -/
  entry_iff : ∀ n, (s.locks.lookup n).isSome = true ↔
    ∃ r ∈ s.goroutines, r.holds n = true ∨ r.waits n = true
  /-- The entry counts the goroutines holding the name and those waiting for it. -/
  refs_eq : ∀ n c, s.locks.lookup n = some c → (s.cell c).refs = s.holders n + s.waiters n
  /-- Which is the number of these goroutines, unless one waits for a name it holds itself. -/
  refs_eq_count : ∀ n c, s.locks.lookup n = some c →
    (∀ r ∈ s.goroutines, ¬(r.holds n = true ∧ r.waits n = true)) →
    (s.cell c).refs = s.goroutines.countP (fun r => r.holds n || r.waits n)
  /-- `Len()` is zero when no name is held or awaited. -/
  len_eq_zero : (∀ r ∈ s.goroutines, ∀ n, r.holds n = false ∧ r.waits n = false) → s.len = 0
  /-- All goroutines holding or waiting for a name have one mutex. -/
  one_mutex : ∀ (g g' : Nat) (r r' : Goroutine) (n : String) (c c' : Nat),
    s.goroutines[g]? = some r → s.goroutines[g']? = some r' →
    r.Uses n c → r'.Uses n c' → c = c'
  /-- `Unlock` never panics. -/
  never_panics : ∀ r ∈ s.goroutines, ∀ msg, r.pc ≠ .panicked msg

/-- Of goroutines that never both hold and wait for a name, those that do either are counted by
adding the two counts. -/
theorem countP_or_of_disjoint {α : Type} (p q : α → Bool) (l : List α)
    (h : ∀ a ∈ l, ¬(p a = true ∧ q a = true)) :
    l.countP (fun a => p a || q a) = l.countP p + l.countP q := by
  induction l with
  | nil => rfl
  | cons a l ih =>
    have ha := h a (by simp)
    rw [List.countP_cons, List.countP_cons, List.countP_cons, ih fun b hb => h b (by simp [hb])]
    cases hp : p a <;> cases hq : q a <;> simp_all <;> omega

theorem Sound.interest_iff (hs : Sound s) (n : String) :
    (s.locks.lookup n).isSome = true ↔ 0 < s.holders n + s.waiters n := by
  cases hl : s.locks.lookup n with
  | none => simp [hs.unused n hl]
  | some c => simpa using hs.in_use n c hl

theorem interest_pos_iff (s : NamedLock) (n : String) :
    0 < s.holders n + s.waiters n ↔ ∃ r ∈ s.goroutines, r.holds n = true ∨ r.waits n = true := by
  rw [Nat.add_pos_iff_pos_or_pos, holders, waiters, List.countP_pos_iff, List.countP_pos_iff]
  constructor
  · rintro (⟨r, hr, h⟩ | ⟨r, hr, h⟩)
    · exact ⟨r, hr, .inl h⟩
    · exact ⟨r, hr, .inr h⟩
  · rintro ⟨r, hr, h | h⟩
    · exact .inl ⟨r, hr, h⟩
    · exact .inr ⟨r, hr, h⟩

theorem Sound.exclusive (hs : Sound s) : Exclusive s where
  one_holder n g g' r r' hg hg' hr hr' := by
    obtain ⟨c, hc⟩ := Goroutine.holds_iff.1 hr
    obtain ⟨c', hc'⟩ := Goroutine.holds_iff.1 hr'
    obtain ⟨hl, hh⟩ := hs.holder_of_held hg hc
    obtain ⟨hl', hh'⟩ := hs.holder_of_held hg' hc'
    rw [hl] at hl'
    cases hl'
    rw [hh] at hh'
    exact Option.some.inj hh'
  acquire_iff g r n c hg hpc := by
    have hl := hs.uses_entry g r n c hg (.inr (.inr hpc))
    simp only [NamedLock.step, hg, NamedLock.advance, hpc]
    rw [show ((if (s.cell c).holder = none then some _ else none : Option NamedLock).isSome = true ↔
      (s.cell c).holder = none) by split <;> simp_all]
    constructor
    · -- a free mutex has no holder, so nobody holds the name
      intro hfree r' hr'
      rw [← Bool.not_eq_true, Goroutine.holds_iff]
      rintro ⟨c', hc'⟩
      obtain ⟨g', hg'⟩ := List.mem_iff_getElem?.1 hr'
      obtain ⟨hl', hh'⟩ := hs.holder_of_held hg' hc'
      rw [hl] at hl'
      cases hl'
      rw [hfree] at hh'
      cases hh'
    · intro hall
      cases hh : (s.cell c).holder with
      | none => rfl
      | some g' =>
        obtain ⟨r', hg', hc'⟩ := (hs.holder_iff n c g' hl).1 hh
        have := hall r' (List.mem_of_getElem? hg')
        rw [Goroutine.holds_iff.2 ⟨c, hc'⟩] at this
        cases this
  entry_iff n := (hs.interest_iff n).trans (interest_pos_iff s n)
  refs_eq := hs.refs_eq
  refs_eq_count n c hl hdis := by
    rw [hs.refs_eq n c hl, holders, waiters, countP_or_of_disjoint _ _ _ hdis]
    push_cast
    rfl
  len_eq_zero hnone := by
    cases hl : s.locks with
    | nil => simp [len, hl]
    | cons e rest =>
      -- the first entry is in use, so some goroutine holds or waits for its name
      have he : (s.locks.lookup e.1).isSome = true := by simp [hl]
      obtain ⟨r, hr, h⟩ := (hs.interest_iff e.1).1 he |> (interest_pos_iff s e.1).1
      obtain ⟨h1, h2⟩ := hnone r hr e.1
      rcases h with h | h
      · rw [h1] at h
        cases h
      · rw [h2] at h
        cases h
  one_mutex g g' r r' n c c' hg hg' hu hu' :=
    Option.some.inj ((hs.uses_entry g r n c hg hu).symm.trans (hs.uses_entry g' r' n c' hg' hu'))
  never_panics r hr msg := by
    obtain ⟨g, hg⟩ := List.mem_iff_getElem?.1 hr
    exact hs.not_panicked g r msg hg

/-- Takes actions one after another, as long as each can be taken. -/
def run (s : NamedLock) : List Action → Option NamedLock
  | [] => some s
  | a :: as => (s.step a).bind fun t => t.run as

theorem Reachable.run {s t : NamedLock} (h : Reachable s) :
    ∀ (as : List Action), s.run as = some t → Reachable t
  | [], hr => by
    cases hr
    exact h
  | a :: as, hr => by
    simp only [NamedLock.run] at hr
    cases hs : s.step a with
    | none => simp [hs] at hr
    | some s' =>
      rw [hs] at hr
      exact (Reachable.step a h hs).run as hr

/-- Two goroutines lock one name: the first takes it, and the second is counted on its mutex
and is about to take it. -/
def contending : List Action :=
  [.spawn, .spawn, .lock 0 "a", .next 0, .next 0, .next 0, .next 0, .lock 1 "a", .next 1, .next 1,
    .next 1]

/-- The state `contending` leads to. -/
def contended : NamedLock := (({} : NamedLock).run contending).getD {}

/-- The name has one entry, which counts both goroutines, and the second cannot go on. -/
example : contended.len = 1 ∧ (contended.cell 0).refs = 2 ∧ contended.step (.next 1) = none := by
  decide

end NamedLock

end Abla
