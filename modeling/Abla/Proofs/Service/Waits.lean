import Abla.Proofs.Service.Effects

/-!
# The waits graph has no cycle

`waits` holds a pair of units for each wait that `beginWait` recorded: the unit whose
execution blocks, and the unit whose job it waits for. `beginWait` records a pair only when
`waitsReach` finds no way back from the awaited unit to the waiting one. The search visits
each unit once within its fuel, and this module proves that it finds every unit reachable
along the waits (`waitsReach_of_reflTransGen`). A pair it lets in therefore closes no cycle,
a return only removes pairs, and the graph has no cycle in any state the service reaches
(`acyclic_of_reachable`).
-/

namespace Abla

namespace Machine

/-- Unit `x` waits on unit `y`. -/
def WaitsOn (waits : List (String × String)) (x y : String) : Prop := (x, y) ∈ waits

/-- A graph of waits without cycles. -/
def Acyclic (waits : List (String × String)) : Prop :=
  ∀ u, ¬ Relation.TransGen (WaitsOn waits) u u

section Visit

variable {waits : List (String × String)}

theorem mem_succs {u y : String} :
    y ∈ (waits.filter (·.1 == u)).map (·.2) ↔ WaitsOn waits u y := by
  simp only [List.mem_map, List.mem_filter, beq_iff_eq, WaitsOn]
  constructor
  · rintro ⟨⟨x, y'⟩, ⟨hmem, rfl⟩, rfl⟩
    exact hmem
  · intro h
    exact ⟨(u, y), ⟨h, rfl⟩, rfl⟩

/-- Every visited unit has its waits among the visited units or those still to visit. -/
def Closed (waits : List (String × String)) (seen todo : List String) : Prop :=
  ∀ x ∈ seen, ∀ y, WaitsOn waits x y → y ∈ seen ∨ y ∈ todo

/-- The waits of units not yet visited: with the units still to visit, they bound the visits
left. -/
def unvisited (waits : List (String × String)) (seen : List String) : Nat :=
  waits.countP fun e => !seen.contains e.1

/-- Visiting `u` turns its waits into units to visit. -/
theorem unvisited_cons {u : String} {seen : List String} (hu : u ∉ seen) :
    unvisited waits seen =
      unvisited waits (u :: seen) + ((waits.filter (·.1 == u)).map (·.2)).length := by
  unfold unvisited
  rw [List.length_map, ← List.countP_eq_length_filter]
  induction waits with
  | nil => rfl
  | cons e waits ih =>
    simp only [List.countP_cons, ih]
    by_cases he : e.1 = u
    · simp [he, hu]
      omega
    · simp [he]
      split <;> omega

/-- The search ends with every unit it started from or was given, and with every wait of a
visited unit leading to a visited unit, provided its fuel covers the units to visit and the
waits of the units not yet visited. -/
theorem visit_closed : ∀ (fuel : Nat) (todo seen : List String),
    todo.length + unvisited waits seen ≤ fuel → Closed waits seen todo →
    (∀ x ∈ seen, x ∈ visit waits fuel todo seen) ∧ (∀ x ∈ todo, x ∈ visit waits fuel todo seen) ∧
      Closed waits (visit waits fuel todo seen) []
  | 0, todo, seen, hfuel, hc => by
    have htodo : todo = [] := List.eq_nil_of_length_eq_zero (by omega)
    subst htodo
    exact ⟨fun _ hx => by simpa [visit] using hx, by simp, by simpa [visit] using hc⟩
  | _ + 1, [], seen, _, hc => ⟨fun _ hx => by simpa [visit] using hx, by simp, by simpa [visit] using hc⟩
  | fuel + 1, u :: todo, seen, hfuel, hc => by
    by_cases hu : u ∈ seen
    · -- `u` was visited: it is dropped, and the units still to visit cover the rest
      have hc' : Closed waits seen todo := by
        intro x hx y hxy
        rcases hc x hx y hxy with h | h
        · exact .inl h
        · rcases List.mem_cons.1 h with rfl | h
          · exact .inl hu
          · exact .inr h
      obtain ⟨hseen, htodo, hclosed⟩ := visit_closed fuel todo seen (by simp at hfuel; omega) hc'
      simp only [visit, List.contains_iff_mem, hu, if_true]
      refine ⟨hseen, ?_, hclosed⟩
      intro x hx
      rcases List.mem_cons.1 hx with rfl | hx
      · exact hseen x hu
      · exact htodo x hx
    · -- `u` is visited now: its waits join the units to visit
      have hfuel' : unvisited waits seen =
          unvisited waits (u :: seen) + ((waits.filter (·.1 == u)).map (·.2)).length :=
        unvisited_cons hu
      have hc' : Closed waits (u :: seen) ((waits.filter (·.1 == u)).map (·.2) ++ todo) := by
        intro x hx y hxy
        rcases List.mem_cons.1 hx with rfl | hx
        · exact .inr (List.mem_append_left _ (mem_succs.2 hxy))
        · rcases hc x hx y hxy with h | h
          · exact .inl (List.mem_cons_of_mem _ h)
          · rcases List.mem_cons.1 h with rfl | h
            · exact .inl List.mem_cons_self
            · exact .inr (List.mem_append_right _ h)
      obtain ⟨hseen, htodo, hclosed⟩ :=
        visit_closed fuel _ (u :: seen)
          (by simp only [List.length_append, List.length_cons] at hfuel ⊢; omega) hc'
      simp only [visit, List.contains_iff_mem, hu, if_false]
      refine ⟨fun x hx => hseen x (List.mem_cons_of_mem _ hx), ?_, hclosed⟩
      intro x hx
      rcases List.mem_cons.1 hx with rfl | hx
      · exact hseen x List.mem_cons_self
      · exact htodo x (List.mem_append_right _ hx)

/-- `waitsReach` finds every unit that is reachable along the waits. -/
theorem waitsReach_of_reflTransGen {src dst : String}
    (h : Relation.ReflTransGen (WaitsOn waits) src dst) : waitsReach waits src dst = true := by
  obtain ⟨-, htodo, hclosed⟩ := @visit_closed waits (waits.length + 1) [src] []
    (by simp [unvisited]; omega) (by simp [Closed])
  unfold waitsReach
  rw [List.contains_iff_mem]
  induction h with
  | refl => exact htodo src List.mem_cons_self
  | tail _ hyz ih => simpa using hclosed _ ih _ hyz

/-- A unit that waits on nothing reaches no other unit. -/
theorem waitsReach_of_not_waiting {src dst : String} (hne : src ≠ dst)
    (hout : ∀ y, ¬ WaitsOn waits src y) : waitsReach waits src dst = false := by
  have hs : (waits.filter (·.1 == src)).map (·.2) = [] :=
    List.eq_nil_iff_forall_not_mem.2 fun y hy => hout y (mem_succs.1 hy)
  have hv : visit waits (waits.length + 1) [src] [] = [src] := by
    cases waits.length <;> simp [visit, hs]
  simp [waitsReach, hv, Ne.symm hne]

end Visit

/-! ## Adding and removing waits -/

section Acyclic

variable {waits : List (String × String)}

/-- A path through a new pair `(x, y)` goes to `x` and on from `y`. -/
theorem transGen_append {x y a b : String}
    (h : Relation.TransGen (WaitsOn (waits ++ [(x, y)])) a b) :
    Relation.TransGen (WaitsOn waits) a b ∨
      Relation.ReflTransGen (WaitsOn waits) a x ∧ Relation.ReflTransGen (WaitsOn waits) y b := by
  induction h with
  | single hab =>
    rcases List.mem_append.1 hab with h | h
    · exact .inl (.single h)
    · obtain ⟨rfl, rfl⟩ := Prod.mk.inj (List.mem_singleton.1 h)
      exact .inr ⟨.refl, .refl⟩
  | tail _ hbc ih =>
    rcases List.mem_append.1 hbc with h | h
    · rcases ih with ih | ⟨hax, hyb⟩
      · exact .inl (ih.tail h)
      · exact .inr ⟨hax, hyb.tail h⟩
    · obtain ⟨rfl, rfl⟩ := Prod.mk.inj (List.mem_singleton.1 h)
      rcases ih with ih | ⟨hax, -⟩
      · exact .inr ⟨ih.to_reflTransGen, .refl⟩
      · exact .inr ⟨hax, .refl⟩

theorem Acyclic.append {x y : String} (h : Acyclic waits)
    (hyx : ¬ Relation.ReflTransGen (WaitsOn waits) y x) : Acyclic (waits ++ [(x, y)]) := by
  intro u hu
  rcases transGen_append hu with hc | ⟨hux, hyu⟩
  · exact h u hc
  · exact hyx (hyu.trans hux)

theorem Acyclic.mono {waits' : List (String × String)} (h : Acyclic waits)
    (hsub : waits' ⊆ waits) : Acyclic waits' := by
  intro u hu
  have hle : WaitsOn waits' ≤ WaitsOn waits := fun _ _ hab => hsub hab
  exact h u (Relation.TransGen.mono hle u u hu)

theorem Acyclic.nil : Acyclic [] := by
  intro u hu
  cases hu with
  | single h => simp [WaitsOn] at h
  | tail _ h => simp [WaitsOn] at h

/-- `beginWait` never closes a cycle. -/
theorem Acyclic.beginWait {c : Context} {name : String} {waits' : List (String × String)}
    (h : Acyclic waits) (hb : beginWait waits c name = some waits') : Acyclic waits' := by
  unfold Machine.beginWait at hb
  split at hb
  · cases hb
    exact h
  · split at hb
    · cases hb
    · split at hb
      · cases hb
      · rename_i hreach
        cases hb
        exact h.append fun hr => hreach (waitsReach_of_reflTransGen hr)

theorem endWait_subset {c : Context} {name : String} : endWait waits c name ⊆ waits := by
  unfold endWait
  split
  · exact List.Subset.refl _
  · exact List.erase_subset

end Acyclic

/-! ## Every step -/

variable {m m' : Machine}

/-- Under the named lock, a request keeps the waits or has `beginWait` add to them. -/
theorem lock_waits {r : Nat} {q : Request} (hs : m.lock r q = some m') :
    m'.waits = m.waits ∨ ∃ c name, beginWait m.waits c name = some m'.waits := by
  unfold lock at hs
  dsimp only at hs
  split at hs
  · split at hs
    · cases hs; exact .inl rfl
    · split at hs
      · cases hs; exact .inl rfl
      · split at hs <;> cases hs
        · exact .inr ⟨_, _, ‹_›⟩
        · exact .inl rfl
    · split at hs <;> cases hs
      · exact .inl rfl
      · cases hb : beginWait m.waits (m.context q.cc) q.name with
        | none => exact .inl rfl
        | some w => exact .inr ⟨m.context q.cc, q.name, by simp [hb]⟩
  · cases hs

/-- A step keeps the waits, adds one by `beginWait`, or removes some. -/
theorem step_waits {a : Action} (hs : m.step a = some m') :
    m'.waits = m.waits ∨ (∃ c name, beginWait m.waits c name = some m'.waits) ∨
      m'.waits ⊆ m.waits := by
  cases a with
  | ask a p h d =>
    obtain ⟨cc, cs, -, rfl⟩ := ask_eq hs
    exact .inl rfl
  | cancel => cases hs; exact .inl rfl
  | drain => cases hs; exact .inl rfl
  | abandon r e =>
    obtain ⟨q, -, hq⟩ := Option.bind_eq_some_iff.1 hs
    obtain ⟨-, rfl⟩ := abandon_eq hq
    exact .inl rfl
  | enter r =>
    obtain ⟨q, -, hq⟩ := Option.bind_eq_some_iff.1 hs
    obtain ⟨-, ⟨-, rfl⟩ | ⟨-, rfl⟩⟩ := enter_eq hq <;> exact .inl rfl
  | lock r =>
    obtain ⟨q, -, hq⟩ := Option.bind_eq_some_iff.1 hs
    rcases lock_waits hq with h | h
    · exact .inl h
    · exact .inr (.inl h)
  | spawn r =>
    obtain ⟨q, -, hq⟩ := Option.bind_eq_some_iff.1 hs
    obtain ⟨j, -, rfl⟩ := spawn_eq hq
    exact .inl rfl
  | fork r =>
    obtain ⟨q, -, hq⟩ := Option.bind_eq_some_iff.1 hs
    obtain ⟨j, -, rfl⟩ := fork_eq hq
    exact .inl rfl
  | wake r b =>
    obtain ⟨q, -, hq⟩ := Option.bind_eq_some_iff.1 hs
    obtain ⟨j, joined, err, -, -, rfl⟩ := wake_eq hq
    exact .inl rfl
  | complete r =>
    obtain ⟨q, -, hq⟩ := Option.bind_eq_some_iff.1 hs
    obtain ⟨err, -, rfl⟩ := complete_eq hq
    exact .inl rfl
  | leave r =>
    obtain ⟨q, -, hq⟩ := Option.bind_eq_some_iff.1 hs
    obtain ⟨err, -, rfl⟩ := leave_eq hq
    refine .inr (.inr ?_)
    dsimp only
    split
    · exact endWait_subset
    · exact List.Subset.refl _
  | check j =>
    obtain ⟨job, -, hq⟩ := Option.bind_eq_some_iff.1 hs
    obtain ⟨p, -, rfl⟩ := check_eq hq
    exact .inl rfl
  | parse j out =>
    obtain ⟨job, -, hq⟩ := Option.bind_eq_some_iff.1 hs
    obtain ⟨-, ⟨e, -, rfl⟩ | ⟨f, -, rfl⟩⟩ := parse_eq hq <;> exact .inl rfl
  | gather j err =>
    obtain ⟨job, -, hq⟩ := Option.bind_eq_some_iff.1 hs
    obtain ⟨-, ⟨e, -, rfl⟩ | ⟨-, rfl⟩⟩ := endPhase_eq hq <;> exact .inl rfl
  | execute j err =>
    obtain ⟨job, -, hq⟩ := Option.bind_eq_some_iff.1 hs
    obtain ⟨-, ⟨e, -, rfl⟩ | ⟨-, rfl⟩⟩ := endPhase_eq hq <;> exact .inl rfl
  | nest j a p h d =>
    obtain ⟨job, -, hq⟩ := Option.bind_eq_some_iff.1 hs
    obtain ⟨-, m₁, h₁, rfl⟩ := nest_eq hq
    obtain ⟨cc, cs, -, rfl⟩ := ask_eq h₁
    exact .inl rfl
  | resume j =>
    obtain ⟨job, -, hq⟩ := Option.bind_eq_some_iff.1 hs
    obtain ⟨r, q, err, -, -, -, rfl⟩ := resume_eq hq
    exact .inl rfl
  | finish j =>
    obtain ⟨job, -, hq⟩ := Option.bind_eq_some_iff.1 hs
    obtain ⟨err, out, -, -, hw, -⟩ := finish_eq hq
    exact .inl hw
  | retire j =>
    obtain ⟨job, -, hq⟩ := Option.bind_eq_some_iff.1 hs
    obtain ⟨err, -, rfl⟩ := retire_eq hq
    exact .inl rfl
  | join k =>
    obtain ⟨w, -, hq⟩ := Option.bind_eq_some_iff.1 hs
    obtain ⟨err, -, -, rfl⟩ := join_eq hq
    exact .inl rfl
  | drainStep d =>
    obtain ⟨pc, -, hq⟩ := Option.bind_eq_some_iff.1 hs
    obtain ⟨pc', rfl⟩ := drainStep_eq hq
    exact .inl rfl

theorem Acyclic.step {a : Action} (h : Acyclic m.waits) (hs : m.step a = some m') :
    Acyclic m'.waits := by
  rcases step_waits hs with hw | ⟨c, name, hb⟩ | hsub
  · rw [hw]
    exact h
  · exact h.beginWait hb
  · exact h.mono hsub

/-- In every state the service reaches, no unit waits on itself through other units. -/
theorem acyclic_of_reachable (h : Reachable m) : Acyclic m.waits := by
  induction h with
  | init => exact Acyclic.nil
  | step a _ hs ih => exact ih.step hs

end Machine

end Abla
