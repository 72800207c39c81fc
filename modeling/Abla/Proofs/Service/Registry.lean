import Abla.Proofs.Service.Steps

/-!
# Each unit is compiled once

The registry of a reachable state keeps two facts: no unit is both installed and pending, and
a unit is pending with a job exactly when that job is the unit's and is not done. The second
gives at most one job not done for each unit, and it is the job the unit is pending with.
Registering and finishing keep both, because registering checks, under the unit's named lock,
that the unit is neither installed nor pending, and finishing happens under the same lock.

From the registry: the parse thunk runs only in the job its unit is pending with, never for an
installed unit; installed units stay installed with the same tree, so a unit once installed is
never parsed again; a request for a pending unit starts no job; and a job that finishes finds
its unit still its own, so the internal error for a vanished unit is never raised.
-/

namespace Abla

namespace Machine

variable {m m' : Machine}

/-- One step of some goroutine. -/
def Next (m m' : Machine) : Prop := ∃ a, m.step a = some m'

theorem Reachable.next (h : Reachable m) (hn : Next m m') : Reachable m' := by
  obtain ⟨a, ha⟩ := hn
  exact .step a h ha

theorem Reachable.steps (h : Reachable m) (hs : Relation.ReflTransGen Next m m') :
    Reachable m' := by
  induction hs with
  | refl => exact h
  | tail _ hn ih => exact ih.next hn

theorem entry_eq_some {j : Nat} {n : String} {o : Option (Option Failure)} :
    (m.jobs.map Job.entry)[j]? = some (n, o) ↔
      ∃ job, m.jobs[j]? = some job ∧ job.name = n ∧ job.result = o := by
  simp [List.getElem?_map, Job.entry]

/-- No unit is both installed and pending, and a unit is pending with a job exactly when the
job is the unit's and is not done. -/
structure Registry (m : Machine) : Prop where
  disjoint : ∀ n, m.compiled.lookup n = none ∨ m.pending.lookup n = none
  pending_iff : ∀ n j, m.pending.lookup n = some j ↔ (m.jobs.map Job.entry)[j]? = some (n, none)

namespace Registry

variable {j : Nat} {job : Job}

theorem pending_of_live (h : Registry m) (hj : m.jobs[j]? = some job) (hr : job.result = none) :
    m.pending.lookup job.name = some j :=
  (h.pending_iff _ _).2 (entry_eq_some.2 ⟨job, hj, rfl, hr⟩)

theorem live_of_pending {n : String} (h : Registry m) (hp : m.pending.lookup n = some j) :
    ∃ job, m.jobs[j]? = some job ∧ job.name = n ∧ job.result = none :=
  entry_eq_some.1 ((h.pending_iff _ _).1 hp)

theorem not_compiled_of_live (h : Registry m) (hj : m.jobs[j]? = some job)
    (hr : job.result = none) : m.compiled.lookup job.name = none := by
  rcases h.disjoint job.name with hc | hp
  · exact hc
  · rw [h.pending_of_live hj hr] at hp
    cases hp

theorem of_same (h : Registry m) (hs : SameUnits m m') : Registry m' :=
  ⟨by rw [hs.compiled, hs.pending]; exact h.disjoint,
   by rw [hs.pending, hs.entries]; exact h.pending_iff⟩

theorem register {q : Request} (h : Registry m) (hr : Registers m q m') : Registry m' := by
  have hE : m'.jobs.map Job.entry = m.jobs.map Job.entry ++ [(q.name, none)] := by
    rw [hr.jobs, List.map_append]
    rfl
  constructor
  · intro n
    rw [hr.compiled, hr.pending, Units.lookup_setEntry]
    by_cases hn : n = q.name
    · subst hn
      exact .inl hr.not_compiled
    · simpa [hn] using h.disjoint n
  · intro n i
    -- no older job is live for the new unit, since it was not pending
    have hnew : ∀ i, (m.jobs.map Job.entry)[i]? ≠ some (q.name, none) := fun i he => by
      have hp := (h.pending_iff _ _).2 he
      rw [hr.not_pending] at hp
      cases hp
    rw [hr.pending, Units.lookup_setEntry, hE, List.getElem?_append]
    by_cases hn : n = q.name
    · subst hn
      simp only [if_true, Option.some.injEq, List.length_map]
      constructor
      · rintro rfl
        simp
      · intro he
        split at he
        · exact absurd he (hnew i)
        · simp only [List.getElem?_singleton] at he
          split at he
          · omega
          · cases he
    · simp only [hn, if_false, List.length_map]
      rw [h.pending_iff n i]
      split
      · rfl
      · rename_i hi
        have hnone : (m.jobs.map Job.entry)[i]? = none := by simpa using Nat.not_lt.1 hi
        simp [hnone, List.getElem?_singleton, Ne.symm hn]

theorem finish {j : Nat} {job : Job} (h : Registry m) (hj : m.job? j = some job)
    (hs : m.finish j job = some m') : Registry m' := by
  obtain ⟨hjob, -⟩ := job?_eq_some hj
  obtain ⟨err, hpc⟩ := finish_pc hs
  have hlive : job.result = none := by simp [Job.result, hpc]
  have hown := h.pending_of_live hjob hlive
  have hEj : (m.jobs.map Job.entry)[j]? = some (job.name, none) :=
    entry_eq_some.2 ⟨job, hjob, rfl, hlive⟩
  obtain ⟨hp, hc, -, hjobs⟩ := finish_own hpc hown hs
  have hE : m'.jobs.map Job.entry =
      (m.jobs.map Job.entry).set j (job.name, some (m.settle job.name err)) := by
    rw [hjobs, List.map_set]
    rfl
  constructor
  · intro n
    rw [hc, hp, Units.lookup_dropEntry]
    by_cases hn : n = job.name
    · simp [hn]
    · have hc' : (if m.settle job.name err = none then
          Units.setEntry m.compiled job.name job.file else m.compiled).lookup n =
          m.compiled.lookup n := by
        split <;> simp [hn]
      rw [hc']
      simpa [hn] using h.disjoint n
  · intro n i
    rw [hp, Units.lookup_dropEntry, hE, List.getElem?_set]
    by_cases hn : n = job.name
    · -- the unit is no longer pending, and its only live job is now done
      subst hn
      simp only [if_true]
      constructor
      · intro he
        cases he
      · intro he
        split at he
        · split at he <;> simp at he
        · rename_i hji
          rw [(h.pending_iff _ _).2 he] at hown
          cases hown
          exact absurd rfl hji
    · simp only [hn, if_false]
      rw [h.pending_iff n i]
      split
      · rename_i hji
        subst hji
        rw [hEj]
        split <;> simp [Ne.symm hn]
      · rfl

theorem init (gathers executes : Bool) : Registry (Machine.init gathers executes) :=
  ⟨fun _ => .inl rfl, fun _ _ => by simp [Machine.init]⟩

theorem step {a : Action} (h : Registry m) (hs : m.step a = some m') : Registry m' := by
  rcases step_units hs with hu | ⟨r, q, -, -, hr⟩ | ⟨j, job, -, hj, hf⟩
  · exact h.of_same hu
  · exact h.register hr
  · exact h.finish hj hf

end Registry

theorem registry_of_reachable (h : Reachable m) : Registry m := by
  induction h with
  | init gathers executes => exact Registry.init gathers executes
  | step a _ hs ih => exact ih.step hs

/-! ## What the registry gives -/

namespace Registry

variable {j : Nat} {job : Job}

/-- Two jobs of one unit that are not done are the same job. -/
theorem live_unique {i : Nat} {a b : Job} (h : Registry m) (ha : m.jobs[i]? = some a)
    (hb : m.jobs[j]? = some b) (hn : a.name = b.name) (hra : a.result = none)
    (hrb : b.result = none) : i = j := by
  have hi := h.pending_of_live ha hra
  rw [hn, h.pending_of_live hb hrb] at hi
  exact (Option.some.inj hi).symm

/-- The parse thunk runs only in the job its unit is pending with, and the unit is not
installed. -/
theorem parse_pending {out : Except Failure SourceFile} (h : Registry m)
    (hs : m.step (.parse j out) = some m') :
    ∃ job, m.jobs[j]? = some job ∧ m.pending.lookup job.name = some j ∧
      m.compiled.lookup job.name = none := by
  obtain ⟨job, hj, hp⟩ := Option.bind_eq_some_iff.1 hs
  obtain ⟨hjob, -⟩ := job?_eq_some hj
  have hpc : job.pc = .run .parse := by
    unfold parse at hp
    split at hp
    · assumption
    · cases hp
  have hlive : job.result = none := by simp [Job.result, hpc]
  exact ⟨job, hjob, h.pending_of_live hjob hlive, h.not_compiled_of_live hjob hlive⟩

/-- An installed unit stays installed with the same tree. -/
theorem compiled_mono {a : Action} {n : String} {f : Option SourceFile} (h : Registry m)
    (hs : m.step a = some m') (hn : m.compiled.lookup n = some f) :
    m'.compiled.lookup n = some f := by
  rcases step_units hs with hu | ⟨r, q, -, -, hr⟩ | ⟨j, job, -, hj, hf⟩
  · rwa [hu.compiled]
  · rwa [hr.compiled]
  · obtain ⟨hjob, -⟩ := job?_eq_some hj
    obtain ⟨err, hpc⟩ := finish_pc hf
    have hlive : job.result = none := by simp [Job.result, hpc]
    obtain ⟨-, hc, -⟩ := finish_own hpc (h.pending_of_live hjob hlive) hf
    -- the finishing unit was not installed, so it is not `n`
    have hne : n ≠ job.name := by
      intro he
      rw [he, h.not_compiled_of_live hjob hlive] at hn
      cases hn
    rw [hc]
    split <;> simp [hne, hn]

/-- A job that finishes finds its unit pending with it. -/
theorem finish_own_unit (h : Registry m) (hj : m.job? j = some job)
    (hs : m.finish j job = some m') : m.pending.lookup job.name = some j := by
  obtain ⟨hjob, -⟩ := job?_eq_some hj
  obtain ⟨err, hpc⟩ := finish_pc hs
  exact h.pending_of_live hjob (by simp [Job.result, hpc])

end Registry

/-- A step that adds a job registers it, for a unit that was neither installed nor pending. -/
theorem step_adds_job {a : Action} (hs : m.step a = some m')
    (hl : m.jobs.length < m'.jobs.length) :
    ∃ r q, a = .lock r ∧ m.reqs[r]? = some q ∧ Registers m q m' := by
  rcases step_units hs with hu | hr | ⟨j, job, -, hj, hf⟩
  · have := congrArg List.length hu.entries
    simp only [List.length_map] at this
    omega
  · exact hr
  · obtain ⟨out, hjobs⟩ := finish_jobs hf
    rw [hjobs, List.length_set] at hl
    omega

/-- What a request for a pending unit does under the unit's named lock: a parallel request
joins the job by a join of its own, and a sequential one waits for it, unless waiting would
close a cycle, when it is answered at once without waiting. -/
def Joins (m : Machine) (q : Request) (j : Nat) (q' : Request) : Prop :=
  (q.parallel = true ∧ q' = { q with pc := .fork j }) ∨
  (q.parallel = false ∧ (beginWait m.waits (m.context q.cc) q.name).isSome ∧
    q' = { q with waiting := true, pc := .wait j true }) ∨
  (q.parallel = false ∧ beginWait m.waits (m.context q.cc) q.name = none ∧
    q' = { q with pc := .complete none })

/-- A request for a pending unit starts no job and changes no unit's registration. -/
theorem lock_pending {r : Nat} {q : Request} {j : Nat} (h : Registry m)
    (hq : m.reqs[r]? = some q) (hp : m.pending.lookup q.name = some j)
    (hs : m.step (.lock r) = some m') :
    m'.jobs = m.jobs ∧ m'.pending = m.pending ∧ m'.compiled = m.compiled ∧
      ∃ q', Joins m q j q' ∧ m'.reqs = m.reqs.set r q' := by
  have hc : m.compiled.lookup q.name = none := by
    rcases h.disjoint q.name with hc | hn
    · exact hc
    · rw [hp] at hn
      cases hn
  simp only [step, hq, Option.bind_some] at hs
  unfold lock at hs
  split at hs
  · dsimp only at hs
    rw [hc, hp] at hs
    dsimp only at hs
    by_cases hpar : q.parallel = true
    · rw [if_pos hpar] at hs
      cases hs
      exact ⟨rfl, rfl, rfl, _, .inl ⟨hpar, rfl⟩, rfl⟩
    · rw [if_neg hpar] at hs
      have hpar' : q.parallel = false := by simpa using hpar
      cases hw : beginWait m.waits (m.context q.cc) q.name with
      | some w =>
        rw [hw] at hs
        cases hs
        exact ⟨rfl, rfl, rfl, _, .inr (.inl ⟨hpar', by simp [hw], rfl⟩), rfl⟩
      | none =>
        rw [hw] at hs
        cases hs
        exact ⟨rfl, rfl, rfl, _, .inr (.inr ⟨hpar', hw, rfl⟩), rfl⟩
  · cases hs

theorem compiled_mono_steps {n : String} {f : Option SourceFile} (h : Reachable m)
    (hs : Relation.ReflTransGen Next m m') (hn : m.compiled.lookup n = some f) :
    m'.compiled.lookup n = some f := by
  induction hs with
  | refl => exact hn
  | tail hmid hnext ih =>
    obtain ⟨a, ha⟩ := hnext
    exact (registry_of_reachable (h.steps hmid)).compiled_mono ha ih

theorem reachable_of_run {as : List Action} (h : Reachable m) (hr : m.run as = some m') :
    Reachable m' := by
  induction as generalizing m with
  | nil =>
    cases hr
    exact h
  | cons a as ih =>
    obtain ⟨m₁, h₁, hr₁⟩ := Option.bind_eq_some_iff.1 hr
    exact ih (.step a h h₁) hr₁

/-- The registry of units as the service keeps it. (a) No unit is both installed and pending.
(b) A unit is pending with a job exactly when the job is the unit's and is not done, so that
two jobs of a unit that are not done are one. (c) A job is added only by registering it for a
unit neither installed nor pending; the parse thunk runs only in the job its unit is pending
with, while the unit is not installed; a unit installed now is never parsed in any later state;
and a request for a pending unit starts no job, but joins it or, when waiting would close a
cycle, returns at once. (d) A job that finishes finds its unit still pending with it. -/
structure CompiledOnce (m : Machine) : Prop where
  disjoint : ∀ n, m.compiled.lookup n = none ∨ m.pending.lookup n = none
  pending_iff : ∀ n j, m.pending.lookup n = some j ↔
    ∃ job, m.jobs[j]? = some job ∧ job.name = n ∧ job.result = none
  live_unique : ∀ (i j : Nat) (a b : Job), m.jobs[i]? = some a → m.jobs[j]? = some b → a.name = b.name →
    a.result = none → b.result = none → i = j
  registers : ∀ a m', m.step a = some m' → m.jobs.length < m'.jobs.length →
    ∃ r q, a = .lock r ∧ m.reqs[r]? = some q ∧ m.compiled.lookup q.name = none ∧
      m.pending.lookup q.name = none ∧
      m'.jobs = m.jobs ++ [{ name := q.name, origin := q.origin, cc := q.cc }]
  parse_pending : ∀ j out m', m.step (.parse j out) = some m' →
    ∃ job, m.jobs[j]? = some job ∧ m.pending.lookup job.name = some j ∧
      m.compiled.lookup job.name = none
  never_reparsed : ∀ n f m₁ m₂ j out, m.compiled.lookup n = some f →
    Relation.ReflTransGen Next m m₁ → m₁.step (.parse j out) = some m₂ →
    ∃ job, m₁.jobs[j]? = some job ∧ job.name ≠ n
  joins : ∀ r q j m', m.reqs[r]? = some q → m.pending.lookup q.name = some j →
    m.step (.lock r) = some m' →
    m'.jobs = m.jobs ∧ m'.pending = m.pending ∧ ∃ q', Joins m q j q' ∧ m'.reqs = m.reqs.set r q'
  finish_own : ∀ j job m', m.job? j = some job → m.finish j job = some m' →
    m.pending.lookup job.name = some j

/-- Every state the service reaches, through any interleaving of any requests, keeps its
registry of units. -/
theorem units_compiled_once (h : Reachable m) : CompiledOnce m := by
  have hr := registry_of_reachable h
  refine ⟨hr.disjoint, fun n j => (hr.pending_iff n j).trans entry_eq_some, ?_, ?_, ?_, ?_, ?_, ?_⟩
  · intro i j a b ha hb hn hra hrb
    exact hr.live_unique ha hb hn hra hrb
  · intro a m' hs hl
    obtain ⟨r, q, rfl, hq, hreg⟩ := step_adds_job hs hl
    exact ⟨r, q, rfl, hq, hreg.not_compiled, hreg.not_pending, hreg.jobs⟩
  · intro j out m' hs
    exact hr.parse_pending hs
  · intro n f m₁ m₂ j out hn hs hp
    obtain ⟨job, hj, -, hc⟩ := (registry_of_reachable (h.steps hs)).parse_pending hp
    refine ⟨job, hj, fun he => ?_⟩
    rw [he, compiled_mono_steps h hs hn] at hc
    cases hc
  · intro r q j m' hq hp hs
    obtain ⟨hjobs, hpend, -, hjoin⟩ := lock_pending hr hq hp hs
    exact ⟨hjobs, hpend, hjoin⟩
  · intro j job m' hj hs
    exact hr.finish_own_unit hj hs

/-- A tree with no declarations, for runs whose parser gives one. -/
def emptyTree (name : String) : SourceFile := { site := default, name, decls := [] }

/-- A sequential request compiles a text to the end; then a parallel request registers a
second text, whose job is started and still pending. -/
def twoTexts : List Action :=
  [.ask (.source "fun f() {}") false .fresh (.caller none),
   .enter 0, .lock 0, .spawn 0, .check 0, .parse 0 (.ok (emptyTree "<source#1>")),
   .finish 0, .retire 0, .wake 0 false, .leave 0,
   .ask (.source "fun g() {}") true .fresh (.caller none),
   .enter 1, .lock 1, .spawn 1, .leave 1, .check 1]

theorem units_compiled_once_twoTexts :
    ∃ m, (init false false).run twoTexts = some m ∧ CompiledOnce m := by
  obtain ⟨m, hm⟩ : ∃ m, (init false false).run twoTexts = some m :=
    Option.isSome_iff_exists.1 (by decide)
  exact ⟨m, hm, units_compiled_once (reachable_of_run (.init false false) hm)⟩

end Machine

end Abla
