import Mathlib
import Abla.Build.Machine

/-!
# What each step of the service changes

The registry of units is made of the installed units, the pending units, the failures
recorded, and the unit and outcome of every job. Only two sections change it, both under the
unit's named lock: registering a new job, and finishing one. Every other step leaves it as it
was. This module proves that once, so that an invariant of the registry is a matter of those
two sections.
-/

namespace Abla

namespace Units

variable {α : Type}

theorem lookup_cons_ite (m k : String) (b : α) (xs : List (String × α)) :
    ((m, b) :: xs).lookup k = if k = m then some b else xs.lookup k := by
  by_cases h : k = m
  · subst h; simp
  · simp [List.lookup_cons, beq_false_of_ne h, h]

theorem lookup_replace (xs : List (String × α)) (n k : String) (a : α) :
    (xs.map fun (m, b) => if m = n then (m, a) else (m, b)).lookup k =
      if k = n then (xs.lookup k).map fun _ => a else xs.lookup k := by
  induction xs with
  | nil => simp
  | cons x xs ih =>
    obtain ⟨m, b⟩ := x
    simp only [List.map_cons]
    by_cases hm : m = n
    · subst m
      rw [if_pos rfl, lookup_cons_ite, lookup_cons_ite, ih]
      by_cases hk : k = n <;> simp [hk]
    · rw [if_neg hm, lookup_cons_ite, lookup_cons_ite, ih]
      by_cases hk : k = m
      · subst k; simp [hm]
      · simp [hk]

theorem lookup_eq_none_of_not_any {xs : List (String × α)} {n : String}
    (h : ¬ xs.any (·.1 = n)) : xs.lookup n = none := by
  rw [List.lookup_eq_none_iff]
  intro p hp
  have : p.1 ≠ n := fun he => h (List.any_eq_true.2 ⟨p, hp, by simp [he]⟩)
  simp [bne, beq_false_of_ne (Ne.symm this)]

@[simp] theorem lookup_setEntry (xs : List (String × α)) (n k : String) (a : α) :
    (setEntry xs n a).lookup k = if k = n then some a else xs.lookup k := by
  unfold setEntry
  split
  · rename_i hn
    rw [lookup_replace]
    split
    · subst k
      obtain ⟨⟨m, b⟩, hmem, hm⟩ := List.any_eq_true.1 hn
      simp only [decide_eq_true_eq] at hm
      subst m
      cases h : xs.lookup n with
      | none => simpa using List.lookup_eq_none_iff.1 h _ hmem
      | some c => rfl
    · rfl
  · rename_i hn
    rw [List.lookup_append]
    split
    · subst k
      simp [lookup_eq_none_of_not_any hn]
    · rename_i hk
      simp [lookup_cons_ite, hk]

@[simp] theorem lookup_dropEntry (xs : List (String × α)) (n k : String) :
    (dropEntry xs n).lookup k = if k = n then none else xs.lookup k := by
  unfold dropEntry
  induction xs with
  | nil => simp
  | cons x xs ih =>
    obtain ⟨m, b⟩ := x
    rw [List.filter_cons]
    by_cases hm : m = n
    · subst m
      simp only [ne_eq, not_true_eq_false, decide_false, Bool.false_eq_true, if_false, ih]
      by_cases hk : k = n <;> simp [hk, lookup_cons_ite]
    · simp only [ne_eq, hm, not_false_eq_true, decide_true, if_true, lookup_cons_ite, ih]
      by_cases hk : k = m
      · subst k; simp [hm]
      · simp [hk]

end Units

namespace Machine

variable {m m' : Machine}

@[simp] theorem setReq_reqs (m : Machine) (r : Nat) (q : Request) :
    (m.setReq r q).reqs = m.reqs.set r q := rfl

@[simp] theorem setJob_jobs (m : Machine) (j : Nat) (job : Job) :
    (m.setJob j job).jobs = m.jobs.set j job := rfl

theorem job?_eq_some {j : Nat} {job : Job} (h : m.job? j = some job) :
    m.jobs[j]? = some job ∧ job.started = true := by
  simpa [job?] using h

@[simp] theorem result_check (job : Job) (p : Phase) :
    ({ job with pc := .check p } : Job).result = none := rfl

@[simp] theorem result_run (job : Job) (p : Phase) :
    ({ job with pc := .run p } : Job).result = none := rfl

@[simp] theorem result_finish (job : Job) (err : Option Failure) :
    ({ job with pc := .finish err } : Job).result = none := rfl

@[simp] theorem result_after (job : Job) (p : Phase) (f : Option SourceFile) :
    ({ job with file := f, pc := m.after p } : Job).result = none ∧
      ({ job with pc := m.after p } : Job).result = none := by
  unfold after
  split <;> exact ⟨rfl, rfl⟩

/-- A job as the registry sees it: its unit and its outcome. -/
def Job.entry (job : Job) : String × Option (Option Failure) := (job.name, job.result)

/-- Two states with the same registry of units. -/
structure SameUnits (m m' : Machine) : Prop where
  compiled : m'.compiled = m.compiled
  pending : m'.pending = m.pending
  errs : m'.errs = m.errs
  entries : m'.jobs.map Job.entry = m.jobs.map Job.entry

theorem SameUnits.refl (m : Machine) : SameUnits m m := ⟨rfl, rfl, rfl, rfl⟩

theorem SameUnits.trans {m₁ m₂ m₃ : Machine} (h₁ : SameUnits m₁ m₂) (h₂ : SameUnits m₂ m₃) :
    SameUnits m₁ m₃ :=
  ⟨h₂.compiled.trans h₁.compiled, h₂.pending.trans h₁.pending, h₂.errs.trans h₁.errs,
    h₂.entries.trans h₁.entries⟩

/-- A step that leaves the jobs alone leaves the registry alone. -/
theorem SameUnits.of_jobs (hc : m'.compiled = m.compiled) (hp : m'.pending = m.pending)
    (he : m'.errs = m.errs) (hj : m'.jobs = m.jobs) : SameUnits m m' :=
  ⟨hc, hp, he, by rw [hj]⟩

theorem SameUnits.report {e : Event} (h : SameUnits m m') : SameUnits m (m'.report e) :=
  ⟨h.compiled, h.pending, h.errs, h.entries⟩

/-- Changing a job in a way that keeps its unit and its outcome. -/
theorem SameUnits.setJob {j : Nat} {job job' : Job} (hj : m.jobs[j]? = some job)
    (hn : job'.name = job.name) (hr : job'.result = job.result) :
    SameUnits m (m.setJob j job') := by
  refine ⟨rfl, rfl, rfl, ?_⟩
  apply List.ext_getElem?
  intro i
  simp only [setJob_jobs, List.getElem?_map, List.getElem?_set]
  by_cases hi : j = i
  · subst i
    obtain ⟨hlt, hget⟩ := List.getElem?_eq_some_iff.1 hj
    simp [hlt, hget, Job.entry, hn, hr]
  · simp [hi]

/-! ## Steps that leave the registry alone -/

section Frame

variable {r j k d : Nat} {q : Request} {job : Job}

theorem ask_units {a : Ask} {p : Bool} {h : Handle} {dl : Deadline}
    (hs : m.ask a p h dl = some m') : SameUnits m m' ∧ m'.jobs = m.jobs := by
  simp only [ask] at hs
  obtain ⟨⟨cc, cs⟩, -, rfl⟩ := Option.map_eq_some_iff.1 hs
  exact ⟨.of_jobs rfl rfl rfl rfl, rfl⟩

theorem enter_units (hs : m.enter r q = some m') : SameUnits m m' := by
  unfold enter at hs
  split at hs
  · split at hs <;> cases hs <;> exact .of_jobs rfl rfl rfl rfl
  · cases hs

theorem spawn_units (hs : m.spawn r q = some m') : SameUnits m m' := by
  unfold spawn at hs
  split at hs
  · rename_i j _
    cases hs
    refine ⟨rfl, rfl, rfl, ?_⟩
    apply List.ext_getElem?
    intro i
    simp only [setReq, List.getElem?_map, List.getElem?_modify]
    cases m.jobs[i]? with
    | none => rfl
    | some job => by_cases hi : j = i <;> simp [hi, Job.entry, Job.result]
  · cases hs

theorem fork_units (hs : m.fork r q = some m') : SameUnits m m' := by
  unfold fork at hs
  split at hs
  · cases hs; exact .of_jobs rfl rfl rfl rfl
  · cases hs

theorem wake_units {b : Bool} (hs : m.wake r q b = some m') : SameUnits m m' := by
  unfold wake at hs
  split at hs
  · obtain ⟨err, -, rfl⟩ := Option.map_eq_some_iff.1 hs
    exact .of_jobs rfl rfl rfl rfl
  · cases hs

theorem complete_units (hs : m.complete r q = some m') : SameUnits m m' := by
  unfold complete at hs
  split at hs
  · cases hs; exact .of_jobs rfl rfl rfl rfl
  · cases hs

theorem leave_units (hs : m.leave r q = some m') : SameUnits m m' := by
  unfold leave at hs
  split at hs
  · cases hs; exact .of_jobs rfl rfl rfl rfl
  · cases hs

theorem abandon_units {e : Failure} (hs : m.abandon r q e = some m') : SameUnits m m' := by
  unfold abandon at hs
  split at hs
  · cases hs; exact .of_jobs rfl rfl rfl rfl
  · cases hs

theorem check_units (hj : m.jobs[j]? = some job) (hs : m.check j job = some m') :
    SameUnits m m' := by
  unfold check at hs
  split at hs
  · rename_i p hpc
    cases hs
    refine SameUnits.setJob hj rfl ?_
    by_cases hc : m.cancelled <;> simp [Job.result, hpc, hc]
  · cases hs

theorem parse_units {out : Except Failure SourceFile} (hj : m.jobs[j]? = some job)
    (hs : m.parse j job out = some m') : SameUnits m m' := by
  unfold parse at hs
  split at hs
  · rename_i hpc
    have hr : job.result = none := by simp [Job.result, hpc]
    split at hs <;> cases hs
    · exact SameUnits.setJob hj rfl (by simp [hr])
    · exact SameUnits.report (SameUnits.setJob hj rfl (by simp [hr]))
  · cases hs

theorem endPhase_units {p : Phase} {err : Option Failure} (hj : m.jobs[j]? = some job)
    (hs : m.endPhase j job p err = some m') : SameUnits m m' := by
  unfold endPhase at hs
  split at hs
  · rename_i hpc
    have hr : job.result = none := by simp [Job.result, hpc]
    split at hs <;> cases hs
    · exact SameUnits.setJob hj rfl (by simp [hr])
    · exact SameUnits.report (SameUnits.setJob hj rfl (by simp [hr]))
  · cases hs

theorem nest_units {a : Ask} {p : Bool} {h : Handle} {dl : Deadline}
    (hj : m.jobs[j]? = some job) (hs : m.nest j job a p h dl = some m') : SameUnits m m' := by
  unfold nest at hs
  split at hs
  · rename_i hpc
    obtain ⟨m₁, h₁, rfl⟩ := Option.map_eq_some_iff.1 hs
    obtain ⟨hu, hjobs⟩ := ask_units h₁
    have hj₁ : m₁.jobs[j]? = some job := by rw [hjobs]; exact hj
    exact hu.trans (SameUnits.setJob hj₁ rfl (by simp [Job.result, hpc]))
  · cases hs

theorem resume_units (hj : m.jobs[j]? = some job) (hs : m.resume j job = some m') :
    SameUnits m m' := by
  unfold resume at hs
  split at hs
  · rename_i r' hpc
    split at hs
    · cases hs
      exact SameUnits.setJob hj rfl (by simp [Job.result, hpc])
    · cases hs
  · cases hs

theorem retire_units (hj : m.jobs[j]? = some job) (hs : m.retire j job = some m') :
    SameUnits m m' := by
  unfold retire at hs
  split at hs
  · rename_i err hpc
    cases hs
    have h : SameUnits (m.completeCtx job.cc err)
        ((m.completeCtx job.cc err).setJob j { job with pc := .exited err }) :=
      SameUnits.setJob hj rfl (by simp [Job.result, hpc])
    exact ⟨h.compiled, h.pending, h.errs, h.entries⟩
  · cases hs

theorem join_units {w : Joiner} (hs : m.join k w = some m') : SameUnits m m' := by
  unfold join at hs
  split at hs
  · obtain ⟨err, -, rfl⟩ := Option.map_eq_some_iff.1 hs
    exact .of_jobs rfl rfl rfl rfl
  · cases hs

theorem drainStep_units {pc : DrainPc} (hs : m.drainStep d pc = some m') : SameUnits m m' := by
  unfold drainStep at hs
  split at hs
  all_goals first
    | (split at hs <;> cases hs <;> exact .of_jobs rfl rfl rfl rfl)
    | (cases hs; exact .of_jobs rfl rfl rfl rfl)
    | cases hs

end Frame

/-! ## Registering and finishing -/

/-- Registering a new job for the unit of request `q`, which is neither installed nor pending:
the job is the last one. -/
structure Registers (m : Machine) (q : Request) (m' : Machine) : Prop where
  not_compiled : m.compiled.lookup q.name = none
  not_pending : m.pending.lookup q.name = none
  compiled : m'.compiled = m.compiled
  pending : m'.pending = Units.setEntry m.pending q.name m.jobs.length
  errs : m'.errs = m.errs
  jobs : m'.jobs = m.jobs ++ [{ name := q.name, origin := q.origin, cc := q.cc }]

section Lock

variable {r j : Nat} {q : Request} {job : Job}

theorem lock_units (hs : m.lock r q = some m') : SameUnits m m' ∨ Registers m q m' := by
  unfold lock at hs
  dsimp only at hs
  split at hs
  · split at hs
    · cases hs; exact .inl (.of_jobs rfl rfl rfl rfl)
    · split at hs
      · cases hs; exact .inl (.of_jobs rfl rfl rfl rfl)
      · split at hs <;> cases hs
        · exact .inl (.of_jobs rfl rfl rfl rfl)
        · exact .inl (.report (.of_jobs rfl rfl rfl rfl))
    · rename_i hc hp
      split at hs <;> cases hs
      · exact .inr ⟨hc, hp, rfl, rfl, rfl, rfl⟩
      · exact .inr ⟨hc, hp, rfl, rfl, rfl, rfl⟩
  · cases hs

theorem finish_pc (hs : m.finish j job = some m') : ∃ err, job.pc = .finish err := by
  unfold finish at hs
  split at hs
  · exact ⟨_, ‹_›⟩
  · cases hs

/-- Finishing a job makes it done, whatever its unit's registration. -/
theorem finish_jobs (hs : m.finish j job = some m') :
    ∃ out, m'.jobs = m.jobs.set j { job with pc := .complete out } := by
  unfold finish at hs
  split at hs
  · dsimp only at hs
    split at hs <;> cases hs
    · exact ⟨_, rfl⟩
    · exact ⟨_, rfl⟩
  · cases hs

/-- Finishing a job whose unit is still its own: the unit leaves `pending`, it is installed
when the outcome is a success, and the outcome is recorded. -/
theorem finish_own {err : Option Failure} (hpc : job.pc = .finish err)
    (hown : m.pending.lookup job.name = some j) (hs : m.finish j job = some m') :
    m'.pending = Units.dropEntry m.pending job.name ∧
      m'.compiled = (if m.settle job.name err = none then
        Units.setEntry m.compiled job.name job.file else m.compiled) ∧
      m'.errs = record m.errs job.name (m.settle job.name err) ∧
      m'.jobs = m.jobs.set j { job with pc := .complete (m.settle job.name err) } := by
  simp only [finish, hpc, hown, if_true] at hs
  cases hs
  exact ⟨rfl, rfl, rfl, rfl⟩

end Lock

/-- Every step leaves the registry alone, registers a new job under its unit's named lock, or
finishes a job. -/
theorem step_units {a : Action} (hs : m.step a = some m') :
    SameUnits m m' ∨ (∃ r q, a = .lock r ∧ m.reqs[r]? = some q ∧ Registers m q m') ∨
      ∃ j job, a = .finish j ∧ m.job? j = some job ∧ m.finish j job = some m' := by
  cases a with
  | ask a p h d => exact .inl (ask_units hs).1
  | cancel => cases hs; exact .inl (.of_jobs rfl rfl rfl rfl)
  | drain => cases hs; exact .inl (.of_jobs rfl rfl rfl rfl)
  | abandon r e =>
    obtain ⟨q, -, hq⟩ := Option.bind_eq_some_iff.1 hs
    exact .inl (abandon_units hq)
  | enter r =>
    obtain ⟨q, -, hq⟩ := Option.bind_eq_some_iff.1 hs
    exact .inl (enter_units hq)
  | lock r =>
    obtain ⟨q, hr, hq⟩ := Option.bind_eq_some_iff.1 hs
    rcases lock_units hq with h | h
    · exact .inl h
    · exact .inr (.inl ⟨r, q, rfl, hr, h⟩)
  | spawn r =>
    obtain ⟨q, -, hq⟩ := Option.bind_eq_some_iff.1 hs
    exact .inl (spawn_units hq)
  | fork r =>
    obtain ⟨q, -, hq⟩ := Option.bind_eq_some_iff.1 hs
    exact .inl (fork_units hq)
  | wake r b =>
    obtain ⟨q, -, hq⟩ := Option.bind_eq_some_iff.1 hs
    exact .inl (wake_units hq)
  | complete r =>
    obtain ⟨q, -, hq⟩ := Option.bind_eq_some_iff.1 hs
    exact .inl (complete_units hq)
  | leave r =>
    obtain ⟨q, -, hq⟩ := Option.bind_eq_some_iff.1 hs
    exact .inl (leave_units hq)
  | check j =>
    obtain ⟨job, hj, hq⟩ := Option.bind_eq_some_iff.1 hs
    exact .inl (check_units (job?_eq_some hj).1 hq)
  | parse j out =>
    obtain ⟨job, hj, hq⟩ := Option.bind_eq_some_iff.1 hs
    exact .inl (parse_units (job?_eq_some hj).1 hq)
  | gather j err =>
    obtain ⟨job, hj, hq⟩ := Option.bind_eq_some_iff.1 hs
    exact .inl (endPhase_units (job?_eq_some hj).1 hq)
  | execute j err =>
    obtain ⟨job, hj, hq⟩ := Option.bind_eq_some_iff.1 hs
    exact .inl (endPhase_units (job?_eq_some hj).1 hq)
  | nest j a p h d =>
    obtain ⟨job, hj, hq⟩ := Option.bind_eq_some_iff.1 hs
    exact .inl (nest_units (job?_eq_some hj).1 hq)
  | resume j =>
    obtain ⟨job, hj, hq⟩ := Option.bind_eq_some_iff.1 hs
    exact .inl (resume_units (job?_eq_some hj).1 hq)
  | finish j =>
    obtain ⟨job, hj, hq⟩ := Option.bind_eq_some_iff.1 hs
    exact .inr (.inr ⟨j, job, rfl, hj, hq⟩)
  | retire j =>
    obtain ⟨job, hj, hq⟩ := Option.bind_eq_some_iff.1 hs
    exact .inl (retire_units (job?_eq_some hj).1 hq)
  | join k =>
    obtain ⟨w, -, hq⟩ := Option.bind_eq_some_iff.1 hs
    exact .inl (join_units hq)
  | drainStep d =>
    obtain ⟨pc, -, hq⟩ := Option.bind_eq_some_iff.1 hs
    exact .inl (drainStep_units hq)

end Machine

end Abla
