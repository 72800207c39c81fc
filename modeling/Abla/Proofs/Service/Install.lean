import Abla.Proofs.Service.Outcomes

/-!
# Installing units, and cancelling

A unit is installed at one place only: the section under its named lock where the job
registered for it finishes, when its phases all returned without failure and the service is not
cancelled; it is installed with the tree that this job parsed. Installed units stay installed.
Once the service is cancelled nothing more is installed, and every job registered afterwards
fails with the cancellation error at its first check. A request for an installed unit that the
service admits is answered at once with no failure; after `Drain` the service admits no
top-level request.

Which phases a job has come through is read off the run that led to it, so the statements here
are about runs from the start. `install_discipline` gathers them for every state such a run
reaches.
-/

namespace Abla

namespace Machine

variable {m m' : Machine}

/-! ## What a step does to one job -/

/-- Every job after a step is a new one, not yet checked, or a job from before that kept its
place or took one of its own steps. -/
theorem step_jobs {a : Action} {j : Nat} {job' : Job} (hreg : Registry m)
    (hs : m.step a = some m') (hj' : m'.jobs[j]? = some job') :
    (m.jobs[j]? = none ∧ job'.pc = .check .parse ∧ job'.file = none) ∨
      ∃ job, m.jobs[j]? = some job ∧
        ({ job' with started := job.started } = job ∨ JobStep m j job a job') := by
  cases hj : m.jobs[j]? with
  | some job =>
    right
    refine ⟨job, rfl, ?_⟩
    by_cases ha : a.job? = some j
    · obtain ⟨job'', hj'', hstep⟩ := jobStep_of_own hreg hj ha hs
      rw [hj'] at hj''
      cases hj''
      exact .inr hstep
    · obtain ⟨job'', hj'', he⟩ := (step_frame hs).jobs j job ha hj
      rw [hj'] at hj''
      cases hj''
      exact .inl he
  | none =>
    left
    -- only registering adds a job, and it comes last, not yet checked
    have hge : m.jobs.length ≤ j := List.getElem?_eq_none_iff.1 hj
    rcases step_units hs with hu | ⟨r, q, -, -, hr⟩ | ⟨i, job, -, -, hf⟩
    · have hlen := congrArg List.length hu.entries
      simp only [List.length_map] at hlen
      have := (List.getElem?_eq_some_iff.1 hj').1
      omega
    · rw [hr.jobs] at hj'
      rcases getElem?_concat_cases hj' with hold | ⟨-, rfl⟩
      · rw [hj] at hold
        cases hold
      · exact ⟨rfl, rfl, rfl⟩
    · obtain ⟨out, hjobs⟩ := finish_jobs hf
      rw [hjobs] at hj'
      have := (List.getElem?_eq_some_iff.1 hj').1
      simp only [List.length_set] at this
      omega

/-! ## The phases a job has come through -/

/-- Whether the service runs phase `p`: the gatherer and the executor are optional. -/
def runs (m : Machine) : Phase → Bool
  | .parse => true
  | .gather => m.gathers
  | .execute => m.executes

/-- The phases the service runs, in order. -/
def phases (m : Machine) : List Phase :=
  .parse :: ((if m.gathers then [.gather] else []) ++ if m.executes then [.execute] else [])

/-- The phases that a job at `pc` has come through, each without failure. -/
def passed (m : Machine) : JobPc → List Phase
  | .check p | .run p => m.phases.takeWhile (· ≠ p)
  | .nested _ => m.phases.takeWhile (· ≠ .execute)
  | .finish none => m.phases
  | _ => []

theorem passed_congr (h : m'.gathers = m.gathers ∧ m'.executes = m.executes) :
    m'.passed = m.passed := by
  funext pc
  unfold passed phases
  rw [h.1, h.2]

theorem runs_congr (h : m'.gathers = m.gathers ∧ m'.executes = m.executes) (p : Phase) :
    m'.runs p = m.runs p := by
  cases p <;> simp [runs, h.1, h.2]

@[simp] theorem passed_check_parse : m.passed (.check .parse) = [] := by
  simp [passed, phases]

/-- A phase that returns without failure joins those the job has come through. -/
theorem passed_after {p : Phase} (hp : m.runs p = true) :
    m.passed (m.after p) = m.passed (.run p) ++ [p] := by
  cases p <;> cases hg : m.gathers <;> cases he : m.executes <;>
    simp_all [passed, phases, runs, after, nextPhase]

/-- The next phase is one the service runs. -/
theorem runs_of_after {p p' : Phase} (h : m.after p = .check p') : m.runs p' = true := by
  cases p <;> cases hg : m.gathers <;> cases he : m.executes <;>
    simp [after, nextPhase, hg, he] at h <;> subst h <;> simp [runs, hg, he]

/-- Phase `p` of job `j` returned without failure in the run `as`; its parse gave the job its
tree. -/
def Passes (as : List Action) (j : Nat) (job : Job) : Phase → Prop
  | .parse => ∃ tree, job.file = some tree ∧ .parse j (.ok tree) ∈ as
  | .gather => .gather j none ∈ as
  | .execute => .execute j none ∈ as

theorem Passes.extend {as : List Action} {j : Nat} {job job' : Job} {p : Phase} (bs : List Action)
    (hfile : job'.file = job.file) (h : Passes as j job p) : Passes (as ++ bs) j job' p := by
  cases p with
  | parse =>
    obtain ⟨tree, hf, hm⟩ := h
    exact ⟨tree, hfile.trans hf, List.mem_append_left _ hm⟩
  | gather => exact List.mem_append_left _ h
  | execute => exact List.mem_append_left _ h

/-- Whether a job's phases failed, or the job is past them. -/
def JobPc.over : JobPc → Bool
  | .finish (some _) | .complete _ | .exited _ => true
  | _ => false

/-- What a run tells of job `j`: a job about to run a phase, or running it, is at a phase that
the service runs; one blocked in compile-time execution is in a service that executes; and each
phase it has come through returned without failure in the run. -/
structure JobLog (as : List Action) (m : Machine) (j : Nat) (job : Job) : Prop where
  runs : ∀ p, job.pc = .check p ∨ job.pc = .run p → m.runs p = true
  nested : ∀ r, job.pc = .nested r → m.executes = true
  passed : ∀ p ∈ m.passed job.pc, Passes as j job p

namespace JobLog

variable {as : List Action} {j : Nat} {job job' : Job}

/-- A job not yet checked has come through no phase. -/
theorem fresh (hpc : job.pc = .check .parse) : JobLog as m j job where
  runs p h := by
    rcases h with h | h
    · rw [hpc] at h
      cases h
      rfl
    · rw [hpc] at h
      cases h
  nested r h := by
    rw [hpc] at h
    cases h
  passed p hp := by
    rw [hpc, passed_check_parse] at hp
    cases hp

/-- What the run tells of a job, carried to the state after a step, which keeps the
configuration. -/
theorem move (hcfg : m'.gathers = m.gathers ∧ m'.executes = m.executes)
    (hruns : ∀ p, job.pc = .check p ∨ job.pc = .run p → m.runs p = true)
    (hnest : ∀ r, job.pc = .nested r → m.executes = true)
    (hpass : ∀ p ∈ m.passed job.pc, Passes as j job p) : JobLog as m' j job where
  runs p hp := by
    rw [runs_congr hcfg]
    exact hruns p hp
  nested r hr := by
    rw [hcfg.2]
    exact hnest r hr
  passed p hp := by
    rw [passed_congr hcfg] at hp
    exact hpass p hp

/-- A job that kept its place keeps what the run tells of it. -/
theorem keep (h : JobLog as m j job) (bs : List Action)
    (hcfg : m'.gathers = m.gathers ∧ m'.executes = m.executes) (hpc : job'.pc = job.pc)
    (hfile : job'.file = job.file) : JobLog (as ++ bs) m' j job' :=
  .move hcfg (fun p hp => h.runs p (hpc ▸ hp)) (fun r hr => h.nested r (hpc ▸ hr))
    (fun p hp => (h.passed p (hpc ▸ hp)).extend bs hfile)

/-- A job whose phases failed, or that is past them: the run tells nothing more of it. -/
theorem of_over (hpc : job.pc.over = true) : JobLog as m j job where
  runs p hp := by
    rcases hp with hp | hp <;> rw [hp] at hpc <;> cases hpc
  nested r hr := by
    rw [hr] at hpc
    cases hpc
  passed p hp := by
    have hnil : m.passed job.pc = [] := by
      unfold JobPc.over at hpc
      split at hpc <;> simp_all [Machine.passed]
    rw [hnil] at hp
    cases hp

/-- Each step of a job keeps what the run tells of it: a phase that returns without failure is
in the run, and the job moves on to a phase that the service runs. -/
theorem step {a : Action} (h : JobLog as m j job) (hstep : JobStep m j job a job')
    (hcfg : m'.gathers = m.gathers ∧ m'.executes = m.executes) :
    JobLog (as ++ [a]) m' j job' := by
  -- where a phase that returned without failure leads, and what the job has come through then
  have hafter : ∀ p, m.runs p = true →
      (∀ p' ∈ m.passed (.run p), Passes (as ++ [a]) j job' p') →
      Passes (as ++ [a]) j job' p → job'.pc = m.after p → JobLog (as ++ [a]) m' j job' := by
    intro p hp hold hnew hpc
    refine .move hcfg ?_ ?_ ?_
    · intro p' hp'
      rw [hpc] at hp'
      rcases hp' with hp' | hp'
      · exact runs_of_after hp'
      · unfold after at hp'
        split at hp' <;> cases hp'
    · intro r hr
      rw [hpc] at hr
      unfold after at hr
      split at hr <;> cases hr
    · intro p' hp'
      rw [hpc, passed_after hp, List.mem_append, List.mem_singleton] at hp'
      rcases hp' with hp' | rfl
      · exact hold p' hp'
      · exact hnew
  cases hstep with
  | check hpc =>
    by_cases hc : m.cancelled = true
    · exact .of_over (by simp [hc, JobPc.over])
    · refine .move hcfg ?_ (fun r hr => by simp [hc] at hr) ?_
      · intro p' hp'
        simp only [hc, Bool.false_eq_true, if_false] at hp'
        rcases hp' with hp' | hp' <;> cases hp'
        exact h.runs _ (.inl hpc)
      · intro p' hp'
        simp only [hc, Bool.false_eq_true, if_false] at hp'
        exact (h.passed p' (by rwa [hpc])).extend _ rfl
  | parseFail hpc => exact .of_over rfl
  | @parse f hpc =>
    refine hafter .parse rfl ?_ ⟨f, rfl, by simp⟩ rfl
    intro p' hp'
    simp [Machine.passed, phases] at hp'
  | gatherFail hpc => exact .of_over rfl
  | gather hpc =>
    refine hafter .gather (h.runs _ (.inr hpc)) ?_ (by simp [Passes]) rfl
    intro p' hp'
    exact (h.passed p' (by rwa [hpc])).extend _ rfl
  | executeFail hpc => exact .of_over rfl
  | execute hpc =>
    refine hafter .execute (h.runs _ (.inr hpc)) ?_ (by simp [Passes]) rfl
    intro p' hp'
    exact (h.passed p' (by rwa [hpc])).extend _ rfl
  | nest hpc =>
    refine .move hcfg (fun p hp => by rcases hp with hp | hp <;> cases hp)
      (fun r _ => h.runs .execute (.inr hpc)) ?_
    intro p' hp'
    exact (h.passed p' (by rw [hpc]; exact hp')).extend _ rfl
  | resume hpc =>
    refine .move hcfg ?_ (fun r hr => by cases hr) ?_
    · intro p hp
      rcases hp with hp | hp <;> cases hp
      simp only [Machine.runs]
      exact h.nested _ hpc
    · intro p' hp'
      exact (h.passed p' (by rw [hpc]; exact hp')).extend _ rfl
  | finish hpc => exact .of_over rfl
  | retire hpc => exact .of_over rfl

end JobLog

/-- What a run tells of every job. -/
def PhaseLog (as : List Action) (m : Machine) : Prop :=
  ∀ j job, m.jobs[j]? = some job → JobLog as m j job

theorem PhaseLog.step {as : List Action} {a : Action} (h : PhaseLog as m) (hreg : Registry m)
    (hs : m.step a = some m') : PhaseLog (as ++ [a]) m' := by
  have hcfg := (step_frame hs).config
  intro j job' hj'
  rcases step_jobs hreg hs hj' with ⟨-, hpc, -⟩ | ⟨job, hj, he | hstep⟩
  · exact .fresh hpc
  · -- the job kept its place
    have hpc : job'.pc = job.pc := by rw [← he]
    have hfile : job'.file = job.file := by rw [← he]
    exact (h j job hj).keep [a] hcfg hpc hfile
  · exact (h j job hj).step hstep hcfg

theorem run_append (m : Machine) (as bs : List Action) :
    m.run (as ++ bs) = (m.run as).bind (·.run bs) := by
  induction as generalizing m with
  | nil => rfl
  | cons a as ih =>
    simp only [List.cons_append, run]
    cases m.step a with
    | none => rfl
    | some m₁ => exact ih m₁

theorem run_concat (m : Machine) (as : List Action) (a : Action) :
    m.run (as ++ [a]) = (m.run as).bind (·.step a) := by
  rw [run_append]
  cases m.run as with
  | none => rfl
  | some m₁ => simp [run]

/-- A run from the start keeps the configuration, and the phase log of its jobs. -/
theorem phaseLog_of_run {g e : Bool} {as : List Action} (hrun : (init g e).run as = some m) :
    m.gathers = g ∧ m.executes = e ∧ PhaseLog as m := by
  induction as using List.reverseRecOn generalizing m with
  | nil =>
    cases hrun
    exact ⟨rfl, rfl, fun j job hj => by simp [Machine.init] at hj⟩
  | append_singleton as a ih =>
    rw [run_concat] at hrun
    obtain ⟨m₀, h₀, hs⟩ := Option.bind_eq_some_iff.1 hrun
    obtain ⟨hg, he, hlog⟩ := ih h₀
    have hreg := registry_of_reachable (reachable_of_run (.init g e) h₀)
    have hcfg := (step_frame hs).config
    exact ⟨hcfg.1.trans hg, hcfg.2.trans he, hlog.step hreg hs⟩

/-! ## Where units are installed -/

theorem settle_eq_none {n : String} {err : Option Failure} :
    m.settle n err = none ↔ err = none ∧ m.cancelled = false := by
  unfold settle
  cases err <;> cases m.cancelled <;> simp

/-- A step installs a unit only where the job pending with the unit finishes, its phases having
returned without failure and the service not being cancelled; it installs the job's tree. -/
theorem step_installs {a : Action} {n : String} {f : Option SourceFile} (hreg : Registry m)
    (hs : m.step a = some m') (hn : m.compiled.lookup n = none)
    (hn' : m'.compiled.lookup n = some f) :
    ∃ j job, a = .finish j ∧ m.jobs[j]? = some job ∧ job.name = n ∧
      m.pending.lookup n = some j ∧ job.pc = .finish none ∧ m.cancelled = false ∧
        f = job.file := by
  rcases step_units hs with hu | ⟨r, q, -, -, hr⟩ | ⟨j, job, rfl, hj, hf⟩
  · rw [hu.compiled, hn] at hn'
    cases hn'
  · rw [hr.compiled, hn] at hn'
    cases hn'
  · obtain ⟨hjob, -⟩ := job?_eq_some hj
    obtain ⟨err, hpc⟩ := finish_pc hf
    have hown := hreg.finish_own_unit hj hf
    obtain ⟨-, hc, -⟩ := finish_own hpc hown hf
    rw [hc] at hn'
    -- only a settled success installs, and only the job's own unit
    by_cases hout : m.settle job.name err = none
    · rw [if_pos hout, Units.lookup_setEntry] at hn'
      by_cases hname : n = job.name
      · subst hname
        rw [if_pos rfl] at hn'
        obtain ⟨rfl, hcan⟩ := settle_eq_none.1 hout
        exact ⟨j, job, rfl, hjob, rfl, hown, hpc, hcan, (Option.some.inj hn').symm⟩
      · rw [if_neg hname, hn] at hn'
        cases hn'
    · rw [if_neg hout, hn] at hn'
      cases hn'

/-- Where an installed unit comes from, in a run `as` from the start: the step that installed it
is the finish of job `j`, pending with the unit, whose phases had all returned without failure
in the run before it (the gatherer's and the executor's when given), while the service was not
cancelled; and the tree installed is the one that job's parse gave. -/
def InstalledBy (g e : Bool) (as : List Action) (n : String) (f : Option SourceFile) : Prop :=
  ∃ pre post j m₁ job tree, as = pre ++ .finish j :: post ∧ (init g e).run pre = some m₁ ∧
    m₁.jobs[j]? = some job ∧ job.name = n ∧ m₁.pending.lookup n = some j ∧
    job.pc = .finish none ∧ m₁.cancelled = false ∧ f = some tree ∧
    .parse j (.ok tree) ∈ pre ∧ (g = true → .gather j none ∈ pre) ∧
    (e = true → .execute j none ∈ pre)

/-- Every installed unit was installed by its own job, in the section where that job finished
after all its phases returned without failure, before any cancellation, with the tree it parsed. -/
theorem installedBy_of_run {g e : Bool} {as : List Action} {n : String} {f : Option SourceFile}
    (hrun : (init g e).run as = some m) (hn : m.compiled.lookup n = some f) :
    InstalledBy g e as n f := by
  induction as using List.reverseRecOn generalizing m with
  | nil =>
    cases hrun
    simp [Machine.init] at hn
  | append_singleton as a ih =>
    rw [run_concat] at hrun
    obtain ⟨m₀, h₀, hs⟩ := Option.bind_eq_some_iff.1 hrun
    have hreg := registry_of_reachable (reachable_of_run (.init g e) h₀)
    cases hn₀ : m₀.compiled.lookup n with
    | some f₀ =>
      -- installed before, with the same tree
      have hsame := hreg.compiled_mono hs hn₀
      rw [hn] at hsame
      cases hsame
      obtain ⟨pre, post, j, m₁, job, tree, rfl, hrest⟩ := ih h₀ hn₀
      exact ⟨pre, post ++ [a], j, m₁, job, tree, by simp, hrest⟩
    | none =>
      obtain ⟨j, job, rfl, hjob, hname, hown, hpc, hcan, rfl⟩ := step_installs hreg hs hn₀ hn
      obtain ⟨hg, he, hlog⟩ := phaseLog_of_run h₀
      -- the job is past all the phases the service runs
      have hpass : ∀ p, m₀.runs p = true → Passes as j job p := fun p hp =>
        (hlog j job hjob).passed p (by
          rw [hpc]
          cases p <;> simp_all [Machine.passed, Machine.runs, phases])
      obtain ⟨tree, hfile, hparse⟩ := hpass .parse rfl
      refine ⟨as, [], j, m₀, job, tree, rfl, h₀, hjob, hname, hown, hpc, hcan, hfile, hparse,
        ?_, ?_⟩
      · intro hg'
        exact hpass .gather (by simp [Machine.runs, hg, hg'])
      · intro he'
        exact hpass .execute (by simp [Machine.runs, he, he'])


/-! ## Cancelling -/

/-- Where a job registered once the service was cancelled can be: not yet checked, or failed at
its first check with the cancellation error `e`, and past that with the same error. -/
def Doomed (job : Job) : Prop :=
  let e := some (Service.cancelledFailure job.name)
  job.pc = .check .parse ∨ job.pc = .finish e ∨ job.pc = .complete e ∨ job.pc = .exited e

namespace Doomed

variable {job job' : Job}

theorem result (h : Doomed job) :
    job.result = none ∨ job.result = some (some (Service.cancelledFailure job.name)) := by
  rcases h with h | h | h | h <;> simp [Job.result, h]

/-- A doomed job that is only started stays doomed. -/
theorem of_started (h : Doomed job) (he : { job' with started := job.started } = job) :
    Doomed job' := by
  rw [← he] at h
  exact h

/-- In a cancelled service each step of a doomed job keeps it doomed: its first check fails, and
the failure is its outcome. -/
theorem step {a : Action} {j : Nat} (h : Doomed job) (hc : m.cancelled = true)
    (hstep : JobStep m j job a job') : Doomed job' := by
  -- a doomed job runs no phase and is blocked in no request
  have hidle : ∀ pc, job.pc = pc → pc ≠ .check .parse → pc.over = false →
      Doomed job' := by
    intro pc hpc hne hover
    rcases h with h | h | h | h <;> rw [hpc] at h <;> simp_all [JobPc.over]
  cases hstep with
  | check hpc =>
    right; left
    simp [hc]
  | parseFail hpc => exact hidle _ hpc (by simp) rfl
  | parse hpc => exact hidle _ hpc (by simp) rfl
  | gatherFail hpc => exact hidle _ hpc (by simp) rfl
  | gather hpc => exact hidle _ hpc (by simp) rfl
  | executeFail hpc => exact hidle _ hpc (by simp) rfl
  | execute hpc => exact hidle _ hpc (by simp) rfl
  | nest hpc => exact hidle _ hpc (by simp) rfl
  | resume hpc => exact hidle _ hpc (by simp) rfl
  | finish hpc =>
    -- it failed with the cancellation error, which settling keeps
    rcases h with h | h | h | h <;> rw [hpc] at h <;> cases h
    right; right; left
    simp [settle]
  | retire hpc =>
    rcases h with h | h | h | h <;> rw [hpc] at h <;> cases h
    right; right; right
    rfl

end Doomed

/-- What holds from a cancelled state `m₀` on: the service stays cancelled, no unit is installed
or dropped, and every job registered since is doomed. -/
structure AfterCancel (m₀ m : Machine) : Prop where
  reachable : Reachable m
  cancelled : m.cancelled = true
  compiled : ∀ n, m.compiled.lookup n = m₀.compiled.lookup n
  doomed : ∀ j job, m₀.jobs.length ≤ j → m.jobs[j]? = some job → Doomed job

namespace AfterCancel

variable {m₀ : Machine}

theorem init (h : Reachable m₀) (hc : m₀.cancelled = true) : AfterCancel m₀ m₀ where
  reachable := h
  cancelled := hc
  compiled _ := rfl
  doomed j job hge hj := by
    have := (List.getElem?_eq_some_iff.1 hj).1
    omega

theorem step {a : Action} (h : AfterCancel m₀ m) (hs : m.step a = some m') :
    AfterCancel m₀ m' where
  reachable := .step a h.reachable hs
  cancelled := step_cancelled hs h.cancelled
  compiled n := by
    have hreg := registry_of_reachable h.reachable
    rw [← h.compiled n]
    cases hn : m.compiled.lookup n with
    | some f => exact hreg.compiled_mono hs hn
    | none =>
      -- installing needs a service that is not cancelled
      cases hn' : m'.compiled.lookup n with
      | none => rfl
      | some f =>
        obtain ⟨-, -, -, -, -, -, -, hcan, -⟩ := step_installs hreg hs hn hn'
        rw [h.cancelled] at hcan
        cases hcan
  doomed j job' hge hj' := by
    rcases step_jobs (registry_of_reachable h.reachable) hs hj' with
      ⟨-, hpc, -⟩ | ⟨job, hj, he | hstep⟩
    · exact .inl hpc
    · exact (h.doomed j job hge hj).of_started he
    · exact (h.doomed j job hge hj).step h.cancelled hstep

theorem steps (h : AfterCancel m₀ m) (hrun : Relation.ReflTransGen Next m m') :
    AfterCancel m₀ m' := by
  induction hrun with
  | refl => exact h
  | tail _ hn ih =>
    obtain ⟨a, hs⟩ := hn
    exact ih.step hs

end AfterCancel

/-- A started job whose phases failed finishes with that failure: its unit is still its own. -/
theorem finish_failed {j : Nat} {job : Job} {e : Failure} (hreg : Registry m)
    (hj : m.jobs[j]? = some job) (hst : job.started = true) (hpc : job.pc = .finish (some e)) :
    ∃ m', m.step (.finish j) = some m' ∧ m'.outcome j = some (some e) := by
  have hj? : m.job? j = some job := by simp [job?, hj, hst]
  have hown : m.pending.lookup job.name = some j :=
    hreg.pending_of_live hj (by simp [Job.result, hpc])
  obtain ⟨m', hs⟩ : ∃ m', m.finish j job = some m' := by
    unfold finish
    simp [hpc, hown]
  obtain ⟨-, -, -, hjobs⟩ := finish_own hpc hown hs
  have hlt : j < m.jobs.length := (List.getElem?_eq_some_iff.1 hj).1
  refine ⟨m', by simp [Machine.step, hj?, hs], ?_⟩
  simp [outcome, hjobs, List.getElem?_set_self hlt, Job.result, settle]

/-- A started job registered after cancellation can always fail with the cancellation error, by
steps of its own. -/
theorem AfterCancel.fails {m₀ : Machine} {j : Nat} {job : Job} (h : AfterCancel m₀ m)
    (hge : m₀.jobs.length ≤ j) (hj : m.jobs[j]? = some job) (hst : job.started = true) :
    ∃ m', Relation.ReflTransGen Next m m' ∧
      m'.outcome j = some (some (Service.cancelledFailure job.name)) := by
  have hreg := registry_of_reachable h.reachable
  rcases h.doomed j job hge hj with hpc | hpc | hpc | hpc
  · -- its first check fails, and then it finishes
    have hlt : j < m.jobs.length := (List.getElem?_eq_some_iff.1 hj).1
    let job₁ : Job := { job with pc := .finish (some (Service.cancelledFailure job.name)) }
    have h₁ : m.step (.check j) = some (m.setJob j job₁) := by
      simp [Machine.step, job?, hj, hst, Option.filter_some, check, hpc, h.cancelled, job₁]
    have hreg₁ := registry_of_reachable (h.reachable.step _ h₁)
    have hj₁ : (m.setJob j job₁).jobs[j]? = some job₁ := by
      simp [setJob, List.getElem?_set_self hlt]
    obtain ⟨m₂, h₂, ho⟩ := finish_failed hreg₁ hj₁ hst rfl
    exact ⟨m₂, .tail (.single ⟨_, h₁⟩) ⟨_, h₂⟩, ho⟩
  · obtain ⟨m', hs, ho⟩ := finish_failed hreg hj hst hpc
    exact ⟨m', .single ⟨_, hs⟩, ho⟩
  · exact ⟨m, .refl, by simp [outcome, hj, Job.result, hpc]⟩
  · exact ⟨m, .refl, by simp [outcome, hj, Job.result, hpc]⟩

/-! ## Requests for installed units -/

/-- Request `q` asks for an installed unit, and is about to take the lock or was answered with
no failure. -/
def Served (m : Machine) (q : Request) : Prop :=
  (m.compiled.lookup q.name).isSome ∧ (q.pc = .lock ∨ q.pc.answer = some none)

/-- Each step keeps a request for an installed unit served: the unit stays installed, the lock
answers at once, and the answer is passed on. -/
theorem Served.step {a : Action} {r : Nat} {q : Request} (hreg : Registry m) (h : m.Served q)
    (hq : m.reqs[r]? = some q) (hs : m.step a = some m') :
    ∃ q', m'.reqs[r]? = some q' ∧ m'.Served q' := by
  obtain ⟨hn, hpc⟩ := h
  obtain ⟨f, hf⟩ := Option.isSome_iff_exists.1 hn
  have hn' : (m'.compiled.lookup q.name).isSome := by
    rw [hreg.compiled_mono hs hf]
    rfl
  by_cases ha : a.request? = some r
  swap
  · exact ⟨q, (step_frame hs).reqs r q ha hq, hn', hpc⟩
  obtain ⟨q', hq', hstep⟩ := reqStep_of_own hq ha hs
  refine ⟨q', hq', ?_⟩
  -- a served request is at the lock or answered, so no other step of its own is enabled
  have busy : ∀ pc : ReqPc, q.pc = pc → pc ≠ .lock → pc.answer = none → m'.Served q' := by
    intro pc hpc' hne hans
    rcases hpc with h | h <;> rw [hpc'] at h
    · exact absurd h hne
    · rw [hans] at h
      cases h
  -- and the answer it passes on is no failure
  have hnone : ∀ pc : ReqPc, q.pc = pc → ∀ err, pc.answer = some err → err = none := by
    intro pc hpc' err hans
    rcases hpc with h | h <;> rw [hpc'] at h
    · rw [h] at hans
      cases hans
    · rw [hans] at h
      exact Option.some.inj h
  -- and the lock finds the unit installed
  have installed : m.compiled.lookup q.name ≠ none := by simp [hf]
  cases hstep with
  | abandon _ => exact ⟨hn', hpc⟩
  | refuse hpc' _ => exact busy _ hpc' (by simp) rfl
  | accept hpc' _ => exact busy _ hpc' (by simp) rfl
  | installed _ _ => exact ⟨hn', .inr rfl⟩
  | forkJob _ hc _ _ => exact absurd hc installed
  | joinJob _ hc _ _ _ => exact absurd hc installed
  | cycle _ hc _ _ _ => exact absurd hc installed
  | registerParallel _ hc _ _ => exact absurd hc installed
  | register _ hc _ _ => exact absurd hc installed
  | spawn hpc' => exact busy _ hpc' (by simp) rfl
  | fork hpc' => exact busy _ hpc' (by simp) rfl
  | wake hpc' _ => exact busy _ hpc' (by simp) rfl
  | @complete err hpc' =>
    obtain rfl := hnone _ hpc' err rfl
    exact ⟨hn', .inr rfl⟩
  | @leave err hpc' =>
    obtain rfl := hnone _ hpc' err rfl
    exact ⟨hn', .inr rfl⟩

theorem Served.steps {r : Nat} {q : Request} (hm : Reachable m) (h : m.Served q)
    (hq : m.reqs[r]? = some q) (hrun : Relation.ReflTransGen Next m m') :
    ∃ q', m'.reqs[r]? = some q' ∧ m'.Served q' := by
  induction hrun with
  | refl => exact ⟨q, hq, h⟩
  | tail hmid hn ih =>
    obtain ⟨q₁, hq₁, h₁⟩ := ih
    obtain ⟨a, hs⟩ := hn
    exact h₁.step (registry_of_reachable (hm.steps hmid)) hq₁ hs

/-- A request for an installed unit at the lock is answered with no failure in three steps of
its own, and completes its context with no failure. -/
theorem run_installed {r : Nat} {q : Request} {f : Option SourceFile} (hq : m.reqs[r]? = some q)
    (hpc : q.pc = .lock) (hf : m.compiled.lookup q.name = some f) :
    ∃ m', m.run [.lock r, .complete r, .leave r] = some m' ∧
      m'.reqs[r]? = some { q with counted := false, waiting := false, pc := .done none } ∧
      m'.contexts = (m.completeCtx q.cc none).contexts := by
  have hlt : r < m.reqs.length := (List.getElem?_eq_some_iff.1 hq).1
  let m₁ := m.setReq r { q with pc := .complete none }
  have h₁ : m.step (.lock r) = some m₁ := by
    simp only [Machine.step, hq, Option.bind_some]
    unfold Machine.lock
    simp [hpc, hf, m₁]
  obtain ⟨m', hrun, hq', hctx⟩ := run_complete_leave_eq (m := m₁) (r := r)
    (q := { q with pc := .complete none }) (by simp [m₁, List.getElem?_set_self hlt]) rfl
  refine ⟨m', by simp only [run, h₁, Option.bind_some] at hrun ⊢; exact hrun, hq', ?_⟩
  rw [hctx]
  rfl

/-- The service is closed exactly once `Drain` was called. -/
theorem closed_iff_drains (h : Reachable m) : m.closed = true ↔ m.drains ≠ [] := by
  induction h with
  | init g e => simp [Machine.init]
  | step a _ hs ih =>
    by_cases ha : a = .drain
    · subst ha
      cases hs
      simp [startDrain]
    · obtain ⟨hcl, hlen⟩ := (step_frame hs).drains ha
      rw [hcl, ih, Ne, Ne, ← List.length_eq_zero_iff, ← List.length_eq_zero_iff, hlen]

/-- A top-level request is admitted until `Drain` is called, and refused with the closing error
after. -/
theorem enter_admits {r : Nat} {q : Request} (h : Reachable m) (hq : m.reqs[r]? = some q)
    (hpc : q.pc = .enter) :
    ∃ m', m.step (.enter r) = some m' ∧
      (m.drains = [] ∧ m'.reqs[r]? = some { q with counted := true, pc := .lock } ∨
        m.drains ≠ [] ∧
          m'.reqs[r]? = some { q with pc := .complete (some Service.closedFailure) }) := by
  have hlt : r < m.reqs.length := (List.getElem?_eq_some_iff.1 hq).1
  have hiff := closed_iff_drains h
  obtain ⟨m', hs⟩ : ∃ m', m.enter r q = some m' := by
    unfold enter
    rw [hpc]
    cases m.closed <;> simp
  refine ⟨m', by simp [Machine.step, hq, hs], ?_⟩
  obtain ⟨-, ⟨hc, rfl⟩ | ⟨hc, rfl⟩⟩ := enter_eq hs
  · exact .inr ⟨hiff.1 hc, by simp [setReq, List.getElem?_set_self hlt]⟩
  · -- not closed, so no `Drain` was called
    have hd : m.drains = [] := by
      by_contra hd
      have hcl := hiff.2 hd
      rw [hc] at hcl
      cases hcl
    exact .inl ⟨hd, by simp [setReq, List.getElem?_set_self hlt]⟩

/-! ## The discipline of installing -/

/-- The discipline of installing, in a state `m` that the run `as` reaches from the start of a
service with configuration `g`, `e`. Installed units stay installed, with their trees. Each was
installed by the job registered for it, in the section where that job finished after all the
phases the service runs had returned without failure, while the service was not cancelled, and
with the tree that the job parsed. Once the service is cancelled nothing more is installed, and
every job registered afterwards fails with the cancellation error: whatever outcome it has is
that error, and once started it can always reach it by steps of its own. A request for an
installed unit about to take the lock is answered at once with no failure, in every run on, and
its three steps complete its context with no failure; a top-level request gets there until
`Drain` is called, and is refused with the closing error after. -/
structure InstallDiscipline (g e : Bool) (as : List Action) (m : Machine) : Prop where
  stays : ∀ m' n f, Relation.ReflTransGen Next m m' → m.compiled.lookup n = some f →
    m'.compiled.lookup n = some f
  installed_by : ∀ n f, m.compiled.lookup n = some f → InstalledBy g e as n f
  cancel_frozen : m.cancelled = true → ∀ m' n, Relation.ReflTransGen Next m m' →
    m'.compiled.lookup n = m.compiled.lookup n
  cancel_fails : m.cancelled = true → ∀ m' j job, Relation.ReflTransGen Next m m' →
    m.jobs.length ≤ j → m'.jobs[j]? = some job →
    job.result = none ∨ job.result = some (some (Service.cancelledFailure job.name))
  cancel_finishes : m.cancelled = true → ∀ m' j job, Relation.ReflTransGen Next m m' →
    m.jobs.length ≤ j → m'.jobs[j]? = some job → job.started = true →
    ∃ m'', Relation.ReflTransGen Next m' m'' ∧
      m''.outcome j = some (some (Service.cancelledFailure job.name))
  served : ∀ r q, m.reqs[r]? = some q → q.pc = .lock → (m.compiled.lookup q.name).isSome →
    (∃ m', m.run [.lock r, .complete r, .leave r] = some m' ∧
      m'.reqs[r]? = some { q with counted := false, waiting := false, pc := .done none } ∧
      m'.contexts = (m.completeCtx q.cc none).contexts) ∧
    ∀ m' q', Relation.ReflTransGen Next m m' → m'.reqs[r]? = some q' →
      q'.pc = .lock ∨ q'.pc.answer = some none
  admits : ∀ r q, m.reqs[r]? = some q → q.pc = .enter →
    ∃ m', m.step (.enter r) = some m' ∧
      (m.drains = [] ∧ m'.reqs[r]? = some { q with counted := true, pc := .lock } ∨
        m.drains ≠ [] ∧
          m'.reqs[r]? = some { q with pc := .complete (some Service.closedFailure) })

theorem install_discipline {g e : Bool} {as : List Action} (hrun : (init g e).run as = some m) :
    InstallDiscipline g e as m := by
  have hm : Reachable m := reachable_of_run (.init g e) hrun
  -- from a cancelled state on, what cancelling keeps
  have after : m.cancelled = true → ∀ m', Relation.ReflTransGen Next m m' →
      AfterCancel m m' :=
    fun hc m' hs => (AfterCancel.init hm hc).steps hs
  -- a request for an installed unit, once at the lock, stays served
  have served : ∀ (r : Nat) (q : Request), m.reqs[r]? = some q → q.pc = .lock →
      (m.compiled.lookup q.name).isSome →
      ∀ m' q', Relation.ReflTransGen Next m m' → m'.reqs[r]? = some q' →
        q'.pc = .lock ∨ q'.pc.answer = some none := by
    intro r q hq hpc hn m' q' hs hq'
    obtain ⟨q₁, hq₁, h₁⟩ := Served.steps hm ⟨hn, .inl hpc⟩ hq hs
    rw [hq'] at hq₁
    cases hq₁
    exact h₁.2
  exact {
    stays := fun m' n f hs hn => compiled_mono_steps hm hs hn
    installed_by := fun n f hn => installedBy_of_run hrun hn
    cancel_frozen := fun hc m' n hs => (after hc m' hs).compiled n
    cancel_fails := fun hc m' j job hs hge hj => ((after hc m' hs).doomed j job hge hj).result
    cancel_finishes := fun hc m' j job hs hge hj hst => (after hc m' hs).fails hge hj hst
    served := fun r q hq hpc hn =>
      ⟨run_installed hq hpc (Option.isSome_iff_exists.1 hn).choose_spec, served r q hq hpc hn⟩
    admits := fun r q hq hpc => enter_admits hm hq hpc }

/-- A text is installed, the service is cancelled, and a second text is then compiled: its job
fails at its first check. -/
def cancelledText : List Action :=
  [.ask (.source "fun f() {}") false .fresh (.caller none),
   .enter 0, .lock 0, .spawn 0, .check 0, .parse 0 (.ok (emptyTree "<source#1>")),
   .finish 0, .retire 0, .wake 0 false, .leave 0, .cancel,
   .ask (.source "fun g() {}") false .fresh (.caller none),
   .enter 1, .lock 1, .spawn 1, .check 1, .finish 1, .retire 1, .wake 1 false, .leave 1]

theorem install_discipline_cancelledText :
    ∃ m, (init false false).run cancelledText = some m ∧
      InstallDiscipline false false cancelledText m := by
  obtain ⟨m, hm⟩ : ∃ m, (init false false).run cancelledText = some m :=
    Option.isSome_iff_exists.1 (by decide)
  exact ⟨m, hm, install_discipline hm⟩

/-- A file is installed, the service is cancelled and drained, and the file is asked for again
by a top-level request. -/
def drainedFile : List Action :=
  [.ask (.file "a.abla") false .fresh (.caller none), .enter 0, .lock 0, .spawn 0, .check 0,
   .parse 0 (.ok (emptyTree (Path.clean "a.abla"))), .finish 0, .retire 0, .wake 0 false,
   .leave 0, .cancel, .drain, .ask (.file "a.abla") false .fresh (.caller none), .enter 1,
   .complete 1, .leave 1]

/-- A later request for an installed unit does not always succeed: after `Drain`, a top-level
request for it is refused with the closing error. -/
theorem installed_refused_after_drain :
    ∃ m, (init false false).run drainedFile = some m ∧
      (m.compiled.lookup (Path.clean "a.abla")).isSome ∧ m.cancelled = true ∧
      ∃ q, m.reqs[1]? = some q ∧ q.name = Path.clean "a.abla" ∧
        q.pc = .done (some Service.closedFailure) := by
  simp [drainedFile, run, Option.filter_some, Option.bind_some, step, init, ask, Ask.unit,
    Handle.resolve, enter, lock, spawn, check, parse, after, nextPhase, finish, settle, retire,
    wake, leave, complete, startDrain, job?, setReq, setJob, report, completeCtx,
    Units.setEntry, Units.dropEntry, record, beginWait, Context.requester, context, Job.result]

end Machine

end Abla
