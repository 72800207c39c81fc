import Abla.Proofs.Service.Nesting

/-!
# What a step moves, and what it leaves alone

A step moves at most one goroutine. This module says once, for every kind of step, what it leaves
as it was: the configuration of the service, whether it is closed and its calls of `Drain` unless
the step is a new call, its cancellation unless the step cancels it, every request and every job
but the one the step moves, and the outcome of every context but one it completes. Invariants
about one request or one job then need only the steps of their own, and these are gathered here
too: a step of a request or a job is one of its sections (`ReqStep`, `JobStep`). The outcome of a
job, once set, is final.
-/

namespace Abla

namespace Machine

variable {m m' : Machine}

/-- The outcome of job `j`, once it is done. -/
def outcome (m : Machine) (j : Nat) : Option (Option Failure) := m.jobs[j]?.bind Job.result

theorem outcome_eq_entry (j : Nat) :
    m.outcome j = ((m.jobs.map Job.entry)[j]?).bind Prod.snd := by
  simp only [outcome, List.getElem?_map]
  cases m.jobs[j]? <;> rfl

/-- The outcome of a job is final. -/
theorem step_outcome {a : Action} {j : Nat} {o : Option Failure} (hs : m.step a = some m')
    (h : m.outcome j = some o) : m'.outcome j = some o := by
  rcases step_units hs with hu | ⟨r, q, -, -, hr⟩ | ⟨i, job, -, hj, hf⟩
  · rwa [outcome_eq_entry, hu.entries, ← outcome_eq_entry]
  · obtain ⟨job, hjob, hres⟩ := Option.bind_eq_some_iff.1 h
    simp only [outcome, hr.jobs, getElem?_append_of_getElem? hjob, Option.bind_some, hres]
  · obtain ⟨hjob, -⟩ := job?_eq_some hj
    obtain ⟨err, hpc⟩ := finish_pc hf
    obtain ⟨out, hjobs⟩ := finish_jobs hf
    -- the finishing job had no outcome yet, so it is another one
    have hij : i ≠ j := by
      rintro rfl
      simp [outcome, hjob, Job.result, hpc] at h
    simpa only [outcome, hjobs, List.getElem?_set_ne hij] using h

/-! ## Contexts -/

@[simp] theorem Context.default_outcome : (default : Context).outcome = none := rfl

/-- Completing a context gives it an outcome if it had none, and changes no other. -/
theorem outcome_completeCtx (c c' : Nat) (err : Option Failure) :
    ((m.completeCtx c' err).context c).outcome = (m.context c).outcome ∨
      c = c' ∧ (m.context c).outcome = none ∧
        ((m.completeCtx c' err).context c).outcome = some err := by
  by_cases hc : c = c' ∧ c < m.contexts.length
  · obtain ⟨rfl, hlt⟩ := hc
    rw [context_completeCtx hlt]
    unfold Context.complete
    split
    · exact .inr ⟨rfl, ‹_›, rfl⟩
    · exact .inl rfl
  · left
    have hother : c ≠ c' ∨ m.contexts.length ≤ c := by omega
    simp only [Machine.context, completeCtx, List.getD_eq_getElem?_getD]
    rcases hother with hne | hge
    · simp [Ne.symm hne]
    · rw [List.getElem?_eq_none (by simpa using hge), List.getElem?_eq_none hge]

/-- Making a context for a new request gives no context an outcome. -/
theorem outcome_resolve {h : Handle} {cs cs' : List Context} {cc : Nat}
    (hr : h.resolve cs = some (cc, cs')) (c : Nat) :
    (cs'.getD c default).outcome = (cs.getD c default).outcome := by
  have happ : ∀ x : Context, x.outcome = none →
      ((cs ++ [x]).getD c default).outcome = (cs.getD c default).outcome := by
    intro x hx
    simp only [List.getD_eq_getElem?_getD, List.getElem?_append]
    split
    · rfl
    · rename_i hge
      simp only [List.getElem?_singleton]
      split
      · simp [hx, List.getElem?_eq_none (Nat.le_of_not_lt hge)]
      · simp [List.getElem?_eq_none (Nat.le_of_not_lt hge)]
  cases h with
  | fresh =>
    simp only [Handle.resolve, Option.some.injEq, Prod.mk.injEq] at hr
    obtain ⟨-, rfl⟩ := hr
    exact happ _ rfl
  | given c' =>
    simp only [Handle.resolve] at hr
    split at hr
    · simp only [Option.some.injEq, Prod.mk.injEq] at hr
      rw [hr.2]
    · cases hr
  | derived c' unit =>
    obtain ⟨p, -, hp⟩ := Option.map_eq_some_iff.1 hr
    simp only [Prod.mk.injEq] at hp
    rw [← hp.2]
    exact happ _ rfl

/-! ## What a step leaves alone -/

/-- The request that an action moves, if any. -/
def Action.request? : Action → Option Nat
  | .abandon r _ | .enter r | .lock r | .spawn r | .fork r | .wake r _ | .complete r
  | .leave r => some r
  | _ => none

/-- The steps that complete context `c` with `err`: a job completes the context of the request
that registered it with its outcome, an asynchronous join completes its own with the outcome of
the job it joins, and a request completes its own with its answer. -/
def Completes (m : Machine) (a : Action) (c : Nat) (err : Option Failure) : Prop :=
  (∃ j job, a = .retire j ∧ m.jobs[j]? = some job ∧ job.cc = c ∧ job.result = some err) ∨
  (∃ k w, a = .join k ∧ m.joiners[k]? = some w ∧ w.cc = c ∧ m.outcome w.job = some err) ∨
  (∃ r q, a = .complete r ∧ m.reqs[r]? = some q ∧ q.cc = c ∧ q.pc = .complete err)

/-- Context `c` gets its first outcome, from a step that completes it. -/
def Completion (m : Machine) (a : Action) (m' : Machine) (c : Nat) : Prop :=
  (m.context c).outcome = none ∧ ∃ err, (m'.context c).outcome = some err ∧ m.Completes a c err

/-- The job that an action moves, if any. -/
def Action.job? : Action → Option Nat
  | .check j | .parse j _ | .gather j _ | .execute j _ | .nest j _ _ _ _ | .resume j | .finish j
  | .retire j => some j
  | _ => none

/-- Every job but the one that the step moves keeps its place; a job may only be started. -/
def JobsKept (m : Machine) (a : Action) (m' : Machine) : Prop :=
  ∀ j job, a.job? ≠ some j → m.jobs[j]? = some job →
    ∃ job', m'.jobs[j]? = some job' ∧ { job' with started := job.started } = job

namespace JobsKept

variable {a : Action}

theorem of_eq (h : m'.jobs = m.jobs) : JobsKept m a m' :=
  fun _ job _ hj => ⟨job, h ▸ hj, rfl⟩

theorem of_append {l : List Job} (h : m'.jobs = m.jobs ++ l) : JobsKept m a m' :=
  fun _ job _ hj => ⟨job, h ▸ getElem?_append_of_getElem? hj, rfl⟩

theorem of_set {j : Nat} {job' : Job} (ha : a.job? = some j) (h : m'.jobs = m.jobs.set j job') :
    JobsKept m a m' := by
  intro i job hi hj
  have hne : j ≠ i := fun he => hi (he ▸ ha)
  exact ⟨job, by rw [h, List.getElem?_set_ne hne, hj], rfl⟩

theorem of_start {j : Nat} (h : m'.jobs = m.jobs.modify j fun job => { job with started := true }) :
    JobsKept m a m' := by
  intro i job _ hj
  by_cases hji : j = i
  · subst hji
    exact ⟨{ job with started := true }, by simp [h, hj], rfl⟩
  · exact ⟨job, by simp [h, hji, hj], rfl⟩

end JobsKept

/-- What a step leaves alone: the configuration; whether the service is closed, and its calls
of `Drain`, unless the step is a new call; the cancellation, unless it cancels; every request
and every job but its own; and the outcome of every context but one it completes. -/
structure Frame (m : Machine) (a : Action) (m' : Machine) : Prop where
  config : m'.gathers = m.gathers ∧ m'.executes = m.executes
  drains : a ≠ .drain → m'.closed = m.closed ∧ m'.drains.length = m.drains.length
  cancelled : a ≠ .cancel → m'.cancelled = m.cancelled
  reqs : ∀ r q, a.request? ≠ some r → m.reqs[r]? = some q → m'.reqs[r]? = some q
  jobs : JobsKept m a m'
  outcomes : ∀ c, (m'.context c).outcome = (m.context c).outcome ∨ Completion m a m' c

namespace Frame

variable {a : Action}

/-- A step that moves no request and completes no context. -/
theorem keep (hcfg : m'.gathers = m.gathers ∧ m'.executes = m.executes)
    (hdr : m'.closed = m.closed ∧ m'.drains.length = m.drains.length)
    (hcan : m'.cancelled = m.cancelled) (hreqs : m'.reqs = m.reqs) (hjobs : JobsKept m a m')
    (hctx : m'.contexts = m.contexts) : Frame m a m' where
  config := hcfg
  drains _ := hdr
  cancelled _ := hcan
  reqs _ _ _ hq := by rwa [hreqs]
  jobs := hjobs
  outcomes c := .inl (by simp only [Machine.context, hctx])

/-- A step of request `r` that completes no context. -/
theorem move {r : Nat} {q' : Request} (ha : a.request? = some r)
    (hcfg : m'.gathers = m.gathers ∧ m'.executes = m.executes)
    (hdr : m'.closed = m.closed ∧ m'.drains.length = m.drains.length)
    (hcan : m'.cancelled = m.cancelled) (hreqs : m'.reqs = m.reqs.set r q')
    (hjobs : JobsKept m a m') (hctx : m'.contexts = m.contexts) : Frame m a m' where
  config := hcfg
  drains _ := hdr
  cancelled _ := hcan
  reqs r' q hr' hq := by
    have hne : r ≠ r' := fun he => hr' (he ▸ ha)
    rwa [hreqs, List.getElem?_set_ne hne]
  jobs := hjobs
  outcomes c := .inl (by simp only [Machine.context, hctx])

/-- A step that completes context `c'` with `err`, and moves no request but its own. -/
theorem complete {c' : Nat} {err : Option Failure}
    (hcfg : m'.gathers = m.gathers ∧ m'.executes = m.executes)
    (hdr : m'.closed = m.closed ∧ m'.drains.length = m.drains.length)
    (hcan : m'.cancelled = m.cancelled)
    (hreqs : ∀ r q, a.request? ≠ some r → m.reqs[r]? = some q → m'.reqs[r]? = some q)
    (hjobs : JobsKept m a m') (hctx : m'.contexts = (m.completeCtx c' err).contexts)
    (hc : m.Completes a c' err) : Frame m a m' where
  config := hcfg
  drains _ := hdr
  cancelled _ := hcan
  reqs := hreqs
  jobs := hjobs
  outcomes c := by
    have hm' : m'.context c = (m.completeCtx c' err).context c := by
      simp only [Machine.context, hctx]
    rcases outcome_completeCtx c c' err with he | ⟨rfl, hnone, hsome⟩
    · exact .inl (hm' ▸ he)
    · exact .inr ⟨hnone, err, hm' ▸ hsome, hc⟩

end Frame

/-- A new request, with the context it is made with, and the job that makes it if any. -/
theorem frame_ask {a : Action} {ask : Ask} {p : Bool} {h : Handle} {d : Deadline} {m₁ : Machine}
    (hs : m.ask ask p h d = some m₁) (hjobs : m'.jobs = m₁.jobs ∨ ∃ j job, a.job? = some j ∧
      m'.jobs = m₁.jobs.set j job) (hrest : m'.reqs = m₁.reqs ∧ m'.contexts = m₁.contexts ∧
      m'.cancelled = m₁.cancelled ∧ m'.gathers = m₁.gathers ∧ m'.executes = m₁.executes ∧
      m'.closed = m₁.closed ∧ m'.drains = m₁.drains) :
    Frame m a m' := by
  obtain ⟨cc, cs, hr, rfl⟩ := ask_eq hs
  obtain ⟨hreqs, hctx, hcan, hg, he, hcl, hdr⟩ := hrest
  refine ⟨⟨hg, he⟩, fun _ => ⟨hcl, by rw [hdr]⟩, fun _ => hcan, fun _ _ _ hq => ?_, ?_,
    fun c => .inl ?_⟩
  · rw [hreqs]
    exact getElem?_append_of_getElem? hq
  · rcases hjobs with hjobs | ⟨j, job, ha, hjobs⟩
    · exact .of_eq hjobs
    · exact .of_set ha hjobs
  · simp only [Machine.context, hctx]
    exact outcome_resolve hr c

/-- Every step keeps the frame: one case for each kind of step. -/
theorem step_frame {a : Action} (hs : m.step a = some m') : Frame m a m' := by
  cases a with
  | ask a p h d => exact frame_ask hs (.inl rfl) ⟨rfl, rfl, rfl, rfl, rfl, rfl, rfl⟩
  | cancel =>
    cases hs
    exact ⟨⟨rfl, rfl⟩, fun _ => ⟨rfl, rfl⟩, fun h => absurd rfl h, fun _ _ _ hq => hq, .of_eq rfl,
      fun _ => .inl rfl⟩
  | drain =>
    cases hs
    exact ⟨⟨rfl, rfl⟩, fun h => absurd rfl h, fun _ => rfl, fun _ _ _ hq => hq, .of_eq rfl,
      fun _ => .inl rfl⟩
  | abandon r e =>
    obtain ⟨q, -, hq⟩ := Option.bind_eq_some_iff.1 hs
    obtain ⟨-, rfl⟩ := abandon_eq hq
    exact .move rfl ⟨rfl, rfl⟩ ⟨rfl, rfl⟩ rfl rfl (.of_eq rfl) rfl
  | enter r =>
    obtain ⟨q, -, hq⟩ := Option.bind_eq_some_iff.1 hs
    obtain ⟨-, ⟨-, rfl⟩ | ⟨-, rfl⟩⟩ := enter_eq hq
    · exact .move rfl ⟨rfl, rfl⟩ ⟨rfl, rfl⟩ rfl rfl (.of_eq rfl) rfl
    · exact .move rfl ⟨rfl, rfl⟩ ⟨rfl, rfl⟩ rfl rfl (.of_eq rfl) rfl
  | lock r =>
    obtain ⟨q, -, hq⟩ := Option.bind_eq_some_iff.1 hs
    obtain ⟨-, q', hreqs, hctx, hcan, -, hdr, hg, he, hcl, hjobs⟩ := lock_frame hq
    refine .move rfl ⟨hg, he⟩ ⟨hcl, by rw [hdr]⟩ hcan hreqs ?_ hctx
    rcases hjobs with hjobs | ⟨job, hjobs⟩
    · exact .of_eq hjobs
    · exact .of_append hjobs
  | spawn r =>
    obtain ⟨q, -, hq⟩ := Option.bind_eq_some_iff.1 hs
    obtain ⟨j, -, rfl⟩ := spawn_eq hq
    exact .move rfl ⟨rfl, rfl⟩ ⟨rfl, rfl⟩ rfl rfl (.of_start rfl) rfl
  | fork r =>
    obtain ⟨q, -, hq⟩ := Option.bind_eq_some_iff.1 hs
    obtain ⟨j, -, rfl⟩ := fork_eq hq
    exact .move rfl ⟨rfl, rfl⟩ ⟨rfl, rfl⟩ rfl rfl (.of_eq rfl) rfl
  | wake r b =>
    obtain ⟨q, -, hq⟩ := Option.bind_eq_some_iff.1 hs
    obtain ⟨j, joined, err, -, -, rfl⟩ := wake_eq hq
    exact .move rfl ⟨rfl, rfl⟩ ⟨rfl, rfl⟩ rfl rfl (.of_eq rfl) rfl
  | complete r =>
    obtain ⟨q, hr, hq⟩ := Option.bind_eq_some_iff.1 hs
    obtain ⟨err, hpc, rfl⟩ := complete_eq hq
    refine .complete ⟨rfl, rfl⟩ ⟨rfl, rfl⟩ rfl ?_ (.of_eq rfl) rfl
      (.inr (.inr ⟨r, q, rfl, hr, rfl, hpc⟩))
    intro r' q' hr' hq'
    have hne : r ≠ r' := fun he => hr' (by rw [he]; rfl)
    rwa [setReq_reqs, completeCtx_reqs, List.getElem?_set_ne hne]
  | leave r =>
    obtain ⟨q, -, hq⟩ := Option.bind_eq_some_iff.1 hs
    obtain ⟨err, -, rfl⟩ := leave_eq hq
    exact .move rfl ⟨rfl, rfl⟩ ⟨rfl, rfl⟩ rfl rfl (.of_eq rfl) rfl
  | check j =>
    obtain ⟨job, -, hq⟩ := Option.bind_eq_some_iff.1 hs
    obtain ⟨p, -, rfl⟩ := check_eq hq
    exact .keep ⟨rfl, rfl⟩ ⟨rfl, rfl⟩ rfl rfl (.of_set rfl rfl) rfl
  | parse j out =>
    obtain ⟨job, -, hq⟩ := Option.bind_eq_some_iff.1 hs
    obtain ⟨-, ⟨e, -, rfl⟩ | ⟨f, -, rfl⟩⟩ := parse_eq hq
    · exact .keep ⟨rfl, rfl⟩ ⟨rfl, rfl⟩ rfl rfl (.of_set rfl rfl) rfl
    · exact .keep ⟨rfl, rfl⟩ ⟨rfl, rfl⟩ rfl rfl (.of_set rfl rfl) rfl
  | gather j err =>
    obtain ⟨job, -, hq⟩ := Option.bind_eq_some_iff.1 hs
    obtain ⟨-, ⟨e, -, rfl⟩ | ⟨-, rfl⟩⟩ := endPhase_eq hq
    · exact .keep ⟨rfl, rfl⟩ ⟨rfl, rfl⟩ rfl rfl (.of_set rfl rfl) rfl
    · exact .keep ⟨rfl, rfl⟩ ⟨rfl, rfl⟩ rfl rfl (.of_set rfl rfl) rfl
  | execute j err =>
    obtain ⟨job, -, hq⟩ := Option.bind_eq_some_iff.1 hs
    obtain ⟨-, ⟨e, -, rfl⟩ | ⟨-, rfl⟩⟩ := endPhase_eq hq
    · exact .keep ⟨rfl, rfl⟩ ⟨rfl, rfl⟩ rfl rfl (.of_set rfl rfl) rfl
    · exact .keep ⟨rfl, rfl⟩ ⟨rfl, rfl⟩ rfl rfl (.of_set rfl rfl) rfl
  | nest j a p h d =>
    obtain ⟨job, -, hq⟩ := Option.bind_eq_some_iff.1 hs
    obtain ⟨-, m₁, h₁, rfl⟩ := nest_eq hq
    exact frame_ask h₁ (.inr ⟨j, _, rfl, rfl⟩) ⟨rfl, rfl, rfl, rfl, rfl, rfl, rfl⟩
  | resume j =>
    obtain ⟨job, -, hq⟩ := Option.bind_eq_some_iff.1 hs
    obtain ⟨r, q, err, -, -, -, rfl⟩ := resume_eq hq
    exact .keep ⟨rfl, rfl⟩ ⟨rfl, rfl⟩ rfl rfl (.of_set rfl rfl) rfl
  | finish j =>
    obtain ⟨job, -, hq⟩ := Option.bind_eq_some_iff.1 hs
    obtain ⟨err, out, -, hreqs, -, hctx, hcan, hjobs, hg, he, hcl, hdr⟩ := finish_eq hq
    exact .keep ⟨hg, he⟩ ⟨hcl, by rw [hdr]⟩ hcan hreqs (.of_set rfl hjobs) hctx
  | retire j =>
    obtain ⟨job, hj, hq⟩ := Option.bind_eq_some_iff.1 hs
    obtain ⟨err, hpc, rfl⟩ := retire_eq hq
    exact .complete ⟨rfl, rfl⟩ ⟨rfl, rfl⟩ rfl (fun _ _ _ hq => hq) (.of_set rfl rfl) rfl
      (.inl ⟨j, job, rfl, (job?_eq_some hj).1, rfl, by simp [Job.result, hpc]⟩)
  | join k =>
    obtain ⟨w, hw, hq⟩ := Option.bind_eq_some_iff.1 hs
    obtain ⟨err, -, herr, rfl⟩ := join_eq hq
    exact .complete ⟨rfl, rfl⟩ ⟨rfl, rfl⟩ rfl (fun _ _ _ hq => hq) (.of_eq rfl) rfl
      (.inr (.inl ⟨k, w, rfl, hw, rfl, herr⟩))
  | drainStep d =>
    obtain ⟨pc, -, hq⟩ := Option.bind_eq_some_iff.1 hs
    obtain ⟨pc', rfl⟩ := drainStep_eq hq
    exact .keep ⟨rfl, rfl⟩ ⟨rfl, List.length_set⟩ rfl rfl (.of_eq rfl) rfl

/-! ## What a step does to its own goroutine -/

/-- A step of request `r` is one of its sections. -/
theorem reqStep_of_own {a : Action} {r : Nat} {q : Request} (hq : m.reqs[r]? = some q)
    (ha : a.request? = some r) (hs : m.step a = some m') :
    ∃ q', m'.reqs[r]? = some q' ∧ ReqStep m r q a q' := by
  have hlt : r < m.reqs.length := (List.getElem?_eq_some_iff.1 hq).1
  have hset : ∀ x : Request, (m.reqs.set r x)[r]? = some x := fun x => List.getElem?_set_self hlt
  cases a
  case abandon r' e =>
    obtain rfl : r' = r := by simpa [Action.request?] using ha
    simp only [Machine.step, hq, Option.bind_some] at hs
    obtain ⟨hd, rfl⟩ := abandon_eq hs
    exact ⟨_, hset _, .abandon hd⟩
  case enter r' =>
    obtain rfl : r' = r := by simpa [Action.request?] using ha
    simp only [Machine.step, hq, Option.bind_some] at hs
    obtain ⟨hpc, ⟨hc, rfl⟩ | ⟨hc, rfl⟩⟩ := enter_eq hs
    · exact ⟨_, hset _, .refuse hpc hc⟩
    · exact ⟨_, hset _, .accept hpc hc⟩
  case lock r' =>
    obtain rfl : r' = r := by simpa [Action.request?] using ha
    simp only [Machine.step, hq, Option.bind_some] at hs
    obtain ⟨q', hreqs, hstep⟩ := lock_step hs
    exact ⟨q', by rw [hreqs]; exact hset _, hstep⟩
  case spawn r' =>
    obtain rfl : r' = r := by simpa [Action.request?] using ha
    simp only [Machine.step, hq, Option.bind_some] at hs
    obtain ⟨j, hpc, rfl⟩ := spawn_eq hs
    exact ⟨_, hset _, .spawn hpc⟩
  case fork r' =>
    obtain rfl : r' = r := by simpa [Action.request?] using ha
    simp only [Machine.step, hq, Option.bind_some] at hs
    obtain ⟨j, hpc, rfl⟩ := fork_eq hs
    exact ⟨_, hset _, .fork hpc⟩
  case wake r' b =>
    obtain rfl : r' = r := by simpa [Action.request?] using ha
    simp only [Machine.step, hq, Option.bind_some] at hs
    obtain ⟨j, joined, err, hpc, hwhy, rfl⟩ := wake_eq hs
    exact ⟨_, hset _, .wake hpc hwhy⟩
  case complete r' =>
    obtain rfl : r' = r := by simpa [Action.request?] using ha
    simp only [Machine.step, hq, Option.bind_some] at hs
    obtain ⟨err, hpc, rfl⟩ := complete_eq hs
    exact ⟨_, hset _, .complete hpc⟩
  case leave r' =>
    obtain rfl : r' = r := by simpa [Action.request?] using ha
    simp only [Machine.step, hq, Option.bind_some] at hs
    obtain ⟨err, hpc, rfl⟩ := leave_eq hs
    exact ⟨_, hset _, .leave hpc⟩
  all_goals simp [Action.request?] at ha

theorem job_of_job? {j : Nat} {job job₀ : Job} (hj : m.jobs[j]? = some job)
    (h₀ : m.job? j = some job₀) : job₀ = job := by
  have h := (job?_eq_some h₀).1
  rw [hj] at h
  exact (Option.some.inj h).symm

/-- A step of job `j` is one of its sections. -/
theorem jobStep_of_own {a : Action} {j : Nat} {job : Job} (hreg : Registry m)
    (hj : m.jobs[j]? = some job) (ha : a.job? = some j) (hs : m.step a = some m') :
    ∃ job', m'.jobs[j]? = some job' ∧ JobStep m j job a job' := by
  have hlt : j < m.jobs.length := (List.getElem?_eq_some_iff.1 hj).1
  have hset : ∀ x : Job, (m.jobs.set j x)[j]? = some x := fun x => List.getElem?_set_self hlt
  cases a
  case check j' =>
    obtain rfl : j' = j := by simpa [Action.job?] using ha
    obtain ⟨job₀, h₀, hs⟩ := Option.bind_eq_some_iff.1 hs
    obtain rfl := job_of_job? hj h₀
    obtain ⟨p, hpc, rfl⟩ := check_eq hs
    exact ⟨_, hset _, .check hpc⟩
  case parse j' out =>
    obtain rfl : j' = j := by simpa [Action.job?] using ha
    obtain ⟨job₀, h₀, hs⟩ := Option.bind_eq_some_iff.1 hs
    obtain rfl := job_of_job? hj h₀
    obtain ⟨hpc, ⟨e, rfl, rfl⟩ | ⟨f, rfl, rfl⟩⟩ := parse_eq hs
    · exact ⟨_, hset _, .parseFail hpc⟩
    · exact ⟨_, hset _, .parse hpc⟩
  case gather j' err =>
    obtain rfl : j' = j := by simpa [Action.job?] using ha
    obtain ⟨job₀, h₀, hs⟩ := Option.bind_eq_some_iff.1 hs
    obtain rfl := job_of_job? hj h₀
    obtain ⟨hpc, ⟨e, rfl, rfl⟩ | ⟨rfl, rfl⟩⟩ := endPhase_eq hs
    · exact ⟨_, hset _, .gatherFail hpc⟩
    · exact ⟨_, hset _, .gather hpc⟩
  case execute j' err =>
    obtain rfl : j' = j := by simpa [Action.job?] using ha
    obtain ⟨job₀, h₀, hs⟩ := Option.bind_eq_some_iff.1 hs
    obtain rfl := job_of_job? hj h₀
    obtain ⟨hpc, ⟨e, rfl, rfl⟩ | ⟨rfl, rfl⟩⟩ := endPhase_eq hs
    · exact ⟨_, hset _, .executeFail hpc⟩
    · exact ⟨_, hset _, .execute hpc⟩
  case nest j' a p h d =>
    obtain rfl : j' = j := by simpa [Action.job?] using ha
    obtain ⟨job₀, h₀, hs⟩ := Option.bind_eq_some_iff.1 hs
    obtain rfl := job_of_job? hj h₀
    obtain ⟨hpc, m₁, h₁, rfl⟩ := nest_eq hs
    obtain ⟨cc, cs, -, rfl⟩ := ask_eq h₁
    exact ⟨_, hset _, .nest hpc⟩
  case resume j' =>
    obtain rfl : j' = j := by simpa [Action.job?] using ha
    obtain ⟨job₀, h₀, hs⟩ := Option.bind_eq_some_iff.1 hs
    obtain rfl := job_of_job? hj h₀
    obtain ⟨r, q, err, hpc, -, -, rfl⟩ := resume_eq hs
    exact ⟨_, hset _, .resume hpc⟩
  case finish j' =>
    obtain rfl : j' = j := by simpa [Action.job?] using ha
    obtain ⟨job₀, h₀, hs⟩ := Option.bind_eq_some_iff.1 hs
    obtain rfl := job_of_job? hj h₀
    obtain ⟨err, hpc⟩ := finish_pc hs
    -- the unit is still pending with this job, so its outcome is settled
    obtain ⟨-, -, -, hjobs⟩ := finish_own hpc (hreg.finish_own_unit h₀ hs) hs
    exact ⟨_, by rw [hjobs]; exact hset _, .finish hpc⟩
  case retire j' =>
    obtain rfl : j' = j := by simpa [Action.job?] using ha
    obtain ⟨job₀, h₀, hs⟩ := Option.bind_eq_some_iff.1 hs
    obtain rfl := job_of_job? hj h₀
    obtain ⟨err, hpc, rfl⟩ := retire_eq hs
    exact ⟨_, hset _, .retire hpc⟩
  all_goals simp [Action.job?] at ha

/-! ## Cancellation -/

/-- Once cancelled, the service stays cancelled. -/
theorem step_cancelled {a : Action} (hs : m.step a = some m') (h : m.cancelled = true) :
    m'.cancelled = true := by
  by_cases ha : a = .cancel
  · subst ha
    cases hs
    rfl
  · rw [(step_frame hs).cancelled ha, h]

/-- A context that the service's cancellation or the caller cancelled stays cancelled. -/
theorem step_cancelledBy {a : Action} {d : Deadline} (hs : m.step a = some m')
    (h : (m.cancelledBy d).isSome) : (m'.cancelledBy d).isSome := by
  cases d with
  | service =>
    have hc : m.cancelled = true := by
      cases hc : m.cancelled
      · simp [cancelledBy, hc] at h
      · rfl
    simp [cancelledBy, step_cancelled hs hc]
  | caller err => exact h

end Machine

end Abla
