import Abla.Proofs.Service.Install
import Abla.Proofs.Service.Deadlock

/-!
# What the counters of the service count

Callers outside the service make top-level requests; a context derived for a unit is for the
compile-time execution of that unit (`TopReachable`). Along such runs the two counters of the
service count what they stand for (`Ledger`): `requests` the admitted top-level requests that
have not returned, and `group` the jobs started and not ended together with the joins still
running. Every request in flight is admitted, made by a job blocked in it, or a top-level
request that has not been admitted; a job not yet started is the one that the request which
registered it is about to start; and a request that no longer completes its own context has it
completed already, or a job or a join exists that completes it as it ends.

So once both counters are at zero in a closed service, nothing is left (`Ledger.quiescent`):
nothing is pending, no job or join runs, and every request has returned with its context
completed, but top-level ones that the service has not admitted. Each kind of update keeps the
ledger (`Ledger.frame`, `Ledger.move`, `Ledger.advance`, `Ledger.addRequest` and the rest), and
each step is one of them (`Ledger.step`).
-/

namespace Abla

namespace Machine

open Service (closedFailure)

variable {m m' : Machine}

/-! ## Callers make top-level requests -/

/-- Requests from outside the service are top-level; compile-time execution may make any. -/
def callerTopLevel (m : Machine) : Action → Bool
  | .ask _ _ h _ => h.topLevel m
  | _ => true

/-- The states reached by runs whose callers make top-level requests. -/
inductive TopReachable : Machine → Prop where
  | init (gathers executes : Bool) : TopReachable (init gathers executes)
  | step {m m' : Machine} (a : Action) : TopReachable m → m.callerTopLevel a = true →
      m.step a = some m' → TopReachable m'

/-- Runs steps in order as long as every request from outside is top-level. -/
def runTop (m : Machine) : List Action → Option Machine
  | [] => some m
  | a :: as => if m.callerTopLevel a then (m.step a).bind (·.runTop as) else none

theorem TopReachable.reachable (h : TopReachable m) : Reachable m := by
  induction h with
  | init g e => exact .init g e
  | step a _ _ hs ih => exact .step a ih hs

theorem TopReachable.runTop {as : List Action} (h : TopReachable m)
    (hr : m.runTop as = some m') : TopReachable m' := by
  induction as generalizing m with
  | nil =>
    cases hr
    exact h
  | cons a as ih =>
    simp only [Machine.runTop] at hr
    split at hr
    · rename_i ha
      obtain ⟨m₁, h₁, hr⟩ := Option.bind_eq_some_iff.1 hr
      exact ih (h.step a ha h₁) hr
    · cases hr

/-! ## What the counters count -/

/-- Whether a job's goroutine has ended. -/
def JobPc.ended : JobPc → Bool
  | .exited _ => true
  | _ => false

/-- A job whose goroutine runs: started, and not ended. -/
def Job.running (job : Job) : Bool := job.started && !job.pc.ended

/-- The goroutines that `group` counts: running jobs and running joins. -/
def busy (m : Machine) : Nat := m.jobs.countP Job.running + m.joiners.countP Joiner.running

/-- The top-level requests that `requests` counts. -/
def admitted (m : Machine) : Nat := m.reqs.countP Request.counted

/-- Request `r` was made by the compile-time execution of a started job, blocked in it. -/
def Issued (m : Machine) (r : Nat) : Prop :=
  ∃ (j : Nat) (job : Job), m.jobs[j]? = some job ∧ job.started = true ∧ job.pc = .nested r

/-- A top-level request that the service has not admitted: before `enterRequest`, or refused
by it and on its way out. -/
def Outside (m : Machine) (q : Request) : Prop :=
  (m.context q.cc).requester = "" ∧ q.counted = false ∧ q.waiting = false ∧
    (q.pc = .enter ∨ q.pc = .complete (some closedFailure) ∨ q.pc = .leave (some closedFailure))

section Updates

variable (m : Machine) (r j c : Nat) (q : Request) (job : Job) (e : Event) (err : Option Failure)

@[simp] theorem setReq_group : (m.setReq r q).group = m.group := rfl
@[simp] theorem setReq_requests : (m.setReq r q).requests = m.requests := rfl
@[simp] theorem setReq_joiners : (m.setReq r q).joiners = m.joiners := rfl
@[simp] theorem setJob_group : (m.setJob j job).group = m.group := rfl
@[simp] theorem setJob_requests : (m.setJob j job).requests = m.requests := rfl
@[simp] theorem setJob_joiners : (m.setJob j job).joiners = m.joiners := rfl
@[simp] theorem report_group : (m.report e).group = m.group := rfl
@[simp] theorem report_requests : (m.report e).requests = m.requests := rfl
@[simp] theorem report_joiners : (m.report e).joiners = m.joiners := rfl
@[simp] theorem completeCtx_group : (m.completeCtx c err).group = m.group := rfl
@[simp] theorem completeCtx_requests : (m.completeCtx c err).requests = m.requests := rfl
@[simp] theorem completeCtx_joiners : (m.completeCtx c err).joiners = m.joiners := rfl

end Updates

/-- Replacing one element changes a count by what the two elements count. -/
theorem countP_set_add {α : Type} (p : α → Bool) {l : List α} {i : Nat} {a : α} (b : α)
    (h : l[i]? = some a) :
    (l.set i b).countP p + (if p a then 1 else 0) = l.countP p + (if p b then 1 else 0) := by
  obtain ⟨hi, rfl⟩ := List.getElem?_eq_some_iff.1 h
  have hle := List.boole_getElem_le_countP (p := p) hi
  rw [List.countP_set hi]
  omega

/-- Whether a request no longer completes its own context: the job it registered or its
asynchronous join does, or it has completed it already. -/
def ReqPc.owed : ReqPc → Bool
  | .spawn _ | .wait _ false | .leave _ | .done _ => true
  | _ => false

/-- Context `c` is completed, or a job or an asynchronous join exists for it, which completes it
as it ends. -/
def Answered (m : Machine) (c : Nat) : Prop :=
  (m.context c).outcome.isSome ∨
    (∃ (j : Nat) (job : Job), m.jobs[j]? = some job ∧ job.cc = c) ∨
    ∃ (k : Nat) (w : Joiner), m.joiners[k]? = some w ∧ w.cc = c

/-! ## The ledger -/

/-- What the counters of a service count, who answers for each request in flight, and who
completes the context of each request. -/
structure Ledger (m : Machine) : Prop where
  group : m.group = m.busy
  requests : m.requests = m.admitted
  req_cc : ∀ (r : Nat) (q : Request), m.reqs[r]? = some q → q.cc < m.contexts.length
  job_cc : ∀ (j : Nat) (job : Job), m.jobs[j]? = some job → job.cc < m.contexts.length
  joiner_cc : ∀ (k : Nat) (w : Joiner), m.joiners[k]? = some w → w.cc < m.contexts.length
  /-- A request before `enterRequest` is a top-level one, not counted and waiting on nothing. -/
  entering : ∀ (r : Nat) (q : Request), m.reqs[r]? = some q → q.pc = .enter → m.Outside q
  /-- A request in flight is admitted, made by a job blocked in it, or not admitted. -/
  inflight : ∀ (r : Nat) (q : Request), m.reqs[r]? = some q → q.pc.returned = false →
    q.counted = true ∨ m.Issued r ∨ m.Outside q
  /-- A job not started has not moved, and a request is about to start it. -/
  unstarted : ∀ (j : Nat) (job : Job), m.jobs[j]? = some job → job.started = false →
    job.pc = .check .parse ∧ ∃ (r : Nat) (q : Request), m.reqs[r]? = some q ∧ q.pc = .spawn j
  /-- A request about to start a job starts one not started yet, and it alone. -/
  spawner : ∀ (r : Nat) (q : Request) (j : Nat), m.reqs[r]? = some q → q.pc = .spawn j →
    (∃ job : Job, m.jobs[j]? = some job ∧ job.started = false) ∧
      ∀ (r' : Nat) (q' : Request), m.reqs[r']? = some q' → q'.pc = .spawn j → r' = r
  /-- A job that has ended has completed its context, and so has a join that has ended. -/
  retired : ∀ (j : Nat) (job : Job), m.jobs[j]? = some job → job.pc.ended = true →
    (m.context job.cc).outcome.isSome
  joined : ∀ (k : Nat) (w : Joiner), m.joiners[k]? = some w → w.running = false →
    (m.context w.cc).outcome.isSome
  /-- A request that no longer completes its own context has it completed by another. -/
  owed : ∀ (r : Nat) (q : Request), m.reqs[r]? = some q → q.pc.owed = true → m.Answered q.cc

theorem Ledger.init (gathers executes : Bool) : Ledger (init gathers executes) where
  group := rfl
  requests := rfl
  req_cc := by simp [Machine.init]
  job_cc := by simp [Machine.init]
  joiner_cc := by simp [Machine.init]
  entering := by simp [Machine.init]
  inflight := by simp [Machine.init]
  unstarted := by simp [Machine.init]
  spawner := by simp [Machine.init]
  retired := by simp [Machine.init]
  joined := by simp [Machine.init]
  owed := by simp [Machine.init]

/-! ## Quiescence -/

/-- A service with nothing left to do: closed, both counters at zero, nothing pending, every job
ended, every join done, and every request returned but top-level ones the service refuses. -/
structure Quiescent (m : Machine) : Prop where
  closed : m.closed = true
  requests : m.requests = 0
  group : m.group = 0
  pending : m.pending = []
  jobs : ∀ (j : Nat) (job : Job), m.jobs[j]? = some job → job.pc.ended = true
  joiners : ∀ (k : Nat) (w : Joiner), m.joiners[k]? = some w → w.running = false
  reqs : ∀ (r : Nat) (q : Request), m.reqs[r]? = some q → q.pc.returned = true ∨ m.Outside q
  /-- Every request that has returned has its context completed. -/
  completed : ∀ (r : Nat) (q : Request), m.reqs[r]? = some q → q.pc.returned = true →
    (m.context q.cc).outcome.isSome

theorem Outside.not_spawn {q : Request} (h : m.Outside q) (j : Nat) : q.pc ≠ .spawn j := by
  obtain ⟨-, -, -, h | h | h⟩ := h <;> rw [h] <;> simp

/-- Once both counters are at zero in a closed service, nothing is left: no job runs, so none
is blocked in a request, and no request is admitted, so every request in flight is a top-level
one that the service has not admitted; no request is about to start a job, so every job was
started, and has ended. A request that has returned had its context completed by itself, or
by its job or its join, which have ended. -/
theorem Ledger.quiescent (hl : Ledger m) (hreg : Registry m) (hc : m.closed = true)
    (hr : m.requests = 0) (hg : m.group = 0) : Quiescent m := by
  have hbusy : m.busy = 0 := hl.group ▸ hg
  have hnorun : ∀ (j : Nat) (job : Job), m.jobs[j]? = some job → job.running = false := by
    intro j job hj
    have hz : m.jobs.countP Job.running = 0 := by unfold busy at hbusy; omega
    simpa using List.countP_eq_zero.1 hz job (List.mem_of_getElem? hj)
  have hnocount : ∀ (r : Nat) (q : Request), m.reqs[r]? = some q → q.counted = false := by
    intro r q hq
    have hz : m.admitted = 0 := hl.requests ▸ hr
    simpa using List.countP_eq_zero.1 hz q (List.mem_of_getElem? hq)
  have hnoissue : ∀ r, ¬ m.Issued r := by
    rintro r ⟨j, job, hj, hst, hpc⟩
    have := hnorun j job hj
    simp [Job.running, hst, hpc, JobPc.ended] at this
  have hreqs : ∀ (r : Nat) (q : Request), m.reqs[r]? = some q →
      q.pc.returned = true ∨ m.Outside q := by
    intro r q hq
    cases hret : q.pc.returned
    · rcases hl.inflight r q hq hret with hcnt | hiss | hout
      · rw [hnocount r q hq] at hcnt
        cases hcnt
      · exact absurd hiss (hnoissue r)
      · exact .inr hout
    · exact .inl rfl
  have hended : ∀ (j : Nat) (job : Job), m.jobs[j]? = some job → job.pc.ended = true := by
    intro j job hj
    cases hst : job.started
    · -- a job not started has a request about to start it, which is neither admitted nor
      -- issued, and a request outside the service starts no job
      obtain ⟨-, r, q, hq, hpc⟩ := hl.unstarted j job hj hst
      rcases hreqs r q hq with hret | hout
      · simp [hpc, ReqPc.returned] at hret
      · exact absurd hpc (hout.not_spawn j)
    · simpa [Job.running, hst] using hnorun j job hj
  have hjoined : ∀ (k : Nat) (w : Joiner), m.joiners[k]? = some w → w.running = false := by
    intro k w hk
    have hz : m.joiners.countP Joiner.running = 0 := by unfold busy at hbusy; omega
    simpa using List.countP_eq_zero.1 hz w (List.mem_of_getElem? hk)
  refine ⟨hc, hr, hg, ?_, hended, hjoined, hreqs, ?_⟩
  · cases hp : m.pending with
    | nil => rfl
    | cons p ps =>
      -- the first pending unit has a job not done, hence not ended
      obtain ⟨job, hj, -, hres⟩ := hreg.live_of_pending (n := p.1) (j := p.2)
        (by simp [hp, List.lookup])
      have := hended _ job hj
      cases hpc : job.pc <;> simp_all [JobPc.ended, Job.result]
  · intro r q hq hret
    have howed : q.pc.owed = true := by
      revert hret
      cases q.pc <;> simp [ReqPc.returned, ReqPc.owed]
    rcases hl.owed r q hq howed with h | ⟨j, job, hj, hcc⟩ | ⟨k, w, hk, hcc⟩
    · exact h
    · rw [← hcc]
      exact hl.retired j job hj (hended j job hj)
    · rw [← hcc]
      exact hl.joined k w hk (hjoined k w hk)

/-! ## Updates that keep the ledger -/

theorem getElem?_set_cases {α : Type} {l : List α} {i k : Nat} {b x : α}
    (h : (l.set i b)[k]? = some x) : (k = i ∧ x = b) ∨ (k ≠ i ∧ l[k]? = some x) := by
  by_cases hik : k = i
  · subst hik
    have hlt : k < l.length := by simpa using (List.getElem?_eq_some_iff.1 h).1
    rw [List.getElem?_set_self hlt] at h
    exact .inl ⟨rfl, (Option.some.inj h).symm⟩
  · exact .inr ⟨hik, by rwa [List.getElem?_set_ne (Ne.symm hik)] at h⟩

theorem Outside.of_chains {q : Request} (hch : SameChains m m') (h : m.Outside q) :
    m'.Outside q := by
  obtain ⟨hreq, hrest⟩ := h
  exact ⟨(hch.requester q.cc).trans hreq, hrest⟩

theorem Issued.of_jobs {r : Nat} (hjobs : m'.jobs = m.jobs) (h : m.Issued r) : m'.Issued r := by
  obtain ⟨j, job, hj, hst, hpc⟩ := h
  exact ⟨j, job, hjobs ▸ hj, hst, hpc⟩

/-- The contexts after a step that makes none: the same chains, and every context completed
before is still completed. -/
structure Settles (m m' : Machine) : Prop where
  chains : SameChains m m'
  outcome : ∀ c, (m.context c).outcome.isSome → (m'.context c).outcome.isSome

theorem Settles.of_contexts (h : m'.contexts = m.contexts) : Settles m m' :=
  ⟨.of_contexts h, fun c hc => by simpa only [Machine.context, h] using hc⟩

theorem Settles.of_completeCtx {c : Nat} {err : Option Failure}
    (h : m'.contexts = (m.completeCtx c err).contexts) : Settles m m' := by
  refine ⟨?_, fun c' hc => ?_⟩
  · unfold SameChains
    rw [h]
    exact sameChains_completeCtx c err
  · have hm : m'.context c' = (m.completeCtx c err).context c' := by
      simp only [Machine.context, h]
    rw [hm]
    rcases outcome_completeCtx c' c err with he | ⟨-, -, he⟩ <;> rw [he]
    · exact hc
    · rfl

/-- Completing a context that exists gives it an outcome. -/
theorem completeCtx_completes {c : Nat} (err : Option Failure) (h : c < m.contexts.length) :
    ((m.completeCtx c err).context c).outcome.isSome := by
  rw [context_completeCtx h]
  unfold Context.complete
  split <;> simp_all

theorem Grows.outcome (hg : Grows m m') (c : Nat) (h : (m.context c).outcome.isSome) :
    (m'.context c).outcome.isSome := by
  by_cases hc : c < m.contexts.length
  · rwa [hg.context c hc]
  · simp [Machine.context, List.getD_eq_getElem?_getD,
      List.getElem?_eq_none (Nat.le_of_not_lt hc)] at h

/-- What a step keeps of those who complete contexts: each job and each join stays in its
place, for the same context, and a completed context stays completed. -/
structure Keeps (m m' : Machine) : Prop where
  jobs : ∀ (j : Nat) (job : Job), m.jobs[j]? = some job →
    ∃ job' : Job, m'.jobs[j]? = some job' ∧ job'.cc = job.cc
  joiners : ∀ (k : Nat) (w : Joiner), m.joiners[k]? = some w →
    ∃ w' : Joiner, m'.joiners[k]? = some w' ∧ w'.cc = w.cc
  outcome : ∀ c, (m.context c).outcome.isSome → (m'.context c).outcome.isSome

theorem Answered.keep {c : Nat} (hk : Keeps m m') (h : m.Answered c) : m'.Answered c := by
  rcases h with h | ⟨j, job, hj, rfl⟩ | ⟨k, w, hw, rfl⟩
  · exact .inl (hk.outcome c h)
  · obtain ⟨job', hj', hcc⟩ := hk.jobs j job hj
    exact .inr (.inl ⟨j, job', hj', hcc⟩)
  · obtain ⟨w', hw', hcc⟩ := hk.joiners k w hw
    exact .inr (.inr ⟨k, w', hw', hcc⟩)

/-- Replacing one element by one that agrees under `f` keeps the image of every element. -/
theorem getElem?_set_keep {α β : Type} (f : α → β) {l : List α} {j : Nat} {a b : α}
    (hj : l[j]? = some a) (hf : f b = f a) {i : Nat} {x : α} (hx : l[i]? = some x) :
    ∃ y, (l.set j b)[i]? = some y ∧ f y = f x := by
  by_cases hij : i = j
  · subst hij
    rw [hj] at hx
    cases hx
    exact ⟨b, List.getElem?_set_self (List.getElem?_eq_some_iff.1 hj).1, hf⟩
  · exact ⟨x, by rw [List.getElem?_set_ne (Ne.symm hij), hx], rfl⟩

/-- The ledger survives a step that leaves every part of it alone. -/
theorem Ledger.frame (hl : Ledger m) (hgroup : m'.group = m.group)
    (hrequests : m'.requests = m.requests) (hreqs : m'.reqs = m.reqs) (hjobs : m'.jobs = m.jobs)
    (hjoin : m'.joiners = m.joiners) (hctx : m'.contexts = m.contexts) : Ledger m' := by
  have hch : Settles m m' := .of_contexts hctx
  have hkeep : Keeps m m' :=
    ⟨fun j job hj => ⟨job, hjobs ▸ hj, rfl⟩, fun k w hk => ⟨w, hjoin ▸ hk, rfl⟩,
      hch.outcome⟩
  refine ⟨?_, ?_, ?_, ?_, ?_, ?_, ?_, ?_, ?_, ?_, ?_, ?_⟩
  · rw [hgroup, hl.group, busy, busy, hjobs, hjoin]
  · rw [hrequests, hl.requests, admitted, admitted, hreqs]
  · intro r q hq
    rw [hctx]
    exact hl.req_cc r q (hreqs ▸ hq)
  · intro j job hj
    rw [hctx]
    exact hl.job_cc j job (hjobs ▸ hj)
  · intro k w hk
    rw [hctx]
    exact hl.joiner_cc k w (hjoin ▸ hk)
  · intro r q hq hpc
    exact (hl.entering r q (hreqs ▸ hq) hpc).of_chains hch.chains
  · intro r q hq hret
    rcases hl.inflight r q (hreqs ▸ hq) hret with h | h | h
    · exact .inl h
    · exact .inr (.inl (h.of_jobs hjobs))
    · exact .inr (.inr (h.of_chains hch.chains))
  · intro j job hj hst
    obtain ⟨hpc, r, q, hq, hsp⟩ := hl.unstarted j job (hjobs ▸ hj) hst
    exact ⟨hpc, r, q, hreqs ▸ hq, hsp⟩
  · intro r q j hq hsp
    obtain ⟨⟨job, hj, hst⟩, huniq⟩ := hl.spawner r q j (hreqs ▸ hq) hsp
    exact ⟨⟨job, hjobs ▸ hj, hst⟩, fun r' q' hq' hsp' => huniq r' q' (hreqs ▸ hq') hsp'⟩
  · exact fun j job hj he => hch.outcome _ (hl.retired j job (hjobs ▸ hj) he)
  · exact fun k w hk hw => hch.outcome _ (hl.joined k w (hjoin ▸ hk) hw)
  · exact fun r q hq ho => (hl.owed r q (hreqs ▸ hq) ho).keep hkeep

/-- The ledger survives a request's move that starts no job: the request keeps its context and
the job it is about to start if any, and stays accounted for; `requests` follows the count of
the request, and once the request no longer completes its context another does. -/
theorem Ledger.move (hl : Ledger m) {r : Nat} {q q' : Request} (hq : m.reqs[r]? = some q)
    (hreqs : m'.reqs = m.reqs.set r q') (hjobs : m'.jobs = m.jobs)
    (hjoin : m'.joiners = m.joiners) (hgroup : m'.group = m.group) (hch : Settles m m')
    (hcount : m'.requests + (if q.counted then 1 else 0) =
      m.requests + (if q'.counted then 1 else 0))
    (hcc : q'.cc = q.cc) (hsp : ∀ j, q'.pc = .spawn j ↔ q.pc = .spawn j)
    (hent : q'.pc = .enter → m.Outside q')
    (hfl : q'.pc.returned = false → q'.counted = true ∨ m.Issued r ∨ m.Outside q')
    (howed : q'.pc.owed = true → q.pc.owed = true ∨ m'.Answered q.cc) : Ledger m' := by
  have hlen : m'.contexts.length = m.contexts.length := hch.chains.length
  have hkeep : Keeps m m' :=
    ⟨fun j job hj => ⟨job, hjobs ▸ hj, rfl⟩, fun k w hk => ⟨w, hjoin ▸ hk, rfl⟩,
      hch.outcome⟩
  refine ⟨?_, ?_, ?_, ?_, ?_, ?_, ?_, ?_, ?_, ?_, ?_, ?_⟩
  · rw [hgroup, hl.group, busy, busy, hjobs, hjoin]
  · have h := countP_set_add Request.counted q' hq
    rw [admitted, hreqs]
    rw [hl.requests, admitted] at hcount
    omega
  · intro r' x hx
    rw [hreqs] at hx
    rw [hlen]
    rcases getElem?_set_cases hx with ⟨-, rfl⟩ | ⟨-, hx⟩
    · rw [hcc]
      exact hl.req_cc r q hq
    · exact hl.req_cc r' x hx
  · intro j job hj
    rw [hlen]
    exact hl.job_cc j job (hjobs ▸ hj)
  · intro k w hk
    rw [hlen]
    exact hl.joiner_cc k w (hjoin ▸ hk)
  · intro r' x hx hpc
    rw [hreqs] at hx
    rcases getElem?_set_cases hx with ⟨-, rfl⟩ | ⟨-, hx⟩
    · exact (hent hpc).of_chains hch.chains
    · exact (hl.entering r' x hx hpc).of_chains hch.chains
  · intro r' x hx hret
    rw [hreqs] at hx
    rcases getElem?_set_cases hx with ⟨hr, rfl⟩ | ⟨-, hx⟩
    · rw [hr]
      rcases hfl hret with h | h | h
      · exact .inl h
      · exact .inr (.inl (h.of_jobs hjobs))
      · exact .inr (.inr (h.of_chains hch.chains))
    · rcases hl.inflight r' x hx hret with h | h | h
      · exact .inl h
      · exact .inr (.inl (h.of_jobs hjobs))
      · exact .inr (.inr (h.of_chains hch.chains))
  · intro j job hj hst
    obtain ⟨hpc, r', x, hx, hxsp⟩ := hl.unstarted j job (hjobs ▸ hj) hst
    by_cases hr : r' = r
    · subst hr
      rw [hq] at hx
      cases hx
      exact ⟨hpc, r', q',
        by rw [hreqs, List.getElem?_set_self (List.getElem?_eq_some_iff.1 hq).1],
        (hsp j).2 hxsp⟩
    · exact ⟨hpc, r', x, by rw [hreqs, List.getElem?_set_ne (Ne.symm hr)]; exact hx, hxsp⟩
  · -- the request that moved is about to start the job it was about to start before
    have hold : ∀ (r' : Nat) (x : Request) (j : Nat), m'.reqs[r']? = some x →
        x.pc = .spawn j →
        ∃ y : Request, m.reqs[r']? = some y ∧ y.pc = .spawn j := by
      intro r' x j hx hxsp
      rw [hreqs] at hx
      rcases getElem?_set_cases hx with ⟨rfl, rfl⟩ | ⟨-, hx⟩
      · exact ⟨q, hq, (hsp j).1 hxsp⟩
      · exact ⟨x, hx, hxsp⟩
    intro r' x j hx hxsp
    obtain ⟨y, hy, hysp⟩ := hold r' x j hx hxsp
    obtain ⟨⟨job, hj, hst⟩, huniq⟩ := hl.spawner r' y j hy hysp
    refine ⟨⟨job, hjobs ▸ hj, hst⟩, fun r'' z hz hzsp => ?_⟩
    obtain ⟨z', hz', hzsp'⟩ := hold r'' z j hz hzsp
    exact huniq r'' z' hz' hzsp'
  · exact fun j job hj he => hch.outcome _ (hl.retired j job (hjobs ▸ hj) he)
  · exact fun k w hk hw => hch.outcome _ (hl.joined k w (hjoin ▸ hk) hw)
  · intro r' x hx ho
    rw [hreqs] at hx
    rcases getElem?_set_cases hx with ⟨-, rfl⟩ | ⟨-, hx⟩
    · rw [hcc]
      rcases howed ho with ho | ho
      · exact (hl.owed r q hq ho).keep hkeep
      · exact ho
    · exact (hl.owed r' x hx ho).keep hkeep

theorem modify_eq_set_of {α : Type} {l : List α} {i : Nat} {a : α} (f : α → α)
    (h : l[i]? = some a) : l.modify i f = l.set i (f a) := by
  apply List.ext_getElem?
  intro k
  rw [List.getElem?_modify, List.getElem?_set]
  by_cases hik : i = k
  · subst hik
    obtain ⟨hi, hget⟩ := List.getElem?_eq_some_iff.1 h
    simp [hi, hget]
  · simp [hik]

/-- The ledger survives a move of a started job that keeps its context; `group` follows whether
the job runs, a job blocked in a request moves only once the request has returned, and a job
that ends completes its context. -/
theorem Ledger.advance (hl : Ledger m) {j : Nat} {job job' : Job} (hj : m.jobs[j]? = some job)
    (hjobs : m'.jobs = m.jobs.set j job') (hreqs : m'.reqs = m.reqs)
    (hjoin : m'.joiners = m.joiners) (hch : Settles m m')
    (hgroup : m'.group = m.group + (if job'.running then 1 else 0) - (if job.running then 1 else 0))
    (hrequests : m'.requests = m.requests) (hst : job.started = true)
    (hst' : job'.started = true) (hcc : job'.cc = job.cc)
    (hnest : ∀ r, job.pc = .nested r → ∃ q, m.reqs[r]? = some q ∧ q.pc.returned = true)
    (hend : job'.pc.ended = true → job.pc.ended = true ∨ (m'.context job.cc).outcome.isSome) :
    Ledger m' := by
  have hlen : m'.contexts.length = m.contexts.length := hch.chains.length
  have hkeep : Keeps m m' :=
    ⟨fun i x hx => hjobs ▸ getElem?_set_keep Job.cc hj hcc hx,
      fun k w hk => ⟨w, hjoin ▸ hk, rfl⟩,
      hch.outcome⟩
  -- every job but the one that moved reads as before
  have hother : ∀ i x, m'.jobs[i]? = some x →
      (i = j ∧ x = job') ∨ (i ≠ j ∧ m.jobs[i]? = some x) :=
    fun i x hx => getElem?_set_cases (hjobs ▸ hx)
  have hissued : ∀ r q, m.reqs[r]? = some q → q.pc.returned = false → m.Issued r →
      m'.Issued r := by
    rintro r q hq hret ⟨i, x, hx, hxst, hxpc⟩
    by_cases hij : i = j
    · subst hij
      rw [hj] at hx
      cases hx
      obtain ⟨q', hq', hret'⟩ := hnest r hxpc
      rw [hq] at hq'
      cases hq'
      rw [hret] at hret'
      cases hret'
    · exact ⟨i, x, by rw [hjobs, List.getElem?_set_ne (Ne.symm hij)]; exact hx, hxst, hxpc⟩
  refine ⟨?_, ?_, ?_, ?_, ?_, ?_, ?_, ?_, ?_, ?_, ?_, ?_⟩
  · have h := countP_set_add Job.running job' hj
    rw [busy, hjobs, hjoin, hgroup, hl.group, busy]
    omega
  · rw [hrequests, hl.requests, admitted, admitted, hreqs]
  · intro r q hq
    rw [hlen]
    exact hl.req_cc r q (hreqs ▸ hq)
  · intro i x hx
    rw [hlen]
    rcases hother i x hx with ⟨-, rfl⟩ | ⟨-, hx⟩
    · rw [hcc]
      exact hl.job_cc j job hj
    · exact hl.job_cc i x hx
  · intro k w hk
    rw [hlen]
    exact hl.joiner_cc k w (hjoin ▸ hk)
  · intro r q hq hpc
    exact (hl.entering r q (hreqs ▸ hq) hpc).of_chains hch.chains
  · intro r q hq hret
    rw [hreqs] at hq
    rcases hl.inflight r q hq hret with h | h | h
    · exact .inl h
    · exact .inr (.inl (hissued r q hq hret h))
    · exact .inr (.inr (h.of_chains hch.chains))
  · intro i x hx hxst
    rcases hother i x hx with ⟨-, rfl⟩ | ⟨-, hx⟩
    · rw [hst'] at hxst
      cases hxst
    · obtain ⟨hpc, r, q, hq, hsp⟩ := hl.unstarted i x hx hxst
      exact ⟨hpc, r, q, hreqs ▸ hq, hsp⟩
  · intro r q i hq hsp
    obtain ⟨⟨x, hx, hxst⟩, huniq⟩ := hl.spawner r q i (hreqs ▸ hq) hsp
    -- the job about to be started is not the started one that moved
    have hne : i ≠ j := by
      rintro rfl
      rw [hj] at hx
      cases hx
      rw [hst] at hxst
      cases hxst
    exact ⟨⟨x, by rw [hjobs, List.getElem?_set_ne (Ne.symm hne)]; exact hx, hxst⟩,
      fun r' q' hq' hsp' => huniq r' q' (hreqs ▸ hq') hsp'⟩
  · intro i x hx he
    rcases hother i x hx with ⟨-, rfl⟩ | ⟨-, hx⟩
    · rw [hcc]
      rcases hend he with he | he
      · exact hch.outcome _ (hl.retired j job hj he)
      · exact he
    · exact hch.outcome _ (hl.retired i x hx he)
  · exact fun k w hk hw => hch.outcome _ (hl.joined k w (hjoin ▸ hk) hw)
  · exact fun r q hq ho => (hl.owed r q (hreqs ▸ hq) ho).keep hkeep

/-- The ledger survives a move of a running job that keeps it running. -/
theorem Ledger.advanceRunning (hl : Ledger m) {j : Nat} {job job' : Job}
    (hj : m.jobs[j]? = some job) (hjobs : m'.jobs = m.jobs.set j job') (hreqs : m'.reqs = m.reqs)
    (hjoin : m'.joiners = m.joiners) (hch : Settles m m') (hgroup : m'.group = m.group)
    (hrequests : m'.requests = m.requests) (hst : job.started = true)
    (hst' : job'.started = true) (hcc : job'.cc = job.cc)
    (hended : job'.pc.ended = job.pc.ended)
    (hnest : ∀ r, job.pc = .nested r → ∃ q, m.reqs[r]? = some q ∧ q.pc.returned = true) :
    Ledger m' :=
  hl.advance hj hjobs hreqs hjoin hch (by simp [Job.running, hst, hst', hended, hgroup]) hrequests
    hst hst' hcc hnest (fun he => .inl (hended ▸ he))

/-- The ledger survives a new asynchronous join. -/
theorem Ledger.addJoiner (hl : Ledger m) {w : Joiner} (hw : w.running = true)
    (hcc : w.cc < m.contexts.length) :
    Ledger { m with group := m.group + 1, joiners := m.joiners ++ [w] } := by
  have hkeep : Keeps m { m with group := m.group + 1, joiners := m.joiners ++ [w] } :=
    ⟨fun j job hj => ⟨job, hj, rfl⟩,
      fun k x hk => ⟨x, getElem?_append_of_getElem? hk, rfl⟩,
      fun _ h => h⟩
  refine ⟨?_, hl.requests, hl.req_cc, hl.job_cc, ?_, hl.entering, hl.inflight, hl.unstarted,
    hl.spawner, hl.retired, ?_, fun r q hq ho => (hl.owed r q hq ho).keep hkeep⟩
  · simp [busy, hl.group, hw, List.countP_append]
    omega
  · intro k x hk
    rcases getElem?_concat_cases hk with hk | ⟨-, rfl⟩
    · exact hl.joiner_cc k x hk
    · exact hcc
  · intro k x hk hx
    rcases getElem?_concat_cases hk with hk | ⟨-, rfl⟩
    · exact hl.joined k x hk hx
    · rw [hw] at hx
      cases hx

/-- The ledger survives the start of the job that a request registered. -/
theorem Ledger.spawn (hl : Ledger m) {r j : Nat} {q : Request} (hq : m.reqs[r]? = some q)
    (hpc : q.pc = .spawn j) :
    Ledger (({ m with
        group := m.group + 1,
        jobs := m.jobs.modify j fun job => { job with started := true } } : Machine).setReq r
          { q with pc := if q.parallel then .leave none else .wait j false }) := by
  obtain ⟨⟨job, hj, hst⟩, huniq⟩ := hl.spawner r q j hq hpc
  obtain ⟨hjpc, -⟩ := hl.unstarted j job hj hst
  set q' : Request := { q with pc := if q.parallel then .leave none else .wait j false }
  set job' : Job := { job with started := true }
  have hjobs : m.jobs.modify j (fun job => { job with started := true }) = m.jobs.set j job' :=
    modify_eq_set_of _ hj
  have hkeep : Keeps m (({ m with
      group := m.group + 1,
      jobs := m.jobs.modify j fun job => { job with started := true } } : Machine).setReq r q') :=
    ⟨fun i x hx => hjobs ▸ getElem?_set_keep Job.cc hj (rfl : job'.cc = job.cc) hx,
      fun k w hk => ⟨w, hk, rfl⟩, fun _ h => h⟩
  have hsp' : ∀ i, q'.pc ≠ .spawn i := by
    intro i
    simp only [q']
    split <;> simp
  -- a request in flight stays accounted for: starting a job ends no blockage
  have hissued : ∀ r', m.Issued r' → Issued ({ m with
      group := m.group + 1,
      jobs := m.jobs.modify j fun job => { job with started := true } } : Machine) r' := by
    rintro r' ⟨i, x, hx, hxst, hxpc⟩
    refine ⟨i, x, ?_, hxst, hxpc⟩
    by_cases hij : i = j
    · subst hij
      rw [hj] at hx
      cases hx
      rw [hxst] at hst
      cases hst
    · show (m.jobs.modify j _)[i]? = some x
      rw [List.getElem?_modify_ne _ _ (Ne.symm hij), hx]
  refine ⟨?_, ?_, ?_, ?_, ?_, ?_, ?_, ?_, ?_, ?_, ?_, ?_⟩
  · have h := countP_set_add Job.running job' hj
    have hr : job.running = false := by simp [Job.running, hst]
    have hr' : job'.running = true := by simp [Job.running, job', hjpc, JobPc.ended]
    simp only [hr, hr', Bool.false_eq_true, if_false, if_true] at h
    simp only [setReq_group, busy, setReq_jobs, setReq_joiners, hjobs]
    rw [hl.group, busy]
    omega
  · have h := countP_set_add Request.counted q' hq
    simp only [setReq_requests, admitted, setReq_reqs, q'] at h ⊢
    rw [hl.requests, admitted]
    omega
  · intro r' x hx
    simp only [setReq_reqs, setReq_contexts] at hx ⊢
    rcases getElem?_set_cases hx with ⟨-, rfl⟩ | ⟨-, hx⟩
    · exact hl.req_cc r q hq
    · exact hl.req_cc r' x hx
  · intro i x hx
    simp only [setReq_jobs, setReq_contexts, hjobs] at hx ⊢
    rcases getElem?_set_cases hx with ⟨-, rfl⟩ | ⟨-, hx⟩
    · exact hl.job_cc j job hj
    · exact hl.job_cc i x hx
  · intro k w hk
    exact hl.joiner_cc k w hk
  · intro r' x hx hxpc
    simp only [setReq_reqs] at hx
    rcases getElem?_set_cases hx with ⟨-, rfl⟩ | ⟨-, hx⟩
    · simp only [q'] at hxpc
      split at hxpc <;> cases hxpc
    · exact hl.entering r' x hx hxpc
  · intro r' x hx hret
    simp only [setReq_reqs] at hx
    rcases getElem?_set_cases hx with ⟨hr, rfl⟩ | ⟨-, hx⟩
    · rw [hr]
      rcases hl.inflight r q hq (by simp [hpc, ReqPc.returned]) with h | h | h
      · exact .inl h
      · exact .inr (.inl (hissued r h))
      · exact absurd hpc (h.not_spawn j)
    · rcases hl.inflight r' x hx hret with h | h | h
      · exact .inl h
      · exact .inr (.inl (hissued r' h))
      · exact .inr (.inr h)
  · intro i x hx hxst
    simp only [setReq_jobs, hjobs] at hx
    rcases getElem?_set_cases hx with ⟨-, rfl⟩ | ⟨hij, hx⟩
    · cases hxst
    · obtain ⟨hxpc, r', y, hy, hysp⟩ := hl.unstarted i x hx hxst
      -- the request about to start job `i` is not the one that started job `j`
      have hne : r' ≠ r := by
        rintro rfl
        rw [hq] at hy
        cases hy
        rw [hpc] at hysp
        cases hysp
        exact hij rfl
      exact ⟨hxpc, r', y, by simp [List.getElem?_set_ne (Ne.symm hne), hy], hysp⟩
  · intro r' x i hx hxsp
    simp only [setReq_reqs] at hx
    rcases getElem?_set_cases hx with ⟨-, rfl⟩ | ⟨hne, hx'⟩
    · exact absurd hxsp (hsp' i)
    · obtain ⟨⟨y, hy, hyst⟩, huniq'⟩ := hl.spawner r' x i hx' hxsp
      -- only one request was about to start job `j`
      have hij : i ≠ j := by
        rintro rfl
        exact hne (huniq r' x hx' hxsp)
      refine ⟨⟨y, by simp [hjobs, List.getElem?_set_ne (Ne.symm hij), hy], hyst⟩, ?_⟩
      intro r'' z hz hzsp
      simp only [setReq_reqs] at hz
      rcases getElem?_set_cases hz with ⟨-, rfl⟩ | ⟨-, hz⟩
      · exact absurd hzsp (hsp' i)
      · exact huniq' r'' z hz hzsp
  · intro i x hx he
    simp only [setReq_jobs, hjobs] at hx
    rcases getElem?_set_cases hx with ⟨-, rfl⟩ | ⟨-, hx⟩
    · simp [job', hjpc, JobPc.ended] at he
    · exact hl.retired i x hx he
  · exact hl.joined
  · intro r' x hx ho
    simp only [setReq_reqs] at hx
    rcases getElem?_set_cases hx with ⟨-, rfl⟩ | ⟨-, hx⟩
    · exact (hl.owed r q hq (by simp [hpc, ReqPc.owed])).keep hkeep
    · exact (hl.owed r' x hx ho).keep hkeep

theorem Issued.of_append {r : Nat} {l : List Job} (hjobs : m'.jobs = m.jobs ++ l)
    (h : m.Issued r) : m'.Issued r := by
  obtain ⟨j, job, hj, hst, hpc⟩ := h
  exact ⟨j, job, by rw [hjobs]; exact getElem?_append_of_getElem? hj, hst, hpc⟩

theorem Outside.of_grows {q : Request} (hg : Grows m m') (hcc : q.cc < m.contexts.length)
    (h : m.Outside q) : m'.Outside q := by
  obtain ⟨hreq, hrest⟩ := h
  exact ⟨by rw [hg.context _ hcc]; exact hreq, hrest⟩

/-- A handle names a context of the list it resolves to, which is the old list or one more. -/
theorem Handle.resolve_spec {h : Handle} {cs cs' : List Context} {cc : Nat}
    (hr : h.resolve cs = some (cc, cs')) :
    cc < cs'.length ∧ (cs' = cs ∨ ∃ x, cs' = cs ++ [x]) := by
  cases h with
  | fresh =>
    simp only [Handle.resolve, Option.some.injEq, Prod.mk.injEq] at hr
    obtain ⟨rfl, rfl⟩ := hr
    simp
  | given c =>
    simp only [Handle.resolve] at hr
    split at hr
    · cases hr
      exact ⟨‹_›, .inl rfl⟩
    · cases hr
  | derived c u =>
    obtain ⟨p, -, he⟩ := Option.map_eq_some_iff.1 hr
    cases he
    simp

/-- A top-level handle resolves to a context without a requesting unit. -/
theorem Handle.requester_resolve {h : Handle} {cs : List Context} {cc : Nat}
    (htop : h.topLevel m = true) (hr : h.resolve m.contexts = some (cc, cs)) :
    (cs.getD cc default).requester = "" := by
  cases h with
  | fresh =>
    simp only [Handle.resolve, Option.some.injEq, Prod.mk.injEq] at hr
    obtain ⟨rfl, rfl⟩ := hr
    simp [Context.requester]
  | given c =>
    simp only [Handle.resolve] at hr
    split at hr
    · cases hr
      simpa [Handle.topLevel, Machine.context] using htop
    · cases hr
  | derived c u => simp [Handle.topLevel] at htop

theorem Grows.of_resolve {h : Handle} {cc : Nat}
    (hr : h.resolve m.contexts = some (cc, m'.contexts)) :
    Grows m m' := by
  rcases (Handle.resolve_spec hr).2 with hctx | ⟨x, hctx⟩
  · exact ⟨by rw [hctx], fun c _ => by simp only [Machine.context, hctx]⟩
  · exact .append hctx

/-- The ledger survives a new request, not admitted, about to start no job, still to complete
its own context, and accounted for by the job that made it or as a top-level request outside;
new contexts may come with it. -/
theorem Ledger.addRequest (hl : Ledger m) {q : Request} (hreqs : m'.reqs = m.reqs ++ [q])
    (hjobs : m'.jobs = m.jobs) (hjoin : m'.joiners = m.joiners) (hgroup : m'.group = m.group)
    (hrequests : m'.requests = m.requests) (hg : Grows m m') (hcc : q.cc < m'.contexts.length)
    (hcount : q.counted = false) (hsp : ∀ j, q.pc ≠ .spawn j) (howed : q.pc.owed = false)
    (hent : q.pc = .enter → m'.Outside q)
    (hfl : q.pc.returned = false → m'.Issued m.reqs.length ∨ m'.Outside q) : Ledger m' := by
  have hkeep : Keeps m m' :=
    ⟨fun j job hj => ⟨job, hjobs ▸ hj, rfl⟩, fun k w hk => ⟨w, hjoin ▸ hk, rfl⟩,
      hg.outcome⟩
  refine ⟨?_, ?_, ?_, ?_, ?_, ?_, ?_, ?_, ?_, ?_, ?_, ?_⟩
  · rw [hgroup, hl.group, busy, busy, hjobs, hjoin]
  · simp [hrequests, hl.requests, admitted, hreqs, List.countP_append, hcount]
  · intro r x hx
    rw [hreqs] at hx
    rcases getElem?_concat_cases hx with hx | ⟨-, rfl⟩
    · exact Nat.lt_of_lt_of_le (hl.req_cc r x hx) hg.length
    · exact hcc
  · intro j job hj
    exact Nat.lt_of_lt_of_le (hl.job_cc j job (hjobs ▸ hj)) hg.length
  · intro k w hk
    exact Nat.lt_of_lt_of_le (hl.joiner_cc k w (hjoin ▸ hk)) hg.length
  · intro r x hx hpc
    rw [hreqs] at hx
    rcases getElem?_concat_cases hx with hx | ⟨-, rfl⟩
    · exact (hl.entering r x hx hpc).of_grows hg (hl.req_cc r x hx)
    · exact hent hpc
  · intro r x hx hret
    rw [hreqs] at hx
    rcases getElem?_concat_cases hx with hx | ⟨rfl, rfl⟩
    · rcases hl.inflight r x hx hret with h | h | h
      · exact .inl h
      · exact .inr (.inl (h.of_jobs hjobs))
      · exact .inr (.inr (h.of_grows hg (hl.req_cc r x hx)))
    · exact .inr (hfl hret)
  · intro j job hj hst
    obtain ⟨hpc, r, x, hx, hxsp⟩ := hl.unstarted j job (hjobs ▸ hj) hst
    exact ⟨hpc, r, x, by rw [hreqs]; exact getElem?_append_of_getElem? hx, hxsp⟩
  · intro r x j hx hxsp
    rw [hreqs] at hx
    rcases getElem?_concat_cases hx with hx | ⟨-, rfl⟩
    · obtain ⟨⟨job, hj, hst⟩, huniq⟩ := hl.spawner r x j hx hxsp
      refine ⟨⟨job, hjobs ▸ hj, hst⟩, fun r' y hy hysp => ?_⟩
      rw [hreqs] at hy
      rcases getElem?_concat_cases hy with hy | ⟨-, rfl⟩
      · exact huniq r' y hy hysp
      · exact absurd hysp (hsp j)
    · exact absurd hxsp (hsp j)
  · exact fun j job hj he => hg.outcome _ (hl.retired j job (hjobs ▸ hj) he)
  · exact fun k w hk hw => hg.outcome _ (hl.joined k w (hjoin ▸ hk) hw)
  · intro r x hx ho
    rw [hreqs] at hx
    rcases getElem?_concat_cases hx with hx | ⟨-, rfl⟩
    · exact (hl.owed r x hx ho).keep hkeep
    · rw [howed] at ho
      cases ho

/-- The pc of a new request: it starts by registering when it is top-level. -/
theorem outside_of_new {q : Request}
    (hpc : q.pc = if (m.context q.cc).requester == "" then .enter else .lock)
    (hcount : q.counted = false) (hw : q.waiting = false) (he : q.pc = .enter) : m.Outside q := by
  refine ⟨?_, hcount, hw, .inl he⟩
  rw [hpc] at he
  split at he
  · rename_i htop
    simpa using htop
  · cases he

/-- The ledger survives a new top-level request. -/
theorem Ledger.ask (hl : Ledger m) {a : Ask} {p : Bool} {h : Handle} {d : Deadline}
    (htop : h.topLevel m = true) (hs : m.ask a p h d = some m') : Ledger m' := by
  obtain ⟨cc, cs, hr, rfl⟩ := ask_eq hs
  have hreq := Handle.requester_resolve htop hr
  have hout := outside_of_new (m := { m with counter := (a.unit m.counter).2.2, contexts := cs })
    (q := { name := (a.unit m.counter).1, origin := (a.unit m.counter).2.1, parallel := p, cc,
            deadline := d, pc := if (cs.getD cc default).requester == "" then .enter else .lock })
    rfl rfl rfl (by rw [hreq]; simp)
  exact hl.addRequest rfl rfl rfl rfl rfl (.of_resolve hr) (Handle.resolve_spec hr).1 rfl
    (fun j => by rw [hreq]; simp) (by rw [hreq]; simp [ReqPc.owed]) (fun _ => hout)
    (fun _ => .inr hout)

/-- The ledger survives compile-time execution making a request, in which its job is then
blocked: the job accounts for the request. -/
theorem Ledger.nest (hl : Ledger m) {j : Nat} {job : Job} {a : Ask} {p : Bool} {h : Handle}
    {d : Deadline} (hj : m.jobs[j]? = some job) (hst : job.started = true)
    (hs : m.nest j job a p h d = some m') : Ledger m' := by
  obtain ⟨hpc, m₁, h₁, rfl⟩ := nest_eq hs
  obtain ⟨cc, cs, hr, rfl⟩ := ask_eq h₁
  have hlt : j < m.jobs.length := (List.getElem?_eq_some_iff.1 hj).1
  -- first the job blocks in the request it is about to make, then the request is made
  have h₀ : Ledger (m.setJob j { job with pc := .nested m.reqs.length }) :=
    hl.advanceRunning hj rfl rfl rfl (.of_contexts rfl) rfl rfl hst hst rfl
      (by simp [hpc, JobPc.ended]) (by simp [hpc])
  refine h₀.addRequest rfl rfl rfl rfl rfl (.of_resolve hr) (Handle.resolve_spec hr).1 rfl ?_ ?_
    (outside_of_new rfl rfl rfl)
    (fun _ => .inl ⟨j, { job with pc := .nested m.reqs.length }, ?_, hst, rfl⟩)
  · intro i
    split <;> simp
  · split <;> rfl
  · simp [List.getElem?_set_self hlt]

/-- The ledger survives the registration of a new job for a request under the unit's named
lock, which is then about to start it. -/
theorem Ledger.register (hl : Ledger m) {r : Nat} {q q' : Request} (hq : m.reqs[r]? = some q)
    (hpc : q.pc = .lock) (hreqs : m'.reqs = m.reqs.set r q')
    (hjobs : m'.jobs = m.jobs ++ [{ name := q.name, origin := q.origin, cc := q.cc }])
    (hjoin : m'.joiners = m.joiners) (hgroup : m'.group = m.group)
    (hrequests : m'.requests = m.requests) (hctx : m'.contexts = m.contexts)
    (hcount : q'.counted = q.counted) (hcc : q'.cc = q.cc)
    (hpc' : q'.pc = .spawn m.jobs.length) : Ledger m' := by
  have hch : SameChains m m' := .of_contexts hctx
  have hctx' : ∀ c, m'.context c = m.context c := fun c => by simp only [Machine.context, hctx]
  have hkeep : Keeps m m' :=
    ⟨fun j job hj => ⟨job, by rw [hjobs]; exact getElem?_append_of_getElem? hj, rfl⟩,
      fun k w hk => ⟨w, hjoin ▸ hk, rfl⟩, fun c h => (hctx' c) ▸ h⟩
  have hlt : r < m.reqs.length := (List.getElem?_eq_some_iff.1 hq).1
  -- a request about to start a job names a job that exists
  have hbound : ∀ (r' : Nat) (x : Request) (i : Nat), m.reqs[r']? = some x → x.pc = .spawn i →
      i < m.jobs.length := by
    intro r' x i hx hxsp
    obtain ⟨⟨y, hy, -⟩, -⟩ := hl.spawner r' x i hx hxsp
    exact (List.getElem?_eq_some_iff.1 hy).1
  refine ⟨?_, ?_, ?_, ?_, ?_, ?_, ?_, ?_, ?_, ?_, ?_, ?_⟩
  · simp [hgroup, hl.group, busy, hjobs, hjoin, List.countP_append, Job.running]
  · have h := countP_set_add Request.counted q' hq
    rw [hcount] at h
    rw [hrequests, hl.requests, admitted, admitted, hreqs]
    omega
  · intro r' x hx
    rw [hreqs] at hx
    rw [hctx]
    rcases getElem?_set_cases hx with ⟨-, rfl⟩ | ⟨-, hx⟩
    · rw [hcc]
      exact hl.req_cc r q hq
    · exact hl.req_cc r' x hx
  · intro i x hx
    rw [hjobs] at hx
    rw [hctx]
    rcases getElem?_concat_cases hx with hx | ⟨-, rfl⟩
    · exact hl.job_cc i x hx
    · exact hl.req_cc r q hq
  · intro k w hk
    rw [hctx]
    exact hl.joiner_cc k w (hjoin ▸ hk)
  · intro r' x hx hxpc
    rw [hreqs] at hx
    rcases getElem?_set_cases hx with ⟨-, rfl⟩ | ⟨-, hx⟩
    · rw [hpc'] at hxpc
      cases hxpc
    · exact (hl.entering r' x hx hxpc).of_chains hch
  · intro r' x hx hret
    rw [hreqs] at hx
    rcases getElem?_set_cases hx with ⟨hr, rfl⟩ | ⟨-, hx⟩
    · rw [hr]
      rcases hl.inflight r q hq (by simp [hpc, ReqPc.returned]) with h | h | h
      · exact .inl (hcount ▸ h)
      · exact .inr (.inl (h.of_append hjobs))
      · obtain ⟨-, -, -, h | h | h⟩ := h <;> rw [hpc] at h <;> cases h
    · rcases hl.inflight r' x hx hret with h | h | h
      · exact .inl h
      · exact .inr (.inl (h.of_append hjobs))
      · exact .inr (.inr (h.of_chains hch))
  · intro i x hx hxst
    rw [hjobs] at hx
    rcases getElem?_concat_cases hx with hx | ⟨rfl, rfl⟩
    · obtain ⟨hxpc, r', y, hy, hysp⟩ := hl.unstarted i x hx hxst
      have hne : r' ≠ r := by
        rintro rfl
        rw [hq] at hy
        cases hy
        rw [hpc] at hysp
        cases hysp
      exact ⟨hxpc, r', y, by rw [hreqs, List.getElem?_set_ne (Ne.symm hne)]; exact hy, hysp⟩
    · exact ⟨rfl, r, q', by rw [hreqs, List.getElem?_set_self hlt], hpc'⟩
  · intro r' x i hx hxsp
    rw [hreqs] at hx
    rcases getElem?_set_cases hx with ⟨hr, rfl⟩ | ⟨hne, hx⟩
    · rw [hpc'] at hxsp
      cases hxsp
      refine ⟨⟨_, by rw [hjobs, List.getElem?_concat_length], rfl⟩, ?_⟩
      intro r'' y hy hysp
      rw [hreqs] at hy
      rcases getElem?_set_cases hy with ⟨hr', -⟩ | ⟨-, hy⟩
      · rw [hr, hr']
      · exact absurd (hbound r'' y _ hy hysp) (Nat.lt_irrefl _)
    · have hi := hbound r' x i hx hxsp
      obtain ⟨⟨y, hy, hyst⟩, huniq⟩ := hl.spawner r' x i hx hxsp
      refine ⟨⟨y, by rw [hjobs]; exact getElem?_append_of_getElem? hy, hyst⟩, ?_⟩
      intro r'' z hz hzsp
      rw [hreqs] at hz
      rcases getElem?_set_cases hz with ⟨-, rfl⟩ | ⟨-, hz⟩
      · rw [hpc'] at hzsp
        cases hzsp
        exact absurd hi (Nat.lt_irrefl _)
      · exact huniq r'' z hz hzsp
  · intro i x hx he
    rw [hjobs] at hx
    rw [hctx']
    rcases getElem?_concat_cases hx with hx | ⟨-, rfl⟩
    · exact hl.retired i x hx he
    · simp [JobPc.ended] at he
  · intro k w hk hw
    rw [hctx']
    exact hl.joined k w (hjoin ▸ hk) hw
  · intro r' x hx ho
    rw [hreqs] at hx
    rcases getElem?_set_cases hx with ⟨-, rfl⟩ | ⟨-, hx⟩
    · -- the new job completes the context of the request that registered it
      exact .inr (.inl ⟨m.jobs.length, _, by rw [hjobs, List.getElem?_concat_length], hcc.symm⟩)
    · exact (hl.owed r' x hx ho).keep hkeep

/-- The ledger survives the end of an asynchronous join, which completes its context. -/
theorem Ledger.join (hl : Ledger m) {k : Nat} {w : Joiner} (hk : m.joiners[k]? = some w)
    (hw : w.running = true) (err : Option Failure) :
    Ledger { m.completeCtx w.cc err with
      group := m.group - 1, joiners := m.joiners.set k { w with running := false } } := by
  have hch : Settles m (m.completeCtx w.cc err) := .of_completeCtx rfl
  have hkeep : Keeps m { m.completeCtx w.cc err with
      group := m.group - 1, joiners := m.joiners.set k { w with running := false } } :=
    ⟨fun j job hj => ⟨job, hj, rfl⟩,
      fun i x hx =>
        getElem?_set_keep Joiner.cc hk (rfl : ({ w with running := false } : Joiner).cc = w.cc) hx,
      hch.outcome⟩
  have h := countP_set_add Joiner.running { w with running := false } hk
  simp only [hw, if_true, Bool.false_eq_true, if_false] at h
  refine ⟨?_, hl.requests, fun r q hq => hch.chains.length ▸ hl.req_cc r q hq,
    fun j job hj => hch.chains.length ▸ hl.job_cc j job hj, ?_,
    fun r q hq hpc => (hl.entering r q hq hpc).of_chains hch.chains, ?_, hl.unstarted, hl.spawner,
    fun j job hj he => hch.outcome _ (hl.retired j job hj he), ?_,
    fun r q hq ho => (hl.owed r q hq ho).keep hkeep⟩
  · simp only [busy, completeCtx_jobs]
    rw [hl.group, busy]
    omega
  · intro i x hx
    rw [hch.chains.length]
    rcases getElem?_set_cases hx with ⟨-, rfl⟩ | ⟨-, hx⟩
    · exact hl.joiner_cc k w hk
    · exact hl.joiner_cc i x hx
  · intro r q hq hret
    rcases hl.inflight r q hq hret with h | h | h
    · exact .inl h
    · exact .inr (.inl h)
    · exact .inr (.inr (h.of_chains hch.chains))
  · intro i x hx hx'
    rcases getElem?_set_cases hx with ⟨-, rfl⟩ | ⟨-, hx⟩
    · -- the join completes its context as it ends
      exact completeCtx_completes err (hl.joiner_cc k w hk)
    · exact hch.outcome _ (hl.joined i x hx hx')

/-- Whether a request is past `enterRequest` and before its answer: then it was admitted, or
compile-time execution made it. -/
def ReqPc.inside : ReqPc → Bool
  | .lock | .spawn _ | .fork _ | .wait _ _ => true
  | _ => false

theorem Outside.not_inside {q : Request} (h : m.Outside q) : q.pc.inside = false := by
  obtain ⟨-, -, -, h | h | h⟩ := h <;> rw [h] <;> rfl

theorem Ledger.inside (hl : Ledger m) {r : Nat} {q : Request} (hq : m.reqs[r]? = some q)
    (hin : q.pc.inside = true) : q.counted = true ∨ m.Issued r := by
  have hret : q.pc.returned = false := by
    revert hin
    cases q.pc <;> simp [ReqPc.inside, ReqPc.returned]
  rcases hl.inflight r q hq hret with h | h | h
  · exact .inl h
  · exact .inr h
  · rw [h.not_inside] at hin
    cases hin

/-- A request refused by the closed service stays outside as it returns. -/
theorem Outside.leave {q : Request} {err : Option Failure} (h : m.Outside q)
    (hpc : q.pc = .complete err) : m.Outside { q with pc := .leave err } := by
  obtain ⟨hreq, hc, hw, hpc' | hpc' | hpc'⟩ := h <;> rw [hpc] at hpc' <;> cases hpc'
  exact ⟨hreq, hc, hw, .inr (.inr rfl)⟩

theorem Ledger.one_le_requests (hl : Ledger m) {r : Nat} {q : Request} (hq : m.reqs[r]? = some q)
    (hc : q.counted = true) : 1 ≤ m.requests := by
  rw [hl.requests, admitted]
  exact List.countP_pos_iff.2 ⟨q, List.mem_of_getElem? hq, hc⟩

/-- The section under a unit's named lock moves its request and keeps the counters; it adds a
job only when it registers one, which the request is then about to start. -/
theorem lock_cases {r : Nat} {q : Request} (hs : m.lock r q = some m') :
    q.pc = .lock ∧ m'.group = m.group ∧ m'.requests = m.requests ∧ m'.joiners = m.joiners ∧
      m'.contexts = m.contexts ∧ ∃ q' : Request, m'.reqs = m.reqs.set r q' ∧
        q'.counted = q.counted ∧ q'.cc = q.cc ∧
        ((m'.jobs = m.jobs ∧ q'.pc ≠ .enter ∧ (∀ j, q'.pc ≠ .spawn j) ∧
            q'.pc.owed = false) ∨
          (m'.jobs = m.jobs ++ [{ name := q.name, origin := q.origin, cc := q.cc }] ∧
            q'.pc = .spawn m.jobs.length)) := by
  unfold lock at hs
  dsimp only at hs
  split at hs
  · rename_i hpc
    refine ⟨hpc, ?_⟩
    split at hs
    · cases hs
      exact ⟨rfl, rfl, rfl, rfl, _, rfl, rfl, rfl, .inl ⟨rfl, by simp, by simp, rfl⟩⟩
    · split at hs
      · cases hs
        exact ⟨rfl, rfl, rfl, rfl, _, rfl, rfl, rfl, .inl ⟨rfl, by simp, by simp, rfl⟩⟩
      · split at hs <;> cases hs
        all_goals
          exact ⟨rfl, rfl, rfl, rfl, _, rfl, rfl, rfl, .inl ⟨rfl, by simp, by simp, rfl⟩⟩
    · split at hs <;> cases hs
      all_goals exact ⟨rfl, rfl, rfl, rfl, _, rfl, rfl, rfl, .inr ⟨rfl, rfl⟩⟩
  · cases hs

theorem finish_counters {j : Nat} {job : Job} (hs : m.finish j job = some m') :
    m'.group = m.group ∧ m'.requests = m.requests ∧ m'.joiners = m.joiners := by
  unfold finish at hs
  split at hs
  · dsimp only at hs
    split at hs <;> cases hs <;> exact ⟨rfl, rfl, rfl⟩
  · cases hs

theorem after_ended (m : Machine) (p : Phase) : (m.after p).ended = false := by
  unfold after
  split <;> rfl

/-- One step of a run whose callers make top-level requests keeps the ledger: one case for
each kind of step, each an instance of the update lemmas above. -/
theorem Ledger.step (hl : Ledger m) {a : Action} (ha : m.callerTopLevel a = true)
    (hs : m.step a = some m') : Ledger m' := by
  cases a with
  | ask a p h d => exact hl.ask ha hs
  | cancel =>
    cases hs
    exact hl.frame rfl rfl rfl rfl rfl rfl
  | drain =>
    cases hs
    exact hl.frame rfl rfl rfl rfl rfl rfl
  | abandon r e =>
    obtain ⟨q, hq, hs⟩ := Option.bind_eq_some_iff.1 hs
    obtain ⟨-, rfl⟩ := abandon_eq hs
    exact hl.move hq rfl rfl rfl rfl (.of_contexts rfl) rfl rfl (fun _ => Iff.rfl)
      (hl.entering r q hq) (hl.inflight r q hq) .inl
  | enter r =>
    obtain ⟨q, hq, hs⟩ := Option.bind_eq_some_iff.1 hs
    obtain ⟨hpc, ⟨-, rfl⟩ | ⟨-, rfl⟩⟩ := enter_eq hs
    · -- refused by the closed service: the request stays outside
      obtain ⟨hreq, hc, hw, -⟩ := hl.entering r q hq hpc
      exact hl.move hq rfl rfl rfl rfl (.of_contexts rfl) rfl rfl (fun _ => by simp [hpc])
        (fun he => by simp at he) (fun _ => .inr (.inr ⟨hreq, hc, hw, .inr (.inl rfl)⟩))
        (fun ho => by simp [ReqPc.owed] at ho)
    · -- admitted: counted from now on
      obtain ⟨-, hc, -, -⟩ := hl.entering r q hq hpc
      exact hl.move hq rfl rfl rfl rfl (.of_contexts rfl) (by simp [hc]) rfl
        (fun _ => by simp [hpc]) (fun he => by simp at he) (fun _ => .inl rfl)
        (fun ho => by simp [ReqPc.owed] at ho)
  | lock r =>
    obtain ⟨q, hq, hs⟩ := Option.bind_eq_some_iff.1 hs
    obtain ⟨hpc, hg, hrq, hjn, hctx, q', hreqs, hcount, hcc,
      ⟨hjobs, hent, hsp, hown⟩ | ⟨hjobs, hpc'⟩⟩ := lock_cases hs
    · have hin := hl.inside hq (by simp [hpc, ReqPc.inside])
      exact hl.move hq hreqs hjobs hjn hg (.of_contexts hctx) (by rw [hrq, hcount]) hcc
        (fun j => iff_of_false (hsp j) (by simp [hpc])) (fun he => absurd he hent)
        (fun _ => hcount ▸ hin.imp_right .inl) (fun ho => by rw [hown] at ho; cases ho)
    · exact hl.register hq hpc hreqs hjobs hjn hg hrq hctx hcount hcc hpc'
  | spawn r =>
    obtain ⟨q, hq, hs⟩ := Option.bind_eq_some_iff.1 hs
    obtain ⟨j, hpc, rfl⟩ := spawn_eq hs
    exact hl.spawn hq hpc
  | fork r =>
    obtain ⟨q, hq, hs⟩ := Option.bind_eq_some_iff.1 hs
    obtain ⟨j, hpc, rfl⟩ := fork_eq hs
    have hin := hl.inside hq (by simp [hpc, ReqPc.inside])
    -- the join starts first; the request then returns, and the join completes its context
    have h₁ := hl.addJoiner (w := { job := j, cc := q.cc }) rfl (hl.req_cc r q hq)
    exact h₁.move hq rfl rfl rfl rfl (.of_contexts rfl) rfl rfl (fun _ => by simp [hpc])
      (fun he => by simp at he) (fun _ => hin.imp_right .inl)
      (fun _ => .inr (.inr (.inr ⟨m.joiners.length, _, List.getElem?_concat_length, rfl⟩)))
  | wake r b =>
    obtain ⟨q, hq, hs⟩ := Option.bind_eq_some_iff.1 hs
    obtain ⟨j, joined, err, hpc, -, rfl⟩ := wake_eq hs
    have hin := hl.inside hq (by simp [hpc, ReqPc.inside])
    exact hl.move hq rfl rfl rfl rfl (.of_contexts rfl) rfl rfl
      (fun _ => by cases joined <;> simp [hpc]) (fun he => by cases joined <;> simp at he)
      (fun _ => hin.imp_right .inl) (fun ho => .inl (by cases joined <;> simp_all [ReqPc.owed]))
  | complete r =>
    obtain ⟨q, hq, hs⟩ := Option.bind_eq_some_iff.1 hs
    obtain ⟨err, hpc, rfl⟩ := complete_eq hs
    refine hl.move hq rfl rfl rfl rfl (.of_completeCtx rfl) rfl rfl (fun _ => by simp [hpc])
      (fun he => by simp at he) (fun _ => ?_)
      (fun _ => .inr (.inl (completeCtx_completes err (hl.req_cc r q hq))))
    rcases hl.inflight r q hq (by simp [hpc, ReqPc.returned]) with h | h | h
    · exact .inl h
    · exact .inr (.inl h)
    · exact .inr (.inr (h.leave hpc))
  | leave r =>
    obtain ⟨q, hq, hs⟩ := Option.bind_eq_some_iff.1 hs
    obtain ⟨err, hpc, rfl⟩ := leave_eq hs
    -- a counted request returning takes its count with it
    have hcount : (if q.counted then m.requests - 1 else m.requests) +
        (if q.counted then 1 else 0) = m.requests := by
      cases hc : q.counted
      · simp
      · have := hl.one_le_requests hq hc
        simp only [if_true]
        omega
    exact hl.move hq rfl rfl rfl rfl (.of_contexts rfl) (by simpa using hcount) rfl
      (fun _ => by simp [hpc]) (fun he => by simp at he)
      (fun hret => by simp [ReqPc.returned] at hret) (fun _ => .inl (by simp [hpc, ReqPc.owed]))
  | check j =>
    obtain ⟨job, h₀, hs⟩ := Option.bind_eq_some_iff.1 hs
    obtain ⟨hj, hst⟩ := job?_eq_some h₀
    obtain ⟨p, hpc, rfl⟩ := check_eq hs
    refine hl.advanceRunning hj rfl rfl rfl (.of_contexts rfl) rfl rfl hst hst rfl ?_
      (fun r h => by simp [hpc] at h)
    by_cases hc : m.cancelled <;> simp [hc, hpc, JobPc.ended]
  | parse j out =>
    obtain ⟨job, h₀, hs⟩ := Option.bind_eq_some_iff.1 hs
    obtain ⟨hj, hst⟩ := job?_eq_some h₀
    obtain ⟨hpc, ⟨e, -, rfl⟩ | ⟨f, -, rfl⟩⟩ := parse_eq hs
    · exact hl.advanceRunning hj rfl rfl rfl (.of_contexts rfl) rfl rfl hst hst rfl
        (by simp [hpc, JobPc.ended]) (fun r h => by simp [hpc] at h)
    · exact hl.advanceRunning hj rfl rfl rfl (.of_contexts rfl) rfl rfl hst hst rfl
        (by simp only [after_ended, hpc]; rfl) (fun r h => by simp [hpc] at h)
  | gather j err =>
    obtain ⟨job, h₀, hs⟩ := Option.bind_eq_some_iff.1 hs
    obtain ⟨hj, hst⟩ := job?_eq_some h₀
    obtain ⟨hpc, ⟨e, -, rfl⟩ | ⟨-, rfl⟩⟩ := endPhase_eq hs
    · exact hl.advanceRunning hj rfl rfl rfl (.of_contexts rfl) rfl rfl hst hst rfl
        (by simp [hpc, JobPc.ended]) (fun r h => by simp [hpc] at h)
    · exact hl.advanceRunning hj rfl rfl rfl (.of_contexts rfl) rfl rfl hst hst rfl
        (by simp only [after_ended, hpc]; rfl) (fun r h => by simp [hpc] at h)
  | execute j err =>
    obtain ⟨job, h₀, hs⟩ := Option.bind_eq_some_iff.1 hs
    obtain ⟨hj, hst⟩ := job?_eq_some h₀
    obtain ⟨hpc, ⟨e, -, rfl⟩ | ⟨-, rfl⟩⟩ := endPhase_eq hs
    · exact hl.advanceRunning hj rfl rfl rfl (.of_contexts rfl) rfl rfl hst hst rfl
        (by simp [hpc, JobPc.ended]) (fun r h => by simp [hpc] at h)
    · exact hl.advanceRunning hj rfl rfl rfl (.of_contexts rfl) rfl rfl hst hst rfl
        (by simp only [after_ended, hpc]; rfl) (fun r h => by simp [hpc] at h)
  | nest j a p h d =>
    obtain ⟨job, h₀, hs⟩ := Option.bind_eq_some_iff.1 hs
    obtain ⟨hj, hst⟩ := job?_eq_some h₀
    exact hl.nest hj hst hs
  | resume j =>
    obtain ⟨job, h₀, hs⟩ := Option.bind_eq_some_iff.1 hs
    obtain ⟨hj, hst⟩ := job?_eq_some h₀
    obtain ⟨r, q, err, hpc, hq, hqpc, rfl⟩ := resume_eq hs
    -- the job resumes once the request it was blocked in has returned
    refine hl.advanceRunning hj rfl rfl rfl (.of_contexts rfl) rfl rfl hst hst rfl
      (by simp [hpc, JobPc.ended]) ?_
    intro r' h
    rw [hpc] at h
    cases h
    exact ⟨q, hq, by simp [hqpc, ReqPc.returned]⟩
  | finish j =>
    obtain ⟨job, h₀, hs⟩ := Option.bind_eq_some_iff.1 hs
    obtain ⟨hj, hst⟩ := job?_eq_some h₀
    obtain ⟨err, out, hpc, hreqs, -, hctx, -, hjobs, -⟩ := finish_eq hs
    obtain ⟨hg, hrq, hjn⟩ := finish_counters hs
    exact hl.advanceRunning hj hjobs hreqs hjn (.of_contexts hctx) hg hrq hst hst rfl
      (by simp [hpc, JobPc.ended]) (fun r h => by simp [hpc] at h)
  | retire j =>
    obtain ⟨job, h₀, hs⟩ := Option.bind_eq_some_iff.1 hs
    obtain ⟨hj, hst⟩ := job?_eq_some h₀
    obtain ⟨err, hpc, rfl⟩ := retire_eq hs
    -- the job ends, completing its context
    exact hl.advance hj rfl rfl rfl (.of_completeCtx rfl)
      (by simp [Job.running, hst, hpc, JobPc.ended]) rfl hst hst rfl
      (fun r h => by simp [hpc] at h)
      (fun _ => .inr (completeCtx_completes err (hl.job_cc j job hj)))
  | join k =>
    obtain ⟨w, hk, hs⟩ := Option.bind_eq_some_iff.1 hs
    obtain ⟨err, hw, -, rfl⟩ := join_eq hs
    exact hl.join hk hw err
  | drainStep d =>
    obtain ⟨pc, -, hs⟩ := Option.bind_eq_some_iff.1 hs
    obtain ⟨pc', rfl⟩ := drainStep_eq hs
    exact hl.frame rfl rfl rfl rfl rfl rfl

theorem ledger_of_topReachable (h : TopReachable m) : Ledger m := by
  induction h with
  | init g e => exact .init g e
  | step a _ ha hs ih => exact ih.step ha hs

end Machine

end Abla
