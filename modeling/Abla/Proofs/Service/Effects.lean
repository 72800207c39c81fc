import Abla.Proofs.Service.Steps

/-!
# The effect of each step

One lemma per section of the service says what a successful step made of it: the program
counter it started from and the state it leaves, built from `setReq`, `setJob`, `report` and
`completeCtx`. Invariants of requests, jobs, contexts and waits are then proved from these
equations and the small lemmas of the four updates, without unfolding a step again. What a
step makes of the request it moves is also gathered into one relation, `ReqStep`.
-/

namespace Abla

namespace Machine

variable {m m' : Machine}

section Updates

variable (m : Machine) (r j c : Nat) (q : Request) (job : Job) (e : Event) (err : Option Failure)

@[simp] theorem setReq_jobs : (m.setReq r q).jobs = m.jobs := rfl
@[simp] theorem setReq_waits : (m.setReq r q).waits = m.waits := rfl
@[simp] theorem setReq_contexts : (m.setReq r q).contexts = m.contexts := rfl
@[simp] theorem setReq_cancelled : (m.setReq r q).cancelled = m.cancelled := rfl
@[simp] theorem setJob_reqs : (m.setJob j job).reqs = m.reqs := rfl
@[simp] theorem setJob_waits : (m.setJob j job).waits = m.waits := rfl
@[simp] theorem setJob_contexts : (m.setJob j job).contexts = m.contexts := rfl
@[simp] theorem setJob_cancelled : (m.setJob j job).cancelled = m.cancelled := rfl
@[simp] theorem report_reqs : (m.report e).reqs = m.reqs := rfl
@[simp] theorem report_jobs : (m.report e).jobs = m.jobs := rfl
@[simp] theorem report_waits : (m.report e).waits = m.waits := rfl
@[simp] theorem report_contexts : (m.report e).contexts = m.contexts := rfl
@[simp] theorem report_cancelled : (m.report e).cancelled = m.cancelled := rfl
@[simp] theorem completeCtx_reqs : (m.completeCtx c err).reqs = m.reqs := rfl
@[simp] theorem completeCtx_jobs : (m.completeCtx c err).jobs = m.jobs := rfl
@[simp] theorem completeCtx_waits : (m.completeCtx c err).waits = m.waits := rfl
@[simp] theorem completeCtx_cancelled : (m.completeCtx c err).cancelled = m.cancelled := rfl

@[simp] theorem completeCtx_contexts :
    (m.completeCtx c err).contexts = m.contexts.modify c (·.complete err) := rfl

end Updates

/-- Completing a context keeps its chain of requesting units. -/
@[simp] theorem Context.complete_chain (x : Context) (err : Option Failure) :
    (x.complete err).chain = x.chain := by
  unfold Context.complete
  split <;> rfl

theorem context_completeCtx {c : Nat} {err : Option Failure} (h : c < m.contexts.length) :
    (m.completeCtx c err).context c = (m.context c).complete err := by
  simp [Machine.context, completeCtx, List.getD_eq_getElem?_getD, List.getElem?_eq_getElem h]

/-! ## The steps of a request -/

section Request

variable {r : Nat} {q : Request}

theorem enter_eq (hs : m.enter r q = some m') :
    q.pc = .enter ∧
      (m.closed = true ∧ m' = m.setReq r { q with pc := .complete (some Service.closedFailure) } ∨
        m.closed = false ∧
          m' = { m.setReq r { q with counted := true, pc := .lock } with
            requests := m.requests + 1 }) := by
  unfold enter at hs
  split at hs
  · rename_i hpc
    by_cases hc : m.closed = true
    · rw [if_pos hc] at hs
      cases hs
      exact ⟨hpc, .inl ⟨hc, rfl⟩⟩
    · rw [if_neg hc] at hs
      cases hs
      exact ⟨hpc, .inr ⟨by simpa using hc, rfl⟩⟩
  · cases hs

theorem spawn_eq (hs : m.spawn r q = some m') :
    ∃ j, q.pc = .spawn j ∧
      m' = ({ m with
        group := m.group + 1,
        jobs := m.jobs.modify j fun job => { job with started := true } } : Machine).setReq r
          { q with pc := if q.parallel then .leave none else .wait j false } := by
  unfold spawn at hs
  split at hs
  · cases hs
    exact ⟨_, ‹_›, rfl⟩
  · cases hs

theorem fork_eq (hs : m.fork r q = some m') :
    ∃ j, q.pc = .fork j ∧
      m' = { m.setReq r { q with pc := .leave none } with
        group := m.group + 1, joiners := m.joiners ++ [{ job := j, cc := q.cc }] } := by
  unfold fork at hs
  split at hs
  · cases hs
    exact ⟨_, ‹_›, rfl⟩
  · cases hs

/-- A wait returns the error of the request's own context, or the outcome of the job once it
is done. -/
theorem wake_eq {b : Bool} (hs : m.wake r q b = some m') :
    ∃ j joined err, q.pc = .wait j joined ∧
      (b = true ∧ (∃ e, m.cancelledBy q.deadline = some e ∧ err = some e) ∨
        b = false ∧ ∃ job, m.jobs[j]? = some job ∧ job.result = some err) ∧
      m' = m.setReq r { q with pc := if joined then .complete err else .leave err } := by
  unfold wake at hs
  split at hs
  · rename_i j joined hpc
    obtain ⟨err, herr, rfl⟩ := Option.map_eq_some_iff.1 hs
    refine ⟨j, joined, err, hpc, ?_, rfl⟩
    cases b with
    | true =>
      obtain ⟨e, he, rfl⟩ := Option.map_eq_some_iff.1 herr
      exact .inl ⟨rfl, e, he, rfl⟩
    | false => exact .inr ⟨rfl, Option.bind_eq_some_iff.1 herr⟩
  · cases hs

theorem complete_eq (hs : m.complete r q = some m') :
    ∃ err, q.pc = .complete err ∧
      m' = (m.completeCtx q.cc err).setReq r { q with pc := .leave err } := by
  unfold complete at hs
  split at hs
  · cases hs
    exact ⟨_, ‹_›, rfl⟩
  · cases hs

theorem leave_eq (hs : m.leave r q = some m') :
    ∃ err, q.pc = .leave err ∧
      m' = { m.setReq r { q with counted := false, waiting := false, pc := .done err } with
        waits := if q.waiting then endWait m.waits (m.context q.cc) q.name else m.waits,
        requests := if q.counted then m.requests - 1 else m.requests } := by
  unfold leave at hs
  split at hs
  · cases hs
    exact ⟨_, ‹_›, rfl⟩
  · cases hs

theorem abandon_eq {e : Failure} (hs : m.abandon r q e = some m') :
    q.deadline = .caller none ∧ m' = m.setReq r { q with deadline := .caller (some e) } := by
  unfold abandon at hs
  split at hs
  · cases hs
    exact ⟨‹_›, rfl⟩
  · cases hs

/-- A request about to complete its context completes it and returns, in two steps of its
own. -/
theorem run_complete_leave_eq {err : Option Failure} (hq : m.reqs[r]? = some q)
    (hpc : q.pc = .complete err) :
    ∃ m', m.run [.complete r, .leave r] = some m' ∧
      m'.reqs[r]? = some { q with counted := false, waiting := false, pc := .done err } ∧
      m'.contexts = (m.completeCtx q.cc err).contexts := by
  have hlt : r < m.reqs.length := (List.getElem?_eq_some_iff.1 hq).1
  let m₁ := (m.completeCtx q.cc err).setReq r { q with pc := .leave err }
  have h₁ : m.step (.complete r) = some m₁ := by simp [step, hq, complete, hpc, m₁]
  have hq₁ : m₁.reqs[r]? = some { q with pc := .leave err } := by
    simp [m₁, List.getElem?_set_self hlt]
  obtain ⟨m₂, h₂⟩ : ∃ m₂, m₁.step (.leave r) = some m₂ := by simp [step, hq₁, leave]
  obtain ⟨err', hpc', hm₂⟩ := leave_eq (by simpa [step, hq₁] using h₂)
  cases hpc'
  refine ⟨m₂, by simp [run, h₁, h₂], ?_, by rw [hm₂]; rfl⟩
  rw [hm₂]
  simp [m₁, List.getElem?_set_self hlt]

end Request

/-- The steps of request `r`, one for each section of `compile`, and what each makes of it. The
section under the unit's named lock has one constructor for each way it answers. -/
inductive ReqStep (m : Machine) (r : Nat) (q : Request) : Action → Request → Prop where
  | abandon {e : Failure} : q.deadline = .caller none →
      ReqStep m r q (.abandon r e) { q with deadline := .caller (some e) }
  | refuse : q.pc = .enter → m.closed = true →
      ReqStep m r q (.enter r) { q with pc := .complete (some Service.closedFailure) }
  | accept : q.pc = .enter → m.closed = false →
      ReqStep m r q (.enter r) { q with counted := true, pc := .lock }
  | installed {f : Option SourceFile} : q.pc = .lock → m.compiled.lookup q.name = some f →
      ReqStep m r q (.lock r) { q with pc := .complete none }
  | forkJob {j : Nat} : q.pc = .lock → m.compiled.lookup q.name = none →
      m.pending.lookup q.name = some j → q.parallel = true →
      ReqStep m r q (.lock r) { q with pc := .fork j }
  | joinJob {j : Nat} {waits : List (String × String)} : q.pc = .lock →
      m.compiled.lookup q.name = none → m.pending.lookup q.name = some j → q.parallel = false →
      beginWait m.waits (m.context q.cc) q.name = some waits →
      ReqStep m r q (.lock r) { q with waiting := true, pc := .wait j true }
  | cycle {j : Nat} : q.pc = .lock → m.compiled.lookup q.name = none →
      m.pending.lookup q.name = some j → q.parallel = false →
      beginWait m.waits (m.context q.cc) q.name = none →
      ReqStep m r q (.lock r) { q with pc := .complete none }
  | registerParallel : q.pc = .lock → m.compiled.lookup q.name = none →
      m.pending.lookup q.name = none → q.parallel = true →
      ReqStep m r q (.lock r) { q with pc := .spawn m.jobs.length }
  | register : q.pc = .lock → m.compiled.lookup q.name = none →
      m.pending.lookup q.name = none → q.parallel = false →
      ReqStep m r q (.lock r) { q with waiting := true, pc := .spawn m.jobs.length }
  | spawn {j : Nat} : q.pc = .spawn j →
      ReqStep m r q (.spawn r) { q with pc := if q.parallel then .leave none else .wait j false }
  | fork {j : Nat} : q.pc = .fork j → ReqStep m r q (.fork r) { q with pc := .leave none }
  | wake {j : Nat} {joined b : Bool} {err : Option Failure} : q.pc = .wait j joined →
      (b = true ∧ (∃ e, m.cancelledBy q.deadline = some e ∧ err = some e) ∨
        b = false ∧ ∃ job, m.jobs[j]? = some job ∧ job.result = some err) →
      ReqStep m r q (.wake r b) { q with pc := if joined then .complete err else .leave err }
  | complete {err : Option Failure} : q.pc = .complete err →
      ReqStep m r q (.complete r) { q with pc := .leave err }
  | leave {err : Option Failure} : q.pc = .leave err →
      ReqStep m r q (.leave r) { q with counted := false, waiting := false, pc := .done err }

/-- What the section under the named lock makes of the request that takes it. -/
theorem lock_step {r : Nat} {q : Request} (hs : m.lock r q = some m') :
    ∃ q', m'.reqs = m.reqs.set r q' ∧ ReqStep m r q (.lock r) q' := by
  unfold lock at hs
  dsimp only at hs
  split at hs
  · rename_i hpc
    split at hs
    · rename_i f hc
      cases hs
      exact ⟨_, rfl, .installed hpc hc⟩
    · rename_i j hc hp
      split at hs
      · cases hs
        exact ⟨_, rfl, .forkJob hpc hc hp ‹_›⟩
      · have hseq : q.parallel = false := by simpa using ‹¬q.parallel = true›
        split at hs <;> cases hs
        · exact ⟨_, rfl, .joinJob hpc hc hp hseq ‹_›⟩
        · exact ⟨_, rfl, .cycle hpc hc hp hseq ‹_›⟩
    · rename_i hc hp
      split at hs <;> cases hs
      · exact ⟨_, rfl, .registerParallel hpc hc hp ‹_›⟩
      · exact ⟨_, rfl, .register hpc hc hp (by simpa using ‹¬q.parallel = true›)⟩
  · cases hs

/-- The section under a unit's named lock moves the request that takes it, and otherwise only
the units, the waits and the events. -/
theorem lock_frame {r : Nat} {q : Request} (hs : m.lock r q = some m') :
    q.pc = .lock ∧ ∃ q', m'.reqs = m.reqs.set r q' ∧ m'.contexts = m.contexts ∧
      m'.cancelled = m.cancelled ∧ m'.joiners = m.joiners ∧ m'.drains = m.drains ∧
      m'.gathers = m.gathers ∧ m'.executes = m.executes ∧ m'.closed = m.closed ∧
      (m'.jobs = m.jobs ∨ ∃ job, m'.jobs = m.jobs ++ [job]) := by
  unfold lock at hs
  dsimp only at hs
  split at hs
  · rename_i hpc
    refine ⟨hpc, ?_⟩
    split at hs
    · cases hs
      exact ⟨_, rfl, rfl, rfl, rfl, rfl, rfl, rfl, rfl, .inl rfl⟩
    · split at hs
      · cases hs
        exact ⟨_, rfl, rfl, rfl, rfl, rfl, rfl, rfl, rfl, .inl rfl⟩
      · split at hs <;> cases hs <;> exact ⟨_, rfl, rfl, rfl, rfl, rfl, rfl, rfl, rfl, .inl rfl⟩
    · split at hs <;> cases hs <;> exact ⟨_, rfl, rfl, rfl, rfl, rfl, rfl, rfl, rfl, .inr ⟨_, rfl⟩⟩
  · cases hs

/-- A new request: its context is resolved from the handle, and it comes last. -/
theorem ask_eq {a : Ask} {p : Bool} {h : Handle} {d : Deadline} (hs : m.ask a p h d = some m') :
    ∃ cc cs, h.resolve m.contexts = some (cc, cs) ∧
      m' = { m with
        counter := (a.unit m.counter).2.2, contexts := cs,
        reqs := m.reqs ++ [{
          name := (a.unit m.counter).1, origin := (a.unit m.counter).2.1, parallel := p, cc,
          deadline := d, pc := if (cs.getD cc default).requester == "" then .enter else .lock }] } := by
  unfold ask at hs
  obtain ⟨⟨cc, cs⟩, hr, rfl⟩ := Option.map_eq_some_iff.1 hs
  exact ⟨cc, cs, hr, rfl⟩

/-! ## The steps of a job -/

section Job

variable {j : Nat} {job : Job}

theorem check_eq (hs : m.check j job = some m') :
    ∃ p, job.pc = .check p ∧ m' = m.setJob j { job with
      pc := if m.cancelled then .finish (some (Service.cancelledFailure job.name)) else .run p } := by
  unfold check at hs
  split at hs
  · cases hs
    exact ⟨_, ‹_›, rfl⟩
  · cases hs

theorem parse_eq {out : Except Failure SourceFile} (hs : m.parse j job out = some m') :
    job.pc = .run .parse ∧
      ((∃ e, out = .error e ∧ m' = m.setJob j { job with pc := .finish (some e) }) ∨
        ∃ f, out = .ok f ∧ m' = (m.setJob j { job with file := some f, pc := m.after .parse }).report
          (.phase job.name Phase.parse.word)) := by
  unfold parse at hs
  split at hs
  · rename_i hpc
    split at hs <;> cases hs
    · exact ⟨hpc, .inl ⟨_, rfl, rfl⟩⟩
    · exact ⟨hpc, .inr ⟨_, rfl, rfl⟩⟩
  · cases hs

theorem endPhase_eq {p : Phase} {err : Option Failure} (hs : m.endPhase j job p err = some m') :
    job.pc = .run p ∧
      ((∃ e, err = some e ∧ m' = m.setJob j { job with pc := .finish (some e) }) ∨
        err = none ∧ m' = (m.setJob j { job with pc := m.after p }).report (.phase job.name p.word)) := by
  unfold endPhase at hs
  split at hs
  · rename_i hpc
    split at hs <;> cases hs
    · exact ⟨hpc, .inl ⟨_, rfl, rfl⟩⟩
    · exact ⟨hpc, .inr ⟨rfl, rfl⟩⟩
  · cases hs

theorem nest_eq {a : Ask} {p : Bool} {h : Handle} {d : Deadline}
    (hs : m.nest j job a p h d = some m') :
    job.pc = .run .execute ∧
      ∃ m₁, m.ask a p h d = some m₁ ∧ m' = m₁.setJob j { job with pc := .nested m.reqs.length } := by
  unfold nest at hs
  split at hs
  · obtain ⟨m₁, h₁, rfl⟩ := Option.map_eq_some_iff.1 hs
    exact ⟨‹_›, m₁, h₁, rfl⟩
  · cases hs

theorem resume_eq (hs : m.resume j job = some m') :
    ∃ r q err, job.pc = .nested r ∧ m.reqs[r]? = some q ∧ q.pc = .done err ∧
      m' = m.setJob j { job with pc := .run .execute } := by
  unfold resume at hs
  split at hs
  · rename_i r _
    split at hs
    · rename_i q' err hq
      cases hs
      exact ⟨r, _, err, ‹_›, hq, rfl, rfl⟩
    · cases hs
  · cases hs

theorem retire_eq (hs : m.retire j job = some m') :
    ∃ err, job.pc = .complete err ∧
      m' = { (m.completeCtx job.cc err).setJob j { job with pc := .exited err } with
        group := m.group - 1 } := by
  unfold retire at hs
  split at hs
  · cases hs
    exact ⟨_, ‹_›, rfl⟩
  · cases hs

/-- Finishing changes only the unit's registration, the failures and the events, besides the
job itself. -/
theorem finish_eq (hs : m.finish j job = some m') :
    ∃ err out, job.pc = .finish err ∧ m'.reqs = m.reqs ∧ m'.waits = m.waits ∧
      m'.contexts = m.contexts ∧ m'.cancelled = m.cancelled ∧
      m'.jobs = m.jobs.set j { job with pc := .complete out } ∧
      m'.gathers = m.gathers ∧ m'.executes = m.executes ∧ m'.closed = m.closed ∧
      m'.drains = m.drains := by
  unfold finish at hs
  split at hs
  · rename_i err hpc
    dsimp only at hs
    split at hs <;> cases hs
    · exact ⟨err, _, hpc, rfl, rfl, rfl, rfl, rfl, rfl, rfl, rfl, rfl⟩
    · exact ⟨err, _, hpc, rfl, rfl, rfl, rfl, rfl, rfl, rfl, rfl, rfl⟩
  · cases hs

end Job

/-- The steps of job `j`, one for each section of the job, and what each makes of it. -/
inductive JobStep (m : Machine) (j : Nat) (job : Job) : Action → Job → Prop where
  | check {p : Phase} : job.pc = .check p → JobStep m j job (.check j)
      { job with pc := if m.cancelled then .finish (some (Service.cancelledFailure job.name))
                       else .run p }
  | parseFail {e : Failure} : job.pc = .run .parse →
      JobStep m j job (.parse j (.error e)) { job with pc := .finish (some e) }
  | parse {f : SourceFile} : job.pc = .run .parse →
      JobStep m j job (.parse j (.ok f)) { job with file := some f, pc := m.after .parse }
  | gatherFail {e : Failure} : job.pc = .run .gather →
      JobStep m j job (.gather j (some e)) { job with pc := .finish (some e) }
  | gather : job.pc = .run .gather →
      JobStep m j job (.gather j none) { job with pc := m.after .gather }
  | executeFail {e : Failure} : job.pc = .run .execute →
      JobStep m j job (.execute j (some e)) { job with pc := .finish (some e) }
  | execute : job.pc = .run .execute →
      JobStep m j job (.execute j none) { job with pc := m.after .execute }
  | nest {a : Ask} {p : Bool} {h : Handle} {d : Deadline} : job.pc = .run .execute →
      JobStep m j job (.nest j a p h d) { job with pc := .nested m.reqs.length }
  | resume {r : Nat} : job.pc = .nested r →
      JobStep m j job (.resume j) { job with pc := .run .execute }
  | finish {err : Option Failure} : job.pc = .finish err →
      JobStep m j job (.finish j) { job with pc := .complete (m.settle job.name err) }
  | retire {err : Option Failure} : job.pc = .complete err →
      JobStep m j job (.retire j) { job with pc := .exited err }

theorem join_eq {k : Nat} {w : Joiner} (hs : m.join k w = some m') :
    ∃ err, w.running = true ∧ (m.jobs[w.job]?.bind Job.result) = some err ∧
      m' = { m.completeCtx w.cc err with
        group := m.group - 1, joiners := m.joiners.set k { w with running := false } } := by
  unfold join at hs
  split at hs
  · obtain ⟨err, herr, rfl⟩ := Option.map_eq_some_iff.1 hs
    exact ⟨err, ‹_›, herr, rfl⟩
  · cases hs

/-- `Drain` moves only its own goroutine. -/
theorem drainStep_eq {d : Nat} {pc : DrainPc} (hs : m.drainStep d pc = some m') :
    ∃ pc', m' = { m with drains := m.drains.set d pc' } := by
  unfold drainStep at hs
  split at hs
  all_goals first
    | (split at hs <;> cases hs <;> exact ⟨_, rfl⟩)
    | (cases hs; exact ⟨_, rfl⟩)
    | cases hs

end Machine

end Abla
