import Abla.Proofs.Service.Ledger

/-!
# What `Drain` leaves behind

`Drain` closes the service to top-level requests, waits until the top-level requests it had
admitted have returned (the counter `requests`), then until every job and asynchronous join has
ended (the counter `group`), and then reads the failures and counts the units.

Once a call of `Drain` has passed its first wait, `requests` stays at zero, since the closed
service admits no request; once it has passed both, `group` stays at zero too, since a job or a
join is started only for a request that is admitted or made by a running job (`DrainLog`). By
the ledger nothing is then left (`Ledger.quiescent`), including the jobs that requests from
compile-time execution registered while `Drain` waited.

`closed` is read by the admission of a top-level request and nowhere else (`step_withClosed`):
once closed, the service refuses a top-level request at admission, which completes its context
with the closing error and returns (`Ledger.refuses`), and serves every other step as an open
service would. The main statement is `drain_postcondition`.
-/

namespace Abla

namespace Machine

open Service (closedFailure)

variable {m m' : Machine} {a : Action}

/-! ## The counters once nothing is admitted -/

/-- A request past admission and before its answer keeps a counter above zero: it is counted,
or the job that made it runs. -/
theorem Ledger.counter_pos (hl : Ledger m) {r : Nat} {q : Request} (hq : m.reqs[r]? = some q)
    (hin : q.pc.inside = true) : 1 ≤ m.requests ∨ 1 ≤ m.group := by
  rcases hl.inside hq hin with h | ⟨j, job, hj, hst, hpc⟩
  · exact .inl (hl.one_le_requests hq h)
  · have hrun : 1 ≤ m.jobs.countP Job.running :=
      List.countP_pos_iff.2
        ⟨job, List.mem_of_getElem? hj, by simp [Job.running, hst, hpc, JobPc.ended]⟩
    right
    rw [hl.group, busy]
    omega

/-- What a step does to the counters and to the calls of `Drain`: a closed service admits no
request, nothing starts a job or a join while both counters are at zero, and a call of `Drain`
moves only by its own steps. -/
theorem Ledger.step_counters (hl : Ledger m) (hs : m.step a = some m') :
    (m.closed = true → m'.requests ≤ m.requests) ∧
      (m.requests = 0 → m.group = 0 → m'.group = 0) ∧
      (m'.drains = m.drains ∨ a = .drain ∨
        ∃ (d : Nat) (pc : DrainPc), a = .drainStep d ∧ m.drains[d]? = some pc ∧
          m.drainStep d pc = some m') := by
  -- starting a job or a join needs a request that keeps a counter above zero
  have hidle : ∀ (r : Nat) (q : Request), m.reqs[r]? = some q → q.pc.inside = true →
      m.requests = 0 → m.group = 0 → False := by
    intro r q hq hin h₁ h₂
    rcases hl.counter_pos hq hin with h | h <;> omega
  cases a with
  | ask a p h d =>
    obtain ⟨cc, cs, -, rfl⟩ := ask_eq hs
    exact ⟨fun _ => le_rfl, fun _ h => h, .inl rfl⟩
  | cancel =>
    cases hs
    exact ⟨fun _ => le_rfl, fun _ h => h, .inl rfl⟩
  | drain =>
    cases hs
    exact ⟨fun _ => le_rfl, fun _ h => h, .inr (.inl rfl)⟩
  | abandon r e =>
    obtain ⟨q, -, hs⟩ := Option.bind_eq_some_iff.1 hs
    obtain ⟨-, rfl⟩ := abandon_eq hs
    exact ⟨fun _ => le_rfl, fun _ h => h, .inl rfl⟩
  | enter r =>
    obtain ⟨q, -, hs⟩ := Option.bind_eq_some_iff.1 hs
    obtain ⟨-, ⟨-, rfl⟩ | ⟨hopen, rfl⟩⟩ := enter_eq hs
    · exact ⟨fun _ => le_rfl, fun _ h => h, .inl rfl⟩
    · -- only an open service admits
      refine ⟨fun hc => ?_, fun _ h => h, .inl rfl⟩
      rw [hc] at hopen
      cases hopen
  | lock r =>
    obtain ⟨q, -, hs⟩ := Option.bind_eq_some_iff.1 hs
    obtain ⟨-, hg, hrq, -⟩ := lock_cases hs
    obtain ⟨-, -, -, -, -, -, hdr, -⟩ := lock_frame hs
    exact ⟨fun _ => hrq.le, fun _ h => hg.trans h, .inl hdr⟩
  | spawn r =>
    obtain ⟨q, hq, hs⟩ := Option.bind_eq_some_iff.1 hs
    obtain ⟨j, hpc, rfl⟩ := spawn_eq hs
    exact ⟨fun _ => le_rfl,
      fun h₁ h₂ => (hidle r q hq (by simp [hpc, ReqPc.inside]) h₁ h₂).elim, .inl rfl⟩
  | fork r =>
    obtain ⟨q, hq, hs⟩ := Option.bind_eq_some_iff.1 hs
    obtain ⟨j, hpc, rfl⟩ := fork_eq hs
    exact ⟨fun _ => le_rfl,
      fun h₁ h₂ => (hidle r q hq (by simp [hpc, ReqPc.inside]) h₁ h₂).elim, .inl rfl⟩
  | wake r b =>
    obtain ⟨q, -, hs⟩ := Option.bind_eq_some_iff.1 hs
    obtain ⟨j, joined, err, -, -, rfl⟩ := wake_eq hs
    exact ⟨fun _ => le_rfl, fun _ h => h, .inl rfl⟩
  | complete r =>
    obtain ⟨q, -, hs⟩ := Option.bind_eq_some_iff.1 hs
    obtain ⟨err, -, rfl⟩ := complete_eq hs
    exact ⟨fun _ => le_rfl, fun _ h => h, .inl rfl⟩
  | leave r =>
    obtain ⟨q, -, hs⟩ := Option.bind_eq_some_iff.1 hs
    obtain ⟨err, -, rfl⟩ := leave_eq hs
    exact ⟨fun _ => by dsimp only; split <;> omega, fun _ h => h, .inl rfl⟩
  | check j =>
    obtain ⟨job, -, hs⟩ := Option.bind_eq_some_iff.1 hs
    obtain ⟨p, -, rfl⟩ := check_eq hs
    exact ⟨fun _ => le_rfl, fun _ h => h, .inl rfl⟩
  | parse j out =>
    obtain ⟨job, -, hs⟩ := Option.bind_eq_some_iff.1 hs
    obtain ⟨-, ⟨e, -, rfl⟩ | ⟨f, -, rfl⟩⟩ := parse_eq hs
    · exact ⟨fun _ => le_rfl, fun _ h => h, .inl rfl⟩
    · exact ⟨fun _ => le_rfl, fun _ h => h, .inl rfl⟩
  | gather j err =>
    obtain ⟨job, -, hs⟩ := Option.bind_eq_some_iff.1 hs
    obtain ⟨-, ⟨e, -, rfl⟩ | ⟨-, rfl⟩⟩ := endPhase_eq hs
    · exact ⟨fun _ => le_rfl, fun _ h => h, .inl rfl⟩
    · exact ⟨fun _ => le_rfl, fun _ h => h, .inl rfl⟩
  | execute j err =>
    obtain ⟨job, -, hs⟩ := Option.bind_eq_some_iff.1 hs
    obtain ⟨-, ⟨e, -, rfl⟩ | ⟨-, rfl⟩⟩ := endPhase_eq hs
    · exact ⟨fun _ => le_rfl, fun _ h => h, .inl rfl⟩
    · exact ⟨fun _ => le_rfl, fun _ h => h, .inl rfl⟩
  | nest j a p h d =>
    obtain ⟨job, -, hs⟩ := Option.bind_eq_some_iff.1 hs
    obtain ⟨-, m₁, h₁, rfl⟩ := nest_eq hs
    obtain ⟨cc, cs, -, rfl⟩ := ask_eq h₁
    exact ⟨fun _ => le_rfl, fun _ h => h, .inl rfl⟩
  | resume j =>
    obtain ⟨job, -, hs⟩ := Option.bind_eq_some_iff.1 hs
    obtain ⟨r, q, err, -, -, -, rfl⟩ := resume_eq hs
    exact ⟨fun _ => le_rfl, fun _ h => h, .inl rfl⟩
  | finish j =>
    obtain ⟨job, -, hs⟩ := Option.bind_eq_some_iff.1 hs
    obtain ⟨-, -, -, -, -, -, -, -, -, -, -, hdr⟩ := finish_eq hs
    obtain ⟨hg, hrq, -⟩ := finish_counters hs
    exact ⟨fun _ => hrq.le, fun _ h => hg.trans h, .inl hdr⟩
  | retire j =>
    obtain ⟨job, -, hs⟩ := Option.bind_eq_some_iff.1 hs
    obtain ⟨err, -, rfl⟩ := retire_eq hs
    exact ⟨fun _ => le_rfl, fun _ h => by simp [h], .inl rfl⟩
  | join k =>
    obtain ⟨w, -, hs⟩ := Option.bind_eq_some_iff.1 hs
    obtain ⟨err, -, -, rfl⟩ := join_eq hs
    exact ⟨fun _ => le_rfl, fun _ h => by simp [h], .inl rfl⟩
  | drainStep d =>
    obtain ⟨pc, hd, hs'⟩ := Option.bind_eq_some_iff.1 hs
    obtain ⟨pc', rfl⟩ := drainStep_eq hs'
    exact ⟨fun _ => le_rfl, fun _ h => h, .inr (.inr ⟨d, pc, rfl, hd, hs'⟩)⟩

/-! ## The waits of `Drain` -/

/-- How far a call of `Drain` has got: 0 before its first wait has passed, 1 between the two
waits, 2 once both have passed. -/
def DrainPc.passed : DrainPc → Nat
  | .requests => 0
  | .jobs => 1
  | .errors | .count _ | .done _ _ => 2

/-- A step of `Drain` passes its first wait only with no admitted request, and its second only
with nothing running. -/
theorem drainStep_passed {d : Nat} {pc : DrainPc} (hs : m.drainStep d pc = some m') :
    ∃ pc', m' = { m with drains := m.drains.set d pc' } ∧
      (1 ≤ pc'.passed → 1 ≤ pc.passed ∨ m.requests = 0) ∧
      (2 ≤ pc'.passed → 2 ≤ pc.passed ∨ m.group = 0) := by
  unfold drainStep at hs
  split at hs
  · split at hs
    · cases hs
      exact ⟨_, rfl, fun _ => .inr ‹_›, fun h => by simp [DrainPc.passed] at h⟩
    · cases hs
  · split at hs
    · cases hs
      exact ⟨_, rfl, fun _ => .inl (by simp [DrainPc.passed]), fun _ => .inr ‹_›⟩
    · cases hs
  · cases hs
    exact ⟨_, rfl, fun _ => .inl (by simp [DrainPc.passed]),
      fun _ => .inl (by simp [DrainPc.passed])⟩
  · cases hs
    exact ⟨_, rfl, fun _ => .inl (by simp [DrainPc.passed]),
      fun _ => .inl (by simp [DrainPc.passed])⟩
  · cases hs

/-- Once a call of `Drain` has passed its first wait no admitted request is left, and once it
has passed both nothing runs any more. -/
structure DrainLog (m : Machine) : Prop where
  requests : ∀ (d : Nat) (pc : DrainPc), m.drains[d]? = some pc → 1 ≤ pc.passed →
    m.requests = 0
  group : ∀ (d : Nat) (pc : DrainPc), m.drains[d]? = some pc → 2 ≤ pc.passed → m.group = 0

theorem DrainLog.init (gathers executes : Bool) : DrainLog (init gathers executes) :=
  ⟨by simp [Machine.init], by simp [Machine.init]⟩

/-- A step keeps the log: the counters stay at zero once a wait has seen them there, since the
service that `Drain` closed admits nothing, and a call of `Drain` passes a wait only when its
counter is at zero. -/
theorem DrainLog.step (hd : DrainLog m) (hl : Ledger m) (hreach : Reachable m)
    (hs : m.step a = some m') : DrainLog m' := by
  obtain ⟨hreq, hgrp, hdr⟩ := hl.step_counters hs
  -- a call of `Drain` has closed the service
  have hclosed : ∀ (d : Nat) (pc : DrainPc), m.drains[d]? = some pc → m.closed = true :=
    fun d pc h => (closed_iff_drains hreach).2 (fun he => by simp [he] at h)
  rcases hdr with hdr | rfl | ⟨d₀, pc₀, rfl, hd₀, hs₀⟩
  · -- the calls of `Drain` are where they were
    refine ⟨fun d pc h hp => ?_, fun d pc h hp => ?_⟩
    · rw [hdr] at h
      have := hreq (hclosed d pc h)
      have := hd.requests d pc h hp
      omega
    · rw [hdr] at h
      exact hgrp (hd.requests d pc h (by omega)) (hd.group d pc h hp)
  · -- a new call, which has passed nothing
    cases hs
    refine ⟨fun d pc h hp => ?_, fun d pc h hp => ?_⟩
    · rcases getElem?_concat_cases h with h | ⟨-, rfl⟩
      · exact hd.requests d pc h hp
      · simp [DrainPc.passed] at hp
    · rcases getElem?_concat_cases h with h | ⟨-, rfl⟩
      · exact hd.group d pc h hp
      · simp [DrainPc.passed] at hp
  · -- a step of one call, which passes a wait only with its counter at zero
    obtain ⟨pc', rfl, hp₁, hp₂⟩ := drainStep_passed hs₀
    refine ⟨fun d pc h hp => ?_, fun d pc h hp => ?_⟩
    · rcases getElem?_set_cases h with ⟨rfl, rfl⟩ | ⟨-, h⟩
      · rcases hp₁ hp with hp | h₀
        · exact hd.requests _ pc₀ hd₀ hp
        · exact h₀
      · exact hd.requests d pc h hp
    · rcases getElem?_set_cases h with ⟨rfl, rfl⟩ | ⟨-, h⟩
      · rcases hp₂ hp with hp | h₀
        · exact hd.group _ pc₀ hd₀ hp
        · exact h₀
      · exact hd.group d pc h hp

theorem drainLog_of_topReachable (h : TopReachable m) : DrainLog m := by
  induction h with
  | init g e => exact .init g e
  | step a hm ha hs ih =>
    exact ih.step (ledger_of_topReachable hm) hm.reachable hs

/-- Once a call of `Drain` has passed both its waits, nothing is left. -/
theorem quiescent_of_passed (h : TopReachable m) {d : Nat} {pc : DrainPc}
    (hd : m.drains[d]? = some pc) (hp : 2 ≤ pc.passed) : Quiescent m := by
  have hlog := drainLog_of_topReachable h
  have hc : m.closed = true := (closed_iff_drains h.reachable).2 (fun he => by simp [he] at hd)
  exact (ledger_of_topReachable h).quiescent (registry_of_reachable h.reachable) hc
    (hlog.requests d pc hd (by omega)) (hlog.group d pc hd hp)

/-! ## Closing reads only admission -/

/-- The service with its `closed` flag set to `b`. -/
def withClosed (m : Machine) (b : Bool) : Machine := { m with closed := b }

section WithClosed

variable (m : Machine) (b : Bool)

@[simp] theorem withClosed_reqs : (m.withClosed b).reqs = m.reqs := rfl
@[simp] theorem withClosed_jobs : (m.withClosed b).jobs = m.jobs := rfl
@[simp] theorem withClosed_compiled : (m.withClosed b).compiled = m.compiled := rfl
@[simp] theorem withClosed_pending : (m.withClosed b).pending = m.pending := rfl
@[simp] theorem withClosed_waits : (m.withClosed b).waits = m.waits := rfl
@[simp] theorem withClosed_requests : (m.withClosed b).requests = m.requests := rfl
@[simp] theorem withClosed_group : (m.withClosed b).group = m.group := rfl
@[simp] theorem withClosed_context (c : Nat) : (m.withClosed b).context c = m.context c := rfl
@[simp] theorem withClosed_settle (n : String) (err : Option Failure) :
    (m.withClosed b).settle n err = m.settle n err := rfl
@[simp] theorem withClosed_cancelledBy (d : Deadline) :
    (m.withClosed b).cancelledBy d = m.cancelledBy d := rfl

end WithClosed

section Commute

variable {b : Bool} (r j : Nat) (q : Request) (job : Job)

theorem abandon_withClosed (e : Failure) :
    (m.withClosed b).abandon r q e = (m.abandon r q e).map (·.withClosed b) := by
  unfold abandon
  split <;> rfl

theorem lock_withClosed : (m.withClosed b).lock r q = (m.lock r q).map (·.withClosed b) := by
  unfold lock
  simp only [withClosed_context, withClosed_compiled, withClosed_pending, withClosed_waits,
    withClosed_jobs]
  repeat' split
  all_goals rfl

theorem spawn_withClosed : (m.withClosed b).spawn r q = (m.spawn r q).map (·.withClosed b) := by
  unfold spawn
  split <;> rfl

theorem fork_withClosed : (m.withClosed b).fork r q = (m.fork r q).map (·.withClosed b) := by
  unfold fork
  split <;> rfl

theorem wake_withClosed (c : Bool) :
    (m.withClosed b).wake r q c = (m.wake r q c).map (·.withClosed b) := by
  unfold wake
  simp only [withClosed_cancelledBy, withClosed_jobs]
  split
  · simp only [Option.map_map]
    rfl
  · rfl

theorem complete_withClosed :
    (m.withClosed b).complete r q = (m.complete r q).map (·.withClosed b) := by
  unfold complete
  split <;> rfl

theorem leave_withClosed : (m.withClosed b).leave r q = (m.leave r q).map (·.withClosed b) := by
  unfold leave
  split <;> rfl

theorem check_withClosed :
    (m.withClosed b).check j job = (m.check j job).map (·.withClosed b) := by
  unfold check
  split <;> rfl

theorem parse_withClosed (out : Except Failure SourceFile) :
    (m.withClosed b).parse j job out = (m.parse j job out).map (·.withClosed b) := by
  unfold parse
  repeat' split
  all_goals rfl

theorem endPhase_withClosed (p : Phase) (err : Option Failure) :
    (m.withClosed b).endPhase j job p err = (m.endPhase j job p err).map (·.withClosed b) := by
  unfold endPhase
  repeat' split
  all_goals rfl

theorem nest_withClosed (a : Ask) (p : Bool) (h : Handle) (d : Deadline) :
    (m.withClosed b).nest j job a p h d = (m.nest j job a p h d).map (·.withClosed b) := by
  unfold nest
  split
  · simp only [Machine.ask, Option.map_map]
    rfl
  · rfl

theorem resume_withClosed :
    (m.withClosed b).resume j job = (m.resume j job).map (·.withClosed b) := by
  unfold resume
  simp only [withClosed_reqs]
  repeat' split
  all_goals rfl

theorem finish_withClosed :
    (m.withClosed b).finish j job = (m.finish j job).map (·.withClosed b) := by
  unfold finish
  simp only [withClosed_pending, withClosed_settle]
  split
  · -- the unit is still the job's, or it vanished: the same branch either way
    by_cases hp : List.lookup job.name m.pending = some j
    · simp only [hp, if_true, Option.map_some]
      rfl
    · simp only [hp, if_false, Option.map_some]
      rfl
  · rfl

theorem retire_withClosed :
    (m.withClosed b).retire j job = (m.retire j job).map (·.withClosed b) := by
  unfold retire
  split <;> rfl

theorem join_withClosed (k : Nat) (w : Joiner) :
    (m.withClosed b).join k w = (m.join k w).map (·.withClosed b) := by
  unfold join
  simp only [withClosed_jobs]
  split
  · cases m.jobs[w.job]?.bind Job.result <;> rfl
  · rfl

theorem drainStep_withClosed (d : Nat) (pc : DrainPc) :
    (m.withClosed b).drainStep d pc = (m.drainStep d pc).map (·.withClosed b) := by
  cases pc with
  | requests =>
    by_cases h : m.requests = 0
    · simp [drainStep, h]
      rfl
    · simp [drainStep, h]
  | jobs =>
    by_cases h : m.group = 0
    · simp [drainStep, h]
      rfl
    · simp [drainStep, h]
  | errors => rfl
  | count errs => rfl
  | done n errs => rfl

end Commute

theorem bind_withClosed {α : Type} {b : Bool} {o : Option α} {f g : α → Option Machine}
    (h : ∀ x, g x = (f x).map (·.withClosed b)) :
    o.bind g = (o.bind f).map (·.withClosed b) := by
  cases o <;> simp [h]

/-- `closed` is read by admission alone: with it set either way, every step but admission and
`Drain` itself is taken alike, with the same effect. -/
theorem step_withClosed {b : Bool} (he : ∀ r, a ≠ .enter r) (hd : a ≠ .drain) :
    (m.withClosed b).step a = (m.step a).map (·.withClosed b) := by
  cases a with
  | ask a p h d =>
    simp only [Machine.step, Machine.ask, Option.map_map]
    rfl
  | cancel => rfl
  | drain => exact absurd rfl hd
  | enter r => exact absurd rfl (he r)
  | abandon r e => exact bind_withClosed (fun q => abandon_withClosed r q e)
  | lock r => exact bind_withClosed (lock_withClosed r)
  | spawn r => exact bind_withClosed (spawn_withClosed r)
  | fork r => exact bind_withClosed (fork_withClosed r)
  | wake r c => exact bind_withClosed (fun q => wake_withClosed r q c)
  | complete r => exact bind_withClosed (complete_withClosed r)
  | leave r => exact bind_withClosed (leave_withClosed r)
  | check j => exact bind_withClosed (check_withClosed j)
  | parse j out => exact bind_withClosed (fun job => parse_withClosed j job out)
  | gather j err => exact bind_withClosed (fun job => endPhase_withClosed j job .gather err)
  | execute j err => exact bind_withClosed (fun job => endPhase_withClosed j job .execute err)
  | nest j a p h d => exact bind_withClosed (fun job => nest_withClosed j job a p h d)
  | resume j => exact bind_withClosed (resume_withClosed j)
  | finish j => exact bind_withClosed (finish_withClosed j)
  | retire j => exact bind_withClosed (retire_withClosed j)
  | join k => exact bind_withClosed (join_withClosed k)
  | drainStep d => exact bind_withClosed (drainStep_withClosed d)

/-- Once the service is closed, a top-level request is refused at admission: in three steps of
its own it completes its context with the closing error and returns, and nothing else changes.
It was counted by nothing and records no wait, so returning undoes neither. -/
theorem Ledger.refuses (hl : Ledger m) (hc : m.closed = true) {r : Nat} {q : Request}
    (hq : m.reqs[r]? = some q) (hpc : q.pc = .enter) :
    m.run [.enter r, .complete r, .leave r] =
      some ((m.completeCtx q.cc (some closedFailure)).setReq r
        { q with pc := .done (some closedFailure) }) := by
  obtain ⟨-, hcount, hwait, -⟩ := hl.entering r q hq hpc
  have hlt : r < m.reqs.length := (List.getElem?_eq_some_iff.1 hq).1
  simp [Machine.run, Machine.step, hq, Machine.enter, hpc, hc, Machine.complete, Machine.leave,
    List.getElem?_set_self hlt, hcount, hwait, setReq, completeCtx]

/-! ## What `Drain` guarantees -/

/-- What `Drain` guarantees along runs whose callers make top-level requests. -/
structure DrainPost (m : Machine) : Prop where
  /-- Once a call of `Drain` has passed both its waits, and so when it returns, nothing is left:
  nothing is pending, no job or join runs, and every request has returned with its context
  completed, but top-level requests that the service has not admitted. -/
  quiescent : ∀ (d : Nat) (pc : DrainPc), m.drains[d]? = some pc → 2 ≤ pc.passed →
    Quiescent m
  /-- Once the service is closed, a top-level request is refused at admission: it completes its
  context with the closing error, returns, and changes nothing else. -/
  refuses : m.closed = true → ∀ (r : Nat) (q : Request), m.reqs[r]? = some q →
    q.pc = .enter →
    m.run [.enter r, .complete r, .leave r] =
      some ((m.completeCtx q.cc (some closedFailure)).setReq r
        { q with pc := .done (some closedFailure) })
  /-- Every other step is served by the closed service as by an open one. -/
  serves : ∀ (a : Action) (b : Bool), (∀ r, a ≠ .enter r) → a ≠ .drain →
    (m.withClosed b).step a = (m.step a).map (·.withClosed b)

theorem drain_postcondition (h : TopReachable m) : DrainPost m where
  quiescent _ _ hd hp := quiescent_of_passed h hd hp
  refuses hc _ _ hq hpc := (ledger_of_topReachable h).refuses hc hq hpc
  serves _ _ he hd := step_withClosed he hd

/-- A sequential request for a text whose compile-time execution makes a nested request after
`Drain` was called; `Drain` waits for the job the nested request registered, and returns. -/
def drainDuringNesting : List Action :=
  [.ask (.source "a") false .fresh (.caller none),
   .enter 0, .lock 0, .spawn 0, .check 0, .parse 0 (.ok (emptyTree "<source#1>")),
   .drain, .check 0,
   .nest 0 (.source "b") false (.derived 0 "<source#1>") .service,
   .lock 1, .spawn 1, .check 1, .parse 1 (.ok (emptyTree "<source#2>")), .check 1,
   .execute 1 none, .finish 1, .retire 1, .wake 1 false, .leave 1,
   .resume 0, .execute 0 none, .finish 0, .retire 0, .wake 0 false, .leave 0,
   .drainStep 0, .drainStep 0, .drainStep 0, .drainStep 0]

theorem drain_postcondition_drainDuringNesting :
    ∃ m, (init false true).runTop drainDuringNesting = some m ∧ DrainPost m := by
  obtain ⟨m, hm⟩ : ∃ m, (init false true).runTop drainDuringNesting = some m :=
    Option.isSome_iff_exists.1 (by decide)
  exact ⟨m, hm, drain_postcondition ((TopReachable.init false true).runTop hm)⟩

end Machine

end Abla
