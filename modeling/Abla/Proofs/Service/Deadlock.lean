import Abla.Proofs.Service.Nesting

/-!
# No deadlock among compile-time executions

A job whose compile-time execution makes a sequential request for another unit blocks until
that unit's job is done. Two jobs blocked on each other would wait forever, so the service
records each such wait in `waits` and refuses a wait that would close a cycle, answering the
request at once.

The discipline of the builtins that make nested requests is stated as the steps that
`allows` lets through, and `Orderly` holds of the states that such runs reach. In each of them
the nesting of requests holds (`nesting_of_orderly`), hence (`deadlock_free_of_orderly`):

* the waits graph has no cycle;
* every job blocked in a sequential request on the job of another unit has its wait recorded,
  so that the relation "blocked on" has no cycle either;
* a sequential request that would close a cycle, from a unit to itself or to a unit blocked,
  directly or through others, on its own, completes its context with no error and returns no
  error in three steps of its own, without waiting for any job.
-/

namespace Abla

namespace Machine

/-! ## The discipline -/

def Deadline.isService : Deadline → Bool
  | .service => true
  | .caller _ => false

/-- A handle for a top-level context: a fresh one, or one made before without a requester. -/
def Handle.topLevel (m : Machine) : Handle → Bool
  | .fresh => true
  | .given c => (m.context c).requester == ""
  | .derived _ _ => false

/-- A handle for the context that `Derive` makes from the context of `job` for its unit. -/
def Handle.derivedFor (job : Job) : Handle → Bool
  | .derived c unit => c == job.cc && unit == job.name
  | _ => false

/-- The steps of a disciplined run: the service is never cancelled, callers make top-level
requests, and compile-time execution makes sequential requests under the service's context,
with the context derived from its job's for its unit. -/
def allows (m : Machine) : Action → Bool
  | .cancel => false
  | .ask _ _ h _ => h.topLevel m
  | .nest j _ p h d => !p && d.isService && m.jobs[j]?.any fun job => h.derivedFor job
  | _ => true

/-- The states that disciplined runs reach. -/
inductive Orderly : Machine → Prop where
  | init (gathers executes : Bool) : Orderly (init gathers executes)
  | step {m m' : Machine} (a : Action) : Orderly m → m.allows a = true → m.step a = some m' →
      Orderly m'

/-- Runs steps in order as long as the discipline allows each. -/
def runOrderly (m : Machine) : List Action → Option Machine
  | [] => some m
  | a :: as => if m.allows a then (m.step a).bind (·.runOrderly as) else none

variable {m m' : Machine}

theorem Orderly.reachable (h : Orderly m) : Reachable m := by
  induction h with
  | init g e => exact .init g e
  | step a _ _ hs ih => exact .step a ih hs

theorem Orderly.runOrderly {as : List Action} (h : Orderly m) (hr : m.runOrderly as = some m') :
    Orderly m' := by
  induction as generalizing m with
  | nil =>
    cases hr
    exact h
  | cons a as ih =>
    simp only [Machine.runOrderly] at hr
    split at hr
    · rename_i ha
      obtain ⟨m₁, h₁, hr⟩ := Option.bind_eq_some_iff.1 hr
      exact ih (h.step a ha h₁) hr
    · cases hr

/-! ## The nesting holds along disciplined runs -/

theorem view_modify_started (l : List Job) (j : Nat) :
    (l.modify j fun job => { job with started := true }).map Job.view = l.map Job.view := by
  apply List.ext_getElem?
  intro i
  simp only [List.getElem?_map, List.getElem?_modify]
  cases l[i]? <;> simp
  split <;> rfl

theorem after_ne_nested (m : Machine) (p : Phase) (r : Nat) : m.after p ≠ .nested r := by
  unfold after
  split <;> simp

/-- A job move that leaves it in progress, neither blocked nor done. -/
theorem Nesting.advance (hn : Nesting m) {j : Nat} {job job' : Job}
    (hjobs : m'.jobs = m.jobs.set j job') (hreqs : m'.reqs = m.reqs)
    (hch : SameChains m m') (hcan : m'.cancelled = m.cancelled) (hwaits : m'.waits = m.waits)
    (hj : m.jobs[j]? = some job) (hname : job'.name = job.name) (hcc : job'.cc = job.cc)
    (hpc : ∀ r, job.pc ≠ .nested r) (hpc' : ∀ r, job'.pc ≠ .nested r)
    (hres : job.result = none) : Nesting m' :=
  hn.setJob hjobs hreqs hch hcan hwaits hj hname hcc hpc' (fun _ => hres)
    (fun r h => absurd h (hpc r))

/-- One allowed step keeps the nesting. -/
theorem Nesting.step (hn : Nesting m) (hreg : Registry m) {a : Action} (ha : m.allows a = true)
    (hs : m.step a = some m') : Nesting m' := by
  cases a with
  | ask a p h d =>
    obtain ⟨cc, cs, hr, rfl⟩ := ask_eq hs
    have hpc : (if (cs.getD cc default).requester == "" then ReqPc.enter else .lock).beforeLock =
        true := by split <;> rfl
    cases h with
    | fresh =>
      simp only [Handle.resolve, Option.some.injEq, Prod.mk.injEq] at hr
      obtain ⟨rfl, rfl⟩ := hr
      let m₁ : Machine := { m with contexts := m.contexts ++ [{ chain := [""] }] }
      have h₁ : Nesting m₁ := hn.addContext rfl rfl rfl rfl rfl (by simp)
      exact h₁.addRequest rfl rfl rfl rfl rfl (by simp [m₁]) (Ask.unit_name_ne a m.counter)
        (by simp [m₁, requesterOf, context, List.getD_eq_getElem?_getD, Context.requester])
        hpc rfl
    | given c =>
      simp only [Handle.resolve] at hr
      split at hr
      · rename_i hc
        simp only [Option.some.injEq, Prod.mk.injEq] at hr
        obtain ⟨rfl, rfl⟩ := hr
        have htop : (m.context c).requester = "" := by simpa [allows, Handle.topLevel] using ha
        exact hn.addRequest rfl rfl rfl rfl rfl hc (Ask.unit_name_ne a m.counter) htop hpc rfl
      · cases hr
    | derived c u => simp [allows, Handle.topLevel] at ha
  | cancel => simp [allows] at ha
  | drain =>
    cases hs
    exact hn.frame rfl rfl rfl .rfl rfl
  | abandon r e =>
    obtain ⟨q, hq, hs⟩ := Option.bind_eq_some_iff.1 hs
    obtain ⟨hdl, rfl⟩ := abandon_eq hs
    have hsound := hn.reqs r q hq
    have htop : m.requesterOf q = "" := by
      by_cases h : m.requesterOf q = ""
      · exact h
      · rw [(hsound.nested h).2] at hdl
        cases hdl
    refine hn.setReq rfl rfl .rfl rfl hq rfl rfl ?_ (fun j h => hn.awaited r q j hq h) id
      (fun _ h _ _ => h) (fun p => rfl)
    exact ⟨hsound.cc_lt, hsound.name_ne, fun h => absurd htop h, hsound.idle, hsound.live,
      hsound.awaits⟩
  | enter r =>
    obtain ⟨q, hq, hs⟩ := Option.bind_eq_some_iff.1 hs
    have hw : q.waiting = false := (hn.reqs r q hq).idle (by simp [(enter_eq hs).1, ReqPc.beforeLock])
    obtain ⟨hpc, ⟨-, rfl⟩ | ⟨-, rfl⟩⟩ := enter_eq hs
    · exact hn.move rfl rfl .rfl rfl rfl hq ⟨rfl, rfl, rfl, rfl, rfl⟩
        (by simp [hpc, ReqPc.awaited, ReqPc.returned]) (by simp [ReqPc.awaited, ReqPc.returned])
        (by simp [ReqPc.beforeLock])
    · exact hn.move rfl rfl .rfl rfl rfl hq ⟨rfl, rfl, rfl, rfl, rfl⟩
        (by simp [hpc, ReqPc.awaited, ReqPc.returned]) (by simp [ReqPc.awaited, ReqPc.returned])
        (fun _ => hw)
  | lock r =>
    obtain ⟨q, hq, hs⟩ := Option.bind_eq_some_iff.1 hs
    exact hn.lock hreg hq hs
  | spawn r =>
    obtain ⟨q, hq, hs⟩ := Option.bind_eq_some_iff.1 hs
    obtain ⟨j, hpc, rfl⟩ := spawn_eq hs
    have hsound := hn.reqs r q hq
    let q' : Request := { q with pc := if q.parallel then .leave none else .wait j false }
    have h₁ : Nesting (m.setReq r q') := by
      refine hn.setReq rfl rfl .rfl rfl hq rfl rfl ?_ ?_ (fun _ => by simp [hpc, ReqPc.returned])
        ?_ (fun p => rfl)
      · refine ⟨hsound.cc_lt, hsound.name_ne, hsound.nested, ?_, ?_, ?_⟩
        · cases hp : q.parallel <;> simp [q', hp, ReqPc.beforeLock]
        · cases hp : q.parallel <;> simp [q', hp, ReqPc.returned]
        · intro hp _
          exact hsound.awaits hp (by simp [hpc, ReqPc.awaited])
      · intro j' h
        by_cases hp : q.parallel = true
        · simp [q', hp, ReqPc.awaited] at h
        · simp only [q', hp, Bool.false_eq_true, if_false, ReqPc.awaited, Option.some.injEq] at h
          subst h
          exact hn.awaited r q j hq (by simp [hpc, ReqPc.awaited])
      · intro j' h htop _
        have hp := (hsound.nested htop).1
        simp only [hpc, ReqPc.awaited, Option.some.injEq] at h
        subst h
        simp [q', hp, ReqPc.awaited]
    exact h₁.frame rfl (view_modify_started m.jobs j) rfl .rfl rfl
  | fork r =>
    obtain ⟨q, hq, hs⟩ := Option.bind_eq_some_iff.1 hs
    obtain ⟨j, hpc, rfl⟩ := fork_eq hs
    exact hn.move rfl rfl .rfl rfl rfl hq ⟨rfl, rfl, rfl, rfl, rfl⟩
      (by simp [hpc, ReqPc.awaited, ReqPc.returned]) (by simp [ReqPc.awaited, ReqPc.returned])
      (by simp [ReqPc.beforeLock])
  | wake r b =>
    obtain ⟨q, hq, hs⟩ := Option.bind_eq_some_iff.1 hs
    obtain ⟨j, joined, err, hpc, hwhy, rfl⟩ := wake_eq hs
    have hsound := hn.reqs r q hq
    refine hn.setReq rfl rfl .rfl rfl hq rfl rfl ?_ ?_ (fun _ => by simp [hpc, ReqPc.returned])
      ?_ ?_
    · refine ⟨hsound.cc_lt, hsound.name_ne, hsound.nested, ?_, ?_, ?_⟩ <;>
        split <;> simp [ReqPc.beforeLock, ReqPc.returned, ReqPc.awaited]
    · intro j' h
      split at h <;> simp [ReqPc.awaited] at h
    · -- a nested request waits under the service's context, which is never cancelled here, so
      -- it wakes only once its job is done
      rintro j' h htop ⟨job, hj, hres⟩
      simp only [hpc, ReqPc.awaited, Option.some.injEq] at h
      subst h
      rcases hwhy with ⟨-, e, he, -⟩ | ⟨-, job', hj', hres'⟩
      · rw [(hsound.nested htop).2] at he
        simp [cancelledBy, hn.not_cancelled] at he
      · rw [hj] at hj'
        cases hj'
        rw [hres] at hres'
        cases hres'
    · intro p
      rfl
  | complete r =>
    obtain ⟨q, hq, hs⟩ := Option.bind_eq_some_iff.1 hs
    obtain ⟨err, hpc, rfl⟩ := complete_eq hs
    exact hn.move rfl rfl (sameChains_completeCtx q.cc err) rfl rfl hq ⟨rfl, rfl, rfl, rfl, rfl⟩
      (by simp [hpc, ReqPc.awaited, ReqPc.returned]) (by simp [ReqPc.awaited, ReqPc.returned])
      (by simp [ReqPc.beforeLock])
  | leave r =>
    obtain ⟨q, hq, hs⟩ := Option.bind_eq_some_iff.1 hs
    obtain ⟨err, hpc, rfl⟩ := leave_eq hs
    have hsound := hn.reqs r q hq
    refine hn.setReq rfl rfl .rfl rfl hq rfl rfl ?_ ?_ (by simp [ReqPc.returned])
      (fun j h => by simp [hpc, ReqPc.awaited] at h) ?_
    · exact ⟨hsound.cc_lt, hsound.name_ne, hsound.nested, by simp, by simp, by
        simp [ReqPc.awaited]⟩
    · intro j' h
      simp [ReqPc.awaited] at h
    · -- the deferred `endWait` removes the wait the request recorded, if any
      intro p
      have hq₁ : m.waitOf { q with counted := false, waiting := false, pc := .done err } = none := by
        simp [Machine.waitOf]
      rw [hq₁]
      dsimp only
      by_cases hw : q.waiting = true
      · rw [if_pos hw]
        by_cases htop : m.requesterOf q = ""
        · have hq₀ : m.waitOf q = none := by simp [Machine.waitOf, htop]
          simp [endWait, show (m.context q.cc).requester = "" from htop, hq₀]
        · have hq₀ : m.waitOf q = some (m.requesterOf q, q.name) := by
            simp [Machine.waitOf, htop, hw]
          have hmem := hn.waitOf_mem hq hq₀
          have hend : endWait m.waits (m.context q.cc) q.name =
              m.waits.erase (m.requesterOf q, q.name) := by
            simp [endWait, show ((m.context q.cc).requester == "") = false by
              simpa [requesterOf] using htop, requesterOf]
          rw [hend, hq₀, List.count_erase]
          by_cases he : (m.requesterOf q, q.name) = p
          · subst he
            have := List.count_pos_iff.2 hmem
            simp
            omega
          · simp [he]
      · have hq₀ : m.waitOf q = none := by simp [Machine.waitOf, hw]
        simp [hw, hq₀]
  | check j =>
    obtain ⟨job, hj, hs⟩ := Option.bind_eq_some_iff.1 hs
    obtain ⟨p, hpc, rfl⟩ := check_eq hs
    exact hn.advance rfl rfl .rfl rfl rfl (job?_eq_some hj).1 rfl rfl (by simp [hpc])
      (by split <;> simp) (by simp [Job.result, hpc])
  | parse j out =>
    obtain ⟨job, hj, hs⟩ := Option.bind_eq_some_iff.1 hs
    obtain ⟨hpc, ⟨e, -, rfl⟩ | ⟨f, -, rfl⟩⟩ := parse_eq hs
    · exact hn.advance rfl rfl .rfl rfl rfl (job?_eq_some hj).1 rfl rfl (by simp [hpc])
        (by simp) (by simp [Job.result, hpc])
    · exact hn.advance rfl rfl .rfl rfl rfl (job?_eq_some hj).1 rfl rfl (by simp [hpc])
        (after_ne_nested m .parse) (by simp [Job.result, hpc])
  | gather j err =>
    obtain ⟨job, hj, hs⟩ := Option.bind_eq_some_iff.1 hs
    obtain ⟨hpc, ⟨e, -, rfl⟩ | ⟨-, rfl⟩⟩ := endPhase_eq hs
    · exact hn.advance rfl rfl .rfl rfl rfl (job?_eq_some hj).1 rfl rfl (by simp [hpc])
        (by simp) (by simp [Job.result, hpc])
    · exact hn.advance rfl rfl .rfl rfl rfl (job?_eq_some hj).1 rfl rfl (by simp [hpc])
        (after_ne_nested m .gather) (by simp [Job.result, hpc])
  | execute j err =>
    obtain ⟨job, hj, hs⟩ := Option.bind_eq_some_iff.1 hs
    obtain ⟨hpc, ⟨e, -, rfl⟩ | ⟨-, rfl⟩⟩ := endPhase_eq hs
    · exact hn.advance rfl rfl .rfl rfl rfl (job?_eq_some hj).1 rfl rfl (by simp [hpc])
        (by simp) (by simp [Job.result, hpc])
    · exact hn.advance rfl rfl .rfl rfl rfl (job?_eq_some hj).1 rfl rfl (by simp [hpc])
        (after_ne_nested m .execute) (by simp [Job.result, hpc])
  | nest j a p h d =>
    obtain ⟨job, hj, hs⟩ := Option.bind_eq_some_iff.1 hs
    have hj := (job?_eq_some hj).1
    obtain ⟨hpc, m₁, h₁, rfl⟩ := nest_eq hs
    obtain ⟨cc, cs, hr, rfl⟩ := ask_eq h₁
    -- the discipline: a sequential request under the service's context, with the context
    -- derived from the job's for its unit
    simp only [allows, hj, Option.any_some, Bool.and_eq_true, Bool.not_eq_eq_eq_not,
      Bool.not_true] at ha
    obtain ⟨⟨rfl, hd⟩, hh⟩ := ha
    have hdl : d = .service := by cases d <;> simp_all [Deadline.isService]
    cases h with
    | derived c u =>
      simp only [Handle.derivedFor, Bool.and_eq_true, beq_iff_eq] at hh
      obtain ⟨rfl, rfl⟩ := hh
      have hlt := (hn.jobs j job hj).cc_lt
      simp only [Handle.resolve, List.getElem?_eq_getElem hlt, Option.map_some,
        Option.some.injEq, Prod.mk.injEq] at hr
      obtain ⟨rfl, rfl⟩ := hr
      let x : Context := { chain := job.name :: m.contexts[job.cc].chain }
      let m₂ : Machine := { m with contexts := m.contexts ++ [x] }
      have hjn := (hn.jobs j job hj).name_ne
      have h₂ : Nesting m₂ := hn.addContext rfl rfl rfl rfl rfl
        (fun h => absurd h (by simpa [x, Context.requester] using hjn))
      have hx : m₂.context m.contexts.length = x := by
        simp [m₂, Machine.context, List.getD_eq_getElem?_getD]
      have hjcc : m₂.context job.cc = m.contexts[job.cc] := by
        simp [m₂, Machine.context, List.getD_eq_getElem?_getD, List.getElem?_append_left hlt,
          List.getElem?_eq_getElem hlt]
      refine h₂.issue rfl rfl rfl rfl rfl hj hpc (by simp [m₂]) ?_ (Ask.unit_name_ne a m.counter)
        rfl hdl ?_ rfl
      · simp only [hx, hjcc, x]
      · simp [List.getD_eq_getElem?_getD, Context.requester, hjn]
    | fresh => simp [Handle.derivedFor] at hh
    | given c => simp [Handle.derivedFor] at hh
  | resume j =>
    obtain ⟨job, hj, hs⟩ := Option.bind_eq_some_iff.1 hs
    obtain ⟨r, q, err, hpc, hq, hdone, rfl⟩ := resume_eq hs
    refine hn.setJob rfl rfl .rfl rfl rfl (job?_eq_some hj).1 rfl rfl (by simp)
      (fun _ => by simp [Job.result, hpc]) ?_
    intro r' h
    rw [hpc] at h
    cases h
    exact ⟨q, hq, by simp [hdone, ReqPc.returned]⟩
  | finish j =>
    obtain ⟨job, hj, hs⟩ := Option.bind_eq_some_iff.1 hs
    obtain ⟨err, out, hpc, hreqs, hwaits, hctx, hcan, hjobs, -⟩ := finish_eq hs
    exact hn.advance hjobs hreqs (.of_contexts hctx) hcan hwaits (job?_eq_some hj).1 rfl rfl
      (by simp [hpc]) (by simp) (by simp [Job.result, hpc])
  | retire j =>
    obtain ⟨job, hj, hs⟩ := Option.bind_eq_some_iff.1 hs
    obtain ⟨err, hpc, rfl⟩ := retire_eq hs
    refine hn.setJob rfl rfl (sameChains_completeCtx job.cc err) rfl rfl (job?_eq_some hj).1
      rfl rfl (by simp) (fun h => by simp [Job.result] at h) ?_
    intro r h
    rw [hpc] at h
    cases h
  | join k =>
    obtain ⟨w, -, hs⟩ := Option.bind_eq_some_iff.1 hs
    obtain ⟨err, -, -, rfl⟩ := join_eq hs
    exact hn.frame rfl rfl rfl (sameChains_completeCtx w.cc err) rfl
  | drainStep d =>
    obtain ⟨pc, -, hs⟩ := Option.bind_eq_some_iff.1 hs
    obtain ⟨pc', rfl⟩ := drainStep_eq hs
    exact hn.frame rfl rfl rfl .rfl rfl

/-- The nesting holds in every state of a disciplined run. -/
theorem nesting_of_orderly (h : Orderly m) : Nesting m := by
  induction h with
  | init g e => exact Nesting.init g e
  | step a hm ha hs ih => exact ih.step (registry_of_reachable hm.reachable) ha hs

/-! ## Blocked jobs -/

/-- The job of unit `x` is blocked in a sequential request that waits, or is about to wait, for
the job of unit `y`. -/
def Blocked (m : Machine) (x y : String) : Prop :=
  ∃ (jx : Nat) (jobx : Job) (r : Nat) (q : Request) (jy : Nat) (joby : Job),
    m.jobs[jx]? = some jobx ∧ jobx.name = x ∧ jobx.pc = .nested r ∧
    m.reqs[r]? = some q ∧ q.parallel = false ∧ q.pc.awaited = some jy ∧
    m.jobs[jy]? = some joby ∧ joby.name = y

theorem Blocked.inProgress {x y : String} (h : Blocked m x y) : m.InProgress x := by
  obtain ⟨jx, jobx, r, q, -, -, hjx, hx, hpc, -⟩ := h
  exact ⟨jx, jobx, hjx, hx, by simp [Job.result, hpc]⟩

/-- A blocked job's wait is recorded: its request's requesting unit is the job's unit, its unit
is the awaited job's, and a sequential request that awaits a job has recorded its wait. -/
theorem Nesting.waitsOn_of_blocked (hn : Nesting m) {x y : String} (h : Blocked m x y) :
    WaitsOn m.waits x y := by
  obtain ⟨jx, jobx, r, q, jy, joby, hjx, rfl, hpc, hq, hpar, haw, hjy, rfl⟩ := h
  obtain ⟨q', hq', hchain⟩ := hn.nested jx jobx r hjx hpc
  rw [hq] at hq'
  cases hq'
  have hreq : m.requesterOf q = jobx.name := by simp [requesterOf, Context.requester, hchain]
  obtain ⟨job, hj, hname⟩ := hn.awaited r q jy hq haw
  rw [hjy] at hj
  cases hj
  have hw : q.waiting = true := (hn.reqs r q hq).awaits hpar (by simp [haw])
  have hwait : m.waitOf q = some (jobx.name, joby.name) := by
    simp [Machine.waitOf, hreq, hw, hname, (hn.jobs jx jobx hjx).name_ne]
  exact hn.waitOf_mem hq hwait

theorem beginWait_eq_none {waits : List (String × String)} {c : Context} {name : String}
    (hreq : c.requester ≠ "") (h : Relation.ReflTransGen (WaitsOn waits) name c.requester) :
    beginWait waits c name = none := by
  have htop : (c.requester == "") = false := by simpa using hreq
  unfold beginWait
  simp only [htop, Bool.false_eq_true, if_false, waitsReach_of_reflTransGen h, if_true]
  split <;> rfl

/-- A request about to complete its context completes it and returns: the context gets the
request's answer unless it already had one. -/
theorem run_complete_leave {r : Nat} {q : Request} {err : Option Failure}
    (hq : m.reqs[r]? = some q) (hpc : q.pc = .complete err) (hcc : q.cc < m.contexts.length) :
    ∃ m', m.run [.complete r, .leave r] = some m' ∧
      (∃ q', m'.reqs[r]? = some q' ∧ q'.pc = .done err) ∧
      m'.context q.cc = (m.context q.cc).complete err := by
  obtain ⟨m', hrun, hq', hctx⟩ := run_complete_leave_eq hq hpc
  refine ⟨m', hrun, ⟨_, hq', rfl⟩, ?_⟩
  rw [← context_completeCtx hcc]
  simp [Machine.context, hctx]

/-- A sequential request for an installed unit, or for a pending unit whose wait would close a
cycle, is answered under the lock without waiting. -/
theorem lock_answers (hreg : Registry m) {r : Nat} {q : Request} (hq : m.reqs[r]? = some q)
    (hlock : q.pc = .lock) (hpar : q.parallel = false)
    (hans : (m.compiled.lookup q.name).isSome ∨
      (m.pending.lookup q.name).isSome ∧ beginWait m.waits (m.context q.cc) q.name = none) :
    ∃ m₁, m.step (.lock r) = some m₁ ∧ m₁.reqs = m.reqs.set r { q with pc := .complete none } ∧
      m₁.contexts = m.contexts := by
  simp only [step, hq, Option.bind_some]
  unfold Machine.lock
  simp only [hlock]
  rcases hans with hc | ⟨hp, hb⟩
  · obtain ⟨f, hf⟩ := Option.isSome_iff_exists.1 hc
    simp [hf]
  · obtain ⟨j, hj⟩ := Option.isSome_iff_exists.1 hp
    have hc : m.compiled.lookup q.name = none := by
      rcases hreg.disjoint q.name with h | h
      · exact h
      · rw [h] at hj
        cases hj
    simp [hc, hj, hpar, hb]

/-- What the service guarantees against deadlock in a state: the waits graph has no cycle,
every blocked job has its wait recorded, the blocked jobs form no cycle, and a sequential
request that would close a cycle is answered at once, completing its context with no error and
returning no error in three steps of its own. -/
structure DeadlockFree (m : Machine) : Prop where
  waits_acyclic : Acyclic m.waits
  blocked_recorded : ∀ x y, Blocked m x y → (x, y) ∈ m.waits
  blocked_acyclic : ∀ u, ¬ Relation.TransGen (Blocked m) u u
  cycle_answered : ∀ (jx : Nat) (jobx : Job) (r : Nat) (q : Request),
    m.jobs[jx]? = some jobx → jobx.pc = .nested r → m.reqs[r]? = some q → q.pc = .lock →
    Relation.ReflTransGen (Blocked m) q.name jobx.name →
    ∃ m', m.run [.lock r, .complete r, .leave r] = some m' ∧
      (∃ q', m'.reqs[r]? = some q' ∧ q'.pc = .done none) ∧
      m'.context q.cc = (m.context q.cc).complete none

/-- No deadlock among compile-time executions in a disciplined run. -/
theorem deadlock_free_of_orderly (h : Orderly m) : DeadlockFree m := by
  have hn := nesting_of_orderly h
  have hreg := registry_of_reachable h.reachable
  have hacyc := acyclic_of_reachable h.reachable
  have hle : Blocked m ≤ WaitsOn m.waits := fun _ _ hb => hn.waitsOn_of_blocked hb
  refine ⟨hacyc, fun _ _ hb => hn.waitsOn_of_blocked hb,
    fun u hu => hacyc u (Relation.TransGen.mono hle u u hu), ?_⟩
  intro jx jobx r q hjx hpc hq hlock hcyc
  -- the request is the job's, so its requesting unit is the job's unit
  obtain ⟨q', hq', hchain⟩ := hn.nested jx jobx r hjx hpc
  rw [hq] at hq'
  cases hq'
  have hsound := hn.reqs r q hq
  have hreq : (m.context q.cc).requester = jobx.name := by simp [Context.requester, hchain]
  have hne : (m.context q.cc).requester ≠ "" := hreq ▸ (hn.jobs jx jobx hjx).name_ne
  have hpar : q.parallel = false := (hsound.nested hne).1
  -- the unit asked for has a job in progress: the requesting one, or one blocked on it
  have hprog : m.InProgress q.name := by
    rcases Relation.ReflTransGen.cases_head hcyc with h | ⟨c, hb, -⟩
    · exact ⟨jx, jobx, hjx, h.symm, by simp [Job.result, hpc]⟩
    · exact hb.inProgress
  obtain ⟨j, job, hj, hjn, hres⟩ := hprog
  have hp : (m.pending.lookup q.name).isSome := by
    rw [← hjn, hreg.pending_of_live hj hres]
    rfl
  have hb : beginWait m.waits (m.context q.cc) q.name = none :=
    beginWait_eq_none hne (hreq ▸ Relation.ReflTransGen.mono hle _ _ hcyc)
  obtain ⟨m₁, h₁, hreqs₁, hctx₁⟩ := lock_answers hreg hq hlock hpar (.inr ⟨hp, hb⟩)
  have hlt : r < m.reqs.length := (List.getElem?_eq_some_iff.1 hq).1
  have hq₁ : m₁.reqs[r]? = some { q with pc := .complete none } := by
    rw [hreqs₁, List.getElem?_set_self hlt]
  obtain ⟨m', hrun, hdone, hctx⟩ :=
    run_complete_leave hq₁ rfl (by rw [hctx₁]; exact hsound.cc_lt)
  refine ⟨m', by simp [run, h₁] at hrun ⊢; exact hrun, hdone, ?_⟩
  rw [hctx]
  simp [Machine.context, hctx₁]

/-- A text's compile-time execution asks for a second text, under the context derived for its
unit: the second unit is registered and the first unit's job is blocked on it. -/
def nestedText : List Action :=
  [.ask (.source "const a = import(b)") false .fresh .service,
   .enter 0, .lock 0, .spawn 0, .check 0, .parse 0 (.ok (emptyTree "<source#1>")),
   .check 0, .nest 0 (.source "b") false (.derived 0 "<source#1>") .service,
   .lock 1, .spawn 1]

theorem deadlock_free_of_orderly_nestedText :
    ∃ m, (init false true).runOrderly nestedText = some m ∧ DeadlockFree m := by
  obtain ⟨m, hm⟩ : ∃ m, (init false true).runOrderly nestedText = some m :=
    Option.isSome_iff_exists.1 (by decide)
  exact ⟨m, hm, deadlock_free_of_orderly ((Orderly.init false true).runOrderly hm)⟩

end Machine

end Abla
