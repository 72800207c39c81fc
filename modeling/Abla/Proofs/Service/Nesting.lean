import Abla.Proofs.Service.Registry
import Abla.Proofs.Service.Waits

/-!
# How nested requests hang together

Compile-time execution asks the service for other units while its own job runs: the builtins
that do so make a sequential request under the service's context, with a compilation context
derived from their job's for their own unit. `Nesting` says what ties the requests and the jobs
together while that holds and the service is not cancelled:

* a job blocked in a request is the request's requesting unit, and the request's chain of
  requesting units extends the chain of the job's own context by that unit;
* a nested request that has not returned has its requesting unit's job blocked in it;
* a job in progress whose context is not a top-level one is awaited by the request that
  registered it;
* `waits` holds, as a multiset, exactly the waits of the requests that recorded one.

One lemma per kind of update says what the update must keep for the nesting to survive
(`Nesting.move`, `Nesting.setReq`, `Nesting.setJob`, `Nesting.register`, `Nesting.issue`, ...).
Along the way, every unit along the chain of a job in progress has a job in progress
(`Nesting.chain_inProgress`), so a request that registers a new unit never finds it in its own
chain nor waited on by anyone, and its `beginWait` always records the wait
(`Nesting.beginWait_new`).
-/

namespace Abla

theorem Path.clean_ne_empty (p : String) : Path.clean p ≠ "" := by
  unfold Path.clean
  dsimp only
  split
  · intro h
    have := congrArg String.length h
    simp at this
  · split
    · decide
    · assumption

namespace Machine

theorem Ask.unit_name_ne (a : Ask) (n : Nat) : (a.unit n).1 ≠ "" := by
  cases a with
  | file path => exact Path.clean_ne_empty path
  | source text => intro h; have := congrArg String.length h; simp [Ask.unit] at this
  | stream text cut => intro h; have := congrArg String.length h; simp [Ask.unit] at this

variable {m m' : Machine}

/-! ## Requests, their waits and their jobs -/

/-- The job a request waits for, or is about to wait for once it has started it. -/
def ReqPc.awaited : ReqPc → Option Nat
  | .spawn j => some j
  | .wait j _ => some j
  | _ => none

/-- Whether a request has returned. -/
def ReqPc.returned : ReqPc → Bool
  | .done _ => true
  | _ => false

/-- Whether a request has yet to take its unit's named lock. -/
def ReqPc.beforeLock : ReqPc → Bool
  | .enter => true
  | .lock => true
  | _ => false

theorem ReqPc.returned_of_awaited {pc : ReqPc} {j : Nat} (h : pc.awaited = some j) :
    pc.returned = false := by
  cases pc <;> simp_all [awaited, returned]

/-- The unit whose execution made request `q`; `""` for a top-level request. -/
def requesterOf (m : Machine) (q : Request) : String := (m.context q.cc).requester

/-- The wait that request `q` has recorded: its requesting unit on its own unit. -/
def waitOf (m : Machine) (q : Request) : Option (String × String) :=
  if q.waiting = true ∧ m.requesterOf q ≠ "" then some (m.requesterOf q, q.name) else none

theorem waitOf_eq_some {q : Request} {p : String × String} :
    m.waitOf q = some p ↔
      q.waiting = true ∧ m.requesterOf q ≠ "" ∧ p = (m.requesterOf q, q.name) := by
  unfold waitOf
  split
  · rename_i h
    simp [h, eq_comm]
  · rename_i h
    simp only [reduceCtorEq, false_iff, not_and]
    intro hw hr
    exact absurd ⟨hw, hr⟩ h

@[simp] theorem Context.default_chain : (default : Context).chain = [] := rfl

/-- Unit `u` has a job in progress. -/
def InProgress (m : Machine) (u : String) : Prop :=
  ∃ (j : Nat) (job : Job), m.jobs[j]? = some job ∧ job.name = u ∧ job.result = none

/-- What a request keeps by itself: its context exists, it names a unit, a nested request is
sequential and waits under the service's context, it records a wait only once it holds or has
held its unit's lock and until it returns, and a sequential request waiting for a job has
recorded its wait. -/
structure ReqSound (m : Machine) (q : Request) : Prop where
  cc_lt : q.cc < m.contexts.length
  name_ne : q.name ≠ ""
  nested : m.requesterOf q ≠ "" → q.parallel = false ∧ q.deadline = .service
  idle : q.pc.beforeLock = true → q.waiting = false
  live : q.waiting = true → q.pc.returned = false
  awaits : q.parallel = false → q.pc.awaited.isSome → q.waiting = true

/-- What a job keeps by itself: its context exists and it names a unit. -/
structure JobSound (m : Machine) (job : Job) : Prop where
  cc_lt : job.cc < m.contexts.length
  name_ne : job.name ≠ ""

/-- How the requests and the jobs of a disciplined run hang together. -/
structure Nesting (m : Machine) : Prop where
  not_cancelled : m.cancelled = false
  /-- The chain of a top-level context holds no unit. -/
  top : ∀ c : Nat, (m.context c).requester = "" → ∀ u ∈ (m.context c).chain, u = ""
  reqs : ∀ (r : Nat) (q : Request), m.reqs[r]? = some q → m.ReqSound q
  jobs : ∀ (j : Nat) (job : Job), m.jobs[j]? = some job → m.JobSound job
  /-- A request waits for a job of its own unit. -/
  awaited : ∀ (r : Nat) (q : Request) (j : Nat), m.reqs[r]? = some q →
    q.pc.awaited = some j → ∃ job : Job, m.jobs[j]? = some job ∧ job.name = q.name
  /-- A job blocked in a request made it, under a context derived from its own for its unit. -/
  nested : ∀ (j : Nat) (job : Job) (r : Nat), m.jobs[j]? = some job → job.pc = .nested r →
    ∃ q : Request, m.reqs[r]? = some q ∧
      (m.context q.cc).chain = job.name :: (m.context job.cc).chain
  /-- A nested request that has not returned has its requesting unit's job blocked in it. -/
  issuer : ∀ (r : Nat) (q : Request), m.reqs[r]? = some q → m.requesterOf q ≠ "" →
    q.pc.returned = false →
    ∃ (j : Nat) (job : Job), m.jobs[j]? = some job ∧ job.pc = .nested r ∧
      job.name = m.requesterOf q
  /-- A job in progress under a nested context is awaited by the request that registered it. -/
  registrar : ∀ (j : Nat) (job : Job), m.jobs[j]? = some job → job.result = none →
    (m.context job.cc).requester ≠ "" →
    ∃ (r : Nat) (q : Request), m.reqs[r]? = some q ∧ q.cc = job.cc ∧ q.pc.awaited = some j
  /-- `waits` is the multiset of the recorded waits. -/
  waits : ∀ p : String × String, m.waits.count p = (m.reqs.map m.waitOf).count (some p)

theorem Nesting.init (gathers executes : Bool) : Nesting (init gathers executes) where
  not_cancelled := rfl
  top := by simp [Machine.init, context]
  reqs := by simp [Machine.init]
  jobs := by simp [Machine.init]
  awaited := by simp [Machine.init]
  nested := by simp [Machine.init]
  issuer := by simp [Machine.init]
  registrar := by simp [Machine.init]
  waits := by simp [Machine.init]

/-! ## Updates that keep the chains of the contexts -/

theorem getElem?_set_eq_ite {α : Type} {l : List α} {i k : Nat} {b : α} (hi : i < l.length) :
    (l.set i b)[k]? = if k = i then some b else l[k]? := by
  rw [List.getElem?_set]
  by_cases h : i = k
  · subst h
    simp [hi]
  · simp [h, Ne.symm h]

/-- Two states whose contexts have the same chains of requesting units. -/
def SameChains (m m' : Machine) : Prop :=
  m'.contexts.map Context.chain = m.contexts.map Context.chain

theorem SameChains.rfl : SameChains m m := Eq.refl _

theorem SameChains.context (h : SameChains m m') (c : Nat) :
    (m'.context c).chain = (m.context c).chain := by
  have hc := congrArg (·[c]?) h
  simp only [List.getElem?_map] at hc
  unfold Machine.context
  rw [List.getD_eq_getElem?_getD, List.getD_eq_getElem?_getD]
  cases h₁ : m'.contexts[c]? <;> cases h₂ : m.contexts[c]? <;> simp_all

theorem SameChains.requester (h : SameChains m m') (c : Nat) :
    (m'.context c).requester = (m.context c).requester := by
  simp [Context.requester, h.context]

theorem SameChains.length (h : SameChains m m') : m'.contexts.length = m.contexts.length := by
  simpa using congrArg List.length h

theorem SameChains.requesterOf (h : SameChains m m') (q : Request) :
    m'.requesterOf q = m.requesterOf q :=
  h.requester q.cc

theorem SameChains.waitOf (h : SameChains m m') : m'.waitOf = m.waitOf := by
  funext q
  simp [Machine.waitOf, h.requesterOf]

theorem sameChains_completeCtx (c : Nat) (err : Option Failure) :
    SameChains m (m.completeCtx c err) := by
  apply List.ext_getElem?
  intro i
  simp only [completeCtx_contexts, List.getElem?_map, List.getElem?_modify]
  cases m.contexts[i]? <;> simp
  split <;> simp

theorem ReqSound.of_chains {q : Request} (h : SameChains m m') (hq : m.ReqSound q) :
    m'.ReqSound q where
  cc_lt := h.length ▸ hq.cc_lt
  name_ne := hq.name_ne
  nested := h.requesterOf q ▸ hq.nested
  idle := hq.idle
  live := hq.live
  awaits := hq.awaits

theorem JobSound.of_chains {job : Job} (h : SameChains m m') (hj : m.JobSound job) :
    m'.JobSound job :=
  ⟨h.length ▸ hj.cc_lt, hj.name_ne⟩

theorem SameChains.of_contexts (h : m'.contexts = m.contexts) : SameChains m m' := by
  simp [SameChains, h]

/-- A job as the nesting of requests sees it: its unit, its context and where it is. -/
def Job.view (job : Job) : String × Nat × JobPc := (job.name, job.cc, job.pc)

theorem Job.result_eq_of_pc {a b : Job} (h : a.pc = b.pc) : a.result = b.result := by
  simp [Job.result, h]

theorem view_getElem? {l l' : List Job} {j : Nat} {job' : Job}
    (h : l'.map Job.view = l.map Job.view) (hj : l'[j]? = some job') :
    ∃ job, l[j]? = some job ∧ job.name = job'.name ∧ job.cc = job'.cc ∧ job.pc = job'.pc := by
  have hv := congrArg (·[j]?) h
  simp only [List.getElem?_map, hj, Option.map_some] at hv
  cases hl : l[j]? with
  | none => simp [hl] at hv
  | some job =>
    simp only [hl, Option.map_some, Option.some.injEq, Job.view, Prod.mk.injEq] at hv
    exact ⟨job, rfl, hv.1.symm, hv.2.1.symm, hv.2.2.symm⟩

/-- The nesting survives a step that moves no request and no job. -/
theorem Nesting.frame (hn : Nesting m) (hreqs : m'.reqs = m.reqs)
    (hjobs : m'.jobs.map Job.view = m.jobs.map Job.view) (hwaits : m'.waits = m.waits)
    (hch : SameChains m m') (hcan : m'.cancelled = m.cancelled) : Nesting m' where
  not_cancelled := hcan.trans hn.not_cancelled
  top c hc u hu := hn.top c (by rwa [hch.requester] at hc) u (by rwa [hch.context] at hu)
  reqs r q hq := (hn.reqs r q (hreqs ▸ hq)).of_chains hch
  jobs j job hj := by
    obtain ⟨job₀, hj₀, hname, hcc, -⟩ := view_getElem? hjobs hj
    have h₀ := (hn.jobs j job₀ hj₀).of_chains hch
    exact ⟨hcc ▸ h₀.cc_lt, hname ▸ h₀.name_ne⟩
  awaited r q j hq haw := by
    obtain ⟨job, hj, hname⟩ := hn.awaited r q j (hreqs ▸ hq) haw
    obtain ⟨job', hj', hname', -, -⟩ := view_getElem? hjobs.symm hj
    exact ⟨job', hj', hname'.trans hname⟩
  nested j job r hj hpc := by
    obtain ⟨job₀, hj₀, hname, hcc, hpc₀⟩ := view_getElem? hjobs hj
    obtain ⟨q, hq, hchain⟩ := hn.nested j job₀ r hj₀ (hpc₀.trans hpc)
    refine ⟨q, hreqs ▸ hq, ?_⟩
    rw [hch.context, hch.context, hchain, hname, hcc]
  issuer r q hq hreq hret := by
    rw [hch.requesterOf] at hreq ⊢
    obtain ⟨j, job, hj, hpc, hname⟩ := hn.issuer r q (hreqs ▸ hq) hreq hret
    obtain ⟨job', hj', hname', -, hpc'⟩ := view_getElem? hjobs.symm hj
    exact ⟨j, job', hj', hpc'.trans hpc, hname'.trans hname⟩
  registrar j job hj hres hreq := by
    obtain ⟨job₀, hj₀, -, hcc, hpc₀⟩ := view_getElem? hjobs hj
    rw [hch.requester, ← hcc] at hreq
    obtain ⟨r, q, hq, hqcc, haw⟩ :=
      hn.registrar j job₀ hj₀ ((Job.result_eq_of_pc hpc₀).trans hres) hreq
    exact ⟨r, q, hreqs ▸ hq, hqcc.trans hcc, haw⟩
  waits p := by
    rw [hwaits, hreqs, hch.waitOf]
    exact hn.waits p

/-- Replacing one request changes the count of a wait by what the two requests record. -/
theorem count_map_set (f : Request → Option (String × String)) {l : List Request} {r : Nat}
    {q : Request} (q' : Request) (hq : l[r]? = some q) (p : String × String) :
    ((l.set r q').map f).count (some p) + (if f q = some p then 1 else 0) =
      (l.map f).count (some p) + (if f q' = some p then 1 else 0) := by
  have hlt : r < l.length := (List.getElem?_eq_some_iff.1 hq).1
  have hmem : f q ∈ l.map f := List.mem_map_of_mem (List.mem_of_getElem? hq)
  have hle : (if f q = some p then 1 else 0) ≤ (l.map f).count (some p) := by
    split
    · rename_i h
      rw [h] at hmem
      exact List.count_pos_iff.2 hmem
    · exact Nat.zero_le _
  have hlt' : r < (l.map f).length := by simpa using hlt
  have hget : (l.map f)[r] = f q := by
    simp [(List.getElem?_eq_some_iff.1 hq).2]
  have hset := List.count_set (a := f q') (b := some p) hlt'
  rw [hget] at hset
  rw [List.map_set, hset]
  simp only [beq_iff_eq]
  omega

/-- The nesting survives moving one request, given what the move keeps. -/
theorem Nesting.setReq (hn : Nesting m) {r : Nat} {q q' : Request}
    (hreqs : m'.reqs = m.reqs.set r q') (hjobs : m'.jobs = m.jobs)
    (hch : SameChains m m') (hcan : m'.cancelled = m.cancelled)
    (hq : m.reqs[r]? = some q) (hname : q'.name = q.name) (hcc : q'.cc = q.cc)
    (hsound : m.ReqSound q')
    (hawait : ∀ j, q'.pc.awaited = some j → ∃ job, m.jobs[j]? = some job ∧ job.name = q.name)
    (hret : q'.pc.returned = false → q.pc.returned = false)
    (hreg : ∀ j, q.pc.awaited = some j → m.requesterOf q ≠ "" →
      (∃ job, m.jobs[j]? = some job ∧ job.result = none) → q'.pc.awaited = some j)
    (hwaits : ∀ p, m'.waits.count p + (if m.waitOf q = some p then 1 else 0) =
      m.waits.count p + (if m.waitOf q' = some p then 1 else 0)) :
    Nesting m' := by
  have hlt : r < m.reqs.length := (List.getElem?_eq_some_iff.1 hq).1
  have hreq : m.requesterOf q' = m.requesterOf q := by simp [requesterOf, hcc]
  refine ⟨hcan.trans hn.not_cancelled, ?_, ?_, ?_, ?_, ?_, ?_, ?_, ?_⟩
  · intro c hc u hu
    rw [hch.requester] at hc
    rw [hch.context] at hu
    exact hn.top c hc u hu
  · intro r' x hx
    rw [hreqs, getElem?_set_eq_ite hlt] at hx
    split at hx
    · cases hx
      exact hsound.of_chains hch
    · exact (hn.reqs r' x hx).of_chains hch
  · intro j job hj
    rw [hjobs] at hj
    exact (hn.jobs j job hj).of_chains hch
  · intro r' x j hx haw
    rw [hreqs, getElem?_set_eq_ite hlt] at hx
    rw [hjobs]
    split at hx
    · cases hx
      obtain ⟨job, hj, hjn⟩ := hawait j haw
      exact ⟨job, hj, hjn.trans hname.symm⟩
    · exact hn.awaited r' x j hx haw
  · intro j job r₀ hj hpc
    rw [hjobs] at hj
    obtain ⟨q₀, hq₀, hchain⟩ := hn.nested j job r₀ hj hpc
    simp only [hreqs, getElem?_set_eq_ite hlt, hch.context]
    by_cases h₀ : r₀ = r
    · subst h₀
      rw [hq] at hq₀
      cases hq₀
      exact ⟨q', by simp, by rw [hcc, hchain]⟩
    · exact ⟨q₀, by simp [h₀, hq₀], hchain⟩
  · intro r' x hx hx₁ hx₂
    rw [hreqs, getElem?_set_eq_ite hlt] at hx
    rw [hch.requesterOf] at hx₁ ⊢
    rw [hjobs]
    split at hx
    · rename_i h
      subst h
      cases hx
      rw [hreq] at hx₁ ⊢
      exact hn.issuer r' q hq hx₁ (hret hx₂)
    · exact hn.issuer r' x hx hx₁ hx₂
  · intro j job hj hres hjreq
    rw [hjobs] at hj
    rw [hch.requester] at hjreq
    obtain ⟨r₀, q₀, hq₀, hcc₀, haw₀⟩ := hn.registrar j job hj hres hjreq
    simp only [hreqs, getElem?_set_eq_ite hlt]
    by_cases h₀ : r₀ = r
    · subst h₀
      rw [hq] at hq₀
      cases hq₀
      have hq₁ : m.requesterOf q ≠ "" := by simpa [requesterOf, hcc₀] using hjreq
      exact ⟨r₀, q', by simp, hcc.trans hcc₀, hreg j haw₀ hq₁ ⟨job, hj, hres⟩⟩
    · exact ⟨r₀, q₀, by simp [h₀, hq₀], hcc₀, haw₀⟩
  · intro p
    have := count_map_set m.waitOf q' hq p
    have := hwaits p
    have := hn.waits p
    rw [hreqs, hch.waitOf]
    omega

/-- The nesting survives moving one job, given what the move keeps. -/
theorem Nesting.setJob (hn : Nesting m) {j : Nat} {job job' : Job}
    (hjobs : m'.jobs = m.jobs.set j job') (hreqs : m'.reqs = m.reqs)
    (hch : SameChains m m') (hcan : m'.cancelled = m.cancelled)
    (hwaits : m'.waits = m.waits)
    (hj : m.jobs[j]? = some job) (hname : job'.name = job.name) (hcc : job'.cc = job.cc)
    (hnest : ∀ r, job'.pc ≠ .nested r) (hres : job'.result = none → job.result = none)
    (hissued : ∀ r, job.pc = .nested r → ∃ q, m.reqs[r]? = some q ∧ q.pc.returned = true) :
    Nesting m' := by
  have hlt : j < m.jobs.length := (List.getElem?_eq_some_iff.1 hj).1
  refine ⟨hcan.trans hn.not_cancelled, ?_, ?_, ?_, ?_, ?_, ?_, ?_, ?_⟩
  · intro c hc u hu
    rw [hch.requester] at hc
    rw [hch.context] at hu
    exact hn.top c hc u hu
  · intro r q hq
    rw [hreqs] at hq
    exact (hn.reqs r q hq).of_chains hch
  · intro j' x hx
    rw [hjobs, getElem?_set_eq_ite hlt] at hx
    split at hx
    · cases hx
      have h := (hn.jobs j job hj).of_chains hch
      exact ⟨hcc ▸ h.cc_lt, hname ▸ h.name_ne⟩
    · exact (hn.jobs j' x hx).of_chains hch
  · intro r q j₀ hq haw
    rw [hreqs] at hq
    obtain ⟨job₀, hj₀, hjn⟩ := hn.awaited r q j₀ hq haw
    simp only [hjobs, getElem?_set_eq_ite hlt]
    by_cases h₀ : j₀ = j
    · subst h₀
      rw [hj] at hj₀
      cases hj₀
      exact ⟨job', by simp, hname.trans hjn⟩
    · exact ⟨job₀, by simp [h₀, hj₀], hjn⟩
  · intro j' x r hx hpc
    rw [hjobs, getElem?_set_eq_ite hlt] at hx
    simp only [hreqs, hch.context]
    split at hx
    · cases hx
      exact absurd hpc (hnest r)
    · exact hn.nested j' x r hx hpc
  · intro r q hq hreq hret
    rw [hreqs] at hq
    rw [hch.requesterOf] at hreq ⊢
    obtain ⟨j₀, job₀, hj₀, hpc₀, hjn⟩ := hn.issuer r q hq hreq hret
    simp only [hjobs, getElem?_set_eq_ite hlt]
    by_cases h₀ : j₀ = j
    · subst h₀
      rw [hj] at hj₀
      cases hj₀
      obtain ⟨q₀, hq₀, hdone⟩ := hissued r hpc₀
      rw [hq] at hq₀
      cases hq₀
      rw [hret] at hdone
      cases hdone
    · exact ⟨j₀, job₀, by simp [h₀, hj₀], hpc₀, hjn⟩
  · intro j' x hx hres' hreq
    rw [hjobs, getElem?_set_eq_ite hlt] at hx
    rw [hch.requester] at hreq
    rw [hreqs]
    split at hx
    · rename_i h
      subst h
      cases hx
      rw [hcc] at hreq ⊢
      exact hn.registrar j' job hj (hres hres') hreq
    · exact hn.registrar j' x hx hres' hreq
  · intro p
    rw [hwaits, hreqs, hch.waitOf]
    exact hn.waits p

/-! ## Chains of requesting units and the waits -/

/-- Every unit along the chain of a job in progress has a job in progress: by induction on the
chain, the request that registered the job is nested, so its requesting unit's job is blocked
in it, and that job's chain is the rest. -/
theorem Nesting.chain_inProgress (hn : Nesting m) : ∀ (n j : Nat) (job : Job),
    m.jobs[j]? = some job → job.result = none → (m.context job.cc).chain.length = n →
    ∀ u ∈ (m.context job.cc).chain, u = "" ∨ m.InProgress u := by
  intro n
  induction n with
  | zero =>
    intro j job _ _ hlen u hu
    simp [List.length_eq_zero_iff.1 hlen] at hu
  | succ n ih =>
    intro j job hj hres hlen u hu
    by_cases htop : (m.context job.cc).requester = ""
    · exact .inl (hn.top _ htop u hu)
    · obtain ⟨r, q, hq, hcc, haw⟩ := hn.registrar j job hj hres htop
      have hreq : m.requesterOf q ≠ "" := by simpa [requesterOf, hcc] using htop
      obtain ⟨jw, jobw, hjw, hpcw, -⟩ :=
        hn.issuer r q hq hreq (ReqPc.returned_of_awaited haw)
      obtain ⟨q', hq', hchain⟩ := hn.nested jw jobw r hjw hpcw
      rw [hq] at hq'
      cases hq'
      rw [hcc] at hchain
      have hresw : jobw.result = none := by simp [Job.result, hpcw]
      rw [hchain] at hu hlen
      rcases List.mem_cons.1 hu with rfl | hu
      · exact .inr ⟨jw, jobw, hjw, rfl, hresw⟩
      · exact ih jw jobw hjw hresw (by simpa using hlen) u hu

theorem Nesting.mem_chain (hn : Nesting m) {j : Nat} {job : Job} {u : String}
    (hj : m.jobs[j]? = some job) (hres : job.result = none)
    (hu : u ∈ (m.context job.cc).chain) : u = "" ∨ m.InProgress u :=
  hn.chain_inProgress _ j job hj hres rfl u hu

theorem Nesting.mem_waits (hn : Nesting m) {p : String × String} (hp : p ∈ m.waits) :
    ∃ (r : Nat) (q : Request), m.reqs[r]? = some q ∧ m.waitOf q = some p := by
  have hpos : 0 < (m.reqs.map m.waitOf).count (some p) := by
    rw [← hn.waits p]
    exact List.count_pos_iff.2 hp
  obtain ⟨q, hq, hw⟩ := List.mem_map.1 (List.count_pos_iff.1 hpos)
  obtain ⟨r, hr⟩ := List.mem_iff_getElem?.1 hq
  exact ⟨r, q, hr, hw⟩

theorem Nesting.waitOf_mem (hn : Nesting m) {r : Nat} {q : Request} {p : String × String}
    (hq : m.reqs[r]? = some q) (hw : m.waitOf q = some p) : p ∈ m.waits := by
  rw [← List.count_pos_iff, hn.waits p, List.count_pos_iff, ← hw]
  exact List.mem_map_of_mem (List.mem_of_getElem? hq)

/-- A unit that waits on another has a job in progress, blocked in the request that waits. -/
theorem Nesting.inProgress_of_waitsOn (hn : Nesting m) {x y : String}
    (h : WaitsOn m.waits x y) : m.InProgress x := by
  obtain ⟨r, q, hq, hw⟩ := hn.mem_waits h
  obtain ⟨hwait, hreq, hp⟩ := waitOf_eq_some.1 hw
  obtain ⟨j, job, hj, hpc, hname⟩ :=
    hn.issuer r q hq hreq ((hn.reqs r q hq).live hwait)
  exact ⟨j, job, hj, hname.trans (Prod.mk.inj hp).1.symm, by simp [Job.result, hpc]⟩

/-- What `beginWait` records: nothing for a top-level request, one pair otherwise. -/
theorem beginWait_eq_some {waits w : List (String × String)} {c : Context} {name : String}
    (h : beginWait waits c name = some w) :
    c.requester = "" ∧ w = waits ∨ c.requester ≠ "" ∧ w = waits ++ [(c.requester, name)] := by
  unfold beginWait at h
  split at h
  · rename_i htop
    cases h
    exact .inl ⟨by simpa using htop, rfl⟩
  · rename_i htop
    split at h
    · cases h
    · split at h
      · cases h
      · cases h
        exact .inr ⟨by simpa using htop, rfl⟩

/-- A nested request that registers a new unit records its wait: the unit has no job in
progress, so it is not along the request's chain, whose units all have one, and nobody waits
on it, since only units with a job in progress wait. -/
theorem Nesting.beginWait_new (hn : Nesting m) (hreg : Registry m) {r : Nat} {q : Request}
    (hq : m.reqs[r]? = some q) (hlock : q.pc = .lock) (hnew : m.pending.lookup q.name = none)
    (hreq : m.requesterOf q ≠ "") :
    beginWait m.waits (m.context q.cc) q.name =
      some (m.waits ++ [(m.requesterOf q, q.name)]) := by
  obtain ⟨jx, jobx, hjx, hpcx, hnamex⟩ :=
    hn.issuer r q hq hreq (by simp [hlock, ReqPc.returned])
  obtain ⟨q', hq', hchain⟩ := hn.nested jx jobx r hjx hpcx
  rw [hq] at hq'
  cases hq'
  have hresx : jobx.result = none := by simp [Job.result, hpcx]
  have hfree : ¬ m.InProgress q.name := by
    rintro ⟨j, job, hj, hname, hres⟩
    have hp := hreg.pending_of_live hj hres
    rw [hname, hnew] at hp
    cases hp
  have hne : q.name ≠ m.requesterOf q := fun h =>
    hfree ⟨jx, jobx, hjx, hnamex.trans h.symm, hresx⟩
  have hnot : q.name ∉ (m.context q.cc).chain := by
    intro h
    rw [hchain, List.mem_cons] at h
    rcases h with h | h
    · exact hne (h.trans hnamex)
    · rcases hn.mem_chain hjx hresx h with h | h
      · exact (hn.reqs r q hq).name_ne h
      · exact hfree h
  have hreach : waitsReach m.waits q.name (m.requesterOf q) = false :=
    waitsReach_of_not_waiting hne fun y hy => hfree (hn.inProgress_of_waitsOn hy)
  unfold beginWait
  have htop : ((m.context q.cc).requester == "") = false := by simpa [requesterOf] using hreq
  simp only [htop, Context.requestedBy, List.contains_iff_mem, hnot,
    Bool.false_eq_true, if_false]
  rw [show (m.context q.cc).requester = m.requesterOf q from rfl, hreach]
  rfl

/-! ## New contexts and new requests -/

theorem getElem?_concat_cases {α : Type} {l : List α} {a x : α} {i : Nat}
    (h : (l ++ [a])[i]? = some x) : l[i]? = some x ∨ i = l.length ∧ x = a := by
  by_cases hi : i < l.length
  · rw [List.getElem?_append_left hi] at h
    exact .inl h
  · rw [List.getElem?_append_right (by omega)] at h
    have h0 : i - l.length = 0 := by
      cases hk : i - l.length with
      | zero => rfl
      | succ k =>
        rw [hk] at h
        simp at h
    rw [h0] at h
    exact .inr ⟨by omega, (Option.some.inj h).symm⟩

theorem getElem?_append_of_getElem? {α : Type} {l l' : List α} {x : α} {i : Nat}
    (h : l[i]? = some x) : (l ++ l')[i]? = some x := by
  rw [List.getElem?_append_left (List.getElem?_eq_some_iff.1 h).1, h]

theorem ReqPc.awaited_of_beforeLock {pc : ReqPc} (h : pc.beforeLock = true) : pc.awaited = none := by
  cases pc <;> simp_all [beforeLock, awaited]

/-- The old contexts of a state whose contexts were extended. -/
structure Grows (m m' : Machine) : Prop where
  length : m.contexts.length ≤ m'.contexts.length
  context : ∀ c < m.contexts.length, m'.context c = m.context c

theorem Grows.append {x : Context} (hctx : m'.contexts = m.contexts ++ [x]) : Grows m m' where
  length := by simp [hctx]
  context c hc := by
    simp [Machine.context, hctx, List.getD_eq_getElem?_getD, List.getElem?_append_left hc]

theorem ReqSound.of_grows {q : Request} (h : Grows m m') (hq : m.ReqSound q) : m'.ReqSound q where
  cc_lt := Nat.lt_of_lt_of_le hq.cc_lt h.length
  name_ne := hq.name_ne
  nested := by
    unfold requesterOf
    rw [h.context _ hq.cc_lt]
    exact hq.nested
  idle := hq.idle
  live := hq.live
  awaits := hq.awaits

theorem JobSound.of_grows {job : Job} (h : Grows m m') (hj : m.JobSound job) : m'.JobSound job :=
  ⟨Nat.lt_of_lt_of_le hj.cc_lt h.length, hj.name_ne⟩

/-- The nesting survives a new context that no request uses yet, provided a context without a
requesting unit has no unit in its chain. -/
theorem Nesting.addContext (hn : Nesting m) {x : Context}
    (hctx : m'.contexts = m.contexts ++ [x]) (hreqs : m'.reqs = m.reqs) (hjobs : m'.jobs = m.jobs)
    (hwaits : m'.waits = m.waits) (hcan : m'.cancelled = m.cancelled)
    (hx : x.requester = "" → ∀ u ∈ x.chain, u = "") : Nesting m' := by
  have hg : Grows m m' := .append hctx
  have hreq : ∀ r q, m.reqs[r]? = some q → m'.requesterOf q = m.requesterOf q :=
    fun r q hq => by unfold requesterOf; rw [hg.context _ (hn.reqs r q hq).cc_lt]
  refine ⟨hcan.trans hn.not_cancelled, ?_, ?_, ?_, ?_, ?_, ?_, ?_, ?_⟩
  · intro c hc u hu
    rcases Nat.lt_trichotomy c m.contexts.length with hlt | rfl | hgt
    · rw [hg.context c hlt] at hc hu
      exact hn.top c hc u hu
    · simp [Machine.context, hctx, List.getD_eq_getElem?_getD] at hc hu
      exact hx hc u hu
    · simp [Machine.context, hctx, List.getD_eq_getElem?_getD,
        List.getElem?_eq_none (by simp; omega : (m.contexts ++ [x]).length ≤ c)] at hu
  · intro r q hq
    rw [hreqs] at hq
    exact (hn.reqs r q hq).of_grows hg
  · intro j job hj
    rw [hjobs] at hj
    exact (hn.jobs j job hj).of_grows hg
  · intro r q j hq haw
    rw [hreqs] at hq
    rw [hjobs]
    exact hn.awaited r q j hq haw
  · intro j job r hj hpc
    rw [hjobs] at hj
    obtain ⟨q, hq, hchain⟩ := hn.nested j job r hj hpc
    refine ⟨q, hreqs ▸ hq, ?_⟩
    rw [hg.context _ (hn.reqs r q hq).cc_lt, hg.context _ (hn.jobs j job hj).cc_lt, hchain]
  · intro r q hq hq₁ hq₂
    rw [hreqs] at hq
    rw [hreq r q hq] at hq₁ ⊢
    rw [hjobs]
    exact hn.issuer r q hq hq₁ hq₂
  · intro j job hj hres hjreq
    rw [hjobs] at hj
    rw [hg.context _ (hn.jobs j job hj).cc_lt] at hjreq
    rw [hreqs]
    exact hn.registrar j job hj hres hjreq
  · intro p
    rw [hwaits, hreqs, hn.waits p]
    congr 1
    apply List.map_congr_left
    intro q hq
    obtain ⟨r, hr⟩ := List.mem_iff_getElem?.1 hq
    simp [Machine.waitOf, hreq r q hr]

/-- The nesting survives a new top-level request that has yet to register. -/
theorem Nesting.addRequest (hn : Nesting m) {q : Request}
    (hreqs : m'.reqs = m.reqs ++ [q]) (hjobs : m'.jobs = m.jobs)
    (hctx : m'.contexts = m.contexts) (hwaits : m'.waits = m.waits)
    (hcan : m'.cancelled = m.cancelled) (hcc : q.cc < m.contexts.length) (hname : q.name ≠ "")
    (htop : m.requesterOf q = "") (hpc : q.pc.beforeLock = true) (hw : q.waiting = false) :
    Nesting m' := by
  have hch : SameChains m m' := .of_contexts hctx
  have hnone : q.pc.awaited = none := ReqPc.awaited_of_beforeLock hpc
  refine ⟨hcan.trans hn.not_cancelled, ?_, ?_, ?_, ?_, ?_, ?_, ?_, ?_⟩
  · intro c hc u hu
    rw [hch.requester] at hc
    rw [hch.context] at hu
    exact hn.top c hc u hu
  · intro r x hx
    rw [hreqs] at hx
    rcases getElem?_concat_cases hx with hx | ⟨-, rfl⟩
    · exact (hn.reqs r x hx).of_chains hch
    · refine ReqSound.of_chains hch ⟨hcc, hname, fun h => absurd htop h, fun _ => hw, ?_, ?_⟩
      · simp [hw]
      · simp [hnone]
  · intro j job hj
    rw [hjobs] at hj
    exact (hn.jobs j job hj).of_chains hch
  · intro r x j hx haw
    rw [hreqs] at hx
    rw [hjobs]
    rcases getElem?_concat_cases hx with hx | ⟨-, rfl⟩
    · exact hn.awaited r x j hx haw
    · rw [hnone] at haw
      cases haw
  · intro j job r hj hpc
    rw [hjobs] at hj
    obtain ⟨q₀, hq₀, hchain⟩ := hn.nested j job r hj hpc
    refine ⟨q₀, by rw [hreqs]; exact getElem?_append_of_getElem? hq₀, ?_⟩
    rw [hch.context, hch.context, hchain]
  · intro r x hx hx₁ hx₂
    rw [hreqs] at hx
    rw [hch.requesterOf] at hx₁ ⊢
    rw [hjobs]
    rcases getElem?_concat_cases hx with hx | ⟨-, rfl⟩
    · exact hn.issuer r x hx hx₁ hx₂
    · exact absurd htop hx₁
  · intro j job hj hres hjreq
    rw [hjobs] at hj
    rw [hch.requester] at hjreq
    obtain ⟨r, q₀, hq₀, hcc₀, haw₀⟩ := hn.registrar j job hj hres hjreq
    exact ⟨r, q₀, by rw [hreqs]; exact getElem?_append_of_getElem? hq₀, hcc₀, haw₀⟩
  · intro p
    rw [hwaits, hreqs, hch.waitOf, hn.waits p, List.map_append, List.count_append]
    simp [Machine.waitOf, hw]

/-- The nesting survives compile-time execution making a sequential request under a context
derived from its job's for its unit, in which the job is then blocked. -/
theorem Nesting.issue (hn : Nesting m) {j : Nat} {job : Job} {q : Request}
    (hreqs : m'.reqs = m.reqs ++ [q])
    (hjobs : m'.jobs = m.jobs.set j { job with pc := .nested m.reqs.length })
    (hctx : m'.contexts = m.contexts) (hwaits : m'.waits = m.waits)
    (hcan : m'.cancelled = m.cancelled) (hj : m.jobs[j]? = some job)
    (hpc : job.pc = .run .execute) (hcc : q.cc < m.contexts.length)
    (hchain : (m.context q.cc).chain = job.name :: (m.context job.cc).chain)
    (hname : q.name ≠ "") (hpar : q.parallel = false) (hdl : q.deadline = .service)
    (hqpc : q.pc = .lock) (hw : q.waiting = false) : Nesting m' := by
  have hch : SameChains m m' := .of_contexts hctx
  have hlt : j < m.jobs.length := (List.getElem?_eq_some_iff.1 hj).1
  have hreq : m.requesterOf q = job.name := by simp [requesterOf, Context.requester, hchain]
  have hjn : job.name ≠ "" := (hn.jobs j job hj).name_ne
  have hnone : q.pc.awaited = none := by simp [hqpc, ReqPc.awaited]
  refine ⟨hcan.trans hn.not_cancelled, ?_, ?_, ?_, ?_, ?_, ?_, ?_, ?_⟩
  · intro c hc u hu
    rw [hch.requester] at hc
    rw [hch.context] at hu
    exact hn.top c hc u hu
  · intro r x hx
    rw [hreqs] at hx
    rcases getElem?_concat_cases hx with hx | ⟨-, rfl⟩
    · exact (hn.reqs r x hx).of_chains hch
    · refine ReqSound.of_chains hch ⟨hcc, hname, fun _ => ⟨hpar, hdl⟩, fun _ => hw, ?_, ?_⟩
      · simp [hw]
      · simp [hnone]
  · intro j' x hx
    rw [hjobs, getElem?_set_eq_ite hlt] at hx
    split at hx
    · cases hx
      have h := (hn.jobs j job hj).of_chains hch
      exact ⟨h.cc_lt, h.name_ne⟩
    · exact (hn.jobs j' x hx).of_chains hch
  · intro r x j₀ hx haw
    rw [hreqs] at hx
    rcases getElem?_concat_cases hx with hx | ⟨-, rfl⟩
    · obtain ⟨job₀, hj₀, hjn₀⟩ := hn.awaited r x j₀ hx haw
      simp only [hjobs, getElem?_set_eq_ite hlt]
      by_cases h₀ : j₀ = j
      · subst h₀
        rw [hj] at hj₀
        cases hj₀
        exact ⟨{ job with pc := .nested m.reqs.length }, by simp, hjn₀⟩
      · exact ⟨job₀, by simp [h₀, hj₀], hjn₀⟩
    · rw [hnone] at haw
      cases haw
  · intro j' x r hx hpc'
    rw [hjobs, getElem?_set_eq_ite hlt] at hx
    simp only [hreqs, hch.context]
    split at hx
    · cases hx
      cases hpc'
      exact ⟨q, List.getElem?_concat_length, hchain⟩
    · obtain ⟨q₀, hq₀, hchain₀⟩ := hn.nested j' x r hx hpc'
      exact ⟨q₀, getElem?_append_of_getElem? hq₀, hchain₀⟩
  · intro r x hx hx₁ hx₂
    rw [hreqs] at hx
    rw [hch.requesterOf] at hx₁ ⊢
    simp only [hjobs, getElem?_set_eq_ite hlt]
    rcases getElem?_concat_cases hx with hx | ⟨rfl, rfl⟩
    · obtain ⟨j₀, job₀, hj₀, hpc₀, hjn₀⟩ := hn.issuer r x hx hx₁ hx₂
      by_cases h₀ : j₀ = j
      · subst h₀
        rw [hj] at hj₀
        cases hj₀
        rw [hpc] at hpc₀
        cases hpc₀
      · exact ⟨j₀, job₀, by simp [h₀, hj₀], hpc₀, hjn₀⟩
    · exact ⟨j, { job with pc := .nested m.reqs.length }, by simp, rfl, hreq.symm⟩
  · intro j' x hx hres hjreq
    rw [hjobs, getElem?_set_eq_ite hlt] at hx
    rw [hch.requester] at hjreq
    split at hx
    · rename_i h
      subst h
      cases hx
      obtain ⟨r, q₀, hq₀, hcc₀, haw₀⟩ :=
        hn.registrar j' job hj (by simp [Job.result, hpc]) hjreq
      exact ⟨r, q₀, by rw [hreqs]; exact getElem?_append_of_getElem? hq₀, hcc₀, haw₀⟩
    · obtain ⟨r, q₀, hq₀, hcc₀, haw₀⟩ := hn.registrar j' x hx hres hjreq
      exact ⟨r, q₀, by rw [hreqs]; exact getElem?_append_of_getElem? hq₀, hcc₀, haw₀⟩
  · intro p
    rw [hwaits, hreqs, hch.waitOf, hn.waits p, List.map_append, List.count_append]
    simp [Machine.waitOf, hw]

/-- The nesting survives a request registering a new unit and the job for it, which the
request awaits; a sequential request records its wait. -/
theorem Nesting.register (hn : Nesting m) (hreg : Registry m) {r : Nat} {q q' : Request}
    (hq : m.reqs[r]? = some q) (hlock : q.pc = .lock) (hnew : m.pending.lookup q.name = none)
    (hjobs : m'.jobs = m.jobs ++ [{ name := q.name, origin := q.origin, cc := q.cc }])
    (hreqs : m'.reqs = m.reqs.set r q') (hctx : m'.contexts = m.contexts)
    (hcan : m'.cancelled = m.cancelled)
    (hsame : q'.name = q.name ∧ q'.cc = q.cc ∧ q'.parallel = q.parallel ∧
      q'.deadline = q.deadline)
    (hpc' : q'.pc = .spawn m.jobs.length) (hw' : q'.waiting = !q.parallel)
    (hwaits : m'.waits = if q.parallel then m.waits
      else (beginWait m.waits (m.context q.cc) q.name).getD m.waits) : Nesting m' := by
  obtain ⟨hname, hcc, hpar, hdl⟩ := hsame
  have hch : SameChains m m' := .of_contexts hctx
  have hlt : r < m.reqs.length := (List.getElem?_eq_some_iff.1 hq).1
  have hsound := hn.reqs r q hq
  have hw : q.waiting = false := hsound.idle (by simp [hlock, ReqPc.beforeLock])
  have hreq : m.requesterOf q' = m.requesterOf q := by simp [requesterOf, hcc]
  have hold : ∀ j job, m.jobs[j]? = some job → m'.jobs[j]? = some job := fun j job hj => by
    rw [hjobs]
    exact getElem?_append_of_getElem? hj
  refine ⟨hcan.trans hn.not_cancelled, ?_, ?_, ?_, ?_, ?_, ?_, ?_, ?_⟩
  · intro c hc u hu
    rw [hch.requester] at hc
    rw [hch.context] at hu
    exact hn.top c hc u hu
  · intro r' x hx
    rw [hreqs, getElem?_set_eq_ite hlt] at hx
    split at hx
    · cases hx
      refine ReqSound.of_chains hch ⟨hcc ▸ hsound.cc_lt, hname ▸ hsound.name_ne, ?_, ?_, ?_, ?_⟩
      · rw [hreq, hpar, hdl]
        exact hsound.nested
      · simp [hpc', ReqPc.beforeLock]
      · simp [hpc', ReqPc.returned]
      · intro hp _
        rw [hw', ← hpar, hp]
        rfl
    · exact (hn.reqs r' x hx).of_chains hch
  · intro j x hx
    rw [hjobs] at hx
    rcases getElem?_concat_cases hx with hx | ⟨-, rfl⟩
    · exact (hn.jobs j x hx).of_chains hch
    · exact ⟨hch.length ▸ hsound.cc_lt, hsound.name_ne⟩
  · intro r' x j hx haw
    rw [hreqs, getElem?_set_eq_ite hlt] at hx
    split at hx
    · cases hx
      rw [hpc'] at haw
      cases haw
      refine ⟨{ name := q.name, origin := q.origin, cc := q.cc }, ?_, hname.symm⟩
      rw [hjobs]
      exact List.getElem?_concat_length
    · obtain ⟨job, hj, hjn⟩ := hn.awaited r' x j hx haw
      exact ⟨job, hold j job hj, hjn⟩
  · intro j x r₀ hx hpc
    rw [hjobs] at hx
    simp only [hreqs, getElem?_set_eq_ite hlt, hch.context]
    rcases getElem?_concat_cases hx with hx | ⟨-, rfl⟩
    · obtain ⟨q₀, hq₀, hchain⟩ := hn.nested j x r₀ hx hpc
      by_cases h₀ : r₀ = r
      · subst h₀
        rw [hq] at hq₀
        cases hq₀
        exact ⟨q', by simp, by rw [hcc, hchain]⟩
      · exact ⟨q₀, by simp [h₀, hq₀], hchain⟩
    · cases hpc
  · intro r' x hx hx₁ hx₂
    rw [hreqs, getElem?_set_eq_ite hlt] at hx
    rw [hch.requesterOf] at hx₁ ⊢
    split at hx
    · rename_i h
      subst h
      cases hx
      rw [hreq] at hx₁ ⊢
      obtain ⟨j, job, hj, hpc, hjn⟩ :=
        hn.issuer r' q hq hx₁ (by simp [hlock, ReqPc.returned])
      exact ⟨j, job, hold j job hj, hpc, hjn⟩
    · obtain ⟨j, job, hj, hpc, hjn⟩ := hn.issuer r' x hx hx₁ hx₂
      exact ⟨j, job, hold j job hj, hpc, hjn⟩
  · intro j x hx hres hjreq
    rw [hch.requester] at hjreq
    simp only [hreqs, getElem?_set_eq_ite hlt]
    rw [hjobs] at hx
    rcases getElem?_concat_cases hx with hx | ⟨rfl, rfl⟩
    · obtain ⟨r₀, q₀, hq₀, hcc₀, haw₀⟩ := hn.registrar j x hx hres hjreq
      have h₀ : r₀ ≠ r := by
        rintro rfl
        rw [hq] at hq₀
        cases hq₀
        simp [hlock, ReqPc.awaited] at haw₀
      exact ⟨r₀, q₀, by simp [h₀, hq₀], hcc₀, haw₀⟩
    · exact ⟨r, q', by simp, hcc, by rw [hpc']; rfl⟩
  · intro p
    have hset := count_map_set m.waitOf q' hq p
    have hq₀ : m.waitOf q = none := by simp [Machine.waitOf, hw]
    rw [hreqs, hch.waitOf, hwaits]
    have h0 : (if (none : Option (String × String)) = some p then 1 else 0) = 0 := by simp
    rw [hq₀, h0] at hset
    by_cases hp : q.parallel = true
    · have hq₁ : m.waitOf q' = none := by simp [Machine.waitOf, hw', hp]
      rw [hq₁, h0] at hset
      simp only [hp, if_true, hn.waits p]
      omega
    · have hp' : q.parallel = false := by simpa using hp
      simp only [hp', Bool.false_eq_true, if_false]
      by_cases htop : m.requesterOf q = ""
      · have hb : beginWait m.waits (m.context q.cc) q.name = some m.waits := by
          simp [beginWait, show (m.context q.cc).requester = "" from htop]
        have hq₁ : m.waitOf q' = none := by simp [Machine.waitOf, hreq, htop]
        rw [hq₁, h0] at hset
        rw [hb, Option.getD_some, hn.waits p]
        omega
      · rw [hn.beginWait_new hreg hq hlock hnew htop, Option.getD_some, List.count_append,
          hn.waits p]
        have hq₁ : m.waitOf q' = some (m.requesterOf q, q.name) := by
          simp [Machine.waitOf, hreq, htop, hw', hp', hname]
        rw [hq₁] at hset
        simp only [List.count_singleton, beq_iff_eq] at hset ⊢
        by_cases he : (m.requesterOf q, q.name) = p <;> simp [he] at hset ⊢ <;> omega

/-! ## Each step of a disciplined run -/

/-- The nesting survives a request moving between two places where it awaits no job, with its
wait unchanged. -/
theorem Nesting.move (hn : Nesting m) {r : Nat} {q q' : Request}
    (hreqs : m'.reqs = m.reqs.set r q') (hjobs : m'.jobs = m.jobs) (hch : SameChains m m')
    (hcan : m'.cancelled = m.cancelled) (hwaits : m'.waits = m.waits)
    (hq : m.reqs[r]? = some q)
    (hsame : q'.name = q.name ∧ q'.cc = q.cc ∧ q'.parallel = q.parallel ∧
      q'.deadline = q.deadline ∧ q'.waiting = q.waiting)
    (hfrom : q.pc.awaited = none ∧ q.pc.returned = false)
    (hto : q'.pc.awaited = none ∧ q'.pc.returned = false)
    (hidle : q'.pc.beforeLock = true → q.waiting = false) : Nesting m' := by
  obtain ⟨hname, hcc, hpar, hdl, hw⟩ := hsame
  have hsound := hn.reqs r q hq
  have hreq : m.requesterOf q' = m.requesterOf q := by simp [requesterOf, hcc]
  refine hn.setReq hreqs hjobs hch hcan hq hname hcc ?_ ?_ (fun _ => hfrom.2) ?_ ?_
  · refine ⟨hcc ▸ hsound.cc_lt, hname ▸ hsound.name_ne, ?_, fun h => hw ▸ hidle h,
      fun _ => hto.2, fun _ h => by simp [hto.1] at h⟩
    rw [hreq, hpar, hdl]
    exact hsound.nested
  · intro j h
    rw [hto.1] at h
    cases h
  · intro j h
    rw [hfrom.1] at h
    cases h
  · intro p
    have : m.waitOf q' = m.waitOf q := by simp [Machine.waitOf, hreq, hw, hname]
    rw [hwaits, this]

/-- The nesting survives the section under a unit's named lock. -/
theorem Nesting.lock (hn : Nesting m) (hreg : Registry m) {r : Nat} {q : Request}
    (hq : m.reqs[r]? = some q) (hs : m.lock r q = some m') : Nesting m' := by
  have hsound := hn.reqs r q hq
  unfold Machine.lock at hs
  dsimp only at hs
  split at hs
  · rename_i hlock
    have hw : q.waiting = false := hsound.idle (by simp [hlock, ReqPc.beforeLock])
    have hfrom : q.pc.awaited = none ∧ q.pc.returned = false := by
      simp [hlock, ReqPc.awaited, ReqPc.returned]
    split at hs
    · -- installed: answered at once
      cases hs
      exact hn.move rfl rfl .rfl rfl rfl hq ⟨rfl, rfl, rfl, rfl, rfl⟩ hfrom
        (by simp [ReqPc.awaited, ReqPc.returned]) (by simp [ReqPc.beforeLock])
    · rename_i j hc hp
      split at hs
      · -- pending, parallel: joined by a join of its own
        cases hs
        exact hn.move rfl rfl .rfl rfl rfl hq ⟨rfl, rfl, rfl, rfl, rfl⟩ hfrom
          (by simp [ReqPc.awaited, ReqPc.returned]) (by simp [ReqPc.beforeLock])
      · rename_i hpar
        split at hs
        · -- pending, sequential: the wait is recorded and the job awaited
          rename_i w hb
          cases hs
          obtain ⟨job, hj, hjn, -⟩ := hreg.live_of_pending hp
          refine hn.setReq rfl rfl .rfl rfl hq rfl rfl ?_ ?_ (fun _ => hfrom.2) ?_ ?_
          · refine ⟨hsound.cc_lt, hsound.name_ne, hsound.nested, ?_, ?_, ?_⟩ <;>
              simp [ReqPc.beforeLock, ReqPc.returned]
          · intro j' h
            simp only [ReqPc.awaited, Option.some.injEq] at h
            subst h
            exact ⟨job, hj, hjn⟩
          · intro j' h
            rw [hfrom.1] at h
            cases h
          · intro p
            have hq₀ : m.waitOf q = none := by simp [Machine.waitOf, hw]
            rw [hq₀]
            rcases beginWait_eq_some hb with ⟨htop, rfl⟩ | ⟨htop, rfl⟩
            · have hq₁ : m.waitOf { q with waiting := true, pc := .wait j true } = none := by
                simp [Machine.waitOf, requesterOf, htop]
              simp [hq₁]
            · have hq₁ : m.waitOf { q with waiting := true, pc := .wait j true } =
                  some ((m.context q.cc).requester, q.name) := by
                simp [Machine.waitOf, requesterOf, htop]
              rw [hq₁, List.count_append, List.count_singleton]
              simp only [beq_iff_eq]
              by_cases he : ((m.context q.cc).requester, q.name) = p <;> simp [he]
        · -- pending, sequential, closing a cycle: answered at once
          cases hs
          refine hn.move rfl rfl .rfl rfl rfl hq ⟨rfl, rfl, rfl, rfl, rfl⟩ hfrom
            (by simp [ReqPc.awaited, ReqPc.returned]) (by simp [ReqPc.beforeLock])
    · -- a new unit
      rename_i hc hp
      split at hs <;> cases hs
      · rename_i hpar
        exact hn.register hreg hq hlock hp rfl rfl rfl rfl ⟨rfl, rfl, rfl, rfl⟩ rfl
          (by simp [hw, hpar]) (by simp [hpar])
      · rename_i hpar
        have hpar' : q.parallel = false := by simpa using hpar
        exact hn.register hreg hq hlock hp rfl rfl rfl rfl ⟨rfl, rfl, rfl, rfl⟩ rfl
          (by simp [hpar']) (by simp [hpar'])
  · cases hs

end Machine

end Abla
