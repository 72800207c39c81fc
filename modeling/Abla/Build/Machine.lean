import Abla.Build.Service

/-!
# The compile service as a machine of goroutines

`Build.Service` runs each job inside the request that starts it. Here the same service is a
transition system over every goroutine it involves, so that requests interleave: the callers'
requests, the job of each pending unit, the asynchronous joins of parallel requests and the
calls of `Drain`. A step moves one goroutine through one section that the service takes
atomically:

* a request: `enterRequest` under the service mutex; the whole section under its unit's named
  lock, which looks the unit up and joins its job or registers a new one, `beginWait` included;
  the start of a job or of an asynchronous join; the return of a wait on a job; the completion
  of its context; its return, with the deferred `endWait` and `requests.Done`;
* a job: each cancellation check of `runPhases`; each phase, whose outcome the step's label
  gives, so that every parser, gatherer and executor is covered; each request that
  compile-time execution makes, and its return; the section of `runJob` under the unit's named
  lock, which removes the unit from `pending`, installs it on success and records its outcome;
  the completion of the context of the request that registered it;
* an asynchronous join: the completion of its context once the job is done;
* `Drain`: closing the service, its two waits, reading the failures and counting the units;
* `Cancel`, and the cancellation of a caller's own context.

Requests, contexts, jobs and joins are numbered in order of creation. A job that is done keeps
its number and its outcome, so a later attempt at the same unit is a job of its own.
-/

namespace Abla

namespace Machine

/-- A compilation context: the requesting units along its chain of derivations, innermost
first, and its outcome once completed. A top-level context's chain is `[""]`. -/
structure Context where
  chain : List String
  outcome : Option (Option Failure) := none
  deriving Inhabited

namespace Context

/-- The unit whose execution made the request, `""` at top level. -/
def requester (c : Context) : String := c.chain.headD ""

/-- Whether the request comes, through derivations, from the execution of `unit`. -/
def requestedBy (c : Context) (unit : String) : Bool := c.chain.contains unit

/-- Only the first completion has an effect. -/
def complete (c : Context) (err : Option Failure) : Context :=
  match c.outcome with
  | none => { c with outcome := some err }
  | some _ => c

end Context

/-- The context a request waits under: the service's own, which `Cancel` cancels, or one of
its caller's, which the caller may cancel with an error of its own. -/
inductive Deadline where
  | service
  | caller (err : Option Failure)
  deriving Inhabited

/-- What a request asks for: a file by its path, or a text, given whole or read from a stream. -/
inductive Ask where
  | file (path : String)
  | source (text : String)
  | stream (text : String) (cut : Option (Nat × String))

/-- The unit an ask names, how its text is read, and the counter after it: a text takes the
next number of the counter that sources and streams share. -/
def Ask.unit : Ask → Nat → String × Origin × Nat
  | .file path, n => (Path.clean path, .file, n)
  | .source text, n => ("<source#" ++ toString (n + 1) ++ ">", .text text, n + 1)
  | .stream text cut, n => ("<stream#" ++ toString (n + 1) ++ ">", .stream text cut, n + 1)

/-- The context a request is made with: a fresh top-level one, one made before, or one derived
from a context made before for a requesting unit. -/
inductive Handle where
  | fresh
  | given (c : Nat)
  | derived (c : Nat) (unit : String)

/-- The number of the context a handle gives, and the contexts once it is made. -/
def Handle.resolve (cs : List Context) : Handle → Option (Nat × List Context)
  | .fresh => some (cs.length, cs ++ [{ chain := [""] }])
  | .given c => if c < cs.length then some (c, cs) else none
  | .derived c unit => cs[c]?.map fun p => (cs.length, cs ++ [{ chain := unit :: p.chain }])

/-- Where a request is in `compile`. -/
inductive ReqPc where
  /-- A top-level request, about to register with the service. -/
  | enter
  /-- About to take its unit's named lock. -/
  | lock
  /-- It registered job `j`, which it is about to start. -/
  | spawn (j : Nat)
  /-- About to start an asynchronous join on job `j`. -/
  | fork (j : Nat)
  /-- Blocked until job `j` is done or its own context is cancelled; `joined` when the job was
  pending before, so that the request completes its context itself. -/
  | wait (j : Nat) (joined : Bool)
  | complete (err : Option Failure)
  /-- Returning, with its deferred calls still to run. -/
  | leave (err : Option Failure)
  | done (err : Option Failure)
  deriving Inhabited

/-- A call of `compile`. `counted` when it is one of the top-level requests in flight, and
`waiting` when an `endWait` is deferred. -/
structure Request where
  name : String
  origin : Origin
  parallel : Bool
  cc : Nat
  deadline : Deadline
  counted : Bool := false
  waiting : Bool := false
  pc : ReqPc
  deriving Inhabited

inductive Phase where
  | parse
  | gather
  | execute
  deriving DecidableEq, Inhabited

/-- The word a finished phase is reported with. -/
def Phase.word : Phase → String
  | .parse => "parse"
  | .gather => "gather"
  | .execute => "execute"

/-- Where a job is in `runJob`. -/
inductive JobPc where
  /-- About to check for cancellation before a phase. -/
  | check (p : Phase)
  | run (p : Phase)
  /-- Compile-time execution, blocked in a request it made. -/
  | nested (r : Nat)
  /-- The phases gave `err`; about to take the named lock. -/
  | finish (err : Option Failure)
  /-- Done with outcome `err`; about to complete the registering request's context. -/
  | complete (err : Option Failure)
  | exited (err : Option Failure)
  deriving DecidableEq, Inhabited

/-- A pending unit with its job: the unit, how its text is read, the context of the request
that registered it, its tree once parsed, whether its goroutine was started, and where it is. -/
structure Job where
  name : String
  origin : Origin
  cc : Nat
  file : Option SourceFile := none
  started : Bool := false
  pc : JobPc := .check .parse
  deriving Inhabited

/-- The outcome of a job, once it is done. -/
def Job.result (job : Job) : Option (Option Failure) :=
  match job.pc with
  | .complete err | .exited err => some err
  | _ => none

/-- An asynchronous join: it completes `cc` with the outcome of job `job`. -/
structure Joiner where
  job : Nat
  cc : Nat
  running : Bool := true
  deriving Inhabited

/-- Where a call of `Drain` is: waiting for the top-level requests, then for the jobs and
joins, then reading the failures and counting the installed units. -/
inductive DrainPc where
  | requests
  | jobs
  | errors
  | count (errs : List Failure)
  | done (compiled : Nat) (errs : List Failure)
  deriving Inhabited

end Machine

/-- The compile service with every goroutine it runs. `gathers` and `executes` say whether a
gatherer and an executor were given. `waits` holds one pair for each wait that `beginWait`
recorded, so that it is the map of counts as a multiset. `requests` and `group` count the
top-level requests in flight, and the jobs and joins running. -/
structure Machine where
  gathers : Bool
  executes : Bool
  compiled : List (String × Option SourceFile) := []
  pending : List (String × Nat) := []
  errs : List (String × Failure) := []
  waits : List (String × String) := []
  closed : Bool := false
  cancelled : Bool := false
  counter : Nat := 0
  requests : Nat := 0
  group : Nat := 0
  contexts : List Machine.Context := []
  reqs : List Machine.Request := []
  jobs : List Machine.Job := []
  joiners : List Machine.Joiner := []
  drains : List Machine.DrainPc := []
  events : List Event := []
  deriving Inhabited

namespace Machine

open Service (closedFailure cancelledFailure)

/-- The service as `NewCompileService` makes it. -/
def init (gathers executes : Bool) : Machine := { gathers, executes }

/-- The error of a wait whose context was cancelled by `Cancel`. -/
def canceledError : Failure := .other "context canceled"

/-- The failure of a job that finds its unit registered to another job. -/
def vanished (name : String) : Failure :=
  .compile { kind := .internalState, file := name,
             message := "pending unit vanished while its job was running" }

/-- The context numbered `c`. -/
def context (m : Machine) (c : Nat) : Context := m.contexts.getD c default

def setReq (m : Machine) (r : Nat) (q : Request) : Machine := { m with reqs := m.reqs.set r q }

def setJob (m : Machine) (j : Nat) (job : Job) : Machine := { m with jobs := m.jobs.set j job }

def report (m : Machine) (e : Event) : Machine := { m with events := m.events ++ [e] }

def completeCtx (m : Machine) (c : Nat) (err : Option Failure) : Machine :=
  { m with contexts := m.contexts.modify c (·.complete err) }

/-- Records the outcome of a unit's latest attempt: its failure, or no entry on success. -/
def record (errs : List (String × Failure)) (name : String) :
    Option Failure → List (String × Failure)
  | some e => Units.setEntry errs name e
  | none => Units.dropEntry errs name

/-- The units reached from `todo` along the waits, each visited once; `fuel` bounds the
visits. -/
def visit (waits : List (String × String)) : Nat → List String → List String → List String
  | 0, _, seen => seen
  | _, [], seen => seen
  | fuel + 1, u :: todo, seen =>
    if seen.contains u then visit waits fuel todo seen
    else visit waits fuel ((waits.filter (·.1 == u)).map (·.2) ++ todo) (u :: seen)

/-- Whether unit `src` waits, directly or through other units, on unit `dst`. Each wait is
followed once, so `waits.length + 1` visits suffice. -/
def waitsReach (waits : List (String × String)) (src dst : String) : Bool :=
  (visit waits (waits.length + 1) [src] []).contains dst

/-- `beginWait`: records that the requesting unit of `c` waits on `name`, or gives `none` when
waiting would close a cycle. A top-level request records nothing. -/
def beginWait (waits : List (String × String)) (c : Context) (name : String) :
    Option (List (String × String)) :=
  if c.requester == "" then some waits
  else if c.requestedBy name then none
  else if waitsReach waits name c.requester then none
  else some (waits ++ [(c.requester, name)])

/-- `endWait`: removes one wait of the requesting unit of `c` on `name`. -/
def endWait (waits : List (String × String)) (c : Context) (name : String) :
    List (String × String) :=
  if c.requester == "" then waits else waits.erase (c.requester, name)

/-- The error a request's own context gives once cancelled. -/
def cancelledBy (m : Machine) : Deadline → Option Failure
  | .service => if m.cancelled then some canceledError else none
  | .caller err => err

/-- A call of `CompileFile`, `CompileSource` or `CompileStream`: the unit is named, the
context made, and the request is the last one. A top-level request starts by registering. -/
def ask (m : Machine) (a : Ask) (parallel : Bool) (h : Handle) (d : Deadline) :
    Option Machine :=
  let (name, origin, counter) := a.unit m.counter
  (h.resolve m.contexts).map fun (cc, contexts) =>
    let top := (contexts.getD cc default).requester == ""
    { m with counter, contexts,
             reqs := m.reqs ++ [{ name, origin, parallel, cc, deadline := d,
                                  pc := if top then .enter else .lock }] }

/-! ## The steps of a request -/

/-- `enterRequest`: a top-level request is counted, unless the service is closed, and then it
is refused. -/
def enter (m : Machine) (r : Nat) (q : Request) : Option Machine :=
  match q.pc with
  | .enter =>
    if m.closed then some (m.setReq r { q with pc := .complete (some closedFailure) })
    else some { m.setReq r { q with counted := true, pc := .lock } with
      requests := m.requests + 1 }
  | _ => none

/-- The section under the unit's named lock. An installed unit answers at once. A pending
unit's job is joined: by a join of its own for a parallel request, and in sequence unless the
wait would close a cycle, which is reported and answered at once. Any other unit is registered
with a new job, and a sequential request records its wait, whatever `beginWait` gives. -/
def lock (m : Machine) (r : Nat) (q : Request) : Option Machine :=
  match q.pc with
  | .lock =>
    let c := m.context q.cc
    match m.compiled.lookup q.name, m.pending.lookup q.name with
    | some _, _ => some (m.setReq r { q with pc := .complete none })
    | none, some j =>
      if q.parallel then some (m.setReq r { q with pc := .fork j })
      else match beginWait m.waits c q.name with
        | some waits => some { m.setReq r { q with waiting := true, pc := .wait j true } with waits }
        | none => some ((m.setReq r { q with pc := .complete none }).report
            (.warning c.requester none ("import cycle through `" ++ q.name ++ "`")))
    | none, none =>
      let j := m.jobs.length
      let m' : Machine := { m with
        pending := Units.setEntry m.pending q.name j,
        jobs := m.jobs ++ [{ name := q.name, origin := q.origin, cc := q.cc }] }
      if q.parallel then some (m'.setReq r { q with pc := .spawn j })
      else some { m'.setReq r { q with waiting := true, pc := .spawn j } with
        waits := (beginWait m.waits c q.name).getD m.waits }
  | _ => none

/-- `group.Go(runJob)`: the job starts, a parallel request returns and a sequential one waits. -/
def spawn (m : Machine) (r : Nat) (q : Request) : Option Machine :=
  match q.pc with
  | .spawn j =>
    let m' : Machine := { m with
      group := m.group + 1,
      jobs := m.jobs.modify j fun job => { job with started := true } }
    some (m'.setReq r { q with pc := if q.parallel then .leave none else .wait j false })
  | _ => none

/-- `group.Go` of an asynchronous join on job `j`; the request returns. -/
def fork (m : Machine) (r : Nat) (q : Request) : Option Machine :=
  match q.pc with
  | .fork j => some { m.setReq r { q with pc := .leave none } with
      group := m.group + 1, joiners := m.joiners ++ [{ job := j, cc := q.cc }] }
  | _ => none

/-- `job.wait(ctx)` returns, by whichever ready case the `select` takes: the job's outcome
once it is done, or the error of the request's own context once that is cancelled. -/
def wake (m : Machine) (r : Nat) (q : Request) (byDeadline : Bool) : Option Machine :=
  match q.pc with
  | .wait j joined =>
    let err? := if byDeadline then (m.cancelledBy q.deadline).map some
      else m.jobs[j]?.bind Job.result
    err?.map fun err => m.setReq r { q with pc := if joined then .complete err else .leave err }
  | _ => none

def complete (m : Machine) (r : Nat) (q : Request) : Option Machine :=
  match q.pc with
  | .complete err => some ((m.completeCtx q.cc err).setReq r { q with pc := .leave err })
  | _ => none

/-- The request returns, and its deferred `endWait` and `requests.Done` run. -/
def leave (m : Machine) (r : Nat) (q : Request) : Option Machine :=
  match q.pc with
  | .leave err => some { m.setReq r { q with counted := false, waiting := false, pc := .done err } with
      waits := if q.waiting then endWait m.waits (m.context q.cc) q.name else m.waits,
      requests := if q.counted then m.requests - 1 else m.requests }
  | _ => none

/-- The caller cancels a request's own context. -/
def abandon (m : Machine) (r : Nat) (q : Request) (err : Failure) : Option Machine :=
  match q.deadline with
  | .caller none => some (m.setReq r { q with deadline := .caller (some err) })
  | _ => none

/-! ## The steps of a job -/

/-- Job `j`, once its goroutine was started. -/
def job? (m : Machine) (j : Nat) : Option Job := m.jobs[j]?.filter (·.started)

/-- The phase after `p`, skipping those without a gatherer or executor. -/
def nextPhase (m : Machine) : Phase → Option Phase
  | .parse => if m.gathers then some .gather else if m.executes then some .execute else none
  | .gather => if m.executes then some .execute else none
  | .execute => none

/-- Where a job goes once phase `p` succeeded. -/
def after (m : Machine) (p : Phase) : JobPc :=
  match m.nextPhase p with
  | some p' => .check p'
  | none => .finish none

/-- A cancellation check of `runPhases`. -/
def check (m : Machine) (j : Nat) (job : Job) : Option Machine :=
  match job.pc with
  | .check p => some (m.setJob j { job with
      pc := if m.cancelled then .finish (some (cancelledFailure job.name)) else .run p })
  | _ => none

/-- The parse thunk returns, and its tree is kept in the pending unit. -/
def parse (m : Machine) (j : Nat) (job : Job) (out : Except Failure SourceFile) :
    Option Machine :=
  if job.pc = .run .parse then
    match out with
    | .error e => some (m.setJob j { job with pc := .finish (some e) })
    | .ok f => some ((m.setJob j { job with file := some f, pc := m.after .parse }).report
        (.phase job.name Phase.parse.word))
  else none

/-- The gatherer or the executor returns. -/
def endPhase (m : Machine) (j : Nat) (job : Job) (p : Phase) (err : Option Failure) :
    Option Machine :=
  if job.pc = .run p then
    match err with
    | some e => some (m.setJob j { job with pc := .finish (some e) })
    | none => some ((m.setJob j { job with pc := m.after p }).report (.phase job.name p.word))
  else none

/-- Compile-time execution makes a request, and is blocked until the call returns. -/
def nest (m : Machine) (j : Nat) (job : Job) (a : Ask) (parallel : Bool) (h : Handle)
    (d : Deadline) : Option Machine :=
  if job.pc = .run .execute then
    (m.ask a parallel h d).map fun m' => m'.setJob j { job with pc := .nested m.reqs.length }
  else none

def resume (m : Machine) (j : Nat) (job : Job) : Option Machine :=
  match job.pc with
  | .nested r =>
    match m.reqs[r]? with
    | some { pc := .done _, .. } => some (m.setJob j { job with pc := .run .execute })
    | _ => none
  | _ => none

/-- The outcome of a job whose phases gave `err` and whose unit is still its own: success
turns into the cancellation error once the service is cancelled. -/
def settle (m : Machine) (name : String) (err : Option Failure) : Option Failure :=
  if err.isNone && m.cancelled then some (cancelledFailure name) else err

/-- The section of `runJob` under the unit's named lock: the unit leaves `pending`, it is
installed with the tree its job parsed when the outcome is a success, the outcome is recorded,
and the job is done. A job whose unit is registered to another job fails with an internal
error. -/
def finish (m : Machine) (j : Nat) (job : Job) : Option Machine :=
  match job.pc with
  | .finish err =>
    if m.pending.lookup job.name = some j then
      let out := m.settle job.name err
      some ({ m with
        pending := Units.dropEntry m.pending job.name,
        compiled := if out = none then Units.setEntry m.compiled job.name job.file
          else m.compiled,
        errs := record m.errs job.name out }.setJob j { job with pc := .complete out })
    else
      let out := some (vanished job.name)
      some ({ m.report (.internal (job.name ++ ": pending unit vanished while its job was running"))
        with errs := record m.errs job.name out }.setJob j { job with pc := .complete out })
  | _ => none

/-- The job completes the registering request's context, and its goroutine ends. -/
def retire (m : Machine) (j : Nat) (job : Job) : Option Machine :=
  match job.pc with
  | .complete err => some { (m.completeCtx job.cc err).setJob j { job with pc := .exited err } with
      group := m.group - 1 }
  | _ => none

/-- An asynchronous join completes its context once its job is done, and ends. -/
def join (m : Machine) (k : Nat) (w : Joiner) : Option Machine :=
  if w.running then
    (m.jobs[w.job]?.bind Job.result).map fun err =>
      { m.completeCtx w.cc err with
        group := m.group - 1, joiners := m.joiners.set k { w with running := false } }
  else none

/-! ## Draining and cancelling -/

/-- The failures of the latest attempts, ordered by unit name. -/
def sortedErrs (m : Machine) : List Failure :=
  (m.errs.mergeSort (fun a b => decide (a.1 ≤ b.1))).map (·.2)

/-- `Drain` closes the service to top-level requests. -/
def startDrain (m : Machine) : Machine := { m with closed := true, drains := m.drains ++ [.requests] }

def drainStep (m : Machine) (d : Nat) : DrainPc → Option Machine
  | .requests => if m.requests = 0 then some { m with drains := m.drains.set d .jobs } else none
  | .jobs => if m.group = 0 then some { m with drains := m.drains.set d .errors } else none
  | .errors => some { m with drains := m.drains.set d (.count m.sortedErrs) }
  | .count errs => some { m with drains := m.drains.set d (.done m.compiled.length errs) }
  | .done _ _ => none

/-! ## Steps -/

/-- What can happen next: a new request, `Cancel`, `Drain`, the cancellation of a request's
own context, or a step of one goroutine, which a phase's step gives its outcome. -/
inductive Action where
  | ask (a : Ask) (parallel : Bool) (h : Handle) (d : Deadline)
  | cancel
  | drain
  | abandon (r : Nat) (err : Failure)
  | enter (r : Nat)
  | lock (r : Nat)
  | spawn (r : Nat)
  | fork (r : Nat)
  | wake (r : Nat) (byDeadline : Bool)
  | complete (r : Nat)
  | leave (r : Nat)
  | check (j : Nat)
  | parse (j : Nat) (out : Except Failure SourceFile)
  | gather (j : Nat) (err : Option Failure)
  | execute (j : Nat) (err : Option Failure)
  | nest (j : Nat) (a : Ask) (parallel : Bool) (h : Handle) (d : Deadline)
  | resume (j : Nat)
  | finish (j : Nat)
  | retire (j : Nat)
  | join (k : Nat)
  | drainStep (d : Nat)

/-- One step; `none` when the goroutine named cannot take it. -/
def step (m : Machine) : Action → Option Machine
  | .ask a p h d => m.ask a p h d
  | .cancel => some { m with cancelled := true }
  | .drain => some m.startDrain
  | .abandon r err => m.reqs[r]?.bind (m.abandon r · err)
  | .enter r => m.reqs[r]?.bind (m.enter r)
  | .lock r => m.reqs[r]?.bind (m.lock r)
  | .spawn r => m.reqs[r]?.bind (m.spawn r)
  | .fork r => m.reqs[r]?.bind (m.fork r)
  | .wake r b => m.reqs[r]?.bind (m.wake r · b)
  | .complete r => m.reqs[r]?.bind (m.complete r)
  | .leave r => m.reqs[r]?.bind (m.leave r)
  | .check j => (m.job? j).bind (m.check j)
  | .parse j out => (m.job? j).bind (m.parse j · out)
  | .gather j err => (m.job? j).bind (m.endPhase j · .gather err)
  | .execute j err => (m.job? j).bind (m.endPhase j · .execute err)
  | .nest j a p h d => (m.job? j).bind (m.nest j · a p h d)
  | .resume j => (m.job? j).bind (m.resume j)
  | .finish j => (m.job? j).bind (m.finish j)
  | .retire j => (m.job? j).bind (m.retire j)
  | .join k => m.joiners[k]?.bind (m.join k)
  | .drainStep d => m.drains[d]?.bind (m.drainStep d)

/-- Runs steps in order; `none` when one of them cannot be taken. -/
def run (m : Machine) : List Action → Option Machine
  | [] => some m
  | a :: as => (m.step a).bind (·.run as)

/-- The states the service reaches from its start, by any steps in any order. -/
inductive Reachable : Machine → Prop where
  | init (gathers executes : Bool) : Reachable (init gathers executes)
  | step {m m' : Machine} (a : Action) : Reachable m → m.step a = some m' → Reachable m'

end Machine

end Abla
