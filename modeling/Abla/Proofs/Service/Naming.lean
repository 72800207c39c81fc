import Abla.Proofs.Service.Frame

/-!
# Names of inline units

`CompileSource` and `CompileStream` name their unit `<source#N>` or `<stream#N>`, with `N` the
next value of one counter of the service that both advance, nested requests of the `compile`
built-in included. In every state the service reaches, through any interleaving
(`inline_units_fresh`):

* the counter is the number of inline requests made so far, and the `k`-th of them is numbered
  `k`, so their names are pairwise distinct;
* an inline request that takes its unit's named lock registers a new job on its own text, unless
  a `CompileFile` request asked for a file whose cleaned path is the same name.

The exception is real. Inline names and cleaned paths share the registry of units, and nothing
reserves the inline shape for inline units: once a file `<source#1>` is installed, the first
`CompileSource` is named `<source#1>` too and is answered from the file's unit, without compiling
its own text (`inline_answered_by_file`).

The proof carries `Naming`: the numbering of the inline requests, and that every unit installed
or with a job is the unit of a request that has taken its lock. A step moves the counter only
when it makes a request (`step_counter`), and keeps the unit of every request
(`step_follows`); only the section under the lock adds a job (`step_jobNames`).
-/

namespace Abla

/-- The name of the inline unit numbered `n` read from a text of this origin; a file has none. -/
def Origin.inlineName : Origin → Nat → Option String
  | .file, _ => none
  | .text _, n => some ("<source#" ++ toString n ++ ">")
  | .stream _ _, n => some ("<stream#" ++ toString n ++ ">")

/-- Whether a unit's text is given inline, to `CompileSource` or `CompileStream`. -/
def Origin.inline : Origin → Bool
  | .file => false
  | _ => true

theorem Origin.inline_eq_false {o : Origin} : o.inline = false ↔ o = .file := by
  cases o <;> simp [Origin.inline]

/-- A number set between a fixed prefix and `>` can be read back. -/
theorem toString_wrap_inj {p : String} {n n' : Nat}
    (h : p ++ toString n ++ ">" = p ++ toString n' ++ ">") : n = n' := by
  rw [String.append_left_inj, String.append_right_inj] at h
  exact Nat.repr_injective h

theorem source_ne_stream (n n' : Nat) :
    "<source#" ++ toString n ++ ">" ≠ "<stream#" ++ toString n' ++ ">" := by
  intro h
  -- the two prefixes differ at their third character
  have h3 := congrArg (fun s => s.toList.take 3) h
  simp [String.toList_append] at h3

/-- Inline names are equal only when their numbers are. -/
theorem Origin.inlineName_inj {o o' : Origin} {n n' : Nat} {s : String}
    (h : o.inlineName n = some s) (h' : o'.inlineName n' = some s) : n = n' := by
  cases o <;> cases o' <;> simp only [inlineName, Option.some.injEq, reduceCtorEq] at h h'
  · exact toString_wrap_inj (h.trans h'.symm)
  · exact absurd (h.trans h'.symm) (source_ne_stream n n')
  · exact absurd (h'.trans h.symm) (source_ne_stream n' n)
  · exact toString_wrap_inj (h.trans h'.symm)

namespace Machine

/-- A file request leaves the counter alone, and an inline one takes its next value. -/
theorem Ask.unit_counter (a : Ask) (n : Nat) :
    (a.unit n).2.2 = n + if (a.unit n).2.1.inline then 1 else 0 := by
  cases a <;> rfl

/-- An inline request is named for the number it takes. -/
theorem Ask.unit_inlineName (a : Ask) (n : Nat) (h : (a.unit n).2.1.inline) :
    (a.unit n).2.1.inlineName (n + 1) = some (a.unit n).1 := by
  cases a with
  | file path => simp [Ask.unit, Origin.inline] at h
  | source text => rfl
  | stream text cut => rfl

variable {m m' : Machine}

section Updates

variable (m : Machine) (r j c : Nat) (q : Request) (job : Job) (e : Event) (err : Option Failure)

@[simp] theorem setReq_counter : (m.setReq r q).counter = m.counter := rfl
@[simp] theorem setJob_counter : (m.setJob j job).counter = m.counter := rfl
@[simp] theorem report_counter : (m.report e).counter = m.counter := rfl
@[simp] theorem completeCtx_counter : (m.completeCtx c err).counter = m.counter := rfl

end Updates

/-- Only a new request, top-level or nested, moves the counter or adds a request: it comes last,
named for its unit with the counter as it was. -/
theorem step_counter {a : Action} (hs : m.step a = some m') :
    (m'.counter = m.counter ∧ m'.reqs.length = m.reqs.length) ∨
      ∃ (ask : Ask) (x : Request), m'.counter = (ask.unit m.counter).2.2 ∧
        m'.reqs = m.reqs ++ [x] ∧ x.name = (ask.unit m.counter).1 ∧
        x.origin = (ask.unit m.counter).2.1 := by
  cases a
  case ask ask p h d =>
    obtain ⟨cc, cs, -, rfl⟩ := ask_eq hs
    exact .inr ⟨ask, _, rfl, rfl, rfl, rfl⟩
  case nest j ask p h d =>
    obtain ⟨job, -, hq⟩ := Option.bind_eq_some_iff.1 hs
    obtain ⟨-, m₁, h₁, rfl⟩ := nest_eq hq
    obtain ⟨cc, cs, -, rfl⟩ := ask_eq h₁
    exact .inr ⟨ask, _, rfl, rfl, rfl, rfl⟩
  case cancel | drain =>
    cases hs
    exact .inl ⟨rfl, rfl⟩
  -- every other section rebuilds the state from `setReq`, `setJob`, `report` and `completeCtx`
  all_goals
    left
    simp only [step, Option.bind_eq_some_iff] at hs
    obtain ⟨x, -, hx⟩ := hs
    first
      | unfold abandon at hx | unfold enter at hx | unfold lock at hx | unfold spawn at hx
      | unfold fork at hx | unfold wake at hx | unfold complete at hx | unfold leave at hx
      | unfold check at hx | unfold parse at hx | unfold endPhase at hx | unfold resume at hx
      | unfold finish at hx | unfold retire at hx | unfold join at hx | unfold drainStep at hx
    try dsimp only at hx
    repeat' split at hx
    all_goals first
      | (cases hx; simp)
      | (obtain ⟨_, -, rfl⟩ := Option.map_eq_some_iff.1 hx; simp)
      | cases hx

/-- Whether a request has taken its unit's named lock. -/
def ReqPc.locked : ReqPc → Bool
  | .enter | .lock => false
  | _ => true

/-- A step of a request keeps the unit it is for. -/
theorem ReqStep.keeps {a : Action} {r : Nat} {q q' : Request} (h : ReqStep m r q a q') :
    q'.name = q.name ∧ q'.origin = q.origin := by
  cases h <;> exact ⟨rfl, rfl⟩

/-- A request is past its unit's named lock once it has taken it, and stays past it. -/
theorem ReqStep.locked {a : Action} {r : Nat} {q q' : Request} (h : ReqStep m r q a q')
    (hl : q.pc.locked ∨ a = .lock r) : q'.pc.locked := by
  cases h with
  | abandon =>
    rcases hl with hl | hl
    · exact hl
    · cases hl
  | accept hpc =>
    rcases hl with hl | hl
    · simp [hpc, ReqPc.locked] at hl
    · cases hl
  | spawn | wake => dsimp only; split <;> rfl
  | _ => rfl

/-- Every step keeps the unit of every request there was, and a request that has taken its
unit's named lock, or takes it now, is past it. -/
theorem step_follows {a : Action} {r : Nat} {q : Request} (hs : m.step a = some m')
    (hq : m.reqs[r]? = some q) :
    ∃ q', m'.reqs[r]? = some q' ∧ q'.name = q.name ∧ q'.origin = q.origin ∧
      (q.pc.locked ∨ a = .lock r → q'.pc.locked) := by
  by_cases ha : a.request? = some r
  · obtain ⟨q', hq', hstep⟩ := reqStep_of_own hq ha hs
    exact ⟨q', hq', hstep.keeps.1, hstep.keeps.2, hstep.locked⟩
  · refine ⟨q, (step_frame hs).reqs r q ha hq, rfl, rfl, fun hl => ?_⟩
    rcases hl with hl | rfl
    · exact hl
    · exact absurd rfl ha

/-- The unit and origin of each request, in the order they were made. -/
def units (m : Machine) : List (String × Origin) := m.reqs.map fun q => (q.name, q.origin)

@[simp] theorem units_getElem? (r : Nat) :
    m.units[r]? = m.reqs[r]?.map fun q => (q.name, q.origin) := by
  simp [units]

@[simp] theorem units_countP_take (r : Nat) :
    (m.units.take r).countP (·.2.inline) = (m.reqs.take r).countP (·.origin.inline) := by
  simp [units, ← List.map_take, List.countP_map, Function.comp_def]

/-- A step that makes no request keeps the unit of every request. -/
theorem step_units_eq {a : Action} (hs : m.step a = some m')
    (hlen : m'.reqs.length = m.reqs.length) : m'.units = m.units := by
  apply List.ext_getElem?
  intro i
  simp only [units, List.getElem?_map]
  cases hq : m.reqs[i]? with
  | none =>
    have hi : m.reqs.length ≤ i := List.getElem?_eq_none_iff.1 hq
    rw [List.getElem?_eq_none (by omega)]
  | some q =>
    obtain ⟨q', hq', hn, ho, -⟩ := step_follows hs hq
    simp [hq', hn, ho]

/-- Every step keeps the unit of every job, and only the section under a unit's named lock adds
one, for the unit of the request that takes it. -/
theorem step_jobNames {a : Action} (hs : m.step a = some m') :
    m'.jobs.map (·.name) = m.jobs.map (·.name) ∨
      ∃ r q, a = .lock r ∧ m.reqs[r]? = some q ∧
        m'.jobs.map (·.name) = m.jobs.map (·.name) ++ [q.name] := by
  have hname : ∀ l : List Job, l.map (·.name) = (l.map Job.entry).map Prod.fst := by
    intro l
    simp [Job.entry]
  rcases step_units hs with hu | ⟨r, q, rfl, hq, hr⟩ | ⟨j, job, -, hj, hf⟩
  · exact .inl (by rw [hname, hu.entries, ← hname])
  · exact .inr ⟨r, q, rfl, hq, by simp [hr.jobs]⟩
  · -- finishing changes the job's place, not its unit
    obtain ⟨hjob, -⟩ := job?_eq_some hj
    obtain ⟨out, hjobs⟩ := finish_jobs hf
    left
    rw [hjobs, List.map_set]
    apply List.ext_getElem?
    intro i
    rw [List.getElem?_set]
    split
    · rename_i hji
      subst hji
      obtain ⟨hlt, hget⟩ := List.getElem?_eq_some_iff.1 hjob
      simp [hlt, hget]
    · rfl

/-- Finishing a job installs no unit but the job's own. -/
theorem finish_compiled {j : Nat} {job : Job} {n : String} (hs : m.finish j job = some m')
    (hn : (m'.compiled.lookup n).isSome) : (m.compiled.lookup n).isSome ∨ n = job.name := by
  unfold finish at hs
  split at hs
  · dsimp only at hs
    split at hs <;> cases hs
    · by_cases hne : n = job.name
      · exact .inr hne
      · left
        simp only [setJob] at hn
        split at hn
        · simpa [hne] using hn
        · exact hn
    · exact .inl hn
  · cases hs

/-- A unit installed by a step was installed before, or is the unit of a job. -/
theorem step_compiled {a : Action} {n : String} (hs : m.step a = some m')
    (hn : (m'.compiled.lookup n).isSome) :
    (m.compiled.lookup n).isSome ∨ n ∈ m.jobs.map (·.name) := by
  rcases step_units hs with hu | ⟨r, q, -, -, hr⟩ | ⟨j, job, -, hj, hf⟩
  · rw [hu.compiled] at hn
    exact .inl hn
  · rw [hr.compiled] at hn
    exact .inl hn
  · rcases finish_compiled hf hn with hc | rfl
    · exact .inl hc
    · exact .inr (List.mem_map_of_mem (List.mem_of_getElem? (job?_eq_some hj).1))

/-- The section under a unit's named lock registers a new job when the unit is neither installed
nor pending. -/
theorem lock_registers {r : Nat} {q : Request} (hc : m.compiled.lookup q.name = none)
    (hp : m.pending.lookup q.name = none) (hs : m.lock r q = some m') : Registers m q m' := by
  unfold lock at hs
  split at hs
  · dsimp only at hs
    rw [hc, hp] at hs
    dsimp only at hs
    split at hs <;> cases hs <;> exact ⟨hc, hp, rfl, rfl, rfl, rfl⟩
  · cases hs

/-- Among the first `r'` elements there are more that satisfy `p` than among the first `r`,
when the element at `r < r'` does. -/
theorem countP_take_lt {α : Type} {l : List α} {p : α → Bool} {r r' : Nat} {x : α}
    (hr : r < r') (hx : l[r]? = some x) (hp : p x) :
    (l.take r).countP p < (l.take r').countP p := by
  have hsucc : (l.take (r + 1)).countP p = (l.take r).countP p + 1 := by
    rw [List.take_add_one, hx]
    simp [hp]
  have hle : (l.take (r + 1)).countP p ≤ (l.take r').countP p :=
    (List.take_prefix_take_left (by omega)).countP_le
  omega

/-- What the service keeps of its names. The counter is the number of inline requests, and each
is numbered by how many came before it; every installed unit is the unit of a job; and the unit
of every job is the unit of a request that has taken its lock. -/
structure Naming (m : Machine) : Prop where
  counter : m.counter = m.units.countP (·.2.inline)
  numbered : ∀ (r : Nat) (n : String) (o : Origin), m.units[r]? = some (n, o) → o.inline →
    o.inlineName ((m.units.take r).countP (·.2.inline) + 1) = some n
  installed : ∀ n, (m.compiled.lookup n).isSome → n ∈ m.jobs.map (·.name)
  registered : ∀ n ∈ m.jobs.map (·.name), ∃ q ∈ m.reqs, q.name = n ∧ q.pc.locked

namespace Naming

theorem init (gathers executes : Bool) : Naming (Machine.init gathers executes) :=
  ⟨rfl, fun _ _ _ h => by simp [units, Machine.init] at h, fun _ h => by simp [Machine.init] at h,
    fun _ h => by simp [Machine.init] at h⟩

/-- A new request is numbered by the counter as it was, which counts the inline requests before
it. -/
theorem numbered_append (h : Naming m) {ask : Ask} {x : Request}
    (hn : x.name = (ask.unit m.counter).1) (ho : x.origin = (ask.unit m.counter).2.1) :
    ∀ (r : Nat) (n : String) (o : Origin),
      (m.units ++ [(x.name, x.origin)])[r]? = some (n, o) → o.inline →
      o.inlineName (((m.units ++ [(x.name, x.origin)]).take r).countP (·.2.inline) + 1) =
        some n := by
  intro r n o hr hi
  rcases Nat.lt_or_ge r m.units.length with hlt | hge
  · -- an older request keeps its number
    rw [List.getElem?_append_left hlt] at hr
    rw [List.take_append_of_le_length hlt.le]
    exact h.numbered r n o hr hi
  · obtain rfl : r = m.units.length := by
      have hlen := (List.getElem?_eq_some_iff.1 hr).1
      simp at hlen
      omega
    rw [List.getElem?_concat_length, Option.some.injEq, Prod.mk.injEq] at hr
    obtain ⟨rfl, rfl⟩ := hr
    rw [List.take_left' rfl, ← h.counter, hn, ho]
    rw [ho] at hi
    exact Ask.unit_inlineName ask m.counter hi

/-- Every step keeps the numbering of the inline requests. -/
theorem step_numbering {a : Action} (h : Naming m) (hs : m.step a = some m') :
    m'.counter = m'.units.countP (·.2.inline) ∧
      ∀ (r : Nat) (n : String) (o : Origin), m'.units[r]? = some (n, o) → o.inline →
        o.inlineName ((m'.units.take r).countP (·.2.inline) + 1) = some n := by
  rcases step_counter hs with ⟨hc, hlen⟩ | ⟨ask, x, hc, hreqs, hn, ho⟩
  · rw [step_units_eq hs hlen, hc]
    exact ⟨h.counter, h.numbered⟩
  · have hu : m'.units = m.units ++ [(x.name, x.origin)] := by simp [units, hreqs]
    rw [hu]
    refine ⟨?_, h.numbered_append hn ho⟩
    rw [hc, Ask.unit_counter, List.countP_append, ← h.counter, ← ho]
    simp

/-- Every step keeps every installed unit the unit of a job, and the unit of every job that of a
request past its lock. -/
theorem step_units_named {a : Action} (h : Naming m) (hs : m.step a = some m') :
    (∀ n, (m'.compiled.lookup n).isSome → n ∈ m'.jobs.map (·.name)) ∧
      ∀ n ∈ m'.jobs.map (·.name), ∃ q ∈ m'.reqs, q.name = n ∧ q.pc.locked := by
  -- the requests past their lock stay so, with their units
  have hkeep : ∀ n ∈ m.jobs.map (·.name), ∃ q ∈ m'.reqs, q.name = n ∧ q.pc.locked := by
    intro n hn
    obtain ⟨q, hq, rfl, hl⟩ := h.registered n hn
    obtain ⟨r, hr⟩ := List.mem_iff_getElem?.1 hq
    obtain ⟨q', hq', hname, -, hl'⟩ := step_follows hs hr
    exact ⟨q', List.mem_of_getElem? hq', hname, hl' (.inl hl)⟩
  have hsub : ∀ n ∈ m.jobs.map (·.name), n ∈ m'.jobs.map (·.name) := by
    intro n hn
    rcases step_jobNames hs with he | ⟨r, q, -, -, he⟩ <;> simp [he, hn]
  refine ⟨fun n hn => ?_, fun n hn => ?_⟩
  · rcases step_compiled hs hn with hc | hj
    · exact hsub n (h.installed n hc)
    · exact hsub n hj
  · rcases step_jobNames hs with he | ⟨r, q, rfl, hq, he⟩
    · rw [he] at hn
      exact hkeep n hn
    · rw [he, List.mem_append, List.mem_singleton] at hn
      rcases hn with hn | rfl
      · exact hkeep _ hn
      · -- the new job's unit is that of the request that takes the lock now
        obtain ⟨q', hq', hname, -, hl'⟩ := step_follows hs hq
        exact ⟨q', List.mem_of_getElem? hq', hname, hl' (.inr rfl)⟩

theorem step {a : Action} (h : Naming m) (hs : m.step a = some m') : Naming m' :=
  ⟨(h.step_numbering hs).1, (h.step_numbering hs).2, (h.step_units_named hs).1,
    (h.step_units_named hs).2⟩

end Naming

theorem naming_of_reachable (h : Reachable m) : Naming m := by
  induction h with
  | init gathers executes => exact Naming.init gathers executes
  | step a _ hs ih => exact ih.step hs

/-! ## What the naming gives -/

namespace Naming

theorem counter_reqs (h : Naming m) : m.counter = m.reqs.countP (·.origin.inline) := by
  simpa [units, List.countP_map, Function.comp_def] using h.counter

theorem numbered_reqs (h : Naming m) (r : Nat) (q : Request) (hq : m.reqs[r]? = some q)
    (hi : q.origin.inline) :
    q.origin.inlineName ((m.reqs.take r).countP (·.origin.inline) + 1) = some q.name := by
  have hr := h.numbered r q.name q.origin (by simp [hq]) hi
  rwa [units_countP_take] at hr

/-- Two inline requests at different places have different numbers, so different names. -/
theorem name_ne (h : Naming m) {r r' : Nat} {q q' : Request} (hlt : r < r')
    (hq : m.reqs[r]? = some q) (hq' : m.reqs[r']? = some q') (hi : q.origin.inline)
    (hi' : q'.origin.inline) : q.name ≠ q'.name := by
  intro hname
  have hk := Origin.inlineName_inj (h.numbered_reqs r q hq hi)
    (hname ▸ h.numbered_reqs r' q' hq' hi')
  have hmore := countP_take_lt (p := (·.origin.inline)) hlt hq hi
  omega

theorem distinct (h : Naming m) (r r' : Nat) (q q' : Request) (hq : m.reqs[r]? = some q)
    (hq' : m.reqs[r']? = some q') (hi : q.origin.inline) (hi' : q'.origin.inline)
    (hname : q.name = q'.name) : r = r' := by
  rcases Nat.lt_trichotomy r r' with hlt | heq | hgt
  · exact absurd hname (h.name_ne hlt hq hq' hi hi')
  · exact heq
  · exact absurd hname.symm (h.name_ne hgt hq' hq hi' hi)

/-- A unit installed or pending has a job, whose unit is that of a request past its lock. -/
theorem registered_of_taken (h : Naming m) (hreg : Registry m) {n : String}
    (hn : ¬(m.compiled.lookup n = none ∧ m.pending.lookup n = none)) :
    ∃ q ∈ m.reqs, q.name = n ∧ q.pc.locked := by
  apply h.registered
  by_cases hc : m.compiled.lookup n = none
  · obtain ⟨j, hp⟩ := Option.ne_none_iff_exists'.1 fun hp => hn ⟨hc, hp⟩
    obtain ⟨job, hj, hjn, -⟩ := hreg.live_of_pending hp
    exact List.mem_map.2 ⟨job, List.mem_of_getElem? hj, hjn⟩
  · exact h.installed n (Option.isSome_iff_ne_none.2 hc)

/-- An inline request that takes its lock registers a job on its own text, or its unit was
taken by a file request of the same name. -/
theorem fresh (h : Naming m) (hreg : Registry m) (r : Nat) (q : Request) (m' : Machine)
    (hq : m.reqs[r]? = some q) (hi : q.origin.inline) (hs : m.step (.lock r) = some m') :
    Registers m q m' ∨
      ∃ (r' : Nat) (q' : Request), m.reqs[r']? = some q' ∧ q'.origin = .file ∧
        q'.name = q.name := by
  simp only [Machine.step, hq, Option.bind_some] at hs
  have hpc : q.pc = .lock := (lock_frame hs).1
  by_cases hfree : m.compiled.lookup q.name = none ∧ m.pending.lookup q.name = none
  · exact .inl (lock_registers hfree.1 hfree.2 hs)
  · right
    obtain ⟨q', hmem, hname, hl⟩ := h.registered_of_taken hreg hfree
    obtain ⟨r', hr'⟩ := List.mem_iff_getElem?.1 hmem
    -- the request past its lock is not this one, which is at it
    have hne : r' ≠ r := by
      rintro rfl
      rw [hq, Option.some.injEq] at hr'
      subst hr'
      simp [hpc, ReqPc.locked] at hl
    refine ⟨r', q', hr', ?_, hname⟩
    cases hi' : q'.origin.inline
    · exact Origin.inline_eq_false.1 hi'
    · exact absurd (h.distinct r' r q' q hr' hq hi' hi hname) hne

end Naming

/-- Inline units are fresh: (a) the counter is the number of inline requests made, and (b) each
is named for its place among them, `<source#k>` or `<stream#k>` for the `k`-th, so that (c) no two
inline requests are for one unit; and (d) an inline request that takes its unit's named lock
registers a new job on its own text, unless a `CompileFile` request was made for a file whose
cleaned path is the same name. -/
structure InlineFresh (m : Machine) : Prop where
  counter : m.counter = m.reqs.countP (·.origin.inline)
  numbered : ∀ (r : Nat) (q : Request), m.reqs[r]? = some q → q.origin.inline →
    q.origin.inlineName ((m.reqs.take r).countP (·.origin.inline) + 1) = some q.name
  distinct : ∀ (r r' : Nat) (q q' : Request), m.reqs[r]? = some q → m.reqs[r']? = some q' →
    q.origin.inline → q'.origin.inline → q.name = q'.name → r = r'
  fresh : ∀ (r : Nat) (q : Request) (m' : Machine), m.reqs[r]? = some q → q.origin.inline →
    m.step (.lock r) = some m' →
    Registers m q m' ∨
      ∃ (r' : Nat) (q' : Request), m.reqs[r']? = some q' ∧ q'.origin = .file ∧
        q'.name = q.name

/-- Every state the service reaches, through any interleaving of any requests, top-level or made
by compile-time execution, names its inline units afresh. -/
theorem inline_units_fresh (h : Reachable m) : InlineFresh m :=
  have hn := naming_of_reachable h
  ⟨hn.counter_reqs, hn.numbered_reqs, hn.distinct, hn.fresh (registry_of_reachable h)⟩

theorem inline_units_fresh_twoTexts :
    ∃ m, (init false false).run twoTexts = some m ∧ InlineFresh m := by
  obtain ⟨m, hm⟩ : ∃ m, (init false false).run twoTexts = some m :=
    Option.isSome_iff_exists.1 (by decide)
  exact ⟨m, hm, inline_units_fresh (reachable_of_run (.init false false) hm)⟩

/-- A file whose cleaned path is `<source#1>` is compiled and installed; then `CompileSource` is
called, and its request takes the named lock of its unit. -/
def fileThenSource : List Action :=
  [.ask (.file "<source#1>") false .fresh (.caller none),
   .enter 0, .lock 0, .spawn 0, .check 0, .parse 0 (.ok (emptyTree "<source#1>")),
   .finish 0, .retire 0, .wake 0 false, .leave 0,
   .ask (.source "fun b(): Int = 2\n") false .fresh (.caller none), .enter 1, .lock 1]

/-- The first inline unit is named `<source#1>`, the name of the installed file, and its request
is answered from the file's unit: it registers no job, and its text is never compiled. -/
theorem inline_answered_by_file :
    ∃ m, (init false false).run fileThenSource = some m ∧
      ∃ q, m.reqs[1]? = some q ∧ q.origin = .text "fun b(): Int = 2\n" ∧
        q.name = "<source#1>" ∧ q.pc = .complete none ∧ m.jobs.length = 1 := by
  have hclean : Path.clean "<source#1>" = "<source#1>" := by
    simp +decide [Path.clean, String.splitOn, String.splitOnAux, Path.fold, Path.isAbs]
  have hname : "<source#" ++ Nat.repr 1 ++ ">" = "<source#1>" := by decide
  simp [fileThenSource, run, Option.filter_some, Option.bind_some, step, init, ask, Ask.unit,
    Handle.resolve, enter, lock, spawn, check, parse, after, nextPhase, finish, settle, retire,
    wake, leave, job?, setReq, setJob, report, completeCtx, Units.setEntry, Units.dropEntry,
    record, beginWait, Context.requester, context, Job.result, hclean, hname]

end Machine

end Abla
