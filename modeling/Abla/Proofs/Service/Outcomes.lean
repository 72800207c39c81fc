import Abla.Proofs.Service.Frame

/-!
# Every observer of an attempt sees its outcome

An attempt at a unit is a job, and its outcome reaches those who observe it in four ways: the
answer of a sequential request that started or joined it, the completion of the context of the
request that registered it, the completion of the context of an asynchronous join, and the
failure recorded for the unit, which `Drain` reads. The outcome of a job never changes once it
is set, and each of the four ways takes it from the job, so they agree. The failures hold the
outcome of each unit's latest attempt that is done, because the attempts at one unit run one
after another.
-/

namespace Abla

namespace Units

variable {α : Type} {xs : List (String × α)} {n : String}

/-- A table with one entry for each name. -/
def Keyed (xs : List (String × α)) : Prop := (xs.map Prod.fst).Nodup

theorem Keyed.setEntry (h : Keyed xs) (a : α) : Keyed (setEntry xs n a) := by
  unfold Keyed Units.setEntry
  split
  · -- the entry is replaced, and the names stay as they were
    rw [List.map_map]
    have h' : (xs.map Prod.fst).Nodup := h
    convert h' using 2
    funext p
    by_cases hp : p.1 = n <;> simp [hp]
  · rename_i hnew
    rw [List.map_append, List.nodup_append]
    refine ⟨h, by simp, ?_⟩
    intro k hk k' hk' he
    simp only [List.map_cons, List.map_nil, List.mem_singleton] at hk'
    obtain ⟨p, hp, rfl⟩ := List.mem_map.1 hk
    exact hnew (List.any_eq_true.2 ⟨p, hp, by simp [he, hk']⟩)

theorem Keyed.dropEntry (h : Keyed xs) : Keyed (dropEntry xs n) :=
  h.sublist (List.filter_sublist.map Prod.fst)

/-- In a table with one entry for each name, a name's entry is the pair in the table. -/
theorem Keyed.lookup_eq_some_iff (h : Keyed xs) {a : α} : xs.lookup n = some a ↔ (n, a) ∈ xs := by
  induction xs with
  | nil => simp
  | cons x xs ih =>
    obtain ⟨k, b⟩ := x
    have hk : k ∉ xs.map Prod.fst := (List.nodup_cons.1 h).1
    rw [lookup_cons_ite, List.mem_cons]
    by_cases hn : n = k
    · subst hn
      have hnot : (n, a) ∉ xs := fun hm => hk (List.mem_map.2 ⟨_, hm, rfl⟩)
      simp [hnot, eq_comm]
    · simp [hn, ih (List.nodup_cons.1 h).2]

theorem Keyed.record {errs : List (String × Failure)} (h : Keyed errs) (name : String)
    (out : Option Failure) : Keyed (Machine.record errs name out) := by
  cases out with
  | none => exact h.dropEntry
  | some e => exact h.setEntry e

end Units

namespace Machine

variable {m m' : Machine}

/-! ## The answer of a sequential request -/

/-- The answer of a request whose wait is over. -/
def ReqPc.answer : ReqPc → Option (Option Failure)
  | .complete err | .leave err | .done err => some err
  | _ => none

theorem ReqPc.answer_of_awaited {pc : ReqPc} {j : Nat} (h : pc.awaited = some j) :
    pc.answer = none := by
  cases pc <;> simp_all [awaited, answer]

/-- Request `q` is sequential and has started or joined job `j`: it still awaits the job, or it
has an answer, which is the job's outcome unless its own context was cancelled. -/
def Follows (m : Machine) (j : Nat) (q : Request) : Prop :=
  q.parallel = false ∧
    (q.pc.awaited = some j ∨
      ∃ err, q.pc.answer = some err ∧ (m.outcome j = some err ∨ (m.cancelledBy q.deadline).isSome))

variable {j : Nat} {q : Request}

theorem Follows.of_step {a : Action} (hf : m.Follows j q) (hs : m.step a = some m') :
    m'.Follows j q := by
  obtain ⟨hpar, hw | ⟨err, hans, ho | hc⟩⟩ := hf
  · exact ⟨hpar, .inl hw⟩
  · exact ⟨hpar, .inr ⟨err, hans, .inl (step_outcome hs ho)⟩⟩
  · exact ⟨hpar, .inr ⟨err, hans, .inr (step_cancelledBy hs hc)⟩⟩

/-- A request that passes its answer on keeps following the job. -/
theorem Follows.pass {a : Action} {q' : Request} {err : Option Failure} (hf : m.Follows j q)
    (hs : m.step a = some m') (hans : q.pc.answer = some err) (hans' : q'.pc.answer = some err)
    (hpar : q'.parallel = q.parallel) (hdl : q'.deadline = q.deadline) : m'.Follows j q' := by
  obtain ⟨hseq, hw | ⟨err', hans₀, hwhy⟩⟩ := hf.of_step hs
  · rw [ReqPc.answer_of_awaited hw] at hans
    cases hans
  · rw [hans] at hans₀
    cases hans₀
    exact ⟨hpar.trans hseq, .inr ⟨err, hans', hdl ▸ hwhy⟩⟩

theorem Follows.not_idle (hf : m.Follows j q) (hw : q.pc.awaited = none)
    (hans : q.pc.answer = none) : False := by
  obtain ⟨-, hw' | ⟨err, hans', -⟩⟩ := hf
  · rw [hw] at hw'
    cases hw'
  · rw [hans] at hans'
    cases hans'

@[simp] theorem cancelledBy_setReq (r : Nat) (q : Request) (d : Deadline) :
    (m.setReq r q).cancelledBy d = m.cancelledBy d := by
  cases d <;> rfl

/-- Every step keeps a request following the job it started or joined: its own steps carry the
answer along, and the others change neither the job's outcome nor the request. -/
theorem Follows.step {a : Action} {r : Nat} (hf : m.Follows j q) (hq : m.reqs[r]? = some q)
    (hs : m.step a = some m') : ∃ q', m'.reqs[r]? = some q' ∧ m'.Follows j q' := by
  by_cases ha : a.request? = some r
  swap
  · exact ⟨q, (step_frame hs).reqs r q ha hq, hf.of_step hs⟩
  obtain ⟨q', hq', hstep⟩ := reqStep_of_own hq ha hs
  refine ⟨q', hq', ?_⟩
  -- a request that follows a job is past the lock: it waits for the job, or has its answer
  have idle : ∀ pc : ReqPc, q.pc = pc → pc.awaited = none → pc.answer = none → m'.Follows j q' :=
    fun pc hpc hw hans => (hf.not_idle (hpc ▸ hw) (hpc ▸ hans)).elim
  cases hstep with
  | abandon hd =>
    obtain ⟨hseq, hw | ⟨err, hans, -⟩⟩ := hf
    · exact ⟨hseq, .inl hw⟩
    · exact ⟨hseq, .inr ⟨err, hans, .inr rfl⟩⟩
  | refuse hpc _ => exact idle _ hpc rfl rfl
  | accept hpc _ => exact idle _ hpc rfl rfl
  | installed hpc _ => exact idle _ hpc rfl rfl
  | forkJob hpc _ _ _ => exact idle _ hpc rfl rfl
  | joinJob hpc _ _ _ _ => exact idle _ hpc rfl rfl
  | cycle hpc _ _ _ _ => exact idle _ hpc rfl rfl
  | registerParallel hpc _ _ _ => exact idle _ hpc rfl rfl
  | register hpc _ _ _ => exact idle _ hpc rfl rfl
  | fork hpc => exact idle _ hpc rfl rfl
  | @spawn j' hpc =>
    obtain ⟨hseq, hw | ⟨err, hans, -⟩⟩ := hf
    · -- a sequential request that started its job waits for it
      obtain rfl : j' = j := by simpa [hpc, ReqPc.awaited] using hw
      exact ⟨hseq, .inl (by simp [hseq, ReqPc.awaited])⟩
    · simp [hpc, ReqPc.answer] at hans
  | @wake j' joined b err hpc hwhy =>
    obtain ⟨hseq, hw | ⟨err', hans, -⟩⟩ := hf
    · obtain rfl : j' = j := by simpa [hpc, ReqPc.awaited] using hw
      have hans' : (if joined then ReqPc.complete err else .leave err).answer = some err := by
        cases joined <;> rfl
      refine ⟨hseq, .inr ⟨err, hans', ?_⟩⟩
      -- woken by its own context, or by the job once done
      rcases hwhy with ⟨-, e, he, rfl⟩ | ⟨-, job, hjob, hres⟩
      · exact .inr (step_cancelledBy hs (by simp [he]))
      · exact .inl (step_outcome hs (by simp [outcome, hjob, hres]))
    · simp [hpc, ReqPc.answer] at hans
  | complete hpc => exact hf.pass hs (by simp [hpc, ReqPc.answer]) rfl rfl rfl
  | leave hpc => exact hf.pass hs (by simp [hpc, ReqPc.answer]) rfl rfl rfl

/-- Along any run, a request keeps following the job it started or joined. -/
theorem Follows.steps {r : Nat} (hf : m.Follows j q) (hq : m.reqs[r]? = some q)
    (hrun : Relation.ReflTransGen Next m m') : ∃ q', m'.reqs[r]? = some q' ∧ m'.Follows j q' := by
  induction hrun with
  | refl => exact ⟨q, hq, hf⟩
  | tail _ hnext ih =>
    obtain ⟨q₁, hq₁, hf₁⟩ := ih
    obtain ⟨a, ha⟩ := hnext
    exact hf₁.step hq₁ ha

/-! ## The failures recorded -/

section Latest

variable {n : String} {l : List (String × Option (Option Failure))}

/-- The outcome of the latest attempt at unit `n` that is done, among attempts listed in the
order they were registered. -/
def latest (n : String) (l : List (String × Option (Option Failure))) : Option (Option Failure) :=
  (l.filterMap fun e => if e.1 = n then e.2 else none).getLast?

/-- A new attempt that is not done changes no latest outcome. -/
theorem latest_concat_none (n' : String) : latest n (l ++ [(n', none)]) = latest n l := by
  simp [latest, List.filterMap_append]

/-- An attempt at `n` that is done, with no attempt at `n` after it, is the latest. -/
theorem latest_set_last {j : Nat} {o : Option Failure} (hj : j < l.length)
    (hlast : ∀ k e, j < k → l[k]? = some e → e.1 ≠ n) :
    latest n (l.set j (n, some o)) = some o := by
  have hrest : (l.drop (j + 1)).filterMap (fun e => if e.1 = n then e.2 else none) = [] := by
    rw [List.filterMap_eq_nil_iff]
    intro e he
    obtain ⟨k, hk⟩ := List.mem_iff_getElem?.1 he
    rw [List.getElem?_drop] at hk
    simp [hlast (j + 1 + k) e (by omega) hk]
  rw [latest, List.set_eq_take_append_cons_drop, if_pos hj, List.filterMap_append,
    List.filterMap_cons]
  simp [hrest]

/-- Changing an attempt at another unit leaves the latest outcome of `n` as it is. -/
theorem latest_set_other {j : Nat} {e e' : String × Option (Option Failure)} (hj : l[j]? = some e)
    (he : e.1 ≠ n) (he' : e'.1 ≠ n) : latest n (l.set j e') = latest n l := by
  obtain ⟨hlt, hget⟩ := List.getElem?_eq_some_iff.1 hj
  have hl : l = l.take j ++ e :: l.drop (j + 1) := by
    rw [← hget, ← List.drop_eq_getElem_cons hlt, List.take_append_drop]
  rw [latest, latest, List.set_eq_take_append_cons_drop, if_pos hlt]
  conv_rhs => rw [hl]
  simp [List.filterMap_append, he, he']

end Latest

/-- The outcome of the latest attempt at unit `n` that is done. -/
def lastOutcome (m : Machine) (n : String) : Option (Option Failure) :=
  latest n (m.jobs.map Job.entry)

/-- What the failures recorded keep. The attempts at a unit run one after another, so that only
the last may still be in progress; the failure recorded for a unit is that of its latest attempt
done, and none when that attempt succeeded; the table has one entry for each unit; and an
installed unit has no failure. -/
structure Records (m : Machine) : Prop where
  earlier_done : ∀ (i k : Nat) (a b : Job), i < k → m.jobs[i]? = some a → m.jobs[k]? = some b →
    a.name = b.name → a.result.isSome
  errs : ∀ n, m.errs.lookup n = (m.lastOutcome n).join
  keyed : Units.Keyed m.errs
  installed : ∀ n, (m.compiled.lookup n).isSome → m.errs.lookup n = none

theorem Records.init (gathers executes : Bool) : Records (init gathers executes) where
  earlier_done := by simp [Machine.init]
  errs := by simp [Machine.init, lastOutcome, latest]
  keyed := List.nodup_nil
  installed := by simp [Machine.init]

@[simp] theorem lookup_record (errs : List (String × Failure)) (name n : String)
    (out : Option Failure) : (record errs name out).lookup n = if n = name then out else errs.lookup n := by
  cases out <;> simp [record]

/-- A job of a state with the same registry is a job there, with the same unit and outcome. -/
theorem SameUnits.job_of (hu : SameUnits m m') {i : Nat} {a : Job} (ha : m'.jobs[i]? = some a) :
    ∃ a₀, m.jobs[i]? = some a₀ ∧ a₀.name = a.name ∧ a₀.result = a.result := by
  have he : (m'.jobs.map Job.entry)[i]? = some (a.name, a.result) :=
    entry_eq_some.2 ⟨a, ha, rfl, rfl⟩
  rw [hu.entries] at he
  exact entry_eq_some.1 he

namespace Records

theorem of_same (h : Records m) (hu : SameUnits m m') : Records m' where
  earlier_done i k a b hik ha hb hn := by
    obtain ⟨a₀, ha₀, hna, hra⟩ := hu.job_of ha
    obtain ⟨b₀, hb₀, hnb, -⟩ := hu.job_of hb
    rw [← hra]
    exact h.earlier_done i k a₀ b₀ hik ha₀ hb₀ (by rw [hna, hnb, hn])
  errs n := by
    rw [hu.errs, h.errs n, lastOutcome, lastOutcome, hu.entries]
  keyed := hu.errs ▸ h.keyed
  installed n := by
    rw [hu.compiled, hu.errs]
    exact h.installed n

/-- Registering a new attempt: the unit had no attempt in progress, since it was not pending. -/
theorem register {q : Request} (h : Records m) (hreg : Registry m) (hr : Registers m q m') :
    Records m' where
  earlier_done i k a b hik ha hb hn := by
    rw [hr.jobs] at ha hb
    have hlen : i < m.jobs.length := by
      rcases getElem?_concat_cases hb with hb' | ⟨rfl, -⟩
      · exact Nat.lt_trans hik (List.getElem?_eq_some_iff.1 hb').1
      · exact hik
    rw [List.getElem?_append_left hlen] at ha
    rcases getElem?_concat_cases hb with hb' | ⟨-, rfl⟩
    · exact h.earlier_done i k a b hik ha hb' hn
    · -- an attempt in progress would keep its unit pending
      cases hres : a.result with
      | some o => rfl
      | none =>
        have hp := hreg.pending_of_live ha hres
        rw [hn, hr.not_pending] at hp
        cases hp
  errs n := by
    have hE : m'.jobs.map Job.entry = m.jobs.map Job.entry ++ [(q.name, none)] := by
      rw [hr.jobs, List.map_append]
      rfl
    rw [hr.errs, h.errs n, lastOutcome, lastOutcome, hE, latest_concat_none]
  keyed := hr.errs ▸ h.keyed
  installed n := by
    rw [hr.compiled, hr.errs]
    exact h.installed n

/-- Finishing an attempt: it is the latest at its unit, so its outcome becomes the unit's
record. -/
theorem finish {j : Nat} {job : Job} (h : Records m) (hreg : Registry m) (hj : m.job? j = some job)
    (hf : m.finish j job = some m') : Records m' := by
  obtain ⟨hjob, -⟩ := job?_eq_some hj
  obtain ⟨err, hpc⟩ := finish_pc hf
  have hlive : job.result = none := by simp [Job.result, hpc]
  have hlt : j < m.jobs.length := (List.getElem?_eq_some_iff.1 hjob).1
  obtain ⟨-, hc, he, hjobs⟩ := finish_own hpc (hreg.finish_own_unit hj hf) hf
  set out := m.settle job.name err
  have hget : ∀ k, m'.jobs[k]? = if k = j then some { job with pc := .complete out } else m.jobs[k]? := by
    intro k
    rw [hjobs, getElem?_set_eq_ite hlt]
  -- no attempt at the unit comes after this one, which is still in progress
  have hlast : ∀ k e, j < k → (m.jobs.map Job.entry)[k]? = some e → e.1 ≠ job.name := by
    intro k e hjk hk hn
    obtain ⟨b, hb, hnb, -⟩ := entry_eq_some.1 (show _ = some (e.1, e.2) from hk)
    have := h.earlier_done j k job b hjk hjob hb (hnb.trans hn).symm
    rw [hlive] at this
    cases this
  have hE : m'.jobs.map Job.entry = (m.jobs.map Job.entry).set j (job.name, some out) := by
    rw [hjobs, List.map_set]
    rfl
  refine ⟨?_, ?_, ?_, ?_⟩
  · intro i k a b hik ha hb hn
    rw [hget] at ha hb
    by_cases hi : i = j
    · rw [if_pos hi] at ha
      cases ha
      rfl
    rw [if_neg hi] at ha
    by_cases hk : k = j
    · rw [if_pos hk] at hb
      cases hb
      exact h.earlier_done i k a job hik ha (hk ▸ hjob) hn
    · rw [if_neg hk] at hb
      exact h.earlier_done i k a b hik ha hb hn
  · intro n
    rw [he, lookup_record, lastOutcome, hE]
    by_cases hn : n = job.name
    · subst hn
      rw [if_pos rfl, latest_set_last (by simpa using hlt) hlast]
      rfl
    · rw [if_neg hn, latest_set_other (e := (job.name, none)) (by simp [hjob, Job.entry, hlive])
        (Ne.symm hn) (Ne.symm hn), h.errs n]
      rfl
  · rw [he]
    exact h.keyed.record job.name out
  · intro n hn
    rw [he, lookup_record]
    by_cases hname : n = job.name
    · subst hname
      rw [if_pos rfl]
      -- a failed attempt installs nothing, and the unit was not installed before
      cases hout : out with
      | none => rfl
      | some e =>
        rw [hc, if_neg (by simp [hout]), hreg.not_compiled_of_live hjob hlive] at hn
        cases hn
    · rw [if_neg hname]
      apply h.installed n
      rw [hc] at hn
      split at hn <;> simpa [hname] using hn

theorem step {a : Action} (h : Records m) (hreg : Registry m) (hs : m.step a = some m') :
    Records m' := by
  rcases step_units hs with hu | ⟨r, q, -, -, hr⟩ | ⟨j, job, -, hj, hf⟩
  · exact h.of_same hu
  · exact h.register hreg hr
  · exact h.finish hreg hj hf

end Records

theorem records_of_reachable (h : Reachable m) : Records m := by
  induction h with
  | init gathers executes => exact Records.init gathers executes
  | step a hm hs ih => exact ih.step (registry_of_reachable hm) hs

/-- The failure recorded for a unit changes only when an attempt at the unit finishes, and that
attempt comes after every other attempt at the unit. -/
theorem Records.errs_change {a : Action} {n : String} (h : Records m) (hreg : Registry m)
    (hs : m.step a = some m') (hne : m'.errs.lookup n ≠ m.errs.lookup n) :
    ∃ j job, a = .finish j ∧ m.jobs[j]? = some job ∧ job.name = n ∧ job.result = none ∧
      ∀ k b, m.jobs[k]? = some b → b.name = n → k ≤ j := by
  rcases step_units hs with hu | ⟨r, q, -, -, hr⟩ | ⟨j, job, rfl, hj, hf⟩
  · exact absurd (by rw [hu.errs]) hne
  · exact absurd (by rw [hr.errs]) hne
  · obtain ⟨hjob, -⟩ := job?_eq_some hj
    obtain ⟨err, hpc⟩ := finish_pc hf
    have hlive : job.result = none := by simp [Job.result, hpc]
    obtain ⟨-, -, he, -⟩ := finish_own hpc (hreg.finish_own_unit hj hf) hf
    -- only the finishing unit's record changes
    have hn : n = job.name := by
      by_contra hn
      rw [he, lookup_record, if_neg hn] at hne
      exact hne rfl
    subst hn
    refine ⟨j, job, rfl, hjob, rfl, hlive, fun k b hb hnb => ?_⟩
    by_contra hk
    have := h.earlier_done j k job b (by omega) hjob hb hnb.symm
    rw [hlive] at this
    cases this

/-! ## What `Drain` reads -/

/-- The failures `Drain` reads are those of the units whose latest attempt done failed, one for
each unit, ordered by unit name; none of these units is installed. -/
theorem Records.sortedErrs_eq (h : Records m) :
    ∃ fails : List (String × Failure), fails.Pairwise (fun a b => a.1 < b.1) ∧
      m.sortedErrs = fails.map Prod.snd ∧
      (∀ n f, (n, f) ∈ fails ↔ m.lastOutcome n = some (some f)) ∧
      ∀ p ∈ fails, m.compiled.lookup p.1 = none := by
  let le : String × Failure → String × Failure → Bool := fun a b => decide (a.1 ≤ b.1)
  have hmem : ∀ p, p ∈ m.errs.mergeSort le ↔ m.errs.lookup p.1 = some p.2 := by
    intro p
    rw [List.mem_mergeSort, h.keyed.lookup_eq_some_iff]
  refine ⟨m.errs.mergeSort le, ?_, rfl, ?_, ?_⟩
  · -- sorted by name, and no name comes twice
    have hle : (m.errs.mergeSort le).Pairwise (fun a b => le a b) :=
      List.pairwise_mergeSort (fun a b c hab hbc => by simp only [le, decide_eq_true_eq] at *; exact le_trans hab hbc)
        (fun a b => by simpa [le] using le_total a.1 b.1) m.errs
    have hne : (m.errs.mergeSort le).Pairwise (fun a b => a.1 ≠ b.1) :=
      List.pairwise_map.1 (((List.mergeSort_perm m.errs le).map Prod.fst).nodup_iff.2 h.keyed)
    refine (hle.and hne).imp ?_
    intro a b ⟨hab, hneq⟩
    exact lt_of_le_of_ne (by simpa [le] using hab) hneq
  · intro n f
    rw [hmem]
    show m.errs.lookup n = some f ↔ _
    rw [h.errs n, Option.join_eq_some_iff]
  · intro p hp
    have he := (hmem p).1 hp
    cases hc : m.compiled.lookup p.1 with
    | none => rfl
    | some f =>
      rw [h.installed p.1 (by simp [hc])] at he
      cases he

/-- `Drain` reads the failures in one step. -/
theorem drain_reads {d : Nat} (hd : m.drains[d]? = some .errors)
    (hs : m.step (.drainStep d) = some m') : m'.drains[d]? = some (.count m.sortedErrs) := by
  simp only [Machine.step, hd, Option.bind_some, drainStep] at hs
  cases hs
  simp [List.getElem?_set_self (List.getElem?_eq_some_iff.1 hd).1]

/-- `Drain` counts the installed units in the step after. -/
theorem drain_counts {d : Nat} {errs : List Failure} (hd : m.drains[d]? = some (.count errs))
    (hs : m.step (.drainStep d) = some m') :
    m'.drains[d]? = some (.done m.compiled.length errs) := by
  simp only [Machine.step, hd, Option.bind_some, drainStep] at hs
  cases hs
  simp [List.getElem?_set_self (List.getElem?_eq_some_iff.1 hd).1]

/-! ## The outcome of an attempt -/

/-- How the outcome of an attempt reaches those who observe it. (i) A sequential request that
started or joined a job answers with the job's outcome, unless its own context was cancelled by
then. (ii) A context is completed once, and only its first completion counts: a job completes
the context of the request that registered it with its outcome, an asynchronous join completes
its own with the outcome of the job it joins, and a sequential request that joined a job
completes its own with its answer, which (i) gives. (iii) The failure recorded for a unit is that
of its latest attempt done, and none when that attempt succeeded, since attempts at one unit run
one after another; so the record changes only when a later attempt finishes. `Drain` reads the
failures, one for each unit whose latest attempt done failed, ordered by unit name and none of
an installed unit, and in its next step counts the installed units. -/
structure OutcomesAgree (m : Machine) : Prop where
  answers : ∀ (r j : Nat) (q : Request), m.reqs[r]? = some q → q.parallel = false →
    q.pc.awaited = some j → ∀ m' q' err, Relation.ReflTransGen Next m m' →
    m'.reqs[r]? = some q' → q'.pc.answer = some err → m'.cancelledBy q'.deadline = none →
    m'.outcome j = some err
  completes : ∀ a m' c, m.step a = some m' → (m'.context c).outcome ≠ (m.context c).outcome →
    Completion m a m' c
  earlier_done : ∀ (i k : Nat) (a b : Job), i < k → m.jobs[i]? = some a → m.jobs[k]? = some b →
    a.name = b.name → a.result.isSome
  errs : ∀ n, m.errs.lookup n = (m.lastOutcome n).join
  errs_change : ∀ a m' n, m.step a = some m' → m'.errs.lookup n ≠ m.errs.lookup n →
    ∃ j job, a = .finish j ∧ m.jobs[j]? = some job ∧ job.name = n ∧ job.result = none ∧
      ∀ k b, m.jobs[k]? = some b → b.name = n → k ≤ j
  drain_errors : ∀ d m', m.drains[d]? = some .errors → m.step (.drainStep d) = some m' →
    ∃ fails : List (String × Failure), fails.Pairwise (fun a b => a.1 < b.1) ∧
      m'.drains[d]? = some (.count (fails.map Prod.snd)) ∧
      (∀ n f, (n, f) ∈ fails ↔ m.lastOutcome n = some (some f)) ∧
      ∀ p ∈ fails, m.compiled.lookup p.1 = none
  drain_count : ∀ d errs m', m.drains[d]? = some (.count errs) → m.step (.drainStep d) = some m' →
    m'.drains[d]? = some (.done m.compiled.length errs)

/-- Every state the service reaches keeps the outcomes of its attempts in agreement. -/
theorem outcomes_agree (h : Reachable m) : OutcomesAgree m := by
  have hrec := records_of_reachable h
  refine ⟨?_, ?_, hrec.earlier_done, hrec.errs,
    fun a m' n hs hne => hrec.errs_change (registry_of_reachable h) hs hne, ?_, ?_⟩
  · intro r j q hq hpar hw m' q' err hrun hq' hans hc
    obtain ⟨q₁, hq₁, hf⟩ := Follows.steps ⟨hpar, .inl hw⟩ hq hrun
    rw [hq'] at hq₁
    cases hq₁
    -- its answer is the job's outcome, since its own context is not cancelled
    obtain ⟨-, hw' | ⟨err', hans', ho | hcan⟩⟩ := hf
    · rw [ReqPc.answer_of_awaited hw'] at hans
      cases hans
    · rw [hans] at hans'
      cases hans'
      exact ho
    · rw [hc] at hcan
      cases hcan
  · intro a m' c hs hne
    rcases (step_frame hs).outcomes c with he | hcomp
    · exact absurd he hne
    · exact hcomp
  · intro d m' hd hs
    obtain ⟨fails, hsort, heq, hmem, hnot⟩ := hrec.sortedErrs_eq
    exact ⟨fails, hsort, heq ▸ drain_reads hd hs, hmem, hnot⟩
  · intro d errs m' hd hs
    exact drain_counts hd hs

/-- A text whose parse fails is compiled by a sequential request, and `Drain` runs to its end. -/
def failedText : List Action :=
  [.ask (.source "fun f(") false .fresh (.caller none),
   .enter 0, .lock 0, .spawn 0, .check 0, .parse 0 (.error (.other "unexpected end of text")),
   .finish 0, .retire 0, .wake 0 false, .leave 0,
   .drain, .drainStep 0, .drainStep 0, .drainStep 0, .drainStep 0]

theorem outcomes_agree_failedText :
    ∃ m, (init false false).run failedText = some m ∧ OutcomesAgree m := by
  obtain ⟨m, hm⟩ : ∃ m, (init false false).run failedText = some m :=
    Option.isSome_iff_exists.1 (by decide)
  exact ⟨m, hm, outcomes_agree (reachable_of_run (.init false false) hm)⟩

end Machine

end Abla
