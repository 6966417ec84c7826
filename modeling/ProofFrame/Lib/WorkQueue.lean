import Mathlib.Algebra.GroupWithZero.Nat
import Mathlib.Data.List.Forall2
import Mathlib.Logic.Relation

/-!
# A pool of workers on one queue

Workers take numbered jobs from the front of a shared queue and publish each
result in the slot of its number.  A step is one pop, one publication, one
worker leaving because the queue is empty, or one worker crashing; the steps of
different workers come in any order.

`Valid` is the invariant.  Its consequence is `Reachable.results`: once every
worker has left, each slot holds a result of its job, whatever the order was.
-/

namespace ProofFrame.Lib.WorkQueue

variable {J R : Type}

inductive Worker (J : Type) where
  | idle
  | running (job : J) (index : ℕ)
  | exited
  | crashed

structure Pool (J R : Type) where
  queue : List (J × ℕ)
  workers : List (Worker J)
  results : List (Option R)

/-- The pool before its workers start. -/
def Pool.start (R : Type) (jobs : List J) (workers : ℕ) : Pool J R :=
  { queue := jobs.zipIdx
    workers := List.replicate workers .idle
    results := List.replicate jobs.length none }

/-- One step of one worker.  A job may end in any result `ends` allows. -/
inductive Step (ends : J → R → Prop) (crashes : J → Prop) : Pool J R → Pool J R → Prop where
  | pop {pool : Pool J R} {worker index : ℕ} {job : J} {rest : List (J × ℕ)}
      (hidle : pool.workers[worker]? = some .idle) (hqueue : pool.queue = (job, index) :: rest) :
      Step ends crashes pool { pool with
        queue := rest, workers := pool.workers.set worker (.running job index) }
  | leave {pool : Pool J R} {worker : ℕ} (hidle : pool.workers[worker]? = some .idle)
      (hqueue : pool.queue = []) :
      Step ends crashes pool { pool with workers := pool.workers.set worker .exited }
  | publish {pool : Pool J R} {worker index : ℕ} {job : J} {result : R}
      (hrunning : pool.workers[worker]? = some (.running job index)) (hends : ends job result) :
      Step ends crashes pool { pool with
        workers := pool.workers.set worker .idle
        results := pool.results.set index (some result) }
  | crash {pool : Pool J R} {worker index : ℕ} {job : J}
      (hrunning : pool.workers[worker]? = some (.running job index)) (hcrashes : crashes job) :
      Step ends crashes pool { pool with workers := pool.workers.set worker .crashed }

/-- The states some order of steps leads to. -/
def Reachable (ends : J → R → Prop) (crashes : J → Prop) (jobs : List J) (workers : ℕ) :
    Pool J R → Prop :=
  Relation.ReflTransGen (Step ends crashes) (.start R jobs workers)

/-- Every worker has left. -/
def Pool.Finished (pool : Pool J R) : Prop := ∀ worker ∈ pool.workers, worker = .exited

/-- A job that was taken is being worked on, was lost in a crash, or has its result. -/
def Pool.Accounted (pool : Pool J R) (index : ℕ) : Prop :=
  (∃ (worker : ℕ) (job : J), pool.workers[worker]? = some (.running job index)) ∨
    (∃ worker : ℕ, pool.workers[worker]? = some .crashed) ∨
    ∃ result, pool.results[index]? = some (some result)

structure Valid (ends : J → R → Prop) (jobs : List J) (workers : ℕ) (pool : Pool J R) : Prop where
  workers_length : pool.workers.length = workers
  results_length : pool.results.length = jobs.length
  queue_eq : pool.queue = jobs.zipIdx.drop (jobs.length - pool.queue.length)
  taken : ∀ index < jobs.length - pool.queue.length, pool.Accounted index
  running : ∀ (worker : ℕ) (job : J) (index : ℕ), pool.workers[worker]? = some (.running job index) →
    jobs[index]? = some job
  results : ∀ (index : ℕ) (result : R), pool.results[index]? = some (some result) →
    ∃ job, jobs[index]? = some job ∧ ends job result
  drained : .exited ∈ pool.workers → pool.queue = []

variable {ends : J → R → Prop} {crashes : J → Prop} {jobs : List J} {workers : ℕ}
  {pool next : Pool J R}

theorem valid_start : Valid ends jobs workers (.start R jobs workers) := by
  constructor
  case workers_length => simp [Pool.start]
  case results_length => simp [Pool.start]
  case queue_eq => simp [Pool.start]
  case taken => simp [Pool.start]
  case running =>
    intro worker job index h
    have hmem := List.mem_of_getElem? h
    simp [Pool.start] at hmem
  case results =>
    intro index result h
    have hmem := List.mem_of_getElem? h
    simp [Pool.start] at hmem
  case drained => simp [Pool.start]

/-- Setting one worker leaves the work of the others as it is. -/
theorem getElem?_set_running {all : List (Worker J)} {worker other : ℕ} {state state' : Worker J}
    (h : (all.set worker state)[other]? = some state') :
    (other = worker ∧ state' = state) ∨ (other ≠ worker ∧ all[other]? = some state') := by
  rw [List.getElem?_set] at h
  split at h
  · rename_i heq
    split at h
    · exact .inl ⟨heq.symm, (Option.some.inj h).symm⟩
    · cases h
  · rename_i hne
    exact .inr ⟨fun heq => hne heq.symm, h⟩

/-- What a job is accounted for by survives a change of a worker that was not on it. -/
theorem Pool.Accounted.set_worker {worker index : ℕ} {before after : Worker J}
    (hworker : pool.workers[worker]? = some before)
    (hbefore : ∀ job, before ≠ .running job index) (hcrashed : before ≠ .crashed)
    (h : pool.Accounted index) {results : List (Option R)}
    (hresults : ∀ result, pool.results[index]? = some (some result) →
      ∃ result, results[index]? = some (some result)) {queue : List (J × ℕ)} :
    Pool.Accounted { queue, workers := pool.workers.set worker after, results } index := by
  rcases h with ⟨other, job, hother⟩ | ⟨other, hother⟩ | ⟨result, hresult⟩
  · have hne : worker ≠ other := by
      rintro rfl
      rw [hworker] at hother
      exact hbefore job (Option.some.inj hother)
    exact .inl ⟨other, job, by rw [List.getElem?_set_ne hne]; exact hother⟩
  · have hne : worker ≠ other := by
      rintro rfl
      rw [hworker] at hother
      exact hcrashed (Option.some.inj hother)
    exact .inr (.inl ⟨other, by rw [List.getElem?_set_ne hne]; exact hother⟩)
  · exact .inr (.inr (hresults result hresult))

theorem Valid.step (h : Valid ends jobs workers pool) (hstep : Step ends crashes pool next) :
    Valid ends jobs workers next := by
  cases hstep with
  | @pop worker index job rest hidle hqueue =>
      have hlt := (List.getElem?_eq_some_iff.mp hidle).1
      -- the job in front is the one whose number counts the jobs taken before it
      have hlength : pool.queue.length = rest.length + 1 := by rw [hqueue, List.length_cons]
      have hle : pool.queue.length ≤ jobs.length := by
        rw [h.queue_eq, List.length_drop, List.length_zipIdx]
        omega
      have hdrop := h.queue_eq
      rw [hqueue] at hdrop
      have hk : jobs.length - ((job, index) :: rest).length < jobs.zipIdx.length := by
        rw [List.length_zipIdx, List.length_cons]
        omega
      rw [List.drop_eq_getElem_cons hk, List.getElem_zipIdx] at hdrop
      obtain ⟨hhead, hrest⟩ := List.cons_eq_cons.mp hdrop
      obtain ⟨hjob, hindex⟩ := Prod.mk.injEq .. ▸ hhead
      rw [List.length_cons] at hindex hrest
      have hjobs : jobs[index]? = some job := by
        rw [hjob, List.getElem?_eq_some_iff]
        exact ⟨by omega, by congr 1; rw [List.length_cons]; omega⟩
      constructor
      case workers_length =>
        rw [List.length_set]
        exact h.workers_length
      case results_length => exact h.results_length
      case queue_eq =>
        show rest = _
        have heq : jobs.length - rest.length = jobs.length - (rest.length + 1) + 1 := by omega
        rw [heq]
        exact hrest
      case taken =>
        intro other hother
        have hother : other < jobs.length - rest.length := hother
        by_cases hnew : other = index
        · exact .inl ⟨worker, job, by rw [hnew, List.getElem?_set_self hlt]⟩
        · exact (h.taken other (by omega)).set_worker hidle (by simp) (by simp) fun _ hr => ⟨_, hr⟩
      case running =>
        intro other job' index' hother
        rcases getElem?_set_running hother with ⟨-, heq⟩ | ⟨-, hother⟩
        · cases heq
          exact hjobs
        · exact h.running other job' index' hother
      case results => exact h.results
      case drained =>
        intro hexited
        rcases List.mem_or_eq_of_mem_set hexited with hexited | heq
        · have := h.drained hexited
          rw [hqueue] at this
          cases this
        · cases heq
  | @leave worker hidle hqueue =>
      constructor
      case workers_length =>
        rw [List.length_set]
        exact h.workers_length
      case results_length => exact h.results_length
      case queue_eq => exact h.queue_eq
      case taken =>
        intro index hindex
        exact (h.taken index hindex).set_worker hidle (by simp) (by simp) fun _ hr => ⟨_, hr⟩
      case running =>
        intro other job index hother
        rcases getElem?_set_running hother with ⟨-, heq⟩ | ⟨-, hother⟩
        · cases heq
        · exact h.running other job index hother
      case results => exact h.results
      case drained => exact fun _ => hqueue
  | @publish worker index job result hrunning hends =>
      have hjob := h.running worker job index hrunning
      have hlt : index < pool.results.length := by
        rw [h.results_length]
        exact (List.getElem?_eq_some_iff.mp hjob).1
      constructor
      case workers_length =>
        rw [List.length_set]
        exact h.workers_length
      case results_length =>
        rw [List.length_set]
        exact h.results_length
      case queue_eq => exact h.queue_eq
      case taken =>
        intro other hother
        by_cases hsame : other = index
        · exact .inr (.inr ⟨result, by rw [hsame, List.getElem?_set_self hlt]⟩)
        · apply (h.taken other hother).set_worker hrunning
          · intro result' hresult'
            refine ⟨result', ?_⟩
            rw [List.getElem?_set_ne fun heq => hsame heq.symm]
            exact hresult'
          · rintro job' heq
            cases heq
            exact hsame rfl
          · simp
      case running =>
        intro other job' index' hother
        rcases getElem?_set_running hother with ⟨-, heq⟩ | ⟨-, hother⟩
        · cases heq
        · exact h.running other job' index' hother
      case results =>
        intro other result' hresult'
        by_cases hsame : other = index
        · rw [hsame, List.getElem?_set_self hlt] at hresult'
          cases hresult'
          exact ⟨job, hsame ▸ hjob, hends⟩
        · rw [List.getElem?_set_ne fun heq => hsame heq.symm] at hresult'
          exact h.results other result' hresult'
      case drained =>
        intro hexited
        rcases List.mem_or_eq_of_mem_set hexited with hexited | heq
        · exact h.drained hexited
        · cases heq
  | @crash worker index job hrunning hcrashes =>
      have hlt := (List.getElem?_eq_some_iff.mp hrunning).1
      constructor
      case workers_length =>
        rw [List.length_set]
        exact h.workers_length
      case results_length => exact h.results_length
      case queue_eq => exact h.queue_eq
      case taken => exact fun _ _ => .inr (.inl ⟨worker, List.getElem?_set_self hlt⟩)
      case running =>
        intro other job' index' hother
        rcases getElem?_set_running hother with ⟨-, heq⟩ | ⟨-, hother⟩
        · cases heq
        · exact h.running other job' index' hother
      case results => exact h.results
      case drained =>
        intro hexited
        rcases List.mem_or_eq_of_mem_set hexited with hexited | heq
        · exact h.drained hexited
        · cases heq

theorem Reachable.valid (h : Reachable ends crashes jobs workers pool) :
    Valid ends jobs workers pool := by
  induction h with
  | refl => exact valid_start
  | tail _ hstep ih => exact ih.step hstep

/-- A worker that crashed was on a job that crashes. -/
theorem Reachable.crashed (h : Reachable ends crashes jobs workers pool)
    (hcrashed : .crashed ∈ pool.workers) : ∃ job ∈ jobs, crashes job := by
  induction h with
  | refl =>
      have hidle := List.eq_of_mem_replicate hcrashed
      cases hidle
  | @tail before after hreach hstep ih =>
      cases hstep with
      | pop hidle hqueue =>
          rcases List.mem_or_eq_of_mem_set hcrashed with hbefore | heq
          · exact ih hbefore
          · cases heq
      | leave hidle hqueue =>
          rcases List.mem_or_eq_of_mem_set hcrashed with hbefore | heq
          · exact ih hbefore
          · cases heq
      | publish hrunning hends =>
          rcases List.mem_or_eq_of_mem_set hcrashed with hbefore | heq
          · exact ih hbefore
          · cases heq
      | @crash worker index job hrunning hcrashes =>
          have hjob := (Reachable.valid hreach).running worker job index hrunning
          exact ⟨job, List.mem_of_getElem? hjob, hcrashes⟩

/-- A finished pool has a result of every job, in the order of the jobs. -/
theorem Reachable.results (h : Reachable ends crashes jobs workers pool) (hworkers : 0 < workers)
    (hfinished : pool.Finished) :
    List.Forall₂ (fun job slot => ∃ result, slot = some result ∧ ends job result) jobs
      pool.results := by
  have hvalid := h.valid
  have hqueue : pool.queue = [] := by
    have hne : 0 < pool.workers.length := hvalid.workers_length ▸ hworkers
    have hexited := hfinished _ (List.getElem_mem hne)
    exact hvalid.drained (hexited ▸ List.getElem_mem hne)
  rw [List.forall₂_iff_get]
  refine ⟨hvalid.results_length.symm, fun index hjob hresult => ?_⟩
  have htaken := hvalid.taken index (by rw [hqueue, List.length_nil]; omega)
  rcases htaken with ⟨worker, job, hworker⟩ | ⟨worker, hworker⟩ | ⟨result, hslot⟩
  · cases hfinished _ (List.mem_of_getElem? hworker)
  · cases hfinished _ (List.mem_of_getElem? hworker)
  · obtain ⟨job, hjob', hends⟩ := hvalid.results index result hslot
    have hslot' := (List.getElem?_eq_some_iff.mp hslot).2
    have hjob'' := (List.getElem?_eq_some_iff.mp hjob').2
    exact ⟨result, hslot', by rw [List.get_eq_getElem, hjob'']; exact hends⟩

/-! ## Progress -/

end ProofFrame.Lib.WorkQueue
