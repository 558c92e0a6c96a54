import Mathlib.Data.List.Nodup
import Psop.Jobs.Queue
import Psop.Runs

/-!
The attempts of a job are bounded, and no waiting job is out of them.

`Budget` is the invariant of one row: its attempts stay within their maximum, a row that waits has one
left, and every start of the handler was paid for by an attempt, also the one that a worker has
claimed and not yet made. `attempts_bounded` carries it over every run of the queue.
-/
namespace Psop.Jobs

open Psop.Runtime (JobStatus JobRow)
open Psop.Runtime.Rows (owns requeuedJob restingJob)
open Psop.Runtime.System (claimedJob cancelledJob)
open Queue

/-! ### One row -/

structure Budget (workers : Nat → Worker) (job : Job) : Prop where
  positive : 1 ≤ job.row.maxAttempts
  within : job.row.attemptNo ≤ job.row.maxAttempts
  waiting : waits job.row.status = true → job.row.attemptNo < job.row.maxAttempts
  started : job.starts ≤ job.row.attemptNo
  unstarted : ∀ owner, workers owner = .claimed job.id → owns owner job.row = true →
    job.starts < job.row.attemptNo

section Row

variable {workers workers' : Nat → Worker} {job : Job}

theorem owns_spec {owner : Nat} {row : JobRow} :
    owns owner row = true ↔ row.status = .running ∧ row.workerName = some owner := by
  simp [owns]

/-- A row nobody owns owes no start. -/
theorem Budget.of_free (positive : 1 ≤ job.row.maxAttempts)
    (within : job.row.attemptNo ≤ job.row.maxAttempts)
    (waiting : waits job.row.status = true → job.row.attemptNo < job.row.maxAttempts)
    (started : job.starts ≤ job.row.attemptNo) (free : ∀ owner, owns owner job.row = false) :
    Budget workers job :=
  ⟨positive, within, waiting, started, fun owner _ mine => by rw [free owner] at mine; cases mine⟩

theorem owns_free {row : JobRow} (free : row.workerName = none) (owner : Nat) :
    owns owner row = false := by
  simp [owns, free]

/-- Only what a worker has claimed is owed. -/
theorem Budget.of_workers (budget : Budget workers job)
    (same : ∀ owner, workers' owner = .claimed job.id → workers owner = .claimed job.id) :
    Budget workers' job :=
  ⟨budget.positive, budget.within, budget.waiting, budget.started,
    fun owner claimed => budget.unstarted owner (same owner claimed)⟩

/-- A new count of attempts. -/
theorem Budget.reset (budget : Budget workers job) {change : JobRow → JobRow}
    (attempts : (change job.row).attemptNo = 0)
    (maximum : (change job.row).maxAttempts = job.row.maxAttempts)
    (free : (change job.row).workerName = none) : Budget workers' (Queue.reset change job) := by
  have positive := budget.positive
  refine .of_free ?_ ?_ (fun _ => ?_) (Nat.zero_le _) (owns_free free) <;>
    simp only [Queue.reset, attempts, maximum] <;> omega

/-- A row that keeps its attempts, its owner and its status. -/
theorem Budget.same (budget : Budget workers job) {change : JobRow → JobRow}
    (attempts : (change job.row).attemptNo = job.row.attemptNo)
    (maximum : (change job.row).maxAttempts = job.row.maxAttempts)
    (owner : (change job.row).workerName = job.row.workerName)
    (status : (change job.row).status = job.row.status) :
    Budget workers (rowOnly change job) := by
  refine ⟨?_, ?_, fun waiting => ?_, ?_, fun other claimed mine => ?_⟩ <;>
    simp only [rowOnly, attempts, maximum]
  · exact budget.positive
  · exact budget.within
  · exact budget.waiting (status ▸ waiting)
  · exact budget.started
  · simp only [rowOnly, owns, owner, status] at mine
    exact budget.unstarted other claimed mine

/-- A row that comes to rest. -/
theorem Budget.rest (budget : Budget workers job) {change : JobRow → JobRow}
    (attempts : (change job.row).attemptNo = job.row.attemptNo)
    (maximum : (change job.row).maxAttempts = job.row.maxAttempts)
    (rests : (change job.row).status.resting = true) : Budget workers' (rowOnly change job) := by
  have still : waits (change job.row).status = false ∧ (change job.row).status ≠ .running := by
    revert rests
    cases (change job.row).status <;> decide
  refine .of_free ?_ ?_ (fun waiting => ?_) ?_ (fun owner => ?_) <;>
    simp only [rowOnly, attempts, maximum]
  · exact budget.positive
  · exact budget.within
  · rw [rowOnly, still.1] at waiting
    cases waiting
  · exact budget.started
  · exact Bool.eq_false_iff.mpr fun mine => still.2 (owns_spec.mp mine).1

theorem Budget.failed (budget : Budget workers job) (now : Nat) (message : String) :
    Budget workers' (rowOnly (failedJob now message) job) := by
  have within := budget.within
  have started := budget.started
  have positive := budget.positive
  unfold failedJob rowOnly
  simp only
  split
  · rename_i left
    exact .of_free positive within (fun _ => left) started (owns_free rfl)
  · exact .of_free positive within nofun started (owns_free rfl)

theorem Budget.abandoned (budget : Budget workers job) {owner : Nat} (now retryDelay : Nat)
    (message : String) (claimed : workers owner = .claimed job.id) (mine : owns owner job.row = true) :
    Budget workers' (rowOnly (abandonedJob now retryDelay message) job) := by
  have within := budget.within
  have unstarted := budget.unstarted owner claimed mine
  refine .of_free budget.positive ?_ (fun _ => ?_) ?_ (owns_free rfl) <;>
    simp only [rowOnly, abandonedJob] <;> omega

theorem Budget.claimed (budget : Budget workers job) (now owner leaseSeconds : Nat)
    (left : job.row.attemptNo < job.row.maxAttempts) :
    Budget workers' (rowOnly (claimedJob now owner leaseSeconds) job) := by
  have started := budget.started
  refine ⟨budget.positive, ?_, nofun, ?_, fun _ _ _ => ?_⟩ <;>
    simp only [rowOnly, claimedJob] <;> omega

theorem Budget.handled (budget : Budget workers job) {owner : Nat}
    (claimed : workers owner = .claimed job.id) (mine : owns owner job.row = true)
    (others : ∀ other, workers' other = .claimed job.id → other ≠ owner) :
    Budget workers' (Queue.started job) := by
  refine ⟨budget.positive, budget.within, budget.waiting, budget.unstarted owner claimed mine,
    fun other claims owned => absurd ?_ (others other claims)⟩
  exact Option.some.inj ((owns_spec.mp owned).2.symm.trans (owns_spec.mp mine).2)

theorem Budget.turn (budget : Budget workers job) (now : Nat) {status : JobStatus} (lastError : String)
    (runIsOpen unsynced : Bool) (rests : status.resting = true) :
    Budget workers' (finishedTurn now status lastError runIsOpen unsynced job) := by
  unfold finishedTurn
  split
  · exact budget.reset rfl rfl rfl
  · exact budget.rest rfl rfl rests

theorem Budget.requeued (budget : Budget workers job) (now : Nat) :
    Budget workers (requeuedForInput now job) := by
  unfold requeuedForInput
  split
  · exact budget.same rfl rfl rfl rfl
  · exact budget.reset rfl rfl rfl

theorem Budget.ensured (budget : Budget workers job) (now : Nat) (availableAt : Option Nat) :
    Budget workers (ensuredFinalizer now availableAt job) := by
  unfold ensuredFinalizer
  split
  · exact budget
  split
  · split
    · split
      · exact budget.same rfl rfl rfl rfl
      · exact budget
    · exact budget
  · exact budget.reset rfl rfl rfl

theorem Budget.cancelled (budget : Budget workers job) (reason : String) :
    Budget workers (Queue.cancelled reason job) := by
  unfold Queue.cancelled
  split
  · by_cases ended : job.row.status = .succeeded ∨ job.row.status = .failed ∨
        job.row.status = .cancelled
    · refine budget.same ?_ ?_ ?_ ?_ <;> simp only [cancelledJob, if_pos ended]
    · refine budget.rest ?_ ?_ ?_ <;> simp only [cancelledJob, if_neg ended]
      rfl
  split
  · exact budget
  · exact budget.rest rfl rfl rfl

end Row

/-! ### The queue -/

structure Bounded (q : Queue) : Prop where
  ids : q.jobs.map Job.id = List.range q.jobs.length
  budgets : ∀ job ∈ q.jobs, Budget q.workers job

section Steps

variable {q q' : Queue}

theorem Bounded.unique (ok : Bounded q) {a b : Job} (isA : a ∈ q.jobs) (isB : b ∈ q.jobs)
    (same : a.id = b.id) : a = b :=
  List.inj_on_of_nodup_map (ok.ids ▸ List.nodup_range) isA isB same

theorem job_spec {id : Nat} {job : Job} (found : q.job? id = some job) : job ∈ q.jobs ∧ job.id = id :=
  ⟨List.mem_of_find?_eq_some found, by simpa using List.find?_some found⟩

/-- A step that changes one job and the workers. -/
theorem Bounded.update (ok : Bounded q) {id : Nat} {change : Job → Job} {workers : Nat → Worker}
    (keepsId : ∀ job, (change job).id = job.id)
    (changed : ∀ job ∈ q.jobs, job.id = id → Budget workers (change job))
    (others : ∀ job ∈ q.jobs, job.id ≠ id → Budget workers job) :
    Bounded { q.update id change with workers := workers } := by
  constructor
  · have same : (fun job => Job.id (if job.id = id then change job else job)) = Job.id := by
      funext job
      split
      · exact keepsId job
      · rfl
    simp only [Queue.update, List.map_map, Function.comp_def, same, List.length_map, ok.ids]
  · intro job stored
    obtain ⟨before, isBefore, rfl⟩ := List.mem_map.mp stored
    split
    · rename_i same
      exact changed before isBefore same
    · rename_i differ
      exact others before isBefore differ

theorem Bounded.updateRow (ok : Bounded q) (id : Nat) {change : Job → Job}
    (keepsId : ∀ job, (change job).id = job.id)
    (changed : ∀ job ∈ q.jobs, Budget q.workers job → Budget q.workers (change job)) :
    Bounded (q.update id change) :=
  @Bounded.update _ ok id change q.workers keepsId
    (fun job stored _ => changed job stored (ok.budgets job stored))
    (fun job stored _ => ok.budgets job stored)

/-- A worker that stops, or starts a handler, owes no start. -/
theorem set_worker_claims {owner id other : Nat} {worker : Worker} {q : Queue}
    (claims : (q.setWorker owner worker).workers other = .claimed id) (idle : worker ≠ .claimed id) :
    other ≠ owner ∧ q.workers other = .claimed id := by
  simp only [Queue.setWorker] at claims
  split at claims
  · exact absurd claims idle
  · rename_i differ
    exact ⟨differ, claims⟩

theorem Bounded.setWorker (ok : Bounded q) {owner : Nat} {worker : Worker}
    (idle : ∀ id, worker ≠ .claimed id) : Bounded (q.setWorker owner worker) :=
  ⟨ok.ids, fun job stored => (ok.budgets job stored).of_workers fun _ claims =>
    (set_worker_claims claims (idle job.id)).2⟩

theorem on_own_spec {owner : Nat} {change : Job → Job} (did : onOwn owner change q = some q') :
    q' = q ∨ ∃ id job, Worker.job? (q.workers owner) = some id ∧ q.job? id = some job ∧
      owns owner job.row = true ∧ q' = q.update id change := by
  unfold onOwn at did
  obtain ⟨id, has, did⟩ := Option.bind_eq_some_iff.mp did
  obtain ⟨job, found, did⟩ := Option.bind_eq_some_iff.mp did
  split at did
  · rename_i mine
    cases did
    exact .inr ⟨id, job, has, found, mine, rfl⟩
  · cases did
    exact .inl rfl

theorem Bounded.finishWith (ok : Bounded q) {owner : Nat} {change : Job → Job}
    (keepsId : ∀ job, (change job).id = job.id)
    (changed : ∀ workers job, Budget q.workers job → Budget workers (change job))
    (did : finishWith owner change q = some q') : Bounded q' := by
  unfold Queue.finishWith at did
  split at did
  · obtain ⟨job, -, rfl⟩ := Option.map_eq_some_iff.mp did
    split
    · refine ok.update keepsId (fun job stored _ => changed _ job (ok.budgets job stored)) ?_
      exact fun job stored _ => (ok.budgets job stored).of_workers fun _ claims =>
        (set_worker_claims claims nofun).2
    · exact ok
  · cases did

theorem Bounded.claim (ok : Bounded q) {owner leaseSeconds : Nat} {types : List JobType}
    (did : claim owner types leaseSeconds q = some q') : Bounded q' := by
  unfold Queue.claim at did
  split at did
  · rename_i job unused next
    cases did
    have due := List.mem_filter.mp (List.argmin_mem next)
    simp only [isDue, Bool.and_eq_true, decide_eq_true_eq] at due
    refine ok.update (fun _ => rfl) (fun other stored same => ?_) (fun other stored differ => ?_)
    · obtain rfl := ok.unique stored due.1 same
      exact (ok.budgets _ stored).claimed _ _ _ due.2.2
    · exact (ok.budgets _ stored).of_workers fun worker claims =>
        (set_worker_claims claims fun same => differ (Worker.claimed.inj same).symm).2
  · cases did

theorem Bounded.start (ok : Bounded q) {owner : Nat} (did : startHandler owner q = some q') :
    Bounded q' := by
  unfold startHandler at did
  split at did
  · rename_i id claimed
    obtain ⟨job, found, rfl⟩ := Option.map_eq_some_iff.mp did
    obtain ⟨stored, rfl⟩ := job_spec found
    split
    · rename_i mine
      refine ok.update (fun _ => rfl) (fun other isOther same => ?_) (fun other isOther _ => ?_)
      · obtain rfl := ok.unique isOther stored same
        exact (ok.budgets _ stored).handled claimed mine fun worker claims =>
          (set_worker_claims claims nofun).1
      · exact (ok.budgets _ isOther).of_workers fun worker claims =>
          (set_worker_claims claims nofun).2
    · exact ok.setWorker nofun
  · cases did

/-- A write of a worker to its own row, which frees it. -/
theorem Bounded.onOwn (ok : Bounded q) {owner : Nat} {change : JobRow → JobRow}
    (changed : ∀ job ∈ q.jobs, Worker.job? (q.workers owner) = some job.id → owns owner job.row = true →
      Budget q.workers (rowOnly change job)) (did : onOwn owner (rowOnly change) q = some q') :
    Bounded q' := by
  rcases on_own_spec did with rfl | ⟨id, job, has, found, mine, rfl⟩
  · exact ok
  · obtain ⟨stored, rfl⟩ := job_spec found
    refine @Bounded.update _ ok _ _ q.workers (fun _ => rfl) (fun other isOther same => ?_)
      (fun other isOther _ => ok.budgets other isOther)
    obtain rfl := ok.unique isOther stored same
    exact changed _ stored has mine

/-- The jobs are enqueued with an attempt at least. -/
def Positive (_ : Queue) : Event → Prop
  | .enqueue _ _ maxAttempts => 1 ≤ maxAttempts
  | _ => True

instance (q : Queue) (e : Event) : Decidable (Positive q e) := by
  cases e <;> (unfold Positive; infer_instance)

/-- **Every step keeps the budgets.** -/
theorem step_bounded {e : Event} (ok : Bounded q) (positive : Positive q e)
    (stepped : step q e = some q') : Bounded q' := by
  cases e with
  | tick => cases stepped; exact ⟨ok.ids, ok.budgets⟩
  | enqueue jobType availableAt maxAttempts =>
    cases stepped
    constructor
    · simp [ok.ids, List.range_succ]
    · intro job stored
      rcases List.mem_append.mp stored with old | new
      · exact ok.budgets job old
      · obtain rfl := List.mem_singleton.mp new
        exact .of_free positive (Nat.zero_le _) (fun _ => positive) (le_refl _) (owns_free rfl)
  | claim => exact ok.claim stepped
  | renew =>
    exact ok.onOwn (fun job stored _ _ => (ok.budgets job stored).same rfl rfl rfl rfl) stepped
  | abandon owner retryDelay message =>
    simp only [step] at stepped
    split at stepped
    · rename_i id claimed
      obtain ⟨between, did, rfl⟩ := Option.map_eq_some_iff.mp stepped
      refine Bounded.setWorker (ok.onOwn (fun job stored has mine => ?_) did) nofun
      rw [claimed] at has
      obtain rfl := Option.some.inj has
      exact (ok.budgets job stored).abandoned _ _ _ claimed mine
    · cases stepped
  | start => exact ok.start stepped
  | recordFailure owner message =>
    obtain ⟨between, did, rfl⟩ := Option.map_eq_some_iff.mp stepped
    exact Bounded.setWorker
      (ok.onOwn (fun job stored _ _ => (ok.budgets job stored).failed ..) did) nofun
  | recover id =>
    obtain ⟨job, -, stepped⟩ := Option.bind_eq_some_iff.mp stepped
    obtain ⟨deadline, -, stepped⟩ := Option.bind_eq_some_iff.mp stepped
    split at stepped
    · cases stepped
      exact ok.updateRow id (fun _ => rfl) fun job _ budget => budget.failed ..
    · cases stepped
  | finishTurn owner status lastError runIsOpen unsynced =>
    simp only [step] at stepped
    split at stepped
    · rename_i rests
      refine ok.finishWith (fun job => ?_) (fun _ _ budget => budget.turn _ _ _ _ rests) stepped
      unfold finishedTurn
      split <;> rfl
    · cases stepped
  | finish owner status lastError =>
    simp only [step] at stepped
    split at stepped
    · rename_i rests
      refine ok.finishWith (fun job => ?_) (fun _ _ budget => budget.rest rfl rfl rests) stepped
      rfl
    · cases stepped
  | requeueInput id =>
    cases stepped
    refine ok.updateRow id (fun job => ?_) fun job _ budget => budget.requeued _
    unfold requeuedForInput
    split <;> rfl
  | ensureDriver id availableAt =>
    cases stepped
    exact ok.updateRow id (fun _ => rfl) fun job _ budget => budget.reset rfl rfl rfl
  | ensureFinalizer id availableAt =>
    cases stepped
    refine ok.updateRow id (fun job => ?_) fun job _ budget => budget.ensured ..
    unfold ensuredFinalizer
    split
    · rfl
    split
    · split
      · split <;> rfl
      · rfl
    · rfl
  | reschedule owner availableAt =>
    simp only [step] at stepped
    refine ok.finishWith (fun job => ?_) (fun _ _ budget => budget.reset rfl rfl rfl) stepped
    rfl
  | cancel id reason =>
    cases stepped
    refine ok.updateRow id (fun job => ?_) fun job _ budget => budget.cancelled reason
    unfold Queue.cancelled
    split
    · rfl
    · split <;> rfl
  | crash => cases stepped; exact ok.setWorker nofun

end Steps

/-- **A waiting job has an attempt left, no job exceeds its attempts, and between two resets its handler
starts no more often than that**, in every run of the queue. -/
theorem attempts_bounded {q : Queue} {now : Nat} (run : Run step Positive (Queue.empty now) q) :
    ∀ job ∈ q.jobs, (waits job.row.status = true → job.row.attemptNo < job.row.maxAttempts) ∧
      job.row.attemptNo ≤ job.row.maxAttempts ∧ job.starts ≤ job.row.maxAttempts := by
  have empty : Bounded (Queue.empty now) := by
    refine ⟨rfl, fun job stored => ?_⟩
    cases stored
  have ok := run.invariant (fun _ _ _ ok positive stepped => step_bounded ok positive stepped) empty
  intro job stored
  have budget := ok.budgets job stored
  exact ⟨budget.waiting, budget.within, budget.started.trans budget.within⟩

/-- A job of two attempts, claimed three times: the first claim finds the advisory lock taken and is
given back, the second fails, the third is the last. -/
def thirdClaim : List Event :=
  [.enqueue .runtime 0 2, .claim 1 [.runtime] 100, .abandon 1 1 "locked", .tick 1,
    .claim 2 [.runtime] 100, .start 2, .recordFailure 2 "timeout", .tick 5, .claim 3 [.runtime] 100,
    .start 3]

theorem attempts_bounded_third :
    ∃ q, follow step Positive (Queue.empty 0) thirdClaim = some q ∧
      (q.jobs.map fun job => (job.row.attemptNo, job.starts)) = [(2, 2)] ∧
      ∀ job ∈ q.jobs, (waits job.row.status = true → job.row.attemptNo < job.row.maxAttempts) ∧
        job.row.attemptNo ≤ job.row.maxAttempts ∧ job.starts ≤ job.row.maxAttempts := by
  obtain ⟨q, followed, counts⟩ := (Option.any_eq_true ..).mp (show
    (follow step Positive (Queue.empty 0) thirdClaim).any (fun q => decide
      ((q.jobs.map fun job => (job.row.attemptNo, job.starts)) = [(2, 2)])) = true by decide +kernel)
  exact ⟨q, followed, of_decide_eq_true counts, attempts_bounded (run_of_follow followed)⟩

end Psop.Jobs
