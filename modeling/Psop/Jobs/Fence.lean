import Psop.Jobs.Attempts

/-!
The fence between a job's attempts and what they write.

An attempt writes domain rows in transactions of its own. Each takes the lock of the job's row before it
commits, and takes it only while the row is running, carries the attempt's owner and has a lease that
has not run out; otherwise it raises. `_validate_active_job_lease` does so before the first write and
remembers it for the rest of the transaction, the hook of a worker's session before every commit, after
a look without the lock when the transaction begins. Between the lock and the commit time passes.
Whoever else changes the job's row waits for the lock, or skips a locked row.

`fenced_invariant` says what a lock that is held stands for, and **`lease_fenced`** what an attempt may
change: nothing, once the row is no longer its own.
-/
namespace Psop.Jobs.Fence

open Psop.Runtime (JobStatus JobRow)
open Psop.Runtime.Rows (owns requeuedJob restingJob)
open Psop.Runtime.System (claimedJob cancelledJob expiredMessage)
open Queue (leased rowOnly failedJob abandonedJob pendingAgain finishedTurn)

/-- Where a transaction's fence stands: in the runtime service, or on the session of the worker. -/
inductive Door where
  | service
  | session
deriving DecidableEq, Repr

inductive Attempt where
  | unused
  | idle
  | opened
deriving DecidableEq, Repr

/-- The lock of the job's row, held by a transaction of an attempt since it checked the lease. -/
structure Lock where
  owner : Nat
  since : Nat
deriving DecidableEq, Repr

/-- The row of one job, and rows of any other kind. -/
structure Store (R : Type) where
  job : Job
  rows : R
  now : Nat
  attempts : Nat → Attempt
  lock : Option Lock

/-- What a commit of an attempt makes of the job's row. -/
inductive Ending where
  | goesOn
  | turn (status : JobStatus) (lastError : String) (runIsOpen unsynced : Bool)
  | rests (status : JobStatus) (lastError : String)
  | reschedules (availableAt : Nat)
deriving Repr

namespace Ending

/-- A job that ends is at rest. -/
def valid : Ending → Bool
  | .turn status _ _ _ | .rests status _ => status.resting
  | .goesOn | .reschedules _ => true

def apply (now : Nat) : Ending → Job → Job
  | .goesOn, job => job
  | .turn status lastError runIsOpen unsynced, job =>
      finishedTurn now status lastError runIsOpen unsynced job
  | .rests status lastError, job => rowOnly (restingJob status lastError) job
  | .reschedules availableAt, job => Queue.reset (pendingAgain availableAt) job

end Ending

/-- What happens to a job and to the rows its attempts write, one transaction after the other. A write is
any change of the rows. -/
inductive Event (R : Type) where
  | tick (elapsed : Nat)
  | claim (owner : Nat) (types : List JobType) (leaseSeconds : Nat)
  | renew (owner leaseSeconds : Nat)
  | abandon (owner retryDelay : Nat) (message : String)
  | recordFailure (owner : Nat) (message : String) (finalize : R → R)
  | begin (owner : Nat) (door : Door)
  | fence (owner : Nat)
  | commit (owner : Nat) (write : R → R) (ending : Ending)
  | rollback (owner : Nat)
  | recover (finalize : R → R)
  | cancel (reason : String) (write : R → R)
  | requeueInput (write : R → R)
  | ensureDriver (availableAt : Nat) (write : R → R)
  | ensureFinalizer (availableAt : Option Nat) (write : R → R)
  | others (write : R → R)

/-- The attempt a transaction belongs to, from its claim on. -/
def Event.owner? {R : Type} : Event R → Option Nat
  | .renew owner _ | .abandon owner _ _ | .recordFailure owner _ _ | .begin owner _ | .fence owner
  | .commit owner _ _ | .rollback owner => some owner
  | .tick _ | .claim _ _ _ | .recover _ | .cancel _ _ | .requeueInput _ | .ensureDriver _ _
  | .ensureFinalizer _ _ | .others _ => none

variable {R : Type}

namespace Store

def setAttempt (owner : Nat) (attempt : Attempt) (s : Store R) : Store R :=
  { s with attempts := fun other => if other = owner then attempt else s.attempts other }

/-- A transaction that waits for the lock of the row, changes it and the other rows, and commits. -/
def change (job : Job → Job) (write : R → R) (s : Store R) : Option (Store R) :=
  if s.lock = none then some { s with job := job s.job, rows := write s.rows } else none

/-- A transaction of the queue on the attempt's own row; without it nothing happens. -/
def onOwn (owner : Nat) (job : Job → Job) (write : R → R) (s : Store R) : Option (Store R) :=
  if owns owner s.job.row then change job write s else change id id s

/-- The attempt's transaction is over, and so is its lock. -/
def released (owner : Nat) (s : Store R) : Store R :=
  { s.setAttempt owner .idle with lock := s.lock.filter fun lock => lock.owner != owner }

/-- An expired lease is of a running row. -/
def expired (now : Nat) (row : JobRow) : Bool :=
  row.status == .running && row.leaseUntil.any fun deadline => decide (deadline ≤ now)

/-- The writes of a finaliser, if the job has no attempt left. -/
def finalized (finalize : R → R) (job : Job) : R → R :=
  if job.row.attemptNo < job.row.maxAttempts then id else finalize

def claim (owner : Nat) (types : List JobType) (leaseSeconds : Nat) (s : Store R) : Option (Store R) :=
  if s.attempts owner = .unused ∧ Queue.isDue types s.now s.job = true then
    (change (rowOnly (claimedJob s.now owner leaseSeconds)) id s).map (setAttempt owner .idle)
  else none

/-- The session's hook looks at the row without its lock. -/
def begin (owner : Nat) (door : Door) (s : Store R) : Option (Store R) :=
  if s.attempts owner = .idle ∧ (door = .session → leased s.now owner s.job.row = true) then
    some (s.setAttempt owner .opened)
  else none

/-- The lock, and the check under it: the transaction of an attempt without the lease is rolled back. -/
def fence (owner : Nat) (s : Store R) : Option (Store R) :=
  if s.attempts owner = .opened ∧ s.lock = none then
    if leased s.now owner s.job.row then some { s with lock := some ⟨owner, s.now⟩ }
    else some (s.setAttempt owner .idle)
  else none

def commit (owner : Nat) (write : R → R) (ending : Ending) (s : Store R) : Option (Store R) :=
  if s.lock.any (fun lock => lock.owner == owner) && ending.valid then
    some (released owner { s with job := ending.apply s.now s.job, rows := write s.rows })
  else none

def step (s : Store R) : Event R → Option (Store R)
  | .tick elapsed => some { s with now := s.now + elapsed }
  | .claim owner types leaseSeconds => claim owner types leaseSeconds s
  | .renew owner leaseSeconds => onOwn owner
      (rowOnly fun row => { row with leaseUntil := some (s.now + leaseSeconds) }) id s
  | .abandon owner retryDelay message =>
      onOwn owner (rowOnly (abandonedJob s.now retryDelay message)) id s
  | .recordFailure owner message finalize =>
      onOwn owner (rowOnly (failedJob s.now message)) (finalized finalize s.job) s
  | .begin owner door => begin owner door s
  | .fence owner => fence owner s
  | .commit owner write ending => commit owner write ending s
  | .rollback owner => if s.attempts owner = .opened then some (released owner s) else none
  | .recover finalize =>
      if expired s.now s.job.row then
        change (rowOnly (failedJob s.now (expiredMessage s.job.row))) (finalized finalize s.job) s
      else none
  | .cancel reason write => change (Queue.cancelled reason) write s
  | .requeueInput write => change (Queue.requeuedForInput s.now) write s
  | .ensureDriver availableAt write => change (Queue.reset (pendingAgain availableAt)) write s
  | .ensureFinalizer availableAt write => change (Queue.ensuredFinalizer s.now availableAt) write s
  | .others write => some { s with rows := write s.rows }

/-- A job nobody has claimed yet. -/
def start (job : Job) (rows : R) (now : Nat) : Store R := ⟨job, rows, now, fun _ => .unused, none⟩

end Store

open Store

/-! ### No change makes an attempt the owner -/

/-- Whoever owns the changed row owned it before. -/
def Disowns (change : Job → Job) : Prop :=
  ∀ owner job, owns owner (change job).row = true → owns owner job.row = true

theorem disowns_of_free {change : Job → Job} (free : ∀ job, (change job).row.workerName = none) :
    Disowns change := by
  intro owner job owned
  rw [owns_free (free job)] at owned
  cases owned

theorem disowns_of_same {change : JobRow → JobRow}
    (status : ∀ row, (change row).status = row.status)
    (worker : ∀ row, (change row).workerName = row.workerName) : Disowns (rowOnly change) := by
  intro owner job owned
  simp only [rowOnly, owns, status, worker] at owned
  exact owned

theorem disowns_id : Disowns id := fun _ _ owned => owned

theorem disowns_failed (now : Nat) (message : String) : Disowns (rowOnly (failedJob now message)) := by
  apply disowns_of_free
  intro job
  unfold rowOnly failedJob
  split <;> rfl

theorem disowns_cancelled (reason : String) : Disowns (Queue.cancelled reason) := by
  intro owner job owned
  unfold Queue.cancelled at owned
  split at owned
  · unfold rowOnly cancelledJob at owned
    split at owned
    · exact owned
    · cases owned
  · split at owned
    · exact owned
    · cases owned

theorem disowns_requeued (now : Nat) : Disowns (Queue.requeuedForInput now) := by
  intro owner job owned
  unfold Queue.requeuedForInput at owned
  split at owned
  · exact owned
  · cases owned

theorem disowns_ensured (now : Nat) (availableAt : Option Nat) :
    Disowns (Queue.ensuredFinalizer now availableAt) := by
  intro owner job owned
  unfold Queue.ensuredFinalizer at owned
  split at owned
  · exact owned
  split at owned
  · split at owned
    · split at owned
      · exact owned
      · exact owned
    · exact owned
  · cases owned

theorem disowns_ending (now : Nat) {ending : Ending} (valid : ending.valid = true) :
    Disowns (ending.apply now) := by
  have rests : ∀ {status : JobStatus} {lastError : String}, status.resting = true →
      Disowns (rowOnly (restingJob status lastError)) := fun _ => disowns_of_free fun _ => rfl
  cases ending with
  | goesOn => exact disowns_id
  | turn status lastError runIsOpen unsynced =>
    intro owner job owned
    have owned : owns owner (finishedTurn now status lastError runIsOpen unsynced job).row = true :=
      owned
    unfold finishedTurn at owned
    split at owned
    · cases owned
    · exact rests valid owner job owned
  | rests status lastError => exact rests valid
  | reschedules availableAt => exact disowns_of_free fun _ => rfl

/-! ### What a lock stands for -/

/-- Under the lock the row is the owner's, and its lease had not run out when the lock was taken. -/
structure Holds (now : Nat) (row : JobRow) (lock : Lock) : Prop where
  owns : owns lock.owner row = true
  past : lock.since ≤ now
  lease : ∃ deadline, row.leaseUntil = some deadline ∧ lock.since < deadline

def Fenced (s : Store R) : Prop := ∀ lock, s.lock = some lock → Holds s.now s.job.row lock

section Steps

variable {s s' : Store R}

theorem change_spec {job : Job → Job} {write : R → R} (did : change job write s = some s') :
    s.lock = none ∧ s' = { s with job := job s.job, rows := write s.rows } := by
  unfold change at did
  split at did
  · rename_i free
    exact ⟨free, (Option.some.inj did).symm⟩
  · cases did

/-- A transaction of the queue: nothing, or a change of the row that the attempt owns. -/
theorem on_own_spec {owner : Nat} {job : Job → Job} {write : R → R}
    (did : onOwn owner job write s = some s') : s.lock = none ∧
      (s' = s ∨ owns owner s.job.row = true ∧ s' = { s with job := job s.job, rows := write s.rows }) := by
  unfold onOwn at did
  split at did
  · rename_i mine
    obtain ⟨free, same⟩ := change_spec did
    exact ⟨free, .inr ⟨mine, same⟩⟩
  · obtain ⟨free, same⟩ := change_spec did
    exact ⟨free, .inl same⟩

theorem leased_spec {now owner : Nat} {row : JobRow} (isLeased : leased now owner row = true) :
    Holds now row ⟨owner, now⟩ := by
  obtain ⟨mine, deadline⟩ := Bool.and_eq_true_iff.mp isLeased
  obtain ⟨until_, isUntil, future⟩ := (Option.any_eq_true ..).mp deadline
  exact ⟨mine, le_refl _, until_, isUntil, of_decide_eq_true future⟩

theorem fenced_of_free (free : s.lock = none) : Fenced s := fun lock held => by
  rw [free] at held
  cases held

theorem fence_spec {owner : Nat} (did : fence owner s = some s') : s.attempts owner = .opened ∧
    (leased s.now owner s.job.row = true ∧ s' = { s with lock := some ⟨owner, s.now⟩ } ∨
      s.lock = none ∧ s' = s.setAttempt owner .idle) := by
  unfold fence at did
  split at did
  · rename_i may
    refine ⟨may.1, ?_⟩
    split at did
    · rename_i isLeased
      exact .inl ⟨isLeased, (Option.some.inj did).symm⟩
    · exact .inr ⟨may.2, (Option.some.inj did).symm⟩
  · cases did

theorem commit_spec {owner : Nat} {write : R → R} {ending : Ending}
    (did : commit owner write ending s = some s') : (∃ since, s.lock = some ⟨owner, since⟩) ∧
      ending.valid = true ∧
      s' = released owner { s with job := ending.apply s.now s.job, rows := write s.rows } := by
  unfold commit at did
  split at did
  · rename_i may
    obtain ⟨held, valid⟩ := Bool.and_eq_true_iff.mp may
    obtain ⟨lock, isLock, isOwner⟩ := (Option.any_eq_true ..).mp held
    exact ⟨⟨lock.since, by rw [isLock, ← beq_iff_eq.mp isOwner]⟩, valid, (Option.some.inj did).symm⟩
  · cases did

theorem released_lock {owner : Nat} {lock : Lock} (kept : (released owner s).lock = some lock) :
    s.lock = some lock ∧ lock.owner ≠ owner := by
  obtain ⟨isLock, differ⟩ := Option.filter_eq_some_iff.mp kept
  exact ⟨isLock, bne_iff_ne.mp differ⟩

/-- **Every step keeps the fence.** -/
theorem fenced_step {e : Event R} (ok : Fenced s) (stepped : step s e = some s') : Fenced s' := by
  have changed : ∀ {job : Job → Job} {write : R → R}, change job write s = some s' → Fenced s' := by
    intro job write did
    obtain ⟨free, rfl⟩ := change_spec did
    exact fenced_of_free free
  have onOwn : ∀ {owner : Nat} {job : Job → Job} {write : R → R},
      onOwn owner job write s = some s' → Fenced s' := by
    intro owner job write did
    obtain ⟨free, rfl | ⟨-, rfl⟩⟩ := on_own_spec did
    · exact ok
    · exact fenced_of_free free
  cases e with
  | tick elapsed =>
    obtain rfl := Option.some.inj stepped
    intro lock held
    have holds := ok lock held
    exact ⟨holds.owns, Nat.le_add_right_of_le holds.past, holds.lease⟩
  | claim owner types leaseSeconds =>
    simp only [step, claim] at stepped
    split at stepped
    · obtain ⟨between, did, rfl⟩ := Option.map_eq_some_iff.mp stepped
      obtain ⟨free, rfl⟩ := change_spec did
      exact fenced_of_free free
    · cases stepped
  | renew => exact onOwn stepped
  | abandon => exact onOwn stepped
  | recordFailure => exact onOwn stepped
  | begin owner door =>
    simp only [step, begin] at stepped
    split at stepped
    · obtain rfl := Option.some.inj stepped
      exact ok
    · cases stepped
  | fence owner =>
    obtain ⟨-, ⟨isLeased, rfl⟩ | ⟨free, rfl⟩⟩ := fence_spec stepped
    · rintro lock held
      obtain rfl := Option.some.inj held
      exact leased_spec isLeased
    · exact fenced_of_free free
  | commit owner write ending =>
    obtain ⟨⟨since, held⟩, -, rfl⟩ := commit_spec stepped
    intro lock kept
    obtain ⟨isLock, differ⟩ := released_lock kept
    have same : some (Lock.mk owner since) = some lock := held.symm.trans isLock
    exact absurd (congrArg Lock.owner (Option.some.inj same)).symm differ
  | rollback owner =>
    simp only [step] at stepped
    split at stepped
    · obtain rfl := Option.some.inj stepped
      exact fun lock kept => ok lock (released_lock kept).1
    · cases stepped
  | recover finalize =>
    simp only [step] at stepped
    split at stepped
    · exact changed stepped
    · cases stepped
  | cancel => exact changed stepped
  | requeueInput => exact changed stepped
  | ensureDriver => exact changed stepped
  | ensureFinalizer => exact changed stepped
  | others write =>
    obtain rfl := Option.some.inj stepped
    exact ok

/-- **A lock is held** only over a row that its holder owns, and was taken before the lease ran out. -/
theorem fenced_invariant {job : Job} {rows : R} {now : Nat}
    (run : Run step anyStep (start job rows now) s) : Fenced s :=
  run.invariant (fun _ _ _ ok _ stepped => fenced_step ok stepped) (fenced_of_free rfl)

/-! ### Attempts that lost their job -/

/-- The attempt was made, and the job is no longer its own. -/
def Lost (owner : Nat) (s : Store R) : Prop :=
  s.attempts owner ≠ .unused ∧ owns owner s.job.row = false

theorem lost_of_disowns {owner : Nat} {change : Job → Job} (disowns : Disowns change)
    (lost : owns owner s.job.row = false) : owns owner (change s.job).row = false := by
  rw [← Bool.not_eq_true] at lost ⊢
  exact fun owned => lost (disowns _ _ owned)

theorem set_used {owner other : Nat} {attempt : Attempt} (used : s.attempts other ≠ .unused)
    (isUsed : attempt ≠ .unused) : (s.setAttempt owner attempt).attempts other ≠ .unused := by
  unfold setAttempt
  dsimp only
  split
  · exact isUsed
  · exact used

/-- **What is lost stays lost**: no step makes an earlier attempt the owner again. -/
theorem lost_step {owner : Nat} {e : Event R} (lost : Lost owner s) (stepped : step s e = some s') :
    Lost owner s' := by
  obtain ⟨used, none⟩ := lost
  have changed : ∀ {job : Job → Job} {write : R → R}, Disowns job →
      change job write s = some s' → Lost owner s' := by
    intro job write disowns did
    obtain ⟨-, rfl⟩ := change_spec did
    exact ⟨used, lost_of_disowns disowns none⟩
  have onOwn : ∀ {other : Nat} {job : Job → Job} {write : R → R}, Disowns job →
      onOwn other job write s = some s' → Lost owner s' := by
    intro other job write disowns did
    obtain ⟨-, rfl | ⟨-, rfl⟩⟩ := on_own_spec did
    · exact ⟨used, none⟩
    · exact ⟨used, lost_of_disowns disowns none⟩
  cases e with
  | tick elapsed =>
    obtain rfl := Option.some.inj stepped
    exact ⟨used, none⟩
  | claim other types leaseSeconds =>
    simp only [step, claim] at stepped
    split at stepped
    · rename_i may
      obtain ⟨between, did, rfl⟩ := Option.map_eq_some_iff.mp stepped
      obtain ⟨-, rfl⟩ := change_spec did
      have differ : other ≠ owner := fun same => used (same ▸ may.1)
      refine ⟨set_used used (by simp), ?_⟩
      show owns owner (claimedJob s.now other leaseSeconds s.job.row) = false
      simpa [owns, claimedJob] using differ
    · cases stepped
  | renew =>
    refine onOwn ?_ stepped
    exact disowns_of_same (fun _ => rfl) fun _ => rfl
  | abandon => exact onOwn (disowns_of_free fun _ => rfl) stepped
  | recordFailure => exact onOwn (disowns_failed _ _) stepped
  | begin other door =>
    simp only [step, begin] at stepped
    split at stepped
    · obtain rfl := Option.some.inj stepped
      exact ⟨set_used used (by simp), none⟩
    · cases stepped
  | fence other =>
    obtain ⟨-, ⟨-, rfl⟩ | ⟨-, rfl⟩⟩ := fence_spec stepped
    · exact ⟨used, none⟩
    · exact ⟨set_used used (by simp), none⟩
  | commit other write ending =>
    obtain ⟨-, valid, rfl⟩ := commit_spec stepped
    exact ⟨set_used used (by simp), lost_of_disowns (disowns_ending s.now valid) none⟩
  | rollback other =>
    simp only [step] at stepped
    split at stepped
    · obtain rfl := Option.some.inj stepped
      exact ⟨set_used used (by simp), none⟩
    · cases stepped
  | recover finalize =>
    simp only [step] at stepped
    split at stepped
    · exact changed (disowns_failed _ _) stepped
    · cases stepped
  | cancel => exact changed (disowns_cancelled _) stepped
  | requeueInput => exact changed (disowns_requeued _) stepped
  | ensureDriver => exact changed (disowns_of_free fun _ => rfl) stepped
  | ensureFinalizer => exact changed (disowns_ensured _ _) stepped
  | others write =>
    obtain rfl := Option.some.inj stepped
    exact ⟨used, none⟩

/-- A change of the job's row or of the other rows. -/
def Changes (s s' : Store R) : Prop := s'.job ≠ s.job ∨ s'.rows ≠ s.rows

/-- A step of an attempt changes something only as the owner of the job. -/
theorem own_step {owner : Nat} {e : Event R} (ok : Fenced s) (own : e.owner? = some owner)
    (stepped : step s e = some s') (changes : Changes s s') : owns owner s.job.row = true := by
  have still : ∀ {t : Store R}, t.job = s.job → t.rows = s.rows → ¬Changes s t :=
    fun job rows changes => changes.elim (fun differ => differ job) fun differ => differ rows
  have onOwn : ∀ {other : Nat} {job : Job → Job} {write : R → R},
      onOwn other job write s = some s' → owns other s.job.row = true := by
    intro other job write did
    obtain ⟨-, rfl | ⟨mine, -⟩⟩ := on_own_spec did
    · exact absurd changes (still rfl rfl)
    · exact mine
  cases e with
  | tick | claim | recover | cancel | requeueInput | ensureDriver | ensureFinalizer | others =>
    cases own
  | renew => obtain rfl := Option.some.inj own; exact onOwn stepped
  | abandon => obtain rfl := Option.some.inj own; exact onOwn stepped
  | recordFailure => obtain rfl := Option.some.inj own; exact onOwn stepped
  | begin other door =>
    simp only [step, begin] at stepped
    split at stepped
    · obtain rfl := Option.some.inj stepped
      exact absurd changes (still rfl rfl)
    · cases stepped
  | fence other =>
    obtain ⟨-, ⟨-, rfl⟩ | ⟨-, rfl⟩⟩ := fence_spec stepped
    · exact absurd changes (still rfl rfl)
    · exact absurd changes (still rfl rfl)
  | commit other write ending =>
    obtain rfl := Option.some.inj own
    obtain ⟨⟨since, held⟩, -, -⟩ := commit_spec stepped
    exact (ok _ held).owns
  | rollback other =>
    simp only [step] at stepped
    split at stepped
    · obtain rfl := Option.some.inj stepped
      exact absurd changes (still rfl rfl)
    · cases stepped

/-- While an attempt holds the lock, the row changes by its commit alone. -/
theorem locked_step {lock : Lock} {e : Event R} (held : s.lock = some lock)
    (stepped : step s e = some s')
    (other : ∀ write ending, e ≠ .commit lock.owner write ending) : s'.job = s.job := by
  have changed : ∀ {job : Job → Job} {write : R → R}, change job write s = some s' →
      s'.job = s.job := fun did => nomatch held.symm.trans (change_spec did).1
  have onOwn : ∀ {owner : Nat} {job : Job → Job} {write : R → R},
      onOwn owner job write s = some s' → s'.job = s.job :=
    fun did => nomatch held.symm.trans (on_own_spec did).1
  cases e with
  | tick | others => obtain rfl := Option.some.inj stepped; rfl
  | claim owner types leaseSeconds =>
    simp only [step, claim] at stepped
    split at stepped
    · obtain ⟨between, did, rfl⟩ := Option.map_eq_some_iff.mp stepped
      exact nomatch held.symm.trans (change_spec did).1
    · cases stepped
  | renew => exact onOwn stepped
  | abandon => exact onOwn stepped
  | recordFailure => exact onOwn stepped
  | begin owner door =>
    simp only [step, begin] at stepped
    split at stepped
    · obtain rfl := Option.some.inj stepped
      rfl
    · cases stepped
  | fence owner =>
    obtain ⟨-, ⟨-, rfl⟩ | ⟨-, rfl⟩⟩ := fence_spec stepped
    · rfl
    · rfl
  | commit owner write ending =>
    obtain ⟨⟨since, isLock⟩, -, -⟩ := commit_spec stepped
    obtain rfl := Option.some.inj (held.symm.trans isLock)
    exact absurd rfl (other write ending)
  | rollback owner =>
    simp only [step] at stepped
    split at stepped
    · obtain rfl := Option.some.inj stepped
      rfl
    · cases stepped
  | recover finalize =>
    simp only [step] at stepped
    split at stepped
    · exact changed stepped
    · cases stepped
  | cancel => exact changed stepped
  | requeueInput => exact changed stepped
  | ensureDriver => exact changed stepped
  | ensureFinalizer => exact changed stepped

end Steps

/-- **The fence.** In every run: what an attempt changes, the job's row or any other, it changes as the
owner of a running job, and by a commit of its own only under a lock it took while its lease had not
run out, under which nobody else changes the job's row. Once an attempt has lost its job, none of its
steps changes anything again, whatever else happens. -/
theorem lease_fenced {job : Job} {rows : R} {now : Nat} {s : Store R}
    (run : Run step anyStep (start job rows now) s) :
    (∀ owner e s', e.owner? = some owner → step s e = some s' → Changes s s' →
      owns owner s.job.row = true ∧ ∀ write ending, e = .commit owner write ending →
        ∃ since deadline, s.lock = some ⟨owner, since⟩ ∧ since ≤ s.now ∧
          s.job.row.leaseUntil = some deadline ∧ since < deadline) ∧
    (∀ lock e s', s.lock = some lock → step s e = some s' →
      (∀ write ending, e ≠ .commit lock.owner write ending) → s'.job = s.job) ∧
    ∀ owner, Lost owner s → ∀ t, Run step anyStep s t → ∀ e t', e.owner? = some owner →
      step t e = some t' → ¬Changes t t' := by
  have ok := fenced_invariant run
  refine ⟨fun owner e s' own stepped changes => ⟨own_step ok own stepped changes, ?_⟩,
    fun lock e s' held stepped other => locked_step held stepped other,
    fun owner lost t later e t' own stepped changes => ?_⟩
  · rintro write ending rfl
    obtain ⟨⟨since, held⟩, -, -⟩ := commit_spec stepped
    obtain ⟨-, past, deadline, isUntil, future⟩ := ok _ held
    exact ⟨since, deadline, held, past, isUntil, future⟩
  · have lost := later.invariant (fun _ _ _ lost _ stepped => lost_step lost stepped) lost
    have mine := own_step (fenced_invariant (run.trans later)) own stepped changes
    exact Bool.false_ne_true (lost.2.symm.trans mine)

def pendingJob : Job := ⟨0, .runtime, 0, { maxAttempts := 2, availableAt := 0 }, 0⟩

/-- The lease of the first attempt runs out with its transaction open, and the job is claimed again. -/
def reclaimed : List (Event Nat) :=
  [.claim 1 [.runtime] 5, .begin 1 .service, .tick 5, .recover id, .tick 300, .claim 2 [.runtime] 5]

theorem lease_fenced_reclaimed :
    ∃ s, follow step anyStep (start pendingJob 0 0) reclaimed = some s ∧
      ∀ t, Run step anyStep s t → ∀ e t', e.owner? = some 1 → step t e = some t' →
        ¬Changes t t' := by
  obtain ⟨s, followed, lost⟩ := (Option.any_eq_true ..).mp (show
    (follow step anyStep (start pendingJob 0 0) reclaimed).any (fun s =>
      decide (s.attempts 1 ≠ .unused) && !owns 1 s.job.row) = true by decide +kernel)
  obtain ⟨used, none⟩ := Bool.and_eq_true_iff.mp lost
  exact ⟨s, followed, (lease_fenced (run_of_follow followed)).2.2 1
    ⟨of_decide_eq_true used, by simpa using none⟩⟩

/-- The lease runs out between the lock and the commit. -/
def stalled : List (Event Nat) := [.claim 1 [.runtime] 5, .begin 1 .service, .fence 1, .tick 5]

/-- A lease is looked at when the lock is taken, not at the commit: that may come after its end. -/
theorem commit_after_lease : ¬∀ (job : Job) (rows now : Nat) (s s' : Store Nat) (owner : Nat)
    (write : Nat → Nat) (ending : Ending), Run step anyStep (start job rows now) s →
    step s (.commit owner write ending) = some s' → s'.rows ≠ s.rows →
    leased s.now owner s.job.row = true := by
  intro always
  obtain ⟨s, followed, late⟩ := (Option.any_eq_true ..).mp (show
    (follow step anyStep (start pendingJob 0 0) stalled).any (fun s =>
      (step s (.commit 1 (· + 1) .goesOn)).any (fun s' => decide (s'.rows ≠ s.rows)) &&
        !leased s.now 1 s.job.row) = true by decide +kernel)
  obtain ⟨commits, expired⟩ := Bool.and_eq_true_iff.mp late
  obtain ⟨s', committed, wrote⟩ := (Option.any_eq_true ..).mp commits
  have lease := always _ _ _ s s' 1 _ _ (run_of_follow followed) committed (of_decide_eq_true wrote)
  rw [lease] at expired
  cases expired

end Psop.Jobs.Fence
