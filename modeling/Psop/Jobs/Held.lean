import Psop.Jobs.Queue

/-!
A job as the records of its handler see it: its status and its count of attempts.

Owners and times are left out. A due job may be claimed at any moment, and the attempt of a claimed one
may end without a result at any moment: its process stops, its lease expires, or its handler raises.
`claim_ofRow` and `drop_ofRow` say that the rows of the queue do just this.

A handler's session keeps a row as it read it and writes a column only where its value differs from
that (`written`), whatever the table says by then.
-/
namespace Psop.Jobs

open Psop.Runtime (JobStatus JobRow)
open Psop.Runtime.System (claimedJob)

/-- The column of a row, where a session that read `held` sets it to `new`. -/
def written {α : Type} [DecidableEq α] (held new stored : α) : α := if new = held then stored else new

structure Held where
  status : JobStatus := .pending
  attemptNo : Nat := 0
  maxAttempts : Nat
deriving DecidableEq, Repr

namespace Held

variable {j j' : Held}

def ofRow (row : JobRow) : Held := ⟨row.status, row.attemptNo, row.maxAttempts⟩

/-- `succeeded`, `failed` or `cancelled` -/
def finished (j : Held) : Bool :=
  match j.status with
  | .succeeded | .failed | .cancelled => true
  | .pending | .running | .retryableFailed => false

/-- `claim_next_job` -/
def claim (j : Held) : Option Held :=
  if Queue.waits j.status ∧ j.attemptNo < j.maxAttempts then
    some { j with status := .running, attemptNo := j.attemptNo + 1 }
  else none

/-- The running attempt is the last one. -/
def exhausted (j : Held) : Bool := j.status == .running && decide (j.maxAttempts ≤ j.attemptNo)

/-- An attempt that ends without a result: `_record_unhandled_failure` or `recover_expired_lease`. -/
def drop (j : Held) : Held :=
  { j with status := if j.attemptNo < j.maxAttempts then .retryableFailed else .failed }

/-- The status a handler leaves its job in. -/
def settle (status : JobStatus) (j : Held) : Held := { j with status := status }

/-- The job goes back to the queue with a new count of attempts. -/
def again (j : Held) : Held := { j with status := .pending, attemptNo := 0 }

/-- A cancellation leaves a finished job alone. -/
def cancel (j : Held) : Held := if j.finished then j else { j with status := .cancelled }

theorem claim_spec (claimed : j.claim = some j') :
    j'.status = .running ∧ j.finished = false ∧ j.status ≠ .running := by
  unfold claim at claimed
  split at claimed
  · rename_i may
    obtain rfl := Option.some.inj claimed
    refine ⟨rfl, ?_, ?_⟩
    · unfold finished
      cases waits : j.status <;> simp_all [Queue.waits]
    · intro running
      simp [running, Queue.waits] at may
  · cases claimed

theorem drop_running (running : j.status = .running) :
    if j.exhausted then j.drop.status = .failed else j.drop.status = .retryableFailed := by
  unfold exhausted drop
  rw [running]
  by_cases left : j.attemptNo < j.maxAttempts
  · simp [left]
  · simp [left, Nat.not_lt.mp left]

theorem claim_ofRow {row : JobRow} (waits : Queue.waits row.status)
    (left : row.attemptNo < row.maxAttempts) (now owner leaseSeconds : Nat) :
    (ofRow row).claim = some (ofRow (claimedJob now owner leaseSeconds row)) :=
  if_pos ⟨waits, left⟩

theorem drop_ofRow (now : Nat) (message : String) (row : JobRow) :
    ofRow (Queue.failedJob now message row) = (ofRow row).drop := by
  unfold Queue.failedJob drop ofRow
  by_cases left : row.attemptNo < row.maxAttempts
  · simp only [left, if_true]
  · simp only [left, if_false]

end Held
end Psop.Jobs
