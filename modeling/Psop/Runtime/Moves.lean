import Psop.Runtime.System

/-!
What one step of the system can do.

`Move` lists the outcomes of a step, each with what the code has checked on the way to it: the lease
it held, the snapshot it worked on, the rows it locked, the token it stored. `step_move` is the one
place where the transactions are taken apart; an invariant of the runs is a case analysis over `Move`.
-/
namespace Psop.Runtime

open Json Rows Psop.Runtime.System

/-- The round of an attempt's loop in which it selects a node. -/
structure Selected (s : System) (attempt : Nat) (turn : Turn) (node : Json) : Prop where
  looping : s.attempts attempt = .looping turn
  bounded : ∃ maxSteps, maxSteps? s.rows.artifact = some maxSteps ∧ (turn.stepsDone : Int) < maxSteps
  notAborted : haltAborted s.rows.artifact turn.token = false
  notSucceeded : haltSuccess s.rows.artifact turn.token = false
  selected : selectNode (enabledNodes s.rows.artifact turn.token) = some node

/-- A node executed and merged while the attempt held its lease and the last snapshot, with its output
shown; `observation` is what the merge has left of the one it made. -/
structure Commits (platform : Platform) (s : System) (attempt : Nat) (turn : Turn)
    (outcome : AgentOutcome) (supply : Supply) (node observation charged merged : Json)
    (shown : Rows) : Prop where
  selected : Selected s attempt turn node
  merge : ∃ made, executed platform s turn node outcome = .ok (made, charged) ∧
    mergeObservation node made charged = some (merged, observation)
  holds : s.rows.holdsLease s.now (leaseOf attempt turn.leased) = true
  current : s.rows.run.latestSnapshotSeq = turn.snapshotSeq
  output : appendOutput supply (platform.isoformat s.now) node
    (interacted platform s turn node observation merged).output s.rows = some shown

/-- The history after a node's interaction. -/
def waitsAfter (platform : Platform) (s : System) (turn : Turn) (node observation merged : Json) :
    List WaitMark :=
  WaitMark.afterNode s.rows.run.latestTerminalSeq merged
    (interacted platform s turn node observation merged).token turn.waits

/-- Where a turn can fail: the token and the history it has there, the snapshot number it asks for and
the rows its transaction has come to. -/
inductive Fails (platform : Platform) (s : System) (attempt : Nat) :
    Event → Bool → Json → List WaitMark → Nat → Rows → Prop
  | starting {leased : Bool} {supply : Supply} {snapshot : Snapshot}
      (may : mayBegin leased (s.attempts attempt) = true) (unfinished : s.rows.finished = false)
      (last : s.rows.lastSnapshot? = some snapshot)
      (unread : cursor? (compactRuntimeToken platform.sha256 snapshot.token) = none ∨
        syncTerminalEvents (platform.isoformat s.now) s.rows.events
          (compactRuntimeToken platform.sha256 snapshot.token) = none) :
      Fails platform s attempt (.begin attempt leased supply) leased
        (compactRuntimeToken platform.sha256 snapshot.token) snapshot.waits
        s.rows.run.latestSnapshotSeq (startedRows s.rows)
  | looping {turn : Turn} {outcome : AgentOutcome} {supply : Supply}
      (looping : s.attempts attempt = .looping turn)
      (stuck : (haltAborted s.rows.artifact turn.token = false ∧
          haltSuccess s.rows.artifact turn.token = false ∧
          selectNode (enabledNodes s.rows.artifact turn.token) = none) ∨
        ¬ ∃ maxSteps, maxSteps? s.rows.artifact = some maxSteps ∧
          (turn.stepsDone : Int) < maxSteps) :
      Fails platform s attempt (.turn attempt outcome supply) turn.leased turn.token turn.waits
        turn.expected s.rows
  | executing {turn : Turn} {outcome : AgentOutcome} {supply : Supply} {node : Json}
      {failure : Failure} (selected : Selected s attempt turn node)
      (failed : executed platform s turn node outcome = .error failure) :
      Fails platform s attempt (.turn attempt outcome supply) turn.leased turn.token turn.waits
        turn.snapshotSeq s.rows
  | merging {turn : Turn} {outcome : AgentOutcome} {supply : Supply} {node observation token : Json}
      (selected : Selected s attempt turn node)
      (ran : executed platform s turn node outcome = .ok (observation, token))
      (unmerged : mergeObservation node observation token = none) :
      Fails platform s attempt (.turn attempt outcome supply) turn.leased token turn.waits
        turn.snapshotSeq s.rows
  | applying {turn : Turn} {outcome : AgentOutcome} {supply : Supply}
      {node observation charged merged : Json} {shown : Rows} {failure : Failure}
      (commits : Commits platform s attempt turn outcome supply node observation charged merged shown)
      (failed : (interacted platform s turn node observation merged).outcome = .error failure) :
      Fails platform s attempt (.turn attempt outcome supply) turn.leased
        (interacted platform s turn node observation merged).token
        (waitsAfter platform s turn node observation merged) turn.snapshotSeq shown

/-- The outcomes of a step. -/
inductive Move (platform : Platform) (s : System) : Event → System → Prop
  | tick {elapsed : Nat} : Move platform s (.tick elapsed) { s with now := s.now + elapsed }
  | repeated {e : Event} {draft : EventDraft} {event : TerminalEvent}
      (found : duplicate? draft s.rows = some event) : Move platform s e (answer draft event s)
  | appended {e : Event} {draft : EventDraft} {rows : Rows} {event : TerminalEvent}
      (asks : e = .append draft ∨ e = .persist draft) (unfinished : s.rows.finished = false)
      (isOpen : s.rows.sessionOpen = true)
      (stored : s.rows.appendTerminalEvent draft = some (rows, event)) :
      Move platform s e (answer draft event (s.withRows (woken s.now draft rows)))
  | cancelled {reason : String} {rows : Rows} (unfinished : s.rows.finished = false)
      (snapped : appendCancelSnapshot (platform.isoformat s.now) reason (cancelledRun reason s.rows) =
        some rows) :
      Move platform s (.cancel reason)
        (s.withRows { rows with job := rows.job.map (cancelledJob reason) })
  | claimed {owner leaseSeconds : Nat} {job : JobRow} (unused : s.attempts owner = .unused)
      (has : s.rows.job = some job) (due : job.status = .pending ∨ job.status = .retryableFailed) :
      Move platform s (.claim owner leaseSeconds)
        ((s.withJob (claimedJob s.now owner leaseSeconds job)).setAttempt owner .claimed)
  | renewed {owner leaseSeconds : Nat} {job : JobRow} (has : s.rows.job = some job)
      (owned : owns owner job = true) :
      Move platform s (.renew owner leaseSeconds)
        (s.withJob { job with leaseUntil := some (s.now + leaseSeconds) })
  | released {e : Event} {job job' : JobRow} (has : s.rows.job = some job)
      (running : job.status = .running) (status : job'.status = .retryableFailed)
      (unowned : job'.workerName = none) : Move platform s e (s.withJob job')
  | exhausted {e : Event} {id error : String} {trace : TraceRef} {job job' : JobRow} {rows : Rows}
      (has : s.rows.job = some job) (running : job.status = .running)
      (status : job'.status = .failed) (unowned : job'.workerName = none)
      (finalized : finalizeExhaustedJob (platform.isoformat s.now) id error trace
        { s.rows with job := some job' } = some rows) :
      Move platform s e (s.withRows rows)
  | stopped {e : Event} {attempt : Nat} : Move platform s e (s.setAttempt attempt .ended)
  | settled {attempt : Nat} {leased : Bool} {supply : Supply} (finished : s.rows.finished = true)
      (holds : s.rows.holdsLease s.now (leaseOf attempt leased) = true) :
      Move platform s (.begin attempt leased supply) (endAttempt attempt (settleFinished s.rows) s)
  | begun {attempt : Nat} {leased : Bool} {supply : Supply} {snapshot : Snapshot}
      {acceptAfterSeq : Int} {synced : Json} (may : mayBegin leased (s.attempts attempt) = true)
      (holds : s.rows.holdsLease s.now (leaseOf attempt leased) = true)
      (unfinished : s.rows.finished = false) (last : s.rows.lastSnapshot? = some snapshot)
      (cursor : cursor? (compactRuntimeToken platform.sha256 snapshot.token) = some acceptAfterSeq)
      (sync : syncTerminalEvents (platform.isoformat s.now) s.rows.events
        (compactRuntimeToken platform.sha256 snapshot.token) = some synced)
      (awake : hasStatus synced "waiting" = false) :
      Move platform s (.begin attempt leased supply)
        ((s.withRows (runningRows synced (startedRows s.rows))).setAttempt attempt (.looping
          (loopTurn platform snapshot acceptAfterSeq synced s.rows.run.latestSnapshotSeq leased)))
  | rested {attempt : Nat} {leased : Bool} {supply : Supply} {snapshot : Snapshot} {synced : Json}
      {rows : Rows} (holds : s.rows.holdsLease s.now (leaseOf attempt leased) = true)
      (unfinished : s.rows.finished = false) (last : s.rows.lastSnapshot? = some snapshot)
      (sync : syncTerminalEvents (platform.isoformat s.now) s.rows.events
        (compactRuntimeToken platform.sha256 snapshot.token) = some synced)
      (asleep : hasStatus synced "waiting" = true)
      (waited : waitTurn s.now synced (startedRows s.rows) = some rows) :
      Move platform s (.begin attempt leased supply) (endAttempt attempt rows s)
  | recovered {e : Event} {attempt : Nat} {leased : Bool} {token : Json} {waits : List WaitMark}
      {expected : Nat} {rows rows' : Rows} {failure : Failure} {supply : Supply}
      (fails : Fails platform s attempt e leased token waits expected rows)
      (recoverable : isRecoverable token = true)
      (holds : rows.holdsLease s.now (leaseOf attempt leased) = true)
      (current : rows.run.latestSnapshotSeq = expected)
      (recovered : recoverTurn s.now (platform.isoformat s.now) token waits failure supply rows =
        some rows') : Move platform s e (endAttempt attempt rows' s)
  | failed {e : Event} {attempt : Nat} {leased : Bool} {token : Json} {waits : List WaitMark}
      {expected : Nat} {rows rows' : Rows} {failure : Failure} {supply : Supply}
      (fails : Fails platform s attempt e leased token waits expected rows)
      (holds : rows.holdsLease s.now (leaseOf attempt leased) = true)
      (failed : failTurn s.now (platform.isoformat s.now) token failure supply rows = some rows') :
      Move platform s e (endAttempt attempt rows' s)
  | advanced {attempt : Nat} {turn : Turn} {outcome : AgentOutcome} {supply : Supply}
      {node observation charged merged : Json} {shown rows : Rows}
      (commits : Commits platform s attempt turn outcome supply node observation charged merged shown)
      (goesOn : (interacted platform s turn node observation merged).outcome = .ok false)
      (stored : appendRuntimeStep supply (platform.isoformat s.now) node observation
        (interacted platform s turn node observation merged).token
        (enabledAfter shown.artifact (interacted platform s turn node observation merged).token false)
        (waitsAfter platform s turn node observation merged) shown = some rows) :
      Move platform s (.turn attempt outcome supply) ((s.withRows rows).setAttempt attempt (.looping
        (nextTurn turn (interacted platform s turn node observation merged).token
          (waitsAfter platform s turn node observation merged))))
  | waited {attempt : Nat} {turn : Turn} {outcome : AgentOutcome} {supply : Supply}
      {node observation charged merged : Json} {shown stepped rows : Rows}
      (commits : Commits platform s attempt turn outcome supply node observation charged merged shown)
      (waits : (interacted platform s turn node observation merged).outcome = .ok true)
      (stored : appendRuntimeStep supply (platform.isoformat s.now) node observation
        (interacted platform s turn node observation merged).token
        (enabledAfter shown.artifact (interacted platform s turn node observation merged).token true)
        (waitsAfter platform s turn node observation merged) shown = some stepped)
      (waited : waitTurn s.now (interacted platform s turn node observation merged).token stepped =
        some rows) :
      Move platform s (.turn attempt outcome supply) (endAttempt attempt rows s)
  | aborted {attempt : Nat} {turn : Turn} {outcome : AgentOutcome} {supply : Supply} {rows : Rows}
      (looping : s.attempts attempt = .looping turn)
      (holds : s.rows.holdsLease s.now (leaseOf attempt turn.leased) = true)
      (halts : haltAborted s.rows.artifact turn.token = true)
      (exited : abortRun s.now turn.token s.rows = some rows) :
      Move platform s (.turn attempt outcome supply) (endAttempt attempt rows s)
  | succeeded {attempt : Nat} {turn : Turn} {outcome : AgentOutcome} {supply : Supply} {rows : Rows}
      (looping : s.attempts attempt = .looping turn)
      (holds : s.rows.holdsLease s.now (leaseOf attempt turn.leased) = true)
      (halts : haltSuccess s.rows.artifact turn.token = true)
      (exited : succeedRun s.now turn.token s.rows = some rows) :
      Move platform s (.turn attempt outcome supply) (endAttempt attempt rows s)
  | halted {attempt : Nat} {turn : Turn} {outcome : AgentOutcome} {supply : Supply} {rows : Rows}
      (looping : s.attempts attempt = .looping turn)
      (holds : s.rows.holdsLease s.now (leaseOf attempt turn.leased) = true)
      (halts : haltWait s.rows.artifact turn.token = true)
      (exited : waitTurn s.now turn.token s.rows = some rows) :
      Move platform s (.turn attempt outcome supply) (endAttempt attempt rows s)

/-! ### Taking the transactions apart -/

section Turns

variable {platform : Platform} {attempt : Nat} {leased : Bool} {supply : Supply} {s t : System}

theorem handle_failure_move {e : Event} {token : Json} {waits : List WaitMark} {expected : Nat}
    {failure : Failure} {rows : Rows}
    (fails : Fails platform s attempt e leased token waits expected rows)
    (handled : handleFailure platform attempt leased token waits expected failure supply rows s =
      some t) : Move platform s e t := by
  unfold handleFailure at handled
  simp only at handled
  split at handled
  · rename_i recoverable
    split at handled
    · cases handled; exact .stopped
    · rename_i kept
      simp only [Bool.or_eq_true, Bool.not_eq_true', bne_iff_ne, ne_eq, not_or, Bool.not_eq_false,
        not_not] at kept
      obtain ⟨rows', recovered, rfl⟩ := Option.map_eq_some_iff.mp handled
      exact .recovered fails recoverable kept.1 kept.2 recovered
  · split at handled
    · cases handled; exact .stopped
    · split at handled
      · cases handled; exact .stopped
      · rename_i kept
        obtain ⟨rows', failed, rfl⟩ := Option.map_eq_some_iff.mp handled
        exact .failed fails (by simpa using kept) failed

theorem begin_turn_move (may : mayBegin leased (s.attempts attempt) = true)
    (began : beginTurn platform attempt leased supply s = some t) :
    Move platform s (.begin attempt leased supply) t := by
  unfold beginTurn at began
  split at began
  · cases began; exact .stopped
  rename_i kept
  have holds : s.rows.holdsLease s.now (leaseOf attempt leased) = true := by simpa using kept
  split at began
  · rename_i finished
    cases began; exact .settled finished holds
  rename_i open'
  have unfinished : s.rows.finished = false := by simpa using open'
  split at began
  · cases began
  rename_i snapshot last
  simp only at began
  split at began
  · rename_i unread
    exact handle_failure_move (.starting may unfinished last (.inl unread)) began
  rename_i acceptAfterSeq cursor
  split at began
  · rename_i unread
    exact handle_failure_move (.starting may unfinished last (.inr unread)) began
  rename_i synced sync
  split at began
  · rename_i asleep
    obtain ⟨rows, waited, rfl⟩ := Option.map_eq_some_iff.mp began
    exact .rested holds unfinished last sync asleep waited
  · rename_i awake
    cases began
    exact .begun may holds unfinished last cursor sync (by simpa using awake)

theorem commit_node_move {turn : Turn} {outcome : AgentOutcome} {node observation charged : Json}
    (selected : Selected s attempt turn node)
    (ran : executed platform s turn node outcome = .ok (observation, charged))
    (holds : s.rows.holdsLease s.now (leaseOf attempt turn.leased) = true)
    (current : s.rows.run.latestSnapshotSeq = turn.snapshotSeq)
    (committed : commitNode platform attempt turn node observation charged supply s = some t) :
    Move platform s (.turn attempt outcome supply) t := by
  unfold commitNode at committed
  simp only at committed
  split at committed
  · rename_i unmerged
    exact handle_failure_move (.merging selected ran unmerged) committed
  rename_i merged seen merge
  obtain ⟨shown, output, committed⟩ := Option.bind_eq_some_iff.mp committed
  have commits : Commits platform s attempt turn outcome supply node seen charged merged shown :=
    ⟨selected, ⟨observation, ran, merge⟩, holds, current, output⟩
  split at committed
  · rename_i failure failed
    exact handle_failure_move (.applying commits failed) committed
  rename_i enteredWait entered
  obtain ⟨stepped, stored, committed⟩ := Option.bind_eq_some_iff.mp committed
  cases enteredWait with
  | true =>
    obtain ⟨rows, waited, rfl⟩ := Option.map_eq_some_iff.mp committed
    exact .waited commits entered stored waited
  | false =>
    cases committed
    exact .advanced commits entered stored

theorem run_node_move {turn : Turn} {outcome : AgentOutcome} {node : Json}
    (selected : Selected s attempt turn node)
    (ran : runNode platform attempt turn node outcome supply s = some t) :
    Move platform s (.turn attempt outcome supply) t := by
  unfold runNode at ran
  split at ran
  · rename_i failure failed
    exact handle_failure_move (.executing selected failed) ran
  rename_i observation charged did
  split at ran
  · cases ran; exact .stopped
  · rename_i kept
    simp only [Bool.or_eq_true, Bool.not_eq_true', bne_iff_ne, ne_eq, not_or, Bool.not_eq_false,
      not_not] at kept
    exact commit_node_move selected did kept.1 kept.2 ran

theorem exit_turn_move {e : Event} {exit : Rows → Option Rows}
    (exits : s.rows.holdsLease s.now (leaseOf attempt leased) = true → ∀ rows,
      exit s.rows = some rows → Move platform s e (endAttempt attempt rows s))
    (exited : exitTurn attempt leased exit s = some t) : Move platform s e t := by
  unfold exitTurn at exited
  split at exited
  · cases exited; exact .stopped
  · rename_i kept
    obtain ⟨rows, did, rfl⟩ := Option.map_eq_some_iff.mp exited
    exact exits (by simpa using kept) rows did

theorem turn_step_move {turn : Turn} {outcome : AgentOutcome}
    (looping : s.attempts attempt = .looping turn)
    (stepped : turnStep platform attempt turn outcome supply s = some t) :
    Move platform s (.turn attempt outcome supply) t := by
  unfold turnStep at stepped
  simp only at stepped
  split at stepped
  · rename_i unbounded
    exact handle_failure_move (.looping looping (.inr (by simp [unbounded]))) stepped
  rename_i maxSteps bound
  split at stepped
  · rename_i exceeded
    refine handle_failure_move (.looping looping (.inr ?_)) stepped
    rintro ⟨other, same, below⟩
    obtain rfl := Option.some.inj (bound.symm.trans same)
    omega
  rename_i bounded
  split at stepped
  · rename_i halts
    exact exit_turn_move (fun holds _ => .aborted looping holds halts) stepped
  rename_i notAborted
  split at stepped
  · rename_i halts
    exact exit_turn_move (fun holds _ => .succeeded looping holds halts) stepped
  rename_i notSucceeded
  split at stepped
  · rename_i noneEnabled
    split at stepped
    · rename_i halts
      exact exit_turn_move (fun holds _ => .halted looping holds halts) stepped
    · refine handle_failure_move (.looping looping (.inl ⟨by simpa using notAborted,
        by simpa using notSucceeded, ?_⟩)) stepped
      rw [noneEnabled]
      rfl
  split at stepped
  · rename_i none
    exact handle_failure_move (.looping looping (.inl ⟨by simpa using notAborted,
      by simpa using notSucceeded, none⟩)) stepped
  · rename_i node selected
    exact run_node_move ⟨looping, ⟨maxSteps, bound, by omega⟩, by simpa using notAborted,
      by simpa using notSucceeded, selected⟩ stepped

end Turns

section Queue

variable {platform : Platform} {s t : System}

theorem append_move {draft : EventDraft} {e : Event} (asks : e = .append draft ∨ e = .persist draft)
    (appended : append draft s = some t) : Move platform s e t := by
  unfold append at appended
  split at appended
  · rename_i event found
    cases appended; exact .repeated found
  unfold appendNew at appended
  split at appended
  · cases appended
  · rename_i kept
    simp only [Bool.or_eq_true, Bool.not_eq_true', not_or, Bool.not_eq_true, Bool.not_eq_false] at kept
    obtain ⟨⟨rows, event⟩, stored, rfl⟩ := Option.map_eq_some_iff.mp appended
    exact .appended asks kept.1 kept.2 stored

theorem claim_move {owner leaseSeconds : Nat} (claimed : claim owner leaseSeconds s = some t) :
    Move platform s (.claim owner leaseSeconds) t := by
  unfold claim at claimed
  split at claimed
  · rename_i job unused has
    split at claimed
    · rename_i due
      cases claimed; exact .claimed unused has due.1
    · cases claimed
  · cases claimed

theorem owns_running {owner : Nat} {job : JobRow} (owned : owns owner job = true) :
    job.status = .running := by
  simp only [owns, Bool.and_eq_true, beq_iff_eq] at owned
  exact owned.1

/-- A queue operation of an attempt finds the job it owns. -/
theorem on_own_job_spec {owner : Nat} {update : JobRow → JobRow}
    (updated : onOwnJob owner update s = some t) :
    ∃ job, s.rows.job = some job ∧ owns owner job = true ∧ t = s.withJob (update job) := by
  unfold onOwnJob at updated
  split at updated
  · cases updated
  · rename_i job has
    split at updated
    · rename_i owned
      cases updated; exact ⟨job, has, owned, rfl⟩
    · cases updated

theorem record_failure_move {owner : Nat} {message : String} {supply : Supply} {e : Event}
    (recorded : recordFailure platform owner message supply s = some t) : Move platform s e t := by
  unfold recordFailure at recorded
  split at recorded
  · cases recorded
  rename_i job has
  split at recorded
  · cases recorded
  rename_i owned
  have mine : owns owner job = true := by simpa using owned
  have running := owns_running mine
  simp only at recorded
  split at recorded
  · cases recorded; exact .released has running rfl rfl
  · obtain ⟨rows, finalized, rfl⟩ := Option.map_eq_some_iff.mp recorded
    exact .exhausted has running rfl rfl finalized

theorem recover_move {retryDelay : Nat} {supply : Supply} {e : Event}
    (recovered : recover platform retryDelay supply s = some t) : Move platform s e t := by
  unfold recover at recovered
  split at recovered
  · cases recovered
  rename_i job has
  split at recovered
  · cases recovered
  split at recovered
  · cases recovered
  rename_i expired
  have running : job.status = .running := not_not.mp fun other => expired (.inl other)
  simp only at recovered
  split at recovered
  · cases recovered; exact .released has running rfl rfl
  · obtain ⟨rows, finalized, rfl⟩ := Option.map_eq_some_iff.mp recovered
    exact .exhausted has running rfl rfl finalized

theorem cancel_move {reason : String} (cancelled : cancel platform reason s = some t) :
    Move platform s (.cancel reason) t := by
  unfold cancel at cancelled
  split at cancelled
  · cases cancelled
  · rename_i kept
    obtain ⟨rows, snapped, rfl⟩ := Option.map_eq_some_iff.mp cancelled
    exact .cancelled (by simpa using kept) snapped

end Queue

/-- **The outcomes of a step.** -/
theorem step_move {platform : Platform} {s t : System} {e : Event}
    (stepped : step platform s e = some t) : Move platform s e t := by
  cases e with
  | tick elapsed => cases stepped; exact .tick
  | append draft => exact append_move (.inl rfl) stepped
  | preflight draft =>
    obtain ⟨event, found, rfl⟩ := Option.map_eq_some_iff.mp stepped
    exact .repeated found
  | persist draft =>
    simp only [step, persist] at stepped
    split at stepped
    · rename_i event found
      cases stepped; exact .repeated found
    · split at stepped
      · cases stepped
      · exact append_move (.inr rfl) stepped
  | cancel reason => exact cancel_move stepped
  | claim owner leaseSeconds => exact claim_move stepped
  | renew owner leaseSeconds =>
    obtain ⟨job, has, owned, rfl⟩ := on_own_job_spec stepped
    exact .renewed has owned
  | abandon owner retryDelay message =>
    obtain ⟨job, has, owned, rfl⟩ := on_own_job_spec stepped
    exact .released has (owns_running owned) rfl rfl
  | recordFailure owner message supply => exact record_failure_move stepped
  | recover retryDelay supply => exact recover_move stepped
  | begin attempt leased supply =>
    simp only [step] at stepped
    split at stepped
    · rename_i may
      exact begin_turn_move may stepped
    · cases stepped
  | turn attempt outcome supply =>
    simp only [step] at stepped
    split at stepped
    · rename_i turn looping
      exact turn_step_move looping stepped
    · cases stepped
  | crash attempt => cases stepped; exact .stopped

end Psop.Runtime
