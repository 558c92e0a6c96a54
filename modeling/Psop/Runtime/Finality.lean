import Psop.Runtime.Events

/-!
A finished run stays as it is.

Every transaction that finishes a run closes its terminal session and takes its job off the queue
(`Final`). Without a running job no attempt holds a lease, so a finished run has nothing left that
could write to it: under leases no step changes any of its rows (`finished_move`), and so no sequence
of steps does (`finished_absorbing`).
-/
namespace Psop.Runtime

open Json Rows Psop.Runtime.System

/-- The job is in no status the queue or a turn would take it up from. -/
def JobStatus.resting : JobStatus → Bool
  | succeeded | failed | cancelled => true
  | _ => false

/-- What every transaction that finishes a run leaves behind. -/
structure Final (rows : Rows) : Prop where
  closed : rows.sessionOpen = false
  resting : ∀ job, rows.job = some job → job.status.resting = true

theorem Final.not_running {rows : Rows} (final : Final rows) {job : JobRow}
    (has : rows.job = some job) : job.status ≠ .running := by
  intro running
  have resting := final.resting job has
  rw [running] at resting
  cases resting

/-- Nobody holds a lease on the job of a finished run. -/
theorem Final.no_lease {rows : Rows} (final : Final rows) (now owner : Nat) :
    rows.holdsLease now (some owner) = false := by
  unfold holdsLease
  simp only
  split
  · rfl
  · rename_i job has
    have still : (job.status == .running) = false := by simpa using final.not_running has
    simp [still]

/-! ### Which parts of the rows a transaction leaves alone -/

/-- The run is as finished as before, and neither its session nor its job was touched. -/
structure Keeps (before after : Rows) : Prop where
  status : after.run.status = before.run.status
  session : after.sessionOpen = before.sessionOpen
  job : after.job = before.job

theorem Keeps.trans {a b c : Rows} (first : Keeps a b) (second : Keeps b c) : Keeps a c :=
  ⟨second.status.trans first.status, second.session.trans first.session, second.job.trans first.job⟩

theorem StreamOnly.keeps {before after : Rows} (only : StreamOnly before after) :
    Keeps before after := by
  obtain ⟨latest, events, rfl⟩ := only
  exact ⟨rfl, rfl, rfl⟩

theorem append_step_keeps {supply : Supply} {stamp : String} {node observation token : Json}
    {enabled : List String} {waits : List WaitMark} {rows rows' : Rows}
    (appended : appendRuntimeStep supply stamp node observation token enabled waits rows =
      some rows') : Keeps rows rows' := by
  have kept := (append_step_only appended).keeps
  exact ⟨kept.status, kept.session, kept.job⟩

theorem Keeps.final {before after : Rows} (keeps : Keeps before after) (final : Final before) :
    Final after :=
  ⟨keeps.session.trans final.closed, fun job has => final.resting job (keeps.job ▸ has)⟩

theorem Keeps.finished {before after : Rows} (keeps : Keeps before after) :
    after.finished = before.finished := by
  rw [Rows.finished, keeps.status, Rows.finished]

/-! ### The exits of a turn -/

/-- Ending a turn of a finished run lets its job rest. -/
theorem finish_turn_rests {now : Nat} {token : Json} {status : JobStatus} {lastError : String}
    {rows rows' : Rows} (resting : status.resting = true) (finished : rows.finished = true)
    (ended : finishRuntimeJobTurn now token status lastError rows = some rows') :
    ∀ job, rows'.job = some job → job.status.resting = true := by
  unfold finishRuntimeJobTurn at ended
  intro job has
  split at ended
  · rename_i absent
    cases ended
    rw [absent] at has
    cases has
  · rw [if_pos finished] at ended
    cases ended
    obtain rfl := Option.some.inj has
    exact resting

theorem finish_turn_run {now : Nat} {token : Json} {status : JobStatus} {lastError : String}
    {rows rows' : Rows} (ended : finishRuntimeJobTurn now token status lastError rows = some rows') :
    rows'.run = rows.run ∧ rows'.sessionOpen = rows.sessionOpen := by
  rw [finish_turn_spec ended]
  exact ⟨rfl, rfl⟩

theorem wait_turn_unfinished {now : Nat} {token : Json} {rows rows' : Rows}
    (waited : waitTurn now token rows = some rows') : rows'.finished = false := by
  unfold waitTurn at waited
  rw [Rows.finished, (finish_turn_run waited).1]
  rfl

theorem recover_turn_unfinished {now : Nat} {stamp : String} {token : Json} {waits : List WaitMark}
    {failure : Failure} {supply : Supply} {rows rows' : Rows}
    (recovered : recoverTurn now stamp token waits failure supply rows = some rows') :
    rows'.finished = false := by
  unfold recoverTurn at recovered
  obtain ⟨⟨appended, event⟩, -, recovered⟩ := Option.bind_eq_some_iff.mp recovered
  obtain ⟨result, -, ended⟩ := Option.bind_eq_some_iff.mp recovered
  rw [Rows.finished, (finish_turn_run ended).1]
  rfl

theorem fail_turn_final {now : Nat} {stamp : String} {token : Json} {failure : Failure}
    {supply : Supply} {rows rows' : Rows}
    (failed : failTurn now stamp token failure supply rows = some rows') : Final rows' := by
  unfold failTurn at failed
  obtain ⟨ended, was, failed⟩ := Option.bind_eq_some_iff.mp failed
  obtain ⟨⟨appended, event⟩, output, closed⟩ := Option.bind_eq_some_iff.mp failed
  cases closed
  have rests := finish_turn_rests rfl rfl was
  exact ⟨rfl, fun job has => rests job ((append_if_open_only output).keeps.job ▸ has)⟩

theorem succeed_run_final {now : Nat} {token : Json} {rows rows' : Rows}
    (succeeded : succeedRun now token rows = some rows') : Final rows' := by
  unfold succeedRun at succeeded
  exact ⟨(finish_turn_run succeeded).2, finish_turn_rests rfl rfl succeeded⟩

theorem abort_run_final {now : Nat} {token : Json} {rows rows' : Rows}
    (aborted : abortRun now token rows = some rows') : Final rows' := by
  unfold abortRun at aborted
  exact ⟨(finish_turn_run aborted).2, finish_turn_rests rfl rfl aborted⟩

theorem fail_turn_finished {now : Nat} {stamp : String} {token : Json} {failure : Failure}
    {supply : Supply} {rows rows' : Rows}
    (failed : failTurn now stamp token failure supply rows = some rows') : rows'.finished = true := by
  unfold failTurn at failed
  obtain ⟨ended, was, failed⟩ := Option.bind_eq_some_iff.mp failed
  obtain ⟨⟨appended, event⟩, output, closed⟩ := Option.bind_eq_some_iff.mp failed
  cases closed
  have kept : appended.run.status = ended.run.status := (append_if_open_only output).keeps.status
  rw [Rows.finished, kept, (finish_turn_run was).1]
  rfl

theorem succeed_run_finished {now : Nat} {token : Json} {rows rows' : Rows}
    (succeeded : succeedRun now token rows = some rows') : rows'.finished = true := by
  unfold succeedRun at succeeded
  rw [Rows.finished, (finish_turn_run succeeded).1]
  rfl

theorem abort_run_finished {now : Nat} {token : Json} {rows rows' : Rows}
    (aborted : abortRun now token rows = some rows') : rows'.finished = true := by
  unfold abortRun at aborted
  rw [Rows.finished, (finish_turn_run aborted).1]
  rfl

theorem finalize_finished {now id error : String} {trace : TraceRef} {rows rows' : Rows}
    {job : JobRow} (has : rows.job = some job)
    (finalized : finalizeExhaustedJob now id error trace rows = some rows') :
    rows'.finished = true := by
  unfold finalizeExhaustedJob at finalized
  rw [has] at finalized
  simp only at finalized
  split at finalized
  · rename_i finished
    cases finalized
    exact finished
  · obtain ⟨⟨appended, event⟩, was, rfl⟩ := Option.map_eq_some_iff.mp finalized
    have kept : appended.run.status = .failed := (append_if_open_only was).keeps.status
    rw [Rows.finished, kept]
    rfl

/-- The exhausted job's run is closed, unless it was finished before. -/
theorem finalize_final {now id error : String} {trace : TraceRef} {rows rows' : Rows} {job : JobRow}
    (has : rows.job = some job) (unfinished : rows.finished = false)
    (finalized : finalizeExhaustedJob now id error trace rows = some rows') : Final rows' := by
  unfold finalizeExhaustedJob at finalized
  rw [has] at finalized
  simp only [unfinished, Bool.false_eq_true, if_false] at finalized
  obtain ⟨⟨appended, event⟩, was, rfl⟩ := Option.map_eq_some_iff.mp finalized
  refine ⟨rfl, fun job' has' => ?_⟩
  have same := (append_if_open_only was).keeps.job.symm.trans has'
  obtain rfl := Option.some.inj same
  rfl

theorem cancelled_job_resting (reason : String) (job : JobRow) :
    (cancelledJob reason job).status.resting = true := by
  unfold cancelledJob
  split
  · rename_i ended
    rcases ended with is | is | is <;> rw [is] <;> rfl
  · rfl

theorem cancel_final {now reason : String} {rows rows' : Rows}
    (snapped : appendCancelSnapshot now reason (cancelledRun reason rows) = some rows') :
    rows'.sessionOpen = false := by
  unfold appendCancelSnapshot at snapped
  split at snapped
  · cases snapped; rfl
  · obtain ⟨token, -, rfl⟩ := Option.map_eq_some_iff.mp snapped
    rfl

theorem cancel_finished {now reason : String} {rows rows' : Rows}
    (snapped : appendCancelSnapshot now reason (cancelledRun reason rows) = some rows') :
    rows'.finished = true := by
  unfold appendCancelSnapshot at snapped
  split at snapped
  · cases snapped; rfl
  · obtain ⟨token, -, rfl⟩ := Option.map_eq_some_iff.mp snapped
    rfl

theorem settled_resting (rows : Rows) :
    ∀ job, (settleFinished rows).job = some job → job.status.resting = true := by
  intro job has
  obtain ⟨old, -, rfl⟩ := Option.map_eq_some_iff.mp has
  simp only
  split <;> rfl

/-! ### The invariant -/

/-- A run that is finished was finished properly. -/
def Finality (rows : Rows) : Prop := rows.finished = true → Final rows

theorem Finality.of_unfinished {rows : Rows} (unfinished : rows.finished = false) : Finality rows := by
  intro finished
  rw [unfinished] at finished
  cases finished

/-- The queue and the turns keep finished runs final, whether they hold a lease or not. -/
theorem move_finality {platform : Platform} {s t : System} {e : Event}
    (move : Move platform s e t) (ok : Finality s.rows) : Finality t.rows := by
  cases move with
  | tick => exact ok
  | repeated => exact ok
  | stopped => exact ok
  | appended _ unfinished _ stored =>
    refine .of_unfinished ?_
    have kept := (append_event_only stored).keeps.finished.trans unfinished
    unfold woken
    split
    · unfold ensureRuntimeJobPending
      split
      · exact kept
      · split <;> exact kept
    · exact kept
  | cancelled unfinished snapped =>
    have closed := cancel_final snapped
    refine fun _ => ⟨closed, fun job has => ?_⟩
    obtain ⟨old, -, rfl⟩ := Option.map_eq_some_iff.mp has
    exact cancelled_job_resting _ old
  | claimed unused has due =>
    intro finished
    have resting := (ok finished).resting _ has
    rcases due with is | is <;> rw [is] at resting <;> cases resting
  | renewed has owned => exact fun finished => absurd (owns_running owned) ((ok finished).not_running has)
  | released has running => exact fun finished => absurd running ((ok finished).not_running has)
  | exhausted has running status unowned finalized =>
    by_cases finished : s.rows.finished = true
    · exact absurd running ((ok finished).not_running has)
    · refine fun _ => finalize_final rfl ?_ finalized
      exact Bool.eq_false_iff.mpr finished
  | settled finished => exact fun _ => ⟨(ok finished).closed, settled_resting s.rows⟩
  | begun => exact .of_unfinished rfl
  | rested _ _ _ _ _ waited => exact .of_unfinished (wait_turn_unfinished waited)
  | recovered _ _ _ _ recovered => exact .of_unfinished (recover_turn_unfinished recovered)
  | failed _ _ failed => exact fun _ => fail_turn_final failed
  | advanced commits _ stored =>
    have kept := (append_output_only commits.output).keeps.trans (append_step_keeps stored)
    exact fun finished => kept.final (ok (kept.finished.symm.trans finished))
  | waited _ _ _ waited => exact .of_unfinished (wait_turn_unfinished waited)
  | aborted _ _ _ exited => exact fun _ => abort_run_final exited
  | succeeded _ _ _ exited => exact fun _ => succeed_run_final exited
  | halted _ _ _ exited => exact .of_unfinished (wait_turn_unfinished exited)

theorem copies_keep {ids : ForkIds} {sourceRunId : String} {events : List TerminalEvent}
    {rows rows' : Rows}
    (copied : events.foldlM (copyTerminalEvent ids sourceRunId) rows = some rows') :
    Keeps rows rows' := by
  induction events generalizing rows with
  | nil => cases copied; exact ⟨rfl, rfl, rfl⟩
  | cons event rest ih =>
    rw [List.foldlM_cons] at copied
    obtain ⟨next, first, later⟩ := Option.bind_eq_some_iff.mp copied
    obtain ⟨⟨stored, new⟩, was, rfl⟩ := Option.map_eq_some_iff.mp first
    exact (append_event_only was).keeps.trans (ih later)

/-- No run starts finished. -/
theorem start_unfinished {platform : Platform} {s : System} (start : Start platform s) :
    s.rows.finished = false := by
  cases start with
  | created => rfl
  | forked forks =>
    obtain ⟨snapshot, -, forks⟩ := Option.bind_eq_some_iff.mp forks
    obtain ⟨copied, copies, forks⟩ := Option.bind_eq_some_iff.mp forks
    obtain ⟨token, -, isState⟩ := Option.bind_eq_some_iff.mp forks
    obtain rfl := Option.some.inj isState
    have kept : copied.finished = _ := (copies_keep copies).finished
    refine Eq.trans kept ?_
    unfold Rows.finished
    simp only
    split <;> rfl

theorem finality_run {platform : Platform} {s t : System} (start : Start platform s)
    (run : Run (step platform) anyStep s t) : Finality t.rows :=
  run.invariant (fun _ _ _ ok _ stepped => move_finality (step_move stepped) ok)
    (.of_unfinished (start_unfinished start))

/-! ### Absorption -/

/-- The step is none of a turn that runs without a lease. -/
def UnderLease (s : System) : Event → Prop
  | .begin _ leased _ => leased = true
  | .turn attempt _ _ => ∀ turn, s.attempts attempt = .looping turn → turn.leased = true
  | _ => True

instance (s : System) (e : Event) : Decidable (UnderLease s e) :=
  match e with
  | .begin _ leased _ => inferInstanceAs (Decidable (leased = true))
  | .turn attempt _ _ =>
    match found : s.attempts attempt with
    | .looping turn => decidable_of_iff (turn.leased = true)
        ⟨fun leased other looping => by
          obtain rfl : turn = other := Attempt.looping.inj (found.symm.trans looping)
          exact leased, fun under => under turn found⟩
    | .unused | .claimed | .ended => isTrue fun _ looping => nomatch found.symm.trans looping
  | .tick _ | .append _ | .preflight _ | .persist _ | .cancel _ | .claim .. | .renew ..
  | .abandon .. | .recordFailure .. | .recover .. | .crash _ => isTrue trivial

/-- A leased turn that fails can write nothing to a finished run. -/
theorem fails_unleased {platform : Platform} {s : System} {attempt : Nat} {e : Event} {leased : Bool}
    {token : Json} {waits : List WaitMark} {expected : Nat} {rows : Rows}
    (fails : Fails platform s attempt e leased token waits expected rows) (final : Final s.rows)
    (finished : s.rows.finished = true) (under : UnderLease s e)
    (holds : rows.holdsLease s.now (leaseOf attempt leased) = true) : False := by
  cases fails with
  | starting may unfinished =>
    rw [finished] at unfinished
    cases unfinished
  | looping looping =>
    rw [under _ looping] at holds
    exact absurd holds (by simp [leaseOf, final.no_lease])
  | executing selected =>
    rw [under _ selected.looping] at holds
    exact absurd holds (by simp [leaseOf, final.no_lease])
  | merging selected =>
    rw [under _ selected.looping] at holds
    exact absurd holds (by simp [leaseOf, final.no_lease])
  | applying commits =>
    have held := commits.holds
    rw [under _ commits.selected.looping] at held
    exact absurd held (by simp [leaseOf, final.no_lease])

/-- No step under a lease changes a row of a finished run. -/
theorem finished_move {platform : Platform} {s t : System} {e : Event} (ok : Finality s.rows)
    (finished : s.rows.finished = true) (under : UnderLease s e) (move : Move platform s e t) :
    t.rows = s.rows := by
  have final := ok finished
  have no_lease : ∀ {attempt : Nat} {turn : Turn}, s.attempts attempt = .looping turn →
      (∀ turn, s.attempts attempt = .looping turn → turn.leased = true) →
      s.rows.holdsLease s.now (leaseOf attempt turn.leased) ≠ true := by
    intro attempt turn looping under
    rw [under turn looping]
    simp [leaseOf, final.no_lease]
  have open_ : ∀ {P : Prop}, s.rows.finished = false → P := by
    intro P unfinished
    rw [finished] at unfinished
    cases unfinished
  cases move with
  | tick => rfl
  | repeated => rfl
  | stopped => rfl
  | appended _ unfinished => exact open_ unfinished
  | cancelled unfinished => exact open_ unfinished
  | claimed _ has due =>
    have resting := final.resting _ has
    rcases due with is | is <;> rw [is] at resting <;> cases resting
  | renewed has owned => exact absurd (owns_running owned) (final.not_running has)
  | released has running => exact absurd running (final.not_running has)
  | exhausted has running => exact absurd running (final.not_running has)
  | settled _ holds =>
    obtain rfl : _ = true := under
    exact absurd holds (by simp [leaseOf, final.no_lease])
  | begun _ _ unfinished => exact open_ unfinished
  | rested _ unfinished => exact open_ unfinished
  | recovered fails _ holds => exact (fails_unleased fails final finished under holds).elim
  | failed fails holds => exact (fails_unleased fails final finished under holds).elim
  | advanced commits => exact absurd commits.holds (no_lease commits.selected.looping under)
  | waited commits => exact absurd commits.holds (no_lease commits.selected.looping under)
  | aborted looping holds => exact absurd holds (no_lease looping under)
  | succeeded looping holds => exact absurd holds (no_lease looping under)
  | halted looping holds => exact absurd holds (no_lease looping under)

/-- A finished run under leases: all of its rows stay. -/
theorem finished_rows {platform : Platform} {t u : System} (ok : Finality t.rows)
    (finished : t.rows.finished = true) (later : Run (step platform) UnderLease t u) :
    u.rows = t.rows := by
  have kept : ∀ v e w : _, v.rows = t.rows → UnderLease v e → step platform v e = some w →
      w.rows = t.rows := fun v e w same under stepped =>
    (finished_move (same ▸ ok) (same ▸ finished) under (step_move stepped)).trans same
  exact later.invariant kept rfl

/-- The inputs stored for a run. -/
def storedInputs (rows : Rows) : List TerminalEvent :=
  rows.events.filter fun event => event.direction == .input

/-- **Terminal statuses are absorbing.** In any run, whatever its attempts did on the way, once the
status is terminal no later sequence of requests, queue operations and leased turns changes the
status, the exit reason or the last snapshot; the session is closed and stays so, and no input is
stored any more. -/
theorem finished_absorbing {platform : Platform} {s t u : System} (start : Start platform s)
    (reached : Run (step platform) anyStep s t) (finished : t.rows.finished = true)
    (later : Run (step platform) UnderLease t u) :
    u.rows.run.status = t.rows.run.status ∧ u.rows.run.exitReason = t.rows.run.exitReason ∧
    u.rows.run.latestSnapshotSeq = t.rows.run.latestSnapshotSeq ∧
    u.rows.lastSnapshot? = t.rows.lastSnapshot? ∧ u.rows.sessionOpen = false ∧
    storedInputs u.rows = storedInputs t.rows := by
  have ok := finality_run start reached
  rw [finished_rows ok finished later]
  exact ⟨rfl, rfl, rfl, rfl, (ok finished).closed, rfl⟩

/-- A worker that has claimed the job of a run loses it to a cancellation; its turn and a repeated
request leave the cancelled run alone. -/
theorem finished_absorbing_cancelled :
    ∃ t u, follow (step plainPlatform) anyStep (created (obj []) "run-1" 3 0)
        [.append (textInput "a"), .claim 1 30, .cancel "stop"] = some t ∧
      follow (step plainPlatform) UnderLease t [.begin 1 true {}, .append (textInput "a")] = some u ∧
      t.rows.finished = true ∧ u.rows.run.status = t.rows.run.status ∧
      storedInputs u.rows = storedInputs t.rows := by
  obtain ⟨t, reached⟩ := Option.isSome_iff_exists.mp (show (follow (step plainPlatform) anyStep
    (created (obj []) "run-1" 3 0)
    [.append (textInput "a"), .claim 1 30, .cancel "stop"]).isSome = true by decide)
  have finished : ((follow (step plainPlatform) anyStep (created (obj []) "run-1" 3 0)
      [.append (textInput "a"), .claim 1 30, .cancel "stop"]).map fun t => t.rows.finished) =
      some true := by decide
  have later : ((follow (step plainPlatform) anyStep (created (obj []) "run-1" 3 0)
      [.append (textInput "a"), .claim 1 30, .cancel "stop"]).bind fun t =>
        follow (step plainPlatform) UnderLease t [.begin 1 true {}, .append (textInput "a")]).isSome =
      true := by decide
  rw [reached] at finished later
  obtain ⟨u, followed⟩ := Option.isSome_iff_exists.mp later
  have absorbed := finished_absorbing (.created (obj []) "run-1" 3 0) (run_of_follow reached)
    (Option.some.inj finished) (run_of_follow followed)
  exact ⟨t, u, reached, followed, Option.some.inj finished, absorbed.1, absorbed.2.2.2.2.2⟩

end Psop.Runtime
