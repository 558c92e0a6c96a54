import Psop.Runtime.Fork

/-!
An abort that is stored is final.

An applied abort leaves the status `aborted`, unless its transition enters a terminal node that is
named or merges like one for aborts: then that node's own merge decides the status. Once the last
token has the status `aborted` a turn can only end the run as aborted, and `abort_final` says that no
later snapshot waits and that the run does not succeed: in runs under leases, for artifacts that halt
aborted runs by their status. `aborts_undone` are runs that abort and then succeed or wait again: through
a terminal node that merges a success, through a terminal node whose agent fails before it has merged the
abort, and under a condition of the artifact's own for aborted runs.
-/
namespace Psop.Runtime

open Json Rows Psop.Runtime.System

/-! ### Turns under their lease -/

/-- Whoever owns the job works on the last snapshot. -/
structure Sole (s : System) : Prop where
  leased : ∀ attempt turn, s.attempts attempt = .looping turn → turn.leased = true
  current : ∀ attempt turn, s.attempts attempt = .looping turn → Owned attempt s.rows →
    turn.snapshotSeq = s.rows.run.latestSnapshotSeq
  started : ∀ attempt turn, s.attempts attempt = .looping turn → 0 < turn.stepsDone →
    turn.expected < turn.snapshotSeq

section Sole

variable {platform : Platform} {s t : System} {e : Event}

/-- What a step has to show of its turns: the old ones own the job only if they did before and no
snapshot came, the new ones know the last snapshot. -/
theorem Sole.step (ok : Sole s) (turns : ∀ attempt turn, t.attempts attempt = .looping turn →
    (s.attempts attempt = .looping turn ∧ (Owned attempt t.rows → Owned attempt s.rows ∧
      t.rows.run.latestSnapshotSeq = s.rows.run.latestSnapshotSeq)) ∨
    (turn.leased = true ∧ turn.snapshotSeq = t.rows.run.latestSnapshotSeq ∧
      (0 < turn.stepsDone → turn.expected < turn.snapshotSeq))) : Sole t := by
  refine ⟨fun attempt turn looping => ?_, fun attempt turn looping owned => ?_,
    fun attempt turn looping => ?_⟩
  · rcases turns attempt turn looping with ⟨old, -⟩ | ⟨leased, -⟩
    · exact ok.leased attempt turn old
    · exact leased
  · rcases turns attempt turn looping with ⟨old, kept⟩ | ⟨-, latest, -⟩
    · exact (ok.current attempt turn old (kept owned).1).trans (kept owned).2.symm
    · exact latest
  · rcases turns attempt turn looping with ⟨old, -⟩ | ⟨-, -, started⟩
    · exact ok.started attempt turn old
    · exact started

/-- A step that ends an attempt, or none, and leaves nobody owning the job. -/
theorem Sole.step_unowned (ok : Sole s)
    (turns : ∀ attempt turn, t.attempts attempt = .looping turn → s.attempts attempt = .looping turn)
    (none : ∀ owner, ¬ Owned owner t.rows) : Sole t :=
  ok.step fun attempt turn looping =>
    .inl ⟨turns attempt turn looping, fun owned => absurd owned (none attempt)⟩

/-- A step that leaves the number of the last snapshot and the owner of the job alone. -/
theorem Sole.step_same (ok : Sole s)
    (turns : ∀ attempt turn, t.attempts attempt = .looping turn → s.attempts attempt = .looping turn)
    (owned : ∀ owner, Owned owner t.rows → Owned owner s.rows)
    (seq : t.rows.run.latestSnapshotSeq = s.rows.run.latestSnapshotSeq) : Sole t :=
  ok.step fun attempt turn looping =>
    .inl ⟨turns attempt turn looping, fun mine => ⟨owned attempt mine, seq⟩⟩

/-- **Under leases the owner of the job knows the last snapshot.** -/
theorem move_sole (ok : Sole s) (under : UnderLease s e) (move : Move platform s e t) : Sole t := by
  cases move with
  | tick | repeated => exact ok.step_same (fun _ _ => id) (fun _ => id) rfl
  | stopped =>
    exact ok.step_same (fun _ _ looping => turns_of_set looping (by simp)) (fun _ => id) rfl
  | appended _ _ _ stored =>
    have only := append_event_only stored
    refine ok.step_same (fun _ _ => id) (fun owner owned => ?_)
      ((congrArg RunRow.latestSnapshotSeq (woken_seq ..)).trans only.seq)
    obtain ⟨job, has, owns⟩ := woken_owned owned
    exact ⟨job, only.keeps.job.symm.trans has, owns⟩
  | cancelled =>
    refine ok.step_unowned (fun _ _ => id) ?_
    rintro owner ⟨job, has, owned⟩
    obtain ⟨before, -, rfl⟩ := Option.map_eq_some_iff.mp has
    rw [cancelled_unowned] at owned
    cases owned
  | claimed unused has due =>
    refine ok.step fun attempt turn looping => ?_
    have old : s.attempts attempt = .looping turn := turns_of_set looping (by simp)
    refine .inl ⟨old, ?_⟩
    -- The new owner is an attempt that has not begun.
    rintro ⟨job, isJob, mine⟩
    obtain rfl := Option.some.inj isJob
    simp only [owns, claimedJob, Bool.and_eq_true, beq_iff_eq, Option.some.injEq] at mine
    rw [mine.2, old] at unused
    cases unused
  | renewed has =>
    refine ok.step_same (fun _ _ => id) ?_ rfl
    rintro owner ⟨job, isJob, mine⟩
    obtain rfl := Option.some.inj isJob
    exact ⟨_, has, mine⟩
  | released _ _ _ unowned' => exact ok.step_unowned (fun _ _ => id) (unowned rfl unowned')
  | exhausted _ _ _ unowned' finalized =>
    exact ok.step_unowned (fun _ _ => id) (finalize_unowned rfl unowned' finalized)
  | settled =>
    refine ok.step_unowned ended_turns ?_
    rintro owner ⟨job, has, owned⟩
    obtain ⟨before, -, rfl⟩ := Option.map_eq_some_iff.mp has
    simp [owns] at owned
  | @begun attempt leased _ _ _ _ _ holds =>
    obtain rfl : leased = true := under
    obtain ⟨job, has, mine⟩ := holds_owned holds
    refine ok.step fun other turn looping => ?_
    rcases looping_of_set looping with new | old
    · obtain rfl := Attempt.looping.inj new
      exact .inr ⟨rfl, rfl, fun started => absurd started (Nat.lt_irrefl 0)⟩
    · refine .inl ⟨old, fun owned => ⟨?_, rfl⟩⟩
      obtain ⟨job', isJob, mine'⟩ := owned
      have has' : (startedRows s.rows).job = some (startedJob job) := by
        rw [startedRows, has]
        rfl
      obtain rfl := Option.some.inj (has'.symm.trans isJob)
      refine ⟨job, has, ?_⟩
      simp only [owns, startedJob, Bool.and_eq_true, beq_iff_eq] at mine mine' ⊢
      exact ⟨mine.1, mine'.2⟩
  | rested _ _ _ _ _ waited => exact ok.step_unowned ended_turns (finish_turn_unowned waited)
  | recovered _ _ _ _ recovered => exact ok.step_unowned ended_turns (recover_turn_unowned recovered)
  | failed _ _ failed => exact ok.step_unowned ended_turns (fail_turn_unowned failed)
  | @advanced attempt _ _ _ _ _ _ _ _ _ commits _ stored =>
    have held := commits.holds
    have leased := ok.leased _ _ commits.selected.looping
    rw [leased] at held
    have mine := holds_owned held
    have shown := append_output_only commits.output
    have kept := shown.keeps.trans (append_step_keeps stored)
    have seq := (append_step_seq stored).trans (congrArg (· + 1) shown.seq)
    refine ok.step fun other next looping => ?_
    by_cases same : other = attempt
    · subst same
      obtain rfl : _ = next := Attempt.looping.inj (by simpa [setAttempt] using looping)
      exact .inr ⟨leased, (congrArg (· + 1) commits.current).symm.trans seq.symm,
        fun _ => Nat.lt_succ_self _⟩
    · refine .inl ⟨by simpa [setAttempt, same, withRows] using looping, fun owned => ?_⟩
      obtain ⟨job', has', owns⟩ := owned
      exact absurd (owned_unique ⟨job', kept.job.symm.trans has', owns⟩ mine) same
  | waited _ _ _ waited => exact ok.step_unowned ended_turns (finish_turn_unowned waited)
  | aborted _ _ _ exited | succeeded _ _ _ exited | halted _ _ _ exited =>
    exact ok.step_unowned ended_turns (finish_turn_unowned exited)

theorem start_sole (start : Start platform s) : Sole s := by
  cases start with
  | created => exact ⟨nofun, nofun, nofun⟩
  | forked forks =>
    obtain ⟨source, -, forks⟩ := Option.bind_eq_some_iff.mp forks
    obtain ⟨copied, -, forks⟩ := Option.bind_eq_some_iff.mp forks
    obtain ⟨token, -, isState⟩ := Option.bind_eq_some_iff.mp forks
    obtain rfl := Option.some.inj isState
    exact ⟨nofun, nofun, nofun⟩

end Sole

/-! ### A token that was aborted -/

/-- The artifact halts aborted runs by the status of their token. -/
def AbortsByStatus (artifact : Json) : Prop :=
  ∀ token, haltAborted artifact token = hasStatus token "aborted"

/-- So it does without an abort condition of its own. -/
theorem aborts_by_status_default {artifact : Json}
    (none : artifact.at? ["halt", "aborted", "field_equals"] = none) : AbortsByStatus artifact :=
  fun token => by rw [haltAborted, haltsOn, none]

/-- A token has one status. -/
theorem status_unique {token : Json} {a b : String} (isA : hasStatus token a = true) (differ : a ≠ b) :
    hasStatus token b = false := by
  simp only [hasStatus, beq_iff_eq] at isA
  simp [hasStatus, isA, differ]

/-- Nothing is synchronised with a token that does not wait. -/
theorem sync_aborted {now : String} {events : List TerminalEvent} {token : Json}
    (aborted : hasStatus token "aborted" = true) :
    syncTerminalEvents now events token = some token := by
  have asleep : isWaiting token = false := by
    rw [isWaiting, status_unique aborted (by decide), Bool.false_and]
  simp [syncTerminalEvents, asleep]

theorem fail_turn_status {now : Nat} {stamp : String} {token : Json} {failure : Failure}
    {supply : Supply} {rows rows' : Rows}
    (failed : failTurn now stamp token failure supply rows = some rows') :
    rows'.run.status = .failed := by
  unfold failTurn at failed
  obtain ⟨ended, was, failed⟩ := Option.bind_eq_some_iff.mp failed
  obtain ⟨⟨appended, event⟩, output, closed⟩ := Option.bind_eq_some_iff.mp failed
  cases closed
  have kept : appended.run.status = ended.run.status := (append_if_open_only output).keeps.status
  exact kept.trans (congrArg RunRow.status (finish_turn_run was).1)

theorem abort_run_status {now : Nat} {token : Json} {rows rows' : Rows}
    (aborted : abortRun now token rows = some rows') : rows'.run.status = .aborted := by
  unfold abortRun at aborted
  exact congrArg RunRow.status (finish_turn_run aborted).1

theorem abort_run_keeps {now : Nat} {token : Json} {rows rows' : Rows}
    (aborted : abortRun now token rows = some rows') : KeepsSnapshots rows rows' := by
  unfold abortRun at aborted
  have kept := finish_turn_keeps aborted
  exact kept

section Aborted

variable {platform : Platform} {s t : System} {e : Event} {last : Snapshot}

/-- A turn on an aborted token holds one. -/
theorem turn_aborted {attempt : Nat} {turn : Turn} (ok : Based platform s)
    (looping : s.attempts attempt = .looping turn)
    (current : turn.snapshotSeq = s.rows.run.latestSnapshotSeq)
    (isLast : s.rows.lastSnapshot? = some last) (aborted : hasStatus last.token "aborted" = true) :
    hasStatus turn.token "aborted" = true := by
  obtain ⟨last', onLast⟩ := ok.based attempt turn looping current
  obtain rfl := Option.some.inj (isLast.symm.trans onLast.isLast)
  rcases Nat.eq_zero_or_pos turn.stepsDone with first | later
  · obtain ⟨now, events, -, synced⟩ := onLast.synced first
    have compacted := (compact_status platform.sha256 last.token "aborted").trans aborted
    rw [sync_aborted compacted] at synced
    exact Option.some.inj synced ▸ compacted
  · exact onLast.stored later ▸ aborted

/-- Such a turn ends the run as aborted, or fails for its steps, or loses its lease. -/
theorem aborted_turn {attempt : Nat} {turn : Turn} {outcome : AgentOutcome} {supply : Supply}
    (sole : Sole s) (looping : s.attempts attempt = .looping turn)
    (current : turn.snapshotSeq = s.rows.run.latestSnapshotSeq)
    (bounded : ∃ maxSteps, maxSteps? s.rows.artifact = some maxSteps ∧ 0 < maxSteps)
    (byStatus : AbortsByStatus s.rows.artifact) (aborted : hasStatus turn.token "aborted" = true)
    (unfinished : s.rows.finished = false)
    (stepped : step platform s (.turn attempt outcome supply) = some t) :
    KeepsSnapshots s.rows t.rows ∧ t.rows.run.status ≠ .succeeded := by
  have running : s.rows.run.status ≠ .succeeded := by
    intro succeeded
    rw [Rows.finished, succeeded] at unfinished
    cases unfinished
  obtain ⟨maxSteps, isBound, positive⟩ := bounded
  simp only [System.step, looping] at stepped
  unfold turnStep at stepped
  simp only [isBound] at stepped
  split at stepped
  · rename_i exceeded
    have stale := sole.started attempt turn looping (by omega)
    unfold handleFailure at stepped
    simp only at stepped
    split at stepped
    · split at stepped
      · cases stepped
        exact ⟨⟨rfl, rfl⟩, running⟩
      · rename_i kept
        simp only [Bool.or_eq_true, bne_iff_ne, not_or, not_not] at kept
        omega
    · split at stepped
      · cases stepped
        exact ⟨⟨rfl, rfl⟩, running⟩
      · split at stepped
        · cases stepped
          exact ⟨⟨rfl, rfl⟩, running⟩
        · obtain ⟨rows, failed, rfl⟩ := Option.map_eq_some_iff.mp stepped
          exact ⟨fail_turn_keeps failed, (fail_turn_status failed).trans_ne (by decide)⟩
  · rw [byStatus, aborted, if_pos rfl] at stepped
    unfold exitTurn at stepped
    split at stepped
    · cases stepped
      exact ⟨⟨rfl, rfl⟩, running⟩
    · obtain ⟨rows, exited, rfl⟩ := Option.map_eq_some_iff.mp stepped
      exact ⟨abort_run_keeps exited, (abort_run_status exited).trans_ne (by decide)⟩

/-- A recovery reads the cursor. -/
theorem recover_token_cursor {now error : String} {trace : TraceRef} {event : Option TerminalEvent}
    {token token' : Json} (recovered : recoverTerminalTurnToken now error trace event token = some token') :
    (cursor? token).isSome = true := by
  unfold recoverTerminalTurnToken at recovered
  obtain ⟨a, noted, recovered⟩ := Option.bind_eq_some_iff.mp recovered
  obtain ⟨b, processing, recovered⟩ := Option.bind_eq_some_iff.mp recovered
  obtain ⟨c, status, recovered⟩ := Option.bind_eq_some_iff.mp recovered
  obtain ⟨d, phase, appended⟩ := Option.bind_eq_some_iff.mp recovered
  obtain ⟨cursor, isCursor, -⟩ := Option.bind_eq_some_iff.mp appended
  have same : view d = view token := by
    rw [view_of_writes (.put phase) (by decide), view_of_writes (.put status) (by decide),
      view_of_writes (.put processing) (by decide), note_failure_view noted]
  have reads : cursor? d = cursor? token := congrArg View.cursor same
  rw [← reads, isCursor, Option.isSome_some]

/-- A turn that begins with an aborted token stores nothing, if the token's cursor can be read. -/
theorem aborted_begin {attempt : Nat} {leased : Bool} {supply : Supply}
    (readable : (cursor? (compactRuntimeToken platform.sha256 last.token)).isSome = true)
    (isLast : s.rows.lastSnapshot? = some last) (aborted : hasStatus last.token "aborted" = true)
    (stepped : step platform s (.begin attempt leased supply) = some t) :
    KeepsSnapshots s.rows t.rows := by
  simp only [System.step] at stepped
  split at stepped
  · unfold beginTurn at stepped
    split at stepped
    · cases stepped
      exact ⟨rfl, rfl⟩
    split at stepped
    · cases stepped
      exact ⟨rfl, rfl⟩
    have compacted := (compact_status platform.sha256 last.token "aborted").trans aborted
    obtain ⟨cursor, isCursor⟩ := Option.isSome_iff_exists.mp readable
    simp only [isLast, isCursor, sync_aborted compacted, status_unique compacted (show "aborted" ≠
      "waiting" by decide), Bool.false_eq_true, if_false] at stepped
    cases stepped
    exact ⟨rfl, rfl⟩
  · cases stepped

end Aborted

/-! ### Stored aborts -/

theorem resolve_decision_spec {artifact node observation : Json} {decision target : String}
    (evaluates : isEvaluation node = true)
    (resolved : resolveDecision artifact node observation = .ok (decision, target)) :
    decision = decisionOf observation ∧ (decision ∈ leavingDecisions →
      target = resolveEvaluationTransition artifact node decision) := by
  unfold resolveDecision at resolved
  simp only [evaluates, Bool.not_true, Bool.false_eq_true, if_false] at resolved
  split at resolved
  · split at resolved
    · cases resolved
    · obtain ⟨rfl, rfl⟩ := Prod.mk.inj (Except.ok.inj resolved)
      exact ⟨rfl, fun _ => rfl⟩
  · rename_i stays
    obtain ⟨rfl, rfl⟩ := Prod.mk.inj (Except.ok.inj resolved)
    exact ⟨rfl, fun leaves => absurd leaves stays⟩

theorem abort_token_status {now target : String} {artifact node observation token token' : Json}
    (elsewhere : entersAbortedTerminal artifact target = false)
    (aborted : abortToken now target artifact node observation token = some token') :
    hasStatus token' "aborted" = true := by
  unfold abortToken at aborted
  obtain ⟨a, -, aborted⟩ := Option.bind_eq_some_iff.mp aborted
  obtain ⟨b, -, aborted⟩ := Option.bind_eq_some_iff.mp aborted
  simp only [elsewhere, Bool.false_eq_true, if_false] at aborted
  obtain ⟨c, status, phase⟩ := Option.bind_eq_some_iff.mp aborted
  rw [status_read ((Writes.put phase).read (by decide))]
  exact status_written status

/-- An applied abort leaves the status `aborted`, unless its transition enters an aborted terminal. -/
theorem abort_applied {now runId : String} {latest : Int} {events : List TerminalEvent}
    {artifact node observation token : Json} {turnAccept : Int} {applied : Applied} {waits : Bool}
    (did : applyNodeInteraction now runId latest events artifact node observation turnAccept token =
      applied) (ok : applied.outcome = .ok waits) (evaluates : isEvaluation node = true)
    (aborts : decisionOf observation = "abort")
    (elsewhere : entersAbortedTerminal artifact
      (resolveEvaluationTransition artifact node "abort") = false) :
    hasStatus applied.token "aborted" = true := by
  unfold applyNodeInteraction at did
  split at did
  · subst did
    cases ok
  rename_i decision target resolved
  obtain ⟨rfl, leads⟩ := resolve_decision_spec evaluates resolved
  obtain rfl := leads (aborts ▸ by decide)
  simp only at did
  split at did
  · subst did
    cases ok
  split at did
  · subst did
    cases ok
  subst did
  unfold concludeInteraction at ok ⊢
  rw [aborts] at ok ⊢
  split at ok
  · rename_i other
    rw [evaluates] at other
    cases other
  split at ok
  · cases ok
  rename_i noted note
  split at ok
  · cases ok
  rename_i decided reopened applied
  simp only [evaluates, Bool.not_true, Bool.false_eq_true, if_false]
  obtain ⟨result, aborted, same⟩ := Option.map_eq_some_iff.mp
    (show (abortToken ..).map _ = some (decided, reopened) from applied)
  obtain ⟨rfl, -⟩ := Prod.mk.inj same
  exact abort_token_status elsewhere aborted

/-! ### The run after an abort -/

/-- A node's step is stored. -/
structure StoresNode (platform : Platform) (s : System) (e : Event) (t : System)
    (node observation : Json) (new : Snapshot) : Prop where
  commits : ∃ attempt turn outcome supply charged merged shown waits,
    e = .turn attempt outcome supply ∧
    Commits platform s attempt turn outcome supply node observation charged merged shown ∧
    (interacted platform s turn node observation merged).outcome = .ok waits ∧
    new.token = (interacted platform s turn node observation merged).token
  added : AddsSnapshot s.rows t.rows new

/-- It aborts the run: by a decision whose transition enters no aborted terminal, or by the status it
leaves. -/
def Stops (artifact node observation : Json) (new : Snapshot) : Prop :=
  isEvaluation node = true ∧ decisionOf observation = "abort" ∧
      entersAbortedTerminal artifact (resolveEvaluationTransition artifact node "abort") = false ∨
    hasStatus new.token "aborted" = true

structure Steady (platform : Platform) (s : System) : Prop where
  finality : Finality s.rows
  based : Based platform s
  sole : Sole s

/-- The run is finished or its last token aborted, it has not succeeded, and no snapshot from `count`
on waits. -/
structure Stopped (count : Nat) (s : System) : Prop where
  last : s.rows.finished = true ∨
    ∃ last, s.rows.lastSnapshot? = some last ∧ hasStatus last.token "aborted" = true
  unsuccessful : s.rows.run.status ≠ .succeeded
  quiet : ∀ snapshot ∈ s.rows.snapshots.drop count, hasStatus snapshot.token "waiting" = false
  bounded : ∃ maxSteps, maxSteps? s.rows.artifact = some maxSteps ∧ 0 < maxSteps
  byStatus : AbortsByStatus s.rows.artifact

section Stopped

variable {platform : Platform} {s t : System} {e : Event} {count : Nat}

theorem Steady.step (ok : Steady platform s) (under : UnderLease s e)
    (stepped : step platform s e = some t) : Steady platform t :=
  have move := step_move stepped
  ⟨move_finality move ok.finality, move_based ok.based move, move_sole ok.sole under move⟩

theorem start_steady (start : Start platform s) : Steady platform s :=
  ⟨.of_unfinished (start_unfinished start), start_based start, start_sole start⟩

/-- Only a turn that holds its lease makes a run succeed, and stores no snapshot then. -/
theorem succeeded_of_turn (move : Move platform s e t) (unfinished : s.rows.finished = false)
    (succeeded : t.rows.run.status = .succeeded) : ∃ attempt turn outcome supply,
      e = .turn attempt outcome supply ∧ s.attempts attempt = .looping turn ∧
      s.rows.holdsLease s.now (leaseOf attempt turn.leased) = true ∧ KeepsSnapshots s.rows t.rows := by
  have before : s.rows.run.status ≠ .succeeded := by
    intro was
    rw [Rows.finished, was] at unfinished
    cases unfinished
  have open_ : ∀ {rows : Rows}, rows.finished = false → rows.run.status ≠ .succeeded := by
    intro rows isOpen was
    rw [Rows.finished, was] at isOpen
    cases isOpen
  cases move with
  | tick | repeated | claimed | renewed | released | stopped | settled =>
    exact absurd succeeded before
  | @appended _ draft rows _ _ _ _ stored =>
    have kept : (woken s.now draft rows).run.status = s.rows.run.status :=
      (congrArg RunRow.status (woken_seq ..)).trans (append_event_only stored).keeps.status
    exact absurd (kept.symm.trans succeeded) before
  | cancelled _ snapped =>
    unfold appendCancelSnapshot at snapped
    split at snapped
    · cases snapped
      cases succeeded
    · obtain ⟨token, -, rfl⟩ := Option.map_eq_some_iff.mp snapped
      cases succeeded
  | exhausted _ _ _ _ finalized =>
    unfold finalizeExhaustedJob at finalized
    simp only at finalized
    split at finalized
    · cases finalized
      exact absurd succeeded before
    · obtain ⟨⟨appended, event⟩, was, rfl⟩ := Option.map_eq_some_iff.mp finalized
      have kept : appended.run.status = .failed := (append_if_open_only was).keeps.status
      cases kept.symm.trans succeeded
  | begun => cases succeeded
  | rested _ _ _ _ _ waited | waited _ _ _ waited | halted _ _ _ waited =>
    exact absurd succeeded (open_ (wait_turn_unfinished waited))
  | recovered _ _ _ _ recovered =>
    exact absurd succeeded (open_ (recover_turn_unfinished recovered))
  | failed _ _ failed => cases (fail_turn_status failed).symm.trans succeeded
  | advanced commits _ stored =>
    have kept := (append_output_only commits.output).keeps.trans (append_step_keeps stored)
    exact absurd (kept.status.symm.trans succeeded) before
  | aborted _ _ _ exited => cases (abort_run_status exited).symm.trans succeeded
  | succeeded looping holds _ exited =>
    have kept := finish_turn_keeps exited
    exact ⟨_, _, _, _, rfl, looping, holds, kept⟩

theorem cancel_step_finished {reason : String} (stepped : step platform s (.cancel reason) = some t) :
    t.rows.finished = true := by
  simp only [System.step, cancel] at stepped
  split at stepped
  · cases stepped
  · obtain ⟨rows, snapped, rfl⟩ := Option.map_eq_some_iff.mp stepped
    have finished : rows.finished = true := cancel_finished snapped
    exact finished

theorem cancel_token_status {now runId reason : String} {token token' : Json}
    (cancelled : cancelToken now runId reason token = some token') :
    hasStatus token' "cancelled" = true := by
  unfold cancelToken at cancelled
  obtain ⟨a, status, cancelled⟩ := Option.bind_eq_some_iff.mp cancelled
  obtain ⟨b, phase, cancelled⟩ := Option.bind_eq_some_iff.mp cancelled
  obtain ⟨c, popped, put⟩ := Option.bind_eq_some_iff.mp cancelled
  have later : Writes [["phase"], ["control"]] a token' :=
    (((Writes.put phase).under (by decide)).step ((Writes.pop popped).under (by decide))).step
      ((Writes.put put).under (by decide))
  rw [status_read (later.read (by decide))]
  exact status_written status

/-- Over an aborted token only a cancellation stores another one. -/
theorem stores_aborted {last : Snapshot} (ok : Steady platform s) (stopped : Stopped count s)
    (isLast : s.rows.lastSnapshot? = some last) (aborted : hasStatus last.token "aborted" = true)
    (unfinished : s.rows.finished = false) (stepped : step platform s e = some t) :
    KeepsSnapshots s.rows t.rows ∨ t.rows.finished = true ∧
      ∃ new, AddsSnapshot s.rows t.rows new ∧ hasStatus new.token "waiting" = false := by
  have unselected : ∀ {attempt : Nat} {turn : Turn} {node : Json}, Selected s attempt turn node →
      turn.snapshotSeq ≠ s.rows.run.latestSnapshotSeq := by
    intro attempt turn node selected current
    have halts := selected.notAborted
    rw [stopped.byStatus, turn_aborted ok.based selected.looping current isLast aborted] at halts
    cases halts
  have keeps : ∀ {rows : Rows} {new : Snapshot}, AddsSnapshot s.rows rows new →
      ¬ KeepsSnapshots s.rows rows := fun added kept => by
    have seq := added.2.symm.trans kept.2
    omega
  have move := step_move stepped
  cases move_stores move with
  | kept kept => exact .inl kept
  | cancelled _ added cancelled =>
    exact .inr ⟨cancel_step_finished stepped, _, added,
      status_unique (cancel_token_status cancelled) (by decide)⟩
  | stepped commits => exact absurd commits.current.symm (unselected commits.selected)
  | recovered fails recoverable current _ added _ recovers =>
    exfalso
    cases fails with
    | starting _ _ isLast' =>
      obtain rfl := Option.some.inj (isLast.symm.trans isLast')
      exact keeps added (aborted_begin (recover_token_cursor recovers) isLast aborted stepped)
    | looping looping =>
      have bounds := ok.based.bounded _ _ looping
      have latest : _ = s.rows.run.latestSnapshotSeq := le_antisymm bounds.2 (current ▸ bounds.1)
      exact keeps added (aborted_turn ok.sole looping latest stopped.bounded stopped.byStatus
        (turn_aborted ok.based looping latest isLast aborted) unfinished stepped).1
    | executing selected | merging selected => exact unselected selected current.symm
    | applying commits => exact unselected commits.selected commits.current.symm

theorem mem_drop_append {α : Type*} {n : Nat} {xs : List α} {y x : α}
    (isIn : x ∈ (xs ++ [y]).drop n) : x ∈ xs.drop n ∨ x = y := by
  rw [List.drop_append] at isIn
  exact (List.mem_append.mp isIn).imp id fun new => List.mem_singleton.mp (List.mem_of_mem_drop new)

/-- **A stopped run stays stopped.** -/
theorem Stopped.step (stopped : Stopped count s) (ok : Steady platform s) (under : UnderLease s e)
    (stepped : step platform s e = some t) : Stopped count t := by
  have move := step_move stepped
  have artifact := (move_grows move).artifact
  cases finished : s.rows.finished with
  | true =>
    have same := finished_move ok.finality finished under move
    exact ⟨.inl (same ▸ finished), same ▸ stopped.unsuccessful, same ▸ stopped.quiet,
      same ▸ stopped.bounded, same ▸ stopped.byStatus⟩
  | false =>
    obtain ⟨last, isLast, aborted⟩ := stopped.last.resolve_left (by simp [finished])
    have unsuccessful : t.rows.run.status ≠ .succeeded := by
      intro succeeded
      obtain ⟨attempt, turn, outcome, supply, rfl, looping, holds, -⟩ :=
        succeeded_of_turn move finished succeeded
      rw [ok.sole.leased _ _ looping] at holds
      have current := ok.sole.current _ _ looping (holds_owned holds)
      exact (aborted_turn ok.sole looping current stopped.bounded stopped.byStatus
        (turn_aborted ok.based looping current isLast aborted) finished stepped).2 succeeded
    rcases stores_aborted ok stopped isLast aborted finished stepped with kept | ⟨ends, new, added, awake⟩
    · refine ⟨.inr ⟨last, ?_, aborted⟩, unsuccessful, kept.1 ▸ stopped.quiet,
        artifact ▸ stopped.bounded, artifact ▸ stopped.byStatus⟩
      rw [lastSnapshot?, kept.1]
      exact isLast
    · refine ⟨.inl ends, unsuccessful, fun snapshot stored => ?_, artifact ▸ stopped.bounded,
        artifact ▸ stopped.byStatus⟩
      rw [added.1] at stored
      rcases mem_drop_append stored with old | rfl
      · exact stopped.quiet snapshot old
      · exact awake

theorem StoresNode.stopped {node observation : Json} {new : Snapshot}
    (stored : StoresNode platform s e t node observation new) (ok : Steady platform s)
    (under : UnderLease s e) (byStatus : AbortsByStatus s.rows.artifact)
    (stops : Stops s.rows.artifact node observation new) (stepped : step platform s e = some t) :
    Stopped s.rows.snapshots.length t := by
  obtain ⟨attempt, turn, outcome, supply, charged, merged, shown, waits, rfl, commits, applied, isToken⟩ :=
    stored.commits
  have move := step_move stepped
  have artifact := (move_grows move).artifact
  have aborted : hasStatus new.token "aborted" = true := by
    rcases stops with ⟨evaluates, aborts, elsewhere⟩ | status
    · rw [isToken]
      exact abort_applied rfl applied evaluates aborts elsewhere
    · exact status
  have unfinished : s.rows.finished = false := by
    refine Bool.eq_false_iff.mpr fun finished => ?_
    have holds := commits.holds
    rw [ok.sole.leased _ _ commits.selected.looping] at holds
    exact absurd holds (by simp [leaseOf, (ok.finality finished).no_lease])
  obtain ⟨maxSteps, isBound, less⟩ := commits.selected.bounded
  refine ⟨.inr ⟨new, last_of_append stored.added.1, aborted⟩, fun succeeded => ?_, fun snapshot late => ?_,
    artifact ▸ ⟨maxSteps, isBound, by omega⟩, artifact ▸ byStatus⟩
  · obtain ⟨_, _, _, _, -, -, -, kept⟩ := succeeded_of_turn move unfinished succeeded
    have seq := stored.added.2.symm.trans kept.2
    omega
  · rw [stored.added.1, List.drop_left] at late
    obtain rfl := List.mem_singleton.mp late
    exact status_unique aborted (by decide)

end Stopped

/-- **A stored abort is final**: for an artifact that halts aborted runs by their status, in any run under
leases, once a node's step has stored an abort (a decision to abort whose transition enters no aborted
terminal, or any token with the status `aborted`) the run does not succeed, and no snapshot from there on
waits. -/
theorem abort_final {platform : Platform} {s t u v : System} {e : Event} {node observation : Json}
    {new : Snapshot} (start : Start platform s) (byStatus : AbortsByStatus s.rows.artifact)
    (reached : Run (step platform) UnderLease s t)
    (under : UnderLease t e) (stepped : step platform t e = some u)
    (stored : StoresNode platform t e u node observation new)
    (stops : Stops t.rows.artifact node observation new)
    (later : Run (step platform) UnderLease u v) :
    v.rows.run.status ≠ .succeeded ∧
      ∀ snapshot ∈ v.rows.snapshots.drop t.rows.snapshots.length,
        hasStatus snapshot.token "waiting" = false := by
  have before : Steady platform t ∧ AbortsByStatus t.rows.artifact :=
    reached.invariant (fun x _ _ (ok : Steady platform x ∧ AbortsByStatus x.rows.artifact) under stepped =>
      ⟨ok.1.step under stepped, (move_grows (step_move stepped)).artifact ▸ ok.2⟩)
      ⟨start_steady start, byStatus⟩
  have after : Steady platform v ∧ Stopped t.rows.snapshots.length v :=
    later.invariant (fun x _ _ (ok : Steady platform x ∧ Stopped t.rows.snapshots.length x) under stepped =>
      ⟨ok.1.step under stepped, ok.2.step ok.1 under stepped⟩)
      ⟨before.1.step under stepped, stored.stopped before.1 under before.2 stops stepped⟩
  exact ⟨after.2.unsuccessful, after.2.quiet⟩

/-! ### Runs that abort -/

/-- A turn's step that stores a snapshot under a node. -/
theorem stores_node_of_last {platform : Platform} {s t : System} {attempt : Nat}
    {outcome : AgentOutcome} {supply : Supply} {new : Snapshot}
    (stepped : step platform s (.turn attempt outcome supply) = some t)
    (more : s.rows.snapshots.length < t.rows.snapshots.length)
    (last : t.rows.lastSnapshot? = some new) (selected : new.selected.isSome = true) :
    ∃ node observation merged, mergedRound platform s attempt outcome = some (node, observation, merged) ∧
      StoresNode platform s (.turn attempt outcome supply) t node observation new := by
  have isNew : ∀ {rows : Rows} {other : Snapshot}, AddsSnapshot s.rows rows other →
      rows.lastSnapshot? = some new → other = new := fun added isLast =>
    Option.some.inj ((last_of_append added.1).symm.trans isLast)
  have move := step_move stepped
  cases move_stores move with
  | kept kept =>
    rw [kept.1] at more
    exact absurd more (Nat.lt_irrefl _)
  | stepped commits applied added _ token =>
    obtain rfl := isNew added last
    exact ⟨_, _, _, commits.merged_round, ⟨_, _, _, _, _, _, _, _, rfl, commits, applied, token⟩, added⟩
  | recovered _ _ _ _ added unselected =>
    obtain rfl := isNew added last
    rw [unselected] at selected
    cases selected

/-- The nodes of the small scaffold, with an evaluation that aborts into the given target. -/
def abortingNodes (target : String) : List Json :=
  [Compiler.startNode "brew", Compiler.instructNode Compiler.brewStep true,
    Compiler.withField "interaction" (obj [("runner_turn_kind", str "evidence_evaluation"),
      ("evaluation", .bool true), ("transitions", obj [("proceed", str "final_verify"),
        ("complete", str "terminal"), ("abort", str target)])])
      (Compiler.evaluateNode Compiler.brewStep "final_verify"),
    Compiler.finalVerifyNode, Compiler.terminalNode]

/-- A terminal node for aborts that merges a success. -/
def abortEnd : Json :=
  Compiler.withField "guard" (Compiler.phaseGuard "abort_end")
    (Compiler.withField "id" (str "abort_end") Compiler.terminalNode)

/-- One that merges the abort, and has its answer from an agent. -/
def agentEnd : Json :=
  Compiler.withField "actor" (Compiler.namedActor "agent.llm")
    (Compiler.withField "merge" (arr [Compiler.setValue "status" "aborted",
      Compiler.setValue "phase" "aborted"]) abortEnd)

/-- A condition for aborted runs that no run meets. -/
def otherHalt : Fields :=
  [("aborted", obj [("field_equals", obj [("path", str "facts.stop"), ("value", .bool true)])])]

/-- The decision of the second attempt, over the input it was woken for. -/
def brewAborts : Event := .turn 2 (brewVerdict .abort) (plainSupply "5")

/-- A run of a small scaffold before and after that decision, and after what follows it. -/
def abortingRun (start : System) (rest : List Event) : Option (System × System × System) :=
  (follow (step plainPlatform) UnderLease start
      (brewTurns ++ [Event.claim 2 100, .begin 2 true (plainSupply "4")])).bind fun t =>
    if UnderLease t brewAborts then
      (step plainPlatform t brewAborts).bind fun u =>
        (follow (step plainPlatform) UnderLease u rest).map fun v => (t, u, v)
    else none

theorem aborting_run_spec {start t u v : System} {rest : List Event}
    (ran : abortingRun start rest = some (t, u, v)) :
    Run (step plainPlatform) UnderLease start t ∧ UnderLease t brewAborts ∧
      step plainPlatform t brewAborts = some u ∧ Run (step plainPlatform) UnderLease u v := by
  obtain ⟨isT, reached, ran⟩ := Option.bind_eq_some_iff.mp ran
  split at ran
  · rename_i under
    obtain ⟨isU, stepped, ran⟩ := Option.bind_eq_some_iff.mp ran
    obtain ⟨isV, later, same⟩ := Option.map_eq_some_iff.mp ran
    obtain ⟨rfl, rfl, rfl⟩ : isT = t ∧ isU = u ∧ isV = v := by simpa using same
    exact ⟨run_of_follow reached, under, stepped, run_of_follow later⟩
  · cases ran

/-- The step stores a snapshot under a node that evaluates and decides to abort. -/
def storesAbort (s t : System) : Bool :=
  decide (s.rows.snapshots.length < t.rows.snapshots.length) &&
    (t.rows.lastSnapshot?.any fun new => new.selected.isSome) &&
    (mergedRound plainPlatform s 2 (brewVerdict .abort)).any fun round =>
      isEvaluation round.1 && decisionOf round.2.1 == "abort"

theorem stores_abort_spec {s t : System} (stepped : step plainPlatform s brewAborts = some t)
    (stores : storesAbort s t = true) : ∃ node observation new,
      StoresNode plainPlatform s brewAborts t node observation new ∧
      t.rows.lastSnapshot? = some new ∧ isEvaluation node = true ∧
      decisionOf observation = "abort" := by
  unfold storesAbort at stores
  rw [Bool.and_eq_true, Bool.and_eq_true, decide_eq_true_eq] at stores
  obtain ⟨⟨more, selected⟩, decides⟩ := stores
  obtain ⟨new, last, isSelected⟩ := (Option.any_eq_true ..).mp selected
  obtain ⟨node, observation, merged, round, stored⟩ := stores_node_of_last stepped more last isSelected
  rw [round, Option.any_some, Bool.and_eq_true, beq_iff_eq] at decides
  exact ⟨node, observation, new, stored, last, decides.1, decides.2⟩

/-- The scaffold's evaluation aborts, and the next round ends the run. -/
theorem abort_final_brewing :
    ∃ artifact t u v node observation new, Compiler.accepted (Compiler.brewCandidate
        (Compiler.scaffoldNodes "brew" [Compiler.brewStep]) []) = some artifact ∧
      Run (step plainPlatform) UnderLease (created artifact "run-1" 3 0) t ∧
      step plainPlatform t brewAborts = some u ∧
      StoresNode plainPlatform t brewAborts u node observation new ∧
      isEvaluation node = true ∧ decisionOf observation = "abort" ∧
      Run (step plainPlatform) UnderLease u v ∧ v.rows.run.status ≠ .succeeded ∧
      ∀ snapshot ∈ v.rows.snapshots.drop t.rows.snapshots.length,
        hasStatus snapshot.token "waiting" = false := by
  obtain ⟨artifact, ⟨t, u, v⟩, isArtifact, ran, passes⟩ := checked_run (show
    (((Compiler.accepted (Compiler.brewCandidate (Compiler.scaffoldNodes "brew"
      [Compiler.brewStep]) [])).bind fun artifact =>
        if (artifact.at? ["halt", "aborted", "field_equals"]).isNone then some artifact
        else none).bind fun artifact =>
      abortingRun (created artifact "run-1" 3 0) [.turn 2 .timedOut (plainSupply "6")]).any
      (fun states => storesAbort states.1 states.2.1 &&
        states.2.1.rows.lastSnapshot?.any fun new => hasStatus new.token "aborted") = true by
    decide +kernel)
  obtain ⟨accepted, stored, checked⟩ := Option.bind_eq_some_iff.mp isArtifact
  split at checked
  · rename_i suits
    obtain rfl := Option.some.inj checked
    obtain ⟨reached, under, stepped, later⟩ := aborting_run_spec ran
    obtain ⟨stores, aborted⟩ := Bool.and_eq_true_iff.mp passes
    obtain ⟨node, observation, new, storesNode, last, evaluates, aborts⟩ :=
      stores_abort_spec stepped stores
    rw [last, Option.any_some] at aborted
    exact ⟨accepted, t, u, v, node, observation, new, stored, reached, stepped, storesNode, evaluates,
      aborts, later, abort_final (.created ..)
        (aborts_by_status_default (Option.isNone_iff_eq_none.mp suits)) reached under stepped
        storesNode (.inr aborted) later⟩
  · cases checked

/-- A run of an accepted artifact that stores an abort and then comes to what an abort should not. -/
def UndoesAbort (candidate : Json) (undone : System → System → Bool) : Prop :=
  ∃ artifact t u v node observation new, Compiler.accepted candidate = some artifact ∧
    Run (step plainPlatform) UnderLease (created artifact "run-1" 3 0) t ∧
    step plainPlatform t brewAborts = some u ∧
    StoresNode plainPlatform t brewAborts u node observation new ∧
    isEvaluation node = true ∧ decisionOf observation = "abort" ∧
    Run (step plainPlatform) UnderLease u v ∧ undone t v = true

theorem undoes_abort {candidate : Json} {rest : List Event} {undone : System → System → Bool}
    (checked : ((Compiler.accepted candidate).bind fun artifact =>
      abortingRun (created artifact "run-1" 3 0) rest).any
        (fun states => storesAbort states.1 states.2.1 && undone states.1 states.2.2) = true) :
    UndoesAbort candidate undone := by
  obtain ⟨artifact, ⟨t, u, v⟩, isArtifact, ran, passes⟩ := checked_run checked
  obtain ⟨reached, under, stepped, later⟩ := aborting_run_spec ran
  obtain ⟨stores, undoes⟩ := Bool.and_eq_true_iff.mp passes
  obtain ⟨node, observation, new, storesNode, -, evaluates, aborts⟩ := stores_abort_spec stepped stores
  exact ⟨artifact, t, u, v, node, observation, new, isArtifact, reached, stepped, storesNode,
    evaluates, aborts, later, undoes⟩

/-- The run has succeeded. -/
def hasSucceeded (_ v : System) : Bool := decide (v.rows.run.status = .succeeded)

/-- A snapshot that came later waits. -/
def waitsAgain (t v : System) : Bool :=
  (v.rows.snapshots.drop t.rows.snapshots.length).any fun snapshot => hasStatus snapshot.token "waiting"

/-- An abort is undone by a terminal node that merges a success, before a terminal node whose agent fails
has merged it, and by a turn that begins anew where the artifact has its own condition for aborted runs. -/
theorem aborts_undone :
    UndoesAbort (Compiler.brewCandidate (abortingNodes "abort_end" ++ [abortEnd]) []) hasSucceeded ∧
    UndoesAbort (Compiler.brewCandidate (abortingNodes "abort_end" ++ [agentEnd]) []) waitsAgain ∧
    UndoesAbort (Compiler.brewCandidate (abortingNodes "terminal") otherHalt) waitsAgain := by
  refine ⟨@undoes_abort _ [.turn 2 .timedOut (plainSupply "6"), .turn 2 .timedOut (plainSupply "7")] _ ?_,
    @undoes_abort _ [.turn 2 .timedOut (plainSupply "6")] _ ?_,
    @undoes_abort _ [.crash 2, .tick 200, .recover 0 (plainSupply "6"), .claim 3 100,
      .begin 3 true (plainSupply "7"), .turn 3 .timedOut (plainSupply "8")] _ ?_⟩
  all_goals decide +kernel

end Psop.Runtime
