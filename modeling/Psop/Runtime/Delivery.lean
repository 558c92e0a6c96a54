import Psop.Runtime.Wakeup

/-!
What a committed transaction of the runtime publishes.

`publishWindow` is the terminal part of `_publish_runtime_events_after`: the events from behind a mark to the
last number, only the outputs where a turn or an exhausted job commits. A turn marks the last number it has
published (`publish_terminal_seq`), every other transaction the number it found. `move_outputs` says that
only clients append anything but outputs, so that a window has all that its transaction stored
(**`window_covers`**).
-/
namespace Psop.Runtime

open Json Rows Psop.Runtime.System

/-! ### Windows -/

/-- `_publish_runtime_events_after`: the terminal events that are published. -/
def publishWindow (previous upper : Nat) (outputsOnly : Bool) (events : List TerminalEvent) :
    List TerminalEvent :=
  events.filter fun event => decide (previous < event.seqNo) && decide (event.seqNo ≤ upper) &&
    (!outputsOnly || event.direction == .output)

/-- `terminal_directions={"output"}` -/
def outputsOnly : Event → Bool
  | .append _ | .persist _ | .cancel _ => false
  | _ => true

/-! ### Who appends what -/

/-- Only outputs were added to the stream. -/
def AddsOutputs (before after : Rows) : Prop :=
  ∃ added, after.events = before.events ++ added ∧ ∀ event ∈ added, event.direction = .output

section Adding

variable {a b c rows rows' : Rows}

theorem AddsOutputs.of_events (same : b.events = a.events) : AddsOutputs a b :=
  ⟨[], by rw [same, List.append_nil], fun _ isIn => absurd isIn List.not_mem_nil⟩

theorem AddsOutputs.trans (first : AddsOutputs a b) (second : AddsOutputs b c) : AddsOutputs a c := by
  obtain ⟨added, isB, outputs⟩ := first
  obtain ⟨more, isC, others⟩ := second
  refine ⟨added ++ more, by rw [isC, isB, List.append_assoc], fun event isIn => ?_⟩
  exact (List.mem_append.mp isIn).elim (outputs event) (others event)

theorem append_event_outputs {draft : EventDraft} {event : TerminalEvent}
    (appended : rows.appendTerminalEvent draft = some (rows', event))
    (isOutput : draft.direction = "output") : AddsOutputs rows rows' := by
  obtain ⟨direction, named, rfl, -, rfl⟩ := append_event_spec appended
  have output : Direction.ofText "output" = some .output := by decide
  rw [isOutput, output] at named
  obtain rfl := Option.some.inj named
  exact ⟨_, rfl, fun event isIn => List.mem_singleton.mp isIn ▸ rfl⟩

theorem append_if_open_outputs {draft : EventDraft} {event : Option TerminalEvent}
    (appended : rows.appendIfOpen draft = some (rows', event))
    (isOutput : draft.direction = "output") : AddsOutputs rows rows' := by
  rcases append_if_open_spec appended with ⟨rfl, -⟩ | ⟨new, -, was⟩
  · exact .of_events rfl
  · exact append_event_outputs was isOutput

theorem finish_turn_events {now : Nat} {token : Json} {status : JobStatus} {lastError : String}
    (finished : finishRuntimeJobTurn now token status lastError rows = some rows') :
    rows'.events = rows.events := by
  rw [finish_turn_spec finished]

theorem finalize_outputs {now id error : String} {trace : TraceRef}
    (finalized : finalizeExhaustedJob now id error trace rows = some rows') : AddsOutputs rows rows' := by
  unfold finalizeExhaustedJob at finalized
  split at finalized
  · cases finalized
    exact .of_events rfl
  · split at finalized
    · cases finalized
      exact .of_events rfl
    · obtain ⟨⟨appended, event⟩, was, rfl⟩ := Option.map_eq_some_iff.mp finalized
      have added := append_if_open_outputs was rfl
      exact added

theorem recover_turn_outputs {now : Nat} {stamp : String} {token : Json} {waits : List WaitMark}
    {failure : Failure} {supply : Supply}
    (recovered : recoverTurn now stamp token waits failure supply rows = some rows') :
    AddsOutputs rows rows' := by
  unfold recoverTurn at recovered
  obtain ⟨⟨appended, event⟩, was, recovered⟩ := Option.bind_eq_some_iff.mp recovered
  obtain ⟨result, -, finished⟩ := Option.bind_eq_some_iff.mp recovered
  have same := finish_turn_events finished
  exact (append_if_open_outputs was rfl).trans (.of_events same)

theorem fail_turn_outputs {now : Nat} {stamp : String} {token : Json} {failure : Failure} {supply : Supply}
    (failed : failTurn now stamp token failure supply rows = some rows') : AddsOutputs rows rows' := by
  unfold failTurn at failed
  obtain ⟨finished, was, failed⟩ := Option.bind_eq_some_iff.mp failed
  obtain ⟨⟨appended, event⟩, output, closed⟩ := Option.bind_eq_some_iff.mp failed
  cases closed
  have same := finish_turn_events was
  have added := append_if_open_outputs output rfl
  exact (AddsOutputs.of_events same).trans added

theorem append_step_outputs {supply : Supply} {stamp : String} {node observation token : Json}
    {enabled : List String} {waits : List WaitMark}
    (appended : appendRuntimeStep supply stamp node observation token enabled waits rows = some rows') :
    AddsOutputs rows rows' := by
  unfold appendRuntimeStep at appended
  split at appended
  · obtain ⟨⟨stored, event⟩, was, rfl⟩ := Option.map_eq_some_iff.mp appended
    have added := append_event_outputs was rfl
    exact added
  · cases appended
    exact .of_events rfl

theorem append_output_outputs {supply : Supply} {stamp : String} {node : Json}
    {output : Option TerminalOutput}
    (appended : appendOutput supply stamp node output rows = some rows') : AddsOutputs rows rows' := by
  unfold appendOutput at appended
  split at appended
  · cases appended
    exact .of_events rfl
  · obtain ⟨⟨stored, event⟩, was, rfl⟩ := Option.map_eq_some_iff.mp appended
    have added := append_if_open_outputs was rfl
    exact added

end Adding

section Moves

variable {platform : Platform} {s t : System} {e : Event}

theorem fails_outputs {attempt : Nat} {leased : Bool} {token : Json} {waits : List WaitMark}
    {expected : Nat} {rows : Rows} (fails : Fails platform s attempt e leased token waits expected rows) :
    AddsOutputs s.rows rows := by
  cases fails with
  | starting | looping | executing | merging => exact .of_events rfl
  | applying commits => exact append_output_outputs commits.output

/-- **Only clients append inputs.** -/
theorem move_outputs (move : Move platform s e t) :
    (∃ draft, e = .append draft ∨ e = .persist draft) ∨ AddsOutputs s.rows t.rows := by
  cases move with
  | tick | repeated | claimed | renewed | released | stopped | settled | begun =>
    exact .inr (.of_events rfl)
  | appended asks => exact .inl ⟨_, asks⟩
  | cancelled _ snapped =>
    unfold appendCancelSnapshot at snapped
    split at snapped
    · cases snapped
      exact .inr (.of_events rfl)
    · obtain ⟨token, -, rfl⟩ := Option.map_eq_some_iff.mp snapped
      exact .inr (.of_events rfl)
  | exhausted _ _ _ _ finalized =>
    have added := finalize_outputs finalized
    exact .inr added
  | rested _ _ _ _ _ waited =>
    have same := wait_turn_events waited
    exact .inr (.of_events same)
  | recovered fails _ _ _ recovered =>
    exact .inr ((fails_outputs fails).trans (recover_turn_outputs recovered))
  | failed fails _ failed => exact .inr ((fails_outputs fails).trans (fail_turn_outputs failed))
  | advanced commits _ stored =>
    exact .inr ((append_output_outputs commits.output).trans (append_step_outputs stored))
  | waited commits _ stored waited =>
    exact .inr (((append_output_outputs commits.output).trans (append_step_outputs stored)).trans
      (.of_events (wait_turn_events waited)))
  | aborted _ _ _ exited =>
    unfold abortRun at exited
    have same := finish_turn_events exited
    exact .inr (.of_events same)
  | succeeded _ _ _ exited =>
    unfold succeedRun at exited
    have same := finish_turn_events exited
    exact .inr (.of_events same)
  | halted _ _ _ waited => exact .inr (.of_events (wait_turn_events waited))

/-- **A window covers its transaction**: what a step stores is published by it, behind any mark that the
stream had come to. -/
theorem window_covers {previous : Nat} (numbered : Numbered s.rows) (move : Move platform s e t)
    (mark : previous ≤ s.rows.run.latestTerminalSeq) :
    publishWindow previous t.rows.run.latestTerminalSeq (outputsOnly e) t.rows.events =
      publishWindow previous s.rows.run.latestTerminalSeq (outputsOnly e) s.rows.events ++
        t.rows.events.drop s.rows.events.length := by
  have grows := move_grows move
  have later := grows.numbered numbered
  obtain ⟨added, isLater⟩ := grows.events
  have isAdded : t.rows.events.drop s.rows.events.length = added := by
    rw [← isLater, List.drop_left]
  have upper : s.rows.run.latestTerminalSeq ≤ t.rows.run.latestTerminalSeq := by
    rw [numbered.latest, later.latest, ← isLater, List.length_append]
    omega
  rw [isAdded, ← isLater, publishWindow, List.filter_append]
  congr 1
  · refine List.filter_congr fun event isOld => ?_
    have bounded := (numbered.dense.bounded isOld).2
    rw [← numbered.latest] at bounded
    rw [decide_eq_true (Nat.le_trans bounded upper), decide_eq_true bounded]
  · refine List.filter_eq_self.mpr fun event isNew => ?_
    have above := later.dense.mem_drop (isAdded ▸ isNew)
    have bounded := (later.dense.bounded (isLater ▸ List.mem_append_right _ isNew)).2
    rw [← numbered.latest] at above
    rw [← later.latest] at bounded
    have output : outputsOnly e = false ∨ event.direction = .output := by
      rcases move_outputs move with ⟨draft, rfl | rfl⟩ | ⟨more, isMore, outputs⟩
      · exact .inl rfl
      · exact .inl rfl
      · have same : added = more := List.append_cancel_left (isLater.trans isMore)
        exact .inr (outputs event (same ▸ isNew))
    have direction : (!outputsOnly e || event.direction == .output) = true := by
      rcases output with clients | output
      · rw [clients]
        rfl
      · rw [output, Bool.or_eq_true]
        exact .inr rfl
    rw [decide_eq_true (Nat.lt_of_le_of_lt mark above), decide_eq_true bounded, direction]
    rfl

end Moves

end Psop.Runtime
