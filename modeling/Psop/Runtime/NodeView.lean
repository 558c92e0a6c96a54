import Psop.Runtime.Merging
import Psop.Runtime.View

/-!
What a node, a recovery and a cancellation do to the view of a token.

Only the entry of a wait is a move (`Entered`). Everything else a node does writes along paths of its
own, as long as the artifact's merge operations keep off the view's paths (`MergesApart`); the
theorems here follow the order of `applyNodeInteraction`.
-/
namespace Psop.Runtime

open Json Rows Psop.Runtime.System

/-- No merge operation of a node writes along a path the view is read along, or takes its value from
along one. -/
def NodeApart (node : Json) : Prop :=
  ∀ operation ∈ (node.field "merge").items, ∀ p ∈ viewPaths, OperationApart operation p

/-- No node of the artifact does. -/
def MergesApart (artifact : Json) : Prop := ∀ node ∈ artifactNodes artifact, NodeApart node

instance (node : Json) : Decidable (NodeApart node) :=
  inferInstanceAs (Decidable (∀ operation ∈ (node.field "merge").items, ∀ p ∈ viewPaths,
    OperationApart operation p))

instance (artifact : Json) : Decidable (MergesApart artifact) :=
  inferInstanceAs (Decidable (∀ node ∈ artifactNodes artifact, NodeApart node))

/-! ### Before the interaction -/

theorem add_budget_writes {key : String} {amount : Int} {token token' : Json}
    (added : addBudget key amount token = some token') : Writes [["budgets"]] token token' := by
  obtain ⟨spent, -, put⟩ := Option.bind_eq_some_iff.mp added
  exact @Writes.above _ _ ["budgets"] [key] (.put put)

theorem accumulate_usage_writes {usage : AgentUsage} {token token' : Json}
    (charged : accumulateUsage usage token = some token') : Writes [["budgets"]] token token' := by
  unfold accumulateUsage at charged
  obtain ⟨a, calls, charged⟩ := Option.bind_eq_some_iff.mp charged
  obtain ⟨b, inputs, charged⟩ := Option.bind_eq_some_iff.mp charged
  obtain ⟨c, outputs, total⟩ := Option.bind_eq_some_iff.mp charged
  exact (((add_budget_writes calls).step (add_budget_writes inputs)).step
    (add_budget_writes outputs)).step (add_budget_writes total)

/-- Executing a node charges budgets at most. -/
theorem execute_node_writes {now runId projectionRef : String}
    {artifact node token observation charged : Json} {outcome : AgentOutcome}
    (ran : executeNode now runId projectionRef artifact node token outcome =
      .ok (observation, charged)) : Writes [["budgets"]] token charged := by
  unfold executeNode at ran
  simp only at ran
  split at ran
  · obtain ⟨-, rfl⟩ := Prod.mk.inj (Except.ok.inj ran)
    exact .refl _ _
  split at ran
  · obtain ⟨-, rfl⟩ := Prod.mk.inj (Except.ok.inj ran)
    exact .refl _ _
  split at ran
  · unfold executeRunnerAgentNode at ran
    split at ran
    · cases ran
    · cases ran
    · split at ran
      · cases ran
      · split at ran
        · cases ran
        · rename_i token' used
          obtain ⟨-, rfl⟩ := Prod.mk.inj (Except.ok.inj ran)
          exact accumulate_usage_writes used
  split at ran
  · split at ran
    · cases ran
    · rename_i token' used
      obtain ⟨-, rfl⟩ := Prod.mk.inj (Except.ok.inj ran)
      exact add_budget_writes used
  split at ran
  · obtain ⟨-, rfl⟩ := Prod.mk.inj (Except.ok.inj ran)
    exact .refl _ _
  · cases ran

theorem execute_node_view {now runId projectionRef : String}
    {artifact node token observation charged : Json} {outcome : AgentOutcome}
    (ran : executeNode now runId projectionRef artifact node token outcome =
      .ok (observation, charged)) : view charged = view token :=
  view_of_writes (execute_node_writes ran) (by decide)

theorem merge_observation_view {node observation token merged seen : Json} (node_apart : NodeApart node)
    (did : mergeObservation node observation token = some (merged, seen)) : view merged = view token := by
  refine view_of_reads fun p isPath => merge_observation_read
    (fun operation isOperation => node_apart operation isOperation p isPath) ?_ did
  revert p
  decide

theorem field_read (key : String) (token : Json) :
    token.field key = (at? [key] token).getD null := by
  rw [at?_cons]
  cases has : token.field? key <;> simp [field, has]

theorem status_read {a b : Json} (same : at? ["status"] b = at? ["status"] a) (word : String) :
    hasStatus b word = hasStatus a word := by
  rw [hasStatus, hasStatus, field_read, field_read, same]

theorem status_written {a b : Json} {word : String} (put : a.put? ["status"] (str word) = some b) :
    hasStatus b word = true := by
  simp [hasStatus, field_read, at?_put?_same put, str?]

theorem compact_writes (sha256 : String → String) (token : Json) :
    Writes [["observations"]] token (compactRuntimeToken sha256 token) := by
  unfold compactRuntimeToken
  split
  · exact .setParts ["observations"] _ token
  · exact .refl _ _

theorem compact_view (sha256 : String → String) (token : Json) :
    view (compactRuntimeToken sha256 token) = view token :=
  view_of_writes (compact_writes sha256 token) (by decide)

theorem compact_status (sha256 : String → String) (token : Json) (word : String) :
    hasStatus (compactRuntimeToken sha256 token) word = hasStatus token word :=
  status_read ((compact_writes sha256 token).read (by decide)) word

/-! ### The interaction -/

theorem merge_evidence_view {now nodeId : String} {artifact observation token token' : Json}
    (merged : mergeEvidenceProgress now nodeId artifact observation token = some token') :
    view token' = view token := by
  unfold mergeEvidenceProgress at merged
  simp only at merged
  split at merged
  · obtain rfl := Option.some.inj merged
    rfl
  · obtain ⟨filled, fill, merged⟩ := Option.bind_eq_some_iff.mp merged
    have fillView : view filled = view token :=
      view_of_writes (Writes.fill "evidence_progress" fill) (by decide)
    split at merged
    · rw [view_of_writes (.put merged) (by decide), fillView]
    · obtain rfl := Option.some.inj merged
      exact fillView

/-- The wait of a node, entered with the inputs that were already there. -/
structure Entered (latest : Int) (events : List TerminalEvent) (turnAccept : Int) (before after : View) :
    Prop where
  entry : ∃ accept, (before.prior = true → latest ≤ accept) ∧ turnAccept ≤ accept ∧
    (before.prior = false → accept = max turnAccept 0) ∧
    (after = before.enter accept ∨ accept < latest ∧
      after = (eventsBetween (accept + 1) latest events).foldl View.pull (before.enter accept))

theorem latest_consumed_none {token : Json} (none : (view token).records = []) :
    latestConsumedSeq token = 0 := by
  have empty : consumption token = [] := List.map_eq_nil_iff.mp none
  simp [latestConsumedSeq, empty]

/-- The number the window of a new wait opens after. -/
def entryAccept (latestTerminalSeq turnAccept : Int) (token : Json) : Int :=
  if hasPriorWait token then max (waitAcceptAfterSeq turnAccept token) latestTerminalSeq
  else waitAcceptAfterSeq turnAccept token

theorem entry_accept_spec (latestTerminalSeq turnAccept : Int) (token : Json) :
    ((view token).prior = true → latestTerminalSeq ≤ entryAccept latestTerminalSeq turnAccept token) ∧
    turnAccept ≤ entryAccept latestTerminalSeq turnAccept token ∧
    ((view token).prior = false →
      entryAccept latestTerminalSeq turnAccept token = max turnAccept 0) := by
  have base : turnAccept ≤ waitAcceptAfterSeq turnAccept token := by
    unfold waitAcceptAfterSeq
    simp only
    split <;> omega
  unfold entryAccept
  rw [has_prior_wait]
  refine ⟨fun prior => ?_, ?_, fun fresh => ?_⟩
  · rw [if_pos prior]
    omega
  · split <;> omega
  · have unrecorded : (view token).records = [] := by
      simp only [View.prior, Bool.or_eq_false_iff] at fresh
      simpa using fresh.2
    rw [if_neg (by simp [fresh]), waitAcceptAfterSeq, has_prior_wait, fresh,
      latest_consumed_none unrecorded]
    rfl

theorem wait_after_output_view {now runId : String} {latest : Int} {events : List TerminalEvent}
    {artifact node observation : Json} {turnAccept : Int} {token token' : Json} {waits resumed : Bool}
    (did : waitAfterOutput now runId latest events artifact node observation turnAccept token =
      some (token', waits, resumed)) :
    (((interaction node).field "wait_after_output").truthy = false ∧ token' = token) ∨
    (((interaction node).field "wait_after_output").truthy = true ∧
      Entered latest events turnAccept (view token) (view token')) := by
  unfold waitAfterOutput at did
  split at did
  · rename_i unwanted
    obtain ⟨rfl, -⟩ := Prod.mk.inj (Option.some.inj did)
    exact .inl ⟨by simpa using unwanted, rfl⟩
  · rename_i wanted
    obtain ⟨entered, enter, did⟩ := Option.bind_eq_some_iff.mp did
    obtain ⟨⟨consumed, took⟩, consume, did⟩ := Option.bind_eq_some_iff.mp did
    obtain ⟨rfl, -⟩ := Prod.mk.inj (Option.some.inj did)
    have enterView := enter_wait_view enter
    change view entered = (view token).enter (entryAccept latest turnAccept token) at enterView
    obtain ⟨prior, base, fresh⟩ := entry_accept_spec latest turnAccept token
    have window : (view entered).accept? = some (entryAccept latest turnAccept token) := by
      simp [View.accept?, enterView, View.enter, toIntOr0?_num]
    refine .inr ⟨by simpa using wanted, entryAccept latest turnAccept token, prior, base, fresh, ?_⟩
    have pulled := consume_pending_view window consume
    rw [enterView] at pulled
    exact pulled

theorem reopen_wait_view {observation token token' : Json} {waits : Bool}
    (reopened : reopenWait observation token = some (token', waits)) : view token' = view token := by
  unfold reopenWait at reopened
  split at reopened
  · obtain ⟨rfl, -⟩ := Prod.mk.inj (Option.some.inj reopened)
    rfl
  · rename_i wait has
    obtain ⟨a, status, reopened⟩ := Option.bind_eq_some_iff.mp reopened
    obtain ⟨b, reason, reopened⟩ := Option.bind_eq_some_iff.mp reopened
    obtain ⟨c, waiting, reopened⟩ := Option.bind_eq_some_iff.mp reopened
    obtain ⟨d, phase, reopened⟩ := Option.bind_eq_some_iff.mp reopened
    obtain ⟨rfl, -⟩ := Prod.mk.inj (Option.some.inj reopened)
    obtain ⟨sameA, hasA⟩ := view_beside_window (by decide) (by rw [has]; rfl) status
    obtain ⟨sameB, -⟩ := view_beside_window (by decide) hasA reason
    rw [view_of_writes (.put phase) (by decide), view_of_writes (.put waiting) (by decide), sameB,
      sameA]

theorem abort_token_view {now target : String} {artifact node observation token token' : Json}
    (aborted : abortToken now target artifact node observation token = some token') :
    view token' = view token := by
  unfold abortToken at aborted
  simp only at aborted
  obtain ⟨a, final, aborted⟩ := Option.bind_eq_some_iff.mp aborted
  obtain ⟨b, record, aborted⟩ := Option.bind_eq_some_iff.mp aborted
  have before : view b = view token := by
    rw [view_of_writes (.put record) (by decide), view_of_writes (.put final) (by decide)]
  split at aborted
  · rw [view_of_writes (.put aborted) (by decide), before]
  · obtain ⟨c, status, phase⟩ := Option.bind_eq_some_iff.mp aborted
    rw [view_of_writes (.put phase) (by decide), view_of_writes (.put status) (by decide), before]

theorem apply_decision_view {now decision target : String} {artifact node observation token token' : Json}
    {waits : Bool}
    (applied : applyDecision now decision target artifact node observation token =
      some (token', waits)) : view token' = view token := by
  unfold applyDecision at applied
  split at applied
  · exact reopen_wait_view applied
  split at applied
  · obtain ⟨aborted, did, same⟩ := Option.map_eq_some_iff.mp applied
    obtain ⟨rfl, -⟩ := Prod.mk.inj same
    exact abort_token_view did
  split at applied
  · obtain ⟨moved, put, same⟩ := Option.map_eq_some_iff.mp applied
    obtain ⟨rfl, -⟩ := Prod.mk.inj same
    exact view_of_writes (.put put) (by decide)
  · obtain ⟨rfl, -⟩ := Prod.mk.inj (Option.some.inj applied)
    rfl

theorem conclude_view {now decision target : String} {artifact node observation token : Json}
    {output : Option TerminalOutput} {enteredWait : Bool} :
    view (concludeInteraction now decision target artifact node observation output enteredWait
      token).token = view token := by
  unfold concludeInteraction
  split
  · rfl
  split
  · rfl
  · rename_i noted note
    have noteView : view noted = view token := view_of_writes (.put note) (by decide)
    split
    · exact noteView
    · rename_i decided waits applied
      rw [apply_decision_view applied, noteView]

/-- A wait that failed half way is no wait to recover. -/
theorem half_wait_unrecoverable (now runId : String) (node observation : Json) (turnAccept : Int)
    (ledgered : Json) : isRecoverable ((ledgered.put? ["control", "wait"]
      (newWait now runId node observation turnAccept)).getD ledgered) = false := by
  cases put : ledgered.put? ["control", "wait"] (newWait now runId node observation turnAccept) with
  | some written =>
    have isWait : wait? written = some (newWait now runId node observation turnAccept) := by
      simp only [wait?, at?_put?_same put, newWait]
    simp only [Option.getD_some, isRecoverable, isWait]
    split
    · rename_i same _
      obtain rfl := Option.some.inj same
      simp [newWait, Json.str?]
    · rfl
  | none =>
    -- without an object under `control` there is no wait to recover
    simp only [Option.getD_none, isRecoverable]
    split
    · rename_i wait evidence has found
      obtain ⟨fs, -, reads⟩ := wait_spec has
      obtain ⟨written, defined⟩ := put?_defined reads (newWait now runId node observation turnAccept)
      rw [put] at defined
      cases defined
    · rfl

/-- **A node's interaction** leaves the view alone unless the node asks for a wait, and then enters it.
A wait that fails half way is left out: its token neither is stored nor can be recovered. -/
theorem interaction_view {now runId : String} {latest : Int} {events : List TerminalEvent}
    {artifact node observation : Json} {turnAccept : Int} {token : Json} {applied : Applied}
    (did : applyNodeInteraction now runId latest events artifact node observation turnAccept token =
      applied) (kept : isRecoverable applied.token = true ∨ ∃ waits, applied.outcome = .ok waits) :
    view applied.token = view token ∨
    (((interaction node).field "wait_after_output").truthy = true ∧
      Entered latest events turnAccept (view token) (view applied.token)) := by
  unfold applyNodeInteraction at did
  split at did
  · subst did
    exact .inl rfl
  simp only at did
  split at did
  · subst did
    exact .inl rfl
  rename_i ledgered ledger
  have ledgerView : view ledgered = view token := by
    split at ledger
    · exact merge_evidence_view ledger
    · obtain rfl := Option.some.inj ledger
      rfl
  split at did
  · subst did
    rcases kept with recoverable | ⟨waits, ok⟩
    · rw [half_wait_unrecoverable] at recoverable
      cases recoverable
    · cases ok
  · rename_i waited enteredWait resumed wait
    subst did
    simp only [conclude_view]
    rcases wait_after_output_view wait with ⟨-, rfl⟩ | ⟨wants, entered⟩
    · exact .inl ledgerView
    · exact .inr ⟨wants, ledgerView ▸ entered⟩

/-! ### Recovery, cancellation, fork -/

theorem note_failure_view {now error : String} {trace : TraceRef} {token token' : Json}
    (noted : noteFailure now error trace token = some token') : view token' = view token := by
  unfold noteFailure at noted
  split at noted
  · obtain rfl := Option.some.inj noted
    rfl
  · rename_i wait has
    obtain ⟨a, status, pushed⟩ := Option.bind_eq_some_iff.mp noted
    obtain ⟨sameA, hasA⟩ := view_beside_window (by decide) (by rw [has]; rfl) status
    obtain ⟨sameB, -⟩ := view_beside_window (by decide) hasA pushed
    rw [sameB, sameA]

theorem append_if_next_view {event : Option TerminalEvent} {token token' : Json}
    (appended : appendIfNext event token = some token') :
    view token' = view token ∨ ∃ next cursor, event = some next ∧ (view token).cursor = some cursor ∧
      (next.seqNo : Int) = cursor + 1 ∧ view token' = (view token).copy next := by
  unfold appendIfNext at appended
  obtain ⟨cursor, isCursor, appended⟩ := Option.bind_eq_some_iff.mp appended
  cases event with
  | none =>
    obtain rfl := Option.some.inj appended
    exact .inl rfl
  | some next =>
    simp only at appended
    split at appended
    · obtain rfl := Option.some.inj appended
      exact .inl rfl
    · rename_i isNext
      obtain ⟨a, push, appended⟩ := Option.bind_eq_some_iff.mp appended
      obtain ⟨b, number, put⟩ := Option.bind_eq_some_iff.mp appended
      refine .inr ⟨next, cursor, rfl, isCursor, not_not.mp isNext, ?_⟩
      have entry : copyOf (obj next.payloadFields) = View.entry next := by
        simp [copyOf, TerminalEvent.payloadFields, View.entry, strOr, toStr]
      rw [view_put_cursor put, view_of_writes (.put number) (by decide), view_push_event push, entry]
      rfl

/-- A recovery copies its own message if that is the next event, and is no move otherwise. -/
theorem recover_token_view {now error : String} {trace : TraceRef} {event : Option TerminalEvent}
    {token token' : Json} (recovered : recoverTerminalTurnToken now error trace event token = some token') :
    view token' = view token ∨ ∃ next cursor, event = some next ∧ (view token).cursor = some cursor ∧
      (next.seqNo : Int) = cursor + 1 ∧ view token' = (view token).copy next := by
  unfold recoverTerminalTurnToken at recovered
  obtain ⟨a, noted, recovered⟩ := Option.bind_eq_some_iff.mp recovered
  obtain ⟨b, processing, recovered⟩ := Option.bind_eq_some_iff.mp recovered
  obtain ⟨c, status, recovered⟩ := Option.bind_eq_some_iff.mp recovered
  obtain ⟨d, phase, appended⟩ := Option.bind_eq_some_iff.mp recovered
  have same : view d = view token := by
    rw [view_of_writes (.put phase) (by decide), view_of_writes (.put status) (by decide),
      view_of_writes (.put processing) (by decide), note_failure_view noted]
  rw [← same]
  exact append_if_next_view appended

/-- A cancellation drops the wait. -/
theorem cancel_token_view {now runId reason : String} {token token' : Json}
    (cancelled : cancelToken now runId reason token = some token') :
    view token' = { view token with window := none } := by
  unfold cancelToken at cancelled
  obtain ⟨a, status, cancelled⟩ := Option.bind_eq_some_iff.mp cancelled
  obtain ⟨b, phase, cancelled⟩ := Option.bind_eq_some_iff.mp cancelled
  obtain ⟨c, popped, put⟩ := Option.bind_eq_some_iff.mp cancelled
  have before : view b = view token := by
    rw [view_of_writes (.put phase) (by decide), view_of_writes (.put status) (by decide)]
  have pops : view c = { view b with window := none } := by
    have gone : wait? c = none := by simp [wait?, at?_pop?_same popped]
    have free : ∀ p, Apart ["control", "wait"] p → at? p c = at? p b := fun p apart =>
      (Writes.pop popped).read fun q isQ => List.mem_singleton.mp isQ ▸ apart
    simp only [view, gone, cursor?, tokenEvents, consumption, waitCheckpoints,
      free ["metadata", "terminal_cursor"] (by decide), free ["terminal", "events"] (by decide),
      free ["control", "terminal_consumption"] (by decide),
      free ["control", "wait_checkpoints"] (by decide)]
    rfl
  rw [view_of_writes (.put put) (by decide), pops, before]

/-- A fork holds exactly the copied events, with the cursor behind them. -/
theorem fork_token_view {events : List TerminalEvent} {latest : Nat} {token token' : Json}
    (forked : forkToken events latest token = some token') :
    view token' = { view token with
      cursor := some (latest : Int), copies := events.map View.entry } := by
  unfold forkToken at forked
  obtain ⟨a, listed, forked⟩ := Option.bind_eq_some_iff.mp forked
  obtain ⟨b, number, put⟩ := Option.bind_eq_some_iff.mp forked
  have list : view a = { view token with copies := events.map View.entry } := by
    have free : ∀ p, Apart ["terminal", "events"] p → at? p a = at? p token := fun p apart =>
      at?_put?_apart apart listed
    simp only [view, view_events (at?_put?_same listed), List.map_map, Function.comp_def,
      copyOf_payload, cursor?, wait?, consumption, waitCheckpoints,
      free ["metadata", "terminal_cursor"] (by decide), free ["control", "wait"] (by decide),
      free ["control", "terminal_consumption"] (by decide),
      free ["control", "wait_checkpoints"] (by decide)]
  rw [view_put_cursor put, view_of_writes (.put number) (by decide), list]

end Psop.Runtime
