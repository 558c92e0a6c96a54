import Psop.Runtime.Events
import Psop.Runtime.NodeView

/-!
The terminal protocol, and that every token follows it.

`Reached` is the protocol on views alone: a stream that grows, a token that synchronises with it,
enters waits, copies the event behind its cursor or drops its wait, and the history of the waits along
with it. `tracked_run` says that in every run of an artifact whose merges keep off the view's paths,
each stored snapshot and each token a turn holds was reached that way. What is proved of the protocol
then holds of the runs, whatever their nodes, failures and interleavings.
-/
namespace Psop.Runtime

open Json Rows Psop.Runtime.System

/-! ### The protocol -/

/-- The numbers of the events are their places, and their ids differ. -/
structure Dense (events : List TerminalEvent) : Prop where
  numbers : events.map TerminalEvent.seqNo = List.range' 1 events.length
  ids : events.Pairwise fun a b => a.id ≠ b.id

theorem Numbered.latest {rows : Rows} (numbered : Numbered rows) :
    rows.run.latestTerminalSeq = rows.events.length := by
  have lengths := congrArg List.length numbered.numbers
  simpa using lengths.symm

theorem Numbered.dense {rows : Rows} (numbered : Numbered rows) : Dense rows.events :=
  ⟨by rw [← numbered.latest]; exact numbered.numbers, numbered.ids⟩

section DenseStream

variable {events : List TerminalEvent}

theorem Dense.getElem (dense : Dense events) {i : Nat} (bound : i < events.length) :
    (events[i]).seqNo = i + 1 := by
  have mapped : (events.map TerminalEvent.seqNo)[i]? = (List.range' 1 events.length)[i]? := by
    rw [dense.numbers]
  rw [List.getElem?_map, List.getElem?_eq_getElem bound, List.getElem?_range' bound] at mapped
  have number := Option.some.inj mapped
  omega

theorem Dense.mem_take (dense : Dense events) {c : Nat} {event : TerminalEvent}
    (taken : event ∈ events.take c) : event.seqNo ≤ c := by
  obtain ⟨i, bound, rfl⟩ := List.getElem_of_mem taken
  rw [List.length_take] at bound
  rw [List.getElem_take, dense.getElem (by omega)]
  omega

theorem Dense.mem_drop (dense : Dense events) {c : Nat} {event : TerminalEvent}
    (dropped : event ∈ events.drop c) : c < event.seqNo := by
  obtain ⟨i, bound, rfl⟩ := List.getElem_of_mem dropped
  rw [List.length_drop] at bound
  rw [List.getElem_drop, dense.getElem (by omega)]
  omega

theorem Dense.bounded (dense : Dense events) {event : TerminalEvent} (stored : event ∈ events) :
    1 ≤ event.seqNo ∧ event.seqNo ≤ events.length := by
  obtain ⟨i, bound, rfl⟩ := List.getElem_of_mem stored
  rw [dense.getElem bound]
  omega

/-- The events after a cursor are what is left of the stream there. -/
theorem Dense.from_cursor (dense : Dense events) (c : Nat) :
    eventsFrom ((c : Int) + 1) events = events.drop c := by
  have before : (events.take c).filter (fun event => decide ((c : Int) + 1 ≤ event.seqNo)) = [] := by
    refine List.filter_eq_nil_iff.mpr fun event taken => ?_
    have below := dense.mem_take taken
    simp only [decide_eq_true_eq]
    omega
  have after : (events.drop c).filter (fun event => decide ((c : Int) + 1 ≤ event.seqNo)) =
      events.drop c := by
    refine List.filter_eq_self.mpr fun event dropped => ?_
    have above := dense.mem_drop dropped
    simp only [decide_eq_true_eq]
    omega
  have split := congrArg (List.filter fun event => decide ((c : Int) + 1 ≤ event.seqNo))
    (List.take_append_drop c events)
  rw [List.filter_append, before, after, List.nil_append] at split
  exact split.symm

/-- The last number bounds the rest of the stream. -/
theorem Dense.between_cursor (dense : Dense events) (c : Nat) :
    eventsBetween ((c : Int) + 1) events.length events = events.drop c := by
  rw [eventsBetween, dense.from_cursor]
  refine List.filter_eq_self.mpr fun event dropped => ?_
  have within := (dense.bounded (List.mem_of_mem_drop dropped)).2
  simp only [decide_eq_true_eq]
  omega

end DenseStream

/-- The numbers recorded between two views. -/
def View.newly (before after : View) : List Int :=
  (after.records.drop before.records.length).filterMap id

/-- The history after a synchronisation. -/
def View.syncMarks (before after : View) (waits : List WaitMark) : List WaitMark :=
  match waits.getLast? with
  | none => []
  | some mark => waits.dropLast ++ [{ mark with consumed := mark.consumed ++ before.newly after }]

/-- The history after a wait was entered. -/
def View.entryMarks (enteredAt : Nat) (before after : View) (waits : List WaitMark) : List WaitMark :=
  waits ++ [⟨after.accept?.getD 0, enteredAt, before.newly after⟩]

/-- The views a token can come to, with the stream and the history it has then. `base` says where a
token starts, `may` which views enter a wait at a stream. -/
inductive Reached (base may : List TerminalEvent → View → Prop) :
    List TerminalEvent → View → List WaitMark → Prop
  | start {events : List TerminalEvent} {v : View} (isBase : base events v) :
      Reached base may events v []
  | grow {events later : List TerminalEvent} {v : View} {waits : List WaitMark}
      (reached : Reached base may events v waits) (more : events <+: later) (dense : Dense later) :
      Reached base may later v waits
  | sync {events : List TerminalEvent} {v v' : View} {waits : List WaitMark} {cursor accept : Int}
      (reached : Reached base may events v waits) (isCursor : v.cursor = some cursor)
      (waiting : v.window.isSome = true)
      (same : ∀ k, v.window = some (some (num k)) → accept = k)
      (synced : v' = (eventsFrom (cursor + 1) events).foldl View.sync
        { v with window := some (some (num accept)) }) :
      Reached base may events v' (v.syncMarks v' waits)
  | enter {events : List TerminalEvent} {v v' : View} {waits : List WaitMark} {turnAccept : Int}
      (reached : Reached base may events v waits) (permitted : may events v)
      (fresh : v.prior = false → v.cursor = some turnAccept)
      (entered : Entered events.length events turnAccept v v') :
      Reached base may events v' (v.entryMarks events.length v' waits)
  | next {events : List TerminalEvent} {v : View} {waits : List WaitMark} {event : TerminalEvent}
      {cursor : Int} (reached : Reached base may events v waits) (stored : event ∈ events)
      (output : event.direction = .output) (isCursor : v.cursor = some cursor)
      (isNext : (event.seqNo : Int) = cursor + 1) : Reached base may events (v.copy event) waits
  | drop {events : List TerminalEvent} {v : View} {waits : List WaitMark}
      (reached : Reached base may events v waits) :
      Reached base may events { v with window := none } waits

/-! ### The history of a token and of its view -/

theorem newly_consumed_view (before after : Json) :
    newlyConsumed before after = (view before).newly (view after) := by
  have lengths : (view before).records.length = (consumption before).length := List.length_map _
  have dropped : (view after).records.drop (consumption before).length =
      ((consumption after).drop (consumption before).length).map recordSeq := (List.map_drop ..).symm
  have same : ∀ records : List Json,
      records.filterMap recordSeq = (records.map recordSeq).filterMap id := by
    intro records
    rw [List.filterMap_map]
    exact List.filterMap_congr fun _ _ => rfl
  rw [newlyConsumed, View.newly, lengths, dropped, same]

theorem after_sync_marks (before after : Json) (waits : List WaitMark) :
    WaitMark.afterSync before after waits = (view before).syncMarks (view after) waits := by
  unfold WaitMark.afterSync View.syncMarks
  cases waits.getLast? with
  | none => rfl
  | some mark => simp only [newly_consumed_view]

theorem View.newly_self (v : View) : v.newly v = [] := by
  simp [View.newly]

theorem View.sync_marks_self (v : View) (waits : List WaitMark) : v.syncMarks v waits = waits := by
  unfold View.syncMarks
  split
  · rename_i none
    exact (List.getLast?_eq_none_iff.mp none).symm
  · rename_i mark last
    rw [View.newly_self, List.append_nil]
    exact List.dropLast_append_getLast? mark last

theorem View.pull_all_checkpoints (events : List TerminalEvent) (v : View) :
    (events.foldl View.pull v).checkpoints = v.checkpoints := by
  induction events generalizing v with
  | nil => rfl
  | cons event rest ih =>
    rw [List.foldl_cons, ih]
    unfold View.pull
    split
    · rfl
    · split <;> rfl

/-- Entering a wait opens its window and adds a checkpoint. -/
theorem Entered.spec {latest : Int} {events : List TerminalEvent} {turnAccept : Int} {v v' : View}
    (entered : Entered latest events turnAccept v v') :
    v'.checkpoints = v.checkpoints + 1 ∧ v'.window.isSome = true := by
  obtain ⟨accept, -, -, -, rfl | ⟨-, rfl⟩⟩ := entered.entry
  · exact ⟨rfl, rfl⟩
  · rw [View.pull_all_checkpoints, View.pull_all_window]
    exact ⟨rfl, rfl⟩

theorem accept_of_token (token : Json) :
    (view token).accept?.getD 0 = acceptAfter ((wait? token).getD null) := by
  cases has : wait? token with
  | none => simp [View.accept?, view, has, acceptAfter, at?_cons, field?, fields]; rfl
  | some wait => rw [accept_of_wait has, Option.getD_some, Option.getD_some]

theorem after_node_same {before after : Json} (same : view after = view before) (enteredAt : Nat)
    (waits : List WaitMark) : WaitMark.afterNode enteredAt before after waits = waits := by
  have counts : (waitCheckpoints after).length = (waitCheckpoints before).length :=
    congrArg View.checkpoints same
  rw [WaitMark.afterNode, counts, if_neg (Nat.lt_irrefl _)]

theorem after_node_entered {before after : Json}
    (more : (view after).checkpoints = (view before).checkpoints + 1) (enteredAt : Nat)
    (waits : List WaitMark) : WaitMark.afterNode enteredAt before after waits =
      (view before).entryMarks enteredAt (view after) waits := by
  have counts : (waitCheckpoints after).length = (waitCheckpoints before).length + 1 := more
  rw [WaitMark.afterNode, counts, if_pos (Nat.lt_succ_self _), View.entryMarks, accept_of_token,
    newly_consumed_view]

/-! ### The invariant -/

section Tracked

variable {platform : Platform} {base may : List TerminalEvent → View → Prop}

/-- A token a turn works on: before any wait its cursor is where the turn began. -/
structure Follows (base may : List TerminalEvent → View → Prop) (events : List TerminalEvent)
    (acceptAfter : Int) (token : Json) (waits : List WaitMark) : Prop where
  reached : Reached base may events (view token) waits
  fresh : (view token).prior = false → (view token).cursor = some acceptAfter

structure Tracked (base may : List TerminalEvent → View → Prop) (s : System) : Prop where
  numbered : Numbered s.rows
  apart : MergesApart s.rows.artifact
  snapshots : ∀ snapshot ∈ s.rows.snapshots,
    Reached base may s.rows.events (view snapshot.token) snapshot.waits
  turns : ∀ attempt turn, s.attempts attempt = .looping turn →
    Follows base may s.rows.events turn.acceptAfter turn.token turn.waits

/-- Waits are entered only where `may` allows it. -/
structure EntersWithin (platform : Platform) (may : List TerminalEvent → View → Prop) (s : System)
    (e : Event) : Prop where
  entry : ∀ {attempt turn outcome supply node observation charged merged shown},
    e = .turn attempt outcome supply →
    Commits platform s attempt turn outcome supply node observation charged merged shown →
    ((interaction node).field "wait_after_output").truthy = true → may s.rows.events (view turn.token)

variable {s t : System} {e : Event}

theorem Selected.node_apart {attempt : Nat} {turn : Turn} {node : Json}
    (selected : Selected s attempt turn node) (apart : MergesApart s.rows.artifact) :
    NodeApart node :=
  apart node (List.mem_of_mem_filter (select_mem selected.selected))

/-- The token an interaction leaves, if it is stored or recovered from. -/
theorem Commits.follows {attempt : Nat} {turn : Turn} {outcome : AgentOutcome} {supply : Supply}
    {node observation charged merged : Json} {shown : Rows}
    (commits : Commits platform s attempt turn outcome supply node observation charged merged shown)
    (tracked : Tracked base may s) (within : EntersWithin platform may s (.turn attempt outcome supply))
    (kept : isRecoverable (interacted platform s turn node observation merged).token = true ∨
      ∃ waits, (interacted platform s turn node observation merged).outcome = .ok waits) :
    Follows base may s.rows.events turn.acceptAfter
      (interacted platform s turn node observation merged).token
      (waitsAfter platform s turn node observation merged) := by
  obtain ⟨reached, fresh⟩ := tracked.turns attempt turn commits.selected.looping
  obtain ⟨made, ran, merge⟩ := commits.merge
  have same : view merged = view turn.token :=
    (merge_observation_view (commits.selected.node_apart tracked.apart) merge).trans
      (execute_node_view ran)
  have latest : (s.rows.run.latestTerminalSeq : Int) = s.rows.events.length := by
    rw [tracked.numbered.latest]
  have moved : view (interacted platform s turn node observation merged).token = view merged ∨
      (((interaction node).field "wait_after_output").truthy = true ∧
        Entered s.rows.run.latestTerminalSeq s.rows.events turn.acceptAfter (view merged)
          (view (interacted platform s turn node observation merged).token)) :=
    interaction_view rfl kept
  rcases moved with stays | ⟨wants, entered⟩
  · have unmoved : view (interacted platform s turn node observation merged).token =
        view turn.token := stays.trans same
    rw [waitsAfter, after_node_same stays]
    exact ⟨unmoved ▸ reached, fun new => by rw [unmoved] at new ⊢; exact fresh new⟩
  · obtain ⟨more, open_⟩ := entered.spec
    rw [waitsAfter, after_node_entered more, same, tracked.numbered.latest]
    rw [same, latest] at entered
    refine ⟨.enter reached (within.entry rfl commits wants) fresh entered, fun new => ?_⟩
    simp only [View.prior, open_, Bool.true_or, Bool.true_eq_false] at new

/-- The token of a turn that fails and can be recovered. -/
theorem Fails.reached {attempt : Nat} {leased : Bool} {token : Json} {waits : List WaitMark}
    {expected : Nat} {rows : Rows}
    (fails : Fails platform s attempt e leased token waits expected rows)
    (recoverable : isRecoverable token = true) (tracked : Tracked base may s)
    (within : EntersWithin platform may s e) : Reached base may s.rows.events (view token) waits := by
  cases fails with
  | starting _ _ last =>
    rw [compact_view]
    exact tracked.snapshots _ (List.mem_of_getLast? last)
  | looping looping => exact (tracked.turns _ _ looping).reached
  | executing selected => exact (tracked.turns _ _ selected.looping).reached
  | merging selected ran =>
    rw [execute_node_view ran]
    exact (tracked.turns _ _ selected.looping).reached
  | applying commits => exact (commits.follows tracked within (.inl recoverable)).reached

/-- A turn begins with its last snapshot, synchronised. -/
theorem begun_follows {snapshot : Snapshot} {acceptAfterSeq : Int} {synced : Json}
    (tracked : Tracked base may s) (last : s.rows.lastSnapshot? = some snapshot)
    (cursor : cursor? (compactRuntimeToken platform.sha256 snapshot.token) = some acceptAfterSeq)
    (sync : syncTerminalEvents (platform.isoformat s.now) s.rows.events
      (compactRuntimeToken platform.sha256 snapshot.token) = some synced) :
    Follows base may s.rows.events acceptAfterSeq synced
      (WaitMark.afterSync (compactRuntimeToken platform.sha256 snapshot.token) synced
        snapshot.waits) := by
  have reached := tracked.snapshots _ (List.mem_of_getLast? last)
  rw [← compact_view platform.sha256] at reached
  rw [after_sync_marks]
  rcases sync_view sync with ⟨rfl, -⟩ | ⟨waiting, moved⟩
  · rw [View.sync_marks_self]
    exact ⟨reached, fun _ => cursor⟩
  · obtain ⟨from_, accept, isCursor, same, isView⟩ := moved.moved
    have has : (view (compactRuntimeToken platform.sha256 snapshot.token)).window.isSome = true := by
      rw [window_isSome]
      exact (Bool.and_eq_true_iff.mp waiting).2
    refine ⟨.sync reached isCursor has same isView, fun new => ?_⟩
    have open_ : (view synced).window.isSome = true := by
      rw [isView, View.sync_all_window]
      rfl
    simp only [View.prior, open_, Bool.true_or, Bool.true_eq_false] at new

/-! ### The snapshots of a transaction -/

theorem StreamOnly.snapshots {before after : Rows} (only : StreamOnly before after) :
    after.snapshots = before.snapshots := by
  obtain ⟨latest, events, rfl⟩ := only
  rfl

theorem finish_turn_snapshots {now : Nat} {token : Json} {status : JobStatus} {lastError : String}
    {rows rows' : Rows} (ended : finishRuntimeJobTurn now token status lastError rows = some rows') :
    rows'.snapshots = rows.snapshots := by
  rw [finish_turn_spec ended]

theorem wait_turn_snapshots {now : Nat} {token : Json} {rows rows' : Rows}
    (waited : waitTurn now token rows = some rows') : rows'.snapshots = rows.snapshots := by
  have kept := finish_turn_snapshots waited
  exact kept

theorem abort_run_snapshots {now : Nat} {token : Json} {rows rows' : Rows}
    (aborted : abortRun now token rows = some rows') : rows'.snapshots = rows.snapshots := by
  have kept := finish_turn_snapshots aborted
  exact kept

theorem succeed_run_snapshots {now : Nat} {token : Json} {rows rows' : Rows}
    (succeeded : succeedRun now token rows = some rows') : rows'.snapshots = rows.snapshots := by
  have kept := finish_turn_snapshots succeeded
  exact kept

theorem fail_turn_snapshots {now : Nat} {stamp : String} {token : Json} {failure : Failure}
    {supply : Supply} {rows rows' : Rows}
    (failed : failTurn now stamp token failure supply rows = some rows') :
    rows'.snapshots = rows.snapshots := by
  unfold failTurn at failed
  obtain ⟨ended, was, failed⟩ := Option.bind_eq_some_iff.mp failed
  obtain ⟨⟨appended, event⟩, output, closed⟩ := Option.bind_eq_some_iff.mp failed
  cases closed
  have kept := finish_turn_snapshots was
  exact (append_if_open_only output).snapshots.trans kept

theorem finalize_snapshots {now id error : String} {trace : TraceRef} {rows rows' : Rows}
    (finalized : finalizeExhaustedJob now id error trace rows = some rows') :
    rows'.snapshots = rows.snapshots := by
  unfold finalizeExhaustedJob at finalized
  split at finalized
  · cases finalized; rfl
  · split at finalized
    · cases finalized; rfl
    · obtain ⟨⟨appended, event⟩, was, rfl⟩ := Option.map_eq_some_iff.mp finalized
      exact (append_if_open_only was).snapshots

theorem woken_snapshots (now : Nat) (draft : EventDraft) (rows : Rows) :
    (woken now draft rows).snapshots = rows.snapshots := by
  unfold woken
  split
  · unfold ensureRuntimeJobPending
    split
    · rfl
    · split <;> rfl
  · rfl

theorem append_step_snapshots {supply : Supply} {stamp : String} {node observation token : Json}
    {enabled : List String} {waits : List WaitMark} {rows rows' : Rows}
    (appended : appendRuntimeStep supply stamp node observation token enabled waits rows =
      some rows') : rows'.snapshots = rows.snapshots ++ [⟨rows.run.latestSnapshotSeq + 1, token,
        enabled, some (node.field "id").toStr, waits⟩] :=
  (append_step_only appended).snapshots

/-- What a recovery stores: its message, if the session is open, and the token with it. -/
theorem recover_turn_spec {now : Nat} {stamp : String} {token : Json} {waits : List WaitMark}
    {failure : Failure} {supply : Supply} {rows rows' : Rows}
    (recovered : recoverTurn now stamp token waits failure supply rows = some rows') :
    ∃ appended event result, StreamOnly rows appended ∧
      (event = none ∨ ∃ new, event = some new ∧ new ∈ appended.events ∧ new.direction = .output) ∧
      recoverTerminalTurnToken stamp failure.text supply.trace event token = some result ∧
      rows'.events = appended.events ∧
      rows'.snapshots = rows.snapshots ++
        [⟨rows.run.latestSnapshotSeq + 1, result, [], none, waits⟩] := by
  unfold recoverTurn at recovered
  obtain ⟨⟨appended, event⟩, was, recovered⟩ := Option.bind_eq_some_iff.mp recovered
  obtain ⟨result, did, ended⟩ := Option.bind_eq_some_iff.mp recovered
  have only := append_if_open_only was
  refine ⟨appended, event, result, only, ?_, did, ?_, ?_⟩
  · rcases append_if_open_spec was with ⟨-, none⟩ | ⟨new, isNew, stored⟩
    · exact .inl none
    · obtain ⟨direction, toward, isRow, -, isRows⟩ := append_event_spec stored
      refine .inr ⟨new, isNew, by rw [isRows]; simp, ?_⟩
      have isOutput : Direction.ofText "output" = some .output := by decide
      obtain rfl : direction = .output := Option.some.inj (toward.symm.trans isOutput)
      rw [isRow]
      rfl
  · rw [finish_turn_spec ended]
    rfl
  · rw [finish_turn_snapshots ended]
    obtain ⟨latest, events, rfl⟩ := only
    rfl

theorem cancel_snapshots {now reason : String} {rows rows' : Rows}
    (snapped : appendCancelSnapshot now reason (cancelledRun reason rows) = some rows') :
    rows'.snapshots = rows.snapshots ∨ ∃ snapshot token, rows.lastSnapshot? = some snapshot ∧
      cancelToken now rows.run.id reason snapshot.token = some token ∧
      rows'.snapshots = rows.snapshots ++
        [⟨rows.run.latestSnapshotSeq + 1, token, [], none, snapshot.waits⟩] := by
  unfold appendCancelSnapshot at snapped
  split at snapped
  · cases snapped
    exact .inl rfl
  · rename_i snapshot last
    obtain ⟨token, cancelled, rfl⟩ := Option.map_eq_some_iff.mp snapped
    exact .inr ⟨snapshot, token, last, cancelled, rfl⟩

/-! ### The step -/

theorem looping_of_set {attempt other : Nat} {state : Attempt} {turn : Turn}
    (looping : (s.setAttempt attempt state).attempts other = .looping turn) :
    state = .looping turn ∨ s.attempts other = .looping turn := by
  simp only [setAttempt] at looping
  split at looping
  · exact .inl looping
  · exact .inr looping

/-- An attempt set to something else than a turn leaves the turns as they were. -/
theorem turns_of_set {attempt other : Nat} {state : Attempt} {turn : Turn}
    (looping : (s.setAttempt attempt state).attempts other = .looping turn)
    (idle : state ≠ .looping turn) : s.attempts other = .looping turn :=
  (looping_of_set looping).resolve_left idle

theorem ended_turns {attempt : Nat} {rows : Rows} (other : Nat) (turn : Turn)
    (looping : (endAttempt attempt rows s).attempts other = .looping turn) :
    s.attempts other = .looping turn :=
  turns_of_set looping (by simp)

/-- What a step has to show: its new snapshots and its new tokens. -/
theorem Tracked.step (tracked : Tracked base may s) (move : Move platform s e t)
    (snapshots : ∀ snapshot ∈ t.rows.snapshots, snapshot ∈ s.rows.snapshots ∨
      Reached base may t.rows.events (view snapshot.token) snapshot.waits)
    (turns : ∀ attempt turn, t.attempts attempt = .looping turn →
      s.attempts attempt = .looping turn ∨
      Follows base may t.rows.events turn.acceptAfter turn.token turn.waits) : Tracked base may t := by
  have grows := move_grows move
  have numbered := grows.numbered tracked.numbered
  have later : ∀ {v : View} {waits : List WaitMark}, Reached base may s.rows.events v waits →
      Reached base may t.rows.events v waits := fun reached =>
    .grow reached grows.events numbered.dense
  refine ⟨numbered, grows.artifact ▸ tracked.apart, fun snapshot stored => ?_,
    fun attempt turn looping => ?_⟩
  · rcases snapshots snapshot stored with old | new
    · exact later (tracked.snapshots snapshot old)
    · exact new
  · rcases turns attempt turn looping with old | new
    · obtain ⟨reached, fresh⟩ := tracked.turns attempt turn old
      exact ⟨later reached, fresh⟩
    · exact new

theorem mem_snapshots_append {snapshots : List Snapshot} {rows : Rows} {new : Snapshot}
    (appended : rows.snapshots = snapshots ++ [new]) {P : Snapshot → Prop} (isNew : P new) :
    ∀ snapshot ∈ rows.snapshots, snapshot ∈ snapshots ∨ P snapshot := by
  intro snapshot stored
  rw [appended] at stored
  rcases List.mem_append.mp stored with old | last
  · exact .inl old
  · exact .inr (List.mem_singleton.mp last ▸ isNew)

/-- **Every step keeps to the protocol.** -/
theorem move_tracked (tracked : Tracked base may s) (within : EntersWithin platform may s e)
    (move : Move platform s e t) : Tracked base may t := by
  have grows := move_grows move
  have dense := (grows.numbered tracked.numbered).dense
  have same : ∀ {rows : Rows}, rows.snapshots = s.rows.snapshots → ∀ snapshot ∈ rows.snapshots,
      snapshot ∈ s.rows.snapshots ∨
      Reached base may t.rows.events (view snapshot.token) snapshot.waits :=
    fun kept snapshot stored => .inl (kept ▸ stored)
  have ended : ∀ {attempt : Nat} {rows : Rows}, ∀ other turn,
      (endAttempt attempt rows s).attempts other = .looping turn →
      s.attempts other = .looping turn ∨
      Follows base may t.rows.events turn.acceptAfter turn.token turn.waits :=
    fun other turn looping => .inl (ended_turns other turn looping)
  refine tracked.step move ?_ ?_
  · cases move with
    | tick | repeated | stopped | claimed | renewed | released | settled | begun =>
      exact fun snapshot stored => .inl stored
    | appended _ _ _ stored =>
      exact same ((woken_snapshots ..).trans (append_event_only stored).snapshots)
    | cancelled _ snapped =>
      rcases cancel_snapshots snapped with kept | ⟨snapshot, token, last, cancelled, added⟩
      · exact same kept
      · refine mem_snapshots_append added ?_
        rw [cancel_token_view cancelled]
        exact .drop (.grow (tracked.snapshots _ (List.mem_of_getLast? last)) grows.events dense)
    | exhausted _ _ _ _ finalized =>
      have kept := finalize_snapshots finalized
      exact same kept
    | rested _ _ _ _ _ waited =>
      have kept := wait_turn_snapshots waited
      exact same kept
    | recovered fails recoverable _ _ recovered =>
      obtain ⟨appended, event, result, only, new, did, events, added⟩ := recover_turn_spec recovered
      have reached := Reached.grow (fails.reached recoverable tracked within) grows.events dense
      refine mem_snapshots_append (added.trans (congrArg (· ++ _) ?_)) ?_
      · cases fails with
        | applying commits => exact (append_output_only commits.output).snapshots
        | _ => rfl
      · rcases recover_token_view did with stays | ⟨next, cursor, isNext, isCursor, number, copied⟩
        · rw [stays]
          exact reached
        · rw [copied]
          rcases new with none | ⟨stored, isStored, isMem, output⟩
          · rw [none] at isNext
            cases isNext
          · obtain rfl := Option.some.inj (isStored.symm.trans isNext)
            exact .next reached (by simpa [endAttempt, setAttempt, withRows, events] using isMem)
              output isCursor number
    | failed fails _ failed =>
      refine same ((fail_turn_snapshots failed).trans ?_)
      cases fails with
      | applying commits => exact (append_output_only commits.output).snapshots
      | _ => rfl
    | advanced commits goesOn stored =>
      have shown := (append_output_only commits.output).snapshots
      refine mem_snapshots_append ((append_step_snapshots stored).trans
        (congrArg (· ++ _) shown)) ?_
      exact .grow (commits.follows tracked within (.inr ⟨_, goesOn⟩)).reached grows.events dense
    | waited commits waits stored waited =>
      have shown := (append_output_only commits.output).snapshots
      refine mem_snapshots_append ((wait_turn_snapshots waited).trans
        ((append_step_snapshots stored).trans (congrArg (· ++ _) shown))) ?_
      exact .grow (commits.follows tracked within (.inr ⟨_, waits⟩)).reached grows.events dense
    | aborted _ _ _ exited => exact same (abort_run_snapshots exited)
    | succeeded _ _ _ exited => exact same (succeed_run_snapshots exited)
    | halted _ _ _ exited => exact same (wait_turn_snapshots exited)
  · cases move with
    | tick | repeated | appended | cancelled | renewed | released | exhausted =>
      exact fun _ _ looping => .inl looping
    | stopped | claimed => exact fun _ _ looping => .inl (turns_of_set looping (by simp))
    | settled | rested | recovered | failed | waited | aborted | succeeded | halted => exact ended
    | begun may' holds unfinished last cursor sync =>
      intro other turn looping
      rcases looping_of_set looping with new | old
      · obtain rfl := Attempt.looping.inj new
        have follows := begun_follows tracked last cursor sync
        exact .inr follows
      · exact .inl old
    | advanced commits goesOn stored =>
      intro other turn looping
      rcases looping_of_set looping with new | old
      · obtain rfl := Attempt.looping.inj new
        obtain ⟨reached, fresh⟩ := commits.follows tracked within (.inr ⟨_, goesOn⟩)
        exact .inr ⟨.grow reached grows.events dense, fresh⟩
      · exact .inl old

/-- **Every run keeps to the protocol.** -/
theorem tracked_run {allowed : System → Event → Prop}
    (within : ∀ s e, allowed s e → EntersWithin platform may s e) (tracked : Tracked base may s)
    (run : Run (step platform) allowed s t) : Tracked base may t :=
  run.invariant (fun _ _ _ ok may' stepped => move_tracked ok (within _ _ may') (step_move stepped))
    tracked

/-! ### The starting states -/

/-- A token that has copied the whole stream. -/
def Mirrors (events : List TerminalEvent) (v : View) : Prop :=
  Dense events ∧ v.cursor = some (events.length : Int) ∧ v.copies = events.map View.entry

/-- The view of a token before anything happened. -/
def View.initial : View := ⟨some 0, [], none, [], 0⟩

def Blank (events : List TerminalEvent) (v : View) : Prop := events = [] ∧ v = View.initial

theorem initial_view (inputEnvelope artifact : Json) :
    view (buildInitialToken inputEnvelope artifact) = View.initial := rfl

theorem created_tracked {artifact : Json} {runId : String} {maxAttempts now : Nat}
    (apart : MergesApart artifact) : Tracked Blank may (created artifact runId maxAttempts now) := by
  refine ⟨⟨rfl, .nil, .nil⟩, apart, fun snapshot stored => ?_, fun attempt turn looping => ?_⟩
  · obtain rfl := List.mem_singleton.mp stored
    exact .start ⟨rfl, initial_view ..⟩
  · cases looping

/-- Created or forked, a run starts with a token that has copied its stream. -/
theorem start_tracked (start : Start platform s) (apart : MergesApart s.rows.artifact) :
    Tracked Mirrors may s := by
  have numbered := (stream_start start).numbered
  refine ⟨numbered, apart, ?_, ?_⟩
  · cases start with
    | created artifact runId maxAttempts now =>
      intro snapshot stored
      obtain rfl := List.mem_singleton.mp stored
      exact .start ⟨numbered.dense, rfl, rfl⟩
    | forked forks =>
      obtain ⟨source, -, forks⟩ := Option.bind_eq_some_iff.mp forks
      obtain ⟨copied, copies, forks⟩ := Option.bind_eq_some_iff.mp forks
      obtain ⟨token, fork, isState⟩ := Option.bind_eq_some_iff.mp forks
      obtain rfl := Option.some.inj isState
      intro snapshot stored
      obtain rfl := List.mem_singleton.mp stored
      refine .start ⟨numbered.dense, ?_, ?_⟩
      · rw [fork_token_view fork]
        exact congrArg some (congrArg Nat.cast numbered.latest)
      · rw [fork_token_view fork]
  · cases start with
    | created => exact fun _ _ looping => nomatch looping
    | forked forks =>
      obtain ⟨source, -, forks⟩ := Option.bind_eq_some_iff.mp forks
      obtain ⟨copied, copies, forks⟩ := Option.bind_eq_some_iff.mp forks
      obtain ⟨token, fork, isState⟩ := Option.bind_eq_some_iff.mp forks
      obtain rfl := Option.some.inj isState
      exact fun _ _ looping => nomatch looping

end Tracked

end Psop.Runtime
