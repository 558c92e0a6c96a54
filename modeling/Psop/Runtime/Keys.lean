import Psop.Runtime.Events

/-!
Appends under external ids: who answers a request, and whose ids clash.

`append_idempotent` says that requests of one external id store one event and are all answered with
it, for every interleaving of requests and turns in which no request stores an event under the empty
id or under an id the runtime writes under itself (`ClientKeyed`). The lookup for a repeated request
takes the empty id for none, but the event is stored under it; and the runtime's own messages are
stored without a lookup. `keys_clash` shows what becomes of a run in either case.

What a transaction stores is said once, by `move_adds`: the event of a client's request, or events of
the runtime that carry no external id or one of its own.
-/
namespace Psop.Runtime

open Json Rows Psop.Runtime.System

/-! ### The runtime's own ids -/

/-- The id the message of a failed run is stored under. -/
def failedId (runId : String) : String := "runtime:" ++ runId ++ ":failed"

/-- The id of the message about a turn that failed and may be tried again, by its trace row. -/
def recoveryId (runId : String) (traceSeq : Int) : String :=
  "runtime:" ++ runId ++ ":message-processing-failed:" ++ toString traceSeq

/-- The message a recovered turn stores. -/
def RecoveryMessage (runId : String) (event : TerminalEvent) : Prop :=
  ∃ (rows : Rows) (id now : String) (trace : TraceRef), rows.run.id = runId ∧
    event = rows.eventRow (recoveryDraft rows id now trace) .output

theorem RecoveryMessage.key {runId : String} {event : TerminalEvent}
    (recovery : RecoveryMessage runId event) : ∃ n, event.externalEventId = some (recoveryId runId n) := by
  obtain ⟨rows, id, now, trace, rfl, rfl⟩ := recovery
  exact ⟨trace.seqNo, rfl⟩

theorem failedId_ne_recoveryId (runId : String) (n : Int) : failedId runId ≠ recoveryId runId n := by
  intro same
  have chars := congrArg String.toList same
  simp [failedId, recoveryId, String.toList_append] at chars

/-! ### Requests with keys of their own -/

/-- The draft is stored under an id of its own, or under none. -/
def OwnKey (runId : String) (draft : EventDraft) : Prop :=
  ∀ externalId, draft.externalEventId = some externalId →
    externalId ≠ "" ∧ externalId ≠ failedId runId ∧ ∀ n, externalId ≠ recoveryId runId n

/-- A request that repeats no stored event carries a key of its own. -/
def ClientKeyed (s : System) : Event → Prop
  | .append draft | .persist draft => duplicate? draft s.rows = none → OwnKey s.rows.run.id draft
  | _ => True

/-! ### What a transaction stores -/

/-- Only events of one kind are added, and a closed session stays closed. -/
structure Adds (kind : TerminalEvent → Prop) (before after : Rows) : Prop where
  runId : after.run.id = before.run.id
  events : ∀ event ∈ after.events, event ∈ before.events ∨ kind event
  closed : before.sessionOpen = false → after.sessionOpen = false

namespace Adds

variable {kind : TerminalEvent → Prop} {a b c : Rows}

theorem of_rows (events : b.events = a.events) (runId : b.run.id = a.run.id)
    (closed : a.sessionOpen = false → b.sessionOpen = false) : Adds kind a b :=
  ⟨runId, fun _ stored => .inl (events ▸ stored), closed⟩

theorem trans (first : Adds kind a b) (second : Adds kind b c) : Adds kind a c := by
  refine ⟨second.runId.trans first.runId, fun event stored => ?_, second.closed ∘ first.closed⟩
  rcases second.events event stored with old | new
  · exact first.events event old
  · exact .inr new

/-- The same before a change that adds. -/
theorem of_update (later : Adds kind b c) (events : b.events = a.events) (runId : b.run.id = a.run.id)
    (closed : a.sessionOpen = false → b.sessionOpen = false) : Adds kind a c :=
  (of_rows events runId closed).trans later

theorem mono {wider : TerminalEvent → Prop} (adds : Adds kind a b)
    (imp : ∀ event, kind event → wider event) : Adds wider a b :=
  ⟨adds.runId, fun event stored => (adds.events event stored).imp_right (imp event), adds.closed⟩

theorem append_event {draft : EventDraft} {event : TerminalEvent}
    (appended : a.appendTerminalEvent draft = some (b, event))
    (isKind : ∀ direction, Direction.ofText draft.direction = some direction →
      kind (a.eventRow draft direction)) : Adds kind a b := by
  obtain ⟨direction, toward, rfl, -, rfl⟩ := append_event_spec appended
  refine ⟨rfl, fun event stored => ?_, id⟩
  rcases List.mem_append.mp stored with old | new
  · exact .inl old
  · rw [List.mem_singleton.mp new]
    exact .inr (isKind direction toward)

theorem append_if_open {draft : EventDraft} {event : Option TerminalEvent}
    (appended : a.appendIfOpen draft = some (b, event))
    (isKind : ∀ direction, Direction.ofText draft.direction = some direction →
      kind (a.eventRow draft direction)) : Adds kind a b := by
  rcases append_if_open_spec appended with ⟨rfl, -⟩ | ⟨new, -, was⟩
  · exact of_rows rfl rfl id
  · exact append_event was isKind

end Adds

/-- An event of the runtime's that fails no run: without an external id, or about a recovered turn. -/
def Harmless (runId : String) (event : TerminalEvent) : Prop :=
  event.externalEventId = none ∨ RecoveryMessage runId event

/-- An event of the runtime's. -/
def OwnEvent (runId : String) (event : TerminalEvent) : Prop :=
  Harmless runId event ∨ event.externalEventId = some (failedId runId)

theorem finish_turn_stores {kind : TerminalEvent → Prop} {now : Nat} {token : Json} {status : JobStatus}
    {lastError : String} {rows rows' : Rows}
    (finished : finishRuntimeJobTurn now token status lastError rows = some rows') :
    Adds kind rows rows' := by
  rw [finish_turn_spec finished]
  exact .of_rows rfl rfl id

theorem wait_turn_stores {kind : TerminalEvent → Prop} {now : Nat} {token : Json} {rows rows' : Rows}
    (waited : waitTurn now token rows = some rows') : Adds kind rows rows' := by
  unfold waitTurn at waited
  exact (finish_turn_stores waited).of_update rfl rfl id

theorem succeed_run_stores {kind : TerminalEvent → Prop} {now : Nat} {token : Json} {rows rows' : Rows}
    (succeeded : succeedRun now token rows = some rows') : Adds kind rows rows' := by
  unfold succeedRun at succeeded
  exact (finish_turn_stores succeeded).of_update rfl rfl fun _ => rfl

theorem abort_run_stores {kind : TerminalEvent → Prop} {now : Nat} {token : Json} {rows rows' : Rows}
    (aborted : abortRun now token rows = some rows') : Adds kind rows rows' := by
  unfold abortRun at aborted
  exact (finish_turn_stores aborted).of_update rfl rfl fun _ => rfl

theorem append_output_stores {supply : Supply} {stamp : String} {node : Json}
    {output : Option TerminalOutput} {rows rows' : Rows}
    (appended : appendOutput supply stamp node output rows = some rows') :
    Adds (Harmless rows.run.id) rows rows' := by
  unfold appendOutput at appended
  split at appended
  · cases appended
    exact .of_rows rfl rfl id
  · obtain ⟨⟨stored, event⟩, was, rfl⟩ := Option.map_eq_some_iff.mp appended
    exact .append_if_open was fun _ _ => .inl rfl

theorem append_step_stores {supply : Supply} {stamp : String} {node observation token : Json}
    {enabled : List String} {waits : List WaitMark} {rows rows' : Rows}
    (appended : appendRuntimeStep supply stamp node observation token enabled waits rows =
      some rows') : Adds (Harmless rows.run.id) rows rows' := by
  unfold appendRuntimeStep at appended
  split at appended
  · obtain ⟨⟨stored, event⟩, was, rfl⟩ := Option.map_eq_some_iff.mp appended
    have prepared : Adds (Harmless rows.run.id) rows (stepRows node token enabled waits rows) :=
      .of_rows rfl rfl id
    exact prepared.trans (.append_event was fun _ _ => .inl rfl)
  · cases appended
    exact .of_rows rfl rfl id

theorem recover_turn_stores {now : Nat} {stamp : String} {token : Json} {waits : List WaitMark}
    {failure : Failure} {supply : Supply} {rows rows' : Rows}
    (recovered : recoverTurn now stamp token waits failure supply rows = some rows') :
    Adds (Harmless rows.run.id) rows rows' := by
  unfold recoverTurn at recovered
  obtain ⟨⟨appended, event⟩, was, recovered⟩ := Option.bind_eq_some_iff.mp recovered
  obtain ⟨result, -, finished⟩ := Option.bind_eq_some_iff.mp recovered
  have told : Adds (Harmless rows.run.id) rows appended := by
    refine .append_if_open was fun direction toward =>
      .inr ⟨rows, supply.failureId, stamp, supply.trace, rfl, ?_⟩
    have output : Direction.ofText "output" = some .output := by decide
    rw [Option.some.inj (toward.symm.trans output)]
  exact told.trans ((finish_turn_stores finished).of_update rfl rfl id)

theorem fail_turn_stores {now : Nat} {stamp : String} {token : Json} {failure : Failure}
    {supply : Supply} {rows rows' : Rows}
    (failed : failTurn now stamp token failure supply rows = some rows') :
    rows'.sessionOpen = false ∧ Adds (OwnEvent rows.run.id) rows rows' := by
  unfold failTurn at failed
  obtain ⟨finished, was, failed⟩ := Option.bind_eq_some_iff.mp failed
  obtain ⟨⟨appended, event⟩, output, closed⟩ := Option.bind_eq_some_iff.mp failed
  cases closed
  have settled : Adds (OwnEvent rows.run.id) rows finished :=
    (finish_turn_stores was).of_update rfl rfl id
  have told : Adds (OwnEvent rows.run.id) finished appended :=
    .append_if_open output fun _ _ => .inr (congrArg (some ∘ failedId) settled.runId)
  exact ⟨rfl, (settled.trans told).trans (.of_rows rfl rfl fun _ => rfl)⟩

theorem finalize_stores {now id error : String} {trace : TraceRef} {rows rows' : Rows}
    (finalized : finalizeExhaustedJob now id error trace rows = some rows') :
    rows' = rows ∨ (rows'.sessionOpen = false ∧ Adds (OwnEvent rows.run.id) rows rows') := by
  unfold finalizeExhaustedJob at finalized
  split at finalized
  · cases finalized
    exact .inl rfl
  · split at finalized
    · cases finalized
      exact .inl rfl
    · obtain ⟨⟨appended, event⟩, was, rfl⟩ := Option.map_eq_some_iff.mp finalized
      have told : Adds (OwnEvent rows.run.id) _ appended :=
        .append_if_open was fun _ _ => .inr rfl
      have closed : Adds (OwnEvent rows.run.id) appended { appended with sessionOpen := false } :=
        .of_rows rfl rfl fun _ => rfl
      exact .inr ⟨rfl, (told.trans closed).of_update rfl rfl fun closed => closed⟩

section Steps

variable {platform : Platform} {s t : System} {e : Event}

theorem fails_stores {attempt : Nat} {leased : Bool} {token : Json} {waits : List WaitMark}
    {expected : Nat} {rows : Rows}
    (fails : Fails platform s attempt e leased token waits expected rows) :
    Adds (Harmless s.rows.run.id) s.rows rows := by
  cases fails with
  | applying commits => exact append_output_stores commits.output
  | _ => exact .of_rows rfl rfl id

theorem cancel_stores {kind : TerminalEvent → Prop} {now reason : String} {rows rows' : Rows}
    (snapped : appendCancelSnapshot now reason (cancelledRun reason rows) = some rows') :
    Adds kind rows rows' := by
  unfold appendCancelSnapshot at snapped
  split at snapped
  · cases snapped
    exact .of_rows rfl rfl fun _ => rfl
  · obtain ⟨token, -, rfl⟩ := Option.map_eq_some_iff.mp snapped
    exact .of_rows rfl rfl fun _ => rfl

theorem woken_stores {kind : TerminalEvent → Prop} (now : Nat) (draft : EventDraft) (rows : Rows) :
    Adds kind rows (woken now draft rows) := by
  unfold woken ensureRuntimeJobPending
  repeat' split
  all_goals exact .of_rows rfl rfl id

/-- What a transaction of the runtime stores: only one that ends the session tells of a failed run. -/
def OwnStep (before after : Rows) : Prop :=
  Adds (Harmless before.run.id) before after ∨
    (after.sessionOpen = false ∧ Adds (OwnEvent before.run.id) before after)

/-- A stored request is new, and nothing else is stored with it. -/
theorem stored_is_new {draft : EventDraft} {rows rows' : Rows} {event : TerminalEvent}
    (stored : rows.appendTerminalEvent draft = some (rows', event)) : duplicate? draft rows = none := by
  obtain ⟨_, -, -, free, -⟩ := append_event_spec stored
  by_contra found
  obtain ⟨old, isOld⟩ := Option.ne_none_iff_exists'.mp found
  obtain ⟨externalId, carried, -⟩ := Option.bind_eq_some_iff.mp isOld
  obtain ⟨mem, under⟩ := duplicate_spec isOld
  have differs := List.all_eq_true.mp free old mem
  simp [under, (carried_id_spec.mp carried).1] at differs

/-- **Every transaction** either stores a client's request that is new, or what the runtime writes. -/
theorem move_adds (move : Move platform s e t) :
    (∃ draft, (e = .append draft ∨ e = .persist draft) ∧ duplicate? draft s.rows = none ∧
      Adds (fun event => event.externalEventId = draft.externalEventId) s.rows t.rows) ∨
    OwnStep s.rows t.rows := by
  cases move with
  | appended asks _ _ stored =>
    exact .inl ⟨_, asks, stored_is_new stored,
      (Adds.append_event stored fun _ _ => rfl).trans (woken_stores ..)⟩
  | cancelled _ snapped =>
    exact .inr (.inl ((cancel_stores snapped).trans (.of_rows rfl rfl id)))
  | exhausted _ _ _ _ finalized =>
    rcases finalize_stores finalized with rfl | ⟨closed, adds⟩
    · exact .inr (.inl (.of_rows rfl rfl id))
    · exact .inr (.inr ⟨closed, adds.of_update rfl rfl id⟩)
  | rested _ _ _ _ _ waited =>
    exact .inr (.inl ((wait_turn_stores waited).of_update rfl rfl id))
  | recovered fails _ _ _ recovered =>
    have before := fails_stores fails
    exact .inr (.inl (before.trans (before.runId ▸ recover_turn_stores recovered)))
  | failed fails _ failed =>
    have before := fails_stores fails
    obtain ⟨closed, adds⟩ := fail_turn_stores failed
    exact .inr (.inr ⟨closed, (before.mono fun _ => .inl).trans (before.runId ▸ adds)⟩)
  | advanced commits _ stored =>
    have shown := append_output_stores commits.output
    exact .inr (.inl (shown.trans (shown.runId ▸ append_step_stores stored)))
  | waited commits _ stored waited =>
    have shown := append_output_stores commits.output
    have stepped := shown.trans (shown.runId ▸ append_step_stores stored)
    exact .inr (.inl (stepped.trans (wait_turn_stores waited)))
  | aborted _ _ _ exited => exact .inr (.inl (abort_run_stores exited))
  | succeeded _ _ _ exited => exact .inr (.inl (succeed_run_stores exited))
  | halted _ _ _ exited => exact .inr (.inl (wait_turn_stores exited))
  | _ => exact .inr (.inl (.of_rows rfl rfl id))

end Steps

/-! ### Whose ids are stored -/

/-- The empty id is stored under by nobody, the ids of the runtime by the runtime alone, and that of a
failed run only in the transaction that ends the session. -/
structure OwnIds (rows : Rows) : Prop where
  named : ∀ event ∈ rows.events, event.externalEventId ≠ some ""
  failed : rows.sessionOpen = true →
    ∀ event ∈ rows.events, event.externalEventId ≠ some (failedId rows.run.id)
  recovered : ∀ event ∈ rows.events, ∀ n,
    event.externalEventId = some (recoveryId rows.run.id n) → RecoveryMessage rows.run.id event

theorem failedId_ne_empty (runId : String) : failedId runId ≠ "" := by
  intro same
  have chars := congrArg String.toList same
  simp [failedId, String.toList_append] at chars

theorem recoveryId_ne_empty (runId : String) (n : Int) : recoveryId runId n ≠ "" := by
  intro same
  have chars := congrArg String.toList same
  simp [recoveryId, String.toList_append] at chars

theorem OwnIds.add {rows rows' : Rows} (own : OwnIds rows) {kind : TerminalEvent → Prop}
    (adds : Adds kind rows rows') (named : ∀ event, kind event → event.externalEventId ≠ some "")
    (failed : rows'.sessionOpen = true →
      ∀ event, kind event → event.externalEventId ≠ some (failedId rows.run.id))
    (recovered : ∀ event, kind event → ∀ n,
      event.externalEventId = some (recoveryId rows.run.id n) → RecoveryMessage rows.run.id event) :
    OwnIds rows' := by
  refine ⟨fun event stored => ?_, fun isOpen event stored => ?_, fun event stored => ?_⟩
  · rcases adds.events event stored with old | new
    · exact own.named event old
    · exact named event new
  · have wasOpen : rows.sessionOpen = true := by
      by_contra closed
      have still := adds.closed (by simpa using closed)
      rw [still] at isOpen
      cases isOpen
    rw [adds.runId]
    rcases adds.events event stored with old | new
    · exact own.failed wasOpen event old
    · exact failed isOpen event new
  · rw [adds.runId]
    rcases adds.events event stored with old | new
    · exact own.recovered event old
    · exact recovered event new

/-- A request that is stored under a key of its own. -/
theorem OwnIds.add_request {draft : EventDraft} {rows rows' : Rows} (own : OwnIds rows)
    (ownKey : OwnKey rows.run.id draft)
    (adds : Adds (fun event => event.externalEventId = draft.externalEventId) rows rows') :
    OwnIds rows' := by
  refine own.add adds (fun event same under => ?_) (fun _ event same under => ?_)
    fun event same n under => ?_
  · exact (ownKey _ (same ▸ under)).1 rfl
  · exact (ownKey _ (same ▸ under)).2.1 rfl
  · exact absurd rfl ((ownKey _ (same ▸ under)).2.2 n)

theorem Harmless.names {runId : String} {event : TerminalEvent} (harmless : Harmless runId event) :
    event.externalEventId ≠ some "" ∧ event.externalEventId ≠ some (failedId runId) := by
  rcases harmless with none | recovery
  · rw [none]
    exact ⟨by simp, by simp⟩
  · obtain ⟨n, key⟩ := recovery.key
    rw [key, Ne, Option.some_inj, Ne, Option.some_inj]
    exact ⟨recoveryId_ne_empty runId n, (failedId_ne_recoveryId runId n).symm⟩

theorem Harmless.recovery {runId : String} {event : TerminalEvent} (harmless : Harmless runId event)
    {n : Int} (under : event.externalEventId = some (recoveryId runId n)) :
    RecoveryMessage runId event := by
  rcases harmless with none | recovery
  · rw [none] at under
    cases under
  · exact recovery

theorem own_ids_step {platform : Platform} {s t : System} {e : Event} (own : OwnIds s.rows)
    (keyed : ClientKeyed s e) (stepped : step platform s e = some t) : OwnIds t.rows := by
  rcases move_adds (step_move stepped) with ⟨draft, asks, isNew, adds⟩ | quiet | ⟨closed, adds⟩
  · rcases asks with rfl | rfl
    · exact own.add_request (keyed isNew) adds
    · exact own.add_request (keyed isNew) adds
  · exact own.add quiet (fun _ harmless => harmless.names.1) (fun _ _ harmless => harmless.names.2)
      fun _ harmless _ => harmless.recovery
  · refine own.add adds (fun event new => ?_) (fun isOpen => ?_) fun event new n under => ?_
    · rcases new with harmless | failed
      · exact harmless.names.1
      · rw [failed, Ne, Option.some_inj]
        exact failedId_ne_empty s.rows.run.id
    · rw [closed] at isOpen
      cases isOpen
    · rcases new with harmless | failed
      · exact harmless.recovery under
      · exact absurd (Option.some.inj (failed.symm.trans under)) (failedId_ne_recoveryId s.rows.run.id n)

theorem fork_keys (ids : ForkIds) (sourceRunId runId : String) (event : TerminalEvent) :
    OwnKey runId (forkDraft ids sourceRunId runId event) := by
  rintro externalId same
  obtain rfl := Option.some.inj same
  refine ⟨fun empty => ?_, fun failed => ?_, fun n recovered => ?_⟩
  · have chars := congrArg String.toList empty
    simp [String.toList_append] at chars
  · have chars := congrArg String.toList failed
    simp [failedId, String.toList_append] at chars
  · have chars := congrArg String.toList recovered
    simp [recoveryId, String.toList_append] at chars

theorem own_ids_copies {ids : ForkIds} {sourceRunId : String} {events : List TerminalEvent}
    {rows rows' : Rows} (own : OwnIds rows)
    (copied : events.foldlM (copyTerminalEvent ids sourceRunId) rows = some rows') : OwnIds rows' := by
  induction events generalizing rows with
  | nil => cases copied; exact own
  | cons event rest ih =>
    rw [List.foldlM_cons] at copied
    obtain ⟨next, first, later⟩ := Option.bind_eq_some_iff.mp copied
    obtain ⟨⟨stored, new⟩, was, rfl⟩ := Option.map_eq_some_iff.mp first
    have ownKey := fork_keys ids sourceRunId rows.run.id event
    exact ih (own.add_request ownKey (.append_event was fun _ _ => rfl)) later

theorem own_ids_empty {rows : Rows} (empty : rows.events = []) : OwnIds rows := by
  refine ⟨fun event stored => ?_, fun _ event stored => ?_, fun event stored => ?_⟩ <;>
  · rw [empty] at stored
    exact absurd stored List.not_mem_nil

theorem own_ids_start {platform : Platform} {s : System} (start : Start platform s) :
    OwnIds s.rows := by
  cases start with
  | created => exact own_ids_empty rfl
  | forked forks =>
    obtain ⟨snapshot, -, forks⟩ := Option.bind_eq_some_iff.mp forks
    obtain ⟨copied, copies, forks⟩ := Option.bind_eq_some_iff.mp forks
    obtain ⟨token, -, isState⟩ := Option.bind_eq_some_iff.mp forks
    obtain rfl := Option.some.inj isState
    have own := own_ids_copies (own_ids_empty rfl) copies
    exact ⟨own.named, own.failed, own.recovered⟩

theorem own_ids_run {platform : Platform} {s t : System} (start : Start platform s)
    (run : Run (step platform) ClientKeyed s t) : OwnIds t.rows :=
  run.invariant (fun _ _ _ own keyed stepped => own_ids_step own keyed stepped) (own_ids_start start)

/-! ### Idempotent appends -/

/-- Appends are idempotent in a state of a run: the stored events carry exactly the numbers from one to
the run's counter; at most one event is stored under an external id; every answered request under an
external id was answered with the event stored under it; any later one is, whichever way it comes in
and whatever has become of the run; and what the runtime itself has to tell is stored, under ids
nothing else is stored under. -/
structure AppendsOnce (platform : Platform) (t : System) : Prop where
  dense : t.rows.events.map TerminalEvent.seqNo = List.range' 1 t.rows.run.latestTerminalSeq
  once : ∀ event ∈ t.rows.events, ∀ other ∈ t.rows.events, ∀ externalId,
    event.externalEventId = some externalId → other.externalEventId = some externalId → other = event
  answered : ∀ draft event externalId, (draft, event) ∈ t.answers →
    draft.externalEventId = some externalId →
    event ∈ t.rows.events ∧ event.externalEventId = some externalId
  repeated : ∀ event ∈ t.rows.events, ∀ draft externalId, event.externalEventId = some externalId →
    draft.externalEventId = some externalId →
    step platform t (.append draft) = some (answer draft event t) ∧
    step platform t (.preflight draft) = some (answer draft event t) ∧
    step platform t (.persist draft) = some (answer draft event t)
  failure : ∀ id now error trace, t.rows.sessionOpen = true → (∀ event ∈ t.rows.events, event.id ≠ id) →
    (t.rows.appendTerminalEvent (failureDraft t.rows id now error trace)).isSome = true
  recovery : ∀ id now trace, (∀ event ∈ t.rows.events, event.id ≠ id) →
    (∀ event ∈ t.rows.events, RecoveryMessage t.rows.run.id event →
      event.externalEventId ≠ some (recoveryId t.rows.run.id trace.seqNo)) →
    (t.rows.appendTerminalEvent (recoveryDraft t.rows id now trace)).isSome = true

/-- An output of the runtime's is stored if no event has its keys. -/
theorem output_stored {rows : Rows} {id now message externalId : String} {sourceRef : Json}
    (fresh : ∀ event ∈ rows.events, event.id ≠ id)
    (unused : ∀ event ∈ rows.events, event.externalEventId ≠ some externalId) :
    (rows.appendTerminalEvent
      (outputDraft id now "text/plain" message (some externalId) sourceRef)).isSome = true := by
  have free : rows.keysFree
      (outputDraft id now "text/plain" message (some externalId) sourceRef) = true := by
    refine List.all_eq_true.mpr fun event stored => ?_
    simpa [outputDraft] using ⟨fresh event stored, unused event stored⟩
  have toward : Direction.ofText "output" = some .output := by decide
  have named : (outputDraft id now "text/plain" message (some externalId) sourceRef).direction =
      "output" := rfl
  rw [appendTerminalEvent, named, toward]
  simp only [free]
  simp [outputDraft]

/-- **Idempotent appends**, for every interleaving of requests and turns in which the requests that
store an event store it under a key of their own. -/
theorem append_idempotent {platform : Platform} {s t : System} (start : Start platform s)
    (run : Run (step platform) ClientKeyed s t) : AppendsOnce platform t := by
  have ok := stream_run start run
  have own := own_ids_run start run
  refine ⟨ok.numbered.numbers, fun event stored other isStored externalId under also =>
    ok.numbered.external_unique isStored stored also under, fun draft event externalId answered carried =>
    ?_, fun event stored draft externalId under carried => ?_, fun id now error trace isOpen fresh =>
    output_stored fresh (own.failed isOpen), fun id now trace fresh new =>
    output_stored fresh fun event stored under => ?_⟩
  · obtain ⟨stored, same⟩ := ok.answers draft event answered
    exact ⟨stored, same.trans carried⟩
  · have named : externalId ≠ "" := by
      rintro rfl
      exact own.named event stored under
    have found :=
      duplicate_of_stored ok.numbered (carried_id_spec.mpr ⟨carried, named⟩) stored under
    refine ⟨?_, ?_, ?_⟩
    · simp only [step, append, found]
    · simp only [step, preflight, found, Option.map_some]
    · simp only [step, persist, found]
  · exact new event stored (own.recovered event stored trace.seqNo under) under

theorem text_input_keyed (runId id : String) : OwnKey runId (textInput id) := by
  rintro externalId same
  obtain rfl := Option.some.inj same
  refine ⟨fun empty => ?_, fun failed => ?_, fun n recovered => ?_⟩
  · have chars := congrArg String.toList empty
    simp [String.toList_append] at chars
  · have chars := congrArg String.toList failed
    simp [failedId, String.toList_append] at chars
  · have chars := congrArg String.toList recovered
    simp [recoveryId, String.toList_append] at chars

/-- A request sent again after the run was cancelled is stored once and answered twice. -/
theorem append_idempotent_after_cancel :
    ∃ t, Run (step plainPlatform) ClientKeyed (created (obj []) "run-1" 3 0) t ∧
      t.rows.finished = true ∧ t.rows.events.length = 1 ∧ t.answers.length = 2 ∧
      AppendsOnce plainPlatform t := by
  have checked : (follow (step plainPlatform) anyStep (created (obj []) "run-1" 3 0)
      [.append (textInput "a"), .cancel "stop", .append (textInput "a")]).any (fun t =>
        t.rows.finished && t.rows.events.length == 1 && t.answers.length == 2) = true := by
    decide +kernel
  obtain ⟨t, followed, ends⟩ := (Option.any_eq_true ..).mp checked
  simp only [Bool.and_eq_true, beq_iff_eq] at ends
  have run : Run (step plainPlatform) ClientKeyed (created (obj []) "run-1" 3 0) t := by
    refine run_of_labels followed fun e mem s => ?_
    simp only [List.mem_cons, List.not_mem_nil, or_false] at mem
    rcases mem with rfl | rfl | rfl
    · exact fun _ => text_input_keyed _ _
    · trivial
    · exact fun _ => text_input_keyed _ _
  exact ⟨t, run, ends.1.1, ends.1.2, ends.2,
    append_idempotent (.created (obj []) "run-1" 3 0) run⟩

/-- A text input under an id the client chose. -/
def inputUnder (id externalId : String) : EventDraft :=
  { textInput id with externalEventId := some externalId }

/-- A turn that fails a run whose artifact has no nodes. -/
def failingTurn : Event := .turn 1 .timedOut (plainSupply "2")

/-- **Keys clash.** Of an open run that has stored an event under the empty id no request under it is
answered; and once a client has stored an event under the id of the run's failure message, the turn
that would fail the run has no step. -/
theorem keys_clash :
    (∃ t, Run (step plainPlatform) anyStep (created (obj []) "run-1" 3 0) t ∧
      t.rows.finished = false ∧ t.rows.sessionOpen = true ∧
      (∃ event ∈ t.rows.events, event.externalEventId = some "") ∧
      step plainPlatform t (.append (inputUnder "b" "")) = none ∧
      step plainPlatform t (.preflight (inputUnder "b" "")) = none ∧
      step plainPlatform t (.persist (inputUnder "b" "")) = none) ∧
    (∃ s t, follow (step plainPlatform) anyStep (created (obj []) "run-1" 3 0)
        [.claim 1 100, .begin 1 true (plainSupply "1")] = some s ∧
      (∃ u, step plainPlatform s failingTurn = some u ∧ u.rows.run.status = .failed) ∧
      step plainPlatform s (.append (inputUnder "a" "runtime:run-1:failed")) = some t ∧
      step plainPlatform t failingTurn = none) := by
  constructor
  · have checked : (follow (step plainPlatform) anyStep (created (obj []) "run-1" 3 0)
        [.append (inputUnder "a" "")]).any (fun t =>
          !t.rows.finished && t.rows.sessionOpen &&
          (t.rows.events.any fun event => event.externalEventId == some "") &&
          (step plainPlatform t (.append (inputUnder "b" ""))).isNone &&
          (step plainPlatform t (.preflight (inputUnder "b" ""))).isNone &&
          (step plainPlatform t (.persist (inputUnder "b" ""))).isNone) = true := by
      decide +kernel
    obtain ⟨t, followed, ends⟩ := (Option.any_eq_true ..).mp checked
    simp only [Bool.and_eq_true, Bool.not_eq_true', List.any_eq_true, beq_iff_eq,
      Option.isNone_iff_eq_none] at ends
    obtain ⟨⟨⟨⟨⟨unfinished, isOpen⟩, stored⟩, append⟩, preflight⟩, persist⟩ := ends
    exact ⟨t, run_of_follow followed, unfinished, isOpen, stored, append, preflight, persist⟩
  · have checked : ((follow (step plainPlatform) anyStep (created (obj []) "run-1" 3 0)
        [.claim 1 100, .begin 1 true (plainSupply "1")]).bind fun s =>
          (step plainPlatform s (.append (inputUnder "a" "runtime:run-1:failed"))).map fun t =>
            (s, t)).any (fun (s, t) =>
          ((step plainPlatform s failingTurn).any fun u => u.rows.run.status == .failed) &&
          (step plainPlatform t failingTurn).isNone) = true := by
      decide +kernel
    obtain ⟨⟨s, t⟩, found, ends⟩ := (Option.any_eq_true ..).mp checked
    obtain ⟨s', followed, later⟩ := Option.bind_eq_some_iff.mp found
    obtain ⟨t', stored, same⟩ := Option.map_eq_some_iff.mp later
    obtain ⟨rfl, rfl⟩ := Prod.mk.inj same
    simp only [Bool.and_eq_true, Option.any_eq_true, beq_iff_eq, Option.isNone_iff_eq_none] at ends
    exact ⟨s', t', followed, ends.1, stored, ends.2⟩

end Psop.Runtime
