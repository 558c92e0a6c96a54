import Mathlib.Data.List.Pairwise
import Psop.Runtime.Moves

/-!
The event stream of a run: dense numbers, unique keys, truthful answers.

`Numbered` says that the stored events carry exactly the numbers up to the run's counter and that no
two of them share an id or an external id. Every transaction of the system keeps it and only ever adds
events at the end (`Grows`), so an event that answered a request stays the only one under its external
id (`StreamOk`, `stream_run`), whatever requests and turns interleave.
-/
namespace Psop.Runtime

open Json Rows Psop.Runtime.System

/-! ### Numbering -/

structure Numbered (rows : Rows) : Prop where
  numbers : rows.events.map TerminalEvent.seqNo = List.range' 1 rows.run.latestTerminalSeq
  ids : rows.events.Pairwise fun a b => a.id ≠ b.id
  externalIds : rows.events.Pairwise fun a b =>
    a.externalEventId = none ∨ a.externalEventId ≠ b.externalEventId

/-- From one state of the rows to a later one: the same run of the same artifact, events only added,
and added as the table demands. -/
structure Grows (before after : Rows) : Prop where
  numbered : Numbered before → Numbered after
  events : before.events <+: after.events
  artifact : after.artifact = before.artifact
  runId : after.run.id = before.run.id

theorem Grows.refl (rows : Rows) : Grows rows rows := ⟨id, List.prefix_rfl, rfl, rfl⟩

theorem Grows.trans {a b c : Rows} (first : Grows a b) (second : Grows b c) : Grows a c :=
  ⟨second.numbered ∘ first.numbered, first.events.trans second.events,
    second.artifact.trans first.artifact, second.runId.trans first.runId⟩

/-- A change that leaves the stream and its counter alone. -/
theorem Grows.of_stream {before after : Rows} (events : after.events = before.events)
    (counter : after.run.latestTerminalSeq = before.run.latestTerminalSeq)
    (artifact : after.artifact = before.artifact) (runId : after.run.id = before.run.id) :
    Grows before after := by
  refine ⟨fun h => ⟨?_, ?_, ?_⟩, by rw [events], artifact, runId⟩
  · rw [events, counter]; exact h.numbers
  · rw [events]; exact h.ids
  · rw [events]; exact h.externalIds

/-- The same before a change that grows. -/
theorem Grows.of_update {a b c : Rows} (later : Grows b c) (events : b.events = a.events)
    (counter : b.run.latestTerminalSeq = a.run.latestTerminalSeq)
    (artifact : b.artifact = a.artifact) (runId : b.run.id = a.run.id) : Grows a c :=
  (of_stream events counter artifact runId).trans later

/-! ### One append -/

/-- All that an append does. -/
theorem append_event_spec {draft : EventDraft} {rows rows' : Rows} {event : TerminalEvent}
    (appended : rows.appendTerminalEvent draft = some (rows', event)) :
    ∃ direction, Direction.ofText draft.direction = some direction ∧
      event = rows.eventRow draft direction ∧ rows.keysFree draft = true ∧
      rows' = { rows with
        run := { rows.run with latestTerminalSeq := rows.run.latestTerminalSeq + 1 }
        events := rows.events ++ [event] } := by
  unfold appendTerminalEvent at appended
  split at appended
  · cases appended
  · rename_i direction isDirection
    split at appended
    · cases appended
    · rename_i free
      simp only [Option.some.injEq, Prod.mk.injEq] at appended
      obtain ⟨rfl, rfl⟩ := appended
      simp only [not_or, Bool.not_eq_true', Bool.not_eq_false] at free
      exact ⟨direction, isDirection, rfl, free.2.2, rfl⟩

theorem append_event_grows {draft : EventDraft} {rows rows' : Rows} {event : TerminalEvent}
    (appended : rows.appendTerminalEvent draft = some (rows', event)) : Grows rows rows' := by
  obtain ⟨direction, -, rfl, free, rfl⟩ := append_event_spec appended
  have isFree : ∀ old ∈ rows.events, old.id ≠ draft.id ∧
      (draft.externalEventId = none ∨ old.externalEventId ≠ draft.externalEventId) := by
    simpa [keysFree] using free
  refine ⟨fun h => ⟨?_, ?_, ?_⟩, List.prefix_append _ _, rfl, rfl⟩
  · simp only [List.map_append, List.map_cons, List.map_nil, h.numbers, List.range'_concat]
    simp [eventRow, Nat.add_comm]
  · refine List.pairwise_append.mpr ⟨h.ids, List.pairwise_singleton _ _, ?_⟩
    intro old isOld new isNew
    obtain rfl := List.mem_singleton.mp isNew
    exact (isFree old isOld).1
  · refine List.pairwise_append.mpr ⟨h.externalIds, List.pairwise_singleton _ _, ?_⟩
    intro old isOld new isNew
    obtain rfl := List.mem_singleton.mp isNew
    rcases (isFree old isOld).2 with without | differ
    · by_cases none : old.externalEventId = .none
      · exact .inl none
      · exact .inr fun same => none (same.trans without)
    · exact .inr differ

/-- Nothing but the event stream differs. -/
def StreamOnly (before after : Rows) : Prop :=
  ∃ latest events, after = { before with
    run := { before.run with latestTerminalSeq := latest }, events := events }

theorem append_event_only {draft : EventDraft} {rows rows' : Rows} {event : TerminalEvent}
    (appended : rows.appendTerminalEvent draft = some (rows', event)) : StreamOnly rows rows' := by
  obtain ⟨_, -, -, -, rfl⟩ := append_event_spec appended
  exact ⟨_, _, rfl⟩

theorem append_if_open_spec {draft : EventDraft} {rows rows' : Rows} {event : Option TerminalEvent}
    (appended : rows.appendIfOpen draft = some (rows', event)) :
    (rows' = rows ∧ event = none) ∨
    ∃ new, event = some new ∧ rows.appendTerminalEvent draft = some (rows', new) := by
  unfold appendIfOpen at appended
  split at appended
  · obtain ⟨⟨stored, new⟩, was, same⟩ := Option.map_eq_some_iff.mp appended
    obtain ⟨rfl, rfl⟩ := Prod.mk.inj same
    exact .inr ⟨new, rfl, was⟩
  · obtain ⟨rfl, rfl⟩ : rows = rows' ∧ none = event := by simpa using appended
    exact .inl ⟨rfl, rfl⟩

theorem append_if_open_only {draft : EventDraft} {rows rows' : Rows} {event : Option TerminalEvent}
    (appended : rows.appendIfOpen draft = some (rows', event)) : StreamOnly rows rows' := by
  rcases append_if_open_spec appended with ⟨rfl, -⟩ | ⟨new, -, was⟩
  · exact ⟨_, _, rfl⟩
  · exact append_event_only was

theorem append_if_open_grows {draft : EventDraft} {rows rows' : Rows} {event : Option TerminalEvent}
    (appended : rows.appendIfOpen draft = some (rows', event)) : Grows rows rows' := by
  rcases append_if_open_spec appended with ⟨rfl, -⟩ | ⟨new, -, was⟩
  · exact .refl _
  · exact append_event_grows was

/-! ### The transactions -/

theorem ensure_pending_grows (now : Nat) (rows : Rows) :
    Grows rows (rows.ensureRuntimeJobPending now) := by
  unfold ensureRuntimeJobPending
  split
  · exact .of_stream rfl rfl rfl rfl
  · split <;> exact .of_stream rfl rfl rfl rfl

/-- Finishing a turn only writes the job. -/
theorem finish_turn_spec {now : Nat} {token : Json} {status : JobStatus} {lastError : String}
    {rows rows' : Rows} (finished : finishRuntimeJobTurn now token status lastError rows = some rows') :
    rows' = { rows with job := rows'.job } := by
  unfold finishRuntimeJobTurn at finished
  split at finished
  · cases finished; rfl
  · split at finished
    · cases finished; rfl
    · obtain ⟨cursor, -, rfl⟩ := Option.map_eq_some_iff.mp finished
      split <;> rfl

theorem finish_turn_grows {now : Nat} {token : Json} {status : JobStatus} {lastError : String}
    {rows rows' : Rows} (finished : finishRuntimeJobTurn now token status lastError rows = some rows') :
    Grows rows rows' := by
  rw [finish_turn_spec finished]
  exact .of_stream rfl rfl rfl rfl

theorem finalize_grows {now id error : String} {trace : TraceRef} {rows rows' : Rows}
    (finalized : finalizeExhaustedJob now id error trace rows = some rows') : Grows rows rows' := by
  unfold finalizeExhaustedJob at finalized
  split at finalized
  · cases finalized; exact .refl _
  · split at finalized
    · cases finalized; exact .refl _
    · obtain ⟨⟨appended, event⟩, was, rfl⟩ := Option.map_eq_some_iff.mp finalized
      have output := append_if_open_grows was
      have closed : Grows appended { appended with sessionOpen := false } := .of_stream rfl rfl rfl rfl
      exact (output.trans closed).of_update rfl rfl rfl rfl

theorem recover_turn_grows {now : Nat} {stamp : String} {token : Json} {waits : List WaitMark}
    {failure : Failure} {supply : Supply} {rows rows' : Rows}
    (recovered : recoverTurn now stamp token waits failure supply rows = some rows') :
    Grows rows rows' := by
  unfold recoverTurn at recovered
  obtain ⟨⟨appended, event⟩, was, recovered⟩ := Option.bind_eq_some_iff.mp recovered
  obtain ⟨result, -, finished⟩ := Option.bind_eq_some_iff.mp recovered
  exact (append_if_open_grows was).trans ((finish_turn_grows finished).of_update rfl rfl rfl rfl)

theorem fail_turn_grows {now : Nat} {stamp : String} {token : Json} {failure : Failure}
    {supply : Supply} {rows rows' : Rows}
    (failed : failTurn now stamp token failure supply rows = some rows') : Grows rows rows' := by
  unfold failTurn at failed
  obtain ⟨finished, was, failed⟩ := Option.bind_eq_some_iff.mp failed
  obtain ⟨⟨appended, event⟩, output, closed⟩ := Option.bind_eq_some_iff.mp failed
  cases closed
  have shown := (finish_turn_grows was).trans (append_if_open_grows output)
  have closed : Grows appended { appended with sessionOpen := false } := .of_stream rfl rfl rfl rfl
  exact (shown.trans closed).of_update rfl rfl rfl rfl

theorem wait_turn_grows {now : Nat} {token : Json} {rows rows' : Rows}
    (waited : waitTurn now token rows = some rows') : Grows rows rows' := by
  unfold waitTurn at waited
  exact (finish_turn_grows waited).of_update rfl rfl rfl rfl

theorem succeed_run_grows {now : Nat} {token : Json} {rows rows' : Rows}
    (succeeded : succeedRun now token rows = some rows') : Grows rows rows' := by
  unfold succeedRun at succeeded
  exact (finish_turn_grows succeeded).of_update rfl rfl rfl rfl

theorem abort_run_grows {now : Nat} {token : Json} {rows rows' : Rows}
    (aborted : abortRun now token rows = some rows') : Grows rows rows' := by
  unfold abortRun at aborted
  exact (finish_turn_grows aborted).of_update rfl rfl rfl rfl

/-- The rows of a stored step, before the final answer joins the stream. -/
def stepRows (node token : Json) (enabled : List String) (waits : List WaitMark) (rows : Rows) : Rows :=
  let rows := rows.appendSnapshot token (some (node.field "id").toStr) enabled waits
  { rows with run := { rows.run with
    runtimePhase := (token.field "phase").strOr (node.field "id").toStr } }

theorem append_step_only {supply : Supply} {stamp : String} {node observation token : Json}
    {enabled : List String} {waits : List WaitMark} {rows rows' : Rows}
    (appended : appendRuntimeStep supply stamp node observation token enabled waits rows =
      some rows') : StreamOnly (stepRows node token enabled waits rows) rows' := by
  unfold appendRuntimeStep at appended
  split at appended
  · obtain ⟨⟨stored, event⟩, was, rfl⟩ := Option.map_eq_some_iff.mp appended
    exact append_event_only was
  · cases appended
    exact ⟨_, _, rfl⟩

theorem append_step_grows {supply : Supply} {stamp : String} {node observation token : Json}
    {enabled : List String} {waits : List WaitMark} {rows rows' : Rows}
    (appended : appendRuntimeStep supply stamp node observation token enabled waits rows =
      some rows') : Grows rows rows' := by
  unfold appendRuntimeStep at appended
  split at appended
  · obtain ⟨⟨stored, event⟩, was, rfl⟩ := Option.map_eq_some_iff.mp appended
    exact (append_event_grows was).of_update rfl rfl rfl rfl
  · cases appended
    exact .of_stream rfl rfl rfl rfl

theorem append_output_only {supply : Supply} {stamp : String} {node : Json}
    {output : Option TerminalOutput} {rows rows' : Rows}
    (appended : appendOutput supply stamp node output rows = some rows') : StreamOnly rows rows' := by
  unfold appendOutput at appended
  split at appended
  · cases appended; exact ⟨_, _, rfl⟩
  · obtain ⟨⟨stored, event⟩, was, rfl⟩ := Option.map_eq_some_iff.mp appended
    exact append_if_open_only was

theorem append_output_grows {supply : Supply} {stamp : String} {node : Json}
    {output : Option TerminalOutput} {rows rows' : Rows}
    (appended : appendOutput supply stamp node output rows = some rows') : Grows rows rows' := by
  unfold appendOutput at appended
  split at appended
  · cases appended; exact .refl _
  · obtain ⟨⟨stored, event⟩, was, rfl⟩ := Option.map_eq_some_iff.mp appended
    exact append_if_open_grows was

/-! ### The steps -/

section Steps

variable {platform : Platform} {s t : System} {e : Event}

theorem fails_grows {attempt : Nat} {leased : Bool} {token : Json} {waits : List WaitMark}
    {expected : Nat} {rows : Rows}
    (fails : Fails platform s attempt e leased token waits expected rows) : Grows s.rows rows := by
  cases fails with
  | starting => exact .of_stream rfl rfl rfl rfl
  | looping => exact .refl _
  | executing => exact .refl _
  | merging => exact .refl _
  | applying commits => exact append_output_grows commits.output

theorem cancel_grows {now reason : String} {rows rows' : Rows}
    (snapped : appendCancelSnapshot now reason (cancelledRun reason rows) = some rows') :
    Grows rows rows' := by
  unfold appendCancelSnapshot at snapped
  split at snapped
  · cases snapped; exact .of_stream rfl rfl rfl rfl
  · obtain ⟨token, -, rfl⟩ := Option.map_eq_some_iff.mp snapped
    exact .of_stream rfl rfl rfl rfl

theorem woken_grows (now : Nat) (draft : EventDraft) (rows : Rows) :
    Grows rows (woken now draft rows) := by
  unfold woken
  split
  · exact ensure_pending_grows now rows
  · exact .refl _

theorem move_grows (move : Move platform s e t) : Grows s.rows t.rows := by
  cases move with
  | tick => exact .refl _
  | repeated => exact .refl _
  | appended _ _ _ stored => exact (append_event_grows stored).trans (woken_grows ..)
  | cancelled _ snapped => exact (cancel_grows snapped).trans (.of_stream rfl rfl rfl rfl)
  | claimed => exact .of_stream rfl rfl rfl rfl
  | renewed => exact .of_stream rfl rfl rfl rfl
  | released => exact .of_stream rfl rfl rfl rfl
  | exhausted _ _ _ _ finalized => exact (finalize_grows finalized).of_update rfl rfl rfl rfl
  | stopped => exact .refl _
  | settled => exact .of_stream rfl rfl rfl rfl
  | begun => exact .of_stream rfl rfl rfl rfl
  | rested _ _ _ _ _ waited => exact (wait_turn_grows waited).of_update rfl rfl rfl rfl
  | recovered fails _ _ _ recovered => exact (fails_grows fails).trans (recover_turn_grows recovered)
  | failed fails _ failed => exact (fails_grows fails).trans (fail_turn_grows failed)
  | advanced commits _ stored =>
    exact (append_output_grows commits.output).trans (append_step_grows stored)
  | waited commits _ stored waited =>
    exact ((append_output_grows commits.output).trans (append_step_grows stored)).trans
      (wait_turn_grows waited)
  | aborted _ _ _ exited => exact abort_run_grows exited
  | succeeded _ _ _ exited => exact succeed_run_grows exited
  | halted _ _ _ exited => exact wait_turn_grows exited

end Steps

/-! ### Requests -/

/-- What an answered request left behind: an event stored under the id it carries. -/
def AnsweredBy (rows : Rows) (draft : EventDraft) (event : TerminalEvent) : Prop :=
  event ∈ rows.events ∧ event.externalEventId = draft.externalEventId

theorem AnsweredBy.grow {before after : Rows} {draft : EventDraft} {event : TerminalEvent}
    (answered : AnsweredBy before draft event) (grows : Grows before after) :
    AnsweredBy after draft event :=
  ⟨grows.events.subset answered.1, answered.2⟩

/-- A carried id is the request's, and not empty. -/
theorem carried_id_spec {draft : EventDraft} {externalId : String} :
    carriedId? draft = some externalId ↔ draft.externalEventId = some externalId ∧ externalId ≠ "" := by
  unfold carriedId?
  cases draft.externalEventId with
  | none => simp
  | some externalId =>
    by_cases empty : externalId = ""
    · simp only [empty, if_true, Option.some_inj]
      constructor
      · intro none
        cases none
      · rintro ⟨rfl, named⟩
        exact absurd rfl named
    · simp only [if_neg empty, Option.some_inj]
      constructor
      · rintro rfl
        exact ⟨rfl, empty⟩
      · exact And.left

theorem duplicate_spec {draft : EventDraft} {rows : Rows} {event : TerminalEvent}
    (found : duplicate? draft rows = some event) : AnsweredBy rows draft event := by
  obtain ⟨externalId, carried, stored⟩ := Option.bind_eq_some_iff.mp found
  have under : event.externalEventId = some externalId := by simpa using List.find?_some stored
  exact ⟨List.mem_of_find?_eq_some stored, under.trans (carried_id_spec.mp carried).1.symm⟩

theorem stored_answer {draft : EventDraft} {rows rows' : Rows} {event : TerminalEvent}
    (stored : rows.appendTerminalEvent draft = some (rows', event)) : AnsweredBy rows' draft event := by
  obtain ⟨direction, -, rfl, -, rfl⟩ := append_event_spec stored
  exact ⟨List.mem_append_right _ (List.mem_singleton.mpr rfl), rfl⟩

/-- A step answers at most one request, and truthfully. -/
theorem move_answers {platform : Platform} {s t : System} {e : Event} (move : Move platform s e t) :
    t.answers = s.answers ∨
    ∃ draft event, t.answers = s.answers ++ [(draft, event)] ∧ AnsweredBy t.rows draft event := by
  cases move with
  | repeated found => exact .inr ⟨_, _, rfl, duplicate_spec found⟩
  | appended _ _ _ stored => exact .inr ⟨_, _, rfl, (stored_answer stored).grow (woken_grows ..)⟩
  | _ => exact .inl rfl

/-! ### Runs -/

/-- What the stream guarantees in every state: dense numbers, unique keys, truthful answers. -/
structure StreamOk (s : System) : Prop where
  numbered : Numbered s.rows
  answers : ∀ draft event, (draft, event) ∈ s.answers → AnsweredBy s.rows draft event

theorem stream_step {platform : Platform} {s t : System} {e : Event} (ok : StreamOk s)
    (stepped : step platform s e = some t) : StreamOk t := by
  have move := step_move stepped
  have grows := move_grows move
  refine ⟨grows.numbered ok.numbered, fun draft event answered => ?_⟩
  rcases move_answers move with same | ⟨asked, with_, added, truthful⟩
  · rw [same] at answered
    exact (ok.answers draft event answered).grow grows
  · rw [added] at answered
    rcases List.mem_append.mp answered with old | new
    · exact (ok.answers draft event old).grow grows
    · obtain ⟨rfl, rfl⟩ := Prod.mk.inj (List.mem_singleton.mp new)
      exact truthful

theorem numbered_created (artifact : Json) (runId : String) (maxAttempts now : Nat) :
    Numbered (created artifact runId maxAttempts now).rows :=
  ⟨rfl, .nil, .nil⟩

theorem copies_grow {ids : ForkIds} {sourceRunId : String} {events : List TerminalEvent}
    {rows rows' : Rows}
    (copied : events.foldlM (copyTerminalEvent ids sourceRunId) rows = some rows') :
    Grows rows rows' := by
  induction events generalizing rows with
  | nil => cases copied; exact .refl _
  | cons event rest ih =>
    rw [List.foldlM_cons] at copied
    obtain ⟨next, first, later⟩ := Option.bind_eq_some_iff.mp copied
    obtain ⟨⟨stored, new⟩, was, rfl⟩ := Option.map_eq_some_iff.mp first
    exact (append_event_grows was).trans (ih later)

theorem stream_start {platform : Platform} {s : System} (start : Start platform s) : StreamOk s := by
  cases start with
  | created artifact runId maxAttempts now =>
    exact ⟨numbered_created .., fun _ _ none => absurd none (List.not_mem_nil)⟩
  | forked forks =>
    obtain ⟨snapshot, -, forks⟩ := Option.bind_eq_some_iff.mp forks
    obtain ⟨copied, copies, forks⟩ := Option.bind_eq_some_iff.mp forks
    obtain ⟨token, -, isState⟩ := Option.bind_eq_some_iff.mp forks
    obtain rfl := Option.some.inj isState
    have numbered := (copies_grow copies).numbered ⟨rfl, .nil, .nil⟩
    exact ⟨⟨numbered.numbers, numbered.ids, numbered.externalIds⟩,
      fun _ _ none => absurd none (List.not_mem_nil)⟩

theorem stream_run {platform : Platform} {allowed : System → Event → Prop} {s t : System}
    (start : Start platform s) (run : Run (step platform) allowed s t) : StreamOk t :=
  run.invariant (fun _ _ _ ok _ stepped => stream_step ok stepped) (stream_start start)

/-- One event at most is stored under an external id. -/
theorem Numbered.external_unique {rows : Rows} (numbered : Numbered rows) {a b : TerminalEvent}
    {externalId : String} (isA : a ∈ rows.events) (isB : b ∈ rows.events)
    (onA : a.externalEventId = some externalId) (onB : b.externalEventId = some externalId) :
    a = b := by
  by_contra differ
  have symmetric : Std.Symm fun a b : TerminalEvent =>
      a.externalEventId = none ∨ a.externalEventId ≠ b.externalEventId := by
    constructor
    rintro x y (none | other)
    · by_cases too : y.externalEventId = .none
      · exact .inl too
      · exact .inr fun same => too (same.trans none)
    · exact .inr other.symm
  rcases numbered.externalIds.forall isA isB differ with none | other
  · rw [onA] at none; cases none
  · exact other (onA.trans onB.symm)

theorem duplicate_of_stored {rows : Rows} (numbered : Numbered rows) {draft : EventDraft}
    {event : TerminalEvent} {externalId : String} (carried : carriedId? draft = some externalId)
    (stored : event ∈ rows.events) (under : event.externalEventId = some externalId) :
    duplicate? draft rows = some event := by
  rw [duplicate?, carried, Option.bind_some]
  cases found : rows.eventByExternalId? externalId with
  | none =>
    have absent := List.find?_eq_none.mp found event stored
    simp [under] at absent
  | some other =>
    have also : other.externalEventId = some externalId := by simpa using List.find?_some found
    rw [numbered.external_unique (List.mem_of_find?_eq_some found) stored also under]

/-- A text input as a client sends it. -/
def textInput (id : String) : EventDraft :=
  { id := id, direction := "input", eventKind := "terminal.text.input.v1", mimeType := "text/plain"
    payloadInline := str "ready", externalEventId := some ("client:" ++ id), occurredAt := "" }

/-- A host whose hashes and dates are plain texts. -/
def plainPlatform : Platform := ⟨id, fun _ => ""⟩

/-- An agent's answer that goes on and says something. -/
def plainAnswer (node : String) : AgentOutcome :=
  .observed "agent-run" {} { nodeId := node, decision := .continue_, terminalMessage := "Hello." }

def plainSupply (n : String) : Supply := ⟨"output:" ++ n, "final:" ++ n, "failure:" ++ n, ⟨"trace:" ++ n, 0⟩⟩

/-- The turn that brings the small scaffold to its first wait, and an input for it. -/
def brewTurns : List Event :=
  [.claim 1 100, .begin 1 true (plainSupply "1"), .turn 1 .timedOut (plainSupply "2"),
    .turn 1 (plainAnswer "instruct_brew") (plainSupply "3"), .append (textInput "a")]

end Psop.Runtime
