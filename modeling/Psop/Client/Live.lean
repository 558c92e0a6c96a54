import Psop.Client.Sync
import Psop.Runtime.Delivery

/-!
A run of the runtime with a page on it.

`Live.step` is a step of the runtime, with what its transaction publishes, or one of the page and the hub.
The page sees such a run as one of its own (`live_refines`): a transaction stores its events, publishes
again the older ones of its window, and owes a broadcast of each event it stored, because its window covers
them. **`live_synced`** is what comes of it: at rest, a page that lost nothing on its open socket shows the
terminal stream of the run as it is stored.
-/
namespace Psop.Client

open Json Psop.Runtime Psop.Runtime.System

/-! ### Events on the wire -/

/-- What the rows of a run's events have beside what the runtime reads: the run and its terminal
session, the trace event of each row, and when it was written. -/
structure Columns where
  runId : String
  terminalSessionId : String
  traceEventId : String → Json
  createdAt : String → String

/-- `_build_terminal_event_part_response` -/
def partResponse (columns : Columns) (eventId : String) (part : TerminalEventPart) : Json :=
  obj [("id", str part.id), ("terminal_event_id", str eventId), ("run_id", str columns.runId),
    ("artifact_object_id", part.artifactObjectId), ("part_id", str part.partId),
    ("order_index", num part.orderIndex), ("kind", str part.kind), ("mime_type", str part.mimeType),
    ("text", str part.text), ("size_bytes", num part.sizeBytes), ("checksum", str part.checksum),
    ("metadata", part.metadata), ("created_at", str (columns.createdAt part.id))]

/-- `_build_terminal_event_response`, but for its number. -/
def responseFields (columns : Columns) (event : TerminalEvent) : Fields :=
  [("id", str event.id), ("terminal_session_id", str columns.terminalSessionId),
    ("run_id", str columns.runId), ("trace_event_id", columns.traceEventId event.id),
    ("artifact_object_id", event.artifactObjectId), ("run_capability_binding_id", event.bindingId),
    ("direction", str event.direction.name), ("event_kind", str event.eventKind),
    ("mime_type", str event.mimeType), ("payload_inline", event.payloadInline),
    ("external_event_id", (event.externalEventId.map str).getD null), ("source_ref", event.sourceRef),
    ("parts", arr (event.parts.map (partResponse columns event.id))),
    ("occurred_at", str event.occurredAt), ("created_at", str (columns.createdAt event.id))]

/-- The event as it is sent. -/
def wire (columns : Columns) (event : TerminalEvent) : Event where
  seqNo := event.seqNo
  body := (responseFields columns event).foldl (fun body field => body.put field.1 field.2) .empty

variable {columns : Columns}

theorem wire_reads (columns : Columns) (event : TerminalEvent) :
    (wire columns event).body.get? "_optimistic" = none ∧
      (wire columns event).body.get? "id" = some (.str event.id) := by
  constructor <;> simp [wire, responseFields, Dict.get_put_other]

/-- An event with an id of the server's. -/
def ownId (event : TerminalEvent) : Bool := !isLocalId event.id

theorem wire_served {event : TerminalEvent} (own : ownId event = true) :
    isServed (wire columns event).body = true := by
  obtain ⟨unmarked, named⟩ := wire_reads columns event
  have other : isLocalId event.id = false := by simpa [ownId] using own
  simp only [isServed, unmarked, Event.id?, Event.text?, named, Option.isSome_none, Bool.not_false,
    Bool.true_and, Option.bind_some, Json.str?, Bool.not_eq_true']
  by_cases empty : event.id = ""
  · simp [empty]
  · simp [empty, other]

/-! ### The runtime and a page -/

structure Live where
  system : System
  /-- `publish_terminal_seq` of each turn. -/
  watermark : Nat → Nat
  page : Sync

inductive LiveLabel
  | runtime (e : Runtime.Event) (publishes : Bool)
  | page (label : Label)

namespace Live

def start (columns : Columns) (system : System) : Live :=
  ⟨system, fun _ => 0, .start (system.rows.events.map (wire columns))⟩

/-- The number behind which a transaction publishes. -/
def previous (live : Live) : Runtime.Event → Nat
  | .turn attempt _ _ => live.watermark attempt
  | _ => live.system.rows.run.latestTerminalSeq

/-- `publish_terminal_seq` after a transaction: set where an attempt begins, and with what a turn published. -/
def marked (publishes : Bool) (upper : Nat) (watermark : Nat → Nat) : Runtime.Event → Nat → Nat
  | .begin attempt _ _, other => if other = attempt then upper else watermark other
  | .turn attempt _ _, other => if other = attempt ∧ publishes = true then upper else watermark other
  | _, other => watermark other

/-- What the page sees of a transaction: the stream with its events, and the broadcasts it owes. -/
def committed (columns : Columns) (new window : List TerminalEvent) (page : Sync) : Sync :=
  { page with
    stream := page.stream ++ new.map (wire columns)
    owed := page.owed ++ window.map TerminalEvent.seqNo }

/-- The labels of the server are the runtime's to give. -/
def isForPage : Label → Bool
  | .store _ | .republish _ => false
  | _ => true

/-- A transaction that stored nothing may have been rolled back, or not be one that publishes. -/
def step (columns : Columns) (platform : Platform) (live : Live) : LiveLabel → Option Live
  | .runtime e publishes => (System.step platform live.system e).bind fun t =>
    let upper := t.rows.run.latestTerminalSeq
    let new := t.rows.events.drop live.system.rows.events.length
    let window :=
      if publishes then publishWindow (live.previous e) upper (outputsOnly e) t.rows.events else []
    if (publishes || new.isEmpty) && new.all ownId
    then some ⟨t, marked publishes upper live.watermark e, committed columns new window live.page⟩ else none
  | .page label =>
    if isForPage label then (live.page.step label).map fun page => { live with page := page } else none

/-- A label that loses nothing on the page's open socket. -/
def Lossless (live : Live) : LiveLabel → Prop
  | .runtime .. => True
  | .page label => live.page.Lossless label

/-! ### What the page sees -/

theorem committed_nil (page : Sync) : committed columns [] [] page = page := by
  simp [committed]

theorem committed_committed (new later window more : List TerminalEvent) (page : Sync) :
    committed columns later more (committed columns new window page) =
      committed columns (new ++ later) (window ++ more) page := by
  simp [committed]

/-- The events a transaction stores, one after the other. -/
theorem stores {new : List TerminalEvent} {page : Sync} (own : ∀ event ∈ new, ownId event = true)
    (numbers : new.map TerminalEvent.seqNo = List.range' (page.stream.length + 1) new.length) :
    Run Sync.step Sync.Lossless page (committed columns new new page) := by
  induction new generalizing page with
  | nil =>
    rw [committed_nil]
    exact .refl _
  | cons event new ih =>
    rw [List.map_cons, List.length_cons, List.range'_succ] at numbers
    obtain ⟨number, numbers⟩ := List.cons.inj numbers
    have one : page.step (.store (wire columns event).body) =
        some (committed columns [event] [event] page) := by
      rw [Sync.step, if_pos (wire_served (own event List.mem_cons_self)), Sync.store, committed, ← number]
      rfl
    have rest := @ih (committed columns [event] [event] page)
      (fun other isIn => own other (List.mem_cons_of_mem _ isIn)) (by
        rw [numbers]
        simp [committed])
    rw [committed_committed] at rest
    exact (Run.single (show Sync.Lossless page (.store _) from trivial) one).trans rest

/-- The older events of a window. -/
theorem republishes {older : List TerminalEvent} {page : Sync}
    (stored : ∀ event ∈ older, ∃ e ∈ page.stream, e.seqNo = event.seqNo) :
    Run Sync.step Sync.Lossless page (committed columns [] older page) := by
  induction older generalizing page with
  | nil =>
    rw [committed_nil]
    exact .refl _
  | cons event older ih =>
    obtain ⟨e, isStored, number⟩ := stored event List.mem_cons_self
    obtain ⟨found, isFound⟩ : ∃ found, page.stored? event.seqNo = some found := by
      refine Option.isSome_iff_exists.mp (List.find?_isSome.mpr ⟨e, isStored, ?_⟩)
      simp [number]
    have one : page.step (.republish event.seqNo) = some (committed columns [] [event] page) := by
      rw [Sync.step, isFound]
      simp [committed]
    have rest := @ih (committed columns [] [event] page) (fun other isIn => by
      simpa [committed] using stored other (List.mem_cons_of_mem _ isIn))
    rw [committed_committed] at rest
    exact (Run.single (show Sync.Lossless page (.republish _) from trivial) one).trans rest

/-- The page has the stream of the run, and no turn has published more than there is. -/
structure Joined (columns : Columns) (live : Live) : Prop where
  numbered : Numbered live.system.rows
  same : live.page.stream = live.system.rows.events.map (wire columns)
  marks : ∀ attempt, live.watermark attempt ≤ live.system.rows.run.latestTerminalSeq

theorem Joined.previous {live : Live} (joined : Joined columns live) (e : Runtime.Event) :
    live.previous e ≤ live.system.rows.run.latestTerminalSeq := by
  cases e with
  | turn => exact joined.marks _
  | _ => exact Nat.le_refl _

theorem marked_le {publishes : Bool} {upper : Nat} {watermark : Nat → Nat} {e : Runtime.Event}
    (marks : ∀ attempt, watermark attempt ≤ upper) (other : Nat) :
    marked publishes upper watermark e other ≤ upper := by
  cases e with
  | begin | turn =>
    simp only [marked]
    split
    · exact Nat.le_refl _
    · exact marks other
  | _ => exact marks other

/-- The events after the stored ones take the next numbers. -/
theorem numbers_after {rows : Rows} {before : List TerminalEvent} (numbered : Numbered rows)
    (_grows : before <+: rows.events) : (rows.events.drop before.length).map TerminalEvent.seqNo =
      List.range' (before.length + 1) (rows.events.drop before.length).length := by
  rw [List.map_drop, numbered.dense.numbers, List.drop_range', List.length_drop]
  congr 1
  omega

/-- **A transaction** of the runtime is a run of the page's server. -/
theorem transaction_refines {platform : Platform} {live : Live} {e : Runtime.Event} {t : System}
    {publishes : Bool} (joined : Joined columns live) (stepped : System.step platform live.system e = some t)
    (silent : (publishes || (t.rows.events.drop live.system.rows.events.length).isEmpty) = true)
    (own : ∀ event ∈ t.rows.events.drop live.system.rows.events.length, ownId event = true) :
    Run Sync.step Sync.Lossless live.page
      (committed columns (t.rows.events.drop live.system.rows.events.length)
        (if publishes then publishWindow (live.previous e) t.rows.run.latestTerminalSeq (outputsOnly e)
          t.rows.events else []) live.page) := by
  have move := step_move stepped
  cases publishes with
  | false =>
    have none : t.rows.events.drop live.system.rows.events.length = [] := by simpa using silent
    rw [none, if_neg Bool.false_ne_true, committed_nil]
    exact .refl _
  | true =>
    have grows := move_grows move
    have numbers := numbers_after (grows.numbered joined.numbered) grows.events
    rw [if_pos rfl, window_covers joined.numbered move (joined.previous e)]
    generalize t.rows.events.drop live.system.rows.events.length = new at own numbers ⊢
    -- the older events of the window first, then those that are stored
    have older := @republishes columns (publishWindow (live.previous e) live.system.rows.run.latestTerminalSeq
      (outputsOnly e) live.system.rows.events) live.page (fun event isOld => by
        rw [joined.same]
        exact ⟨wire columns event, List.mem_map_of_mem (List.mem_filter.mp isOld).1, rfl⟩)
    refine older.trans ?_
    refine committed_committed [] new _ new live.page ▸ stores own ?_
    simpa [committed, joined.same] using numbers

/-- The labels of a page leave the stream to the server. -/
theorem page_stream {label : Label} {page later : Sync} (isFor : isForPage label = true)
    (stepped : page.step label = some later) : later.stream = page.stream := by
  cases Sync.step_move stepped with
  | store | republish => cases isFor
  | broadcast =>
    unfold Sync.broadcast
    split <;> rfl
  | opens =>
    unfold Sync.opens
    simp only
    split
    · rw [Sync.reconcile_stream]
    · rfl
  | @receive event frames =>
    obtain ⟨shown, requests, slot, made, same⟩ := Sync.handle_only event { page with frames := frames }
    rw [same]
  | lose | connect | accept | cut | closes | mount | answer | arrive | fail | send | posted | unsent => rfl

/-- **A step** is a run of the page, in which nothing is lost that was not lost there. -/
theorem step_refines {platform : Platform} {live later : Live} {label : LiveLabel}
    (joined : Joined columns live) (kept : Lossless live label)
    (stepped : step columns platform live label = some later) :
    Joined columns later ∧ Run Sync.step Sync.Lossless live.page later.page := by
  cases label with
  | runtime e publishes =>
    obtain ⟨t, moved, stepped⟩ := Option.bind_eq_some_iff.mp stepped
    simp only [Option.ite_none_right_eq_some, Bool.and_eq_true, List.all_eq_true,
      Option.some.injEq] at stepped
    obtain ⟨⟨silent, own⟩, rfl⟩ := stepped
    have grows := move_grows (step_move moved)
    have numbered := grows.numbered joined.numbered
    refine ⟨⟨numbered, ?_, marked_le fun attempt => ?_⟩, transaction_refines joined moved silent own⟩
    · show live.page.stream ++ _ = t.rows.events.map (wire columns)
      rw [joined.same, ← List.map_append]
      exact congrArg _ (List.prefix_iff_eq_append.mp grows.events)
    · refine Nat.le_trans (joined.marks attempt) ?_
      rw [joined.numbered.latest, numbered.latest]
      exact grows.events.length_le
  | page label =>
    simp only [step, Option.ite_none_right_eq_some] at stepped
    obtain ⟨isFor, stepped⟩ := stepped
    obtain ⟨page, moved, rfl⟩ := Option.map_eq_some_iff.mp stepped
    exact ⟨⟨joined.numbered, (page_stream isFor moved).trans joined.same, joined.marks⟩,
      Run.single kept moved⟩

/-- **A run** of the runtime with a page on it is one of the page. -/
theorem live_refines {platform : Platform} {live later : Live} (joined : Joined columns live)
    (run : Run (step columns platform) Lossless live later) :
    Joined columns later ∧ Run Sync.step Sync.Lossless live.page later.page := by
  refine @Run.invariant _ _ _ _
    (fun middle => Joined columns middle ∧ Run Sync.step Sync.Lossless live.page middle.page)
    (fun middle label later joins kept stepped => ?_) _ _ run ⟨joined, .refl _⟩
  obtain ⟨next, moved⟩ := step_refines joins.1 kept stepped
  exact ⟨next, joins.2.trans moved⟩

theorem start_joined {platform : Platform} {s : System} (start : Start platform s) :
    Joined columns (Live.start columns s) :=
  ⟨(stream_start start).numbered, rfl, fun _ => Nat.zero_le _⟩

theorem start_served {platform : Platform} {s : System} (start : Start platform s)
    (own : ∀ event ∈ s.rows.events, ownId event = true) : Served (s.rows.events.map (wire columns)) := by
  refine ⟨?_, fun e isIn => ?_⟩
  · rw [List.map_map, List.length_map]
    exact (stream_start start).numbered.dense.numbers
  · obtain ⟨event, isStored, rfl⟩ := List.mem_map.mp isIn
    exact served_reads (wire_served (own event isStored))

/-- **The page and the runtime**: when everything is at rest, a page on an open socket that lost nothing shows
the terminal stream of the run as it is stored, and nothing else but the echo of an input being sent. -/
theorem live_synced {platform : Platform} {s : System} {live : Live} (start : Start platform s)
    (own : ∀ event ∈ s.rows.events, ownId event = true)
    (run : Run (step columns platform) Lossless (Live.start columns s) live)
    (attends : Sync.Attends live.page) (rest : Sync.AtRest live.page) :
    (live.page.shown.filter fun e => !e.isOptimistic) = live.system.rows.events.map (wire columns) ∧
      (live.page.sending = none → live.page.shown = live.system.rows.events.map (wire columns)) := by
  obtain ⟨joined, seen⟩ := live_refines (start_joined start) run
  have inStep := Sync.run_inStep (start_served start own) seen
  have synced := (inStep.synced attends rest).trans joined.same
  refine ⟨synced, fun idle => ?_⟩
  rw [← synced, eq_comm, List.filter_eq_self]
  intro e isIn
  by_contra echo
  obtain ⟨id, isSending, -⟩ := inStep.sound.shows.echo e isIn (by simpa using echo)
  rw [idle] at isSending
  cases isSending

instance losslessDecidable (live : Live) : ∀ label, Decidable (Lossless live label)
  | .runtime .. => inferInstanceAs (Decidable True)
  | .page label => inferInstanceAs (Decidable (live.page.Lossless label))

def plainColumns : Columns := ⟨"run-1", "terminal-1", fun _ => .null, fun _ => "2026-07-14T10:00:00Z"⟩

/-- A page that is opened between two inputs of its run: the broadcast of the first is lost. -/
def opened : List LiveLabel :=
  [.runtime (.append (textInput "a")) true, .page (.lose 1), .page .mount, .page (.answer 0),
    .page (.arrive 0), .page .connect, .page .accept, .page .opens, .page (.answer 1), .page (.arrive 1),
    .runtime (.append (textInput "b")) true, .page (.broadcast 2), .page .receive]

theorem live_synced_opened : ∃ live, Run (step plainColumns plainPlatform) Lossless
      (Live.start plainColumns (created (obj []) "run-1" 3 0)) live ∧ live.system.rows.events.length = 2 ∧
    live.page.shown = live.system.rows.events.map (wire plainColumns) := by
  obtain ⟨live, _, ran, same, passes⟩ := checked_run (show
    ((follow (step plainColumns plainPlatform) Lossless
      (Live.start plainColumns (created (obj []) "run-1" 3 0)) opened).bind some).any
      (fun live => decide (live.system.rows.events.length = 2) && decide (live.page.socket = .opened) &&
        live.page.subscribed && live.page.mounted && live.page.owed.isEmpty && live.page.frames.isEmpty &&
        live.page.requests.isEmpty && live.page.sending.isNone) = true by decide +kernel)
  obtain rfl := Option.some.inj same
  simp only [Bool.and_eq_true, decide_eq_true_eq, List.isEmpty_iff, Option.isNone_iff_eq_none] at passes
  obtain ⟨⟨⟨⟨⟨⟨⟨two, isOpen⟩, subscribed⟩, mounted⟩, owed⟩, frames⟩, requests⟩, idle⟩ := passes
  have run := run_of_follow ran
  have synced := live_synced (.created (obj []) "run-1" 3 0) (by simp [created]) run
    ⟨isOpen, subscribed, mounted⟩ ⟨owed, frames, requests⟩
  exact ⟨live, run, two, synced.2 idle⟩

end Live

end Psop.Client
