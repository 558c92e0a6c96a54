import Psop.Runtime.Consumption
import Psop.Runtime.Watermark
import Psop.Runtime.Finality

/-!
No lost wake-up.

An input wakes the runtime job up when it is appended; a turn that ends looks for inputs behind its
cursor before it lets the job rest. That this suffices rests on the cursor: no input up to it is still
consumable (`Quiet`), which the protocol keeps. `Awake` is the invariant of the system: an unfinished
run has a job, and the job rests only while its last token can consume nothing that is stored.
`no_lost_wakeup` is the result for runs.
-/
namespace Psop.Runtime

open Json Rows Psop.Runtime.System

/-! ### Nothing consumable up to the cursor -/

structure Quiet (events : List TerminalEvent) (v : View) : Prop where
  cursor : ∃ c : Int, v.cursor = some c ∧ c ≤ events.length ∧
    ∀ event ∈ events, event.direction = .input → (event.seqNo : Int) ≤ c →
      v.consumable event.seqNo = false

/-- A number that cannot be consumed cannot be consumed later either. -/
theorem Takes.inconsumable {v v' : View} {event : TerminalEvent} (takes : Takes v event v') {n : Nat}
    (not : v.consumable n = false) : v'.consumable n = false := by
  have accept : v'.accept? = v.accept? := by rw [View.accept?, takes.window, ← View.accept?]
  unfold View.consumable at not ⊢
  rw [accept]
  split
  · rename_i accept isAccept
    rw [isAccept] at not
    rcases takes.records with same | ⟨-, -, added⟩
    · rw [same]
      exact not
    · rw [added, Bool.and_eq_false_iff] at *
      refine not.imp id fun known => ?_
      simp only [Bool.not_eq_false', List.contains_eq_mem, decide_eq_true_eq] at known ⊢
      exact List.mem_append_left _ known
  · rfl

theorem taken_inconsumable (v : View) (event : TerminalEvent) :
    (View.take event v).consumable event.seqNo = false := by
  unfold View.consumable
  split
  · simp [View.take]
  · rfl

theorem sync_settles {v : View} {event : TerminalEvent} (toward : event.direction = .input) :
    (v.sync event).consumable event.seqNo = false := by
  simp only [View.sync, toward]
  split
  · exact taken_inconsumable ..
  · rename_i not
    simpa using not

theorem pull_settles {v : View} {event : TerminalEvent} (toward : event.direction = .input) :
    (v.pull event).consumable event.seqNo = false := by
  simp only [View.pull, toward]
  split
  · rename_i not
    simpa using not
  · exact taken_inconsumable ..

/-- Going through events settles all inputs among them, and what was settled before. -/
theorem settles_all {f : View → TerminalEvent → View} (takes : ∀ v event, Takes v event (f v event))
    (settles : ∀ {v : View} {event : TerminalEvent}, event.direction = .input →
      (f v event).consumable event.seqNo = false) (rest : List TerminalEvent) (v : View) :
    (∀ n, v.consumable n = false → (rest.foldl f v).consumable n = false) ∧
    ∀ event ∈ rest, event.direction = .input →
      (rest.foldl f v).consumable event.seqNo = false := by
  induction rest generalizing v with
  | nil => exact ⟨fun _ not => not, nofun⟩
  | cons first rest ih =>
    obtain ⟨keeps, all⟩ := ih (f v first)
    refine ⟨fun n not => keeps n ((takes v first).inconsumable not), fun event isEvent toward => ?_⟩
    rcases List.mem_cons.mp isEvent with rfl | isLater
    · exact keeps _ (settles toward)
    · exact all event isLater toward

/-- Pulling events in keeps the cursor within the stream. -/
theorem pull_all_cursor {events rest : List TerminalEvent} (dense : Dense events) (sub : rest ⊆ events)
    {v : View} {c : Int} (cursor : v.cursor = some c) (bound : c ≤ events.length) :
    ∃ c', (rest.foldl View.pull v).cursor = some c' ∧ c' ≤ events.length := by
  induction rest generalizing v c with
  | nil => exact ⟨c, cursor, bound⟩
  | cons event rest ih =>
    rw [List.foldl_cons]
    have within := (dense.bounded (sub List.mem_cons_self)).2
    have one : ∃ c', (v.pull event).cursor = some c' ∧ c' ≤ events.length := by
      unfold View.pull
      split
      · exact ⟨c, cursor, bound⟩
      · split
        · exact ⟨c, cursor, bound⟩
        · exact ⟨max c event.seqNo, by simp [View.take, cursor], by omega⟩
    obtain ⟨c', cursor', bound'⟩ := one
    exact ih (fun later isLater => sub (List.mem_cons_of_mem _ isLater)) cursor' bound'

theorem Dense.mem_earlier {events later : List TerminalEvent} (dense : Dense later)
    (more : events <+: later) {event : TerminalEvent} (stored : event ∈ later)
    (early : event.seqNo ≤ events.length) : event ∈ events := by
  obtain ⟨added, rfl⟩ := more
  rcases List.mem_append.mp stored with old | new
  · exact old
  · have dropped : event ∈ (events ++ added).drop events.length := by
      rw [List.drop_left]
      exact new
    have above := dense.mem_drop dropped
    omega

theorem synced_quiet {events : List TerminalEvent} {v v' : View} {cursor accept : Int}
    (dense : Dense events) (quiet : Quiet events v) (isCursor : v.cursor = some cursor)
    (window : { v with window := some (some (num accept)) } = v)
    (synced : v' = (eventsFrom (cursor + 1) events).foldl View.sync
      { v with window := some (some (num accept)) }) : Quiet events v' := by
  obtain ⟨c, at_, bound, settled⟩ := quiet.cursor
  obtain rfl : cursor = c := Option.some.inj (isCursor.symm.trans at_)
  rw [window] at synced
  subst synced
  obtain ⟨keeps, all⟩ := settles_all sync_takes sync_settles (eventsFrom (cursor + 1) events) v
  obtain ⟨-, moved⟩ := sync_all_copies (eventsFrom (cursor + 1) events) v
  have every : ∀ event ∈ events, event.direction = .input →
      ((eventsFrom (cursor + 1) events).foldl View.sync v).consumable event.seqNo = false := by
    intro event stored toward
    by_cases above : cursor + 1 ≤ (event.seqNo : Int)
    · exact all event (List.mem_filter.mpr ⟨stored, by simpa using above⟩) toward
    · exact keeps _ (settled event stored toward (by omega))
  cases last : (eventsFrom (cursor + 1) events).getLast? with
  | none =>
    rw [last] at moved
    exact ⟨cursor, moved.trans at_, bound, fun event stored toward _ => every event stored toward⟩
  | some event =>
    rw [last] at moved
    have stored := events_from_subset _ _ (List.mem_of_getLast? last)
    have within := (dense.bounded stored).2
    exact ⟨event.seqNo, moved, by omega, fun event stored toward _ => every event stored toward⟩

theorem entered_quiet {events : List TerminalEvent} {v v' : View} {turnAccept : Int}
    (dense : Dense events) (quiet : Quiet events v)
    (fresh : v.prior = false → v.cursor = some turnAccept)
    (entered : Entered events.length events turnAccept v v') : Quiet events v' := by
  obtain ⟨c, at_, bound, -⟩ := quiet.cursor
  obtain ⟨accept, later, base, -, moved⟩ := entered.entry
  have covered : c ≤ accept := by
    cases prior : v.prior with
    | true => have above := later prior; omega
    | false =>
      obtain rfl : turnAccept = c := Option.some.inj ((fresh prior).symm.trans at_)
      exact base
  have below : ∀ n : Nat, (n : Int) ≤ accept → (v.enter accept).consumable n = false := by
    intro n early
    have not : ¬ accept < (n : Int) := by omega
    simp [View.consumable, View.accept?, View.enter, toIntOr0?_num, not]
  rcases moved with rfl | ⟨-, rfl⟩
  · exact ⟨c, at_, bound, fun event _ _ early => below _ (by omega)⟩
  · obtain ⟨keeps, all⟩ := settles_all pull_takes pull_settles
      (eventsBetween (accept + 1) events.length events) (v.enter accept)
    have enterAt : (v.enter accept).cursor = some c := at_
    obtain ⟨c', at', bound'⟩ := pull_all_cursor dense
      (events_between_subset (accept + 1) events.length events) enterAt bound
    refine ⟨c', at', bound', fun event stored toward early => ?_⟩
    by_cases above : accept + 1 ≤ (event.seqNo : Int)
    · have within := (dense.bounded stored).2
      refine all event (List.mem_filter.mpr ⟨List.mem_filter.mpr ⟨stored, ?_⟩, ?_⟩) toward
      · simpa using above
      · simp only [decide_eq_true_eq]
        omega
    · exact keeps _ (below _ (by omega))

/-- **The protocol keeps everything up to the cursor settled.** -/
theorem reached_quiet {may : List TerminalEvent → View → Prop} {events : List TerminalEvent}
    {v : View} {waits : List WaitMark} (reached : Reached Blank may events v waits) :
    Dense events ∧ Quiet events v := by
  induction reached with
  | start isBase =>
    obtain ⟨rfl, rfl⟩ := isBase
    exact ⟨⟨rfl, .nil⟩, 0, rfl, by simp, nofun⟩
  | grow _ more dense ih =>
    obtain ⟨-, c, at_, bound, settled⟩ := ih
    have lengths := more.length_le
    refine ⟨dense, c, at_, by omega, fun event stored toward early => ?_⟩
    exact settled event (dense.mem_earlier more stored (by omega)) toward early
  | sync reached isCursor waiting same synced ih =>
    refine ⟨ih.1, synced_quiet ih.1 ih.2 isCursor ?_ synced⟩
    rcases (reached_booked reached).window with none | ⟨_, mark, -, window⟩
    · rw [none] at waiting
      cases waiting
    · rw [same _ window, ← window]
  | enter _ _ fresh entered ih => exact ⟨ih.1, entered_quiet ih.1 ih.2 fresh entered⟩
  | @next events v _ event cursor _ stored output isCursor isNext ih =>
    obtain ⟨dense, c, at_, bound, settled⟩ := ih
    obtain rfl : cursor = c := Option.some.inj (isCursor.symm.trans at_)
    have within := (dense.bounded stored).2
    refine ⟨dense, event.seqNo, rfl, by omega, fun other isOther toward early => ?_⟩
    by_cases last : other.seqNo = event.seqNo
    · have same : other = event := by
        obtain ⟨i, isPlace, rfl⟩ := List.getElem_of_mem isOther
        obtain ⟨j, isPlace', rfl⟩ := List.getElem_of_mem stored
        rw [dense.getElem isPlace, dense.getElem isPlace'] at last
        obtain rfl : i = j := by omega
        rfl
      rw [same, output] at toward
      cases toward
    · exact settled other isOther toward (by omega)
  | drop _ ih =>
    obtain ⟨dense, c, at_, bound, -⟩ := ih
    exact ⟨dense, c, at_, bound, fun _ _ _ _ => rfl⟩

/-! ### A job at rest -/

/-- The last stored token can consume nothing that is stored. -/
def AtRest (rows : Rows) : Prop :=
  ∀ snapshot, rows.lastSnapshot? = some snapshot → ∀ event ∈ rows.events,
    event.direction = .input → canConsume event snapshot.token = false

/-- Statuses in which the queue or a worker still has the job. -/
def JobStatus.awake : JobStatus → Bool
  | pending | running | retryableFailed => true
  | _ => false

/-- An unfinished run has a job, and it rests only where there is nothing to do. -/
def JobAwake (rows : Rows) : Prop :=
  rows.finished = false → ∃ job, rows.job = some job ∧
    (job.status.awake = true ∨ job.status = .succeeded ∧ AtRest rows)

/-- Nothing behind the cursor and nothing consumable up to it. -/
theorem nothing_consumable {rows : Rows} {token : Json} {cursor : Int} (quiet : Quiet rows.events (view token))
    (isCursor : cursor? token = some cursor) (none : rows.hasInputsAfter cursor = false) :
    ∀ event ∈ rows.events, event.direction = .input → canConsume event token = false := by
  obtain ⟨c, at_, -, settled⟩ := quiet.cursor
  obtain rfl : cursor = c := Option.some.inj (isCursor.symm.trans at_)
  intro event stored toward
  rw [can_consume]
  refine settled event stored toward (Int.not_lt.mp fun above => ?_)
  have behind : rows.hasInputsAfter cursor = true := by
    refine List.any_eq_true.mpr ⟨event, List.mem_filter.mpr ⟨stored, ?_⟩, by simp [toward]⟩
    simp only [decide_eq_true_eq]
    omega
  rw [none] at behind
  cases behind

/-- How the job of an unfinished run leaves a turn. -/
theorem finish_turn_job {now : Nat} {token : Json} {rows rows' : Rows}
    (unfinished : rows.finished = false)
    (ended : finishRuntimeJobTurn now token .succeeded "" rows = some rows') {job : JobRow}
    (has : rows.job = some job) : ∃ job', rows'.job = some job' ∧ job'.workerName = none ∧
      (job'.status = .pending ∨ job'.status = .succeeded ∧
        ∃ cursor, cursor? token = some cursor ∧ rows.hasInputsAfter cursor = false) := by
  unfold finishRuntimeJobTurn at ended
  rw [has] at ended
  simp only [unfinished, Bool.false_eq_true, if_false] at ended
  obtain ⟨cursor, isCursor, rfl⟩ := Option.map_eq_some_iff.mp ended
  split
  · exact ⟨_, rfl, rfl, .inl rfl⟩
  · rename_i nothing
    simp only [Bool.or_eq_true, not_or, Bool.not_eq_true] at nothing
    exact ⟨_, rfl, rfl, .inr ⟨rfl, cursor, isCursor, nothing.2⟩⟩

/-- A waiting exit that stored its token last leaves the job awake, or at rest. -/
theorem wait_turn_awake {now : Nat} {token : Json} {rows rows' : Rows} {job : JobRow}
    (has : rows.job = some job) (waited : waitTurn now token rows = some rows')
    (rest : ∀ cursor, cursor? token = some cursor → rows.hasInputsAfter cursor = false → AtRest rows) :
    ∃ job', rows'.job = some job' ∧ job'.workerName = none ∧
      (job'.status.awake = true ∨ job'.status = .succeeded ∧ AtRest rows') := by
  unfold waitTurn at waited
  obtain ⟨job', has', unowned, status⟩ := finish_turn_job rfl waited has
  refine ⟨job', has', unowned, ?_⟩
  rcases status with pending | ⟨succeeded, cursor, isCursor, nothing⟩
  · exact .inl (by rw [pending]; rfl)
  · have atRest := rest cursor isCursor nothing
    refine .inr ⟨succeeded, ?_⟩
    rw [finish_turn_spec waited]
    exact atRest

theorem wait_turn_events {now : Nat} {token : Json} {rows rows' : Rows}
    (waited : waitTurn now token rows = some rows') : rows'.events = rows.events := by
  unfold waitTurn at waited
  rw [finish_turn_spec waited]

theorem at_rest_of_quiet {rows : Rows} {snapshot : Snapshot} {cursor : Int}
    (last : rows.lastSnapshot? = some snapshot) (quiet : Quiet rows.events (view snapshot.token))
    (isCursor : cursor? snapshot.token = some cursor) (none : rows.hasInputsAfter cursor = false) :
    AtRest rows := by
  intro other isLast
  obtain rfl := Option.some.inj (last.symm.trans isLast)
  exact nothing_consumable quiet isCursor none

theorem last_of_append {rows : Rows} {snapshots : List Snapshot} {new : Snapshot}
    (appended : rows.snapshots = snapshots ++ [new]) : rows.lastSnapshot? = some new := by
  rw [lastSnapshot?, appended, List.getLast?_append]
  rfl

/-- A recovery leaves the job awake, or at rest. -/
theorem recover_turn_awake {now : Nat} {stamp : String} {token : Json} {waits : List WaitMark}
    {failure : Failure} {supply : Supply} {rows rows' : Rows} {job : JobRow}
    (has : rows.job = some job)
    (recovered : recoverTurn now stamp token waits failure supply rows = some rows')
    (quiet : ∀ snapshot ∈ rows'.snapshots, Quiet rows'.events (view snapshot.token)) :
    ∃ job', rows'.job = some job' ∧ job'.workerName = none ∧
      (job'.status.awake = true ∨ job'.status = .succeeded ∧ AtRest rows') := by
  unfold recoverTurn at recovered
  obtain ⟨⟨appended, event⟩, was, recovered⟩ := Option.bind_eq_some_iff.mp recovered
  obtain ⟨result, -, ended⟩ := Option.bind_eq_some_iff.mp recovered
  have hasAppended : appended.job = some job := (append_if_open_only was).keeps.job.trans has
  obtain ⟨job', has', unowned, status⟩ := finish_turn_job rfl ended hasAppended
  refine ⟨job', has', unowned, ?_⟩
  rcases status with pending | ⟨succeeded, cursor, isCursor, nothing⟩
  · exact .inl (by rw [pending]; rfl)
  · have snapshots := finish_turn_snapshots ended
    have last := last_of_append snapshots
    refine .inr ⟨succeeded, at_rest_of_quiet last (quiet _ (List.mem_of_getLast? last)) isCursor ?_⟩
    rw [finish_turn_spec ended]
    exact nothing

/-- A synchronisation that took nothing left the window and the records as they were. -/
theorem synced_asleep {may : List TerminalEvent → View → Prop} {events : List TerminalEvent}
    {token synced : Json} {waits : List WaitMark}
    (reached : Reached Blank may events (view token) waits) (waiting : isWaiting token = true)
    (moved : Synced events token synced) (asleep : hasStatus synced "waiting" = true) :
    Quiet events (view synced) ∧ (view synced).window = (view token).window ∧
      (view synced).records = (view token).records := by
  obtain ⟨dense, quiet⟩ := reached_quiet reached
  have booked := reached_booked reached
  obtain ⟨cursor, accept, isCursor, same, isView⟩ := moved.moved
  have window : { view token with window := some (some (num accept)) } = view token := by
    rcases booked.window with none | ⟨_, mark, -, window⟩
    · have has := (Bool.and_eq_true_iff.mp waiting).2
      rw [← window_isSome, none] at has
      cases has
    · rw [same _ window, ← window]
  refine ⟨synced_quiet dense quiet isCursor window isView, ?_, ?_⟩
  · rw [isView, window, View.sync_all_window]
  · rw [window] at isView
    have accepts : ∃ accept', (view token).accept? = some accept' := by
      rw [← window]
      exact ⟨_, rfl⟩
    obtain ⟨accept', isAccept⟩ := accepts
    obtain ⟨new, records, -⟩ := takes_all sync_takes (events_from_subset (cursor + 1) events)
      isAccept booked.records booked.nodup
    have lengths := moved.waiting asleep
    rw [← isView] at records
    rw [records, booked.records] at lengths
    have none : new = [] := by simpa using lengths
    rw [records, none, List.append_nil, booked.records]

/-- A turn that finds nothing to do rests rightly: the stored token can consume nothing either. -/
theorem rested_at_rest {platform : Platform} {may : List TerminalEvent → View → Prop} {stamp : String}
    {rows : Rows} {snapshot : Snapshot} {synced : Json} {cursor : Int}
    (reached : Reached Blank may rows.events (view snapshot.token) snapshot.waits)
    (last : rows.lastSnapshot? = some snapshot)
    (sync : syncTerminalEvents stamp rows.events
      (compactRuntimeToken platform.sha256 snapshot.token) = some synced)
    (asleep : hasStatus synced "waiting" = true) (isCursor : cursor? synced = some cursor)
    (none : rows.hasInputsAfter cursor = false) : AtRest rows := by
  have compact := compact_view platform.sha256 snapshot.token
  rw [← compact] at reached
  intro other isLast event stored toward
  obtain rfl := Option.some.inj (last.symm.trans isLast)
  rw [can_consume, ← compact, ← can_consume]
  rcases sync_view sync with ⟨rfl, -⟩ | ⟨waiting, moved⟩
  · exact nothing_consumable (reached_quiet reached).2 isCursor none event stored toward
  · obtain ⟨quiet, window, records⟩ := synced_asleep reached waiting moved asleep
    have inconsumable := nothing_consumable quiet isCursor none event stored toward
    rw [can_consume] at inconsumable ⊢
    simpa only [View.consumable, View.accept?, window, records] using inconsumable

/-! ### The invariant -/

/-- The attempt owns the running job, whether or not its lease has run out. -/
def Owned (owner : Nat) (rows : Rows) : Prop := ∃ job, rows.job = some job ∧ owns owner job = true

/-- What a turn that owns its job knows: the last snapshot is its own, once it has stored one, and the
token it began with was not waiting. -/
structure Current (rows : Rows) (turn : Turn) : Prop where
  snapshotSeq : turn.snapshotSeq = rows.run.latestSnapshotSeq
  stored : 0 < turn.stepsDone → ∃ snapshot, rows.lastSnapshot? = some snapshot ∧
    snapshot.token = turn.token

structure Awake (s : System) : Prop where
  job : JobAwake s.rows
  leased : ∀ attempt turn, s.attempts attempt = .looping turn → turn.leased = true
  begun : ∀ attempt turn, s.attempts attempt = .looping turn → turn.stepsDone = 0 →
    hasStatus turn.token "waiting" = false
  current : ∀ attempt turn, s.attempts attempt = .looping turn → Owned attempt s.rows →
    Current s.rows turn

theorem holds_owned {now owner : Nat} {rows : Rows} (holds : rows.holdsLease now (some owner) = true) :
    Owned owner rows := by
  unfold holdsLease at holds
  simp only at holds
  split at holds
  · cases holds
  · rename_i job has
    rw [Bool.and_eq_true] at holds
    exact ⟨job, has, holds.1⟩

theorem owned_unique {a b : Nat} {rows : Rows} (left : Owned a rows) (right : Owned b rows) : a = b := by
  obtain ⟨job, has, ownedA⟩ := left
  obtain ⟨job', has', ownedB⟩ := right
  obtain rfl := Option.some.inj (has.symm.trans has')
  simp only [owns, Bool.and_eq_true, beq_iff_eq] at ownedA ownedB
  exact Option.some.inj (ownedA.2.symm.trans ownedB.2)

theorem Owned.running {owner : Nat} {rows : Rows} (owned : Owned owner rows) :
    ∃ job, rows.job = some job ∧ job.status = .running := by
  obtain ⟨job, has, owns⟩ := owned
  exact ⟨job, has, owns_running owns⟩

/-- Nobody owns a job without a worker. -/
theorem unowned {rows : Rows} {job : JobRow} (has : rows.job = some job)
    (none : job.workerName = none) (owner : Nat) : ¬ Owned owner rows := by
  rintro ⟨job', has', owned⟩
  obtain rfl := Option.some.inj (has.symm.trans has')
  simp [owns, none] at owned

/-! ### The step -/

/-- A request for an input spells its direction as the one the append looks for. -/
def SpellsInput : Event → Prop
  | .append draft | .persist draft =>
    Direction.ofText draft.direction = some .input → draft.direction = "input"
  | _ => True

instance (e : Event) : Decidable (SpellsInput e) :=
  match e with
  | .append draft | .persist draft =>
    inferInstanceAs (Decidable (Direction.ofText draft.direction = some .input →
      draft.direction = "input"))
  | .tick _ | .preflight _ | .cancel _ | .claim .. | .renew .. | .abandon .. | .recordFailure ..
  | .recover .. | .begin .. | .turn .. | .crash _ => isTrue trivial

/-- The artifact's own wait condition holds of waiting tokens only. -/
def WaitsWaiting (artifact : Json) : Prop :=
  ∀ token, haltWait artifact token = true → hasStatus token "waiting" = true

section Step

variable {platform : Platform} {may : List TerminalEvent → View → Prop} {s t : System} {e : Event}

theorem JobAwake.of_job {rows : Rows} {job : JobRow} (has : rows.job = some job)
    (awake : job.status.awake = true) : JobAwake rows :=
  fun _ => ⟨job, has, .inl awake⟩

theorem JobAwake.of_finished {rows : Rows} (finished : rows.finished = true) : JobAwake rows := by
  intro unfinished
  rw [finished] at unfinished
  cases unfinished

theorem ensure_pending_awake (now : Nat) (rows : Rows) : JobAwake (rows.ensureRuntimeJobPending now) := by
  unfold ensureRuntimeJobPending
  split
  · exact .of_job rfl rfl
  · split
    · rename_i job _ running
      exact .of_job rfl (show job.status.awake = true by rw [running]; rfl)
    · exact .of_job rfl rfl

/-- An append wakes the job up, or was no input. -/
theorem appended_awake {draft : EventDraft} {rows rows' : Rows} {event : TerminalEvent} {now : Nat}
    (spells : Direction.ofText draft.direction = some .input → draft.direction = "input")
    (ok : JobAwake rows) (stored : rows.appendTerminalEvent draft = some (rows', event)) :
    JobAwake (woken now draft rows') := by
  unfold woken
  split
  · exact ensure_pending_awake now rows'
  rename_i other
  have kept := (append_event_only stored).keeps
  have snapshots := (append_event_only stored).snapshots
  obtain ⟨direction, toward, isRow, -, isRows⟩ := append_event_spec stored
  intro unfinished
  obtain ⟨job, has, status⟩ := ok (kept.finished.symm.trans unfinished)
  refine ⟨job, kept.job.trans has, status.imp id fun ⟨succeeded, atRest⟩ => ⟨succeeded, ?_⟩⟩
  intro snapshot last stored' isStored isInput
  rw [lastSnapshot?, snapshots] at last
  rw [isRows] at isStored
  rcases List.mem_append.mp isStored with old | new
  · exact atRest snapshot last stored' old isInput
  · obtain rfl := List.mem_singleton.mp new
    obtain rfl : direction = .input := (congrArg TerminalEvent.direction isRow).symm.trans isInput
    exact absurd (spells toward) other

/-- The last snapshot of a step is the token it stored. -/
theorem append_step_last {supply : Supply} {stamp : String} {node observation token : Json}
    {enabled : List String} {waits : List WaitMark} {rows rows' : Rows}
    (appended : appendRuntimeStep supply stamp node observation token enabled waits rows =
      some rows') : ∃ snapshot, rows'.lastSnapshot? = some snapshot ∧ snapshot.token = token :=
  ⟨_, last_of_append (append_step_snapshots appended), rfl⟩

theorem append_step_seq {supply : Supply} {stamp : String} {node observation token : Json}
    {enabled : List String} {waits : List WaitMark} {rows rows' : Rows}
    (appended : appendRuntimeStep supply stamp node observation token enabled waits rows =
      some rows') : rows'.run.latestSnapshotSeq = rows.run.latestSnapshotSeq + 1 := by
  obtain ⟨latest, events, rfl⟩ := append_step_only appended
  rfl

theorem StreamOnly.seq {before after : Rows} (only : StreamOnly before after) :
    after.run.latestSnapshotSeq = before.run.latestSnapshotSeq := by
  obtain ⟨latest, events, rfl⟩ := only
  rfl

/-! ### Who owns the job after a step -/

theorem finish_turn_unowned {now : Nat} {token : Json} {status : JobStatus} {lastError : String}
    {rows rows' : Rows} (ended : finishRuntimeJobTurn now token status lastError rows = some rows')
    (owner : Nat) : ¬ Owned owner rows' := by
  unfold finishRuntimeJobTurn at ended
  split at ended
  · rename_i absent
    cases ended
    rintro ⟨job, has, -⟩
    rw [absent] at has
    cases has
  · split at ended
    · cases ended
      exact unowned rfl rfl owner
    · obtain ⟨cursor, -, rfl⟩ := Option.map_eq_some_iff.mp ended
      split <;> exact unowned rfl rfl owner

theorem recover_turn_unowned {now : Nat} {stamp : String} {token : Json} {waits : List WaitMark}
    {failure : Failure} {supply : Supply} {rows rows' : Rows}
    (recovered : recoverTurn now stamp token waits failure supply rows = some rows') (owner : Nat) :
    ¬ Owned owner rows' := by
  unfold recoverTurn at recovered
  obtain ⟨⟨appended, event⟩, -, recovered⟩ := Option.bind_eq_some_iff.mp recovered
  obtain ⟨result, -, ended⟩ := Option.bind_eq_some_iff.mp recovered
  exact finish_turn_unowned ended owner

theorem fail_turn_unowned {now : Nat} {stamp : String} {token : Json} {failure : Failure}
    {supply : Supply} {rows rows' : Rows}
    (failed : failTurn now stamp token failure supply rows = some rows') (owner : Nat) :
    ¬ Owned owner rows' := by
  unfold failTurn at failed
  obtain ⟨ended, was, failed⟩ := Option.bind_eq_some_iff.mp failed
  obtain ⟨⟨appended, event⟩, output, closed⟩ := Option.bind_eq_some_iff.mp failed
  cases closed
  have kept : appended.job = ended.job := (append_if_open_only output).keeps.job
  rintro ⟨job, has, owned⟩
  exact finish_turn_unowned was owner ⟨job, kept.symm.trans has, owned⟩

theorem finalize_unowned {now id error : String} {trace : TraceRef} {rows rows' : Rows} {job : JobRow}
    (has : rows.job = some job) (none : job.workerName = none)
    (finalized : finalizeExhaustedJob now id error trace rows = some rows') (owner : Nat) :
    ¬ Owned owner rows' := by
  unfold finalizeExhaustedJob at finalized
  rw [has] at finalized
  simp only at finalized
  split at finalized
  · cases finalized
    exact unowned has none owner
  · obtain ⟨⟨appended, event⟩, was, rfl⟩ := Option.map_eq_some_iff.mp finalized
    exact unowned (append_if_open_only was).keeps.job rfl owner

theorem cancelled_unowned {reason : String} (job : JobRow) (owner : Nat) :
    owns owner (cancelledJob reason job) = false := by
  unfold cancelledJob
  split
  · rename_i ended
    rcases ended with is | is | is <;> simp [owns, is]
  · simp [owns]

theorem woken_owned {now owner : Nat} {draft : EventDraft} {rows : Rows}
    (owned : Owned owner (woken now draft rows)) : Owned owner rows := by
  unfold woken at owned
  split at owned
  · unfold ensureRuntimeJobPending at owned
    split at owned
    · exact absurd owned (unowned rfl rfl owner)
    · rename_i job has
      split at owned
      · obtain ⟨job', has', owns⟩ := owned
        obtain rfl := Option.some.inj has'
        exact ⟨job, has, owns⟩
      · exact absurd owned (unowned rfl rfl owner)
  · exact owned

theorem woken_seq (now : Nat) (draft : EventDraft) (rows : Rows) :
    (woken now draft rows).run = rows.run := by
  unfold woken
  split
  · unfold ensureRuntimeJobPending
    split
    · rfl
    · split <;> rfl
  · rfl

/-! ### The turns after a step -/

theorem Current.of_same {rows rows' : Rows} {turn : Turn} (current : Current rows turn)
    (seq : rows'.run.latestSnapshotSeq = rows.run.latestSnapshotSeq)
    (snapshots : rows'.snapshots = rows.snapshots) : Current rows' turn := by
  refine ⟨current.snapshotSeq.trans seq.symm, fun started => ?_⟩
  rw [lastSnapshot?, snapshots]
  exact current.stored started

/-- What a step has to show of its turns: the new ones are under a lease and know their rows, and of
the old ones whoever still owns the job does. -/
theorem Awake.step (ok : Awake s) (job : JobAwake t.rows)
    (turns : ∀ attempt turn, t.attempts attempt = .looping turn →
      (s.attempts attempt = .looping turn ∧ (Owned attempt t.rows → Current t.rows turn)) ∨
      (turn.leased = true ∧ (turn.stepsDone = 0 → hasStatus turn.token "waiting" = false) ∧
        Current t.rows turn)) : Awake t := by
  refine ⟨job, fun attempt turn looping => ?_, fun attempt turn looping => ?_,
    fun attempt turn looping owned => ?_⟩
  · rcases turns attempt turn looping with ⟨old, -⟩ | ⟨leased, -⟩
    · exact ok.leased attempt turn old
    · exact leased
  · rcases turns attempt turn looping with ⟨old, -⟩ | ⟨-, begun, -⟩
    · exact ok.begun attempt turn old
    · exact begun
  · rcases turns attempt turn looping with ⟨-, current⟩ | ⟨-, -, current⟩
    · exact current owned
    · exact current

/-- A step that ends an attempt, or none, and leaves nobody owning the job. -/
theorem Awake.step_unowned (ok : Awake s) (job : JobAwake t.rows)
    (turns : ∀ attempt turn, t.attempts attempt = .looping turn → s.attempts attempt = .looping turn)
    (none : ∀ owner, ¬ Owned owner t.rows) : Awake t :=
  ok.step job fun attempt turn looping =>
    .inl ⟨turns attempt turn looping, fun owned => absurd owned (none attempt)⟩

/-- A step that leaves the snapshots and the owner of the job alone. -/
theorem Awake.step_same (ok : Awake s) (job : JobAwake t.rows)
    (turns : ∀ attempt turn, t.attempts attempt = .looping turn → s.attempts attempt = .looping turn)
    (owned : ∀ owner, Owned owner t.rows → Owned owner s.rows)
    (seq : t.rows.run.latestSnapshotSeq = s.rows.run.latestSnapshotSeq)
    (snapshots : t.rows.snapshots = s.rows.snapshots) : Awake t :=
  ok.step job fun attempt turn looping =>
    .inl ⟨turns attempt turn looping, fun mine =>
      (ok.current attempt turn (turns attempt turn looping) (owned attempt mine)).of_same seq snapshots⟩

/-- A failing turn is under its lease. -/
theorem Fails.leased {attempt : Nat} {leased : Bool} {token : Json} {waits : List WaitMark}
    {expected : Nat} {rows : Rows}
    (fails : Fails platform s attempt e leased token waits expected rows) (ok : Awake s)
    (under : UnderLease s e) : leased = true := by
  cases fails with
  | starting => exact under
  | looping looping => exact ok.leased _ _ looping
  | executing selected => exact ok.leased _ _ selected.looping
  | merging selected => exact ok.leased _ _ selected.looping
  | applying commits => exact ok.leased _ _ commits.selected.looping

/-- What a step of the theorem keeps to. -/
structure Heard (s : System) (e : Event) : Prop where
  underLease : UnderLease s e
  spelled : SpellsInput e

instance (s : System) (e : Event) : Decidable (Heard s e) :=
  decidable_of_iff (UnderLease s e ∧ SpellsInput e) ⟨fun h => ⟨h.1, h.2⟩, fun h => ⟨h.1, h.2⟩⟩

theorem Tracked.quiet (tracked : Tracked Blank may s) :
    ∀ snapshot ∈ s.rows.snapshots, Quiet s.rows.events (view snapshot.token) :=
  fun snapshot stored => (reached_quiet (tracked.snapshots snapshot stored)).2

theorem JobAwake.of_exit {rows : Rows} (exit : ∃ job, rows.job = some job ∧ job.workerName = none ∧
    (job.status.awake = true ∨ job.status = .succeeded ∧ AtRest rows)) : JobAwake rows := by
  obtain ⟨job, has, -, status⟩ := exit
  exact fun _ => ⟨job, has, status⟩

/-- **Every step keeps the job awake.** -/
theorem move_awake (ok : Awake s) (tracked : Tracked Blank may s) (tracked' : Tracked Blank may t)
    (waits : WaitsWaiting s.rows.artifact) (heard : Heard s e) (move : Move platform s e t) :
    Awake t := by
  have quiet := tracked'.quiet
  cases move with
  | tick => exact ok.step_same ok.job (fun _ _ => id) (fun _ => id) rfl rfl
  | repeated => exact ok.step_same ok.job (fun _ _ => id) (fun _ => id) rfl rfl
  | stopped =>
    exact ok.step_same ok.job (fun _ _ looping => turns_of_set looping (by simp))
      (fun _ => id) rfl rfl
  | @appended _ draft _ _ asks _ _ stored =>
    have spells : Direction.ofText draft.direction = some .input → draft.direction = "input" := by
      rcases asks with rfl | rfl <;> exact heard.spelled
    have only := append_event_only stored
    refine ok.step_same (appended_awake spells ok.job stored) (fun _ _ => id) (fun owner owned => ?_)
      ?_ ((woken_snapshots ..).trans only.snapshots)
    · obtain ⟨job, has, owns⟩ := woken_owned owned
      exact ⟨job, only.keeps.job.symm.trans has, owns⟩
    · exact (congrArg RunRow.latestSnapshotSeq (woken_seq ..)).trans only.seq
  | cancelled unfinished snapped =>
    have finished := cancel_finished snapped
    refine ok.step_unowned (.of_finished finished) (fun _ _ => id) ?_
    rintro owner ⟨job, has, owned⟩
    obtain ⟨before, -, rfl⟩ := Option.map_eq_some_iff.mp has
    rw [cancelled_unowned] at owned
    cases owned
  | claimed unused has due =>
    refine ok.step (.of_job rfl rfl) fun attempt turn looping => ?_
    have old : s.attempts attempt = .looping turn := turns_of_set looping (by simp)
    refine .inl ⟨old, ?_⟩
    -- The new owner is an attempt that has not begun.
    rintro ⟨job, isJob, mine⟩
    obtain rfl := Option.some.inj isJob
    simp only [owns, claimedJob, Bool.and_eq_true, beq_iff_eq, Option.some.injEq] at mine
    rw [mine.2, old] at unused
    cases unused
  | renewed has owned =>
    refine ok.step_same (.of_job rfl (show _ = true by rw [owns_running owned]; rfl))
      (fun _ _ => id) ?_ rfl rfl
    rintro owner ⟨job, isJob, mine⟩
    obtain rfl := Option.some.inj isJob
    exact ⟨_, has, mine⟩
  | released has running status unowned' =>
    exact ok.step_unowned (.of_job rfl (by rw [status]; rfl)) (fun _ _ => id)
      (unowned rfl unowned')
  | exhausted has running status unowned' finalized =>
    exact ok.step_unowned (.of_finished (finalize_finished rfl finalized)) (fun _ _ => id)
      (finalize_unowned rfl unowned' finalized)
  | settled finished holds =>
    refine ok.step_unowned (.of_finished finished) ended_turns ?_
    rintro owner ⟨job, has, owned⟩
    obtain ⟨before, -, rfl⟩ := Option.map_eq_some_iff.mp has
    simp [owns] at owned
  | @begun attempt leased _ snapshot acceptAfterSeq synced may' holds unfinished last cursor sync awake =>
    obtain rfl : leased = true := heard.underLease
    obtain ⟨job, has, mine⟩ := holds_owned holds
    have has' : (startedRows s.rows).job = some (startedJob job) := by
      rw [startedRows, has]
      rfl
    refine ok.step (.of_job has' rfl) fun other turn looping => ?_
    rcases looping_of_set looping with new | old
    · obtain rfl := Attempt.looping.inj new
      exact .inr ⟨rfl, fun _ => awake, rfl, fun started => absurd started (Nat.lt_irrefl 0)⟩
    · refine .inl ⟨old, fun owned => ?_⟩
      have stays : Owned other s.rows := by
        obtain ⟨job', isJob, mine'⟩ := owned
        obtain rfl := Option.some.inj (has'.symm.trans isJob)
        refine ⟨job, has, ?_⟩
        simp only [owns, startedJob, Bool.and_eq_true, beq_iff_eq] at mine mine' ⊢
        exact ⟨mine.1, mine'.2⟩
      exact (ok.current other turn old stays).of_same rfl rfl
  | @rested _ leased _ _ _ _ holds unfinished last sync asleep waited =>
    obtain rfl : leased = true := heard.underLease
    obtain ⟨job, has, -⟩ := holds_owned holds
    have has' : (startedRows s.rows).job = some (startedJob job) := by
      rw [startedRows, has]
      rfl
    refine ok.step_unowned (.of_exit (wait_turn_awake has' waited fun cursor isCursor none => ?_))
      ended_turns (finish_turn_unowned waited)
    exact rested_at_rest (tracked.snapshots _ (List.mem_of_getLast? last)) last sync asleep isCursor none
  | recovered fails recoverable holds current recovered =>
    have leased := fails.leased ok heard.underLease
    subst leased
    obtain ⟨job, has, -⟩ := holds_owned holds
    exact ok.step_unowned (.of_exit (recover_turn_awake has recovered quiet)) ended_turns
      (recover_turn_unowned recovered)
  | failed fails holds failed =>
    exact ok.step_unowned (.of_finished (fail_turn_finished failed)) ended_turns
      (fail_turn_unowned failed)
  | @advanced attempt turn _ _ _ _ _ _ _ rows commits goesOn stored =>
    have held := commits.holds
    have leased := ok.leased _ _ commits.selected.looping
    rw [leased] at held
    have mine := holds_owned held
    have shown := append_output_only commits.output
    have kept := shown.keeps.trans (append_step_keeps stored)
    obtain ⟨job, has, running⟩ := mine.running
    have seq := (append_step_seq stored).trans (congrArg (· + 1) shown.seq)
    refine ok.step (.of_job (kept.job.trans has) (by rw [running]; rfl)) fun other next looping => ?_
    by_cases same : other = attempt
    · subst same
      obtain rfl : _ = next := Attempt.looping.inj (by simpa [setAttempt] using looping)
      refine .inr ⟨leased, fun first => absurd first (Nat.succ_ne_zero _), ?_,
        fun _ => append_step_last stored⟩
      exact (congrArg (· + 1) commits.current).symm.trans seq.symm
    · refine .inl ⟨by simpa [setAttempt, same, withRows] using looping, fun owned => ?_⟩
      obtain ⟨job', has', owns⟩ := owned
      exact absurd (owned_unique ⟨job', kept.job.symm.trans has', owns⟩ mine) same
  | @waited _ _ _ _ _ _ _ _ _ stepped rows commits isWait stored waited =>
    have held := commits.holds
    rw [ok.leased _ _ commits.selected.looping] at held
    obtain ⟨job, has, -⟩ := holds_owned held
    have kept := (append_output_only commits.output).keeps.trans (append_step_keeps stored)
    refine ok.step_unowned (.of_exit (wait_turn_awake (kept.job.trans has) waited
      fun cursor isCursor none => ?_)) ended_turns (finish_turn_unowned waited)
    have last := last_of_append (append_step_snapshots stored)
    have events : rows.events = stepped.events := wait_turn_events waited
    have kept := wait_turn_snapshots waited
    refine at_rest_of_quiet last ?_ isCursor none
    have isQuiet := quiet _ (List.mem_of_getLast? ((congrArg List.getLast? kept).trans last))
    exact events ▸ isQuiet
  | aborted looping holds halts exited =>
    exact ok.step_unowned (.of_finished (abort_run_finished exited)) ended_turns
      (finish_turn_unowned exited)
  | succeeded looping holds halts exited =>
    exact ok.step_unowned (.of_finished (succeed_run_finished exited)) ended_turns
      (finish_turn_unowned exited)
  | @halted _ turn _ _ _ looping holds halts exited =>
    rw [ok.leased _ _ looping] at holds
    obtain ⟨job, has, mine⟩ := holds_owned holds
    refine ok.step_unowned (.of_exit (wait_turn_awake has exited fun cursor isCursor none => ?_))
      ended_turns (finish_turn_unowned exited)
    -- A turn never begins with a waiting token, so this one is the last it stored.
    have waiting := waits _ halts
    have current := ok.current _ _ looping ⟨job, has, mine⟩
    have started : 0 < turn.stepsDone := by
      refine Nat.pos_of_ne_zero fun none => ?_
      rw [ok.begun _ _ looping none] at waiting
      cases waiting
    obtain ⟨snapshot, last, isToken⟩ := current.stored started
    refine at_rest_of_quiet last (tracked.quiet _ (List.mem_of_getLast? last)) ?_ none
    rw [isToken]
    exact isCursor

structure Hears (s : System) : Prop where
  awake : Awake s
  tracked : Tracked Blank (fun _ _ => True) s
  waits : WaitsWaiting s.rows.artifact

theorem Hears.step (ok : Hears s) (heard : Heard s e) (stepped : step platform s e = some t) :
    Hears t := by
  have move := step_move stepped
  have tracked := move_tracked ok.tracked ⟨fun _ _ _ => trivial⟩ move
  exact ⟨move_awake ok.awake ok.tracked tracked ok.waits heard move, tracked,
    (move_grows move).artifact ▸ ok.waits⟩

theorem created_hears {artifact : Json} {runId : String} {maxAttempts now : Nat}
    (apart : MergesApart artifact) (waits : WaitsWaiting artifact) :
    Hears (created artifact runId maxAttempts now) :=
  ⟨⟨.of_job rfl rfl, nofun, nofun, nofun⟩, created_tracked apart, waits⟩

end Step

/-- The last token waits, and some stored input can be consumed by its wait. -/
def inputWaits (rows : Rows) : Bool :=
  rows.lastSnapshot?.any fun snapshot => isWaiting snapshot.token &&
    rows.events.any fun event => event.direction == .input && canConsume event snapshot.token

theorem AtRest.none_waits {rows : Rows} (atRest : AtRest rows) : inputWaits rows = false := by
  refine Bool.eq_false_iff.mpr fun waits => ?_
  obtain ⟨snapshot, last, found⟩ := (Option.any_eq_true ..).mp waits
  obtain ⟨event, stored, isInput⟩ := List.any_eq_true.mp (Bool.and_eq_true_iff.mp found).2
  rw [Bool.and_eq_true, beq_iff_eq] at isInput
  rw [atRest snapshot last event stored isInput.1] at isInput
  cases isInput.2

/-- **No wake-up is lost.** For an artifact whose merges keep off the runtime's own paths and whose wait
condition holds of waiting tokens only, in any interleaving of requests, queue operations and leased
turns: while the run is unfinished and a stored input can be consumed by the wait of its last token,
its job is pending, to be retried or running. -/
theorem no_lost_wakeup {platform : Platform} {artifact : Json} {runId : String} {maxAttempts now : Nat}
    {s : System} (apart : MergesApart artifact) (waits : WaitsWaiting artifact)
    (run : Run (step platform) Heard (created artifact runId maxAttempts now) s)
    (unfinished : s.rows.finished = false) (input : inputWaits s.rows = true) :
    ∃ job, s.rows.job = some job ∧
      (job.status = .pending ∨ job.status = .retryableFailed ∨ job.status = .running) := by
  have ok : Hears s := run.invariant (fun _ _ _ ok => ok.step) (created_hears apart waits)
  obtain ⟨job, has, status⟩ := ok.awake.job unfinished
  refine ⟨job, has, ?_⟩
  rcases status with awake | ⟨-, atRest⟩
  · revert awake
    cases job.status <;> simp [JobStatus.awake]
  · rw [atRest.none_waits] at input
    cases input

/-- Without a condition of the artifact's own, a token waits if its status says so. -/
theorem waits_waiting_default {artifact : Json}
    (none : artifact.at? ["halt", "wait", "field_equals"] = none) : WaitsWaiting artifact := by
  intro token halts
  rwa [haltWait, haltsOn, none] at halts

/-- The scaffold waits, its job rests, and the input wakes it up. -/
theorem no_lost_wakeup_brewing :
    ∃ artifact s, Compiler.accepted (Compiler.brewCandidate (Compiler.scaffoldNodes "brew"
        [Compiler.brewStep]) []) = some artifact ∧
      follow (step plainPlatform) Heard (created artifact "run-1" 3 0) brewTurns = some s ∧
      inputWaits s.rows = true ∧ ∃ job, s.rows.job = some job ∧
      (job.status = .pending ∨ job.status = .retryableFailed ∨ job.status = .running) := by
  have checked : ((Compiler.accepted (Compiler.brewCandidate (Compiler.scaffoldNodes "brew"
      [Compiler.brewStep]) [])).bind fun artifact =>
      (follow (step plainPlatform) Heard (created artifact "run-1" 3 0) brewTurns).map
        fun s => (artifact, s)).any
      (fun found => decide (MergesApart found.1) &&
        (found.1.at? ["halt", "wait", "field_equals"]).isNone && !found.2.rows.finished &&
        inputWaits found.2.rows) = true := by
    decide +kernel
  obtain ⟨artifact, ⟨_, s⟩, isArtifact, ran, passes⟩ := checked_run checked
  obtain ⟨_, followed, same⟩ := Option.map_eq_some_iff.mp ran
  obtain ⟨rfl, rfl⟩ := Prod.mk.inj same
  simp only [Bool.and_eq_true, decide_eq_true_eq, Option.isNone_iff_eq_none, Bool.not_eq_true']
    at passes
  obtain ⟨⟨⟨apart, plain⟩, unfinished⟩, input⟩ := passes
  exact ⟨_, _, isArtifact, followed, input, no_lost_wakeup apart (waits_waiting_default plain)
    (run_of_follow followed) unfinished input⟩

/-! ### Artifacts that lose a wake-up -/

/-- An instruction that moves the terminal cursor ahead of the stream, along the given path. -/
def jumpingNodes (before : List Json) (path : String) : List Json :=
  [Compiler.startNode "brew",
    Compiler.withField "merge" (arr (Compiler.keepsObservation "instruct_brew" :: before ++
      [obj [("op", str "set"), ("path", str path), ("value", num 1000)]]))
      (Compiler.instructNode Compiler.brewStep true),
    Compiler.evaluateNode Compiler.brewStep "final_verify", Compiler.finalVerifyNode,
    Compiler.terminalNode]

/-- An evaluation that is not enabled, with a wait condition that holds at its phase. -/
def idlingNodes : List Json :=
  [Compiler.startNode "brew", Compiler.instructNode Compiler.brewStep true,
    Compiler.withField "guard" (obj [("phase_is", str "evaluate_brew"),
      ("field_exists", str "facts.ready")]) (Compiler.evaluateNode Compiler.brewStep "final_verify"),
    Compiler.finalVerifyNode, Compiler.terminalNode]

def idlingHalt : Fields :=
  [("wait", obj [("field_equals", obj [("path", str "phase"), ("value", str "evaluate_brew")])])]

/-- The job rests although the run is unfinished and an input waits. -/
def sleepsThrough (s : System) : Bool :=
  !s.rows.finished && inputWaits s.rows &&
    s.rows.job.any fun job => decide (job.status = .succeeded)

/-- The small run up to its wait, and an input whose direction is spelled in capitals. -/
def capitalTurns : List Event :=
  brewTurns.dropLast ++ [Event.append { textInput "a" with direction := "INPUT" }]

/-- In a run of the accepted candidate a job comes to rest over an input. -/
def LosesWakeup (candidate : Json) (events : List Event) : Prop :=
  ∃ artifact s, Compiler.accepted candidate = some artifact ∧
    follow (step plainPlatform) UnderLease (created artifact "run-1" 3 0) events = some s ∧
    sleepsThrough s = true

/-- A wake-up is lost where a merge moves the cursor, along its own path or through an object taken from
the token, where the artifact's own wait condition holds of a token that does not wait, and where the
direction of an input is spelled in capitals. -/
theorem wakeups_lost :
    LosesWakeup (Compiler.brewCandidate (jumpingNodes [] "metadata.terminal_cursor") [])
      (brewTurns ++ [Event.claim 2 100, .begin 2 true (plainSupply "4")]) ∧
    LosesWakeup (Compiler.brewCandidate (jumpingNodes [Compiler.setFrom "facts.held" "token.metadata"]
      "facts.held.terminal_cursor") [])
      (brewTurns ++ [Event.claim 2 100, .begin 2 true (plainSupply "4")]) ∧
    LosesWakeup (Compiler.brewCandidate idlingNodes idlingHalt)
      (brewTurns ++ [Event.claim 2 100, .begin 2 true (plainSupply "4"), .turn 2 .timedOut (plainSupply "5")]) ∧
    LosesWakeup (Compiler.brewCandidate (Compiler.scaffoldNodes "brew" [Compiler.brewStep]) [])
      capitalTurns :=
  ⟨checked_run (by decide +kernel), checked_run (by decide +kernel), checked_run (by decide +kernel),
    checked_run (by decide +kernel)⟩

end Psop.Runtime
