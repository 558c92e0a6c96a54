import Psop.Runtime.Recovery

/-!
What a fork owes its inputs.

A fork joins the token of one snapshot with the stream up to a number of its own, and puts the cursor
behind the copies. `fork_accepts_input` says when the two fit: the token looks ahead of none of the
copies, and its wait has none of the copied inputs left to take. Otherwise an input is lost, as in
`fork_loses_input`, where it counts as synchronised before the wait could take it.
-/
namespace Psop.Runtime

open Json Rows Psop.Runtime.System

/-! ### The copied stream -/

theorem copy_direction {ids : ForkIds} {sourceRunId : String} {event : TerminalEvent} {rows rows' : Rows}
    (copied : copyTerminalEvent ids sourceRunId rows event = some rows') :
    ∃ copy, rows'.events = rows.events ++ [copy] ∧ copy.direction = event.direction := by
  obtain ⟨⟨stored, copy⟩, was, rfl⟩ := Option.map_eq_some_iff.mp copied
  obtain ⟨direction, toward, isRow, -, isRows⟩ := append_event_spec was
  refine ⟨copy, by rw [isRows], ?_⟩
  have same : Direction.ofText event.direction.name = some event.direction := by
    cases event.direction <;> decide
  rw [isRow]
  exact Option.some.inj (toward.symm.trans same)

theorem copies_directions {ids : ForkIds} {sourceRunId : String} {events : List TerminalEvent}
    {rows rows' : Rows}
    (copied : events.foldlM (copyTerminalEvent ids sourceRunId) rows = some rows') :
    rows'.events.map TerminalEvent.direction =
      rows.events.map TerminalEvent.direction ++ events.map TerminalEvent.direction := by
  induction events generalizing rows with
  | nil => cases copied; simp
  | cons event rest ih =>
    rw [List.foldlM_cons] at copied
    obtain ⟨next, first, later⟩ := Option.bind_eq_some_iff.mp copied
    obtain ⟨copy, added, same⟩ := copy_direction first
    rw [ih later, added]
    simp [same]

theorem Dense.take {events : List TerminalEvent} (dense : Dense events) (k : Nat) :
    Dense (events.take k) := by
  refine ⟨?_, dense.ids.sublist (List.take_sublist ..)⟩
  rw [List.map_take, dense.numbers, List.length_take]
  rcases Nat.le_total k events.length with le | ge
  · rw [List.take_range'_of_length_ge le, Nat.min_eq_left le]
  · rw [List.take_range'_of_length_le ge, Nat.min_eq_right ge]

/-- The events up to a number are a prefix of the stream. -/
theorem Dense.up_to {events : List TerminalEvent} (dense : Dense events) (last : Int) :
    events.filter (fun event => decide ((event.seqNo : Int) ≤ last)) = events.take last.toNat := by
  have split := congrArg (List.filter fun event => decide ((event.seqNo : Int) ≤ last))
    (List.take_append_drop last.toNat events)
  have before : (events.take last.toNat).filter (fun event => decide ((event.seqNo : Int) ≤ last)) =
      events.take last.toNat := by
    refine List.filter_eq_self.mpr fun event taken => ?_
    have below := dense.mem_take taken
    have stored := (dense.bounded (List.mem_of_mem_take taken)).1
    simp only [decide_eq_true_eq]
    omega
  have after : (events.drop last.toNat).filter (fun event => decide ((event.seqNo : Int) ≤ last)) =
      [] := by
    refine List.filter_eq_nil_iff.mpr fun event dropped => ?_
    have above := dense.mem_drop dropped
    simp only [decide_eq_true_eq]
    omega
  rw [List.filter_append, before, after, List.append_nil] at split
  exact split.symm

/-- Two dense streams with the same directions hold the same inputs, by number. -/
theorem Dense.same_inputs {left right : List TerminalEvent} (denseL : Dense left)
    (denseR : Dense right)
    (same : left.map TerminalEvent.direction = right.map TerminalEvent.direction)
    {event : TerminalEvent} (stored : event ∈ left) :
    ∃ other ∈ right, other.seqNo = event.seqNo ∧ other.direction = event.direction := by
  obtain ⟨i, bound, rfl⟩ := List.getElem_of_mem stored
  have lengths : left.length = right.length := by
    simpa using congrArg List.length same
  have directions := congrArg (fun list => list[i]?) same
  simp only [List.getElem?_map, List.getElem?_eq_getElem bound,
    List.getElem?_eq_getElem (lengths ▸ bound), Option.map_some, Option.some.injEq] at directions
  refine ⟨right[i], List.getElem_mem _, ?_, directions.symm⟩
  rw [denseL.getElem bound, denseR.getElem (lengths ▸ bound)]

/-! ### The fork's token -/

/-- Two tokens whose waits take the same inputs. -/
structure SameWindow (token token' : Json) : Prop where
  wait : wait? token' = wait? token
  consumed : consumption token' = consumption token

theorem SameWindow.canConsume {token token' : Json} (same : SameWindow token token')
    {event event' : TerminalEvent} (number : event'.seqNo = event.seqNo) :
    canConsume event' token' = canConsume event token := by
  simp only [Runtime.canConsume, hasConsumed, same.wait, same.consumed, number]

theorem same_window_of_writes {paths : List (List String)} {token token' : Json}
    (writes : Writes paths token token')
    (wait : ∀ q ∈ paths, Apart q ["control", "wait"])
    (consumed : ∀ q ∈ paths, Apart q ["control", "terminal_consumption"]) :
    SameWindow token token' := by
  constructor
  · simp only [wait?, writes.read wait]
  · simp only [consumption, writes.read consumed]

theorem fork_token_writes {events : List TerminalEvent} {latest : Nat} {token token' : Json}
    (forked : forkToken events latest token = some token') :
    Writes [["terminal"], ["metadata"]] token token' := by
  unfold forkToken at forked
  obtain ⟨a, listed, forked⟩ := Option.bind_eq_some_iff.mp forked
  obtain ⟨b, number, put⟩ := Option.bind_eq_some_iff.mp forked
  exact (((Writes.put listed).under (by decide)).step ((Writes.put number).under (by decide))).step
    ((Writes.put put).under (by decide))

/-- How many events a fork copies. -/
def copiedUpTo (rows : Rows) (terminalSeq : Int) : Nat := min terminalSeq.toNat rows.run.latestTerminalSeq

/-- What a fork starts with. -/
structure ForkOf (source : Rows) (snapshot : Snapshot) (terminalSeq : Int) (fork : System)
    (own : Snapshot) : Prop where
  isLast : fork.rows.lastSnapshot? = some own
  window : SameWindow snapshot.token own.token
  cursor : cursor? own.token = some (fork.rows.run.latestTerminalSeq : Int)
  latest : fork.rows.run.latestTerminalSeq = copiedUpTo source terminalSeq
  copies : fork.rows.events.map TerminalEvent.direction =
    (source.events.take terminalSeq.toNat).map TerminalEvent.direction

theorem fork_spec {platform : Platform} {ids : ForkIds} {runId : String} {source : Rows}
    {snapshot : Snapshot} {snapshotSeq : Nat} {terminalSeq : Int} {maxAttempts now : Nat}
    {fork : System} (numbered : Numbered source)
    (found : source.snapshots.find? (fun snapshot => snapshot.seqNo == snapshotSeq) = some snapshot)
    (forks : forked platform ids runId source snapshotSeq terminalSeq maxAttempts now = some fork) :
    ∃ own, ForkOf source snapshot terminalSeq fork own := by
  have start : Start platform fork := .forked forks
  have latest := (stream_start start).numbered.latest
  obtain ⟨snapshot', found', forks⟩ := Option.bind_eq_some_iff.mp forks
  obtain rfl := Option.some.inj (found.symm.trans found')
  obtain ⟨copied, copies, forks⟩ := Option.bind_eq_some_iff.mp forks
  obtain ⟨token, did, isState⟩ := Option.bind_eq_some_iff.mp forks
  obtain rfl := Option.some.inj isState
  rw [numbered.dense.up_to] at copies
  have directions : copied.events.map TerminalEvent.direction =
      (source.events.take terminalSeq.toNat).map TerminalEvent.direction := copies_directions copies
  have cursor : cursor? token = some (copied.run.latestTerminalSeq : Int) :=
    congrArg View.cursor (fork_token_view did)
  refine ⟨_, rfl, ?_, cursor, ?_, directions⟩
  · have compacted := same_window_of_writes (compact_writes platform.sha256 snapshot.token)
      (by decide) (by decide)
    have copies := same_window_of_writes (fork_token_writes did) (by decide) (by decide)
    exact ⟨copies.wait.trans compacted.wait, copies.consumed.trans compacted.consumed⟩
  · have lengths := congrArg List.length directions
    rw [List.length_map, List.length_map, List.length_take, ← numbered.latest] at lengths
    exact latest.trans lengths

/-! ### Inputs of a fork -/

/-- Nothing the token recorded lies past the copies, later inputs can be taken by its wait, and the
copied ones that could be are still ahead of its cursor. -/
structure AcceptsInput (platform : Platform) (fork : System) (token : Json) : Prop where
  records : ∀ record ∈ consumption token, ∀ n, recordSeq record = some n →
    n ≤ fork.rows.run.latestTerminalSeq
  window : ∀ wait, wait? token = some wait → acceptAfter wait ≤ fork.rows.run.latestTerminalSeq
  later : ∀ s, Run (step platform) anyStep fork s →
    ∀ event ∈ s.rows.events.drop fork.rows.events.length, event.direction = .input →
      (wait? token).isSome = true → canConsume event token = true
  pending : ∀ event ∈ fork.rows.events, event.direction = .input → canConsume event token = true →
    ∀ cursor, cursor? token = some cursor → cursor < event.seqNo

/-- The cut of the stream fits the snapshot: it is behind what the token consumed and behind the opening
of its window, and leaves the wait none of the copied inputs to take. -/
structure CutFits (rows : Rows) (token : Json) (terminalSeq : Int) : Prop where
  records : ∀ record ∈ consumption token, ∀ n, recordSeq record = some n →
    n ≤ copiedUpTo rows terminalSeq
  window : ∀ wait, wait? token = some wait → acceptAfter wait ≤ copiedUpTo rows terminalSeq
  settled : ∀ event ∈ rows.events, event.direction = .input →
    event.seqNo ≤ copiedUpTo rows terminalSeq → canConsume event token = false

theorem can_consume_above {token : Json} {latest : Int} {event : TerminalEvent}
    (records : ∀ record ∈ consumption token, ∀ n, recordSeq record = some n → n ≤ latest)
    (window : ∀ wait, wait? token = some wait → acceptAfter wait ≤ latest)
    (waits : (wait? token).isSome = true) (above : latest < event.seqNo) :
    canConsume event token = true := by
  obtain ⟨wait, has⟩ := Option.isSome_iff_exists.mp waits
  have fresh : hasConsumed token event.seqNo = false := by
    refine List.any_eq_false.mpr fun record stored same => ?_
    have bound := records record stored _ (beq_iff_eq.mp same)
    omega
  have opened := window wait has
  simp only [canConsume, has, fresh, Bool.not_false, Bool.and_true, decide_eq_true_eq]
  omega

/-- **A fork accepts new input exactly if its cut fits its snapshot**, for every source run, snapshot and
number. -/
theorem fork_accepts_input {platform : Platform} {s t fork : System} {ids : ForkIds} {runId : String}
    {snapshot : Snapshot} {snapshotSeq : Nat} {terminalSeq : Int} {maxAttempts now : Nat}
    (start : Start platform s) (run : Run (step platform) anyStep s t)
    (found : t.rows.snapshots.find? (fun snapshot => snapshot.seqNo == snapshotSeq) = some snapshot)
    (forks : forked platform ids runId t.rows snapshotSeq terminalSeq maxAttempts now = some fork) :
    ∃ own, fork.rows.lastSnapshot? = some own ∧
      (AcceptsInput platform fork own.token ↔ CutFits t.rows snapshot.token terminalSeq) := by
  have numbered := (stream_run start run).numbered
  have numberedF := (stream_start (.forked forks)).numbered
  obtain ⟨own, isFork⟩ := fork_spec numbered found forks
  have latest := isFork.latest
  have denseCopy := numbered.dense.take terminalSeq.toNat
  refine ⟨own, isFork.isLast, fun accepts => ?_, fun fits => ?_⟩
  · refine ⟨fun record stored n isN => ?_, fun wait has => ?_, fun event stored input bound => ?_⟩
    · rw [← latest]
      exact accepts.records record (isFork.window.consumed.symm ▸ stored) n isN
    · rw [← latest]
      exact accepts.window wait (isFork.window.wait.trans has)
    · refine Bool.eq_false_iff.mpr fun consumable => ?_
      have taken : event ∈ t.rows.events.take terminalSeq.toNat := by
        obtain ⟨i, within, rfl⟩ := List.getElem_of_mem stored
        rw [numbered.dense.getElem within] at bound
        unfold copiedUpTo at bound
        exact List.mem_take_iff_getElem.mpr ⟨i, by omega, rfl⟩
      obtain ⟨copy, isCopy, number, toward⟩ :=
        denseCopy.same_inputs numberedF.dense isFork.copies.symm taken
      have behind := accepts.pending copy isCopy (toward.trans input)
        ((isFork.window.canConsume number).trans consumable) _ isFork.cursor
      omega
  · have records : ∀ record ∈ consumption own.token, ∀ n, recordSeq record = some n →
        n ≤ fork.rows.run.latestTerminalSeq := fun record stored n isN => by
      rw [latest]
      exact fits.records record (isFork.window.consumed ▸ stored) n isN
    have window : ∀ wait, wait? own.token = some wait →
        acceptAfter wait ≤ fork.rows.run.latestTerminalSeq := fun wait has => by
      rw [latest]
      exact fits.window wait (isFork.window.wait.symm.trans has)
    refine ⟨records, window, fun u more event added input waits => ?_, fun copy isCopy input consumable => ?_⟩
    · have dense := (stream_run (.forked forks) more).numbered.dense
      have above := dense.mem_drop added
      exact can_consume_above records window waits (by rw [numberedF.latest]; omega)
    · obtain ⟨event, taken, number, toward⟩ :=
        numberedF.dense.same_inputs denseCopy isFork.copies isCopy
      have settled := fits.settled event (List.mem_of_mem_take taken) (toward.trans input) ?_
      · rw [isFork.window.canConsume number.symm, settled] at consumable
        cases consumable
      · have bounded := (numberedF.dense.bounded isCopy).2
        rw [numberedF.latest] at latest
        omega

/-- The ids of a fork, for a host whose ids are plain texts. -/
def plainForkIds : ForkIds :=
  ⟨fun seqNo => "fork:" ++ toString seqNo, fun _ _ => "part", fun _ => null⟩

/-- The last snapshot of the run, forked with the stream up to a number. -/
def forkedLast (terminalSeq : Int) (s : System) : Option (Snapshot × System) :=
  (s.rows.snapshots.find? fun snapshot => snapshot.seqNo == s.rows.run.latestSnapshotSeq).bind
    fun snapshot =>
      (forked plainPlatform plainForkIds "run-2" s.rows s.rows.run.latestSnapshotSeq terminalSeq 3
        s.now).map fun fork => (snapshot, fork)

/-- A stored input its wait could take is behind the cursor of the last token. -/
def skipsInput (s : System) : Bool :=
  s.rows.lastSnapshot?.any fun own => (cursor? own.token).any fun cursor =>
    s.rows.events.any fun event => event.direction == .input && canConsume event own.token &&
      decide ((event.seqNo : Int) ≤ cursor)

theorem skips_input_spec {platform : Platform} {fork : System} (skips : skipsInput fork = true) :
    ∃ own, fork.rows.lastSnapshot? = some own ∧ ¬ AcceptsInput platform fork own.token := by
  obtain ⟨own, last, skips⟩ := (Option.any_eq_true ..).mp skips
  obtain ⟨cursor, isCursor, skips⟩ := (Option.any_eq_true ..).mp skips
  obtain ⟨event, stored, skips⟩ := List.any_eq_true.mp skips
  simp only [Bool.and_eq_true, beq_iff_eq, decide_eq_true_eq] at skips
  obtain ⟨⟨input, consumable⟩, behind⟩ := skips
  refine ⟨own, last, fun accepts => ?_⟩
  have ahead := accepts.pending event stored input consumable cursor isCursor
  omega

/-- The scaffold waits, an input has come, and the fork copies the stream before it. -/
theorem fork_accepts_input_brewing :
    ∃ artifact t snapshot fork own, Compiler.accepted (Compiler.brewCandidate (Compiler.scaffoldNodes
        "brew" [Compiler.brewStep]) []) = some artifact ∧
      Run (step plainPlatform) anyStep (created artifact "run-1" 3 0) t ∧
      forkedLast 1 t = some (snapshot, fork) ∧ fork.rows.lastSnapshot? = some own ∧
      (AcceptsInput plainPlatform fork own.token ↔ CutFits t.rows snapshot.token 1) := by
  obtain ⟨artifact, t, isArtifact, followed, passes⟩ := checked_run (show
    ((Compiler.accepted (Compiler.brewCandidate (Compiler.scaffoldNodes "brew"
      [Compiler.brewStep]) [])).bind fun artifact =>
      follow (step plainPlatform) anyStep (created artifact "run-1" 3 0) brewTurns).any
      (fun t => (forkedLast 1 t).isSome) = true by decide +kernel)
  obtain ⟨⟨snapshot, fork⟩, forks⟩ := Option.isSome_iff_exists.mp passes
  have did := forks
  obtain ⟨isSnapshot, found, did⟩ := Option.bind_eq_some_iff.mp did
  obtain ⟨isFork, forked, same⟩ := Option.map_eq_some_iff.mp did
  obtain ⟨rfl, rfl⟩ : isSnapshot = snapshot ∧ isFork = fork := Prod.mk.inj same
  have run := run_of_follow followed
  obtain ⟨own, last, iff⟩ := fork_accepts_input (.created artifact "run-1" 3 0) run found forked
  exact ⟨artifact, t, isSnapshot, isFork, own, isArtifact, run, forks, last, iff⟩

/-- Forked with the whole stream, the snapshot's wait never sees the input that was there for it. -/
theorem fork_loses_input :
    ∃ artifact t snapshot fork own, Compiler.accepted (Compiler.brewCandidate (Compiler.scaffoldNodes
        "brew" [Compiler.brewStep]) []) = some artifact ∧
      Run (step plainPlatform) anyStep (created artifact "run-1" 3 0) t ∧
      forkedLast 2 t = some (snapshot, fork) ∧ fork.rows.lastSnapshot? = some own ∧
      ¬ AcceptsInput plainPlatform fork own.token := by
  obtain ⟨artifact, t, isArtifact, followed, passes⟩ := checked_run (show
    ((Compiler.accepted (Compiler.brewCandidate (Compiler.scaffoldNodes "brew"
      [Compiler.brewStep]) [])).bind fun artifact =>
      follow (step plainPlatform) anyStep (created artifact "run-1" 3 0) brewTurns).any
      (fun t => (forkedLast 2 t).any fun found => skipsInput found.2) = true by decide +kernel)
  obtain ⟨⟨snapshot, fork⟩, forks, skips⟩ := (Option.any_eq_true ..).mp passes
  obtain ⟨own, last, refuses⟩ := skips_input_spec skips
  exact ⟨artifact, t, snapshot, fork, own, isArtifact, run_of_follow followed, forks, last, refuses⟩

end Psop.Runtime
