import Psop.Compiler.Scaffold
import Psop.Runtime.Protocol

/-!
The terminal cursor as a watermark.

`Copied` says that a token's copies are those of the first events of the stream, up to its cursor and
in their order. Synchronisation, recovery and forks keep that without condition. The entry of the first
wait pulls inputs in without the outputs between them, so it keeps it only where no output lies above
the cursor and below an input (`Clear`). `watermark_run` is the result for runs.
-/
namespace Psop.Runtime

open Json Rows Psop.Runtime.System

/-! ### Copies up to the cursor -/

/-- The copies are those of the stream's first events, up to the cursor. -/
def Copied (events : List TerminalEvent) (v : View) : Prop :=
  ∃ c : Nat, c ≤ events.length ∧ v.cursor = some (c : Int) ∧
    v.copies = (events.take c).map View.entry

/-- Synchronisation copies one event after the other. -/
theorem sync_all_copies (rest : List TerminalEvent) (v : View) :
    (rest.foldl View.sync v).copies = v.copies ++ rest.map View.entry ∧
    (rest.foldl View.sync v).cursor = (rest.getLast?.map fun event => (event.seqNo : Int)).or v.cursor := by
  induction rest generalizing v with
  | nil => exact ⟨(List.append_nil _).symm, rfl⟩
  | cons event rest ih =>
    have one : (v.sync event).copies = v.copies ++ [View.entry event] ∧
        (v.sync event).cursor = some (event.seqNo : Int) := by
      unfold View.sync
      split
      · exact ⟨rfl, rfl⟩
      · split <;> exact ⟨rfl, rfl⟩
    rw [List.foldl_cons, (ih _).1, (ih _).2, one.1, one.2]
    refine ⟨by simp, ?_⟩
    cases rest with
    | nil => rfl
    | cons next rest => rw [List.getLast?_cons_cons]; simp [List.getLast?_cons]

/-- No output lies above the cursor and below an input. -/
def Clear (events : List TerminalEvent) (v : View) : Prop :=
  v.prior = false → ∀ cursor, v.cursor = some cursor →
    ∀ output ∈ events, output.direction = .output → cursor < output.seqNo →
    ∀ input ∈ events, input.direction = .input → input.seqNo < output.seqNo

theorem pull_outputs {rest : List TerminalEvent} (outputs : ∀ event ∈ rest, event.direction = .output)
    (v : View) : rest.foldl View.pull v = v := by
  induction rest with
  | nil => rfl
  | cons event rest ih =>
    have still : v.pull event = v := by
      unfold View.pull
      rw [outputs event List.mem_cons_self]
    rw [List.foldl_cons, still, ih fun later isLater => outputs later (List.mem_cons_of_mem _ isLater)]

/-- Inputs that come before all outputs are pulled in without a gap. -/
theorem pull_inputs_copied {done rest : List TerminalEvent} {v : View} {accept : Int}
    (dense : Dense (done ++ rest)) (window : v.accept? = some accept) (below : accept ≤ done.length)
    (cursor : v.cursor = some (done.length : Int)) (copies : v.copies = done.map View.entry)
    (records : ∀ n : Int, some n ∈ v.records → n ≤ done.length)
    (clear : ∀ output ∈ rest, output.direction = .output →
      ∀ input ∈ rest, input.direction = .input → input.seqNo < output.seqNo) :
    Copied (done ++ rest) (rest.foldl View.pull v) := by
  induction rest generalizing done v with
  | nil => exact ⟨done.length, by simp, cursor, by simp [copies]⟩
  | cons event rest ih =>
    have number : event.seqNo = done.length + 1 := by
      have at_ := dense.getElem (show done.length < (done ++ event :: rest).length by simp)
      simpa using at_
    cases toward : event.direction with
    | output =>
      have outputs : ∀ later ∈ event :: rest, later.direction = .output := by
        intro later isLater
        cases other : later.direction with
        | output => rfl
        | input =>
          have before := clear event List.mem_cons_self toward later isLater other
          have after : done.length < later.seqNo :=
            dense.mem_drop (by rw [List.drop_left]; exact isLater)
          omega
      rw [pull_outputs outputs]
      exact ⟨done.length, by simp, cursor, by rw [List.take_left, copies]⟩
    | input =>
      have consumable : v.consumable event.seqNo = true := by
        have fresh : some (event.seqNo : Int) ∉ v.records := fun old => by
          have bound := records _ old
          omega
        simp only [View.consumable, window, Bool.and_eq_true, decide_eq_true_eq,
          Bool.not_eq_true', List.contains_eq_mem, decide_eq_false_iff_not]
        exact ⟨by omega, fresh⟩
      have unknown : ¬ (event.id ≠ "" ∧ event.id ∈ v.copies.map Prod.fst) := by
        rintro ⟨-, known⟩
        rw [copies, List.map_map] at known
        obtain ⟨old, isOld, same⟩ := List.mem_map.mp known
        exact (List.pairwise_append.mp dense.ids).2.2 old isOld event List.mem_cons_self same
      have pulled : v.pull event = View.take event { v with
          cursor := some (event.seqNo : Int), copies := v.copies ++ [View.entry event] } := by
        have moves : max (done.length : Int) event.seqNo = event.seqNo := by omega
        simp only [View.pull, toward, consumable, Bool.not_true, Bool.false_eq_true, if_false,
          if_neg unknown, cursor, Option.map_some, moves]
      rw [List.foldl_cons, pulled]
      have split : done ++ event :: rest = (done ++ [event]) ++ rest := by simp
      rw [split]
      have records' : ∀ n : Int, some n ∈ v.records ++ [some (event.seqNo : Int)] →
          n ≤ (done ++ [event]).length := by
        intro n isRecord
        rw [List.length_append, List.length_singleton]
        rcases List.mem_append.mp isRecord with old | new
        · have bound := records n old
          omega
        · have same := Option.some.inj (List.mem_singleton.mp new)
          omega
      refine ih (split ▸ dense) window (by simp; omega) ?_ ?_ records' ?_
      · simp [View.take, number]
      · simp [View.take, copies]
      · exact fun output isOutput isOut input isInput => clear output
          (List.mem_cons_of_mem _ isOutput) isOut input (List.mem_cons_of_mem _ isInput)

/-- The entry of a wait. -/
theorem entered_copied {events : List TerminalEvent} {v v' : View} {turnAccept : Int}
    (dense : Dense events) (copied : Copied events v) (clear : Clear events v)
    (fresh : v.prior = false → v.cursor = some turnAccept)
    (entered : Entered events.length events turnAccept v v') : Copied events v' := by
  obtain ⟨c, bound, cursor, copies⟩ := copied
  obtain ⟨accept, later, -, first, moved⟩ := entered.entry
  rcases moved with rfl | ⟨below, rfl⟩
  · exact ⟨c, bound, cursor, copies⟩
  · have new : v.prior = false := by
      cases prior : v.prior with
      | false => rfl
      | true => have above := later prior; omega
    obtain rfl : turnAccept = c := Option.some.inj ((fresh new).symm.trans cursor)
    obtain rfl : accept = c := by rw [first new]; omega
    have recordless : v.records = [] := by
      simp only [View.prior, Bool.or_eq_false_iff] at new
      simpa using new.2
    rw [dense.between_cursor]
    have split : events.take c ++ events.drop c = events := List.take_append_drop c events
    have length : (events.take c).length = c := by rw [List.length_take]; omega
    have window : (v.enter (c : Int)).accept? = some (c : Int) := by
      simp [View.accept?, View.enter, toIntOr0?_num]
    have records : ∀ n : Int, some n ∈ (v.enter (c : Int)).records → n ≤ (events.take c).length := by
      simp [View.enter, recordless]
    have clearRest : ∀ output ∈ events.drop c, output.direction = .output →
        ∀ input ∈ events.drop c, input.direction = .input → input.seqNo < output.seqNo := by
      intro output isOutput isOut input isInput isIn
      have above := dense.mem_drop isOutput
      exact clear new c cursor output (List.mem_of_mem_drop isOutput) isOut (by omega) input
        (List.mem_of_mem_drop isInput) isIn
    have pulled := pull_inputs_copied (split.symm ▸ dense) window (by omega)
      (by rw [length]; exact cursor) copies records clearRest
    rw [split] at pulled
    exact pulled

/-- **The protocol keeps the watermark** where waits are entered with a clear stream. -/
theorem reached_copied {events : List TerminalEvent} {v : View} {waits : List WaitMark}
    (reached : Reached Mirrors Clear events v waits) : Dense events ∧ Copied events v := by
  induction reached with
  | start isBase =>
    obtain ⟨dense, cursor, copies⟩ := isBase
    exact ⟨dense, _, le_refl _, cursor, by rw [copies, List.take_length]⟩
  | grow _ more dense ih =>
    obtain ⟨-, c, bound, cursor, copies⟩ := ih
    obtain ⟨added, rfl⟩ := more
    exact ⟨dense, c, by simp; omega, cursor, by rw [copies, List.take_append_of_le_length bound]⟩
  | @sync events v v' _ from_ accept _ isCursor _ _ synced ih =>
    obtain ⟨dense, c, bound, cursor, copies⟩ := ih
    obtain rfl : from_ = c := Option.some.inj (isCursor.symm.trans cursor)
    refine ⟨dense, ?_⟩
    obtain ⟨isCopies, isAt⟩ := sync_all_copies (eventsFrom ((c : Int) + 1) events)
      { v with window := some (some (num accept)) }
    rw [← synced, dense.from_cursor] at isCopies isAt
    by_cases all : c = events.length
    · refine ⟨c, bound, ?_, ?_⟩
      · rw [isAt, all, List.drop_length]
        exact all ▸ cursor
      · rw [isCopies, all, List.drop_length]
        simpa [all] using copies
    · refine ⟨events.length, le_refl _, ?_, ?_⟩
      · rw [isAt, List.getLast?_drop, if_neg (by omega), List.getLast?_eq_getElem?,
          List.getElem?_eq_getElem (by omega), Option.map_some, dense.getElem (by omega)]
        simp only [Option.some_or, Option.some.injEq]
        omega
      · rw [isCopies, copies, ← List.map_append, List.take_append_drop, List.take_length]
  | enter _ permitted fresh entered ih =>
    exact ⟨ih.1, entered_copied ih.1 ih.2 permitted fresh entered⟩
  | @next events v _ event at_ _ stored _ isCursor isNext ih =>
    obtain ⟨dense, c, bound, cursor, copies⟩ := ih
    obtain rfl : at_ = c := Option.some.inj (isCursor.symm.trans cursor)
    have within := (dense.bounded stored).2
    refine ⟨dense, c + 1, by omega, ?_, ?_⟩
    · rw [View.copy, isNext]
      rfl
    · obtain ⟨i, isPlace, rfl⟩ := List.getElem_of_mem stored
      have number := dense.getElem isPlace
      obtain rfl : i = c := by omega
      rw [View.copy, copies, List.take_succ_eq_append_getElem isPlace, List.map_append]
      rfl
  | drop _ ih => exact ih

/-! ### The watermark of a token -/

/-- The entry is a copy of the event. -/
def isCopy (event : TerminalEvent) (entry : Json) : Bool :=
  (entry.field "id").strOr == event.id && (entry.field "seq_no").int? == some (event.seqNo : Int)

/-- Every event up to the cursor was copied once, and the copies stand in the order of their
numbers. -/
structure Watermark (events : List TerminalEvent) (token : Json) : Prop where
  cursor : ∃ cursor, cursor? token = some cursor ∧ ∀ event ∈ events, (event.seqNo : Int) ≤ cursor →
    (tokenEvents token).countP (isCopy event) = 1
  ordered : ((tokenEvents token).filterMap fun entry => (entry.field "seq_no").int?).Pairwise (· < ·)

theorem isCopy_of_entry {event old : TerminalEvent} {entry : Json}
    (same : copyOf entry = View.entry old) :
    isCopy event entry = (old.id == event.id && old.seqNo == event.seqNo) := by
  obtain ⟨isId, isSeq⟩ := Prod.mk.inj same
  simp only [isCopy, isId, isSeq, int?]
  congr 1
  rw [Bool.eq_iff_iff, beq_iff_eq, beq_iff_eq, Option.some.injEq]
  omega

theorem copied_count {events : List TerminalEvent} {entries : List Json}
    (copies : entries.map copyOf = events.map View.entry) (event : TerminalEvent) :
    entries.countP (isCopy event) =
      events.countP fun old => old.id == event.id && old.seqNo == event.seqNo := by
  induction entries generalizing events with
  | nil =>
    obtain rfl : events = [] := List.map_eq_nil_iff.mp copies.symm
    rfl
  | cons entry entries ih =>
    cases events with
    | nil => cases copies
    | cons old events =>
      obtain ⟨same, rest⟩ := List.cons.inj copies
      rw [List.countP_cons, List.countP_cons, ih rest, isCopy_of_entry same]

theorem copied_numbers {events : List TerminalEvent} {entries : List Json}
    (copies : entries.map copyOf = events.map View.entry) :
    (entries.filterMap fun entry => (entry.field "seq_no").int?) =
      events.map fun event => (event.seqNo : Int) := by
  have numbers := congrArg (List.filterMap fun copy : Copy => copy.2.int?) copies
  rw [List.filterMap_map, List.filterMap_map] at numbers
  refine numbers.trans ?_
  rw [← List.filterMap_eq_map]
  rfl

theorem Copied.watermark {events : List TerminalEvent} {token : Json} (dense : Dense events)
    (copied : Copied events (view token)) : Watermark events token := by
  obtain ⟨c, bound, cursor, copies⟩ := copied
  refine ⟨⟨c, cursor, fun event stored below => ?_⟩, ?_⟩
  · rw [copied_count copies]
    have isTaken : event ∈ events.take c := by
      rw [← List.take_append_drop c events] at stored
      refine (List.mem_append.mp stored).resolve_right fun dropped => ?_
      have above := dense.mem_drop dropped
      omega
    have distinct : (events.take c).Pairwise fun a b => a.id ≠ b.id :=
      dense.ids.sublist (List.take_sublist c events)
    obtain ⟨before, after, isSplit⟩ := List.append_of_mem isTaken
    rw [isSplit] at distinct ⊢
    obtain ⟨-, tail, across⟩ := List.pairwise_append.mp distinct
    have none : ∀ part : List TerminalEvent, (∀ old ∈ part, old.id ≠ event.id) →
        part.countP (fun old => old.id == event.id && old.seqNo == event.seqNo) = 0 :=
      fun part differ => List.countP_eq_zero.mpr fun old isOld => by simp [differ old isOld]
    rw [List.countP_append, List.countP_cons,
      none before fun old isOld => across old isOld event List.mem_cons_self,
      none after fun old isOld same => (List.pairwise_cons.mp tail).1 old isOld same.symm]
    simp
  · rw [show (tokenEvents token).filterMap (fun entry => (entry.field "seq_no").int?) = _ from
      copied_numbers copies]
    have increasing : (events.map TerminalEvent.seqNo).Pairwise (· < ·) := by
      rw [dense.numbers]
      exact List.pairwise_lt_range'
    have taken := (increasing.sublist ((List.take_sublist c events).map _))
    rw [List.pairwise_map] at taken ⊢
    exact taken.imp fun less => by omega

/-! ### Runs -/

/-- No stored output above the token's cursor has a stored input behind it. -/
def clearAbove (events : List TerminalEvent) (token : Json) : Bool :=
  match cursor? token with
  | none => true
  | some cursor => events.all fun output => output.direction == .input ||
      decide ((output.seqNo : Int) ≤ cursor) ||
      events.all fun input => input.direction == .output || decide (input.seqNo < output.seqNo)

/-- The attempt will store what the node does: it holds its lease and the last snapshot, and the node
runs without failure. -/
def storesNode (platform : Platform) (s : System) (attempt : Nat) (turn : Turn) (node : Json)
    (outcome : AgentOutcome) : Bool :=
  s.rows.holdsLease s.now (leaseOf attempt turn.leased) &&
    s.rows.run.latestSnapshotSeq == turn.snapshotSeq &&
    match executed platform s turn node outcome with
    | .ok _ => true
    | .error _ => false

/-- If the step enters the first wait of its run, no output above the cursor has an input behind
it. -/
def firstWaitClear (platform : Platform) (s : System) (e : Event) : Prop :=
  (match e with
    | .turn attempt outcome _ => match s.attempts attempt with
      | .looping turn => match selectNode (enabledNodes s.rows.artifact turn.token) with
        | some node =>
          !((interaction node).field "wait_after_output").truthy || hasPriorWait turn.token ||
            !storesNode platform s attempt turn node outcome || clearAbove s.rows.events turn.token
        | none => true
      | _ => true
    | _ => true) = true

instance (platform : Platform) (s : System) (e : Event) :
    Decidable (firstWaitClear platform s e) := inferInstanceAs (Decidable (_ = true))

theorem clear_above_spec {events : List TerminalEvent} {token : Json}
    (clear : clearAbove events token = true) : ∀ cursor, cursor? token = some cursor →
    ∀ output ∈ events, output.direction = .output → cursor < output.seqNo →
    ∀ input ∈ events, input.direction = .input → input.seqNo < output.seqNo := by
  intro cursor isCursor output isOutput isOut above input isInput isIn
  unfold clearAbove at clear
  rw [isCursor] at clear
  have all := List.all_eq_true.mp clear output isOutput
  have notBelow : ¬ (output.seqNo : Int) ≤ cursor := by omega
  simp only [isOut, notBelow, decide_false, Bool.or_false] at all
  have behind := List.all_eq_true.mp ((Bool.or_eq_true_iff.mp all).resolve_left (by decide)) input
    isInput
  simpa [isIn] using behind

theorem first_wait_clear {platform : Platform} {s : System} {e : Event}
    (clear : firstWaitClear platform s e) : EntersWithin platform Clear s e := by
  constructor
  intro attempt turn outcome supply node observation charged merged shown isTurn commits wants new
    cursor isCursor
  have stores : storesNode platform s attempt turn node outcome = true := by
    obtain ⟨made, ran, -⟩ := commits.merge
    simp [storesNode, commits.holds, commits.current, ran]
  subst isTurn
  simp only [firstWaitClear, commits.selected.looping, commits.selected.selected, wants,
    has_prior_wait, new, stores, Bool.not_true, Bool.false_or] at clear
  exact clear_above_spec clear cursor isCursor

/-- **The cursor is a watermark** in every run of an artifact whose merges keep off the runtime's own
paths, if the first wait is only ever entered with no output between the cursor and an input: in every
stored snapshot and every token of a turn, each event up to the cursor was copied exactly once, in the
order of the stream. -/
theorem watermark_run {platform : Platform} {s t : System} (start : Start platform s)
    (apart : MergesApart s.rows.artifact)
    (run : Run (step platform) (firstWaitClear platform) s t) :
    (∀ snapshot ∈ t.rows.snapshots, Watermark t.rows.events snapshot.token) ∧
    ∀ attempt turn, t.attempts attempt = .looping turn → Watermark t.rows.events turn.token := by
  have tracked := tracked_run (fun _ _ clear => first_wait_clear clear) (start_tracked start apart) run
  have holds : ∀ {token waits}, Reached Mirrors Clear t.rows.events (view token) waits →
      Watermark t.rows.events token := fun reached =>
    (reached_copied reached).2.watermark tracked.numbered.dense
  exact ⟨fun snapshot stored => holds (tracked.snapshots snapshot stored),
    fun attempt turn looping => holds (tracked.turns attempt turn looping).reached⟩

/-- A scaffold speaks first when it enters its first wait, so its input is copied behind the output. -/
theorem watermark_run_brewing :
    ∃ artifact t turn, Compiler.accepted (Compiler.brewCandidate (Compiler.scaffoldNodes "brew"
        [Compiler.brewStep]) []) = some artifact ∧
      follow (step plainPlatform) (firstWaitClear plainPlatform) (created artifact "run-1" 3 0)
        (brewTurns ++ [Event.claim 2 100, .begin 2 true (plainSupply "4")]) = some t ∧
      t.attempts 2 = .looping turn ∧ cursor? turn.token = some 2 ∧
      Watermark t.rows.events turn.token := by
  have checked : ((Compiler.accepted (Compiler.brewCandidate (Compiler.scaffoldNodes "brew"
      [Compiler.brewStep]) [])).bind fun artifact =>
      (follow (step plainPlatform) (firstWaitClear plainPlatform) (created artifact "run-1" 3 0)
        (brewTurns ++ [Event.claim 2 100, .begin 2 true (plainSupply "4")])).map
        fun t => (artifact, t)).any
      (fun found => decide (MergesApart found.1) && (found.2.attempts 2).turn?.any
        fun turn => cursor? turn.token == some 2) = true := by
    decide +kernel
  obtain ⟨artifact, ⟨_, t⟩, isArtifact, ran, passes⟩ := checked_run checked
  obtain ⟨_, followed, same⟩ := Option.map_eq_some_iff.mp ran
  obtain ⟨rfl, rfl⟩ := Prod.mk.inj same
  rw [Bool.and_eq_true, decide_eq_true_eq] at passes
  obtain ⟨apart, begun⟩ := passes
  obtain ⟨turn, isTurn, cursor⟩ := Option.any_eq_true .. |>.mp begun
  have looping := Attempt.looping_of_turn isTurn
  exact ⟨_, _, turn, isArtifact, followed, looping, beq_iff_eq.mp cursor,
    (watermark_run (.created ..) apart (run_of_follow followed)).2 _ _ looping⟩

/-- A node that speaks before the first wait. -/
def greetNode : Json :=
  obj [("id", str "greet"), ("kind", str "llm"), ("guard", Compiler.phaseGuard "greet"),
    ("actor", Compiler.namedActor "agent.llm"),
    ("interaction", obj [("runner_turn_kind", str "greeting"), ("output_to_terminal", .bool true)]),
    ("merge", arr [Compiler.keepsObservation "greet", Compiler.setValue "phase" "instruct_brew"])]

def greetingNodes : List Json :=
  [Compiler.withField "merge" (arr [Compiler.setValue "phase" "greet"]) (Compiler.startNode "brew"),
    greetNode, Compiler.instructNode Compiler.brewStep true,
    Compiler.evaluateNode Compiler.brewStep "final_verify", Compiler.finalVerifyNode,
    Compiler.terminalNode]

/-- An event up to the cursor has no copy. -/
def misses (events : List TerminalEvent) (token : Json) : Bool :=
  (cursor? token).any fun cursor => events.any fun event =>
    decide ((event.seqNo : Int) ≤ cursor) && (tokenEvents token).countP (isCopy event) == 0

theorem misses_spec {events : List TerminalEvent} {token : Json} (missing : misses events token = true) :
    ¬ Watermark events token := by
  intro watermark
  obtain ⟨c, cursor, once⟩ := watermark.cursor
  obtain ⟨c', cursor', found⟩ := (Option.any_eq_true ..).mp missing
  obtain rfl := Option.some.inj (cursor.symm.trans cursor')
  obtain ⟨event, stored, absent⟩ := List.any_eq_true.mp found
  simp only [Bool.and_eq_true, decide_eq_true_eq, beq_iff_eq] at absent
  have copied := once event stored absent.1
  omega

/-- An input that arrives after the greeting is pulled into the first wait, past the greeting: event 1
is missing although the cursor stands at 2. -/
theorem watermark_missed :
    ∃ artifact t, Compiler.accepted (Compiler.brewCandidate greetingNodes []) = some artifact ∧
      MergesApart artifact ∧
      follow (step plainPlatform) anyStep (created artifact "run-1" 3 0)
        [.claim 1 100, .begin 1 true (plainSupply "1"), .turn 1 .timedOut (plainSupply "2"),
          .turn 1 (plainAnswer "greet") (plainSupply "3"), .append (textInput "a"),
          .turn 1 (plainAnswer "instruct_brew") (plainSupply "4")] = some t ∧
      ∃ snapshot, t.rows.lastSnapshot? = some snapshot ∧ ¬ Watermark t.rows.events snapshot.token := by
  obtain ⟨artifact, t, isArtifact, ran, passes⟩ := checked_run (show
    ((Compiler.accepted (Compiler.brewCandidate greetingNodes [])).bind fun artifact =>
      (if MergesApart artifact then follow (step plainPlatform) anyStep (created artifact "run-1" 3 0)
        [.claim 1 100, .begin 1 true (plainSupply "1"), .turn 1 .timedOut (plainSupply "2"),
          .turn 1 (plainAnswer "greet") (plainSupply "3"), .append (textInput "a"),
          .turn 1 (plainAnswer "instruct_brew") (plainSupply "4")] else none)).any
      (fun t => t.rows.lastSnapshot?.any fun snapshot => misses t.rows.events snapshot.token) = true by
    decide +kernel)
  split at ran
  · rename_i apart
    obtain ⟨snapshot, last, missing⟩ := (Option.any_eq_true ..).mp passes
    exact ⟨artifact, t, isArtifact, apart, ran, snapshot, last, misses_spec missing⟩
  · cases ran

end Psop.Runtime
